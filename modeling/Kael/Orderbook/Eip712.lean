import Kael.Contracts.Order
import Kael.Lib.BigEndian
import Mathlib.Tactic.Tauto

/-!
# Signed Orders in the Orderbook

`order.rs` and `eip712.rs`: the orderbook's own encoder, digest and signature
check, next to those of `OrderLib`. The fields are narrower than the contract's
and are padded by hand, and the checks come in another order; both accept the
same signatures and compute the same digest (`verify_agrees`).
-/

namespace Kael.Orderbook

open BigEndian (bytes value)

structure Order where
  maker : Address
  sellToken : Address
  sellChainId : U64
  sellAmount : U128
  buyToken : Address
  buyChainId : U64
  buyAmount : U128
  validUntil : U64
  nonce : U64
  /-- When the book received the order; not signed. -/
  createdAt : U64
deriving DecidableEq, Inhabited

def Order.isExpired (o : Order) (now : U64) : Bool := o.validUntil < now

/-- The order as the contract sees it, its numbers extended with zeros. -/
def Order.toContract (o : Order) : OrderLib.Order where
  maker := o.maker
  sellToken := o.sellToken
  sellChainId := o.sellChainId.setWidth 256
  sellAmount := o.sellAmount.setWidth 256
  buyToken := o.buyToken
  buyChainId := o.buyChainId.setWidth 256
  buyAmount := o.buyAmount.setWidth 256
  validUntil := o.validUntil.setWidth 256
  nonce := o.nonce.setWidth 256

/-! ## Encoding -/

def encAddr (a : Address) : List Byte := List.replicate 12 0 ++ bytes 20 a

def encU128 (v : U128) : List Byte := List.replicate 16 0 ++ bytes 16 v

def encU64 (v : U64) : List Byte := List.replicate 24 0 ++ bytes 8 v

section Digest

variable (cr : Crypto)

def domainTypehash : Bytes32 := cr.keccak256 (asciiBytes "EIP712Domain(string name,string version)")

def orderTypehash : Bytes32 :=
  cr.keccak256 (asciiBytes ("Order(address maker,address sellToken,uint256 sellChainId," ++
    "uint256 sellAmount,address buyToken,uint256 buyChainId,uint256 buyAmount," ++
    "uint256 validUntil,uint256 nonce)"))

def domainSeparator : Bytes32 :=
  cr.keccak256 (bytes 32 (domainTypehash cr) ++ bytes 32 (cr.keccak256 (asciiBytes "Kael")) ++
    bytes 32 (cr.keccak256 (asciiBytes "1")))

/-- The bytes that `hash_struct` hashes. -/
def structBytes (o : Order) : List Byte :=
  bytes 32 (orderTypehash cr) ++ encAddr o.maker ++ encAddr o.sellToken ++ encU64 o.sellChainId ++
    encU128 o.sellAmount ++ encAddr o.buyToken ++ encU64 o.buyChainId ++ encU128 o.buyAmount ++
    encU64 o.validUntil ++ encU64 o.nonce

def hashStruct (o : Order) : Bytes32 := cr.keccak256 (structBytes cr o)

/-- The bytes that `digest` hashes. -/
def digestBytes (o : Order) : List Byte :=
  [0x19, 0x01] ++ bytes 32 (domainSeparator cr) ++ bytes 32 (hashStruct cr o)

def digest (o : Order) : Bytes32 := cr.keccak256 (digestBytes cr o)

end Digest

/-! ## Verification -/

inductive VerifyError where
  | badSignatureLength
  | malleableS
  | invalidV
  | badSignature
  | zeroSigner
  | signerNotMaker
  | orderExpired
deriving DecidableEq

/-- The order of secp256k1. -/
def secp256k1N : Nat := 0xFFFFFFFFFFFFFFFFFFFFFFFFFFFFFFFEBAAEDCE6AF48A03BBFD25E8CD0364141

def secp256k1HalfN : List Byte :=
  [0x7F, 0xFF, 0xFF, 0xFF, 0xFF, 0xFF, 0xFF, 0xFF, 0xFF, 0xFF, 0xFF, 0xFF, 0xFF, 0xFF, 0xFF, 0xFF,
    0x5D, 0x57, 0x6E, 0x73, 0x57, 0xA4, 0x50, 0x1D, 0xDF, 0xE9, 0x2F, 0x46, 0x68, 0x1B, 0x20, 0xA0]

/-- What is used of the crate `k256`. -/
structure K256 where
  /-- `Signature::from_slice`: `r` and `s`. -/
  signature : List Byte → Option (Bytes32 × Bytes32)
  /-- `VerifyingKey::recover_from_prehash`: the key as an uncompressed point. -/
  recover : Bytes32 → Bytes32 × Bytes32 → Byte → Option (List Byte)

/-- `RecoveryId::from_byte`. -/
def recoveryId (b : Byte) : Option Byte := if b ≤ 3 then some b else none

/-- The last 20 bytes of the hash of the point without its prefix. -/
def addressOf (cr : Crypto) (key : List Byte) : Address :=
  (cr.keccak256 (key.drop 1)).setWidth 160

/-- Byte slices compare lexicographically. -/
def isHighS (s : List Byte) : Bool := secp256k1HalfN < s

def verify (cr : Crypto) (k : K256) (o : Order) (signature : List Byte) (now : U64) :
    Except VerifyError Bytes32 :=
  if signature.length ≠ 65 then .error .badSignatureLength
  else
    let s := (signature.drop 32).take 32
    let v := signature.getD 64 0
    if isHighS s then .error .malleableS
    else if v ≠ 27#8 ∧ v ≠ 28#8 then .error .invalidV
    else
      match k.signature (signature.take 64) with
      | none => .error .badSignature
      | some sig =>
        match recoveryId (v - 27#8) with
        | none => .error .invalidV
        | some recid =>
          let dig := digest cr o
          match k.recover dig sig recid with
          | none => .error .badSignature
          | some key =>
            let signer := addressOf cr key
            if signer = zeroAddress then .error .zeroSigner
            else if signer ≠ o.maker then .error .signerNotMaker
            else if o.validUntil < now then .error .orderExpired
            else .ok dig

/-- `r` or `s` of a signature: at least 1 and less than the order of the curve. -/
def IsScalar (x : Bytes32) : Prop := 0 < x.toNat ∧ x.toNat < secp256k1N

instance (x : Bytes32) : Decidable (IsScalar x) := inferInstanceAs (Decidable (_ ∧ _))

/-- The crate and the EVM recover on the same curve. -/
structure SameCurve (cr : Crypto) (k : K256) : Prop where
  /-- `from_slice` accepts exactly two scalars. -/
  signature : ∀ bs : List Byte, bs.length = 64 → k.signature bs =
    if IsScalar (bytesWord (bs.take 32)) ∧ IsScalar (bytesWord (bs.drop 32)) then
      some (bytesWord (bs.take 32), bytesWord (bs.drop 32))
    else none
  /-- `ecrecover` fails on anything else. -/
  range : ∀ dig v r s, ¬(IsScalar r ∧ IsScalar s) → cr.ecrecover dig v r s = zeroAddress
  recovered : ∀ dig v r s key, IsScalar r → IsScalar s → s ≤ OrderLib.secp256k1HalfN →
    v = 27#8 ∨ v = 28#8 → k.recover dig (r, s) (v - 27#8) = some key →
    cr.ecrecover dig v r s = addressOf cr key
  notRecovered : ∀ dig v r s, IsScalar r → IsScalar s → s ≤ OrderLib.secp256k1HalfN →
    v = 27#8 ∨ v = 28#8 → k.recover dig (r, s) (v - 27#8) = none →
    cr.ecrecover dig v r s = zeroAddress

/-! ## The two encoders -/

theorem encAddr_eq (a : Address) : encAddr a = wordBytes (addressWord a) :=
  BigEndian.replicate_append_bytes (m := 20) (n := 32) (v := 256) (by omega) (by omega) (by omega) a

theorem encU128_eq (v : U128) : encU128 v = wordBytes (v.setWidth 256) :=
  BigEndian.replicate_append_bytes (m := 16) (n := 32) (v := 256) (by omega) (by omega) (by omega) v

theorem encU64_eq (v : U64) : encU64 v = wordBytes (v.setWidth 256) :=
  BigEndian.replicate_append_bytes (m := 8) (n := 32) (v := 256) (by omega) (by omega) (by omega) v

/-- The words of an order that are signed. -/
def Order.words (o : Order) : List (BitVec 256) :=
  [addressWord o.maker, addressWord o.sellToken, o.sellChainId.setWidth 256,
    o.sellAmount.setWidth 256, addressWord o.buyToken, o.buyChainId.setWidth 256,
    o.buyAmount.setWidth 256, o.validUntil.setWidth 256, o.nonce.setWidth 256]

theorem structBytes_eq (cr : Crypto) (o : Order) :
    structBytes cr o = abiEncode (OrderLib.orderTypehash cr :: o.words) := by
  simp only [structBytes, encAddr_eq, encU64_eq, encU128_eq, abiEncode, Order.words,
    List.flatMap_cons, List.flatMap_nil, List.append_nil, List.append_assoc, wordBytes_eq_bytes]
  rfl

theorem domainSeparator_eq (cr : Crypto) : domainSeparator cr = OrderLib.domainSeparator cr := by
  unfold domainSeparator OrderLib.domainSeparator abiEncode
  simp only [List.flatMap_cons, List.flatMap_nil, List.append_nil, List.append_assoc,
    wordBytes_eq_bytes]
  rfl

theorem hashStruct_eq (cr : Crypto) (o : Order) :
    hashStruct cr o = OrderLib.hashStruct cr o.toContract := by
  rw [hashStruct, structBytes_eq]
  rfl

/-- The digest of the orderbook is the contract's. -/
theorem digest_eq (cr : Crypto) (o : Order) : digest cr o = OrderLib.hash cr o.toContract := by
  rw [digest, digestBytes, domainSeparator_eq, hashStruct_eq]
  rfl

/-! ## The two signature checks -/

/-- Shifting bytes into a word appends them. -/
private theorem foldl_toNat (bs : List Byte) (acc : BitVec 256)
    (h : (acc.toNat + 1) * 256 ^ bs.length ≤ 2 ^ 256) :
    (bs.foldl (fun (acc : BitVec 256) b => (acc <<< 8) ||| b.setWidth 256) acc).toNat =
      acc.toNat * 256 ^ bs.length + value bs := by
  induction bs generalizing acc with
  | nil => simp [value]
  | cons b bs ih =>
    have hb : b.toNat < 2 ^ 8 := b.isLt
    have hpow : 0 < 256 ^ bs.length := Nat.pow_pos (by omega)
    -- No bit is shifted out, as the value of all bytes fits.
    have hacc : (acc.toNat + 1) * 256 ≤ 2 ^ 256 := by
      rw [List.length_cons, Nat.pow_succ, Nat.mul_comm (256 ^ _), ← Nat.mul_assoc] at h
      exact le_trans (Nat.le_mul_of_pos_right _ hpow) h
    -- The shifted word ends in eight zeros, so the `or` adds the byte.
    have hstep : ((acc <<< 8) ||| b.setWidth 256).toNat = acc.toNat * 256 + b.toNat := by
      rw [BitVec.toNat_or, BitVec.toNat_shiftLeft, BitVec.toNat_setWidth, Nat.shiftLeft_eq,
        Nat.mod_eq_of_lt (by omega), Nat.mod_eq_of_lt (by omega), Nat.mul_comm,
        ← Nat.two_pow_add_eq_or_of_lt hb]
    rw [List.foldl_cons, ih, hstep, value, List.length_cons]
    · ring
    · rw [hstep]
      refine le_trans ?_ h
      rw [List.length_cons, Nat.pow_succ, Nat.mul_comm (256 ^ _), ← Nat.mul_assoc]
      exact Nat.mul_le_mul_right _ (by omega)

theorem bytesWord_toNat {bs : List Byte} (h : bs.length ≤ 32) :
    (bytesWord bs).toNat = value bs := by
  have hpow : 256 ^ bs.length ≤ 256 ^ 32 := Nat.pow_le_pow_right (by omega) h
  have hfold := foldl_toNat bs 0 (by simpa using hpow)
  have hzero : (0 : BitVec 256).toNat = 0 := rfl
  rw [hzero, Nat.zero_mul, Nat.zero_add] at hfold
  exact hfold

theorem isHighS_iff {s : List Byte} (h : s.length = 32) :
    isHighS s = true ↔ OrderLib.secp256k1HalfN < bytesWord s := by
  have hhalf : value secp256k1HalfN = OrderLib.secp256k1HalfN.toNat := by decide
  rw [isHighS, decide_eq_true_eq, BitVec.lt_def, bytesWord_toNat h.le, ← hhalf]
  exact (BigEndian.value_lt_value (by rw [h]; rfl)).symm

section Agreement

variable {cr : Crypto} {k : K256} {o : Order} {signature : List Byte} {now : U64} {d : Bytes32}

/-- **When the orderbook accepts an order.** -/
theorem verify_ok : verify cr k o signature now = .ok d ↔
    signature.length = 65 ∧ isHighS ((signature.drop 32).take 32) = false ∧
    (signature.getD 64 0 = 27#8 ∨ signature.getD 64 0 = 28#8) ∧
    (∃ sig key, k.signature (signature.take 64) = some sig ∧
      k.recover (digest cr o) sig (signature.getD 64 0 - 27#8) = some key ∧
      addressOf cr key = o.maker) ∧
    o.maker ≠ zeroAddress ∧ now ≤ o.validUntil ∧ d = digest cr o := by
  unfold verify
  dsimp only
  generalize signature.getD 64 0 = v
  -- The checks in the order of the source, each of which ends the function.
  by_cases hlength : signature.length = 65
  swap
  · simp [hlength]
  rw [if_neg (not_not.mpr hlength)]
  by_cases hs : isHighS ((signature.drop 32).take 32) = true
  · simp [hs]
  rw [if_neg hs]
  by_cases hv : v = 27#8 ∨ v = 28#8
  swap
  · rw [if_pos (not_or.mp hv)]
    simp [hv]
  rw [if_neg (by tauto)]
  have hid : recoveryId (v - 27#8) = some (v - 27#8) := by
    rcases hv with hv | hv <;> rw [hv] <;> rfl
  rw [hid]
  cases hsig : k.signature (signature.take 64) with
  | none => simp
  | some sig =>
    dsimp only
    cases hkey : k.recover (digest cr o) sig (v - 27#8) with
    | none => simp [hkey]
    | some key =>
      dsimp only
      constructor
      · intro h
        -- What is left are the comparisons with the recovered signer and the clock.
        split_ifs at h with hzero hsigner hexpired
        · cases h
          rw [not_not] at hsigner
          exact ⟨hlength, by simpa using hs, hv, ⟨sig, key, rfl, hkey, hsigner⟩,
            fun hmaker => hzero (hsigner.trans hmaker), BitVec.not_lt.mp hexpired, rfl⟩
      · rintro ⟨-, -, -, ⟨sig', key', hsig', hkey', hsigner⟩, hmaker, htime, rfl⟩
        cases hsig'
        rw [hkey] at hkey'
        cases hkey'
        rw [if_neg (hsigner ▸ hmaker), if_neg (not_not.mpr hsigner),
          if_neg (BitVec.not_lt.mpr htime)]

/-- The contract's checks on the recovered signer are the orderbook's. -/
private theorem recovers_iff (hk : SameCurve cr k) (hlength : signature.length = 65)
    (hs : bytesWord ((signature.drop 32).take 32) ≤ OrderLib.secp256k1HalfN) {v : Byte}
    (hv : v = 27#8 ∨ v = 28#8) {dig : Bytes32} {maker : Address} (hmaker : maker ≠ zeroAddress) :
    (∃ sig key, k.signature (signature.take 64) = some sig ∧
      k.recover dig sig (v - 27#8) = some key ∧ addressOf cr key = maker) ↔
    cr.ecrecover dig v (bytesWord (signature.take 32))
      (bytesWord ((signature.drop 32).take 32)) = maker := by
  have hlength' : (signature.take 64).length = 64 := by
    rw [List.length_take, hlength]
    rfl
  have hr : (signature.take 64).take 32 = signature.take 32 := by rw [List.take_take]; rfl
  have hs' : (signature.take 64).drop 32 = (signature.drop 32).take 32 := by rw [List.drop_take]
  rw [hk.signature _ hlength', hr, hs']
  split_ifs with hscalar
  · -- Two scalars: one recovery on the same curve.
    obtain ⟨hrs, hss⟩ := hscalar
    cases hkey : k.recover dig (bytesWord (signature.take 32),
        bytesWord ((signature.drop 32).take 32)) (v - 27#8) with
    | none =>
      rw [hk.notRecovered _ _ _ _ hrs hss hs hv hkey]
      constructor
      · rintro ⟨sig, key, hsig, hkey', -⟩
        cases hsig
        rw [hkey] at hkey'
        cases hkey'
      · intro hzero
        exact absurd hzero.symm hmaker
    | some key =>
      rw [hk.recovered _ _ _ _ _ hrs hss hs hv hkey]
      constructor
      · rintro ⟨sig, key', hsig, hkey', haddress⟩
        cases hsig
        rw [hkey] at hkey'
        cases hkey'
        exact haddress
      · intro haddress
        exact ⟨_, key, rfl, hkey, haddress⟩
  · rw [hk.range _ _ _ _ hscalar]
    constructor
    · rintro ⟨sig, key, hnone, -⟩
      cases hnone
    · intro hzero
      exact absurd hzero.symm hmaker

/-- Both sides accept the same signed orders. -/
theorem verify_iff (hk : SameCurve cr k) : verify cr k o signature now = .ok d ↔
    OrderLib.verify cr o.toContract signature (now.setWidth 256) = .ok d := by
  have hmakers : o.toContract.maker = o.maker := rfl
  rw [verify_ok, OrderLib.verify_ok, OrderLib.SignedByMaker, digest_eq, hmakers]
  simp only [OrderLib.splitSignature]
  -- The two sides agree on each check: length, `s`, `v`, signer and time.
  by_cases hlength : signature.length = 65
  swap
  · simp [hlength]
  have hslength : ((signature.drop 32).take 32).length = 32 := by
    rw [List.length_take, List.length_drop, hlength]
    rfl
  have hlow : isHighS ((signature.drop 32).take 32) = false ↔
      bytesWord ((signature.drop 32).take 32) ≤ OrderLib.secp256k1HalfN := by
    rw [← Bool.not_eq_true, isHighS_iff hslength, BitVec.not_lt]
  have htime : now ≤ o.validUntil ↔ now.setWidth 256 ≤ o.toContract.validUntil := by
    simp only [Order.toContract, BitVec.le_def]
    rw [BitVec.toNat_setWidth_of_le (by omega), BitVec.toNat_setWidth_of_le (by omega)]
  rw [hlow, ← htime]
  constructor
  · rintro ⟨-, hs, hv, hrecover, hmaker, hnow, hd⟩
    exact ⟨⟨hlength, hs, hv, hmaker, (recovers_iff hk hlength hs hv hmaker).mp hrecover⟩, hnow, hd⟩
  · rintro ⟨⟨-, hs, hv, hmaker, hrecover⟩, hnow, hd⟩
    exact ⟨hlength, hs, hv, (recovers_iff hk hlength hs hv hmaker).mpr hrecover, hmaker, hnow, hd⟩

end Agreement

/-! ## What a digest determines -/

/-- The two messages hashed for an order's digest. -/
def signedMessages (cr : Crypto) (o : Order) : List (List Byte) :=
  [structBytes cr o, digestBytes cr o]

/-- No two of the messages have one hash. -/
def CollisionFree (cr : Crypto) (ms : List (List Byte)) : Prop :=
  ∀ m ∈ ms, ∀ m' ∈ ms, cr.keccak256 m = cr.keccak256 m' → m = m'

instance (cr : Crypto) (ms : List (List Byte)) : Decidable (CollisionFree cr ms) :=
  inferInstanceAs (Decidable (∀ m ∈ ms, ∀ m' ∈ ms, cr.keccak256 m = cr.keccak256 m' → m = m'))

theorem CollisionFree.mono {cr : Crypto} {ms ms' : List (List Byte)} (h : CollisionFree cr ms)
    (hsub : ms' ⊆ ms) : CollisionFree cr ms' :=
  fun _ hm _ hm' heq => h _ (hsub hm) _ (hsub hm') heq

/-- The orders agree on every signed field. -/
def Order.SameSigned (a b : Order) : Prop := { a with createdAt := b.createdAt } = b

/-- The signed words determine the signed fields. -/
theorem Order.sameSigned_of_words {a b : Order} (h : a.words = b.words) : a.SameSigned b := by
  simp only [Order.words, List.cons.injEq, and_true] at h
  obtain ⟨hmaker, hsellToken, hsellChain, hsellAmount, hbuyToken, hbuyChain, hbuyAmount, huntil,
    hnonce⟩ := h
  obtain ⟨am, ast, asc, asa, abt, abc, aba, avu, an, ac⟩ := a
  obtain ⟨bm, bst, bsc, bsa, bbt, bbc, bba, bvu, bn, bc⟩ := b
  simp only [Order.SameSigned, Order.mk.injEq, and_true]
  exact ⟨setWidth_word_injective (by omega) hmaker, setWidth_word_injective (by omega) hsellToken,
    setWidth_word_injective (by omega) hsellChain, setWidth_word_injective (by omega) hsellAmount,
    setWidth_word_injective (by omega) hbuyToken, setWidth_word_injective (by omega) hbuyChain,
    setWidth_word_injective (by omega) hbuyAmount, setWidth_word_injective (by omega) huntil,
    setWidth_word_injective (by omega) hnonce⟩

/-- Equal digests mean equal signed fields. -/
theorem sameSigned_of_digest {cr : Crypto} {a b : Order}
    (hfree : CollisionFree cr (signedMessages cr a ++ signedMessages cr b))
    (h : digest cr a = digest cr b) : a.SameSigned b := by
  have hmessages : digestBytes cr a = digestBytes cr b :=
    hfree _ (by simp [signedMessages]) _ (by simp [signedMessages]) h
  have hhashes : hashStruct cr a = hashStruct cr b :=
    BigEndian.bytes_injective (n := 32) (by omega) (List.append_cancel_left hmessages)
  have hstructs : structBytes cr a = structBytes cr b :=
    hfree _ (by simp [signedMessages]) _ (by simp [signedMessages]) hhashes
  rw [structBytes_eq, structBytes_eq] at hstructs
  have hlength : (OrderLib.orderTypehash cr :: a.words).length =
    (OrderLib.orderTypehash cr :: b.words).length := rfl
  have hwords := abiEncode_injective hlength hstructs
  exact Order.sameSigned_of_words (List.cons.inj hwords).2

/-- Orders that differ in what is signed have different digests. -/
theorem digests_nodup {cr : Crypto} {orders : List Order}
    (hdistinct : orders.Pairwise fun a b => ¬a.SameSigned b)
    (hfree : CollisionFree cr (orders.flatMap (signedMessages cr))) :
    (orders.map (digest cr)).Nodup := by
  rw [List.Nodup, List.pairwise_map]
  apply hdistinct.imp_of_mem
  intro a b ha hb hdiffer heq
  apply hdiffer (sameSigned_of_digest (hfree.mono _) heq)
  intro m hm
  rw [List.mem_flatMap]
  rcases List.mem_append.mp hm with hm | hm
  · exact ⟨a, ha, hm⟩
  · exact ⟨b, hb, hm⟩

/-- **The orderbook and the contract accept the same signed orders**, with the
    same digest, and a digest determines everything that is signed. -/
theorem verify_agrees {cr : Crypto} {k : K256} (hk : SameCurve cr k) :
    (∀ o signature now d, verify cr k o signature now = .ok d ↔
      OrderLib.verify cr o.toContract signature (now.setWidth 256) = .ok d) ∧
    ∀ a b, CollisionFree cr (signedMessages cr a ++ signedMessages cr b) →
      digest cr a = digest cr b → a.SameSigned b :=
  ⟨fun _ _ _ _ => verify_iff hk, fun _ _ => sameSigned_of_digest⟩

/-! ### The test vector

The order, signature and digest that the tests of both implementations share,
with the curve known at this one signature. -/

namespace Sample

def order : Order where
  maker := 0x06884b215de85be18f99a04d05108524edc88d82
  sellToken := 0x1111111111111111111111111111111111111111
  sellChainId := 1
  sellAmount := 1000000000000000000
  buyToken := 0x2222222222222222222222222222222222222222
  buyChainId := 10
  buyAmount := 2000000000
  validUntil := 2000000000
  nonce := 42
  createdAt := 0

/-- The mirror image of `order`, by another maker. -/
def counter : Order where
  maker := 0x7e5f4552091a69125d5dfcb7b8c2659029395bdf
  sellToken := 0x2222222222222222222222222222222222222222
  sellChainId := 10
  sellAmount := 2000000000
  buyToken := 0x1111111111111111111111111111111111111111
  buyChainId := 1
  buyAmount := 1000000000000000000
  validUntil := 2000000000
  nonce := 7
  createdAt := 0

/-- A third maker offers more than `counter` for the same. -/
def better : Order :=
  { counter with maker := 0x2b5ad5c4795c026514f8317c7a215e218dccd6cf, sellAmount := 3000000000 }

def r : Bytes32 := 0x30ce4ef4a9e0ffa123e5bf6e588550416fe77bd947cf2bd8203453591f2ca6ce

def s : Bytes32 := 0x22be7efbadb7f464cdaeb3ad68c2ad60d750e7dfe1572f9ea6f4d9ba5520d42e

def signature : List Byte := bytes 32 r ++ bytes 32 s ++ [28]

def orderDigest : Bytes32 := 0x6b63f6d4e04665700cac5a401bd965d8ff95b2ee26e0ba8924cd79d57f50e3a1

def orderStructHash : Bytes32 := 0xbeab77fa79633dfb42b2ea8c42ca94f87a408b3302d76d0418b3adce01bade9d

def counterDigest : Bytes32 := 0x4d17090bd9121b91dfb46b0558865e66eb114e745fdef2375c1313d85543d434

def counterStructHash : Bytes32 := 0x9965eee7d27d3298ba21208294109f8ce9713141a598cf2a62a5e76294f73218

def betterDigest : Bytes32 := 0xffb7fa6da17a696f74d9f4c4600bb5c22d88dd07acff377058893b74bdba5e13

def betterStructHash : Bytes32 := 0x66e9c55afaf6692906cc710bf3901d738d744216383ffb0ed77e975c9c2fd35c

def domainHash : Bytes32 := 0xc420abb1f32a367b5e624c22fe23edff18215146e3e5e59114624452b0296f41

def typehash : Bytes32 := 0xf6c291778979ad7c29dbd6bde82617cada4fa74881d58bd9ca6189414eaed731

/-- The maker's public key. -/
def key : List Byte :=
  [4] ++ bytes 32 (0x4d6f8274f43f53949eed7bbcb46eac3e803dce7db267273bdf20b270d9278ac7 : Bytes32) ++
    bytes 32 (0x65912312f06b6e4d339b517daec80c246b8cbaa9eca560393119c15118cff60e : Bytes32)

def k256 : K256 where
  signature bs :=
    if IsScalar (bytesWord (bs.take 32)) ∧ IsScalar (bytesWord (bs.drop 32)) then
      some (bytesWord (bs.take 32), bytesWord (bs.drop 32))
    else none
  recover dig sig recid := if dig = orderDigest ∧ sig = (r, s) ∧ recid = 1 then some key else none

def hashes : Crypto := .ofTables
  [(asciiBytes "EIP712Domain(string name,string version)",
      0xb03948446334eb9b2196d5eb166f69b9d49403eb4a12f36de8d3f9f3cb8e15c3),
    (asciiBytes ("Order(address maker,address sellToken,uint256 sellChainId," ++
      "uint256 sellAmount,address buyToken,uint256 buyChainId,uint256 buyAmount," ++
      "uint256 validUntil,uint256 nonce)"), typehash),
    (asciiBytes "Kael", 0xd699c44124502d280929a94c15db1397d2eaee89c24cd9f780bad1191a22ad62),
    (asciiBytes "1", 0xc89efdaa54c0f20c7adf612882df0950f5a951637e0307cdcb4c672f298b8bc6),
    (abiEncode [0xb03948446334eb9b2196d5eb166f69b9d49403eb4a12f36de8d3f9f3cb8e15c3,
      0xd699c44124502d280929a94c15db1397d2eaee89c24cd9f780bad1191a22ad62,
      0xc89efdaa54c0f20c7adf612882df0950f5a951637e0307cdcb4c672f298b8bc6], domainHash),
    (abiEncode (typehash :: order.words), orderStructHash),
    ([0x19, 0x01] ++ wordBytes domainHash ++ wordBytes orderStructHash, orderDigest),
    (abiEncode (typehash :: counter.words), counterStructHash),
    ([0x19, 0x01] ++ wordBytes domainHash ++ wordBytes counterStructHash, counterDigest),
    (key.drop 1, 0xc13ce59faa9d56eb93931a3c06884b215de85be18f99a04d05108524edc88d82),
    (abiEncode (typehash :: better.words), betterStructHash),
    ([0x19, 0x01] ++ wordBytes domainHash ++ wordBytes betterStructHash, betterDigest)]
  [] []

/-- `ecrecover` on the curve of `k256`. -/
def crypto : Crypto := { hashes with
  ecrecover := fun dig v r s =>
    if (IsScalar r ∧ IsScalar s) ∧ (v = 27#8 ∨ v = 28#8) then
      match k256.recover dig (r, s) (v - 27#8) with
      | some key => addressOf hashes key
      | none => zeroAddress
    else zeroAddress }

theorem sameCurve : SameCurve crypto k256 where
  signature _ _ := rfl
  range dig v r s hscalar := if_neg fun h => hscalar h.1
  recovered dig v r s key hr hs _ hv hkey := by
    show ite _ _ _ = _
    rw [if_pos ⟨⟨hr, hs⟩, hv⟩, hkey]
    rfl
  notRecovered dig v r s hr hs _ hv hkey := by
    show ite _ _ _ = _
    rw [if_pos ⟨⟨hr, hs⟩, hv⟩, hkey]

end Sample

/-- The contract accepts the test vector because the orderbook does, and the
    time of arrival is not part of its digest. -/
theorem verify_agrees_on_vector :
    OrderLib.verify Sample.crypto Sample.order.toContract Sample.signature 1000000000 =
      .ok Sample.orderDigest ∧
    Sample.order.SameSigned { Sample.order with createdAt := 7 } := by
  have hlaw := verify_agrees Sample.sameCurve
  constructor
  · exact (hlaw.1 Sample.order Sample.signature 1000000000 _).mp (by decide +kernel)
  · exact hlaw.2 _ _ (by decide +kernel) rfl

end Kael.Orderbook
