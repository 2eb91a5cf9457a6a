import Kael.Orderbook.Eip712

/-!
# Signing Orders

`eip712.rs`, `sign`: the signature is the one that both verifiers take apart, so
that an order signed with its maker's key is accepted by both until it expires
(`signed_order_accepted_iff`). The one exception comes from the curve: a
signature whose `x` coordinate was reduced has a recovery id above 1.
-/

namespace Kael.Orderbook

open BigEndian (bytes value_bytes)

/-- What is used of the crate `k256` to sign. -/
structure SigningKeys where
  /-- `SigningKey::from_slice`, and the public key as an uncompressed point. -/
  verifyingKey : Bytes32 → Option (List Byte)
  /-- `sign_prehash_recoverable`: `r` and `s`, and the recovery id. -/
  signPrehash : Bytes32 → Bytes32 → Option ((Bytes32 × Bytes32) × Byte)

section Signing

variable (cr : Crypto) (sk : SigningKeys)

/-- `None` where the source panics. -/
def addressFromPrivateKey (privateKey : Bytes32) : Option Address :=
  (sk.verifyingKey privateKey).map (addressOf cr)

/-- `r ‖ s ‖ v` of a digest. -/
def signDigest (privateKey dig : Bytes32) : Option (List Byte) :=
  match sk.verifyingKey privateKey with
  | none => none
  | some _ => (sk.signPrehash privateKey dig).map fun (sig, recid) =>
    bytes 32 sig.1 ++ bytes 32 sig.2 ++ [27#8 + recid]

def sign (o : Order) (privateKey : Bytes32) : Option (List Byte) :=
  signDigest sk privateKey (digest cr o)

end Signing

/-- What the crate documents: signatures are of two scalars, the second of which
    is normalized, and recover to the key that has signed. -/
structure SignsFor (k : K256) (sk : SigningKeys) : Prop where
  scalars : ∀ key dig r s recid, sk.signPrehash key dig = some ((r, s), recid) →
    IsScalar r ∧ IsScalar s
  low : ∀ key dig r s recid, sk.signPrehash key dig = some ((r, s), recid) →
    s ≤ OrderLib.secp256k1HalfN
  recoveryId : ∀ key dig sig recid, sk.signPrehash key dig = some (sig, recid) → recid ≤ 3
  recovers : ∀ key dig sig recid vk, sk.signPrehash key dig = some (sig, recid) →
    sk.verifyingKey key = some vk → k.recover dig sig recid = some vk

/-! ## Taking a signature apart -/

section Parts

variable {cr : Crypto} {k : K256} {sk : SigningKeys} {key dig r s : Bytes32} {v : Byte}
  {signature : List Byte} {o : Order} {now : U64} {d : Bytes32}

theorem signDigest_eq_some : signDigest sk key dig = some signature ↔
    ∃ vk r s recid, sk.verifyingKey key = some vk ∧
      sk.signPrehash key dig = some ((r, s), recid) ∧
      signature = bytes 32 r ++ bytes 32 s ++ [27#8 + recid] := by
  unfold signDigest
  cases sk.verifyingKey key with
  | none => simp
  | some vk => simp [eq_comm]

theorem bytesWord_bytes (x : Bytes32) : bytesWord (bytes 32 x) = x := by
  apply BitVec.eq_of_toNat_eq
  rw [bytesWord_toNat (by simp), value_bytes]
  exact Nat.mod_eq_of_lt x.isLt

/-- The three parts of a signature are found where they have been put. -/
theorem parts_of_signature : (bytes 32 r ++ bytes 32 s ++ [v]).length = 65 ∧
    (bytes 32 r ++ bytes 32 s ++ [v]).take 64 = bytes 32 r ++ bytes 32 s ∧
    ((bytes 32 r ++ bytes 32 s ++ [v]).drop 32).take 32 = bytes 32 s ∧
    (bytes 32 r ++ bytes 32 s ++ [v]).getD 64 0 = v := by
  refine ⟨by simp, List.take_left' (by simp), ?_, ?_⟩
  · rw [List.append_assoc, List.drop_left' (by simp), List.take_left' (by simp)]
  · rw [List.getD_eq_getElem?_getD, List.getElem?_append_right (by simp)]
    simp

/-- The signature of a key, as `Signature::from_slice` reads it. -/
theorem signature_of_parts (hk : SameCurve cr k) (hr : IsScalar r) (hs : IsScalar s) :
    k.signature (bytes 32 r ++ bytes 32 s) = some (r, s) := by
  rw [hk.signature _ (by simp), List.take_left' (by simp), List.drop_left' (by simp),
    bytesWord_bytes, bytesWord_bytes, if_pos ⟨hr, hs⟩]

/-- A recovery id is written as 27 or 28 if it is at most 1. -/
theorem recoveryByte_iff {recid : Byte} (h : recid ≤ 3) :
    (27#8 + recid = 27#8 ∨ 27#8 + recid = 28#8) ↔ 27#8 + recid ≤ 28 := by
  bv_omega

/-- What the orderbook says of an order that has been signed. -/
theorem verify_signed (hk : SameCurve cr k) (hsigns : SignsFor k sk)
    (hsign : sign cr sk o key = some signature) :
    verify cr k o signature now = .ok d ↔
      addressFromPrivateKey cr sk key = some o.maker ∧ o.maker ≠ zeroAddress ∧
        now ≤ o.validUntil ∧ signature.getD 64 0 ≤ 28 ∧ d = digest cr o := by
  obtain ⟨vk, r, s, recid, hvk, hprehash, rfl⟩ := signDigest_eq_some.mp hsign
  obtain ⟨hlength, htake, hs, hv⟩ := @parts_of_signature r s (27#8 + recid)
  obtain ⟨hrs, hss⟩ := hsigns.scalars _ _ _ _ _ hprehash
  have hlow : isHighS (bytes 32 s) = false := by
    rw [← Bool.not_eq_true, isHighS_iff (by simp), bytesWord_bytes, BitVec.not_lt]
    exact hsigns.low _ _ _ _ _ hprehash
  -- What the verifier recovers is the signer's key.
  have hsigner : (∃ sig key, k.signature (bytes 32 r ++ bytes 32 s) = some sig ∧
      k.recover (digest cr o) sig (27#8 + recid - 27#8) = some key ∧ addressOf cr key = o.maker) ↔
      addressFromPrivateKey cr sk key = some o.maker := by
    have hid : 27#8 + recid - 27#8 = recid := by bv_omega
    have hrecovers := hsigns.recovers _ _ _ _ _ hprehash hvk
    rw [signature_of_parts hk hrs hss, hid, addressFromPrivateKey, hvk]
    simp [hrecovers]
  rw [verify_ok, hlength, htake, hs, hv, hlow, hsigner,
    recoveryByte_iff (hsigns.recoveryId _ _ _ _ hprehash)]
  tauto

/-- The contract takes the signature of the maker's key. -/
theorem signedByMaker_of_sign (hk : SameCurve cr k) (hsigns : SignsFor k sk)
    (hsign : sign cr sk o key = some signature)
    (hkey : addressFromPrivateKey cr sk key = some o.maker) (hmaker : o.maker ≠ zeroAddress)
    (hrecid : signature.getD 64 0 ≤ 28) : OrderLib.SignedByMaker cr o.toContract signature := by
  have hverify : verify cr k o signature 0 = .ok (digest cr o) :=
    (verify_signed hk hsigns hsign).mpr ⟨hkey, hmaker, by bv_omega, hrecid, rfl⟩
  exact (OrderLib.verify_ok.mp ((verify_iff hk).mp hverify)).1

/-- **An order that its maker's key has signed** is accepted until it expires, by
    the orderbook and by the contract, unless its recovery id is above 1; and no
    order of another maker is. -/
theorem signed_order_accepted_iff (hk : SameCurve cr k) (hsigns : SignsFor k sk)
    (hsign : sign cr sk o key = some signature) :
    (verify cr k o signature now = .ok d ↔
      addressFromPrivateKey cr sk key = some o.maker ∧ o.maker ≠ zeroAddress ∧
        now ≤ o.validUntil ∧ signature.getD 64 0 ≤ 28 ∧ d = digest cr o) ∧
    (OrderLib.verify cr o.toContract signature (now.setWidth 256) = .ok d ↔
      addressFromPrivateKey cr sk key = some o.maker ∧ o.maker ≠ zeroAddress ∧
        now ≤ o.validUntil ∧ signature.getD 64 0 ≤ 28 ∧ d = digest cr o) :=
  ⟨verify_signed hk hsigns hsign, (verify_iff hk).symm.trans (verify_signed hk hsigns hsign)⟩

end Parts

namespace Sample

def privateKey : Bytes32 := 0xc0ffee01

/-- One key, and the one digest that it has signed. -/
def signingKeys : SigningKeys where
  verifyingKey x := if x = privateKey then some key else none
  signPrehash x dig := if x = privateKey ∧ dig = orderDigest then some ((r, s), 1) else none

theorem signsFor : SignsFor k256 signingKeys := by
  have hsigned : ∀ x dig sig recid, signingKeys.signPrehash x dig = some (sig, recid) →
      x = privateKey ∧ dig = orderDigest ∧ sig = (r, s) ∧ recid = 1 := by
    intro x dig sig recid h
    simp only [signingKeys, Option.ite_none_right_eq_some, Option.some.injEq, Prod.mk.injEq] at h
    obtain ⟨⟨hx, hdig⟩, hsig, hrecid⟩ := h
    exact ⟨hx, hdig, hsig.symm, hrecid.symm⟩
  refine ⟨?_, ?_, ?_, ?_⟩
  · intro x dig r' s' recid h
    obtain ⟨-, -, hsig, -⟩ := hsigned _ _ _ _ h
    cases hsig
    decide
  · intro x dig r' s' recid h
    obtain ⟨-, -, hsig, -⟩ := hsigned _ _ _ _ h
    cases hsig
    decide
  · intro x dig sig recid h
    obtain ⟨-, -, -, rfl⟩ := hsigned _ _ _ _ h
    decide
  · intro x dig sig recid vk h hvk
    obtain ⟨rfl, rfl, rfl, rfl⟩ := hsigned _ _ _ _ h
    exact hvk

end Sample

/-- The test vector, signed again. -/
theorem signed_vector_accepted :
    sign Sample.crypto Sample.signingKeys Sample.order Sample.privateKey = some Sample.signature ∧
    OrderLib.verify Sample.crypto Sample.order.toContract Sample.signature 1000000000 =
      .ok Sample.orderDigest := by
  have hdigest : digest Sample.crypto Sample.order = Sample.orderDigest := by decide +kernel
  have hsign : sign Sample.crypto Sample.signingKeys Sample.order Sample.privateKey =
      some Sample.signature := by
    rw [sign, hdigest]
    decide
  have hlaw := @signed_order_accepted_iff Sample.crypto _ _ _ _ Sample.order 1000000000
    Sample.orderDigest Sample.sameCurve Sample.signsFor hsign
  exact ⟨hsign, hlaw.2.mpr ⟨by decide +kernel, by decide, by decide, by decide, hdigest.symm⟩⟩

end Kael.Orderbook
