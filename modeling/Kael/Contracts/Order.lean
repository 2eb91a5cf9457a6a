import Kael.Contracts.Evm

/-!
# Signed Orders

`OrderLib` of `Order.sol`: the order a maker signs, its EIP-712 digest and the
checks of `verify`, in the order in which the library makes them.
-/

namespace Kael.OrderLib

structure Order where
  maker : Address
  sellToken : Address
  sellChainId : Uint256
  sellAmount : Uint256
  buyToken : Address
  buyChainId : Uint256
  buyAmount : Uint256
  /-- Expiry timestamp. -/
  validUntil : Uint256
  /-- Unique per maker. -/
  nonce : Uint256
deriving DecidableEq

inductive Error where
  | invalidSignatureLength
  | malleableS
  | invalidV
  | zeroSigner
  | signerNotMaker
  | orderExpired
deriving DecidableEq

/-- Half the order of secp256k1, rounded down. -/
def secp256k1HalfN : Uint256 :=
  0x7FFFFFFFFFFFFFFFFFFFFFFFFFFFFFFF5D576E7357A4501DDFE92F46681B20A0

section Digest

variable (cr : Crypto)

def domainTypehash : Bytes32 := cr.keccak256 (asciiBytes "EIP712Domain(string name,string version)")

def orderTypehash : Bytes32 :=
  cr.keccak256 (asciiBytes ("Order(address maker,address sellToken,uint256 sellChainId," ++
    "uint256 sellAmount,address buyToken,uint256 buyChainId,uint256 buyAmount," ++
    "uint256 validUntil,uint256 nonce)"))

def domainSeparator : Bytes32 :=
  cr.keccak256 (abiEncode
    [domainTypehash cr, cr.keccak256 (asciiBytes "Kael"), cr.keccak256 (asciiBytes "1")])

def hashStruct (order : Order) : Bytes32 :=
  cr.keccak256 (abiEncode
    [orderTypehash cr, addressWord order.maker, addressWord order.sellToken, order.sellChainId,
      order.sellAmount, addressWord order.buyToken, order.buyChainId, order.buyAmount,
      order.validUntil, order.nonce])

/-- `keccak256(abi.encodePacked("\x19\x01", domainSeparator(), hashStruct(order)))`. -/
def hash (order : Order) : Bytes32 :=
  cr.keccak256 ([0x19, 0x01] ++ wordBytes (domainSeparator cr) ++ wordBytes (hashStruct cr order))

end Digest

/-! ## Verification -/

/-- `r`, `s` and `v` of a 65-byte signature. -/
def splitSignature (signature : List Byte) : Bytes32 × Bytes32 × Byte :=
  (bytesWord (signature.take 32), bytesWord ((signature.drop 32).take 32), signature.getD 64 0)

def verify (cr : Crypto) (order : Order) (signature : List Byte) (nowTs : Uint256) :
    Except Error Bytes32 :=
  if signature.length ≠ 65 then .error .invalidSignatureLength
  else
    let (r, s, v) := splitSignature signature
    if secp256k1HalfN < s then .error .malleableS
    else if v ≠ 27#8 ∧ v ≠ 28#8 then .error .invalidV
    else
      let orderHash := hash cr order
      let signer := cr.ecrecover orderHash v r s
      if signer = zeroAddress then .error .zeroSigner
      else if signer ≠ order.maker then .error .signerNotMaker
      else if order.validUntil < nowTs then .error .orderExpired
      else .ok orderHash

/-- The maker signed the order: the signature is well formed and recovers to
    the maker. -/
def SignedByMaker (cr : Crypto) (order : Order) (signature : List Byte) : Prop :=
  signature.length = 65 ∧
  (splitSignature signature).2.1 ≤ secp256k1HalfN ∧
  ((splitSignature signature).2.2 = 27#8 ∨ (splitSignature signature).2.2 = 28#8) ∧
  order.maker ≠ zeroAddress ∧
  cr.ecrecover (hash cr order) (splitSignature signature).2.2 (splitSignature signature).1
    (splitSignature signature).2.1 = order.maker

theorem verify_ok {cr : Crypto} {order : Order} {signature : List Byte} {nowTs : Uint256}
    {orderHash : Bytes32} :
    verify cr order signature nowTs = .ok orderHash ↔
      SignedByMaker cr order signature ∧ nowTs ≤ order.validUntil ∧
      orderHash = hash cr order := by
  unfold verify SignedByMaker
  dsimp only
  split_ifs with hlength hs hv hzero hsigner hexpired
  · simp [hlength]
  · simp [BitVec.not_le.mpr hs]
  · simp [hv]
  -- A recovered zero is never the maker: `SignedByMaker` has a nonzero one.
  · simp only [false_iff]
    rintro ⟨⟨-, -, -, hmaker, hrecover⟩, -⟩
    exact hmaker (hrecover.symm.trans hzero)
  · simp only [false_iff]
    rintro ⟨⟨-, -, -, -, hrecover⟩, -⟩
    exact hsigner hrecover
  · simp [BitVec.not_le.mpr hexpired]
  · have hmaker : order.maker ≠ zeroAddress := fun h =>
      hzero ((not_not.mp hsigner).trans h)
    simp only [not_and_or, ne_eq, not_not] at hlength hv hsigner
    rw [Except.ok.injEq]
    exact ⟨fun h => ⟨⟨hlength, BitVec.not_lt.mp hs, hv, hmaker, hsigner⟩,
      BitVec.not_lt.mp hexpired, h.symm⟩, fun h => h.2.2.symm⟩

/-- What `verify` rejects is not signed, or not in time. -/
theorem not_signed_of_verify {cr : Crypto} {order : Order} {signature : List Byte}
    {nowTs : Uint256} {e : Error} (h : verify cr order signature nowTs = .error e) :
    ¬(SignedByMaker cr order signature ∧ nowTs ≤ order.validUntil) := by
  intro hvalid
  obtain ⟨hsigned, htime⟩ := hvalid
  rw [verify_ok.mpr ⟨hsigned, htime, rfl⟩] at h
  cases h

end Kael.OrderLib
