import Mathlib.Logic.Equiv.Defs
import Mathlib.Data.BitVec
import Mathlib.Data.Fintype.OfMap
import Kael.Lib.BigEndian

/-!
# EVM Words, ABI Words and Hash Functions

Solidity's fixed-width types, `abi.encode` of static arguments, and the hash
and recovery functions of the EVM. The functions are parameters: every result
of this development holds for any of them.
-/

namespace Kael

/-- `address`; Rust's `[u8; 20]`. -/
abbrev Address := BitVec 160

/-- `bytes32`; Rust's `[u8; 32]`. -/
abbrev Bytes32 := BitVec 256

abbrev Uint256 := BitVec 256

abbrev U128 := BitVec 128

abbrev U64 := BitVec 64

abbrev Byte := BitVec 8

/-- `address(0)`; as a token, native ETH. -/
def zeroAddress : Address := 0

/-- `type(uint256).max`. -/
def maxUint256 : Nat := 2 ^ 256 - 1

/-- The same number in `w` bits, if it fits. -/
def narrow (w : Nat) (v : Uint256) : Option (BitVec w) :=
  if v.toNat < 2 ^ w then some (v.setWidth w) else none

theorem narrow_eq_some {w : Nat} {v : Uint256} {x : BitVec w} :
    narrow w v = some x ↔ x.toNat = v.toNat := by
  unfold narrow
  split_ifs with hfits
  · rw [Option.some.injEq, ← BitVec.toNat_inj, BitVec.toNat_setWidth, Nat.mod_eq_of_lt hfits]
    exact eq_comm
  · simp only [false_iff]
    have hx := x.isLt
    omega

theorem narrow_isSome {w : Nat} {v : Uint256} : (narrow w v).isSome ↔ v.toNat < 2 ^ w := by
  unfold narrow
  split_ifs with hfits <;> simp [hfits]

/-- Finitely many contract ids, so that sums over a whole mapping exist. -/
noncomputable instance : Fintype Bytes32 :=
  Fintype.ofEquiv (Fin (2 ^ 256)) BitVec.equivFin.toEquiv.symm

/-! ## Encoding -/

/-- The 32 big-endian bytes of a word. -/
def wordBytes (w : BitVec 256) : List Byte :=
  (List.range 32).map fun i => w.extractLsb' (8 * (31 - i)) 8

/-- The word with the given big-endian bytes. -/
def bytesWord (bs : List Byte) : BitVec 256 :=
  bs.foldl (fun acc b => (acc <<< 8) ||| b.setWidth 256) 0

/-- An address as an ABI word: left-padded with zeros. -/
def addressWord (a : Address) : BitVec 256 := a.setWidth 256

/-- `abi.encode` of arguments of static one-word types. -/
def abiEncode (ws : List (BitVec 256)) : List Byte := ws.flatMap wordBytes

theorem wordBytes_eq_bytes (w : BitVec 256) : wordBytes w = BigEndian.bytes 32 w := rfl

/-- Words are told apart by what they are encoded to. -/
theorem abiEncode_injective {ws ws' : List (BitVec 256)} (hlength : ws.length = ws'.length)
    (h : abiEncode ws = abiEncode ws') : ws = ws' := by
  induction ws generalizing ws' with
  | nil => exact (List.length_eq_zero_iff.mp hlength.symm).symm
  | cons w ws ih =>
    cases ws' with
    | nil => cases hlength
    | cons w' ws' =>
      have hparts := List.append_inj (show wordBytes w ++ abiEncode ws =
        wordBytes w' ++ abiEncode ws' from h) (by simp [wordBytes_eq_bytes])
      have hw : w = w' := BigEndian.bytes_injective (n := 32) (by omega) hparts.1
      rw [hw, ih (Nat.succ.inj hlength) hparts.2]

/-- No number of at most 256 bits is lost in a word. -/
theorem setWidth_word_injective {w : Nat} (hw : w ≤ 256) {x y : BitVec w}
    (h : x.setWidth 256 = y.setWidth 256) : x = y := by
  have hnat := congrArg BitVec.toNat h
  rw [BitVec.toNat_setWidth_of_le hw, BitVec.toNat_setWidth_of_le hw] at hnat
  exact BitVec.eq_of_toNat_eq hnat

/-- The bytes of an ASCII string literal. -/
def asciiBytes (s : String) : List Byte := s.toList.map fun c => BitVec.ofNat 8 c.toNat

/-! ## Hash functions -/

/-- The hash functions and the signature recovery the contracts call. -/
structure Crypto where
  keccak256 : List Byte → Bytes32
  sha256 : List Byte → Bytes32
  /-- `ecrecover(hash, v, r, s)`; zero when recovery fails. -/
  ecrecover : Bytes32 → Byte → Bytes32 → Bytes32 → Address

/-- `sha256(abi.encodePacked(preimage))`; Rust's `hashlock_from_preimage`. -/
def Crypto.hashlockOf (cr : Crypto) (preimage : Bytes32) : Bytes32 :=
  cr.sha256 (wordBytes preimage)

/-- Hash functions known at finitely many inputs, for runs that are computed. -/
def Crypto.ofTables (keccak sha : List (List Byte × Bytes32))
    (signers : List ((Bytes32 × Byte × Bytes32 × Bytes32) × Address)) : Crypto where
  keccak256 bs := (keccak.lookup bs).getD 0
  sha256 bs := (sha.lookup bs).getD 0
  ecrecover digest v r s := (signers.lookup (digest, v, r, s)).getD 0

/-- A hashlock that the table has one preimage for has no other. -/
theorem Crypto.ofTables_unique {keccak : List (List Byte × Bytes32)}
    {signers : List ((Bytes32 × Byte × Bytes32 × Bytes32) × Address)} {preimage hashlock : Bytes32}
    (hne : hashlock ≠ 0) (p : Bytes32)
    (h : (ofTables keccak [(wordBytes preimage, hashlock)] signers).hashlockOf p = hashlock) :
    p = preimage := by
  by_contra hother
  have hbytes : (wordBytes p == wordBytes preimage) = false := by
    rw [beq_eq_false_iff_ne]
    exact fun heq => hother (BigEndian.bytes_injective (n := 32) (by omega) heq)
  -- All other inputs have the hash zero.
  have hzero : (List.lookup (wordBytes p) [(wordBytes preimage, hashlock)]).getD 0 = hashlock := h
  rw [List.lookup_cons, hbytes, List.lookup_nil, Option.getD_none] at hzero
  exact hne hzero.symm

/-- `msg.sender` and `msg.value` of a call. -/
structure Msg where
  sender : Address
  value : Uint256

end Kael
