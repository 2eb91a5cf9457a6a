import Mathlib.Data.BitVec
import Mathlib.Tactic.Ring

/-!
# Big-Endian Bytes

Numbers as byte strings, most significant byte first: what a string of bytes
is worth, the bytes of a word, zero padding to the left, and that strings of
one length compare like the numbers they stand for.
-/

namespace BigEndian

/-- The number a byte string stands for. -/
def value : List (BitVec 8) → Nat
  | [] => 0
  | b :: bs => b.toNat * 256 ^ bs.length + value bs

/-- The lowest `n` bytes of a word. -/
def bytes {w : Nat} (n : Nat) (x : BitVec w) : List (BitVec 8) :=
  (List.range n).map fun i => x.extractLsb' (8 * (n - 1 - i)) 8

@[simp] theorem length_bytes {w : Nat} (n : Nat) (x : BitVec w) : (bytes n x).length = n := by
  simp [bytes]

theorem bytes_succ {w : Nat} (n : Nat) (x : BitVec w) :
    bytes (n + 1) x = x.extractLsb' (8 * n) 8 :: bytes n x := by
  unfold bytes
  rw [List.range_succ_eq_map, List.map_cons, List.map_map]
  congr 1
  apply List.map_congr_left
  intro i hi
  have hlt : i < n := List.mem_range.mp hi
  simp only [Function.comp_apply]
  congr 1
  omega

theorem value_lt (bs : List (BitVec 8)) : value bs < 256 ^ bs.length := by
  induction bs with
  | nil => simp [value]
  | cons b bs ih =>
    have hb : b.toNat < 256 := b.isLt
    have hle : b.toNat * 256 ^ bs.length ≤ 255 * 256 ^ bs.length :=
      Nat.mul_le_mul_right _ (by omega)
    simp only [value, List.length_cons, Nat.pow_succ]
    omega

/-- The bytes of a word stand for its lowest bits. -/
theorem value_bytes {w : Nat} (n : Nat) (x : BitVec w) : value (bytes n x) = x.toNat % 256 ^ n := by
  induction n with
  | zero => simp [bytes, value, Nat.mod_one]
  | succ n ih =>
    have hbyte : (x.extractLsb' (8 * n) 8).toNat = x.toNat / 256 ^ n % 256 := by
      rw [BitVec.extractLsb'_toNat, Nat.shiftRight_eq_div_pow, Nat.pow_mul]
    rw [bytes_succ, value, length_bytes, ih, hbyte, Nat.pow_succ, Nat.mod_mul]
    ring

/-- Words of at most `n` bytes are told apart by their bytes. -/
theorem bytes_injective {w n : Nat} (hw : w ≤ 8 * n) {x y : BitVec w}
    (h : bytes n x = bytes n y) : x = y := by
  have hvalue : value (bytes n x) = value (bytes n y) := congrArg value h
  have hfits : ∀ z : BitVec w, z.toNat < 256 ^ n := by
    intro z
    have hpow : (256 : Nat) ^ n = 2 ^ (8 * n) := by rw [Nat.pow_mul]
    rw [hpow]
    exact lt_of_lt_of_le z.isLt (Nat.pow_le_pow_right (by omega) hw)
  rw [value_bytes, value_bytes, Nat.mod_eq_of_lt (hfits x), Nat.mod_eq_of_lt (hfits y)] at hvalue
  exact BitVec.eq_of_toNat_eq hvalue

/-- Padding with zeros on the left extends the word with zeros. -/
theorem replicate_append_bytes {w v m n : Nat} (hwm : w ≤ 8 * m) (hwv : w ≤ v) (hmn : m ≤ n)
    (x : BitVec w) :
    List.replicate (n - m) 0 ++ bytes m x = bytes n (x.setWidth v) := by
  obtain ⟨k, rfl⟩ := Nat.exists_eq_add_of_le hmn
  rw [Nat.add_sub_cancel_left]
  -- By induction on the number of bytes in front.
  clear hmn
  induction k with
  | zero =>
    show bytes m x = bytes m (x.setWidth v)
    unfold bytes
    apply List.map_congr_left
    intro i _
    apply BitVec.eq_of_getLsbD_eq
    intro j hj
    simp only [BitVec.getLsbD_extractLsb', BitVec.getLsbD_setWidth]
    by_cases hbit : 8 * (m - 1 - i) + j < v
    · simp [hbit]
    · have hhigh : x.getLsbD (8 * (m - 1 - i) + j) = false := BitVec.getLsbD_of_ge _ _ (by omega)
      simp [hhigh]
  | succ k ih =>
    rw [List.replicate_succ, List.cons_append, ih, ← Nat.add_assoc, bytes_succ]
    congr 1
    apply BitVec.eq_of_getLsbD_eq
    intro j hj
    have hhigh : x.getLsbD (8 * (m + k) + j) = false := BitVec.getLsbD_of_ge _ _ (by omega)
    simp [BitVec.getLsbD_extractLsb', BitVec.getLsbD_setWidth, hhigh]

/-- Byte strings of one length compare like the numbers they stand for. -/
theorem value_lt_value {bs cs : List (BitVec 8)} (h : bs.length = cs.length) :
    value bs < value cs ↔ bs < cs := by
  induction bs generalizing cs with
  | nil =>
    have hcs : cs = [] := List.length_eq_zero_iff.mp h.symm
    simp [hcs, value]
  | cons b bs ih =>
    cases cs with
    | nil => cases h
    | cons c cs =>
      have hlength : bs.length = cs.length := Nat.succ.inj h
      have hbs := value_lt bs
      have hcs := value_lt cs
      rw [List.cons_lt_cons_iff, ← ih hlength, BitVec.lt_def, ← BitVec.toNat_inj]
      simp only [value, hlength] at hbs ⊢
      -- The first bytes decide, unless they are equal.
      rcases Nat.lt_trichotomy b.toNat c.toNat with hlt | heq | hgt
      · have hle : (b.toNat + 1) * 256 ^ cs.length ≤ c.toNat * 256 ^ cs.length :=
          Nat.mul_le_mul_right _ hlt
        rw [Nat.add_mul] at hle
        simp only [hlt, true_or, iff_true]
        omega
      · simp [heq]
      · have hle : (c.toNat + 1) * 256 ^ cs.length ≤ b.toNat * 256 ^ cs.length :=
          Nat.mul_le_mul_right _ hgt
        rw [Nat.add_mul] at hle
        constructor
        · intro hless
          omega
        · rintro (hless | ⟨heq, -⟩) <;> omega

end BigEndian
