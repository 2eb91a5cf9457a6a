import Mathlib.Data.BitVec
import Mathlib.Data.List.Basic
import Mathlib.Logic.Basic

/-!
# Bytes and Numbers as Text

Hexadecimal strings in either case, a prefix that may be repeated, and decimal
numbers of bounded size with an optional plus sign and leading zeros. One value
has many texts; the lemmas say which texts are read alike. What is read is then
validated by a chain of checks (`Guards`).
-/

namespace Text

/-! ## Hexadecimal -/

/-- The value of a hexadecimal digit, in either case. -/
def hexDigit (c : Char) : Option Nat :=
  if 48 ≤ c.toNat ∧ c.toNat ≤ 57 then some (c.toNat - 48)
  else if 97 ≤ c.toNat ∧ c.toNat ≤ 102 then some (c.toNat - 87)
  else if 65 ≤ c.toNat ∧ c.toNat ≤ 70 then some (c.toNat - 55)
  else none

/-- Two digits a byte. -/
def hexDecode : List Char → Option (List (BitVec 8))
  | [] => some []
  | [_] => none
  | h :: l :: cs =>
    match hexDigit h, hexDigit l, hexDecode cs with
    | some high, some low, some bs => some (BitVec.ofNat 8 (16 * high + low) :: bs)
    | _, _, _ => none

/-- The lower-case digit of a value below 16. -/
def hexChar (n : Nat) : Char := if n < 10 then Char.ofNat (48 + n) else Char.ofNat (87 + n)

def hexEncode (bs : List (BitVec 8)) : List Char :=
  bs.flatMap fun b => [hexChar (b.toNat / 16), hexChar (b.toNat % 16)]

theorem hexDigit_hexChar {n : Nat} (hn : n < 16) : hexDigit (hexChar n) = some n := by
  have hall : ∀ k : Fin 16, hexDigit (hexChar k) = some k.val := by decide
  exact hall ⟨n, hn⟩

/-- Decoding undoes encoding. -/
theorem hexDecode_hexEncode (bs : List (BitVec 8)) : hexDecode (hexEncode bs) = some bs := by
  induction bs with
  | nil => rfl
  | cons b bs ih =>
    have hb := b.isLt
    have hhigh : hexDigit (hexChar (b.toNat / 16)) = some (b.toNat / 16) :=
      hexDigit_hexChar (by omega)
    have hlow : hexDigit (hexChar (b.toNat % 16)) = some (b.toNat % 16) :=
      hexDigit_hexChar (by omega)
    have hbyte : BitVec.ofNat 8 (16 * (b.toNat / 16) + b.toNat % 16) = b := by
      rw [Nat.div_add_mod, BitVec.ofNat_toNat, BitVec.setWidth_eq]
    show hexDecode (hexChar _ :: hexChar _ :: hexEncode bs) = _
    rw [hexDecode, hhigh, hlow, ih]
    dsimp only
    rw [hbyte]

theorem toLower_toNat (c : Char) :
    c.toLower.toNat = if 65 ≤ c.toNat ∧ c.toNat ≤ 90 then c.toNat + 32 else c.toNat := by
  unfold Char.toLower
  split
  · next h =>
    have hrange : 65 ≤ c.toNat ∧ c.toNat ≤ 90 := h
    rw [if_pos hrange]
    show (c.val + ('a'.val - 'A'.val)).toNat = c.toNat + 32
    have hsum : (c.val + ('a'.val - 'A'.val)).toNat = (c.toNat + 32) % 2 ^ 32 := UInt32.toNat_add ..
    rw [hsum, Nat.mod_eq_of_lt (by omega)]
  · next h =>
    have hrange : ¬(65 ≤ c.toNat ∧ c.toNat ≤ 90) := h
    rw [if_neg hrange]

/-- The case of a digit does not matter. -/
theorem hexDigit_toLower (c : Char) : hexDigit c.toLower = hexDigit c := by
  have hlower := toLower_toNat c
  unfold hexDigit
  split_ifs at hlower with hupper
  · rw [hlower]
    split_ifs <;> first | omega | (congr 1)
  · rw [hlower]

theorem hexDecode_toLower : ∀ cs : List Char, hexDecode (cs.map Char.toLower) = hexDecode cs
  | [] => rfl
  | [_] => rfl
  | h :: l :: cs => by
    rw [List.map_cons, List.map_cons, hexDecode, hexDecode, hexDigit_toLower, hexDigit_toLower,
      hexDecode_toLower cs]

/-- Texts that differ in case only are decoded alike. -/
theorem hexDecode_congr {cs cs' : List Char} (h : cs.map Char.toLower = cs'.map Char.toLower) :
    hexDecode cs = hexDecode cs' := by
  rw [← hexDecode_toLower cs, h, hexDecode_toLower cs']

/-! ## A repeated prefix -/

/-- Remove `0x` as often as it starts the text. -/
def trimStart0x : List Char → List Char
  | '0' :: 'x' :: cs => trimStart0x cs
  | cs => cs

@[simp] theorem trimStart0x_prefix (cs : List Char) :
    trimStart0x ('0' :: 'x' :: cs) = trimStart0x cs := rfl

/-! ## White space -/

def isWhitespace (c : Char) : Bool :=
  let n := c.toNat
  9 ≤ n ∧ n ≤ 13 ∨ n = 32 ∨ n = 0x85 ∨ n = 0xA0 ∨ n = 0x1680 ∨ 0x2000 ≤ n ∧ n ≤ 0x200A ∨
    n = 0x2028 ∨ n = 0x2029 ∨ n = 0x202F ∨ n = 0x205F ∨ n = 0x3000

/-- The text without white space at both ends. -/
def trim (cs : List Char) : List Char :=
  ((cs.dropWhile isWhitespace).reverse.dropWhile isWhitespace).reverse

/-! ## Decimal numbers -/

def decimalDigit (c : Char) : Option Nat :=
  if 48 ≤ c.toNat ∧ c.toNat ≤ 57 then some (c.toNat - 48) else none

/-- The digits after `acc`, if the number stays below `bound`. -/
def parseDigits (bound : Nat) : Nat → List Char → Option Nat
  | acc, [] => some acc
  | acc, c :: cs =>
    match decimalDigit c with
    | none => none
    | some d => if 10 * acc + d < bound then parseDigits bound (10 * acc + d) cs else none

/-- The text without one leading plus sign. -/
def dropPlus : List Char → List Char
  | '+' :: cs => cs
  | cs => cs

/-- A number below `bound`, in at least one digit. -/
def parseNat (bound : Nat) (cs : List Char) : Option Nat :=
  match dropPlus cs with
  | [] => none
  | digits => parseDigits bound 0 digits

def dropZeros (cs : List Char) : List Char := cs.dropWhile fun c => c = '0'

section Decimal

variable {bound : Nat} {cs cs' : List Char}

theorem parseDigits_lt {acc n : Nat} (hacc : acc < bound) (h : parseDigits bound acc cs = some n) :
    n < bound := by
  induction cs generalizing acc with
  | nil => exact Option.some.inj h ▸ hacc
  | cons c cs ih =>
    rw [parseDigits] at h
    cases hdigit : decimalDigit c with
    | none => simp [hdigit] at h
    | some d =>
      simp only [hdigit] at h
      split_ifs at h with hlt
      exact ih hlt h

theorem parseNat_lt {n : Nat} (hbound : 0 < bound) (h : parseNat bound cs = some n) : n < bound := by
  unfold parseNat at h
  split at h
  · cases h
  · exact parseDigits_lt hbound h

/-- Leading zeros count nothing. -/
theorem parseDigits_dropZeros (hbound : 0 < bound) :
    parseDigits bound 0 (dropZeros cs) = parseDigits bound 0 cs := by
  induction cs with
  | nil => rfl
  | cons c cs ih =>
    unfold dropZeros at ih ⊢
    rw [List.dropWhile_cons]
    split_ifs with hzero
    · rw [of_decide_eq_true hzero, ih]
      show _ = if 10 * 0 + 0 < bound then _ else none
      rw [if_pos hbound]
      rfl
    · rfl

/-- Numbers written with other leading zeros, or another sign, are read alike. -/
theorem parseNat_congr (hbound : 0 < bound)
    (hempty : dropPlus cs = [] ↔ dropPlus cs' = [])
    (h : dropZeros (dropPlus cs) = dropZeros (dropPlus cs')) :
    parseNat bound cs = parseNat bound cs' := by
  have hdigits : parseDigits bound 0 (dropPlus cs) = parseDigits bound 0 (dropPlus cs') := by
    rw [← parseDigits_dropZeros hbound, h, parseDigits_dropZeros hbound]
  unfold parseNat
  -- An empty string is no number, so emptiness is compared first.
  cases hcs : dropPlus cs with
  | nil => rw [hempty.mp hcs]
  | cons c rest =>
    cases hcs' : dropPlus cs' with
    | nil =>
      rw [hempty.mpr hcs'] at hcs
      cases hcs
    | cons c' rest' =>
      rw [hcs, hcs'] at hdigits
      exact hdigits

end Decimal

end Text

/-! ## Chains of checks

A validator is a chain of checks, each of which may end it with its own error.
It succeeds exactly if all of them do; the lemmas take such a chain apart.
-/

namespace Guards

universe u v w

variable {ε : Type u} {ε' : Type w} {α β : Type v}

/-- End with `e` if `p` holds. -/
def refuseIf (p : Prop) [Decidable p] (e : ε) : Except ε Unit := if p then .error e else .ok ()

@[simp] theorem refuseIf_ok {p : Prop} [Decidable p] {e : ε} {x : Unit} :
    refuseIf p e = .ok x ↔ ¬p := by
  by_cases h : p <;> simp [refuseIf, h]

/-- A chain succeeds exactly if its links do. -/
@[simp] theorem bind_ok {x : Except ε α} {f : α → Except ε β} {b : β} :
    x >>= f = .ok b ↔ ∃ a, x = .ok a ∧ f a = .ok b := by
  cases x <;> simp [bind, Except.bind]

@[simp] theorem pure_ok {a b : α} : (pure a : Except ε α) = .ok b ↔ a = b := by
  simp [pure, Except.pure]

/-- What an error says does not matter to success. -/
@[simp] theorem mapError_ok {x : Except ε α} {f : ε → ε'} {a : α} :
    x.mapError f = .ok a ↔ x = .ok a := by
  cases x with
  | error e =>
    show (Except.error (f e) : Except ε' α) = .ok a ↔ _
    simp
  | ok b =>
    show (Except.ok b : Except ε' α) = .ok a ↔ _
    simp

end Guards
