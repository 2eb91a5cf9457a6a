import Mathlib.Tactic.SplitIfs
import Mathlib.Logic.Function.Basic

/-!
# Ledgers of Fungible Assets

Balances of assets over accounts and the allowances that let one account spend
for another. A transfer subtracts from the source and then adds to the
destination, so a transfer to oneself changes nothing; a delegated transfer
spends the allowance of the spender unless the asset takes that allowance as
unlimited.
-/

universe u v

/-- Balances and allowances: `allowance a owner spender`. -/
structure Ledger (A : Type u) (X : Type v) where
  bal : A → X → Nat
  allowance : A → X → X → Nat

namespace Ledger

variable {A : Type u} {X : Type v} [DecidableEq A] [DecidableEq X]

/-- Set one balance. -/
def setBal (l : Ledger A X) (a : A) (x : X) (n : Nat) : Ledger A X :=
  { l with bal := fun a' x' => if a' = a ∧ x' = x then n else l.bal a' x' }

/-- Add to one balance. -/
def credit (l : Ledger A X) (a : A) (x : X) (n : Nat) : Ledger A X :=
  l.setBal a x (l.bal a x + n)

/-- Move `n` units of `a`; fails when the source has less. -/
def move (l : Ledger A X) (a : A) (src dst : X) (n : Nat) : Option (Ledger A X) :=
  if l.bal a src < n then none
  else some ((l.setBal a src (l.bal a src - n)).credit a dst n)

/-- Set one allowance. -/
def approve (l : Ledger A X) (a : A) (owner spender : X) (n : Nat) : Ledger A X :=
  { l with allowance := fun a' o s =>
      if a' = a ∧ o = owner ∧ s = spender then n else l.allowance a' o s }

/-- What is left of an allowance after spending `n` of it. -/
def spent (unlimited : Nat → Bool) (allowed n : Nat) : Nat :=
  if unlimited allowed then allowed else allowed - n

/-- Move `n` units of `a` on behalf of `owner`. -/
def transferFrom (unlimited : Nat → Bool) (l : Ledger A X) (a : A) (spender owner dst : X)
    (n : Nat) : Option (Ledger A X) :=
  if l.allowance a owner spender < n then none
  else (l.approve a owner spender (spent unlimited (l.allowance a owner spender) n)).move
    a owner dst n

/-! ## Reading an updated ledger -/

@[simp] theorem setBal_allowance (l : Ledger A X) (a : A) (x : X) (n : Nat) :
    (l.setBal a x n).allowance = l.allowance := rfl

@[simp] theorem credit_allowance (l : Ledger A X) (a : A) (x : X) (n : Nat) :
    (l.credit a x n).allowance = l.allowance := rfl

@[simp] theorem approve_bal (l : Ledger A X) (a : A) (o s : X) (n : Nat) :
    (l.approve a o s n).bal = l.bal := rfl

theorem setBal_bal (l : Ledger A X) (a : A) (x : X) (n : Nat) (a' : A) (x' : X) :
    (l.setBal a x n).bal a' x' = if a' = a ∧ x' = x then n else l.bal a' x' := rfl

theorem credit_bal (l : Ledger A X) (a : A) (x : X) (n : Nat) (a' : A) (x' : X) :
    (l.credit a x n).bal a' x' = l.bal a' x' + if a' = a ∧ x' = x then n else 0 := by
  by_cases h : a' = a ∧ x' = x
  · obtain ⟨rfl, rfl⟩ := h; simp [credit, setBal]
  · simp [credit, setBal, h]

theorem approve_allowance (l : Ledger A X) (a : A) (o s : X) (n : Nat) (a' : A) (o' s' : X) :
    (l.approve a o s n).allowance a' o' s' =
      if a' = a ∧ o' = o ∧ s' = s then n else l.allowance a' o' s' := rfl

/-! ## Transfers -/

theorem move_eq_some {l l' : Ledger A X} {a : A} {src dst : X} {n : Nat} :
    l.move a src dst n = some l' ↔
      n ≤ l.bal a src ∧ l' = (l.setBal a src (l.bal a src - n)).credit a dst n := by
  unfold move
  split_ifs with h
  · simp; omega
  · simp [eq_comm]; omega

theorem move_isSome {l : Ledger A X} {a : A} {src dst : X} {n : Nat} :
    (∃ l', l.move a src dst n = some l') ↔ n ≤ l.bal a src := by
  simp [move_eq_some]

theorem move_allowance {l l' : Ledger A X} {a : A} {src dst : X} {n : Nat}
    (h : l.move a src dst n = some l') : l'.allowance = l.allowance := by
  rw [move_eq_some] at h
  rw [h.2]; rfl

/-- A transfer adds to the destination and takes from the source. -/
theorem move_bal {l l' : Ledger A X} {a : A} {src dst : X} {n : Nat}
    (h : l.move a src dst n = some l') (a' : A) (x : X) :
    l'.bal a' x + (if a' = a ∧ x = src then n else 0) =
      l.bal a' x + if a' = a ∧ x = dst then n else 0 := by
  obtain ⟨hle, rfl⟩ := move_eq_some.mp h
  rw [credit_bal, setBal_bal]
  by_cases hs : a' = a ∧ x = src
  · obtain ⟨rfl, rfl⟩ := hs
    simp; omega
  · simp [hs]

/-- Only the source loses. -/
theorem move_bal_ge {l l' : Ledger A X} {a : A} {src dst : X} {n : Nat}
    (h : l.move a src dst n = some l') {a' : A} {x : X} (hx : a' ≠ a ∨ x ≠ src) :
    l.bal a' x ≤ l'.bal a' x := by
  have hbal := move_bal h a' x
  have hs : ¬(a' = a ∧ x = src) := fun ⟨ha, hsrc⟩ => hx.elim (· ha) (· hsrc)
  rw [if_neg hs] at hbal
  omega

/-- The destination of a transfer from another account gains exactly `n`. -/
theorem move_bal_dst {l l' : Ledger A X} {a : A} {src dst : X} {n : Nat}
    (h : l.move a src dst n = some l') (hne : dst ≠ src) :
    l'.bal a dst = l.bal a dst + n := by
  simpa [hne] using move_bal h a dst

theorem transferFrom_eq_some {unlimited : Nat → Bool} {l l' : Ledger A X} {a : A}
    {spender owner dst : X} {n : Nat} :
    l.transferFrom unlimited a spender owner dst n = some l' ↔
      n ≤ l.allowance a owner spender ∧
      (l.approve a owner spender (spent unlimited (l.allowance a owner spender) n)).move
        a owner dst n = some l' := by
  unfold transferFrom
  split_ifs with h
  · simp; omega
  · simp; omega

theorem transferFrom_allowance {unlimited : Nat → Bool} {l l' : Ledger A X} {a : A}
    {spender owner dst : X} {n : Nat}
    (h : l.transferFrom unlimited a spender owner dst n = some l') (a' : A) (o s : X) :
    l'.allowance a' o s =
      if a' = a ∧ o = owner ∧ s = spender then spent unlimited (l.allowance a owner spender) n
      else l.allowance a' o s := by
  rw [transferFrom_eq_some] at h
  rw [move_allowance h.2, approve_allowance]

theorem transferFrom_isSome {unlimited : Nat → Bool} {l : Ledger A X} {a : A}
    {spender owner dst : X} {n : Nat} :
    (∃ l', l.transferFrom unlimited a spender owner dst n = some l') ↔
      n ≤ l.allowance a owner spender ∧ n ≤ l.bal a owner := by
  simp only [transferFrom_eq_some, exists_and_left, move_isSome, approve_bal]

end Ledger
