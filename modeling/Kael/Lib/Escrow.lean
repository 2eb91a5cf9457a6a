import Mathlib.Algebra.BigOperators.Group.Finset.Piecewise
import Mathlib.Algebra.Order.BigOperators.Group.Finset
import Mathlib.Data.Fintype.Basic
import Mathlib.Logic.Relation
import Mathlib.Order.Defs.PartialOrder

/-!
# Escrow Tickets

What an escrow is for, without its storage: a ticket is opened once on some
terms, and what it holds is then claimed or reclaimed, once. The stages of a
ticket are ordered by how far it has come; the order is generated by the three
steps of a ticket's life (`Stage.le_iff_steps`), and claimed and reclaimed
tickets are maximal and incomparable.

What all tickets together hold is a total over the table in which they are kept
(`Totals.total`).
-/

namespace Escrow

universe u

variable {τ : Type u}

/-- How far a ticket on terms of type `τ` has come. -/
inductive Stage (τ : Type u) where
  | vacant
  | held (terms : τ)
  | claimed (terms : τ)
  | reclaimed (terms : τ)
deriving DecidableEq

namespace Stage

/-- One step in the life of a ticket. -/
inductive Step : Stage τ → Stage τ → Prop where
  | open (t : τ) : Step .vacant (.held t)
  | claim (t : τ) : Step (.held t) (.claimed t)
  | reclaim (t : τ) : Step (.held t) (.reclaimed t)

/-- `a.AtMost b`: a ticket at stage `a` may come to stage `b`. -/
def AtMost : Stage τ → Stage τ → Prop
  | .vacant, _ => True
  | .held t, .held t' => t = t'
  | .held t, .claimed t' => t = t'
  | .held t, .reclaimed t' => t = t'
  | .claimed t, .claimed t' => t = t'
  | .reclaimed t, .reclaimed t' => t = t'
  | _, _ => False

theorem AtMost.refl (a : Stage τ) : a.AtMost a := by
  cases a <;> simp [AtMost]

theorem AtMost.trans {a b c : Stage τ} (hab : a.AtMost b) (hbc : b.AtMost c) : a.AtMost c := by
  cases a <;> cases b <;> cases c <;> simp_all [AtMost]

instance : PartialOrder (Stage τ) where
  le := AtMost
  le_refl := AtMost.refl
  le_trans _ _ _ := AtMost.trans
  le_antisymm a b hab hba := by
    cases a <;> cases b <;> simp_all [AtMost]

theorem le_def {a b : Stage τ} : a ≤ b ↔ a.AtMost b := Iff.rfl

theorem Step.le {a b : Stage τ} (h : Step a b) : a ≤ b := by
  cases h <;> simp [le_def, AtMost]

/-- The order is what the steps generate. -/
theorem le_iff_steps {a b : Stage τ} : a ≤ b ↔ Relation.ReflTransGen Step a b := by
  constructor
  · intro h
    -- At most two steps lead from one stage to another.
    cases a with
    | vacant =>
      cases b with
      | vacant => exact .refl
      | held t => exact .single (.open t)
      | claimed t => exact .tail (.single (.open t)) (.claim t)
      | reclaimed t => exact .tail (.single (.open t)) (.reclaim t)
    | held t =>
      cases b <;> simp only [le_def, AtMost] at h
      · subst h; exact .refl
      · subst h; exact .single (.claim t)
      · subst h; exact .single (.reclaim t)
    | claimed t =>
      cases b <;> simp only [le_def, AtMost] at h
      subst h; exact .refl
    | reclaimed t =>
      cases b <;> simp only [le_def, AtMost] at h
      subst h; exact .refl
  · intro h
    induction h with
    | refl => exact le_refl _
    | tail _ hstep ih => exact le_trans ih hstep.le

/-- The terms of an opened ticket. -/
def terms : Stage τ → Option τ
  | .vacant => none
  | .held t => some t
  | .claimed t => some t
  | .reclaimed t => some t

/-- Terms never change once the ticket is open. -/
theorem terms_of_le {a b : Stage τ} {t : τ} (h : a ≤ b) (ha : a.terms = some t) :
    b.terms = some t := by
  cases a <;> cases b <;> simp_all [le_def, AtMost, terms]

/-- A claimed ticket stays claimed. -/
theorem claimed_le {b : Stage τ} {t : τ} : (.claimed t : Stage τ) ≤ b ↔ b = .claimed t := by
  cases b <;> simp [le_def, AtMost, eq_comm]

/-- A reclaimed ticket stays reclaimed. -/
theorem reclaimed_le {b : Stage τ} {t : τ} :
    (.reclaimed t : Stage τ) ≤ b ↔ b = .reclaimed t := by
  cases b <;> simp [le_def, AtMost, eq_comm]

/-- What may become of a held ticket. -/
theorem held_le {b : Stage τ} {t : τ} :
    (.held t : Stage τ) ≤ b ↔ b = .held t ∨ b = .claimed t ∨ b = .reclaimed t := by
  cases b <;> simp [le_def, AtMost, eq_comm]

end Stage

end Escrow

/-! ## Totals over a table

The total of a weight over all entries of a finite-keyed table, and what
writing one entry does to it.
-/

namespace Totals

open Finset

universe u v

variable {ι : Type u} {α : Type v} [Fintype ι]

/-- The total weight of the entries of `table`. -/
def total (w : α → ℕ) (table : ι → α) : ℕ := ∑ i, w (table i)

/-- Writing an entry exchanges the weight of the old entry for that of the new one. -/
theorem total_update [DecidableEq ι] (w : α → ℕ) (table : ι → α) (i : ι) (a : α) :
    total w (Function.update table i a) + w (table i) = total w table + w a := by
  have hcomp : ∀ j, w (Function.update table i a j) = Function.update (w ∘ table) i (w a) j := by
    intro j
    by_cases hj : j = i
    · subst hj; simp
    · simp [hj]
  have hsplit : total w table = w (table i) + ∑ j ∈ univ \ {i}, w (table j) := by
    rw [total, ← sum_sdiff (subset_univ {i}), sum_singleton, add_comm]
  simp only [total, hcomp, sum_update_of_mem (mem_univ i)] at hsplit ⊢
  simp only [Function.comp]
  omega

/-- One entry weighs at most the total. -/
theorem le_total (w : α → ℕ) (table : ι → α) (i : ι) : w (table i) ≤ total w table :=
  single_le_sum (f := fun j => w (table j)) (fun _ _ => Nat.zero_le _) (mem_univ i)

/-- A table of weightless entries has total zero. -/
theorem total_eq_zero (w : α → ℕ) (table : ι → α) (h : ∀ i, w (table i) = 0) :
    total w table = 0 :=
  sum_eq_zero fun i _ => h i

end Totals
