import Mathlib.Logic.Function.Basic
import Mathlib.Data.List.Infix

/-!
# Delivering Several Streams

Items of several streams arrive one after the other. Each stream's items arrive
in its own order, the streams are interleaved in any way, and an item that has
arrived may arrive again at any time.

The rule of this file is `Deliver.rec_on_arrivals`: when an item arrives, all
items that precede it in its stream have arrived.
-/

namespace Deliveries

universe u v

variable {κ : Type u} {α : Type v} [DecidableEq κ] {streams : κ → List α}

/-- `arrived` may have arrived when the streams have been read up to `pos`. -/
inductive Deliver (streams : κ → List α) : (κ → Nat) → List (κ × α) → Prop where
  | start : Deliver streams (fun _ => 0) []
  /-- The next item of stream `i`. -/
  | next {pos : κ → Nat} {arrived : List (κ × α)} (i : κ) (a : α)
      (h : Deliver streams pos arrived) (ha : (streams i)[pos i]? = some a) :
      Deliver streams (Function.update pos i (pos i + 1)) (arrived ++ [(i, a)])
  /-- An item of stream `i` that has been read before. -/
  | again {pos : κ → Nat} {arrived : List (κ × α)} (i : κ) (n : Nat) (a : α)
      (h : Deliver streams pos arrived) (hn : n < pos i) (ha : (streams i)[n]? = some a) :
      Deliver streams pos (arrived ++ [(i, a)])

/-- Every stream has arrived to its end. -/
def Complete (streams : κ → List α) (arrived : List (κ × α)) : Prop :=
  Deliver streams (fun i => (streams i).length) arrived

section Rules

variable {pos : κ → Nat} {arrived : List (κ × α)}

/-- What has arrived is what has been read. -/
theorem Deliver.mem_iff (h : Deliver streams pos arrived) {i : κ} {a : α} :
    (i, a) ∈ arrived ↔ a ∈ (streams i).take (pos i) := by
  induction h with
  | start => simp
  | @next pos arrived j b _ hb ih =>
    -- `next` takes one element more of its stream.
    rw [List.mem_append, List.mem_singleton, ih]
    by_cases hj : i = j
    · subst hj
      rw [Function.update_self, List.take_add_one, hb]
      simp
    · rw [Function.update_of_ne hj]
      simp [hj]
  | @again pos arrived j n b _ hn hb ih =>
    rw [List.mem_append, List.mem_singleton, ih]
    -- `again` repeats an element that has been taken.
    constructor
    · rintro (hold | hnew)
      · exact hold
      · obtain ⟨rfl, rfl⟩ := Prod.mk.inj hnew
        obtain ⟨hlt, hget⟩ := List.getElem?_eq_some_iff.mp hb
        exact List.mem_take_iff_getElem.mpr ⟨n, lt_min hn hlt, hget⟩
    · exact .inl

/-- Of completely delivered streams every item has arrived, and nothing else. -/
theorem Complete.mem_iff (h : Complete streams arrived) {i : κ} {a : α} :
    (i, a) ∈ arrived ↔ a ∈ streams i := by
  rw [Deliver.mem_iff h, List.take_length]

/-- Induction on what arrives: an item comes after those that precede it. -/
theorem Deliver.rec_on_arrivals {I : List (κ × α) → Prop} (h : Deliver streams pos arrived)
    (start : I [])
    (arrive : ∀ arrived i a before after, I arrived → streams i = before ++ a :: after →
      (∀ b ∈ before, (i, b) ∈ arrived) → I (arrived ++ [(i, a)])) : I arrived := by
  induction h with
  | start => exact start
  -- The element arrives for the first time, at the position of its stream.
  | @next pos arrived i a h ha ih =>
    obtain ⟨hlt, rfl⟩ := List.getElem?_eq_some_iff.mp ha
    refine arrive arrived i _ ((streams i).take (pos i)) ((streams i).drop (pos i + 1)) ih ?_ ?_
    · rw [List.getElem_cons_drop, List.take_append_drop]
    · intro b hb
      exact h.mem_iff.mpr hb
  -- The element arrives again, from an earlier position.
  | @again pos arrived i n a h hn ha ih =>
    obtain ⟨hlt, rfl⟩ := List.getElem?_eq_some_iff.mp ha
    refine arrive arrived i _ ((streams i).take n) ((streams i).drop (n + 1)) ih ?_ ?_
    · rw [List.getElem_cons_drop, List.take_append_drop]
    · intro b hb
      exact h.mem_iff.mpr (List.take_subset_take_left _ hn.le hb)

/-- Streams may grow at their ends. -/
theorem Deliver.mono {streams' : κ → List α} (h : Deliver streams pos arrived)
    (hgrow : ∀ i, streams i <+: streams' i) : Deliver streams' pos arrived := by
  have hget : ∀ {i : κ} {n : Nat} {a : α}, (streams i)[n]? = some a → (streams' i)[n]? = some a := by
    intro i n a ha
    obtain ⟨rest, hrest⟩ := hgrow i
    obtain ⟨hlt, -⟩ := List.getElem?_eq_some_iff.mp ha
    rw [← hrest, List.getElem?_append_left hlt]
    exact ha
  induction h with
  | start => exact .start
  | next i a _ ha ih => exact ih.next i a (hget ha)
  | again i n a _ hn ha ih => exact ih.again i n a hn (hget ha)

/-- Reading one stream from where it was left. -/
theorem Deliver.read {items rest : List α} {i : κ} (h : Deliver streams pos arrived)
    (hdrop : (streams i).drop (pos i) = items ++ rest) :
    Deliver streams (Function.update pos i (pos i + items.length))
      (arrived ++ items.map (i, ·)) := by
  induction items generalizing pos arrived with
  | nil => simpa using h
  | cons a items ih =>
    rw [List.cons_append] at hdrop
    have hfirst : (streams i)[pos i]? = some a := by
      rw [← List.head?_drop, hdrop]
      rfl
    have hrest : (streams i).drop (pos i + 1) = items ++ rest := by
      rw [← List.drop_drop, hdrop]
      rfl
    -- The first item, then the others from the next position on.
    have hnext := ih (h.next i a hfirst) (by rw [Function.update_self]; exact hrest)
    rw [Function.update_self, Function.update_idem] at hnext
    rw [List.map_cons, List.length_cons, Nat.add_comm items.length, ← Nat.add_assoc]
    simpa using hnext

/-- Reading one stream to its end. -/
theorem Deliver.read_all {i : κ} (h : Deliver streams pos arrived)
    (hpos : pos i ≤ (streams i).length) :
    Deliver streams (Function.update pos i (streams i).length)
      (arrived ++ ((streams i).drop (pos i)).map (i, ·)) := by
  have hread := h.read (List.append_nil ((streams i).drop (pos i))).symm
  rwa [List.length_drop, Nat.add_sub_cancel' hpos] at hread

/-- Reading two streams to their ends, one after the other. -/
theorem Deliver.read_both {streams : Bool → List α} {pos : Bool → Nat} {arrived : List (Bool × α)}
    (h : Deliver streams pos arrived) (hpos : ∀ i, pos i ≤ (streams i).length) :
    Complete streams (arrived ++ ((streams false).drop (pos false)).map (false, ·) ++
      ((streams true).drop (pos true)).map (true, ·)) := by
  have hfirst := h.read_all (hpos false)
  have hsecond := hfirst.read_all (i := true) <| by
    rw [Function.update_of_ne (by decide)]
    exact hpos true
  rw [Function.update_of_ne (by decide : true ≠ false)] at hsecond
  have hends : Function.update (Function.update pos false (streams false).length) true
      (streams true).length = fun i => (streams i).length := by
    funext i
    cases i <;> simp [Function.update]
  rwa [hends] at hsecond

end Rules

end Deliveries
