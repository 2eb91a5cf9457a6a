import Mathlib.Data.List.Basic

/-!
# Selecting the First Best Element

One pass over a list that keeps the best element so far and replaces it only by
a strictly better one selects the head of the stably sorted list. And sorting
an increasing list stably leaves equals in increasing order.
-/

namespace Selection

universe u

variable {α : Type u} (le : α → α → Bool)

/-- Replace the best element so far by a strictly better one. -/
def better (best : Option α) (x : α) : Option α :=
  match best with
  | none => some x
  | some b => if le b x then some b else some x

/-- One pass from left to right. -/
def select (l : List α) : Option α := l.foldl (better le) none

section Total

variable {le} (htrans : ∀ a b c, le a b = true → le b c = true → le a c = true)
  (htotal : ∀ a b, (le a b || le b a) = true)

include htrans htotal

/-- The head of the sorted list, one element at a time from the right. -/
theorem head?_mergeSort_cons (a : α) (l : List α) :
    ((a :: l).mergeSort le).head? =
      match (l.mergeSort le).head? with
      | none => some a
      | some b => if le a b then some a else some b := by
  obtain ⟨l₁, l₂, hcons, hsort, hless⟩ := List.mergeSort_cons htrans htotal a l
  rw [hcons, hsort]
  -- Nothing is sorted before `a`, or something strictly less is.
  cases l₁ with
  | nil =>
    cases l₂ with
    | nil => rfl
    | cons b l₂ =>
      have hsorted := List.pairwise_mergeSort htrans htotal (a :: l)
      rw [hcons] at hsorted
      have hab : le a b = true := (List.pairwise_cons.mp hsorted).1 b (List.mem_cons_self ..)
      simp [hab]
  | cons b l₁ =>
    have hab : le a b = false := by simpa using hless b (List.mem_cons_self ..)
    simp [hab]

/-- From a best element on, the pass selects that element or the head of the
    sorted rest. -/
theorem foldl_better (l : List α) (a : α) :
    l.foldl (better le) (some a) =
      match (l.mergeSort le).head? with
      | none => some a
      | some b => if le a b then some a else some b := by
  induction l generalizing a with
  | nil => simp
  | cons x l ih =>
    have hhead := head?_mergeSort_cons htrans htotal x l
    rw [List.foldl_cons, hhead]
    cases hax : le a x with
    | true =>
      have hstep : better le (some a) x = some a := by simp [better, hax]
      rw [hstep, ih]
      cases hrest : (l.mergeSort le).head? with
      | none => simp [hax]
      | some b =>
        cases hxb : le x b with
        | true => simp [hax, hxb, htrans a x b hax hxb]
        | false => simp [hxb]
    | false =>
      have hstep : better le (some a) x = some x := by simp [better, hax]
      rw [hstep, ih]
      cases hrest : (l.mergeSort le).head? with
      | none => simp [hax]
      | some b =>
        cases hxb : le x b with
        | true => simp [hax, hxb]
        | false =>
          -- A best element before `x` would be before `b`, and so before `x`.
          have hbx : le b x = true := by
            have htot := htotal x b
            rw [hxb, Bool.false_or] at htot
            exact htot
          have hab : le a b = false := by
            cases hab : le a b with
            | false => rfl
            | true =>
              have haxt := htrans a b x hab hbx
              rw [hax] at haxt
              cases haxt
          simp [hxb, hab]

/-- **The pass selects the head of the sorted list.** -/
theorem select_eq_head? (l : List α) : select le l = (l.mergeSort le).head? := by
  cases l with
  | nil => simp [select]
  | cons a l =>
    have hfold := foldl_better htrans htotal l a
    rw [select, List.foldl_cons, head?_mergeSort_cons htrans htotal]
    exact hfold

/-- Sorting keeps the order of equals: if the list was increasing in `lt`,
    equal elements of the sorted list still are. -/
theorem pairwise_mergeSort_stable {lt : α → α → Prop} {l : List α} (hl : l.Pairwise lt) :
    (l.mergeSort le).Pairwise fun a b => le a b = true ∧ (le b a = true → lt a b) := by
  induction l with
  | nil => simp
  | cons a l ih =>
    obtain ⟨l₁, l₂, hcons, hsort, hless⟩ := List.mergeSort_cons htrans htotal a l
    obtain ⟨hfirst, hrest⟩ := List.pairwise_cons.mp hl
    have hsorted := List.pairwise_mergeSort htrans htotal (a :: l)
    have hih := ih hrest
    rw [hsort, List.pairwise_append] at hih
    rw [hcons, List.pairwise_append] at hsorted
    rw [hcons, List.pairwise_append]
    obtain ⟨hih₁, hih₂, hih₁₂⟩ := hih
    obtain ⟨-, hsorted₂, -⟩ := hsorted
    refine ⟨hih₁, List.pairwise_cons.mpr ⟨?_, hih₂⟩, ?_⟩
    · -- `a` stood before everything that comes after it.
      intro b hb
      have hmem : b ∈ l := by
        rw [← @List.mem_mergeSort _ le, hsort]
        exact List.mem_append_right _ hb
      exact ⟨(List.pairwise_cons.mp hsorted₂).1 b hb, fun _ => hfirst b hmem⟩
    · intro x hx y hy
      rcases List.mem_cons.mp hy with rfl | hy'
      · -- What comes before `a` is strictly better.
        have hyx : le y x = false := by simpa using hless x hx
        have hxy := htotal y x
        rw [hyx, Bool.false_or] at hxy
        exact ⟨hxy, fun h => by rw [hyx] at h; cases h⟩
      · exact hih₁₂ x hx y hy'

/-- The head of the stably sorted list is the best element, and the first of
    the best ones. -/
theorem head?_eq_some_iff {lt : α → α → Prop} (hasymm : ∀ a b, lt a b → ¬lt b a) {l : List α}
    (hl : l.Pairwise lt) {a : α} :
    (l.mergeSort le).head? = some a ↔
      a ∈ l ∧ ∀ b ∈ l, b ≠ a → le a b = true ∧ (le b a = true → lt a b) := by
  have hsorted := pairwise_mergeSort_stable htrans htotal hl
  have hmem : ∀ b, b ∈ l.mergeSort le ↔ b ∈ l := fun b => List.mem_mergeSort
  cases hsort : l.mergeSort le with
  | nil =>
    have hnone : ∀ b, b ∉ l := fun b hb => by simpa [hsort] using (hmem b).mpr hb
    simp [hnone]
  | cons h tail =>
    rw [hsort] at hsorted
    simp only [hsort] at hmem
    have hfirst := (List.pairwise_cons.mp hsorted).1
    rw [List.head?_cons, Option.some.injEq]
    constructor
    · rintro rfl
      refine ⟨(hmem h).mp (List.mem_cons_self ..), ?_⟩
      intro b hb hne
      exact hfirst b ((List.mem_cons.mp ((hmem b).mpr hb)).resolve_left hne)
    · rintro ⟨ha, hbest⟩
      by_contra hne
      -- Both would stand before the other.
      have hbefore := hfirst a ((List.mem_cons.mp ((hmem a).mpr ha)).resolve_left fun h' =>
        hne h'.symm)
      have hafter := hbest h ((hmem h).mp (List.mem_cons_self ..)) hne
      exact hasymm h a (hbefore.2 hafter.1) (hafter.2 hbefore.1)

end Total

end Selection
