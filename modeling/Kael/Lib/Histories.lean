import Kael.Lib.NestedCalls
import Mathlib.Logic.Function.Basic

/-!
# Histories and Several Components

A run with rollback has a history too: the labels of the moves that no failure
has undone. `Labelled.noted` writes them down next to the state; this changes
nothing about the runs (`noted_of_run`, `run_of_noted`). Several components that
run side by side interleave their steps, and each of them sees a run of its own
(`RunTogether.at`).
-/

namespace NestedCalls

universe u v w

/-! ## Histories -/

/-- Moves that may carry a label. -/
structure Labelled (ε : Type v) (σ : Type u) where
  enter : Option ε → σ → σ → Prop
  act : Option ε → σ → σ → Prop
  leave : Option ε → σ → σ → Prop

/-- A state with the labels of the moves that led to it, oldest first. -/
structure Noted (ε : Type v) (σ : Type u) where
  state : σ
  notes : List ε

variable {ε : Type v} {σ : Type u}

def Labelled.plain (L : Labelled ε σ) : CallSystem σ where
  enter s s' := ∃ l, L.enter l s s'
  act s s' := ∃ l, L.act l s s'
  leave s s' := ∃ l, L.leave l s s'

def Labelled.noted (L : Labelled ε σ) : CallSystem (Noted ε σ) where
  enter t t' := ∃ l, L.enter l t.state t'.state ∧ t'.notes = t.notes ++ l.toList
  act t t' := ∃ l, L.act l t.state t'.state ∧ t'.notes = t.notes ++ l.toList
  leave t t' := ∃ l, L.leave l t.state t'.state ∧ t'.notes = t.notes ++ l.toList

/-- Some move labelled `l` leads from `s` to `s'`. -/
inductive Labelled.Moves (L : Labelled ε σ) (l : Option ε) (s s' : σ) : Prop where
  | enter : L.enter l s s' → L.Moves l s s'
  | act : L.act l s s' → L.Moves l s s'
  | leave : L.leave l s s' → L.Moves l s s'

/-- Forgetting the notes. -/
def Config.plain (c : Config (Noted ε σ)) : Config σ :=
  ⟨c.cur.state, c.saved.map Noted.state⟩

section Noted

variable {L : Labelled ε σ}

/-- Labels that only say more about the moves of `M`. -/
theorem Labelled.plain_eq {M : CallSystem σ}
    (henter : ∀ s s', (∃ l, L.enter l s s') ↔ M.enter s s')
    (hact : ∀ s s', (∃ l, L.act l s s') ↔ M.act s s')
    (hleave : ∀ s s', (∃ l, L.leave l s s') ↔ M.leave s s') : L.plain = M := by
  have henter' : L.plain.enter = M.enter := funext₂ fun s s' => propext (henter s s')
  have hact' : L.plain.act = M.act := funext₂ fun s s' => propext (hact s s')
  have hleave' : L.plain.leave = M.leave := funext₂ fun s s' => propext (hleave s s')
  exact congr (congr (congrArg CallSystem.mk henter') hact') hleave'

theorem Labelled.moves_of_noted {t t' : Noted ε σ} (h : L.noted.Moves t t') :
    ∃ l, L.Moves l t.state t'.state ∧ t'.notes = t.notes ++ l.toList := by
  cases h with
  | enter h => obtain ⟨l, hmove, hnotes⟩ := h; exact ⟨l, .enter hmove, hnotes⟩
  | act h => obtain ⟨l, hmove, hnotes⟩ := h; exact ⟨l, .act hmove, hnotes⟩
  | leave h => obtain ⟨l, hmove, hnotes⟩ := h; exact ⟨l, .leave hmove, hnotes⟩

/-- Invariant rule for states with their histories. -/
theorem Labelled.noted_invariant {I : Noted ε σ → Prop}
    (hI : ∀ t s' l, I t → L.Moves l t.state s' → I ⟨s', t.notes ++ l.toList⟩) :
    Invariant L.noted I := by
  intro t t' ht hmove
  obtain ⟨l, hmove, hnotes⟩ := Labelled.moves_of_noted hmove
  have hnext := hI t t'.state l ht hmove
  rwa [← hnotes] at hnext

/-- Depth rule for states with their histories. -/
theorem Labelled.noted_depthInvariant {I : Nat → Noted ε σ → Prop}
    (henter : ∀ n t s' l, I n t → L.enter l t.state s' → I (n + 1) ⟨s', t.notes ++ l.toList⟩)
    (hact : ∀ n t s' l, I n t → L.act l t.state s' → I n ⟨s', t.notes ++ l.toList⟩)
    (hleave : ∀ n t s' l, I (n + 1) t → L.leave l t.state s' → I n ⟨s', t.notes ++ l.toList⟩) :
    DepthInvariant L.noted I := by
  constructor
  · rintro n t t' ht ⟨l, hmove, hnotes⟩
    have hnext := henter n t t'.state l ht hmove
    rwa [← hnotes] at hnext
  · rintro n t t' ht ⟨l, hmove, hnotes⟩
    have hnext := hact n t t'.state l ht hmove
    rwa [← hnotes] at hnext
  · rintro n t t' ht ⟨l, hmove, hnotes⟩
    have hnext := hleave n t t'.state l ht hmove
    rwa [← hnotes] at hnext

/-- A run with notes is a run. -/
theorem Labelled.run_of_noted {c c' : Config (Noted ε σ)} (h : Run L.noted c c') :
    Run L.plain c.plain c'.plain := by
  induction h with
  | refl => exact .refl
  | tail _ hstep ih =>
    apply ih.tail
    cases hstep with
    | enter hmove => obtain ⟨l, hmove, -⟩ := hmove; exact .enter ⟨l, hmove⟩
    | act hmove => obtain ⟨l, hmove, -⟩ := hmove; exact .act ⟨l, hmove⟩
    | leave hmove => obtain ⟨l, hmove, -⟩ := hmove; exact .leave ⟨l, hmove⟩
    | revert => exact .revert

theorem Labelled.noted_of_step {c : Config (Noted ε σ)} {d : Config σ}
    (h : Step L.plain c.plain d) : ∃ c', c'.plain = d ∧ Step L.noted c c' := by
  obtain ⟨t, ts⟩ := c
  generalize hc : Config.plain ⟨t, ts⟩ = e at h
  -- Each step of the plain run is taken with its label; a failure restores the old notes.
  cases h with
  | @enter s s' ss hmove =>
    obtain ⟨rfl, rfl⟩ := Config.mk.inj hc
    obtain ⟨l, hmove⟩ := hmove
    exact ⟨⟨⟨s', t.notes ++ l.toList⟩, t :: ts⟩, rfl, .enter ⟨l, hmove, rfl⟩⟩
  | @act s s' ss hmove =>
    obtain ⟨rfl, rfl⟩ := Config.mk.inj hc
    obtain ⟨l, hmove⟩ := hmove
    exact ⟨⟨⟨s', t.notes ++ l.toList⟩, ts⟩, rfl, .act ⟨l, hmove, rfl⟩⟩
  | @leave s s' r ss hmove =>
    obtain ⟨rfl, hsaved⟩ := Config.mk.inj hc
    obtain ⟨l, hmove⟩ := hmove
    obtain ⟨r', ts', rfl, -, rfl⟩ := List.map_eq_cons_iff.mp hsaved
    exact ⟨⟨⟨s', t.notes ++ l.toList⟩, ts'⟩, rfl, .leave ⟨l, hmove, rfl⟩⟩
  | @revert s r ss =>
    obtain ⟨rfl, hsaved⟩ := Config.mk.inj hc
    obtain ⟨r', ts', rfl, rfl, rfl⟩ := List.map_eq_cons_iff.mp hsaved
    exact ⟨⟨r', ts'⟩, rfl, .revert⟩

/-- Every run can take notes. -/
theorem Labelled.noted_of_run {c : Config (Noted ε σ)} {d : Config σ}
    (h : Run L.plain c.plain d) : ∃ c', c'.plain = d ∧ Run L.noted c c' := by
  induction h with
  | refl => exact ⟨c, rfl, .refl⟩
  | tail _ hstep ih =>
    obtain ⟨c', rfl, hrun⟩ := ih
    obtain ⟨c'', hc'', hstep⟩ := noted_of_step hstep
    exact ⟨c'', hc'', hrun.tail hstep⟩

end Noted

/-! ## Components side by side -/

section Together

variable {κ : Type w} [DecidableEq κ] {M : κ → CallSystem σ}

/-- One step of one component. -/
inductive StepTogether (M : κ → CallSystem σ) (w w' : κ → Config σ) : Prop where
  | step (i : κ) (c : Config σ) (h : Step (M i) (w i) c) (hw : w' = Function.update w i c)

/-- Any number of steps, interleaved in any way. -/
abbrev RunTogether (M : κ → CallSystem σ) : (κ → Config σ) → (κ → Config σ) → Prop :=
  Relation.ReflTransGen (StepTogether M)

/-- Each component sees a run of its own. -/
theorem RunTogether.at {w w' : κ → Config σ} (h : RunTogether M w w') (i : κ) :
    Run (M i) (w i) (w' i) := by
  induction h with
  | refl => exact .refl
  | tail _ hstep ih =>
    obtain ⟨j, c, hc, rfl⟩ := hstep
    by_cases hj : i = j
    · subst hj
      rw [Function.update_self]
      exact ih.tail hc
    · rw [Function.update_of_ne hj]
      exact ih

/-- A run of one component, while the others wait. -/
theorem RunTogether.single {w : κ → Config σ} {i : κ} {c : Config σ}
    (h : Run (M i) (w i) c) : RunTogether M w (Function.update w i c) := by
  induction h with
  | refl => rw [Function.update_eq_self]
  | tail _ hstep ih =>
    apply ih.tail
    refine ⟨i, _, ?_, (Function.update_idem ..).symm⟩
    rw [Function.update_self]
    exact hstep

end Together

end NestedCalls
