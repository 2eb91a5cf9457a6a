import Mathlib.Data.List.Forall2
import Mathlib.Logic.Relation
import Mathlib.Order.Defs.PartialOrder

/-!
# Nested Calls with Rollback

A component whose operations call out to unknown code is entered again before
the outer operation has finished, and a nested call that fails restores the
state it started from. This file gives such components their runs: a current
state together with the states that are restored when an open call fails,
innermost first.

The rules of this file reduce a property of all runs to a property of single
moves:

- `Invariant.run`: an invariant of the moves holds of the current state and of
  every state that may still be restored.
- `DepthInvariant.run`: the same for an invariant that counts the open calls.
- `Progress.run_from`: a preorder that every move follows relates a state
  outside all calls to everything that comes later.
- `Progress.kept`: the same for a state inside open calls, as long as no
  failure undoes it.
- `Simulates.run`: a relation that every move follows takes runs to runs.
-/

namespace NestedCalls

universe u v

variable {σ : Type u} {τ : Type v}

/-! ## Call systems and their runs -/

/-- The moves of a component: opening a call, acting without opening or closing
    one, and returning successfully from the innermost open call. -/
structure CallSystem (σ : Type u) where
  enter : σ → σ → Prop
  act : σ → σ → Prop
  leave : σ → σ → Prop

/-- Some move leads from `s` to `s'`. Failures are not moves: they restore a state. -/
inductive CallSystem.Moves (M : CallSystem σ) (s s' : σ) : Prop where
  | enter : M.enter s s' → M.Moves s s'
  | act : M.act s s' → M.Moves s s'
  | leave : M.leave s s' → M.Moves s s'

/-- The moves of `M`, with calls returning only in states that satisfy `P`. -/
def CallSystem.guardLeave (M : CallSystem σ) (P : σ → Prop) : CallSystem σ where
  enter := M.enter
  act := M.act
  leave s s' := M.leave s s' ∧ P s

/-- The moves possible at some index (a clock reading, say). -/
def CallSystem.union (M : τ → CallSystem σ) : CallSystem σ where
  enter s s' := ∃ t, (M t).enter s s'
  act s s' := ∃ t, (M t).act s s'
  leave s s' := ∃ t, (M t).leave s s'

/-- A current state and the states restored by the failure of the open calls. -/
structure Config (σ : Type u) where
  cur : σ
  saved : List σ

/-- One step: a move, or the failure of the innermost open call. -/
inductive Step (M : CallSystem σ) : Config σ → Config σ → Prop where
  | enter {s s' : σ} {ss : List σ} : M.enter s s' → Step M ⟨s, ss⟩ ⟨s', s :: ss⟩
  | act {s s' : σ} {ss : List σ} : M.act s s' → Step M ⟨s, ss⟩ ⟨s', ss⟩
  | leave {s s' r : σ} {ss : List σ} : M.leave s s' → Step M ⟨s, r :: ss⟩ ⟨s', ss⟩
  | revert {s r : σ} {ss : List σ} : Step M ⟨s, r :: ss⟩ ⟨r, ss⟩

/-- Any number of steps. -/
abbrev Run (M : CallSystem σ) : Config σ → Config σ → Prop :=
  Relation.ReflTransGen (Step M)

theorem CallSystem.Moves.of_union {M : τ → CallSystem σ} {s s' : σ}
    (h : (CallSystem.union M).Moves s s') : ∃ t, (M t).Moves s s' := by
  cases h with
  | enter h => exact ⟨h.choose, .enter h.choose_spec⟩
  | act h => exact ⟨h.choose, .act h.choose_spec⟩
  | leave h => exact ⟨h.choose, .leave h.choose_spec⟩

theorem CallSystem.Moves.to_union {M : τ → CallSystem σ} {t : τ} {s s' : σ}
    (h : (M t).Moves s s') : (CallSystem.union M).Moves s s' := by
  cases h with
  | enter h => exact .enter ⟨t, h⟩
  | act h => exact .act ⟨t, h⟩
  | leave h => exact .leave ⟨t, h⟩

theorem Step.to_union {M : τ → CallSystem σ} {t : τ} {c c' : Config σ}
    (h : Step (M t) c c') : Step (CallSystem.union M) c c' := by
  cases h with
  | enter h => exact .enter ⟨t, h⟩
  | act h => exact .act ⟨t, h⟩
  | leave h => exact .leave ⟨t, h⟩
  | revert => exact .revert

theorem Step.of_guardLeave {M : CallSystem σ} {P : σ → Prop} {c c' : Config σ}
    (h : Step (M.guardLeave P) c c') : Step M c c' := by
  cases h with
  | enter h => exact .enter h
  | act h => exact .act h
  | leave h => exact .leave h.1
  | revert => exact .revert

/-- A run that meets the condition on returns is a run. -/
theorem Run.of_guardLeave {M : CallSystem σ} {P : σ → Prop} {c c' : Config σ}
    (h : Run (M.guardLeave P) c c') : Run M c c' :=
  Relation.ReflTransGen.mono (fun _ _ => Step.of_guardLeave) _ _ h

/-- The runs at one index are runs of the union. -/
theorem Run.to_union {M : τ → CallSystem σ} {t : τ} {c c' : Config σ} (h : Run (M t) c c') :
    Run (CallSystem.union M) c c' :=
  Relation.ReflTransGen.mono (fun _ _ => Step.to_union) _ _ h

/-- What happens above some open calls does not depend on them. -/
theorem Run.above {M : CallSystem σ} {c c' : Config σ} (h : Run M c c') (base : List σ) :
    Run M ⟨c.cur, c.saved ++ base⟩ ⟨c'.cur, c'.saved ++ base⟩ := by
  induction h with
  | refl => exact .refl
  | tail _ hstep ih =>
    apply ih.tail
    cases hstep with
    | enter h => exact .enter h
    | act h => exact .act h
    | leave h => exact .leave h
    | revert => exact .revert

/-- A step is a move of the current state or restores a saved one. -/
theorem Step.cases_moves {M : CallSystem σ} {c c' : Config σ} (h : Step M c c') :
    (M.Moves c.cur c'.cur ∧ ∀ r ∈ c'.saved, r = c.cur ∨ r ∈ c.saved) ∨
    (c'.cur ∈ c.saved ∧ ∀ r ∈ c'.saved, r ∈ c.saved) := by
  cases h with
  | enter h => exact .inl ⟨.enter h, fun r hr => List.mem_cons.mp hr⟩
  | act h => exact .inl ⟨.act h, fun r hr => .inr hr⟩
  | leave h => exact .inl ⟨.leave h, fun r hr => .inr (List.mem_cons_of_mem _ hr)⟩
  | revert => exact .inr ⟨List.mem_cons_self .., fun r hr => List.mem_cons_of_mem _ hr⟩

/-! ## Invariants -/

/-- `I` holds of the current state and of every state that may be restored. -/
def Config.All (I : σ → Prop) (c : Config σ) : Prop :=
  I c.cur ∧ ∀ r ∈ c.saved, I r

/-- Every move preserves `I`. -/
def Invariant (M : CallSystem σ) (I : σ → Prop) : Prop :=
  ∀ ⦃s s' : σ⦄, I s → M.Moves s s' → I s'

theorem Config.All.of_cur {I : σ → Prop} {s : σ} (h : I s) : (⟨s, []⟩ : Config σ).All I :=
  ⟨h, fun _ hr => absurd hr List.not_mem_nil⟩

theorem Config.All.mono {I J : σ → Prop} {c : Config σ} (h : c.All I)
    (hij : ∀ s, I s → J s) : c.All J :=
  ⟨hij _ h.1, fun r hr => hij r (h.2 r hr)⟩

/-- Step rule: failures restore states that satisfy the invariant already. -/
theorem Invariant.step {M : CallSystem σ} {I : σ → Prop} (hI : Invariant M I)
    {c c' : Config σ} (h : Step M c c') (hc : c.All I) : c'.All I := by
  obtain ⟨hcur, hsaved⟩ := hc
  rcases h.cases_moves with ⟨hmove, hsub⟩ | ⟨hmem, hsub⟩
  · refine ⟨hI hcur hmove, fun r hr => ?_⟩
    rcases hsub r hr with rfl | hr'
    · exact hcur
    · exact hsaved r hr'
  · exact ⟨hsaved _ hmem, fun r hr => hsaved r (hsub r hr)⟩

/-- Run rule. -/
theorem Invariant.run {M : CallSystem σ} {I : σ → Prop} (hI : Invariant M I)
    {c c' : Config σ} (h : Run M c c') (hc : c.All I) : c'.All I := by
  induction h with
  | refl => exact hc
  | tail _ hstep ih => exact hI.step hstep ih

/-- Runs of `M` are runs of `N` that meet a condition on returns, if the steps of
    `M` are steps of `N` and an invariant of `M` implies the condition. -/
theorem Run.guardLeave_of_invariant {M N : CallSystem σ} {I P : σ → Prop} (hI : Invariant M I)
    (hP : ∀ s, I s → P s) (hsteps : ∀ c c', Step M c c' → Step N c c') {c c' : Config σ}
    (hc : c.All I) (h : Run M c c') : Run (N.guardLeave P) c c' := by
  induction h with
  | refl => exact .refl
  | tail hrun hstep ih =>
    apply ih.tail
    have hcur := hP _ (hI.run hrun hc).1
    cases hsteps _ _ hstep with
    | enter h => exact .enter h
    | act h => exact .act h
    | leave h => exact .leave ⟨h, hcur⟩
    | revert => exact .revert

/-! ## Invariants by depth -/

/-- `I n` holds of the current state, inside `n` open calls, and of every state
    that may be restored, inside as many as are open there. -/
def Config.AtDepth (I : Nat → σ → Prop) (c : Config σ) : Prop :=
  I c.saved.length c.cur ∧ ∀ r ss, r :: ss <:+ c.saved → I ss.length r

/-- Every move preserves `I`, at the depth that it leads to. -/
structure DepthInvariant (M : CallSystem σ) (I : Nat → σ → Prop) : Prop where
  enter : ∀ {n s s'}, I n s → M.enter s s' → I (n + 1) s'
  act : ∀ {n s s'}, I n s → M.act s s' → I n s'
  leave : ∀ {n s s'}, I (n + 1) s → M.leave s s' → I n s'

/-- Outside all calls. -/
theorem Config.AtDepth.of_cur {I : Nat → σ → Prop} {s : σ} (h : I 0 s) :
    (⟨s, []⟩ : Config σ).AtDepth I := by
  refine ⟨h, fun r ss hsuffix => ?_⟩
  cases List.suffix_nil.mp hsuffix

/-- Step rule: a failure restores the depth with the state. -/
theorem DepthInvariant.step {M : CallSystem σ} {I : Nat → σ → Prop} (hI : DepthInvariant M I)
    {c c' : Config σ} (h : Step M c c') (hc : c.AtDepth I) : c'.AtDepth I := by
  obtain ⟨hcur, hsaved⟩ := hc
  cases h with
  | @enter s s' ss hmove =>
    refine ⟨hI.enter hcur hmove, fun r rs hsuffix => ?_⟩
    rcases List.suffix_cons_iff.mp hsuffix with heq | hsuffix
    · obtain ⟨rfl, rfl⟩ := List.cons.inj heq
      exact hcur
    · exact hsaved r rs hsuffix
  | act hmove => exact ⟨hI.act hcur hmove, hsaved⟩
  | @leave s s' r ss hmove =>
    refine ⟨hI.leave hcur hmove, fun r' rs hsuffix => hsaved r' rs ?_⟩
    exact hsuffix.trans (List.suffix_cons r ss)
  | @revert s r ss =>
    refine ⟨hsaved r ss List.suffix_rfl, fun r' rs hsuffix => hsaved r' rs ?_⟩
    exact hsuffix.trans (List.suffix_cons r ss)

/-- Run rule. -/
theorem DepthInvariant.run {M : CallSystem σ} {I : Nat → σ → Prop} (hI : DepthInvariant M I)
    {c c' : Config σ} (h : Run M c c') (hc : c.AtDepth I) : c'.AtDepth I := by
  induction h with
  | refl => exact hc
  | tail _ hstep ih => exact hI.step hstep ih

/-! ## Progress along a preorder -/

/-- Every move follows the preorder `R`. -/
structure Progress (M : CallSystem σ) (R : σ → σ → Prop) : Prop where
  refl : ∀ s, R s s
  trans : ∀ {a b c}, R a b → R b c → R a c
  moves : ∀ {s s'}, M.Moves s s' → R s s'

/-- Being later than a fixed state is an invariant. -/
theorem Progress.invariant {M : CallSystem σ} {R : σ → σ → Prop} (hR : Progress M R) (s₀ : σ) :
    Invariant M (R s₀) :=
  fun _ _ hs hmove => hR.trans hs (hR.moves hmove)

/-- From a state outside all calls, everything that follows is later. -/
theorem Progress.run_from {M : CallSystem σ} {R : σ → σ → Prop} (hR : Progress M R)
    {s : σ} {c : Config σ} (h : Run M ⟨s, []⟩ c) : c.All (R s) :=
  (hR.invariant s).run h (.of_cur (hR.refl s))

/-- The continuations of `c` in which no failure undoes `c.cur`: the state
    reached, the states saved since `c`, and what is left of `c.saved`. -/
inductive Kept (M : CallSystem σ) (c : Config σ) : σ → List σ → List σ → Prop where
  | here : Kept M c c.cur [] c.saved
  | enter {s s' : σ} {inner outer : List σ} :
      Kept M c s inner outer → M.enter s s' → Kept M c s' (s :: inner) outer
  | act {s s' : σ} {inner outer : List σ} :
      Kept M c s inner outer → M.act s s' → Kept M c s' inner outer
  | leaveInner {s s' r : σ} {inner outer : List σ} :
      Kept M c s (r :: inner) outer → M.leave s s' → Kept M c s' inner outer
  | leaveOuter {s s' r : σ} {outer : List σ} :
      Kept M c s [] (r :: outer) → M.leave s s' → Kept M c s' [] outer
  | undoInner {s r : σ} {inner outer : List σ} :
      Kept M c s (r :: inner) outer → Kept M c r inner outer

/-- A kept continuation is a run. -/
theorem Kept.run {M : CallSystem σ} {c : Config σ} {s : σ} {inner outer : List σ}
    (h : Kept M c s inner outer) : Run M c ⟨s, inner ++ outer⟩ := by
  induction h with
  | here => exact .refl
  | enter _ hmove ih => exact ih.tail (.enter hmove)
  | act _ hmove ih => exact ih.tail (.act hmove)
  | leaveInner _ hmove ih => exact ih.tail (.leave hmove)
  | leaveOuter _ hmove ih => exact ih.tail (.leave hmove)
  | undoInner _ ih => exact ih.tail .revert

/-- A kept state stays below everything that follows it. -/
theorem Progress.kept {M : CallSystem σ} {R : σ → σ → Prop} (hR : Progress M R)
    {c : Config σ} {s : σ} {inner outer : List σ} (h : Kept M c s inner outer) :
    R c.cur s ∧ ∀ r ∈ inner, R c.cur r := by
  induction h with
  | here => exact ⟨hR.refl _, fun _ hr => absurd hr List.not_mem_nil⟩
  | enter _ hmove ih =>
    refine ⟨hR.trans ih.1 (hR.moves (.enter hmove)), fun r hr => ?_⟩
    rcases List.mem_cons.mp hr with rfl | hr'
    · exact ih.1
    · exact ih.2 r hr'
  | act _ hmove ih => exact ⟨hR.trans ih.1 (hR.moves (.act hmove)), ih.2⟩
  | leaveInner _ hmove ih =>
    exact ⟨hR.trans ih.1 (hR.moves (.leave hmove)), fun r hr => ih.2 r (List.mem_cons_of_mem _ hr)⟩
  | leaveOuter _ hmove ih => exact ⟨hR.trans ih.1 (hR.moves (.leave hmove)), ih.2⟩
  | undoInner _ ih =>
    exact ⟨ih.2 _ (List.mem_cons_self ..), fun r hr => ih.2 r (List.mem_cons_of_mem _ hr)⟩

/-! ## Scripts -/

/-- Steps that can be computed, each named by an action of type `α`. -/
structure Script (M : CallSystem σ) (α : Type v) where
  perform : α → Config σ → Option (Config σ)
  sound : ∀ {a c c'}, perform a c = some c' → Step M c c'

namespace Script

variable {M : CallSystem σ} {α : Type v}

/-- Perform a list of actions. -/
def performAll (P : Script M α) : List α → Config σ → Option (Config σ)
  | [], c => some c
  | a :: as, c => (P.perform a c).bind (P.performAll as)

/-- A performed script is a run. -/
theorem performAll_sound (P : Script M α) {as : List α} {c c' : Config σ}
    (h : P.performAll as c = some c') : Run M c c' := by
  induction as generalizing c with
  | nil => cases h; exact .refl
  | cons a as ih =>
    obtain ⟨c₁, ha, has⟩ := Option.bind_eq_some_iff.mp h
    exact .head (P.sound ha) (ih has)

/-- A script whose outcome passes a test yields a run to such a configuration. -/
theorem exists_run (P : Script M α) (as : List α) (c : Config σ) (test : Config σ → Bool)
    (h : (P.performAll as c).any test = true) : ∃ c', Run M c c' ∧ test c' = true := by
  cases hrun : P.performAll as c with
  | none => simp [hrun] at h
  | some c' => exact ⟨c', P.performAll_sound hrun, by simpa [hrun] using h⟩

/-- The same for two scripts in a row, with a test of both outcomes. -/
theorem exists_run_run (P : Script M α) (as bs : List α) (c : Config σ)
    (test : Config σ → Config σ → Bool)
    (h : ((P.performAll as c).any fun c₁ => (P.performAll bs c₁).any (test c₁)) = true) :
    ∃ c₁ c₂, Run M c c₁ ∧ Run M c₁ c₂ ∧ test c₁ c₂ = true := by
  obtain ⟨c₁, hrun, hrest⟩ := P.exists_run as c _ h
  obtain ⟨c₂, hrun', htest⟩ := P.exists_run bs c₁ _ hrest
  exact ⟨c₁, c₂, hrun, hrun', htest⟩

end Script

/-! ## Simulations -/

/-- `R` relates the current states, and the saved ones pairwise. -/
def Config.Related (R : σ → τ → Prop) (c : Config σ) (d : Config τ) : Prop :=
  R c.cur d.cur ∧ List.Forall₂ R c.saved d.saved

theorem Config.Related.of_cur {R : σ → τ → Prop} {s : σ} {t : τ} (h : R s t) :
    Config.Related R ⟨s, []⟩ ⟨t, []⟩ := ⟨h, .nil⟩

/-- Every move of `M` is matched by a run of `N` that opens one call, none, or
    closes one, as the move does. -/
structure Simulates (M : CallSystem σ) (N : CallSystem τ) (R : σ → τ → Prop) : Prop where
  enter : ∀ {s s' t}, R s t → M.enter s s' → ∃ t', R s' t' ∧ Run N ⟨t, []⟩ ⟨t', [t]⟩
  act : ∀ {s s' t}, R s t → M.act s s' → ∃ t', R s' t' ∧ Run N ⟨t, []⟩ ⟨t', []⟩
  leave : ∀ {s s' t}, R s t → M.leave s s' → ∃ t', R s' t' ∧ ∀ r, Run N ⟨t, [r]⟩ ⟨t', []⟩

/-- Step rule: a failure on one side is matched by a failure on the other. -/
theorem Simulates.step {M : CallSystem σ} {N : CallSystem τ} {R : σ → τ → Prop}
    (h : Simulates M N R) {c c' : Config σ} {d : Config τ} (hstep : Step M c c')
    (hcd : c.Related R d) : ∃ d', c'.Related R d' ∧ Run N d d' := by
  obtain ⟨t, ts⟩ := d
  obtain ⟨hcur, hsaved⟩ := hcd
  -- A matching run is made above the calls that are open already.
  cases hstep with
  | enter hmove =>
    obtain ⟨t', hrel, hrun⟩ := h.enter hcur hmove
    exact ⟨⟨t', t :: ts⟩, ⟨hrel, .cons hcur hsaved⟩, hrun.above ts⟩
  | act hmove =>
    obtain ⟨t', hrel, hrun⟩ := h.act hcur hmove
    exact ⟨⟨t', ts⟩, ⟨hrel, hsaved⟩, hrun.above ts⟩
  | leave hmove =>
    obtain ⟨t', hrel, hrun⟩ := h.leave hcur hmove
    cases hsaved with
    | @cons _ r _ rs _ hrest => exact ⟨⟨t', rs⟩, ⟨hrel, hrest⟩, (hrun r).above rs⟩
  | revert =>
    cases hsaved with
    | @cons _ r _ rs hfirst hrest => exact ⟨⟨r, rs⟩, ⟨hfirst, hrest⟩, .single .revert⟩

/-- Run rule. -/
theorem Simulates.run {M : CallSystem σ} {N : CallSystem τ} {R : σ → τ → Prop}
    (h : Simulates M N R) {c c' : Config σ} {d : Config τ} (hrun : Run M c c')
    (hcd : c.Related R d) : ∃ d', c'.Related R d' ∧ Run N d d' := by
  induction hrun with
  | refl => exact ⟨d, hcd, .refl⟩
  | tail _ hstep ih =>
    obtain ⟨d₁, hrel, hrun₁⟩ := ih
    obtain ⟨d₂, hrel', hrun₂⟩ := h.step hstep hrel
    exact ⟨d₂, hrel', hrun₁.trans hrun₂⟩

end NestedCalls
