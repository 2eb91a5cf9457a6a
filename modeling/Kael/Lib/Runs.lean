import Mathlib.Logic.Relation

/-!
# Step Properties Along Runs

A run of a deterministic system is its list of inputs. `Every` says that a
property of a state and its input holds at each step; `EveryUntil` says so
until the system stops, and `EverySince` from the step after a starting input.
Two properties that agree on the states of an invariant hold along the same
runs (`EveryUntil.iff_of_invariant`).

A step may also fail, or panic (`Fallible`), and a run may have steps of others
in between (`Ladders`).
-/

/-! ## Computations that fail or panic

The outcome of a computation that returns a value, returns an error to its
caller, or panics. A panic is not seen by the callers in between: it ends all
of them.
-/

universe u v

inductive Fallible (ε : Type u) (α : Type v) where
  | ok (a : α)
  | err (e : ε)
  | panicked
deriving DecidableEq

/-- Continue with the value, if there is one. -/
def Fallible.bind {ε : Type u} {α β : Type v} (x : Fallible ε α) (f : α → Fallible ε β) :
    Fallible ε β :=
  match x with
  | ok a => f a
  | err e => err e
  | panicked => panicked

/-! ## Properties of steps -/

namespace Runs

variable {σ ι : Type} (next : σ → ι → σ)

/-- The state after a run. -/
def stateAfter (s : σ) (is : List ι) : σ := is.foldl next s

def Every (P : σ → ι → Prop) : σ → List ι → Prop
  | _, [] => True
  | s, i :: is => P s i ∧ Every P (next s i) is

def EveryUntil (stop : σ → Prop) (P : σ → ι → Prop) : σ → List ι → Prop
  | _, [] => True
  | s, i :: is => stop s ∨ P s i ∧ EveryUntil stop P (next s i) is

/-- The steps after the first input that is `start`, until the system stops. -/
def EverySince (start : ι → Prop) [DecidablePred start] (stop : σ → Prop) (P : σ → ι → Prop) :
    σ → List ι → Prop
  | _, [] => True
  | s, i :: is =>
    if start i then EveryUntil next stop P (next s i) is
    else EverySince start stop P (next s i) is

/-- What each step of a run puts out. -/
def trace {ω : Type} (out : σ → ι → ω) : σ → List ι → List ω
  | _, [] => []
  | s, i :: is => out s i :: trace out (next s i) is

section Rules

variable {next} {stop : σ → Prop} {A P Q : σ → ι → Prop} {I : σ → Prop} {s : σ} {is : List ι}

/-- What holds at every step holds at the step after each prefix. -/
theorem Every.at_prefix {before after : List ι} {i : ι}
    (h : Every next P s (before ++ i :: after)) : P (stateAfter next s before) i := by
  induction before generalizing s with
  | nil => exact h.1
  | cons j before ih => exact ih h.2

theorem EveryUntil.iff_of_invariant
    (hagree : ∀ s i, I s → ¬stop s → A s i → (P s i ↔ Q s i))
    (hkeep : ∀ s i, I s → ¬stop s → A s i → Q s i → I (next s i))
    (hs : I s) (hall : Every next A s is) :
    EveryUntil next stop P s is ↔ EveryUntil next stop Q s is := by
  induction is generalizing s with
  | nil => exact Iff.rfl
  | cons i is ih =>
    by_cases hstop : stop s
    · simp only [EveryUntil, hstop, true_or]
    · obtain ⟨hi, hrest⟩ := hall
      simp only [EveryUntil, hstop, false_or, hagree s i hs hstop hi]
      apply and_congr_right
      intro hq
      exact ih (hkeep s i hs hstop hi hq) hrest

theorem EverySince.iff_of_invariant {start : ι → Prop} [DecidablePred start]
    (hstart : ∀ s i, A s i → start i → I (next s i))
    (hagree : ∀ s i, I s → ¬stop s → A s i → (P s i ↔ Q s i))
    (hkeep : ∀ s i, I s → ¬stop s → A s i → Q s i → I (next s i))
    (hall : Every next A s is) :
    EverySince next start stop P s is ↔ EverySince next start stop Q s is := by
  induction is generalizing s with
  | nil => exact Iff.rfl
  | cons i is ih =>
    obtain ⟨hi, hrest⟩ := hall
    by_cases hfirst : start i
    · simp only [EverySince, if_pos hfirst]
      exact EveryUntil.iff_of_invariant hagree hkeep (hstart s i hi hfirst) hrest
    · simp only [EverySince, if_neg hfirst]
      exact ih hrest

theorem stateAfter_invariant (hstep : ∀ s i, I s → I (next s i))
    (hs : I s) : I (stateAfter next s is) := by
  induction is generalizing s with
  | nil => exact hs
  | cons i is ih => exact ih (hstep s i hs)

theorem Every.of_append {before after : List ι} (h : Every next P s (before ++ after)) :
    Every next P s before := by
  induction before generalizing s with
  | nil => trivial
  | cons i before ih => exact ⟨h.1, ih h.2⟩

theorem Every.of_invariant (hkeep : ∀ s i, I s → I (next s i))
    (h : ∀ s, I s → ∀ i ∈ is, P s i) (hs : I s) : Every next P s is := by
  induction is generalizing s with
  | nil => trivial
  | cons i is ih =>
    refine ⟨h s hs i (List.mem_cons_self ..), ih ?_ (hkeep s i hs)⟩
    exact fun s' hs' j hj => h s' hs' j (List.mem_cons_of_mem _ hj)

theorem Every.of_forall (h : ∀ s, ∀ i ∈ is, P s i) : Every next P s is :=
  of_invariant (I := fun _ => True) (fun _ _ _ => trivial) (fun s _ => h s) trivial

/-- Two systems that are related, run on the same inputs. -/
theorem stateAfter_simulates {τ : Type} {next' : τ → ι → τ} {R : σ → τ → Prop} {t : τ}
    (hstep : ∀ s t i, R s t → P s i → R (next s i) (next' t i)) (hs : R s t)
    (hall : Every next P s is) : R (stateAfter next s is) (stateAfter next' t is) := by
  induction is generalizing s t with
  | nil => exact hs
  | cons i is ih => exact ih (hstep s t i hs hall.1) hall.2

section Trace

variable {ω : Type} {out : σ → ι → ω}

theorem trace_forall {p : ω → Prop} (hstep : ∀ s i, I s → I (next s i))
    (hp : ∀ s i, I s → p (out s i)) (hs : I s) : ∀ o ∈ trace next out s is, p o := by
  induction is generalizing s with
  | nil => exact nofun
  | cons i is ih => exact List.forall_mem_cons.mpr ⟨hp s i hs, ih (hstep s i hs)⟩

/-- What happens only on the way into a state that is never left happens once. -/
theorem countP_trace_le_one {p : ω → Bool} {F : σ → Prop}
    (hstep : ∀ s i, I s → I (next s i))
    (hfinal : ∀ s i, I s → F s → F (next s i))
    (honce : ∀ s i, I s → p (out s i) → ¬F s ∧ F (next s i)) (hs : I s) :
    (trace next out s is).countP p ≤ 1 := by
  -- Once `F` holds, the event does not come again.
  have hnone : ∀ is s, I s → F s → (trace next out s is).countP p = 0 := by
    intro is
    induction is with
    | nil => exact fun _ _ _ => rfl
    | cons i is ih =>
      intro s hs hf
      have hnot : ¬p (out s i) := fun hp => (honce s i hs hp).1 hf
      rw [trace, List.countP_cons_of_neg hnot]
      exact ih _ (hstep s i hs) (hfinal s i hs hf)
  -- By induction on the inputs, until the first time.
  induction is generalizing s with
  | nil => exact Nat.zero_le 1
  | cons i is ih =>
    by_cases hp : p (out s i)
    · have hlater := hnone is _ (hstep s i hs) (honce s i hs hp).2
      exact Nat.le_of_eq (by rw [trace, List.countP_cons_of_pos hp, hlater])
    · rw [trace, List.countP_cons_of_neg hp]
      exact ih (hstep s i hs)

/-- What happens only on the way into a state that is never left shows at the end. -/
theorem reached_of_trace {p : ω → Prop} {F : σ → Prop} (hstep : ∀ s i, I s → I (next s i))
    (hfinal : ∀ s i, I s → F s → F (next s i)) (hp : ∀ s i, I s → p (out s i) → F (next s i))
    (hs : I s) {o : ω} (ho : o ∈ trace next out s is) (hpo : p o) : F (stateAfter next s is) := by
  have hkept : ∀ is s, I s → F s → F (stateAfter next s is) := by
    intro is s hs hf
    have hboth : I (stateAfter next s is) ∧ F (stateAfter next s is) :=
      stateAfter_invariant (I := fun s => I s ∧ F s)
        (fun s i h => ⟨hstep s i h.1, hfinal s i h.1 h.2⟩) ⟨hs, hf⟩
    exact hboth.2
  induction is generalizing s with
  | nil => cases ho
  | cons i is ih =>
    rcases List.mem_cons.mp ho with rfl | ho'
    · exact hkept is _ (hstep s i hs) (hp s i hs hpo)
    · exact ih (hstep s i hs) ho'

/-- A state that is reached was entered by some step. -/
theorem trace_of_reached {p : ω → Prop} {F : σ → Prop} (hstep : ∀ s i, I s → I (next s i))
    (henter : ∀ s i, I s → ¬F s → F (next s i) → p (out s i)) (hs : I s) (hnot : ¬F s)
    (h : F (stateAfter next s is)) : ∃ o ∈ trace next out s is, p o := by
  induction is generalizing s with
  | nil => exact absurd h hnot
  | cons i is ih =>
    by_cases hi : F (next s i)
    · exact ⟨_, List.mem_cons_self .., henter s i hs hnot hi⟩
    · obtain ⟨o, ho, hpo⟩ := ih (hstep s i hs) hi h
      exact ⟨o, List.mem_cons_of_mem _ ho, hpo⟩

theorem stateAfter_append {xs ys : List ι} :
    stateAfter next s (xs ++ ys) = stateAfter next (stateAfter next s xs) ys :=
  List.foldl_append

theorem trace_append {xs ys : List ι} : trace next out s (xs ++ ys) =
    trace next out s xs ++ trace next out (stateAfter next s xs) ys := by
  induction xs generalizing s with
  | nil => rfl
  | cons i xs ih => simp only [List.cons_append, trace, ih, stateAfter, List.foldl_cons]

theorem mem_trace {o : ω} : o ∈ trace next out s is ↔
    ∃ xs i ys, is = xs ++ i :: ys ∧ o = out (stateAfter next s xs) i := by
  induction is generalizing s with
  | nil => simp [trace]
  | cons i is ih =>
    rw [trace, List.mem_cons, ih]
    constructor
    · rintro (rfl | ⟨xs, j, ys, rfl, rfl⟩)
      · exact ⟨[], i, is, rfl, rfl⟩
      · exact ⟨i :: xs, j, ys, rfl, rfl⟩
    · rintro ⟨xs, j, ys, heq, rfl⟩
      cases xs with
      | nil => cases heq; exact .inl rfl
      | cons x xs => cases heq; exact .inr ⟨xs, j, ys, rfl, rfl⟩

/-- The inputs before, at and after one output. -/
theorem trace_eq_append_cons {os os' : List ω} {o : ω}
    (h : trace next out s is = os ++ o :: os') : ∃ xs i ys, is = xs ++ i :: ys ∧
      os = trace next out s xs ∧ o = out (stateAfter next s xs) i ∧
      os' = trace next out (next (stateAfter next s xs) i) ys := by
  induction is generalizing s os with
  | nil => simp [trace] at h
  | cons i is ih =>
    cases os with
    | nil =>
      cases h
      exact ⟨[], i, is, rfl, rfl, rfl, rfl⟩
    | cons o₁ os =>
      rw [trace, List.cons_append, List.cons.injEq] at h
      obtain ⟨rfl, hrest⟩ := h
      obtain ⟨xs, j, ys, rfl, rfl, rfl, rfl⟩ := ih hrest
      exact ⟨i :: xs, j, ys, rfl, rfl, rfl, rfl⟩

end Trace

end Rules

end Runs

/-! ## Climbing a ladder

A system whose states are on numbered rungs and whose steps never lead down. A
step that pushes from its rung leads to a higher one. So a run that makes the
pushes in their order, with any steps in between, climbs as many rungs.
-/

namespace Ladders

open Relation (ReflTransGen)

variable {σ : Type u}

/-- No step leads down, and a push from rung `n` leads up. -/
structure Ladder (Step : σ → σ → Prop) (Push : Nat → σ → σ → Prop) (At : Nat → σ → Prop) :
    Prop where
  keeps : ∀ {n s s'}, At n s → Step s s' → ∃ m, n ≤ m ∧ At m s'
  steps : ∀ {n s s'}, Push n s s' → Step s s'
  climbs : ∀ {n s s'}, At n s → Push n s s' → ∃ m, n < m ∧ At m s'

/-- A run that makes the first `n` pushes one after the other. -/
def Climbs (Step : σ → σ → Prop) (Push : Nat → σ → σ → Prop) (s : σ) : Nat → σ → Prop
  | 0, s' => ReflTransGen Step s s'
  | n + 1, s' => ∃ t t', Climbs Step Push s n t ∧ Push n t t' ∧ ReflTransGen Step t' s'

namespace Ladder

variable {Step : σ → σ → Prop} {Push : Nat → σ → σ → Prop} {At : Nat → σ → Prop}
  (L : Ladder Step Push At) {n k : Nat} {s s' : σ}
include L

/-- Run rule. -/
theorem run (hs : At n s) (h : ReflTransGen Step s s') : ∃ m, n ≤ m ∧ At m s' := by
  induction h with
  | refl => exact ⟨n, Nat.le_refl n, hs⟩
  | tail _ hstep ih =>
    obtain ⟨m, hm, ht⟩ := ih
    obtain ⟨m', hm', ht'⟩ := L.keeps ht hstep
    exact ⟨m', Nat.le_trans hm hm', ht'⟩

/-- A push does its work on every rung: above its own it is a step. -/
theorem push (hs : At n s) (hk : k ≤ n) (h : Push k s s') : ∃ m, k < m ∧ At m s' := by
  rcases Nat.eq_or_lt_of_le hk with rfl | hlt
  · exact L.climbs hs h
  · obtain ⟨m, hm, hs'⟩ := L.keeps hs (L.steps h)
    exact ⟨m, Nat.lt_of_lt_of_le hlt hm, hs'⟩

/-- **The pushes lead up**, one rung each. -/
theorem climb (hs : At 0 s) (h : Climbs Step Push s n s') : ∃ m, n ≤ m ∧ At m s' := by
  induction n generalizing s' with
  | zero => exact L.run hs h
  | succ n ih =>
    obtain ⟨t, t', hbefore, hpush, hafter⟩ := h
    obtain ⟨m, hm, ht⟩ := ih hbefore
    obtain ⟨m', hm', ht'⟩ := L.push ht hm hpush
    obtain ⟨m'', hm'', hs'⟩ := L.run ht' hafter
    exact ⟨m'', Nat.le_trans hm' hm'', hs'⟩

end Ladder

end Ladders
