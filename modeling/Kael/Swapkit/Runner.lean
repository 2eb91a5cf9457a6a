import Kael.Swapkit.Progress

/-!
# Running the Executor to the End

`WalletExecutor::run`: step until the swap is over, until a step fails, or
until the step limit. A caller that gets an error may call `run` again on the
same executor, and does so with whatever the failed call has done.

However often it is called and whatever it returns, all calls together lock
once and redeem or refund once, and the swap is over exactly if some call has
returned `Ok` (`runs_conclude_once`). A run that hits its limit has not stepped
with a locked leg past its timelock (`runs_out_of_steps_in_time`).
-/

namespace Kael.Swapkit

/-! ## The loop -/

/-- What `run` fails with: what a step failed with, or `MaxStepsExceeded`. -/
inductive RunError where
  | step (e : ExecutorError)
  | maxStepsExceeded
deriving DecidableEq

def isTerminal : SwapState → Bool
  | .done | .refunded | .counterpartyRedeemed | .aborted _ => true
  | _ => false

/-- The outcomes at which `run` returns. -/
def StepOutcome.isFinal : StepOutcome → Bool
  | .terminal | .aborted _ => true
  | _ => false

structure Ran where
  exec : Executor
  result : Fallible RunError SwapState
  /-- Not returned: the steps that were made. -/
  steps : List Stepped

/-- Some step has returned the swap as over. -/
def Ran.isOk (r : Ran) : Bool :=
  match r.result with
  | .ok _ => true
  | _ => false

namespace Executor

variable (cr : Crypto) (e : Executor)

/-- `run` with as many steps as there are answers. -/
def run (e : Executor) : List StepAnswers → Ran
  | [] => ⟨e, .err .maxStepsExceeded, []⟩
  | io :: ios =>
    let s := e.step cr io
    match s.result with
    | .err failure => ⟨s.exec, .err (.step failure), [s]⟩
    | .panicked => ⟨s.exec, .panicked, [s]⟩
    | .ok outcome =>
      if outcome.isFinal || isTerminal s.exec.state then ⟨s.exec, .ok s.exec.state, [s]⟩
      else
        let r := run s.exec ios
        { r with steps := s :: r.steps }

/-- The executor after one call of `run`. -/
def afterRun (ios : List StepAnswers) : Executor := (e.run cr ios).exec

/-- Calls of `run`, one after the other, whatever each of them returned. -/
def runs (calls : List (List StepAnswers)) : List Ran :=
  Runs.trace (afterRun cr) (run cr) e calls

end Executor

/-! ## How a swap ends -/

/-- A redeem has returned `Ok`. -/
def Stepped.redeemOk (s : Stepped) : Bool :=
  match s.tx with
  | some (.redeem sending) => sending.result.isOk
  | _ => false

/-- A refund has returned `Ok`. -/
def Stepped.refundOk (s : Stepped) : Bool :=
  match s.tx with
  | some (.refund sending) => sending.result.isOk
  | _ => false

/-- The transaction of a step that ends a swap, as its state says. -/
def Stepped.Concludes (s : Stepped) : Prop :=
  match s.exec.state with
  | .counterpartyRedeemed => s.redeemOk = true
  | .refunded => s.refundOk = true
  | .aborted reason => ∃ r, reason = .unsafeCounterparty r
  | _ => False

/-- What has been done when the swap is over in `state`. -/
def Concluded (state : SwapState) (steps : List Stepped) : Prop :=
  match state with
  | .counterpartyRedeemed => ∃ s ∈ steps, s.redeemOk
  | .refunded => ∃ s ∈ steps, s.refundOk
  | .aborted reason => (∃ r, reason = .unsafeCounterparty r) ∧ ∀ s ∈ steps, s.lockOk = false
  | _ => False

namespace Executor

section Step

variable {cr : Crypto} {e : Executor} {io : StepAnswers}

theorem Coherent.isTerminal_iff (h : e.Coherent) : isTerminal e.state = true ↔ e.state.Over := by
  have hboundary := h.boundary
  cases hrole : e.ctx.role <;> rw [hrole] at hboundary <;> cases hstate : e.state <;>
    rw [hstate] at hboundary <;>
    simp only [AtBoundary] at hboundary <;> simp [isTerminal, SwapState.Over]

/-- The outcomes at which `run` returns come with a terminal state. -/
theorem isTerminal_of_final {outcome : StepOutcome} (hfinal : outcome.isFinal = true)
    (h : (e.step cr io).result = .ok outcome) : isTerminal (e.step cr io).exec.state = true := by
  unfold step at h ⊢
  cases hfirst : e.refresh cr io.first with
  | mk e₁ result =>
    rw [hfirst] at h
    cases result with
    | err failure => cases h
    | panicked => cases h
    | ok u =>
      dsimp only at h ⊢
      unfold act at h ⊢
      cases hplanned : nextAction e₁.state e₁.ctx with
      | done =>
        -- Only three states are done.
        cases hstate : e₁.state <;> rw [hstate] at hplanned <;> cases hrole : e₁.ctx.role <;>
          simp [nextAction, takerNext, makerNext, hrole, SwapContext.lockMyLeg] at hplanned <;>
          simp [isTerminal]
        all_goals
          repeat' split at hplanned
          all_goals simp at hplanned
      | abort reason => rfl
      -- The other actions return other outcomes.
      | lockMyLeg recipient token amount hashlock timelock =>
        rw [hplanned] at h
        dsimp only [reverify, lockMyLeg] at h
        repeat' split at h
        all_goals cases h <;> cases hfinal
      | redeemCounterpartyLeg secret =>
        rw [hplanned] at h
        dsimp only [reverify, redeemCounterpartyLeg] at h
        repeat' split at h
        all_goals cases h <;> cases hfinal
      | refund =>
        rw [hplanned] at h
        dsimp only [refund] at h
        repeat' split at h
        all_goals cases h <;> cases hfinal
      | _ =>
        rw [hplanned] at h
        cases h
        cases hfinal

/-- **The step that ends a swap** returns `Ok`, with the transaction that its
    state stands for. -/
theorem Coherent.concludes (h : e.Coherent) (hnotOver : ¬e.state.Over)
    (hover : (e.step cr io).exec.state.Over) :
    (∃ outcome, (e.step cr io).result = .ok outcome) ∧ (e.step cr io).Concludes := by
  have hcases := step_cases cr e io
  generalize e.step cr io = s at hcases hover ⊢
  cases hcases with
  | idle hrefreshed hidle =>
    rw [hrefreshed.state] at hover
    exact absurd hover hnotOver
  | @generate e₁ hfirst hplanned =>
    obtain ⟨-, hstate⟩ := nextAction_generateSecret.mp hplanned
    have hnext : (e₁.generateSecret cr io.random).exec.state = .secretGenerated := by
      unfold generateSecret
      split_ifs <;> simp [hstate, advance]
    rw [hnext] at hover
    simp [SwapState.Over] at hover
  | @lock e₁ e₂ recipient token amount hashlock timelock hfirst hplanned hsecond hcurrent =>
    have hrefreshed := (refreshed_of_refresh hfirst).trans (refreshed_of_refresh hsecond)
    rw [← hrefreshed.state] at hnotOver
    -- A lock leads to `myLegLocked` or `waitingForSecret`.
    have hnext : ¬(advance e₂.state .myLegConfirmed).Over := by
      obtain ⟨-, -, ⟨-, hstate⟩ | ⟨-, hstate, -⟩⟩ := nextAction_lockMyLeg.mp hcurrent <;>
        simp [hstate, advance, SwapState.Over]
    unfold lockMyLeg at hover
    dsimp only at hover
    split_ifs at hover
    · exact absurd hover hnext
    · split at hover
      · exact absurd hover hnotOver
      · exact absurd hover hnext
  | @redeem e₁ e₂ secret hfirst hplanned hsecond hcurrent =>
    have hrefreshed := (refreshed_of_refresh hfirst).trans (refreshed_of_refresh hsecond)
    rw [← hrefreshed.state] at hnotOver
    have hstate : e₂.state = .myLegLocked ∨ e₂.state = .waitingForSecret :=
      (redeem_decided (h.refreshed hrefreshed).boundary hcurrent).imp (fun h => h.2.1) fun h => h.2
    have hredeemed : advance (if e₂.state = .waitingForSecret then
        advance e₂.state .secretObserved else e₂.state) .redeemConfirmed =
        .counterpartyRedeemed := by
      rcases hstate with hstate | hstate <;> simp [hstate, advance]
    unfold redeemCounterpartyLeg at hover ⊢
    cases hcid : e₂.counterpartyContractId with
    | none =>
      rw [hcid] at hover
      exact absurd hover hnotOver
    | some cid =>
      rw [hcid] at hover
      dsimp only at hover ⊢
      cases hresult : (Swapkit.redeem cid secret io.tx).result with
      | error failure =>
        rw [hresult] at hover
        exact absurd hover hnotOver
      | ok hash =>
        refine ⟨⟨_, rfl⟩, ?_⟩
        simp only [Stepped.Concludes, hredeemed, Stepped.redeemOk, hresult]
        rfl
  | @refund e₁ hfirst hplanned =>
    have hrefreshed := refreshed_of_refresh hfirst
    rw [← hrefreshed.state] at hnotOver
    unfold refund at hover ⊢
    split_ifs at hover ⊢ with hnow
    · exact absurd hover hnotOver
    · cases hcid : e₁.ownContractId with
      | none =>
        rw [hcid] at hover
        exact absurd hover hnotOver
      | some cid =>
        rw [hcid] at hover
        dsimp only at hover ⊢
        cases hresult : (e₁.sendRefund cid io.tx).result with
        | error failure =>
          rw [hresult] at hover
          exact absurd hover hnotOver
        | ok hash =>
          refine ⟨⟨_, rfl⟩, ?_⟩
          simp only [Stepped.Concludes, advance, Stepped.refundOk, hresult]
          rfl
  | @abort e₁ reason hfirst hplanned =>
    have hrefreshed := refreshed_of_refresh hfirst
    have h₁ := h.refreshed hrefreshed
    refine ⟨⟨_, rfl⟩, ?_⟩
    rcases abort_decided h₁.boundary h₁.hashlock h₁.secret hplanned with ⟨hstate, -⟩ | ⟨-, -, hr⟩
    · rw [← hrefreshed.state, hstate] at hnotOver
      exact absurd (.inr (.inr ⟨reason, rfl⟩)) hnotOver
    · exact hr

/-- A swap that is over stays as it ended. -/
theorem Coherent.over_stays (h : e.Coherent) (hover : e.state.Over) :
    (e.step cr io).exec.state = e.state := by
  have hcases := step_cases cr e io
  generalize e.step cr io = s at hcases ⊢
  cases hcases with
  | idle hrefreshed hidle => exact hrefreshed.state
  | generate hfirst hplanned =>
    obtain ⟨-, hstate⟩ := nextAction_generateSecret.mp hplanned
    rw [(refreshed_of_refresh hfirst).state] at hstate
    simp [hstate, SwapState.Over] at hover
  | lock hfirst hplanned hsecond hcurrent =>
    obtain ⟨-, hnotOver, -⟩ := locked_state hplanned
    rw [(refreshed_of_refresh hfirst).state] at hnotOver
    exact absurd hover hnotOver
  | redeem hfirst hplanned hsecond hcurrent =>
    have h₁ := h.refreshed (refreshed_of_refresh hfirst)
    have hstate := (redeem_decided h₁.boundary hplanned).imp (fun h => h.2.1) fun h => h.2
    rw [(refreshed_of_refresh hfirst).state] at hstate
    exact absurd hover (SwapState.running hstate).2
  | refund hfirst hplanned =>
    have h₁ := h.refreshed (refreshed_of_refresh hfirst)
    have hstate := (refund_decided h₁.boundary hplanned).imp And.right And.right
    rw [(refreshed_of_refresh hfirst).state] at hstate
    exact absurd hover (SwapState.running hstate).2
  | abort hfirst hplanned =>
    -- An aborted swap is aborted again, for the same reason.
    have hrefreshed := refreshed_of_refresh hfirst
    have h₁ := h.refreshed hrefreshed
    rcases abort_decided h₁.boundary h₁.hashlock h₁.secret hplanned with ⟨hstate, -⟩ | ⟨hstate, -⟩
    · exact hstate.symm.trans hrefreshed.state
    · rw [hrefreshed.state] at hstate
      simp [hstate, SwapState.Over] at hover

end Step

/-! ## One call of `run` -/

section Run

variable {cr : Crypto} {e : Executor} {ios : List StepAnswers}

/-- A call of `run` makes the steps of a run of the executor. -/
theorem run_used (cr : Crypto) (e : Executor) (ios : List StepAnswers) :
    ∃ used, used <+: ios ∧ (e.run cr ios).exec = e.after cr used ∧
      (e.run cr ios).steps = e.steps cr used := by
  induction ios generalizing e with
  | nil => exact ⟨[], List.prefix_rfl, rfl, rfl⟩
  | cons io ios ih =>
    -- A call that returns after this step has used one answer.
    have hone : [io] <+: io :: ios := List.cons_prefix_cons.mpr ⟨rfl, List.nil_prefix⟩
    unfold run
    dsimp only
    split
    · exact ⟨[io], hone, rfl, rfl⟩
    · exact ⟨[io], hone, rfl, rfl⟩
    · split_ifs
      · exact ⟨[io], hone, rfl, rfl⟩
      · obtain ⟨used, hprefix, hexec, hsteps⟩ := ih (e.step cr io).exec
        exact ⟨io :: used, List.cons_prefix_cons.mpr ⟨rfl, hprefix⟩, hexec,
          congrArg (List.cons _) hsteps⟩

theorem Coherent.run (h : e.Coherent) : (e.run cr ios).exec.Coherent := by
  obtain ⟨used, -, hexec, -⟩ := run_used cr e ios
  rw [hexec]
  exact h.after

/-- `Ok` is returned with the state, and only of a swap that is over. -/
theorem Coherent.run_ok (h : e.Coherent) {state : SwapState}
    (hok : (e.run cr ios).result = .ok state) :
    (e.run cr ios).exec.state = state ∧ state.Over := by
  induction ios generalizing e with
  | nil => cases hok
  | cons io ios ih =>
    have hnext : (e.step cr io).exec.Coherent := (h.step io).coherent
    unfold Executor.run at hok ⊢
    dsimp only at hok ⊢
    cases hresult : (e.step cr io).result with
    | err failure => rw [hresult] at hok; cases hok
    | panicked => rw [hresult] at hok; cases hok
    | ok outcome =>
      rw [hresult] at hok
      dsimp only at hok ⊢
      split_ifs at hok ⊢ with hends
      · cases hok
        refine ⟨rfl, hnext.isTerminal_iff.mp ?_⟩
        rcases Bool.or_eq_true_iff.mp hends with hfinal | hterminal
        · exact isTerminal_of_final hfinal hresult
        · exact hterminal
      · exact ih hnext hok

/-- A call that ends the swap returns `Ok`. -/
theorem Coherent.run_over (h : e.Coherent) (hnotOver : ¬e.state.Over)
    (hover : (e.run cr ios).exec.state.Over) : (e.run cr ios).isOk = true := by
  induction ios generalizing e with
  | nil => exact absurd hover hnotOver
  | cons io ios ih =>
    have hnext : (e.step cr io).exec.Coherent := (h.step io).coherent
    by_cases hstep : (e.step cr io).exec.state.Over
    · obtain ⟨⟨outcome, hresult⟩, -⟩ := h.concludes hnotOver hstep
      simp [Executor.run, hresult, hnext.isTerminal_iff.mpr hstep, Ran.isOk]
    · unfold Executor.run at hover ⊢
      dsimp only at hover ⊢
      cases hresult : (e.step cr io).result with
      | err failure => rw [hresult] at hover; exact absurd hover hstep
      | panicked => rw [hresult] at hover; exact absurd hover hstep
      | ok outcome =>
        rw [hresult] at hover
        dsimp only at hover ⊢
        split_ifs at hover ⊢
        · rfl
        · exact ih hnext hstep hover

end Run

/-! ## Calling `run` again and again -/

section Calls

variable {cr : Crypto} {e : Executor} {calls : List (List StepAnswers)}

/-- All calls together make the steps of one run of the executor. -/
theorem runs_used (cr : Crypto) (e : Executor) (calls : List (List StepAnswers)) :
    ∃ used, Runs.stateAfter (afterRun cr) e calls = e.after cr used ∧
      (e.runs cr calls).flatMap Ran.steps = e.steps cr used := by
  induction calls generalizing e with
  | nil => exact ⟨[], rfl, rfl⟩
  | cons ios calls ih =>
    obtain ⟨first, -, hexec, hsteps⟩ := run_used cr e ios
    obtain ⟨rest, hexecs, hstepss⟩ := ih (e.run cr ios).exec
    refine ⟨first ++ rest, ?_, ?_⟩
    · show Runs.stateAfter (afterRun cr) (e.run cr ios).exec calls = _
      rw [hexecs, hexec]
      exact Runs.stateAfter_append.symm
    · show (e.run cr ios).steps ++ (runs cr (e.run cr ios).exec calls).flatMap Ran.steps = _
      rw [hsteps, hstepss, hexec]
      exact Runs.trace_append.symm

theorem Coherent.afterRuns (h : e.Coherent) :
    (Runs.stateAfter (afterRun cr) e calls).Coherent :=
  Runs.stateAfter_invariant (fun _ _ h => h.run) h

/-- A run locks at most once. -/
theorem Coherent.lockOk_once (h : e.Coherent) {ios : List StepAnswers} :
    (e.steps cr ios).countP Stepped.lockOk ≤ 1 := by
  apply Runs.countP_trace_le_one (I := Coherent) (F := fun e' : Executor => e'.state.HasLocked)
    (fun _ io h => h.next io) _ _ h
  · intro e' io h hlocked
    exact (h.step io).hasLocked hlocked
  · intro e' io h hlock
    exact (h.step io).locks hlock

/-- It redeems or refunds at most once. -/
theorem Coherent.settleOk_once (h : e.Coherent) {ios : List StepAnswers} :
    (e.steps cr ios).countP Stepped.settleOk ≤ 1 := by
  apply Runs.countP_trace_le_one (I := Coherent) (F := fun e' : Executor => e'.state.Over)
    (fun _ io h => h.next io) _ _ h
  · intro e' io h hover
    have hstep : e'.Advances (e'.step cr io) := h.step io
    exact (hstep.ended hover).1
  · intro e' io h hsettle
    exact (h.step io).settles hsettle

/-- A swap that is over stays as it ended, whatever is run. -/
theorem Coherent.over_stays_after (h : e.Coherent) (hover : e.state.Over)
    {ios : List StepAnswers} : (e.after cr ios).state = e.state := by
  have hinv : (e.after cr ios).Coherent ∧ (e.after cr ios).state = e.state := by
    apply Runs.stateAfter_invariant (I := fun e' : Executor => e'.Coherent ∧ e'.state = e.state)
    · rintro e' io ⟨hcoherent, hstate⟩
      refine ⟨hcoherent.next io, ?_⟩
      rw [← hstate] at hover ⊢
      exact hcoherent.over_stays hover
    · exact ⟨h, rfl⟩
  exact hinv.2

/-- **What has been done** by a run that ends the swap. -/
theorem Coherent.concluded (h : e.Coherent) (hnotOver : ¬e.state.Over) {ios : List StepAnswers}
    (hover : (e.after cr ios).state.Over) : Concluded (e.after cr ios).state (e.steps cr ios) := by
  -- The step that enters a final state is the last that changes it.
  have hentered : ∀ {state : SwapState}, state.Over → (e.after cr ios).state = state →
      ∃ s ∈ e.steps cr ios, s.exec.state = state ∧ s.Concludes := by
    intro state hstateOver hstate
    refine Runs.trace_of_reached (I := Coherent) (F := fun e' : Executor => e'.state = state)
      (p := fun s : Stepped => s.exec.state = state ∧ s.Concludes)
      (fun _ io h => h.next io) ?_ h (fun heq => hnotOver (heq ▸ hstateOver)) hstate
    intro e' io h' hne heq
    have hnotOver' : ¬e'.state.Over := fun hover' =>
      hne ((h'.over_stays hover').symm.trans heq)
    exact ⟨heq, (h'.concludes hnotOver' (heq ▸ hstateOver)).2⟩
  rcases hover with hstate | hstate | ⟨reason, hstate⟩
  · obtain ⟨s, hs, hexec, hconcludes⟩ := hentered (.inl rfl) hstate
    rw [hstate]
    simp only [Stepped.Concludes, hexec] at hconcludes
    exact ⟨s, hs, hconcludes⟩
  · obtain ⟨s, hs, hexec, hconcludes⟩ := hentered (.inr (.inl rfl)) hstate
    rw [hstate]
    simp only [Stepped.Concludes, hexec] at hconcludes
    exact ⟨s, hs, hconcludes⟩
  · obtain ⟨s, hs, hexec, hconcludes⟩ := hentered (.inr (.inr ⟨reason, rfl⟩)) hstate
    rw [hstate]
    simp only [Stepped.Concludes, hexec] at hconcludes
    refine ⟨hconcludes, fun s' hs' => ?_⟩
    -- Had it locked, it would not have aborted.
    by_contra hlock
    have hlocked : (e.after cr ios).state.HasLocked :=
      Runs.reached_of_trace (I := Coherent) (p := fun s : Stepped => s.lockOk = true)
        (F := fun e' : Executor => e'.state.HasLocked) (fun _ io h => h.next io)
        (fun _ io h hlocked => (h.step io).hasLocked hlocked)
        (fun _ io h hlock => ((h.step io).locks hlock).2) h hs' (by simpa using hlock)
    rw [hstate] at hlocked
    simp [SwapState.HasLocked] at hlocked

/-- A call on a swap that is over leaves it, whatever was called before. -/
theorem Coherent.run_when_over (h : e.Coherent) (hover : e.state.Over) {ios : List StepAnswers} :
    ((Runs.stateAfter (afterRun cr) e calls).run cr ios).exec.state = e.state ∧
    ∀ s ∈ ((Runs.stateAfter (afterRun cr) e calls).run cr ios).steps, s.tx = none := by
  obtain ⟨earlier, hexec, -⟩ := runs_used cr e calls
  have hstays : (e.after cr earlier).state = e.state := h.over_stays_after hover
  obtain ⟨used, -, hexec', hsteps⟩ := run_used cr (e.after cr earlier) ios
  have hcoherent := @Coherent.after cr e earlier h
  have hover' : (e.after cr earlier).state.Over := by
    rw [hstays]
    exact hover
  rw [hexec, hexec', hsteps]
  exact ⟨(hcoherent.over_stays_after hover').trans hstays, hcoherent.silent_when_over hover'⟩

theorem Started.not_over (h : e.Started cr) : ¬e.state.Over := by
  obtain ⟨-, ⟨-, hstate | hstate, -⟩ | ⟨-, hstate, -⟩⟩ := h <;>
    simp [hstate, SwapState.Over]

end Calls

/-- **All calls of `run` together** lock once and settle once. The swap is over
    exactly if some call has returned `Ok`; then the transaction that ended it
    has its receipt, or nothing was ever locked, and later calls send nothing
    and leave it as it is. -/
theorem runs_conclude_once {cr : Crypto} {e : Executor} (hstarted : e.Started cr)
    (calls : List (List StepAnswers)) :
    ((e.runs cr calls).flatMap Ran.steps).countP Stepped.lockOk ≤ 1 ∧
    ((e.runs cr calls).flatMap Ran.steps).countP Stepped.settleOk ≤ 1 ∧
    ∀ before r later, e.runs cr calls = before ++ r :: later →
      (r.exec.state.Over ↔ ∃ r₀ ∈ before ++ [r], r₀.isOk = true) ∧
      (∀ state, r.result = .ok state → r.exec.state = state) ∧
      (r.exec.state.Over →
        Concluded r.exec.state ((before ++ [r]).flatMap Ran.steps) ∧
        ∀ r' ∈ later, r'.exec.state = r.exec.state ∧ ∀ s ∈ r'.steps, s.tx = none) := by
  have hcoherent := hstarted.coherent
  obtain ⟨used, -, hsteps⟩ := runs_used cr e calls
  rw [hsteps]
  refine ⟨hcoherent.lockOk_once, hcoherent.settleOk_once, ?_⟩
  intro before r later hruns
  obtain ⟨xs, ios, ys, rfl, rfl, rfl, rfl⟩ := Runs.trace_eq_append_cons hruns
  -- The calls up to this one, and the executor they leave.
  have hfirst : (e.runs cr xs ++ [(Runs.stateAfter (afterRun cr) e xs).run cr ios]) =
      e.runs cr (xs ++ [ios]) := by
    rw [runs, runs, Runs.trace_append]
    rfl
  have hexec : ((Runs.stateAfter (afterRun cr) e xs).run cr ios).exec =
      Runs.stateAfter (afterRun cr) e (xs ++ [ios]) := by
    rw [Runs.stateAfter_append]
    rfl
  have hafter := @Coherent.afterRuns cr e (xs ++ [ios]) hcoherent
  refine ⟨⟨fun hover => ?_, ?_⟩, fun state hok => ?_, fun hover => ⟨?_, fun r' hr' => ?_⟩⟩
  · rw [hexec] at hover
    show ∃ r₀ ∈ e.runs cr xs ++ _, _
    rw [hfirst]
    exact Runs.trace_of_reached (I := Coherent) (F := fun e' : Executor => e'.state.Over)
      (p := fun r : Ran => r.isOk = true) (fun _ _ h => h.run)
      (fun _ _ h hnot hover => h.run_over hnot hover) hcoherent hstarted.not_over hover
  · show (∃ r₀ ∈ e.runs cr xs ++ _, _) → _
    rw [hfirst, hexec]
    rintro ⟨r₀, hmem, hok⟩
    refine Runs.reached_of_trace (I := Coherent) (F := fun e' : Executor => e'.state.Over)
      (p := fun r : Ran => r.isOk = true) (fun _ _ h => h.run) ?_ ?_ hcoherent hmem hok
    · intro e' ios' h hover
      obtain ⟨used', -, hexec', -⟩ := run_used cr e' ios'
      rw [afterRun, hexec', h.over_stays_after hover]
      exact hover
    · intro e' ios' h hok'
      cases hresult : (e'.run cr ios').result with
      | ok state =>
        obtain ⟨hstate, hover⟩ := h.run_ok hresult
        rw [afterRun, hstate]
        exact hover
      | err failure => simp [Ran.isOk, hresult] at hok'
      | panicked => simp [Ran.isOk, hresult] at hok'
  · exact (hcoherent.afterRuns.run_ok hok).1
  · show Concluded _ ((e.runs cr xs ++ _).flatMap Ran.steps)
    obtain ⟨used', hexec', hsteps'⟩ := runs_used cr e (xs ++ [ios])
    rw [hexec, hexec'] at hover ⊢
    rw [hfirst, hsteps']
    exact hcoherent.concluded hstarted.not_over hover
  -- A later call starts where the swap was over already.
  · rw [afterRun, hexec] at hr'
    rw [hexec] at hover ⊢
    obtain ⟨zs, ios', zs', rfl, rfl⟩ := Runs.mem_trace.mp hr'
    exact hafter.run_when_over hover

/-! ## Past the timelock -/

/-- What the executor has seen revealed are preimages of its hashlock `h`. -/
structure SeesPreimages (cr : Crypto) (h : Bytes32) (e : Executor) : Prop where
  hashlock : e.ctx.hashlock = some h
  tracker : e.ownObserver.tracker.Genuine cr
  revealed : ∀ p, e.ctx.revealedSecret = some p → cr.hashlockOf p = h

section Late

variable {cr : Crypto} {h : Bytes32} {e e₁ : Executor} {io : StepAnswers}

/-- A refresh sees preimages too, and forgets none. -/
theorem SeesPreimages.refresh (hsees : e.SeesPreimages cr h) {answers : RefreshAnswers}
    {result : Fallible ExecutorError Unit} (hrefresh : e.refresh cr answers = (e₁, result)) :
    e₁.SeesPreimages cr h ∧ (e.ctx.revealedSecret.isSome → e₁.ctx.revealedSecret.isSome) := by
  simp only [Executor.refresh, hsees.hashlock] at hrefresh
  cases hobserve : e.counterpartyObserver.observe cr h e.minConfirmations
      answers.counterpartyPoll answers.counterpartyLock with
  | mk o observation =>
    cases observation with
    | err failure =>
      simp only [hobserve] at hrefresh
      cases hrefresh
      exact ⟨⟨rfl, hsees.tracker, hsees.revealed⟩, id⟩
    | panicked =>
      simp only [hobserve] at hrefresh
      cases hrefresh
      exact ⟨⟨rfl, hsees.tracker, hsees.revealed⟩, id⟩
    | ok cp =>
      cases hown : e.ownObserver.poll cr answers.ownPoll with
      | err failure =>
        simp only [hobserve, hown] at hrefresh
        cases hrefresh
        exact ⟨⟨rfl, hsees.tracker, hsees.revealed⟩, id⟩
      | panicked =>
        simp only [hobserve, hown] at hrefresh
        cases hrefresh
        exact ⟨⟨rfl, hsees.tracker, hsees.revealed⟩, id⟩
      -- The tracker's preimage comes first, then what was seen before.
      | ok own =>
        simp only [hobserve, hown] at hrefresh
        cases hrefresh
        have htracker := CounterpartyObserver.poll_genuine hsees.tracker hown
        refine ⟨⟨rfl, htracker, ?_⟩, ?_⟩
        · intro p hp
          cases hrevealed : own.revealedSecret h with
          | none =>
            simp only [hrevealed, Option.none_or] at hp
            exact hsees.revealed p hp
          | some p' =>
            simp only [hrevealed, Option.some_or, Option.some.injEq] at hp
            exact htracker h p (hp ▸ hrevealed)
        · intro hsome
          cases own.revealedSecret h <;> simp [hsome]

/-- What acting leaves of what was seen. -/
def seen (e : Executor) : Option Bytes32 × Option Bytes32 × CounterpartyObserver :=
  (e.ctx.hashlock, e.ctx.revealedSecret, e.ownObserver)

theorem SeesPreimages.of_seen (hsees : e.SeesPreimages cr h) (hseen : e₁.seen = e.seen) :
    e₁.SeesPreimages cr h := by
  simp only [seen, Prod.mk.injEq] at hseen
  obtain ⟨hhashlock, hrevealed, hobserver⟩ := hseen
  refine ⟨hhashlock.trans hsees.hashlock, ?_, ?_⟩
  · rw [hobserver]
    exact hsees.tracker
  · rw [hrevealed]
    exact hsees.revealed

theorem lockMyLeg_seen {recipient token : Address} {amount : U128} {hashlock : Bytes32}
    {timelock : U64} {tx : TxAnswers} :
    (e.lockMyLeg cr recipient token amount hashlock timelock tx).exec.seen = e.seen := by
  unfold lockMyLeg
  dsimp only
  split_ifs
  · rfl
  · split <;> rfl

theorem redeemCounterpartyLeg_seen {p : Bytes32} {tx : TxAnswers} :
    (e.redeemCounterpartyLeg p tx).exec.seen = e.seen := by
  unfold redeemCounterpartyLeg
  cases hid : e.counterpartyContractId with
  | none => rfl
  | some contractId =>
    dsimp only
    split <;> rfl

theorem refund_seen {tx : TxAnswers} : (e.refund tx).exec.seen = e.seen := by
  unfold refund
  split_ifs
  · rfl
  · cases e.ownContractId with
    | none => rfl
    | some contractId =>
      dsimp only
      split <;> rfl

/-- A second look sees preimages as the first. -/
theorem SeesPreimages.reverify (hsees : e.SeesPreimages cr h) {planned : NextAction}
    {answers : RefreshAnswers} {go : Executor → Stepped} (hgo : ∀ e, (go e).exec.seen = e.seen) :
    (e.reverify cr planned answers go).exec.SeesPreimages cr h := by
  unfold Executor.reverify
  cases hrefresh : e.refresh cr answers with
  | mk e₁ result =>
    obtain ⟨hsees₁, -⟩ := hsees.refresh hrefresh
    cases result with
    | err failure => exact hsees₁
    | panicked => exact hsees₁
    | ok u =>
      dsimp only
      split_ifs
      · exact hsees₁.of_seen (hgo e₁)
      · exact hsees₁

theorem SeesPreimages.step (hsees : e.SeesPreimages cr h) (hcoherent : e.Coherent) :
    (e.step cr io).exec.SeesPreimages cr h := by
  unfold Executor.step
  cases hfirst : e.refresh cr io.first with
  | mk e₁ result =>
    obtain ⟨hsees₁, -⟩ := hsees.refresh hfirst
    have hcoherent₁ := hcoherent.refreshed (refreshed_of_refresh hfirst)
    cases result with
    | err failure => exact hsees₁
    | panicked => exact hsees₁
    | ok u =>
      dsimp only
      unfold act
      cases hplanned : nextAction e₁.state e₁.ctx with
      | generateSecret =>
        -- The taker has its secret already, so the hashlock stays.
        obtain ⟨hrole, -⟩ := nextAction_generateSecret.mp hplanned
        obtain ⟨secret, hsecret⟩ := Option.isSome_iff_exists.mp (hcoherent₁.secret hrole)
        refine hsees₁.of_seen ?_
        simp [generateSecret, hsecret, seen]
      | lockMyLeg recipient token amount hashlock timelock =>
        exact hsees₁.reverify fun _ => lockMyLeg_seen
      | redeemCounterpartyLeg p => exact hsees₁.reverify fun _ => redeemCounterpartyLeg_seen
      | refund => exact hsees₁.of_seen refund_seen
      | abort reason => exact hsees₁.of_seen rfl
      | _ => exact hsees₁

/-- A taker past its own timelock never takes the other leg for safe. -/
theorem not_safe_of_late {ctx : SwapContext} (hrole : ctx.role = .taker)
    (hlate : ctx.myTimelock ≤ ctx.now) : ¬ctx.CounterpartySafe := by
  rintro ⟨obs, -, hsafe⟩
  obtain ⟨-, hordered, hopen⟩ := verifyCounterpartyLeg_safe.mp hsafe
  simp only [LegExpectation.Ordered, SwapContext.expectation, hrole] at hordered hopen
  have hnow : ctx.myTimelock.toNat ≤ ctx.now.toNat := hlate
  have hmy := ctx.myTimelock.isLt
  omega

/-- A locked taker past its timelock takes its leg back. -/
theorem refund_of_late_taker {ctx : SwapContext} (hrole : ctx.role = .taker)
    (hlate : ctx.myTimelock ≤ ctx.now) : nextAction .myLegLocked ctx = .refund := by
  have hunsafe := not_safe_of_late hrole hlate
  simp only [nextAction, hrole, takerNext]
  cases hobs : ctx.counterpartyLock with
  | none => simp [hlate]
  | some obs =>
    cases hverified : verifyCounterpartyLeg ctx.expectation obs with
    | safe => exact absurd ⟨obs, hobs, hverified⟩ hunsafe
    | notSafe reason => simp [hverified]

/-- A refund that returns `Ok` past the timelock ends the swap. -/
theorem refund_over (hlate : e.ctx.myTimelock ≤ e.ctx.now) {tx : TxAnswers}
    {outcome : StepOutcome} (hresult : (e.refund tx).result = .ok outcome) :
    (e.refund tx).exec.state = .refunded := by
  unfold refund at hresult ⊢
  have hnot : ¬e.ctx.now < e.ctx.myTimelock := BitVec.not_lt.mpr hlate
  rw [if_neg hnot] at hresult ⊢
  cases hcid : e.ownContractId with
  | none =>
    rw [hcid] at hresult
    cases hresult
  | some cid =>
    rw [hcid] at hresult
    dsimp only at hresult ⊢
    cases hsend : (e.sendRefund cid tx).result with
    | error failure =>
      rw [hsend] at hresult
      cases hresult
    | ok hash => rfl

/-- A redeem that returns `Ok` ends the swap. -/
theorem redeem_over (hstate : e.state = .waitingForSecret) {p : Bytes32} {tx : TxAnswers}
    {outcome : StepOutcome} (hresult : (e.redeemCounterpartyLeg p tx).result = .ok outcome) :
    (e.redeemCounterpartyLeg p tx).exec.state = .counterpartyRedeemed := by
  unfold redeemCounterpartyLeg at hresult ⊢
  cases hcid : e.counterpartyContractId with
  | none =>
    rw [hcid] at hresult
    cases hresult
  | some cid =>
    rw [hcid] at hresult
    dsimp only at hresult ⊢
    cases hsend : (Swapkit.redeem cid p tx).result with
    | error failure =>
      rw [hsend] at hresult
      cases hresult
    | ok hash => simp [hstate, advance]

/-- **A locked executor settles** in a step past its timelock that returns `Ok`. -/
theorem Coherent.over_of_late_step (hcoherent : e.Coherent) {secret : Bytes32}
    (hsees : e.SeesPreimages cr (cr.hashlockOf secret))
    (hunique : ∀ p, cr.hashlockOf p = cr.hashlockOf secret → p = secret)
    (hlocked : e.state.HasLocked) (hlate : e.ctx.myTimelock ≤ io.first.now)
    {outcome : StepOutcome} (hresult : (e.step cr io).result = .ok outcome) :
    (e.step cr io).exec.state.Over := by
  by_cases hover : e.state.Over
  · rw [hcoherent.over_stays hover]
    exact hover
  unfold Executor.step at hresult ⊢
  cases hfirst : e.refresh cr io.first with
  | mk e₁ result =>
    rw [hfirst] at hresult
    cases result with
    | err failure => cases hresult
    | panicked => cases hresult
    | ok u =>
      dsimp only at hresult ⊢
      have hrefreshed := refreshed_of_refresh hfirst
      obtain ⟨hsees₁, -⟩ := hsees.refresh hfirst
      have hnow : e₁.ctx.now = io.first.now := (observed_of_refresh hfirst).now
      have hmine : e₁.ctx.myTimelock = e.ctx.myTimelock :=
        show e₁.ctx.terms.myTimelock = e.ctx.terms.myTimelock from congrArg _ hrefreshed.terms
      have hlate₁ : e₁.ctx.myTimelock ≤ e₁.ctx.now := by
        rw [hnow, hmine]
        exact hlate
      have hboundary := (hcoherent.refreshed hrefreshed).boundary
      rw [← hrefreshed.state] at hlocked hover
      have hstate : e₁.ctx.role = .taker ∧ e₁.state = .myLegLocked ∨
          e₁.ctx.role = .maker ∧ e₁.state = .waitingForSecret := by
        cases hrole : e₁.ctx.role <;> rw [hrole] at hboundary <;> cases hstate : e₁.state <;>
          rw [hstate] at hboundary hlocked hover <;>
          simp_all [AtBoundary, SwapState.HasLocked, SwapState.Over]
      unfold act at hresult ⊢
      rcases hstate with ⟨hrole, hstate⟩ | ⟨hrole, hstate⟩
      · rw [hstate, refund_of_late_taker hrole hlate₁] at hresult ⊢
        exact .inr (.inl (refund_over hlate₁ hresult))
      · cases hrevealed : e₁.ctx.revealedSecret with
        -- A maker that has seen nothing takes its leg back.
        | none =>
          have hplanned : nextAction e₁.state e₁.ctx = .refund := by
            simp [nextAction, makerNext, hstate, hrole, hrevealed, hlate₁]
          rw [hplanned] at hresult ⊢
          exact .inr (.inl (refund_over hlate₁ hresult))
        -- One that has seen the secret redeems, and sees the same secret twice.
        | some p =>
          have hplanned : nextAction e₁.state e₁.ctx = .redeemCounterpartyLeg p :=
            nextAction_redeem.mpr (.inr ⟨hrole, .inl hstate, hrevealed⟩)
          rw [hplanned] at hresult ⊢
          dsimp only [reverify] at hresult ⊢
          cases hsecond : e₁.refresh cr io.second with
          | mk e₂ result =>
            rw [hsecond] at hresult
            cases result with
            | err failure => cases hresult
            | panicked => cases hresult
            | ok u =>
              have hrefreshed₂ := refreshed_of_refresh hsecond
              obtain ⟨hsees₂, hkept⟩ := hsees₁.refresh hsecond
              obtain ⟨p', hp'⟩ := Option.isSome_iff_exists.mp (hkept (by rw [hrevealed]; rfl))
              obtain rfl := hunique p (hsees₁.revealed p hrevealed)
              obtain rfl := hunique p' (hsees₂.revealed p' hp')
              have hstate₂ : e₂.state = .waitingForSecret := hrefreshed₂.state.trans hstate
              have hcurrent : nextAction e₂.state e₂.ctx = .redeemCounterpartyLeg p' :=
                nextAction_redeem.mpr (.inr ⟨hrefreshed₂.role.trans hrole, .inl hstate₂, hp'⟩)
              have hmatches := reverifiedActionMatches_redeem.mpr hcurrent
              dsimp only at hresult ⊢
              rw [if_pos hmatches] at hresult ⊢
              exact .inl (redeem_over hstate₂ hresult)

/-- The timelock of the own leg stays. -/
theorem myTimelock_step (cr : Crypto) (e : Executor) (io : StepAnswers) :
    (e.step cr io).exec.ctx.myTimelock = e.ctx.myTimelock := by
  show (e.step cr io).exec.base.ctx.myTimelock = e.base.ctx.myTimelock
  obtain hbase | ⟨-, hbase⟩ := step_base cr e io <;> rw [hbase]

/-- A run that hits its limit has stepped without an error, and not to the end. -/
theorem Coherent.step_of_exceeded (hcoherent : e.Coherent) {before later : List StepAnswers}
    (hrun : (e.run cr (before ++ io :: later)).result = .err .maxStepsExceeded) :
    (∃ outcome, ((e.after cr before).step cr io).result = .ok outcome) ∧
      ¬((e.after cr before).step cr io).exec.state.Over := by
  induction before generalizing e with
  | nil =>
    have hnext : (e.step cr io).exec.Coherent := (hcoherent.step io).coherent
    simp only [List.nil_append, Executor.run] at hrun
    cases hresult : (e.step cr io).result with
    | err failure => rw [hresult] at hrun; cases hrun
    | panicked => rw [hresult] at hrun; cases hrun
    | ok outcome =>
      rw [hresult] at hrun
      dsimp only at hrun
      split_ifs at hrun with hends
      refine ⟨⟨outcome, hresult⟩, fun hover => hends ?_⟩
      rw [hnext.isTerminal_iff.mpr hover, Bool.or_true]
  | cons io₁ before ih =>
    simp only [List.cons_append, Executor.run] at hrun
    cases hresult : (e.step cr io₁).result with
    | err failure => rw [hresult] at hrun; cases hrun
    | panicked => rw [hresult] at hrun; cases hrun
    | ok outcome =>
      rw [hresult] at hrun
      dsimp only at hrun
      split_ifs at hrun
      exact ih (hcoherent.step io₁).coherent hrun

end Late

/-- **A run that hits its step limit** has not stepped with a locked leg past the
    timelock of this leg: such a step fails, or it redeems or refunds. So a
    locked executor that is run past its timelock, and whose calls are answered,
    comes to an end. -/
theorem runs_out_of_steps_in_time {cr : Crypto} {e : Executor} (hstarted : e.Started cr)
    (secret : Bytes32) (hsees : e.SeesPreimages cr (cr.hashlockOf secret))
    (hunique : ∀ p, cr.hashlockOf p = cr.hashlockOf secret → p = secret)
    (before : List StepAnswers) (io : StepAnswers) (later : List StepAnswers)
    (hrun : (e.run cr (before ++ io :: later)).result = .err .maxStepsExceeded)
    (hlocked : (e.after cr before).state.HasLocked) : io.first.now < e.ctx.myTimelock := by
  obtain ⟨⟨outcome, hresult⟩, hnotOver⟩ := hstarted.coherent.step_of_exceeded hrun
  -- What the steps before this one have kept.
  obtain ⟨hcoherent, hsees', hmine⟩ : (e.after cr before).Coherent ∧
      (e.after cr before).SeesPreimages cr (cr.hashlockOf secret) ∧
      (e.after cr before).ctx.myTimelock = e.ctx.myTimelock := by
    apply Runs.stateAfter_invariant
      (I := fun e' : Executor =>
        e'.Coherent ∧ e'.SeesPreimages cr (cr.hashlockOf secret) ∧
          e'.ctx.myTimelock = e.ctx.myTimelock)
    · rintro e' io' ⟨hcoherent, hsees, hmine⟩
      exact ⟨hcoherent.next io', hsees.step hcoherent, (myTimelock_step cr e' io').trans hmine⟩
    · exact ⟨hstarted.coherent, hsees, rfl⟩
  by_contra hlate
  refine hnotOver (hcoherent.over_of_late_step hsees' hunique hlocked ?_ hresult)
  rw [hmine]
  exact BitVec.not_lt.mp hlate

end Executor

namespace Sample

/-- A taker whose secret is the one preimage that `crypto` knows. -/
def secretTaker : Executor := { taker with
  ctx := { taker.ctx with
    hashlock := some HashedTimelock.Sample.hashlock
    secret := some HashedTimelock.Sample.preimage } }

theorem secretTaker_started : secretTaker.Started Exchange.Sample.crypto :=
  ⟨rfl, .inl ⟨rfl, .inr rfl, HashedTimelock.Sample.preimage, rfl, by decide +kernel⟩⟩

/-- It locks at time 10 and looks again at time 20. -/
def lockAndWait : List StepAnswers :=
  [⟨noLogs 10, noLogs 11, mined, 0⟩, ⟨noLogs 20, noLogs 21, mined, 0⟩]

/-- It looks again at the timelock of its leg. -/
def lookLate : List StepAnswers := [⟨noLogs 7200, noLogs 7201, mined, 0⟩]

end Sample

/-- Two calls: the first hits its limit with the leg locked, the second refunds. -/
theorem runs_conclude_once_in_two_calls :
    (Sample.secretTaker.runs Exchange.Sample.crypto [Sample.lockAndWait, Sample.lookLate]).map
      Ran.result = [.err .maxStepsExceeded, .ok .refunded] ∧
    ((Sample.secretTaker.runs Exchange.Sample.crypto
      [Sample.lockAndWait, Sample.lookLate]).flatMap Ran.steps).countP Stepped.settleOk ≤ 1 := by
  have hlaw := Executor.runs_conclude_once Sample.secretTaker_started
    [Sample.lockAndWait, Sample.lookLate]
  exact ⟨by decide +kernel, hlaw.2.1⟩

/-- The first of these calls makes its second step in time. -/
theorem runs_out_of_steps_in_time_of_taker :
    (Sample.secretTaker.run Exchange.Sample.crypto Sample.lockAndWait).result =
      .err .maxStepsExceeded ∧ (20 : U64) < Sample.secretTaker.ctx.myTimelock := by
  have hrun : (Sample.secretTaker.run Exchange.Sample.crypto Sample.lockAndWait).result =
      .err .maxStepsExceeded := by decide +kernel
  have hhash : Exchange.Sample.crypto.hashlockOf HashedTimelock.Sample.preimage =
      HashedTimelock.Sample.hashlock := by decide +kernel
  refine ⟨hrun, Executor.runs_out_of_steps_in_time Sample.secretTaker_started
    HashedTimelock.Sample.preimage ⟨?_, .new, nofun⟩ ?_
    [⟨Sample.noLogs 10, Sample.noLogs 11, Sample.mined, 0⟩]
    ⟨Sample.noLogs 20, Sample.noLogs 21, Sample.mined, 0⟩ [] hrun ?_⟩
  · exact congrArg some hhash.symm
  · intro p hp
    exact Crypto.ofTables_unique (by decide) p (hp.trans hhash)
  · exact .inl (by decide +kernel)

end Kael.Swapkit
