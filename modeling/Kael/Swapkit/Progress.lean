import Kael.Lib.Runs
import Kael.Swapkit.Executor

/-!
# Runs of the Executor

Whatever clock, endpoints and transactions answer, the executor's state, its
lock's id and what it has discovered stay coherent (`Coherent.step`). So it
never gets into a state of the other role or lacks an id, it locks at most
once and redeems or refunds at most once, and it sends nothing once it is done
(`executor_run_invariant`).
-/

namespace Kael.Swapkit

/-! ## States between steps -/

/-- The states in which a step of an executor of `role` can end. -/
def AtBoundary : Role → SwapState → Prop
  | .taker, .start | .taker, .secretGenerated | .taker, .myLegLocked
  | .taker, .counterpartyRedeemed | .taker, .refunded => True
  | .maker, .start | .maker, .waitingForSecret | .maker, .counterpartyRedeemed
  | .maker, .refunded => True
  | .maker, .aborted reason => reason ≠ .invalidTransition ∧ reason ≠ .invalidState
  | _, _ => False

/-- The own leg has been locked. -/
def SwapState.HasLocked (state : SwapState) : Prop :=
  state = .myLegLocked ∨ state = .waitingForSecret ∨ state = .counterpartyRedeemed ∨
    state = .refunded

/-- Nothing is left to do. -/
def SwapState.Over (state : SwapState) : Prop :=
  state = .counterpartyRedeemed ∨ state = .refunded ∨ ∃ reason, state = .aborted reason

/-- A leg is locked and the swap goes on. -/
theorem SwapState.running {state : SwapState}
    (h : state = .myLegLocked ∨ state = .waitingForSecret) : state.HasLocked ∧ ¬state.Over := by
  rcases h with rfl | rfl <;> simp [HasLocked, Over]

namespace Stepped

/-- A lock has returned `Ok`. -/
def lockOk (s : Stepped) : Bool :=
  match s.tx with
  | some (.lock sending) => sending.result.isOk
  | _ => false

/-- A redeem or a refund has returned `Ok`. -/
def settleOk (s : Stepped) : Bool :=
  match s.tx with
  | some (.redeem sending) | some (.refund sending) => sending.result.isOk
  | _ => false

end Stepped

/-! ## Decisions between steps -/

section Decisions

variable {state : SwapState} {ctx : SwapContext} {reason : AbortReason}

theorem refund_decided (hboundary : AtBoundary ctx.role state)
    (h : nextAction state ctx = .refund) :
    ctx.role = .taker ∧ state = .myLegLocked ∨ ctx.role = .maker ∧ state = .waitingForSecret := by
  cases hrole : ctx.role <;> rw [hrole] at hboundary <;> cases state <;>
    simp only [AtBoundary] at hboundary <;> simp [nextAction, hrole, takerNext, makerNext] at h ⊢
  -- A party that has not locked is asked for other things.
  all_goals
    repeat' split at h
    all_goals simp [SwapContext.lockMyLeg] at h

/-- Only a maker that has not locked is told to abort. -/
theorem abort_decided (hboundary : AtBoundary ctx.role state) (hhashlock : ctx.hashlock.isSome)
    (hsecret : ctx.role = .taker → ctx.secret.isSome)
    (h : nextAction state ctx = .abort reason) :
    state = .aborted reason ∧ ctx.role = .maker ∨
      state = .start ∧ ctx.role = .maker ∧ ∃ r, reason = .unsafeCounterparty r := by
  obtain ⟨hashlock, hhashlock⟩ := Option.isSome_iff_exists.mp hhashlock
  cases hrole : ctx.role with
  | taker =>
    obtain ⟨secret, hsecret⟩ := Option.isSome_iff_exists.mp (hsecret hrole)
    rw [hrole] at hboundary
    cases state <;> simp only [AtBoundary] at hboundary <;>
      simp only [nextAction, hrole, takerNext, hhashlock, hsecret, SwapContext.lockMyLeg,
        reduceCtorEq] at h
    -- In `myLegLocked` a taker waits, redeems or refunds.
    repeat' split at h
    all_goals cases h
  | maker =>
    rw [hrole] at hboundary
    cases state <;> simp only [AtBoundary] at hboundary <;>
      simp only [nextAction, hrole, makerNext, hhashlock, SwapContext.lockMyLeg,
        reduceCtorEq, NextAction.abort.injEq] at h
    · repeat' split at h
      all_goals cases h
      exact .inr ⟨rfl, rfl, _, rfl⟩
    · repeat' split at h
      all_goals cases h
    · exact .inl ⟨by rw [h], rfl⟩

theorem redeem_decided {secret : Bytes32} (hboundary : AtBoundary ctx.role state)
    (h : nextAction state ctx = .redeemCounterpartyLeg secret) :
    ctx.role = .taker ∧ state = .myLegLocked ∧ ctx.CounterpartySafe ∨
      ctx.role = .maker ∧ state = .waitingForSecret := by
  obtain ⟨hrole, hstate, -, hsafe⟩ | ⟨hrole, hstate, -⟩ := nextAction_redeem.mp h
  · exact .inl ⟨hrole, hstate, hsafe⟩
  · rw [hrole] at hboundary
    rcases hstate with rfl | rfl
    · exact .inr ⟨hrole, rfl⟩
    · exact hboundary.elim

end Decisions

/-! ## The invariant -/

namespace Executor

/-- State, id and discoveries belong together. -/
structure Coherent (e : Executor) : Prop where
  hashlock : e.ctx.hashlock.isSome
  secret : e.ctx.role = .taker → e.ctx.secret.isSome
  boundary : AtBoundary e.ctx.role e.state
  locked : e.ownContractId.isSome ↔ e.state.HasLocked
  /-- A maker locks against a leg that it has discovered. -/
  found : e.state = .waitingForSecret → ∀ hashlock, e.ctx.hashlock = some hashlock →
    (e.counterpartyObserver.discoverContractId hashlock).isSome

/-- What one step of a coherent executor keeps, and what it never does. -/
structure Advances (e : Executor) (s : Stepped) : Prop where
  coherent : s.exec.Coherent
  role : s.exec.ctx.role = e.ctx.role
  ownContractId : e.ownContractId.isSome → s.exec.ownContractId = e.ownContractId
  ids : s.result ≠ .err .missingOwnContractId ∧ s.result ≠ .err .missingCounterpartyContractId
  reasons : s.result ≠ .ok (.aborted .invalidTransition) ∧ s.result ≠ .ok (.aborted .invalidState)
  hasLocked : e.state.HasLocked → s.exec.state.HasLocked
  ended : e.state.Over → s.exec.state.Over ∧ s.tx = none
  locks : s.lockOk → ¬e.state.HasLocked ∧ s.exec.state.HasLocked
  settles : s.settleOk → ¬e.state.Over ∧ s.exec.state.Over

section Step

variable {cr : Crypto} {e e₁ : Executor} {result : Fallible ExecutorError StepOutcome}

theorem Coherent.refreshed (h : e.Coherent) (hrefreshed : Refreshed cr e e₁) : e₁.Coherent := by
  refine ⟨?_, ?_, ?_, ?_, ?_⟩
  · rw [hrefreshed.hashlock]
    exact h.hashlock
  · rw [hrefreshed.role, hrefreshed.secret]
    exact h.secret
  · rw [hrefreshed.role, hrefreshed.state]
    exact h.boundary
  · rw [hrefreshed.ownContractId, hrefreshed.state]
    exact h.locked
  · rw [hrefreshed.state, hrefreshed.hashlock]
    intro hstate hashlock hhashlock
    exact hrefreshed.counterparty.discovers (h.found hstate hashlock hhashlock)

/-- A step that leaves the state alone and sends nothing. -/
theorem Coherent.stays (h : e.Coherent) (hrefreshed : Refreshed cr e e₁)
    (hids : result ≠ .err .missingOwnContractId ∧ result ≠ .err .missingCounterpartyContractId)
    (hreasons : result ≠ .ok (.aborted .invalidTransition) ∧
      result ≠ .ok (.aborted .invalidState)) :
    e.Advances ⟨e₁, result, none⟩ where
  coherent := h.refreshed hrefreshed
  role := hrefreshed.role
  ownContractId := fun _ => hrefreshed.ownContractId
  ids := hids
  reasons := hreasons
  hasLocked := by
    rw [hrefreshed.state]
    exact id
  ended := by
    rw [hrefreshed.state]
    exact fun hover => ⟨hover, rfl⟩
  locks := nofun
  settles := nofun

/-- A transaction that fails leaves the state alone too. -/
theorem Coherent.fails {tx : TxCall} {failure : TxError} (h : e.Coherent)
    (hrefreshed : Refreshed cr e e₁) (hnotOver : ¬e.state.Over)
    (hlock : Stepped.lockOk ⟨e₁, .err (.tx failure), some tx⟩ = false)
    (hsettle : Stepped.settleOk ⟨e₁, .err (.tx failure), some tx⟩ = false) :
    e.Advances ⟨e₁, .err (.tx failure), some tx⟩ where
  coherent := h.refreshed hrefreshed
  role := hrefreshed.role
  ownContractId := fun _ => hrefreshed.ownContractId
  ids := ⟨nofun, nofun⟩
  reasons := ⟨nofun, nofun⟩
  hasLocked := by
    rw [hrefreshed.state]
    exact id
  ended := fun hover => absurd hover hnotOver
  locks := by rw [hlock]; exact nofun
  settles := by rw [hsettle]; exact nofun

theorem Coherent.generates (h : e.Coherent) (hrefreshed : Refreshed cr e e₁) {random : Bytes32}
    (hplanned : nextAction e₁.state e₁.ctx = .generateSecret) :
    e.Advances (e₁.generateSecret cr random) := by
  obtain ⟨hrole, hstate⟩ := nextAction_generateSecret.mp hplanned
  have h₁ := h.refreshed hrefreshed
  obtain ⟨secret, hsecret⟩ := Option.isSome_iff_exists.mp (h₁.secret hrole)
  have hstate₀ : e.state = .start := hrefreshed.state.symm.trans hstate
  have hfresh : e₁.ownContractId = none := by
    rw [← Option.not_isSome_iff_eq_none, h₁.locked, hstate]
    simp [SwapState.HasLocked]
  -- The secret of the context is kept.
  have hgenerate : e₁.generateSecret cr random =
      ⟨{ e₁ with state := .secretGenerated }, .ok .generatedSecret, none⟩ := by
    simp [generateSecret, hsecret, hstate, advance]
  rw [hgenerate]
  refine ⟨⟨h₁.hashlock, h₁.secret, ?_, ?_, ?_⟩, hrefreshed.role, ?_, by simp, by simp, ?_, ?_, ?_, ?_⟩
  · rw [hrole]
    trivial
  · simp [hfresh, SwapState.HasLocked]
  · intro hwaits
    cases hwaits
  · intro _
    exact hrefreshed.ownContractId
  · simp [hstate₀, SwapState.HasLocked]
  · simp [hstate₀, SwapState.Over]
  · intro hlocks
    cases hlocks
  · intro hsettles
    cases hsettles

/-- Where a confirmed lock leads. -/
theorem locked_state {recipient token : Address} {amount : U128} {hashlock : Bytes32}
    {timelock : U64}
    (hplanned : nextAction e.state e.ctx = .lockMyLeg recipient token amount hashlock timelock) :
    ¬e.state.HasLocked ∧ ¬e.state.Over ∧ (advance e.state .myLegConfirmed).HasLocked ∧
      AtBoundary e.ctx.role (advance e.state .myLegConfirmed) ∧
      (advance e.state .myLegConfirmed = .waitingForSecret → e.ctx.counterpartyLock.isSome) := by
  obtain ⟨-, -, ⟨hrole, hstate⟩ | ⟨hrole, hstate, obs, hobs, -⟩⟩ := nextAction_lockMyLeg.mp hplanned
  · rw [hrole, hstate]
    simp [SwapState.HasLocked, SwapState.Over, AtBoundary, advance]
  · rw [hrole, hstate, hobs]
    simp [SwapState.HasLocked, SwapState.Over, AtBoundary, advance]

theorem Coherent.locks (h : e.Coherent) (hrefreshed : Refreshed cr e e₁) {io : RefreshAnswers}
    (hobserved : e₁.Observed io) {tx : TxAnswers} {recipient token : Address} {amount : U128}
    {hashlock : Bytes32} {timelock : U64}
    (hplanned : nextAction e₁.state e₁.ctx =
      .lockMyLeg recipient token amount hashlock timelock) :
    e.Advances (e₁.lockMyLeg cr recipient token amount hashlock timelock tx) := by
  have h₁ := h.refreshed hrefreshed
  obtain ⟨hnotLocked, hnotOver, hlocked, hboundary, hseen⟩ := locked_state hplanned
  have hfresh : ¬e₁.ownContractId.isSome := fun hid => hnotLocked (h₁.locked.mp hid)
  unfold lockMyLeg
  rw [if_neg hfresh]
  dsimp only
  cases hresult : (e₁.sendLockMyLeg cr recipient token amount hashlock timelock tx).result with
  | error failure =>
    apply h.fails hrefreshed
    · rw [← hrefreshed.state]
      exact hnotOver
    · simp [Stepped.lockOk, hresult, Except.isOk, Except.toBool]
    · rfl
  | ok locked =>
    refine ⟨⟨h₁.hashlock, h₁.secret, hboundary, by simp [hlocked], ?_⟩, hrefreshed.role, ?_,
      ⟨nofun, nofun⟩, ⟨nofun, nofun⟩, ?_, ?_, ?_, nofun⟩
    · -- A maker that locks has the taker's lock before its eyes.
      intro hstate hashlock' hhashlock
      obtain ⟨lock, hlock⟩ := Option.isSome_iff_exists.mp (hseen hstate)
      obtain ⟨cid, s, hcid, -⟩ := hobserved.lock lock hlock
      rw [← hobserved.contractId hashlock' hhashlock, hcid]
      rfl
    · intro hid
      rw [← hrefreshed.ownContractId] at hid
      exact absurd hid hfresh
    · intro _
      exact hlocked
    · intro hover
      rw [← hrefreshed.state] at hover
      exact absurd hover hnotOver
    · intro _
      rw [← hrefreshed.state]
      exact ⟨hnotLocked, hlocked⟩

theorem Coherent.redeems (h : e.Coherent) (hrefreshed : Refreshed cr e e₁) {io : RefreshAnswers}
    (hobserved : e₁.Observed io) {secret : Bytes32} {tx : TxAnswers}
    (hplanned : nextAction e₁.state e₁.ctx = .redeemCounterpartyLeg secret) :
    e.Advances (e₁.redeemCounterpartyLeg secret tx) := by
  have h₁ := h.refreshed hrefreshed
  obtain ⟨hashlock, hhashlock⟩ := Option.isSome_iff_exists.mp hobserved.hashlock
  have hdecided := redeem_decided h₁.boundary hplanned
  have hstate : e₁.state = .myLegLocked ∨ e₁.state = .waitingForSecret :=
    hdecided.imp (fun h => h.2.1) fun h => h.2
  -- The leg to redeem has been found: a taker has just observed it, a maker locked against it.
  have hcid : e₁.counterpartyContractId.isSome := by
    obtain ⟨-, -, obs, hobs, -⟩ | ⟨-, hwaiting⟩ := hdecided
    · obtain ⟨cid, s, hcid, -⟩ := hobserved.lock obs hobs
      rw [hcid]
      rfl
    · rw [hobserved.contractId hashlock hhashlock]
      exact h₁.found hwaiting hashlock hhashlock
  obtain ⟨cid, hcid⟩ := Option.isSome_iff_exists.mp hcid
  obtain ⟨hlocked, hnotOver⟩ := SwapState.running hstate
  unfold redeemCounterpartyLeg
  rw [hcid]
  dsimp only
  cases hresult : (Swapkit.redeem cid secret tx).result with
  -- A redeem that fails to be sent leaves the executor as the refresh left it.
  | error failure =>
    apply h.fails hrefreshed
    · rw [← hrefreshed.state]
      exact hnotOver
    · rfl
    · simp [Stepped.settleOk, hresult, Except.isOk, Except.toBool]
  | ok hash =>
    -- A maker that still waits takes the `secretObserved` event first.
    have hredeemed : advance (if e₁.state = .waitingForSecret then
        advance e₁.state .secretObserved else e₁.state) .redeemConfirmed =
        .counterpartyRedeemed := by
      rcases hstate with hstate | hstate <;> simp [hstate, advance]
    dsimp only
    rw [hredeemed]
    refine ⟨⟨h₁.hashlock, h₁.secret, ?_, ?_, nofun⟩, hrefreshed.role, ?_, ⟨nofun, nofun⟩,
      ⟨nofun, nofun⟩, ?_, ?_, nofun, ?_⟩
    · cases e₁.ctx.role <;> trivial
    · have hid : e₁.ownContractId.isSome := h₁.locked.mpr hlocked
      simp [hid, SwapState.HasLocked]
    · intro _
      exact hrefreshed.ownContractId
    · simp [SwapState.HasLocked]
    · intro hover
      rw [← hrefreshed.state] at hover
      exact absurd hover hnotOver
    · intro _
      rw [← hrefreshed.state]
      exact ⟨hnotOver, .inl rfl⟩

theorem Coherent.refunds (h : e.Coherent) (hrefreshed : Refreshed cr e e₁) {tx : TxAnswers}
    (hplanned : nextAction e₁.state e₁.ctx = .refund) : e.Advances (e₁.refund tx) := by
  have h₁ := h.refreshed hrefreshed
  have hstate : e₁.state = .myLegLocked ∨ e₁.state = .waitingForSecret :=
    (refund_decided h₁.boundary hplanned).imp And.right And.right
  obtain ⟨hlocked, hnotOver⟩ := SwapState.running hstate
  obtain ⟨cid, hcid⟩ := Option.isSome_iff_exists.mp (h₁.locked.mpr hlocked)
  unfold refund
  split_ifs
  -- Before the timelock of the own leg the executor only waits.
  · exact h.stays hrefreshed ⟨nofun, nofun⟩ ⟨nofun, nofun⟩
  · rw [hcid]
    dsimp only
    cases hresult : (e₁.sendRefund cid tx).result with
    | error failure =>
      apply h.fails hrefreshed
      · rw [← hrefreshed.state]
        exact hnotOver
      · rfl
      · simp [Stepped.settleOk, hresult, Except.isOk, Except.toBool]
    | ok hash =>
      refine ⟨⟨h₁.hashlock, h₁.secret, ?_, ?_, nofun⟩, hrefreshed.role, ?_, ⟨nofun, nofun⟩,
        ⟨nofun, nofun⟩, ?_, ?_, nofun, ?_⟩
      · cases e₁.ctx.role <;> simp [advance, AtBoundary]
      · simp [advance, SwapState.HasLocked]
      · intro _
        exact hcid.symm.trans hrefreshed.ownContractId
      · simp [advance, SwapState.HasLocked]
      · intro hover
        rw [← hrefreshed.state] at hover
        exact absurd hover hnotOver
      · intro _
        rw [← hrefreshed.state]
        exact ⟨hnotOver, .inr (.inl rfl)⟩

theorem Coherent.aborts (h : e.Coherent) (hrefreshed : Refreshed cr e e₁) {reason : AbortReason}
    (hplanned : nextAction e₁.state e₁.ctx = .abort reason) :
    e.Advances ⟨{ e₁ with state := .aborted reason }, .ok (.aborted reason), none⟩ := by
  have h₁ := h.refreshed hrefreshed
  have hdecided := abort_decided h₁.boundary h₁.hashlock h₁.secret hplanned
  have hrole : e₁.ctx.role = .maker := by
    rcases hdecided with ⟨-, hrole⟩ | ⟨-, hrole, -⟩ <;> exact hrole
  -- A maker never locks after it has aborted, and no reason of its gate is one of the two.
  have hreason : reason ≠ .invalidTransition ∧ reason ≠ .invalidState := by
    obtain ⟨hstate, -⟩ | ⟨-, -, r, rfl⟩ := hdecided
    · have hboundary := h₁.boundary
      rw [hrole, hstate] at hboundary
      exact hboundary
    · exact ⟨nofun, nofun⟩
  have hnotLocked : ¬e₁.state.HasLocked := by
    rcases hdecided with ⟨hstate, -⟩ | ⟨hstate, -⟩ <;> simp [hstate, SwapState.HasLocked]
  have hfresh : ¬e₁.ownContractId.isSome := fun hid => hnotLocked (h₁.locked.mp hid)
  refine ⟨⟨h₁.hashlock, h₁.secret, ?_, ?_, nofun⟩, hrefreshed.role, ?_, ⟨nofun, nofun⟩, ?_, ?_, ?_,
    nofun, nofun⟩
  · rw [hrole]
    exact hreason
  · simp [hfresh, SwapState.HasLocked]
  · intro _
    exact hrefreshed.ownContractId
  · simpa using hreason
  · intro hlocked
    rw [← hrefreshed.state] at hlocked
    exact absurd hlocked hnotLocked
  · intro _
    exact ⟨.inr (.inr ⟨reason, rfl⟩), rfl⟩

/-- **One step** of a coherent executor, whatever it is answered. -/
theorem Coherent.step (h : e.Coherent) (io : StepAnswers) : e.Advances (e.step cr io) := by
  have hcases := step_cases cr e io
  generalize e.step cr io = s at hcases ⊢
  -- One case for each kind of step that the executor takes.
  cases hcases with
  | idle hrefreshed hidle =>
    apply h.stays hrefreshed
    · constructor <;> (rintro rfl; obtain ⟨chain, hchain⟩ | ⟨hmissing, -⟩ := hidle <;> contradiction)
    · constructor <;> (rintro rfl; obtain hwaiting | hterminal := hidle <;> contradiction)
  | generate hfirst hplanned => exact h.generates (refreshed_of_refresh hfirst) hplanned
  | lock hfirst hplanned hsecond hcurrent =>
    exact h.locks ((refreshed_of_refresh hfirst).trans (refreshed_of_refresh hsecond))
      (observed_of_refresh hsecond) hcurrent
  | redeem hfirst hplanned hsecond hcurrent =>
    exact h.redeems ((refreshed_of_refresh hfirst).trans (refreshed_of_refresh hsecond))
      (observed_of_refresh hsecond) hcurrent
  | refund hfirst hplanned => exact h.refunds (refreshed_of_refresh hfirst) hplanned
  | abort hfirst hplanned => exact h.aborts (refreshed_of_refresh hfirst) hplanned

end Step

/-! ## Runs -/

/-- A run is the list of what its steps were answered. -/
def next (cr : Crypto) (e : Executor) (io : StepAnswers) : Executor := (e.step cr io).exec

/-- The executor after a run. A panic ends a run; what follows holds of it
    even if it went on. -/
def after (cr : Crypto) (e : Executor) (ios : List StepAnswers) : Executor :=
  Runs.stateAfter (next cr) e ios

/-- The steps of a run. -/
def steps (cr : Crypto) (e : Executor) (ios : List StepAnswers) : List Stepped :=
  Runs.trace (next cr) (step cr) e ios

/-- A new executor: of a taker with its secret, or of a maker. -/
structure Started (cr : Crypto) (e : Executor) : Prop where
  fresh : e.ownContractId = none
  role : (e.ctx.role = .taker ∧ (e.state = .start ∨ e.state = .secretGenerated) ∧
      ∃ secret, e.ctx.secret = some secret ∧ e.ctx.hashlock = some (cr.hashlockOf secret)) ∨
    e.ctx.role = .maker ∧ e.state = .start ∧ e.ctx.hashlock.isSome

section Runs

variable {cr : Crypto} {e : Executor} {ios : List StepAnswers}

theorem Started.coherent (h : e.Started cr) : e.Coherent := by
  obtain ⟨hfresh, ⟨hrole, hstate, secret, hsecret, hhashlock⟩ | ⟨hrole, hstate, hhashlock⟩⟩ := h
  · refine ⟨by simp [hhashlock], fun _ => by simp [hsecret], ?_, ?_, ?_⟩
    · rw [hrole]
      rcases hstate with hstate | hstate <;> simp [hstate, AtBoundary]
    · rcases hstate with hstate | hstate <;> simp [hfresh, hstate, SwapState.HasLocked]
    · rcases hstate with hstate | hstate <;> simp [hstate]
  · refine ⟨hhashlock, by simp [hrole], ?_, ?_, ?_⟩
    · rw [hrole, hstate]
      trivial
    · simp [hfresh, hstate, SwapState.HasLocked]
    · simp [hstate]

theorem Coherent.next (h : e.Coherent) (io : StepAnswers) : (e.next cr io).Coherent :=
  (h.step io).coherent

theorem Coherent.after (h : e.Coherent) : (e.after cr ios).Coherent :=
  Runs.stateAfter_invariant (fun _ io h => h.next io) h

theorem Coherent.role_after (h : e.Coherent) : (e.after cr ios).ctx.role = e.ctx.role := by
  have hinv : (e.after cr ios).Coherent ∧ (e.after cr ios).ctx.role = e.ctx.role :=
    Runs.stateAfter_invariant
      (I := fun e' : Executor => e'.Coherent ∧ e'.ctx.role = e.ctx.role)
      (fun _ io h => ⟨h.1.next io, (h.1.step io).role.trans h.2⟩) ⟨h, rfl⟩
  exact hinv.2

/-- The id of the own lock is written once. -/
theorem Coherent.ownContractId_after (h : e.Coherent) {id : Bytes32}
    (hid : e.ownContractId = some id) : (e.after cr ios).ownContractId = some id := by
  have hinv : (e.after cr ios).Coherent ∧ (e.after cr ios).ownContractId = some id := by
    apply Runs.stateAfter_invariant
      (I := fun e' : Executor => e'.Coherent ∧ e'.ownContractId = some id)
    · rintro e' io ⟨hcoherent, hid'⟩
      refine ⟨hcoherent.next io, ?_⟩
      rw [← hid']
      exact (hcoherent.step io).ownContractId (by rw [hid']; rfl)
    · exact ⟨h, hid⟩
  exact hinv.2

/-- An executor that is done sends nothing, however often it steps. -/
theorem Coherent.silent_when_over (h : e.Coherent) (hover : e.state.Over) :
    ∀ s ∈ e.steps cr ios, s.tx = none := by
  apply Runs.trace_forall (I := fun e' : Executor => e'.Coherent ∧ e'.state.Over)
    (p := fun s : Stepped => s.tx = none)
  · rintro e' io ⟨hcoherent, hover⟩
    have hstep : e'.Advances (e'.step cr io) := hcoherent.step io
    exact ⟨hcoherent.next io, (hstep.ended hover).1⟩
  · rintro e' io ⟨hcoherent, hover⟩
    exact ((hcoherent.step io).ended hover).2
  · exact ⟨h, hover⟩

end Runs

/-- **The run invariant of the executor**, for every clock, every answer of the
    endpoints and every result of a transaction. -/
theorem executor_run_invariant {cr : Crypto} {e : Executor} (hstarted : e.Started cr)
    (ios : List StepAnswers) :
    AtBoundary e.ctx.role (e.after cr ios).state ∧
    ((e.after cr ios).ownContractId.isSome ↔ (e.after cr ios).state.HasLocked) ∧
    (∀ id, (e.after cr ios).ownContractId = some id → ∀ later,
      ((e.after cr ios).after cr later).ownContractId = some id) ∧
    (∀ s ∈ e.steps cr ios,
      s.result ≠ .err .missingOwnContractId ∧ s.result ≠ .err .missingCounterpartyContractId ∧
      s.result ≠ .ok (.aborted .invalidTransition) ∧ s.result ≠ .ok (.aborted .invalidState)) ∧
    (e.steps cr ios).countP Stepped.lockOk ≤ 1 ∧
    (e.steps cr ios).countP Stepped.settleOk ≤ 1 ∧
    ((e.after cr ios).state.Over → ∀ later, ∀ s ∈ (e.after cr ios).steps cr later,
      s.tx = none) := by
  have hcoherent := hstarted.coherent
  have hafter := @Coherent.after cr e ios hcoherent
  have hnext : ∀ (e' : Executor) io, e'.Coherent → (e'.next cr io).Coherent :=
    fun _ io h => h.next io
  refine ⟨?_, hafter.locked, ?_, ?_, ?_, ?_, ?_⟩
  · have hboundary := hafter.boundary
    rwa [hcoherent.role_after] at hboundary
  · intro id hid later
    exact hafter.ownContractId_after hid
  · refine Runs.trace_forall (p := fun s : Stepped =>
      s.result ≠ .err .missingOwnContractId ∧ s.result ≠ .err .missingCounterpartyContractId ∧
      s.result ≠ .ok (.aborted .invalidTransition) ∧ s.result ≠ .ok (.aborted .invalidState))
      hnext ?_ hcoherent
    intro e' io h
    have hstep : e'.Advances (e'.step cr io) := h.step io
    exact ⟨hstep.ids.1, hstep.ids.2, hstep.reasons.1, hstep.reasons.2⟩
  -- The state only moves towards `HasLocked`, and each lock enters it.
  · apply Runs.countP_trace_le_one (F := fun e' : Executor => e'.state.HasLocked)
      hnext _ _ hcoherent
    · intro e' io h hlocked
      exact (h.step io).hasLocked hlocked
    · intro e' io h hlock
      exact (h.step io).locks hlock
  -- It stays `Over` once it is, and each redeem or refund enters it.
  · apply Runs.countP_trace_le_one (F := fun e' : Executor => e'.state.Over)
      hnext _ _ hcoherent
    · intro e' io h hover
      have hstep : e'.Advances (e'.step cr io) := h.step io
      exact (hstep.ended hover).1
    · intro e' io h hsettle
      exact (h.step io).settles hsettle
  · intro hover later
    exact hafter.silent_when_over hover

end Executor

namespace Sample

/-- A taker that has its secret, on two empty chains. -/
def taker : Executor where
  state := .secretGenerated
  ctx :=
    { role := .taker
      myToken := zeroAddress
      myAmount := 5
      myTimelock := 7200
      myRecipient := Exchange.Sample.maker
      cpToken := zeroAddress
      cpAmount := 7
      me := Exchange.Sample.rival
      minGap := 1800
      hashlock := some (Exchange.Sample.crypto.hashlockOf 42)
      secret := some 42
      myLegLocked := false
      counterpartyLock := none
      revealedSecret := none
      now := 0 }
  ownSigner := Exchange.Sample.rival
  counterpartySigner := Exchange.Sample.rival
  ownHtlc := 0xA
  counterpartyHtlc := 0xB
  ownSettlementLock := none
  ownObserver := .new 1
  counterpartyObserver := .new 2
  minConfirmations := 1
  ownContractId := none
  counterpartyContractId := none

/-- Endpoints that know of no logs at time `now`. -/
def noLogs (now : U64) : RefreshAnswers where
  now := now
  counterpartyPoll := ⟨.ok 3, fun _ _ => .ok []⟩
  counterpartyLock := ⟨fun _ => .error "", .ok 3, fun _ => .ok []⟩
  ownPoll := ⟨.ok 3, fun _ _ => .ok []⟩

/-- Every transaction has its receipt. -/
def mined : TxAnswers where
  approve := ⟨⟨.ok (), .ok ⟨1, true⟩⟩, .ok 5⟩
  call := ⟨.ok (), .ok ⟨2, true⟩⟩

/-- Two steps: at time 10, and after the timelock. -/
def lockAndRefund : List StepAnswers :=
  [⟨noLogs 10, noLogs 11, mined, 0⟩, ⟨noLogs 7200, noLogs 7201, mined, 0⟩]

end Sample

/-- A taker locks and, seeing nobody, takes its leg back. -/
theorem executor_run_invariant_lock_and_refund :
    (Sample.taker.after Exchange.Sample.crypto Sample.lockAndRefund).state = .refunded ∧
    (Sample.taker.after Exchange.Sample.crypto Sample.lockAndRefund).ownContractId.isSome ∧
    (Sample.taker.steps Exchange.Sample.crypto Sample.lockAndRefund).countP Stepped.settleOk ≤ 1 := by
  have hstarted : Sample.taker.Started Exchange.Sample.crypto :=
    ⟨rfl, .inl ⟨rfl, .inr rfl, 42, rfl, rfl⟩⟩
  have hinvariant := Executor.executor_run_invariant hstarted Sample.lockAndRefund
  have hstate : (Sample.taker.after Exchange.Sample.crypto Sample.lockAndRefund).state =
      .refunded := by decide
  refine ⟨hstate, hinvariant.2.1.mpr ?_, hinvariant.2.2.2.2.2.1⟩
  rw [hstate]
  exact .inr (.inr (.inr rfl))

end Kael.Swapkit
