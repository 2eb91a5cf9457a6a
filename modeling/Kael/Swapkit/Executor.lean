import Kael.Swapkit.Observe
import Kael.Swapkit.StateMachine
import Kael.Swapkit.Tx

/-!
# The Executor

`exec/mod.rs`: one step observes both chains, asks the state machine what to
do, observes again before it locks or redeems, and sends at most one
transaction. All answers of endpoints, clock and random generator are inputs.
`step_cases` says once what a step can do.
-/

namespace Kael.Swapkit

/-! ## The executor -/

inductive ExecutorError where
  | missingHashlock
  | missingOwnContractId
  | missingCounterpartyContractId
  | chain (e : ChainError)
  | tx (e : TxError)
deriving DecidableEq

inductive StepOutcome where
  | generatedSecret
  | lockedMyLeg (contractId : Bytes32)
  | redeemedCounterpartyLeg
  | refundedMyLeg
  | waiting
  | terminal
  | aborted (reason : AbortReason)
deriving DecidableEq

/-- The signers are known by their addresses. -/
structure Executor where
  state : SwapState
  ctx : SwapContext
  ownSigner : Address
  counterpartySigner : Address
  ownHtlc : Address
  counterpartyHtlc : Address
  ownSettlementLock : Option SettlementLockConfig
  ownObserver : CounterpartyObserver
  counterpartyObserver : CounterpartyObserver
  minConfirmations : U64
  ownContractId : Option Bytes32
  counterpartyContractId : Option Bytes32

/-- The clock is among the answers of a step. -/
structure WalletExecutorConfig where
  state : SwapState
  ctx : SwapContext
  ownSigner : Address
  counterpartySigner : Address
  ownHtlc : Address
  counterpartyHtlc : Address
  ownSettlementLock : Option SettlementLockConfig
  ownObserver : CounterpartyObserver
  counterpartyObserver : CounterpartyObserver
  minConfirmations : U64

/-- `WalletExecutor::new`. -/
def Executor.new (config : WalletExecutorConfig) : Executor where
  state := config.state
  ctx := config.ctx
  ownSigner := config.ownSigner
  counterpartySigner := config.counterpartySigner
  ownHtlc := config.ownHtlc
  counterpartyHtlc := config.counterpartyHtlc
  ownSettlementLock := config.ownSettlementLock
  ownObserver := config.ownObserver
  counterpartyObserver := config.counterpartyObserver
  minConfirmations := config.minConfirmations
  ownContractId := none
  counterpartyContractId := none

/-- What clock and endpoints answer during one refresh. -/
structure RefreshAnswers where
  now : U64
  counterpartyPoll : PollAnswers
  counterpartyLock : LockAnswers
  ownPoll : PollAnswers

/-- All that one step may be answered. -/
structure StepAnswers where
  first : RefreshAnswers
  /-- For the observation that precedes a lock or a redeem. -/
  second : RefreshAnswers
  tx : TxAnswers
  /-- 32 random bytes. -/
  random : Bytes32

/-- The transaction function that a step has called, with what came of it. -/
inductive TxCall where
  | lock (sending : Sending Locked)
  | redeem (sending : Sending Bytes32)
  | refund (sending : Sending Bytes32)

structure Stepped where
  exec : Executor
  result : Fallible ExecutorError StepOutcome
  tx : Option TxCall

/-- `current` is what was planned, and is sent after a second look. -/
def reverifiedActionMatches (planned current : NextAction) : Bool :=
  match planned, current with
  | .lockMyLeg aRecipient aToken aAmount aHashlock aTimelock,
    .lockMyLeg bRecipient bToken bAmount bHashlock bTimelock =>
    aRecipient = bRecipient ∧ aToken = bToken ∧ aAmount = bAmount ∧ aHashlock = bHashlock ∧
      aTimelock = bTimelock
  | .redeemCounterpartyLeg a, .redeemCounterpartyLeg b => a = b
  | .refund, .refund => true
  | _, _ => false

namespace Executor

variable (cr : Crypto) (e : Executor)

/-- `refresh_observations`. A failure keeps what was observed before it. -/
def refresh (io : RefreshAnswers) : Executor × Fallible ExecutorError Unit :=
  let e := { e with ctx := { e.ctx with now := io.now } }
  match e.ctx.hashlock with
  | none => (e, .err .missingHashlock)
  | some hashlock =>
    match e.counterpartyObserver.observe cr hashlock e.minConfirmations io.counterpartyPoll
        io.counterpartyLock with
    | (o, .err failure) => ({ e with counterpartyObserver := o }, .err (.chain failure))
    | (o, .panicked) => ({ e with counterpartyObserver := o }, .panicked)
    | (o, .ok cp) =>
      let e := { e with
        counterpartyObserver := o
        ctx := { e.ctx with counterpartyLock := cp.forGate }
        counterpartyContractId := o.discoverContractId hashlock }
      match e.ownObserver.poll cr io.ownPoll with
      | .err failure => (e, .err (.chain failure))
      | .panicked => (e, .panicked)
      | .ok own =>
        ({ e with
            ownObserver := own
            ctx := { e.ctx with
              revealedSecret := (own.revealedSecret hashlock).or e.ctx.revealedSecret
              myLegLocked := e.ctx.myLegLocked || e.ownContractId.isSome } }, .ok ())

/-- Observe again, and go on if the planned action is still the next one. -/
def reverify (planned : NextAction) (io : RefreshAnswers) (go : Executor → Stepped) : Stepped :=
  match e.refresh cr io with
  | (e, .err failure) => ⟨e, .err failure, none⟩
  | (e, .panicked) => ⟨e, .panicked, none⟩
  | (e, .ok ()) =>
    if reverifiedActionMatches planned (nextAction e.state e.ctx) then go e
    else ⟨e, .ok .waiting, none⟩

def generateSecret (random : Bytes32) : Stepped :=
  let e :=
    if e.ctx.secret.isNone then
      { e with ctx := { e.ctx with
          hashlock := some (cr.hashlockOf random)
          secret := some random } }
    else e
  ⟨{ e with state := advance e.state .secretGenerated }, .ok .generatedSecret, none⟩

/-- My leg is locked: the id is stored once the lock has its receipt. -/
def sendLockMyLeg (recipient token : Address) (amount : U128) (hashlock : Bytes32) (timelock : U64)
    (io : TxAnswers) : Sending Locked :=
  match e.ownSettlementLock with
  | some settlement =>
    lockViaSettlement cr e.ownSigner settlement recipient token amount hashlock timelock io
  | none => Swapkit.lock cr e.ownSigner e.ownHtlc recipient token amount hashlock timelock io

def lockMyLeg (recipient token : Address) (amount : U128) (hashlock : Bytes32) (timelock : U64)
    (io : TxAnswers) : Stepped :=
  if e.ownContractId.isSome then
    ⟨{ e with
        ctx := { e.ctx with myLegLocked := true }
        state := advance e.state .myLegConfirmed }, .ok .waiting, none⟩
  else
    let sending := e.sendLockMyLeg cr recipient token amount hashlock timelock io
    match sending.result with
    | .error failure => ⟨e, .err (.tx failure), some (.lock sending)⟩
    | .ok locked =>
      ⟨{ e with
          ownContractId := some locked.contractId
          ctx := { e.ctx with myLegLocked := true }
          state := advance e.state .myLegConfirmed },
        .ok (.lockedMyLeg locked.contractId), some (.lock sending)⟩

def redeemCounterpartyLeg (secret : Bytes32) (io : TxAnswers) : Stepped :=
  match e.counterpartyContractId with
  | none => ⟨e, .err .missingCounterpartyContractId, none⟩
  | some cid =>
    let sending := Swapkit.redeem cid secret io
    match sending.result with
    | .error failure => ⟨e, .err (.tx failure), some (.redeem sending)⟩
    | .ok _ =>
      let state :=
        if e.state = .waitingForSecret then advance e.state .secretObserved else e.state
      ⟨{ e with state := advance state .redeemConfirmed }, .ok .redeemedCounterpartyLeg,
        some (.redeem sending)⟩

def sendRefund (cid : Bytes32) (io : TxAnswers) : Sending Bytes32 :=
  match e.ownSettlementLock with
  | some _ => refundViaSettlement cid io
  | none => Swapkit.refund cid io

def refund (io : TxAnswers) : Stepped :=
  if e.ctx.now < e.ctx.myTimelock then ⟨e, .ok .waiting, none⟩
  else
    match e.ownContractId with
    | none => ⟨e, .err .missingOwnContractId, none⟩
    | some cid =>
      let sending := e.sendRefund cid io
      match sending.result with
      | .error failure => ⟨e, .err (.tx failure), some (.refund sending)⟩
      | .ok _ =>
        ⟨{ e with state := advance .refunding .refundConfirmed }, .ok .refundedMyLeg,
          some (.refund sending)⟩

def act (io : StepAnswers) : Stepped :=
  let planned := nextAction e.state e.ctx
  match planned with
  | .generateSecret => e.generateSecret cr io.random
  | .lockMyLeg recipient token amount hashlock timelock =>
    e.reverify cr planned io.second fun e =>
      e.lockMyLeg cr recipient token amount hashlock timelock io.tx
  | .redeemCounterpartyLeg secret =>
    e.reverify cr planned io.second fun e => e.redeemCounterpartyLeg secret io.tx
  | .refund => e.refund io.tx
  | .waitForCounterpartyLock | .waitForSecretReveal | .verifyCounterpartyLeg =>
    ⟨e, .ok .waiting, none⟩
  | .done => ⟨e, .ok .terminal, none⟩
  | .abort reason => ⟨{ e with state := .aborted reason }, .ok (.aborted reason), none⟩

def step (io : StepAnswers) : Stepped :=
  match e.refresh cr io.first with
  | (e, .err failure) => ⟨e, .err failure, none⟩
  | (e, .panicked) => ⟨e, .panicked, none⟩
  | (e, .ok ()) => e.act cr io

end Executor

/-! ## What a refresh changes -/

/-- The part of a context that observing leaves alone. -/
def SwapContext.terms (ctx : SwapContext) : SwapContext :=
  { ctx with myLegLocked := false, counterpartyLock := none, revealedSecret := none, now := 0 }

/-- The part of an executor that observing leaves alone. -/
def Executor.setup (e : Executor) : Executor :=
  { e with
    ctx := e.ctx.terms
    ownObserver := .new e.ownObserver.cpChainId
    counterpartyObserver := .new e.counterpartyObserver.cpChainId
    counterpartyContractId := none }

/-- `e'` is `e` after some observing, whether it failed or not. -/
structure Executor.Refreshed (cr : Crypto) (e e' : Executor) : Prop where
  setup : e'.setup = e.setup
  own : e.ownObserver.Extends cr e'.ownObserver
  counterparty : e.counterpartyObserver.Extends cr e'.counterpartyObserver

/-- What a refresh that was answered `io` leaves to decide on. -/
structure Executor.Observed (e : Executor) (io : RefreshAnswers) : Prop where
  hashlock : e.ctx.hashlock.isSome
  now : e.ctx.now = io.now
  contractId : ∀ hashlock, e.ctx.hashlock = some hashlock →
    e.counterpartyContractId = e.counterpartyObserver.discoverContractId hashlock
  lock : ∀ lock, e.ctx.counterpartyLock = some lock →
    ∃ cid s, e.counterpartyContractId = some cid ∧ io.counterpartyLock.getSwap cid = .ok s ∧
      Observes s lock

namespace Executor

section Refresh

variable {cr : Crypto} {e e' e₁ e₂ : Executor} {io : RefreshAnswers}

namespace Refreshed

theorem refl (cr : Crypto) (e : Executor) : Refreshed cr e e := ⟨rfl, .refl cr _, .refl cr _⟩

theorem trans (h₁ : Refreshed cr e e₁) (h₂ : Refreshed cr e₁ e₂) : Refreshed cr e e₂ :=
  ⟨h₂.setup.trans h₁.setup, h₁.own.trans h₂.own, h₁.counterparty.trans h₂.counterparty⟩

variable (h : Refreshed cr e e')
include h

theorem state : e'.state = e.state :=
  show e'.setup.state = e.setup.state from congrArg _ h.setup

theorem ownContractId : e'.ownContractId = e.ownContractId :=
  show e'.setup.ownContractId = e.setup.ownContractId from congrArg _ h.setup

theorem ownSigner : e'.ownSigner = e.ownSigner :=
  show e'.setup.ownSigner = e.setup.ownSigner from congrArg _ h.setup

theorem counterpartySigner : e'.counterpartySigner = e.counterpartySigner :=
  show e'.setup.counterpartySigner = e.setup.counterpartySigner from congrArg _ h.setup

theorem ownSettlementLock : e'.ownSettlementLock = e.ownSettlementLock :=
  show e'.setup.ownSettlementLock = e.setup.ownSettlementLock from congrArg _ h.setup

theorem terms : e'.ctx.terms = e.ctx.terms :=
  show e'.setup.ctx = e.setup.ctx from congrArg _ h.setup

theorem role : e'.ctx.role = e.ctx.role :=
  show e'.ctx.terms.role = e.ctx.terms.role from congrArg _ h.terms

theorem hashlock : e'.ctx.hashlock = e.ctx.hashlock :=
  show e'.ctx.terms.hashlock = e.ctx.terms.hashlock from congrArg _ h.terms

theorem secret : e'.ctx.secret = e.ctx.secret :=
  show e'.ctx.terms.secret = e.ctx.terms.secret from congrArg _ h.terms

end Refreshed

/-- **Refreshing** changes observations only; if it succeeds, they are of the
    present, and the observed lock was read at the discovered id. -/
theorem refresh_spec :
    Refreshed cr e (e.refresh cr io).1 ∧
    ((e.refresh cr io).2 = .ok () → (e.refresh cr io).1.Observed io) ∧
    (∀ failure, (e.refresh cr io).2 = .err failure →
      (∃ chain, failure = .chain chain) ∨ failure = .missingHashlock ∧ e.ctx.hashlock = none) := by
  unfold refresh
  dsimp only
  cases hhashlock : e.ctx.hashlock with
  -- Without a hashlock there is nothing to observe.
  | none =>
    refine ⟨⟨by simp [setup, SwapContext.terms, hhashlock], .refl cr _, .refl cr _⟩, nofun, ?_⟩
    rintro failure ⟨⟩
    exact .inr ⟨rfl, rfl⟩
  | some hashlock =>
    dsimp only
    cases hobserve : e.counterpartyObserver.observe cr hashlock e.minConfirmations
        io.counterpartyPoll io.counterpartyLock with
    | mk o result =>
      have hext := CounterpartyObserver.observe_extends hobserve
      have hsetup : CounterpartyObserver.new o.cpChainId =
          .new e.counterpartyObserver.cpChainId := by rw [hext.cpChainId]
      -- Each failure leaves the observers as far as they came; the rest is as before.
      cases result with
      | err failure =>
        refine ⟨⟨?_, .refl cr _, hext⟩, nofun, ?_⟩
        · simp [setup, SwapContext.terms, hhashlock, hsetup]
        · rintro failure ⟨⟩
          exact .inl ⟨_, rfl⟩
      | panicked =>
        refine ⟨⟨?_, .refl cr _, hext⟩, nofun, nofun⟩
        simp [setup, SwapContext.terms, hhashlock, hsetup]
      | ok cp =>
        dsimp only
        cases hpoll : e.ownObserver.poll cr io.ownPoll with
        | err failure =>
          refine ⟨⟨?_, .refl cr _, hext⟩, nofun, ?_⟩
          · simp [setup, SwapContext.terms, hhashlock, hsetup]
          · rintro failure ⟨⟩
            exact .inl ⟨_, rfl⟩
        | panicked =>
          refine ⟨⟨?_, .refl cr _, hext⟩, nofun, nofun⟩
          simp [setup, SwapContext.terms, hhashlock, hsetup]
        | ok own =>
          have hown := CounterpartyObserver.poll_extends hpoll
          refine ⟨⟨?_, hown, hext⟩, fun _ => ?_, nofun⟩
          · simp [setup, SwapContext.terms, hhashlock, hsetup, hown.cpChainId]
          · refine ⟨?_, rfl, ?_, ?_⟩
            · rfl
            · intro hashlock' h'
              simp only [Option.some.injEq] at h'
              rw [h']
            -- A confirmed lock is the record read under the discovered id.
            · intro lock hlock
              obtain ⟨cid, s, hcid, hs, hobserves⟩ :=
                CounterpartyObserver.observe_confirmed hobserve hlock
              exact ⟨cid, s, hcid, hs, hobserves⟩

theorem refreshed_of_refresh {result : Fallible ExecutorError Unit}
    (h : e.refresh cr io = (e', result)) : Refreshed cr e e' := by
  have hspec := (@refresh_spec cr e io).1
  rwa [h] at hspec

theorem observed_of_refresh (h : e.refresh cr io = (e', .ok ())) : e'.Observed io := by
  have hspec := (@refresh_spec cr e io).2.1
  rw [h] at hspec
  exact hspec rfl

theorem error_of_refresh {failure : ExecutorError} (h : e.refresh cr io = (e', .err failure)) :
    (∃ chain, failure = .chain chain) ∨ failure = .missingHashlock ∧ e.ctx.hashlock = none := by
  have hspec := (@refresh_spec cr e io).2.2
  rw [h] at hspec
  exact hspec failure rfl

end Refresh

/-! ## What a step can do -/

/-- A result of a step that has only observed. -/
def Idle (e : Executor) : Fallible ExecutorError StepOutcome → Prop
  | .ok outcome => outcome = .waiting ∨ outcome = .terminal
  | .err failure =>
    (∃ chain, failure = .chain chain) ∨ failure = .missingHashlock ∧ e.ctx.hashlock = none
  | .panicked => True

/-- The step of `e` that is answered `io` and ends in the last argument. -/
inductive StepCase (cr : Crypto) (e : Executor) (io : StepAnswers) : Stepped → Prop
  | idle {e' result} (hrefreshed : Refreshed cr e e') (hidle : e.Idle result) :
    StepCase cr e io ⟨e', result, none⟩
  | generate {e₁} (hfirst : e.refresh cr io.first = (e₁, .ok ()))
    (hplanned : nextAction e₁.state e₁.ctx = .generateSecret) :
    StepCase cr e io (e₁.generateSecret cr io.random)
  | lock {e₁ e₂ recipient token amount hashlock timelock}
    (hfirst : e.refresh cr io.first = (e₁, .ok ()))
    (hplanned : nextAction e₁.state e₁.ctx =
      .lockMyLeg recipient token amount hashlock timelock)
    (hsecond : e₁.refresh cr io.second = (e₂, .ok ()))
    (hcurrent : nextAction e₂.state e₂.ctx =
      .lockMyLeg recipient token amount hashlock timelock) :
    StepCase cr e io (e₂.lockMyLeg cr recipient token amount hashlock timelock io.tx)
  | redeem {e₁ e₂ secret} (hfirst : e.refresh cr io.first = (e₁, .ok ()))
    (hplanned : nextAction e₁.state e₁.ctx = .redeemCounterpartyLeg secret)
    (hsecond : e₁.refresh cr io.second = (e₂, .ok ()))
    (hcurrent : nextAction e₂.state e₂.ctx = .redeemCounterpartyLeg secret) :
    StepCase cr e io (e₂.redeemCounterpartyLeg secret io.tx)
  | refund {e₁} (hfirst : e.refresh cr io.first = (e₁, .ok ()))
    (hplanned : nextAction e₁.state e₁.ctx = .refund) : StepCase cr e io (e₁.refund io.tx)
  | abort {e₁ reason} (hfirst : e.refresh cr io.first = (e₁, .ok ()))
    (hplanned : nextAction e₁.state e₁.ctx = .abort reason) :
    StepCase cr e io ⟨{ e₁ with state := .aborted reason }, .ok (.aborted reason), none⟩

section Step

variable {cr : Crypto} {e e₁ : Executor} {io : StepAnswers}

theorem reverifiedActionMatches_lock {recipient token : Address} {amount : U128}
    {hashlock : Bytes32} {timelock : U64} {current : NextAction} :
    reverifiedActionMatches (.lockMyLeg recipient token amount hashlock timelock) current ↔
      current = .lockMyLeg recipient token amount hashlock timelock := by
  constructor
  · intro hmatches
    cases current with
    | lockMyLeg =>
      obtain ⟨rfl, rfl, rfl, rfl, rfl⟩ := of_decide_eq_true hmatches
      rfl
    | _ => cases hmatches
  · rintro rfl
    exact decide_eq_true ⟨rfl, rfl, rfl, rfl, rfl⟩

theorem reverifiedActionMatches_redeem {secret : Bytes32} {current : NextAction} :
    reverifiedActionMatches (.redeemCounterpartyLeg secret) current ↔
      current = .redeemCounterpartyLeg secret := by
  constructor
  · intro hmatches
    cases current with
    | redeemCounterpartyLeg =>
      obtain rfl := of_decide_eq_true hmatches
      rfl
    | _ => cases hmatches
  · rintro rfl
    exact decide_eq_true rfl

/-- A second look goes on with the planned action, or the step is idle. -/
theorem reverify_cases {planned : NextAction} {go : Executor → Stepped}
    (hfirst : e.refresh cr io.first = (e₁, .ok ()))
    (hgo : ∀ e₂, e₁.refresh cr io.second = (e₂, .ok ()) →
      reverifiedActionMatches planned (nextAction e₂.state e₂.ctx) →
      StepCase cr e io (go e₂)) :
    StepCase cr e io (e₁.reverify cr planned io.second go) := by
  have hrefreshed := refreshed_of_refresh hfirst
  unfold reverify
  -- The second refresh may fail as the first may; an action is sent if it is planned again.
  cases hsecond : e₁.refresh cr io.second with
  | mk e₂ result =>
    have htwice := hrefreshed.trans (refreshed_of_refresh hsecond)
    cases result with
    | err failure =>
      have hfailure := error_of_refresh hsecond
      rw [hrefreshed.hashlock] at hfailure
      exact .idle htwice hfailure
    | panicked => exact .idle htwice trivial
    | ok u =>
      dsimp only
      split_ifs with hmatches
      · exact hgo e₂ hsecond hmatches
      · exact .idle htwice (.inl rfl)

/-- **One step**: it idles, or does what the state machine asks for; to lock or
    to redeem, it is asked twice. -/
theorem step_cases (cr : Crypto) (e : Executor) (io : StepAnswers) :
    StepCase cr e io (e.step cr io) := by
  unfold step
  cases hfirst : e.refresh cr io.first with
  | mk e₁ result =>
    have hrefreshed := refreshed_of_refresh hfirst
    cases result with
    | err failure => exact .idle hrefreshed (error_of_refresh hfirst)
    | panicked => exact .idle hrefreshed trivial
    | ok u =>
      dsimp only
      unfold act
      -- The actions that send a leg's transaction are planned again first.
      cases hplanned : nextAction e₁.state e₁.ctx with
      | generateSecret => exact .generate hfirst hplanned
      | lockMyLeg recipient token amount hashlock timelock =>
        apply reverify_cases hfirst
        intro e₂ hsecond hmatches
        exact .lock hfirst hplanned hsecond (reverifiedActionMatches_lock.mp hmatches)
      | redeemCounterpartyLeg secret =>
        apply reverify_cases hfirst
        intro e₂ hsecond hmatches
        exact .redeem hfirst hplanned hsecond (reverifiedActionMatches_redeem.mp hmatches)
      | refund => exact .refund hfirst hplanned
      | waitForCounterpartyLock | waitForSecretReveal | verifyCounterpartyLeg =>
        exact .idle hrefreshed (.inl rfl)
      | done => exact .idle hrefreshed (.inr rfl)
      | abort reason => exact .abort hfirst hplanned

end Step

/-! ## What a step sends -/

section Sends

variable {cr : Crypto} {e : Executor} {io : TxAnswers} {call : TxCall}

theorem lockMyLeg_tx {recipient token : Address} {amount : U128} {hashlock : Bytes32}
    {timelock : U64}
    (h : (e.lockMyLeg cr recipient token amount hashlock timelock io).tx = some call) :
    call = .lock (e.sendLockMyLeg cr recipient token amount hashlock timelock io) := by
  unfold lockMyLeg at h
  dsimp only at h
  split_ifs at h
  split at h
  all_goals exact (Option.some.inj h).symm

theorem redeemCounterpartyLeg_tx {secret : Bytes32}
    (h : (e.redeemCounterpartyLeg secret io).tx = some call) :
    ∃ contractId, e.counterpartyContractId = some contractId ∧
      call = .redeem (Swapkit.redeem contractId secret io) := by
  unfold redeemCounterpartyLeg at h
  cases hid : e.counterpartyContractId with
  | none =>
    rw [hid] at h
    cases h
  | some contractId =>
    rw [hid] at h
    dsimp only at h
    split at h
    all_goals exact ⟨contractId, rfl, (Option.some.inj h).symm⟩

theorem refund_tx (h : (e.refund io).tx = some call) :
    ∃ contractId, e.ownContractId = some contractId ∧
      call = .refund (e.sendRefund contractId io) := by
  unfold refund at h
  split_ifs at h
  cases hid : e.ownContractId with
  | none =>
    rw [hid] at h
    cases h
  | some contractId =>
    rw [hid] at h
    dsimp only at h
    split at h
    all_goals exact ⟨contractId, rfl, (Option.some.inj h).symm⟩

/-- Locking sends an approval, one of the two lock calls, or both. -/
theorem mem_sendLockMyLeg {recipient token : Address} {amount : U128} {hashlock : Bytes32}
    {timelock : U64} {c : Exchange.Call}
    (h : c ∈ (e.sendLockMyLeg cr recipient token amount hashlock timelock io).sent) :
    (∃ spender, c = .approve token spender amount.toNat) ∨
    c = .newSwap (lockValue token amount) (lockArgs recipient token amount hashlock timelock) ∨
    ∃ config, e.ownSettlementLock = some config ∧
      c = .settleLeg (lockValue token amount)
        (config.leg e.ownSigner recipient token amount hashlock timelock) := by
  unfold sendLockMyLeg at h
  -- With a Settlement configured the lock goes through it.
  cases hconfig : e.ownSettlementLock with
  | none =>
    rw [hconfig] at h
    dsimp only at h
    unfold Swapkit.lock at h
    split_ifs at h
    · cases h
    · obtain hc | hc := mem_sendLock h
      · exact .inl ⟨_, hc⟩
      · exact .inr (.inl hc)
  | some config =>
    rw [hconfig] at h
    dsimp only at h
    unfold lockViaSettlement at h
    split_ifs at h
    · cases h
    · obtain hc | hc := mem_sendLock h
      · exact .inl ⟨_, hc⟩
      · exact .inr (.inr ⟨config, rfl, hc⟩)

end Sends

/-! ## What a step keeps -/

/-- The part of an executor that only a generated secret changes. -/
def base (e : Executor) : Executor := { e.setup with state := .start, ownContractId := none }

section Base

variable {cr : Crypto} {e e' : Executor}

theorem Refreshed.base (h : Refreshed cr e e') : e'.base = e.base :=
  congrArg (fun setup : Executor => { setup with state := .start, ownContractId := none }) h.setup

theorem lockMyLeg_base {recipient token : Address} {amount : U128} {hashlock : Bytes32}
    {timelock : U64} {io : TxAnswers} :
    (e.lockMyLeg cr recipient token amount hashlock timelock io).exec.base = e.base := by
  unfold lockMyLeg
  dsimp only
  split_ifs
  · rfl
  · split <;> rfl

theorem redeemCounterpartyLeg_base {secret : Bytes32} {io : TxAnswers} :
    (e.redeemCounterpartyLeg secret io).exec.base = e.base := by
  unfold redeemCounterpartyLeg
  cases hid : e.counterpartyContractId with
  | none => rfl
  | some contractId =>
    dsimp only
    split <;> rfl

theorem refund_base {io : TxAnswers} : (e.refund io).exec.base = e.base := by
  unfold refund
  split_ifs
  · rfl
  · cases e.ownContractId with
    | none => rfl
    | some contractId =>
      dsimp only
      split <;> rfl

/-- **A step keeps** everything but what it observes, its state and its own id,
    unless it makes the secret that was missing. -/
theorem step_base (cr : Crypto) (e : Executor) (io : StepAnswers) :
    (e.step cr io).exec.base = e.base ∨
    e.ctx.secret = none ∧ (e.step cr io).exec.base =
      { e.base with ctx := { e.base.ctx with
          hashlock := some (cr.hashlockOf io.random)
          secret := some io.random } } := by
  have hcases := step_cases cr e io
  generalize e.step cr io = s at hcases ⊢
  cases hcases with
  | idle hrefreshed hidle => exact .inl hrefreshed.base
  | @generate e₁ hfirst hplanned =>
    have hrefreshed := refreshed_of_refresh hfirst
    rw [← hrefreshed.base, ← hrefreshed.secret]
    cases hsecret : e₁.ctx.secret with
    | none =>
      refine .inr ⟨rfl, ?_⟩
      simp [generateSecret, hsecret, base, setup, SwapContext.terms]
    | some secret =>
      refine .inl ?_
      simp [generateSecret, hsecret, base, setup]
  | lock hfirst hplanned hsecond hcurrent =>
    exact .inl (lockMyLeg_base.trans
      ((refreshed_of_refresh hfirst).trans (refreshed_of_refresh hsecond)).base)
  | redeem hfirst hplanned hsecond hcurrent =>
    exact .inl (redeemCounterpartyLeg_base.trans
      ((refreshed_of_refresh hfirst).trans (refreshed_of_refresh hsecond)).base)
  | refund hfirst hplanned => exact .inl (refund_base.trans (refreshed_of_refresh hfirst).base)
  | abort hfirst hplanned => exact .inl (refreshed_of_refresh hfirst).base

end Base

end Executor

end Kael.Swapkit
