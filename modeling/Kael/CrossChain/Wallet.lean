import Kael.Contracts.Transactions
import Kael.Swapkit.Progress

/-!
# A Wallet and Its Two Chains

The executor sends its transactions to two chains on which everybody else makes
transactions, too. What becomes of a transaction, and whether the executor gets
its receipt, is decided by its `Fate`.

The executor takes every receipt for a success, and stores the id of its lock
only once it has the receipt (`recorded_step`).
-/

namespace Kael.CrossChain

open Exchange (Deployment State Call Later Mined no_frames_of_run)
open Swapkit (Executor Stepped TxCall StepAnswers Receipt TxError TxAnswers Sending Locked
  nextAction advance nextAction_lockMyLeg nextAction_generateSecret nextAction_redeem)
open Swapkit.Executor (refreshed_of_refresh)

/-! ## The calls of a step -/

/-- An approval comes before the call that needs it. -/
def isApproval : Call → Bool
  | .approve .. => true
  | _ => false

/-- The call creates a record. -/
def IsLock : Call → Prop
  | .newSwap .. => True
  | .settleLeg .. => True
  | _ => False

/-- The call that was sent, after any approval. -/
def sentCall {α : Type} (sending : Sending α) : Option Call :=
  sending.sent.find? fun call => !isApproval call

/-- The call that a step has sent to its own chain. -/
def ownCall (s : Stepped) : Option Call :=
  match s.tx with
  | some (.lock sending) => sentCall sending
  | some (.refund sending) => sentCall sending
  | _ => none

/-- The call that a step has sent to the counterparty's chain. -/
def counterpartyCall (s : Stepped) : Option Call :=
  match s.tx with
  | some (.redeem sending) => sentCall sending
  | _ => none

/-- The record that a step has redeemed, for all it knows. -/
def redeemedId (s : Stepped) : Option Bytes32 :=
  match s.tx with
  | some (.redeem ⟨.ok _, [.redeem contractId _]⟩) => some contractId
  | _ => none

/-! ## Transactions -/

/-- What becomes of a transaction until the end of the step that has sent it. -/
inductive Fate where
  /-- Mined with success, and the receipt is obtained. -/
  | confirmed
  /-- Mined with failure, and the receipt is obtained. -/
  | reverted
  /-- Mined with success, but the receipt is not obtained. -/
  | unseen
  /-- Not mined with success, and no receipt. -/
  | dropped
deriving DecidableEq

/-- The chain before and after a transaction of `x`, which is answered `receipt`.
    The receipt of a mined transaction is obtained whatever its status is. -/
inductive Sent (cr : Crypto) (D : Deployment) (x : Address) (call : Call)
    (receipt : Except TxError Receipt) : Fate → State → State → Prop where
  | confirmed {s s₁ s₂ s' : State} {r : Receipt} (now : Uint256) (hreceipt : receipt = .ok r)
    (hstatus : r.status = true) (hbefore : Later cr D s s₁) (hmined : Mined cr D now x call s₁ s₂)
    (hafter : Later cr D s₂ s') : Sent cr D x call receipt .confirmed s s'
  | reverted {s s' : State} {r : Receipt} (hreceipt : receipt = .ok r) (hstatus : r.status = false)
    (hlater : Later cr D s s') : Sent cr D x call receipt .reverted s s'
  | unseen {s s₁ s₂ s' : State} {e : TxError} (now : Uint256) (hreceipt : receipt = .error e)
    (hbefore : Later cr D s s₁) (hmined : Mined cr D now x call s₁ s₂)
    (hafter : Later cr D s₂ s') : Sent cr D x call receipt .unseen s s'
  | dropped {s s' : State} {e : TxError} (hreceipt : receipt = .error e)
    (hlater : Later cr D s s') : Sent cr D x call receipt .dropped s s'

/-! ## Worlds -/

/-- An executor, its chains, and what has come of its calls. -/
structure Wallet where
  exec : Executor
  own : State
  counterparty : State
  /-- The lock calls that were sent and may still be mined. -/
  pending : List Call
  /-- The records that the executor's lock calls have created. -/
  locks : List Bytes32
  /-- The record of the last redeem that the executor holds for confirmed. -/
  redeemed : Option Bytes32

/-- What a wallet's run is made of. -/
inductive Event where
  /-- Transactions of others only. -/
  | others
  /-- A pending lock call is mined with success. -/
  | minedLate (call : Call)
  /-- A step of the executor that sends no call, or no more than an approval. -/
  | quiet (io : StepAnswers)
  /-- A step that sends a call. -/
  | sends (io : StepAnswers) (call : Call) (fate : Fate)

/-- The record that a call of the executor creates on its own chain. -/
def Wallet.lockId (cr : Crypto) (A : Deployment) (w : Wallet) (call : Call) : Option Bytes32 :=
  call.lockId cr A w.exec.ownSigner

/-- The wallet after a step of its executor, with the chains as they are then. -/
def Wallet.stepped (cr : Crypto) (w : Wallet) (io : StepAnswers) (own counterparty : State) :
    Wallet :=
  let s := w.exec.step cr io
  { w with
    exec := s.exec
    own := own
    counterparty := counterparty
    redeemed := (redeemedId s).or w.redeemed }

/-- A lock call is pending if it was dropped, and has created its record if it
    was mined with success. -/
def Wallet.settled (cr : Crypto) (A : Deployment) (w : Wallet) (call : Call) (fate : Fate) :
    Wallet :=
  match w.lockId cr A call with
  | none => w
  | some id =>
    match fate with
    | .confirmed => { w with locks := id :: w.locks }
    | .unseen => { w with locks := id :: w.locks }
    | .dropped => { w with pending := call :: w.pending }
    | .reverted => w

inductive Wallet.Step (cr : Crypto) (A B : Deployment) : Wallet → Event → Wallet → Prop where
  | others {w : Wallet} {own counterparty : State} (hown : Later cr A w.own own)
    (hcounterparty : Later cr B w.counterparty counterparty) :
    Step cr A B w .others { w with own := own, counterparty := counterparty }
  | minedLate {w : Wallet} {call : Call} {own : State} (now : Uint256) (hpending : call ∈ w.pending)
    (hmined : Mined cr A now w.exec.ownSigner call w.own own) :
    Step cr A B w (.minedLate call)
      { w with
        own := own
        pending := w.pending.erase call
        locks := (w.lockId cr A call).toList ++ w.locks }
  | quiet {w : Wallet} {own counterparty : State} (io : StepAnswers)
    (hownCall : ownCall (w.exec.step cr io) = none)
    (hcounterpartyCall : counterpartyCall (w.exec.step cr io) = none)
    (hown : Later cr A w.own own) (hcounterparty : Later cr B w.counterparty counterparty) :
    Step cr A B w (.quiet io) (w.stepped cr io own counterparty)
  | sendsOwn {w : Wallet} {own counterparty : State} (io : StepAnswers) {call : Call} {fate : Fate}
    (hcall : ownCall (w.exec.step cr io) = some call)
    (hsent : Sent cr A w.exec.ownSigner call io.tx.call.receipt fate w.own own)
    (hcounterparty : Later cr B w.counterparty counterparty) :
    Step cr A B w (.sends io call fate)
      ((w.stepped cr io own counterparty).settled cr A call fate)
  | sendsCounterparty {w : Wallet} {own counterparty : State} (io : StepAnswers) {call : Call}
    {fate : Fate} (hcall : counterpartyCall (w.exec.step cr io) = some call)
    (hown : Later cr A w.own own)
    (hsent : Sent cr B w.exec.counterpartySigner call io.tx.call.receipt fate w.counterparty
      counterparty) :
    Step cr A B w (.sends io call fate) (w.stepped cr io own counterparty)

/-- Runs in which every event satisfies `P`. -/
def Wallet.Run (cr : Crypto) (A B : Deployment) (P : Event → Prop) : Wallet → Wallet → Prop :=
  Relation.ReflTransGen fun w w' => ∃ event, w.Step cr A B event w' ∧ P event

/-- Run rule. -/
theorem Wallet.Run.invariant {cr : Crypto} {A B : Deployment} {P : Event → Prop}
    {I : Wallet → Prop} (hI : ∀ w event w', I w → w.Step cr A B event w' → P event → I w')
    {w w' : Wallet} (hw : I w) (h : w.Run cr A B P w') : I w' := by
  induction h with
  | refl => exact hw
  | tail _ hstep ih =>
    obtain ⟨event, hstep, hevent⟩ := hstep
    exact hI _ event _ ih hstep hevent

/-- A new wallet between blocks of the chains that its executor is set up for. -/
structure Wallet.New (A B : Deployment) (w : Wallet) : Prop where
  ownHtlc : w.exec.ownHtlc = A.htlc
  settlement : ∀ config, w.exec.ownSettlementLock = some config → config.settlement = A.settlement
  counterpartyHtlc : w.exec.counterpartyHtlc = B.htlc
  ownSigner : A.Account w.exec.ownSigner
  counterpartySigner : B.Account w.exec.counterpartySigner
  ownFrames : w.own.frames = []
  counterpartyFrames : w.counterparty.frames = []
  ownContractId : w.exec.ownContractId = none
  pending : w.pending = []
  locks : w.locks = []
  redeemed : w.redeemed = none

/-! ## What a step records -/

/-- A lock was sent: its call creates the record whose id is returned, and the id
    is returned exactly if the receipt is obtained. -/
structure LockSent (cr : Crypto) (A : Deployment) (x : Address) (io : TxAnswers)
    (sending : Sending Locked) : Prop where
  returned : ∀ locked, sending.result = .ok locked →
    (∃ call, sentCall sending = some call ∧ call.lockId cr A x = some locked.contractId) ∧
      ∃ r, io.call.receipt = .ok r
  sent : ∀ call, sentCall sending = some call →
    ∃ id, call.lockId cr A x = some id ∧ ∀ r, io.call.receipt = .ok r →
      ∃ locked, sending.result = .ok locked ∧ locked.contractId = id

/-- The executor records what its transactions return, and nothing else. -/
structure Recorded (cr : Crypto) (A : Deployment) (e : Executor) (io : TxAnswers) (s : Stepped) :
    Prop where
  ownSigner : s.exec.ownSigner = e.ownSigner
  counterpartySigner : s.exec.counterpartySigner = e.counterpartySigner
  ownSettlementLock : s.exec.ownSettlementLock = e.ownSettlementLock
  ownContractId : s.exec.ownContractId = e.ownContractId ∨
    e.ownContractId = none ∧ ∃ sending locked, s.tx = some (.lock sending) ∧
      sending.result = .ok locked ∧ s.exec.ownContractId = some locked.contractId
  lock : ∀ sending, s.tx = some (.lock sending) → LockSent cr A e.ownSigner io sending ∧
    ∀ locked, sending.result = .ok locked → s.exec.ownContractId = some locked.contractId
  redeem : ∀ sending, s.tx = some (.redeem sending) →
    ∃ contractId secret, sending = Swapkit.redeem contractId secret io
  redeemed : s.exec.state = .counterpartyRedeemed →
    e.state = .counterpartyRedeemed ∨ (redeemedId s).isSome
  refund : ∀ sending, s.tx = some (.refund sending) →
    ∃ contractId, e.ownContractId = some contractId ∧
      (sending = Swapkit.refund contractId io ∨ sending = Swapkit.refundViaSettlement contractId io)
  refunded : s.exec.state = .refunded → e.state = .refunded ∨
    ∃ sending hash, s.tx = some (.refund sending) ∧ sending.result = .ok hash

section Recording

variable {cr : Crypto} {A : Deployment} {e e₁ : Executor} {io : TxAnswers}

/-- The lock was sent, and its receipt decides. -/
theorem LockSent.of_receipt {sending : Sending Locked} {x : Address} {id : Bytes32} {call : Call}
    (hsent : sentCall sending = some call) (hid : call.lockId cr A x = some id)
    (hresult : sending.result =
      io.call.receipt.map fun receipt => Locked.mk id receipt.transactionHash) :
    LockSent cr A x io sending := by
  constructor
  · intro locked hlocked
    rw [hresult] at hlocked
    -- The id is returned with the receipt, whatever the status of the receipt is.
    cases hreceipt : io.call.receipt with
    | error failure =>
      rw [hreceipt] at hlocked
      cases hlocked
    | ok r =>
      rw [hreceipt] at hlocked
      cases hlocked
      exact ⟨⟨call, hsent, hid⟩, r, rfl⟩
  · intro call' hcall'
    obtain rfl := Option.some.inj (hsent.symm.trans hcall')
    refine ⟨id, hid, fun r hr => ⟨⟨id, r.transactionHash⟩, ?_, rfl⟩⟩
    rw [hresult, hr]
    rfl

/-- Nothing but an approval was sent. -/
theorem LockSent.of_failure {sending : Sending Locked} {x : Address} {failure : TxError}
    (hsent : sentCall sending = none) (hresult : sending.result = .error failure) :
    LockSent cr A x io sending := by
  constructor
  · intro locked hlocked
    rw [hresult] at hlocked
    cases hlocked
  · intro call hcall
    rw [hsent] at hcall
    cases hcall

theorem lockSent_sendLock {spender token x : Address} {amount : U128} {id : Bytes32} {call : Call}
    (hcall : isApproval call = false) (hid : call.lockId cr A x = some id) :
    LockSent cr A x io (Swapkit.sendLock spender token amount id call io) := by
  unfold Swapkit.sendLock
  dsimp only
  split_ifs with htoken
  · exact .of_receipt (by simp [sentCall, hcall]) hid rfl
  · cases Swapkit.approveExact amount io.approve with
    | error failure => exact .of_failure rfl rfl
    | ok u =>
      have hskipped : isApproval (.approve token spender amount.toNat) = true := rfl
      exact .of_receipt (by simp [sentCall, hskipped, hcall]) hid rfl

theorem lockSent_sendLockMyLeg {recipient token : Address} {amount : U128} {hashlock : Bytes32}
    {timelock : U64}
    (hsettlement : ∀ config, e.ownSettlementLock = some config → config.settlement = A.settlement) :
    LockSent cr A e.ownSigner io
      (e.sendLockMyLeg cr recipient token amount hashlock timelock io) := by
  unfold Executor.sendLockMyLeg
  cases hconfig : e.ownSettlementLock with
  -- Without Settlement the lock goes to the HTLC, which reads the sender off the call.
  | none =>
    dsimp only
    unfold Swapkit.lock
    split_ifs
    · exact .of_failure rfl rfl
    · exact lockSent_sendLock rfl rfl
  | some config =>
    dsimp only
    unfold Swapkit.lockViaSettlement
    split_ifs
    · exact .of_failure rfl rfl
    -- Through Settlement the record is Settlement's, whose address the configuration names.
    · rw [hsettlement config hconfig]
      exact lockSent_sendLock rfl rfl

/-- A step that sends nothing, and does not settle anything. -/
theorem Recorded.of_silent {s : Stepped} (hrefreshed : Executor.Refreshed cr e e₁)
    (hexec : s.exec = { e₁ with ctx := s.exec.ctx, state := s.exec.state }) (htx : s.tx = none)
    (hstate : s.exec.state = e₁.state ∨
      s.exec.state ≠ .counterpartyRedeemed ∧ s.exec.state ≠ .refunded) :
    Recorded cr A e io s := by
  -- A silent step does not end the swap: the state is the old one or none of the two.
  have hkept : s.exec.state = .counterpartyRedeemed ∨ s.exec.state = .refunded →
      s.exec.state = e.state := by
    intro hover
    rw [← hrefreshed.state]
    rcases hstate with hsame | ⟨hnotRedeemed, hnotRefunded⟩
    · exact hsame
    · exact absurd hover (not_or.mpr ⟨hnotRedeemed, hnotRefunded⟩)
  refine ⟨?_, ?_, ?_, .inl ?_, ?_, ?_, ?_, ?_, ?_⟩
  · rw [hexec]
    exact hrefreshed.ownSigner
  · rw [hexec]
    exact hrefreshed.counterpartySigner
  · rw [hexec]
    exact hrefreshed.ownSettlementLock
  · rw [hexec]
    exact hrefreshed.ownContractId
  · simp [htx]
  · simp [htx]
  · exact fun hredeemed => .inl ((hkept (.inl hredeemed)).symm.trans hredeemed)
  · simp [htx]
  · exact fun hrefunded => .inl ((hkept (.inr hrefunded)).symm.trans hrefunded)

/-- A transaction without a receipt leaves state and id alone. -/
theorem Recorded.of_failed {tx : TxCall} {failure : TxError}
    (hrefreshed : Executor.Refreshed cr e e₁)
    (hlock : ∀ sending, tx = .lock sending → LockSent cr A e.ownSigner io sending ∧
      ∀ locked, sending.result ≠ .ok locked)
    (hredeem : ∀ sending, tx = .redeem sending →
      ∃ contractId secret, sending = Swapkit.redeem contractId secret io)
    (hrefund : ∀ sending, tx = .refund sending → ∃ contractId, e.ownContractId = some contractId ∧
      (sending = Swapkit.refund contractId io ∨
        sending = Swapkit.refundViaSettlement contractId io)) :
    Recorded cr A e io ⟨e₁, .err (.tx failure), some tx⟩ where
  ownSigner := hrefreshed.ownSigner
  counterpartySigner := hrefreshed.counterpartySigner
  ownSettlementLock := hrefreshed.ownSettlementLock
  ownContractId := .inl hrefreshed.ownContractId
  lock := by
    intro sending htx
    obtain ⟨hsent, hfailed⟩ := hlock sending (Option.some.inj htx)
    exact ⟨hsent, fun locked hlocked => absurd hlocked (hfailed locked)⟩
  redeem sending htx := hredeem sending (Option.some.inj htx)
  redeemed hredeemed := .inl (hrefreshed.state.symm.trans hredeemed)
  refund sending htx := hrefund sending (Option.some.inj htx)
  refunded hrefunded := .inl (hrefreshed.state.symm.trans hrefunded)

theorem recorded_lockMyLeg (hrefreshed : Executor.Refreshed cr e e₁)
    (hsettlement : ∀ config, e.ownSettlementLock = some config → config.settlement = A.settlement)
    {recipient token : Address} {amount : U128} {hashlock : Bytes32} {timelock : U64}
    (hplanned : nextAction e₁.state e₁.ctx =
      .lockMyLeg recipient token amount hashlock timelock) :
    Recorded cr A e io (e₁.lockMyLeg cr recipient token amount hashlock timelock io) := by
  -- A lock leads to a state in which the swap goes on.
  have hnotOver : advance e₁.state .myLegConfirmed ≠ .counterpartyRedeemed ∧
      advance e₁.state .myLegConfirmed ≠ .refunded := by
    obtain ⟨-, -, ⟨-, hstate⟩ | ⟨-, hstate, -⟩⟩ := nextAction_lockMyLeg.mp hplanned
    · simp [hstate, advance]
    · simp [hstate, advance]
  unfold Executor.lockMyLeg
  split_ifs with hid
  · exact .of_silent hrefreshed rfl rfl (.inr hnotOver)
  · have hnone : e₁.ownContractId = none := Option.not_isSome_iff_eq_none.mp hid
    have hsent : LockSent cr A e.ownSigner io
        (e₁.sendLockMyLeg cr recipient token amount hashlock timelock io) := by
      rw [← hrefreshed.ownSigner]
      apply lockSent_sendLockMyLeg
      rw [hrefreshed.ownSettlementLock]
      exact hsettlement
    dsimp only
    cases hresult : (e₁.sendLockMyLeg cr recipient token amount hashlock timelock io).result with
    -- A lock without its receipt stores no id.
    | error failure =>
      apply Recorded.of_failed hrefreshed
      · rintro sending ⟨⟩
        exact ⟨hsent, fun locked hlocked => by simp [hresult] at hlocked⟩
      · intro _ hother
        cases hother
      · intro _ hother
        cases hother
    -- A lock with its receipt stores the id, which was not set before.
    | ok locked =>
      refine ⟨hrefreshed.ownSigner, hrefreshed.counterpartySigner, hrefreshed.ownSettlementLock,
        .inr ⟨hrefreshed.ownContractId.symm.trans hnone, _, locked, rfl, hresult, rfl⟩, ?_, ?_,
        ?_, ?_, ?_⟩
      · rintro sending ⟨⟩
        refine ⟨hsent, fun locked' hlocked' => ?_⟩
        rw [hresult] at hlocked'
        cases hlocked'
        rfl
      · intro _ hother
        cases hother
      · exact fun hredeemed => absurd hredeemed hnotOver.1
      · intro _ hother
        cases hother
      · exact fun hrefunded => absurd hrefunded hnotOver.2

theorem recorded_redeem (hrefreshed : Executor.Refreshed cr e e₁) {secret : Bytes32}
    (hplanned : nextAction e₁.state e₁.ctx = .redeemCounterpartyLeg secret) :
    Recorded cr A e io (e₁.redeemCounterpartyLeg secret io) := by
  unfold Executor.redeemCounterpartyLeg
  cases hcid : e₁.counterpartyContractId with
  | none => exact .of_silent hrefreshed rfl rfl (.inl rfl)
  | some cid =>
    dsimp only
    -- A redeem without its receipt leaves the state alone.
    cases hresult : (Swapkit.redeem cid secret io).result with
    | error failure =>
      apply Recorded.of_failed hrefreshed
      · intro _ hother
        cases hother
      · rintro sending ⟨⟩
        exact ⟨cid, secret, rfl⟩
      · intro _ hother
        cases hother
    | ok hash =>
      have hid : redeemedId ⟨{ e₁ with state := advance (if e₁.state = .waitingForSecret then
          advance e₁.state .secretObserved else e₁.state) .redeemConfirmed },
          .ok .redeemedCounterpartyLeg, some (.redeem (Swapkit.redeem cid secret io))⟩ =
          some cid := by
        have hreceipt : io.call.receipt.map Receipt.transactionHash = .ok hash := hresult
        simp [redeemedId, Swapkit.redeem, Swapkit.sendCall, hreceipt]
      refine ⟨hrefreshed.ownSigner, hrefreshed.counterpartySigner, hrefreshed.ownSettlementLock,
        .inl hrefreshed.ownContractId, ?_, ?_, ?_, ?_, ?_⟩
      · intro _ hother
        cases hother
      · rintro sending ⟨⟩
        exact ⟨cid, secret, rfl⟩
      · exact fun _ => .inr (Option.isSome_iff_exists.mpr ⟨cid, hid⟩)
      · intro _ hother
        cases hother
      -- A redeem does not lead to `refunded`.
      · intro hrefunded
        exfalso
        revert hrefunded
        obtain ⟨-, hstate, -⟩ | ⟨-, hstate | hstate, -⟩ := nextAction_redeem.mp hplanned <;>
          simp [hstate, advance]

theorem recorded_refund (hrefreshed : Executor.Refreshed cr e e₁) :
    Recorded cr A e io (e₁.refund io) := by
  unfold Executor.refund
  split_ifs
  · exact .of_silent hrefreshed rfl rfl (.inl rfl)
  · cases hcid : e₁.ownContractId with
    | none => exact .of_silent hrefreshed rfl rfl (.inl rfl)
    | some cid =>
      -- The leg was locked directly or through Settlement, and is refunded the same way.
      have hsent : e₁.sendRefund cid io = Swapkit.refund cid io ∨
          e₁.sendRefund cid io = Swapkit.refundViaSettlement cid io := by
        unfold Executor.sendRefund
        cases e₁.ownSettlementLock with
        | none => exact .inl rfl
        | some config => exact .inr rfl
      have hid : e.ownContractId = some cid := hrefreshed.ownContractId.symm.trans hcid
      dsimp only
      cases hresult : (e₁.sendRefund cid io).result with
      | error failure =>
        apply Recorded.of_failed hrefreshed
        · intro _ hother
          cases hother
        · intro _ hother
          cases hother
        · rintro sending ⟨⟩
          exact ⟨cid, hid, hsent⟩
      | ok hash =>
        refine ⟨hrefreshed.ownSigner, hrefreshed.counterpartySigner, hrefreshed.ownSettlementLock,
          .inl hid.symm, ?_, ?_, ?_, ?_, ?_⟩
        · intro _ hother
          cases hother
        · intro _ hother
          cases hother
        · intro hother
          cases hother
        · rintro sending ⟨⟩
          exact ⟨cid, hid, hsent⟩
        · exact fun _ => .inr ⟨_, hash, rfl, hresult⟩

/-- What a step records. -/
theorem recorded_step (cr : Crypto) {A : Deployment} {e : Executor}
    (hsettlement : ∀ config, e.ownSettlementLock = some config → config.settlement = A.settlement)
    (io : StepAnswers) : Recorded cr A e io.tx (e.step cr io) := by
  have hcases := Executor.step_cases cr e io
  generalize e.step cr io = s at hcases ⊢
  -- One case for each kind of step of the executor.
  cases hcases with
  | @idle e' result hrefreshed hidle => exact .of_silent hrefreshed rfl rfl (.inl rfl)
  | @generate e₁ hfirst hplanned =>
    obtain ⟨-, hstate⟩ := nextAction_generateSecret.mp hplanned
    refine .of_silent (refreshed_of_refresh hfirst) ?_ rfl (.inr ?_)
    · unfold Executor.generateSecret
      split_ifs <;> rfl
    · unfold Executor.generateSecret
      split_ifs <;> simp [hstate, advance]
  | @lock e₁ e₂ recipient token amount hashlock timelock hfirst hplanned hsecond hcurrent =>
    exact recorded_lockMyLeg ((refreshed_of_refresh hfirst).trans (refreshed_of_refresh hsecond))
      hsettlement hcurrent
  | @redeem e₁ e₂ secret hfirst hplanned hsecond hcurrent =>
    exact recorded_redeem ((refreshed_of_refresh hfirst).trans (refreshed_of_refresh hsecond))
      hcurrent
  | @refund e₁ hfirst hplanned => exact recorded_refund (refreshed_of_refresh hfirst)
  | @abort e₁ reason hfirst hplanned =>
    exact .of_silent (refreshed_of_refresh hfirst) rfl rfl (.inr ⟨by simp, by simp⟩)

end Recording

end Kael.CrossChain
