import Kael.Swapkit.LockIds
import Kael.Swapkit.Looks
import Kael.Swapkit.Runner

/-!
# What an Executor Ever Sends

An executor is set up for one lock under one hashlock. Whatever clock, endpoints
and transactions answer to its steps, it sends that lock, redeems with preimages
of that hashlock, and refunds of that lock, and nothing else
(`executor_sends_as_set_up`).
-/

namespace Kael.Swapkit

namespace Executor

/-- The id of the lock that the executor is set up for. -/
def ownLockId (cr : Crypto) (e : Executor) (h : Bytes32) : Bytes32 :=
  computeContractId cr e.lockSender e.ctx.myRecipient e.ctx.myToken e.ctx.myAmount h
    e.ctx.myTimelock

/-- What an executor set up as `e` may send under the hashlock `h`. -/
inductive MaySend (cr : Crypto) (e : Executor) (h : Bytes32) : TxCall → Prop
  | lock (io : TxAnswers) : MaySend cr e h (.lock (e.sendLockMyLeg cr e.ctx.myRecipient
      e.ctx.myToken e.ctx.myAmount h e.ctx.myTimelock io))
  | redeem (cid p : Bytes32) (io : TxAnswers) (hp : cr.hashlockOf p = h) :
    MaySend cr e h (.redeem (Swapkit.redeem cid p io))
  | refund (io : TxAnswers) : MaySend cr e h (.refund (e.sendRefund (e.ownLockId cr h) io))

/-- An executor that is set up for `h`, on its way. -/
structure SetUp (cr : Crypto) (h : Bytes32) (e : Executor) : Prop where
  coherent : e.Coherent
  sees : e.SeesPreimages cr h
  secret : ∀ p, e.ctx.secret = some p → cr.hashlockOf p = h
  ownContractId : ∀ id, e.ownContractId = some id → id = e.ownLockId cr h

section SetUp

variable {cr : Crypto} {h : Bytes32} {e e' start : Executor} {io : StepAnswers} {call : TxCall}

theorem ownLockId_of_base (hbase : e.base = e'.base) : e.ownLockId cr h = e'.ownLockId cr h :=
  show e.base.ownLockId cr h = e'.base.ownLockId cr h from congrArg (ownLockId cr · h) hbase

/-- What an executor may send is fixed by its base. -/
theorem MaySend.of_base (hbase : e.base = e'.base) (hsend : e.MaySend cr h call) :
    e'.MaySend cr h call := by
  cases hsend with
  | lock io =>
    have hlock : ∀ x : Executor, x.base = e.base → x.MaySend cr h (.lock (e.base.sendLockMyLeg cr
        e.base.ctx.myRecipient e.base.ctx.myToken e.base.ctx.myAmount h e.base.ctx.myTimelock
        io)) := by
      intro x hx
      rw [← hx]
      exact .lock io
    exact hlock e' hbase.symm
  | redeem cid p io hp => exact .redeem cid p io hp
  | refund io =>
    have hrefund : ∀ x : Executor, x.base = e.base →
        x.MaySend cr h (.refund (e.base.sendRefund (e.base.ownLockId cr h) io)) := by
      intro x hx
      rw [← hx]
      exact .refund io
    exact hrefund e' hbase.symm

/-- A lock that is sent without an error has the id of what was to be locked. -/
theorem sendLockMyLeg_contractId {tx : TxAnswers} {recipient token : Address} {amount : U128}
    {timelock : U64} {locked : Locked}
    (hresult : (e.sendLockMyLeg cr recipient token amount h timelock tx).result = .ok locked) :
    locked.contractId = computeContractId cr e.lockSender recipient token amount h timelock := by
  unfold sendLockMyLeg at hresult
  unfold lockSender
  cases hconfig : e.ownSettlementLock with
  | none =>
    rw [hconfig] at hresult
    dsimp only at hresult
    unfold Swapkit.lock at hresult
    split_ifs at hresult
    exact (sendLock_ok hresult).1
  | some config =>
    rw [hconfig] at hresult
    dsimp only at hresult
    unfold lockViaSettlement at hresult
    split_ifs at hresult
    exact (sendLock_ok hresult).1

/-- The own id after a lock is what it was, or the lock's. -/
theorem lockMyLeg_ownContractId {tx : TxAnswers} {id : Bytes32}
    (hid : (e.lockMyLeg cr e.ctx.myRecipient e.ctx.myToken e.ctx.myAmount h e.ctx.myTimelock
      tx).exec.ownContractId = some id) :
    e.ownContractId = some id ∨ id = e.ownLockId cr h := by
  unfold lockMyLeg at hid
  split_ifs at hid
  · exact .inl hid
  · dsimp only at hid
    split at hid
    · exact .inl hid
    · rename_i locked hresult
      cases hid
      exact .inr (sendLockMyLeg_contractId hresult)

theorem redeemCounterpartyLeg_ownContractId {p : Bytes32} {tx : TxAnswers} :
    (e.redeemCounterpartyLeg p tx).exec.ownContractId = e.ownContractId := by
  unfold redeemCounterpartyLeg
  cases e.counterpartyContractId with
  | none => rfl
  | some contractId =>
    dsimp only
    split <;> rfl

theorem refund_ownContractId {tx : TxAnswers} :
    (e.refund tx).exec.ownContractId = e.ownContractId := by
  unfold refund
  split_ifs
  · rfl
  · cases hcid : e.ownContractId with
    | none => exact hcid
    | some contractId =>
      dsimp only
      split
      · exact hcid
      · rfl

/-! ### One step -/

/-- What an executor on the same base needs to be set up as well. -/
theorem SetUp.of_base (hup : e.SetUp cr h) (hbase : e'.base = e.base)
    (hcoherent : e'.Coherent) (hsees : e'.SeesPreimages cr h)
    (hown : ∀ id, e'.ownContractId = some id → e.ownContractId = some id ∨ id = e.ownLockId cr h) :
    e'.SetUp cr h := by
  refine ⟨hcoherent, hsees, ?_, ?_⟩
  · have hsecret : e'.ctx.secret = e.ctx.secret :=
      show e'.base.ctx.secret = e.base.ctx.secret from by rw [hbase]
    rw [hsecret]
    exact hup.secret
  · intro id hid
    rw [ownLockId_of_base hbase]
    exact (hown id hid).elim (hup.ownContractId id) fun h => h

/-- Observing leaves it set up. -/
theorem SetUp.refreshed {result : Fallible ExecutorError Unit} {answers : RefreshAnswers}
    (hup : e.SetUp cr h) (hrefresh : e.refresh cr answers = (e', result)) :
    e'.SetUp cr h ∧ e'.base = e.base := by
  have hrefreshed := refreshed_of_refresh hrefresh
  refine ⟨hup.of_base hrefreshed.base (hup.coherent.refreshed hrefreshed)
    (hup.sees.refresh hrefresh).1 fun id hid => .inl ?_, hrefreshed.base⟩
  rwa [← hrefreshed.ownContractId]

/-- The secret of a redeem is the taker's own, or has been seen. -/
theorem SetUp.redeems {p : Bytes32} (hup : e.SetUp cr h)
    (hplanned : nextAction e.state e.ctx = .redeemCounterpartyLeg p) : cr.hashlockOf p = h := by
  obtain ⟨-, -, hsecret, -⟩ | ⟨-, -, hrevealed⟩ := nextAction_redeem.mp hplanned
  · exact hup.secret p hsecret
  · exact hup.sees.revealed p hrevealed

/-- **A step** of an executor that is set up sends what it may, and leaves it set
    up as it was. -/
theorem SetUp.step (hup : e.SetUp cr h) (io : StepAnswers) :
    (e.step cr io).exec.SetUp cr h ∧ (e.step cr io).exec.base = e.base ∧
      ∀ call, (e.step cr io).tx = some call → e.MaySend cr h call := by
  have hcoherent := (@Coherent.step cr e hup.coherent io).coherent
  have hsees := @SeesPreimages.step cr h e io hup.sees hup.coherent
  have hcases := step_cases cr e io
  -- One case for each kind of step, whose last refresh has left the executor set up.
  generalize e.step cr io = s at hcases hcoherent hsees ⊢
  cases hcases with
  | idle hrefreshed hidle =>
    refine ⟨hup.of_base hrefreshed.base hcoherent hsees fun id hid => .inl ?_, hrefreshed.base,
      fun call hcall => ?_⟩
    · rwa [← hrefreshed.ownContractId]
    · cases hcall
  | @generate e₁ hfirst hplanned =>
    obtain ⟨hup₁, hbase⟩ := hup.refreshed hfirst
    -- The taker has its secret already.
    obtain ⟨hrole, -⟩ := nextAction_generateSecret.mp hplanned
    obtain ⟨secret, hsecret⟩ := Option.isSome_iff_exists.mp (hup₁.coherent.secret hrole)
    have hexec : (e₁.generateSecret cr io.random).exec =
        { e₁ with state := advance e₁.state .secretGenerated } := by
      simp [generateSecret, hsecret]
    have hbase' : (e₁.generateSecret cr io.random).exec.base = e₁.base := by
      rw [hexec]
      rfl
    refine ⟨hup₁.of_base hbase' hcoherent hsees fun id hid => .inl ?_, hbase'.trans hbase,
      fun call hcall => ?_⟩
    · rwa [hexec] at hid
    · cases hcall
  | @lock e₁ e₂ recipient token amount hashlock timelock hfirst hplanned hsecond hcurrent =>
    obtain ⟨hup₁, hbase₁⟩ := hup.refreshed hfirst
    obtain ⟨hup₂, hbase₂⟩ := hup₁.refreshed hsecond
    -- The lock is the executor's own, under its hashlock.
    obtain ⟨hhashlock, hlock, -⟩ := nextAction_lockMyLeg.mp hcurrent
    cases hup₂.sees.hashlock.symm.trans hhashlock
    cases hlock
    refine ⟨hup₂.of_base lockMyLeg_base hcoherent hsees fun id hid => lockMyLeg_ownContractId hid,
      ?_, fun call hcall => ?_⟩
    · rw [lockMyLeg_base, hbase₂, hbase₁]
    · rw [lockMyLeg_tx hcall]
      exact (MaySend.lock io.tx).of_base (hbase₂.trans hbase₁)
  | @redeem e₁ e₂ p hfirst hplanned hsecond hcurrent =>
    obtain ⟨hup₁, hbase₁⟩ := hup.refreshed hfirst
    obtain ⟨hup₂, hbase₂⟩ := hup₁.refreshed hsecond
    refine ⟨hup₂.of_base redeemCounterpartyLeg_base hcoherent hsees fun id hid => .inl ?_, ?_,
      fun call hcall => ?_⟩
    · rwa [redeemCounterpartyLeg_ownContractId] at hid
    · rw [redeemCounterpartyLeg_base, hbase₂, hbase₁]
    · obtain ⟨cid, -, rfl⟩ := redeemCounterpartyLeg_tx hcall
      exact .redeem cid p io.tx (hup₂.redeems hcurrent)
  | @refund e₁ hfirst hplanned =>
    obtain ⟨hup₁, hbase⟩ := hup.refreshed hfirst
    refine ⟨hup₁.of_base refund_base hcoherent hsees fun id hid => .inl ?_, ?_,
      fun call hcall => ?_⟩
    · rwa [refund_ownContractId] at hid
    · rw [refund_base, hbase]
    · obtain ⟨cid, hcid, rfl⟩ := refund_tx hcall
      rw [hup₁.ownContractId cid hcid]
      exact (MaySend.refund io.tx).of_base hbase
  | @abort e₁ reason hfirst hplanned =>
    obtain ⟨hup₁, hbase⟩ := hup.refreshed hfirst
    refine ⟨hup₁.of_base rfl hcoherent hsees fun id hid => .inl hid, hbase, fun call hcall => ?_⟩
    cases hcall

/-! ### Runs -/

/-- A new executor that has observed nothing is set up for its hashlock. -/
theorem Started.setUp (hstarted : e.Started cr) (hhashlock : e.ctx.hashlock = some h)
    (htracker : e.ownObserver.tracker.Genuine cr)
    (hrevealed : ∀ p, e.ctx.revealedSecret = some p → cr.hashlockOf p = h)
    (hsecret : ∀ p, e.ctx.secret = some p → cr.hashlockOf p = h) : e.SetUp cr h where
  coherent := hstarted.coherent
  sees := ⟨hhashlock, htracker, hrevealed⟩
  secret := hsecret
  ownContractId id hid := by
    rw [hstarted.fresh] at hid
    cases hid

theorem SetUp.sends (hup : start.SetUp cr h) (ios : List StepAnswers) :
    ∀ s ∈ start.steps cr ios, ∀ call, s.tx = some call → start.MaySend cr h call := by
  have hkeep : ∀ e (io : StepAnswers), e.SetUp cr h ∧ e.base = start.base →
      (next cr e io).SetUp cr h ∧ (next cr e io).base = start.base := by
    rintro e io ⟨hup, hbase⟩
    obtain ⟨hup', hbase', -⟩ := hup.step io
    exact ⟨hup', hbase'.trans hbase⟩
  refine Runs.trace_forall hkeep ?_ ⟨hup, rfl⟩
  rintro e io ⟨hup, hbase⟩ call hcall
  obtain ⟨-, -, hsends⟩ := hup.step io
  exact (hsends call hcall).of_base hbase

end SetUp

/-- **What an executor ever sends**: over any steps, however they are answered,
    its own lock, redeems with preimages of its hashlock, and refunds of its own
    lock. -/
theorem executor_sends_as_set_up {cr : Crypto} {h : Bytes32} {start : Executor}
    (hstarted : start.Started cr) (hhashlock : start.ctx.hashlock = some h)
    (hsecret : ∀ p, start.ctx.secret = some p → cr.hashlockOf p = h)
    (hrevealed : start.ctx.revealedSecret = none)
    (hobserver : start.ownObserver = .new start.ownObserver.cpChainId) (ios : List StepAnswers) :
    ∀ s ∈ start.steps cr ios, ∀ call, s.tx = some call → start.MaySend cr h call := by
  refine (hstarted.setUp hhashlock ?_ ?_ hsecret).sends ios
  · rw [hobserver]
    exact Maestro.SwapTracker.Genuine.new
  · rw [hrevealed]
    exact nofun

end Executor

/-- A taker that locks and takes its leg back sends twice. -/
theorem lock_and_refund_sends_as_set_up :
    (Sample.taker.steps Exchange.Sample.crypto Sample.lockAndRefund).countP (fun s => s.tx.isSome) =
      2 ∧
    ∀ s ∈ Sample.taker.steps Exchange.Sample.crypto Sample.lockAndRefund, ∀ call,
      s.tx = some call → Sample.taker.MaySend Exchange.Sample.crypto
        (Exchange.Sample.crypto.hashlockOf 42) call := by
  have hstarted : Sample.taker.Started Exchange.Sample.crypto :=
    ⟨rfl, .inl ⟨rfl, .inr rfl, 42, rfl, rfl⟩⟩
  refine ⟨by decide, Executor.executor_sends_as_set_up hstarted rfl ?_ rfl rfl _⟩
  intro p hp
  cases hp
  rfl

end Kael.Swapkit
