import Kael.Contracts.Deadlines
import Kael.Lib.BigEndian
import Kael.Swapkit.Progress

/-!
# The Taker's Secret

The executor of a taker on two chains under one clock. Whatever its endpoints,
its clock and its transactions answer, it reveals its secret for one lock only,
the one it has just verified at the id that it redeems (`revealed_step`). Until
then nobody else can redeem anything under the secret's hashlock. After that, if
the record was as the executor has read it, the taker is paid whenever the
redeem is mined before the gap has passed.
-/

namespace Kael.CrossChain

open NestedCalls
open Exchange (Deployment State Call Policy system anyTime Genesis Orderly Vested RefundedLate
  Undisclosed moves_records)
open HashedTimelock (Swap Terms)
open Swapkit (Executor Stepped SwapContext StepAnswers Sending TxAnswers ObservedLock Observes
  nextAction advance verifyCounterpartyLeg verifyCounterpartyLeg_safe nextAction_generateSecret
  nextAction_redeem)
open Swapkit.Executor (refreshed_of_refresh observed_of_refresh)

/-! ## What a step reveals -/

/-- The calls that a step has sent. -/
def sentCalls (s : Stepped) : List Call :=
  match s.tx with
  | none => []
  | some (.lock sending) => sending.sent
  | some (.redeem sending) => sending.sent
  | some (.refund sending) => sending.sent

/-- The id and the preimage of a redeem. -/
def revealedBy (call : Call) : Option (Bytes32 × Bytes32) :=
  match call with
  | .redeem contractId preimage => some (contractId, preimage)
  | _ => none

/-- The redeems that a step has sent. -/
def revealed (s : Stepped) : List (Bytes32 × Bytes32) := (sentCalls s).filterMap revealedBy

section Revealing

variable {cr : Crypto} {e : Executor} {io : StepAnswers}

theorem revealed_sendLockMyLeg {recipient token : Address} {amount : U128} {hashlock : Bytes32}
    {timelock : U64} {tx : TxAnswers} :
    (e.sendLockMyLeg cr recipient token amount hashlock timelock tx).sent.filterMap revealedBy =
      [] := by
  apply List.filterMap_eq_nil_iff.mpr
  intro c hc
  obtain ⟨spender, rfl⟩ | rfl | ⟨config, -, rfl⟩ := Executor.mem_sendLockMyLeg hc <;> rfl

theorem revealed_lockMyLeg {recipient token : Address} {amount : U128} {hashlock : Bytes32}
    {timelock : U64} {tx : TxAnswers} :
    revealed (e.lockMyLeg cr recipient token amount hashlock timelock tx) = [] := by
  unfold Executor.lockMyLeg
  split_ifs
  · rfl
  · dsimp only
    cases (e.sendLockMyLeg cr recipient token amount hashlock timelock tx).result with
    | error failure => exact revealed_sendLockMyLeg
    | ok locked => exact revealed_sendLockMyLeg

theorem revealed_redeemCounterpartyLeg {secret : Bytes32} {tx : TxAnswers} :
    revealed (e.redeemCounterpartyLeg secret tx) =
      (e.counterpartyContractId.map fun contractId => (contractId, secret)).toList := by
  unfold Executor.redeemCounterpartyLeg
  cases e.counterpartyContractId with
  | none => rfl
  | some contractId =>
    dsimp only
    cases (Swapkit.redeem contractId secret tx).result with
    | error failure => rfl
    | ok hash => rfl

theorem revealed_refund {tx : TxAnswers} : revealed (e.refund tx) = [] := by
  -- A refund carries no preimage, through Settlement or not.
  have hsent : ∀ contractId, (e.sendRefund contractId tx).sent.filterMap revealedBy = [] := by
    intro contractId
    unfold Executor.sendRefund
    cases e.ownSettlementLock with
    | none => rfl
    | some config => rfl
  unfold Executor.refund
  split_ifs
  · rfl
  · cases e.ownContractId with
    | none => rfl
    | some contractId =>
      dsimp only
      cases (e.sendRefund contractId tx).result with
      | error failure => exact hsent contractId
      | ok hash => exact hsent contractId

/-- **What a step reveals** it was asked for twice, and sends to the id that it
    has discovered at its second look. -/
theorem revealed_step {contractId preimage : Bytes32}
    (h : (contractId, preimage) ∈ revealed (e.step cr io)) :
    ∃ e₁ e₂, e.refresh cr io.first = (e₁, .ok ()) ∧
      nextAction e₁.state e₁.ctx = .redeemCounterpartyLeg preimage ∧
      e₁.refresh cr io.second = (e₂, .ok ()) ∧
      nextAction e₂.state e₂.ctx = .redeemCounterpartyLeg preimage ∧
      e₂.counterpartyContractId = some contractId := by
  have hcases := Executor.step_cases cr e io
  generalize e.step cr io = s at hcases h
  -- Only a redeem carries a preimage, and only after the second refresh.
  cases hcases with
  | idle hrefreshed hidle => cases h
  | generate hfirst hplanned => cases h
  | lock hfirst hplanned hsecond hcurrent =>
    rw [revealed_lockMyLeg] at h
    cases h
  | @redeem e₁ e₂ secret hfirst hplanned hsecond hcurrent =>
    rw [revealed_redeemCounterpartyLeg, Option.mem_toList, Option.map_eq_some_iff] at h
    obtain ⟨id, hid, hpair⟩ := h
    cases hpair
    exact ⟨e₁, e₂, hfirst, hplanned, hsecond, hcurrent, hid⟩
  | refund hfirst hplanned =>
    rw [revealed_refund] at h
    cases h
  | abort hfirst hplanned => cases h

end Revealing

/-! ## The executor between steps -/

/-- A taker that has its secret and has not locked yet. -/
structure HoldsSecret (cr : Crypto) (secret : Bytes32) (e : Executor) : Prop where
  role : e.ctx.role = .taker
  state : e.state = .secretGenerated
  hashlock : e.ctx.hashlock = some (cr.hashlockOf secret)
  secret : e.ctx.secret = some secret

/-- What every step of `start` keeps: its terms; and it looks for the
    counterparty's lock only after its own. -/
structure Follows (start e : Executor) : Prop where
  terms : e.ctx.terms = start.ctx.terms
  locked : e.state = .myLegLocked → e.ownContractId.isSome

section Following

variable {cr : Crypto} {start e e₁ : Executor}

theorem HoldsSecret.follows {secret : Bytes32} (h : HoldsSecret cr secret start) :
    Follows start start := by
  refine ⟨rfl, fun hlocked => ?_⟩
  rw [h.state] at hlocked
  cases hlocked

namespace Follows

theorem role (h : Follows start e) : e.ctx.role = start.ctx.role :=
  show e.ctx.terms.role = start.ctx.terms.role from congrArg _ h.terms

theorem secret (h : Follows start e) : e.ctx.secret = start.ctx.secret :=
  show e.ctx.terms.secret = start.ctx.terms.secret from congrArg _ h.terms

/-- A verification compares with the terms, and with the time. -/
theorem expectation (h : Follows start e) :
    e.ctx.expectation = { start.ctx.expectation with now := e.ctx.now } :=
  congrArg (fun terms : SwapContext => { terms.expectation with now := e.ctx.now }) h.terms

theorem refreshed (h : Follows start e) (hrefreshed : Executor.Refreshed cr e e₁) :
    Follows start e₁ := by
  refine ⟨hrefreshed.terms.trans h.terms, ?_⟩
  rw [hrefreshed.state, hrefreshed.ownContractId]
  exact h.locked

/-- Step rule. -/
theorem step {secret : Bytes32} (hstart : HoldsSecret cr secret start) (h : Follows start e)
    (io : StepAnswers) : Follows start (e.step cr io).exec := by
  have hcases := Executor.step_cases cr e io
  generalize e.step cr io = s at hcases ⊢
  cases hcases with
  | idle hrefreshed hidle => exact h.refreshed hrefreshed
  | @generate e₁ hfirst hplanned =>
    have h₁ := h.refreshed (refreshed_of_refresh hfirst)
    obtain ⟨-, hstate⟩ := nextAction_generateSecret.mp hplanned
    have hsecret : e₁.ctx.secret = some secret := h₁.secret.trans hstart.secret
    -- There is a secret already, so none is generated.
    have hkept : (e₁.generateSecret cr io.random).exec = { e₁ with state := .secretGenerated } := by
      simp [Executor.generateSecret, hsecret, hstate, advance]
    rw [hkept]
    exact ⟨h₁.terms, fun hlocked => by cases hlocked⟩
  | @lock e₁ e₂ recipient token amount hashlock timelock hfirst _ hsecond _ =>
    have h₂ := (h.refreshed (refreshed_of_refresh hfirst)).refreshed (refreshed_of_refresh hsecond)
    unfold Executor.lockMyLeg
    split_ifs with hid
    · exact ⟨h₂.terms, fun _ => hid⟩
    · dsimp only
      cases (e₂.sendLockMyLeg cr recipient token amount hashlock timelock io.tx).result with
      | error failure => exact h₂
      | ok locked => exact ⟨h₂.terms, fun _ => rfl⟩
  | @redeem e₁ e₂ preimage hfirst _ hsecond hcurrent =>
    have h₂ := (h.refreshed (refreshed_of_refresh hfirst)).refreshed (refreshed_of_refresh hsecond)
    have hstate : e₂.state = .myLegLocked := by
      obtain ⟨-, hstate, -⟩ | ⟨hmaker, -⟩ := nextAction_redeem.mp hcurrent
      · exact hstate
      · cases (h₂.role.trans hstart.role).symm.trans hmaker
    unfold Executor.redeemCounterpartyLeg
    cases e₂.counterpartyContractId with
    | none => exact h₂
    | some contractId =>
      dsimp only
      cases (Swapkit.redeem contractId preimage io.tx).result with
      | error failure => exact h₂
      | ok hash => exact ⟨h₂.terms, fun _ => h₂.locked hstate⟩
  | @refund e₁ hfirst hplanned =>
    have h₁ := h.refreshed (refreshed_of_refresh hfirst)
    unfold Executor.refund
    split_ifs
    · exact h₁
    · cases e₁.ownContractId with
      | none => exact h₁
      | some contractId =>
        dsimp only
        cases (e₁.sendRefund contractId io.tx).result with
        | error failure => exact h₁
        | ok hash => exact ⟨h₁.terms, fun hlocked => by cases hlocked⟩
  | @abort e₁ reason hfirst hplanned =>
    have h₁ := h.refreshed (refreshed_of_refresh hfirst)
    exact ⟨h₁.terms, fun hlocked => by cases hlocked⟩

end Follows

end Following

/-! ## Worlds -/

/-- The taker's chain, the counterparty's chain, and the taker's executor. -/
structure TakerScene where
  now : Uint256
  own : Config State
  counterparty : Config State
  exec : Executor

/-- A redeem that the executor has sent to the counterparty's chain. -/
structure Broadcast where
  /-- What was there when the step's second look read the lock. -/
  before : TakerScene
  /-- What the step was answered. -/
  io : StepAnswers
  contractId : Bytes32
  preimage : Bytes32

structure TakerWorld extends TakerScene where
  /-- The redeems sent so far, the first one last. -/
  broadcasts : List Broadcast

/-- Nobody redeems with the secret before it is broadcast; from then on anybody
    does, with the executor's transaction or with one of its own. -/
def onlyRevealed (secret : Bytes32) (broadcasts : List Broadcast) : Policy :=
  fun _ call => ∀ contractId, call = .redeem contractId secret → broadcasts ≠ []

/-- The redeems of one step. -/
def TakerWorld.reveals (cr : Crypto) (w : TakerWorld) (io : StepAnswers) : List Broadcast :=
  (revealed (w.exec.step cr io)).map fun sent => ⟨w.toTakerScene, io, sent.1, sent.2⟩

/-- The world after a step of the executor. -/
def TakerWorld.stepped (cr : Crypto) (w : TakerWorld) (io : StepAnswers) : TakerWorld :=
  { w with
    exec := (w.exec.step cr io).exec
    broadcasts := w.reveals cr io ++ w.broadcasts }

/-- One step of anybody. The transactions of the executor are among the calls
    that anybody makes; whether they are mined has nothing to do with what the
    executor is answered. Blocks end outside all calls. -/
inductive TakerWorld.Step (cr : Crypto) (A B : Deployment) (secret : Bytes32) :
    TakerWorld → TakerWorld → Prop where
  | own {w : TakerWorld} {own' : Config State}
      (h : NestedCalls.Step (system cr A (onlyRevealed secret w.broadcasts) w.now) w.own own') :
      Step cr A B secret w { w with own := own' }
  | counterparty {w : TakerWorld} {counterparty' : Config State}
      (h : NestedCalls.Step (system cr B (onlyRevealed secret w.broadcasts) w.now) w.counterparty
        counterparty') :
      Step cr A B secret w { w with counterparty := counterparty' }
  | exec {w : TakerWorld} (io : StepAnswers) : Step cr A B secret w (w.stepped cr io)
  | tick {w : TakerWorld} (now' : Uint256) (hown : w.own.saved = [])
      (hcounterparty : w.counterparty.saved = []) (hnow : w.now ≤ now') :
      Step cr A B secret w { w with now := now' }

/-- Reachable from fresh contracts on both chains and the executor `start`. -/
def TakerWorld.Reachable (cr : Crypto) (A B : Deployment) (secret : Bytes32) (start : Executor)
    (w : TakerWorld) : Prop :=
  ∃ now la lb, Genesis A la ∧ Genesis B lb ∧
    Relation.ReflTransGen (TakerWorld.Step cr A B secret)
      ⟨⟨now, ⟨State.fresh la, []⟩, ⟨State.fresh lb, []⟩, start⟩, []⟩ w

/-! ## What a broadcast establishes -/

/-- What the executor has seen before the broadcast: `e₁` and `e₂` are its
    states after the two refreshes of the step, and `lock` is what it verifies. -/
structure Broadcast.VerifiedBy (cr : Crypto) (secret : Bytes32) (b : Broadcast)
    (e₁ e₂ : Executor) (lock : ObservedLock) : Prop where
  preimage : b.preimage = secret
  first : b.before.exec.refresh cr b.io.first = (e₁, .ok ())
  planned : nextAction e₁.state e₁.ctx = .redeemCounterpartyLeg secret
  second : e₁.refresh cr b.io.second = (e₂, .ok ())
  current : nextAction e₂.state e₂.ctx = .redeemCounterpartyLeg secret
  now : e₂.ctx.now = b.io.second.now
  observed : e₂.ctx.counterpartyLock = some lock
  safe : verifyCounterpartyLeg e₂.ctx.expectation lock = .safe
  target : e₂.counterpartyContractId = some b.contractId
  /-- The lock was read at the id that is redeemed. -/
  read : ∃ record, b.io.second.counterpartyLock.getSwap b.contractId = .ok record ∧
    Observes record lock
  /-- The own lock has an id. -/
  locked : e₂.ownContractId.isSome
  /-- The own lock outlasts the lock that is redeemed by the gap. -/
  gap : min (lock.timelock.toNat + e₂.ctx.minGap.toNat) (2 ^ 64 - 1) ≤ e₂.ctx.myTimelock.toNat

def Broadcast.Verified (cr : Crypto) (secret : Bytes32) (b : Broadcast) : Prop :=
  ∃ e₁ e₂ lock, b.VerifiedBy cr secret e₁ e₂ lock

/-- The lock was read as it was on the chain. -/
def Broadcast.Truthful (b : Broadcast) : Prop :=
  ∃ s, b.before.counterparty = ⟨s, []⟩ ∧
    b.io.second.counterpartyLock.getSwap b.contractId = .ok (s.htlc.swaps b.contractId)

/-- The record pays the taker what it expects, and stays open for the gap. -/
structure Broadcast.Backed (cr : Crypto) (secret : Bytes32) (start : Executor) (b : Broadcast)
    (t : Terms) : Prop where
  token : t.token = start.ctx.cpToken
  amount : t.amount.toNat = start.ctx.cpAmount.toNat
  recipient : t.recipient = start.ctx.me
  hashlock : t.hashlock = cr.hashlockOf secret
  gap : min (b.io.second.now.toNat + start.ctx.minGap.toNat) (2 ^ 64 - 1) ≤ t.timelock.toNat

section Broadcasts

variable {cr : Crypto} {secret : Bytes32} {start : Executor} {b : Broadcast}

theorem Broadcast.Backed.redeemPayout {r : Swap} (h : b.Backed cr secret start r.terms) :
    r.redeemPayout = ⟨start.ctx.cpToken, start.ctx.me, start.ctx.cpAmount.setWidth 256⟩ :=
  Swap.redeemPayout_eq h.token h.recipient h.amount

/-- **Every redeem is verified**: the executor sends it for the lock that it has
    found safe at its second look. -/
theorem Follows.verified (hstart : HoldsSecret cr secret start) {before : TakerScene}
    {io : StepAnswers} {contractId preimage : Bytes32} (hfollows : Follows start before.exec)
    (hrevealed : (contractId, preimage) ∈ revealed (before.exec.step cr io)) :
    (⟨before, io, contractId, preimage⟩ : Broadcast).Verified cr secret := by
  obtain ⟨e₁, e₂, hfirst, hplanned, hsecond, hcurrent, htarget⟩ := revealed_step hrevealed
  have h₂ := (hfollows.refreshed (refreshed_of_refresh hfirst)).refreshed
    (refreshed_of_refresh hsecond)
  have hobserved := observed_of_refresh hsecond
  -- A taker redeems with the secret that it started with, after its gate has passed.
  have hrole : e₂.ctx.role = .taker := h₂.role.trans hstart.role
  obtain ⟨-, hstate, hsecret, lock, hlock, hsafe⟩ | ⟨hmaker, -⟩ := nextAction_redeem.mp hcurrent
  · obtain rfl : preimage = secret :=
      Option.some.inj (hsecret.symm.trans (h₂.secret.trans hstart.secret))
    obtain ⟨cid, record, hcid, hread, hobserves⟩ := hobserved.lock lock hlock
    obtain rfl : cid = contractId := Option.some.inj (hcid.symm.trans htarget)
    obtain ⟨-, hordered, -⟩ := verifyCounterpartyLeg_safe.mp hsafe
    rw [Swapkit.LegExpectation.Ordered, show e₂.ctx.expectation.role = _ from hrole] at hordered
    exact ⟨e₁, e₂, lock, rfl, hfirst, hplanned, hsecond, hcurrent, hobserved.now, hlock, hsafe,
      htarget, ⟨record, hread, hobserves⟩, h₂.locked hstate, hordered.2⟩
  · cases hrole.symm.trans hmaker

/-- A truthful broadcast is backed by the record that it redeems. -/
theorem Broadcast.Verified.backed (hstart : HoldsSecret cr secret start)
    (hfollows : Follows start b.before.exec) (h : b.Verified cr secret) {r : Swap}
    (hread : b.io.second.counterpartyLock.getSwap b.contractId = .ok r) :
    r.Active ∧ b.Backed cr secret start r.terms := by
  obtain ⟨e₁, e₂, lock, hverified⟩ := h
  obtain ⟨record, hrecord, hobserves⟩ := hverified.read
  obtain rfl : record = r := Except.ok.inj (hrecord.symm.trans hread)
  have h₂ := (hfollows.refreshed (refreshed_of_refresh hverified.first)).refreshed
    (refreshed_of_refresh hverified.second)
  have hsafe := hverified.safe
  rw [h₂.expectation, hverified.now] at hsafe
  -- What the gate compares is what the chain's record says, read as u128 and u64.
  obtain ⟨hmatches, -, hopen⟩ := verifyCounterpartyLeg_safe.mp hsafe
  refine ⟨hobserves.active, ?_⟩
  constructor
  · exact hobserves.token.trans hmatches.token
  · exact hobserves.amount.trans (congrArg BitVec.toNat hmatches.amount)
  · exact hobserves.recipient.trans hmatches.recipient
  · have hexpected : start.ctx.expectation.expectedHashlock = cr.hashlockOf secret := by
      simp [SwapContext.expectation, hstart.hashlock]
    exact (hobserves.hashlock.trans hmatches.hashlock).trans hexpected
  · exact hopen.trans (Nat.le_of_eq hobserves.timelock.symm)

end Broadcasts

/-! ## Invariants -/

/-- The invariant of either chain. -/
structure SecretChain (cr : Crypto) (D : Deployment) (secret : Bytes32) (now : Uint256)
    (broadcasts : List Broadcast) (s : State) : Prop where
  orderly : Orderly D s
  late : RefundedLate now s
  undisclosed : broadcasts = [] → Undisclosed cr secret s

section Chains

variable {cr : Crypto} {D : Deployment} {secret : Bytes32} {now : Uint256}
  {broadcasts : List Broadcast} {s : State}

theorem SecretChain.fresh {l : Ledger Address Address} (hl : Genesis D l) :
    SecretChain cr D secret now broadcasts (State.fresh l) :=
  ⟨.fresh hl, .fresh, fun _ => .fresh⟩

theorem SecretChain.invariant (hD : D.AllStandard)
    (hunique : ∀ p, cr.hashlockOf p = cr.hashlockOf secret → p = secret) :
    Invariant (system cr D (onlyRevealed secret broadcasts) now)
      (SecretChain cr D secret now broadcasts) := by
  intro s s' hs hmove
  -- A move is a call of an account, or goes on with one that waits.
  refine ⟨Orderly.invariant cr hD _ hs.orderly hmove.to_union, ?_, ?_⟩
  · rcases moves_records hmove with ⟨sender, call, -, -, heffect⟩ | heffect
    · exact hs.late.effect hs.orderly heffect
    · exact hs.late.effect hs.orderly heffect
  -- As long as nothing was broadcast nobody can present the preimage.
  · intro hnone
    rcases moves_records hmove with ⟨sender, call, -, hpolicy, heffect⟩ | heffect
    · apply (hs.undisclosed hnone).effect hunique hs.orderly _ heffect
      intro x id hwho
      cases hwho
      exact hpolicy id rfl hnone
    · apply (hs.undisclosed hnone).effect hunique hs.orderly _ heffect
      intro x id hwho
      cases hwho

theorem SecretChain.later {now' : Uint256} (h : SecretChain cr D secret now broadcasts s)
    (hnow : now ≤ now') : SecretChain cr D secret now' broadcasts s :=
  ⟨h.orderly, fun c hc => BitVec.le_trans (h.late c hc) hnow, h.undisclosed⟩

/-- A broadcast ends the secrecy. -/
theorem SecretChain.more_broadcasts (h : SecretChain cr D secret now broadcasts s)
    (more : List Broadcast) : SecretChain cr D secret now (more ++ broadcasts) s :=
  ⟨h.orderly, h.late, fun hnone => h.undisclosed (List.append_eq_nil_iff.mp hnone).2⟩

end Chains

/-- Nobody has used the secret on either chain. -/
def TakerScene.Undisclosed (cr : Crypto) (secret : Bytes32) (scene : TakerScene) : Prop :=
  Exchange.Undisclosed cr secret scene.own.cur ∧
    Exchange.Undisclosed cr secret scene.counterparty.cur

/-- The invariant of the two chains and the executor. -/
structure TakerWorld.Safe (cr : Crypto) (A B : Deployment) (secret : Bytes32) (start : Executor)
    (w : TakerWorld) : Prop where
  own : w.own.All (SecretChain cr A secret w.now w.broadcasts)
  counterparty : w.counterparty.All (SecretChain cr B secret w.now w.broadcasts)
  follows : Follows start w.exec
  verified : ∀ b ∈ w.broadcasts, b.Verified cr secret
  backed : ∀ b ∈ w.broadcasts, b.Truthful → ∃ t, b.Backed cr secret start t ∧
    w.counterparty.All (Vested b.contractId (.held t))
  first : ∀ b, w.broadcasts.getLast? = some b → b.before.Undisclosed cr secret

section Worlds

variable {cr : Crypto} {A B : Deployment} {secret : Bytes32} {start : Executor}
  {w w' : TakerWorld}

/-- Step rule for the executor. -/
theorem TakerWorld.Safe.exec (hstart : HoldsSecret cr secret start)
    (hw : w.Safe cr A B secret start) (io : StepAnswers) :
    (w.stepped cr io).Safe cr A B secret start := by
  have hnew : ∀ b ∈ w.reveals cr io, b.before = w.toTakerScene ∧ b.Verified cr secret := by
    intro b hb
    obtain ⟨⟨contractId, preimage⟩, hrevealed, rfl⟩ := List.mem_map.mp hb
    have hfollows : Follows start w.toTakerScene.exec := hw.follows
    exact ⟨rfl, hfollows.verified hstart hrevealed⟩
  refine ⟨hw.own.mono fun s hs => hs.more_broadcasts _,
    hw.counterparty.mono fun s hs => hs.more_broadcasts _, hw.follows.step hstart io, ?_, ?_, ?_⟩
  · intro b hb
    rcases List.mem_append.mp hb with hsent | hold
    · exact (hnew b hsent).2
    · exact hw.verified b hold
  · intro b hb htruthful
    rcases List.mem_append.mp hb with hsent | hold
    · obtain ⟨hbefore, hverified⟩ := hnew b hsent
      obtain ⟨s, hs, hread⟩ := htruthful
      rw [hbefore] at hs
      have hfollows : Follows start b.before.exec := by
        rw [hbefore]
        exact hw.follows
      obtain ⟨hactive, hbacked⟩ := hverified.backed hstart hfollows hread
      refine ⟨_, hbacked, ?_⟩
      -- Outside all calls the record that was read is vested.
      have hcalls : w.counterparty = ⟨s, []⟩ := hs
      have horderly := hw.counterparty.1.orderly
      rw [hcalls] at horderly
      show w.counterparty.All _
      rw [hcalls]
      exact .of_cur (horderly.vested (Swap.stage_of_active hactive).ge)
    · exact hw.backed b hold htruthful
  · intro b hb
    have hlast : (w.reveals cr io ++ w.broadcasts).getLast? = some b := hb
    rw [List.getLast?_append] at hlast
    cases hold : w.broadcasts.getLast? with
    | some b' =>
      rw [hold] at hlast
      cases hlast
      exact hw.first b hold
    | none =>
      -- The first broadcast: until now nobody could use the secret.
      have hnone : w.broadcasts = [] := List.getLast?_eq_none_iff.mp hold
      rw [hold] at hlast
      rw [(hnew b (List.mem_of_getLast? hlast)).1]
      exact ⟨hw.own.1.undisclosed hnone, hw.counterparty.1.undisclosed hnone⟩

/-- Step rule. -/
theorem TakerWorld.Safe.step (hA : A.AllStandard) (hB : B.AllStandard)
    (hunique : ∀ p, cr.hashlockOf p = cr.hashlockOf secret → p = secret)
    (hstart : HoldsSecret cr secret start) (hw : w.Safe cr A B secret start)
    (h : w.Step cr A B secret w') : w'.Safe cr A B secret start := by
  -- One case for each part of the world that moves.
  cases h with
  | own h =>
    exact ⟨(SecretChain.invariant hA hunique).step h hw.own, hw.counterparty, hw.follows,
      hw.verified, hw.backed, hw.first⟩
  | counterparty h =>
    refine ⟨hw.own, (SecretChain.invariant hB hunique).step h hw.counterparty, hw.follows,
      hw.verified, ?_, hw.first⟩
    -- What was verified at the broadcast stays so while the counterparty chain moves.
    intro b hb htruthful
    obtain ⟨t, hbacked, hvested⟩ := hw.backed b hb htruthful
    exact ⟨t, hbacked, (Vested.invariant (by simp)).step h.to_union hvested⟩
  | exec io => exact hw.exec hstart io
  | tick now' hown hcounterparty hnow =>
    exact ⟨hw.own.mono fun s hs => hs.later hnow, hw.counterparty.mono fun s hs => hs.later hnow,
      hw.follows, hw.verified, hw.backed, hw.first⟩

/-- Run rule. -/
theorem TakerWorld.Reachable.safe (hA : A.AllStandard) (hB : B.AllStandard)
    (hunique : ∀ p, cr.hashlockOf p = cr.hashlockOf secret → p = secret)
    (hstart : HoldsSecret cr secret start) (h : w.Reachable cr A B secret start) :
    w.Safe cr A B secret start := by
  obtain ⟨now, la, lb, hla, hlb, hrun⟩ := h
  induction hrun with
  | refl =>
    refine ⟨.of_cur (.fresh hla), .of_cur (.fresh hlb), hstart.follows, ?_, ?_, ?_⟩
    · exact fun b hb => absurd hb List.not_mem_nil
    · exact fun b hb => absurd hb List.not_mem_nil
    · intro b hb
      cases hb
  | tail _ hstep ih => exact ih.step hA hB hunique hstart hstep

/-! ## Secret safety -/

/-- The record has been redeemed, and has paid the taker. -/
structure Broadcast.Collected (B : Deployment) (start : Executor) (b : Broadcast) (s : State) :
    Prop where
  withdrawn : (s.htlc.swaps b.contractId).withdrawn = true
  paid : s.books.paidFor b.contractId = [⟨b.contractId, B.htlc,
    ⟨start.ctx.cpToken, start.ctx.me, start.ctx.cpAmount.setWidth 256⟩⟩]

/-- The redeem, mined now, pays the taker. -/
def Broadcast.Collectable (cr : Crypto) (B : Deployment) (start : Executor) (now : Uint256)
    (b : Broadcast) (s : State) : Prop :=
  s.Redeemable cr B now b.contractId b.preimage start.ctx.me start.ctx.cpToken
    start.ctx.cpAmount.toNat

/-- Until the gap has passed, the record of a truthful broadcast pays the taker. -/
theorem TakerWorld.Safe.collects (hw : w.Safe cr A B secret start) (hme : B.Account start.ctx.me)
    {b : Broadcast} (hb : b ∈ w.broadcasts) (htruthful : b.Truthful)
    (hfits : b.io.second.now.toNat + start.ctx.minGap.toNat < 2 ^ 64)
    (htime : w.now.toNat < b.io.second.now.toNat + start.ctx.minGap.toNat) :
    b.Collected B start w.counterparty.cur ∨
      b.Collectable cr B start w.now w.counterparty.cur := by
  obtain ⟨t, hbacked, hvested⟩ := hw.backed b hb htruthful
  have horderly := hw.counterparty.1.orderly
  have hopen : w.now < t.timelock := by
    have hgap := hbacked.gap
    rw [BitVec.lt_def]
    omega
  obtain ⟨rfl, -, hcases⟩ :=
    horderly.before_timelock hw.counterparty.1.late hvested.1 hopen
  -- Before the timelock the leg is paid to the taker or still active, and never refunded.
  rcases hcases with ⟨hwithdrawn, hpaid⟩ | hactive
  · rw [hbacked.redeemPayout] at hpaid
    exact .inl ⟨hwithdrawn, hpaid⟩
  · right
    obtain ⟨e₁, e₂, lock, hverified⟩ := hw.verified b hb
    have hpreimage : cr.hashlockOf b.preimage =
        (w.counterparty.cur.htlc.swaps b.contractId).hashlock := by
      rw [hverified.preimage]
      exact hbacked.hashlock.symm
    have hrecipient : (w.counterparty.cur.htlc.swaps b.contractId).recipient = start.ctx.me :=
      hbacked.recipient
    have htoken : (w.counterparty.cur.htlc.swaps b.contractId).token = start.ctx.cpToken :=
      hbacked.token
    have hamount : (w.counterparty.cur.htlc.swaps b.contractId).amount.toNat =
        start.ctx.cpAmount.toNat := hbacked.amount
    have hredeemable := State.Redeemable.of_active horderly hactive hopen hpreimage
      (by rw [hrecipient]; exact hme)
    rw [hrecipient, htoken, hamount] at hredeemable
    exact hredeemable

/-- **Taker secret safety.** Every redeem that the executor sends carries its
    secret, was asked for at both looks of its step, and goes to the id of the
    lock that was verified as safe at the second one. If that lock was read as
    it was on the chain, the redeem pays the taker in full when it is mined
    before the gap has passed, unless the same record has paid the taker
    already. And when the secret is first sent, nobody has redeemed anything
    under its hashlock on either chain. -/
theorem taker_secret_safety (hA : A.AllStandard) (hB : B.AllStandard)
    (hunique : ∀ p, cr.hashlockOf p = cr.hashlockOf secret → p = secret)
    (hstart : HoldsSecret cr secret start) (hme : B.Account start.ctx.me)
    (hw : w.Reachable cr A B secret start) :
    (∀ b ∈ w.broadcasts, b.Verified cr secret) ∧
    (∀ b ∈ w.broadcasts, b.Truthful →
      b.io.second.now.toNat + start.ctx.minGap.toNat < 2 ^ 64 →
      w.now.toNat < b.io.second.now.toNat + start.ctx.minGap.toNat →
      b.Collected B start w.counterparty.cur ∨
        b.Collectable cr B start w.now w.counterparty.cur) ∧
    (w.broadcasts = [] → w.Undisclosed cr secret) ∧
    ∀ b, w.broadcasts.getLast? = some b → b.before.Undisclosed cr secret := by
  have hsafe := hw.safe hA hB hunique hstart
  refine ⟨hsafe.verified, ?_, ?_, hsafe.first⟩
  · intro b hb htruthful hfits htime
    exact hsafe.collects hme hb htruthful hfits htime
  · intro hnone
    exact ⟨hsafe.own.1.undisclosed hnone, hsafe.counterparty.1.undisclosed hnone⟩

end Worlds

/-! ### A broadcast in a computed run

`rival` locks 7 wei for `maker`, who takes: after its own lock it finds the
other one and sends its redeem, and the endpoint does not answer. -/

namespace Sample

open Exchange.Sample (rival maker crypto deployment longLock longLockId ledger)
open HashedTimelock.Sample (hashlock preimage)

def holder : Executor := { Swapkit.Sample.taker with
  ctx := { Swapkit.Sample.taker.ctx with
    myTimelock := 4000
    myRecipient := rival
    me := maker
    minGap := 1500
    hashlock := some hashlock
    secret := some preimage }
  ownSigner := maker
  counterpartySigner := maker
  ownHtlc := deployment.htlc
  counterpartyHtlc := deployment.htlc }

theorem holder_holdsSecret : HoldsSecret crypto preimage holder :=
  ⟨rfl, rfl, by decide +kernel, rfl⟩

theorem preimage_unique (p : Bytes32) (h : crypto.hashlockOf p = crypto.hashlockOf preimage) :
    p = preimage := by
  by_contra hne
  have hbytes : (wordBytes p == wordBytes preimage) = false := by
    rw [beq_eq_false_iff_ne]
    exact fun heq => hne (BigEndian.bytes_injective (n := 32) (by omega) heq)
  -- All other inputs have the hash zero.
  have hzero : crypto.hashlockOf p = 0 := by
    show (List.lookup (wordBytes p) [(wordBytes preimage, hashlock)]).getD 0 = 0
    simp only [List.lookup_cons, hbytes, List.lookup_nil, Option.getD_none]
  have hhash : crypto.hashlockOf preimage = hashlock := by decide +kernel
  rw [hzero, hhash] at h
  exact absurd h (by decide)

/-- The endpoints at time `now`, once the lock is five blocks deep. -/
def found (now : U64) : Swapkit.RefreshAnswers where
  now := now
  counterpartyPoll := ⟨.ok 9, fun _ _ => .ok [some (.logNewSwap longLockId rival
    longLock.recipient longLock.token longLock.amount longLock.hashlock longLock.timelock)]⟩
  counterpartyLock := ⟨fun _ => .ok (longLock.record rival), .ok 9, fun _ => .ok [some 5]⟩
  ownPoll := ⟨.ok 3, fun _ _ => .ok []⟩

/-- The taker locks at time 10. -/
def lockStep : StepAnswers := ⟨Swapkit.Sample.noLogs 10, Swapkit.Sample.noLogs 10,
  Swapkit.Sample.mined, 0⟩

/-- Its redeem is sent at time 11, and times out. -/
def redeemStep : StepAnswers := ⟨found 11, found 11,
  { Swapkit.Sample.mined with call := ⟨.ok (), .error "timeout"⟩ }, 0⟩

/-- `rival`'s lock is on the counterparty's chain. -/
def offered (s : State) : TakerWorld :=
  ⟨⟨10, ⟨State.fresh ledger, []⟩, ⟨s, []⟩, holder⟩, []⟩

theorem redeemStep_revealed :
    revealed ((holder.step crypto lockStep).exec.step crypto redeemStep) =
      [(longLockId, preimage)] := by decide +kernel

end Sample

/-- The redeem that timed out is verified and truthful, and the taker is or can
    be paid. -/
theorem taker_collects_after_timeout :
    ∃ w, TakerWorld.Reachable Exchange.Sample.crypto Exchange.Sample.deployment
        Exchange.Sample.deployment HashedTimelock.Sample.preimage Sample.holder w ∧
      ∃ b ∈ w.broadcasts, b.contractId = Exchange.Sample.longLockId ∧ b.Truthful ∧
        b.Verified Exchange.Sample.crypto HashedTimelock.Sample.preimage ∧
        (b.Collected Exchange.Sample.deployment Sample.holder w.counterparty.cur ∨
          b.Collectable Exchange.Sample.crypto Exchange.Sample.deployment Sample.holder w.now
            w.counterparty.cur) := by
  obtain ⟨s, hlock, htest⟩ := Exchange.doneAnd_iff.mp (show Exchange.doneAnd
    (fun s => decide (s.htlc.swaps Exchange.Sample.longLockId =
      Exchange.Sample.longLock.record Exchange.Sample.rival))
    (Exchange.invoke Exchange.Sample.crypto Exchange.Sample.deployment 10 Exchange.Sample.rival
      (.newSwap 7 Exchange.Sample.longLock) (State.fresh Exchange.Sample.ledger)) = true by
        decide +kernel)
  have hrecord := of_decide_eq_true htest
  have hallowed : onlyRevealed HashedTimelock.Sample.preimage [] Exchange.Sample.rival
      (.newSwap 7 Exchange.Sample.longLock) := fun _ hcall => by cases hcall
  have hrun : TakerWorld.Reachable Exchange.Sample.crypto Exchange.Sample.deployment
      Exchange.Sample.deployment HashedTimelock.Sample.preimage Sample.holder
      (((Sample.offered s).stepped Exchange.Sample.crypto Sample.lockStep).stepped
        Exchange.Sample.crypto Sample.redeemStep) := by
    refine ⟨10, _, _, Exchange.Sample.genesis, Exchange.Sample.genesis, ?_⟩
    apply Relation.ReflTransGen.head
      (.counterparty (.act (.invoke _ _ (by decide) hallowed hlock)))
    apply Relation.ReflTransGen.head (.exec Sample.lockStep)
    exact Relation.ReflTransGen.single (.exec Sample.redeemStep)
  obtain ⟨hverified, hcollects, -⟩ := taker_secret_safety
    Exchange.Sample.deployment_allStandard Exchange.Sample.deployment_allStandard
    Sample.preimage_unique Sample.holder_holdsSecret (by decide) hrun
  -- The redeem of the last step.
  obtain ⟨b, hb, hid, hio, hbefore⟩ : ∃ b ∈ (((Sample.offered s).stepped Exchange.Sample.crypto
      Sample.lockStep).stepped Exchange.Sample.crypto Sample.redeemStep).broadcasts,
      b.contractId = Exchange.Sample.longLockId ∧ b.io = Sample.redeemStep ∧
      b.before.counterparty = ⟨s, []⟩ := by
    refine ⟨⟨((Sample.offered s).stepped Exchange.Sample.crypto Sample.lockStep).toTakerScene,
      Sample.redeemStep, Exchange.Sample.longLockId, HashedTimelock.Sample.preimage⟩, ?_, rfl, rfl,
      rfl⟩
    apply List.mem_append_left
    apply List.mem_map.mpr
    refine ⟨(Exchange.Sample.longLockId, HashedTimelock.Sample.preimage), ?_, rfl⟩
    exact Sample.redeemStep_revealed ▸ List.mem_singleton.mpr rfl
  have htruthful : b.Truthful := by
    refine ⟨s, hbefore, ?_⟩
    rw [hid, hio, hrecord]
    rfl
  refine ⟨_, hrun, b, hb, hid, htruthful, hverified b hb, hcollects b hb htruthful ?_ ?_⟩
  · rw [hio]
    decide
  · rw [hio]
    show (10 : Uint256).toNat < Sample.redeemStep.second.now.toNat + Sample.holder.ctx.minGap.toNat
    decide

end Kael.CrossChain
