import Kael.CrossChain.Parties
import Kael.Lib.Runs

/-!
# An Honest Swap

No step leads back to an earlier phase, and each of the four turns that is taken
when the lock it relies on is deep enough leads on to the next one
(`InPhase.ready_turn`). So a swap completes, with both parties paid, if the four
turns are taken before the deadline, whatever else a `Net.Step` lets happen in
between (`honest_swap_completes`).
-/

namespace Kael.CrossChain

open NestedCalls
open Ladders (Ladder Climbs)
open Exchange (Deployment State Call anyone system callThrough callThrough_ok Orderly RefundedLate)
open HashedTimelock (NewSwap Swap Terms)
open Maestro (SwapTracker EventFits)
open Swapkit (Executor ExecutorError RefreshAnswers StepAnswers TxAnswers LiveChain PolledChain
  nextAction lockArgs lockUnder)

/-! ## What a transaction does to the legs -/

section Transact

variable {cr : Crypto} {D : Deployment} {h q : Bytes32} {leg : AgreedLeg} {now : Uint256}
  {opened disclosed claimed : Prop} {s : State} {x y : Address} {call : Call} {a : NewSwap}
  {calls : List Call}

/-- A lock that is paid for is in the log, whether it has been approved first or not. -/
theorem transact_lock (hstd : D.AllStandard) (hcall : call.lockOf D x = some (y, a))
    (hcalls : calls = [call] ∨
      ∃ token spender amount, calls = [.approve token spender amount, call])
    (hall : AllSucceed cr D now x s calls) :
    (transact cr D now x s calls).htlc =
      s.htlc.writeSwap y a (HashedTimelock.computeContractId cr y a) := by
  rcases hcalls with rfl | ⟨token, spender, amount, rfl⟩
  · obtain ⟨s', hok, -⟩ := hall
    simp only [transact, List.foldl_cons, List.foldl_nil, hok]
    exact callThrough_lock hstd hcall hok
  · obtain ⟨s₁, happrove, s', hok, -⟩ := hall
    simp only [transact, List.foldl_cons, List.foldl_nil, happrove, hok]
    rw [callThrough_lock hstd hcall hok, callThrough_approve happrove]

/-- After a redeem with a preimage the leg is claimed, by this call or an earlier one. -/
theorem LegShown.transact_redeem (hs : LegShown h leg now opened disclosed claimed s)
    (horderly : Orderly D s) (hopened : opened) (htime : now < leg.terms.timelock)
    (hpreimage : cr.hashlockOf q = leg.terms.hashlock)
    (hrecipient : D.Account leg.terms.recipient) :
    LegShown h leg now opened True True (transact cr D now x s [.redeem leg.id q]) := by
  simp only [transact, List.foldl_cons, List.foldl_nil]
  rcases hs.record hopened with hheld | hclaimed
  · obtain ⟨s', hok⟩ := callThrough_redeem_ok (x := x) horderly hheld htime hpreimage hrecipient
    rw [hok]
    exact hs.redeem hheld (callThrough_redeem horderly hok)
  -- Someone else has been faster, so the call fails.
  · cases hcall : callThrough cr D now x (.redeem leg.id q) s with
    | error err =>
      exact ⟨hs.late, hs.fits, hs.only, hs.record, fun hnot => absurd trivial hnot,
        fun _ => hclaimed⟩
    | ok s' =>
      obtain ⟨o, hinvoke, -⟩ := callThrough_ok.mp hcall
      obtain ⟨hchecks, -⟩ := Exchange.State.redeem_ok.mp hinvoke
      have hactive := (HashedTimelock.redeemChecks_ok.mp hchecks).1
      exact absurd (Swap.stage_claimed.mp hclaimed).2.1 (by simp [hactive.2.1])

end Transact

/-! ## Turns -/

section Turns

variable {cr : Crypto} {D : Bool → Deployment} {chainIds : Bool → U64} {secret : Bytes32}
  {start : Bool → Executor} {i : Bool} {n m : Nat} {w w' : Net cr D} {e : Executor}
  {own counterparty own' counterparty' : PolledChain} {io : StepAnswers}

theorem PartyIn.later (hp : PartyIn cr chainIds secret start i n own counterparty e) (hle : n ≤ m)
    (hstate : stateIn i m = stateIn i n) (hopened : openedIn i ≤ m ↔ openedIn i ≤ n)
    (hown : own.blocks <+: own'.blocks) (hcounterparty : counterparty.blocks <+: counterparty'.blocks) :
    PartyIn cr chainIds secret start i m own' counterparty' e where
  base := hp.base
  state := hp.state.trans hstate.symm
  ownContractId := by simp only [hp.ownContractId, hopened]
  reads := ⟨hp.reads.own.grow hown, hp.reads.counterparty.grow hcounterparty⟩
  revealedSecret hi hm := hp.revealedSecret hi (Nat.lt_of_le_of_lt hle hm)

theorem InPhase.turned (hw : InPhase chainIds secret start n w) (hturn : w.Turn i io w')
    (hle : n ≤ m)
    (hown : PartyIn cr chainIds secret start i m (w.chains i).toPolledChain
      (w.chains !i).toPolledChain (w'.exec i))
    (hother : stateIn (!i) m = stateIn (!i) n ∧ (openedIn (!i) ≤ m ↔ openedIn (!i) ≤ n))
    (hleg : ∀ j, LegShown (cr.hashlockOf secret) (ownLeg cr (start j) (cr.hashlockOf secret)) w.time
      (openedIn j ≤ m) (3 ≤ m) (claimedIn j ≤ m) (w'.chains j).state) :
    InPhase chainIds secret start m w' := by
  have htime : w'.time = w.time := congrArg (BitVec.setWidth 256) hturn.now
  refine ⟨hturn.now ▸ hw.time, ?_, fun j => htime ▸ hleg j⟩
  have hown' := hown.later (Nat.le_refl m) rfl Iff.rfl (hturn.grows i) (hturn.grows !i)
  have hother' := (hw.party !i).later hle hother.1 hother.2 (hturn.grows !i) (hturn.grows !!i)
  rw [← hturn.otherExec] at hother'
  intro j
  rcases eq_or_ne j i with rfl | hne
  · exact hown'
  · obtain rfl := Bool.eq_not_iff.mpr hne
    exact hother'

/-- Both legs are open before the deadline. -/
theorem InPhase.before_timelock (ha : Agreement cr D chainIds secret start)
    (hw : InPhase chainIds secret start n w) (i : Bool) :
    w.time < (ownLeg cr (start i) (cr.hashlockOf secret)).terms.timelock := by
  have hopen := hw.time.1
  have hordered := ha.ordered
  change w.now.setWidth 256 < (start i).ctx.myTimelock.setWidth 256
  rw [BitVec.lt_def, BitVec.toNat_setWidth_of_le (by omega),
    BitVec.toNat_setWidth_of_le (by omega)]
  cases i with
  | false => exact hopen.trans hordered
  | true => exact hopen

/-- A turn in which nothing is sent. -/
theorem InPhase.idle {result : Fallible Swapkit.ExecutorError Swapkit.StepOutcome}
    (hw : InPhase chainIds secret start n w) (hturn : w.Turn i io w')
    (hlooked : Looked cr chainIds secret start i n w e)
    (hstep : (w.exec i).step cr io = ⟨e, result, none⟩) : InPhase chainIds secret start n w' := by
  have hown : (w'.chains i).state = (w.chains i).state := by
    rw [hturn.own, hstep]
    rfl
  have hcounterparty : (w'.chains !i).state = (w.chains !i).state := by
    rw [hturn.counterparty, hstep]
    rfl
  refine hw.turned hturn (Nat.le_refl n) ?_ ⟨rfl, Iff.rfl⟩ ?_
  · rw [hturn.exec, hstep]
    exact hlooked.toPartyIn
  · intro j
    rcases eq_or_ne j i with rfl | hne
    · rw [hown]
      exact hw.leg j
    · obtain rfl := Bool.eq_not_iff.mpr hne
      rw [hcounterparty]
      exact hw.leg !i

/-- The step in which a party locks its leg. -/
theorem InPhase.locks_step (ha : Agreement cr D chainIds secret start)
    (hw : InPhase chainIds secret start n w) (hserved : io.tx.Served (w.exec i).ctx.myAmount)
    (hphase : openedIn i = n + 1) {e₁ e₂ : Executor}
    (hfirst : (w.exec i).refresh cr io.first = (e₁, .ok ()))
    (hplanned : nextAction e₁.state e₁.ctx = (start i).ctx.lockMyLeg (cr.hashlockOf secret))
    (hsecond : e₁.refresh cr io.second = (e₂, .ok ()))
    (hlooked : Looked cr chainIds secret start i n w e₂)
    (hcurrent : nextAction e₂.state e₂.ctx = (start i).ctx.lockMyLeg (cr.hashlockOf secret)) :
    ∃ call, ((w.exec i).step cr io).tx = some (.lock ((start i).sendLockMyLeg cr
        (start i).ctx.myRecipient (start i).ctx.myToken (start i).ctx.myAmount
        (cr.hashlockOf secret) (start i).ctx.myTimelock io.tx)) ∧
      call.lockOf (D i) (w.exec i).ownSigner = some ((start i).lockSender,
        legLock (start i) (cr.hashlockOf secret)) ∧
      (((start i).sendLockMyLeg cr (start i).ctx.myRecipient (start i).ctx.myToken
          (start i).ctx.myAmount (cr.hashlockOf secret) (start i).ctx.myTimelock io.tx).sent =
          [call] ∨
        ∃ spender, ((start i).sendLockMyLeg cr (start i).ctx.myRecipient (start i).ctx.myToken
          (start i).ctx.myAmount (cr.hashlockOf secret) (start i).ctx.myTimelock io.tx).sent =
          [.approve (start i).ctx.myToken spender (start i).ctx.myAmount.toNat, call]) ∧
      ((w.exec i).step cr io).exec = { e₂ with
        ownContractId := some (ownLeg cr (start i) (cr.hashlockOf secret)).id
        ctx := { e₂.ctx with myLegLocked := true }
        state := Swapkit.advance e₂.state .myLegConfirmed } ∧
      ∃ outcome, ((w.exec i).step cr io).result = .ok outcome := by
  have hnone : e₂.ownContractId = none := by
    rw [hlooked.ownContractId, if_neg (by omega)]
  have hamount : (w.exec i).ctx.myAmount = (start i).ctx.myAmount :=
    show (w.exec i).ctx.terms.myAmount = (start i).ctx.terms.myAmount from
      congrArg _ (ctx_terms (hw.party i).base)
  rw [hamount] at hserved
  have hsigner : e₂.ownSigner = (w.exec i).ownSigner :=
    show e₂.base.ownSigner = (w.exec i).base.ownSigner from
      congrArg _ (hlooked.base.trans (hw.party i).base.symm)
  have hconfig : e₂.ownSettlementLock = (start i).ownSettlementLock :=
    show e₂.base.ownSettlementLock = (start i).base.ownSettlementLock from
      congrArg _ hlooked.base
  -- What a lock is sent with is fixed by the base.
  have hsend : ∀ recipient token amount h timelock,
      e₂.sendLockMyLeg cr recipient token amount h timelock io.tx =
        (start i).sendLockMyLeg cr recipient token amount h timelock io.tx := by
    intro recipient token amount h timelock
    show e₂.base.sendLockMyLeg cr recipient token amount h timelock io.tx = _
    rw [hlooked.base]
    rfl
  obtain ⟨sending, call, htx, hlock, hsent, hexec, hok⟩ := @Executor.lockMyLeg_served cr (D i) io.tx
    (start i).ctx.myAmount (start i).ctx.myRecipient (start i).ctx.myToken (cr.hashlockOf secret)
    (start i).ctx.myTimelock e₂ hnone hserved (ha.nonzero i)
    (fun config h => ha.settlement i config (hconfig.symm.trans h))
  obtain rfl : sending = _ := Swapkit.TxCall.lock.inj (Executor.lockMyLeg_tx htx)
  rw [lockSender_eq hlooked.base] at hlock hexec
  rw [hsigner] at hlock
  rw [hsend] at htx hsent
  rw [Executor.step_locks hfirst hplanned hsecond hcurrent]
  exact ⟨call, htx, hlock, hsent, hexec, hok⟩

/-- The turn in which a party locks. -/
theorem InPhase.locks (hstd : ∀ i, (D i).AllStandard) (ha : Agreement cr D chainIds secret start)
    (hw : InPhase chainIds secret start n w) (hturn : w.Turn i io w') (hphase : openedIn i = n + 1)
    {e₁ e₂ : Executor} (hfirst : (w.exec i).refresh cr io.first = (e₁, .ok ()))
    (hplanned : nextAction e₁.state e₁.ctx = (start i).ctx.lockMyLeg (cr.hashlockOf secret))
    (hsecond : e₁.refresh cr io.second = (e₂, .ok ()))
    (hlooked : Looked cr chainIds secret start i n w e₂)
    (hcurrent : nextAction e₂.state e₂.ctx = (start i).ctx.lockMyLeg (cr.hashlockOf secret)) :
    InPhase chainIds secret start (n + 1) w' := by
  obtain ⟨call, htx, hlock, hsent, hexec, -⟩ := hw.locks_step ha hturn.served hphase hfirst
    hplanned hsecond hlooked hcurrent
  -- What the chains become.
  have hown : (w'.chains i).state.htlc = (w.chains i).state.htlc.writeSwap (start i).lockSender
      (legLock (start i) (cr.hashlockOf secret))
      (ownLeg cr (start i) (cr.hashlockOf secret)).id := by
    rw [hturn.own, ownCalls, htx]
    exact transact_lock (hstd i) hlock (hsent.imp_right fun ⟨spender, h⟩ => ⟨_, spender, _, h⟩)
      (hturn.funded _ htx)
  have hcounterparty : (w'.chains !i).state = (w.chains !i).state := by
    rw [hturn.counterparty, counterpartyCalls, htx]
    rfl
  have hsender : (start i).lockSender ≠ zeroAddress := by
    unfold Executor.lockSender
    cases hsettlement : (start i).ownSettlementLock with
    | none => exact (ha.ownSigner i).1
    | some config =>
      have hne := (D i).settlement_ne_zero
      rwa [← ha.settlement i config hsettlement] at hne
  have hphases : i = false ∧ n = 0 ∨ i = true ∧ n = 1 := by
    cases i with
    | false => exact .inl ⟨rfl, (Nat.succ.inj hphase).symm⟩
    | true => exact .inr ⟨rfl, (Nat.succ.inj hphase).symm⟩
  refine hw.turned hturn n.le_succ ⟨?_, ?_, ?_, ?_, ?_⟩ ?_ ?_
  · rw [hturn.exec, hexec]
    exact hlooked.base
  · rw [hturn.exec, hexec]
    show Swapkit.advance e₂.state .myLegConfirmed = stateIn i (n + 1)
    rw [hlooked.state]
    rcases hphases with ⟨rfl, rfl⟩ | ⟨rfl, rfl⟩ <;> rfl
  · rw [hturn.exec, hexec, if_pos hphase.le]
  · rw [hturn.exec, hexec]
    exact ⟨hlooked.reads.own, hlooked.reads.counterparty⟩
  · rw [hturn.exec, hexec]
    exact fun hi hn => hlooked.revealedSecret hi (Nat.lt_of_succ_lt hn)
  · rcases hphases with ⟨rfl, rfl⟩ | ⟨rfl, rfl⟩ <;> decide
  · intro j
    rcases eq_or_ne j i with rfl | hne
    · have hnot : ¬openedIn j ≤ n := by omega
      have hnotClaimed : ¬claimedIn j ≤ n := by
        rcases hphases with ⟨rfl, rfl⟩ | ⟨rfl, rfl⟩ <;> decide
      refine ((hw.leg j).lock hnot hnotClaimed hsender rfl (lockArgs_fits ..) rfl hown).mono ?_ ?_ ?_
      · simp [hphase]
      · exact Nat.le_succ_of_le
      · rcases hphases with ⟨rfl, rfl⟩ | ⟨rfl, rfl⟩ <;> decide
    · obtain rfl := Bool.eq_not_iff.mpr hne
      rw [hcounterparty]
      refine (hw.leg !i).mono ?_ Nat.le_succ_of_le ?_
      · rcases hphases with ⟨rfl, rfl⟩ | ⟨rfl, rfl⟩ <;> decide
      · rcases hphases with ⟨rfl, rfl⟩ | ⟨rfl, rfl⟩ <;> decide

/-- The step in which a party redeems the other one's leg. -/
theorem InPhase.redeems_step (hphase : claimedIn (!i) = n + 1)
    (hserved : io.tx.Served (w.exec i).ctx.myAmount) {e₁ e₂ : Executor} {q : Bytes32}
    (hfirst : (w.exec i).refresh cr io.first = (e₁, .ok ()))
    (hplanned : nextAction e₁.state e₁.ctx = .redeemCounterpartyLeg q)
    (hsecond : e₁.refresh cr io.second = (e₂, .ok ()))
    (hlooked : Looked cr chainIds secret start i n w e₂)
    (hcurrent : nextAction e₂.state e₂.ctx = .redeemCounterpartyLeg q) :
    (∀ j, openedIn j ≤ n) ∧
      ((w.exec i).step cr io).tx = some (.redeem (Swapkit.redeem
        (ownLeg cr (start !i) (cr.hashlockOf secret)).id q io.tx)) ∧
      ((w.exec i).step cr io).exec = { e₂ with
        state := Swapkit.advance (if e₂.state = .waitingForSecret then
          Swapkit.advance e₂.state .secretObserved else e₂.state) .redeemConfirmed } ∧
      ∃ outcome, ((w.exec i).step cr io).result = .ok outcome := by
  have hopened : ∀ j, openedIn j ≤ n := by
    intro j
    cases i <;> cases j <;> simp only [openedIn, claimedIn, Bool.not_true, Bool.not_false] at * <;>
      omega
  have htarget : e₂.counterpartyContractId =
      some (ownLeg cr (start !i) (cr.hashlockOf secret)).id := by
    rw [hlooked.target, if_pos (hopened !i)]
  rw [Executor.step_redeems hfirst hplanned hsecond hcurrent]
  exact ⟨hopened, Executor.redeemCounterpartyLeg_served htarget hserved⟩

/-- The turn in which a party redeems. -/
theorem InPhase.redeems (hstd : ∀ i, (D i).AllStandard) (ha : Agreement cr D chainIds secret start)
    (hw : InPhase chainIds secret start n w) (hturn : w.Turn i io w')
    (hphase : claimedIn (!i) = n + 1) {e₁ e₂ : Executor} {q : Bytes32}
    (hfirst : (w.exec i).refresh cr io.first = (e₁, .ok ()))
    (hplanned : nextAction e₁.state e₁.ctx = .redeemCounterpartyLeg q)
    (hsecond : e₁.refresh cr io.second = (e₂, .ok ()))
    (hlooked : Looked cr chainIds secret start i n w e₂)
    (hcurrent : nextAction e₂.state e₂.ctx = .redeemCounterpartyLeg q)
    (hpreimage : cr.hashlockOf q = cr.hashlockOf secret) :
    InPhase chainIds secret start (n + 1) w' := by
  obtain ⟨hopened, htx, hexec, -⟩ := InPhase.redeems_step hphase hturn.served hfirst hplanned
    hsecond hlooked hcurrent
  have hphases : i = false ∧ n = 2 ∨ i = true ∧ n = 3 := by
    cases i with
    | false => exact .inl ⟨rfl, (Nat.succ.inj hphase).symm⟩
    | true => exact .inr ⟨rfl, (Nat.succ.inj hphase).symm⟩
  -- What the chains become.
  have hown : (w'.chains i).state = (w.chains i).state := by
    rw [hturn.own, ownCalls, htx]
    rfl
  have hcounterparty := (hw.leg !i).transact_redeem (x := (w.exec i).counterpartySigner)
    (Orderly.reachable (hstd !i) (w.chains !i).reachable).1 (hopened !i)
    (hw.before_timelock ha !i) hpreimage (ha.payee !i)
  have hcalls : counterpartyCalls ((w.exec i).step cr io) =
      [.redeem (ownLeg cr (start !i) (cr.hashlockOf secret)).id q] := by
    rw [counterpartyCalls, htx]
    rfl
  rw [← hcalls, ← hturn.counterparty] at hcounterparty
  refine hw.turned hturn n.le_succ ⟨?_, ?_, ?_, ?_, ?_⟩ ?_ ?_
  · rw [hturn.exec, hexec]
    exact hlooked.base
  · rw [hturn.exec, hexec]
    show Swapkit.advance (if e₂.state = .waitingForSecret then
      Swapkit.advance e₂.state .secretObserved else e₂.state) .redeemConfirmed = stateIn i (n + 1)
    rw [hlooked.state]
    rcases hphases with ⟨rfl, rfl⟩ | ⟨rfl, rfl⟩ <;> rfl
  · rw [hturn.exec, hexec, if_pos (Nat.le_succ_of_le (hopened i))]
    exact hlooked.ownContractId.trans (if_pos (hopened i))
  · rw [hturn.exec, hexec]
    exact ⟨hlooked.reads.own, hlooked.reads.counterparty⟩
  · rintro rfl hn
    rcases hphases with ⟨hi, -⟩ | ⟨-, rfl⟩
    · cases hi
    · exact absurd hn (by decide)
  · rcases hphases with ⟨rfl, rfl⟩ | ⟨rfl, rfl⟩ <;> decide
  · intro j
    rcases eq_or_ne j i with rfl | hne
    · rw [hown]
      refine (hw.leg j).mono ?_ Nat.le_succ_of_le ?_
      · rcases hphases with ⟨rfl, rfl⟩ | ⟨rfl, rfl⟩ <;> decide
      · rcases hphases with ⟨rfl, rfl⟩ | ⟨rfl, rfl⟩ <;> decide
    · obtain rfl := Bool.eq_not_iff.mpr hne
      refine hcounterparty.mono ?_ (fun _ => ?_) (fun _ => trivial)
      · exact ⟨fun _ => hopened _, fun _ => Nat.le_succ_of_le (hopened _)⟩
      · rcases hphases with ⟨rfl, rfl⟩ | ⟨rfl, rfl⟩ <;> decide

variable (cr chainIds secret start) in
/-- What party `i` does on its turn in phase `n`. -/
inductive TurnCase (i : Bool) (n : Nat) (w : Net cr D) (io : StepAnswers) : Prop
  | locks (hready : w.Ready secret start i n) (hphase : openedIn i = n + 1) {e₁ e₂ : Executor}
      (hfirst : (w.exec i).refresh cr io.first = (e₁, .ok ()))
      (hplanned : nextAction e₁.state e₁.ctx = (start i).ctx.lockMyLeg (cr.hashlockOf secret))
      (hsecond : e₁.refresh cr io.second = (e₂, .ok ()))
      (hlooked : Looked cr chainIds secret start i n w e₂)
      (hcurrent : nextAction e₂.state e₂.ctx = (start i).ctx.lockMyLeg (cr.hashlockOf secret))
  | redeems (hready : w.Ready secret start i n) (hphase : claimedIn (!i) = n + 1)
      {e₁ e₂ : Executor} {q : Bytes32}
      (hfirst : (w.exec i).refresh cr io.first = (e₁, .ok ()))
      (hplanned : nextAction e₁.state e₁.ctx = .redeemCounterpartyLeg q)
      (hsecond : e₁.refresh cr io.second = (e₂, .ok ()))
      (hlooked : Looked cr chainIds secret start i n w e₂)
      (hcurrent : nextAction e₂.state e₂.ctx = .redeemCounterpartyLeg q)
      (hpreimage : cr.hashlockOf q = cr.hashlockOf secret)
  | idle (hready : ¬w.Ready secret start i n) {e : Executor} {outcome : Swapkit.StepOutcome}
      (hlooked : Looked cr chainIds secret start i n w e)
      (hstep : (w.exec i).step cr io = ⟨e, .ok outcome, none⟩)

/-- **What a party does** is decided by the phase and the depth of the other leg. -/
theorem InPhase.turn_cases (hstd : ∀ i, (D i).AllStandard)
    (ha : Agreement cr D chainIds secret start) (hw : InPhase chainIds secret start n w)
    (htells : io.first.Tells w.now (w.chains i).toPolledChain (w.chains !i).toPolledChain
      (w.chains !i).state.htlc)
    (htells' : io.second.Tells w.now (w.chains i).toPolledChain (w.chains !i).toPolledChain
      (w.chains !i).state.htlc) :
    TurnCase cr chainIds secret start i n w io := by
  obtain ⟨e₁, hfirst, h₁⟩ := hw.look hstd ha (hw.party i) htells
  obtain ⟨e₂, hsecond, h₂⟩ := hw.look hstd ha h₁.toPartyIn htells'
  have hwaits : ¬w.Ready secret start i n → nextAction e₁.state e₁.ctx = .waitForCounterpartyLock ∨
      nextAction e₁.state e₁.ctx = .waitForSecretReveal →
      TurnCase cr chainIds secret start i n w io :=
    fun hready h => .idle hready h₁ (Executor.step_waits hfirst h)
  have hdone : ¬w.Ready secret start i n → stateIn i n = .counterpartyRedeemed →
      TurnCase cr chainIds secret start i n w io :=
    fun hready h => .idle hready h₁ (Executor.step_done hfirst (h₁.done h))
  match i, n with
  | false, 0 => exact .locks trivial rfl hfirst (h₁.taker_locks ha) hsecond h₂ (h₂.taker_locks ha)
  | false, 1 =>
    exact hwaits id (.inl (h₁.waits_for_lock hstd ha hw rfl (fun h => absurd h (by decide))))
  | false, 2 =>
    by_cases hready : w.Ready secret start false 2
    · have hsafe : ∀ {e}, Looked cr chainIds secret start false 2 w e → e.ctx.CounterpartySafe :=
        fun h => h.counterpartySafe hstd ha hw (Nat.le_refl 2) (by decide) hready
      exact .redeems hready rfl hfirst (h₁.taker_redeems ha (hsafe h₁)) hsecond h₂
        (h₂.taker_redeems ha (hsafe h₂)) rfl
    · exact hwaits hready (.inl (h₁.waits_for_lock hstd ha hw rfl fun _ => hready))
  | false, n + 3 => exact hdone id rfl
  | true, 0 =>
    exact hwaits id (.inl (h₁.waits_for_lock hstd ha hw rfl (fun h => absurd h (by decide))))
  | true, 1 =>
    by_cases hready : w.Ready secret start true 1
    · have hsafe : ∀ {e}, Looked cr chainIds secret start true 1 w e → e.ctx.CounterpartySafe :=
        fun h => h.counterpartySafe hstd ha hw (Nat.le_refl 1) (by decide) hready
      exact .locks hready rfl hfirst (h₁.maker_locks ha (hsafe h₁)) hsecond h₂
        (h₂.maker_locks ha (hsafe h₂))
    · exact hwaits hready (.inl (h₁.waits_for_lock hstd ha hw rfl fun _ => hready))
  | true, 2 => exact hwaits id (.inr (h₁.waits_for_secret ha hw))
  | true, 3 =>
    obtain ⟨q, hq, hq₁, hpreimage⟩ := h₁.known rfl (Nat.le_refl 3)
    obtain ⟨q', hq', hq₂, -⟩ := h₂.known rfl (Nat.le_refl 3)
    -- Both looks find the same preimage.
    have htracker := h₁.reads.own.tracker_eq h₂.reads.own h₁.ownRead h₂.ownRead
    obtain rfl : q = q' := by
      have hsame : e₁.ownObserver.revealedSecret (cr.hashlockOf secret) =
          e₂.ownObserver.revealedSecret (cr.hashlockOf secret) :=
        congrArg (SwapTracker.preimageFor · (cr.hashlockOf secret)) htracker
      rw [hq, hq'] at hsame
      exact Option.some.inj hsame
    exact .redeems trivial rfl hfirst (h₁.maker_redeems ha hq₁) hsecond h₂
      (h₂.maker_redeems ha hq₂) hpreimage
  | true, n + 4 => exact hdone id rfl

/-- **A turn that leads on.** -/
theorem InPhase.ready_turn (hstd : ∀ i, (D i).AllStandard)
    (ha : Agreement cr D chainIds secret start) (hw : InPhase chainIds secret start n w)
    (hturn : w.Turn i io w') (hready : w.Ready secret start i n) :
    InPhase chainIds secret start (n + 1) w' := by
  cases hw.turn_cases hstd ha hturn.first hturn.second with
  | locks _ hphase hfirst hplanned hsecond hlooked hcurrent =>
    exact hw.locks hstd ha hturn hphase hfirst hplanned hsecond hlooked hcurrent
  | redeems _ hphase hfirst hplanned hsecond hlooked hcurrent hpreimage =>
    exact hw.redeems hstd ha hturn hphase hfirst hplanned hsecond hlooked hcurrent hpreimage
  | idle hnot => exact absurd hready hnot

/-- Every other turn leaves the swap where it is. -/
theorem InPhase.other_turn (hstd : ∀ i, (D i).AllStandard)
    (ha : Agreement cr D chainIds secret start) (hw : InPhase chainIds secret start n w)
    (hturn : w.Turn i io w') (hnot : ¬w.Ready secret start i n) :
    InPhase chainIds secret start n w' := by
  cases hw.turn_cases hstd ha hturn.first hturn.second with
  | locks hready => exact absurd hready hnot
  | redeems hready => exact absurd hready hnot
  | idle _ hlooked hstep => exact hw.idle hturn hlooked hstep

/-- A party whose transactions are served reports no error. -/
theorem InPhase.visit_ok (hstd : ∀ i, (D i).AllStandard)
    (ha : Agreement cr D chainIds secret start) (hw : InPhase chainIds secret start n w)
    (hturn : w.Visit i io w') : ∃ outcome, ((w.exec i).step cr io).result = .ok outcome := by
  cases hw.turn_cases hstd ha hturn.first hturn.second with
  | locks _ hphase hfirst hplanned hsecond hlooked hcurrent =>
    obtain ⟨call, -, -, -, -, hok⟩ := hw.locks_step ha hturn.served hphase hfirst hplanned hsecond
      hlooked hcurrent
    exact hok
  | redeems _ hphase hfirst hplanned hsecond hlooked hcurrent =>
    obtain ⟨-, -, -, hok⟩ := InPhase.redeems_step hphase hturn.served hfirst hplanned hsecond
      hlooked hcurrent
    exact hok
  | idle _ hlooked hstep => exact ⟨_, congrArg _ hstep⟩

end Turns

/-! ## Runs -/

section Completion

variable {cr : Crypto} {D : Bool → Deployment} {chainIds : Bool → U64} {secret : Bytes32}
  {start : Bool → Executor} {i : Bool} {n : Nat} {w w' : Net cr D}

/-- Nothing is locked under the hashlock. -/
structure Net.Unused (h : Bytes32) (w : Net cr D) : Prop where
  late : ∀ i, RefundedLate w.time (w.chains i).state
  fits : ∀ i, ∀ e ∈ (w.chains i).state.htlc.logs, EventFits e
  unused : ∀ i, ∀ e ∈ (w.chains i).state.htlc.logs, lockUnder h e = none

/-- Two parties that have just agreed, while there is time left. -/
structure Net.Opens (secret : Bytes32) (start : Bool → Executor) (w : Net cr D) : Prop extends
    w.Unused (cr.hashlockOf secret) where
  time : InTime start w.now
  exec : w.exec = start

theorem InPhase.opening (hstd : ∀ i, (D i).AllStandard)
    (ha : Agreement cr D chainIds secret start) (hopens : w.Opens secret start) :
    InPhase chainIds secret start 0 w := by
  have hclosed : ∀ i, ¬openedIn i ≤ 0 ∧ ¬claimedIn i ≤ 0 := by decide
  refine ⟨hopens.time, fun i => ?_, fun i => ⟨hopens.late i, hopens.fits i, ?_, ?_, ?_, ?_⟩⟩
  · rw [hopens.exec]
    refine ⟨rfl, (ha.state i).trans (by cases i <;> rfl), ?_, ⟨?_, ?_⟩, fun _ _ => (ha.fresh i).2⟩
    · rw [if_neg (hclosed i).1]
      exact (ha.fresh i).1
    · rw [ha.ownObserver i]
      exact .new
    · rw [ha.counterpartyObserver i]
      exact .new
  · intro e he c hc
    rw [hopens.unused i e he] at hc
    cases hc
  · exact fun h => absurd h (hclosed i).1
  -- What has been redeemed has been locked, and under another hashlock.
  · intro _ c hhash
    rw [← Bool.not_eq_true]
    intro hwithdrawn
    have hexplains := (w.chains i).explains (hstd i)
    obtain ⟨q, hq⟩ := hexplains.withdrawn c hwithdrawn
    obtain ⟨e, he, hunder⟩ := exists_lockUnder hexplains (hexplains.sound _ hq).1 hhash
    rw [hopens.unused i e he] at hunder
    cases hunder
  · exact fun h => absurd h (hclosed i).2

/-- What others do before the deadline leaves the swap where it is. -/
theorem InPhase.others (hstd : ∀ i, (D i).AllStandard)
    (ha : Agreement cr D chainIds secret start) (hw : InPhase chainIds secret start n w)
    (hrun : Run (system cr (D i)
      (bystanders cr (cr.hashlockOf secret) (w.Revealed (cr.hashlockOf secret))) w.time)
      ⟨(w.chains i).state, []⟩ ⟨(w'.chains i).state, []⟩)
    (hgrows : (w.chains i).blocks <+: (w'.chains i).blocks)
    (hother : w'.chains (!i) = w.chains (!i)) (hexec : w'.exec = w.exec) (hnow : w'.now = w.now) :
    InPhase chainIds secret start n w' := by
  have htime : w'.time = w.time := congrArg (BitVec.setWidth 256) hnow
  have hrevealed : w.Revealed (cr.hashlockOf secret) → 3 ≤ n := by
    rintro ⟨j, hdiscloses⟩
    by_contra hnot
    exact (hw.leg j).not_discloses ((w.chains j).explains (hstd j)) hnot hdiscloses
  have hblocks : ∀ j, (w.chains j).blocks <+: (w'.chains j).blocks := by
    intro j
    rcases eq_or_ne j i with rfl | hne
    · exact hgrows
    · obtain rfl := Bool.eq_not_iff.mpr hne
      rw [hother]
  refine ⟨hnow ▸ hw.time, fun j => ?_, fun j => ?_⟩
  · rw [hexec]
    exact (hw.party j).later (Nat.le_refl n) rfl Iff.rfl (hblocks j) (hblocks !j)
  · rw [htime]
    rcases eq_or_ne j i with rfl | hne
    · exact (hw.leg j).others (hstd j) hrun hrevealed (hw.before_timelock ha j)
    · obtain rfl := Bool.eq_not_iff.mpr hne
      rw [hother]
      exact hw.leg !i

/-- A step whose endpoints do not answer leaves the swap where it is. -/
theorem InPhase.failed {io : StepAnswers} {failure : ExecutorError}
    (hw : InPhase chainIds secret start n w) (hlogs : io.first.Logs (w.chains !i).toPolledChain)
    (hfails : ((w.exec i).refresh cr io.first).2 = .err failure)
    (hexec : w'.exec i = ((w.exec i).step cr io).exec) (hother : w'.exec (!i) = w.exec (!i))
    (hchains : w'.chains = w.chains) (hnow : w'.now = w.now) :
    InPhase chainIds secret start n w' := by
  have htime : w'.time = w.time := congrArg (BitVec.setWidth 256) hnow
  have hp := hw.party i
  obtain ⟨e, hrefresh⟩ : ∃ e, (w.exec i).refresh cr io.first = (e, .err failure) :=
    ⟨_, Prod.ext rfl hfails⟩
  have hstep : (w.exec i).step cr io = ⟨e, .err failure, none⟩ := by
    simp only [Executor.step, hrefresh]
  have hrefreshed := Executor.refreshed_of_refresh hrefresh
  obtain ⟨hreads, hrevealed⟩ := Executor.refresh_fails hp.reads hlogs hrefresh
  refine ⟨hnow ▸ hw.time, fun j => ?_, fun j => ?_⟩
  · rw [hchains]
    rcases eq_or_ne j i with rfl | hne
    · rw [hexec, hstep]
      exact ⟨hrefreshed.base.trans hp.base, hrefreshed.state.trans hp.state,
        hrefreshed.ownContractId.trans hp.ownContractId, hreads,
        fun hi hn => hrevealed.trans (hp.revealedSecret hi hn)⟩
    · obtain rfl := Bool.eq_not_iff.mpr hne
      rw [hother]
      exact hw.party !i
  · rw [hchains, htime]
    exact hw.leg j

theorem InPhase.between (hstd : ∀ i, (D i).AllStandard)
    (ha : Agreement cr D chainIds secret start) (hw : InPhase chainIds secret start n w)
    (hbetween : Net.Between secret start w w') : InPhase chainIds secret start n w' := by
  cases hbetween with
  | others i hrun hgrows hother hexec hnow => exact hw.others hstd ha hrun hgrows hother hexec hnow
  | tick hnow htime hchains hexec =>
    refine ⟨htime, fun j => ?_, fun j => ?_⟩
    · rw [hchains, hexec]
      exact hw.party j
    · rw [hchains]
      refine (hw.leg j).later ?_
      rw [Net.time, Net.time, BitVec.le_def, BitVec.toNat_setWidth_of_le (by omega),
        BitVec.toNat_setWidth_of_le (by omega)]
      exact hnow

/-- **A step keeps the phase** or leads on to the next one. -/
theorem InPhase.step (hstd : ∀ i, (D i).AllStandard)
    (ha : Agreement cr D chainIds secret start) (hw : InPhase chainIds secret start n w)
    (hstep : Net.Step secret start w w') :
    InPhase chainIds secret start n w' ∨ InPhase chainIds secret start (n + 1) w' := by
  cases hstep with
  | between hbetween => exact .inl (hw.between hstd ha hbetween)
  | turn i io hturn =>
    by_cases hready : w.Ready secret start i n
    · exact .inr (hw.ready_turn hstd ha hturn hready)
    · exact .inl (hw.other_turn hstd ha hturn hready)
  | failed i io hlogs hfails hexec hother hchains hnow =>
    exact .inl (hw.failed hlogs hfails hexec hother hchains hnow)

/-- The phases are the rungs. -/
theorem ladder (hstd : ∀ i, (D i).AllStandard) (ha : Agreement cr D chainIds secret start) :
    Ladder (Net.Step secret start) (Net.Push secret start)
      (fun n (w : Net cr D) => InPhase chainIds secret start n w) where
  keeps hw hstep := by
    rcases hw.step hstd ha hstep with hkept | hnext
    · exact ⟨_, Nat.le_refl _, hkept⟩
    · exact ⟨_, Nat.le_succ _, hnext⟩
  steps := fun ⟨i, io, hturn, _⟩ => .turn i io hturn
  climbs := fun hw ⟨_, _, hturn, hready⟩ =>
    ⟨_, Nat.lt_succ_self _, hw.ready_turn hstd ha hturn hready⟩

/-- Party `i` has redeemed, and its own leg has been paid out once, to the other
    party. -/
structure Net.Completed (secret : Bytes32) (start : Bool → Executor) (w : Net cr D) (i : Bool) :
    Prop where
  redeemed : (w.exec i).state = .counterpartyRedeemed
  paid : (w.chains i).state.books.paidFor (ownLeg cr (start i) (cr.hashlockOf secret)).id =
    [⟨(ownLeg cr (start i) (cr.hashlockOf secret)).id, (D i).htlc,
      ⟨(start i).ctx.myToken, (start !i).ctx.me, (start i).ctx.myAmount.setWidth 256⟩⟩]

/-- From the fourth phase on both parties are through. -/
theorem InPhase.completed (hstd : ∀ i, (D i).AllStandard)
    (ha : Agreement cr D chainIds secret start) (hw : InPhase chainIds secret start n w)
    (hn : 4 ≤ n) (i : Bool) : w.Completed secret start i := by
  have hstate : stateIn i n = .counterpartyRedeemed := by
    obtain ⟨k, rfl⟩ := Nat.exists_eq_add_of_le' hn
    cases i <;> rfl
  have hclaimed : claimedIn i ≤ n := le_trans (by cases i <;> decide) hn
  obtain ⟨hexists, hwithdrawn, hterms⟩ := Swap.stage_claimed.mp ((hw.leg i).claimed hclaimed)
  have hpayout : ((w.chains i).state.htlc.swaps
      (ownLeg cr (start i) (cr.hashlockOf secret)).id).redeemPayout =
      ⟨(start i).ctx.myToken, (start i).ctx.myRecipient, (start i).ctx.myAmount.setWidth 256⟩ :=
    congrArg (fun t : Terms => HashedTimelock.Payout.mk t.token t.recipient t.amount) hterms
  refine ⟨(hw.party i).state.trans hstate, ?_⟩
  rw [(Orderly.reachable (hstd i) (w.chains i).reachable).1.paid_of_withdrawn hexists hwithdrawn,
    ha.recipient !i, Bool.not_not, hpayout]

/-- **An honest swap completes.** From an opening, whatever bystanders do within
    their policy: once the four turns that lead on have been taken, each party has
    redeemed the other's leg, which has been paid out once, as agreed. -/
theorem honest_swap_completes (hstd : ∀ i, (D i).AllStandard)
    (ha : Agreement cr D chainIds secret start) (hopens : w.Opens secret start)
    (hclimbs : Climbs (Net.Step secret start) (Net.Push secret start) w 4 w') (i : Bool) :
    w'.Completed secret start i := by
  obtain ⟨m, hm, hw⟩ := (ladder hstd ha).climb (.opening hstd ha hopens) hclimbs
  exact hw.completed hstd ha hm i

end Completion

/-! ## Mining what a turn sends -/

section Mining

variable {cr : Crypto} {D : Bool → Deployment}

/-- What is sent is mined by a run of the chain. -/
theorem transact_run {D : Deployment} {now : Uint256} {x : Address} {s : State} {calls : List Call}
    (hx : D.Account x) :
    Run (system cr D anyone now) ⟨s, []⟩ ⟨transact cr D now x s calls, []⟩ := by
  induction calls generalizing s with
  | nil => exact .refl
  | cons call calls ih =>
    cases hcall : callThrough cr D now x call s with
    | error e =>
      simp only [transact, List.foldl_cons, hcall]
      exact ih
    | ok s' =>
      simp only [transact, List.foldl_cons, hcall]
      exact (Exchange.callThrough_run hx trivial hcall).trans ih

/-- The chain one block later, in which `calls` have been mined. -/
def mine {D : Deployment} (p : LiveChain cr D anyone) (now : Uint256) (x : Address)
    (calls : List Call) (new : List HashedTimelock.Event) (hx : D.Account x)
    (hfits : (p.blocks ++ [new]).length < 2 ^ 64)
    (hnew : (transact cr D now x p.state calls).htlc.logs = p.state.htlc.logs ++ new) :
    LiveChain cr D anyone where
  blocks := p.blocks ++ [new]
  numberError := none
  logsError := none
  nonempty := by simp
  fits := hfits
  state := transact cr D now x p.state calls
  reachable := by
    obtain ⟨l, hgenesis, hrun⟩ := p.reachable
    exact ⟨l, hgenesis, hrun.trans (transact_run hx).to_union⟩
  mined := by simp [hnew, p.mined]

/-- Who signs on chain `j` when party `i` takes a turn. -/
def Net.signer (w : Net cr D) (i j : Bool) : Address :=
  if j = i then (w.exec i).ownSigner else (w.exec i).counterpartySigner

/-- What is sent to chain `j` when party `i` takes a turn. -/
def Net.calls (w : Net cr D) (i : Bool) (io : StepAnswers) (j : Bool) : List Call :=
  if j = i then ownCalls ((w.exec i).step cr io) else counterpartyCalls ((w.exec i).step cr io)

/-- The blocks that a turn of party `i` is mined in. -/
structure Net.Mines (w : Net cr D) (i : Bool) (io : StepAnswers)
    (new : Bool → List HashedTimelock.Event) : Prop where
  account : ∀ j, (D j).Account (w.signer i j)
  fits : ∀ j, ((w.chains j).blocks ++ [new j]).length < 2 ^ 64
  logs : ∀ j, (transact cr (D j) w.time (w.signer i j) (w.chains j).state
    (w.calls i io j)).htlc.logs = (w.chains j).state.htlc.logs ++ new j

/-- The net after a turn of party `i`. -/
def Net.next (w : Net cr D) (i : Bool) (io : StepAnswers)
    (new : Bool → List HashedTimelock.Event) (h : w.Mines i io new) : Net cr D where
  now := w.now
  chains j := mine (w.chains j) w.time (w.signer i j) (w.calls i io j) (new j) (h.account j)
    (h.fits j) (h.logs j)
  exec j := if j = i then ((w.exec i).step cr io).exec else w.exec j

/-- What the endpoints of party `i` tell. -/
def Net.tells (w : Net cr D) (i : Bool) : RefreshAnswers where
  now := w.now
  counterpartyPoll := (w.chains !i).answers
  counterpartyLock :=
    ⟨fun id => .ok ((w.chains !i).state.htlc.swaps id), .ok (w.chains !i).head,
      fun id => .ok ((w.chains !i).creationBlocks id)⟩
  ownPoll := (w.chains i).answers

/-- A turn can be taken whenever the endpoints answer. -/
theorem Net.turn_next {w : Net cr D} {i : Bool} {tx : TxAnswers} {random : Bytes32}
    {new : Bool → List HashedTimelock.Event}
    (hanswered : ∀ j, (w.chains j).toPolledChain.Answered)
    (hserved : tx.Served (w.exec i).ctx.myAmount)
    (hfunded : ∀ sending,
      ((w.exec i).step cr ⟨w.tells i, w.tells i, tx, random⟩).tx = some (.lock sending) →
        AllSucceed cr (D i) w.time (w.exec i).ownSigner (w.chains i).state sending.sent)
    (h : w.Mines i ⟨w.tells i, w.tells i, tx, random⟩ new) :
    w.Turn i ⟨w.tells i, w.tells i, tx, random⟩ (w.next i _ new h) where
  first := ⟨rfl, hanswered i, rfl, hanswered !i, rfl, fun _ => rfl, rfl, fun _ => rfl⟩
  second := ⟨rfl, hanswered i, rfl, hanswered !i, rfl, fun _ => rfl, rfl, fun _ => rfl⟩
  served := hserved
  exec := if_pos rfl
  otherExec := if_neg (Bool.not_ne_self i)
  own := by
    show transact cr (D i) w.time (w.signer i i) _ (w.calls i _ i) = _
    rw [Net.signer, Net.calls, if_pos rfl, if_pos rfl]
  counterparty := by
    show transact cr (D !i) w.time (w.signer i !i) _ (w.calls i _ !i) = _
    rw [Net.signer, Net.calls, if_neg (Bool.not_ne_self i), if_neg (Bool.not_ne_self i)]
  funded := hfunded
  grows j := List.prefix_append ..
  now := rfl

end Mining

namespace Sample

open Exchange.Sample (maker rival deployment ledger lockWords longLock longLockId)
open HashedTimelock.Sample (hashlock preimage)

/-- Two chains with the same contracts. -/
def deployments (i : Bool) : Deployment := { deployment with chainId := cond i 31338 31337 }

theorem deployments_allStandard (i : Bool) : (deployments i).AllStandard := fun _ h _ _ => h

/-- `maker`'s lock of 5 wei for `rival`. -/
def shortLock : NewSwap := ⟨rival, zeroAddress, 5, hashlock, 1000⟩

def shortLockId : Bytes32 := 0x5e7188a3e5c665895bdb1e7a50f16891e2c3b1d1de173d9dcbf6ed80dd6124bb

/-- Sells the 7 wei of `rival`. -/
def takerOrder : Exchange.Sample.Signed where
  order := ⟨rival, zeroAddress, 31337, 7, zeroAddress, 31338, 5, 5000, 1⟩
  structHash := 0xa98e49fa6e9ab6d0c587a4fbf0ff1130b3c24b8aecd12a8566494b2c628fea54
  digest := 0x02e1dbf022e683dae32018287144ed79306d8f80b2815094d44586753ca40f2d
  r := 0x3e12119b6cd9105302f40c618ca5d256854e6d20365d26aab3e6b3c43f4565bd
  s := 0x2cf32862b386f41b8b8faab0a3b663d073126565aa285aacca115072c3c1ff5c
  v := 28

/-- Sells the 5 wei of `maker`. -/
def makerOrder : Exchange.Sample.Signed where
  order := ⟨maker, zeroAddress, 31338, 5, zeroAddress, 31337, 7, 5000, 1⟩
  structHash := 0xb099093558040f1b2a0d74ef9b6f602a94d9daf39f7b3259dad3645138fd15ee
  digest := 0xc75e18935382da581192a9a29919cda4a11ffa447747157edc4db7c52a99b6f0
  r := 0x6a8283958cf9377367159b42223adba46271136660f2b24f5d721b0c10ae8c51
  s := 0x311d6e8ddb2d96854bab58044114237f004dafd4e673b015032f7fa4b291dfd5
  v := 28

/-- The public keys of `rival` and of `maker`. -/
def key : Bool → List Byte
  | false => [4] ++
      wordBytes 0xc6047f9441ed7d6d3045406e95c07cd85c778e4b8cef3ca7abac09b95c709ee5 ++
      wordBytes 0x1ae168fea63dc339a3c58419466ceaeef7f632653266d0e1236431a950cfe52a
  | true => [4] ++
      wordBytes 0x79be667ef9dcbbac55a06295ce870b07029bfcdb2dce28d959f2815b16f81798 ++
      wordBytes 0x483ada7726a3c4655da4fbfc0e1108a8fd17b448a68554199c47d08ffb10d4b8

/-- The hashes of the two locks, of the two orders and of the secret. -/
def hashes : Crypto := .ofTables
  ([(lockWords rival longLock, longLockId), (lockWords maker shortLock, shortLockId),
    ((key false).drop 1, 0xeedf1a9c68b3f4a8b1a1032b2b5ad5c4795c026514f8317c7a215e218dccd6cf),
    ((key true).drop 1, 0xc0a6c424ac7157ae408398df7e5f4552091a69125d5dfcb7b8c2659029395bdf)] ++
    takerOrder.hashes ++ makerOrder.hashes ++
    [(abiEncode
        [0xb03948446334eb9b2196d5eb166f69b9d49403eb4a12f36de8d3f9f3cb8e15c3,
          0xd699c44124502d280929a94c15db1397d2eaee89c24cd9f780bad1191a22ad62,
          0xc89efdaa54c0f20c7adf612882df0950f5a951637e0307cdcb4c672f298b8bc6],
        Exchange.Sample.domainSeparator),
      (asciiBytes "Kael", 0xd699c44124502d280929a94c15db1397d2eaee89c24cd9f780bad1191a22ad62),
      (asciiBytes "1", 0xc89efdaa54c0f20c7adf612882df0950f5a951637e0307cdcb4c672f298b8bc6),
      (asciiBytes "EIP712Domain(string name,string version)",
        0xb03948446334eb9b2196d5eb166f69b9d49403eb4a12f36de8d3f9f3cb8e15c3),
      (asciiBytes ("Order(address maker,address sellToken,uint256 sellChainId," ++
        "uint256 sellAmount,address buyToken,uint256 buyChainId,uint256 buyAmount," ++
        "uint256 validUntil,uint256 nonce)"), Exchange.Sample.orderTypehash)])
  [(wordBytes preimage, hashlock)] []

/-- The taker locks `rival`'s 7 wei, the maker `maker`'s 5 wei. -/
def parties (i : Bool) : Executor where
  state := cond i .start .secretGenerated
  ctx :=
    { role := cond i .maker .taker
      myToken := zeroAddress
      myAmount := cond i 5 7
      myTimelock := cond i 1000 2000
      myRecipient := cond i rival maker
      cpToken := zeroAddress
      cpAmount := cond i 7 5
      me := cond i maker rival
      minGap := 200
      hashlock := some hashlock
      secret := cond i none (some preimage)
      myLegLocked := false
      counterpartyLock := none
      revealedSecret := none
      now := 10 }
  ownSigner := cond i maker rival
  counterpartySigner := cond i maker rival
  ownHtlc := deployment.htlc
  counterpartyHtlc := deployment.htlc
  ownSettlementLock := none
  ownObserver := .new (cond i 31338 31337)
  counterpartyObserver := .new (cond i 31337 31338)
  minConfirmations := 1
  ownContractId := none
  counterpartyContractId := none

/-- A chain with its genesis block. -/
def genesisChain (i : Bool) : LiveChain hashes (deployments i) anyone where
  blocks := [[]]
  numberError := none
  logsError := none
  nonempty := by decide
  fits := by decide
  state := .fresh ledger
  reachable := ⟨ledger, Exchange.Sample.genesis, .refl⟩
  mined := rfl

def opening : Net hashes deployments := ⟨10, genesisChain, parties⟩

/-- Every transaction has its receipt, and an approval is of the whole amount. -/
def txAnswers (amount : U128) : TxAnswers where
  approve := ⟨⟨.ok (), .ok ⟨1, true⟩⟩, .ok (amount.setWidth 256)⟩
  call := ⟨.ok (), .ok ⟨2, true⟩⟩

def turnAnswers (w : Net hashes deployments) (i : Bool) : StepAnswers :=
  ⟨w.tells i, w.tells i, txAnswers (w.exec i).ctx.myAmount, 0⟩

def takerLocked : Bool → List HashedTimelock.Event
  | false => [Exchange.lockEvent rival longLock longLockId]
  | true => []

def makerLocked : Bool → List HashedTimelock.Event
  | false => []
  | true => [Exchange.lockEvent maker shortLock shortLockId]

def takerRedeemed : Bool → List HashedTimelock.Event
  | false => []
  | true => [.logRedeem shortLockId preimage]

def makerRedeemed : Bool → List HashedTimelock.Event
  | false => [.logRedeem longLockId preimage]
  | true => []

theorem mines_first : opening.Mines false (turnAnswers opening false) takerLocked :=
  ⟨by decide +kernel, by decide +kernel, by decide +kernel⟩

def first := opening.next false _ _ mines_first

theorem mines_second : first.Mines true (turnAnswers first true) makerLocked :=
  ⟨by decide +kernel, by decide +kernel, by decide +kernel⟩

def second := first.next true _ _ mines_second

theorem mines_third : second.Mines false (turnAnswers second false) takerRedeemed :=
  ⟨by decide +kernel, by decide +kernel, by decide +kernel⟩

def third := second.next false _ _ mines_third

theorem mines_fourth : third.Mines true (turnAnswers third true) makerRedeemed :=
  ⟨by decide +kernel, by decide +kernel, by decide +kernel⟩

def fourth := third.next true _ _ mines_fourth

theorem agreement :
    Agreement hashes deployments (fun i => cond i 31338 31337) preimage parties where
  role i := by cases i <;> rfl
  state i := by cases i <;> rfl
  hashlock i := by cases i <;> decide
  secret := rfl
  fresh i := by cases i <;> exact ⟨rfl, rfl⟩
  ownObserver i := by cases i <;> rfl
  counterpartyObserver i := by cases i <;> rfl
  token i := by cases i <;> rfl
  amount i := by cases i <;> rfl
  recipient i := by cases i <;> rfl
  nonzero i := by cases i <;> decide
  ordered := by decide
  gap i := by cases i <;> decide
  ownSigner i := by cases i <;> decide
  counterpartySigner i := by cases i <;> decide
  payee i := by cases i <;> decide
  settlement i config h := by cases i <;> cases h

theorem served (amount : U128) : (txAnswers amount).Served amount :=
  ⟨⟨_, rfl⟩, rfl, ⟨_, rfl⟩⟩

/-- The turn of party `i`, which calls at most once. -/
theorem turn {w : Net hashes deployments} {i : Bool}
    {new : Bool → List HashedTimelock.Event} (h : w.Mines i (turnAnswers w i) new)
    (hanswered : ∀ j, (w.chains j).toPolledChain.Answered)
    (hfunded : (ownCalls ((w.exec i).step hashes (turnAnswers w i))).all (fun call =>
      Exchange.okAnd (fun _ => true) (callThrough hashes (deployments i) w.time (w.exec i).ownSigner call
        (w.chains i).state)) = true)
    (hone : (ownCalls ((w.exec i).step hashes (turnAnswers w i))).length ≤ 1) :
    w.Turn i (turnAnswers w i) (w.next i _ new h) := by
  refine Net.turn_next hanswered (served _) ?_ h
  intro sending hsending
  have hcalls : ownCalls ((w.exec i).step hashes (turnAnswers w i)) = sending.sent := by
    rw [ownCalls, show ((w.exec i).step hashes (turnAnswers w i)).tx = some (.lock sending) from
      hsending]
  rw [hcalls] at hfunded hone
  match hsent : sending.sent with
  | [] => trivial
  | [call] =>
    rw [hsent, List.all_cons, List.all_nil, Bool.and_true] at hfunded
    obtain ⟨s', hok, -⟩ := Exchange.okAnd_iff.mp hfunded
    exact ⟨s', hok, trivial⟩
  | _ :: _ :: _ =>
    rw [hsent] at hone
    exact absurd hone (by simp)

theorem opens : opening.Opens preimage parties := by
  refine ⟨⟨?_, ?_, ?_⟩, ⟨by decide, by decide⟩, rfl⟩
  · intro i c hc
    cases hc
  · intro i e he
    cases he
  · intro i e he
    cases he

theorem climbs : Climbs (Net.Step preimage parties) (Net.Push preimage parties) opening 4 fourth := by
  have hfirst := turn mines_first (fun _ => ⟨rfl, rfl⟩) (by decide +kernel) (by decide +kernel)
  have hsecond := turn mines_second (fun _ => ⟨rfl, rfl⟩) (by decide +kernel) (by decide +kernel)
  have hthird := turn mines_third (fun _ => ⟨rfl, rfl⟩) (by decide +kernel) (by decide +kernel)
  have hfourth := turn mines_fourth (fun _ => ⟨rfl, rfl⟩) (by decide +kernel) (by decide +kernel)
  have hdeep₁ : (parties true).minConfirmations.toNat ≤ (first.chains false).depth
      (ownLeg hashes (parties false) (hashes.hashlockOf preimage)).id := by
    decide +kernel
  have hdeep₂ : (parties false).minConfirmations.toNat ≤ (second.chains true).depth
      (ownLeg hashes (parties true) (hashes.hashlockOf preimage)).id := by
    decide +kernel
  exact ⟨_, _, ⟨_, _, ⟨_, _, ⟨_, _, .refl, ⟨_, _, hfirst, trivial⟩, .refl⟩,
    ⟨_, _, hsecond, hdeep₁⟩, .refl⟩, ⟨_, _, hthird, hdeep₂⟩, .refl⟩,
    ⟨_, _, hfourth, trivial⟩, .refl⟩

end Sample

/-- An honest swap of 7 wei for 5 wei, in four turns. -/
theorem honest_swap_completes_of_ether :
    ∃ w' : Net Sample.hashes Sample.deployments,
      Climbs (Net.Step HashedTimelock.Sample.preimage Sample.parties)
        (Net.Push HashedTimelock.Sample.preimage Sample.parties) Sample.opening 4 w' ∧
      ∀ i, w'.Completed HashedTimelock.Sample.preimage Sample.parties i :=
  ⟨_, Sample.climbs, honest_swap_completes Sample.deployments_allStandard Sample.agreement
    Sample.opens Sample.climbs⟩

end Kael.CrossChain
