import Kael.Contracts.Deadlines
import Kael.Swapkit.Chain
import Kael.Swapkit.StateMachine
import Kael.Swapkit.Tx

/-!
# The Maker's Side of a Swap

Two chains under one clock: the taker's, where the maker is paid, and the
maker's, where the maker locks after `nextAction` told it to. Everybody may
call anything, on both chains and at any depth; only the maker's own `newSwap`
calls are restricted, to those of its decisions.

The gap that the verifier asks for is the whole argument: until it has passed,
the record the maker relied on cannot be refunded, so a preimage revealed on
the maker's chain can still be used on the taker's.
-/

namespace Kael.CrossChain

open NestedCalls
open Exchange (Deployment State Call Policy system anyTime anyone Genesis Orderly Vested
  RecordEffect RefundedLate Revealed moves_records)
open HashedTimelock (NewSwap Swap Terms)
open Swapkit (SwapContext nextAction rawSwap observedFromSwap Observes lockArgs
  verifyCounterpartyLeg_safe nextAction_lockMyLeg)

/-! ## Worlds -/

/-- A decision of the maker to lock against a record of the taker's chain. -/
structure Plan where
  ctx : SwapContext
  /-- The id of the record the maker relies on. -/
  contractId : Bytes32
  /-- What the maker is going to lock. -/
  lock : NewSwap

/-- The plan is what `nextAction` says on the record as it is in `s`. -/
structure Plan.Decided (P : Plan) (s : State) : Prop where
  role : P.ctx.role = .maker
  observed : ∃ raw, rawSwap (s.htlc.swaps P.contractId) = .ok raw ∧
    P.ctx.counterpartyLock = some (observedFromSwap raw)
  action : ∃ recipient token amount hashlock timelock,
    nextAction .start P.ctx = .lockMyLeg recipient token amount hashlock timelock ∧
    P.lock = lockArgs recipient token amount hashlock timelock

/-- The two chains, and the plans made so far. -/
structure World where
  now : Uint256
  /-- The taker's chain. -/
  a : Config State
  /-- The maker's chain. -/
  b : Config State
  plans : List Plan

/-- The maker calls `newSwap` for its plans only. -/
def plannedLocks (maker : Address) (plans : List Plan) : Policy :=
  fun x call => ∀ value a, call = .newSwap value a → x = maker → ∃ P ∈ plans, a = P.lock

/-- One step of anybody. Decisions are taken and blocks end outside all calls. -/
inductive World.Step (cr : Crypto) (A B : Deployment) (maker : Address) : World → World → Prop where
  | onA {w : World} {a' : Config State} (h : NestedCalls.Step (system cr A anyone w.now) w.a a') :
      Step cr A B maker w { w with a := a' }
  | onB {w : World} {b' : Config State}
      (h : NestedCalls.Step (system cr B (plannedLocks maker w.plans) w.now) w.b b') :
      Step cr A B maker w { w with b := b' }
  | decide {w : World} {s : State} (P : Plan) (hcalls : w.a = ⟨s, []⟩) (hme : A.Account P.ctx.me)
      (hdecided : P.Decided s) : Step cr A B maker w { w with plans := P :: w.plans }
  | tick {w : World} (now' : Uint256) (ha : w.a.saved = []) (hb : w.b.saved = [])
      (hnow : w.now ≤ now') : Step cr A B maker w { w with now := now' }

/-- Reachable from fresh contracts on both chains. -/
def World.Reachable (cr : Crypto) (A B : Deployment) (maker : Address) (w : World) : Prop :=
  ∃ now la lb, Genesis A la ∧ Genesis B lb ∧
    Relation.ReflTransGen (World.Step cr A B maker)
      ⟨now, ⟨State.fresh la, []⟩, ⟨State.fresh lb, []⟩, []⟩ w

/-! ## What a decision establishes -/

/-- The record the maker relies on pays it what it expects, and outlasts the
    maker's own lock by the gap. -/
structure Plan.Backed (P : Plan) (t : Terms) : Prop where
  token : t.token = P.ctx.cpToken
  amount : t.amount.toNat = P.ctx.cpAmount.toNat
  recipient : t.recipient = P.ctx.me
  hashlock : t.hashlock = P.lock.hashlock
  gap : P.ctx.myTimelock.toNat + P.ctx.minGap.toNat < 2 ^ 64 →
    P.ctx.myTimelock.toNat + P.ctx.minGap.toNat ≤ t.timelock.toNat

theorem Plan.Backed.redeemPayout {P : Plan} {r : Swap} (h : P.Backed r.terms) :
    r.redeemPayout = ⟨P.ctx.cpToken, P.ctx.me, P.ctx.cpAmount.setWidth 256⟩ :=
  Swap.redeemPayout_eq h.token h.recipient h.amount

theorem Plan.Decided.backed {P : Plan} {s : State} (h : P.Decided s) :
    (s.htlc.swaps P.contractId).Active ∧ P.Backed (s.htlc.swaps P.contractId).terms := by
  obtain ⟨raw, hraw, hobserved⟩ := h.observed
  obtain ⟨recipient, token, amount, hashlock, timelock, haction, hlock⟩ := h.action
  -- A maker locks only past its gate.
  obtain ⟨hhashlock, -, ⟨hrole, -⟩ | ⟨-, -, obs, hobs, hsafe⟩⟩ := nextAction_lockMyLeg.mp haction
  · rw [h.role] at hrole
    cases hrole
  · rw [hobserved] at hobs
    cases hobs
    obtain ⟨hmatches, hordered, -⟩ := verifyCounterpartyLeg_safe.mp hsafe
    have hreads : Observes (s.htlc.swaps P.contractId) (observedFromSwap raw) :=
      .of_rawSwap hraw hmatches.exist
    refine ⟨hreads.active, ?_⟩
    constructor
    · exact hreads.token.trans hmatches.token
    · rw [show (s.htlc.swaps P.contractId).terms.amount = (s.htlc.swaps P.contractId).amount from rfl,
        hreads.amount, hmatches.amount]
      rfl
    · exact hreads.recipient.trans hmatches.recipient
    · rw [hlock]
      have hexpected : P.ctx.expectation.expectedHashlock = hashlock := by
        simp [SwapContext.expectation, hhashlock]
      exact (hreads.hashlock.trans hmatches.hashlock).trans hexpected
    -- The gate adds in u64 and saturates, hence the bound on the sum.
    · intro hfits
      rw [Swapkit.LegExpectation.Ordered, show P.ctx.expectation.role = _ from h.role] at hordered
      have hgap : min (P.ctx.myTimelock.toNat + P.ctx.minGap.toNat) (2 ^ 64 - 1) ≤
        (observedFromSwap raw).timelock.toNat := hordered.2
      have htimelock : (s.htlc.swaps P.contractId).terms.timelock.toNat =
        (observedFromSwap raw).timelock.toNat := hreads.timelock
      omega

/-! ## Invariants -/

/-- Records locked by the maker itself have the terms of a plan. -/
def FromPlans (maker : Address) (plans : List Plan) (s : State) : Prop :=
  ∀ c, (s.htlc.swaps c).sender = maker →
    ∃ P ∈ plans, (s.htlc.swaps c).terms = (P.lock.record maker).terms

/-- The invariant of the taker's chain. -/
structure TakerChain (A : Deployment) (now : Uint256) (s : State) : Prop where
  orderly : Orderly A s
  late : RefundedLate now s

/-- The invariant of the maker's chain. -/
structure MakerChain (cr : Crypto) (B : Deployment) (maker : Address) (plans : List Plan)
    (s : State) : Prop where
  orderly : Orderly B s
  revealed : Revealed cr B s
  planned : FromPlans maker plans s

section Chains

variable {cr : Crypto} {A B : Deployment} {maker : Address} {now : Uint256} {plans : List Plan}

theorem TakerChain.invariant (hA : A.AllStandard) {π : Policy} :
    Invariant (system cr A π now) (TakerChain A now) := by
  intro s s' hs hmove
  refine ⟨Orderly.invariant cr hA π hs.orderly hmove.to_union, ?_⟩
  rcases moves_records hmove with ⟨sender, call, -, -, heffect⟩ | heffect
  · exact hs.late.effect hs.orderly heffect
  · exact hs.late.effect hs.orderly heffect

theorem TakerChain.later {now' : Uint256} {s : State} (h : TakerChain A now s)
    (hnow : now ≤ now') : TakerChain A now' s :=
  ⟨h.orderly, fun c hc => BitVec.le_trans (h.late c hc) hnow⟩

theorem FromPlans.effect {s s' : State} (hs : Orderly B s) (hmaker : B.Account maker)
    (hplans : FromPlans maker plans s) {who : Option (Address × Call)}
    (hwho : ∀ sender call, who = some (sender, call) → plannedLocks maker plans sender call)
    (h : RecordEffect cr B now who s s') : FromPlans maker plans s' := by
  -- Settling a record keeps its terms, so only locks matter.
  have hsettled : ∀ {c}, (s'.htlc.swaps c).terms = (s.htlc.swaps c).terms →
      (s'.htlc.swaps c).sender = maker →
      ∃ P ∈ plans, (s'.htlc.swaps c).terms = (P.lock.record maker).terms := by
    intro c hterms hsender
    rw [hterms]
    apply hplans c
    have hsame : (s'.htlc.swaps c).sender = (s.htlc.swaps c).sender := congrArg Terms.sender hterms
    rw [← hsame, hsender]
  intro c hsender
  rcases hs.effect_cases h with hswaps | ⟨x, value, a, id, hx, hswaps⟩ |
    ⟨x, id, p, -, -, hswaps⟩ | ⟨id, -, -, hswaps⟩
  · exact hsettled (by rw [hswaps]) hsender
  · by_cases hc : c = id
    · have hread : s'.htlc.swaps c = a.record x := by
        rw [hswaps, HashedTimelock.Storage.writeSwap_swaps, if_pos hc]
      have hxmaker : x = maker := by
        rw [hread] at hsender
        exact hsender
      rw [hread, hxmaker]
      rcases hx with hcaller | hsettlement
      · obtain ⟨P, hP, rfl⟩ := hwho _ _ hcaller value a rfl hxmaker
        exact ⟨P, hP, rfl⟩
      · exact absurd (hxmaker.symm.trans hsettlement) hmaker.2.2
    · refine hsettled ?_ hsender
      rw [hswaps, HashedTimelock.Storage.writeSwap_swaps, if_neg hc]
  · refine hsettled ?_ hsender
    rw [hswaps, HashedTimelock.Storage.setWithdrawn_swaps]
    split_ifs <;> rfl
  · refine hsettled ?_ hsender
    rw [hswaps, HashedTimelock.Storage.setRefunded_swaps]
    split_ifs <;> rfl

theorem MakerChain.invariant (hB : B.AllStandard) (hmaker : B.Account maker) :
    Invariant (system cr B (plannedLocks maker plans) now) (MakerChain cr B maker plans) := by
  intro s s' hs hmove
  refine ⟨Orderly.invariant cr hB _ hs.orderly hmove.to_union,
    hs.revealed.moves hs.orderly hmove, ?_⟩
  rcases moves_records hmove with ⟨sender, call, -, hpolicy, heffect⟩ | heffect
  · apply hs.planned.effect hs.orderly hmaker _ heffect
    intro x call' hx
    cases hx
    exact hpolicy
  · apply hs.planned.effect hs.orderly hmaker _ heffect
    intro x call' hx
    cases hx

theorem MakerChain.more_plans {s : State} (h : MakerChain cr B maker plans s) (P : Plan) :
    MakerChain cr B maker (P :: plans) s := by
  refine ⟨h.orderly, h.revealed, ?_⟩
  intro c hsender
  obtain ⟨Q, hQ, hterms⟩ := h.planned c hsender
  exact ⟨Q, List.mem_cons_of_mem _ hQ, hterms⟩

end Chains

/-- The invariant of both chains: every plan is backed by a record that can
    only move forward. -/
structure World.Safe (cr : Crypto) (A B : Deployment) (maker : Address) (w : World) : Prop where
  a : w.a.All (TakerChain A w.now)
  b : w.b.All (MakerChain cr B maker w.plans)
  backed : ∀ P ∈ w.plans, A.Account P.ctx.me ∧
    ∃ t, P.Backed t ∧ w.a.All (Vested P.contractId (.held t))

section Worlds

variable {cr : Crypto} {A B : Deployment} {maker : Address} {w w' : World}

/-- Step rule. -/
theorem World.Safe.step (hA : A.AllStandard) (hB : B.AllStandard) (hmaker : B.Account maker)
    (hw : w.Safe cr A B maker) (h : w.Step cr A B maker w') : w'.Safe cr A B maker := by
  cases h with
  | onA h =>
    refine ⟨(TakerChain.invariant hA).step h hw.a, hw.b, ?_⟩
    intro P hP
    obtain ⟨hme, t, hbacked, hvested⟩ := hw.backed P hP
    exact ⟨hme, t, hbacked, (Vested.invariant (by simp)).step h.to_union hvested⟩
  | onB h => exact ⟨hw.a, (MakerChain.invariant hB hmaker).step h hw.b, hw.backed⟩
  | decide P hcalls hme hdecided =>
    refine ⟨hw.a, hw.b.mono fun s hs => hs.more_plans P, ?_⟩
    intro Q hQ
    rcases List.mem_cons.mp hQ with rfl | hold
    · obtain ⟨hactive, hbacked⟩ := hdecided.backed
      refine ⟨hme, _, hbacked, ?_⟩
      -- Outside all calls the decision's record is vested.
      have horderly := hw.a.1.orderly
      rw [hcalls] at horderly
      show w.a.All _
      rw [hcalls]
      exact .of_cur (horderly.vested (Swap.stage_of_active hactive).ge)
    · exact hw.backed Q hold
  | tick now' ha hb hnow => exact ⟨hw.a.mono fun s hs => hs.later hnow, hw.b, hw.backed⟩

/-- Run rule. -/
theorem World.Reachable.safe (hA : A.AllStandard) (hB : B.AllStandard) (hmaker : B.Account maker)
    (h : w.Reachable cr A B maker) : w.Safe cr A B maker := by
  obtain ⟨now, la, lb, hla, hlb, hrun⟩ := h
  induction hrun with
  | refl =>
    refine ⟨.of_cur ⟨.fresh hla, .fresh⟩, .of_cur ⟨.fresh hlb, .fresh, ?_⟩, ?_⟩
    · exact fun c hsender => absurd hsender.symm hmaker.1
    · exact fun P hP => absurd hP List.not_mem_nil
  | tail _ hstep ih => exact ih.step hA hB hmaker hstep

/-! ## Atomicity -/

/-- The record the plan relies on has been redeemed, and has paid the maker. -/
structure Plan.Collected (A : Deployment) (P : Plan) (s : State) : Prop where
  withdrawn : (s.htlc.swaps P.contractId).withdrawn = true
  paid : s.books.paidFor P.contractId =
    [⟨P.contractId, A.htlc, ⟨P.ctx.cpToken, P.ctx.me, P.ctx.cpAmount.setWidth 256⟩⟩]

/-- The record the plan relies on can be redeemed by whoever knows `p`, and
    pays the maker then. -/
def Plan.Collectable (cr : Crypto) (A : Deployment) (now : Uint256) (P : Plan) (p : Bytes32)
    (s : State) : Prop :=
  s.Redeemable cr A now P.contractId p P.ctx.me P.ctx.cpToken P.ctx.cpAmount.toNat

/-- What may have become of a backed record before the gap has passed. -/
theorem World.Safe.backed_cases (hw : w.Safe cr A B maker) {P : Plan} (hP : P ∈ w.plans)
    (hfits : P.ctx.myTimelock.toNat + P.ctx.minGap.toNat < 2 ^ 64)
    (htime : w.now.toNat < P.ctx.myTimelock.toNat + P.ctx.minGap.toNat) :
    (w.a.cur.htlc.swaps P.contractId).refunded = false ∧
    P.Backed (w.a.cur.htlc.swaps P.contractId).terms ∧
    (P.Collected A w.a.cur ∨ (w.a.cur.htlc.swaps P.contractId).Active) := by
  obtain ⟨-, t, hbacked, hvested⟩ := hw.backed P hP
  have hopen : w.now < t.timelock := by
    rw [BitVec.lt_def]
    exact lt_of_lt_of_le htime (hbacked.gap hfits)
  obtain ⟨rfl, hnotRefunded, hcases⟩ :=
    -- Before the timelock the leg is paid out or still active, and never refunded.
    hw.a.1.orderly.before_timelock hw.a.1.late hvested.1 hopen
  refine ⟨hnotRefunded, hbacked, ?_⟩
  rcases hcases with ⟨hwithdrawn, hpaid⟩ | hactive
  · rw [hbacked.redeemPayout] at hpaid
    exact .inl ⟨hwithdrawn, hpaid⟩
  · exact .inr hactive

/-- **Maker-side atomicity.** Whatever anybody does on the two chains: what the
    maker has locked are its plans; and before the gap after a plan's timelock
    has passed, the record the plan relies on is not refunded, and once the
    maker's lock is redeemed with some preimage, that record has paid the maker
    or still pays it, in full, for the same preimage. -/
theorem maker_atomicity (hA : A.AllStandard) (hB : B.AllStandard) (hmaker : B.Account maker)
    (hw : w.Reachable cr A B maker) :
    (∀ c, (w.b.cur.htlc.swaps c).sender = maker →
      ∃ P ∈ w.plans, (w.b.cur.htlc.swaps c).terms = (P.lock.record maker).terms) ∧
    ∀ P ∈ w.plans, P.ctx.myTimelock.toNat + P.ctx.minGap.toNat < 2 ^ 64 →
      w.now.toNat < P.ctx.myTimelock.toNat + P.ctx.minGap.toNat →
      (w.a.cur.htlc.swaps P.contractId).refunded = false ∧
      ∀ c p, (w.b.cur.htlc.swaps c).terms = (P.lock.record maker).terms →
        w.b.cur.Announced B (.logRedeem c p) →
        P.Collected A w.a.cur ∨ P.Collectable cr A w.now p w.a.cur := by
  have hsafe := hw.safe hA hB hmaker
  refine ⟨hsafe.b.1.planned, ?_⟩
  intro P hP hfits htime
  obtain ⟨hnotRefunded, hbacked, hcases⟩ := hsafe.backed_cases hP hfits htime
  refine ⟨hnotRefunded, ?_⟩
  intro c p hterms hredeemed
  rcases hcases with hcollected | hactive
  · exact .inl hcollected
  · right
    -- The two records have one hashlock, and `p` is a preimage of it.
    obtain ⟨t, hstage, hpreimage⟩ := hsafe.b.1.revealed c p hredeemed
    obtain ⟨-, -, rfl⟩ := Swap.stage_claimed.mp hstage
    have hhashlock : cr.hashlockOf p = (w.a.cur.htlc.swaps P.contractId).hashlock := by
      rw [hpreimage, hterms]
      exact hbacked.hashlock.symm
    have htimelock : w.now < (w.a.cur.htlc.swaps P.contractId).timelock := by
      rw [BitVec.lt_def]
      exact lt_of_lt_of_le htime (hbacked.gap hfits)
    have hrecipient : (w.a.cur.htlc.swaps P.contractId).recipient = P.ctx.me := hbacked.recipient
    have htoken : (w.a.cur.htlc.swaps P.contractId).token = P.ctx.cpToken := hbacked.token
    have hamount : (w.a.cur.htlc.swaps P.contractId).amount.toNat = P.ctx.cpAmount.toNat :=
      hbacked.amount
    have hredeemable := State.Redeemable.of_active hsafe.a.1.orderly hactive htimelock hhashlock
      (by rw [hrecipient]; exact (hsafe.backed P hP).1)
    rw [hrecipient, htoken, hamount] at hredeemable
    exact hredeemable

end Worlds

/-! ### A plan in a computed run

`rival` locks 7 wei for `maker` on the taker's chain, `maker` answers with 5 wei
for `bob` on its own chain, and `bob` redeems those. -/

namespace Sample

open Exchange.Sample (rival bob maker longLock longLockId ethLock)
open HashedTimelock.Sample (hashlock)

/-- What `maker` knows when it decides. -/
def ctx : SwapContext where
  role := .maker
  myToken := zeroAddress
  myAmount := 5
  myTimelock := 1000
  myRecipient := bob
  cpToken := zeroAddress
  cpAmount := 7
  me := maker
  minGap := 500
  hashlock := some hashlock
  secret := none
  myLegLocked := false
  counterpartyLock := some ⟨hashlock, zeroAddress, 7, maker, 2000, rival, true⟩
  revealedSecret := none
  now := 10

def plan : Plan := ⟨ctx, longLockId, ethLock⟩

theorem plan_decided {s : State} (h : s.htlc.swaps longLockId = longLock.record rival) :
    plan.Decided s := by
  have hraw : rawSwap (longLock.record rival) =
    .ok ⟨rival, maker, zeroAddress, 7, hashlock, 2000, false, false⟩ := by decide +kernel
  refine ⟨rfl, ⟨_, h ▸ hraw, by decide +kernel⟩, bob, zeroAddress, 5, hashlock, 1000, ?_, ?_⟩
  · decide +kernel
  · decide +kernel

end Sample

/-- `bob` has redeemed the maker's lock, and the maker is or can be paid. -/
theorem maker_collects_after_reveal :
    ∃ w, World.Reachable Exchange.Sample.crypto Exchange.Sample.deployment
        Exchange.Sample.deployment Exchange.Sample.maker w ∧
      w.b.cur.Announced Exchange.Sample.deployment
        (.logRedeem Exchange.Sample.ethLockId HashedTimelock.Sample.preimage) ∧
      (Sample.plan.Collected Exchange.Sample.deployment w.a.cur ∨
        Sample.plan.Collectable Exchange.Sample.crypto Exchange.Sample.deployment w.now
          HashedTimelock.Sample.preimage w.a.cur) := by
  -- The taker locks first.
  obtain ⟨sA, hlockA, htestA⟩ := Exchange.doneAnd_iff.mp (show Exchange.doneAnd
    (fun s => decide (s.htlc.swaps Exchange.Sample.longLockId =
      Exchange.Sample.longLock.record Exchange.Sample.rival))
    (Exchange.invoke Exchange.Sample.crypto Exchange.Sample.deployment 10 Exchange.Sample.rival
      (.newSwap 7 Exchange.Sample.longLock) (State.fresh Exchange.Sample.ledger)) = true by
        decide +kernel)
  -- Then the maker locks, and the taker's redeem waits in its payout.
  obtain ⟨sB, hlockB, htestB⟩ := Exchange.doneAnd_iff.mp (show Exchange.doneAnd
    (fun s => decide ((s.htlc.swaps Exchange.Sample.ethLockId).terms =
        (Exchange.Sample.ethLock.record Exchange.Sample.maker).terms) &&
      Exchange.waitingAnd (fun s' => decide (s'.frames.head? =
        some (.payout (.logRedeem Exchange.Sample.ethLockId HashedTimelock.Sample.preimage)) ∧
        (s'.htlc.swaps Exchange.Sample.ethLockId).terms =
          (Exchange.Sample.ethLock.record Exchange.Sample.maker).terms))
      (Exchange.invoke Exchange.Sample.crypto Exchange.Sample.deployment 10 Exchange.Sample.bob
        (.redeem Exchange.Sample.ethLockId HashedTimelock.Sample.preimage) s))
    (Exchange.invoke Exchange.Sample.crypto Exchange.Sample.deployment 10 Exchange.Sample.maker
      (.newSwap 5 Exchange.Sample.ethLock) (State.fresh Exchange.Sample.ledger)) = true by
        decide +kernel)
  rw [Bool.and_eq_true] at htestB
  obtain ⟨sB', hredeem, htestB'⟩ := Exchange.waitingAnd_iff.mp htestB.2
  obtain ⟨hhead, hterms⟩ := of_decide_eq_true htestB'
  have hdecided : Sample.plan.Decided sA := Sample.plan_decided (of_decide_eq_true htestA)
  have hplanned : plannedLocks Exchange.Sample.maker [Sample.plan] Exchange.Sample.maker
      (.newSwap 5 Exchange.Sample.ethLock) := by
    intro value a hcall _
    cases hcall
    exact ⟨Sample.plan, List.mem_singleton.mpr rfl, rfl⟩
  -- The world's run: lock, decision, lock, and the redeem up to its payout.
  have hreach : World.Reachable Exchange.Sample.crypto Exchange.Sample.deployment
      Exchange.Sample.deployment Exchange.Sample.maker
      ⟨10, ⟨sA, []⟩, ⟨sB', [sB]⟩, [Sample.plan]⟩ := by
    refine ⟨10, _, _, Exchange.Sample.genesis, Exchange.Sample.genesis, ?_⟩
    apply Relation.ReflTransGen.head (.onA (.act (.invoke _ _ (by decide) trivial hlockA)))
    apply Relation.ReflTransGen.head (.decide Sample.plan rfl (by decide) hdecided)
    apply Relation.ReflTransGen.head (.onB (.act (.invoke _ _ (by decide) hplanned hlockB)))
    apply Relation.ReflTransGen.single
    exact .onB (.enter (.invoke _ _ (by decide) (by rintro value a ⟨⟩) hredeem))
  have hannounced : sB'.Announced Exchange.Sample.deployment
      (.logRedeem Exchange.Sample.ethLockId HashedTimelock.Sample.preimage) :=
    .inr ⟨_, List.mem_of_mem_head? hhead, rfl⟩
  refine ⟨_, hreach, hannounced, ?_⟩
  have htime : (10 : Uint256).toNat <
      Sample.plan.ctx.myTimelock.toNat + Sample.plan.ctx.minGap.toNat := by decide
  exact ((maker_atomicity Exchange.Sample.deployment_allStandard
    Exchange.Sample.deployment_allStandard (by decide) hreach).2 Sample.plan
    (List.mem_singleton.mpr rfl) (by decide) htime).2 _ _ hterms hannounced

end Kael.CrossChain
