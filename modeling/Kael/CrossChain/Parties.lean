import Kael.CrossChain.Legs
import Kael.Swapkit.Progress

/-!
# Two Honest Parties

Two executors that have agreed on a swap, on two chains under one clock. They
take turns: a turn is one step of an executor whose endpoints tell the chains as
they are, and what it sends is mined at once. Between the turns blocks are mined
and others call what they like, except that they lock nothing under the hashlock
and nothing that does not fit, and reveal no preimage (`bystanders`); endpoints
may fail to answer (`Net.Step`).

A swap has four transactions, and it is in phase `n` when `n` of them have been
mined (`InPhase`). The phase and the depth of the other leg decide what a party
does next.
-/

namespace Kael.CrossChain

open NestedCalls
open Exchange (Deployment State Call anyone system callThrough)
open HashedTimelock (NewSwap Swap Terms)
open Maestro (Fits EventFits)
open Swapkit (Executor ExecutorError RefreshAnswers Stepped StepAnswers SwapState ObservedLock
  LiveChain PolledChain nextAction nextAction_lockMyLeg nextAction_redeem takerNext makerNext
  lockArgs seenLock firstLock rawSwap rawSwap_ok observedFromSwap SwapContext LegExpectation
  verifyCounterpartyLeg verifyCounterpartyLeg_safe)

/-! ## The agreement

The parties are numbered by `Bool`: `false` is the taker, `true` the maker. The
leg of a party is locked on its own chain. -/

/-- What the executor is going to lock under `h`. -/
def legLock (e : Executor) (h : Bytes32) : NewSwap :=
  lockArgs e.ctx.myRecipient e.ctx.myToken e.ctx.myAmount h e.ctx.myTimelock

def ownLeg (cr : Crypto) (e : Executor) (h : Bytes32) : AgreedLeg where
  id := HashedTimelock.computeContractId cr e.lockSender (legLock e h)
  terms := ((legLock e h).record e.lockSender).terms

/-- Two new executors that have agreed on one swap. -/
structure Agreement (cr : Crypto) (D : Bool → Deployment) (chainIds : Bool → U64)
    (secret : Bytes32) (start : Bool → Executor) : Prop where
  role : ∀ i, (start i).ctx.role = cond i .maker .taker
  state : ∀ i, (start i).state = cond i .start .secretGenerated
  hashlock : ∀ i, (start i).ctx.hashlock = some (cr.hashlockOf secret)
  secret : (start false).ctx.secret = some secret
  fresh : ∀ i, (start i).ownContractId = none ∧ (start i).ctx.revealedSecret = none
  ownObserver : ∀ i, (start i).ownObserver = .new (chainIds i)
  counterpartyObserver : ∀ i, (start i).counterpartyObserver = .new (chainIds !i)
  /-- Each party expects what the other one is going to lock. -/
  token : ∀ i, (start i).ctx.cpToken = (start !i).ctx.myToken
  amount : ∀ i, (start i).ctx.cpAmount = (start !i).ctx.myAmount
  recipient : ∀ i, (start i).ctx.me = (start !i).ctx.myRecipient
  nonzero : ∀ i, (start i).ctx.myAmount ≠ 0
  /-- The taker's leg outlasts the maker's by both gaps. -/
  ordered : (start true).ctx.myTimelock.toNat < (start false).ctx.myTimelock.toNat
  gap : ∀ i, (start true).ctx.myTimelock.toNat + (start i).ctx.minGap.toNat ≤
    (start false).ctx.myTimelock.toNat
  ownSigner : ∀ i, (D i).Account (start i).ownSigner
  counterpartySigner : ∀ i, (D !i).Account (start i).counterpartySigner
  payee : ∀ i, (D i).Account (start i).ctx.myRecipient
  settlement : ∀ i config, (start i).ownSettlementLock = some config →
    config.settlement = (D i).settlement

/-- Time is left before the deadline: the maker's timelock less the taker's gap. -/
def InTime (start : Bool → Executor) (now : U64) : Prop :=
  now.toNat < (start true).ctx.myTimelock.toNat ∧
    now.toNat + (start false).ctx.minGap.toNat ≤ (start true).ctx.myTimelock.toNat

/-! ## The two chains -/

/-- The two chains and the two parties. -/
structure Net (cr : Crypto) (D : Bool → Deployment) where
  now : U64
  chains : ∀ i, LiveChain cr (D i) anyone
  exec : Bool → Executor

/-- The timestamp of the next blocks. -/
def Net.time {cr : Crypto} {D : Bool → Deployment} (w : Net cr D) : Uint256 := w.now.setWidth 256

/-- What a step sends to the own chain. -/
def ownCalls (t : Stepped) : List Call :=
  match t.tx with
  | some (.lock sending) => sending.sent
  | some (.refund sending) => sending.sent
  | _ => []

/-- What a step sends to the counterparty's chain. -/
def counterpartyCalls (t : Stepped) : List Call :=
  match t.tx with
  | some (.redeem sending) => sending.sent
  | _ => []

section Runs

variable (cr : Crypto)

/-- The calls are mined one after the other; those that fail revert. -/
def transact (D : Deployment) (now : Uint256) (x : Address) (s : State) (calls : List Call) :
    State :=
  calls.foldl (fun s call =>
    match callThrough cr D now x call s with
    | .ok s' => s'
    | .error _ => s) s

/-- All of the calls succeed. -/
def AllSucceed (D : Deployment) (now : Uint256) (x : Address) : State → List Call → Prop
  | _, [] => True
  | s, call :: calls => ∃ s', callThrough cr D now x call s = .ok s' ∧ AllSucceed D now x s' calls

variable {cr} {D : Bool → Deployment}

/-- A preimage of `h` has been revealed on one of the chains. -/
def Net.Revealed (h : Bytes32) (w : Net cr D) : Prop :=
  ∃ i, Discloses cr h (w.chains i).state.htlc

/-- Party `i` takes a step: it sees both chains as they are, and what it sends is
    mined. -/
structure Net.Visit (i : Bool) (io : StepAnswers) (w w' : Net cr D) : Prop where
  first : io.first.Tells w.now (w.chains i).toPolledChain (w.chains !i).toPolledChain
    (w.chains !i).state.htlc
  second : io.second.Tells w.now (w.chains i).toPolledChain (w.chains !i).toPolledChain
    (w.chains !i).state.htlc
  served : io.tx.Served (w.exec i).ctx.myAmount
  exec : w'.exec i = ((w.exec i).step cr io).exec
  otherExec : w'.exec (!i) = w.exec (!i)
  own : (w'.chains i).state = transact cr (D i) w.time (w.exec i).ownSigner (w.chains i).state
    (ownCalls ((w.exec i).step cr io))
  counterparty : (w'.chains !i).state = transact cr (D !i) w.time (w.exec i).counterpartySigner
    (w.chains !i).state (counterpartyCalls ((w.exec i).step cr io))
  grows : ∀ j, (w.chains j).blocks <+: (w'.chains j).blocks
  now : w'.now = w.now

/-- A turn: a lock is only sent by a party that can pay for it. -/
structure Net.Turn (i : Bool) (io : StepAnswers) (w w' : Net cr D) : Prop extends
    Net.Visit i io w w' where
  funded : ∀ sending, ((w.exec i).step cr io).tx = some (.lock sending) →
    AllSucceed cr (D i) w.time (w.exec i).ownSigner (w.chains i).state sending.sent

/-- What happens between the turns, before the deadline. -/
inductive Net.Between (secret : Bytes32) (start : Bool → Executor) (w w' : Net cr D) : Prop where
  /-- Transactions of others on one chain. -/
  | others (i : Bool)
      (hrun : Run (system cr (D i)
        (bystanders cr (cr.hashlockOf secret) (w.Revealed (cr.hashlockOf secret))) w.time)
        ⟨(w.chains i).state, []⟩ ⟨(w'.chains i).state, []⟩)
      (hgrows : (w.chains i).blocks <+: (w'.chains i).blocks)
      (hother : w'.chains (!i) = w.chains (!i)) (hexec : w'.exec = w.exec) (hnow : w'.now = w.now)
  | tick (hnow : w.now ≤ w'.now) (htime : InTime start w'.now) (hchains : w'.chains = w.chains)
      (hexec : w'.exec = w.exec)

/-- One step of the swap before its deadline. -/
inductive Net.Step (secret : Bytes32) (start : Bool → Executor) (w w' : Net cr D) : Prop where
  | between (h : Net.Between secret start w w')
  | turn (i : Bool) (io : StepAnswers) (h : w.Turn i io w')
  /-- A step of party `i` whose endpoints do not answer. -/
  | failed (i : Bool) (io : StepAnswers) {failure : ExecutorError}
      (hlogs : io.first.Logs (w.chains !i).toPolledChain)
      (hfails : ((w.exec i).refresh cr io.first).2 = .err failure)
      (hexec : w'.exec i = ((w.exec i).step cr io).exec) (hother : w'.exec (!i) = w.exec (!i))
      (hchains : w'.chains = w.chains) (hnow : w'.now = w.now)

/-- The turn of party `i` leads on from phase `n`. Before the second transaction
    and before the third one, a lock must be as deep as the party wants it. -/
def Net.Ready (secret : Bytes32) (start : Bool → Executor) (w : Net cr D) : Bool → Nat → Prop
  | false, 0 => True
  | true, 1 => (start true).minConfirmations.toNat ≤
      (w.chains false).depth (ownLeg cr (start false) (cr.hashlockOf secret)).id
  | false, 2 => (start false).minConfirmations.toNat ≤
      (w.chains true).depth (ownLeg cr (start true) (cr.hashlockOf secret)).id
  | true, 3 => True
  | _, _ => False

/-- A turn that leads on from phase `n`. -/
def Net.Push (secret : Bytes32) (start : Bool → Executor) (n : Nat) (w w' : Net cr D) : Prop :=
  ∃ i io, w.Turn i io w' ∧ w.Ready secret start i n

end Runs

/-! ## Phases -/

/-- The phase in which a party's leg is locked. -/
def openedIn : Bool → Nat
  | false => 1
  | true => 2

/-- The phase in which it is redeemed. -/
def claimedIn : Bool → Nat
  | false => 4
  | true => 3

/-- The state of a party in each phase. -/
def stateIn : Bool → Nat → SwapState
  | false, 0 => .secretGenerated
  | false, 1 | false, 2 => .myLegLocked
  | true, 0 | true, 1 => .start
  | true, 2 | true, 3 => .waitingForSecret
  | _, _ => .counterpartyRedeemed

section Phases

variable (cr : Crypto) {D : Bool → Deployment} (chainIds : Bool → U64) (secret : Bytes32)
  (start : Bool → Executor)

/-- Party `i` in phase `n`. -/
structure PartyIn (i : Bool) (n : Nat) (own counterparty : PolledChain) (e : Executor) : Prop where
  base : e.base = (start i).base
  state : e.state = stateIn i n
  ownContractId : e.ownContractId =
    if openedIn i ≤ n then some (ownLeg cr (start i) (cr.hashlockOf secret)).id else none
  reads : e.Reads cr (chainIds i) (chainIds !i) own counterparty
  revealedSecret : i = true → n < 3 → e.ctx.revealedSecret = none

variable {cr}

/-- The swap in phase `n`. -/
structure InPhase (n : Nat) (w : Net cr D) : Prop where
  time : InTime start w.now
  party : ∀ i, PartyIn cr chainIds secret start i n (w.chains i).toPolledChain
    (w.chains !i).toPolledChain (w.exec i)
  leg : ∀ i, LegShown (cr.hashlockOf secret) (ownLeg cr (start i) (cr.hashlockOf secret)) w.time
    (openedIn i ≤ n) (3 ≤ n) (claimedIn i ≤ n) (w.chains i).state

end Phases

/-! ## What a party knows of the other one's leg -/

section Terms

variable {e e₀ : Executor} {h : Bytes32} {s : Swap} {cr : Crypto}

/-- The context of an executor on a base, but for what it has observed. -/
theorem ctx_terms (hbase : e.base = e₀.base) : e.ctx.terms = e₀.ctx.terms :=
  congrArg Executor.ctx hbase

theorem ctx_hashlock (hbase : e.base = e₀.base) : e.ctx.hashlock = e₀.ctx.hashlock :=
  show e.ctx.terms.hashlock = e₀.ctx.terms.hashlock from congrArg _ (ctx_terms hbase)

theorem ctx_role (hbase : e.base = e₀.base) : e.ctx.role = e₀.ctx.role :=
  show e.ctx.terms.role = e₀.ctx.terms.role from congrArg _ (ctx_terms hbase)

theorem ctx_secret (hbase : e.base = e₀.base) : e.ctx.secret = e₀.ctx.secret :=
  show e.ctx.terms.secret = e₀.ctx.terms.secret from congrArg _ (ctx_terms hbase)

theorem ctx_myTimelock (hbase : e.base = e₀.base) : e.ctx.myTimelock = e₀.ctx.myTimelock :=
  show e.ctx.terms.myTimelock = e₀.ctx.terms.myTimelock from congrArg _ (ctx_terms hbase)

theorem ctx_lockMyLeg (hbase : e.base = e₀.base) : e.ctx.lockMyLeg h = e₀.ctx.lockMyLeg h :=
  show e.ctx.terms.lockMyLeg h = e₀.ctx.terms.lockMyLeg h from
    congrArg (SwapContext.lockMyLeg · h) (ctx_terms hbase)

theorem ctx_expectation (hbase : e.base = e₀.base) :
    e.ctx.expectation = { e₀.ctx.expectation with now := e.ctx.now } :=
  show { e.ctx.terms.expectation with now := e.ctx.now } =
      { e₀.ctx.terms.expectation with now := e.ctx.now } from
    congrArg (fun ctx : SwapContext => { ctx.expectation with now := e.ctx.now }) (ctx_terms hbase)

theorem lockSender_eq (hbase : e.base = e₀.base) : e.lockSender = e₀.lockSender := by
  have hsettlement : e.ownSettlementLock = e₀.ownSettlementLock :=
    show e.base.ownSettlementLock = e₀.base.ownSettlementLock from congrArg _ hbase
  have hsigner : e.ownSigner = e₀.ownSigner :=
    show e.base.ownSigner = e₀.base.ownSigner from congrArg _ hbase
  rw [Executor.lockSender, Executor.lockSender, hsettlement, hsigner]

/-- The numbers of a lock are the wallet's. -/
theorem lockArgs_fits (recipient token : Address) (amount : U128) (hashlock : Bytes32)
    (timelock : U64) : Fits (lockArgs recipient token amount hashlock timelock).timelock
      (lockArgs recipient token amount hashlock timelock).amount := by
  constructor
  · rw [lockArgs, BitVec.toNat_setWidth_of_le (by omega)]
    exact timelock.isLt
  · rw [lockArgs, BitVec.toNat_setWidth_of_le (by omega)]
    exact amount.isLt

/-- The record of a leg has numbers that the other wallet can read. -/
theorem rawSwap_ownLeg (hterms : s.terms = (ownLeg cr e h).terms) :
    ∃ raw, rawSwap s = .ok raw ∧ raw.amount = e.ctx.myAmount ∧ raw.timelock = e.ctx.myTimelock ∧
      raw.token = e.ctx.myToken ∧ raw.recipient = e.ctx.myRecipient ∧ raw.hashlock = h := by
  have hamount : s.amount = e.ctx.myAmount.setWidth 256 := congrArg Terms.amount hterms
  have htimelock : s.timelock = e.ctx.myTimelock.setWidth 256 := congrArg Terms.timelock hterms
  refine ⟨⟨s.sender, s.recipient, s.token, e.ctx.myAmount, s.hashlock, e.ctx.myTimelock,
    s.withdrawn, s.refunded⟩, rawSwap_ok.mpr ⟨?_, ?_, rfl, rfl, rfl, rfl, rfl, rfl⟩, rfl, rfl,
    congrArg Terms.token hterms, congrArg Terms.recipient hterms, congrArg Terms.hashlock hterms⟩
  · rw [hamount, BitVec.toNat_setWidth_of_le (by omega)]
  · rw [htimelock, BitVec.toNat_setWidth_of_le (by omega)]

end Terms

section Agreed

variable {cr : Crypto} {D : Bool → Deployment} {chainIds : Bool → U64} {secret : Bytes32}
  {start : Bool → Executor} {i : Bool} {e : Executor} {now : U64} {obs : ObservedLock}

/-- **The agreed leg is safe** for the other party until the deadline. -/
theorem Agreement.safe (ha : Agreement cr D chainIds secret start) (htime : InTime start now)
    (hbase : e.base = (start i).base) (hnow : e.ctx.now = now) (hexist : obs.exist = true)
    (hhashlock : obs.hashlock = cr.hashlockOf secret)
    (htoken : obs.token = (start !i).ctx.myToken) (hamount : obs.amount = (start !i).ctx.myAmount)
    (hrecipient : obs.recipient = (start !i).ctx.myRecipient)
    (htimelock : obs.timelock = (start !i).ctx.myTimelock) :
    verifyCounterpartyLeg e.ctx.expectation obs = .safe := by
  rw [ctx_expectation hbase, verifyCounterpartyLeg_safe]
  refine ⟨⟨hexist, ?_, htoken.trans (ha.token i).symm, hamount.trans (ha.amount i).symm,
    hrecipient.trans (ha.recipient i).symm⟩, ?_, ?_⟩
  · rw [hhashlock]
    exact (congrArg (Option.getD · 0) (ha.hashlock i)).symm
  · have hrole := ha.role i
    have hordered := ha.ordered
    have hgap := ha.gap i
    cases i with
    | false =>
      simp only [LegExpectation.Ordered, SwapContext.expectation, hrole, cond_false, htimelock,
        Bool.not_false]
      omega
    | true =>
      simp only [LegExpectation.Ordered, SwapContext.expectation, hrole, cond_true, htimelock,
        Bool.not_true]
      omega
  · obtain ⟨hopen, hleft⟩ := htime
    have hgap := ha.gap i
    have hordered := ha.ordered
    rw [hnow, htimelock]
    cases i with
    | false =>
      simp only [SwapContext.expectation, Bool.not_false]
      omega
    | true =>
      simp only [SwapContext.expectation, Bool.not_true]
      omega

end Agreed

/-! ## What a party sees -/

section Sees

variable {cr : Crypto} {D : Bool → Deployment} {chainIds : Bool → U64} {secret : Bytes32}
  {start : Bool → Executor} {i : Bool} {n : Nat} {w w' : Net cr D} {e : Executor}
  {io : RefreshAnswers} {m : U64}

theorem InPhase.blocks_fit (hw : InPhase chainIds secret start n w) (i : Bool) :
    ∀ event ∈ (w.chains i).blocks.flatten, EventFits event := by
  rw [(w.chains i).mined]
  exact (hw.leg i).fits

theorem InPhase.firstLock_eq (hstd : ∀ i, (D i).AllStandard)
    (hw : InPhase chainIds secret start n w) (i : Bool) :
    firstLock (cr.hashlockOf secret) (w.chains i).blocks.flatten =
      if openedIn i ≤ n then some (ownLeg cr (start i) (cr.hashlockOf secret)).id else none := by
  rw [(w.chains i).mined]
  split_ifs with hopened
  · exact (hw.leg i).firstLock_eq ((w.chains i).explains (hstd i)) rfl hopened
  · exact (hw.leg i).firstLock_none hopened

/-- The record of a leg that has been locked. -/
theorem InPhase.record_terms (hw : InPhase chainIds secret start n w) (i : Bool)
    (hopened : openedIn i ≤ n) :
    ((w.chains i).state.htlc.swaps (ownLeg cr (start i) (cr.hashlockOf secret)).id).terms =
      (ownLeg cr (start i) (cr.hashlockOf secret)).terms := by
  rcases (hw.leg i).record hopened with hheld | hclaimed
  · exact (Swap.stage_held.mp hheld).2
  · exact (Swap.stage_claimed.mp hclaimed).2.2

/-- As long as the secret is not out, what has been locked is held. -/
theorem InPhase.held (hw : InPhase chainIds secret start n w) (i : Bool)
    (hopened : openedIn i ≤ n) (hn : n < 3) :
    ((w.chains i).state.htlc.swaps (ownLeg cr (start i) (cr.hashlockOf secret)).id).stage =
      .held (ownLeg cr (start i) (cr.hashlockOf secret)).terms := by
  refine ((hw.leg i).record hopened).resolve_right fun hclaimed => ?_
  obtain ⟨-, hwithdrawn, hterms⟩ := Swap.stage_claimed.mp hclaimed
  have hhash := (hw.leg i).secret (Nat.not_le.mpr hn) _ (congrArg Terms.hashlock hterms)
  rw [hwithdrawn] at hhash
  cases hhash

/-- What the gate is shown of a leg that is held. -/
theorem InPhase.seenLock_held (hstd : ∀ i, (D i).AllStandard)
    (hw : InPhase chainIds secret start n w) (i : Bool) (hopened : openedIn i ≤ n) (hn : n < 3)
    (hdeep : m.toNat ≤ (w.chains i).depth (ownLeg cr (start i) (cr.hashlockOf secret)).id) :
    ∃ obs, seenLock (w.chains i).toPolledChain (w.chains i).state.htlc m (cr.hashlockOf secret) =
        some obs ∧ obs.exist = true ∧ obs.hashlock = cr.hashlockOf secret ∧
      obs.token = (start i).ctx.myToken ∧ obs.amount = (start i).ctx.myAmount ∧
      obs.recipient = (start i).ctx.myRecipient ∧ obs.timelock = (start i).ctx.myTimelock := by
  obtain ⟨⟨hexists, hwithdrawn, hrefunded⟩, hterms⟩ := Swap.stage_held.mp (hw.held i hopened hn)
  obtain ⟨raw, hraw, hamount, htimelock, htoken, hrecipient, hhashlock⟩ := rawSwap_ownLeg hterms
  obtain ⟨-, -, hsender, -, -, -, hwithdrawn', hrefunded'⟩ := rawSwap_ok.mp hraw
  have hexist : (observedFromSwap raw).exist = true := by
    simp only [observedFromSwap, hsender, hwithdrawn', hrefunded', hwithdrawn, hrefunded]
    exact decide_eq_true ⟨hexists, rfl, rfl⟩
  refine ⟨observedFromSwap raw, ?_, hexist, hhashlock, htoken, hamount, hrecipient, htimelock⟩
  unfold seenLock
  rw [hw.firstLock_eq hstd i, if_pos hopened, Option.bind_some, hraw]
  exact if_pos ⟨hexist, hdeep⟩

theorem InPhase.seenLock_shallow (hstd : ∀ i, (D i).AllStandard)
    (hw : InPhase chainIds secret start n w) (i : Bool)
    (hshallow : openedIn i ≤ n →
      ¬m.toNat ≤ (w.chains i).depth (ownLeg cr (start i) (cr.hashlockOf secret)).id) :
    seenLock (w.chains i).toPolledChain (w.chains i).state.htlc m (cr.hashlockOf secret) =
      none := by
  unfold seenLock
  rw [hw.firstLock_eq hstd i]
  split_ifs with hopened
  · rw [Option.bind_some]
    obtain ⟨raw, hraw, -⟩ := rawSwap_ownLeg (hw.record_terms i hopened)
    rw [hraw]
    exact if_neg fun h => hshallow hopened h.2
  · rfl

variable (cr chainIds secret start) in
/-- What party `i` knows in phase `n` once it has looked. -/
structure Looked (i : Bool) (n : Nat) (w : Net cr D) (e : Executor) : Prop extends
    PartyIn cr chainIds secret start i n (w.chains i).toPolledChain (w.chains !i).toPolledChain
      e where
  now : e.ctx.now = w.now
  lock : e.ctx.counterpartyLock = seenLock (w.chains !i).toPolledChain (w.chains !i).state.htlc
    (start i).minConfirmations (cr.hashlockOf secret)
  target : e.counterpartyContractId =
    if openedIn (!i) ≤ n then some (ownLeg cr (start !i) (cr.hashlockOf secret)).id else none
  ownRead : e.ownObserver.nextBlock.toNat = (w.chains i).blocks.length
  known : i = true → 3 ≤ n → ∃ q, e.ownObserver.revealedSecret (cr.hashlockOf secret) = some q ∧
    e.ctx.revealedSecret = some q ∧ cr.hashlockOf q = cr.hashlockOf secret

/-- **Looking** succeeds. -/
theorem InPhase.look (hstd : ∀ i, (D i).AllStandard) (ha : Agreement cr D chainIds secret start)
    (hw : InPhase chainIds secret start n w)
    (hp : PartyIn cr chainIds secret start i n (w.chains i).toPolledChain
      (w.chains !i).toPolledChain e)
    (htells : io.Tells w.now (w.chains i).toPolledChain (w.chains !i).toPolledChain
      (w.chains !i).state.htlc) :
    ∃ e', e.refresh cr io = (e', .ok ()) ∧ Looked cr chainIds secret start i n w e' := by
  have hhashlock := (ctx_hashlock hp.base).trans (ha.hashlock i)
  obtain ⟨e', hrefresh, hsees⟩ := Executor.refresh_sees hhashlock hp.reads htells
    (hw.blocks_fit i) (hw.blocks_fit !i) (fun id hid => by
      rw [hw.firstLock_eq hstd] at hid
      split_ifs at hid with hopened
      cases hid
      obtain ⟨raw, hraw, -⟩ := rawSwap_ownLeg (hw.record_terms _ hopened)
      exact ⟨raw, hraw⟩)
  obtain ⟨hsound, hknown⟩ := hsees.reads.own.reveals (h := cr.hashlockOf secret) hsees.ownRead
    (w.chains i).mined ((w.chains i).explains (hstd i)) (hw.leg i).fits
  refine ⟨e', hrefresh, ⟨⟨hsees.refreshed.base.trans hp.base, hsees.refreshed.state.trans hp.state,
    hsees.refreshed.ownContractId.trans hp.ownContractId, hsees.reads, ?_⟩, hsees.now, ?_, ?_,
    hsees.ownRead, ?_⟩⟩
  · rintro rfl hn
    rw [hsees.revealed, hp.revealedSecret rfl hn, Option.or_none, ← Option.not_isSome_iff_eq_none,
      hknown]
    rintro ⟨id, hhash, hwithdrawn⟩
    rw [(hw.leg true).secret (Nat.not_le.mpr hn) id hhash] at hwithdrawn
    cases hwithdrawn
  · have hconfirmations : e.minConfirmations = (start i).minConfirmations :=
      show e.base.minConfirmations = (start i).base.minConfirmations from congrArg _ hp.base
    rw [← hconfirmations]
    exact hsees.lock
  · exact hsees.target.trans (hw.firstLock_eq hstd !i)
  · rintro rfl hn
    -- The maker's own leg has been redeemed.
    obtain ⟨-, hwithdrawn, hterms⟩ := Swap.stage_claimed.mp ((hw.leg true).claimed hn)
    obtain ⟨q, hq⟩ := Option.isSome_iff_exists.mp
      (hknown.mpr ⟨_, congrArg Terms.hashlock hterms, hwithdrawn⟩)
    refine ⟨q, hq, ?_, hsound q hq⟩
    rw [hsees.revealed, hq]
    rfl

end Sees

/-! ## What a party does next -/

section Decisions

variable {cr : Crypto} {D : Bool → Deployment} {chainIds : Bool → U64} {secret : Bytes32}
  {start : Bool → Executor} {i : Bool} {n : Nat} {w : Net cr D} {e : Executor}

/-- No party's own timelock has passed. -/
theorem Looked.open (ha : Agreement cr D chainIds secret start)
    (hw : InPhase chainIds secret start n w) (h : Looked cr chainIds secret start i n w e) :
    ¬e.ctx.myTimelock ≤ e.ctx.now := by
  have hordered := ha.ordered
  have htime := hw.time.1
  rw [ctx_myTimelock h.base, h.now, BitVec.le_def, not_le]
  cases i with
  | false => exact htime.trans hordered
  | true => exact htime

/-- Against a lock that is deep enough the gate is open. -/
theorem Looked.counterpartySafe (hstd : ∀ i, (D i).AllStandard)
    (ha : Agreement cr D chainIds secret start) (hw : InPhase chainIds secret start n w)
    (h : Looked cr chainIds secret start i n w e) (hopened : openedIn (!i) ≤ n) (hn : n < 3)
    (hdeep : (start i).minConfirmations.toNat ≤
      (w.chains !i).depth (ownLeg cr (start !i) (cr.hashlockOf secret)).id) :
    e.ctx.CounterpartySafe := by
  obtain ⟨obs, hobs, hexist, hhashlock, htoken, hamount, hrecipient, htimelock⟩ :=
    hw.seenLock_held hstd (!i) hopened hn hdeep
  exact ⟨obs, h.lock.trans hobs,
    ha.safe hw.time h.base h.now hexist hhashlock htoken hamount hrecipient htimelock⟩

/-- The taker locks first. -/
theorem Looked.taker_locks (ha : Agreement cr D chainIds secret start)
    (h : Looked cr chainIds secret start false 0 w e) :
    nextAction e.state e.ctx = (start false).ctx.lockMyLeg (cr.hashlockOf secret) := by
  apply nextAction_lockMyLeg.mpr
  refine ⟨(ctx_hashlock h.base).trans (ha.hashlock false), ctx_lockMyLeg h.base, .inl ⟨?_, h.state⟩⟩
  exact (ctx_role h.base).trans (ha.role false)

/-- The maker locks against the taker's leg. -/
theorem Looked.maker_locks (ha : Agreement cr D chainIds secret start)
    (h : Looked cr chainIds secret start true 1 w e) (hsafe : e.ctx.CounterpartySafe) :
    nextAction e.state e.ctx = (start true).ctx.lockMyLeg (cr.hashlockOf secret) := by
  apply nextAction_lockMyLeg.mpr
  refine ⟨(ctx_hashlock h.base).trans (ha.hashlock true), ctx_lockMyLeg h.base,
    .inr ⟨?_, h.state, hsafe⟩⟩
  exact (ctx_role h.base).trans (ha.role true)

/-- The taker redeems the maker's leg. -/
theorem Looked.taker_redeems (ha : Agreement cr D chainIds secret start)
    (h : Looked cr chainIds secret start false 2 w e) (hsafe : e.ctx.CounterpartySafe) :
    nextAction e.state e.ctx = .redeemCounterpartyLeg secret := by
  apply nextAction_redeem.mpr
  refine .inl ⟨(ctx_role h.base).trans (ha.role false), h.state, ?_, hsafe⟩
  exact (ctx_secret h.base).trans ha.secret

/-- The maker redeems with what has been revealed. -/
theorem Looked.maker_redeems {q : Bytes32} (ha : Agreement cr D chainIds secret start)
    (h : Looked cr chainIds secret start true 3 w e) (hq : e.ctx.revealedSecret = some q) :
    nextAction e.state e.ctx = .redeemCounterpartyLeg q :=
  nextAction_redeem.mpr (.inr ⟨(ctx_role h.base).trans (ha.role true), .inl h.state, hq⟩)

/-- As long as the counterparty's lock is not deep enough a party waits for it. -/
theorem Looked.waits_for_lock (hstd : ∀ i, (D i).AllStandard)
    (ha : Agreement cr D chainIds secret start) (hw : InPhase chainIds secret start n w)
    (h : Looked cr chainIds secret start i n w e) (hstate : stateIn i n = cond i .start .myLegLocked)
    (hshallow : openedIn (!i) ≤ n → ¬(start i).minConfirmations.toNat ≤
      (w.chains !i).depth (ownLeg cr (start !i) (cr.hashlockOf secret)).id) :
    nextAction e.state e.ctx = .waitForCounterpartyLock := by
  have hnone := h.lock.trans (hw.seenLock_shallow hstd (!i) hshallow)
  have hopen := h.open ha hw
  have hrole := (ctx_role h.base).trans (ha.role i)
  cases i with
  | false => simp [h.state, hstate, nextAction, hrole, takerNext, hnone, hopen]
  | true => simp [h.state, hstate, nextAction, hrole, makerNext, hnone]

/-- Until the secret is out the maker waits for it. -/
theorem Looked.waits_for_secret (ha : Agreement cr D chainIds secret start)
    (hw : InPhase chainIds secret start 2 w) (h : Looked cr chainIds secret start true 2 w e) :
    nextAction e.state e.ctx = .waitForSecretReveal := by
  have hnone := h.revealedSecret rfl (Nat.lt_succ_self 2)
  have hopen := h.open ha hw
  have hrole := (ctx_role h.base).trans (ha.role true)
  have hstate : e.state = .waitingForSecret := h.state
  simp [hstate, nextAction, hrole, makerNext, hnone, hopen]

theorem Looked.done (h : Looked cr chainIds secret start i n w e)
    (hredeemed : stateIn i n = .counterpartyRedeemed) : nextAction e.state e.ctx = .done := by
  rw [h.state, hredeemed]
  rfl

end Decisions

end Kael.CrossChain
