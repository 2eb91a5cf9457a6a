import Kael.Contracts.Refinement
import Kael.Contracts.Transactions
import Kael.Maestro.Mirror
import Kael.Swapkit.Discovery

/-!
# Looking at Chains That Are Not Rolled Back

An observer of a chain that only grows has read its first blocks, each once
(`CounterpartyObserver.HasRead`), whenever it is polled and however often. A
poll that is answered reads the rest (`HasRead.poll`); then the observer knows
the first lock under each hashlock, and a preimage exactly for the hashlocks
under which a record has been redeemed.

So what a refresh of the executor finds is a function of the two chains
(`Executor.refresh_sees`).
-/

namespace Kael.Swapkit

open Exchange (Deployment Policy State Reachable)
open HashedTimelock (Event Storage Explains)
open Deliveries (Deliver Complete)
open Maestro (SwapTracker Tracks ingestAll ingestAll_append ingestAll_count ingestAll_eq_feed
  ingestAll_isSome feed_tracks EventFits)

/-! ## Chains of both contracts -/

/-- A chain that runs both contracts, between two transactions. -/
structure LiveChain (cr : Crypto) (D : Deployment) (π : Policy) extends PolledChain where
  state : State
  reachable : Reachable cr D π ⟨state, []⟩
  mined : blocks.flatten = state.htlc.logs

/-- The endpoint of the chain answers. -/
def PolledChain.Answered (p : PolledChain) : Prop := p.numberError = none ∧ p.logsError = none

section Chains

variable {cr : Crypto} {D : Deployment} {π : Policy} (p : LiveChain cr D π)

theorem LiveChain.closed : p.state.frames = [] := by
  obtain ⟨l, -, hrun⟩ := p.reachable
  exact Exchange.no_frames_of_run rfl hrun

theorem LiveChain.explains (hstd : D.AllStandard) : Explains cr p.state.htlc :=
  (p.reachable.history hstd p.closed).2.1

end Chains

/-! ## Observers -/

/-- The observer has been fed the first blocks of the chain, each once. -/
structure CounterpartyObserver.HasRead (cr : Crypto) (chainId : U64) (blocks : List (List Event))
    (o : CounterpartyObserver) : Prop where
  chain : o.cpChainId = chainId
  cursor : o.nextBlock.toNat ≤ blocks.length
  fed : (ingestAll cr chainId .new 0 ((blocks.take o.nextBlock.toNat).flatten.map some)).map
    Prod.fst = some o.tracker

namespace CounterpartyObserver

variable {cr : Crypto} {chainId : U64} {blocks blocks' : List (List Event)}
  {o : CounterpartyObserver} {p : PolledChain} {st : Storage} {h id : Bytes32}

theorem HasRead.new : (CounterpartyObserver.new chainId).HasRead cr chainId blocks :=
  ⟨rfl, Nat.zero_le _, rfl⟩

/-- New blocks have not been read yet. -/
theorem HasRead.grow (ho : o.HasRead cr chainId blocks) (hgrow : blocks <+: blocks') :
    o.HasRead cr chainId blocks' := by
  obtain ⟨rest, rfl⟩ := hgrow
  refine ⟨ho.chain, ho.cursor.trans (List.length_append ▸ Nat.le_add_right ..), ?_⟩
  rw [List.take_append_of_le_length ho.cursor]
  exact ho.fed

/-- A poll that succeeds has read all that was left. -/
theorem HasRead.of_poll {o' : CounterpartyObserver} (ho : o.HasRead cr chainId p.blocks)
    (hpoll : o.poll cr p.answers = .ok o') :
    o'.HasRead cr chainId p.blocks ∧ o'.nextBlock.toNat = p.blocks.length := by
  have hcase := @poll_cases cr o p (by simp [hpoll])
  rw [hpoll] at hcase
  cases hcase with
  | behind hnumber hcursor => exact ⟨ho, le_antisymm ho.cursor hcursor⟩
  | scanned hnumber hlogs hcursor t n hingest =>
    refine ⟨⟨ho.chain, p.next_toNat.le, ?_⟩, p.next_toNat⟩
    -- What was read before, and then the rest.
    obtain ⟨⟨t₀, n₀⟩, hfed, ht₀⟩ := Option.map_eq_some_iff.mp ho.fed
    dsimp only at ht₀
    subst ht₀
    have hblocks : p.blocks.flatten.map some =
        (p.blocks.take o.nextBlock.toNat).flatten.map some ++
          (p.blocks.drop o.nextBlock.toNat).flatten.map some := by
      rw [← List.map_append, ← List.flatten_append, List.take_append_drop]
    dsimp only
    rw [p.next_toNat, List.take_length, hblocks, ingestAll_append, hfed, Option.bind_some,
      ingestAll_count 0, ← ho.chain, hingest]
    rfl

/-- **An answered poll** succeeds. -/
theorem HasRead.poll (ho : o.HasRead cr chainId p.blocks) (hanswered : p.Answered)
    (hfits : ∀ e ∈ p.blocks.flatten, EventFits e) :
    ∃ o', o.poll cr p.answers = .ok o' ∧ o'.HasRead cr chainId p.blocks ∧
      o'.nextBlock.toNat = p.blocks.length := by
  have hsurvives : o.poll cr p.answers ≠ .panicked := by
    apply poll_ne_panicked_above
    exact fun e he => hfits e ((List.drop_sublist ..).flatten.subset he)
  cases hpoll : o.poll cr p.answers with
  | ok o' => exact ⟨o', rfl, ho.of_poll hpoll⟩
  | err e =>
    have hcase := poll_cases hsurvives
    rw [hpoll] at hcase
    cases hcase with
    | failed e herror => exact absurd ⟨hanswered.1, .inr hanswered.2⟩ herror
  | panicked => exact absurd hpoll hsurvives

/-- Observing loses nothing, whether it succeeds or not. -/
theorem HasRead.observe (ho : o.HasRead cr chainId p.blocks) (minConfirmations : U64)
    (lockIo : LockAnswers) :
    (o.observe cr h minConfirmations p.answers lockIo).1.HasRead cr chainId p.blocks := by
  unfold CounterpartyObserver.observe
  cases hpoll : o.poll cr p.answers with
  | err | panicked => exact ho
  | ok o' =>
    have ho' := (ho.of_poll hpoll).1
    dsimp only
    split
    · exact ho'
    · split <;> exact ho'

/-- Observers that have read everything know the same. -/
theorem HasRead.tracker_eq {o' : CounterpartyObserver} (ho : o.HasRead cr chainId blocks)
    (ho' : o'.HasRead cr chainId blocks) (hall : o.nextBlock.toNat = blocks.length)
    (hall' : o'.nextBlock.toNat = blocks.length) : o.tracker = o'.tracker := by
  have hfed := ho.fed
  rw [hall, ← hall', ho'.fed] at hfed
  exact (Option.some.inj hfed).symm

/-- An observer that has read everything discovers the first lock. -/
theorem HasRead.discovers (ho : o.HasRead cr chainId blocks)
    (hall : o.nextBlock.toNat = blocks.length) :
    o.discoverContractId h = firstLock h blocks.flatten := by
  obtain ⟨⟨t, n⟩, hfed, ht⟩ := Option.map_eq_some_iff.mp ho.fed
  dsimp only at ht
  subst ht
  rw [hall, List.take_length] at hfed
  apply discoverContractId_eq
  rw [ingestAll_firstLeg hfed, ho.chain]
  rfl

/-- An observer that has read everything knows what has been redeemed. -/
theorem HasRead.reveals (ho : o.HasRead cr chainId blocks)
    (hall : o.nextBlock.toNat = blocks.length) (hmined : blocks.flatten = st.logs)
    (hexplains : Explains cr st) (hfits : ∀ e ∈ st.logs, EventFits e) :
    (∀ q, o.revealedSecret h = some q → cr.hashlockOf q = h) ∧
      ((o.revealedSecret h).isSome = true ↔
        ∃ id, (st.swaps id).hashlock = h ∧ (st.swaps id).withdrawn = true) := by
  have hfeed := ho.fed
  rw [hall, List.take_length, hmined] at hfeed
  -- One chain, delivered from its beginning to its end.
  have hdeliver : Complete (fun _ : Unit => st.logs) (st.logs.map ((), ·)) := by
    have hstart : Deliver (fun _ : Unit => st.logs) (fun _ => 0) [] := .start
    have hread := hstart.read_all (i := ()) (Nat.zero_le _)
    have hpos : Function.update (fun _ : Unit => 0) () st.logs.length =
        fun _ => st.logs.length := funext fun _ => Function.update_self ..
    rw [hpos] at hread
    exact hread
  obtain ⟨t, hfeed', ht⟩ : ∃ t, Maestro.feed cr (fun _ : Unit => chainId) .new (st.logs.map ((), ·)) =
      some t ∧ Tracks cr (fun _ => chainId) (fun _ => st.swaps) (st.logs.map ((), ·)) t :=
    feed_tracks (fun _ _ _ => rfl) (fun _ => hexplains) (fun _ => hfits) hdeliver
  have heq := @ingestAll_eq_feed Unit cr (fun _ => chainId) .new () st.logs 0
  rw [hfeed, hfeed', Option.some.injEq] at heq
  have hmirrors := ht.mirrors (fun _ _ _ => rfl) (fun _ => hexplains) (fun _ => hfits) hdeliver
  rw [← heq] at hmirrors
  refine ⟨hmirrors.sound h, (hmirrors.known h).trans ?_⟩
  exact ⟨fun ⟨_, id, hid⟩ => ⟨id, hid⟩, fun ⟨id, hid⟩ => ⟨(), id, hid⟩⟩

end CounterpartyObserver

/-! ## Reading a lock -/

section Reading

variable {io : LockAnswers} {p : PolledChain} {st : Storage} {id : Bytes32} {minConfirmations : U64}

/-- What a truthful endpoint makes of the record at an id. -/
theorem observeLock_eq (htruth : Truthful io p st) {raw : RawSwap}
    (hraw : rawSwap (st.swaps id) = .ok raw) :
    observeLock io id minConfirmations = .ok
      (if (observedFromSwap raw).exist = false then .absent
       else if minConfirmations.toNat ≤ p.depth id then .confirmed (observedFromSwap raw)
       else .shallow) := by
  rw [← confirmations_eq_depth]
  simp only [observeLock, LockAnswers.creationBlock, htruth.getSwap, htruth.blockNumber,
    htruth.creationLogs, hraw, BitVec.le_def, Bool.not_eq_eq_eq_not, Bool.not_true]
  split_ifs <;> rfl

end Reading

/-! ## Refreshes -/

/-- The lock that a chain shows to the gate: the first one under the hashlock,
    if it is active and deep enough. -/
def seenLock (p : PolledChain) (st : Storage) (minConfirmations : U64) (h : Bytes32) :
    Option ObservedLock :=
  (firstLock h p.blocks.flatten).bind fun id =>
    match rawSwap (st.swaps id) with
    | .ok raw =>
      if (observedFromSwap raw).exist = true ∧ minConfirmations.toNat ≤ p.depth id then
        some (observedFromSwap raw)
      else none
    | .error _ => none

/-- A refresh is answered with the two chains as they are. -/
structure RefreshAnswers.Tells (io : RefreshAnswers) (now : U64) (own counterparty : PolledChain)
    (st : Storage) : Prop where
  now : io.now = now
  ownAnswered : own.Answered
  ownPoll : io.ownPoll = own.answers
  counterpartyAnswered : counterparty.Answered
  counterpartyPoll : io.counterpartyPoll = counterparty.answers
  counterpartyLock : Truthful io.counterpartyLock counterparty st

/-- What is told of the counterparty's logs is true; the endpoint may fail to tell it. -/
def RefreshAnswers.Logs (io : RefreshAnswers) (counterparty : PolledChain) : Prop :=
  ∃ p : PolledChain, p.blocks = counterparty.blocks ∧ io.counterpartyPoll = p.answers

namespace Executor

/-- The executor has read the beginnings of its two chains. -/
structure Reads (cr : Crypto) (ownId counterpartyId : U64) (own counterparty : PolledChain)
    (e : Executor) : Prop where
  own : e.ownObserver.HasRead cr ownId own.blocks
  counterparty : e.counterpartyObserver.HasRead cr counterpartyId counterparty.blocks

/-- `e'` is `e` after a refresh that has seen the two chains. -/
structure Sees (cr : Crypto) (ownId counterpartyId : U64) (now : U64)
    (own counterparty : PolledChain) (st : Storage) (h : Bytes32) (e e' : Executor) : Prop where
  refreshed : Refreshed cr e e'
  reads : e'.Reads cr ownId counterpartyId own counterparty
  ownRead : e'.ownObserver.nextBlock.toNat = own.blocks.length
  now : e'.ctx.now = now
  lock : e'.ctx.counterpartyLock = seenLock counterparty st e.minConfirmations h
  target : e'.counterpartyContractId = firstLock h counterparty.blocks.flatten
  revealed : e'.ctx.revealedSecret =
    (e'.ownObserver.revealedSecret h).or e.ctx.revealedSecret

variable {cr : Crypto} {e : Executor} {io : RefreshAnswers} {ownId counterpartyId now : U64}
  {own counterparty : PolledChain} {st : Storage} {h : Bytes32}

/-- **What a refresh finds**, if the endpoints tell the chains as they are. -/
theorem refresh_sees (hhashlock : e.ctx.hashlock = some h)
    (hreads : e.Reads cr ownId counterpartyId own counterparty)
    (htells : io.Tells now own counterparty st)
    (hown : ∀ event ∈ own.blocks.flatten, EventFits event)
    (hcounterparty : ∀ event ∈ counterparty.blocks.flatten, EventFits event)
    (hraw : ∀ id, firstLock h counterparty.blocks.flatten = some id →
      ∃ raw, rawSwap (st.swaps id) = .ok raw) :
    ∃ e', e.refresh cr io = (e', .ok ()) ∧
      Sees cr ownId counterpartyId now own counterparty st h e e' := by
  obtain ⟨o', hpolled, hread, hall⟩ := hreads.own.poll htells.ownAnswered hown
  obtain ⟨o, hpolled₁, hread₁, hall₁⟩ :=
    hreads.counterparty.poll htells.counterpartyAnswered hcounterparty
  have hdiscovers := hread₁.discovers (h := h) hall₁
  rw [← htells.ownPoll] at hpolled
  rw [← htells.counterpartyPoll] at hpolled₁
  -- The observation, and what the gate is given of it.
  obtain ⟨observation, hobserve, hgate⟩ : ∃ observation,
      e.counterpartyObserver.observe cr h e.minConfirmations io.counterpartyPoll
        io.counterpartyLock = (o, .ok observation) ∧
      observation.forGate = seenLock counterparty st e.minConfirmations h := by
    unfold CounterpartyObserver.observe seenLock
    simp only [hpolled₁, hdiscovers]
    cases hfirst : firstLock h counterparty.blocks.flatten with
    | none => exact ⟨.absent, rfl, rfl⟩
    | some id =>
      obtain ⟨raw, hraw⟩ := hraw id hfirst
      simp only [observeLock_eq htells.counterpartyLock hraw, Option.bind_some, hraw]
      refine ⟨_, rfl, ?_⟩
      cases (observedFromSwap raw).exist with
      | false => simp [LockObservation.forGate]
      | true =>
        simp only [Bool.true_eq_false, if_false, true_and]
        split_ifs <;> rfl
  have hrefresh := refresh_eq hhashlock hobserve hpolled
  refine ⟨_, hrefresh, ⟨refreshed_of_refresh hrefresh, ⟨hread, hread₁⟩, hall, ?_, hgate,
    hdiscovers, rfl⟩⟩
  exact htells.now

/-! ## Refreshes that fail -/

/-- **A refresh that fails** may have read more; it has learned nothing else. -/
theorem refresh_fails {e' : Executor} {failure : ExecutorError}
    (hreads : e.Reads cr ownId counterpartyId own counterparty) (hlogs : io.Logs counterparty)
    (hrefresh : e.refresh cr io = (e', .err failure)) :
    e'.Reads cr ownId counterpartyId own counterparty ∧
      e'.ctx.revealedSecret = e.ctx.revealedSecret := by
  obtain ⟨q, hq, hcounterpartyPoll⟩ := hlogs
  have hread := hreads.counterparty
  rw [← hq] at hread
  unfold refresh at hrefresh
  dsimp only at hrefresh
  cases hhashlock : e.ctx.hashlock with
  | none =>
    rw [hhashlock] at hrefresh
    cases hrefresh
    exact ⟨⟨hreads.own, hreads.counterparty⟩, rfl⟩
  | some hashlock =>
    have hobserved := hread.observe (h := hashlock) e.minConfirmations io.counterpartyLock
    rw [hq, ← hcounterpartyPoll] at hobserved
    simp only [hhashlock] at hrefresh
    -- The observation has failed, or the poll of the own chain.
    generalize e.counterpartyObserver.observe cr hashlock e.minConfirmations io.counterpartyPoll
      io.counterpartyLock = observed at hrefresh hobserved
    obtain ⟨o, result⟩ := observed
    cases result with
    | err e₁ =>
      cases hrefresh
      exact ⟨⟨hreads.own, hobserved⟩, rfl⟩
    | panicked => cases hrefresh
    | ok observation =>
      cases hpoll : e.ownObserver.poll cr io.ownPoll with
      | err e₁ =>
        simp only [hpoll] at hrefresh
        cases hrefresh
        exact ⟨⟨hreads.own, hobserved⟩, rfl⟩
      | panicked | ok o' =>
        simp only [hpoll] at hrefresh
        cases hrefresh

/-! ## Steps that are answered -/

section Steps

variable {io : StepAnswers} {e₁ e₂ : Executor}

theorem step_waits (hfirst : e.refresh cr io.first = (e₁, .ok ()))
    (hplanned : nextAction e₁.state e₁.ctx = .waitForCounterpartyLock ∨
      nextAction e₁.state e₁.ctx = .waitForSecretReveal) :
    e.step cr io = ⟨e₁, .ok .waiting, none⟩ := by
  rcases hplanned with hplanned | hplanned <;> simp only [step, hfirst, act, hplanned]

theorem step_done (hfirst : e.refresh cr io.first = (e₁, .ok ()))
    (hplanned : nextAction e₁.state e₁.ctx = .done) :
    e.step cr io = ⟨e₁, .ok .terminal, none⟩ := by
  simp only [step, hfirst, act, hplanned]

/-- The second look finds what the first one has found. -/
theorem step_locks {recipient token : Address} {amount : U128} {hashlock : Bytes32} {timelock : U64}
    (hfirst : e.refresh cr io.first = (e₁, .ok ()))
    (hplanned : nextAction e₁.state e₁.ctx = .lockMyLeg recipient token amount hashlock timelock)
    (hsecond : e₁.refresh cr io.second = (e₂, .ok ()))
    (hcurrent : nextAction e₂.state e₂.ctx = .lockMyLeg recipient token amount hashlock timelock) :
    e.step cr io = e₂.lockMyLeg cr recipient token amount hashlock timelock io.tx := by
  simp only [step, hfirst, act, hplanned, reverify, hsecond, hcurrent,
    reverifiedActionMatches_lock.mpr, if_true]

theorem step_redeems {secret : Bytes32} (hfirst : e.refresh cr io.first = (e₁, .ok ()))
    (hplanned : nextAction e₁.state e₁.ctx = .redeemCounterpartyLeg secret)
    (hsecond : e₁.refresh cr io.second = (e₂, .ok ()))
    (hcurrent : nextAction e₂.state e₂.ctx = .redeemCounterpartyLeg secret) :
    e.step cr io = e₂.redeemCounterpartyLeg secret io.tx := by
  simp only [step, hfirst, act, hplanned, reverify, hsecond, hcurrent,
    reverifiedActionMatches_redeem.mpr, if_true]

end Steps

end Executor

/-! ## Transactions that are answered -/

/-- Transactions have their receipts, and an approval has set the allowance. -/
structure TxAnswers.Served (io : TxAnswers) (amount : U128) : Prop where
  approved : ∃ r, io.approve.approve.receipt = .ok r
  allowance : io.approve.allowance = .ok (amount.setWidth 256)
  receipt : ∃ r, io.call.receipt = .ok r

section Served

variable {cr : Crypto} {D : Deployment} {io : TxAnswers} {amount : U128}
  {recipient token : Address} {hashlock : Bytes32} {timelock : U64} {e : Executor}

theorem sendLock_served (hserved : io.Served amount) (spender : Address) (contractId : Bytes32)
    (call : Exchange.Call) :
    ∃ hash, (sendLock spender token amount contractId call io).result = .ok ⟨contractId, hash⟩ ∧
      ((sendLock spender token amount contractId call io).sent = [call] ∨
        (sendLock spender token amount contractId call io).sent =
          [.approve token spender amount.toNat, call]) := by
  obtain ⟨r, hr⟩ := hserved.receipt
  obtain ⟨r', hr'⟩ := hserved.approved
  have happrove : approveExact amount io.approve = .ok () := by
    simp [approveExact, hr', hserved.allowance]
  unfold sendLock
  simp only [hr, happrove]
  split_ifs
  · exact ⟨_, rfl, .inl rfl⟩
  · exact ⟨_, rfl, .inr rfl⟩

/-- Who the HTLC's sender is when the executor locks. -/
def Executor.lockSender (e : Executor) : Address :=
  match e.ownSettlementLock with
  | some settlement => settlement.settlement
  | none => e.ownSigner

/-- **A lock that is served** returns the id of the record it asks for. -/
theorem Executor.sendLockMyLeg_served (hserved : io.Served amount) (hamount : amount ≠ 0)
    (hsettlement : ∀ config, e.ownSettlementLock = some config → config.settlement = D.settlement) :
    ∃ hash call, (e.sendLockMyLeg cr recipient token amount hashlock timelock io).result =
        .ok ⟨computeContractId cr e.lockSender recipient token amount hashlock timelock, hash⟩ ∧
      call.lockOf D e.ownSigner =
        some (e.lockSender, lockArgs recipient token amount hashlock timelock) ∧
      ((e.sendLockMyLeg cr recipient token amount hashlock timelock io).sent = [call] ∨
        ∃ spender, (e.sendLockMyLeg cr recipient token amount hashlock timelock io).sent =
          [.approve token spender amount.toNat, call]) := by
  unfold sendLockMyLeg lockSender
  cases hconfig : e.ownSettlementLock with
  | none =>
    dsimp only
    unfold lock
    rw [if_neg hamount]
    obtain ⟨hash, hresult, hsent⟩ := @sendLock_served io amount token hserved e.ownHtlc
      (computeContractId cr e.ownSigner recipient token amount hashlock timelock)
      (.newSwap (lockValue token amount) (lockArgs recipient token amount hashlock timelock))
    exact ⟨hash, _, hresult, rfl, hsent.imp_right fun h => ⟨_, h⟩⟩
  | some config =>
    dsimp only
    unfold lockViaSettlement
    rw [if_neg hamount]
    obtain ⟨hash, hresult, hsent⟩ := @sendLock_served io amount token hserved config.settlement
      (computeContractId cr config.settlement recipient token amount hashlock timelock)
      (.settleLeg (lockValue token amount)
        (config.leg e.ownSigner recipient token amount hashlock timelock))
    refine ⟨hash, _, hresult, ?_, hsent.imp_right fun h => ⟨_, h⟩⟩
    rw [hsettlement config hconfig]
    rfl

/-- **Locking when served** succeeds: the lock is sent and its id is stored. -/
theorem Executor.lockMyLeg_served (hnone : e.ownContractId = none) (hserved : io.Served amount)
    (hamount : amount ≠ 0)
    (hsettlement : ∀ config, e.ownSettlementLock = some config → config.settlement = D.settlement) :
    ∃ sending call,
      (e.lockMyLeg cr recipient token amount hashlock timelock io).tx = some (.lock sending) ∧
      call.lockOf D e.ownSigner =
        some (e.lockSender, lockArgs recipient token amount hashlock timelock) ∧
      (sending.sent = [call] ∨
        ∃ spender, sending.sent = [.approve token spender amount.toNat, call]) ∧
      (e.lockMyLeg cr recipient token amount hashlock timelock io).exec = { e with
        ownContractId :=
          some (computeContractId cr e.lockSender recipient token amount hashlock timelock)
        ctx := { e.ctx with myLegLocked := true }
        state := advance e.state .myLegConfirmed } ∧
      ∃ outcome,
        (e.lockMyLeg cr recipient token amount hashlock timelock io).result = .ok outcome := by
  obtain ⟨hash, call, hresult, hlock, hsent⟩ := @sendLockMyLeg_served cr D io amount recipient
    token hashlock timelock e hserved hamount hsettlement
  refine ⟨_, call, ?_, hlock, hsent, ?_, .lockedMyLeg
    (computeContractId cr e.lockSender recipient token amount hashlock timelock), ?_⟩
  · simp only [lockMyLeg, hnone, Option.isSome_none, Bool.false_eq_true, if_false, hresult]
  · simp only [lockMyLeg, hnone, Option.isSome_none, Bool.false_eq_true, if_false, hresult]
  · simp only [lockMyLeg, hnone, Option.isSome_none, Bool.false_eq_true, if_false, hresult]

/-- **Redeeming when served** succeeds: the redeem is sent to the discovered lock. -/
theorem Executor.redeemCounterpartyLeg_served {cid secret : Bytes32}
    (htarget : e.counterpartyContractId = some cid) (hserved : io.Served amount) :
    (e.redeemCounterpartyLeg secret io).tx = some (.redeem (Swapkit.redeem cid secret io)) ∧
      (e.redeemCounterpartyLeg secret io).exec = { e with
        state := advance (if e.state = .waitingForSecret then advance e.state .secretObserved
          else e.state) .redeemConfirmed } ∧
      ∃ outcome, (e.redeemCounterpartyLeg secret io).result = .ok outcome := by
  obtain ⟨r, hr⟩ := hserved.receipt
  have hresult : (Swapkit.redeem cid secret io).result = .ok r.transactionHash :=
    congrArg (Except.map Receipt.transactionHash) hr
  refine ⟨?_, ?_, .redeemedCounterpartyLeg, ?_⟩
  · simp only [redeemCounterpartyLeg, htarget, hresult]
  · simp only [redeemCounterpartyLeg, htarget, hresult]
  · simp only [redeemCounterpartyLeg, htarget, hresult]

end Served

end Kael.Swapkit
