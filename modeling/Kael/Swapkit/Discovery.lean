import Kael.Swapkit.Executor
import Kael.Swapkit.Reorgs

/-!
# Which Lock Is Discovered

The observer looks for the counterparty's lock by the hashlock alone, and takes
the first leg that was filed under it. This is the first lock with that hashlock
that the polls have found, whoever made it; on a chain that only grows, the
first one in the HTLC's log. A safe lock is found exactly if the first one is
safe.
-/

namespace Kael.Swapkit

open HashedTimelock (Event Storage Swap World Setting SlotVacant guarded)
open Maestro (SwapTracker Leg LegKind markAt ingest ingestAll EventFits)
open NestedCalls (Run Config)

/-! ## The first leg of a hashlock -/

/-- The id locked by the event, if it locks under `hashlock`. -/
def lockUnder (hashlock : Bytes32) : Event → Option Bytes32
  | .logNewSwap id _ _ _ _ h _ => if h = hashlock then some id else none
  | _ => none

/-- The first lock under `hashlock` in a log. -/
def firstLock (hashlock : Bytes32) (logs : List Event) : Option Bytes32 :=
  logs.findSome? (lockUnder hashlock)

/-- The chain and the id of the first leg that is filed under `hashlock`. -/
def firstLeg (t : SwapTracker) (hashlock : Bytes32) : Option (U64 × Bytes32) :=
  (t.legsOf hashlock).head?.map fun l => (l.chainId, l.contractId)

section FirstLeg

variable {cr : Crypto} {chainId : U64} {t t' : SwapTracker} {count n : Nat} {h k : Bytes32}

/-- Marking keeps chains and ids. -/
theorem firstLeg_mark {f : Maestro.SwapState → Maestro.SwapState} {contractId : Bytes32}
    {mark : Leg → Leg} (hf : ∀ s, (f s).legs = s.legs.map (markAt chainId contractId mark))
    (hmark : ∀ l, (mark l).chainId = l.chainId ∧ (mark l).contractId = l.contractId) :
    firstLeg ⟨Maestro.modifyExisting k f t.swaps⟩ h = firstLeg t h := by
  -- Marking a leg keeps its identity, so the pair read off the first leg is the same.
  have hkey : ∀ l, ((markAt chainId contractId mark l).chainId,
      (markAt chainId contractId mark l).contractId) = (l.chainId, l.contractId) := by
    intro l
    unfold markAt
    split_ifs
    · rw [(hmark l).1, (hmark l).2]
    · rfl
  rw [firstLeg, SwapTracker.legsOf_modifyExisting hf]
  split_ifs with hh
  · subst hh
    rw [List.head?_map, Option.map_map]
    exact congrArg (Option.map · _) (funext hkey)
  · rfl

theorem ingest_firstLeg {e : Event} (hingest : ingest cr chainId t (some e) = some (t', n)) :
    firstLeg t' h = (firstLeg t h).or ((lockUnder h e).map (chainId, ·)) := by
  cases e with
  | logNewSwap id sender recipient token amount hashlock timelock =>
    simp only [ingest] at hingest
    split at hingest
    · cases hingest
      -- The new leg goes to the end of its swap's legs: it is the first only where there was none.
      simp only [firstLeg, SwapTracker.legsOf_onNewSwap, lockUnder]
      by_cases hh : h = hashlock
      · subst hh
        cases hlegs : t.legsOf h with
        | nil => simp
        | cons l legs => split_ifs <;> simp
      · simp [hh, Ne.symm hh]
    · cases hingest
  | logRedeem id p =>
    -- A redeem or a refund creates no leg and marks an existing one.
    have hnone : lockUnder h (.logRedeem id p) = none := rfl
    rw [hnone, Option.map_none, Option.or_none]
    simp only [ingest] at hingest
    cases hingest
    unfold SwapTracker.onRedeem
    dsimp only
    split
    · rfl
    · exact firstLeg_mark (fun _ => rfl) fun _ => ⟨rfl, rfl⟩
  | logRefund id =>
    have hnone : lockUnder h (.logRefund id) = none := rfl
    rw [hnone, Option.map_none, Option.or_none]
    simp only [ingest] at hingest
    split at hingest
    · cases hingest
      exact firstLeg_mark (fun _ => rfl) fun _ => ⟨rfl, rfl⟩
    · cases hingest
      rfl

/-- After a poll the first leg is the one there was, or the first lock of the poll. -/
theorem ingestAll_firstLeg {logs : List Event}
    (hingest : ingestAll cr chainId t count (logs.map some) = some (t', n)) :
    firstLeg t' h = (firstLeg t h).or ((firstLock h logs).map (chainId, ·)) := by
  induction logs generalizing t count with
  | nil =>
    cases hingest
    simp [firstLock]
  | cons e logs ih =>
    simp only [List.map_cons, ingestAll] at hingest
    cases hfirst : ingest cr chainId t (some e) with
    | none => simp [hfirst] at hingest
    | some r =>
      simp only [hfirst] at hingest
      rw [ih hingest, ingest_firstLeg hfirst, Option.or_assoc, firstLock, firstLock,
        List.findSome?_cons]
      cases lockUnder h e <;> rfl

end FirstLeg

/-- The observer discovers the first leg, if it is of its chain. -/
theorem CounterpartyObserver.discoverContractId_eq {o : CounterpartyObserver} {h : Bytes32}
    {id : Option Bytes32} (hfirst : firstLeg o.tracker h = id.map (o.cpChainId, ·)) :
    o.discoverContractId h = id := by
  unfold firstLeg SwapTracker.legsOf at hfirst
  unfold discoverContractId
  -- The observer reads the first leg of the tracked swap, as `firstLeg` does.
  cases hget : o.tracker.get h with
  | none =>
    rw [hget] at hfirst
    cases id with
    | none => rfl
    | some id => cases hfirst
  | some s =>
    simp only [hget, Option.getD_some] at hfirst
    cases hlegs : s.legs with
    | nil =>
      rw [hlegs] at hfirst
      cases id with
      | none => simp [hlegs]
      | some id => cases hfirst
    | cons l legs =>
      rw [hlegs] at hfirst
      cases id with
      | none => cases hfirst
      | some id =>
        simp only [List.head?_cons, Option.map_some, Option.some.injEq, Prod.mk.injEq] at hfirst
        simp [hlegs, hfirst.1, hfirst.2]

/-! ## What a poll discovers -/

/-- Each chain is the beginning of the later ones. -/
def Grows (polls : List PolledChain) : Prop :=
  polls.Pairwise fun p p' => p.blocks <+: p'.blocks

section Polls

variable {cr : Crypto} {cpChainId : U64} {polls : List PolledChain} {p : PolledChain}

/-- An answered poll goes through if the numbers above the horizon fit. -/
theorem Survives.poll_ok_iff_fits (hsurvives : Survives cr cpChainId polls)
    (hnumber : p.numberError = none) (hlogs : p.logsError = none) :
    (∃ o, (watch cr cpChainId polls).observer.poll cr p.answers = .ok o) ↔
      ∀ e ∈ (p.blocks.drop (horizon polls).reached).flatten, EventFits e := by
  rw [← hsurvives.follows.cursor]
  constructor
  · rintro ⟨o, ho⟩
    have hcase := @poll_cases cr (watch cr cpChainId polls).observer p (by simp [ho])
    rw [ho] at hcase
    cases hcase with
    | behind _ hcursor => simp [List.drop_eq_nil_of_le hcursor]
    | scanned _ _ _ t n hingest => exact Maestro.fits_of_ingestAll hingest
  · intro hfits
    exact (poll_ok_iff (poll_ne_panicked_above hfits)).mpr ⟨hnumber, .inr hlogs⟩

/-- The observer discovers the first lock that the polls have found. -/
theorem Survives.discovers (hsurvives : Survives cr cpChainId polls) (h : Bytes32)
    {o : CounterpartyObserver}
    (ho : (watch cr cpChainId polls).observer.poll cr p.answers = .ok o) :
    o.discoverContractId h = firstLock h (horizon (polls ++ [p])).events := by
  have hnext := hsurvives.follows.next (p := p) (by simp [ho])
  rw [Watch.next, ho, ← horizon_append] at hnext
  obtain ⟨⟨t, n⟩, hingest, ht⟩ := Option.map_eq_some_iff.mp hnext.tracker
  have hfed := hnext.fed
  have hchain : o.cpChainId = cpChainId := hnext.chain
  dsimp only at hfed hingest ht
  subst ht
  rw [hfed] at hingest
  apply CounterpartyObserver.discoverContractId_eq
  rw [ingestAll_firstLeg hingest, hchain]
  rfl

namespace Grows

theorem of_prefix {polls polls' : List PolledChain} (h : Grows (polls ++ polls')) :
    Grows polls := (List.pairwise_append.mp h).1

theorem le (h : Grows (polls ++ [p])) {q : PolledChain} (hq : q ∈ polls) :
    q.blocks <+: p.blocks :=
  (List.pairwise_append.mp h).2.2 q hq p (List.mem_singleton.mpr rfl)

theorem append_of_le (h : Grows polls) (hle : ∀ q ∈ polls, q.blocks <+: p.blocks) :
    Grows (polls ++ [p]) :=
  List.pairwise_append.mpr ⟨h, List.pairwise_singleton _ _, fun q hq _ hp =>
    List.mem_singleton.mp hp ▸ hle q hq⟩

/-- Of a chain that grows, everything up to the horizon has been found. -/
theorem horizon (h : Grows (polls ++ [p])) :
    (Swapkit.horizon polls).reached ≤ p.blocks.length ∧
      (Swapkit.horizon polls).events =
        (p.blocks.take (Swapkit.horizon polls).reached).flatten := by
  -- By induction on the polls: each starts where the last one that reached a new head stopped.
  induction polls using List.reverseRecOn generalizing p with
  | nil => exact ⟨Nat.zero_le _, rfl⟩
  | append_singleton polls q ih =>
    have hpolls : Grows polls := h.of_prefix.of_prefix
    have hlater := ih (hpolls.append_of_le fun r hr => h.le (List.mem_append_left _ hr))
    obtain ⟨hreached, hevents⟩ := ih h.of_prefix
    have hq : q.blocks <+: p.blocks := h.le (List.mem_append_right _ (List.mem_singleton.mpr rfl))
    rw [horizon_append, Horizon.next]
    -- A poll whose head moved applies the blocks after the last one; any other applies none.
    split_ifs
    · rw [max_eq_right hreached, hevents, ← List.flatten_append, List.take_append_drop,
        ← List.prefix_iff_eq_take.mp hq]
      exact ⟨hq.length_le, rfl⟩
    · exact hlater

/-- **On a chain that only grows** the first lock of the whole log is discovered. -/
theorem discovers (hgrows : Grows (polls ++ [p])) (hsurvives : Survives cr cpChainId polls)
    (h : Bytes32) {o : CounterpartyObserver}
    (ho : (watch cr cpChainId polls).observer.poll cr p.answers = .ok o) :
    o.discoverContractId h = firstLock h p.logs := by
  have hsucceeds := (poll_ok_iff (by simp [ho])).mp ⟨o, ho⟩
  rw [hsurvives.follows.cursor] at hsucceeds
  rw [hsurvives.discovers h ho, horizon_events hsucceeds, hgrows.horizon.2,
    ← List.flatten_append, List.take_append_drop, PolledChain.logs]

end Grows

end Polls

/-! ## Reading the discovered lock -/

/-- The block numbers of the locks of an id. -/
def PolledChain.creationBlocks (p : PolledChain) (id : Bytes32) : List (Option U64) :=
  p.blocks.zipIdx.flatMap fun b => (b.1.filter (Event.opens id)).map fun _ => some (.ofNat 64 b.2)

/-- The number of blocks from the first lock of an id to the head, zero if there is none. -/
def PolledChain.depth (p : PolledChain) (id : Bytes32) : Nat :=
  (p.blocks.findIdx? fun b => b.any (Event.opens id)).elim 0 fun n => p.blocks.length - n

/-- The endpoint answers with the records `st` of the chain `p`. -/
structure Truthful (io : LockAnswers) (p : PolledChain) (st : Storage) : Prop where
  getSwap : ∀ id, io.getSwap id = .ok (st.swaps id)
  blockNumber : io.blockNumber = .ok p.head
  creationLogs : ∀ id, io.creationLogs id = .ok (p.creationBlocks id)

section Reading

variable {io : LockAnswers} {p : PolledChain} {st : Storage} {id : Bytes32} {minConfirmations : U64}

theorem head?_creationBlocks {blocks : List (List Event)} {k : Nat} :
    ((blocks.zipIdx k).flatMap fun b =>
      (b.1.filter (Event.opens id)).map fun _ => some (BitVec.ofNat 64 b.2)).head?.join =
      (blocks.findIdx? fun b => b.any (Event.opens id)).map fun n => BitVec.ofNat 64 (n + k) := by
  induction blocks generalizing k with
  | nil => rfl
  | cons b blocks ih =>
    rw [List.zipIdx_cons, List.flatMap_cons, List.findIdx?_cons]
    -- `find` stops at the first block with an event of the id, which is the head of the list.
    cases hfilter : b.filter (Event.opens id) with
    | nil =>
      have hnone : b.any (Event.opens id) = false := by
        simpa [List.filter_eq_nil_iff] using hfilter
      rw [hnone, List.map_nil, List.nil_append, ih]
      cases blocks.findIdx? fun b => b.any (Event.opens id) with
      | none => rfl
      | some n => simp [Nat.add_comm, Nat.add_left_comm]
    | cons e es =>
      have hsome : b.any (Event.opens id) = true := by
        have hmem : e ∈ b.filter (Event.opens id) := hfilter ▸ List.mem_cons_self ..
        exact List.any_eq_true.mpr ⟨e, List.mem_filter.mp hmem⟩
      simp [hsome]

/-- The confirmations of a lock are its depth. -/
theorem confirmations_eq_depth :
    (((p.creationBlocks id).head?.join.map (confirmations p.head)).getD 0).toNat = p.depth id := by
  rw [PolledChain.creationBlocks, head?_creationBlocks, PolledChain.depth]
  cases hfind : p.blocks.findIdx? fun b => b.any (Event.opens id) with
  | none => rfl
  | some n =>
    have hlt : n < p.blocks.length := (List.findIdx?_eq_some_iff_getElem.mp hfind).1
    have hfits := p.fits
    have hhead := p.head_toNat
    have hn : (BitVec.ofNat 64 (n + 0)).toNat = n := by
      rw [BitVec.toNat_ofNat]
      exact Nat.mod_eq_of_lt (by omega)
    -- The block is within the polled chain, so the subtraction does not saturate.
    have hnot : ¬p.head < BitVec.ofNat 64 (n + 0) := by
      rw [BitVec.lt_def, hn]
      omega
    have hone : (1 : U64).toNat = 1 := rfl
    simp only [Option.map_some, Option.getD_some, Option.elim_some, confirmations, saturatingSub,
      if_neg hnot]
    rw [BitVec.toNat_add, hone, BitVec.toNat_sub_of_le (BitVec.not_lt.mp hnot), hn]
    omega

/-- A truthful endpoint confirms the active records that are deep enough. -/
theorem observeLock_truthful (htruth : Truthful io p st) {lock : ObservedLock} :
    observeLock io id minConfirmations = .ok (.confirmed lock) ↔
      ∃ raw, rawSwap (st.swaps id) = .ok raw ∧ lock = observedFromSwap raw ∧
        lock.exist = true ∧ minConfirmations.toNat ≤ p.depth id := by
  rw [← confirmations_eq_depth]
  simp only [observeLock, LockAnswers.creationBlock, htruth.getSwap, htruth.blockNumber,
    htruth.creationLogs]
  -- The record is read first: only an existing record has its depth compared.
  cases rawSwap (st.swaps id) with
  | error e => simp
  | ok raw =>
    simp only [BitVec.le_def]
    split_ifs with hexist hdepth
    · simp only [Except.ok.injEq, reduceCtorEq, false_iff]
      rintro ⟨raw', rfl, rfl, hexist', -⟩
      simp [hexist'] at hexist
    · simp only [Except.ok.injEq, LockObservation.confirmed.injEq]
      constructor
      · rintro rfl
        exact ⟨raw, rfl, rfl, by simpa using hexist, hdepth⟩
      · rintro ⟨raw', rfl, rfl, -, -⟩
        rfl
    · simp only [Except.ok.injEq, reduceCtorEq, false_iff]
      rintro ⟨-, -, -, -, hdepth'⟩
      exact absurd hdepth' hdepth

end Reading

/-! ## The lock that the gate is given -/

/-- On the chain `p` with the records `st`, the lock `id` is active and deep
    enough, and reads as `lock`, which meets the expectation. -/
structure SafeLock (p : PolledChain) (st : Storage) (minConfirmations : U64)
    (expectation : LegExpectation) (id : Bytes32) (lock : ObservedLock) : Prop where
  read : ∃ raw, rawSwap (st.swaps id) = .ok raw ∧ lock = observedFromSwap raw
  deep : minConfirmations.toNat ≤ p.depth id
  safe : verifyCounterpartyLeg expectation lock = .safe

/-- What the context of `e` expects of the counterparty's leg at a time. -/
def Executor.expectationAt (e : Executor) (now : U64) : LegExpectation :=
  { e.ctx with now := now }.expectation

/-- If there is a safe lock, a refresh finds one, and the party neither aborts
    before its lock nor refunds instead of redeeming. -/
def Executor.FindsSafeLock (cr : Crypto) (e : Executor) (io : RefreshAnswers) (p : PolledChain)
    (st : Storage) : Prop :=
  (∃ id lock, SafeLock p st e.minConfirmations (e.expectationAt io.now) id lock) →
    (e.refresh cr io).2 = .ok () ∧
    (∃ id lock, SafeLock p st e.minConfirmations (e.expectationAt io.now) id lock ∧
      (e.refresh cr io).1.ctx.counterpartyLock = some lock ∧
      (e.refresh cr io).1.counterpartyContractId = some id) ∧
    (e.ctx.role = .maker → e.state = .start →
      ∀ reason, nextAction e.state (e.refresh cr io).1.ctx ≠ .abort reason) ∧
    (e.ctx.role = .taker → e.state = .myLegLocked →
      nextAction e.state (e.refresh cr io).1.ctx ≠ .refund)

section Gate

variable {cr : Crypto} {cpChainId minConfirmations : U64} {polls : List PolledChain}
  {p : PolledChain} {st : Storage} {e : Executor} {io : RefreshAnswers} {h id : Bytes32}
  {expectation : LegExpectation} {lock : ObservedLock}

theorem observeLock_of_safeLock {answers : LockAnswers} (htruth : Truthful answers p st)
    (hsafe : SafeLock p st minConfirmations expectation id lock) :
    observeLock answers id minConfirmations = .ok (.confirmed lock) := by
  obtain ⟨raw, hraw, hlock⟩ := hsafe.read
  exact (observeLock_truthful htruth).mpr
    ⟨raw, hraw, hlock, (verifyCounterpartyLeg_safe.mp hsafe.safe).1.exist, hsafe.deep⟩

/-- A party that sees a safe lock acts on it. -/
theorem SwapContext.CounterpartySafe.acts {ctx : SwapContext} (hsafe : ctx.CounterpartySafe)
    (hhashlock : ctx.hashlock = some h) :
    (ctx.role = .maker → ∀ reason, nextAction .start ctx ≠ .abort reason) ∧
      (ctx.role = .taker → nextAction .myLegLocked ctx ≠ .refund) := by
  obtain ⟨obs, hobs, hverified⟩ := hsafe
  constructor
  · intro hrole reason
    simp [nextAction, makerNext, hrole, hobs, hverified, hhashlock, SwapContext.lockMyLeg]
  · intro hrole
    cases hsecret : ctx.secret <;>
      simp [nextAction, takerNext, hrole, hobs, hverified, hsecret]

/-- A successful observation is of the polled observer. -/
theorem CounterpartyObserver.observe_ok {o o' : CounterpartyObserver} {pollIo : PollAnswers}
    {lockIo : LockAnswers} {observation : LockObservation}
    (hobserve : o.observe cr h minConfirmations pollIo lockIo = (o', .ok observation)) :
    o.poll cr pollIo = .ok o' := by
  unfold observe at hobserve
  -- Only a poll that succeeds goes on to discover and check the lock.
  cases hpoll : o.poll cr pollIo with
  | err e => simp [hpoll] at hobserve
  | panicked => simp [hpoll] at hobserve
  | ok o₁ =>
    simp only [hpoll] at hobserve
    split at hobserve
    · cases hobserve
      rfl
    · split at hobserve
      · cases hobserve
        rfl
      · cases hobserve

/-- What a refresh is left with, if both observers succeed. -/
theorem Executor.refresh_eq (hhashlock : e.ctx.hashlock = some h) {o own : CounterpartyObserver}
    {observation : LockObservation}
    (hobserve : e.counterpartyObserver.observe cr h e.minConfirmations io.counterpartyPoll
      io.counterpartyLock = (o, .ok observation))
    (hown : e.ownObserver.poll cr io.ownPoll = .ok own) :
    e.refresh cr io =
      ({ e with
          counterpartyObserver := o
          counterpartyContractId := o.discoverContractId h
          ownObserver := own
          ctx := { e.ctx with
            now := io.now
            counterpartyLock := observation.forGate
            revealedSecret := (own.revealedSecret h).or e.ctx.revealedSecret
            myLegLocked := e.ctx.myLegLocked || e.ownContractId.isSome } }, .ok ()) := by
  simp only [refresh, hhashlock, hobserve, hown]

theorem Executor.observe_ok_of_refresh (hhashlock : e.ctx.hashlock = some h)
    (hok : (e.refresh cr io).2 = .ok ()) :
    ∃ o observation, e.counterpartyObserver.observe cr h e.minConfirmations
      io.counterpartyPoll io.counterpartyLock = (o, .ok observation) := by
  simp only [refresh, hhashlock] at hok
  cases hobserve : e.counterpartyObserver.observe cr h e.minConfirmations io.counterpartyPoll
      io.counterpartyLock with
  | mk o result =>
    cases result with
    | err failure => simp [hobserve] at hok
    | panicked => simp [hobserve] at hok
    | ok observation => exact ⟨o, observation, rfl⟩

/-- **When a safe lock is found.** After all polls of chains that move in any
    way, one more refresh finds a safe lock, if there is one, exactly if the
    numbers of the new locks fit and the first lock under the hashlock that the
    polls have found, by whomever, is itself safe. -/
theorem finds_safe_lock_iff (hsurvives : Survives cr cpChainId polls)
    (hobserver : e.counterpartyObserver = (watch cr cpChainId polls).observer)
    (hhashlock : e.ctx.hashlock = some h) (hpoll : io.counterpartyPoll = p.answers)
    (hnumber : p.numberError = none) (hlogs : p.logsError = none)
    (htruth : Truthful io.counterpartyLock p st)
    (hown : ∃ own, e.ownObserver.poll cr io.ownPoll = .ok own) :
    e.FindsSafeLock cr io p st ↔
      ((∃ id lock, SafeLock p st e.minConfirmations (e.expectationAt io.now) id lock) →
        (∀ event ∈ (p.blocks.drop (horizon polls).reached).flatten, EventFits event) ∧
        ∃ id lock, firstLock h (horizon (polls ++ [p])).events = some id ∧
          SafeLock p st e.minConfirmations (e.expectationAt io.now) id lock) := by
  obtain ⟨own, hown⟩ := hown
  refine imp_congr_right fun _ => ?_
  rw [← hsurvives.poll_ok_iff_fits hnumber hlogs]
  constructor
  -- A discovered lock is the first leg's, since the polls survived.
  · rintro ⟨hok, ⟨id, lock, hsafe, -, hid⟩, -, -⟩
    obtain ⟨o, observation, hobserve⟩ := Executor.observe_ok_of_refresh hhashlock hok
    have hpolled := CounterpartyObserver.observe_ok hobserve
    rw [hobserver, hpoll] at hpolled
    rw [Executor.refresh_eq hhashlock hobserve hown] at hid
    exact ⟨⟨o, hpolled⟩, id, lock, (hsurvives.discovers h hpolled).symm.trans hid, hsafe⟩
  -- Conversely the first leg's lock passes the gate, and the role acts on it.
  · rintro ⟨⟨o, hpolled⟩, id, lock, hfirst, hsafe⟩
    have hdiscovered := hsurvives.discovers h hpolled
    rw [hfirst] at hdiscovered
    have hobserve : e.counterpartyObserver.observe cr h e.minConfirmations io.counterpartyPoll
        io.counterpartyLock = (o, .ok (.confirmed lock)) := by
      simp only [CounterpartyObserver.observe, hobserver, hpoll, hpolled, hdiscovered,
        observeLock_of_safeLock htruth hsafe]
    have hrefresh := Executor.refresh_eq hhashlock hobserve hown
    have hgate : (e.refresh cr io).1.ctx.CounterpartySafe := by
      rw [hrefresh]
      exact ⟨lock, rfl, hsafe.safe⟩
    obtain ⟨hmaker, htaker⟩ := hgate.acts (by rw [hrefresh]; exact hhashlock)
    rw [hrefresh] at hmaker htaker ⊢
    refine ⟨rfl, ⟨id, lock, hsafe, rfl, hdiscovered⟩, ?_, ?_⟩
    · intro hrole hstate
      rw [hstate]
      exact hmaker hrole
    · intro hrole hstate
      rw [hstate]
      exact htaker hrole

end Gate

namespace Sample

open HashedTimelock (NewSwap)
open HashedTimelock.Sample (alice bob ethLock ethContractId hashlock preimage)

def stranger : Address := 0xee

/-- One wei for itself, under the agreed hashlock. -/
def decoy : NewSwap := ⟨stranger, zeroAddress, 1, hashlock, 20⟩

/-- `keccak256` of the encoding of `stranger`'s lock. -/
def decoyId : Bytes32 := 0x942b0fdb2999f0fdb660c77fdd75c4f2eccb69a3cb7aa63653494758da4a3cd2

def strangerSetting : Setting := { HashedTimelock.Sample.setting with
  crypto := .ofTables
    [(abiEncode [addressWord bob, addressWord alice, addressWord zeroAddress, 7, hashlock, 500],
      ethContractId),
      (abiEncode [addressWord stranger, addressWord stranger, addressWord zeroAddress, 1, hashlock,
        20], decoyId)]
    [(wordBytes preimage, hashlock)] [] }

def decoyLocked : Event := .logNewSwap decoyId stranger decoy.recipient decoy.token decoy.amount
  decoy.hashlock decoy.timelock

def decoyAfter : PolledChain := ⟨[[], [locked], [decoyLocked]], none, none, by decide, by decide⟩

def decoyBefore : PolledChain := ⟨[[], [decoyLocked], [locked]], none, none, by decide, by decide⟩

/-- The endpoints at time 10, with a chain `p` of records `st`. -/
def answersAt (p : PolledChain) (st : Storage) : RefreshAnswers where
  now := 10
  counterpartyPoll := p.answers
  counterpartyLock :=
    ⟨fun id => .ok (st.swaps id), .ok p.head, fun id => .ok (p.creationBlocks id)⟩
  ownPoll := ⟨.ok 3, fun _ _ => .ok []⟩

theorem truthful_answersAt (p : PolledChain) (st : Storage) :
    Truthful (answersAt p st).counterpartyLock p st := ⟨fun _ => rfl, rfl, fun _ => rfl⟩

/-- `alice` makes: she waits for `bob`'s lock. -/
def waitingMaker : Executor where
  state := .start
  ctx :=
    { role := .maker
      myToken := zeroAddress
      myAmount := 5
      myTimelock := 200
      myRecipient := bob
      cpToken := zeroAddress
      cpAmount := 7
      me := alice
      minGap := 100
      hashlock := some hashlock
      secret := none
      myLegLocked := false
      counterpartyLock := none
      revealedSecret := none
      now := 0 }
  ownSigner := alice
  counterpartySigner := alice
  ownHtlc := 0xA
  counterpartyHtlc := 0xC0
  ownSettlementLock := none
  ownObserver := .new 1
  counterpartyObserver := .new 2
  minConfirmations := 1
  ownContractId := none
  counterpartyContractId := none

/-- `bob`'s lock as `alice` reads it. -/
def ethObserved : ObservedLock := ⟨hashlock, zeroAddress, 7, alice, 500, bob, true⟩

def ethRecord : Swap := ⟨bob, alice, zeroAddress, 7, hashlock, 500, false, false⟩

theorem safeLock_eth {p : PolledChain} {st : Storage} (hswap : st.swaps ethContractId = ethRecord)
    (hdeep : 1 ≤ p.depth ethContractId) :
    SafeLock p st waitingMaker.minConfirmations (waitingMaker.expectationAt 10) ethContractId
      ethObserved :=
  ⟨⟨⟨bob, alice, zeroAddress, 7, hashlock, 500, false, false⟩, by rw [hswap]; decide, by decide⟩,
    hdeep, by decide⟩

end Sample

/-- The decoy comes second: the maker finds the safe lock. -/
theorem finds_safe_lock_before_decoy :
    ∃ c, Run (guarded Sample.strangerSetting) ⟨World.fresh fun _ => 0, []⟩ c ∧ c.cur.frames = [] ∧
      c.cur.htlc.logs = Sample.decoyAfter.logs ∧
      Sample.waitingMaker.FindsSafeLock Sample.strangerSetting.crypto
        (Sample.answersAt Sample.decoyAfter c.cur.htlc) Sample.decoyAfter c.cur.htlc := by
  obtain ⟨c, hrun, htest⟩ := (HashedTimelock.script Sample.strangerSetting SlotVacant).exists_run
    [.newSwap 10 ⟨HashedTimelock.Sample.bob, 7⟩ HashedTimelock.Sample.ethLock,
      .newSwap 10 ⟨Sample.stranger, 1⟩ Sample.decoy] ⟨World.fresh fun _ => 0, []⟩
    (fun c => decide (c.cur.frames = [] ∧ c.cur.htlc.logs = Sample.decoyAfter.logs ∧
      c.cur.htlc.swaps HashedTimelock.Sample.ethContractId = Sample.ethRecord))
    (by decide +kernel)
  obtain ⟨hclosed, hlogs, hswap⟩ := of_decide_eq_true htest
  refine ⟨c, hrun, hclosed, hlogs, ?_⟩
  have hsurvives : Survives Sample.strangerSetting.crypto 2 [] := trivial
  apply (finds_safe_lock_iff hsurvives rfl rfl rfl rfl rfl (Sample.truthful_answersAt _ _)
    ⟨_, rfl⟩).mpr
  exact fun _ => ⟨by decide, _, _, by decide, Sample.safeLock_eth hswap (by decide)⟩

/-- The decoy comes first: the maker sees the decoy only, and aborts. -/
theorem decoy_hides_safe_lock :
    ∃ c, Run (guarded Sample.strangerSetting) ⟨World.fresh fun _ => 0, []⟩ c ∧ c.cur.frames = [] ∧
      c.cur.htlc.logs = Sample.decoyBefore.logs ∧
      ¬Sample.waitingMaker.FindsSafeLock Sample.strangerSetting.crypto
        (Sample.answersAt Sample.decoyBefore c.cur.htlc) Sample.decoyBefore c.cur.htlc ∧
      nextAction .start (Sample.waitingMaker.refresh Sample.strangerSetting.crypto
        (Sample.answersAt Sample.decoyBefore c.cur.htlc)).1.ctx =
          .abort (.unsafeCounterparty .amountMismatch) := by
  obtain ⟨c, hrun, htest⟩ := (HashedTimelock.script Sample.strangerSetting SlotVacant).exists_run
    [.newSwap 10 ⟨Sample.stranger, 1⟩ Sample.decoy,
      .newSwap 10 ⟨HashedTimelock.Sample.bob, 7⟩ HashedTimelock.Sample.ethLock]
    ⟨World.fresh fun _ => 0, []⟩
    (fun c => decide (c.cur.frames = [] ∧ c.cur.htlc.logs = Sample.decoyBefore.logs ∧
      c.cur.htlc.swaps HashedTimelock.Sample.ethContractId = Sample.ethRecord ∧
      nextAction .start (Sample.waitingMaker.refresh Sample.strangerSetting.crypto
        (Sample.answersAt Sample.decoyBefore c.cur.htlc)).1.ctx =
          .abort (.unsafeCounterparty .amountMismatch)))
    (by decide +kernel)
  obtain ⟨hclosed, hlogs, hswap, habort⟩ := of_decide_eq_true htest
  refine ⟨c, hrun, hclosed, hlogs, fun hfinds => ?_, habort⟩
  obtain ⟨-, -, hmaker, -⟩ := hfinds ⟨_, _, Sample.safeLock_eth hswap (by decide)⟩
  exact hmaker rfl rfl _ habort

end Kael.Swapkit
