import Kael.Contracts.LogHistory
import Kael.Lib.Runs
import Kael.Maestro.Ingestion
import Kael.Swapkit.Observe

/-!
# Observing a Chain Whose Head Moves

The observer polls from its cursor to the head and then moves the cursor past
the head; it never moves back. When the chain rolls back and grows again, the
blocks below the cursor are different blocks, and nobody reads them.

What has been fed to the tracker is a function of the polled chains alone
(`Horizon`): the logs of the blocks that were above all earlier heads. So every
poll is complete exactly if the chains have no other logs below the heads
already polled.
-/

namespace Kael.Swapkit

open HashedTimelock (Event History)
open Maestro (SwapTracker ingestAll ingestAll_append ingestAll_count ingestAll_sees
  pollIntoTracker pollIntoTracker_ok EventFits)
open Runs (Every stateAfter)

/-! ## Polls of a chain -/

/-- The canonical chain at a poll and what its endpoint fails to answer. -/
structure PolledChain where
  /-- The HTLC's events in the blocks up to the head. -/
  blocks : List (List Event)
  numberError : Option String
  logsError : Option String
  /-- There is a genesis block. -/
  nonempty : 0 < blocks.length
  /-- The next block has a number, too. -/
  fits : blocks.length < 2 ^ 64

namespace PolledChain

variable (p : PolledChain)

def head : U64 := BitVec.ofNat 64 (p.blocks.length - 1)

def logs : List Event := p.blocks.flatten

/-- The logs of the blocks with these numbers. -/
def range (fromBlock toBlock : U64) : List Event :=
  ((p.blocks.take (toBlock.toNat + 1)).drop fromBlock.toNat).flatten

def answers : PollAnswers where
  blockNumber := p.numberError.elim (.ok p.head) .error
  logs fromBlock toBlock :=
    p.logsError.elim (.ok ((p.range fromBlock toBlock).map some)) .error

theorem head_toNat : p.head.toNat + 1 = p.blocks.length := by
  have hpos := p.nonempty
  have hfits := p.fits
  rw [head, BitVec.toNat_ofNat, Nat.mod_eq_of_lt (by omega)]
  omega

/-- A poll up to the head reads everything from its cursor on. -/
theorem range_head (fromBlock : U64) :
    p.range fromBlock p.head = (p.blocks.drop fromBlock.toNat).flatten := by
  rw [range, head_toNat, List.take_length]

theorem next_toNat : (p.head + 1).toNat = p.blocks.length := by
  have hhead := p.head_toNat
  have hfits := p.fits
  have hone : (1 : U64).toNat = 1 := rfl
  rw [BitVec.toNat_add, hone, Nat.mod_eq_of_lt (by omega), hhead]

end PolledChain

/-- The observer, and the logs that it has fed to its tracker. -/
structure Watch where
  observer : CounterpartyObserver
  fed : List Event

/-- A poll that fails changes nothing; a panic would end the run. -/
def Watch.next (cr : Crypto) (w : Watch) (p : PolledChain) : Watch :=
  match w.observer.poll cr p.answers with
  | .ok o => ⟨o, w.fed ++ p.range w.observer.nextBlock p.head⟩
  | .err _ => w
  | .panicked => w

/-- A new observer after the polls. -/
def watch (cr : Crypto) (cpChainId : U64) (polls : List PolledChain) : Watch :=
  stateAfter (Watch.next cr) ⟨.new cpChainId, []⟩ polls

/-- No poll panics. -/
def Survives (cr : Crypto) (cpChainId : U64) (polls : List PolledChain) : Prop :=
  Every (Watch.next cr) (fun w p => w.observer.poll cr p.answers ≠ .panicked)
    ⟨.new cpChainId, []⟩ polls

/-! ## What the chains alone decide -/

/-- The number of blocks polled and the logs found in them. -/
structure Horizon where
  reached : Nat
  events : List Event

/-- Blocks above the horizon are read, and no others. -/
def Horizon.next (h : Horizon) (p : PolledChain) : Horizon :=
  if p.numberError = none ∧ p.logsError = none then
    ⟨max h.reached p.blocks.length, h.events ++ (p.blocks.drop h.reached).flatten⟩
  else h

def horizon (polls : List PolledChain) : Horizon := stateAfter Horizon.next ⟨0, []⟩ polls

/-- The observer knows what the horizon has. -/
structure Follows (cr : Crypto) (cpChainId : U64) (w : Watch) (h : Horizon) : Prop where
  chain : w.observer.cpChainId = cpChainId
  cursor : w.observer.nextBlock.toNat = h.reached
  fed : w.fed = h.events
  tracker : (ingestAll cr cpChainId .new 0 (w.fed.map some)).map Prod.fst =
    some w.observer.tracker

section Polls

variable {cr : Crypto} {cpChainId : U64} {o o' : CounterpartyObserver} {w : Watch} {h : Horizon}
  {p : PolledChain}

/-- The poll reaches no block above the cursor, or gets what it asks for. -/
def PolledChain.Succeeds (p : PolledChain) (cursor : Nat) : Prop :=
  p.numberError = none ∧ (p.blocks.length ≤ cursor ∨ p.logsError = none)

/-- What a poll does, if it does not panic. -/
inductive PollCase (cr : Crypto) (o : CounterpartyObserver) (p : PolledChain) :
    Fallible ChainError CounterpartyObserver → Prop where
  /-- The head is below the cursor. -/
  | behind (hnumber : p.numberError = none) (hcursor : p.blocks.length ≤ o.nextBlock.toNat) :
      PollCase cr o p (.ok o)
  /-- The blocks from the cursor on are ingested. -/
  | scanned (hnumber : p.numberError = none) (hlogs : p.logsError = none)
      (hcursor : o.nextBlock.toNat < p.blocks.length) (t : SwapTracker) (n : Nat)
      (hingest : ingestAll cr o.cpChainId o.tracker 0
        ((p.blocks.drop o.nextBlock.toNat).flatten.map some) = some (t, n)) :
      PollCase cr o p (.ok { o with tracker := t, nextBlock := p.head + 1 })
  | failed (e : ChainError) (herror : ¬p.Succeeds o.nextBlock.toNat) : PollCase cr o p (.err e)

theorem poll_cases (hsurvives : o.poll cr p.answers ≠ .panicked) :
    PollCase cr o p (o.poll cr p.answers) := by
  have hhead := p.head_toNat
  unfold CounterpartyObserver.poll at hsurvives ⊢
  cases hnumber : p.numberError with
  -- The head is asked for first: no logs are fetched where that fails.
  | some e =>
    simp only [PolledChain.answers, hnumber, Option.elim_some]
    exact .failed _ fun hs => by simp [hs.1] at hnumber
  | none =>
    simp only [PolledChain.answers, hnumber, Option.elim_none] at hsurvives ⊢
    split_ifs at hsurvives ⊢ with hbehind
    -- A head below the cursor is an answered poll that moves nothing.
    · have hlt : p.head.toNat < o.nextBlock.toNat := hbehind
      exact .behind hnumber (by omega)
    · have hle : o.nextBlock.toNat ≤ p.head.toNat := BitVec.not_lt.mp hbehind
      cases hlogs : p.logsError with
      | some e =>
        simp only [Option.elim_some, pollIntoTracker]
        refine .failed _ fun hs => ?_
        rcases hs.2 with hlength | hnone
        · omega
        · simp [hnone] at hlogs
      | none =>
        simp only [hlogs, Option.elim_none, pollIntoTracker, PolledChain.range_head]
          at hsurvives ⊢
        cases hingest : ingestAll cr o.cpChainId o.tracker 0
            ((p.blocks.drop o.nextBlock.toNat).flatten.map some) with
        -- Only a counter of the ingestion at its limit panics, and this poll has survived.
        | none =>
          simp only [hingest] at hsurvives
          exact absurd rfl hsurvives
        | some r => exact .scanned hnumber hlogs (by omega) r.1 r.2 hingest

/-- A poll that does not panic succeeds exactly if it is answered. -/
theorem poll_ok_iff (hsurvives : o.poll cr p.answers ≠ .panicked) :
    (∃ o', o.poll cr p.answers = .ok o') ↔ p.Succeeds o.nextBlock.toNat := by
  have hcase := poll_cases hsurvives
  generalize o.poll cr p.answers = result at hcase
  cases hcase with
  | behind hnumber hcursor => exact ⟨fun _ => ⟨hnumber, .inl hcursor⟩, fun _ => ⟨_, rfl⟩⟩
  | scanned hnumber hlogs => exact ⟨fun _ => ⟨hnumber, .inr hlogs⟩, fun _ => ⟨_, rfl⟩⟩
  | failed e herror => exact ⟨nofun, fun hs => absurd hs herror⟩

/-- A poll panics on locks with large numbers only, above its cursor. -/
theorem poll_ne_panicked_above
    (hfits : ∀ e ∈ (p.blocks.drop o.nextBlock.toNat).flatten, EventFits e) :
    o.poll cr p.answers ≠ .panicked := by
  unfold CounterpartyObserver.poll
  cases hnumber : p.numberError with
  | some e => simp [PolledChain.answers, hnumber]
  | none =>
    simp only [PolledChain.answers, hnumber, Option.elim_none]
    -- A head below the cursor ingests nothing.
    split_ifs with hbehind
    · simp
    · cases hlogs : p.logsError with
      | some e => simp [pollIntoTracker]
      | none =>
        rw [← PolledChain.range_head] at hfits
        obtain ⟨t, ht⟩ := (@pollIntoTracker_ok cr o.cpChainId o.tracker _).mpr hfits
        rw [Option.elim_none, ht]
        simp

theorem poll_ne_panicked (hfits : ∀ e ∈ p.logs, EventFits e) :
    o.poll cr p.answers ≠ .panicked :=
  poll_ne_panicked_above fun e he => hfits e ((List.drop_sublist _ _).flatten.subset he)

/-- **Step rule.** -/
theorem Follows.next (hw : Follows cr cpChainId w h)
    (hsurvives : w.observer.poll cr p.answers ≠ .panicked) :
    Follows cr cpChainId (w.next cr p) (h.next p) := by
  have hcase := poll_cases hsurvives
  unfold Watch.next Horizon.next
  rw [← hw.cursor, ← hw.fed]
  generalize w.observer.poll cr p.answers = result at hcase
  cases hcase with
  | behind hnumber hcursor =>
    -- There is nothing to read above the cursor.
    have hnone : p.blocks.drop w.observer.nextBlock.toNat = [] := List.drop_eq_nil_of_le hcursor
    simp only [PolledChain.range_head, hnone, List.flatten_nil, List.append_nil,
      max_eq_left hcursor]
    have hkeep : Follows cr cpChainId ⟨w.observer, w.fed⟩ ⟨w.observer.nextBlock.toNat, w.fed⟩ :=
      ⟨hw.chain, rfl, rfl, hw.tracker⟩
    split_ifs
    · exact hkeep
    · rw [hw.cursor, hw.fed] at hkeep
      exact ⟨hw.chain, hw.cursor, hw.fed, hw.tracker⟩
  | scanned hnumber hlogs hcursor t n hingest =>
    simp only [hnumber, hlogs, and_self, if_true, PolledChain.range_head]
    refine ⟨hw.chain, ?_, rfl, ?_⟩
    · rw [PolledChain.next_toNat, max_eq_right hcursor.le]
    · obtain ⟨⟨t₀, m⟩, hm, rfl⟩ := Option.map_eq_some_iff.mp hw.tracker
      rw [List.map_append, ingestAll_append, hm, Option.bind_some, ingestAll_count 0,
        ← hw.chain, hingest]
      rfl
  | failed e herror =>
    rw [if_neg fun hs => herror ⟨hs.1, .inr hs.2⟩]
    exact ⟨hw.chain, hw.cursor, hw.fed, hw.tracker⟩

end Polls

/-! ## Whole runs -/

/-- After every successful poll all logs of the polled chain have been fed, and
    the preimage of each of its redeems is known. -/
def ObservesAll (cr : Crypto) (cpChainId : U64) (polls : List PolledChain) : Prop :=
  ∀ before p after, polls = before ++ p :: after →
    ∀ o, (watch cr cpChainId before).observer.poll cr p.answers = .ok o →
      (∀ e ∈ p.logs, e ∈ (watch cr cpChainId (before ++ [p])).fed) ∧
      ∀ id q, .logRedeem id q ∈ p.logs →
        ∃ q', o.revealedSecret (cr.hashlockOf q) = some q' ∧ cr.hashlockOf q' = cr.hashlockOf q

/-- At every successful poll, the logs of the blocks up to the highest head
    polled before have been found in blocks above the heads polled until then. -/
def NothingNewBelow (polls : List PolledChain) : Prop :=
  ∀ before p after, polls = before ++ p :: after → p.Succeeds (horizon before).reached →
    ∀ e ∈ (p.blocks.take (horizon before).reached).flatten, e ∈ (horizon (before ++ [p])).events

section Runs

variable {cr : Crypto} {cpChainId : U64} {polls before after : List PolledChain} {p : PolledChain}

theorem horizon_append : horizon (before ++ [p]) = (horizon before).next p :=
  List.foldl_append

theorem watch_append :
    watch cr cpChainId (before ++ [p]) = (watch cr cpChainId before).next cr p :=
  List.foldl_append

theorem Survives.follows (h : Survives cr cpChainId polls) :
    Follows cr cpChainId (watch cr cpChainId polls) (horizon polls) :=
  Runs.stateAfter_simulates (fun _ _ _ hw hsurvives => hw.next hsurvives)
    ⟨rfl, rfl, rfl, rfl⟩ h

theorem survives_of_fits (hfits : ∀ p ∈ polls, ∀ e ∈ p.logs, EventFits e) :
    Survives cr cpChainId polls :=
  Every.of_forall fun _ p hp => poll_ne_panicked (hfits p hp)

theorem Survives.split (h : Survives cr cpChainId (before ++ p :: after)) :
    Survives cr cpChainId before ∧
      (watch cr cpChainId before).observer.poll cr p.answers ≠ .panicked :=
  ⟨h.of_append, h.at_prefix⟩

/-- What a successful poll adds to the horizon are the blocks above it. -/
theorem horizon_events (hsucceeds : p.Succeeds (horizon before).reached) :
    (horizon (before ++ [p])).events =
      (horizon before).events ++ (p.blocks.drop (horizon before).reached).flatten := by
  rw [horizon_append, Horizon.next]
  split_ifs with hanswered
  · rfl
  · have hlength : p.blocks.length ≤ (horizon before).reached :=
      hsucceeds.2.resolve_right fun hlogs => hanswered ⟨hsucceeds.1, hlogs⟩
    rw [List.drop_eq_nil_of_le hlength, List.flatten_nil, List.append_nil]

theorem NothingNewBelow.of_append {rest : List PolledChain}
    (h : NothingNewBelow (polls ++ rest)) : NothingNewBelow polls := by
  rintro before p after rfl
  exact h before p (after ++ rest) (List.append_assoc ..)

/-- A redeem that was fed was fed after a lock with its hashlock, by induction on
    the polls. -/
theorem redeem_after_lock (hhistory : ∀ p ∈ polls, History cr p.logs)
    (hnothing : NothingNewBelow polls) {id q : Bytes32}
    (h : .logRedeem id q ∈ (horizon polls).events) :
    ∃ xs ys, (horizon polls).events = xs ++ .logRedeem id q :: ys ∧
      ∃ id' sender recipient token amount timelock,
        .logNewSwap id' sender recipient token amount (cr.hashlockOf q) timelock ∈ xs := by
  induction polls using List.reverseRecOn with
  | nil => exact absurd h List.not_mem_nil
  | append_singleton before p ih =>
    have hbefore := ih (fun p hp => hhistory p (List.mem_append_left _ hp)) hnothing.of_append
    have hchain := hhistory p (List.mem_append_right _ (List.mem_singleton.mpr rfl))
    by_cases hanswered : p.numberError = none ∧ p.logsError = none
    · have hsucceeds : p.Succeeds (horizon before).reached := ⟨hanswered.1, .inr hanswered.2⟩
      have hnew := hnothing before p [] rfl hsucceeds
      rw [horizon_events hsucceeds] at h hnew ⊢
      rcases List.mem_append.mp h with hold | habove
      · obtain ⟨xs, ys, hsplit, hlock⟩ := hbefore hold
        exact ⟨xs, ys ++ (p.blocks.drop (horizon before).reached).flatten,
          by rw [hsplit, List.append_assoc, List.cons_append], hlock⟩
      · -- The lock stands before the redeem in the same chain.
        obtain ⟨us, vs, hdrop⟩ := List.append_of_mem habove
        have hlogs : p.logs = ((p.blocks.take (horizon before).reached).flatten ++ us) ++
            .logRedeem id q :: vs := by
          rw [PolledChain.logs, List.append_assoc, ← hdrop, ← List.flatten_append,
            List.take_append_drop]
        rw [hlogs] at hchain
        obtain ⟨sender, recipient, token, amount, timelock, hlock⟩ := hchain.lock_of_redeem
        refine ⟨(horizon before).events ++ us, vs, by rw [hdrop, List.append_assoc],
          id, sender, recipient, token, amount, timelock, ?_⟩
        rcases List.mem_append.mp hlock with hbelow | hus
        · rw [List.append_assoc] at hchain
          have hnot := hchain.lock_once hbelow
          rcases List.mem_append.mp (hnew _ hbelow) with hfed | habove'
          · exact List.mem_append_left _ hfed
          · rw [hdrop] at habove'
            exact absurd habove' hnot
        · exact List.mem_append_right _ hus
    · rw [horizon_append, Horizon.next, if_neg hanswered] at h ⊢
      exact hbefore h

/-- **When observation is complete.** In every run of polls, successful or
    failed, of chains whose heads move in any way, every successful poll has
    seen the whole canonical chain exactly if no chain has new logs at or below
    a head that was polled before. -/
theorem observes_all_iff (hsurvives : Survives cr cpChainId polls)
    (hhistory : ∀ p ∈ polls, History cr p.logs) :
    ObservesAll cr cpChainId polls ↔ NothingNewBelow polls := by
  constructor
  -- An observer that sees everything has been fed the events below its cursor too.
  · rintro hall before p after rfl hsucceeds e he
    obtain ⟨hbefore, hpoll⟩ := hsurvives.split
    have hfollows := hbefore.follows
    rw [← hfollows.cursor] at hsucceeds
    obtain ⟨o, ho⟩ := (poll_ok_iff hpoll).mpr hsucceeds
    have hfed := (hall before p after rfl o ho).1 e <| by
      rw [PolledChain.logs, ← List.take_append_drop (horizon before).reached p.blocks,
        List.flatten_append]
      exact List.mem_append_left _ he
    rwa [watch_append, (hfollows.next hpoll).fed, ← horizon_append] at hfed
  -- Conversely the cursor only skips events that were there when it passed them.
  · rintro hnothing before p after rfl o ho
    obtain ⟨hbefore, hpoll⟩ := hsurvives.split
    have hfollows := hbefore.follows
    have hsucceeds := (poll_ok_iff hpoll).mp ⟨o, ho⟩
    rw [hfollows.cursor] at hsucceeds
    -- The events of the poll are the fed ones and the blocks that it has just scanned.
    have hevents := horizon_events hsucceeds
    have hnext := hfollows.next hpoll
    rw [← watch_append, ← horizon_append] at hnext
    have hfed : ∀ e ∈ p.logs, e ∈ (horizon (before ++ [p])).events := by
      intro e he
      rw [PolledChain.logs, ← List.take_append_drop (horizon before).reached p.blocks,
        List.flatten_append] at he
      rcases List.mem_append.mp he with hbelow | habove
      · exact hnothing before p after rfl hsucceeds e hbelow
      · rw [hevents]
        exact List.mem_append_right _ habove
    refine ⟨fun e he => hnext.fed ▸ hfed e he, fun id q hredeem => ?_⟩
    have hprefix : NothingNewBelow (before ++ [p]) := by
      rw [List.append_cons] at hnothing
      exact hnothing.of_append
    -- The redeem of an id comes after its lock in the canonical chain.
    obtain ⟨xs, ys, hsplit, hlock⟩ := redeem_after_lock
      (fun p' hp' => hhistory p' (by simp at hp' ⊢; tauto)) hprefix (hfed _ hredeem)
    obtain ⟨⟨t, n⟩, hingest, ht⟩ := Option.map_eq_some_iff.mp hnext.tracker
    obtain ⟨q', hq', hhash⟩ := (ingestAll_sees hingest).preimages xs id q ys
      (hnext.fed.trans hsplit) hlock
    have ho' : (watch cr cpChainId (before ++ [p])).observer = o := by
      rw [watch_append, Watch.next, ho]
    rw [show t = _ from ht, ho'] at hq'
    exact ⟨q', hq', hhash⟩

end Runs

namespace Sample

open HashedTimelock.Sample (bob ethLock ethContractId preimage setting)

def locked : Event := .logNewSwap ethContractId bob ethLock.recipient ethLock.token
  ethLock.amount ethLock.hashlock ethLock.timelock

def redeemed : Event := .logRedeem ethContractId preimage

/-- A lock, polled with one empty block above it. -/
def polledLock : PolledChain := ⟨[[], [locked], []], none, none, by decide, by decide⟩

/-- The chain rolls back over the empty block. -/
def rolledBack : PolledChain := ⟨[[], [locked]], none, none, by decide, by decide⟩

/-- Only then the redeem is mined: in the place of the empty block, -/
def reminedRedeem : PolledChain := ⟨[[], [locked], [redeemed]], none, none, by decide, by decide⟩

/-- or above it. -/
def laterRedeem : PolledChain := ⟨[[], [locked], [], [redeemed]], none, none, by decide, by decide⟩

theorem history_locked : HashedTimelock.History setting.crypto [locked] := by
  obtain ⟨c, hrun, htest⟩ := (HashedTimelock.script setting HashedTimelock.SlotVacant).exists_run
    [.newSwap 10 ⟨bob, 7⟩ ethLock] ⟨HashedTimelock.World.fresh fun _ => 0, []⟩
    (fun c => decide (c.cur.frames = [] ∧ c.cur.htlc.logs = [locked])) (by decide +kernel)
  obtain ⟨hclosed, hlogs⟩ := of_decide_eq_true htest
  exact ⟨setting, fun _ => 0, c, rfl, hrun, hclosed, hlogs⟩

theorem history_redeemed : HashedTimelock.History setting.crypto [locked, redeemed] := by
  obtain ⟨c, hrun, htest⟩ := (HashedTimelock.script setting HashedTimelock.SlotVacant).exists_run
    [.newSwap 10 ⟨bob, 7⟩ ethLock, .redeem 10 ethContractId preimage, .finish]
    ⟨HashedTimelock.World.fresh fun _ => 0, []⟩
    (fun c => decide (c.cur.frames = [] ∧ c.cur.htlc.logs = [locked, redeemed]))
    (by decide +kernel)
  obtain ⟨hclosed, hlogs⟩ := of_decide_eq_true htest
  exact ⟨setting, fun _ => 0, c, rfl, hrun, hclosed, hlogs⟩

end Sample

/-- The redeem is mined above all blocks polled before: the rollback is harmless. -/
theorem observes_all_after_rollback :
    ObservesAll HashedTimelock.Sample.setting.crypto 1
      [Sample.polledLock, Sample.rolledBack, Sample.laterRedeem] := by
  apply (observes_all_iff (survives_of_fits (by decide)) ?_).mpr
  -- One case for each poll of the run: the history is the one of the poll's own chain.
  · intro before p after hsplit
    rcases before with _ | ⟨first, _ | ⟨second, _ | ⟨third, rest⟩⟩⟩
    · cases hsplit
      exact fun _ => by decide
    · cases hsplit
      exact fun _ => by decide
    · cases hsplit
      exact fun _ => by decide
    · simp at hsplit
  · intro p hp
    simp only [List.mem_cons, List.not_mem_nil, or_false] at hp
    obtain rfl | rfl | rfl := hp
    · exact Sample.history_locked
    · exact Sample.history_locked
    · exact Sample.history_redeemed

/-- The redeem is mined at a height that was polled before: the poll succeeds, but
    the redeem is not fed and its preimage is not known. -/
theorem remined_redeem_missed :
    Survives HashedTimelock.Sample.setting.crypto 1 [Sample.polledLock, Sample.reminedRedeem] ∧
      (∀ p ∈ [Sample.polledLock, Sample.reminedRedeem],
        History HashedTimelock.Sample.setting.crypto p.logs) ∧
      ¬ObservesAll HashedTimelock.Sample.setting.crypto 1
        [Sample.polledLock, Sample.reminedRedeem] ∧
      (watch HashedTimelock.Sample.setting.crypto 1
        [Sample.polledLock, Sample.reminedRedeem]).observer.revealedSecret
          HashedTimelock.Sample.hashlock = none := by
  have hsurvives : Survives HashedTimelock.Sample.setting.crypto 1
      [Sample.polledLock, Sample.reminedRedeem] := survives_of_fits (by decide)
  refine ⟨hsurvives, ?_, fun hall => ?_, by decide +kernel⟩
  · intro p hp
    simp only [List.mem_cons, List.not_mem_nil, or_false] at hp
    obtain rfl | rfl := hp
    · exact Sample.history_locked
    · exact Sample.history_redeemed
  -- The redeem came into a block below the cursor, so no poll has fed it.
  · have hsplit : Survives HashedTimelock.Sample.setting.crypto 1
        ([Sample.polledLock] ++ Sample.reminedRedeem :: []) := hsurvives
    obtain ⟨hbefore, hpoll⟩ := hsplit.split
    obtain ⟨o, ho⟩ := (poll_ok_iff hpoll).mpr ⟨rfl, .inr rfl⟩
    have hfed := (hall [Sample.polledLock] Sample.reminedRedeem [] rfl o ho).1 Sample.redeemed
      (by decide)
    rw [List.singleton_append, hsurvives.follows.fed] at hfed
    revert hfed
    decide

end Kael.Swapkit
