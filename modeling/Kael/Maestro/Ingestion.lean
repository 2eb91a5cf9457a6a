import Kael.Contracts.Events
import Kael.Maestro.Watcher

/-!
# Which Event Histories Can Be Ingested

The HTLC lets anybody emit a lock event with any 256-bit amount and timelock,
and the tracker reads them as 128 and 64 bits. A poll comes to its end exactly
on the histories whose locks fit; then every lock and every revealed preimage
of a tracked hashlock is known. One lock of a stranger that does not fit stops
every poll of a block range that contains it.
-/

namespace Kael.Maestro

open NestedCalls
open Exchange (Policy Call Deployment State anyone anyTime Reachable Announced lockEvent)
open HashedTimelock (Event)

/-! ## What a finished poll knows -/

section Knowledge

variable {cr : Crypto} {chainId : U64} {t t' : SwapTracker} {count n : Nat}

/-- What is known of the events `es`: where each lock is, and a preimage for
    each redeem of a hashlock that was locked before. -/
structure Sees (cr : Crypto) (chainId : U64) (es : List Event) (t : SwapTracker) : Prop where
  locks : ∀ id sender recipient token amount hashlock timelock,
    .logNewSwap id sender recipient token amount hashlock timelock ∈ es →
      t.HasLeg chainId id hashlock
  preimages : ∀ before id p after, es = before ++ .logRedeem id p :: after →
    (∃ id' sender recipient token amount timelock,
      .logNewSwap id' sender recipient token amount (cr.hashlockOf p) timelock ∈ before) →
    t.KnowsPreimage cr (cr.hashlockOf p)

/-- Splitting a poll at one of its events. -/
theorem ingestAll_split {before after : List Log} {log : Log}
    (h : ingestAll cr chainId t count (before ++ log :: after) = some (t', n)) :
    ∃ t₁ n₁ t₂ n₂, ingestAll cr chainId t count before = some (t₁, n₁) ∧
      ingest cr chainId t₁ log = some (t₂, n₂) ∧
      ingestAll cr chainId t₂ (n₁ + n₂) after = some (t', n) := by
  rw [ingestAll_append] at h
  obtain ⟨⟨t₁, n₁⟩, hbefore, hrest⟩ := Option.bind_eq_some_iff.mp h
  simp only [ingestAll] at hrest
  cases hingest : ingest cr chainId t₁ log with
  | none => simp [hingest] at hrest
  | some r =>
    obtain ⟨t₂, n₂⟩ := r
    simp only [hingest] at hrest
    exact ⟨t₁, n₁, t₂, n₂, hbefore, hingest, hrest⟩

/-- A lock in the logs is known afterwards. -/
theorem ingestAll_hasLeg {logs : List Log} {id : Bytes32} {sender recipient token : Address}
    {amount : Uint256} {hashlock : Bytes32} {timelock : Uint256}
    (h : ingestAll cr chainId t count logs = some (t', n))
    (hmem : some (.logNewSwap id sender recipient token amount hashlock timelock) ∈ logs) :
    t'.HasLeg chainId id hashlock := by
  obtain ⟨before, after, rfl⟩ := List.append_of_mem hmem
  obtain ⟨t₁, n₁, t₂, n₂, -, hlock, hafter⟩ := ingestAll_split h
  have hleg : t₂.HasLeg chainId id hashlock := by
    simp only [ingest] at hlock
    split at hlock
    · cases hlock; exact SwapTracker.onNewSwap_hasLeg
    · cases hlock
  exact (ingestAll_extends hafter).hasLeg hleg

theorem ingestAll_sees {es : List Event}
    (h : ingestAll cr chainId t count (es.map some) = some (t', n)) : Sees cr chainId es t' := by
  constructor
  · intro id sender recipient token amount hashlock timelock hmem
    exact ingestAll_hasLeg h (List.mem_map_of_mem hmem)
  · rintro before id p after rfl ⟨id', sender, recipient, token, amount, timelock, hlock⟩
    rw [List.map_append, List.map_cons] at h
    obtain ⟨t₁, n₁, t₂, n₂, hbefore, hredeem, hafter⟩ := ingestAll_split h
    -- The leg is known when the redeem is ingested, so its preimage is stored.
    have hleg : t₁.HasLeg chainId id' (cr.hashlockOf p) :=
      ingestAll_hasLeg hbefore (List.mem_map_of_mem hlock)
    have hknows : t₂.KnowsPreimage cr (cr.hashlockOf p) := by
      cases hredeem
      exact SwapTracker.onRedeem_knowsPreimage hleg
    exact (ingestAll_extends hafter).knowsPreimage hknows

end Knowledge

/-! ## Runs -/

/-- Everybody's locks have numbers that fit the tracker. -/
def fittingLocks : Policy := fun _ call =>
  match call with
  | .newSwap _ a => Fits a.timelock a.amount
  | .settleLeg _ a => Fits a.timelock a.order.sellAmount
  | _ => True

/-- Then so do all events. -/
theorem fittingLocks_events {cr : Crypto} {D : Deployment} {c : Config State}
    (h : Reachable cr D fittingLocks c) : ∀ e ∈ c.cur.htlc.logs, EventFits e := by
  obtain ⟨l, -, hrun⟩ := h
  have hinvariant : Invariant (anyTime cr D fittingLocks)
      fun s => ∀ e, s.Announced D e → EventFits e := by
    apply Exchange.announced_invariant
    intro now s x call e hpolicy hnew
    cases call with
    | newSwap value a => obtain ⟨id, rfl⟩ := hnew; exact hpolicy
    | settleLeg value a => obtain ⟨id, rfl⟩ := hnew; exact hpolicy
    | redeem id p => obtain ⟨rfl, -⟩ := hnew; trivial
    | refund id | refundLeg id => cases hnew; trivial
    | authorizeLeg | transfer | approve | transferFrom => exact hnew.elim
  have hall := (hinvariant.run hrun (.of_cur fun e he =>
    absurd he Exchange.not_announced_fresh)).1
  exact fun e he => hall e (.inl he)

/-- **When logs can be ingested.** A poll of events the HTLC has emitted
    processes and counts all of them exactly if the numbers of every lock among
    them fit, and then it has seen every lock and every preimage. So in runs in
    which all locks fit, every poll of every range of the history succeeds. -/
theorem ingests_iff_locks_fit (cr : Crypto) (D : Deployment) (chainId : U64) :
    (∀ c, Reachable cr D anyone c → ∀ es, es <:+: c.cur.htlc.logs → ∀ t,
      (∃ t', pollIntoTracker cr chainId (.ok (es.map some)) t = .ok (t', es.length) ∧
        Sees cr chainId es t') ↔ ∀ e ∈ es, EventFits e) ∧
    (∀ c, Reachable cr D fittingLocks c → ∀ es, es <:+: c.cur.htlc.logs → ∀ t,
      ∃ t', pollIntoTracker cr chainId (.ok (es.map some)) t = .ok (t', es.length) ∧
        Sees cr chainId es t') := by
  -- A batch is taken whole, or its first event that does not fit stops the poll.
  have hpoll : ∀ (es : List Event) t,
      (∃ t', pollIntoTracker cr chainId (.ok (es.map some)) t = .ok (t', es.length) ∧
        Sees cr chainId es t') ↔ ∀ e ∈ es, EventFits e := by
    intro es t
    rw [← @pollIntoTracker_ok cr chainId t es]
    constructor
    · rintro ⟨t', hok, -⟩
      exact ⟨t', hok⟩
    · rintro ⟨t', hok⟩
      refine ⟨t', hok, ?_⟩
      cases hrun : ingestAll cr chainId t 0 (es.map some) with
      | none => simp [pollIntoTracker, hrun] at hok
      | some r =>
        simp only [pollIntoTracker, hrun] at hok
        cases hok
        exact ingestAll_sees hrun
  constructor
  · intro c _ es _ t
    exact hpoll es t
  -- On Settlement's chain, the locks that are emitted must fit.
  · intro c hreach es hes t
    apply (hpoll es t).mpr
    intro e he
    exact fittingLocks_events hreach e (hes.subset he)

/-- A stranger's lock with a timelock of `2 ^ 64`: the poll that meets it
    panics, and the maker's later lock in the same range is not seen. -/
theorem far_lock_stops_poll :
    ∃ c, Reachable Exchange.Sample.crypto Exchange.Sample.deployment anyone c ∧
      c.saved = [] ∧ c.cur.htlc.logs = [lockEvent Exchange.Sample.rival Exchange.Sample.farLock
          Exchange.Sample.farId,
        lockEvent Exchange.Sample.maker Exchange.Sample.ethLock Exchange.Sample.ethLockId] ∧
      pollIntoTracker Exchange.Sample.crypto 31337 (.ok (c.cur.htlc.logs.map some))
        SwapTracker.new = .panicked := by
  -- A lock that does not fit, before one that does.
  obtain ⟨c, hrun, htest⟩ := (Exchange.script Exchange.Sample.crypto
      Exchange.Sample.deployment).exists_run
    [.tx 10 Exchange.Sample.rival (.newSwap 7 Exchange.Sample.farLock),
      .tx 11 Exchange.Sample.maker (.newSwap 5 Exchange.Sample.ethLock)]
    ⟨State.fresh Exchange.Sample.ledger, []⟩
    (fun c => c.saved.isEmpty && decide (c.cur.htlc.logs =
      [lockEvent Exchange.Sample.rival Exchange.Sample.farLock Exchange.Sample.farId,
        lockEvent Exchange.Sample.maker Exchange.Sample.ethLock Exchange.Sample.ethLockId]))
    (by decide +kernel)
  obtain ⟨hsaved, hlogs⟩ := Bool.and_eq_true_iff.mp htest
  have hlogs := of_decide_eq_true hlogs
  refine ⟨c, ⟨_, Exchange.Sample.genesis, hrun⟩, List.isEmpty_iff.mp hsaved, hlogs, ?_⟩
  rw [hlogs]
  decide +kernel

end Kael.Maestro
