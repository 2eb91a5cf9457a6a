import Kael.Contracts.HashedTimelock
import Kael.Lib.Runs
import Kael.Maestro.Tracker

/-!
# Feeding Logs to the Tracker

`poll_into_tracker` of `watcher.rs`. The amount and the timelock of a lock are
256-bit numbers chosen by its sender and are converted with `Uint::to`, which
panics when a number does not fit; a panic ends the whole poll.
-/

namespace Kael.Maestro

open HashedTimelock (Event)

/-- A log of the HTLC's address; `none` decodes as none of the three events. -/
abbrev Log := Option Event

/-- One round of the loop: the tracker and what is added to `count`, or a panic. -/
def ingest (cr : Crypto) (chainId : U64) (t : SwapTracker) (log : Log) :
    Option (SwapTracker × Nat) :=
  match log with
  | some (.logNewSwap contractId _ _ _ amount hashlock timelock) =>
    match narrow 64 timelock, narrow 128 amount with
    | some timelock, some amount =>
      some ((t.onNewSwap chainId contractId hashlock timelock amount).1, 1)
    | _, _ => none
  | some (.logRedeem contractId preimage) =>
    some ((t.onRedeem cr chainId contractId preimage).1, 1)
  | some (.logRefund contractId) =>
    match t.hashlockOf chainId contractId with
    | some hashlock => some (t.onRefund chainId contractId hashlock, 1)
    | none => some (t, 1)
  | none => some (t, 0)

/-- The loop, with `count` events processed so far. -/
def ingestAll (cr : Crypto) (chainId : U64) :
    SwapTracker → Nat → List Log → Option (SwapTracker × Nat)
  | t, count, [] => some (t, count)
  | t, count, log :: logs =>
    match ingest cr chainId t log with
    | some (t', n) => ingestAll cr chainId t' (count + n) logs
    | none => none

/-- `get_logs` has answered `logs`. -/
def pollIntoTracker (cr : Crypto) (chainId : U64) (logs : Except String (List Log))
    (t : SwapTracker) : Fallible String (SwapTracker × Nat) :=
  match logs with
  | .error e => .err e
  | .ok logs =>
    match ingestAll cr chainId t 0 logs with
    | some r => .ok r
    | none => .panicked

/-! ## When a poll comes to its end -/

/-- The numbers of a lock fit the tracker's types. -/
def Fits (timelock amount : Uint256) : Prop :=
  timelock.toNat < 2 ^ 64 ∧ amount.toNat < 2 ^ 128

/-- The event is a lock whose numbers fit, or no lock. -/
def EventFits : Event → Prop
  | .logNewSwap _ _ _ _ amount _ timelock => Fits timelock amount
  | _ => True

instance : DecidablePred EventFits
  | .logNewSwap .. => inferInstanceAs (Decidable (_ ∧ _))
  | .logRedeem .. | .logRefund .. => isTrue trivial

section Poll

variable {cr : Crypto} {chainId : U64} {t t' : SwapTracker} {count n : Nat}

theorem ingest_isSome {e : Event} :
    (∃ t', ingest cr chainId t (some e) = some (t', 1)) ↔ EventFits e := by
  cases e with
  | logNewSwap contractId sender recipient token amount hashlock timelock =>
    have hfits : EventFits (.logNewSwap contractId sender recipient token amount hashlock timelock) ↔
        (narrow 64 timelock).isSome ∧ (narrow 128 amount).isSome :=
      and_congr narrow_isSome.symm narrow_isSome.symm
    rw [hfits]
    cases htimelock : narrow 64 timelock <;> cases hamount : narrow 128 amount <;>
      simp [ingest, htimelock, hamount]
  | logRedeem contractId preimage => simp [ingest, EventFits]
  | logRefund contractId =>
    cases hfiled : t.hashlockOf chainId contractId <;> simp [ingest, EventFits, hfiled]

/-- An event counts as one, unless it panics. -/
theorem ingest_count {e : Event} (h : ingest cr chainId t (some e) = some (t', n)) : n = 1 := by
  cases e with
  | logNewSwap contractId sender recipient token amount hashlock timelock =>
    simp only [ingest] at h
    split at h
    · cases h; rfl
    · cases h
  | logRedeem contractId preimage => cases h; rfl
  | logRefund contractId =>
    simp only [ingest] at h
    split at h <;> (cases h; rfl)

/-- The loop processes every event exactly if every lock fits. -/
theorem ingestAll_isSome {es : List Event} :
    (∃ t', ingestAll cr chainId t count (es.map some) = some (t', count + es.length)) ↔
      ∀ e ∈ es, EventFits e := by
  induction es generalizing t count with
  | nil => simp [ingestAll]
  | cons e es ih =>
    rw [List.forall_mem_cons, ← @ingest_isSome cr chainId t e]
    simp only [List.map_cons, ingestAll, List.length_cons]
    cases hingest : ingest cr chainId t (some e) with
    | none => simp
    | some r =>
      obtain ⟨t₁, n⟩ := r
      have hn := ingest_count hingest
      subst hn
      have hlength : count + (es.length + 1) = count + 1 + es.length := by omega
      simp [hlength, ih]

/-- Events that have been ingested fit. -/
theorem fits_of_ingestAll {es : List Event} {r : SwapTracker × Nat}
    (h : ingestAll cr chainId t count (es.map some) = some r) : ∀ e ∈ es, EventFits e := by
  induction es generalizing t count with
  | nil => exact fun _ he => absurd he List.not_mem_nil
  | cons e es ih =>
    simp only [List.map_cons, ingestAll] at h
    cases hingest : ingest cr chainId t (some e) with
    | none => simp [hingest] at h
    | some r₁ =>
      obtain ⟨t₁, n⟩ := r₁
      obtain rfl := ingest_count hingest
      simp only [hingest] at h
      exact List.forall_mem_cons.mpr ⟨ingest_isSome.mp ⟨t₁, hingest⟩, ih h⟩

/-- The tracker does not depend on the count. -/
theorem ingestAll_count (count' : Nat) {logs : List Log} :
    (ingestAll cr chainId t count logs).map Prod.fst =
      (ingestAll cr chainId t count' logs).map Prod.fst := by
  induction logs generalizing t count count' with
  | nil => rfl
  | cons log logs ih =>
    simp only [ingestAll]
    cases ingest cr chainId t log with
    | none => rfl
    | some r => exact ih (count' + r.2)

/-- A poll that panics on a log panics on everything that contains it. -/
theorem ingestAll_append {xs ys : List Log} :
    ingestAll cr chainId t count (xs ++ ys) =
      (ingestAll cr chainId t count xs).bind fun r => ingestAll cr chainId r.1 r.2 ys := by
  induction xs generalizing t count with
  | nil => rfl
  | cons log xs ih =>
    simp only [List.cons_append, ingestAll]
    cases ingest cr chainId t log with
    | none => rfl
    | some r => exact ih

theorem pollIntoTracker_ok {es : List Event} :
    (∃ t', pollIntoTracker cr chainId (.ok (es.map some)) t = .ok (t', es.length)) ↔
      ∀ e ∈ es, EventFits e := by
  have hall := @ingestAll_isSome cr chainId t 0 es
  rw [Nat.zero_add] at hall
  rw [← hall]
  cases hrun : ingestAll cr chainId t 0 (es.map some) <;> simp [pollIntoTracker, hrun]

/-! ## Invariants of ingesting -/

/-- What every log keeps, a poll keeps. -/
theorem ingestAll_invariant {I : SwapTracker → Prop}
    (hstep : ∀ {t t' log n}, I t → ingest cr chainId t log = some (t', n) → I t')
    {logs : List Log} (h : ingestAll cr chainId t count logs = some (t', n)) (ht : I t) : I t' := by
  induction logs generalizing t count with
  | nil => cases h; exact ht
  | cons log logs ih =>
    simp only [ingestAll] at h
    cases hingest : ingest cr chainId t log with
    | none => simp [hingest] at h
    | some r =>
      simp only [hingest] at h
      exact ih h (hstep ht hingest)

/-- A preimage is kept under its own hash only. -/
def SwapTracker.Genuine (cr : Crypto) (t : SwapTracker) : Prop :=
  ∀ k p, t.preimageFor k = some p → cr.hashlockOf p = k

theorem SwapTracker.Genuine.new : SwapTracker.new.Genuine cr := by
  intro k p hp
  cases hp

theorem ingest_genuine {log : Log} (ht : t.Genuine cr)
    (h : ingest cr chainId t log = some (t', n)) : t'.Genuine cr := by
  intro k p hp
  cases log with
  | none => cases h; exact ht k p hp
  | some e =>
    cases e with
    | logNewSwap contractId sender recipient token amount hashlock timelock =>
      simp only [ingest] at h
      split at h
      · cases h
        rw [SwapTracker.preimageFor_onNewSwap] at hp
        exact ht k p hp
      · cases h
    | logRedeem contractId preimage =>
      cases h
      cases hget : t.get (cr.hashlockOf preimage) with
      | none =>
        simp only [SwapTracker.onRedeem, hget] at hp
        exact ht k p hp
      -- The preimage is filed under the hash that was computed from it.
      | some s =>
        rw [(SwapTracker.onRedeem_redeemed chainId contractId (by simp [hget])).preimageFor] at hp
        split_ifs at hp with hk
        · cases hp
          exact hk.symm
        · exact ht k p hp
    | logRefund contractId =>
      simp only [ingest] at h
      split at h
      · cases h
        rw [SwapTracker.preimageFor_onRefund] at hp
        exact ht k p hp
      · cases h
        exact ht k p hp

theorem pollIntoTracker_genuine {logs : Except String (List Log)} (ht : t.Genuine cr)
    (h : pollIntoTracker cr chainId logs t = .ok (t', n)) : t'.Genuine cr := by
  cases logs with
  | error failure => cases h
  | ok logs =>
    simp only [pollIntoTracker] at h
    cases hrun : ingestAll cr chainId t 0 logs with
    | none => simp [hrun] at h
    | some r =>
      simp only [hrun] at h
      cases h
      exact ingestAll_invariant (I := SwapTracker.Genuine cr) ingest_genuine hrun ht

/-! ## A poll forgets nothing -/

theorem ingest_extends {log : Log} (h : ingest cr chainId t log = some (t', n)) :
    t.Extends cr t' := by
  cases log with
  | none => cases h; exact .refl cr t
  | some e =>
    cases e with
    | logNewSwap contractId sender recipient token amount hashlock timelock =>
      simp only [ingest] at h
      -- A lock whose numbers do not fit ends the poll with an error.
      split at h
      · cases h; exact SwapTracker.onNewSwap_extends
      · cases h
    | logRedeem contractId preimage => cases h; exact SwapTracker.onRedeem_extends
    | logRefund contractId =>
      simp only [ingest] at h
      -- A refund of an unknown lock is skipped.
      split at h
      · cases h; exact SwapTracker.onRefund_extends
      · cases h; exact .refl cr t

/-- A whole poll forgets nothing, by induction on the logs. -/
theorem ingestAll_extends {logs : List Log} (h : ingestAll cr chainId t count logs = some (t', n)) :
    t.Extends cr t' := by
  induction logs generalizing t count with
  | nil => cases h; exact .refl cr _
  | cons log logs ih =>
    simp only [ingestAll] at h
    cases hingest : ingest cr chainId t log with
    | none => simp [hingest] at h
    | some r =>
      simp only [hingest] at h
      exact (ingest_extends hingest).trans (ih h)

theorem pollIntoTracker_extends {logs : Except String (List Log)}
    (h : pollIntoTracker cr chainId logs t = .ok (t', n)) : t.Extends cr t' := by
  cases logs with
  | error failure => cases h
  | ok logs =>
    simp only [pollIntoTracker] at h
    cases hrun : ingestAll cr chainId t 0 logs with
    | none => simp [hrun] at h
    | some r =>
      simp only [hrun] at h
      cases h
      exact ingestAll_extends hrun

end Poll

end Kael.Maestro
