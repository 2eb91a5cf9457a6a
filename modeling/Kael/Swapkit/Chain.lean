import Kael.Contracts.HashedTimelock
import Kael.Swapkit.Verify

/-!
# Reading a Lock from a Chain

`chain.rs`: what `observe_lock` makes of the answers of an RPC endpoint. The
answers are inputs; they may be wrong, old or missing.
-/

namespace Kael.Swapkit

open HashedTimelock (Swap)

inductive ChainError where
  | badUrl (e : String)
  | rpc (e : String)
  | decode (e : String)
  | amountOverflow
  | timelockOverflow
deriving DecidableEq

/-- Observation status of a lock after applying confirmation depth. -/
inductive LockObservation where
  | confirmed (lock : ObservedLock)
  | shallow
  | absent
deriving DecidableEq

def LockObservation.forGate : LockObservation → Option ObservedLock
  | .confirmed o => some o
  | .shallow => none
  | .absent => none

/-- `u64::saturating_sub`. -/
def saturatingSub (a b : U64) : U64 := if a < b then 0 else a - b

def confirmations (head block : U64) : U64 := saturatingSub head block + 1

/-! ## From records to observed locks -/

structure RawSwap where
  sender : Address
  recipient : Address
  token : Address
  amount : U128
  hashlock : Bytes32
  timelock : U64
  withdrawn : Bool
  refunded : Bool
deriving DecidableEq

/-- The record with its numbers converted; the amount is converted first. -/
def rawSwap (s : Swap) : Except ChainError RawSwap :=
  match narrow 128 s.amount with
  | none => .error .amountOverflow
  | some amount =>
    match narrow 64 s.timelock with
    | none => .error .timelockOverflow
    | some timelock =>
      .ok ⟨s.sender, s.recipient, s.token, amount, s.hashlock, timelock, s.withdrawn, s.refunded⟩

/-- `exist` is true only for an active lock. -/
def observedFromSwap (s : RawSwap) : ObservedLock :=
  let active := s.sender ≠ zeroAddress ∧ !s.withdrawn ∧ !s.refunded
  ⟨s.hashlock, s.token, s.amount, s.recipient, s.timelock, s.sender, active⟩

/-! ## Reading -/

/-- What an RPC endpoint answers while a lock is read. -/
structure LockAnswers where
  getSwap : Bytes32 → Except String Swap
  blockNumber : Except String U64
  /-- The block numbers of the `LogNewSwap` logs of an id. -/
  creationLogs : Bytes32 → Except String (List (Option U64))

/-- Block of the first `LogNewSwap` of `contractId`. -/
def LockAnswers.creationBlock (io : LockAnswers) (contractId : Bytes32) :
    Except ChainError (Option U64) :=
  match io.creationLogs contractId with
  | .error e => .error (.rpc e)
  | .ok logs => .ok logs.head?.join

def observeLock (io : LockAnswers) (contractId : Bytes32) (minConfirmations : U64) :
    Except ChainError LockObservation :=
  match io.getSwap contractId with
  | .error e => .error (.rpc e)
  | .ok swap =>
    match rawSwap swap with
    | .error e => .error e
    | .ok raw =>
      let observed := observedFromSwap raw
      if !observed.exist then .ok .absent
      else
        match io.blockNumber with
        | .error e => .error (.rpc e)
        | .ok head =>
          match io.creationBlock contractId with
          | .error e => .error e
          | .ok block =>
            let confs := (block.map (confirmations head)).getD 0
            if minConfirmations ≤ confs then .ok (.confirmed observed) else .ok .shallow

/-! ## What an observed lock says about the record -/

theorem rawSwap_ok {s : Swap} {raw : RawSwap} :
    rawSwap s = .ok raw ↔
      raw.amount.toNat = s.amount.toNat ∧ raw.timelock.toNat = s.timelock.toNat ∧
      raw.sender = s.sender ∧ raw.recipient = s.recipient ∧ raw.token = s.token ∧
      raw.hashlock = s.hashlock ∧ raw.withdrawn = s.withdrawn ∧ raw.refunded = s.refunded := by
  obtain ⟨sender, recipient, token, amount, hashlock, timelock, withdrawn, refunded⟩ := raw
  rw [← narrow_eq_some, ← narrow_eq_some]
  unfold rawSwap
  -- Both narrowings must succeed, each on its own value.
  cases narrow 128 s.amount with
  | none => simp
  | some amount' =>
    cases narrow 64 s.timelock with
    | none => simp
    | some timelock' =>
      simp only [Except.ok.injEq, RawSwap.mk.injEq, Option.some.injEq]
      constructor
      · rintro ⟨rfl, rfl, rfl, rfl, rfl, rfl, rfl, rfl⟩
        exact ⟨rfl, rfl, rfl, rfl, rfl, rfl, rfl, rfl⟩
      · rintro ⟨rfl, rfl, rfl, rfl, rfl, rfl, rfl, rfl⟩
        exact ⟨rfl, rfl, rfl, rfl, rfl, rfl, rfl, rfl⟩

/-- A lock observed as existing is the active record, number for number. -/
structure Observes (s : Swap) (lock : ObservedLock) : Prop where
  active : s.Active
  hashlock : s.hashlock = lock.hashlock
  token : s.token = lock.token
  amount : s.amount.toNat = lock.amount.toNat
  recipient : s.recipient = lock.recipient
  timelock : s.timelock.toNat = lock.timelock.toNat

theorem Observes.of_rawSwap {s : Swap} {raw : RawSwap} (h : rawSwap s = .ok raw)
    (hexist : (observedFromSwap raw).exist = true) : Observes s (observedFromSwap raw) := by
  obtain ⟨hamount, htimelock, hsender, hrecipient, htoken, hhashlock, hwithdrawn, hrefunded⟩ :=
    rawSwap_ok.mp h
  have hactive : s.Active := by
    simp only [observedFromSwap, decide_eq_true_eq, hsender, hwithdrawn, hrefunded,
      Bool.not_eq_true'] at hexist
    exact hexist
  exact ⟨hactive, hhashlock.symm, htoken.symm, hamount.symm, hrecipient.symm, htimelock.symm⟩

/-- **What a confirmed observation establishes**, if the endpoint told the
    record as it was. -/
theorem observeLock_confirmed {io : LockAnswers} {contractId : Bytes32} {minConfirmations : U64}
    {lock : ObservedLock} (h : observeLock io contractId minConfirmations = .ok (.confirmed lock)) :
    ∃ s, io.getSwap contractId = .ok s ∧ Observes s lock := by
  unfold observeLock at h
  cases hswap : io.getSwap contractId with
  | error e => simp [hswap] at h
  | ok s =>
    simp only [hswap] at h
    cases hraw : rawSwap s with
    | error e => simp [hraw] at h
    | ok raw =>
      simp only [hraw] at h
      split_ifs at h with hexist
      · cases h
      · refine ⟨s, rfl, ?_⟩
        -- Only the confirmation depth is left to decide.
        split at h
        · cases h
        · split at h
          · cases h
          · split_ifs at h with hdepth
            · cases h
              exact .of_rawSwap hraw (by simpa using hexist)
            · cases h

end Kael.Swapkit
