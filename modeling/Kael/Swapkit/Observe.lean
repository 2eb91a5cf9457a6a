import Kael.Maestro.Watcher
import Kael.Swapkit.Chain

/-!
# Observing One Chain

`observe.rs`: the tracker finds the counterparty's lock by its hashlock, and
the verifier reads the lock that was found. The poll that precedes the read and
the read itself are answered separately.
-/

namespace Kael.Swapkit

open Maestro (SwapTracker Log pollIntoTracker)

/-- What an RPC endpoint answers during a poll. -/
structure PollAnswers where
  blockNumber : Except String U64
  /-- The logs of the HTLC in a range of blocks. -/
  logs : U64 → U64 → Except String (List Log)

structure CounterpartyObserver where
  cpChainId : U64
  tracker : SwapTracker
  nextBlock : U64

def CounterpartyObserver.new (cpChainId : U64) : CounterpartyObserver := ⟨cpChainId, .new, 0⟩

namespace CounterpartyObserver

variable (cr : Crypto) (o : CounterpartyObserver)

def poll (io : PollAnswers) : Fallible ChainError CounterpartyObserver :=
  match io.blockNumber with
  | .error e => .err (.rpc e)
  | .ok head =>
    if head < o.nextBlock then .ok o
    else
      match pollIntoTracker cr o.cpChainId (io.logs o.nextBlock head) o.tracker with
      | .ok (tracker, _) => .ok { o with tracker := tracker, nextBlock := head + 1 }
      | .err e => .err (.rpc e)
      | .panicked => .panicked

/-- The id of the first leg on the observed chain with this hashlock. -/
def discoverContractId (hashlock : Bytes32) : Option Bytes32 :=
  (o.tracker.get hashlock).bind fun s =>
    (s.legs.find? fun l => l.chainId = o.cpChainId).map Maestro.Leg.contractId

/-- A failed read leaves what was polled. -/
def observe (hashlock : Bytes32) (minConfirmations : U64) (pollIo : PollAnswers)
    (lockIo : LockAnswers) : CounterpartyObserver × Fallible ChainError LockObservation :=
  match o.poll cr pollIo with
  | .err e => (o, .err e)
  | .panicked => (o, .panicked)
  | .ok o' =>
    match o'.discoverContractId hashlock with
    | none => (o', .ok .absent)
    | some cid =>
      match observeLock lockIo cid minConfirmations with
      | .ok observation => (o', .ok observation)
      | .error e => (o', .err e)

/-- Secret revealed on-chain for this hashlock. -/
def revealedSecret (hashlock : Bytes32) : Option Bytes32 := o.tracker.preimageFor hashlock

end CounterpartyObserver

/-- What is shown to the gate was confirmed at the discovered id. -/
theorem CounterpartyObserver.observe_reads {cr : Crypto} {o o' : CounterpartyObserver}
    {hashlock : Bytes32} {minConfirmations : U64} {pollIo : PollAnswers} {lockIo : LockAnswers}
    {observation : LockObservation} {lock : ObservedLock}
    (h : o.observe cr hashlock minConfirmations pollIo lockIo = (o', .ok observation))
    (hlock : observation.forGate = some lock) :
    ∃ cid, o'.discoverContractId hashlock = some cid ∧
      observeLock lockIo cid minConfirmations = .ok (.confirmed lock) := by
  -- Only a confirmed observation carries a lock.
  have hconfirmed : observation = .confirmed lock := by
    cases observation with
    | confirmed l => cases hlock; rfl
    | shallow | absent => cases hlock
  subst hconfirmed
  unfold observe at h
  cases hpoll : o.poll cr pollIo with
  | err e => simp [hpoll] at h
  | panicked => simp [hpoll] at h
  | ok o₁ =>
    simp only [hpoll] at h
    cases hcid : o₁.discoverContractId hashlock with
    | none => simp [hcid] at h
    | some cid =>
      simp only [hcid] at h
      cases hread : observeLock lockIo cid minConfirmations with
      | error e => simp [hread] at h
      | ok r =>
        simp only [hread, Prod.mk.injEq, Fallible.ok.injEq] at h
        obtain ⟨rfl, rfl⟩ := h
        exact ⟨cid, hcid, hread⟩

/-- **A confirmed lock was read at the discovered id.** -/
theorem CounterpartyObserver.observe_confirmed {cr : Crypto} {o o' : CounterpartyObserver}
    {hashlock : Bytes32} {minConfirmations : U64} {pollIo : PollAnswers} {lockIo : LockAnswers}
    {observation : LockObservation} {lock : ObservedLock}
    (h : o.observe cr hashlock minConfirmations pollIo lockIo = (o', .ok observation))
    (hlock : observation.forGate = some lock) :
    ∃ cid s, o'.discoverContractId hashlock = some cid ∧ lockIo.getSwap cid = .ok s ∧
      Observes s lock := by
  obtain ⟨cid, hcid, hread⟩ := observe_reads h hlock
  obtain ⟨s, hs, hobserves⟩ := observeLock_confirmed hread
  exact ⟨cid, s, hcid, hs, hobserves⟩

/-! ## Observing forgets nothing -/

section Extends

variable {cr : Crypto} {o o' : CounterpartyObserver} {hashlock : Bytes32}

/-- The same chain, with at least the same legs and preimages. -/
structure CounterpartyObserver.Extends (cr : Crypto) (o o' : CounterpartyObserver) : Prop where
  cpChainId : o'.cpChainId = o.cpChainId
  tracker : o.tracker.Extends cr o'.tracker

theorem CounterpartyObserver.Extends.refl (cr : Crypto) (o : CounterpartyObserver) :
    o.Extends cr o := ⟨rfl, .refl cr o.tracker⟩

theorem CounterpartyObserver.Extends.trans {o₁ o₂ o₃ : CounterpartyObserver}
    (h₁₂ : o₁.Extends cr o₂) (h₂₃ : o₂.Extends cr o₃) : o₁.Extends cr o₃ :=
  ⟨h₂₃.cpChainId.trans h₁₂.cpChainId, h₁₂.tracker.trans h₂₃.tracker⟩

theorem CounterpartyObserver.poll_extends {io : PollAnswers} (h : o.poll cr io = .ok o') :
    o.Extends cr o' := by
  unfold poll at h
  cases hhead : io.blockNumber with
  | error failure => simp [hhead] at h
  | ok head =>
    simp only [hhead] at h
    -- A head below the cursor leaves the observer as it was.
    split_ifs at h
    · cases h
      exact .refl cr o
    · cases hpoll : pollIntoTracker cr o.cpChainId (io.logs o.nextBlock head) o.tracker with
      | ok r =>
        simp only [hpoll, Fallible.ok.injEq] at h
        subst h
        exact ⟨rfl, Maestro.pollIntoTracker_extends hpoll⟩
      | err failure => simp [hpoll] at h
      | panicked => simp [hpoll] at h

/-- Polled preimages are preimages. -/
theorem CounterpartyObserver.poll_genuine {io : PollAnswers} (ho : o.tracker.Genuine cr)
    (h : o.poll cr io = .ok o') : o'.tracker.Genuine cr := by
  unfold poll at h
  cases hhead : io.blockNumber with
  | error failure => simp [hhead] at h
  | ok head =>
    simp only [hhead] at h
    split_ifs at h
    · cases h
      exact ho
    · cases hpoll : pollIntoTracker cr o.cpChainId (io.logs o.nextBlock head) o.tracker with
      | ok r =>
        simp only [hpoll, Fallible.ok.injEq] at h
        subst h
        exact Maestro.pollIntoTracker_genuine ho hpoll
      | err failure => simp [hpoll] at h
      | panicked => simp [hpoll] at h

theorem CounterpartyObserver.observe_extends {minConfirmations : U64} {pollIo : PollAnswers}
    {lockIo : LockAnswers} {result : Fallible ChainError LockObservation}
    (h : o.observe cr hashlock minConfirmations pollIo lockIo = (o', result)) :
    o.Extends cr o' := by
  unfold observe at h
  cases hpoll : o.poll cr pollIo with
  | err failure =>
    simp only [hpoll] at h
    cases h
    exact .refl cr o
  | panicked =>
    simp only [hpoll] at h
    cases h
    exact .refl cr o
  | ok o₁ =>
    have hext := poll_extends hpoll
    simp only [hpoll] at h
    -- Whatever is read, the polled observer is kept.
    split at h
    · cases h
      exact hext
    · split at h <;> (cases h; exact hext)

/-- An id is discovered as soon as the chain has a leg with the hashlock. -/
theorem CounterpartyObserver.discoverContractId_isSome :
    (o.discoverContractId hashlock).isSome ↔
      ∃ contractId, o.tracker.HasLeg o.cpChainId contractId hashlock := by
  unfold discoverContractId SwapTracker.HasLeg
  cases hget : o.tracker.get hashlock with
  | none => simp
  | some s =>
    simp only [Option.bind_some, Option.isSome_map, List.find?_isSome, decide_eq_true_eq,
      Option.some.injEq, exists_eq_left', List.any_eq_true, Maestro.Leg.is]
    constructor
    · rintro ⟨l, hl, hchain⟩
      exact ⟨l.contractId, l, hl, hchain, rfl⟩
    · rintro ⟨contractId, l, hl, hchain, -⟩
      exact ⟨l, hl, hchain⟩

theorem CounterpartyObserver.Extends.discovers (hext : o.Extends cr o')
    (h : (o.discoverContractId hashlock).isSome) : (o'.discoverContractId hashlock).isSome := by
  obtain ⟨contractId, hleg⟩ := discoverContractId_isSome.mp h
  rw [← hext.cpChainId] at hleg
  exact discoverContractId_isSome.mpr ⟨contractId, hext.tracker.hasLeg hleg⟩

end Extends

end Kael.Swapkit
