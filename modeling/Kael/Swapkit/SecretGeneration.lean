import Kael.Swapkit.Progress

/-!
# Generating the Secret

A taker in `Start` is asked to generate its secret. But a step observes before
it asks, and observing needs the hashlock, which only a generated secret would
give. So the generating branch is never taken: a taker that starts with its
secret keeps it, and one that starts without fails at every step.
-/

namespace Kael.Swapkit

open Runs (Every)

/-- The hashlock that a call locks under. -/
def lockedHashlock : Exchange.Call → Option Bytes32
  | .newSwap _ a => some a.hashlock
  | .settleLeg _ a => some a.hashlock
  | _ => none

namespace Executor

/-! ## Takers and their secrets -/

/-- A taker in `Start`, with a hashlock if and only if it has the secret. -/
structure StartsTaker (cr : Crypto) (e : Executor) : Prop where
  role : e.ctx.role = .taker
  state : e.state = .start
  hashlock : e.ctx.hashlock = e.ctx.secret.map cr.hashlockOf

/-- No observation of the step fails. -/
def Answered (cr : Crypto) (e : Executor) (io : StepAnswers) : Prop :=
  (∀ failure, (e.step cr io).result ≠ .err (.chain failure)) ∧ (e.step cr io).result ≠ .panicked

/-- The taker has this secret, and the hashlock belongs to it. -/
structure Holds (cr : Crypto) (secret : Bytes32) (e : Executor) : Prop where
  role : e.ctx.role = .taker
  hashlock : e.ctx.hashlock = some (cr.hashlockOf secret)
  secret : e.ctx.secret = some secret

/-- The run generates first, never misses the hashlock, and from its first step
    on holds one secret, under whose hash everything is locked. -/
structure StaysBound (cr : Crypto) (e : Executor) (ios : List StepAnswers) : Prop where
  hashlock : ∀ s ∈ e.steps cr ios, s.result ≠ .err .missingHashlock
  generates : ∀ s ∈ (e.steps cr ios).head?, s.result = .ok .generatedSecret
  holds : ∃ secret, ∀ done later, ios = done ++ later → done ≠ [] →
    (e.after cr done).Holds cr secret
  locks : ∀ s ∈ e.steps cr ios, ∀ sending, s.tx = some (.lock sending) →
    ∀ call ∈ sending.sent, ∀ hashlock, lockedHashlock call = some hashlock →
      ∃ secret, s.exec.Holds cr secret ∧ hashlock = cr.hashlockOf secret

section Steps

variable {cr : Crypto} {e e' : Executor} {secret : Bytes32} {io : StepAnswers}

theorem Holds.of_base (h : e.Holds cr secret) (hbase : e'.base = e.base) :
    e'.Holds cr secret := by
  have hterms : e'.ctx.terms = e.ctx.terms := congrArg Executor.ctx hbase
  refine ⟨?_, ?_, ?_⟩
  · exact (congrArg SwapContext.role hterms).trans h.role
  · exact (congrArg SwapContext.hashlock hterms).trans h.hashlock
  · exact (congrArg SwapContext.secret hterms).trans h.secret

/-- **A secret is kept**, so none is generated over it. -/
theorem Holds.step (h : e.Holds cr secret) (io : StepAnswers) :
    (e.step cr io).exec.Holds cr secret := by
  obtain hbase | ⟨hnone, -⟩ := step_base cr e io
  · exact h.of_base hbase
  · rw [h.secret] at hnone
    cases hnone

theorem answered_of_result {result : Fallible ExecutorError StepOutcome}
    (h : (e.step cr io).result = result) (hchain : ∀ failure, result ≠ .err (.chain failure))
    (hpanicked : result ≠ .panicked) : e.Answered cr io := by
  subst h
  exact ⟨hchain, hpanicked⟩

/-- Only an observation misses the hashlock. -/
theorem missingHashlock_step (h : (e.step cr io).result = .err .missingHashlock) :
    e.ctx.hashlock = none := by
  have hcases := step_cases cr e io
  generalize e.step cr io = s at hcases h
  cases hcases with
  | @idle e' result hrefreshed hidle =>
    have hresult : result = .err .missingHashlock := h
    subst hresult
    obtain ⟨chain, hchain⟩ | ⟨-, hnone⟩ := hidle
    · cases hchain
    · exact hnone
  | generate hfirst hplanned => cases h
  | abort hfirst hplanned => cases h
  | lock hfirst hplanned hsecond hcurrent =>
    -- A failure to lock is one of the transaction.
    unfold lockMyLeg at h
    dsimp only at h
    split_ifs at h
    split at h <;> cases h
  | redeem hfirst hplanned hsecond hcurrent =>
    unfold redeemCounterpartyLeg at h
    split at h
    · cases h
    · dsimp only at h
      split at h <;> cases h
  | refund hfirst hplanned =>
    unfold refund at h
    split_ifs at h
    split at h
    · cases h
    · dsimp only at h
      split at h <;> cases h

/-- Without a hashlock nothing is observed and nothing is generated. -/
theorem step_without_hashlock (h : e.ctx.hashlock = none) :
    (e.step cr io).result = .err .missingHashlock ∧ (e.step cr io).exec.ctx.hashlock = none := by
  simp [Executor.step, refresh, h]

/-- In `Start` an answered step of a taker with a hashlock is asked to generate. -/
theorem StartsTaker.generates (h : e.StartsTaker cr) (hhashlock : e.ctx.hashlock.isSome)
    (hanswered : e.Answered cr io) : (e.step cr io).result = .ok .generatedSecret := by
  obtain ⟨hchain, hpanicked⟩ := hanswered
  unfold step at hchain hpanicked ⊢
  cases hfirst : e.refresh cr io.first with
  | mk e₁ result =>
    have hrefreshed := refreshed_of_refresh hfirst
    rw [hfirst] at hchain hpanicked
    cases result with
    -- With a hashlock the refresh fails only where the chain does, which the premise rules out.
    | err failure =>
      obtain ⟨chain, rfl⟩ | ⟨-, hnone⟩ := error_of_refresh hfirst
      · exact absurd rfl (hchain chain)
      · rw [hnone] at hhashlock
        cases hhashlock
    | panicked => exact absurd rfl hpanicked
    | ok u =>
      have hplanned : nextAction e₁.state e₁.ctx = .generateSecret :=
        nextAction_generateSecret.mpr ⟨hrefreshed.role.trans h.role, hrefreshed.state.trans h.state⟩
      dsimp only
      unfold act
      rw [hplanned]
      rfl

/-- A lock is sent under the hash of the secret. -/
theorem Holds.locks (h : e.Holds cr secret) {sending : Sending Locked}
    (htx : (e.step cr io).tx = some (.lock sending)) {call : Exchange.Call}
    (hcall : call ∈ sending.sent) {hashlock : Bytes32}
    (hlocked : lockedHashlock call = some hashlock) : hashlock = cr.hashlockOf secret := by
  have hcases := step_cases cr e io
  generalize e.step cr io = s at hcases htx
  cases hcases with
  | idle hrefreshed hidle => cases htx
  | generate hfirst hplanned => cases htx
  | abort hfirst hplanned => cases htx
  | redeem hfirst hplanned hsecond hcurrent =>
    obtain ⟨contractId, -, hredeem⟩ := redeemCounterpartyLeg_tx htx
    cases hredeem
  | refund hfirst hplanned =>
    obtain ⟨contractId, -, hrefund⟩ := refund_tx htx
    cases hrefund
  | @lock e₁ e₂ recipient token amount planned timelock hfirst hplanned hsecond hcurrent =>
    have hrefreshed := (refreshed_of_refresh hfirst).trans (refreshed_of_refresh hsecond)
    cases lockMyLeg_tx htx
    -- What is sent has the planned hashlock, which is the one of the context.
    have hsame : hashlock = planned := by
      obtain ⟨spender, rfl⟩ | rfl | ⟨config, -, rfl⟩ := mem_sendLockMyLeg hcall
      · cases hlocked
      · exact (Option.some.inj hlocked).symm
      · exact (Option.some.inj hlocked).symm
    obtain ⟨hcontext, -⟩ := nextAction_lockMyLeg.mp hcurrent
    rw [hrefreshed.hashlock, h.hashlock] at hcontext
    rw [hsame, Option.some.inj hcontext]

end Steps

/-! ## Runs -/

section Runs

variable {cr : Crypto} {e : Executor} {secret : Bytes32} {ios : List StepAnswers}

theorem Holds.after (h : e.Holds cr secret) : (e.after cr ios).Holds cr secret :=
  Runs.stateAfter_invariant (fun _ io hheld => hheld.step io) h

/-- **A taker that starts with its secret** generates first and keeps it bound. -/
theorem StartsTaker.staysBound (h : e.StartsTaker cr) (hsecret : e.ctx.secret = some secret)
    (hanswered : Every (next cr) (Answered cr) e ios) : e.StaysBound cr ios := by
  -- The secret that the taker holds belongs to its hashlock, and stays.
  have hheld : e.Holds cr secret := by
    refine ⟨h.role, ?_, hsecret⟩
    rw [h.hashlock, hsecret]
    rfl
  have hstep : ∀ (e' : Executor) io, e'.Holds cr secret → (e'.next cr io).Holds cr secret :=
    fun _ io hheld => hheld.step io
  refine ⟨?_, ?_, ⟨secret, fun done later _ _ => hheld.after⟩, ?_⟩
  · apply Runs.trace_forall (p := fun s : Stepped => s.result ≠ .err .missingHashlock)
      hstep _ hheld
    intro e' io hheld' hmissing
    have hnone := missingHashlock_step hmissing
    rw [hheld'.hashlock] at hnone
    cases hnone
  · cases ios with
    | nil => intro s hs; cases hs
    | cons io ios =>
      intro s hs
      obtain rfl : e.step cr io = s := Option.some.inj hs
      exact h.generates (by rw [hheld.hashlock]; rfl) hanswered.1
  -- The hashlock that a lock is sent with is the context's.
  · apply Runs.trace_forall (p := fun s : Stepped => ∀ sending, s.tx = some (.lock sending) →
      ∀ call ∈ sending.sent, ∀ hashlock, lockedHashlock call = some hashlock →
        ∃ secret, s.exec.Holds cr secret ∧ hashlock = cr.hashlockOf secret) hstep _ hheld
    intro e' io hheld' sending htx call hcall hashlock hlocked
    exact ⟨secret, hheld'.step io, hheld'.locks htx hcall hlocked⟩

/-- **Without a secret the taker is stuck**: every step fails, however often it
    is tried and whatever is answered. -/
theorem StartsTaker.stuck (h : e.StartsTaker cr) (hsecret : e.ctx.secret = none) :
    ∀ s ∈ e.steps cr ios, s.result = .err .missingHashlock := by
  have hhashlock : e.ctx.hashlock = none := by
    rw [h.hashlock, hsecret]
    rfl
  apply Runs.trace_forall (I := fun e' : Executor => e'.ctx.hashlock = none)
    (p := fun s : Stepped => s.result = .err .missingHashlock)
  · intro e' io hnone
    exact (step_without_hashlock hnone).2
  · intro e' io hnone
    exact (step_without_hashlock hnone).1
  · exact hhashlock

end Runs

/-- **When the secret stays bound to the hashlock.** A run of a taker from
    `Start`, whose observations are all answered, is as it should be exactly if
    the taker has its secret and hashlock already (or does not run). -/
theorem secret_stays_bound_iff {cr : Crypto} {e : Executor} {ios : List StepAnswers}
    (hstarts : e.StartsTaker cr) (hanswered : Every (next cr) (Answered cr) e ios) :
    e.StaysBound cr ios ↔ ios = [] ∨ e.ctx.secret.isSome := by
  cases hsecret : e.ctx.secret with
  | some secret =>
    simp only [Option.isSome_some, or_true, iff_true]
    exact hstarts.staysBound hsecret hanswered
  | none =>
    simp only [Option.isSome_none, Bool.false_eq_true, or_false]
    constructor
    -- Without its secret a taker fails with `MissingHashlock` at its first step.
    · intro hbound
      cases ios with
      | nil => rfl
      | cons io ios =>
        have hfirst : e.step cr io ∈ e.steps cr (io :: ios) := List.mem_cons_self ..
        exact absurd (hstarts.stuck hsecret _ hfirst) (hbound.hashlock _ hfirst)
    · intro hnil
      -- Before any step there is nothing to show.
      subst hnil
      refine ⟨?_, ?_, ⟨0, ?_⟩, ?_⟩
      · intro s hs; cases hs
      · intro s hs; cases hs
      · intro done later hsplit hdone
        exact absurd (List.append_eq_nil_iff.mp hsplit.symm).1 hdone
      · intro s hs; cases hs

end Executor

namespace Sample

/-- The taker before it has generated anything. -/
def unready : Executor := { taker with
  state := .start
  ctx := { taker.ctx with hashlock := none, secret := none } }

/-- The taker that brings its secret. -/
def ready : Executor := { taker with state := .start }

/-- A step at time 10, then the lock. -/
def generateAndLock : List StepAnswers :=
  [⟨noLogs 10, noLogs 10, mined, 7⟩, ⟨noLogs 11, noLogs 11, mined, 0⟩]

theorem ready_answered :
    Every (Executor.next Exchange.Sample.crypto) (Executor.Answered Exchange.Sample.crypto) ready
      generateAndLock := by
  have hgenerates : (ready.step Exchange.Sample.crypto ⟨noLogs 10, noLogs 10, mined, 7⟩).result =
      .ok .generatedSecret := rfl
  obtain ⟨id, hlocks⟩ : ∃ id, ((ready.next Exchange.Sample.crypto
      ⟨noLogs 10, noLogs 10, mined, 7⟩).step Exchange.Sample.crypto
        ⟨noLogs 11, noLogs 11, mined, 0⟩).result = .ok (.lockedMyLeg id) := ⟨_, rfl⟩
  exact ⟨Executor.answered_of_result hgenerates (by simp) (by simp),
    Executor.answered_of_result hlocks (by simp) (by simp), trivial⟩

end Sample

/-- The taker generates, keeps its secret and locks under its hash. -/
theorem secret_stays_bound_when_ready :
    Sample.ready.StaysBound Exchange.Sample.crypto Sample.generateAndLock := by
  have hstarts : Sample.ready.StartsTaker Exchange.Sample.crypto := ⟨rfl, rfl, rfl⟩
  exact (Executor.secret_stays_bound_iff hstarts Sample.ready_answered).mpr (.inr rfl)

/-- The unready taker is to generate, and its first step misses the hashlock. -/
theorem unready_taker_misses_hashlock :
    Sample.unready.StartsTaker Exchange.Sample.crypto ∧
    nextAction Sample.unready.state Sample.unready.ctx = .generateSecret ∧
    Every (Executor.next Exchange.Sample.crypto) (Executor.Answered Exchange.Sample.crypto)
      Sample.unready Sample.generateAndLock ∧
    ¬Sample.unready.StaysBound Exchange.Sample.crypto Sample.generateAndLock := by
  have hfails : ∀ e : Executor, ∀ io, (e.step Exchange.Sample.crypto io).result =
      .err .missingHashlock → e.Answered Exchange.Sample.crypto io := by
    intro e io hresult
    exact Executor.answered_of_result hresult (by simp) (by simp)
  refine ⟨⟨rfl, rfl, rfl⟩, rfl, ⟨hfails _ _ rfl, hfails _ _ rfl, trivial⟩, ?_⟩
  intro hbound
  exact hbound.hashlock _ (List.mem_cons_self ..) rfl

end Kael.Swapkit
