import Kael.Contracts.Exchange

/-!
# Single Calls

A call made from outside, followed to its end, where the foreign code it runs
returns each time without calling back (`callThrough`). Calls wait at most three
times, so three returns are enough.
-/

namespace Kael.Exchange

open NestedCalls
open Kael.Settlement (Failure SettleLeg)

/-- The foreign code a call runs returns each time without calling back. -/
def complete (cr : Crypto) (D : Deployment) (now : Uint256) : Nat → Outcome → Except Failure State
  | _, .done s => .ok s
  | 0, .waiting _ => .error .token
  | n + 1, .waiting s =>
    match resume cr D now s with
    | .ok o => complete cr D now n o
    | .error e => .error e

/-- A single call from start to end; `settleLeg`, the longest, waits three times. -/
def callThrough (cr : Crypto) (D : Deployment) (now : Uint256) (x : Address) (call : Call)
    (s : State) : Except Failure State :=
  match invoke cr D now x call s with
  | .ok o => complete cr D now 3 o
  | .error e => .error e

section Complete

variable {cr : Crypto} {D : Deployment} {now : Uint256} {x : Address} {call : Call}
  {s s' : State} {o : Outcome} {n : Nat}

theorem callThrough_ok : callThrough cr D now x call s = .ok s' ↔
    ∃ o, invoke cr D now x call s = .ok o ∧ complete cr D now 3 o = .ok s' := by
  unfold callThrough
  cases invoke cr D now x call s <;> simp

theorem complete_done : complete cr D now n (.done s) = .ok s' ↔ s' = s := by
  cases n <;> simp [complete, eq_comm]

/-- A waiting call goes on with the rest of its innermost frame. -/
theorem complete_waiting {f : Frame} {fs : List Frame} (hframes : s.frames = f :: fs) :
    complete cr D now (n + 1) (.waiting s) = .ok s' ↔
      ∃ o, f.rest cr D now { s with frames := fs } = .ok o ∧ complete cr D now n o = .ok s' := by
  simp only [complete, resume, hframes]
  cases f.rest cr D now { s with frames := fs } <;> simp

/-- A payment that waits is over when its recipient returns. -/
theorem complete_payout {e : HashedTimelock.Event} {fs : List Frame}
    (hframes : s.frames = .payout e :: fs) :
    complete cr D now (n + 1) (.waiting s) =
      .ok { s with htlc := s.htlc.emit e, frames := fs } := by
  rw [complete_waiting hframes]
  exact ⟨_, rfl, complete_done.mpr rfl⟩

/-! ### Three waits are enough -/

/-- How often a call that waits in this frame waits, this time included. -/
def Frame.waits : Frame → Nat
  | .settleReceive .. => 3
  | .settleApprove .. => 2
  | .legRefund .. => 2
  | _ => 1

def Outcome.waits : Outcome → Nat
  | .done _ => 0
  | .waiting s => (s.frames.head?.map Frame.waits).getD 0

theorem Outcome.waits_le : o.waits ≤ 3 := by
  cases o with
  | done s => exact Nat.zero_le _
  | waiting s =>
    cases hframes : s.frames with
    | nil => simp [Outcome.waits, hframes]
    | cons f fs => cases f <;> simp [Outcome.waits, hframes, Frame.waits]

private theorem settleApproved_waits {value : Uint256} {a : SettleLeg} {id : Bytes32}
    (h : State.settleApproved cr D now value a id s = .ok o) : o.waits ≤ 1 := by
  have hlocked : ∀ got s₁, State.settleLocked a id got s₁ = .ok o → o.waits ≤ 1 := by
    intro got s₁ hrest
    obtain ⟨-, rfl⟩ := State.settleLocked_ok.mp hrest
    exact Nat.zero_le _
  obtain ⟨got, -, ⟨-, hrest⟩ | ⟨-, l, -, hrest⟩ | ⟨-, -, -, -, rfl⟩⟩ := State.newSwap_ok.mp h
  · exact hlocked _ _ hrest
  · exact hlocked _ _ hrest
  · exact le_rfl

theorem Frame.rest_waits {f : Frame} (h : f.rest cr D now s = .ok o) : o.waits < f.waits := by
  -- At most three frames follow each other: receive, approve, lock.
  cases f with
  | settleReceive a id =>
    have hrun : State.settleReceived cr D now a id s = .ok o := h
    rcases State.tokenCall_ok.mp hrun with ⟨-, l, -, hrest⟩ | ⟨-, -, -, rfl⟩
    · exact lt_of_le_of_lt (settleApproved_waits hrest) (by simp [Frame.waits])
    · exact Nat.lt_succ_self 2
  | settleApprove a id => exact lt_of_le_of_lt (settleApproved_waits h) (Nat.lt_succ_self 1)
  | settleLock a id got =>
    obtain ⟨-, rfl⟩ := State.settleLocked_ok.mp h
    exact Nat.one_pos
  | legRefund id leg =>
    have hrun : (s.withHtlc (s.htlc.emit (.logRefund id))).forwardLeg D id leg = .ok o := h
    rcases State.pay_ok.mp hrun with ⟨-, -, -, l, -, rfl⟩ | ⟨-, l, -, hrest⟩ | ⟨-, -, -, -, rfl⟩
    · exact Nat.lt_succ_self 1
    · cases hrest; exact Nat.two_pos
    · exact Nat.lt_succ_self 1
  | newSwap | payout | legForward | other => cases h; exact Nat.one_pos

/-- More fuel makes no difference, by induction on the waits that are left. -/
theorem complete_add (hwaits : o.waits ≤ n) (k : Nat) :
    complete cr D now (n + k) o = complete cr D now n o := by
  -- By induction on the number of waits that are left.
  induction n generalizing o with
  | zero =>
    cases o with
    | done s => cases k <;> rfl
    | waiting s =>
      have hframes : s.frames = [] := by
        cases hf : s.frames with
        | nil => rfl
        | cons f fs => cases f <;> simp [Outcome.waits, hf, Frame.waits] at hwaits
      cases k <;> simp [complete, resume, hframes]
  | succ n ih =>
    cases o with
    | done s => rw [Nat.succ_add]; rfl
    | waiting s =>
      rw [Nat.succ_add]
      simp only [complete]
      cases hresume : resume cr D now s with
      | error e => rfl
      | ok o =>
        refine ih ?_
        obtain ⟨f, fs, hframes, hrest⟩ := resume_ok.mp hresume
        -- Each return takes away at least one wait.
        have hless := Frame.rest_waits hrest
        simp only [Outcome.waits, hframes, List.head?_cons, Option.map_some,
          Option.getD_some] at hwaits
        omega

theorem callThrough_eq (k : Nat) : callThrough cr D now x call s =
    match invoke cr D now x call s with
    | .ok o => complete cr D now (3 + k) o
    | .error e => .error e := by
  unfold callThrough
  cases invoke cr D now x call s with
  | error e => rfl
  | ok o => exact (complete_add Outcome.waits_le k).symm

/-! ### Single calls are runs -/

/-- Foreign code that returns without calling back is one way to let a call return. -/
theorem complete_returns (h : complete cr D now n (.waiting s) = .ok s') (π : Policy) :
    ∃ s₁, Run (system cr D π now) ⟨s, []⟩ ⟨s₁, []⟩ ∧ resume cr D now s₁ = .ok (.done s') := by
  induction n generalizing s with
  | zero => cases h
  | succ n ih =>
    simp only [complete] at h
    cases hresume : resume cr D now s with
    | error e => simp [hresume] at h
    | ok o =>
      rw [hresume] at h
      cases o with
      | done s₁ =>
        obtain rfl := complete_done.mp h
        exact ⟨s, .refl, hresume⟩
      | waiting s₁ =>
        obtain ⟨s₂, hrun, hreturns⟩ := ih h
        exact ⟨s₂, .head (.act (.resume hresume)) hrun, hreturns⟩

/-- A single call is a run that opens and closes its calls. -/
theorem callThrough_run {π : Policy} {ss : List State} (hx : D.Account x) (hpolicy : π x call)
    (h : callThrough cr D now x call s = .ok s') :
    Run (system cr D π now) ⟨s, ss⟩ ⟨s', ss⟩ := by
  obtain ⟨o, hinvoke, hcomplete⟩ := callThrough_ok.mp h
  cases o with
  | done s₁ =>
    obtain rfl := complete_done.mp hcomplete
    exact .single (.act (.invoke x call hx hpolicy hinvoke))
  | waiting s₁ =>
    obtain ⟨s₂, hrun, hreturns⟩ := complete_returns hcomplete π
    exact .head (.enter (.invoke x call hx hpolicy hinvoke))
      ((hrun.above (s :: ss)).tail (.leave hreturns))

end Complete

/-! ## Reading computed calls -/

/-- The call succeeds, and its result passes a test. -/
def okAnd (test : State → Bool) : Except Failure State → Bool
  | .ok s => test s
  | .error _ => false

/-- The call reverts with `e`. -/
def failsWith (e : Failure) : Except Failure State → Bool
  | .ok _ => false
  | .error e' => e' = e

/-- The call is over without running foreign code, and its result passes a test. -/
def doneAnd (test : State → Bool) : Except Failure Outcome → Bool
  | .ok (.done s) => test s
  | _ => false

/-- The call runs foreign code, in a state that passes a test. -/
def waitingAnd (test : State → Bool) : Except Failure Outcome → Bool
  | .ok (.waiting s) => test s
  | _ => false

theorem doneAnd_iff {test : State → Bool} {r : Except Failure Outcome} :
    doneAnd test r = true ↔ ∃ s, r = .ok (.done s) ∧ test s = true := by
  rcases r with e | o
  · simp [doneAnd]
  · cases o <;> simp [doneAnd]

theorem waitingAnd_iff {test : State → Bool} {r : Except Failure Outcome} :
    waitingAnd test r = true ↔ ∃ s, r = .ok (.waiting s) ∧ test s = true := by
  rcases r with e | o
  · simp [waitingAnd]
  · cases o <;> simp [waitingAnd]

theorem okAnd_iff {test : State → Bool} {r : Except Failure State} :
    okAnd test r = true ↔ ∃ s, r = .ok s ∧ test s = true := by
  cases r <;> simp [okAnd]

theorem failsWith_iff {e : Failure} {r : Except Failure State} :
    failsWith e r = true ↔ r = .error e := by
  cases r <;> simp [failsWith]

end Kael.Exchange
