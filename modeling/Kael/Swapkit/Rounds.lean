import Kael.Lib.Runs
import Kael.Swapkit.StateMachine

/-!
# Feeding the State Machine

A round is a decision of `next_action` and the event fed to `advance` after it.
The two functions are separate tables. A party that has locked can be aborted
by an event its table lacks; `handled` lists the events it has, and along a
whole run nothing else can abort a locked leg (`never_strands_iff`).
-/

namespace Kael.Swapkit

open Runs (Every EverySince)

/-! ## Rounds -/

/-- The context a decision is taken in, and the event that follows. -/
structure Round where
  ctx : SwapContext
  event : SwapEvent
deriving DecidableEq

/-- The event says that the action was carried out. -/
def NextAction.confirmedBy : NextAction → SwapEvent → Bool
  | .generateSecret, .secretGenerated => true
  | .lockMyLeg .., .myLegConfirmed => true
  | .redeemCounterpartyLeg _, .redeemConfirmed => true
  | .refund, .refundConfirmed => true
  | _, _ => false

/-- The events that confirm an action; the others are observations. -/
def SwapEvent.isConfirmation : SwapEvent → Bool
  | .secretGenerated | .myLegConfirmed | .redeemConfirmed | .refundConfirmed => true
  | _ => false

/-- A round of `role`: a confirmation is fed only for what was just asked. -/
structure Round.Allowed (role : Role) (state : SwapState) (r : Round) : Prop where
  ofRole : r.ctx.role = role
  hashlock : r.ctx.hashlock.isSome
  secret : role = .taker → r.ctx.secret.isSome
  asked : r.event.isConfirmation → (nextAction state r.ctx).confirmedBy r.event

def feed (state : SwapState) (r : Round) : SwapState := advance state r.event

/-- The own leg is paid for or paid back. -/
def SwapState.Settled (state : SwapState) : Prop :=
  state = .counterpartyRedeemed ∨ state = .refunded

/-- Neither the decision nor the event aborts. -/
structure Round.Sound (state : SwapState) (r : Round) : Prop where
  decision : ∀ reason, nextAction state r.ctx ≠ .abort reason
  event : ∀ reason, feed state r ≠ .aborted reason

/-! ## What the tables have in common -/

/-- The events that a locked party can take, and the context it needs. -/
def Round.handled (state : SwapState) (r : Round) : Prop :=
  match state with
  | .myLegLocked => r.event ≠ .secretObserved ∧ r.event ≠ .refundConfirmed
  | .waitingForSecret => r.event = .secretObserved ∨ r.event = .timelockExpired
  | .secretLearned => r.event = .redeemConfirmed ∧ r.ctx.revealedSecret.isSome
  | _ => r.event = .refundConfirmed

/-- The states of a party that has locked and is not settled. -/
def Holding (role : Role) (state : SwapState) : Prop :=
  match role with
  | .taker => state = .myLegLocked ∨ state = .refunding
  | .maker => state = .waitingForSecret ∨ state = .secretLearned ∨ state = .refunding

section Rounds

variable {role : Role} {state : SwapState} {r : Round}

/-- Locking is confirmed only for a party that was asked to lock. -/
theorem holding_of_myLegConfirmed (hallowed : r.Allowed role state)
    (hevent : r.event = .myLegConfirmed) : Holding role (feed state r) := by
  have hasked := hallowed.asked (by rw [hevent]; rfl)
  rw [hevent] at hasked
  cases haction : nextAction state r.ctx with
  | lockMyLeg recipient token amount hashlock timelock =>
    obtain ⟨-, -, ⟨hrole, rfl⟩ | ⟨hrole, rfl, -⟩⟩ := nextAction_lockMyLeg.mp haction
    · rw [← hallowed.ofRole, hrole, feed, hevent]
      exact .inl rfl
    · rw [← hallowed.ofRole, hrole, feed, hevent]
      exact .inl rfl
  | _ => rw [haction] at hasked; cases hasked

/-- A decision to refund in `myLegLocked`, and every other one, is no abort. -/
theorem myLegLocked_decides (hrole : r.ctx.role = .taker) (hsecret : r.ctx.secret.isSome)
    (reason : AbortReason) : nextAction .myLegLocked r.ctx ≠ .abort reason := by
  obtain ⟨secret, hsecret⟩ := Option.isSome_iff_exists.mp hsecret
  simp only [nextAction, hrole, takerNext, hsecret]
  repeat' split
  all_goals simp

theorem waitingForSecret_decides (hrole : r.ctx.role = .maker) (reason : AbortReason) :
    nextAction .waitingForSecret r.ctx ≠ .abort reason := by
  simp only [nextAction, hrole, makerNext]
  repeat' split
  all_goals simp

theorem secretLearned_decides (hrole : r.ctx.role = .maker) :
    (∀ reason, nextAction .secretLearned r.ctx ≠ .abort reason) ↔
      r.ctx.revealedSecret.isSome := by
  cases hrevealed : r.ctx.revealedSecret <;>
    simp [nextAction, hrole, makerNext, hrevealed]

/-- A party that has locked is not asked to make a secret or to lock again. -/
theorem not_asked_again (hholding : Holding role state) (hallowed : r.Allowed role state) :
    r.event ≠ .secretGenerated ∧ r.event ≠ .myLegConfirmed := by
  -- A party that holds a leg is past the states that ask for a secret or a lock.
  have hstate : state ≠ .start ∧ state ≠ .secretGenerated := by
    cases role with
    | taker => rcases hholding with rfl | rfl <;> simp
    | maker => rcases hholding with rfl | rfl | rfl <;> simp
  constructor
  · intro hevent
    have hasked := hallowed.asked (by rw [hevent]; rfl)
    rw [hevent] at hasked
    cases haction : nextAction state r.ctx with
    | generateSecret => exact hstate.1 (nextAction_generateSecret.mp haction).2
    | _ => rw [haction] at hasked; cases hasked
  · intro hevent
    have hasked := hallowed.asked (by rw [hevent]; rfl)
    rw [hevent] at hasked
    cases haction : nextAction state r.ctx with
    | lockMyLeg recipient token amount hashlock timelock =>
      obtain ⟨-, -, ⟨-, rfl⟩ | ⟨-, rfl, -⟩⟩ := nextAction_lockMyLeg.mp haction
      · exact hstate.2 rfl
      · exact hstate.1 rfl
    | _ => rw [haction] at hasked; cases hasked

/-- **One round of a locked party** aborts nothing exactly if it is handled. -/
theorem sound_iff_handled (hholding : Holding role state) (hallowed : r.Allowed role state) :
    r.Sound state ↔ r.handled state := by
  have hagain := not_asked_again hholding hallowed
  have hrole := hallowed.ofRole
  have hsound : r.Sound state ↔ (∀ reason, nextAction state r.ctx ≠ .abort reason) ∧
      ∀ reason, feed state r ≠ .aborted reason := ⟨fun h => ⟨h.1, h.2⟩, fun h => ⟨h.1, h.2⟩⟩
  rw [hsound]
  -- From `refunding` any event but the refund's own is an invalid transition.
  have hrefunding : ((∀ reason, nextAction .refunding r.ctx ≠ .abort reason) ∧
      ∀ reason, feed .refunding r ≠ .aborted reason) ↔ r.handled .refunding := by
    cases hevent : r.event <;> simp [nextAction, feed, advance, Round.handled, hevent]
  cases role with
  | taker =>
    rcases hholding with rfl | rfl
    -- What a party that holds a leg is told is no abort, so only the event matters.
    · rw [iff_true_intro (myLegLocked_decides hrole (hallowed.secret rfl)), true_and]
      cases hevent : r.event <;> simp [feed, advance, Round.handled, hevent] at hagain ⊢
    · exact hrefunding
  | maker =>
    rcases hholding with rfl | rfl | rfl
    · rw [iff_true_intro (waitingForSecret_decides hrole), true_and]
      cases hevent : r.event <;> simp [feed, advance, Round.handled, hevent]
    · rw [secretLearned_decides hrole, and_comm]
      cases hevent : r.event <;> simp [feed, advance, Round.handled, hevent]
    · exact hrefunding

/-- A handled round leaves the party locked, or settles it. -/
theorem holding_of_handled (hholding : Holding role state) (hallowed : r.Allowed role state)
    (hhandled : r.handled state) :
    Holding role (feed state r) ∨ (feed state r).Settled := by
  have hagain := not_asked_again hholding hallowed
  -- One case for each state in which a leg is held: the event moves on or stays.
  cases role with
  | taker =>
    rcases hholding with rfl | rfl
    · cases hevent : r.event <;>
        simp [feed, advance, Round.handled, Holding, SwapState.Settled, hevent]
          at hagain hhandled ⊢
    · simp only [Round.handled] at hhandled
      simp [feed, advance, SwapState.Settled, hhandled]
  | maker =>
    rcases hholding with rfl | rfl | rfl
    · rcases hhandled with hevent | hevent <;> simp [feed, advance, Holding, hevent]
    · simp [feed, advance, SwapState.Settled, hhandled.1]
    · simp only [Round.handled] at hhandled
      simp [feed, advance, SwapState.Settled, hhandled]

end Rounds

/-! ## Runs -/

/-- **When a locked leg is never stranded.** In a run from the start whose
    confirmations were asked for, nothing aborts between the lock and its
    settlement exactly if all rounds in between are handled: the table of
    `advance` has their events, and a learned secret is in the context. -/
theorem never_strands_iff {role : Role} {rounds : List Round}
    (hallowed : Every feed (fun state r => r.Allowed role state) .start rounds) :
    EverySince feed (fun r => r.event = .myLegConfirmed) SwapState.Settled
        (fun state r => r.Sound state) .start rounds ↔
      EverySince feed (fun r => r.event = .myLegConfirmed) SwapState.Settled
        (fun state r => r.handled state) .start rounds := by
  apply Runs.EverySince.iff_of_invariant (I := fun state => Holding role state ∨ state.Settled)
    _ _ _ hallowed
  · intro state r hround hlock
    exact .inl (holding_of_myLegConfirmed hround hlock)
  · intro state r hinv hsettled hround
    exact sound_iff_handled (hinv.resolve_right hsettled) hround
  · intro state r hinv hsettled hround hhandled
    exact holding_of_handled (hinv.resolve_right hsettled) hround hhandled

/-! ## Two makers that have seen the secret -/

namespace Sample

/-- A maker that sees a safe leg, and perhaps the secret. -/
def makerSees (revealedSecret : Option Bytes32) : SwapContext where
  role := .maker
  myToken := 0x22
  myAmount := 500
  myTimelock := 1000
  myRecipient := 0x7A
  cpToken := 0x11
  cpAmount := 1000
  me := 0x3A
  minGap := 100
  hashlock := some 0xAB
  secret := none
  myLegLocked := false
  counterpartyLock := some ⟨0xAB, 0x11, 1000, 0x3A, 1200, 0x7A, true⟩
  revealedSecret := revealedSecret
  now := 500

/-- The maker locks, sees the secret and redeems, as it is asked to. -/
def learnedRounds : List Round :=
  [⟨makerSees none, .myLegConfirmed⟩, ⟨makerSees (some 0x5E), .secretObserved⟩,
    ⟨makerSees (some 0x5E), .redeemConfirmed⟩]

/-- The same without the observation that comes before the redeem. -/
def unobservedRounds : List Round :=
  [⟨makerSees none, .myLegConfirmed⟩, ⟨makerSees (some 0x5E), .redeemConfirmed⟩]

end Sample

theorem never_strands_learned_secret :
    EverySince feed (fun r => r.event = .myLegConfirmed) SwapState.Settled
      (fun state r => r.Sound state) .start Sample.learnedRounds := by
  apply (@never_strands_iff .maker _ _).mpr
  · refine .inr ⟨.inl rfl, .inr ⟨⟨rfl, rfl⟩, trivial⟩⟩
  · exact ⟨⟨rfl, rfl, nofun, by decide⟩, ⟨rfl, rfl, nofun, by decide⟩,
      ⟨rfl, rfl, nofun, by decide⟩, trivial⟩

/-- The maker waits for the secret and is asked to redeem with it; when the
    redeem is confirmed, the locked maker is aborted. -/
theorem confirmed_redeem_strands_maker :
    Every feed (fun state r => r.Allowed .maker state) .start Sample.unobservedRounds ∧
    nextAction .waitingForSecret (Sample.makerSees (some 0x5E)) =
      .redeemCounterpartyLeg 0x5E ∧
    Runs.stateAfter feed .start Sample.unobservedRounds = .aborted .invalidTransition ∧
    ¬EverySince feed (fun r => r.event = .myLegConfirmed) SwapState.Settled
      (fun state r => r.Sound state) .start Sample.unobservedRounds := by
  refine ⟨⟨⟨rfl, rfl, nofun, by decide⟩, ⟨rfl, rfl, nofun, by decide⟩, trivial⟩, by decide,
    by decide, ?_⟩
  intro hsound
  -- The redeem is the first round after the lock.
  obtain (hsettled | hsettled) | ⟨hround, -⟩ := hsound
  · cases hsettled
  · cases hsettled
  · exact hround.event .invalidTransition rfl

end Kael.Swapkit
