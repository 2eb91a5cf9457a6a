import Kael.Swapkit.Verify

/-!
# The Swap State Machine

`sm.rs`: the next action of a party, decided from its state and from what it
has observed. No state records that a leg was verified; the verification is
part of every decision, and the two gate lemmas say what a decision to lock or
to redeem establishes about the observed leg.
-/

namespace Kael.Swapkit

/-! ## States, actions and events -/

inductive AbortReason where
  | unsafeCounterparty (reason : UnsafeReason)
  | missingSecret
  | missingHashlock
  | verificationFailed
  | invalidState
  | invalidTransition
deriving DecidableEq

inductive SwapState where
  | start
  /-- The taker has the secret and the hashlock and is ready to lock. -/
  | secretGenerated
  /-- The taker has locked. -/
  | myLegLocked
  /-- The maker has locked. -/
  | waitingForSecret
  | secretLearned
  | counterpartyRedeemed
  | done
  | refunding
  | refunded
  | aborted (reason : AbortReason)
deriving DecidableEq

inductive NextAction where
  | generateSecret
  | lockMyLeg (recipient token : Address) (amount : U128) (hashlock : Bytes32) (timelock : U64)
  | verifyCounterpartyLeg
  | redeemCounterpartyLeg (secret : Bytes32)
  | waitForCounterpartyLock
  | waitForSecretReveal
  | refund
  | done
  | abort (reason : AbortReason)
deriving DecidableEq

inductive SwapEvent where
  | secretGenerated
  | myLegConfirmed
  | counterpartyLockObserved
  | verificationFailed
  | secretObserved
  | timelockExpired
  | redeemConfirmed
  | refundConfirmed
deriving DecidableEq

/-! ## Context -/

structure SwapContext where
  role : Role
  myToken : Address
  myAmount : U128
  myTimelock : U64
  /-- Who can redeem my leg: the counterparty. -/
  myRecipient : Address
  cpToken : Address
  cpAmount : U128
  /-- Who must be able to redeem the opposite leg. -/
  me : Address
  minGap : U64
  hashlock : Option Bytes32
  secret : Option Bytes32
  myLegLocked : Bool
  counterpartyLock : Option ObservedLock
  /-- Secret revealed by an on-chain redeem. -/
  revealedSecret : Option Bytes32
  now : U64
deriving DecidableEq

def SwapContext.expectation (ctx : SwapContext) : LegExpectation where
  expectedHashlock := ctx.hashlock.getD 0
  expectedToken := ctx.cpToken
  expectedAmount := ctx.cpAmount
  expectedRecipient := ctx.me
  myTimelock := ctx.myTimelock
  minGap := ctx.minGap
  now := ctx.now
  role := ctx.role

def SwapContext.lockMyLeg (ctx : SwapContext) (hashlock : Bytes32) : NextAction :=
  .lockMyLeg ctx.myRecipient ctx.myToken ctx.myAmount hashlock ctx.myTimelock

/-! ## Decisions -/

def takerNext (state : SwapState) (ctx : SwapContext) : NextAction :=
  match state with
  | .start => .generateSecret
  | .secretGenerated =>
    match ctx.hashlock with
    | some h => ctx.lockMyLeg h
    | none => .abort .missingHashlock
  | .myLegLocked =>
    match ctx.counterpartyLock with
    | none => if ctx.myTimelock ≤ ctx.now then .refund else .waitForCounterpartyLock
    | some obs =>
      match verifyCounterpartyLeg ctx.expectation obs with
      | .safe =>
        match ctx.secret with
        | some s => .redeemCounterpartyLeg s
        | none => .abort .missingSecret
      -- The secret must never leak, so the own leg is left to its refund.
      | .notSafe _ => .refund
  | _ => .abort .invalidState

def makerNext (state : SwapState) (ctx : SwapContext) : NextAction :=
  match state with
  | .start =>
    match ctx.counterpartyLock with
    | none => .waitForCounterpartyLock
    | some obs =>
      match verifyCounterpartyLeg ctx.expectation obs with
      | .safe =>
        match ctx.hashlock with
        | some h => ctx.lockMyLeg h
        | none => .abort .missingHashlock
      -- Nothing is locked yet.
      | .notSafe r => .abort (.unsafeCounterparty r)
  | .waitingForSecret =>
    match ctx.revealedSecret with
    | some s => .redeemCounterpartyLeg s
    | none => if ctx.myTimelock ≤ ctx.now then .refund else .waitForSecretReveal
  | .secretLearned =>
    match ctx.revealedSecret with
    | some s => .redeemCounterpartyLeg s
    | none => .abort .missingSecret
  | _ => .abort .invalidState

def nextAction (state : SwapState) (ctx : SwapContext) : NextAction :=
  match state with
  | .aborted r => .abort r
  | .done => .done
  | .refunded => .done
  | .refunding => .refund
  | .counterpartyRedeemed => .done
  | _ =>
    match ctx.role with
    | .taker => takerNext state ctx
    | .maker => makerNext state ctx

/-- Advance from an external event; invalid transitions abort. -/
def advance (state : SwapState) (event : SwapEvent) : SwapState :=
  match state, event with
  | .done, _ => .done
  | .refunded, _ => .refunded
  | .aborted r, _ => .aborted r
  | .start, .secretGenerated => .secretGenerated
  | .secretGenerated, .myLegConfirmed => .myLegLocked
  | .secretGenerated, .timelockExpired => .refunding
  | .myLegLocked, .counterpartyLockObserved => .myLegLocked
  | .myLegLocked, .redeemConfirmed => .counterpartyRedeemed
  | .myLegLocked, .verificationFailed => .refunding
  | .myLegLocked, .timelockExpired => .refunding
  | .start, .counterpartyLockObserved => .start
  | .start, .myLegConfirmed => .waitingForSecret
  | .start, .verificationFailed => .aborted .verificationFailed
  | .waitingForSecret, .secretObserved => .secretLearned
  | .waitingForSecret, .timelockExpired => .refunding
  | .secretLearned, .redeemConfirmed => .counterpartyRedeemed
  | .counterpartyRedeemed, _ => .done
  | .refunding, .refundConfirmed => .refunded
  | _, _ => .aborted .invalidTransition

/-! ## Gates -/

section Gates

variable {state : SwapState} {ctx : SwapContext} {action : NextAction}

/-- The opposite leg is observed and verified as safe. -/
def SwapContext.CounterpartySafe (ctx : SwapContext) : Prop :=
  ∃ obs, ctx.counterpartyLock = some obs ∧ verifyCounterpartyLeg ctx.expectation obs = .safe

/-- Actions that only one of the roles decides on. -/
def NextAction.OfRole (action : NextAction) : Prop :=
  action ≠ .done ∧ action ≠ .refund ∧ ∀ r, action ≠ .abort r

theorem nextAction_taker (hrole : ctx.role = .taker) (haction : action.OfRole) :
    nextAction state ctx = action ↔ takerNext state ctx = action := by
  obtain ⟨hdone, hrefund, habort⟩ := haction
  cases state <;>
    simp [nextAction, takerNext, hrole, hdone.symm, hrefund.symm, (habort _).symm]

theorem nextAction_maker (hrole : ctx.role = .maker) (haction : action.OfRole) :
    nextAction state ctx = action ↔ makerNext state ctx = action := by
  obtain ⟨hdone, hrefund, habort⟩ := haction
  cases state <;>
    simp [nextAction, makerNext, hrole, hdone.symm, hrefund.symm, (habort _).symm]

theorem takerNext_lockMyLeg {recipient token : Address} {amount : U128} {hashlock : Bytes32}
    {timelock : U64} :
    takerNext state ctx = .lockMyLeg recipient token amount hashlock timelock ↔
      state = .secretGenerated ∧ ctx.hashlock = some hashlock ∧
      ctx.lockMyLeg hashlock = .lockMyLeg recipient token amount hashlock timelock := by
  cases state with
  | secretGenerated =>
    cases hh : ctx.hashlock with
    | none => simp [takerNext, hh]
    | some h =>
      simp only [takerNext, hh, SwapContext.lockMyLeg, NextAction.lockMyLeg.injEq, true_and,
        Option.some.injEq]
      tauto
  | myLegLocked =>
    simp only [takerNext, reduceCtorEq, false_and, iff_false]
    -- Wait, redeem, refund or abort, whatever was observed.
    repeat' split
    all_goals simp
  | _ => simp [takerNext]

theorem takerNext_redeem {secret : Bytes32} :
    takerNext state ctx = .redeemCounterpartyLeg secret ↔
      state = .myLegLocked ∧ ctx.secret = some secret ∧ ctx.CounterpartySafe := by
  unfold SwapContext.CounterpartySafe
  cases state with
  | secretGenerated => cases hh : ctx.hashlock <;> simp [takerNext, hh, SwapContext.lockMyLeg]
  | myLegLocked =>
    cases hlock : ctx.counterpartyLock with
    | none =>
      simp only [takerNext, hlock]
      split_ifs <;> simp
    | some obs =>
      cases hsafe : verifyCounterpartyLeg ctx.expectation obs <;> cases hsecret : ctx.secret <;>
        simp [takerNext, hlock, hsafe, hsecret]
  | _ => simp [takerNext]

theorem makerNext_lockMyLeg {recipient token : Address} {amount : U128} {hashlock : Bytes32}
    {timelock : U64} :
    makerNext state ctx = .lockMyLeg recipient token amount hashlock timelock ↔
      state = .start ∧ ctx.CounterpartySafe ∧ ctx.hashlock = some hashlock ∧
      ctx.lockMyLeg hashlock = .lockMyLeg recipient token amount hashlock timelock := by
  unfold SwapContext.CounterpartySafe
  cases state with
  | start =>
    cases hlock : ctx.counterpartyLock with
    | none => simp [makerNext, hlock]
    | some obs =>
      -- A maker that has observed an unsafe lock aborts.
      cases hsafe : verifyCounterpartyLeg ctx.expectation obs with
      | notSafe r => simp [makerNext, hlock, hsafe]
      | safe =>
        cases hh : ctx.hashlock with
        | none => simp [makerNext, hlock, hsafe, hh]
        | some h =>
          simp only [makerNext, hlock, hsafe, hh, SwapContext.lockMyLeg,
            NextAction.lockMyLeg.injEq, true_and, Option.some.injEq, exists_eq_left']
          tauto
  -- A maker that has locked is not told to lock again.
  | waitingForSecret | secretLearned =>
    simp only [makerNext, reduceCtorEq, false_and, iff_false]
    repeat' split
    all_goals simp
  | _ => simp [makerNext]

theorem makerNext_redeem {secret : Bytes32} :
    makerNext state ctx = .redeemCounterpartyLeg secret ↔
      (state = .waitingForSecret ∨ state = .secretLearned) ∧
      ctx.revealedSecret = some secret := by
  cases state with
  | start =>
    simp only [makerNext, reduceCtorEq, or_self, false_and, iff_false]
    repeat' split
    all_goals simp [SwapContext.lockMyLeg]
  | waitingForSecret =>
    -- Until the secret is seen a maker can only refund, past its own timelock.
    cases hs : ctx.revealedSecret with
    | none =>
      simp only [makerNext, hs]
      split_ifs <;> simp
    | some s => simp [makerNext, hs]
  | secretLearned => cases hs : ctx.revealedSecret <;> simp [makerNext, hs]
  | _ => simp [makerNext]

/-- A taker makes its secret at the start. -/
theorem nextAction_generateSecret :
    nextAction state ctx = .generateSecret ↔ ctx.role = .taker ∧ state = .start := by
  have hofRole : NextAction.generateSecret.OfRole := ⟨nofun, nofun, nofun⟩
  cases hrole : ctx.role with
  | taker =>
    rw [nextAction_taker hrole hofRole]
    cases state with
    -- A taker that has its secret locks its leg, or aborts without a hashlock.
    | secretGenerated => cases hh : ctx.hashlock <;> simp [takerNext, hh, SwapContext.lockMyLeg]
    -- A taker that has locked redeems, refunds, waits or aborts.
    | myLegLocked =>
      simp only [takerNext, reduceCtorEq, and_false, iff_false]
      repeat' split
      all_goals simp
    | _ => simp [takerNext]
  | maker =>
    rw [nextAction_maker hrole hofRole]
    cases state with
    | start | waitingForSecret | secretLearned =>
      simp only [makerNext, reduceCtorEq, false_and, iff_false]
      repeat' split
      all_goals simp [SwapContext.lockMyLeg]
    | _ => simp [makerNext]

/-- **When a party locks**: the taker once its secret is ready, the maker
    against a verified leg. -/
theorem nextAction_lockMyLeg {recipient token : Address} {amount : U128} {hashlock : Bytes32}
    {timelock : U64} :
    nextAction state ctx = .lockMyLeg recipient token amount hashlock timelock ↔
      ctx.hashlock = some hashlock ∧
      ctx.lockMyLeg hashlock = .lockMyLeg recipient token amount hashlock timelock ∧
      (ctx.role = .taker ∧ state = .secretGenerated ∨
        ctx.role = .maker ∧ state = .start ∧ ctx.CounterpartySafe) := by
  have hofRole : (NextAction.lockMyLeg recipient token amount hashlock timelock).OfRole :=
    ⟨nofun, nofun, nofun⟩
  cases hrole : ctx.role with
  | taker =>
    rw [nextAction_taker hrole hofRole, takerNext_lockMyLeg]
    simp only [reduceCtorEq, false_and, or_false, true_and]
    tauto
  | maker =>
    rw [nextAction_maker hrole hofRole, makerNext_lockMyLeg]
    simp only [reduceCtorEq, false_and, false_or, true_and]
    tauto

/-- **When a party redeems**: the taker against a verified leg with its own
    secret, the maker with a secret it has seen revealed. -/
theorem nextAction_redeem {secret : Bytes32} :
    nextAction state ctx = .redeemCounterpartyLeg secret ↔
      ctx.role = .taker ∧ state = .myLegLocked ∧ ctx.secret = some secret ∧
        ctx.CounterpartySafe ∨
      ctx.role = .maker ∧ (state = .waitingForSecret ∨ state = .secretLearned) ∧
        ctx.revealedSecret = some secret := by
  have hofRole : (NextAction.redeemCounterpartyLeg secret).OfRole := ⟨nofun, nofun, nofun⟩
  cases hrole : ctx.role with
  | taker => simp [nextAction_taker hrole hofRole, takerNext_redeem]
  | maker => simp [nextAction_maker hrole hofRole, makerNext_redeem]

end Gates

end Kael.Swapkit
