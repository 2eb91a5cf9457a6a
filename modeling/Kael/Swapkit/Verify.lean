import Kael.Contracts.Evm

/-!
# Verifying the Counterparty's Leg

`verify.rs`: what a wallet compares a lock on the other chain with, and the
timelock arithmetic, on saturating 64-bit numbers. A `Safe` answer is read back
as plain inequalities of natural numbers.
-/

namespace Kael.Swapkit

/-! ## Saturating sums -/

/-- `u64::saturating_add`. -/
def saturatingAdd (a b : U64) : U64 := if (a + b).toNat < a.toNat then BitVec.allOnes 64 else a + b

theorem saturatingAdd_toNat (a b : U64) :
    (saturatingAdd a b).toNat = min (a.toNat + b.toNat) (2 ^ 64 - 1) := by
  have ha := a.isLt
  have hb := b.isLt
  unfold saturatingAdd
  rw [BitVec.toNat_add]
  split_ifs with hwraps
  -- The sum wraps exactly when it is smaller than `a`.
  · rw [BitVec.toNat_allOnes]
    omega
  · rw [BitVec.toNat_add]
    omega

/-! ## Observed locks and expectations -/

inductive Role where
  | taker
  | maker
deriving DecidableEq

/-- HTLC lock observed on the other chain. -/
structure ObservedLock where
  hashlock : Bytes32
  token : Address
  amount : U128
  /-- Recipient allowed to redeem with the preimage. -/
  recipient : Address
  timelock : U64
  sender : Address
  /-- Whether an active lock was found. -/
  exist : Bool
deriving DecidableEq

structure LegExpectation where
  expectedHashlock : Bytes32
  expectedToken : Address
  expectedAmount : U128
  expectedRecipient : Address
  myTimelock : U64
  minGap : U64
  now : U64
  role : Role
deriving DecidableEq

inductive UnsafeReason where
  | lockNotFound
  | hashlockMismatch
  | tokenMismatch
  | amountMismatch
  | recipientMismatch
  | timelockGapTooSmall
  | timelockInverted
  | counterpartyExpiresTooSoon
deriving DecidableEq

inductive VerifyOutcome where
  | safe
  | notSafe (reason : UnsafeReason)
deriving DecidableEq

/-! ## Verification -/

/-- The gap between the two timelocks: the maker's is the short one. -/
def structuralGap (expectation : LegExpectation) (observed : ObservedLock) : Option UnsafeReason :=
  let my := expectation.myTimelock
  let opp := observed.timelock
  let gap := expectation.minGap
  match expectation.role with
  | .maker =>
    if opp ≤ my then some .timelockInverted
    else if opp < saturatingAdd my gap then some .timelockGapTooSmall
    else none
  | .taker =>
    if my ≤ opp then some .timelockInverted
    else if my < saturatingAdd opp gap then some .timelockGapTooSmall
    else none

def checkTimelockGap (expectation : LegExpectation) (observed : ObservedLock) :
    Option UnsafeReason :=
  match structuralGap expectation observed with
  | some reason => some reason
  | none =>
    if observed.timelock < saturatingAdd expectation.now expectation.minGap then
      some .counterpartyExpiresTooSoon
    else none

def verifyCounterpartyLeg (expectation : LegExpectation) (observed : ObservedLock) :
    VerifyOutcome :=
  if !observed.exist then .notSafe .lockNotFound
  else if observed.hashlock ≠ expectation.expectedHashlock then .notSafe .hashlockMismatch
  else if observed.token ≠ expectation.expectedToken then .notSafe .tokenMismatch
  else if observed.amount ≠ expectation.expectedAmount then .notSafe .amountMismatch
  else if observed.recipient ≠ expectation.expectedRecipient then .notSafe .recipientMismatch
  else match checkTimelockGap expectation observed with
    | some reason => .notSafe reason
    | none => .safe

/-! ## What `Safe` means -/

/-- The observed lock pays the expected amount to the expected recipient. -/
structure Matches (expectation : LegExpectation) (observed : ObservedLock) : Prop where
  exist : observed.exist = true
  hashlock : observed.hashlock = expectation.expectedHashlock
  token : observed.token = expectation.expectedToken
  amount : observed.amount = expectation.expectedAmount
  recipient : observed.recipient = expectation.expectedRecipient

/-- The two timelocks are in order and at least `minGap` apart. -/
def LegExpectation.Ordered (e : LegExpectation) (timelock : U64) : Prop :=
  match e.role with
  | .maker => e.myTimelock.toNat < timelock.toNat ∧
      min (e.myTimelock.toNat + e.minGap.toNat) (2 ^ 64 - 1) ≤ timelock.toNat
  | .taker => timelock.toNat < e.myTimelock.toNat ∧
      min (timelock.toNat + e.minGap.toNat) (2 ^ 64 - 1) ≤ e.myTimelock.toNat

section Safe

variable {expectation : LegExpectation} {observed : ObservedLock}

theorem structuralGap_none :
    structuralGap expectation observed = none ↔ expectation.Ordered observed.timelock := by
  unfold structuralGap LegExpectation.Ordered
  -- The two roles compare the same pair of timelocks the other way round.
  cases expectation.role with
  | maker =>
    simp only [BitVec.le_def, BitVec.lt_def, saturatingAdd_toNat]
    split_ifs with hinverted hsmall
    · simp only [false_iff]
      omega
    · simp only [false_iff]
      omega
    · simp only [true_iff]
      omega
  | taker =>
    simp only [BitVec.le_def, BitVec.lt_def, saturatingAdd_toNat]
    split_ifs with hinverted hsmall
    · simp only [false_iff]
      omega
    · simp only [false_iff]
      omega
    · simp only [true_iff]
      omega

theorem checkTimelockGap_none :
    checkTimelockGap expectation observed = none ↔
      expectation.Ordered observed.timelock ∧
      min (expectation.now.toNat + expectation.minGap.toNat) (2 ^ 64 - 1) ≤
        observed.timelock.toNat := by
  rw [← structuralGap_none]
  unfold checkTimelockGap
  cases structuralGap expectation observed with
  | some reason => simp
  | none =>
    simp only [BitVec.lt_def, saturatingAdd_toNat, true_and]
    split_ifs with hsoon
    · simp only [false_iff]
      exact not_le.mpr hsoon
    · simp only [true_iff]
      exact not_lt.mp hsoon

/-- **What a `Safe` answer establishes**: the leg is the expected one, the
    timelocks are in order, and the leg is still open for `minGap`. -/
theorem verifyCounterpartyLeg_safe :
    verifyCounterpartyLeg expectation observed = .safe ↔
      Matches expectation observed ∧ expectation.Ordered observed.timelock ∧
      min (expectation.now.toNat + expectation.minGap.toNat) (2 ^ 64 - 1) ≤
        observed.timelock.toNat := by
  unfold verifyCounterpartyLeg
  -- Each check that fails is the negation of its field of `Matches`.
  split_ifs with hexist hhashlock htoken hamount hrecipient
  · simp only [false_iff]
    rintro ⟨hmatches, -⟩
    simp [hmatches.exist] at hexist
  · simp only [false_iff]
    exact fun h => hhashlock h.1.hashlock
  · simp only [false_iff]
    exact fun h => htoken h.1.token
  · simp only [false_iff]
    exact fun h => hamount h.1.amount
  · simp only [false_iff]
    exact fun h => hrecipient h.1.recipient
  · have hmatches : Matches expectation observed :=
      ⟨by simpa using hexist, not_not.mp hhashlock, not_not.mp htoken, not_not.mp hamount,
        not_not.mp hrecipient⟩
    rw [← checkTimelockGap_none]
    cases checkTimelockGap expectation observed with
    | some reason => simp
    | none => simp [hmatches]

/-! ## Unbounded arithmetic -/

/-- The expected leg, and the inequalities without saturation. -/
def ExactlySafe (expectation : LegExpectation) (observed : ObservedLock) : Prop :=
  let my := expectation.myTimelock.toNat
  let opp := observed.timelock.toNat
  let gap := expectation.minGap.toNat
  Matches expectation observed ∧
    (match expectation.role with
      | .maker => my < opp ∧ my + gap ≤ opp
      | .taker => opp < my ∧ opp + gap ≤ my) ∧
    expectation.now.toNat + gap ≤ opp

/-- The expected leg with the longer timelock at `u64::MAX`, where a sum that
    does not fit counts as this limit. -/
def AtLimit (expectation : LegExpectation) (observed : ObservedLock) : Prop :=
  let my := expectation.myTimelock.toNat
  let opp := observed.timelock.toNat
  let gap := expectation.minGap.toNat
  Matches expectation observed ∧
    match expectation.role with
    | .maker => opp = 2 ^ 64 - 1 ∧ my < opp ∧
        (2 ^ 64 ≤ my + gap ∨ 2 ^ 64 ≤ expectation.now.toNat + gap)
    | .taker => my = 2 ^ 64 - 1 ∧ opp < my ∧ 2 ^ 64 ≤ opp + gap ∧
        expectation.now.toNat + gap ≤ opp

/-- What is exactly safe is not at the limit. -/
theorem AtLimit.not_exactlySafe (h : AtLimit expectation observed) :
    ¬ExactlySafe expectation observed := by
  rintro ⟨-, hordered, hopen⟩
  obtain ⟨-, hlimit⟩ := h
  revert hordered hlimit
  cases expectation.role with
  | maker =>
    rintro ⟨-, hgap⟩ ⟨hopp, -, hsum⟩
    omega
  | taker =>
    rintro ⟨-, hgap⟩ ⟨hmy, -, hsum, -⟩
    omega

/-- `Safe` means exactly safe, or at the limit. -/
theorem safe_cases : verifyCounterpartyLeg expectation observed = .safe ↔
    ExactlySafe expectation observed ∨ AtLimit expectation observed := by
  have hmy := expectation.myTimelock.isLt
  have hopp := observed.timelock.isLt
  rw [verifyCounterpartyLeg_safe, ExactlySafe, AtLimit, LegExpectation.Ordered]
  rw [← and_or_left]
  apply and_congr_right
  intro _
  cases expectation.role with
  | maker =>
    dsimp only
    omega
  | taker =>
    dsimp only
    omega

/-- **What `Safe` means in unbounded arithmetic.** The sums are compared as
    `u64::MAX` when they do not fit; this makes a difference at the limit only,
    where a leg is `Safe` that is not exactly safe. -/
theorem safe_iff_exactly_safe_below_limit (expectation : LegExpectation)
    (observed : ObservedLock) :
    (verifyCounterpartyLeg expectation observed = .safe ↔
      Matches expectation observed ∧ expectation.Ordered observed.timelock ∧
      min (expectation.now.toNat + expectation.minGap.toNat) (2 ^ 64 - 1) ≤
        observed.timelock.toNat) ∧
    (ExactlySafe expectation observed → verifyCounterpartyLeg expectation observed = .safe) ∧
    ((verifyCounterpartyLeg expectation observed = .safe ↔ ExactlySafe expectation observed) ↔
      ¬AtLimit expectation observed) := by
  refine ⟨verifyCounterpartyLeg_safe, fun hsafe => safe_cases.mpr (.inl hsafe), ?_⟩
  rw [safe_cases]
  constructor
  · intro hsame hlimit
    exact hlimit.not_exactlySafe (hsame.mp (.inr hlimit))
  · intro hnot
    exact or_iff_left hnot

end Safe

/-- A maker's lock until one second before `u64::MAX`, an hour of gap, and a
    counterparty that locks until `u64::MAX`. -/
theorem saturated_gap_is_safe :
    ∃ expectation observed, verifyCounterpartyLeg expectation observed = .safe ∧
      ¬ExactlySafe expectation observed := by
  refine ⟨⟨0xab, 0x11, 1000, 0xee, BitVec.ofNat 64 (2 ^ 64 - 2), 3600, 0, .maker⟩,
    ⟨0xab, 0x11, 1000, 0xee, BitVec.allOnes 64, 0x01, true⟩, by decide, ?_⟩
  rintro ⟨-, ⟨-, hgap⟩, -⟩
  revert hgap
  decide

end Kael.Swapkit
