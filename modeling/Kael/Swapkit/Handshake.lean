import Kael.Orderbook.Matching
import Kael.Swapkit.StateMachine

/-!
# From Matched Orders to Contexts

`handshake.rs`: the older order of a match becomes the maker, and each party
derives its context from the two orders. Matched orders give mirrored contexts
(`matched_contexts_mirror`). The timelocks come from a policy with one
documented inequality; both verifiers accept the other's lock under two further
ones, and only then (`swap_verifies_iff`).
-/

namespace Kael.Swapkit

open Orderbook (Order compatible digest CollisionFree signedMessages)

/-! ## Deriving a context -/

structure TimelockPolicy where
  takerLockSecs : U64
  makerLockSecs : U64
  minGap : U64
deriving DecidableEq

/-- `taker_lock_secs >= maker_lock_secs + min_gap`, as documented. -/
def TimelockPolicy.Documented (p : TimelockPolicy) : Prop :=
  p.makerLockSecs.toNat + p.minGap.toNat ≤ p.takerLockSecs.toNat

/-- Older is maker; ties go by the digest, which compares like its bytes. -/
def assignRole (cr : Crypto) (orderSelf orderCp : Order) : Role :=
  if orderSelf.createdAt < orderCp.createdAt then .maker
  else if orderCp.createdAt < orderSelf.createdAt then .taker
  else if digest cr orderSelf < digest cr orderCp then .maker
  else .taker

def deriveContext (orderSelf orderCp : Order) (role : Role) (hashlock secret : Option Bytes32)
    (policy : TimelockPolicy) (now : U64) : SwapContext where
  role := role
  myToken := orderSelf.sellToken
  myAmount := orderSelf.sellAmount
  myTimelock := saturatingAdd now
    (match role with
      | .taker => policy.takerLockSecs
      | .maker => policy.makerLockSecs)
  myRecipient := orderCp.maker
  cpToken := orderCp.sellToken
  -- What the counterparty really locks, not what was asked for.
  cpAmount := orderCp.sellAmount
  me := orderSelf.maker
  minGap := policy.minGap
  hashlock := hashlock
  secret := secret
  myLegLocked := false
  counterpartyLock := none
  revealedSecret := none
  now := now

/-- What an observer sees of the lock that an action describes. -/
def NextAction.asLock (sender : Address) : NextAction → Option ObservedLock
  | .lockMyLeg recipient token amount hashlock timelock =>
    some ⟨hashlock, token, amount, recipient, timelock, sender, true⟩
  | _ => none

/-! ## Roles -/

/-- Two different orders are told apart by their age or by their digests. -/
theorem createdAt_or_digest_ne {cr : Crypto} {a b : Order} (hne : a ≠ b)
    (hfree : CollisionFree cr (signedMessages cr a ++ signedMessages cr b))
    (htie : a.createdAt = b.createdAt) : digest cr a ≠ digest cr b := by
  intro hdigest
  have hsame := Orderbook.sameSigned_of_digest hfree hdigest
  apply hne
  rw [Order.SameSigned, ← htie] at hsame
  exact hsame

theorem assignRole_opposite {cr : Crypto} {a b : Order} (hne : a ≠ b)
    (hfree : CollisionFree cr (signedMessages cr a ++ signedMessages cr b)) :
    assignRole cr a b ≠ assignRole cr b a := by
  have hnat : a.createdAt.toNat = b.createdAt.toNat →
      (digest cr a).toNat ≠ (digest cr b).toNat := by
    intro htie hdigest
    exact createdAt_or_digest_ne hne hfree (BitVec.eq_of_toNat_eq htie)
      (BitVec.eq_of_toNat_eq hdigest)
  unfold assignRole
  simp only [BitVec.lt_def]
  split_ifs <;> first | omega | simp

/-! ## Mirrored contexts -/

/-- The context pays what the order sells and expects at least what it asks for. -/
structure WithinLimits (order cp : Order) (hashlock : Bytes32) (ctx : SwapContext) : Prop where
  pays : ctx.lockMyLeg hashlock =
    .lockMyLeg cp.maker order.sellToken order.sellAmount hashlock ctx.myTimelock
  token : ctx.expectation.expectedToken = order.buyToken
  amount : order.buyAmount ≤ ctx.expectation.expectedAmount
  recipient : ctx.expectation.expectedRecipient = order.maker

section Mirror

variable {a b : Order} {now : U64} {roleA roleB : Role} {hashlock : Bytes32}
  {secretA secretB : Option Bytes32} {policy : TimelockPolicy} {nowA nowB : U64}

/-- One party's lock is the one the other expects, but for the timelocks. -/
theorem lock_matches {sender : Address} {lock : ObservedLock}
    (hlock : ((deriveContext a b roleA (some hashlock) secretA policy nowA).lockMyLeg
      hashlock).asLock sender = some lock) :
    Matches (deriveContext b a roleB (some hashlock) secretB policy nowB).expectation lock := by
  cases hlock
  exact ⟨rfl, rfl, rfl, rfl, rfl⟩

theorem withinLimits_of_compatible (hcompatible : compatible a b now = true) :
    WithinLimits a b hashlock
      (deriveContext a b roleA (some hashlock) secretA policy nowA) := by
  simp only [compatible, Orderbook.mirrors, Orderbook.crosses, Bool.and_eq_true,
    decide_eq_true_eq] at hcompatible
  obtain ⟨⟨-, -, -, htoken, -⟩, -, hamount⟩ := hcompatible
  exact ⟨rfl, htoken.symm, hamount, rfl⟩

end Mirror

/-- **Matched orders give mirrored contexts**: opposite roles; each party's
    lock is, but for the timelock, what the other expects; and each pays what it
    sells and expects what it asked for, or more of it. -/
theorem matched_contexts_mirror {cr : Crypto} {a b : Order} {now : U64}
    (hcompatible : compatible a b now = true) (hne : a ≠ b)
    (hfree : CollisionFree cr (signedMessages cr a ++ signedMessages cr b))
    (policy : TimelockPolicy) (hashlock : Bytes32) (secretA secretB : Option Bytes32)
    (nowA nowB : U64) :
    let ctxA := deriveContext a b (assignRole cr a b) (some hashlock) secretA policy nowA
    let ctxB := deriveContext b a (assignRole cr b a) (some hashlock) secretB policy nowB
    ctxA.role ≠ ctxB.role ∧
    (∀ sender lock, (ctxA.lockMyLeg hashlock).asLock sender = some lock →
      Matches ctxB.expectation lock) ∧
    (∀ sender lock, (ctxB.lockMyLeg hashlock).asLock sender = some lock →
      Matches ctxA.expectation lock) ∧
    WithinLimits a b hashlock ctxA ∧ WithinLimits b a hashlock ctxB := by
  refine ⟨assignRole_opposite hne hfree, ?_, ?_, withinLimits_of_compatible hcompatible, ?_⟩
  · intro sender lock hlock
    exact lock_matches hlock
  · intro sender lock hlock
    exact lock_matches hlock
  · rw [Orderbook.compatible_comm] at hcompatible
    exact withinLimits_of_compatible hcompatible

/-- Two orders that arrived in the same second, told apart by their digests. -/
theorem matched_contexts_mirror_on_tie :
    assignRole Orderbook.Sample.crypto Orderbook.Sample.order Orderbook.Sample.counter ≠
        assignRole Orderbook.Sample.crypto Orderbook.Sample.counter Orderbook.Sample.order ∧
      Orderbook.Sample.order.createdAt = Orderbook.Sample.counter.createdAt := by
  have hcompatible : compatible Orderbook.Sample.order Orderbook.Sample.counter 1000000000 =
      true := by decide
  have hne : Orderbook.Sample.order ≠ Orderbook.Sample.counter := by decide
  have hfree : CollisionFree Orderbook.Sample.crypto
      (signedMessages Orderbook.Sample.crypto Orderbook.Sample.order ++
        signedMessages Orderbook.Sample.crypto Orderbook.Sample.counter) := by decide +kernel
  have hmirror := matched_contexts_mirror hcompatible hne hfree ⟨7200, 3600, 1800⟩ 5 (some 1)
    none 10 20
  exact ⟨by simpa only [deriveContext] using hmirror.1, rfl⟩

/-! ## Timelocks -/

section Timelocks

variable {taker maker : Order} {hashlock : Bytes32} {secret : Option Bytes32}
  {policy : TimelockPolicy} {now : U64} {sender : Address} {lock : ObservedLock}

/-- When the maker accepts the taker's lock. -/
theorem maker_accepts_iff (hpolicy : policy.Documented)
    (hfits : now.toNat + policy.takerLockSecs.toNat < 2 ^ 64)
    (hlock : ((deriveContext taker maker .taker (some hashlock) secret policy now).lockMyLeg
      hashlock).asLock sender = some lock) :
    verifyCounterpartyLeg
        (deriveContext maker taker .maker (some hashlock) none policy now).expectation lock =
      .safe ↔ policy.makerLockSecs.toNat < policy.takerLockSecs.toNat := by
  have hdocumented : _ + _ ≤ _ := hpolicy
  rw [verifyCounterpartyLeg_safe, and_iff_right (lock_matches hlock)]
  cases hlock
  simp only [LegExpectation.Ordered, SwapContext.expectation, deriveContext, saturatingAdd_toNat]
  omega

/-- When the taker accepts the maker's lock. -/
theorem taker_accepts_iff (hpolicy : policy.Documented)
    (hfits : now.toNat + policy.takerLockSecs.toNat < 2 ^ 64)
    (hlock : ((deriveContext maker taker .maker (some hashlock) none policy now).lockMyLeg
      hashlock).asLock sender = some lock) :
    verifyCounterpartyLeg
        (deriveContext taker maker .taker (some hashlock) secret policy now).expectation lock =
      .safe ↔ policy.makerLockSecs.toNat < policy.takerLockSecs.toNat ∧
        policy.minGap.toNat ≤ policy.makerLockSecs.toNat := by
  have hdocumented : _ + _ ≤ _ := hpolicy
  rw [verifyCounterpartyLeg_safe, and_iff_right (lock_matches hlock)]
  cases hlock
  simp only [LegExpectation.Ordered, SwapContext.expectation, deriveContext, saturatingAdd_toNat]
  omega

end Timelocks

/-- **When a documented policy suffices for an honest swap**: the maker's lock
    must last for the gap, and be shorter than the taker's. -/
theorem swap_verifies_iff {policy : TimelockPolicy} (hpolicy : policy.Documented)
    {taker maker : Order} {now : U64}
    (hfits : now.toNat + policy.takerLockSecs.toNat < 2 ^ 64) (hashlock : Bytes32)
    (secret : Option Bytes32) (takerSender makerSender : Address) :
    let takerCtx := deriveContext taker maker .taker (some hashlock) secret policy now
    let makerCtx := deriveContext maker taker .maker (some hashlock) none policy now
    (∀ takerLock makerLock,
      (takerCtx.lockMyLeg hashlock).asLock takerSender = some takerLock →
      (makerCtx.lockMyLeg hashlock).asLock makerSender = some makerLock →
      verifyCounterpartyLeg makerCtx.expectation takerLock = .safe ∧
      verifyCounterpartyLeg takerCtx.expectation makerLock = .safe) ↔
    policy.makerLockSecs.toNat < policy.takerLockSecs.toNat ∧
      policy.minGap.toNat ≤ policy.makerLockSecs.toNat := by
  constructor
  · intro hsafe
    -- What the taker's check asks for includes what the maker's does.
    exact (taker_accepts_iff hpolicy hfits rfl).mp (hsafe _ _ rfl rfl).2
  · rintro ⟨hshorter, hgap⟩ takerLock makerLock htaker hmaker
    exact ⟨(maker_accepts_iff hpolicy hfits htaker).mpr hshorter,
      (taker_accepts_iff hpolicy hfits hmaker).mpr ⟨hshorter, hgap⟩⟩

/-- Under the default policy both locks are accepted. -/
theorem default_policy_verifies :
    verifyCounterpartyLeg (deriveContext Orderbook.Sample.order Orderbook.Sample.counter .taker
        (some 5) (some 1) ⟨7200, 3600, 1800⟩ 1000).expectation
      ⟨5, Orderbook.Sample.counter.sellToken, Orderbook.Sample.counter.sellAmount,
        Orderbook.Sample.order.maker, 4600, Orderbook.Sample.counter.maker, true⟩ = .safe := by
  have hpolicy : TimelockPolicy.Documented ⟨7200, 3600, 1800⟩ := by
    unfold TimelockPolicy.Documented
    decide
  exact ((swap_verifies_iff hpolicy (by decide) 5 (some 1) Orderbook.Sample.order.maker
    Orderbook.Sample.counter.maker).mpr (by decide) _ _ rfl (by decide)).2

/-- A documented policy under which the maker locks and the taker refuses: the
    maker's lock is shorter than the gap. -/
theorem documented_policy_strands_maker :
    TimelockPolicy.Documented ⟨1900, 100, 1800⟩ ∧
    compatible Orderbook.Sample.order Orderbook.Sample.counter 1000 = true ∧
    nextAction .start { deriveContext Orderbook.Sample.counter Orderbook.Sample.order .maker
        (some 5) none ⟨1900, 100, 1800⟩ 1000 with
      counterpartyLock := ((deriveContext Orderbook.Sample.order Orderbook.Sample.counter .taker
        (some 5) (some 1) ⟨1900, 100, 1800⟩ 1000).lockMyLeg 5).asLock
          Orderbook.Sample.order.maker } =
      .lockMyLeg Orderbook.Sample.order.maker Orderbook.Sample.counter.sellToken
        Orderbook.Sample.counter.sellAmount 5 1100 ∧
    nextAction .myLegLocked { deriveContext Orderbook.Sample.order Orderbook.Sample.counter .taker
        (some 5) (some 1) ⟨1900, 100, 1800⟩ 1000 with
      counterpartyLock := some ⟨5, Orderbook.Sample.counter.sellToken,
        Orderbook.Sample.counter.sellAmount, Orderbook.Sample.order.maker, 1100,
        Orderbook.Sample.counter.maker, true⟩ } = .refund := by
  refine ⟨?_, by decide, by decide, by decide⟩
  unfold TimelockPolicy.Documented
  decide

end Kael.Swapkit
