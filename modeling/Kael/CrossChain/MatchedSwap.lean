import Kael.CrossChain.HonestSwap
import Kael.Orderbook.Server
import Kael.Swapkit.Handshake

/-!
# From a Served Match to Filled Orders

The whole way of two orders: they arrive signed at the order book, which serves
them as a match; the two traders derive their contexts from them; and an honest
swap fills both, each for at least what it asks (`served_match_is_filled`).
-/

namespace Kael.CrossChain

open Ladders (Climbs)
open Exchange (Deployment State)
open Orderbook (Arrival Book Carries K256 MatchPair Order arrive arrive_of_carries candidates
  compatible digest ingested ingested_ingested mem_candidates orderAt verify_ok)
open Swapkit (Executor Role SettlementLockConfig SwapContext SwapState TimelockPolicy
  WalletExecutorConfig assignRole deriveContext saturatingAdd_toNat)

/-! ## What the book serves -/

section Served

variable {cr : Crypto} {k : K256} {history : List Arrival} {a b : Order} {now : U64}

/-- The digest of an order in the book tells which it is. -/
theorem digest_inj (ha : a ∈ (ingested cr k history).orders)
    (hb : b ∈ (ingested cr k history).orders) (h : digest cr a = digest cr b) : a = b := by
  have hinv := ingested_ingested cr k history
  have hnodup := hinv.nodup
  rw [hinv.hashes] at hnodup
  exact List.inj_on_of_nodup_map hnodup ha hb h

/-- **A served match** is of two compatible orders with different digests. -/
theorem compatible_of_served (ha : a ∈ (ingested cr k history).orders)
    (hb : b ∈ (ingested cr k history).orders)
    (hserved : ⟨digest cr a, digest cr b⟩ ∈ (ingested cr k history).matchesFor a.maker now) :
    compatible a b now = true ∧ digest cr a ≠ digest cr b := by
  have hinv := ingested_ingested cr k history
  rw [Book.matchesFor_eq] at hserved
  simp only [List.mem_flatMap, List.mem_filter, List.mem_range, List.mem_map,
    MatchPair.mk.injEq] at hserved
  obtain ⟨i, ⟨hi, -⟩, j, hj, hix, hjy⟩ := hserved
  obtain ⟨hj, hne, hcompatible⟩ := mem_candidates.mp hj
  have hhash : ∀ i < (ingested cr k history).orders.length,
      (ingested cr k history).hashAt i = digest cr (orderAt (ingested cr k history).orders i) := by
    intro i hi
    simp [Book.hashAt, hinv.hashes, orderAt, hi]
  have hmem : ∀ i < (ingested cr k history).orders.length,
      orderAt (ingested cr k history).orders i ∈ (ingested cr k history).orders := by
    intro i hi
    simp [orderAt, hi]
  -- The two positions are those of the two orders.
  rw [hhash i hi] at hix
  rw [hhash j hj] at hjy
  rw [digest_inj (hmem i hi) ha hix, digest_inj (hmem j hj) hb hjy] at hcompatible
  refine ⟨hcompatible, fun hsame => hne ?_⟩
  apply Book.hashAt_inj (by rw [hinv.hashes, List.length_map]) hinv.nodup hj hi
  rw [hhash i hi, hhash j hj, hix, hjy, hsame]

/-- What one of two compatible orders buys the other one sells. -/
theorem buys_of_compatible (h : compatible a b now = true) :
    a.buyToken = b.sellToken ∧ a.buyChainId = b.sellChainId ∧ a.buyAmount ≤ b.sellAmount := by
  simp only [compatible, Orderbook.mirrors, Orderbook.crosses, Bool.and_eq_true,
    decide_eq_true_eq] at h
  obtain ⟨⟨-, -, -, htoken, hchain⟩, -, hamount⟩ := h
  exact ⟨htoken, hchain, hamount⟩

/-- One of two orders with different digests makes, the other one takes. -/
theorem assignRole_maker (hne : digest cr a ≠ digest cr b) (htaker : assignRole cr a b = .taker) :
    assignRole cr b a = .maker := by
  have hnat : (digest cr a).toNat ≠ (digest cr b).toNat := fun h => hne (BitVec.eq_of_toNat_eq h)
  unfold assignRole at htaker ⊢
  simp only [BitVec.lt_def] at htaker ⊢
  split_ifs at htaker ⊢ <;> first | omega | rfl

end Served

/-! ## Traders -/

/-- What a party brings along besides its order. -/
structure Trader where
  ownSigner : Address
  counterpartySigner : Address
  ownHtlc : Address
  counterpartyHtlc : Address
  ownSettlementLock : Option SettlementLockConfig
  minConfirmations : U64

/-- The executor of the party whose order is `order`. -/
def Trader.executor (trader : Trader) (cr : Crypto) (order cp : Order) (secret : Bytes32)
    (policy : TimelockPolicy) (now : U64) : Executor :=
  let role := assignRole cr order cp
  .new
    { state := match role with
        | .taker => .secretGenerated
        | .maker => .start
      ctx := deriveContext order cp role (some (cr.hashlockOf secret))
        (match role with
          | .taker => some secret
          | .maker => none) policy now
      ownSigner := trader.ownSigner
      counterpartySigner := trader.counterpartySigner
      ownHtlc := trader.ownHtlc
      counterpartyHtlc := trader.counterpartyHtlc
      ownSettlementLock := trader.ownSettlementLock
      ownObserver := .new order.sellChainId
      counterpartyObserver := .new cp.sellChainId
      minConfirmations := trader.minConfirmations }

/-- Timelocks under which both parties accept each other's lock, and time is left. -/
structure Workable (policy : TimelockPolicy) (now : U64) : Prop where
  documented : policy.Documented
  shorter : policy.makerLockSecs.toNat < policy.takerLockSecs.toNat
  gap : policy.minGap.toNat ≤ policy.makerLockSecs.toNat
  positive : 0 < policy.makerLockSecs.toNat
  fits : now.toNat + policy.takerLockSecs.toNat < 2 ^ 64

/-- The accounts with which a party works on the chains of the two orders. -/
structure Trader.Works (trader : Trader) (own counterparty : Deployment) (payee : Address) :
    Prop where
  ownSigner : own.Account trader.ownSigner
  counterpartySigner : counterparty.Account trader.counterpartySigner
  payee : own.Account payee
  settlement : ∀ config, trader.ownSettlementLock = some config →
    config.settlement = own.settlement

section Traders

variable {cr : Crypto} {D : Bool → Deployment} {orders : Bool → Order} {traders : Bool → Trader}
  {secret : Bytes32} {policy : TimelockPolicy} {now t : U64}

theorem Trader.executor_ctx {trader : Trader} {order cp : Order} {i : Bool}
    (hrole : assignRole cr order cp = cond i .maker .taker) :
    (trader.executor cr order cp secret policy now).ctx =
      deriveContext order cp (cond i .maker .taker) (some (cr.hashlockOf secret))
        (cond i none (some secret)) policy now := by
  unfold Trader.executor
  rw [hrole]
  cases i <;> rfl

/-- The sums of a policy that works do not saturate. -/
theorem Trader.executor_myTimelock {trader : Trader} {order cp : Order} {i : Bool}
    (hrole : assignRole cr order cp = cond i .maker .taker) (hpolicy : Workable policy now) :
    (trader.executor cr order cp secret policy now).ctx.myTimelock.toNat =
      now.toNat + (cond i policy.makerLockSecs policy.takerLockSecs).toNat := by
  have hfits := hpolicy.fits
  have hshorter := hpolicy.shorter
  rw [executor_ctx hrole]
  cases i with
  | false =>
    simp only [deriveContext, cond_false, saturatingAdd_toNat]
    omega
  | true =>
    simp only [deriveContext, cond_true, saturatingAdd_toNat]
    omega

/-- **Orders that match are agreed on.** -/
theorem agreement_of_compatible
    (hrole : ∀ i, assignRole cr (orders i) (orders !i) = cond i .maker .taker)
    (hamount : ∀ i, (orders i).sellAmount ≠ 0) (hpolicy : Workable policy now)
    (hworks : ∀ i, (traders i).Works (D i) (D !i) (orders !i).maker) :
    Agreement cr D (fun i => (orders i).sellChainId) secret
      (fun i => (traders i).executor cr (orders i) (orders !i) secret policy now) := by
  have hctx := fun i => @Trader.executor_ctx cr secret policy now (traders i) _ _ i (hrole i)
  have htimelock := fun i => @Trader.executor_myTimelock cr secret policy now (traders i) _ _ i
    (hrole i) hpolicy
  refine ⟨?_, ?_, ?_, ?_, fun i => ⟨rfl, ?_⟩, fun _ => rfl, fun _ => rfl, ?_, ?_, ?_, ?_, ?_, ?_,
    fun i => (hworks i).ownSigner, fun i => (hworks i).counterpartySigner, ?_,
    fun i => (hworks i).settlement⟩
  · exact fun i => by rw [hctx i]; rfl
  · intro i
    unfold Trader.executor
    rw [hrole i]
    cases i <;> rfl
  · exact fun i => by rw [hctx i]; rfl
  · rw [hctx false]
    rfl
  · rw [hctx i]
    rfl
  · exact fun i => by rw [hctx i, hctx !i]; rfl
  · exact fun i => by rw [hctx i, hctx !i]; rfl
  · exact fun i => by rw [hctx i, hctx !i, Bool.not_not]; rfl
  · exact fun i => by rw [hctx i]; exact hamount i
  · rw [htimelock true, htimelock false]
    exact Nat.add_lt_add_left hpolicy.shorter _
  · intro i
    have hdocumented : _ + _ ≤ _ := hpolicy.documented
    rw [htimelock true, htimelock false, hctx i]
    simp only [deriveContext, cond_true, cond_false]
    omega
  · exact fun i => by rw [hctx i]; exact (hworks i).payee

end Traders

/-! ## The whole way -/

/-- The order has been filled on a chain: a record has paid its maker, once, in
    the token it buys and at least what it asks for. -/
def Filled (D : Deployment) (o : Order) (s : State) : Prop :=
  ∃ id amount, o.buyAmount ≤ amount ∧
    s.books.paidFor id = [⟨id, D.htlc, ⟨o.buyToken, o.maker, amount.setWidth 256⟩⟩]

section Whole

variable {cr : Crypto} {k : K256} {history : List Arrival} {D : Bool → Deployment}
  {orders : Bool → Order} {traders : Bool → Trader} {secret : Bytes32} {policy : TimelockPolicy}
  {t : U64} {w w' : Net cr D}

/-- **A served match is filled.** Two orders that the book serves as a match, in
    the roles that both traders derive: if the traders swap honestly on the chains
    of the orders, under timelocks that work and among bystanders that keep to
    their policy, both orders are filled where they buy. -/
theorem served_match_is_filled (hstd : ∀ i, (D i).AllStandard)
    (hbook : ∀ i, orders i ∈ (ingested cr k history).orders)
    (hserved : ⟨digest cr (orders false), digest cr (orders true)⟩ ∈
      (ingested cr k history).matchesFor (orders false).maker t)
    (htaker : assignRole cr (orders false) (orders true) = .taker)
    (hchains : ∀ i, (D i).chainId = (orders i).sellChainId.setWidth 256)
    (hamount : ∀ i, (orders i).sellAmount ≠ 0)
    (hworks : ∀ i, (traders i).Works (D i) (D !i) (orders !i).maker)
    (hpolicy : Workable policy w.now) (hunused : w.Unused (cr.hashlockOf secret))
    (hexec : w.exec = fun i =>
      (traders i).executor cr (orders i) (orders !i) secret policy w.now)
    (hclimbs : Climbs (Net.Step secret w.exec) (Net.Push secret w.exec) w 4 w') (i : Bool) :
    (D !i).chainId = (orders i).buyChainId.setWidth 256 ∧
      Filled (D !i) (orders i) (w'.chains !i).state := by
  obtain ⟨hcompatible, hne⟩ := compatible_of_served (hbook false) (hbook true) hserved
  have hrole : ∀ i, assignRole cr (orders i) (orders !i) = cond i .maker .taker
    | false => htaker
    | true => assignRole_maker hne htaker
  have ha := @agreement_of_compatible cr D orders traders secret policy w.now hrole hamount hpolicy
    hworks
  have hctx := fun i => @Trader.executor_ctx cr secret policy w.now (traders i) _ _ i (hrole i)
  have htimelock := fun i => @Trader.executor_myTimelock cr secret policy w.now (traders i) _ _ i
    (hrole i) hpolicy
  rw [← hexec] at ha
  -- There is time until the maker's timelock less the gap.
  have htime : InTime w.exec w.now := by
    have hgap := hpolicy.gap
    have hpositive := hpolicy.positive
    rw [hexec, InTime, htimelock true, hctx false]
    simp only [deriveContext, cond_true]
    omega
  obtain ⟨m, hm, hw⟩ := (ladder hstd ha).climb (.opening hstd ha ⟨hunused, htime, rfl⟩) hclimbs
  have hpaid := (hw.completed hstd ha hm !i).paid
  have hbuys : ∀ i, (orders i).buyToken = (orders !i).sellToken ∧
      (orders i).buyChainId = (orders !i).sellChainId ∧ (orders i).buyAmount ≤ (orders !i).sellAmount
    | false => buys_of_compatible hcompatible
    | true => buys_of_compatible (Orderbook.compatible_comm .. ▸ hcompatible)
  obtain ⟨htoken, hchain, hamounts⟩ := hbuys i
  have hexecCtx : ∀ i, (w.exec i).ctx = deriveContext (orders i) (orders !i) (cond i .maker .taker)
      (some (cr.hashlockOf secret)) (cond i none (some secret)) policy w.now := by
    intro i
    rw [hexec]
    exact hctx i
  rw [Bool.not_not, hexecCtx !i, hexecCtx i, Bool.not_not] at hpaid
  refine ⟨by rw [hchain, hchains], (ownLeg cr (w.exec !i) (cr.hashlockOf secret)).id,
    (orders !i).sellAmount, hamounts, ?_⟩
  rw [htoken]
  exact hpaid

end Whole

namespace Sample
open HashedTimelock.Sample (preimage)
open Exchange.Sample (Signed maker rival)
open Orderbook (SubmitRequest)

def signed (i : Bool) : Signed := cond i makerOrder takerOrder

def orders : Bool → Order
  | false => ⟨rival, zeroAddress, 31337, 7, zeroAddress, 31338, 5, 5000, 1, 4⟩
  | true => ⟨maker, zeroAddress, 31338, 5, zeroAddress, 31337, 7, 5000, 1, 3⟩

def k256 : K256 where
  signature bs := some (bytesWord (bs.take 32), bytesWord (bs.drop 32))
  recover dig sig recid :=
    if dig = takerOrder.digest ∧ sig = (takerOrder.r, takerOrder.s) ∧ recid = 1 then some (key false)
    else if dig = makerOrder.digest ∧ sig = (makerOrder.r, makerOrder.s) ∧ recid = 1 then
      some (key true)
    else none

def requests : Bool → SubmitRequest
  | false =>
    { order :=
        { maker := "0x2b5ad5c4795c026514f8317c7a215e218dccd6cf"
          sellToken := "0x0000000000000000000000000000000000000000"
          sellChainId := 31337
          sellAmount := "7"
          buyToken := "0x0000000000000000000000000000000000000000"
          buyChainId := 31338
          buyAmount := "5"
          validUntil := 5000
          nonce := 1 }
      signature := "0x3e12119b6cd9105302f40c618ca5d256854e6d20365d26aab3e6b3c43f4565bd" ++
        "2cf32862b386f41b8b8faab0a3b663d073126565aa285aacca115072c3c1ff5c1c" }
  | true =>
    { order :=
        { maker := "0x7e5f4552091a69125d5dfcb7b8c2659029395bdf"
          sellToken := "0x0000000000000000000000000000000000000000"
          sellChainId := 31338
          sellAmount := "5"
          buyToken := "0x0000000000000000000000000000000000000000"
          buyChainId := 31337
          buyAmount := "7"
          validUntil := 5000
          nonce := 1 }
      signature := "0x6a8283958cf9377367159b42223adba46271136660f2b24f5d721b0c10ae8c51" ++
        "311d6e8ddb2d96854bab58044114237f004dafd4e673b015032f7fa4b291dfd51c" }

def history : List Arrival := [(requests true, 3), (requests false, 4)]

theorem digest_orders (i : Bool) : digest hashes (orders i) = (signed i).digest := by
  cases i <;> decide +kernel

theorem carries (i : Bool) : Carries hashes k256 (requests i, cond i 3 4) (orders i) := by
  refine ⟨by cases i <;> decide +kernel, (signed i).signature, by cases i <;> decide +kernel,
    verify_ok.mpr ⟨?_, ?_, ?_, ⟨((signed i).r, (signed i).s), key i, ?_, ?_, ?_⟩, ?_, ?_, rfl⟩⟩
  · cases i <;> decide
  · cases i <;> decide +kernel
  · cases i <;> decide
  · cases i <;> decide +kernel
  · rw [digest_orders]
    cases i <;> decide +kernel
  · cases i <;> decide +kernel
  · cases i <;> decide
  · cases i <;> decide

/-- Both orders are in the book. -/
theorem ingested_history :
    (ingested hashes k256 history).orders = [orders true, orders false] ∧
      (ingested hashes k256 history).hashes = [makerOrder.digest, takerOrder.digest] := by
  have hmaker : arrive hashes k256 Book.new (requests true, 3) =
      ⟨[orders true], [makerOrder.digest], [makerOrder.digest]⟩ := by
    have h := @arrive_of_carries hashes k256 Book.new (requests true, 3) _ (carries true) (by
      simp [Book.new])
    rw [digest_orders] at h
    exact h
  have htaker : arrive hashes k256 ⟨[orders true], [makerOrder.digest], [makerOrder.digest]⟩
      (requests false, 4) = ⟨[orders true, orders false], [makerOrder.digest, takerOrder.digest],
        [takerOrder.digest, makerOrder.digest]⟩ := by
    have hnew : digest hashes (orders false) ∉ [makerOrder.digest] := by
      rw [digest_orders]
      decide
    have h := @arrive_of_carries hashes k256
      ⟨[orders true], [makerOrder.digest], [makerOrder.digest]⟩ (requests false, 4) _
      (carries false) hnew
    rw [digest_orders] at h
    exact h
  have hingested : ingested hashes k256 history =
      arrive hashes k256 (arrive hashes k256 Book.new (requests true, 3)) (requests false, 4) := by
    rw [ingested, history, Runs.stateAfter, List.foldl_cons, List.foldl_cons, List.foldl_nil]
  rw [hingested, hmaker, htaker]
  exact ⟨rfl, rfl⟩

theorem served_as_match : ⟨digest hashes (orders false), digest hashes (orders true)⟩ ∈
    (ingested hashes k256 history).matchesFor rival 10 := by
  obtain ⟨horders, hhashes⟩ := ingested_history
  rw [digest_orders, digest_orders, Book.matchesFor_eq]
  simp only [Book.hashAt, horders, hhashes]
  decide +kernel

def policy : TimelockPolicy := ⟨1990, 990, 200⟩

def traders (i : Bool) : Trader where
  ownSigner := cond i maker rival
  counterpartySigner := cond i maker rival
  ownHtlc := Exchange.Sample.deployment.htlc
  counterpartyHtlc := Exchange.Sample.deployment.htlc
  ownSettlementLock := none
  minConfirmations := 1

/-- The digests decide the roles. -/
theorem roles (i : Bool) : assignRole hashes (orders i) (orders !i) = cond i .maker .taker := by
  unfold assignRole
  rw [digest_orders, digest_orders]
  cases i <;> decide

theorem parties_eq : parties = fun i =>
    (traders i).executor hashes (orders i) (orders !i) preimage policy 10 := by
  funext i
  unfold Trader.executor
  rw [roles]
  cases i <;> rfl

theorem workable : Workable policy 10 :=
  ⟨by unfold TimelockPolicy.Documented; decide, by decide, by decide, by decide, by decide⟩

theorem traders_work (i : Bool) :
    (traders i).Works (deployments i) (deployments !i) (orders !i).maker := by
  refine ⟨?_, ?_, ?_, ?_⟩
  · cases i <;> decide
  · cases i <;> decide
  · cases i <;> decide
  · intro config h
    cases h

end Sample

/-- Two orders of a second's difference, filled in four turns. -/
theorem served_match_is_filled_of_ether :
    ∃ w' : Net Sample.hashes Sample.deployments,
      Climbs (Net.Step HashedTimelock.Sample.preimage Sample.parties)
        (Net.Push HashedTimelock.Sample.preimage Sample.parties) Sample.opening 4 w' ∧
      ∀ i, Filled (Sample.deployments !i) (Sample.orders i) (w'.chains !i).state := by
  have hmem : ∀ i, Sample.orders i ∈
      (ingested Sample.hashes Sample.k256 Sample.history).orders := by
    intro i
    rw [Sample.ingested_history.1]
    cases i <;> decide
  refine ⟨Sample.fourth, Sample.climbs, fun i => (@served_match_is_filled Sample.hashes Sample.k256
    Sample.history Sample.deployments Sample.orders Sample.traders HashedTimelock.Sample.preimage
    Sample.policy 10 Sample.opening Sample.fourth Sample.deployments_allStandard hmem
    Sample.served_as_match (Sample.roles false) ?_ ?_ Sample.traders_work Sample.workable
    Sample.opens.toUnused Sample.parties_eq Sample.climbs i).2⟩
  · intro i
    cases i <;> rfl
  · intro i
    cases i <;> decide

end Kael.CrossChain
