import Kael.Orderbook.Book

/-!
# Is Matching Neutral?

Price, age and nonce rank the makers, but nonces are counted per maker and ages
in seconds, so two makers can tie. The loop keeps the first of tied orders, and
the stable sort keeps them as they came: matching does not depend on the order
of presentation exactly if nothing ties.
-/

namespace Kael.Orderbook

/-! ## What is presented and served -/

/-- The order that `bestMatchFor` selects. -/
def selected (taker : Order) (makers : List Order) (now : U64) : Option Order :=
  (bestMatchFor taker makers now).map (orderAt makers)

/-- The maker hashes served for the order with this hash, in their order. -/
def Book.servedFor (b : Book) (takerHash : Bytes32) (maker : Address) (now : U64) : List Bytes32 :=
  ((b.matchesFor maker now).filter fun p => p.takerHash = takerHash).map MatchPair.makerHash

/-- The book has these orders, submitted in some order, with their digests. -/
structure Book.Presents (cr : Crypto) (b : Book) (orders : List Order) : Prop where
  orders : b.orders.Perm orders
  hashes : b.hashes = b.orders.map (digest cr)

/-- Two different orders that the taker can match, with the same rank. -/
structure Tied (taker : Order) (makers : List Order) (now : U64) (x y : Order) : Prop where
  left : x ∈ makers ∧ compatible taker x now = true
  right : y ∈ makers ∧ compatible taker y now = true
  equal : cmpMakersForTaker x y = .eq
  differ : x ≠ y

/-- No order that the taker can match ranks higher. -/
def Unbeaten (taker : Order) (makers : List Order) (now : U64) (x : Order) : Prop :=
  ∀ m ∈ makers, compatible taker m now = true → cmpMakersForTaker m x ≠ .lt

/-! ## Ranks and ties -/

section Ranks

variable {a b : Order}

theorem cmp_eq_iff : cmpMakersForTaker a b = .eq ↔ ranks a b = true ∧ ranks b a = true := by
  have hswap : cmpMakersForTaker b a = (cmpMakersForTaker a b).swap := by
    simp only [cmpMakersForTaker, Ordering.swap_then, Nat.compare_swap]
  rw [ranks, ranks, hswap]
  cases cmpMakersForTaker a b <;> decide

theorem cmp_ne_lt_iff : cmpMakersForTaker b a ≠ .lt ↔ ranks a b = true := by
  have hbetter := betterForTaker_eq b a
  rw [betterForTaker] at hbetter
  cases hrank : ranks a b <;> simpa [hrank] using hbetter

end Ranks

theorem mem_iff_orderAt {orders : List Order} {m : Order} :
    m ∈ orders ↔ ∃ k < orders.length, orderAt orders k = m := by
  rw [List.mem_iff_getElem]
  constructor
  · rintro ⟨k, hk, rfl⟩
    exact ⟨k, hk, by simp [orderAt, hk]⟩
  · rintro ⟨k, hk, rfl⟩
    exact ⟨k, hk, by simp [orderAt, hk]⟩

/-! ## The selected order -/

section Selected

variable {taker : Order} {makers makers' : List Order} {now : U64} {m : Order} {k : Nat}

/-- **What is selected** is compatible and unbeaten, and the first such order. -/
theorem bestMatchFor_eq_some : bestMatchFor taker makers now = some k ↔
    (k < makers.length ∧ compatible taker (orderAt makers k) now = true) ∧
    ∀ j, j < makers.length ∧ compatible taker (orderAt makers j) now = true → j ≠ k →
      rankAt makers k j = true ∧ (rankAt makers j k = true → k < j) := by
  rw [bestMatchFor_eq, Selection.head?_eq_some_iff rankAt_trans rankAt_total
    (fun _ _ => Nat.lt_asymm) (List.pairwise_lt_range.filter _)]
  simp only [List.mem_filter, List.mem_range]

theorem selected_unbeaten (h : selected taker makers now = some m) :
    (m ∈ makers ∧ compatible taker m now = true) ∧ Unbeaten taker makers now m := by
  obtain ⟨k, hk, rfl⟩ := Option.map_eq_some_iff.mp h
  obtain ⟨⟨hlt, hcompatible⟩, hbest⟩ := bestMatchFor_eq_some.mp hk
  refine ⟨⟨mem_iff_orderAt.mpr ⟨k, hlt, rfl⟩, hcompatible⟩, ?_⟩
  intro m' hm' hcompatible'
  obtain ⟨j, hj, rfl⟩ := mem_iff_orderAt.mp hm'
  rw [cmp_ne_lt_iff]
  by_cases hjk : j = k
  · subst hjk
    simpa using ranks_total (orderAt makers j) (orderAt makers j)
  · exact (hbest j ⟨hj, hcompatible'⟩ hjk).1

theorem selected_isSome (hm : m ∈ makers) (hcompatible : compatible taker m now = true) :
    (selected taker makers now).isSome := by
  obtain ⟨k, hk, rfl⟩ := mem_iff_orderAt.mp hm
  rw [selected, Option.isSome_map, bestMatchFor_eq, List.isSome_head?]
  have hmem : k ∈ ((List.range makers.length).filter fun k =>
      compatible taker (orderAt makers k) now).mergeSort (rankAt makers) := by
    simp [hk, hcompatible]
  exact List.ne_nil_of_mem hmem

/-- An unbeaten order is selected if it is presented first. -/
theorem selected_head (hcompatible : compatible taker m now = true)
    (hbest : Unbeaten taker (m :: makers) now m) : selected taker (m :: makers) now = some m := by
  have hfirst : bestMatchFor taker (m :: makers) now = some 0 := by
    rw [bestMatchFor_eq_some]
    refine ⟨⟨Nat.succ_pos _, hcompatible⟩, ?_⟩
    rintro j ⟨hj, hcompatible'⟩ hne
    have hmem : orderAt (m :: makers) j ∈ m :: makers := mem_iff_orderAt.mpr ⟨j, hj, rfl⟩
    exact ⟨cmp_ne_lt_iff.mp (hbest _ hmem hcompatible'), fun _ => Nat.pos_of_ne_zero hne⟩
  rw [selected, hfirst]
  rfl

theorem Unbeaten.perm (h : Unbeaten taker makers now m) (hperm : makers.Perm makers') :
    Unbeaten taker makers' now m := fun m' hm' => h m' (hperm.mem_iff.mpr hm')

/-- **Selection is neutral exactly if the best orders do not tie.** -/
theorem selected_neutral_iff :
    (∀ makers', makers.Perm makers' → selected taker makers' now = selected taker makers now) ↔
      ∀ x y, Tied taker makers now x y → ¬Unbeaten taker makers now x := by
  constructor
  · intro hneutral x y htied hbest
    -- The tied orders are presented first, in either order.
    have hbest' : Unbeaten taker makers now y := by
      intro m hm hcompatible
      have hx := cmp_ne_lt_iff.mp (hbest m hm hcompatible)
      exact cmp_ne_lt_iff.mpr (ranks_trans _ _ _ (cmp_eq_iff.mp htied.equal).2 hx)
    have hx : selected taker makers now = some x := by
      have hperm := List.perm_cons_erase htied.left.1
      rw [← hneutral _ hperm]
      exact selected_head htied.left.2 (hbest.perm hperm)
    have hy : selected taker makers now = some y := by
      have hperm := List.perm_cons_erase htied.right.1
      rw [← hneutral _ hperm]
      exact selected_head htied.right.2 (hbest'.perm hperm)
    exact htied.differ (Option.some.inj (hx.symm.trans hy))
  · intro hnotie makers' hperm
    cases hsel : selected taker makers now with
    | none =>
      cases hsel' : selected taker makers' now with
      | none => rfl
      | some y =>
        obtain ⟨⟨hy, hcompatible⟩, -⟩ := selected_unbeaten hsel'
        have hsome := selected_isSome (hperm.mem_iff.mpr hy) hcompatible
        rw [hsel] at hsome
        cases hsome
    | some x =>
      obtain ⟨⟨hx, hxc⟩, hbest⟩ := selected_unbeaten hsel
      obtain ⟨y, hsel'⟩ := Option.isSome_iff_exists.mp
        (selected_isSome (hperm.mem_iff.mp hx) hxc)
      obtain ⟨⟨hy, hyc⟩, hbest'⟩ := selected_unbeaten hsel'
      rw [hsel', Option.some.injEq]
      by_contra hne
      have hequal : cmpMakersForTaker x y = .eq :=
        cmp_eq_iff.mpr ⟨cmp_ne_lt_iff.mp (hbest y (hperm.mem_iff.mpr hy) hyc),
          cmp_ne_lt_iff.mp (hbest' x (hperm.mem_iff.mp hx) hxc)⟩
      exact hnotie x y ⟨⟨hx, hxc⟩, ⟨hperm.mem_iff.mpr hy, hyc⟩, hequal, Ne.symm hne⟩ hbest

end Selected

/-! ## The ranked list -/

/-- Only one element contributes. -/
theorem flatMap_of_unique {α β : Type} {f : α → List β} {a : α} {l : List α} (hnodup : l.Nodup)
    (ha : a ∈ l) (hothers : ∀ x ∈ l, x ≠ a → f x = []) : l.flatMap f = f a := by
  obtain ⟨before, after, rfl⟩ := List.append_of_mem ha
  obtain ⟨hbefore, hafter⟩ : a ∉ before ∧ a ∉ after := by
    simp only [List.nodup_append, List.nodup_cons, List.mem_cons] at hnodup
    exact ⟨fun hmem => hnodup.2.2 a hmem a (.inl rfl) rfl, hnodup.2.1.1⟩
  have hnil : before.flatMap f = [] := by
    apply List.flatMap_eq_nil_iff.mpr
    intro x hx
    exact hothers x (by simp [hx]) fun hxa => hbefore (hxa ▸ hx)
  have hnil' : after.flatMap f = [] := by
    apply List.flatMap_eq_nil_iff.mpr
    intro x hx
    exact hothers x (by simp [hx]) fun hxa => hafter (hxa ▸ hx)
  rw [List.flatMap_append, List.flatMap_cons, hnil, hnil', List.nil_append, List.append_nil]

section Served

variable {cr : Crypto} {b b' : Book} {orders makers : List Order} {taker x y : Order} {now : U64}
  {i : Nat}

/-- The orders of the candidates, best first. -/
def ranked (orders : List Order) (i : Nat) (now : U64) : List Order :=
  (candidates orders i (orderAt orders i) now).map (orderAt orders)

theorem Book.Presents.hashAt (h : b.Presents cr orders) (hi : i < b.orders.length) :
    b.hashAt i = digest cr (orderAt b.orders i) := by
  simp [Book.hashAt, h.hashes, orderAt, hi]

theorem Book.Presents.hashAt_inj (h : b.Presents cr orders)
    (hnodup : (orders.map (digest cr)).Nodup) {j : Nat} (hi : i < b.orders.length)
    (hj : j < b.orders.length) (heq : b.hashAt i = b.hashAt j) : i = j := by
  apply Book.hashAt_inj _ _ hi hj heq
  · rw [h.hashes, List.length_map]
  · rw [h.hashes]
    exact (h.orders.map _).nodup_iff.mpr hnodup

/-- One index has the taker's hash, and its candidates are served. -/
theorem Book.Presents.servedFor_eq (h : b.Presents cr orders)
    (hnodup : (orders.map (digest cr)).Nodup) (hi : i < b.orders.length) :
    b.servedFor (digest cr (orderAt b.orders i)) (orderAt b.orders i).maker now =
      (ranked b.orders i now).map (digest cr) := by
  -- Only the pairs of `i` carry its digest as the taker's.
  have hserved : ∀ k < b.orders.length,
      ((((candidates b.orders k (orderAt b.orders k) now).map fun j =>
        (⟨b.hashAt k, b.hashAt j⟩ : MatchPair)).filter fun p =>
          p.takerHash = digest cr (orderAt b.orders i)).map MatchPair.makerHash) =
      if k = i then (ranked b.orders i now).map (digest cr) else [] := by
    intro k hk
    rw [← h.hashAt hi]
    split_ifs with hki
    · subst hki
      rw [List.filter_eq_self.mpr, List.map_map, ranked, List.map_map]
      · apply List.map_congr_left
        intro j hj
        exact h.hashAt (mem_candidates.mp hj).1
      · intro p hp
        obtain ⟨j, -, rfl⟩ := List.mem_map.mp hp
        exact decide_eq_true rfl
    · rw [List.filter_eq_nil_iff.mpr, List.map_nil]
      intro p hp
      obtain ⟨j, -, rfl⟩ := List.mem_map.mp hp
      simp only [decide_eq_true_eq]
      exact fun heq => hki (h.hashAt_inj hnodup hk hi heq)
  rw [Book.servedFor, Book.matchesFor_eq, List.filter_flatMap, List.map_flatMap,
    flatMap_of_unique (a := i)]
  · rw [hserved i hi, if_pos rfl]
  · exact List.nodup_range.filter _
  · simp [hi]
  · intro k hk hne
    rw [hserved k (by simpa using List.mem_of_mem_filter hk), if_neg hne]

theorem map_orderAt_range (orders : List Order) :
    (List.range orders.length).map (orderAt orders) = orders := by
  apply List.ext_getElem
  · simp
  · intro k hk hk'
    simp [orderAt, hk']

/-- The ranked orders are the taker's compatible counterparts. -/
theorem ranked_perm (h : orders.Perm (orderAt orders i :: makers)) (hi : i < orders.length) :
    (ranked orders i now).Perm (makers.filter fun m => compatible (orderAt orders i) m now) := by
  -- Which orders are compared with does not depend on their places.
  have hothers : (orders.eraseIdx i).Perm makers := by
    apply List.Perm.cons_inv (a := orderAt orders i)
    have hat : orderAt orders i = orders[i] := by simp [orderAt, hi]
    exact (hat ▸ List.getElem_cons_eraseIdx_perm hi).trans h
  have hindices : ((List.range orders.length).filter fun j => j ≠ i).map (orderAt orders) =
      orders.eraseIdx i := by
    rw [range_filter_ne hi, List.map_map]
    conv => rhs; rw [← map_orderAt_range (orders.eraseIdx i), List.length_eraseIdx_of_lt hi]
    apply List.map_congr_left
    intro k _
    exact (orderAt_eraseIdx k).symm
  have hcompatible : ((List.range orders.length).filter fun j =>
      j ≠ i && compatible (orderAt orders i) (orderAt orders j) now).map (orderAt orders) =
      (orders.eraseIdx i).filter fun m => compatible (orderAt orders i) m now := by
    rw [← hindices, List.filter_map, List.filter_filter]
    congr 2
    funext j
    exact Bool.and_comm _ _
  -- Sorting does not change what is offered, only in which order.
  rw [ranked, candidates]
  refine ((List.mergeSort_perm _ _).map _).trans ?_
  rw [hcompatible]
  exact hothers.filter _

/-- **Without ties the ranked list is determined** by the orders. -/
theorem ranked_unique {orders' : List Order} {j : Nat} (hi : i < orders.length)
    (hj : j < orders'.length) (htaker : orderAt orders i = taker) (htaker' : orderAt orders' j = taker)
    (h : orders.Perm (taker :: makers)) (h' : orders'.Perm (taker :: makers))
    (hnotie : ∀ x y, ¬Tied taker makers now x y) : ranked orders i now = ranked orders' j now := by
  subst htaker
  have hperm := @ranked_perm orders makers now i h hi
  have hperm' := @ranked_perm orders' makers now j (htaker' ▸ h') hj
  rw [htaker'] at hperm'
  have hsorted : ∀ {os : List Order} {k}, (ranked os k now).Pairwise fun a b => ranks a b = true :=
    List.pairwise_map.mpr (candidates_pairwise.imp fun hrank => hrank.1)
  apply List.Perm.eq_of_pairwise _ hsorted hsorted (hperm.trans hperm'.symm)
  intro a c ha hc hac hca
  by_contra hne
  have ha' := List.mem_filter.mp (hperm.mem_iff.mp ha)
  have hc' := List.mem_filter.mp (hperm'.mem_iff.mp hc)
  exact hnotie a c ⟨ha', hc', cmp_eq_iff.mpr ⟨hac, hca⟩, hne⟩

/-- Tied orders are served as they were submitted. -/
theorem Book.Presents.servedFor_tied (h : b.Presents cr orders)
    (hnodup : (orders.map (digest cr)).Nodup) (horders : b.orders = taker :: x :: y :: makers)
    (hx : compatible taker x now = true) (hy : compatible taker y now = true)
    (htie : cmpMakersForTaker x y = .eq) :
    (digest cr x ∈ b.servedFor (digest cr taker) taker.maker now ∧
      digest cr y ∈ b.servedFor (digest cr taker) taker.maker now) ∧
    (b.servedFor (digest cr taker) taker.maker now).Pairwise fun u v =>
      ¬(u = digest cr y ∧ v = digest cr x) := by
  have hlength : b.orders.length = makers.length + 3 := by rw [horders]; rfl
  have h0 : orderAt b.orders 0 = taker := by rw [horders]; rfl
  have h1 : orderAt b.orders 1 = x := by rw [horders]; rfl
  have h2 : orderAt b.orders 2 = y := by rw [horders]; rfl
  have hserved := @Book.Presents.servedFor_eq cr b orders now 0 h hnodup (by omega)
  rw [h0] at hserved
  have hmem1 : 1 ∈ candidates b.orders 0 (orderAt b.orders 0) now := by
    rw [mem_candidates, h0, h1]
    exact ⟨by omega, by omega, hx⟩
  have hmem2 : 2 ∈ candidates b.orders 0 (orderAt b.orders 0) now := by
    rw [mem_candidates, h0, h2]
    exact ⟨by omega, by omega, hy⟩
  rw [hserved, ranked]
  refine ⟨⟨?_, ?_⟩, ?_⟩
  · exact List.mem_map_of_mem (h1 ▸ List.mem_map_of_mem hmem1)
  · exact List.mem_map_of_mem (h2 ▸ List.mem_map_of_mem hmem2)
  · rw [List.pairwise_map, List.pairwise_map]
    apply candidates_pairwise.imp_of_mem
    rintro j k hj hk ⟨-, hstable⟩ ⟨hjy, hkx⟩
    -- The digests tell which orders these are.
    have hj2 : j = 2 := by
      have hjlt := (mem_candidates.mp hj).1
      apply h.hashAt_inj hnodup hjlt (by omega)
      rw [h.hashAt hjlt, h.hashAt (by omega), hjy, h2]
    have hk1 : k = 1 := by
      have hklt := (mem_candidates.mp hk).1
      apply h.hashAt_inj hnodup hklt (by omega)
      rw [h.hashAt hklt, h.hashAt (by omega), hkx, h1]
    subst hj2 hk1
    have hrank : rankAt b.orders 1 2 = true := by
      rw [rankAt, h1, h2]
      exact (cmp_eq_iff.mp htie).1
    exact absurd (hstable hrank) (by omega)

/-- **The served list is neutral exactly if nothing ties.** -/
theorem served_neutral_iff (hnodup : ((taker :: makers).map (digest cr)).Nodup) :
    (∀ b b' : Book, b.Presents cr (taker :: makers) → b'.Presents cr (taker :: makers) →
      b.servedFor (digest cr taker) taker.maker now =
        b'.servedFor (digest cr taker) taker.maker now) ↔
      ∀ x y, ¬Tied taker makers now x y := by
  constructor
  · intro hneutral x y htied
    obtain ⟨⟨hx, hxc⟩, ⟨hy, hyc⟩, hequal, hdiffer⟩ := htied
    have hy' : y ∈ makers.erase x := (List.mem_erase_of_ne hdiffer.symm).mpr hy
    have hperm : makers.Perm (x :: y :: (makers.erase x).erase y) :=
      (List.perm_cons_erase hx).trans ((List.perm_cons_erase hy').cons x)
    generalize (makers.erase x).erase y = rest at hperm
    -- Two books, with the tied orders in either order.
    let b : Book := ⟨taker :: x :: y :: rest, (taker :: x :: y :: rest).map (digest cr), []⟩
    let b' : Book := ⟨taker :: y :: x :: rest, (taker :: y :: x :: rest).map (digest cr), []⟩
    have hb : b.Presents cr (taker :: makers) := ⟨hperm.symm.cons taker, rfl⟩
    have hb' : b'.Presents cr (taker :: makers) :=
      ⟨((List.Perm.swap x y rest).trans hperm.symm).cons taker, rfl⟩
    obtain ⟨⟨hxmem, hymem⟩, hpairs⟩ := hb.servedFor_tied hnodup rfl hxc hyc hequal
    have hequal' : cmpMakersForTaker y x = .eq := cmp_eq_iff.mpr (cmp_eq_iff.mp hequal).symm
    obtain ⟨-, hpairs'⟩ := hb'.servedFor_tied hnodup rfl hyc hxc hequal'
    rw [← hneutral b b' hb hb'] at hpairs'
    have hne : digest cr x ≠ digest cr y := by
      intro heq
      exact hdiffer (List.inj_on_of_nodup_map hnodup (List.mem_cons_of_mem _ hx)
        (List.mem_cons_of_mem _ hy) heq)
    -- Neither of the two can come first.
    have hnone := List.Pairwise.forall_of_forall_of_flip
      (fun u _ hself => hne (hself.2.symm.trans hself.1)) hpairs
      (hpairs'.imp fun hnot hflip => hnot hflip.symm)
    exact hnone hymem hxmem ⟨rfl, rfl⟩
  · intro hnotie b b' hb hb'
    obtain ⟨i, hi, htaker⟩ := mem_iff_orderAt.mp
      (hb.orders.mem_iff.mpr (List.mem_cons_self (a := taker) (l := makers)))
    obtain ⟨j, hj, htaker'⟩ := mem_iff_orderAt.mp
      (hb'.orders.mem_iff.mpr (List.mem_cons_self (a := taker) (l := makers)))
    have hserved := @Book.Presents.servedFor_eq cr b _ now i hb hnodup hi
    have hserved' := @Book.Presents.servedFor_eq cr b' _ now j hb' hnodup hj
    rw [htaker] at hserved
    rw [htaker'] at hserved'
    rw [hserved, hserved', ranked_unique hi hj htaker htaker' hb.orders hb'.orders hnotie]

end Served

/-- **When matching is neutral** to the order of presentation: `bestMatchFor`
    selects the same order from every permutation of the makers exactly if its
    best candidates do not tie; and all books that present the taker's and the
    makers' orders serve the same ranked list exactly if no candidates tie. -/
theorem matching_neutral_iff (taker : Order) (makers : List Order) (now : U64) :
    ((∀ makers', makers.Perm makers' → selected taker makers' now = selected taker makers now) ↔
      ∀ x y, Tied taker makers now x y → ¬Unbeaten taker makers now x) ∧
    ∀ cr : Crypto, ((taker :: makers).Pairwise fun a b => ¬a.SameSigned b) →
      CollisionFree cr ((taker :: makers).flatMap (signedMessages cr)) →
      ((∀ b b' : Book, b.Presents cr (taker :: makers) → b'.Presents cr (taker :: makers) →
        b.servedFor (digest cr taker) taker.maker now =
          b'.servedFor (digest cr taker) taker.maker now) ↔
        ∀ x y, ¬Tied taker makers now x y) := by
  refine ⟨selected_neutral_iff, ?_⟩
  intro cr hdistinct hfree
  exact served_neutral_iff (digests_nodup hdistinct hfree)

namespace Sample

/-- The book of these orders. -/
def presenting (orders : List Order) : Book := ⟨orders, orders.map (digest crypto), []⟩

end Sample

/-- Two makers of different rank: the better one is selected and served first,
    in whichever order the two are presented. -/
theorem matching_neutral_with_two_makers :
    selected Sample.order [Sample.better, Sample.counter] 5 = some Sample.better ∧
    selected Sample.order [Sample.counter, Sample.better] 5 = some Sample.better ∧
    (Sample.presenting [Sample.order, Sample.better, Sample.counter]).servedFor Sample.orderDigest
      Sample.order.maker 5 =
    (Sample.presenting [Sample.counter, Sample.better, Sample.order]).servedFor Sample.orderDigest
      Sample.order.maker 5 := by
  have hdistinct : [Sample.order, Sample.better, Sample.counter].Pairwise
      fun a b => ¬a.SameSigned b := by
    simp [Order.SameSigned, Sample.order, Sample.better, Sample.counter]
  have hfree : CollisionFree Sample.crypto
      ([Sample.order, Sample.better, Sample.counter].flatMap (signedMessages Sample.crypto)) := by
    decide +kernel
  have hnotie : ∀ x y, ¬Tied Sample.order [Sample.better, Sample.counter] 5 x y := by
    rintro x y ⟨⟨hx, -⟩, ⟨hy, -⟩, hequal, hdiffer⟩
    simp only [List.mem_cons, List.not_mem_nil, or_false] at hx hy
    rcases hx with rfl | rfl <;> rcases hy with rfl | rfl
    · exact hdiffer rfl
    · revert hequal
      decide
    · revert hequal
      decide
    · exact hdiffer rfl
  obtain ⟨hselected, hserved⟩ :=
    matching_neutral_iff Sample.order [Sample.better, Sample.counter] 5
  have hbest : selected Sample.order [Sample.better, Sample.counter] 5 = some Sample.better := by
    decide
  refine ⟨hbest, ?_, ?_⟩
  · exact (hselected.mpr (fun x y htied _ => hnotie x y htied) _ (.swap _ _ _)).trans hbest
  · have hdigest : digest Sample.crypto Sample.order = Sample.orderDigest := by decide +kernel
    rw [← hdigest]
    refine (hserved Sample.crypto hdistinct hfree).mpr hnotie _ _ ⟨.refl _, rfl⟩ ⟨?_, rfl⟩
    exact (List.reverse_perm [Sample.order, Sample.better, Sample.counter])

/-- Two asks of one second, one amount and one nonce, by two makers: the first
    one presented is selected. -/
theorem tied_makers_selected_as_presented :
    ∃ makers makers' : List Order, makers.Perm makers' ∧
      (makers.Pairwise fun a b => ¬a.SameSigned b) ∧
      selected (Sample.bid 0xaa 100 1) makers 500 ≠
        selected (Sample.bid 0xaa 100 1) makers' 500 := by
  refine ⟨[Sample.ask 0xbb 200 2, Sample.ask 0xcc 200 2],
    [Sample.ask 0xcc 200 2, Sample.ask 0xbb 200 2], .swap _ _ _, ?_, by decide⟩
  simp [Order.SameSigned, Sample.ask]

end Kael.Orderbook
