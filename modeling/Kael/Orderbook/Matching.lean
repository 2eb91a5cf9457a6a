import Kael.Lib.Selection
import Kael.Orderbook.Eip712

/-!
# Matching

`matching.rs`: which orders cross, and the two loops that pick the best
counterpart of an order. Candidates are ranked by price, then by age, then by
nonce; both loops select the first best candidate of this ranking.
-/

namespace Kael.Orderbook

/-! ## Compatible orders -/

/-- Tokens and chains of the two orders mirror each other. -/
def mirrors (a b : Order) : Bool :=
  a.sellToken = b.buyToken ∧ a.sellChainId = b.buyChainId ∧ a.buyToken = b.sellToken ∧
    a.buyChainId = b.sellChainId

/-- Both receive at least what they asked for. -/
def crosses (a b : Order) : Bool := b.buyAmount ≤ a.sellAmount ∧ a.buyAmount ≤ b.sellAmount

def compatible (a b : Order) (now : U64) : Bool :=
  !a.isExpired now && !b.isExpired now && mirrors a b && crosses a b

/-- Larger `sellAmount` first, then older, then lower nonce. -/
def cmpMakersForTaker (a b : Order) : Ordering :=
  (compare b.sellAmount.toNat a.sellAmount.toNat).then
    ((compare a.createdAt.toNat b.createdAt.toNat).then (compare a.nonce.toNat b.nonce.toNat))

def betterForTaker (cand cur : Order) : Bool := cmpMakersForTaker cand cur = .lt

/-! ## The two loops -/

/-- `orders[i]`, for an index within bounds. -/
def orderAt (orders : List Order) (i : Nat) : Order := orders.getD i default

/-- One round of the loops: `i` replaces the best index so far if its order is
    better. -/
def keepBest (orders : List Order) (best : Option Nat) (i : Nat) (m : Order) : Option Nat :=
  match best with
  | none => some i
  | some b => if betterForTaker m (orderAt orders b) then some i else some b

/-- The index of the best of `makers` for `taker`. -/
def bestMatchFor (taker : Order) (makers : List Order) (now : U64) : Option Nat :=
  if taker.isExpired now then none
  else
    makers.zipIdx.foldl (fun best (m, i) =>
      if !compatible taker m now then best else keepBest makers best i m) none

/-- The best counterpart of the order at `i` among the other orders. -/
def bestCounterpart (orders : List Order) (i : Nat) (taker : Order) (now : U64) : Option Nat :=
  orders.zipIdx.foldl (fun best (maker, j) =>
    if i = j ∨ !compatible taker maker now then best else keepBest orders best j maker) none

/-- The first order that has a counterpart, and its best counterpart. -/
def findMatch (orders : List Order) (now : U64) : Option (Nat × Nat) :=
  orders.zipIdx.findSome? fun (taker, i) => (bestCounterpart orders i taker now).map (i, ·)

/-! ## Compatibility and rank -/

theorem compatible_comm (a b : Order) (now : U64) : compatible a b now = compatible b a now := by
  have hmirrors : mirrors a b = mirrors b a := by
    simp only [mirrors, decide_eq_decide]
    constructor
    · rintro ⟨h₁, h₂, h₃, h₄⟩
      exact ⟨h₃.symm, h₄.symm, h₁.symm, h₂.symm⟩
    · rintro ⟨h₁, h₂, h₃, h₄⟩
      exact ⟨h₃.symm, h₄.symm, h₁.symm, h₂.symm⟩
  have hcrosses : crosses a b = crosses b a := by
    simp only [crosses, decide_eq_decide]
    exact and_comm
  rw [compatible, compatible, hmirrors, hcrosses, Bool.and_comm (!a.isExpired now)]

/-- `a` ranks at least as high as `b`. -/
def ranks (a b : Order) : Bool := cmpMakersForTaker a b ≠ .gt

theorem ranks_iff {a b : Order} : ranks a b = true ↔
    b.sellAmount.toNat < a.sellAmount.toNat ∨
    b.sellAmount.toNat = a.sellAmount.toNat ∧
      (a.createdAt.toNat < b.createdAt.toNat ∨
        a.createdAt.toNat = b.createdAt.toNat ∧ a.nonce.toNat ≤ b.nonce.toNat) := by
  simp only [ranks, cmpMakersForTaker, ne_eq]
  rcases Nat.lt_trichotomy b.sellAmount.toNat a.sellAmount.toNat with hprice | hprice | hprice
  · simp [Nat.compare_eq_lt.mpr hprice, hprice]
  · rcases Nat.lt_trichotomy a.createdAt.toNat b.createdAt.toNat with hage | hage | hage
    · simp [hprice, Nat.compare_eq_lt.mpr hage, hage]
    · simp [hprice, hage, Nat.compare_ne_gt]
    · simp [hprice, Nat.compare_eq_gt.mpr hage]
      omega
  · simp [Nat.compare_eq_gt.mpr hprice]
    omega

theorem ranks_trans (a b c : Order) (hab : ranks a b = true) (hbc : ranks b c = true) :
    ranks a c = true := by
  rw [ranks_iff] at *
  omega

theorem ranks_total (a b : Order) : (ranks a b || ranks b a) = true := by
  rw [Bool.or_eq_true, ranks_iff, ranks_iff]
  omega

/-- Better is strictly higher rank. -/
theorem betterForTaker_eq (a b : Order) : betterForTaker a b = !ranks b a := by
  have hswap : cmpMakersForTaker b a = (cmpMakersForTaker a b).swap := by
    simp only [cmpMakersForTaker, Ordering.swap_then, Nat.compare_swap]
  rw [betterForTaker, ranks, hswap]
  cases cmpMakersForTaker a b <;> decide

/-! ## What the loops select -/

/-- Rank of indices. -/
def rankAt (orders : List Order) (i j : Nat) : Bool := ranks (orderAt orders i) (orderAt orders j)

/-- The counterparts of the order at `i`, best first; ties keep the order of
    submission. -/
def candidates (orders : List Order) (i : Nat) (taker : Order) (now : U64) : List Nat :=
  ((List.range orders.length).filter fun j =>
    j ≠ i && compatible taker (orderAt orders j) now).mergeSort (rankAt orders)

section Loops

variable {orders : List Order} {i j : Nat} {taker : Order} {now : U64}

theorem rankAt_trans (a b c : Nat) (hab : rankAt orders a b = true) (hbc : rankAt orders b c = true) :
    rankAt orders a c = true := ranks_trans _ _ _ hab hbc

theorem rankAt_total (a b : Nat) : (rankAt orders a b || rankAt orders b a) = true :=
  ranks_total _ _

theorem zipIdx_eq (orders : List Order) :
    orders.zipIdx = (List.range orders.length).map fun i => (orderAt orders i, i) := by
  apply List.ext_getElem
  · simp
  · intro i hi hi'
    have hlt : i < orders.length := by simpa using hi
    simp [orderAt, hlt]

/-- A loop that skips some orders selects among the others. -/
theorem foldl_keepBest (skip : Order → Nat → Bool) :
    orders.zipIdx.foldl (fun best (m, i) => if skip m i then best else keepBest orders best i m)
      none =
    Selection.select (rankAt orders)
      ((List.range orders.length).filter fun i => !skip (orderAt orders i) i) := by
  rw [zipIdx_eq, List.foldl_map, Selection.select, List.foldl_filter]
  congr 1
  funext best i
  -- One round of the loop keeps the better of two, the earlier one where they rank the same.
  have hround : keepBest orders best i (orderAt orders i) =
      Selection.better (rankAt orders) best i := by
    cases best with
    | none => rfl
    | some b =>
      simp only [keepBest, Selection.better, betterForTaker_eq, rankAt]
      by_cases hrank : ranks (orderAt orders b) (orderAt orders i) = true <;> simp [hrank]
  cases hskip : skip (orderAt orders i) i with
  | true => simp [hskip]
  | false => simp [hskip, hround]

theorem bestCounterpart_eq (orders : List Order) (i : Nat) (taker : Order) (now : U64) :
    bestCounterpart orders i taker now = (candidates orders i taker now).head? := by
  have hfold := @foldl_keepBest orders
    fun maker j => decide (i = j ∨ !compatible taker maker now)
  simp only [decide_eq_true_eq] at hfold
  rw [bestCounterpart, hfold, Selection.select_eq_head? rankAt_trans rankAt_total, candidates]
  congr 3
  funext j
  cases compatible taker (orderAt orders j) now <;> simp [eq_comm]

/-- Indices of a list without its element at `i`, as indices of the list. -/
def skipIndex (i k : Nat) : Nat := if k < i then k else k + 1

theorem range_filter_ne {n : Nat} (hi : i < n) :
    (List.range n).filter (fun j => j ≠ i) = (List.range (n - 1)).map (skipIndex i) := by
  induction n with
  | zero => omega
  | succ n ih =>
    rw [List.range_succ, List.filter_append, Nat.add_sub_cancel]
    -- The last index is the removed one or is kept, and moves down by one.
    rcases Nat.lt_or_ge i n with hlt | hge
    · obtain ⟨m, rfl⟩ := Nat.exists_eq_add_of_lt hlt
      rw [ih hlt, Nat.add_sub_cancel, List.range_succ, List.map_append]
      have hlast : skipIndex i (i + m) = i + m + 1 := by simp [skipIndex]
      have hne : i + m + 1 ≠ i := by omega
      simp [hlast, hne]
    · have heq : i = n := by omega
      subst heq
      have hall : (List.range i).filter (fun j => decide (j ≠ i)) = List.range i := by
        rw [List.filter_eq_self]
        intro j hj
        simpa using (List.mem_range.mp hj).ne
      have hmap : (List.range i).map (skipIndex i) = List.range i := by
        conv => rhs; rw [← List.map_id (List.range i)]
        apply List.map_congr_left
        intro j hj
        simp [skipIndex, List.mem_range.mp hj]
      rw [hall, hmap]
      simp

theorem orderAt_eraseIdx (k : Nat) :
    orderAt (orders.eraseIdx i) k = orderAt orders (skipIndex i k) := by
  unfold orderAt skipIndex
  rw [List.getD_eq_getElem?_getD, List.getD_eq_getElem?_getD, List.getElem?_eraseIdx]
  split_ifs <;> rfl

theorem bestMatchFor_eq (taker : Order) (makers : List Order) (now : U64) :
    bestMatchFor taker makers now =
      (((List.range makers.length).filter fun k =>
        compatible taker (orderAt makers k) now).mergeSort (rankAt makers)).head? := by
  have hfold := @foldl_keepBest makers fun m _ => !compatible taker m now
  rw [← Selection.select_eq_head? rankAt_trans rankAt_total, bestMatchFor]
  split_ifs with hexpired
  · -- An expired order is compatible with nothing.
    have hnone : ∀ m, compatible taker m now = false := by
      intro m
      simp [compatible, hexpired]
    simp [hnone, Selection.select]
  · simpa using hfold

/-- The best match among all other orders heads the candidates. -/
theorem bestMatchFor_eraseIdx (hi : i < orders.length) :
    (bestMatchFor taker (orders.eraseIdx i) now).map (skipIndex i) =
      (candidates orders i taker now).head? := by
  -- The candidates without the order itself are those of the book that lacks it.
  have hothers : (List.range orders.length).filter
      (fun j => j ≠ i && compatible taker (orderAt orders j) now) =
      ((List.range (orders.eraseIdx i).length).map (skipIndex i)).filter
        fun j => compatible taker (orderAt orders j) now := by
    rw [List.length_eraseIdx_of_lt hi, ← range_filter_ne hi, List.filter_filter]
    congr 1
    funext j
    rw [Bool.and_comm]
  rw [bestMatchFor_eq, ← List.head?_map, candidates, hothers, List.filter_map]
  congr 1
  -- Both sorts compare the same orders under two numberings.
  rw [List.map_mergeSort (s := rankAt orders)]
  · congr 3
    funext k
    rw [Function.comp_apply, orderAt_eraseIdx]
  · intro x _ y _
    rw [rankAt, rankAt, orderAt_eraseIdx, orderAt_eraseIdx]

theorem mem_candidates : j ∈ candidates orders i taker now ↔
    j < orders.length ∧ j ≠ i ∧ compatible taker (orderAt orders j) now = true := by
  simp [candidates]

theorem candidates_nodup : (candidates orders i taker now).Nodup :=
  (List.mergeSort_perm _ _).nodup_iff.mpr (List.nodup_range.filter _)

/-- The candidates are ranked, and ties are in the order of submission. -/
theorem candidates_pairwise : (candidates orders i taker now).Pairwise fun x y =>
    rankAt orders x y = true ∧ (rankAt orders y x = true → x < y) :=
  Selection.pairwise_mergeSort_stable rankAt_trans rankAt_total
    (List.pairwise_lt_range.filter _)

end Loops

end Kael.Orderbook
