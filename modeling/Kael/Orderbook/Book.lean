import Kael.Orderbook.Matching
import Mathlib.Logic.Relation

/-!
# The Order Book

`book.rs`: orders enter the book when their verifier accepts them and their
hash is new, and stay. The book serves the matches of a maker's orders; what it
serves agrees with the two loops of the matcher (`matching_paths_agree`).
-/

namespace Kael.Orderbook

inductive SubmitError where
  | verify (e : VerifyError)
  | duplicate
deriving DecidableEq

structure MatchPair where
  takerHash : Bytes32
  makerHash : Bytes32
deriving DecidableEq

/-- `SignatureVerifier::verify`. -/
abbrev Verifier := Order → List Byte → U64 → Except VerifyError Bytes32

structure Book where
  orders : List Order
  /-- The hash of each order, in the same places. -/
  hashes : List Bytes32
  seen : List Bytes32

def Book.new : Book := ⟨[], [], []⟩

def Book.submit (verifier : Verifier) (b : Book) (order : Order) (signature : List Byte)
    (now : U64) : Book × Except SubmitError Bytes32 :=
  match verifier order signature now with
  | .error e => (b, .error (.verify e))
  | .ok hash =>
    if hash ∈ b.seen then (b, .error .duplicate)
    else (⟨b.orders ++ [order], b.hashes ++ [hash], hash :: b.seen⟩, .ok hash)

/-- `hashes[i]`, for an index within bounds. -/
def Book.hashAt (b : Book) (i : Nat) : Bytes32 := b.hashes.getD i 0

def Book.matchesFor (b : Book) (maker : Address) (now : U64) : List MatchPair :=
  b.orders.zipIdx.flatMap fun (taker, i) =>
    if taker.maker ≠ maker then []
    else (candidates b.orders i taker now).map fun j => ⟨b.hashAt i, b.hashAt j⟩

/-! ## Reachable books -/

/-- What a sequence of submissions makes of the empty book. -/
def Book.Reachable (verifier : Verifier) : Book → Prop :=
  Relation.ReflTransGen
    (fun b b' => ∃ order signature now, b' = (b.submit verifier order signature now).1) Book.new

/-- Orders and hashes are parallel, and no hash comes twice. -/
structure Book.Ordered (b : Book) : Prop where
  length : b.hashes.length = b.orders.length
  nodup : b.hashes.Nodup
  seen : ∀ h ∈ b.hashes, h ∈ b.seen

section Books

variable {verifier : Verifier} {b : Book}

/-- Step rule. -/
theorem Book.Ordered.submit (hb : b.Ordered) (order : Order) (signature : List Byte) (now : U64) :
    (b.submit verifier order signature now).1.Ordered := by
  unfold Book.submit
  cases verifier order signature now with
  | error e => exact hb
  | ok hash =>
    dsimp only
    -- A digest that was seen before changes nothing.
    split_ifs with hseen
    · exact hb
    · refine ⟨by simp [hb.length], ?_, ?_⟩
      · rw [List.nodup_append]
        refine ⟨hb.nodup, List.nodup_singleton _, ?_⟩
        rintro h hmem h' hmem' rfl
        rw [List.mem_singleton.mp hmem'] at hmem
        exact hseen (hb.seen _ hmem)
      · intro h hmem
        rcases List.mem_append.mp hmem with hold | hnew
        · exact List.mem_cons_of_mem _ (hb.seen h hold)
        · exact List.mem_cons.mpr (.inl (List.mem_singleton.mp hnew))

/-- Run rule. -/
theorem Book.Reachable.ordered (h : Book.Reachable verifier b) : b.Ordered := by
  induction h with
  | refl => exact ⟨rfl, List.nodup_nil, nofun⟩
  | tail _ hstep ih =>
    obtain ⟨order, signature, now, rfl⟩ := hstep
    exact ih.submit order signature now

theorem Book.hashAt_inj (hlength : b.hashes.length = b.orders.length) (hnodup : b.hashes.Nodup)
    {i j : Nat} (hi : i < b.orders.length) (hj : j < b.orders.length)
    (h : b.hashAt i = b.hashAt j) : i = j := by
  have hi' : i < b.hashes.length := hlength ▸ hi
  have hj' : j < b.hashes.length := hlength ▸ hj
  apply (@List.Nodup.getElem_inj_iff _ _ hnodup i hi' j hj').mp
  simpa [Book.hashAt, hi', hj'] using h

theorem Book.Ordered.hashAt_inj (hb : b.Ordered) {i j : Nat} (hi : i < b.orders.length)
    (hj : j < b.orders.length) (h : b.hashAt i = b.hashAt j) : i = j :=
  Book.hashAt_inj hb.length hb.nodup hi hj h

end Books

/-! ## The three matching paths -/

section Matches

variable {b : Book} {now : U64}

/-- The maker's orders in order of submission, each with its candidates. -/
theorem Book.matchesFor_eq (b : Book) (maker : Address) (now : U64) :
    b.matchesFor maker now =
      ((List.range b.orders.length).filter fun i => (orderAt b.orders i).maker = maker).flatMap
        fun i => (candidates b.orders i (orderAt b.orders i) now).map fun j =>
          ⟨b.hashAt i, b.hashAt j⟩ := by
  rw [Book.matchesFor, zipIdx_eq, List.flatMap_map]
  generalize List.range b.orders.length = is
  induction is with
  | nil => rfl
  | cons i is ih =>
    rw [List.flatMap_cons, ih, List.filter_cons]
    by_cases hmaker : (orderAt b.orders i).maker = maker
    · simp [hmaker]
    · simp [hmaker]

/-- A pair is served to the maker of its first order if the two are compatible. -/
theorem Book.Ordered.mem_matchesFor (hb : b.Ordered) {x y : Nat} (hx : x < b.orders.length)
    (hy : y < b.orders.length) :
    ⟨b.hashAt x, b.hashAt y⟩ ∈ b.matchesFor (orderAt b.orders x).maker now ↔
      y ≠ x ∧ compatible (orderAt b.orders x) (orderAt b.orders y) now = true := by
  rw [Book.matchesFor_eq]
  simp only [List.mem_flatMap, List.mem_filter, List.mem_range, decide_eq_true_eq, List.mem_map,
    MatchPair.mk.injEq, mem_candidates]
  constructor
  · rintro ⟨i, ⟨hi, -⟩, j, ⟨hj, hne, hcompatible⟩, hix, hjy⟩
    obtain rfl := hb.hashAt_inj hi hx hix
    obtain rfl := hb.hashAt_inj hj hy hjy
    exact ⟨hne, hcompatible⟩
  · rintro ⟨hne, hcompatible⟩
    exact ⟨x, ⟨hx, rfl⟩, y, ⟨hy, hne, hcompatible⟩, rfl, rfl⟩

/-- The first index at which `f` finds something. -/
private theorem findSome?_range {α : Type} (f : Nat → Option α) (n : Nat) (a : α) :
    (List.range n).findSome? f = some a ↔ ∃ i < n, f i = some a ∧ ∀ i' < i, f i' = none := by
  induction n with
  | zero => simp
  | succ n ih =>
    rw [List.range_succ, List.findSome?_append]
    cases hfirst : (List.range n).findSome? f with
    | some a' =>
      rw [hfirst] at ih
      rw [Option.some_or, ih]
      constructor
      · rintro ⟨i, hi, hfound, hbefore⟩
        exact ⟨i, Nat.lt_succ_of_lt hi, hfound, hbefore⟩
      · rintro ⟨i, hi, hfound, hbefore⟩
        -- Something was found before `n`.
        obtain ⟨k, hk, hkfound⟩ := List.exists_of_findSome?_eq_some hfirst
        rcases Nat.lt_or_ge i n with hlt | hge
        · exact ⟨i, hlt, hfound, hbefore⟩
        · have hnone := hbefore k (lt_of_lt_of_le (List.mem_range.mp hk) hge)
          rw [hnone] at hkfound
          cases hkfound
    | none =>
      have hnone : ∀ k < n, f k = none := by
        intro k hk
        exact List.findSome?_eq_none_iff.mp hfirst k (List.mem_range.mpr hk)
      rw [Option.none_or, List.findSome?_singleton]
      constructor
      · intro hfound
        exact ⟨n, Nat.lt_succ_self n, hfound, hnone⟩
      · rintro ⟨i, hi, hfound, -⟩
        rcases Nat.lt_or_ge i n with hlt | hge
        · rw [hnone i hlt] at hfound
          cases hfound
        · have heq : i = n := by omega
          exact heq ▸ hfound

/-- What `findMatch` finds: the first order with candidates, and their head. -/
theorem findMatch_eq_some {orders : List Order} {i j : Nat} :
    findMatch orders now = some (i, j) ↔
      i < orders.length ∧ (candidates orders i (orderAt orders i) now).head? = some j ∧
      ∀ i' < i, candidates orders i' (orderAt orders i') now = [] := by
  rw [findMatch, zipIdx_eq, List.findSome?_map]
  simp only [Function.comp_def, bestCounterpart_eq]
  rw [findSome?_range]
  simp only [Option.map_eq_some_iff, Prod.mk.injEq, Option.map_eq_none_iff, List.head?_eq_none_iff]
  constructor
  · rintro ⟨k, hk, ⟨j', hhead, rfl, rfl⟩, hbefore⟩
    exact ⟨hk, hhead, hbefore⟩
  · rintro ⟨hi, hhead, hbefore⟩
    exact ⟨i, hi, ⟨j, hhead, rfl, rfl⟩, hbefore⟩

/-- The two halves of a compatible pair are candidates of each other. -/
theorem mem_candidates_comm {orders : List Order} {i j : Nat} (hi : i < orders.length)
    (h : j ∈ candidates orders i (orderAt orders i) now) :
    i ∈ candidates orders j (orderAt orders j) now := by
  obtain ⟨-, hne, hcompatible⟩ := mem_candidates.mp h
  rw [mem_candidates, compatible_comm]
  exact ⟨hi, hne.symm, hcompatible⟩

/-- `findMatch` finds something if there is a compatible pair. -/
theorem findMatch_isSome {orders : List Order} :
    (findMatch orders now).isSome ↔ ∃ i j, i < orders.length ∧ j < orders.length ∧ j ≠ i ∧
      compatible (orderAt orders i) (orderAt orders j) now = true := by
  constructor
  · intro hsome
    obtain ⟨⟨i, j⟩, hfound⟩ := Option.isSome_iff_exists.mp hsome
    obtain ⟨hi, hhead, -⟩ := findMatch_eq_some.mp hfound
    obtain ⟨hj, hne, hcompatible⟩ := mem_candidates.mp (List.mem_of_mem_head? hhead)
    exact ⟨i, j, hi, hj, hne, hcompatible⟩
  -- Were nothing found, the first candidate of `i` would be none, yet `j` is one.
  · rintro ⟨i, j, hi, hj, hne, hcompatible⟩
    by_contra hnone
    rw [Option.not_isSome_iff_eq_none, findMatch, zipIdx_eq, List.findSome?_map,
      List.findSome?_eq_none_iff] at hnone
    have hempty := hnone i (List.mem_range.mpr hi)
    simp only [Function.comp_apply, bestCounterpart_eq, Option.map_eq_none_iff,
      List.head?_eq_none_iff] at hempty
    have hmem : j ∈ candidates orders i (orderAt orders i) now :=
      mem_candidates.mpr ⟨hj, hne, hcompatible⟩
    rw [hempty] at hmem
    exact absurd hmem List.not_mem_nil

end Matches

/-- **The three matching paths agree.** In every reachable book the hashes tell
    the orders apart, and:

    1. a maker is served, for each of its orders in order of submission, the
       compatible other orders, each once, in the order of
       `cmpMakersForTaker` with ties in order of submission;
    2. the first of them is the one that `bestMatchFor` selects from all other
       orders;
    3. `findMatch` finds a pair if there is a compatible one, and then the first
       order that has candidates and the first of these, which comes later;
    4. a pair is served to the maker of its first order if its mirror image is
       served to the maker of the other. -/
theorem matching_paths_agree {verifier : Verifier} {b : Book} (hb : Book.Reachable verifier b)
    (now : U64) :
    (∀ i j, i < b.orders.length → j < b.orders.length → b.hashAt i = b.hashAt j → i = j) ∧
    (∀ maker, b.matchesFor maker now =
      ((List.range b.orders.length).filter fun i => (orderAt b.orders i).maker = maker).flatMap
        fun i => (candidates b.orders i (orderAt b.orders i) now).map fun j =>
          ⟨b.hashAt i, b.hashAt j⟩) ∧
    (∀ i < b.orders.length,
      (candidates b.orders i (orderAt b.orders i) now).Nodup ∧
      (∀ j, j ∈ candidates b.orders i (orderAt b.orders i) now ↔
        j < b.orders.length ∧ j ≠ i ∧
          compatible (orderAt b.orders i) (orderAt b.orders j) now = true) ∧
      ((candidates b.orders i (orderAt b.orders i) now).Pairwise fun x y =>
        cmpMakersForTaker (orderAt b.orders x) (orderAt b.orders y) ≠ .gt ∧
        (cmpMakersForTaker (orderAt b.orders x) (orderAt b.orders y) = .eq → x < y)) ∧
      (candidates b.orders i (orderAt b.orders i) now).head? =
        (bestMatchFor (orderAt b.orders i) (b.orders.eraseIdx i) now).map (skipIndex i)) ∧
    ((findMatch b.orders now).isSome ↔ ∃ i j, i < b.orders.length ∧ j < b.orders.length ∧ j ≠ i ∧
      compatible (orderAt b.orders i) (orderAt b.orders j) now = true) ∧
    (∀ i j, findMatch b.orders now = some (i, j) →
      i < j ∧ j < b.orders.length ∧
      (candidates b.orders i (orderAt b.orders i) now).head? = some j ∧
      ∀ i' < i, candidates b.orders i' (orderAt b.orders i') now = []) ∧
    ∀ x y, x < b.orders.length → y < b.orders.length →
      (⟨b.hashAt x, b.hashAt y⟩ ∈ b.matchesFor (orderAt b.orders x).maker now ↔
        ⟨b.hashAt y, b.hashAt x⟩ ∈ b.matchesFor (orderAt b.orders y).maker now) := by
  have hordered := hb.ordered
  refine ⟨?_, ?_, ?_, findMatch_isSome, ?_, ?_⟩
  · intro i j hi hj heq
    exact hordered.hashAt_inj hi hj heq
  · intro maker
    exact b.matchesFor_eq maker now
  · intro i hi
    refine ⟨candidates_nodup, fun j => mem_candidates, candidates_pairwise.imp ?_,
      (bestMatchFor_eraseIdx hi).symm⟩
    rintro x y ⟨hrank, hties⟩
    have hrank' : cmpMakersForTaker (orderAt b.orders x) (orderAt b.orders y) ≠ .gt := by
      simpa [rankAt, ranks] using hrank
    refine ⟨hrank', ?_⟩
    intro heq
    apply hties
    have hbetter := betterForTaker_eq (orderAt b.orders x) (orderAt b.orders y)
    rw [betterForTaker, heq] at hbetter
    simpa [rankAt] using hbetter.symm
  · intro i j hfound
    obtain ⟨hi, hhead, hbefore⟩ := findMatch_eq_some.mp hfound
    have hmem := List.mem_of_mem_head? hhead
    obtain ⟨hj, hne, -⟩ := mem_candidates.mp hmem
    refine ⟨?_, hj, hhead, hbefore⟩
    -- An earlier counterpart would have had candidates itself.
    by_contra hnot
    have hback := mem_candidates_comm hi hmem
    rw [hbefore j (by omega)] at hback
    exact absurd hback List.not_mem_nil
  · intro x y hx hy
    rw [hordered.mem_matchesFor hx hy, hordered.mem_matchesFor hy hx, compatible_comm]
    exact and_congr_left fun _ => ne_comm

/-! ### A book to compute in -/

namespace Sample

/-- A verifier that accepts everything and hashes by nonce. -/
def acceptAll : Verifier := fun o _ _ => .ok (o.nonce.setWidth 256)

def bid (maker : Address) (sellAmount : U128) (nonce : U64) : Order :=
  ⟨maker, 0x11, 1, sellAmount, 0x22, 10, 200, 1000, nonce, 1⟩

def ask (maker : Address) (sellAmount : U128) (nonce : U64) : Order :=
  ⟨maker, 0x22, 10, sellAmount, 0x11, 1, 100, 1000, nonce, 1⟩

/-- A bid, an ask and a better ask. -/
def book : Book :=
  ([bid 0xaa 100 1, ask 0xbb 200 2, ask 0xcc 300 3].foldl
    (fun b order => (b.submit acceptAll order [] 500).1) Book.new)

theorem book_reachable : Book.Reachable acceptAll book :=
  ((Relation.ReflTransGen.refl.tail ⟨_, _, _, rfl⟩).tail ⟨_, _, _, rfl⟩).tail ⟨_, _, _, rfl⟩

end Sample

/-- The better ask comes first for the bid, and is the match that is found. -/
theorem matching_paths_agree_on_three_orders :
    (bestMatchFor (Sample.bid 0xaa 100 1) [Sample.ask 0xbb 200 2, Sample.ask 0xcc 300 3] 500).map
        (skipIndex 0) = some 2 ∧
    ⟨2, 1⟩ ∈ Sample.book.matchesFor 0xbb 500 := by
  obtain ⟨-, -, hcandidates, -, hfound, hmirror⟩ := matching_paths_agree Sample.book_reachable 500
  have hmatch := hfound 0 2 (by decide +kernel)
  constructor
  · exact (hcandidates 0 (by decide)).2.2.2.symm.trans hmatch.2.2.1
  · have hcompatible : compatible (orderAt Sample.book.orders 0) (orderAt Sample.book.orders 1)
      500 = true := by decide
    have hserved := (Sample.book_reachable.ordered.mem_matchesFor (x := 0) (y := 1)
      (by decide) (by decide)).mpr ⟨by decide, hcompatible⟩
    exact (hmirror 0 1 (by decide) (by decide)).mp hserved

end Kael.Orderbook
