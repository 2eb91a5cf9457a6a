import Kael.Contracts.LogHistory
import Kael.Maestro.Watcher

/-!
# A Tracker and the Events That Have Arrived

One tracker is fed the logs of several HTLCs. The invariant (`Tracks`) describes
it by the events that have arrived, in whatever order and however often. Its
step lemma (`Tracks.ingest`) takes an event that agrees with the records of its
chain and, for a settlement, whose lock has arrived.
-/

namespace Kael.Maestro

open HashedTimelock

universe u

variable {κ : Type u}

/-! ## Feeding -/

/-- Feed events to the tracker, each with the chain it comes from. -/
def feed (cr : Crypto) (chainIds : κ → U64) : SwapTracker → List (κ × Event) → Option SwapTracker
  | t, [] => some t
  | t, (i, e) :: rest =>
    match ingest cr (chainIds i) t (some e) with
    | some (t', _) => feed cr chainIds t' rest
    | none => none

/-- Polls one after the other, each of one chain. -/
def pollAll (cr : Crypto) (chainIds : κ → U64) :
    SwapTracker → List (κ × List Event) → Fallible String SwapTracker
  | t, [] => .ok t
  | t, (i, es) :: rest =>
    (pollIntoTracker cr (chainIds i) (.ok (es.map some)) t).bind fun r =>
      pollAll cr chainIds r.1 rest

/-- The events of the polls in the order of their arrival. -/
def arrivals (polls : List (κ × List Event)) : List (κ × Event) :=
  polls.flatMap fun p => p.2.map (p.1, ·)

section Feeding

variable {cr : Crypto} {chainIds : κ → U64} {t t' : SwapTracker}

theorem feed_append {xs ys : List (κ × Event)} :
    feed cr chainIds t (xs ++ ys) =
      (feed cr chainIds t xs).bind fun t₁ => feed cr chainIds t₁ ys := by
  induction xs generalizing t with
  | nil => rfl
  | cons x xs ih =>
    obtain ⟨i, e⟩ := x
    simp only [List.cons_append, feed]
    cases ingest cr (chainIds i) t (some e) with
    | none => rfl
    | some r => exact ih

/-- The loop of one poll feeds its events. -/
theorem ingestAll_eq_feed {i : κ} {es : List Event} {count : Nat} :
    (ingestAll cr (chainIds i) t count (es.map some)).map Prod.fst =
      feed cr chainIds t (es.map (i, ·)) := by
  induction es generalizing t count with
  | nil => rfl
  | cons e es ih =>
    simp only [List.map_cons, ingestAll, feed]
    cases ingest cr (chainIds i) t (some e) with
    | none => rfl
    | some r => exact ih

/-- How the events are cut into polls does not matter. -/
theorem pollAll_ok {polls : List (κ × List Event)} :
    pollAll cr chainIds t polls = .ok t' ↔ feed cr chainIds t (arrivals polls) = some t' := by
  induction polls generalizing t with
  | nil => simp [pollAll, arrivals, feed]
  | cons p polls ih =>
    obtain ⟨i, es⟩ := p
    have hsplit : arrivals ((i, es) :: polls) = es.map (i, ·) ++ arrivals polls := by
      simp [arrivals]
    rw [hsplit, feed_append, ← @ingestAll_eq_feed κ cr chainIds t i es 0]
    simp only [pollAll, pollIntoTracker]
    cases ingestAll cr (chainIds i) t 0 (es.map some) with
    | none => simp [Fallible.bind]
    | some r => exact ih

end Feeding

/-! ## What has arrived -/

/-- The event reveals a preimage for the record at `c`. -/
def redeems (c : Bytes32) : Event → Bool
  | .logRedeem id _ => id = c
  | _ => false

/-- The event reports the refund of the record at `c`. -/
def refunds (c : Bytes32) : Event → Bool
  | .logRefund id => id = c
  | _ => false

variable [DecidableEq κ]

/-- An event of chain `i` with the property has arrived. -/
def arrived (seen : List (κ × Event)) (i : κ) (p : Event → Bool) : Bool :=
  seen.any fun d => decide (d.1 = i) && p d.2

/-- The leg of a record, as far as its events have arrived. -/
def seenLeg (chainIds : κ → U64) (swaps : κ → Bytes32 → Swap) (seen : List (κ × Event)) (i : κ)
    (id : Bytes32) : Leg where
  chainId := chainIds i
  contractId := id
  hashlock := (swaps i id).hashlock
  timelock := (swaps i id).timelock.setWidth 64
  amount := (swaps i id).amount.setWidth 128
  redeemed := arrived seen i (redeems id)
  refunded := arrived seen i (refunds id)

/-- The tracker is what the events `seen` of the records `swaps` make of it. -/
structure Tracks (cr : Crypto) (chainIds : κ → U64) (swaps : κ → Bytes32 → Swap)
    (seen : List (κ × Event)) (t : SwapTracker) : Prop where
  distinct : t.Distinct
  legs : ∀ h l, l ∈ t.legsOf h ↔ ∃ i id, arrived seen i (Event.opens id) = true ∧
    (swaps i id).hashlock = h ∧ l = seenLeg chainIds swaps seen i id
  once : ∀ h, ((t.legsOf h).map fun l => (l.chainId, l.contractId)).Nodup
  filed : ∀ h, (t.get h).isSome = true → t.legsOf h ≠ []
  sound : ∀ h p, t.preimageFor h = some p →
    cr.hashlockOf p = h ∧ ∃ i id, (i, .logRedeem id p) ∈ seen
  revealed : ∀ i id p, (i, .logRedeem id p) ∈ seen →
    (t.preimageFor (cr.hashlockOf p)).isSome = true
  /-- A settlement arrives after its lock. -/
  order : ∀ i id, arrived seen i (Event.settles id) = true →
    arrived seen i (Event.opens id) = true

section Arrivals

variable {seen : List (κ × Event)} {i j : κ} {p : Event → Bool} {e : Event} {id c : Bytes32}

theorem arrived_iff : arrived seen i p = true ↔ ∃ e, (i, e) ∈ seen ∧ p e = true := by
  simp only [arrived, List.any_eq_true, Bool.and_eq_true, decide_eq_true_eq]
  constructor
  · rintro ⟨⟨k, e⟩, hmem, rfl, hp⟩
    exact ⟨e, hmem, hp⟩
  · rintro ⟨e, hmem, hp⟩
    exact ⟨(i, e), hmem, rfl, hp⟩

theorem arrived_append :
    arrived (seen ++ [(j, e)]) i p = (arrived seen i p || (decide (j = i) && p e)) := by
  simp [arrived]

/-- A settlement is a redeem or a refund. -/
theorem settles_eq : e.settles id = (redeems id e || refunds id e) := by
  cases e <;> simp [Event.settles, redeems, refunds]

theorem arrived_settles :
    arrived seen i (Event.settles id) =
      (arrived seen i (redeems id) || arrived seen i (refunds id)) := by
  induction seen with
  | nil => rfl
  | cons d seen ih =>
    have hcons : ∀ p : Event → Bool,
        arrived (d :: seen) i p = ((decide (d.1 = i) && p d.2) || arrived seen i p) := fun _ => rfl
    rw [hcons, hcons, hcons, ih, settles_eq]
    cases decide (d.1 = i) <;> cases redeems id d.2 <;> cases refunds id d.2 <;>
      cases arrived seen i (redeems id) <;> rfl

end Arrivals

/-! ## One event -/

section Steps

variable {cr : Crypto} {chainIds : κ → U64} {swaps : κ → Bytes32 → Swap}
  {seen : List (κ × Event)} {t t' : SwapTracker} {i : κ} {id : Bytes32}

theorem Tracks.new : Tracks cr chainIds swaps [] SwapTracker.new where
  distinct := List.nodup_nil
  legs h l := by
    simp [SwapTracker.legsOf, SwapTracker.get, SwapTracker.new, SwapState.default, arrived]
  once h := List.nodup_nil
  filed h hget := by cases hget
  sound h p hp := by cases hp
  revealed i id p hmem := absurd hmem List.not_mem_nil
  order i id h := by cases h

/-- A leg of the record `id` of chain `i` is under the record's hashlock. -/
theorem Tracks.leg_eq (ht : Tracks cr chainIds swaps seen t)
    (hchains : Function.Injective chainIds) {h : Bytes32} {l : Leg} (hl : l ∈ t.legsOf h)
    (hthis : l.is (chainIds i) id = true) :
    arrived seen i (Event.opens id) = true ∧ (swaps i id).hashlock = h := by
  obtain ⟨j, c, hopened, hhash, rfl⟩ := (ht.legs h l).mp hl
  obtain ⟨hchain, rfl⟩ := of_decide_eq_true hthis
  obtain rfl := hchains hchain
  exact ⟨hopened, hhash⟩

/-- The hashlock of a record whose lock has arrived is tracked. -/
theorem Tracks.tracked (ht : Tracks cr chainIds swaps seen t)
    (hopened : arrived seen i (Event.opens id) = true) :
    seenLeg chainIds swaps seen i id ∈ t.legsOf (swaps i id).hashlock ∧
      (t.get (swaps i id).hashlock).isSome = true := by
  have hmem := (ht.legs (swaps i id).hashlock _).mpr ⟨i, id, hopened, rfl, rfl⟩
  obtain ⟨s, hs, -⟩ := SwapTracker.mem_legsOf.mp hmem
  exact ⟨hmem, Option.isSome_iff_exists.mpr ⟨s, hs⟩⟩

/-- Marking under the record's hashlock is marking everywhere. -/
theorem Tracks.map_markAt (ht : Tracks cr chainIds swaps seen t)
    (hchains : Function.Injective chainIds) {mark : Leg → Leg} (h : Bytes32) :
    (if h = (swaps i id).hashlock then
      (t.legsOf (swaps i id).hashlock).map (markAt (chainIds i) id mark) else t.legsOf h) =
      (t.legsOf h).map (markAt (chainIds i) id mark) := by
  split_ifs with hh
  · rw [hh]
  · -- No other hashlock has a leg of this record.
    have hid : (t.legsOf h).map (markAt (chainIds i) id mark) = (t.legsOf h).map fun l => l := by
      apply List.map_congr_left
      intro l hl
      refine if_neg fun hthis => hh ?_
      exact (ht.leg_eq hchains hl hthis).2.symm
    rw [hid, List.map_id']

/-- An event about `id` changes the leg of `id` at most. -/
theorem seenLeg_append (hchains : Function.Injective chainIds) {e : Event} {mark : Leg → Leg}
    (hthis : seenLeg chainIds swaps (seen ++ [(i, e)]) i id =
      mark (seenLeg chainIds swaps seen i id))
    (hother : ∀ c, c ≠ id → redeems c e = false ∧ refunds c e = false) (j : κ) (c : Bytes32) :
    seenLeg chainIds swaps (seen ++ [(i, e)]) j c =
      markAt (chainIds i) id mark (seenLeg chainIds swaps seen j c) := by
  by_cases hleg : chainIds j = chainIds i ∧ c = id
  -- The leg of the event itself.
  · obtain ⟨hchain, rfl⟩ := hleg
    obtain rfl := hchains hchain
    rw [hthis]
    exact (if_pos (decide_eq_true ⟨rfl, rfl⟩)).symm
  -- Another leg, on this chain or on another one.
  · have hsame : seenLeg chainIds swaps (seen ++ [(i, e)]) j c =
        seenLeg chainIds swaps seen j c := by
      simp only [seenLeg, arrived_append]
      by_cases hj : i = j
      · subst hj
        have hc : c ≠ id := fun hc => hleg ⟨rfl, hc⟩
        rw [(hother c hc).1, (hother c hc).2, Bool.and_false, Bool.or_false, Bool.or_false]
      · rw [decide_eq_false hj, Bool.false_and, Bool.false_and, Bool.or_false, Bool.or_false]
    rw [hsame]
    exact (if_neg fun h => hleg (of_decide_eq_true h)).symm

/-- A settlement marks the leg of its record. -/
theorem Tracks.marked (ht : Tracks cr chainIds swaps seen t) {e : Event} {mark : Leg → Leg}
    (hkeys : t'.swaps.map Prod.fst = t.swaps.map Prod.fst)
    (hlegs : ∀ h, t'.legsOf h = (t.legsOf h).map (markAt (chainIds i) id mark))
    (hmark : ∀ j c, seenLeg chainIds swaps (seen ++ [(i, e)]) j c =
      markAt (chainIds i) id mark (seenLeg chainIds swaps seen j c))
    (hsame : ∀ l, (mark l).chainId = l.chainId ∧ (mark l).contractId = l.contractId)
    (hopens : ∀ c, e.opens c = false)
    (hsettles : ∀ c, e.settles c = true → arrived seen i (Event.opens c) = true)
    (hsound : ∀ h p, t'.preimageFor h = some p →
      cr.hashlockOf p = h ∧ ∃ j c, (j, .logRedeem c p) ∈ seen ++ [(i, e)])
    (hrevealed : ∀ j c p, (j, .logRedeem c p) ∈ seen ++ [(i, e)] →
      (t'.preimageFor (cr.hashlockOf p)).isSome = true) :
    Tracks cr chainIds swaps (seen ++ [(i, e)]) t' := by
  have hopened : ∀ j c, arrived (seen ++ [(i, e)]) j (Event.opens c) =
      arrived seen j (Event.opens c) := by
    intro j c
    rw [arrived_append, hopens, Bool.and_false, Bool.or_false]
  refine ⟨ht.distinct.of_keys hkeys, fun h l => ?_, fun h => ?_, fun h hget => ?_, hsound,
    hrevealed, fun j c hsettled => ?_⟩
  -- The same legs, each marked as its chain says.
  · rw [hlegs, List.mem_map]
    simp only [hopened, hmark]
    constructor
    · rintro ⟨l, hl, rfl⟩
      obtain ⟨j, c, hopen, hhash, rfl⟩ := (ht.legs h l).mp hl
      exact ⟨j, c, hopen, hhash, rfl⟩
    · rintro ⟨j, c, hopen, hhash, rfl⟩
      exact ⟨_, (ht.legs h _).mpr ⟨j, c, hopen, hhash, rfl⟩, rfl⟩
  -- Marks change no id, so no leg is filed twice.
  · have hkey : ((fun l : Leg => (l.chainId, l.contractId)) ∘ markAt (chainIds i) id mark) =
        fun l => (l.chainId, l.contractId) := by
      funext l
      simp only [Function.comp_apply, markAt]
      split_ifs
      · rw [(hsame l).1, (hsame l).2]
      · rfl
    rw [hlegs, List.map_map, hkey]
    exact ht.once h
  · rw [SwapTracker.get_isSome, hkeys, ← SwapTracker.get_isSome] at hget
    rw [hlegs, Ne, List.map_eq_nil_iff]
    exact ht.filed h hget
  -- What is settled by this event was opened before.
  · rw [hopened]
    rw [arrived_append, Bool.or_eq_true, Bool.and_eq_true, decide_eq_true_eq] at hsettled
    rcases hsettled with hold | ⟨rfl, hnew⟩
    · exact ht.order j c hold
    · exact hsettles c hnew

/-- The leg of a record is tracked exactly if its lock has arrived. -/
theorem Tracks.any_is (ht : Tracks cr chainIds swaps seen t)
    (hchains : Function.Injective chainIds) :
    (t.legsOf (swaps i id).hashlock).any (·.is (chainIds i) id) =
      arrived seen i (Event.opens id) := by
  rw [Bool.eq_iff_iff, List.any_eq_true]
  constructor
  · rintro ⟨l, hl, hthis⟩
    exact (ht.leg_eq hchains hl hthis).1
  · intro hopened
    exact ⟨_, (ht.tracked hopened).1, decide_eq_true ⟨rfl, rfl⟩⟩

/-- Before the lock has arrived no settlement has. -/
theorem Tracks.seenLeg_fresh (ht : Tracks cr chainIds swaps seen t)
    (hnew : arrived seen i (Event.opens id) = false) :
    seenLeg chainIds swaps seen i id = ⟨chainIds i, id, (swaps i id).hashlock,
      (swaps i id).timelock.setWidth 64, (swaps i id).amount.setWidth 128, false, false⟩ := by
  have hnone : arrived seen i (Event.settles id) = false := by
    rw [← Bool.not_eq_true]
    intro hsettled
    rw [ht.order i id hsettled] at hnew
    cases hnew
  rw [arrived_settles, Bool.or_eq_false_iff] at hnone
  simp only [seenLeg, hnone.1, hnone.2]

/-- A lock whose numbers are those of the record. -/
theorem Tracks.newSwap (ht : Tracks cr chainIds swaps seen t)
    (hchains : Function.Injective chainIds) {e : Event}
    (hopens : ∀ c, e.opens c = decide (id = c)) (hsettles : ∀ c, e.settles c = false) :
    Tracks cr chainIds swaps (seen ++ [(i, e)])
      (t.onNewSwap (chainIds i) id (swaps i id).hashlock ((swaps i id).timelock.setWidth 64)
        ((swaps i id).amount.setWidth 128)).1 := by
  have hredeems : ∀ c, redeems c e = false ∧ refunds c e = false := by
    intro c
    have hnone := hsettles c
    rw [settles_eq, Bool.or_eq_false_iff] at hnone
    exact hnone
  have hnotRedeem : ∀ j c p, (j, .logRedeem c p) ∈ seen ++ [(i, e)] → (j, .logRedeem c p) ∈ seen := by
    intro j c p hmem
    rcases List.mem_append.mp hmem with hold | hnew
    · exact hold
    · cases List.mem_singleton.mp hnew
      exact absurd (hsettles c) (by simp [Event.settles])
  have hseen : ∀ j c, seenLeg chainIds swaps (seen ++ [(i, e)]) j c =
      seenLeg chainIds swaps seen j c := by
    intro j c
    simp [seenLeg, arrived_append, hredeems c]
  have hopened : ∀ j c, arrived (seen ++ [(i, e)]) j (Event.opens c) = true ↔
      arrived seen j (Event.opens c) = true ∨ i = j ∧ id = c := by
    intro j c
    simp [arrived_append, hopens]
  -- Whether the leg is there already or not, it is there afterwards.
  have hlegs : ∀ h l, l ∈ (t.onNewSwap (chainIds i) id (swaps i id).hashlock
      ((swaps i id).timelock.setWidth 64) ((swaps i id).amount.setWidth 128)).1.legsOf h ↔
      l ∈ t.legsOf h ∨ h = (swaps i id).hashlock ∧ l = seenLeg chainIds swaps seen i id := by
    intro h l
    rw [SwapTracker.legsOf_onNewSwap, ht.any_is hchains]
    cases hhas : arrived seen i (Event.opens id) with
    | true =>
      rw [if_neg (by simp)]
      refine ⟨.inl, fun hor => hor.elim (fun hold => hold) fun hthis => ?_⟩
      rw [hthis.1, hthis.2]
      exact (ht.tracked hhas).1
    | false =>
      rw [ht.seenLeg_fresh hhas]
      by_cases hh : h = (swaps i id).hashlock
      · simp [hh]
      · simp [hh]
  refine ⟨ht.distinct.onNewSwap, fun h l => ?_, fun h => ?_, fun h hget => ?_, fun h p hp => ?_,
    fun j c p hmem => ?_, fun j c hsettled => ?_⟩
  · rw [hlegs, ht.legs]
    simp only [hopened, hseen]
    constructor
    · rintro (⟨j, c, hopen, hhash, hl⟩ | ⟨rfl, hl⟩)
      · exact ⟨j, c, .inl hopen, hhash, hl⟩
      · exact ⟨i, id, .inr ⟨rfl, rfl⟩, rfl, hl⟩
    · rintro ⟨j, c, hopen | ⟨rfl, rfl⟩, hhash, hl⟩
      · exact .inl ⟨j, c, hopen, hhash, hl⟩
      · exact .inr ⟨hhash.symm, hl⟩
  · rw [SwapTracker.legsOf_onNewSwap, ht.any_is hchains]
    split_ifs with hnew
    · rw [List.map_append]
      apply List.Nodup.append (ht.once _) (List.nodup_singleton _)
      rw [List.disjoint_singleton, List.mem_map]
      rintro ⟨l, hl, hkey⟩
      obtain ⟨hchain, hid⟩ := Prod.mk.inj hkey
      have hopen := (ht.leg_eq hchains hl (decide_eq_true ⟨hchain, hid⟩)).1
      rw [hnew.2] at hopen
      cases hopen
    · exact ht.once h
  · have hlegs' : ∃ l, l ∈ (t.onNewSwap (chainIds i) id (swaps i id).hashlock
        ((swaps i id).timelock.setWidth 64) ((swaps i id).amount.setWidth 128)).1.legsOf h := by
      simp only [hlegs]
      by_cases hh : h = (swaps i id).hashlock
      · exact ⟨_, .inr ⟨hh, rfl⟩⟩
      · have hget' : (t.get h).isSome = true := by
          rw [← hget]
          simp [SwapTracker.onNewSwap, SwapTracker.get, lookup_modifyEntry, hh]
        obtain ⟨l, hl⟩ := List.exists_mem_of_ne_nil _ (ht.filed h hget')
        exact ⟨l, .inl hl⟩
    exact List.ne_nil_of_mem hlegs'.choose_spec
  · rw [SwapTracker.preimageFor_onNewSwap] at hp
    obtain ⟨hhash, j, c, hmem⟩ := ht.sound h p hp
    exact ⟨hhash, j, c, List.mem_append_left _ hmem⟩
  · rw [SwapTracker.preimageFor_onNewSwap]
    exact ht.revealed j c p (hnotRedeem j c p hmem)
  · rw [arrived_append, hsettles, Bool.and_false, Bool.or_false] at hsettled
    exact (hopened j c).mpr (.inl (ht.order j c hsettled))

/-- A redeem of a record whose lock has arrived. -/
theorem Tracks.redeem (ht : Tracks cr chainIds swaps seen t)
    (hchains : Function.Injective chainIds) {p : Bytes32}
    (hhash : cr.hashlockOf p = (swaps i id).hashlock)
    (hopened : arrived seen i (Event.opens id) = true) :
    Tracks cr chainIds swaps (seen ++ [(i, .logRedeem id p)])
      (t.onRedeem cr (chainIds i) id p).1 := by
  obtain ⟨-, htracked⟩ := ht.tracked hopened
  rw [← hhash] at htracked
  have hr := SwapTracker.onRedeem_redeemed (chainIds i) id htracked
  have hmark : ∀ j c, seenLeg chainIds swaps (seen ++ [(i, .logRedeem id p)]) j c =
      markAt (chainIds i) id ({ · with redeemed := true }) (seenLeg chainIds swaps seen j c) := by
    apply seenLeg_append hchains
    · simp [seenLeg, arrived_append, redeems, refunds]
    · exact fun c hc => ⟨decide_eq_false (Ne.symm hc), rfl⟩
  refine ht.marked hr.keys (fun h => ?_) hmark (fun _ => ⟨rfl, rfl⟩) (fun _ => rfl)
    (fun c hc => ?_) (fun h q hq => ?_) fun j c q hmem => ?_
  · rw [hr.legsOf, hhash, ht.map_markAt hchains]
  · obtain rfl := of_decide_eq_true hc
    exact hopened
  -- A preimage is new, or was known.
  · rw [hr.preimageFor] at hq
    split_ifs at hq with hh
    · cases hq
      exact ⟨hh.symm, i, id, List.mem_append_right _ (List.mem_singleton.mpr rfl)⟩
    · obtain ⟨hqh, j, c, hmem⟩ := ht.sound h q hq
      exact ⟨hqh, j, c, List.mem_append_left _ hmem⟩
  -- Every revealed preimage of this hashlock is kept, the newest one last.
  · rw [hr.preimageFor]
    split_ifs with hh
    · rfl
    · rcases List.mem_append.mp hmem with hold | hnew
      · exact ht.revealed j c q hold
      · cases List.mem_singleton.mp hnew
        exact absurd rfl hh

/-- The search of a refund finds the record's hashlock. -/
theorem Tracks.hashlockOf_eq (ht : Tracks cr chainIds swaps seen t)
    (hchains : Function.Injective chainIds)
    (hopened : arrived seen i (Event.opens id) = true) :
    t.hashlockOf (chainIds i) id = some (swaps i id).hashlock := by
  have hspec := ht.distinct.hashlockOf_spec (chainIds i) id
  cases hfind : t.hashlockOf (chainIds i) id with
  | none =>
    rw [hfind] at hspec
    have hnone := hspec _ _ (ht.tracked hopened).1
    simp [seenLeg, Leg.is] at hnone
  | some k =>
    rw [hfind] at hspec
    obtain ⟨l, hl, hthis⟩ := hspec
    rw [(ht.leg_eq hchains hl hthis).2]

/-- A refund of a record whose lock has arrived. -/
theorem Tracks.refund (ht : Tracks cr chainIds swaps seen t)
    (hchains : Function.Injective chainIds)
    (hopened : arrived seen i (Event.opens id) = true) :
    Tracks cr chainIds swaps (seen ++ [(i, .logRefund id)])
      (t.onRefund (chainIds i) id (swaps i id).hashlock) := by
  have hmark : ∀ j c, seenLeg chainIds swaps (seen ++ [(i, .logRefund id)]) j c =
      markAt (chainIds i) id ({ · with refunded := true }) (seenLeg chainIds swaps seen j c) := by
    apply seenLeg_append hchains
    · simp [seenLeg, arrived_append, redeems, refunds]
    · exact fun c hc => ⟨rfl, decide_eq_false (Ne.symm hc)⟩
  refine ht.marked keys_modifyExisting (fun h => ?_) hmark (fun _ => ⟨rfl, rfl⟩)
    (fun _ => rfl) (fun c hc => ?_) (fun h q hq => ?_) fun j c q hmem => ?_
  · rw [SwapTracker.legsOf_onRefund, ht.map_markAt hchains]
  · obtain rfl := of_decide_eq_true hc
    exact hopened
  · rw [SwapTracker.preimageFor_onRefund] at hq
    obtain ⟨hqh, j, c, hmem⟩ := ht.sound h q hq
    exact ⟨hqh, j, c, List.mem_append_left _ hmem⟩
  · rw [SwapTracker.preimageFor_onRefund]
    rcases List.mem_append.mp hmem with hold | hnew
    · exact ht.revealed j c q hold
    · cases List.mem_singleton.mp hnew

/-- **Step rule.** An event that agrees with the records is ingested, if its lock
    has arrived before. -/
theorem Tracks.ingest (ht : Tracks cr chainIds swaps seen t)
    (hchains : Function.Injective chainIds) {e : Event} (hholds : e.Holds cr (swaps i))
    (hfits : EventFits e)
    (hlock : ∀ c, e.settles c = true → arrived seen i (Event.opens c) = true) :
    ∃ t', ingest cr (chainIds i) t (some e) = some (t', 1) ∧
      Tracks cr chainIds swaps (seen ++ [(i, e)]) t' := by
  cases e with
  | logNewSwap id sender recipient token amount hashlock timelock =>
    obtain ⟨-, hterms⟩ := hholds
    obtain ⟨rfl, rfl, rfl, rfl, rfl, rfl⟩ := Terms.mk.inj hterms
    have htimelock : narrow 64 (swaps i id).timelock = some ((swaps i id).timelock.setWidth 64) :=
      if_pos hfits.1
    have hamount : narrow 128 (swaps i id).amount = some ((swaps i id).amount.setWidth 128) :=
      if_pos hfits.2
    refine ⟨_, ?_, ht.newSwap hchains (fun _ => rfl) fun _ => rfl⟩
    simp only [Maestro.ingest, htimelock, hamount]
  | logRedeem id p =>
    obtain ⟨-, -, hhash⟩ := hholds
    exact ⟨_, rfl, ht.redeem hchains hhash (hlock id (decide_eq_true rfl))⟩
  | logRefund id =>
    have hopened := hlock id (decide_eq_true rfl)
    refine ⟨_, ?_, ht.refund hchains hopened⟩
    -- The hashlock of the refund is found through its lock, which came before.
    simp only [Maestro.ingest, ht.hashlockOf_eq hchains hopened]

end Steps

end Kael.Maestro
