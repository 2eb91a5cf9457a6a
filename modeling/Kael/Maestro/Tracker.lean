import Kael.Contracts.Evm

/-!
# The Swap Tracker

`correlate.rs`: the locks that were seen, under their hashlocks, and the
preimages that were revealed. The hash map is a list of its entries, oldest
first.
-/

namespace Kael.Maestro

/-! ## Entries -/

inductive LegKind where
  /-- First observed leg for a given hashlock. -/
  | first
  | second
deriving DecidableEq

/-- HTLC lock observed on one chain. -/
structure Leg where
  chainId : U64
  contractId : Bytes32
  hashlock : Bytes32
  timelock : U64
  amount : U128
  redeemed : Bool
  refunded : Bool
deriving DecidableEq

/-- The leg of `contractId` on `chainId`. -/
def Leg.is (l : Leg) (chainId : U64) (contractId : Bytes32) : Bool :=
  l.chainId = chainId ∧ l.contractId = contractId

/-- The observed legs of one hashlock and its revealed preimage. -/
structure SwapState where
  legs : List Leg
  preimage : Option Bytes32
deriving DecidableEq

def SwapState.default : SwapState := ⟨[], none⟩

structure SwapTracker where
  swaps : List (Bytes32 × SwapState)
deriving DecidableEq

def SwapTracker.new : SwapTracker := ⟨[]⟩

/-! ## Updates -/

/-- `entry(h).or_default()`, changed by `f`. -/
def modifyEntry (h : Bytes32) (f : SwapState → SwapState) :
    List (Bytes32 × SwapState) → List (Bytes32 × SwapState)
  | [] => [(h, f .default)]
  | (k, s) :: rest => if k = h then (k, f s) :: rest else (k, s) :: modifyEntry h f rest

/-- `get_mut(h)`, changed by `f` if there is an entry. -/
def modifyExisting (h : Bytes32) (f : SwapState → SwapState) :
    List (Bytes32 × SwapState) → List (Bytes32 × SwapState)
  | [] => []
  | (k, s) :: rest => if k = h then (k, f s) :: rest else (k, s) :: modifyExisting h f rest

def SwapTracker.get (t : SwapTracker) (hashlock : Bytes32) : Option SwapState :=
  t.swaps.lookup hashlock

/-- The swap with one more leg, unless it has that leg. -/
def SwapState.addLeg (s : SwapState) (l : Leg) : SwapState :=
  if s.legs.any fun l' => l'.is l.chainId l.contractId then s
  else { s with legs := s.legs ++ [l] }

def SwapTracker.onNewSwap (t : SwapTracker) (chainId : U64) (contractId hashlock : Bytes32)
    (timelock : U64) (amount : U128) : SwapTracker × LegKind :=
  let kind := if ((t.get hashlock).getD .default).legs.isEmpty then .first else .second
  (⟨modifyEntry hashlock
      (·.addLeg ⟨chainId, contractId, hashlock, timelock, amount, false, false⟩) t.swaps⟩, kind)

/-- Mark the leg of `contractId` on `chainId`. -/
def SwapState.markLeg (s : SwapState) (chainId : U64) (contractId : Bytes32) (mark : Leg → Leg) :
    SwapState :=
  { s with legs := s.legs.map fun l => if l.is chainId contractId then mark l else l }

def SwapTracker.onRedeem (cr : Crypto) (t : SwapTracker) (chainId : U64)
    (contractId preimage : Bytes32) : SwapTracker × Option Bytes32 :=
  let hashlock := cr.hashlockOf preimage
  match t.get hashlock with
  | none => (t, none)
  | some _ =>
    (⟨modifyExisting hashlock (fun s =>
        { s with preimage := some preimage }.markLeg chainId contractId
          ({ · with redeemed := true })) t.swaps⟩, some hashlock)

def SwapTracker.onRefund (t : SwapTracker) (chainId : U64) (contractId hashlock : Bytes32) :
    SwapTracker :=
  ⟨modifyExisting hashlock (·.markLeg chainId contractId ({ · with refunded := true })) t.swaps⟩

/-- The hashlock under which a leg is filed. -/
def SwapTracker.hashlockOf (t : SwapTracker) (chainId : U64) (contractId : Bytes32) :
    Option Bytes32 :=
  (t.swaps.find? fun e => e.2.legs.any (·.is chainId contractId)).map Prod.fst

def SwapTracker.preimageFor (t : SwapTracker) (hashlock : Bytes32) : Option Bytes32 :=
  (t.get hashlock).bind SwapState.preimage

/-- The legs that can be refunded, with their hashlocks. -/
def SwapTracker.timedOut (t : SwapTracker) (now : U64) : List (Bytes32 × U64 × Bytes32) :=
  t.swaps.flatMap fun e =>
    (e.2.legs.filter fun l => l.timelock ≤ now ∧ l.redeemed = false ∧ l.refunded = false).map
      fun l => (e.1, l.chainId, l.contractId)

/-! ## Reading an updated tracker -/

section Reading

variable {t : SwapTracker} {h k : Bytes32}

theorem lookup_modifyEntry {f : SwapState → SwapState} {l : List (Bytes32 × SwapState)} :
    (modifyEntry h f l).lookup k =
      if k = h then some (f ((l.lookup h).getD .default)) else l.lookup k := by
  induction l with
  | nil => by_cases hk : k = h <;> simp [modifyEntry, List.lookup_cons, hk, beq_eq_decide]
  | cons e rest ih =>
    -- The entry at hand is the one that is modified, the one that is looked up, both or neither.
    obtain ⟨k', s⟩ := e
    by_cases hkey : k' = h
    · subst hkey
      by_cases hk : k = k'
      · simp [modifyEntry, hk]
      · simp [modifyEntry, List.lookup_cons, hk, beq_false_of_ne hk]
    · simp only [modifyEntry, if_neg hkey, List.lookup_cons, ih]
      by_cases hk : k = k'
      · subst hk
        simp [hkey]
      · simp [beq_false_of_ne hk, beq_false_of_ne (Ne.symm hkey)]

theorem lookup_modifyExisting {f : SwapState → SwapState} {l : List (Bytes32 × SwapState)} :
    (modifyExisting h f l).lookup k =
      if k = h then (l.lookup h).map f else l.lookup k := by
  induction l with
  | nil => simp [modifyExisting]
  | cons e rest ih =>
    obtain ⟨k', s⟩ := e
    by_cases hkey : k' = h
    · subst hkey
      by_cases hk : k = k'
      · simp [modifyExisting, hk]
      · simp [modifyExisting, List.lookup_cons, hk, beq_false_of_ne hk]
    · simp only [modifyExisting, if_neg hkey, List.lookup_cons, ih]
      by_cases hk : k = k'
      · subst hk
        simp [hkey]
      · simp [beq_false_of_ne hk, beq_false_of_ne (Ne.symm hkey)]

theorem keys_modifyExisting {f : SwapState → SwapState} {l : List (Bytes32 × SwapState)} :
    (modifyExisting h f l).map Prod.fst = l.map Prod.fst := by
  induction l with
  | nil => rfl
  | cons e rest ih =>
    obtain ⟨k', s⟩ := e
    by_cases hkey : k' = h <;> simp [modifyExisting, hkey, ih]

theorem keys_modifyEntry {f : SwapState → SwapState} {l : List (Bytes32 × SwapState)} :
    (modifyEntry h f l).map Prod.fst =
      if h ∈ l.map Prod.fst then l.map Prod.fst else l.map Prod.fst ++ [h] := by
  induction l with
  | nil => rfl
  | cons e rest ih =>
    obtain ⟨k', s⟩ := e
    by_cases hkey : k' = h
    · simp [modifyEntry, hkey]
    · simp only [modifyEntry, if_neg hkey, List.map_cons, ih, List.mem_cons, Ne.symm hkey,
        false_or]
      split_ifs <;> rfl

/-- The legs filed under a hashlock. -/
def SwapTracker.legsOf (t : SwapTracker) (hashlock : Bytes32) : List Leg :=
  ((t.get hashlock).getD .default).legs

/-- The legs with the leg of `contractId` on `chainId` marked. -/
def markAt (chainId : U64) (contractId : Bytes32) (mark : Leg → Leg) (l : Leg) : Leg :=
  if l.is chainId contractId then mark l else l

theorem SwapState.addLeg_legs (s : SwapState) (l : Leg) :
    (s.addLeg l).legs =
      if s.legs.any (·.is l.chainId l.contractId) = false then s.legs ++ [l] else s.legs := by
  unfold SwapState.addLeg
  split_ifs with hhas hnot hnot
  · simp [hhas] at hnot
  · rfl
  · rfl
  · simp [hnot] at hhas

theorem SwapTracker.legsOf_onNewSwap {chainId : U64} {contractId : Bytes32} {timelock : U64}
    {amount : U128} :
    (t.onNewSwap chainId contractId h timelock amount).1.legsOf k =
      if k = h ∧ (t.legsOf h).any (·.is chainId contractId) = false then
        t.legsOf h ++ [⟨chainId, contractId, h, timelock, amount, false, false⟩]
      else t.legsOf k := by
  simp only [SwapTracker.onNewSwap, SwapTracker.legsOf, SwapTracker.get, lookup_modifyEntry]
  by_cases hk : k = h
  · subst hk
    simp only [if_pos, Option.getD_some, SwapState.addLeg_legs, true_and]
  · simp [hk]

theorem SwapTracker.legsOf_modifyExisting {f : SwapState → SwapState} {mark : Leg → Leg}
    (hf : ∀ s, (f s).legs = s.legs.map mark) :
    (⟨modifyExisting h f t.swaps⟩ : SwapTracker).legsOf k =
      if k = h then (t.legsOf h).map mark else t.legsOf k := by
  simp only [SwapTracker.legsOf, SwapTracker.get, lookup_modifyExisting]
  by_cases hk : k = h
  · subst hk
    cases t.swaps.lookup k <;> simp [hf, SwapState.default]
  · simp [hk]

theorem SwapTracker.legsOf_onRefund {chainId : U64} {contractId : Bytes32} :
    (t.onRefund chainId contractId h).legsOf k =
      if k = h then (t.legsOf h).map (markAt chainId contractId ({ · with refunded := true }))
      else t.legsOf k :=
  SwapTracker.legsOf_modifyExisting fun _ => rfl

theorem SwapTracker.preimageFor_onNewSwap {chainId : U64} {contractId : Bytes32} {timelock : U64}
    {amount : U128} :
    (t.onNewSwap chainId contractId h timelock amount).1.preimageFor k = t.preimageFor k := by
  have hkeeps : ∀ (s : SwapState) l, (s.addLeg l).preimage = s.preimage := by
    intro s l
    unfold SwapState.addLeg
    split_ifs <;> rfl
  simp only [SwapTracker.onNewSwap, SwapTracker.preimageFor, SwapTracker.get, lookup_modifyEntry]
  by_cases hk : k = h
  · subst hk
    cases t.swaps.lookup k <;> simp [hkeeps, SwapState.default]
  · simp [hk]

theorem SwapTracker.preimageFor_onRefund {chainId : U64} {contractId : Bytes32} :
    (t.onRefund chainId contractId h).preimageFor k = t.preimageFor k := by
  simp only [SwapTracker.onRefund, SwapTracker.preimageFor, SwapTracker.get,
    lookup_modifyExisting]
  by_cases hk : k = h
  · subst hk
    cases t.swaps.lookup k <;> simp [SwapState.markLeg]
  · simp [hk]

/-- What a redeem of a tracked hashlock does. -/
structure SwapTracker.Redeemed (t t' : SwapTracker) (chainId : U64) (contractId h p : Bytes32) :
    Prop where
  legsOf : ∀ k, t'.legsOf k =
    if k = h then (t.legsOf h).map (markAt chainId contractId ({ · with redeemed := true }))
    else t.legsOf k
  preimageFor : ∀ k, t'.preimageFor k = if k = h then some p else t.preimageFor k
  keys : t'.swaps.map Prod.fst = t.swaps.map Prod.fst

theorem SwapTracker.onRedeem_redeemed {cr : Crypto} (chainId : U64) (contractId : Bytes32)
    {p : Bytes32} (htracked : (t.get (cr.hashlockOf p)).isSome = true) :
    t.Redeemed (t.onRedeem cr chainId contractId p).1 chainId contractId (cr.hashlockOf p) p := by
  obtain ⟨s, hs⟩ := Option.isSome_iff_exists.mp htracked
  have heq : (t.onRedeem cr chainId contractId p).1 = ⟨modifyExisting (cr.hashlockOf p)
      (fun s => { s with preimage := some p }.markLeg chainId contractId
        ({ · with redeemed := true })) t.swaps⟩ := by
    simp only [SwapTracker.onRedeem, hs]
  rw [heq]
  refine ⟨fun k => SwapTracker.legsOf_modifyExisting fun _ => rfl, fun k => ?_,
    keys_modifyExisting⟩
  simp only [SwapTracker.preimageFor, SwapTracker.get, lookup_modifyExisting]
  by_cases hk : k = cr.hashlockOf p
  · subst hk
    rw [if_pos rfl, if_pos rfl, show t.swaps.lookup (cr.hashlockOf p) = some s from hs]
    rfl
  · rw [if_neg hk, if_neg hk]

/-! ## The entries of a tracker -/

/-- A hash map has one entry for each key. -/
def SwapTracker.Distinct (t : SwapTracker) : Prop := (t.swaps.map Prod.fst).Nodup

theorem SwapTracker.Distinct.onNewSwap (ht : t.Distinct) {chainId : U64} {contractId : Bytes32}
    {timelock : U64} {amount : U128} :
    (t.onNewSwap chainId contractId h timelock amount).1.Distinct := by
  simp only [SwapTracker.Distinct, SwapTracker.onNewSwap, keys_modifyEntry]
  split_ifs with hmem
  · exact ht
  · apply List.Nodup.append ht (List.nodup_singleton h)
    rw [List.disjoint_singleton]
    exact hmem

theorem SwapTracker.Distinct.of_keys {t' : SwapTracker} (ht : t.Distinct)
    (h : t'.swaps.map Prod.fst = t.swaps.map Prod.fst) : t'.Distinct := by
  rw [SwapTracker.Distinct, h]
  exact ht

theorem SwapTracker.get_isSome : (t.get h).isSome = true ↔ h ∈ t.swaps.map Prod.fst := by
  rw [SwapTracker.get, List.lookup_isSome_iff]
  simp

/-- An entry is what `get` finds under its key. -/
theorem SwapTracker.Distinct.mem_iff (ht : t.Distinct) {s : SwapState} :
    (h, s) ∈ t.swaps ↔ t.get h = some s := by
  constructor
  · intro hmem
    obtain ⟨before, after, hsplit⟩ := List.append_of_mem hmem
    refine List.lookup_eq_some_iff.mpr ⟨before, after, hsplit, fun p hp => ?_⟩
    have hnodup : (before.map Prod.fst ++ h :: after.map Prod.fst).Nodup := by
      have hkeys : (t.swaps.map Prod.fst).Nodup := ht
      rwa [hsplit, List.map_append, List.map_cons] at hkeys
    have hdisjoint := (List.nodup_append.mp hnodup).2.2 p.1 (List.mem_map_of_mem hp) h
      (List.mem_cons_self ..)
    simpa using Ne.symm hdisjoint
  · intro hget
    obtain ⟨before, after, hsplit, -⟩ := List.lookup_eq_some_iff.mp hget
    rw [hsplit]
    exact List.mem_append_right _ (List.mem_cons_self ..)

theorem SwapTracker.mem_legsOf {l : Leg} :
    l ∈ t.legsOf h ↔ ∃ s, t.get h = some s ∧ l ∈ s.legs := by
  cases hget : t.get h with
  | none => simp [SwapTracker.legsOf, hget, SwapState.default]
  | some s => simp [SwapTracker.legsOf, hget]

/-- `hashlock_of` finds a hashlock under which the leg is filed. -/
theorem SwapTracker.Distinct.hashlockOf_spec (ht : t.Distinct) (chainId : U64)
    (contractId : Bytes32) :
    match t.hashlockOf chainId contractId with
    | some k => ∃ l ∈ t.legsOf k, l.is chainId contractId = true
    | none => ∀ k, ∀ l ∈ t.legsOf k, l.is chainId contractId = false := by
  unfold SwapTracker.hashlockOf
  -- The first entry that holds the leg.
  cases hfind : t.swaps.find? fun e => e.2.legs.any (·.is chainId contractId) with
  | none =>
    intro k l hl
    obtain ⟨s, hget, hmem⟩ := SwapTracker.mem_legsOf.mp hl
    have hnot := List.find?_eq_none.mp hfind (k, s) (ht.mem_iff.mpr hget)
    rw [List.any_eq_true] at hnot
    push Not at hnot
    simpa using hnot l hmem
  | some e =>
    have hany : (e.2.legs.any fun l => l.is chainId contractId) = true :=
      List.find?_some (p := fun e : Bytes32 × SwapState => e.2.legs.any fun l =>
        l.is chainId contractId) hfind
    obtain ⟨l, hl, hthis⟩ := List.any_eq_true.mp hany
    have hget := ht.mem_iff.mp (List.mem_of_find?_eq_some hfind)
    exact ⟨l, SwapTracker.mem_legsOf.mpr ⟨e.2, hget, hl⟩, hthis⟩

theorem SwapTracker.Distinct.mem_timedOut (ht : t.Distinct) {now chainId : U64}
    {contractId : Bytes32} :
    (h, chainId, contractId) ∈ t.timedOut now ↔ ∃ l ∈ t.legsOf h, l.chainId = chainId ∧
      l.contractId = contractId ∧ l.timelock ≤ now ∧ l.redeemed = false ∧ l.refunded = false := by
  simp only [SwapTracker.timedOut, List.mem_flatMap, List.mem_map, List.mem_filter,
    decide_eq_true_eq, SwapTracker.mem_legsOf, Prod.mk.injEq]
  constructor
  · rintro ⟨⟨k, s⟩, hmem, l, ⟨hl, hout⟩, rfl, rfl, rfl⟩
    exact ⟨l, ⟨s, ht.mem_iff.mp hmem, hl⟩, rfl, rfl, hout⟩
  · rintro ⟨l, ⟨s, hget, hl⟩, rfl, rfl, hout⟩
    exact ⟨(h, s), ht.mem_iff.mpr hget, l, ⟨hl, hout⟩, rfl, rfl, rfl⟩

/-! ## Updates forget nothing -/

/-- `s'` has every leg of `s`, and a preimage of `h` if `s` has one. -/
structure SwapState.Extends (cr : Crypto) (h : Bytes32) (s s' : SwapState) : Prop where
  legs : ∀ chainId contractId, s.legs.any (·.is chainId contractId) = true →
    s'.legs.any (·.is chainId contractId) = true
  preimage : (∃ p, s.preimage = some p ∧ cr.hashlockOf p = h) →
    ∃ p, s'.preimage = some p ∧ cr.hashlockOf p = h

/-- Every entry of `t` is extended by the entry of `t'`. -/
def SwapTracker.Extends (cr : Crypto) (t t' : SwapTracker) : Prop :=
  ∀ h s, t.get h = some s → ∃ s', t'.get h = some s' ∧ s.Extends cr h s'

variable {cr : Crypto} {s : SwapState} {chainId : U64} {contractId : Bytes32}

theorem SwapState.Extends.refl (cr : Crypto) (h : Bytes32) (s : SwapState) : s.Extends cr h s :=
  ⟨fun _ _ => id, id⟩

theorem SwapTracker.Extends.refl (cr : Crypto) (t : SwapTracker) : t.Extends cr t :=
  fun h s hs => ⟨s, hs, .refl cr h s⟩

theorem SwapTracker.Extends.trans {t₁ t₂ t₃ : SwapTracker} (h₁₂ : t₁.Extends cr t₂)
    (h₂₃ : t₂.Extends cr t₃) : t₁.Extends cr t₃ := by
  intro h s hs
  obtain ⟨s₂, hs₂, hfirst⟩ := h₁₂ h s hs
  obtain ⟨s₃, hs₃, hsecond⟩ := h₂₃ h s₂ hs₂
  exact ⟨s₃, hs₃, fun c id hleg => hsecond.legs c id (hfirst.legs c id hleg),
    fun hp => hsecond.preimage (hfirst.preimage hp)⟩

theorem SwapState.addLeg_extends (l : Leg) : s.Extends cr h (s.addLeg l) := by
  unfold SwapState.addLeg
  split_ifs
  · exact .refl cr h s
  · refine ⟨fun c id hleg => ?_, id⟩
    rw [List.any_append, hleg, Bool.true_or]

theorem SwapState.addLeg_has (l : Leg) :
    (s.addLeg l).legs.any (·.is l.chainId l.contractId) = true := by
  unfold SwapState.addLeg
  split_ifs with hhas
  · exact hhas
  · simp [Leg.is]

/-- Marks do not change what a leg is the leg of. -/
theorem SwapState.markLeg_extends {mark : Leg → Leg}
    (hmark : ∀ l c id, (mark l).is c id = l.is c id) :
    s.Extends cr h (s.markLeg chainId contractId mark) := by
  refine ⟨fun c id hleg => ?_, id⟩
  simp only [SwapState.markLeg, List.any_map, List.any_eq_true, Function.comp_apply] at hleg ⊢
  obtain ⟨l, hl, hthis⟩ := hleg
  refine ⟨l, hl, ?_⟩
  split_ifs
  · rw [hmark]; exact hthis
  · exact hthis

theorem extends_modifyEntry {f : SwapState → SwapState} (hf : ∀ s : SwapState, s.Extends cr h (f s)) :
    t.Extends cr ⟨modifyEntry h f t.swaps⟩ := by
  intro k s hs
  have hget : t.swaps.lookup k = some s := hs
  by_cases hk : k = h
  · subst hk
    refine ⟨f s, lookup_modifyEntry.trans ?_, hf s⟩
    rw [if_pos rfl, hget, Option.getD_some]
  · exact ⟨s, (lookup_modifyEntry.trans (if_neg hk)).trans hs, .refl cr k s⟩

theorem extends_modifyExisting {f : SwapState → SwapState} (hf : ∀ s : SwapState, s.Extends cr h (f s)) :
    t.Extends cr ⟨modifyExisting h f t.swaps⟩ := by
  intro k s hs
  have hget : t.swaps.lookup k = some s := hs
  by_cases hk : k = h
  · subst hk
    refine ⟨f s, lookup_modifyExisting.trans ?_, hf s⟩
    rw [if_pos rfl, hget, Option.map_some]
  · exact ⟨s, (lookup_modifyExisting.trans (if_neg hk)).trans hs, .refl cr k s⟩

theorem SwapTracker.onNewSwap_extends {timelock : U64} {amount : U128} :
    t.Extends cr (t.onNewSwap chainId contractId h timelock amount).1 :=
  extends_modifyEntry fun _ => SwapState.addLeg_extends _

theorem SwapTracker.onRedeem_extends {p : Bytes32} :
    t.Extends cr (t.onRedeem cr chainId contractId p).1 := by
  unfold SwapTracker.onRedeem
  dsimp only
  split
  · exact .refl cr t
  · apply extends_modifyExisting
    intro s
    have hmark : ({ s with preimage := some p } : SwapState).Extends cr (cr.hashlockOf p)
        (({ s with preimage := some p } : SwapState).markLeg chainId contractId
          ({ · with redeemed := true })) := SwapState.markLeg_extends fun _ _ _ => rfl
    exact ⟨hmark.legs, fun _ => ⟨p, rfl, rfl⟩⟩

theorem SwapTracker.onRefund_extends : t.Extends cr (t.onRefund chainId contractId h) :=
  extends_modifyExisting fun _ => SwapState.markLeg_extends fun _ _ _ => rfl

/-- The leg of `contractId` is filed under `h`. -/
def SwapTracker.HasLeg (t : SwapTracker) (chainId : U64) (contractId h : Bytes32) : Prop :=
  ∃ s, t.get h = some s ∧ s.legs.any (·.is chainId contractId) = true

/-- A preimage of `h` is known. -/
def SwapTracker.KnowsPreimage (cr : Crypto) (t : SwapTracker) (h : Bytes32) : Prop :=
  ∃ p, t.preimageFor h = some p ∧ cr.hashlockOf p = h

theorem SwapTracker.Extends.hasLeg {t' : SwapTracker} (hext : t.Extends cr t')
    (hleg : t.HasLeg chainId contractId h) : t'.HasLeg chainId contractId h := by
  obtain ⟨s, hs, hany⟩ := hleg
  obtain ⟨s', hs', hs_ext⟩ := hext h s hs
  exact ⟨s', hs', hs_ext.legs _ _ hany⟩

theorem SwapTracker.Extends.knowsPreimage {t' : SwapTracker} (hext : t.Extends cr t')
    (hknows : t.KnowsPreimage cr h) : t'.KnowsPreimage cr h := by
  obtain ⟨p, hp, hhash⟩ := hknows
  obtain ⟨s, hs, hpre⟩ := Option.bind_eq_some_iff.mp hp
  obtain ⟨s', hs', hs_ext⟩ := hext h s hs
  obtain ⟨p', hp', hhash'⟩ := hs_ext.preimage ⟨p, hpre, hhash⟩
  exact ⟨p', Option.bind_eq_some_iff.mpr ⟨s', hs', hp'⟩, hhash'⟩

theorem SwapTracker.onNewSwap_hasLeg {timelock : U64} {amount : U128} :
    (t.onNewSwap chainId contractId h timelock amount).1.HasLeg chainId contractId h :=
  ⟨_, lookup_modifyEntry.trans (if_pos rfl), SwapState.addLeg_has _⟩

/-- A redeem of a hashlock that has a leg reveals its preimage. -/
theorem SwapTracker.onRedeem_knowsPreimage {p : Bytes32} {c : U64} {id : Bytes32}
    (hleg : t.HasLeg c id (cr.hashlockOf p)) :
    (t.onRedeem cr chainId contractId p).1.KnowsPreimage cr (cr.hashlockOf p) := by
  obtain ⟨s, hs, -⟩ := hleg
  refine ⟨p, ?_, rfl⟩
  have hget : t.swaps.lookup (cr.hashlockOf p) = some s := hs
  simp only [SwapTracker.onRedeem, SwapTracker.preimageFor, SwapTracker.get,
    lookup_modifyExisting, if_pos, hget, Option.map_some, Option.bind_some, SwapState.markLeg]

end Reading

end Kael.Maestro
