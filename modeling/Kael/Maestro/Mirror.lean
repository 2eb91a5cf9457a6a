import Kael.Lib.Deliveries
import Kael.Maestro.Arrivals

/-!
# The Tracker Mirrors the Chains

Whatever the order in which the logs of several HTLCs arrive, and however often
they arrive again, the tracker ends with the records of all chains: one leg for
each record, under the record's hashlock and with its flags, and a preimage for
each hashlock that was redeemed.
-/

namespace Kael.Maestro

open HashedTimelock
open Deliveries (Deliver Complete)
open NestedCalls (Run Config)

universe u

variable {κ : Type u} [DecidableEq κ]

/-! ## Whole histories -/

/-- The leg of a record. -/
def legOf (chainId : U64) (id : Bytes32) (s : Swap) : Leg where
  chainId := chainId
  contractId := id
  hashlock := s.hashlock
  timelock := s.timelock.setWidth 64
  amount := s.amount.setWidth 128
  redeemed := s.withdrawn
  refunded := s.refunded

/-- Where the leg of `contractId` on `chainId` is filed, and as what. -/
def SwapTracker.filings (t : SwapTracker) (chainId : U64) (contractId : Bytes32) :
    List (Bytes32 × Leg) :=
  t.swaps.flatMap fun e =>
    (e.2.legs.filter fun l => l.is chainId contractId).map fun l => (e.1, l)

/-- The tracker says what the chains say. -/
structure Mirrors (cr : Crypto) (chainIds : κ → U64) (chains : κ → Storage) (t : SwapTracker) :
    Prop where
  /-- Each record is tracked once, under its hashlock and with its flags. -/
  filings : ∀ i id, t.filings (chainIds i) id =
    if ((chains i).swaps id).Exists then
      [(((chains i).swaps id).hashlock, legOf (chainIds i) id ((chains i).swaps id))]
    else []
  /-- Nothing else is tracked. -/
  foreign : ∀ chainId id, (∀ i, chainIds i ≠ chainId) → t.filings chainId id = []
  sound : ∀ h p, t.preimageFor h = some p → cr.hashlockOf p = h
  known : ∀ h, (t.preimageFor h).isSome = true ↔
    ∃ i id, ((chains i).swaps id).hashlock = h ∧ ((chains i).swaps id).withdrawn = true
  timedOut : ∀ now h chainId id, (h, chainId, id) ∈ t.timedOut now ↔
    ∃ i, chainIds i = chainId ∧ ((chains i).swaps id).Active ∧
      ((chains i).swaps id).hashlock = h ∧ ((chains i).swaps id).timelock.toNat ≤ now.toNat
  timedOutOnce : ∀ now, (t.timedOut now).Nodup

/-- Two trackers differ in the order of legs at most. -/
def SameButOrder (t t' : SwapTracker) : Prop :=
  ∀ h, Option.Rel (fun s s' => s.legs.Perm s'.legs ∧ s.preimage = s'.preimage) (t.get h) (t'.get h)

section Mirror

variable {cr : Crypto} {chainIds : κ → U64} {chains : κ → Storage}
  {seen : List (κ × Event)} {t t' : SwapTracker} {i : κ} {id : Bytes32}

/-- The run rule: whatever arrives is ingested. -/
theorem feed_tracks (hchains : Function.Injective chainIds)
    (hexplains : ∀ i, Explains cr (chains i)) (hfits : ∀ i, ∀ e ∈ (chains i).logs, EventFits e)
    {pos : κ → Nat} (h : Deliver (fun i => (chains i).logs) pos seen) :
    ∃ t, feed cr chainIds .new seen = some t ∧
      Tracks cr chainIds (fun i => (chains i).swaps) seen t := by
  apply h.rec_on_arrivals
  · exact ⟨.new, rfl, .new⟩
  · rintro seen i e before after ⟨t, hfeed, ht⟩ hlogs hbefore
    have he : e ∈ (chains i).logs := hlogs ▸ List.mem_append_right _ (List.mem_cons_self ..)
    obtain ⟨t', hingest, ht'⟩ := ht.ingest hchains ((hexplains i).sound e he) (hfits i e he) <| by
      intro c hsettles
      obtain ⟨lock, hlock, hopens⟩ := (hexplains i).order before e after c hlogs hsettles
      exact arrived_iff.mpr ⟨lock, hbefore lock hlock, hopens⟩
    refine ⟨t', ?_, ht'⟩
    simp only [feed_append, hfeed, Option.bind_some, feed, hingest]

/-- When everything has arrived, legs are the legs of records. -/
theorem seenLeg_complete (hexplains : ∀ i, Explains cr (chains i))
    (h : Complete (fun i => (chains i).logs) seen) :
    seenLeg chainIds (fun i => (chains i).swaps) seen i id =
      legOf (chainIds i) id ((chains i).swaps id) := by
  -- The redeems that have arrived are those of the log, which is complete.
  have hredeemed : arrived seen i (redeems id) = ((chains i).swaps id).withdrawn := by
    rw [Bool.eq_iff_iff, arrived_iff]
    simp only [h.mem_iff]
    constructor
    · rintro ⟨e, he, hredeems⟩
      cases e with
      | logRedeem c p =>
        obtain rfl := of_decide_eq_true hredeems
        exact ((hexplains i).sound _ he).2.1
      | logNewSwap => cases hredeems
      | logRefund => cases hredeems
    · intro hwithdrawn
      obtain ⟨p, hp⟩ := (hexplains i).withdrawn id hwithdrawn
      exact ⟨_, hp, decide_eq_true rfl⟩
  -- So are the refunds.
  have hrefunded : arrived seen i (refunds id) = ((chains i).swaps id).refunded := by
    rw [Bool.eq_iff_iff, arrived_iff]
    simp only [h.mem_iff]
    constructor
    · rintro ⟨e, he, hrefunds⟩
      cases e with
      | logRefund c =>
        obtain rfl := of_decide_eq_true hrefunds
        exact ((hexplains i).sound _ he).2
      | logNewSwap => cases hrefunds
      | logRedeem => cases hrefunds
    · intro hrefunded
      exact ⟨_, (hexplains i).refunded id hrefunded, decide_eq_true rfl⟩
  simp only [seenLeg, legOf, hredeemed, hrefunded]

/-- When everything has arrived, the locks are those of the records. -/
theorem opened_complete (hexplains : ∀ i, Explains cr (chains i))
    (h : Complete (fun i => (chains i).logs) seen) :
    arrived seen i (Event.opens id) = true ↔ ((chains i).swaps id).Exists := by
  rw [arrived_iff]
  simp only [h.mem_iff]
  constructor
  · rintro ⟨e, he, hopens⟩
    cases e with
    | logNewSwap c sender recipient token amount hashlock timelock =>
      obtain rfl := of_decide_eq_true hopens
      exact ((hexplains i).sound _ he).1
    | logRedeem => cases hopens
    | logRefund => cases hopens
  · exact (hexplains i).locked id

theorem Tracks.mem_legsOf (ht : Tracks cr chainIds (fun i => (chains i).swaps) seen t)
    (hexplains : ∀ i, Explains cr (chains i)) (h : Complete (fun i => (chains i).logs) seen)
    {k : Bytes32} {l : Leg} :
    l ∈ t.legsOf k ↔ ∃ i id, ((chains i).swaps id).Exists ∧ ((chains i).swaps id).hashlock = k ∧
      l = legOf (chainIds i) id ((chains i).swaps id) := by
  rw [ht.legs]
  simp only [opened_complete hexplains h, seenLeg_complete hexplains h]

/-- Lists built from entries with different keys have no element twice. -/
theorem nodup_flatMap_keyed {α β γ : Type} {l : List (α × β)} {f : α × β → List γ} (key : γ → α)
    (hkeys : (l.map Prod.fst).Nodup) (hf : ∀ e ∈ l, (f e).Nodup)
    (hkey : ∀ e, ∀ c ∈ f e, key c = e.1) : (l.flatMap f).Nodup := by
  refine List.nodup_flatMap.mpr ⟨hf, (List.pairwise_map.mp hkeys).imp ?_⟩
  intro e e' hne c hc hc'
  exact hne ((hkey e c hc).symm.trans (hkey e' c hc'))

/-- The legs of an entry are legs of different records. -/
theorem Tracks.nodup_legs {swaps : κ → Bytes32 → Swap} (ht : Tracks cr chainIds swaps seen t)
    {e : Bytes32 × SwapState} (he : e ∈ t.swaps) :
    (e.2.legs.map fun l => (l.chainId, l.contractId)).Nodup := by
  have honce := ht.once e.1
  rwa [SwapTracker.legsOf, ht.distinct.mem_iff.mp he, Option.getD_some] at honce

theorem SwapTracker.Distinct.mem_filings (ht : t.Distinct) {chainId : U64} {h : Bytes32}
    {l : Leg} :
    (h, l) ∈ t.filings chainId id ↔ l ∈ t.legsOf h ∧ l.is chainId id = true := by
  simp only [SwapTracker.filings, List.mem_flatMap, List.mem_map, List.mem_filter, Prod.mk.injEq,
    SwapTracker.mem_legsOf]
  constructor
  · rintro ⟨⟨k, s⟩, hmem, l, ⟨hl, hthis⟩, rfl, rfl⟩
    exact ⟨⟨s, ht.mem_iff.mp hmem, hl⟩, hthis⟩
  · rintro ⟨⟨s, hget, hl⟩, hthis⟩
    exact ⟨(h, s), ht.mem_iff.mpr hget, l, ⟨hl, hthis⟩, rfl, rfl⟩

theorem Tracks.nodup_filings {swaps : κ → Bytes32 → Swap} (ht : Tracks cr chainIds swaps seen t)
    {chainId : U64} : (t.filings chainId id).Nodup := by
  apply nodup_flatMap_keyed Prod.fst ht.distinct
  · intro e he
    apply List.Nodup.map fun _ _ heq => (Prod.mk.inj heq).2
    exact (ht.nodup_legs he).of_map.filter _
  · intro e c hc
    obtain ⟨l, -, rfl⟩ := List.mem_map.mp hc
    rfl

theorem Tracks.nodup_timedOut {swaps : κ → Bytes32 → Swap} (ht : Tracks cr chainIds swaps seen t)
    {now : U64} : (t.timedOut now).Nodup := by
  apply nodup_flatMap_keyed Prod.fst ht.distinct
  · intro e he
    have hkeys : ((e.2.legs.filter fun l => l.timelock ≤ now ∧ l.redeemed = false ∧
        l.refunded = false).map fun l => (l.chainId, l.contractId)).Nodup :=
      (List.filter_sublist.map _).nodup (ht.nodup_legs he)
    have hpaired := hkeys.map (f := fun k => (e.1, k)) fun _ _ heq => (Prod.mk.inj heq).2
    rwa [List.map_map] at hpaired
  · intro e c hc
    obtain ⟨l, -, rfl⟩ := List.mem_map.mp hc
    rfl

/-- The leg of a record is filed once. -/
theorem Tracks.filings_eq (ht : Tracks cr chainIds (fun i => (chains i).swaps) seen t)
    (hchains : Function.Injective chainIds) (hexplains : ∀ i, Explains cr (chains i))
    (h : Complete (fun i => (chains i).logs) seen) :
    t.filings (chainIds i) id = if ((chains i).swaps id).Exists then
      [(((chains i).swaps id).hashlock, legOf (chainIds i) id ((chains i).swaps id))]
    else [] := by
  have hmem : ∀ f, f ∈ t.filings (chainIds i) id ↔ ((chains i).swaps id).Exists ∧
      f = (((chains i).swaps id).hashlock, legOf (chainIds i) id ((chains i).swaps id)) := by
    rintro ⟨k, l⟩
    rw [ht.distinct.mem_filings, ht.mem_legsOf hexplains h]
    constructor
    · rintro ⟨⟨j, c, hexists, rfl, rfl⟩, hthis⟩
      obtain ⟨hchain, rfl⟩ := of_decide_eq_true hthis
      obtain rfl := hchains hchain
      exact ⟨hexists, rfl⟩
    · rintro ⟨hexists, heq⟩
      obtain ⟨rfl, rfl⟩ := Prod.mk.inj heq
      exact ⟨⟨i, id, hexists, rfl, rfl⟩, decide_eq_true ⟨rfl, rfl⟩⟩
  -- One filing for a record that exists, none otherwise.
  split_ifs with hexists
  · apply List.perm_singleton.mp
    apply (List.perm_ext_iff_of_nodup ht.nodup_filings (List.nodup_singleton _)).mpr
    intro f
    rw [hmem, List.mem_singleton]
    exact and_iff_right hexists
  · apply List.eq_nil_iff_forall_not_mem.mpr
    intro f hf
    exact hexists ((hmem f).mp hf).1

/-- The timelock of a record whose lock fits is not truncated. -/
theorem timelock_toNat {st : Storage} (hexplains : Explains cr st)
    (hfits : ∀ e ∈ st.logs, EventFits e) (hexists : (st.swaps id).Exists) :
    ((st.swaps id).timelock.setWidth 64).toNat = (st.swaps id).timelock.toNat := by
  obtain ⟨e, he, hopens⟩ := hexplains.locked id hexists
  cases e with
  | logRedeem => cases hopens
  | logRefund => cases hopens
  | logNewSwap c sender recipient token amount hashlock timelock =>
    obtain rfl := of_decide_eq_true hopens
    obtain ⟨-, hterms⟩ := hexplains.sound _ he
    obtain ⟨-, -, -, -, -, rfl⟩ := Terms.mk.inj hterms
    exact (BitVec.toNat_setWidth ..).trans (Nat.mod_eq_of_lt (hfits _ he).1)

theorem Tracks.mirrors (ht : Tracks cr chainIds (fun i => (chains i).swaps) seen t)
    (hchains : Function.Injective chainIds) (hexplains : ∀ i, Explains cr (chains i))
    (hfits : ∀ i, ∀ e ∈ (chains i).logs, EventFits e)
    (h : Complete (fun i => (chains i).logs) seen) : Mirrors cr chainIds chains t where
  filings i id := ht.filings_eq hchains hexplains h
  foreign chainId id hforeign := by
    apply List.eq_nil_iff_forall_not_mem.mpr
    rintro ⟨k, l⟩ hf
    obtain ⟨hl, hthis⟩ := ht.distinct.mem_filings.mp hf
    obtain ⟨j, c, -, -, rfl⟩ := (ht.mem_legsOf hexplains h).mp hl
    exact hforeign j (of_decide_eq_true hthis).1
  sound k p hp := (ht.sound k p hp).1
  known k := by
    constructor
    · intro hsome
      obtain ⟨p, hp⟩ := Option.isSome_iff_exists.mp hsome
      -- Whatever preimage is kept, a redeem has revealed it.
      obtain ⟨rfl, i, id, hseen⟩ := ht.sound k p hp
      obtain ⟨-, hwithdrawn, hhash⟩ := (hexplains i).sound _ (h.mem_iff.mp hseen)
      exact ⟨i, id, hhash.symm, hwithdrawn⟩
    · rintro ⟨i, id, rfl, hwithdrawn⟩
      -- A withdrawn record has its redeem in the log.
      obtain ⟨p, hp⟩ := (hexplains i).withdrawn id hwithdrawn
      rw [← ((hexplains i).sound _ hp).2.2]
      exact ht.revealed i id p (h.mem_iff.mpr hp)
  timedOut now k chainId id := by
    rw [ht.distinct.mem_timedOut]
    constructor
    · rintro ⟨l, hl, rfl, rfl, hnow, hredeemed, hrefunded⟩
      obtain ⟨i, id, hexists, rfl, rfl⟩ := (ht.mem_legsOf hexplains h).mp hl
      refine ⟨i, rfl, ⟨hexists, hredeemed, hrefunded⟩, rfl, ?_⟩
      -- The narrowed timelock is the timelock of the record.
      exact (timelock_toNat (hexplains i) (hfits i) hexists).symm.trans_le (BitVec.le_def.mp hnow)
    · rintro ⟨i, rfl, ⟨hexists, hwithdrawn, hrefunded⟩, rfl, hnow⟩
      refine ⟨_, (ht.mem_legsOf hexplains h).mpr ⟨i, id, hexists, rfl, rfl⟩, rfl, rfl, ?_,
        hwithdrawn, hrefunded⟩
      exact BitVec.le_def.mpr ((timelock_toNat (hexplains i) (hfits i) hexists).trans_le hnow)
  timedOutOnce now := ht.nodup_timedOut

/-- A revealed preimage is known to every tracker of the same events. -/
theorem Tracks.preimageFor_eq (ht : Tracks cr chainIds (fun i => (chains i).swaps) seen t)
    {seen' : List (κ × Event)} (ht' : Tracks cr chainIds (fun i => (chains i).swaps) seen' t')
    (h : Complete (fun i => (chains i).logs) seen)
    (h' : Complete (fun i => (chains i).logs) seen')
    (hcollide : ∀ i j id id' p p', .logRedeem id p ∈ (chains i).logs →
      .logRedeem id' p' ∈ (chains j).logs → cr.hashlockOf p = cr.hashlockOf p' → p = p')
    {k p : Bytes32} (hp : t.preimageFor k = some p) : t'.preimageFor k = some p := by
  obtain ⟨rfl, i, id, hseen⟩ := ht.sound k p hp
  have hlog := h.mem_iff.mp hseen
  obtain ⟨p', hp'⟩ := Option.isSome_iff_exists.mp (ht'.revealed i id p (h'.mem_iff.mpr hlog))
  obtain ⟨hhash, j, id', hseen'⟩ := ht'.sound _ p' hp'
  rw [hp', hcollide i j id id' p p' hlog (h'.mem_iff.mp hseen') hhash.symm]

/-- Trackers of the same events differ in the order of legs at most. -/
theorem Tracks.same (ht : Tracks cr chainIds (fun i => (chains i).swaps) seen t)
    {seen' : List (κ × Event)} (ht' : Tracks cr chainIds (fun i => (chains i).swaps) seen' t')
    (hexplains : ∀ i, Explains cr (chains i)) (h : Complete (fun i => (chains i).logs) seen)
    (h' : Complete (fun i => (chains i).logs) seen')
    (hcollide : ∀ i j id id' p p', .logRedeem id p ∈ (chains i).logs →
      .logRedeem id' p' ∈ (chains j).logs → cr.hashlockOf p = cr.hashlockOf p' → p = p') :
    SameButOrder t t' ∧ ∀ now, (t.timedOut now).Perm (t'.timedOut now) := by
  have hlegs : ∀ k l, l ∈ t.legsOf k ↔ l ∈ t'.legsOf k := fun k l =>
    (ht.mem_legsOf hexplains h).trans (ht'.mem_legsOf hexplains h').symm
  have hperm : ∀ k, (t.legsOf k).Perm (t'.legsOf k) := fun k =>
    (List.perm_ext_iff_of_nodup (ht.once k).of_map (ht'.once k).of_map).mpr (hlegs k)
  have hpreimage : ∀ k, t.preimageFor k = t'.preimageFor k := fun k => Option.ext fun p =>
    ⟨ht.preimageFor_eq ht' h h' hcollide, ht'.preimageFor_eq ht h' h hcollide⟩
  refine ⟨fun k => ?_, fun now => ?_⟩
  · have hlegs_k := hperm k
    have hpreimage_k := hpreimage k
    have hfiled := ht.filed k
    have hfiled' := ht'.filed k
    -- An entry has legs, so both trackers have one or none has.
    cases hget : t.get k with
    | none =>
      cases hget' : t'.get k with
      | none => exact .none
      | some s' =>
        simp only [SwapTracker.legsOf, hget, hget', Option.getD_some, Option.getD_none,
          SwapState.default, List.nil_perm] at hlegs_k hfiled'
        exact absurd hlegs_k (hfiled' rfl)
    | some s =>
      cases hget' : t'.get k with
      | none =>
        simp only [SwapTracker.legsOf, hget, hget', Option.getD_some, Option.getD_none,
          SwapState.default, List.perm_nil] at hlegs_k hfiled
        exact absurd hlegs_k (hfiled rfl)
      | some s' =>
        simp only [SwapTracker.legsOf, SwapTracker.preimageFor, hget, hget', Option.getD_some,
          Option.bind_some] at hlegs_k hpreimage_k
        exact .some ⟨hlegs_k, hpreimage_k⟩
  · apply (List.perm_ext_iff_of_nodup ht.nodup_timedOut ht'.nodup_timedOut).mpr
    rintro ⟨k, chainId, id⟩
    simp only [ht.distinct.mem_timedOut, ht'.distinct.mem_timedOut, hlegs]

end Mirror

/-- **The tracker mirrors the chains.** The HTLCs of several chains are run with
    tokens that do not re-enter a lock, and their logs are polled to the end, in
    any interleaving and with any repetitions. If the numbers of all locks fit,
    the polls succeed and the tracker says what the records say. With preimages
    that do not collide, the order of the legs is all that the interleaving
    decides. -/
theorem tracker_mirrors_chains {cr : Crypto} {chainIds : κ → U64}
    (hchains : Function.Injective chainIds) {S : κ → Setting} (hcrypto : ∀ i, (S i).crypto = cr)
    {held : κ → Address → Nat} {c : κ → Config World}
    (hrun : ∀ i, Run (guarded (S i)) ⟨World.fresh (held i), []⟩ (c i))
    (hclosed : ∀ i, (c i).cur.frames = [])
    (hfits : ∀ i, ∀ e ∈ (c i).cur.htlc.logs, EventFits e) {polls : List (κ × List Event)}
    (hpolls : Complete (fun i => (c i).cur.htlc.logs) (arrivals polls)) :
    ∃ t, pollAll cr chainIds .new polls = .ok t ∧
      Mirrors cr chainIds (fun i => (c i).cur.htlc) t ∧
      ((∀ i j id id' p p', .logRedeem id p ∈ (c i).cur.htlc.logs →
          .logRedeem id' p' ∈ (c j).cur.htlc.logs → cr.hashlockOf p = cr.hashlockOf p' → p = p') →
        ∀ polls', Complete (fun i => (c i).cur.htlc.logs) (arrivals polls') →
        ∀ t', pollAll cr chainIds .new polls' = .ok t' →
          SameButOrder t t' ∧ ∀ now, (t.timedOut now).Perm (t'.timedOut now)) := by
  have hexplains : ∀ i, Explains cr (c i).cur.htlc := fun i =>
    hcrypto i ▸ explains_of_run (hrun i) (hclosed i)
  obtain ⟨t, hfeed, ht⟩ := feed_tracks hchains hexplains hfits hpolls
  refine ⟨t, pollAll_ok.mpr hfeed, ht.mirrors hchains hexplains hfits hpolls, ?_⟩
  -- Another interleaving of the same logs.
  intro hcollide polls' hpolls' t' hrun'
  obtain ⟨t'', hfeed', ht'⟩ := feed_tracks hchains hexplains hfits hpolls'
  rw [pollAll_ok, hfeed', Option.some.injEq] at hrun'
  subst hrun'
  exact ht.same ht' hexplains hpolls hpolls' hcollide

namespace Sample

open HashedTimelock.Sample (alice bob lock ethLock contractId ethContractId preimage)

def aliceLocks : Event := .logNewSwap contractId alice lock.recipient lock.token lock.amount
  lock.hashlock lock.timelock

def bobLocks : Event := .logNewSwap ethContractId bob ethLock.recipient ethLock.token
  ethLock.amount ethLock.hashlock ethLock.timelock

/-- Alice's lock and its redeem on one chain, Bob's lock on the other. -/
def logs : Bool → List Event
  | false => [aliceLocks, .logRedeem contractId preimage]
  | true => [bobLocks]

def chainIds : Bool → U64
  | false => 1
  | true => 2

/-- The second chain is polled between two polls of the first; the second of
    these repeats the lock. -/
def polls : List (Bool × List Event) :=
  [(false, [aliceLocks]), (true, [bobLocks]), (false, [aliceLocks, .logRedeem contractId preimage])]

theorem polls_complete : Complete logs (arrivals polls) := by
  have hfirst : Deliver logs _ [(false, aliceLocks)] := Deliver.start.next false _ rfl
  have hsecond : Deliver logs _ [(false, aliceLocks), (true, bobLocks)] := hfirst.next true _ rfl
  have hthird : Deliver logs _ [(false, aliceLocks), (true, bobLocks), (false, aliceLocks)] :=
    hsecond.again false 0 _ (by decide) rfl
  have hall : Deliver logs _ (arrivals polls) :=
    hthird.next false (.logRedeem contractId preimage) rfl
  have hpos : ∀ {pos : Bool → Nat}, (∀ i, pos i = (logs i).length) →
      Deliver logs pos (arrivals polls) → Complete logs (arrivals polls) := by
    intro pos hpos h
    rwa [funext hpos] at h
  exact hpos (by decide) hall

end Sample

/-- Two chains, polled in turn. -/
theorem tracker_mirrors_two_chains :
    ∃ c : Bool → Config World, (∀ i, (c i).cur.htlc.logs = Sample.logs i) ∧
      ∃ t, pollAll HashedTimelock.Sample.setting.crypto Sample.chainIds .new Sample.polls = .ok t ∧
        Mirrors HashedTimelock.Sample.setting.crypto Sample.chainIds (fun i => (c i).cur.htlc) t := by
  obtain ⟨c₁, hrun₁, htest₁⟩ := (script HashedTimelock.Sample.setting SlotVacant).exists_run
    [.newSwap 10 ⟨HashedTimelock.Sample.alice, 0⟩ HashedTimelock.Sample.lock, .transfer, .finish,
      .redeem 10 HashedTimelock.Sample.contractId HashedTimelock.Sample.preimage, .transfer, .finish]
    ⟨World.fresh fun _ => 0, []⟩
    (fun c => decide (c.cur.frames = [] ∧ c.cur.htlc.logs = Sample.logs false)) (by decide +kernel)
  obtain ⟨c₂, hrun₂, htest₂⟩ := (script HashedTimelock.Sample.setting SlotVacant).exists_run
    [.newSwap 10 ⟨HashedTimelock.Sample.bob, 7⟩ HashedTimelock.Sample.ethLock]
    ⟨World.fresh fun _ => 0, []⟩
    (fun c => decide (c.cur.frames = [] ∧ c.cur.htlc.logs = Sample.logs true)) (by decide +kernel)
  obtain ⟨hclosed₁, hlogs₁⟩ := of_decide_eq_true htest₁
  obtain ⟨hclosed₂, hlogs₂⟩ := of_decide_eq_true htest₂
  let c : Bool → Config World := fun i => cond i c₂ c₁
  have hrun : ∀ i, Run (guarded HashedTimelock.Sample.setting) ⟨World.fresh fun _ => 0, []⟩ (c i)
    | false => hrun₁
    | true => hrun₂
  have hclosed : ∀ i, (c i).cur.frames = []
    | false => hclosed₁
    | true => hclosed₂
  have hlogs : ∀ i, (c i).cur.htlc.logs = Sample.logs i
    | false => hlogs₁
    | true => hlogs₂
  have hfits : ∀ i, ∀ e ∈ (c i).cur.htlc.logs, EventFits e := by
    intro i
    rw [hlogs]
    cases i <;> decide
  have hpolls : Complete (fun i => (c i).cur.htlc.logs) (arrivals Sample.polls) := by
    rw [funext hlogs]
    exact Sample.polls_complete
  have hchains : Function.Injective Sample.chainIds := by
    rintro (_ | _) (_ | _) <;> decide
  obtain ⟨t, hpolled, hmirrors, -⟩ :=
    tracker_mirrors_chains hchains (fun _ => rfl) hrun hclosed hfits hpolls
  exact ⟨c, hlogs, t, hpolled, hmirrors⟩

end Kael.Maestro
