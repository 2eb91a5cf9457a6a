import Mathlib.Data.List.Destutter
import Kael.Maestro.Mirror
import Kael.Swapkit.Looks

/-!
# The Watching Loop

`bin/maestro.rs`: in every round both heads are read, each chain is polled from
where its last poll ended, and the round logs the correlated swaps with their
preimages and warns of the legs that have expired. The first error ends the
loop, and a panic does.

On two chains that run both contracts and are not rolled back, every round that
logs at all is right about the records at the heads it has read
(`maestro_reports_right`).
-/

namespace Kael.Maestro

open Exchange (Deployment Policy State Reachable)
open HashedTimelock (Event Storage Explains)
open Deliveries (Deliver Complete)
open Swapkit (PollAnswers PolledChain LiveChain)

/-! ## Correlated swaps -/

/-- The chains of the legs, sorted and without repetitions. -/
def SwapState.chains (s : SwapState) : List U64 :=
  ((s.legs.map Leg.chainId).insertionSort (· ≤ ·)).destutter (· ≠ ·)

/-- Both legs observed on distinct chains. -/
def SwapState.correlated (s : SwapState) : Bool :=
  decide (2 ≤ s.legs.length) && decide (2 ≤ s.chains.length)

def SwapTracker.correlatedHashlocks (t : SwapTracker) : List Bytes32 :=
  (t.swaps.filter fun e => e.2.correlated).map Prod.fst

/-! ## The loop -/

structure LoopState where
  tracker : SwapTracker
  /-- The next blocks to be polled. -/
  lastA : U64
  lastB : U64

def LoopState.start : LoopState := ⟨.new, 0, 0⟩

/-- What the endpoints and the clock answer in one round. -/
structure RoundAnswers where
  a : PollAnswers
  b : PollAnswers
  now : U64

/-- What one round logs. -/
structure Report where
  /-- Hashlock and preimage of the correlated swaps. -/
  correlated : List (Bytes32 × Option Bytes32)
  /-- Hashlock and chain of the legs that expired without redeem. -/
  expired : List (Bytes32 × U64)

def SwapTracker.report (t : SwapTracker) (now : U64) : Report where
  correlated := t.correlatedHashlocks.map fun h => (h, t.preimageFor h)
  expired := (t.timedOut now).map fun x => (x.1, x.2.1)

/-- Poll up to the head, unless that has been done. -/
def scan (cr : Crypto) (chainId : U64) (logs : U64 → U64 → Except String (List Log))
    (last head : U64) (t : SwapTracker) : Fallible String (SwapTracker × U64) :=
  if last ≤ head then
    (pollIntoTracker cr chainId (logs last head) t).bind fun r => .ok (r.1, head + 1)
  else .ok (t, last)

section Loop

variable (cr : Crypto) (chainA chainB : U64)

def LoopState.round (m : LoopState) (io : RoundAnswers) : Fallible String (LoopState × Report) :=
  match io.a.blockNumber with
  | .error e => .err e
  | .ok headA =>
    match io.b.blockNumber with
    | .error e => .err e
    | .ok headB =>
      (scan cr chainA io.a.logs m.lastA headA m.tracker).bind fun ra =>
      (scan cr chainB io.b.logs m.lastB headB ra.1).bind fun rb =>
        .ok (⟨rb.1, ra.2, rb.2⟩, rb.1.report io.now)

/-- The reports of the loop, and how it ends when the answers do. -/
def LoopState.watch (m : LoopState) : List RoundAnswers → List Report × Fallible String LoopState
  | [] => ([], .ok m)
  | io :: ios =>
    match m.round cr chainA chainB io with
    | .err e => ([], .err e)
    | .panicked => ([], .panicked)
    | .ok (m', report) =>
      let r := LoopState.watch m' ios
      (report :: r.1, r.2)

end Loop

/-! ## Two chains -/

/-- The chains at the heads that a round reads; `false` is chain A. -/
structure Round (cr : Crypto) (D : Bool → Deployment) (π : Bool → Policy) where
  chains : ∀ i, LiveChain cr (D i) (π i)
  now : U64

section Chains

variable {cr : Crypto} {D : Bool → Deployment} {π : Bool → Policy}

def Round.answers (r : Round cr D π) : RoundAnswers :=
  ⟨(r.chains false).answers, (r.chains true).answers, r.now⟩

/-- The records at the heads. -/
def Round.htlc (r : Round cr D π) (i : Bool) : Storage := (r.chains i).state.htlc

/-- Both chains have grown, or are as they were. -/
def Round.GrowsTo (r r' : Round cr D π) : Prop :=
  ∀ i, (r.chains i).blocks <+: (r'.chains i).blocks

/-- The report says of the records what they are. -/
structure Report.Right (cr : Crypto) (chainIds : Bool → U64) (htlc : Bool → Storage) (now : U64)
    (report : Report) : Prop where
  /-- The hashlocks with records on both chains, each once. -/
  correlated : ∀ h, h ∈ report.correlated.map Prod.fst ↔
    ∀ i, ∃ id, ((htlc i).swaps id).Exists ∧ ((htlc i).swaps id).hashlock = h
  once : (report.correlated.map Prod.fst).Nodup
  /-- A preimage is shown exactly if some redeem has revealed one. -/
  revealed : ∀ h p, (h, p) ∈ report.correlated →
    (∀ q, p = some q → cr.hashlockOf q = h) ∧
    (p.isSome = true ↔ ∃ i id, ((htlc i).swaps id).hashlock = h ∧
      ((htlc i).swaps id).withdrawn = true)
  /-- One warning for each record that is active past its timelock. -/
  expired : ∃ warned : List (Bytes32 × U64 × Bytes32), warned.Nodup ∧
    report.expired = warned.map (fun x => (x.1, x.2.1)) ∧
    ∀ h chainId id, (h, chainId, id) ∈ warned ↔
      ∃ i, chainIds i = chainId ∧ ((htlc i).swaps id).Active ∧
        ((htlc i).swaps id).hashlock = h ∧ ((htlc i).swaps id).timelock.toNat ≤ now.toNat

end Chains

/-! ## Reading correlations -/

section Correlated

theorem length_destutter'_ne {a : U64} {l : List U64} :
    2 ≤ (l.destutter' (· ≠ ·) a).length ↔ ∃ b ∈ l, b ≠ a := by
  induction l generalizing a with
  | nil => simp
  | cons b l ih =>
    by_cases hab : a = b
    · subst hab
      rw [List.destutter'_cons_neg _ (by simp), ih]
      simp
    -- A second element starts a list that is not empty.
    · have hpos : 0 < (l.destutter' (· ≠ ·) b).length :=
        List.length_pos_iff.mpr (List.destutter'_ne_nil _ _)
      rw [List.destutter'_cons_pos _ hab, List.length_cons]
      exact ⟨fun _ => ⟨b, List.mem_cons_self .., Ne.symm hab⟩, fun _ => by omega⟩

/-- A swap is correlated if two of its legs are on different chains. -/
theorem SwapState.correlated_iff {s : SwapState} :
    s.correlated = true ↔ ∃ l ∈ s.legs, ∃ l' ∈ s.legs, l.chainId ≠ l'.chainId := by
  have hchains : 2 ≤ s.chains.length ↔ ∃ l ∈ s.legs, ∃ l' ∈ s.legs, l.chainId ≠ l'.chainId := by
    unfold SwapState.chains
    have hmem : ∀ c, c ∈ (s.legs.map Leg.chainId).insertionSort (· ≤ ·) ↔
        ∃ l ∈ s.legs, l.chainId = c := fun c => by rw [List.mem_insertionSort, List.mem_map]
    cases hsorted : (s.legs.map Leg.chainId).insertionSort (· ≤ ·) with
    | nil =>
      rw [hsorted] at hmem
      constructor
      · intro htwo
        exact absurd htwo (by decide)
      · rintro ⟨l, hl, -⟩
        exact absurd ((hmem _).mpr ⟨l, hl, rfl⟩) List.not_mem_nil
    | cons a cs =>
      rw [List.destutter_cons', length_destutter'_ne]
      rw [hsorted] at hmem
      obtain ⟨l₀, hl₀, ha⟩ := (hmem a).mp (List.mem_cons_self ..)
      constructor
      · rintro ⟨b, hb, hne⟩
        obtain ⟨l, hl, rfl⟩ := (hmem b).mp (List.mem_cons_of_mem _ hb)
        exact ⟨l, hl, l₀, hl₀, ha.symm ▸ hne⟩
      -- Of two different chains one is not the first.
      · rintro ⟨l, hl, l', hl', hne⟩
        by_contra hall
        push Not at hall
        have hfirst : ∀ l ∈ s.legs, l.chainId = a := by
          intro l hl
          rcases List.mem_cons.mp ((hmem l.chainId).mpr ⟨l, hl, rfl⟩) with heq | hc
          · exact heq
          · exact hall _ hc
        exact hne ((hfirst l hl).trans (hfirst l' hl').symm)
  unfold SwapState.correlated
  rw [Bool.and_eq_true, decide_eq_true_eq, decide_eq_true_eq, hchains]
  refine ⟨And.right, fun h => ⟨?_, h⟩⟩
  -- Two legs on different chains are two legs.
  obtain ⟨l, hl, l', hl', hne⟩ := h
  match hlegs : s.legs with
  | [] => rw [hlegs] at hl; cases hl
  | [x] =>
    rw [hlegs, List.mem_singleton] at hl hl'
    exact absurd (by rw [hl, hl']) hne
  | x :: y :: rest => simp

theorem SwapTracker.Distinct.mem_correlatedHashlocks {t : SwapTracker} (ht : t.Distinct)
    {h : Bytes32} : h ∈ t.correlatedHashlocks ↔
      ∃ l ∈ t.legsOf h, ∃ l' ∈ t.legsOf h, l.chainId ≠ l'.chainId := by
  simp only [SwapTracker.correlatedHashlocks, List.mem_map, List.mem_filter,
    SwapTracker.mem_legsOf]
  constructor
  · rintro ⟨⟨k, s⟩, ⟨hmem, hcorrelated⟩, rfl⟩
    have hget := ht.mem_iff.mp hmem
    obtain ⟨l, hl, l', hl', hne⟩ := SwapState.correlated_iff.mp hcorrelated
    exact ⟨l, ⟨s, hget, hl⟩, l', ⟨s, hget, hl'⟩, hne⟩
  · rintro ⟨l, ⟨s, hget, hl⟩, l', ⟨s', hget', hl'⟩, hne⟩
    rw [hget, Option.some.injEq] at hget'
    subst hget'
    exact ⟨(h, s), ⟨ht.mem_iff.mpr hget, SwapState.correlated_iff.mpr ⟨l, hl, l', hl', hne⟩⟩, rfl⟩

end Correlated

/-! ## Catching up -/

section Scan

variable {cr : Crypto} {chainIds : Bool → U64} {t : SwapTracker} {i : Bool} {p : PolledChain}
  {last : U64}

/-- What polling a chain up to its head does, from a block that it has or the next one. -/
inductive ScanCase (cr : Crypto) (chainIds : Bool → U64) (i : Bool) (p : PolledChain) (last : U64)
    (t : SwapTracker) : Fallible String (SwapTracker × U64) → Prop where
  | fed (t' : SwapTracker) (last' : U64) (hlast : last'.toNat = p.blocks.length)
      (hfeed : feed cr chainIds t ((p.blocks.drop last.toNat).flatten.map (i, ·)) = some t') :
      ScanCase cr chainIds i p last t (.ok (t', last'))
  | unanswered (e : String) (hlogs : p.logsError ≠ none) : ScanCase cr chainIds i p last t (.err e)
  | tooLarge (e : Event) (he : e ∈ p.blocks.flatten) (hfits : ¬EventFits e) :
      ScanCase cr chainIds i p last t .panicked

theorem scan_cases (hle : last.toNat ≤ p.blocks.length) :
    ScanCase cr chainIds i p last t (scan cr (chainIds i) p.answers.logs last p.head t) := by
  have hhead := p.head_toNat
  unfold scan
  split_ifs with hbelow
  · cases hlogs : p.logsError with
    | some e =>
      simp only [PolledChain.answers, hlogs, Option.elim_some, pollIntoTracker, Fallible.bind]
      exact .unanswered e (by simp [hlogs])
    | none =>
      simp only [PolledChain.answers, hlogs, Option.elim_none, pollIntoTracker,
        PolledChain.range_head]
      have hfeed := @ingestAll_eq_feed Bool cr chainIds t i (p.blocks.drop last.toNat).flatten 0
      cases hingest : ingestAll cr (chainIds i) t 0
          ((p.blocks.drop last.toNat).flatten.map some) with
      | some r =>
        rw [hingest] at hfeed
        exact .fed r.1 (p.head + 1) p.next_toNat hfeed.symm
      -- The poll has met a lock that does not fit.
      | none =>
        have hlarge : ¬∀ e ∈ (p.blocks.drop last.toNat).flatten, EventFits e := by
          intro hall
          obtain ⟨t', hok⟩ := (@ingestAll_isSome cr (chainIds i) t 0 _).mpr hall
          rw [hingest] at hok
          cases hok
        push Not at hlarge
        obtain ⟨e, he, hfits⟩ := hlarge
        exact .tooLarge e ((List.drop_sublist ..).flatten.subset he) hfits
  -- The head was reached before.
  · have hlt : p.head.toNat < last.toNat := BitVec.not_le.mp hbelow
    refine .fed t last (by omega) ?_
    rw [List.drop_eq_nil_of_le (by omega)]
    rfl

/-- Events that have been fed fit. -/
theorem fits_of_feed {seen : List (Bool × Event)} {t' : SwapTracker}
    (h : feed cr chainIds t seen = some t') : ∀ d ∈ seen, EventFits d.2 := by
  induction seen generalizing t with
  | nil => exact fun _ hd => absurd hd List.not_mem_nil
  | cons d seen ih =>
    obtain ⟨j, e⟩ := d
    simp only [feed] at h
    cases hingest : ingest cr (chainIds j) t (some e) with
    | none => simp [hingest] at h
    | some r =>
      obtain ⟨t₁, n⟩ := r
      simp only [hingest] at h
      obtain rfl := ingest_count hingest
      exact List.forall_mem_cons.mpr ⟨ingest_isSome.mp ⟨t₁, hingest⟩, ih h⟩

end Scan

/-! ## The invariant of the loop -/

/-- The next block that the loop polls. -/
def LoopState.last (m : LoopState) (i : Bool) : U64 := cond i m.lastB m.lastA

/-- Both chains have been fed to the tracker, each block once and in the order of its chain. -/
structure CaughtUp (cr : Crypto) (chainIds : Bool → U64) (blocks : Bool → List (List Event))
    (m : LoopState) : Prop where
  last : ∀ i, (m.last i).toNat = (blocks i).length
  fed : ∃ seen, feed cr chainIds .new seen = some m.tracker ∧
    Complete (fun i => (blocks i).flatten) seen

section Invariant

variable {cr : Crypto} {chainIds : Bool → U64} {D : Bool → Deployment} {π : Bool → Policy}
  {blocks : Bool → List (List Event)} {m : LoopState} {r : Round cr D π}

theorem CaughtUp.start : CaughtUp cr chainIds (fun _ => []) .start where
  last i := by cases i <;> rfl
  fed := ⟨[], rfl, .start⟩

/-- The logs above the blocks that have been polled. -/
theorem drop_flatten {xs ys : List (List Event)} (h : xs <+: ys) :
    ys.flatten.drop xs.flatten.length = (ys.drop xs.length).flatten := by
  obtain ⟨rest, rfl⟩ := h
  rw [List.flatten_append, List.drop_left, List.drop_left]

/-- Both endpoints answer. -/
def Round.Answered (r : Round cr D π) : Prop :=
  ∀ i, (r.chains i).numberError = none ∧ (r.chains i).logsError = none

/-- The numbers of all locks fit the tracker's types. -/
def Round.Fits (r : Round cr D π) : Prop := ∀ i, ∀ e ∈ (r.htlc i).logs, EventFits e

/-- How a round ends. -/
inductive RoundCase (cr : Crypto) (chainIds : Bool → U64) (r : Round cr D π) :
    Fallible String (LoopState × Report) → Prop where
  | reported (m' : LoopState) (h : CaughtUp cr chainIds (fun i => (r.chains i).blocks) m') :
      RoundCase cr chainIds r (.ok (m', m'.tracker.report r.now))
  | unanswered (e : String) (h : ¬r.Answered) : RoundCase cr chainIds r (.err e)
  | tooLarge (h : ¬r.Fits) : RoundCase cr chainIds r .panicked

theorem Round.not_fits {i : Bool} {e : Event} (he : e ∈ (r.chains i).blocks.flatten)
    (hfits : ¬EventFits e) : ¬r.Fits := by
  intro hall
  rw [(r.chains i).mined] at he
  exact hfits (hall i e he)

/-- **Step rule.** A round that reports has caught up with both heads. -/
theorem CaughtUp.round (hm : CaughtUp cr chainIds blocks m)
    (hgrow : ∀ i, blocks i <+: (r.chains i).blocks) :
    RoundCase cr chainIds r (m.round cr (chainIds false) (chainIds true) r.answers) := by
  obtain ⟨seen, hfeed, hseen⟩ := hm.fed
  have hlastA : m.lastA.toNat = (blocks false).length := hm.last false
  have hlastB : m.lastB.toNat = (blocks true).length := hm.last true
  have hlogs : ∀ i, (blocks i).flatten <+: (r.chains i).blocks.flatten :=
    fun i => (hgrow i).flatten
  have hnumber : ∀ i e, (r.chains i).numberError = some e → ¬r.Answered := by
    intro i e he hanswered
    rw [(hanswered i).1] at he
    cases he
  unfold LoopState.round
  cases hnumA : (r.chains false).numberError with
  | some e =>
    simp only [Round.answers, PolledChain.answers, hnumA, Option.elim_some]
    exact .unanswered e (hnumber false e hnumA)
  | none =>
    cases hnumB : (r.chains true).numberError with
    | some e =>
      simp only [Round.answers, PolledChain.answers, hnumA, hnumB, Option.elim_some,
        Option.elim_none]
      exact .unanswered e (hnumber true e hnumB)
    | none =>
      have hheadA : (r.answers.a).blockNumber = .ok (r.chains false).head := by
        simp [Round.answers, PolledChain.answers, hnumA]
      have hheadB : (r.answers.b).blockNumber = .ok (r.chains true).head := by
        simp [Round.answers, PolledChain.answers, hnumB]
      simp only [hheadA, hheadB]
      have hscanA : ScanCase cr chainIds false (r.chains false).toPolledChain m.lastA m.tracker
          (scan cr (chainIds false) r.answers.a.logs m.lastA (r.chains false).head m.tracker) :=
        scan_cases (hlastA.trans_le (hgrow false).length_le)
      generalize scan cr (chainIds false) r.answers.a.logs m.lastA (r.chains false).head m.tracker
        = resultA at hscanA
      cases hscanA with
      | unanswered e hlogs => exact .unanswered e fun h => hlogs (h false).2
      | tooLarge e he hfits => exact .tooLarge (Round.not_fits he hfits)
      | fed tA lastA' hlastA' hfeedA =>
        simp only [Fallible.bind]
        have hscanB : ScanCase cr chainIds true (r.chains true).toPolledChain m.lastB tA
            (scan cr (chainIds true) r.answers.b.logs m.lastB (r.chains true).head tA) :=
          scan_cases (hlastB.trans_le (hgrow true).length_le)
        generalize scan cr (chainIds true) r.answers.b.logs m.lastB (r.chains true).head tA
          = resultB at hscanB
        cases hscanB with
        | unanswered e hlogs => exact .unanswered e fun h => hlogs (h true).2
        | tooLarge e he hfits => exact .tooLarge (Round.not_fits he hfits)
        | fed tB lastB' hlastB' hfeedB =>
          refine .reported ⟨tB, lastA', lastB'⟩ ⟨?_, ?_⟩
          · rintro (_ | _)
            · exact hlastA'
            · exact hlastB'
          -- Chain A is read to its end, then chain B.
          · rw [hlastA, ← drop_flatten (hgrow false)] at hfeedA
            rw [hlastB, ← drop_flatten (hgrow true)] at hfeedB
            refine ⟨_, ?_, (hseen.mono hlogs).read_both fun i => (hlogs i).length_le⟩
            rw [feed_append, feed_append, hfeed, Option.bind_some, hfeedA, Option.bind_some, hfeedB]

end Invariant

/-! ## Reports -/

section Reports

variable {cr : Crypto} {chainIds : Bool → U64} {D : Bool → Deployment} {π : Bool → Policy}
  {m : LoopState}

/-- The loop that has caught up with both heads reports what the records are. -/
theorem CaughtUp.right (hchains : Function.Injective chainIds) (hstd : ∀ i, (D i).AllStandard)
    {r : Round cr D π} (hm : CaughtUp cr chainIds (fun i => (r.chains i).blocks) m) :
    (m.tracker.report r.now).Right cr chainIds r.htlc r.now := by
  obtain ⟨seen, hfeed, hseen⟩ := hm.fed
  have hexplains : ∀ i, Explains cr (r.htlc i) := fun i => (r.chains i).explains (hstd i)
  have hlogs : (fun i => ((r.chains i).blocks).flatten) = fun i => (r.htlc i).logs :=
    funext fun i => (r.chains i).mined
  rw [hlogs] at hseen
  -- All events have been fed, so they fit.
  have hfits : ∀ i, ∀ e ∈ (r.htlc i).logs, EventFits e := fun i e he =>
    fits_of_feed hfeed (i, e) (hseen.mem_iff.mpr he)
  obtain ⟨t, hfeed', ht⟩ := feed_tracks hchains hexplains hfits hseen
  rw [hfeed, Option.some.injEq] at hfeed'
  subst hfeed'
  have hmirrors := ht.mirrors hchains hexplains hfits hseen
  have hhashes : (m.tracker.report r.now).correlated.map Prod.fst =
      m.tracker.correlatedHashlocks := by
    simp [SwapTracker.report, Function.comp_def]
  refine ⟨fun h => ?_, ?_, ?_, ?_⟩
  · rw [hhashes, ht.distinct.mem_correlatedHashlocks]
    simp only [ht.mem_legsOf hexplains hseen]
    constructor
    -- Two legs on different chains: one is on chain A and one on chain B.
    · rintro ⟨l, ⟨i, id, hexists, hhash, rfl⟩, l', ⟨j, id', hexists', hhash', rfl⟩, hne⟩ k
      have hij : i ≠ j := fun hij => hne (congrArg chainIds hij)
      by_cases hk : k = i
      · subst hk
        exact ⟨id, hexists, hhash⟩
      · obtain rfl : k = j := by
          revert hk hij
          cases i <;> cases j <;> cases k <;> simp
        exact ⟨id', hexists', hhash'⟩
    · intro hboth
      obtain ⟨id, hexists, hhash⟩ := hboth false
      obtain ⟨id', hexists', hhash'⟩ := hboth true
      refine ⟨_, ⟨false, id, hexists, hhash, rfl⟩, _, ⟨true, id', hexists', hhash', rfl⟩, ?_⟩
      exact fun hids => absurd (hchains hids) (by decide)
  · rw [hhashes]
    exact (List.filter_sublist.map _).nodup ht.distinct
  · intro h p hmem
    obtain ⟨k, -, hk⟩ := List.mem_map.mp hmem
    obtain ⟨rfl, rfl⟩ := Prod.mk.inj hk
    exact ⟨hmirrors.sound k, hmirrors.known k⟩
  · refine ⟨m.tracker.timedOut r.now, hmirrors.timedOutOnce r.now, rfl, ?_⟩
    exact hmirrors.timedOut r.now

/-- What ends the loop after `n` reports. -/
def EndsAfter (rounds : List (Round cr D π)) (n : Nat) : Fallible String LoopState → Prop
  | .ok _ => n = rounds.length
  | .err _ => ∃ r, rounds[n]? = some r ∧ ¬r.Answered
  | .panicked => ∃ r, rounds[n]? = some r ∧ ¬r.Fits

theorem EndsAfter.cons {rounds : List (Round cr D π)} {n : Nat} {result : Fallible String LoopState}
    (h : EndsAfter rounds n result) {r : Round cr D π} :
    EndsAfter (r :: rounds) (n + 1) result := by
  cases result with
  | ok m => exact congrArg Nat.succ h
  | err e => exact h
  | panicked => exact h

/-- The run rule: the loop goes on from a state that has caught up. -/
theorem CaughtUp.watch (hchains : Function.Injective chainIds) (hstd : ∀ i, (D i).AllStandard)
    {blocks : Bool → List (List Event)} (hm : CaughtUp cr chainIds blocks m)
    {rounds : List (Round cr D π)} (hgrow : rounds.IsChain Round.GrowsTo)
    (hfirst : ∀ r, rounds.head? = some r → ∀ i, blocks i <+: (r.chains i).blocks) :
    let w := m.watch cr (chainIds false) (chainIds true) (rounds.map Round.answers)
    List.Forall₂ (fun report r => Report.Right cr chainIds r.htlc r.now report) w.1
        (rounds.take w.1.length) ∧ EndsAfter rounds w.1.length w.2 := by
  induction rounds generalizing m blocks with
  | nil => exact ⟨.nil, rfl⟩
  | cons r rounds ih =>
    have hround := hm.round (hfirst r rfl)
    simp only [List.map_cons, LoopState.watch]
    generalize m.round cr (chainIds false) (chainIds true) r.answers = result at hround
    cases hround with
    | unanswered e h => exact ⟨.nil, r, rfl, h⟩
    | tooLarge h => exact ⟨.nil, r, rfl, h⟩
    | reported m' hm' =>
      have hnext : ∀ r', rounds.head? = some r' →
          ∀ i, (r.chains i).blocks <+: (r'.chains i).blocks := by
        intro r' hr'
        obtain ⟨rest, rfl⟩ := List.head?_eq_some_iff.mp hr'
        exact (List.isChain_cons_cons.mp hgrow).1
      obtain ⟨hright, hend⟩ := ih hm' hgrow.tail hnext
      refine ⟨?_, hend.cons⟩
      simp only [List.length_cons, List.take_succ_cons]
      exact .cons (hm'.right hchains hstd) hright

end Reports

/-- **The watching loop is right.** Two chains run both contracts with standard
    tokens, are watched from their genesis and are never rolled back. However
    many rounds the loop makes and whatever is mined in between, each report says
    which hashlocks have records on both chains, shows a preimage exactly for
    those that some redeem has revealed, and warns once of each record that is
    active past its timelock. The loop ends only in a round in which an endpoint
    fails, or a chain has a lock that does not fit. -/
theorem maestro_reports_right {cr : Crypto} {chainIds : Bool → U64}
    (hchains : Function.Injective chainIds) {D : Bool → Deployment}
    (hstd : ∀ i, (D i).AllStandard) {π : Bool → Policy} {rounds : List (Round cr D π)}
    (hgrow : rounds.IsChain Round.GrowsTo) :
    let w := LoopState.start.watch cr (chainIds false) (chainIds true) (rounds.map Round.answers)
    List.Forall₂ (fun report r => Report.Right cr chainIds r.htlc r.now report) w.1
        (rounds.take w.1.length) ∧ EndsAfter rounds w.1.length w.2 :=
  CaughtUp.start.watch hchains hstd hgrow fun _ _ _ => List.nil_prefix

namespace Sample

open Exchange.Sample (maker rival crypto deployment ledger ethLock ethLockId longLock longLockId)
open HashedTimelock.Sample (hashlock preimage)

/-- `maker` has locked on chain A and `rival` on chain B. -/
def bothLocked (i : Bool) : PolledChain where
  blocks := [[], [cond i (Exchange.lockEvent rival longLock longLockId)
    (Exchange.lockEvent maker ethLock ethLockId)]]
  numberError := none
  logsError := none
  nonempty := by cases i <;> decide
  fits := by cases i <;> decide

/-- The lock on chain B has been redeemed. -/
def oneRedeemed (i : Bool) : PolledChain where
  blocks := (bothLocked i).blocks ++ [cond i [.logRedeem longLockId preimage] []]
  numberError := none
  logsError := none
  nonempty := by cases i <;> decide
  fits := by cases i <;> decide

def roundAnswers (p : Bool → PolledChain) (now : U64) : RoundAnswers :=
  ⟨(p false).answers, (p true).answers, now⟩

theorem watch_eq :
    let w := LoopState.start.watch crypto (chainIds false) (chainIds true)
      [roundAnswers bothLocked 20, roundAnswers oneRedeemed 1000]
    w.1.map Report.correlated = [[(hashlock, none)], [(hashlock, some preimage)]] ∧
      w.1.map Report.expired = [[], [(hashlock, 1)]] := by
  decide +kernel

/-- A script that mines the logs of a chain. -/
theorem live (p : PolledChain) (as : List Exchange.Action)
    (h : (((Exchange.script crypto deployment).performAll as ⟨State.fresh ledger, []⟩).any
      fun c => decide (c.saved = [] ∧ p.blocks.flatten = c.cur.htlc.logs)) = true) :
    ∃ q : LiveChain crypto deployment Exchange.anyone, q.toPolledChain = p := by
  obtain ⟨⟨s, ss⟩, hrun, htest⟩ := (Exchange.script crypto deployment).exists_run as _ _ h
  obtain ⟨rfl, hlogs⟩ := of_decide_eq_true htest
  exact ⟨⟨p, s, ⟨ledger, Exchange.Sample.genesis, hrun⟩, hlogs⟩, rfl⟩

end Sample

/-- Both locks are seen in the first round; in the second one the lock on chain
    B has been redeemed and the one on chain A has expired. -/
theorem maestro_reports_right_of_redeemed_lock :
    ∃ rounds : List (Round Exchange.Sample.crypto (fun _ => Exchange.Sample.deployment)
        fun _ => Exchange.anyone),
      let w := LoopState.start.watch Exchange.Sample.crypto (Sample.chainIds false)
        (Sample.chainIds true) (rounds.map Round.answers)
      (w.1.map Report.correlated = [[(HashedTimelock.Sample.hashlock, none)],
          [(HashedTimelock.Sample.hashlock, some HashedTimelock.Sample.preimage)]] ∧
        w.1.map Report.expired = [[], [(HashedTimelock.Sample.hashlock, 1)]]) ∧
      List.Forall₂ (fun report r => Report.Right Exchange.Sample.crypto Sample.chainIds r.htlc
        r.now report) w.1 (rounds.take w.1.length) ∧ EndsAfter rounds w.1.length w.2 := by
  have hlocked : ∀ i, ∃ q : LiveChain Exchange.Sample.crypto Exchange.Sample.deployment
      Exchange.anyone, q.toPolledChain = Sample.bothLocked i
    | false => Sample.live _ [.tx 10 Exchange.Sample.maker (.newSwap 5 Exchange.Sample.ethLock)]
        (by decide +kernel)
    | true => Sample.live _ [.tx 10 Exchange.Sample.rival (.newSwap 7 Exchange.Sample.longLock)]
        (by decide +kernel)
  have hredeemed : ∀ i, ∃ q : LiveChain Exchange.Sample.crypto Exchange.Sample.deployment
      Exchange.anyone, q.toPolledChain = Sample.oneRedeemed i
    | false => Sample.live _ [.tx 10 Exchange.Sample.maker (.newSwap 5 Exchange.Sample.ethLock)]
        (by decide +kernel)
    | true => Sample.live _ [.tx 10 Exchange.Sample.rival (.newSwap 7 Exchange.Sample.longLock),
        .tx 30 Exchange.Sample.maker
          (.redeem Exchange.Sample.longLockId HashedTimelock.Sample.preimage), .resume 30]
        (by decide +kernel)
  choose q hq using hlocked
  choose q' hq' using hredeemed
  have hgrow : [(⟨q, 20⟩ : Round Exchange.Sample.crypto (fun _ => Exchange.Sample.deployment)
      fun _ => Exchange.anyone), ⟨q', 1000⟩].IsChain Round.GrowsTo := by
    refine List.isChain_pair.mpr fun i => ?_
    simp only [hq, hq']
    exact List.prefix_append ..
  have hchains : Function.Injective Sample.chainIds := by
    rintro (_ | _) (_ | _) <;> decide
  refine ⟨_, ?_, maestro_reports_right hchains
    (fun _ => Exchange.Sample.deployment_allStandard) hgrow⟩
  have hanswers : [(⟨q, 20⟩ : Round Exchange.Sample.crypto (fun _ => Exchange.Sample.deployment)
      fun _ => Exchange.anyone), ⟨q', 1000⟩].map Round.answers =
      [Sample.roundAnswers Sample.bothLocked 20, Sample.roundAnswers Sample.oneRedeemed 1000] := by
    simp [Round.answers, Sample.roundAnswers, hq, hq']
  rw [hanswers]
  exact Sample.watch_eq

end Kael.Maestro
