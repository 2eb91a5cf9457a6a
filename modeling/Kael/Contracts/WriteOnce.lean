import Kael.Contracts.Reentrancy

/-!
# Write-Once Records and Single Settlement

For every contract id, at most one `newSwap` returns, the record it wrote never
changes its defining fields, and the record is settled at most once. Sequential
calls have these properties because `newSwap` checks for a duplicate before it
writes, but the token call lies between the check and the write: a nested
`newSwap` of the same id creates the record first, may even redeem it, and the
outer call then overwrites it.

The exact condition is that every returning `newSwap` finds its slot vacant
(`SlotVacant`). Runs that meet it keep all of the above, and the first return
that violates it opens the id a second time.
-/

namespace Kael.HashedTimelock

open NestedCalls

/-! ## Counting events -/

/-- The event reports a new record at `c`. -/
def Event.opens (c : Bytes32) : Event → Bool
  | .logNewSwap contractId .. => contractId = c
  | _ => false

/-- The event reports the settlement of the record at `c`. -/
def Event.settles (c : Bytes32) : Event → Bool
  | .logRedeem contractId _ => contractId = c
  | .logRefund contractId => contractId = c
  | .logNewSwap .. => false

/-- How many calls of `newSwap` for `c` have returned. -/
def Storage.opened (st : Storage) (c : Bytes32) : Nat := st.logs.countP (Event.opens c)

/-- How many `LogRedeem` and `LogRefund` have been emitted for `c`. -/
def Storage.settled (st : Storage) (c : Bytes32) : Nat := st.logs.countP (Event.settles c)

/-- The open call will settle `c` when it returns. -/
def Frame.settles (c : Bytes32) : Frame → Bool
  | .payout _ _ done => done.settles c
  | _ => false

/-! ## The law -/

/-- The law on one state. -/
structure SettlesOnce (st : Storage) : Prop where
  openedOnce : ∀ c, st.opened c ≤ 1
  settledOnce : ∀ c, st.settled c ≤ 1
  notBoth : ∀ c, ¬((st.swaps c).withdrawn = true ∧ (st.swaps c).refunded = true)

/-- The law on a record and a later reading of it. -/
structure RecordKept (s s' : Swap) : Prop where
  fields : s'.terms = s.terms
  withdrawn : s.withdrawn = true → s'.withdrawn = true
  refunded : s.refunded = true → s'.refunded = true

/-- A `newSwap` about to return has its slot to itself. -/
def SlotVacant (w : World) : Prop :=
  ∀ sender a contractId moved fs, w.frames = .newSwap sender a contractId moved :: fs →
    ¬(w.htlc.swaps contractId).Exists

/-- `SlotVacant`, computed: only the innermost call can return. -/
def World.slotVacant (w : World) : Bool :=
  match w.frames with
  | .newSwap _ _ contractId _ :: _ => !decide (w.htlc.swaps contractId).Exists
  | _ => true

theorem World.slotVacant_iff {w : World} : w.slotVacant = true ↔ SlotVacant w := by
  unfold World.slotVacant SlotVacant
  split
  · rename_i sender a contractId moved fs hframes
    refine ⟨fun h s a' c m fs' heq => ?_, fun h => ?_⟩
    · rw [hframes] at heq
      cases heq
      simpa using h
    · simpa using h sender a contractId moved fs hframes
  · rename_i hframes
    exact ⟨fun _ s a c m fs heq => absurd heq (hframes s a c m fs), fun _ => rfl⟩

instance : DecidablePred SlotVacant := fun _ => decidable_of_iff _ World.slotVacant_iff

/-- The runs in which every returning `newSwap` finds its slot vacant. -/
def guarded (S : Setting) : CallSystem World := (anyTime S).guardLeave SlotVacant

/-! ## The invariant -/

/-- Records, events and open calls agree. -/
structure Bookkeeping (w : World) : Prop where
  opened : ∀ c, w.htlc.opened c = if (w.htlc.swaps c).Exists then 1 else 0
  settled : ∀ c, w.htlc.settled c + w.frames.countP (Frame.settles c) =
    if (w.htlc.swaps c).withdrawn ∨ (w.htlc.swaps c).refunded then 1 else 0
  notBoth : ∀ c, ¬((w.htlc.swaps c).withdrawn = true ∧ (w.htlc.swaps c).refunded = true)
  vacant : ∀ c, ¬(w.htlc.swaps c).Exists →
    (w.htlc.swaps c).withdrawn = false ∧ (w.htlc.swaps c).refunded = false
  /-- What a payout emits when it returns. -/
  emits : ∀ p moved done, .payout p moved done ∈ w.frames → ∀ c, done.opens c = false
  callers : ∀ sender a contractId moved,
    .newSwap sender a contractId moved ∈ w.frames → sender ≠ zeroAddress

theorem Bookkeeping.fresh (held : Address → Nat) : Bookkeeping (World.fresh held) where
  opened c := by simp [World.fresh, Storage.empty, Storage.opened]
  settled c := by simp [World.fresh, Storage.empty, Storage.settled, Swap.empty]
  notBoth c := by simp [World.fresh, Storage.empty, Swap.empty]
  vacant c _ := by simp [World.fresh, Storage.empty, Swap.empty]
  emits _ _ _ h := absurd h List.not_mem_nil
  callers _ _ _ _ h := absurd h List.not_mem_nil

theorem Bookkeeping.settlesOnce {w : World} (hw : Bookkeeping w) : SettlesOnce w.htlc where
  openedOnce c := by rw [hw.opened c]; split_ifs <;> omega
  settledOnce c := by
    have hsettled := hw.settled c
    split_ifs at hsettled <;> omega
  notBoth := hw.notBoth

/-- Writing a record into a vacant slot, from whichever frames `fs` are left. -/
private theorem Bookkeeping.writeSwap {w : World} (hw : Bookkeeping w) {sender : Address}
    (hsender : sender ≠ zeroAddress) (a : NewSwap) {contractId : Bytes32}
    (hvacant : ¬(w.htlc.swaps contractId).Exists) (held : Address → Nat) {fs : List Frame}
    (hcount : ∀ c, fs.countP (Frame.settles c) = w.frames.countP (Frame.settles c))
    (hsub : ∀ f ∈ fs, f ∈ w.frames) :
    Bookkeeping { w with
      htlc := w.htlc.writeSwap sender a contractId, held := held, frames := fs } := by
  have hclear := hw.vacant contractId hvacant
  refine ⟨fun c => ?_, fun c => ?_, fun c => ?_, fun c => ?_,
    fun p m d hm => hw.emits p m d (hsub _ hm), fun s a' i m hm => hw.callers s a' i m (hsub _ hm)⟩
  -- `opened`: one lock more for this id, whose slot was vacant.
  · have hopened := hw.opened c
    simp only [Storage.opened, Storage.writeSwap, List.countP_append, Function.update_apply]
      at hopened ⊢
    rw [hopened]
    by_cases hc : c = contractId
    · subst hc
      simp [hvacant, Event.opens, hsender]
    · simp [hc, Event.opens, Ne.symm hc]
  -- `settled`: a vacant slot has not been settled.
  · have hsettled := hw.settled c
    simp only [Storage.settled, Storage.writeSwap, List.countP_append, Function.update_apply,
      hcount] at hsettled ⊢
    by_cases hc : c = contractId
    · subst hc
      simp only [hclear] at hsettled
      simpa [Event.settles, NewSwap.record] using hsettled
    · simpa [hc, Event.settles] using hsettled
  -- `notBoth` and `vacant`: both flags of a new record are unset.
  · rw [Storage.writeSwap_swaps]
    split_ifs
    · simp [NewSwap.record]
    · exact hw.notBoth c
  · rw [Storage.writeSwap_swaps]
    split_ifs
    · simp [NewSwap.record]
    · exact hw.vacant c

/-- Settling an active record and opening its payout. `st` is the storage with
    the flag of `contractId` set. -/
private theorem Bookkeeping.startPayout {S : Setting} {w w' : World} {contractId : Bytes32}
    {p : Payout} {done : Event} (hw : Bookkeeping w) (st : Storage)
    (hactive : (w.htlc.swaps contractId).Active) (hlogs : st.logs = w.htlc.logs)
    (hother : ∀ c, c ≠ contractId → st.swaps c = w.htlc.swaps c)
    (hsender : (st.swaps contractId).sender = (w.htlc.swaps contractId).sender)
    (hflag : (st.swaps contractId).withdrawn = !(st.swaps contractId).refunded)
    (hdone : ∀ c, done.settles c = decide (c = contractId) ∧ done.opens c = false)
    (h : World.startPayout S p done { w with htlc := st } = .ok w') : Bookkeeping w' := by
  have hexists : (w.htlc.swaps contractId).Exists := hactive.1
  have hkeep : ∀ c, (st.swaps c).Exists ↔ (w.htlc.swaps c).Exists := by
    intro c
    by_cases hc : c = contractId
    · subst hc; simp [Swap.Exists, hsender]
    · rw [hother c hc]
  -- Whether the payout moves ETH at once or waits for a token, it is one frame more.
  obtain ⟨moved, held, rfl⟩ : ∃ moved held, w' =
      { w with htlc := st, held := held, frames := .payout p moved done :: w.frames } := by
    rcases World.startPayout_ok.mp h with ⟨-, -, -, rfl⟩ | ⟨-, rfl⟩
    · exact ⟨true, _, rfl⟩
    · exact ⟨false, _, rfl⟩
  refine ⟨fun c => ?_, fun c => ?_, fun c => ?_, fun c hc => ?_, fun p' m d hm c => ?_,
    fun s a i m hm => ?_⟩
  · simpa [Storage.opened, hlogs, hkeep] using hw.opened c
  · have hsettled := hw.settled c
    simp only [Storage.settled, hlogs, List.countP_cons, Frame.settles, (hdone c).1,
      decide_eq_true_eq] at hsettled ⊢
    by_cases hc : c = contractId
    · subst hc
      simp only [hactive.2] at hsettled
      have hset : (st.swaps c).withdrawn = true ∨ (st.swaps c).refunded = true := by
        rw [hflag]; cases (st.swaps c).refunded <;> simp
      rw [if_pos hset]
      simp only [Bool.false_eq_true, or_self, ↓reduceIte] at hsettled ⊢
      omega
    · simpa [hc, hother c hc] using hsettled
  · by_cases hc : c = contractId
    · subst hc; simp [hflag]
    · rw [hother c hc]; exact hw.notBoth c
  · have hne : c ≠ contractId := fun heq => hc (by rw [hkeep, heq]; exact hexists)
    dsimp only at hc ⊢
    rw [hother c hne] at hc ⊢
    exact hw.vacant c hc
  · rcases List.mem_cons.mp hm with heq | hm'
    · cases heq; exact (hdone c).2
    · exact hw.emits p' m d hm' c
  · exact hw.callers s a i m (by simpa using hm)

/-- **Step rule**: opening calls keeps the books. -/
theorem Bookkeeping.effect {S : Setting} {w w' : World} (hw : Bookkeeping w)
    (h : Effect S w w') : Bookkeeping w' := by
  cases h with
  -- An ETH lock writes at once.
  | lockEth sender a contractId hsender htoken habsent h =>
    subst h
    exact hw.writeSwap hsender.1 a habsent _ (fun _ => rfl) fun _ hf => hf
  -- A token's lock waits first; nothing is written yet.
  | openLock sender a contractId hsender habsent h =>
    subst h
    refine ⟨hw.opened, fun c => ?_, hw.notBoth, hw.vacant, fun p m d hm => ?_,
      fun s a' i m hm => ?_⟩
    · simpa [Frame.settles] using hw.settled c
    · exact hw.emits p m d (by simpa using hm)
    · rcases List.mem_cons.mp hm with heq | hm'
      · cases heq; exact hsender.1
      · exact hw.callers s a' i m hm'
  -- A payout sets a flag at once and waits with its event.
  | openRedeem contractId preimage hactive h =>
    refine hw.startPayout (w.htlc.setWithdrawn contractId) hactive rfl (fun c hc => ?_) ?_ ?_
      (fun c => ?_) h
    · simp [Storage.setWithdrawn_swaps, hc]
    · simp [Storage.setWithdrawn_swaps]
    · simp [Storage.setWithdrawn_swaps, hactive.2.2]
    · simp [Event.settles, Event.opens, eq_comm]
  | openRefund contractId hactive h =>
    refine hw.startPayout (w.htlc.setRefunded contractId) hactive rfl (fun c hc => ?_) ?_ ?_
      (fun c => ?_) h
    · simp [Storage.setRefunded_swaps, hc]
    · simp [Storage.setRefunded_swaps]
    · simp [Storage.setRefunded_swaps, hactive.2.1]
    · simp [Event.settles, Event.opens, eq_comm]
  -- A token moves: the innermost frame keeps its event and its lock.
  | transfer h =>
    obtain ⟨hhtlc, hcase⟩ := World.transfer_frames h
    obtain ⟨f, f', fs, hf, hf', hsettles, hpay, hnew⟩ : ∃ f f' fs, w.frames = f :: fs ∧
        w'.frames = f' :: fs ∧ (∀ c, f'.settles c = f.settles c) ∧
        (∀ p m d, f' = .payout p m d → ∃ m', f = .payout p m' d) ∧
        (∀ s a i m, f' = .newSwap s a i m → ∃ m', f = .newSwap s a i m') := by
      rcases hcase with ⟨s, a, i, fs, hf, hf'⟩ | ⟨p, d, fs, hf, hf'⟩
      · exact ⟨_, _, fs, hf, hf', fun _ => rfl, by simp, by simp⟩
      · exact ⟨_, _, fs, hf, hf', fun _ => rfl, by simp, by simp⟩
    refine ⟨by rw [hhtlc]; exact hw.opened, fun c => ?_, by rw [hhtlc]; exact hw.notBoth,
      by rw [hhtlc]; exact hw.vacant, fun p m d hm => ?_, fun s a i m hm => ?_⟩
    · have hsettled := hw.settled c
      rw [hf, List.countP_cons] at hsettled
      rw [hf', hhtlc, List.countP_cons, hsettles]
      exact hsettled
    · rw [hf'] at hm
      rcases List.mem_cons.mp hm with heq | hm'
      · obtain ⟨m', hm'⟩ := hpay p m d heq.symm
        exact hw.emits p m' d (by rw [hf, hm']; exact List.mem_cons_self ..)
      · exact hw.emits p m d (by rw [hf]; exact List.mem_cons_of_mem _ hm')
    · rw [hf'] at hm
      rcases List.mem_cons.mp hm with heq | hm'
      · obtain ⟨m', hm'⟩ := hnew s a i m heq.symm
        exact hw.callers s a i m' (by rw [hf, hm']; exact List.mem_cons_self ..)
      · exact hw.callers s a i m (by rw [hf]; exact List.mem_cons_of_mem _ hm')
  -- Foreign code starts, or funds arrive: no frame of the HTLC changes.
  | foreign hhtlc hframes hheld =>
    have hmem : ∀ f ∈ w'.frames, f ≠ .other → f ∈ w.frames := by
      intro f hf hne
      rcases hframes with h | h
      · rw [h] at hf
        exact (List.mem_cons.mp hf).resolve_left hne
      · rwa [h] at hf
    have hcount : ∀ c, w'.frames.countP (Frame.settles c) = w.frames.countP (Frame.settles c) := by
      intro c
      rcases hframes with h | h <;> simp [h, Frame.settles]
    refine ⟨by rw [hhtlc]; exact hw.opened, fun c => ?_, by rw [hhtlc]; exact hw.notBoth,
      by rw [hhtlc]; exact hw.vacant, fun p m d hm => ?_, fun s a i m hm => ?_⟩
    · rw [hhtlc, hcount]; exact hw.settled c
    · exact hw.emits p m d (hmem _ hm (by simp))
    · exact hw.callers s a i m (hmem _ hm (by simp))

/-- Returning keeps the books if the returning `newSwap` finds its slot vacant. -/
theorem Bookkeeping.return {S : Setting} {w w' : World} (hw : Bookkeeping w)
    (hvacant : SlotVacant w) (h : Return S w w') : Bookkeeping w' := by
  cases h with
  | closeLock sender a contractId moved fs hframes hmoved h =>
    have hsender : sender ≠ zeroAddress :=
      hw.callers sender a contractId moved (by rw [hframes]; exact List.mem_cons_self ..)
    subst h
    refine hw.writeSwap hsender a (hvacant sender a contractId moved fs hframes) w.held
      (fun c => ?_) fun f hf => ?_
    · simp [hframes, Frame.settles]
    · rw [hframes]; exact List.mem_cons_of_mem _ hf
  | closePayout p moved done fs hframes h =>
    subst h
    have hopens := hw.emits p moved done (by rw [hframes]; exact List.mem_cons_self ..)
    have hsub : ∀ f ∈ fs, f ∈ w.frames := fun f hf => by
      rw [hframes]; exact List.mem_cons_of_mem _ hf
    refine ⟨fun c => ?_, fun c => ?_, hw.notBoth, hw.vacant, fun p' m d hm => ?_,
      fun s a i m hm => ?_⟩
    · have hopened : (w.htlc.emit done).opened c = w.htlc.opened c := by
        simp [Storage.opened, hopens c]
      exact hopened.trans (hw.opened c)
    · -- The settlement moves from the open call to the log.
      have hmoves : (w.htlc.emit done).settled c + fs.countP (Frame.settles c) =
          w.htlc.settled c + w.frames.countP (Frame.settles c) := by
        by_cases hsettles : done.settles c = true
        · simp [Storage.settled, hframes, Frame.settles, hsettles]
          omega
        · simp [Storage.settled, hframes, Frame.settles, hsettles]
      exact hmoves.trans (hw.settled c)
    · exact hw.emits p' m d (hsub _ hm)
    · exact hw.callers s a i m (hsub _ hm)
  | closeOther fs hframes h =>
    subst h
    have hsub : ∀ f ∈ fs, f ∈ w.frames := fun f hf => by
      rw [hframes]; exact List.mem_cons_of_mem _ hf
    refine ⟨hw.opened, fun c => ?_, hw.notBoth, hw.vacant, fun p m d hm => hw.emits p m d (hsub _ hm),
      fun s a i m hm => hw.callers s a i m (hsub _ hm)⟩
    simpa [hframes, Frame.settles] using hw.settled c

/-! ## Runs that meet the condition -/

/-- The moves of `guarded` are moves, and their returns meet the condition. -/
theorem guarded_cases {S : Setting} {w w' : World} (h : (guarded S).Moves w w') :
    Effect S w w' ∨ (SlotVacant w ∧ Return S w w') := by
  cases h with
  | enter h => exact .inl (.of_enters h.choose_spec)
  | act h => exact .inl (.of_acts h.choose_spec)
  | leave h => exact .inr ⟨h.2, .of_finish h.1.choose_spec⟩

theorem Bookkeeping.invariant (S : Setting) : Invariant (guarded S) Bookkeeping := by
  intro w w' hw hmove
  rcases guarded_cases hmove with heffect | ⟨hvacant, hreturn⟩
  · exact hw.effect heffect
  · exact hw.return hvacant hreturn

/-- Run rule. -/
theorem Bookkeeping.run {S : Setting} {held : Address → Nat} {c : Config World}
    (h : Run (guarded S) ⟨World.fresh held, []⟩ c) : c.All Bookkeeping :=
  (Bookkeeping.invariant S).run h (.of_cur (.fresh held))

/-- Under the condition every move takes tickets forward. -/
theorem guarded_progress (S : Setting) :
    Progress (guarded S) fun w w' => w.htlc.Extends w'.htlc where
  refl w := .refl w.htlc
  trans := .trans
  moves {w w'} hmove := by
    rcases guarded_cases hmove with heffect | ⟨hvacant, hreturn⟩
    · cases heffect with
      | lockEth sender a contractId hsender htoken habsent h => subst h; exact .writeSwap habsent
      | openLock sender a contractId hsender habsent h => subst h; exact .refl _
      | openRedeem contractId preimage hactive h =>
        rcases World.startPayout_ok.mp h with ⟨-, -, -, rfl⟩ | ⟨-, rfl⟩ <;>
          exact .setWithdrawn hactive
      | openRefund contractId hactive h =>
        rcases World.startPayout_ok.mp h with ⟨-, -, -, rfl⟩ | ⟨-, rfl⟩ <;>
          exact .setRefunded hactive
      | transfer h => rw [(World.transfer_frames h).1]; exact .refl _
      | foreign hhtlc => rw [hhtlc]; exact .refl _
    · cases hreturn with
      -- The condition on returns: the slot is still vacant.
      | closeLock sender a contractId moved fs hframes hmoved h =>
        subst h
        exact .writeSwap (hvacant sender a contractId moved fs hframes)
      | closePayout p moved done fs hframes h =>
        subst h
        exact .of_swaps_eq rfl
      | closeOther fs hframes h => subst h; exact .refl _

/-- The order on tickets, read on the fields of a record. -/
theorem RecordKept.of_stage_le {s s' : Swap} (h : s.stage ≤ s'.stage) (hs : s.Exists)
    (hboth : ¬(s.withdrawn = true ∧ s.refunded = true)) : RecordKept s s' := by
  obtain ⟨hs', hterms⟩ := Swap.terms_eq_of_stage_le h hs
  have hne : s.sender ≠ zeroAddress := hs
  have hne' : s'.sender ≠ zeroAddress := hs'
  refine ⟨hterms, fun hw => ?_, fun hr => ?_⟩
  -- Withdrawn for good.
  · have hstage : s.stage = .claimed s.terms := by simp [Swap.stage, hne, hw]
    rw [hstage, Escrow.Stage.claimed_le] at h
    unfold Swap.stage at h
    split_ifs at h with hs0 hw' hr'
    exact hw'
  -- Refunded for good, which needs that it was not withdrawn.
  · have hw : s.withdrawn = false := by simpa [hr] using hboth
    have hstage : s.stage = .reclaimed s.terms := by simp [Swap.stage, hne, hw, hr]
    rw [hstage, Escrow.Stage.reclaimed_le] at h
    unfold Swap.stage at h
    split_ifs at h with hs0 hw' hr'
    exact hr'

/-- A `newSwap` that returns over an existing record opens its id once more. -/
theorem opened_of_slot_taken {S : Setting} {w w' : World} (hw : Bookkeeping w)
    (hfinish : w.finish S = some w') (htaken : ¬SlotVacant w) :
    ∃ c, w'.htlc.opened c = 2 := by
  unfold SlotVacant at htaken
  push Not at htaken
  obtain ⟨sender, a, contractId, moved, fs, hframes, hexists⟩ := htaken
  refine ⟨contractId, ?_⟩
  have hopened := hw.opened contractId
  rw [if_pos hexists] at hopened
  simp only [World.finish, hframes] at hfinish
  split_ifs at hfinish
  cases hfinish
  simpa [Storage.opened, Storage.writeSwap, Event.opens] using hopened

/-- **Write-once records and single settlement.** In every run whose returning
    `newSwap` calls find their slots vacant: each id is opened and settled at
    most once and is never both withdrawn and refunded; as long as a state is
    not undone, its records keep their fields and their flags; and the condition
    is exact: the next return keeps the law if and only if it meets it. -/
theorem settles_once_iff_slot_vacant {S : Setting} {held : Address → Nat} {c : Config World}
    (h : Run (guarded S) ⟨World.fresh held, []⟩ c) :
    SettlesOnce c.cur.htlc ∧
    (∀ w inner outer, Kept (guarded S) c w inner outer → ∀ contractId,
      (c.cur.htlc.swaps contractId).Exists →
      RecordKept (c.cur.htlc.swaps contractId) (w.htlc.swaps contractId)) ∧
    (∀ w', c.cur.finish S = some w' → (SettlesOnce w'.htlc ↔ SlotVacant c.cur)) := by
  have hbooks : Bookkeeping c.cur := (Bookkeeping.run h).1
  refine ⟨hbooks.settlesOnce, fun w inner outer hkept contractId hexists => ?_,
    fun w' hfinish => ⟨fun honce => ?_, fun hvacant => ?_⟩⟩
  -- Records that exist stay as they are, up to their flags.
  · have hextends := ((guarded_progress S).kept hkept).1
    exact .of_stage_le (hextends contractId) hexists (hbooks.notBoth contractId)
  -- Otherwise the id is opened twice.
  · by_contra htaken
    obtain ⟨id, hid⟩ := opened_of_slot_taken hbooks hfinish htaken
    have hle := honce.openedOnce id
    omega
  · exact (hbooks.return hvacant (.of_finish hfinish)).settlesOnce

/-- A lock whose token lets somebody else lock another id meets the law. -/
theorem settles_once_after_nested_lock :
    ∃ c, Run (guarded Sample.setting) ⟨World.fresh fun _ => 0, []⟩ c ∧
      (c.cur.htlc.swaps Sample.contractId).withdrawn = true ∧ SettlesOnce c.cur.htlc := by
  obtain ⟨c, hrun, htest⟩ := (script Sample.setting SlotVacant).exists_run
    [.newSwap 10 ⟨Sample.alice, 0⟩ Sample.lock, .newSwap 10 ⟨Sample.bob, 7⟩ Sample.ethLock,
      .transfer, .finish, .redeem 10 Sample.contractId Sample.preimage, .transfer, .finish]
    ⟨World.fresh fun _ => 0, []⟩
    (fun c => (c.cur.htlc.swaps Sample.contractId).withdrawn) (by decide +kernel)
  exact ⟨c, hrun, htest, (settles_once_iff_slot_vacant hrun).1⟩

/-- A lock in which the token calls `newSwap` again with the same arguments,
    through the locker's account, and lets the nested record be redeemed. -/
def reenteredLock : List Action :=
  let lock : Action := .newSwap 10 ⟨Sample.alice, 0⟩ Sample.lock
  let redeem : Action := .redeem 10 Sample.contractId Sample.preimage
  [lock, lock, .transfer, .finish, redeem, .transfer, .finish, .transfer, .finish,
    redeem, .transfer, .finish]

/-- Without the condition the law fails: both calls return, and both records
    are redeemed under one contract id. -/
theorem reentered_lock_settles_twice :
    ∃ c, Run (anyTime Sample.setting) ⟨World.fresh fun _ => 0, []⟩ c ∧
      c.cur.frames = [] ∧ c.cur.htlc.opened Sample.contractId = 2 ∧
      c.cur.htlc.settled Sample.contractId = 2 := by
  obtain ⟨c, hrun, htest⟩ := (script Sample.setting fun _ => True).exists_run reenteredLock
    ⟨World.fresh fun _ => 0, []⟩
    (fun c => decide (c.cur.frames = [] ∧ c.cur.htlc.opened Sample.contractId = 2 ∧
      c.cur.htlc.settled Sample.contractId = 2)) (by decide +kernel)
  exact ⟨c, hrun.of_guardLeave, of_decide_eq_true htest⟩

end Kael.HashedTimelock
