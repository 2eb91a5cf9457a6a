import Kael.Contracts.WriteOnce

/-!
# Logs and Records Explain Each Other

Between calls the event log of the HTLC and its records say the same: a record
exists exactly if its lock event was emitted, it is withdrawn or refunded
exactly if the event of that settlement was emitted, a redeem event carries a
preimage of the record's hashlock, and every settlement comes after its lock.
Readers of the log rely on nothing else (`Explains`).

This holds of the runs in which every returning `newSwap` finds its slot
vacant. Tokens that do not call back make no others (`guarded_of_calm`).
-/

namespace Kael.HashedTimelock

open NestedCalls

/-! ## What the log says -/

/-- The records agree with the event. -/
def Event.Holds (cr : Crypto) (swaps : Bytes32 → Swap) : Event → Prop
  | .logNewSwap id sender recipient token amount hashlock timelock => (swaps id).Exists ∧
      (swaps id).terms = ⟨sender, recipient, token, amount, hashlock, timelock⟩
  | .logRedeem id p => (swaps id).Exists ∧ (swaps id).withdrawn = true ∧
      cr.hashlockOf p = (swaps id).hashlock
  | .logRefund id => (swaps id).Exists ∧ (swaps id).refunded = true

/-- Every settlement in the log comes after its lock. -/
def LocksFirst (logs : List Event) : Prop :=
  ∀ before e after id, logs = before ++ e :: after → e.settles id = true →
    ∃ lock ∈ before, lock.opens id = true

/-- The log and the records say the same. -/
structure Explains (cr : Crypto) (st : Storage) : Prop where
  sound : ∀ e ∈ st.logs, e.Holds cr st.swaps
  locked : ∀ id, (st.swaps id).Exists → ∃ e ∈ st.logs, e.opens id = true
  withdrawn : ∀ id, (st.swaps id).withdrawn = true → ∃ p, .logRedeem id p ∈ st.logs
  refunded : ∀ id, (st.swaps id).refunded = true → .logRefund id ∈ st.logs
  order : LocksFirst st.logs

/-! ## One move and the log -/

/-- An open payout will emit the event. -/
def World.Pending (w : World) (e : Event) : Prop :=
  ∃ p moved, .payout p moved e ∈ w.frames

/-- What a move does to the records, the log and the events that are pending. -/
inductive LogStep (cr : Crypto) (w w' : World) : Prop where
  | lock (sender : Address) (a : NewSwap) (id : Bytes32) (hsender : sender ≠ zeroAddress)
      (hvacant : ¬(w.htlc.swaps id).Exists) (hhtlc : w'.htlc = w.htlc.writeSwap sender a id)
      (hpending : ∀ e, w'.Pending e → w.Pending e)
  | redeem (id p : Bytes32) (hactive : (w.htlc.swaps id).Active)
      (hhash : cr.hashlockOf p = (w.htlc.swaps id).hashlock)
      (hhtlc : w'.htlc = w.htlc.setWithdrawn id)
      (hpending : ∀ e, w'.Pending e → e = .logRedeem id p ∨ w.Pending e)
  | refund (id : Bytes32) (hactive : (w.htlc.swaps id).Active)
      (hhtlc : w'.htlc = w.htlc.setRefunded id)
      (hpending : ∀ e, w'.Pending e → e = .logRefund id ∨ w.Pending e)
  | emit (e : Event) (he : w.Pending e) (hhtlc : w'.htlc = w.htlc.emit e)
      (hpending : ∀ e', w'.Pending e' → w.Pending e')
  | quiet (hhtlc : w'.htlc = w.htlc) (hpending : ∀ e, w'.Pending e → w.Pending e)

section Steps

variable {S : Setting} {now : Uint256} {w w' : World}

/-- A payout that is opened makes its event pending and leaves the storage. -/
theorem World.startPayout_pending {p : Payout} {done : Event}
    (h : World.startPayout S p done w = .ok w') :
    w'.htlc = w.htlc ∧ ∀ e, w'.Pending e → e = done ∨ w.Pending e := by
  obtain ⟨moved, hhtlc, hframes⟩ : ∃ moved, w'.htlc = w.htlc ∧
      w'.frames = .payout p moved done :: w.frames := by
    rcases World.startPayout_ok.mp h with ⟨-, -, -, rfl⟩ | ⟨-, rfl⟩
    · exact ⟨true, rfl, rfl⟩
    · exact ⟨false, rfl, rfl⟩
  refine ⟨hhtlc, ?_⟩
  rintro e ⟨p', moved', hmem⟩
  rw [hframes] at hmem
  rcases List.mem_cons.mp hmem with heq | hold
  · cases heq; exact .inl rfl
  · exact .inr ⟨p', moved', hold⟩

/-- Frames that are not payouts make nothing pending. -/
theorem World.pending_of_cons {f : Frame} (hframes : w'.frames = f :: w.frames)
    (hf : ∀ p moved done, f ≠ .payout p moved done) {e : Event} (h : w'.Pending e) :
    w.Pending e := by
  obtain ⟨p, moved, hmem⟩ := h
  rw [hframes] at hmem
  rcases List.mem_cons.mp hmem with heq | hold
  · exact absurd heq.symm (hf p moved e)
  · exact ⟨p, moved, hold⟩

theorem World.pending_of_tail {f : Frame} {fs : List Frame} (hframes : w.frames = f :: fs)
    (hframes' : w'.frames = fs) {e : Event} (h : w'.Pending e) : w.Pending e := by
  obtain ⟨p, moved, hmem⟩ := h
  rw [hframes'] at hmem
  exact ⟨p, moved, hframes ▸ List.mem_cons_of_mem _ hmem⟩

theorem LogStep.of_enters (h : Enters S now w w') : LogStep S.crypto w w' := by
  cases h with
  | newSwap msg a hsender htoken h =>
    obtain ⟨id, -, ⟨heth, -⟩ | ⟨-, rfl⟩⟩ := World.newSwap_ok h
    -- An ETH lock makes no call, so only tokens open one.
    · exact absurd heth htoken
    · exact .quiet rfl fun e => World.pending_of_cons rfl (by simp)
  | redeem id p h =>
    obtain ⟨hchecks, hpay⟩ := World.redeem_ok.mp h
    obtain ⟨hactive, -, hhash⟩ := redeemChecks_ok.mp hchecks
    obtain ⟨hhtlc, hpending⟩ := World.startPayout_pending hpay
    exact .redeem id p hactive hhash hhtlc hpending
  | refund sender id hsender h =>
    obtain ⟨hchecks, hpay⟩ := World.refund_ok.mp h
    obtain ⟨hhtlc, hpending⟩ := World.startPayout_pending hpay
    exact .refund id (refundChecks_ok.mp hchecks).1 hhtlc hpending
  -- Foreign code starts: no frame of a payout is added.
  | other h =>
    subst h
    exact .quiet rfl fun e => World.pending_of_cons rfl (by simp)

theorem LogStep.of_acts (h : Acts S now w w') : LogStep S.crypto w w' := by
  cases h with
  | newSwap msg a hsender htoken h =>
    obtain ⟨id, hchecks, ⟨-, rfl⟩ | ⟨herc20, -⟩⟩ := World.newSwap_ok h
    · obtain ⟨-, -, -, -, hvacant, -⟩ := newSwapChecks_ok.mp hchecks
      exact .lock msg.sender a id hsender.1 hvacant rfl fun _ he => he
    · exact absurd htoken herc20
  | transfer h =>
    obtain ⟨hhtlc, hframes⟩ := World.transfer_frames h
    -- Only a flag of the innermost frame changes.
    refine .quiet hhtlc ?_
    rintro e ⟨p, moved, hmem⟩
    rcases hframes with ⟨s, a, i, fs, hf, hf'⟩ | ⟨q, done, fs, hf, hf'⟩
    · rw [hf'] at hmem
      have hold : .payout p moved e ∈ fs := by simpa using hmem
      exact ⟨p, moved, hf ▸ List.mem_cons_of_mem _ hold⟩
    · rw [hf'] at hmem
      rcases List.mem_cons.mp hmem with heq | hold
      · cases heq
        exact ⟨p, false, hf ▸ List.mem_cons_self ..⟩
      · exact ⟨p, moved, hf ▸ List.mem_cons_of_mem _ hold⟩
  | gift asset n h => subst h; exact .quiet rfl fun _ he => he
  | drift token n htoken hexact h => subst h; exact .quiet rfl fun _ he => he

theorem LogStep.of_return (hw : Bookkeeping w) (hvacant : SlotVacant w) (h : Return S w w') :
    LogStep S.crypto w w' := by
  cases h with
  | closeLock sender a id moved fs hframes hmoved h =>
    subst h
    have hsender := hw.callers sender a id moved (hframes ▸ List.mem_cons_self ..)
    exact .lock sender a id hsender (hvacant sender a id moved fs hframes) rfl
      fun e => World.pending_of_tail hframes rfl
  | closePayout p moved done fs hframes h =>
    subst h
    exact .emit done ⟨p, moved, hframes ▸ List.mem_cons_self ..⟩ rfl
      fun e => World.pending_of_tail hframes rfl
  | closeOther fs hframes h =>
    subst h
    exact .quiet rfl fun e => World.pending_of_tail hframes rfl

theorem logStep_of_moves (hw : Bookkeeping w) (h : (guarded S).Moves w w') :
    LogStep S.crypto w w' := by
  cases h with
  | enter h => exact .of_enters h.choose_spec
  | act h => exact .of_acts h.choose_spec
  | leave h => exact .of_return hw h.2 (.of_finish h.1.choose_spec)

end Steps

/-! ## The invariant -/

/-- The event has been emitted or is pending. -/
def World.Announces (w : World) (e : Event) : Prop := e ∈ w.htlc.logs ∨ w.Pending e

/-- The log and the records agree, with the events that are pending. -/
structure Sourced (cr : Crypto) (w : World) : Prop where
  sound : ∀ e, w.Announces e → e.Holds cr w.htlc.swaps
  order : LocksFirst w.htlc.logs

section Invariant

variable {cr : Crypto} {w w' : World}

theorem Sourced.fresh (cr : Crypto) (held : Address → Nat) : Sourced cr (World.fresh held) where
  sound _ h := by simp [World.Announces, World.Pending, World.fresh, Storage.empty] at h
  order before e after _ h := by simp [World.fresh, Storage.empty] at h

/-- What an event says stays true. -/
theorem Event.Holds.kept {swaps swaps' : Bytes32 → Swap} {e : Event} (h : e.Holds cr swaps)
    (hkept : ∀ id, (swaps id).Exists →
      (swaps' id).Exists ∧ RecordKept (swaps id) (swaps' id)) : e.Holds cr swaps' := by
  -- Every event says something that a kept record still satisfies.
  cases e with
  | logNewSwap id sender recipient token amount hashlock timelock =>
    obtain ⟨hexists, hterms⟩ := h
    obtain ⟨hexists', hrecord⟩ := hkept id hexists
    exact ⟨hexists', hrecord.fields.trans hterms⟩
  | logRedeem id p =>
    obtain ⟨hexists, hwithdrawn, hhash⟩ := h
    obtain ⟨hexists', hrecord⟩ := hkept id hexists
    have hhashlock : (swaps' id).hashlock = (swaps id).hashlock :=
      congrArg Terms.hashlock hrecord.fields
    exact ⟨hexists', hrecord.withdrawn hwithdrawn, hhash.trans hhashlock.symm⟩
  | logRefund id =>
    obtain ⟨hexists, hrefunded⟩ := h
    obtain ⟨hexists', hrecord⟩ := hkept id hexists
    exact ⟨hexists', hrecord.refunded hrefunded⟩

/-- An event that settles a record says that the record exists. -/
theorem Event.Holds.exists_of_settles {swaps : Bytes32 → Swap} {e : Event} {id : Bytes32}
    (h : e.Holds cr swaps) (hsettles : e.settles id = true) : (swaps id).Exists := by
  cases e with
  | logNewSwap => cases hsettles
  | logRedeem id' p => exact of_decide_eq_true hsettles ▸ h.1
  | logRefund id' => exact of_decide_eq_true hsettles ▸ h.1

theorem LocksFirst.append {logs : List Event} {e : Event} (h : LocksFirst logs)
    (hnew : ∀ id, e.settles id = true → ∃ lock ∈ logs, lock.opens id = true) :
    LocksFirst (logs ++ [e]) := by
  intro before e' after id hsplit hsettles
  rcases List.eq_nil_or_concat after with rfl | ⟨rest, last, rfl⟩
  · obtain ⟨rfl, hlast⟩ := List.append_inj' hsplit rfl
    cases hlast
    exact hnew id hsettles
  · have hassoc : logs ++ [e] = (before ++ e' :: rest) ++ [last] := by
      rw [hsplit, List.concat_eq_append, List.append_assoc, List.cons_append]
    obtain ⟨hlogs, -⟩ := List.append_inj' hassoc rfl
    exact h before e' rest id hlogs hsettles

/-- A record that exists has its lock event in the log. -/
theorem Bookkeeping.locked (hw : Bookkeeping w) {id : Bytes32} (h : (w.htlc.swaps id).Exists) :
    ∃ e ∈ w.htlc.logs, e.opens id = true := by
  have hopened := hw.opened id
  rw [if_pos h] at hopened
  exact List.countP_pos_iff.mp (Nat.lt_of_lt_of_eq Nat.one_pos hopened.symm)

/-- Events that were announced before hold, and those that a move adds hold too. -/
theorem Sourced.announced (hs : Sourced cr w) (h : LogStep cr w w')
    (hkept : ∀ id, (w.htlc.swaps id).Exists →
      (w'.htlc.swaps id).Exists ∧ RecordKept (w.htlc.swaps id) (w'.htlc.swaps id))
    {e : Event} (he : w'.Announces e) : e.Holds cr w'.htlc.swaps := by
  have hold : w.Announces e → e.Holds cr w'.htlc.swaps := fun hann => (hs.sound e hann).kept hkept
  cases h with
  -- The event of the new record is the newest of the log.
  | lock sender a id hsender hvacant hhtlc hpending =>
    rcases he with hlog | hpend
    · rw [hhtlc] at hlog
      rcases List.mem_append.mp hlog with hin | hnew
      · exact hold (.inl hin)
      · cases List.mem_singleton.mp hnew
        rw [hhtlc]
        simp only [Event.Holds, Storage.writeSwap_swaps, if_pos]
        exact ⟨hsender, rfl⟩
    · exact hold (.inr (hpending e hpend))
  -- Not yet emitted: the event waits in the frame of its payout.
  | redeem id p hactive hhash hhtlc hpending =>
    rcases he with hlog | hpend
    · rw [hhtlc] at hlog
      exact hold (.inl hlog)
    · rcases hpending e hpend with rfl | hin
      · rw [hhtlc]
        simp only [Event.Holds, Storage.setWithdrawn_swaps, if_pos]
        exact ⟨hactive.1, trivial, hhash⟩
      · exact hold (.inr hin)
  | refund id hactive hhtlc hpending =>
    rcases he with hlog | hpend
    · rw [hhtlc] at hlog
      exact hold (.inl hlog)
    · rcases hpending e hpend with rfl | hin
      · rw [hhtlc]
        simp only [Event.Holds, Storage.setRefunded_swaps, if_pos]
        exact ⟨hactive.1, trivial⟩
      · exact hold (.inr hin)
  -- An event that was announced already is now emitted.
  | emit e' hpend hhtlc hpending =>
    rcases he with hlog | hpend'
    · rw [hhtlc, Storage.emit_logs] at hlog
      rcases List.mem_append.mp hlog with hin | hnew
      · exact hold (.inl hin)
      · cases List.mem_singleton.mp hnew
        exact hold (.inr hpend)
    · exact hold (.inr (hpending e hpend'))
  | quiet hhtlc hpending =>
    rcases he with hlog | hpend
    · rw [hhtlc] at hlog
      exact hold (.inl hlog)
    · exact hold (.inr (hpending e hpend))

/-- **Step rule.** -/
theorem Sourced.step (hw : Bookkeeping w) (hs : Sourced cr w) (h : LogStep cr w w')
    (hkept : ∀ id, (w.htlc.swaps id).Exists →
      (w'.htlc.swaps id).Exists ∧ RecordKept (w.htlc.swaps id) (w'.htlc.swaps id)) :
    Sourced cr w' := by
  refine ⟨fun e => hs.announced h hkept, ?_⟩
  cases h with
  | lock sender a id hsender hvacant hhtlc hpending =>
    rw [hhtlc]
    exact hs.order.append nofun
  | redeem id p hactive hhash hhtlc hpending => rw [hhtlc]; exact hs.order
  | refund id hactive hhtlc hpending => rw [hhtlc]; exact hs.order
  | emit e hpend hhtlc hpending =>
    rw [hhtlc]
    -- A payout's event comes after the lock's: its record exists, so it was locked.
    apply hs.order.append
    intro id hsettles
    exact hw.locked ((hs.sound e (.inr hpend)).exists_of_settles hsettles)
  | quiet hhtlc hpending => rw [hhtlc]; exact hs.order

theorem Sourced.invariant (S : Setting) :
    Invariant (guarded S) fun w => Bookkeeping w ∧ Sourced S.crypto w := by
  rintro w w' ⟨hw, hs⟩ hmove
  refine ⟨Bookkeeping.invariant S hw hmove, hs.step hw (logStep_of_moves hw hmove) ?_⟩
  intro id hexists
  have hstage := (guarded_progress S).moves hmove id
  exact ⟨(Swap.terms_eq_of_stage_le hstage hexists).1,
    .of_stage_le hstage hexists (hw.notBoth id)⟩

/-- **Log and records explain each other** whenever no call is open. -/
theorem explains_of_run {S : Setting} {held : Address → Nat} {c : Config World}
    (h : Run (guarded S) ⟨World.fresh held, []⟩ c) (hclosed : c.cur.frames = []) :
    Explains S.crypto c.cur.htlc := by
  obtain ⟨hw, hs⟩ := ((Sourced.invariant S).run h (.of_cur ⟨.fresh held, .fresh _ held⟩)).1
  -- A settled record has its settlement in the log, since no payout is open.
  have hsettled : ∀ id, (c.cur.htlc.swaps id).withdrawn = true ∨
      (c.cur.htlc.swaps id).refunded = true → ∃ e ∈ c.cur.htlc.logs, e.settles id = true := by
    intro id hflags
    have hcount := hw.settled id
    rw [if_pos hflags, hclosed, List.countP_nil, Nat.add_zero] at hcount
    exact List.countP_pos_iff.mp (Nat.lt_of_lt_of_eq Nat.one_pos hcount.symm)
  refine ⟨fun e he => hs.sound e (.inl he), fun id => hw.locked, fun id hwithdrawn => ?_,
    fun id hrefunded => ?_, hs.order⟩
  · obtain ⟨e, he, hsettles⟩ := hsettled id (.inl hwithdrawn)
    cases e with
    | logNewSwap => cases hsettles
    | logRedeem id' p => exact ⟨p, of_decide_eq_true hsettles ▸ he⟩
    | logRefund id' =>
      have hheld := hs.sound _ (.inl he)
      rw [Event.Holds, of_decide_eq_true hsettles] at hheld
      exact absurd ⟨hwithdrawn, hheld.2⟩ (hw.notBoth id)
  · obtain ⟨e, he, hsettles⟩ := hsettled id (.inr hrefunded)
    cases e with
    | logNewSwap => cases hsettles
    | logRedeem id' p =>
      have hheld := hs.sound _ (.inl he)
      rw [Event.Holds, of_decide_eq_true hsettles] at hheld
      exact absurd ⟨hheld.2.1, hrefunded⟩ (hw.notBoth id)
    | logRefund id' => exact of_decide_eq_true hsettles ▸ he

/-- The logs of an HTLC at some point between its calls. -/
def History (cr : Crypto) (logs : List Event) : Prop :=
  ∃ (S : Setting) (held : Address → Nat) (c : Config World), S.crypto = cr ∧
    Run (guarded S) ⟨World.fresh held, []⟩ c ∧ c.cur.frames = [] ∧ c.cur.htlc.logs = logs

theorem History.explained {logs : List Event} (h : History cr logs) :
    ∃ st : Storage, Explains cr st ∧ SettlesOnce st ∧ st.logs = logs := by
  obtain ⟨S, held, c, rfl, hrun, hclosed, hlogs⟩ := h
  exact ⟨c.cur.htlc, explains_of_run hrun hclosed, (Bookkeeping.run hrun).1.settlesOnce, hlogs⟩

/-- A redeem comes after a lock with the hashlock of its preimage. -/
theorem History.lock_of_redeem {before after : List Event} {id p : Bytes32}
    (h : History cr (before ++ .logRedeem id p :: after)) :
    ∃ sender recipient token amount timelock,
      .logNewSwap id sender recipient token amount (cr.hashlockOf p) timelock ∈ before := by
  obtain ⟨st, hexplains, -, hlogs⟩ := h.explained
  -- The newest lock before it is the one whose id it names.
  obtain ⟨lock, hlock, hopens⟩ :=
    hexplains.order before _ after id hlogs (decide_eq_true rfl)
  cases lock with
  | logRedeem => cases hopens
  | logRefund => cases hopens
  | logNewSwap c sender recipient token amount hashlock timelock =>
    obtain rfl := of_decide_eq_true hopens
    have hmem : ∀ e, e ∈ before ++ .logRedeem c p :: after → e.Holds cr st.swaps := by
      rw [← hlogs]
      exact hexplains.sound
    obtain ⟨-, hterms⟩ := hmem _ (List.mem_append_left _ hlock)
    obtain ⟨-, -, hhash⟩ := hmem (.logRedeem c p)
      (List.mem_append_right _ (List.mem_cons_self ..))
    -- Both events speak of the hashlock of one record.
    obtain ⟨-, -, -, -, rfl, -⟩ := Terms.mk.inj hterms
    rw [hhash]
    exact ⟨sender, recipient, token, amount, timelock, hlock⟩

/-- A lock event occurs once. -/
theorem History.lock_once {xs ys : List Event} (h : History cr (xs ++ ys)) {id : Bytes32}
    {sender recipient token : Address} {amount : Uint256} {hashlock : Bytes32} {timelock : Uint256}
    (hx : .logNewSwap id sender recipient token amount hashlock timelock ∈ xs) :
    .logNewSwap id sender recipient token amount hashlock timelock ∉ ys := by
  obtain ⟨st, -, hsettles, hlogs⟩ := h.explained
  intro hy
  have honce := hsettles.openedOnce id
  rw [Storage.opened, hlogs, List.countP_append] at honce
  have hxs : 0 < xs.countP (Event.opens id) :=
    List.countP_pos_iff.mpr ⟨_, hx, decide_eq_true rfl⟩
  have hys : 0 < ys.countP (Event.opens id) :=
    List.countP_pos_iff.mpr ⟨_, hy, decide_eq_true rfl⟩
  omega

end Invariant

/-! ## Tokens that do not call back -/

/-- The call is waiting for a token's code. -/
def Frame.callsToken : Frame → Bool
  | .newSwap .. => true
  | .payout p _ _ => p.token ≠ zeroAddress
  | .other => false

/-- A token's code is running. -/
def World.InToken (w : World) : Prop := ∃ f ∈ w.frames, f.callsToken = true

/-- The runs in which the contract is not called from inside a token. -/
def calm (S : Setting) : CallSystem World where
  enter w w' := (anyTime S).enter w w' ∧ (w.InToken → w'.frames = .other :: w.frames)
  act w w' := (anyTime S).act w w' ∧ (w.InToken → w'.htlc = w.htlc)
  leave := (anyTime S).leave

/-- Calls of the contract are opened outside tokens. -/
def OutsideTokens : List Frame → Prop
  | [] => True
  | f :: fs => (f ≠ .other → ∀ g ∈ fs, g.callsToken = false) ∧ OutsideTokens fs

/-- Every token lock that is open has its slot to itself. -/
structure Calm (w : World) : Prop where
  outside : OutsideTokens w.frames
  vacant : ∀ sender a id moved, .newSwap sender a id moved ∈ w.frames →
    ¬(w.htlc.swaps id).Exists

section Calm

variable {S : Setting} {w w' : World}

theorem Calm.fresh (held : Address → Nat) : Calm (World.fresh held) :=
  ⟨trivial, fun _ _ _ _ h => absurd h List.not_mem_nil⟩

theorem Calm.slotVacant (hw : Calm w) : SlotVacant w := fun sender a id moved _ hframes =>
  hw.vacant sender a id moved (hframes ▸ List.mem_cons_self ..)

/-- Outside tokens no lock is open. -/
theorem World.not_newSwap_mem (h : ¬w.InToken) {sender : Address} {a : NewSwap} {id : Bytes32}
    {moved : Bool} : .newSwap sender a id moved ∉ w.frames :=
  fun hmem => h ⟨_, hmem, rfl⟩

/-- A foreign call is opened. -/
theorem Calm.pushOther (hw : Calm w) (hhtlc : w'.htlc = w.htlc)
    (hframes : w'.frames = .other :: w.frames) : Calm w' := by
  refine ⟨?_, fun sender a id moved hmem => ?_⟩
  · rw [hframes]
    exact ⟨fun h => absurd rfl h, hw.outside⟩
  · rw [hframes] at hmem
    rw [hhtlc]
    exact hw.vacant sender a id moved (by simpa using hmem)

/-- A call of the contract is opened outside tokens. -/
theorem Calm.pushCall (hw : Calm w) (hout : ¬w.InToken) {f : Frame}
    (hframes : w'.frames = f :: w.frames)
    (hvacant : ∀ sender a id moved, f = .newSwap sender a id moved →
      ¬(w'.htlc.swaps id).Exists) : Calm w' := by
  refine ⟨?_, fun sender a id moved hmem => ?_⟩
  · rw [hframes]
    refine ⟨fun _ g hg => ?_, hw.outside⟩
    cases hcalls : g.callsToken with
    | false => rfl
    | true => exact absurd ⟨g, hg, hcalls⟩ hout
  · rw [hframes] at hmem
    rcases List.mem_cons.mp hmem with heq | hold
    · exact hvacant sender a id moved heq.symm
    · exact absurd hold (World.not_newSwap_mem hout)

/-- The innermost call returns. If it wrote a record, no other lock was open. -/
theorem Calm.pop (hw : Calm w) {f : Frame} {fs : List Frame} (hframes : w.frames = f :: fs)
    (hframes' : w'.frames = fs) (hwrite : w'.htlc.swaps = w.htlc.swaps ∨ f ≠ .other) :
    Calm w' := by
  have houtside := hw.outside
  rw [hframes] at houtside
  refine ⟨hframes' ▸ houtside.2, fun sender a id moved hmem => ?_⟩
  rw [hframes'] at hmem
  rcases hwrite with heq | hcall
  · rw [heq]
    exact hw.vacant sender a id moved (hframes ▸ List.mem_cons_of_mem _ hmem)
  · exact absurd (houtside.1 hcall _ hmem) (by simp [Frame.callsToken])

/-- The token of the innermost call pays. -/
theorem Calm.transfer (hw : Calm w) (h : w.transfer S = some w') : Calm w' := by
  obtain ⟨hhtlc, hcase⟩ := World.transfer_frames h
  -- The innermost frame keeps its place and its lock.
  obtain ⟨f, f', fs, hf, hf', hcall, hnew⟩ : ∃ f f' fs, w.frames = f :: fs ∧
      w'.frames = f' :: fs ∧ f ≠ .other ∧
      ∀ sender a id moved, f' = .newSwap sender a id moved → f = .newSwap sender a id false := by
    rcases hcase with ⟨s, a, i, fs, hf, hf'⟩ | ⟨p, done, fs, hf, hf'⟩
    · exact ⟨_, _, fs, hf, hf', by simp, by simp⟩
    · exact ⟨_, _, fs, hf, hf', by simp, by simp⟩
  have houtside := hw.outside
  rw [hf] at houtside
  refine ⟨?_, fun sender a id moved hmem => ?_⟩
  · rw [hf']
    exact ⟨fun _ => houtside.1 hcall, houtside.2⟩
  · rw [hhtlc]
    rw [hf'] at hmem
    rcases List.mem_cons.mp hmem with heq | hold
    · have hhead := hnew sender a id moved heq.symm
      exact hw.vacant sender a id false (hf ▸ hhead ▸ List.mem_cons_self ..)
    · exact hw.vacant sender a id moved (hf ▸ List.mem_cons_of_mem _ hold)

theorem Calm.enters {now : Uint256} (hw : Calm w) (h : Enters S now w w')
    (hin : w.InToken → w'.frames = .other :: w.frames) : Calm w' := by
  -- A token that does not call back makes no call of its own.
  have hcall : ∀ {f : Frame}, f ≠ .other → w'.frames = f :: w.frames →
      (∀ sender a id moved, f = .newSwap sender a id moved → ¬(w'.htlc.swaps id).Exists) →
      Calm w' := by
    intro f hf hframes hvacant
    by_cases htoken : w.InToken
    · have hother := hin htoken
      rw [hframes] at hother
      exact absurd (List.cons.inj hother).1 hf
    · exact hw.pushCall htoken hframes hvacant
  -- The two ways a payment begins, with and without running code.
  have hpay : ∀ {p : Payout} {done : Event} {st : Storage},
      World.startPayout S p done { w with htlc := st } = .ok w' → Calm w' := by
    intro p done st hok
    rcases World.startPayout_ok.mp hok with ⟨-, -, -, rfl⟩ | ⟨-, rfl⟩
    · exact hcall (f := .payout p true done) nofun rfl nofun
    · exact hcall (f := .payout p false done) nofun rfl nofun
  cases h with
  | newSwap msg a hsender htoken h =>
    obtain ⟨id, hchecks, ⟨heth, -⟩ | ⟨-, rfl⟩⟩ := World.newSwap_ok h
    · exact absurd heth htoken
    · obtain ⟨-, -, -, -, hvacant, -⟩ := newSwapChecks_ok.mp hchecks
      apply hcall (f := .newSwap msg.sender a id false) nofun rfl
      intro sender a' id' moved heq
      cases heq
      exact hvacant
  | redeem id p h => exact hpay (World.redeem_ok.mp h).2
  | refund sender id hsender h => exact hpay (World.refund_ok.mp h).2
  | other h => subst h; exact hw.pushOther rfl rfl

theorem Calm.acts {now : Uint256} (hw : Calm w) (h : Acts S now w w')
    (hin : w.InToken → w'.htlc = w.htlc) : Calm w' := by
  have hsame : w'.frames = w.frames → Calm w' := by
    intro hframes
    refine ⟨hframes ▸ hw.outside, fun sender a id moved hmem => ?_⟩
    rw [hframes] at hmem
    rw [hin ⟨_, hmem, rfl⟩]
    exact hw.vacant sender a id moved hmem
  cases h with
  | newSwap msg a hsender htoken h =>
    obtain ⟨id, -, ⟨-, rfl⟩ | ⟨herc20, -⟩⟩ := World.newSwap_ok h
    · exact hsame rfl
    · exact absurd htoken herc20
  | transfer h => exact hw.transfer h
  | gift asset n h => subst h; exact hsame rfl
  | drift token n htoken hexact h => subst h; exact hsame rfl

theorem Calm.invariant (S : Setting) : Invariant (calm S) Calm := by
  intro w w' hw hmove
  cases hmove with
  | enter h => exact hw.enters h.1.choose_spec h.2
  | act h => exact hw.acts h.1.choose_spec h.2
  | leave h =>
    cases Return.of_finish h.choose_spec with
    | closeLock sender a id moved fs hframes hmoved h => subst h; exact hw.pop hframes rfl (.inr nofun)
    | closePayout p moved done fs hframes h => subst h; exact hw.pop hframes rfl (.inl rfl)
    | closeOther fs hframes h => subst h; exact hw.pop hframes rfl (.inl rfl)

/-- Runs with tokens that do not call back meet the condition on returns. -/
theorem guarded_of_calm {held : Address → Nat} {c : Config World}
    (h : Run (calm S) ⟨World.fresh held, []⟩ c) : Run (guarded S) ⟨World.fresh held, []⟩ c := by
  apply Run.guardLeave_of_invariant (Calm.invariant S) (fun _ => Calm.slotVacant) ?_
    (.of_cur (.fresh held)) h
  intro c c' hstep
  cases hstep with
  | enter h => exact .enter h.1
  | act h => exact .act h.1
  | leave h => exact .leave h
  | revert => exact .revert

end Calm

end Kael.HashedTimelock
