import Kael.Contracts.Reentrancy

/-!
# Solvency under Reentrancy

Whenever control is outside the contract, its balance of each asset covers
everything its active records owe. Two kinds of open calls make the books
differ from the records in the meantime: a `newSwap` whose token has paid but
whose record is not written, and a payout whose record is settled but whose
token has not paid. Both are on the safe side, so the invariant is that the
balance covers the records *and* what is in flight (`Solvent`).

An outer `newSwap` may overwrite a record that a nested call created. That
only removes an old debt, so nothing is assumed about contract ids here.
-/

namespace Kael.HashedTimelock

open NestedCalls

/-! ## What is in flight -/

/-- What an open call adds to the contract's obligations in `token`: a deposit
    received but not recorded, or a payout recorded but not sent. -/
def Frame.inFlight (token : Address) : Frame → Nat
  | .newSwap _ a _ moved => if moved = true ∧ a.token = token then a.amount.toNat else 0
  | .payout p moved _ => if moved = false ∧ p.token = token then p.amount.toNat else 0
  | .other => 0

/-- The sum over all open calls. -/
def inFlight (token : Address) (fs : List Frame) : Nat := (fs.map (Frame.inFlight token)).sum

@[simp] theorem inFlight_nil (token : Address) : inFlight token [] = 0 := rfl

@[simp] theorem inFlight_cons (token : Address) (f : Frame) (fs : List Frame) :
    inFlight token (f :: fs) = f.inFlight token + inFlight token fs := by
  simp [inFlight]

/-! ## The invariant -/

/-- The balances cover the active records and what is in flight, and no record
    was locked by the contract itself. -/
structure Solvent (S : Setting) (w : World) : Prop where
  covered : ∀ token, w.htlc.activeTotal token + inFlight token w.frames ≤ w.held token
  callers : ∀ c, (w.htlc.swaps c).Exists → (w.htlc.swaps c).sender ≠ S.self
  openCallers : ∀ sender a contractId moved,
    .newSwap sender a contractId moved ∈ w.frames → S.Caller sender

theorem Solvent.fresh (S : Setting) (held : Address → Nat) : Solvent S (World.fresh held) where
  covered token := by simp [World.fresh]
  callers c hc := absurd hc Swap.not_exists_empty
  openCallers _ _ _ _ h := absurd h List.not_mem_nil

/-- Records that appear in the storage after a write were locked by callers. -/
private theorem callers_writeSwap {S : Setting} {w : World} (hw : Solvent S w) {sender : Address}
    (hsender : S.Caller sender) (a : NewSwap) (contractId c : Bytes32)
    (hc : ((w.htlc.writeSwap sender a contractId).swaps c).Exists) :
    ((w.htlc.writeSwap sender a contractId).swaps c).sender ≠ S.self := by
  rw [Storage.writeSwap_swaps] at hc ⊢
  split_ifs at hc ⊢ with heq
  · exact hsender.2
  · exact hw.callers c hc

/-- A payout of an active record keeps the contract solvent: the record stops
    owing what the payout then owes or has taken. -/
private theorem Solvent.startPayout {S : Setting} {w w' : World} {st : Storage} {p : Payout}
    {done : Event} (hw : Solvent S w)
    (htotal : ∀ token, st.activeTotal token + (if p.token = token then p.amount.toNat else 0) =
      w.htlc.activeTotal token)
    (hsenders : ∀ c, (st.swaps c).sender = (w.htlc.swaps c).sender)
    (h : World.startPayout S p done { w with htlc := st } = .ok w') : Solvent S w' := by
  have hcallers : ∀ c, (st.swaps c).Exists → (st.swaps c).sender ≠ S.self := by
    intro c hc
    have hexists : (w.htlc.swaps c).Exists := by rw [Swap.Exists, ← hsenders c]; exact hc
    rw [hsenders c]
    exact hw.callers c hexists
  have hcovered := hw.covered
  -- ETH leaves at once; a token's amount stays, in flight, until its code moves it.
  rcases World.startPayout_ok.mp h with ⟨htoken, hdest, hheld, rfl⟩ | ⟨htoken, rfl⟩
  · refine ⟨fun token => ?_, hcallers, fun s a c m hm => hw.openCallers s a c m (by simpa using hm)⟩
    have hle := hcovered token
    have heq := htotal token
    by_cases ht : token = zeroAddress
    · subst ht
      simp only [htoken, ↓reduceIte] at heq
      simp [Frame.inFlight]
      omega
    · have hne : ¬p.token = token := fun h => ht (h.symm.trans htoken)
      simp only [hne, ↓reduceIte] at heq
      simp [Frame.inFlight, ht]
      omega
  · refine ⟨fun token => ?_, hcallers, fun s a c m hm => hw.openCallers s a c m (by simpa using hm)⟩
    have hle := hcovered token
    have heq := htotal token
    simp only [inFlight_cons, Frame.inFlight, true_and]
    omega

/-- A token that pays exactly the requested amount keeps the contract solvent. -/
private theorem Solvent.transfer {S : Setting} {w w' : World} (hw : Solvent S w)
    (h : w.transfer S = some w') : Solvent S w' := by
  unfold World.transfer at h
  -- The two transfers that a waiting call is there for: into a lock, out of a payout.
  split at h
  · rename_i sender a contractId fs hframes
    cases h
    refine ⟨fun token => ?_, hw.callers, fun s a' c m hm => ?_⟩
    · have hle := hw.covered token
      rw [hframes] at hle
      by_cases ht : token = a.token
      · subst ht
        simp [Frame.inFlight] at hle ⊢
        omega
      · have hne : ¬a.token = token := fun h => ht h.symm
        simpa [Frame.inFlight, ht, hne] using hle
    · rcases List.mem_cons.mp hm with heq | hm'
      · cases heq
        exact hw.openCallers sender a contractId false (by rw [hframes]; exact List.mem_cons_self ..)
      · exact hw.openCallers s a' c m (by rw [hframes]; exact List.mem_cons_of_mem _ hm')
  · rename_i p done fs hframes
    have hmem : ∀ s a c m, Frame.newSwap s a c m ∈ Frame.payout p true done :: fs →
        S.Caller s := by
      intro s a c m hm
      refine hw.openCallers s a c m ?_
      rw [hframes]
      simpa using hm
    -- A payout moves what its record held.
    split_ifs at h with hheld hdest
    · cases h
      refine ⟨fun token => ?_, hw.callers, hmem⟩
      have hle := hw.covered token
      simp only [hframes, inFlight_cons, Frame.inFlight, true_and, Bool.true_eq_false, false_and,
        ↓reduceIte] at hle ⊢
      omega
    · cases h
      refine ⟨fun token => ?_, hw.callers, hmem⟩
      have hle := hw.covered token
      rw [hframes] at hle
      by_cases ht : token = p.token
      · subst ht
        simp [Frame.inFlight] at hle ⊢
        omega
      · have hne : ¬p.token = token := fun h => ht h.symm
        simpa [Frame.inFlight, ht, hne] using hle
  · cases h

/-- **Step rule for solvency**: with exact tokens, opening calls does not break it. -/
theorem Solvent.effect {S : Setting} (hexact : ∀ token, S.exact token = true) {w w' : World}
    (hw : Solvent S w) (h : Effect S w w') : Solvent S w' := by
  cases h with
  -- The ETH has arrived with the call, and the new record owes it.
  | lockEth sender a contractId hsender htoken habsent h =>
    subst h
    refine ⟨fun token => ?_, callers_writeSwap hw hsender a contractId, hw.openCallers⟩
    have hle := hw.covered token
    have hwrite := w.htlc.activeTotal_writeSwap_le sender a contractId token
    by_cases ht : token = zeroAddress
    · subst ht
      simp only [htoken, ↓reduceIte] at hwrite
      simp
      omega
    · have hne : ¬a.token = token := fun h => ht (h.symm.trans htoken)
      simp only [hne, ↓reduceIte] at hwrite
      simp [ht]
      omega
  -- Nothing is owed yet, since nothing is written.
  | openLock sender a contractId hsender habsent h =>
    subst h
    refine ⟨fun token => ?_, hw.callers, fun s a' c m hm => ?_⟩
    · simpa [Frame.inFlight] using hw.covered token
    · rcases List.mem_cons.mp hm with heq | hm'
      · cases heq; exact hsender
      · exact hw.openCallers s a' c m hm'
  -- What the record no longer owes is in flight.
  | openRedeem contractId preimage hactive h =>
    refine hw.startPayout (fun token => ?_) (fun c => ?_) h
    · exact Storage.activeTotal_setWithdrawn hactive token
    · rw [Storage.setWithdrawn_swaps]; split_ifs <;> rfl
  | openRefund contractId hactive h =>
    refine hw.startPayout (fun token => ?_) (fun c => ?_) h
    · exact Storage.activeTotal_setRefunded hactive token
    · rw [Storage.setRefunded_swaps]; split_ifs <;> rfl
  | transfer h => exact hw.transfer h
  -- Gifts add; a balance that drifts away is excluded by exactness.
  | foreign hhtlc hframes hheld =>
    have hinFlight : ∀ token, inFlight token w'.frames = inFlight token w.frames := by
      intro token
      rcases hframes with h | h <;> simp [h, Frame.inFlight]
    refine ⟨fun token => ?_, by rw [hhtlc]; exact hw.callers, fun s a c m hm => ?_⟩
    · have hle := hw.covered token
      rw [hhtlc, hinFlight]
      rcases hheld token with hge | hdrift
      · omega
      · exact absurd hdrift (by simp [hexact])
    · refine hw.openCallers s a c m ?_
      rcases hframes with h | h
      · rw [h] at hm; simpa using hm
      · rwa [h] at hm

/-- Returning calls does not break it either. -/
theorem Solvent.return {S : Setting} (hexact : ∀ token, S.exact token = true) {w w' : World}
    (hw : Solvent S w) (h : Return S w w') : Solvent S w' := by
  cases h with
  | closeLock sender a contractId moved fs hframes hmoved h =>
    subst h
    have hsender : S.Caller sender :=
      hw.openCallers sender a contractId moved (by rw [hframes]; exact List.mem_cons_self ..)
    refine ⟨fun token => ?_, callers_writeSwap hw hsender a contractId, fun s a' c m hm => ?_⟩
    · -- The deposit in flight becomes the debt of the record.
      have hle := hw.covered token
      have hwrite := w.htlc.activeTotal_writeSwap_le sender a contractId token
      simp only [hframes, hmoved (hexact _), inFlight_cons, Frame.inFlight, true_and] at hle
      dsimp only
      omega
    · exact hw.openCallers s a' c m (by rw [hframes]; exact List.mem_cons_of_mem _ hm)
  | closePayout p moved done fs hframes h =>
    subst h
    refine ⟨fun token => ?_, hw.callers, fun s a c m hm => ?_⟩
    · have hle := hw.covered token
      simp only [hframes, inFlight_cons] at hle
      simp only [Storage.activeTotal_emit]
      omega
    · exact hw.openCallers s a c m (by rw [hframes]; exact List.mem_cons_of_mem _ hm)
  | closeOther fs hframes h =>
    subst h
    refine ⟨fun token => ?_, hw.callers, fun s a c m hm => ?_⟩
    · simpa [hframes, Frame.inFlight] using hw.covered token
    · exact hw.openCallers s a c m (by rw [hframes]; exact List.mem_cons_of_mem _ hm)

/-- Run rule. -/
theorem Solvent.run {S : Setting} (hexact : ∀ token, S.exact token = true)
    {held : Address → Nat} {c : Config World} (h : Run (anyTime S) ⟨World.fresh held, []⟩ c) :
    c.All (Solvent S) := by
  refine Invariant.run (fun w w' hw hmove => ?_) h (.of_cur (.fresh S held))
  rcases moves_cases hmove with heffect | hreturn
  · exact hw.effect hexact heffect
  · exact hw.return hexact hreturn

/-! ## The books always balance -/

/-- An active record can be paid out of the balance. -/
theorem Solvent.amount_le_held {S : Setting} {w : World} (hw : Solvent S w) {contractId : Bytes32}
    (hactive : (w.htlc.swaps contractId).Active) :
    (w.htlc.swaps contractId).amount.toNat ≤ w.held (w.htlc.swaps contractId).token := by
  have hle := Storage.amount_le_activeTotal hactive
  have hcovered := hw.covered (w.htlc.swaps contractId).token
  omega

/-- A payout that the balance covers gets as far as its external call. -/
private theorem exists_startPayout {S : Setting} {w : World} {p : Payout} (done : Event)
    (hdest : p.token = zeroAddress → p.dest ≠ S.self)
    (hheld : p.amount.toNat ≤ w.held p.token) :
    ∃ w', w.startPayout S p done = .ok w' := by
  by_cases htoken : p.token = zeroAddress
  · exact ⟨_, World.startPayout_ok.mpr (.inl ⟨htoken, hdest htoken, htoken ▸ hheld, rfl⟩)⟩
  · exact ⟨_, World.startPayout_ok.mpr (.inr ⟨htoken, rfl⟩)⟩

/-- **Solvency under reentrancy.** In every state outside the contract, its
    balance of ETH and of every token covers the active records. Hence `redeem`
    with the right preimage before the timelock and `refund` by the sender from
    the timelock on pass every check of an active record and are never short
    of balance: they get as far as their external call, and a token called for
    a payout can pay it. (A record that pays ETH to the contract itself cannot
    be redeemed: the contract receives no ETH.) -/
theorem solvent_under_reentrancy {S : Setting} (hexact : ∀ token, S.exact token = true)
    {held : Address → Nat} {c : Config World} (h : Run (anyTime S) ⟨World.fresh held, []⟩ c) :
    (∀ token, c.cur.htlc.activeTotal token ≤ c.cur.held token) ∧
    (∀ contractId now, (c.cur.htlc.swaps contractId).Active →
      (∀ preimage, now < (c.cur.htlc.swaps contractId).timelock →
        S.crypto.hashlockOf preimage = (c.cur.htlc.swaps contractId).hashlock →
        redeemChecks S.crypto now c.cur.htlc contractId preimage = .ok () ∧
        ((c.cur.htlc.swaps contractId).recipient ≠ S.self ∨
            (c.cur.htlc.swaps contractId).token ≠ zeroAddress →
          ∃ w', c.cur.redeem S now contractId preimage = .ok w')) ∧
      ((c.cur.htlc.swaps contractId).timelock ≤ now →
        ∃ w', c.cur.refund S now (c.cur.htlc.swaps contractId).sender contractId = .ok w')) ∧
    (∀ p done fs, c.cur.frames = .payout p false done :: fs →
      ∃ w', c.cur.transfer S = some w') := by
  have hw : Solvent S c.cur := (Solvent.run hexact h).1
  refine ⟨fun token => ?_, fun contractId now hactive => ⟨fun preimage htime hpreimage => ?_,
    fun htime => ?_⟩, fun p done fs hframes => ?_⟩
  · have hcovered := hw.covered token
    omega
  -- A redeem in time, with the preimage, by anyone.
  · have hchecks : redeemChecks S.crypto now c.cur.htlc contractId preimage = .ok () :=
      redeemChecks_ok.mpr ⟨hactive, htime, hpreimage⟩
    refine ⟨hchecks, fun hdest => ?_⟩
    have hpay := exists_startPayout (S := S)
      (w := { c.cur with htlc := c.cur.htlc.setWithdrawn contractId })
      (p := (c.cur.htlc.swaps contractId).redeemPayout) (.logRedeem contractId preimage)
      (fun htoken => hdest.resolve_right (not_not.mpr htoken)) (hw.amount_le_held hactive)
    exact hpay.imp fun w' hw' => World.redeem_ok.mpr ⟨hchecks, hw'⟩
  -- A refund after the deadline, by the sender, who is not the HTLC.
  · have hchecks : refundChecks now c.cur.htlc (c.cur.htlc.swaps contractId).sender contractId =
        .ok () := refundChecks_ok.mpr ⟨hactive, htime, rfl⟩
    have hpay := exists_startPayout (S := S)
      (w := { c.cur with htlc := c.cur.htlc.setRefunded contractId })
      (p := (c.cur.htlc.swaps contractId).refundPayout) (.logRefund contractId)
      (fun _ => hw.callers contractId hactive.1) (hw.amount_le_held hactive)
    exact hpay.imp fun w' hw' => World.refund_ok.mpr ⟨hchecks, hw'⟩
  -- The transfer of a waiting payout: what is in flight is there.
  · have hcovered := hw.covered p.token
    simp only [hframes, inFlight_cons, Frame.inFlight, true_and, ↓reduceIte] at hcovered
    have hheld : ¬c.cur.held p.token < p.amount.toNat := by omega
    simp only [World.transfer, hframes, if_neg hheld]
    split_ifs <;> exact ⟨_, rfl⟩

/-- Two locks and a redemption, the second lock made by the token of the first. -/
theorem solvent_after_nested_lock :
    ∃ c, Run (anyTime Sample.setting) ⟨World.fresh fun _ => 0, []⟩ c ∧
      (c.cur.htlc.swaps Sample.ethContractId).Active ∧
      ∃ w', c.cur.refund Sample.setting 500 Sample.bob Sample.ethContractId = .ok w' := by
  obtain ⟨c, hrun, htest⟩ := (script Sample.setting fun _ => True).exists_run
    [.newSwap 10 ⟨Sample.alice, 0⟩ Sample.lock, .newSwap 10 ⟨Sample.bob, 7⟩ Sample.ethLock,
      .transfer, .finish, .redeem 10 Sample.contractId Sample.preimage, .transfer, .finish]
    ⟨World.fresh fun _ => 0, []⟩
    (fun c => decide ((c.cur.htlc.swaps Sample.ethContractId).Active ∧
      (c.cur.htlc.swaps Sample.ethContractId).timelock ≤ 500 ∧
      (c.cur.htlc.swaps Sample.ethContractId).sender = Sample.bob)) (by decide +kernel)
  obtain ⟨hactive, htime, hsender⟩ := of_decide_eq_true htest
  have hlaw := solvent_under_reentrancy (fun _ => rfl) hrun.of_guardLeave
  refine ⟨c, hrun.of_guardLeave, hactive, ?_⟩
  rw [← hsender]
  exact (hlaw.2.1 Sample.ethContractId 500 hactive).2 htime

end Kael.HashedTimelock
