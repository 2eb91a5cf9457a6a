import Kael.Contracts.Events
import Kael.Contracts.PassThrough
import Kael.Contracts.SingleCalls

/-!
# Deadlines and Reveals

What a settled record says about the past, whoever made the calls: a refund
happened from the timelock on, and a redeem event carries a preimage of the
record's hashlock, so that a secret nobody has used opens no record. And what an
active record promises: until its timelock, whoever knows a preimage can have it
paid to its recipient, in full.
-/

namespace Kael.Exchange

open NestedCalls
open Kael.Settlement (Failure)
open HashedTimelock (NewSwap Swap Terms Event redeemChecks redeemChecks_ok refundChecks_ok)

variable {cr : Crypto} {D : Deployment} {now : Uint256} {s s' : State} {o : Outcome}

/-- Quiet calls write no slot. -/
theorem Frame.Quiet.not_writes {f : Frame} (hf : f.Quiet) (c : Bytes32) : ¬f.Writes c := by
  cases f <;> simp_all [Frame.Quiet, Frame.Writes]

theorem Orderly.fresh {l : Ledger Address Address} (hl : Genesis D l) :
    Orderly D (State.fresh l) := ⟨.fresh hl, fun _ hf => absurd hf List.not_mem_nil⟩

/-- Among quiet calls, every opened record is vested. -/
theorem Orderly.vested (hs : Orderly D s) {c : Bytes32} {g : Escrow.Stage Terms}
    (hg : g ≤ (s.htlc.swaps c).stage) : Vested c g s :=
  ⟨hg, fun f hf => (hs.quiet f hf).not_writes c⟩

/-- A redeemed record has been paid to its recipient, once. -/
theorem Orderly.paid_of_withdrawn (hs : Orderly D s) {c : Bytes32}
    (hexists : (s.htlc.swaps c).Exists) (hwithdrawn : (s.htlc.swaps c).withdrawn = true) :
    s.books.paidFor c = [⟨c, D.htlc, (s.htlc.swaps c).redeemPayout⟩] := by
  have hsender : (s.books.swaps c).sender ≠ zeroAddress := hexists
  have hwithdrawn' : (s.books.swaps c).withdrawn = true := hwithdrawn
  rw [hs.books.paid, duePayments, if_neg hsender, if_pos hwithdrawn']
  rfl

theorem Orderly.not_refunded_of_withdrawn (hs : Orderly D s) {c : Bytes32}
    (hwithdrawn : (s.htlc.swaps c).withdrawn = true) : (s.htlc.swaps c).refunded = false := by
  rw [← Bool.not_eq_true]
  exact fun hrefunded => hs.books.notBoth c ⟨hwithdrawn, hrefunded⟩

/-- The effect of a move among quiet calls: no waiting lock is finished. -/
theorem Orderly.effect_cases (hs : Orderly D s) {who : Option (Address × Call)}
    (h : RecordEffect cr D now who s s') :
    s'.htlc.swaps = s.htlc.swaps ∨
    (∃ sender value a id, (who = some (sender, .newSwap value a) ∨ sender = D.settlement) ∧
      s'.htlc.swaps = (s.htlc.writeSwap sender a id).swaps) ∨
    (∃ sender id p, who = some (sender, .redeem id p) ∧
      redeemChecks cr now s.htlc id p = .ok () ∧
      s'.htlc.swaps = (s.htlc.setWithdrawn id).swaps) ∨
    ∃ id, (s.htlc.swaps id).Active ∧ (s.htlc.swaps id).timelock ≤ now ∧
      s'.htlc.swaps = (s.htlc.setRefunded id).swaps := by
  cases h with
  | keep hswaps _ => exact .inl hswaps
  | lock sender value a id hwho _ hswaps _ => exact .inr (.inl ⟨sender, value, a, id, hwho, hswaps⟩)
  -- No orderly state has a waiting call that still writes a record.
  | finishLock f sender a id hmem hwrites _ _ =>
    exact absurd hwrites ((hs.quiet f hmem).not_writes id)
  | redeem sender id p hwho hchecks hswaps _ =>
    exact .inr (.inr (.inl ⟨sender, id, p, hwho, hchecks, hswaps⟩))
  | refund sender id _ hchecks hswaps _ =>
    obtain ⟨hactive, htimelock, -⟩ := refundChecks_ok.mp hchecks
    exact .inr (.inr (.inr ⟨id, hactive, htimelock, hswaps⟩))

/-! ## Refunds come late -/

/-- No record is refunded before its timelock. -/
def RefundedLate (now : Uint256) (s : State) : Prop :=
  ∀ c, (s.htlc.swaps c).refunded = true → (s.htlc.swaps c).timelock ≤ now

theorem RefundedLate.fresh {l : Ledger Address Address} : RefundedLate now (State.fresh l) := by
  intro c hrefunded
  cases hrefunded

theorem RefundedLate.effect (hs : Orderly D s) (hlate : RefundedLate now s)
    {who : Option (Address × Call)} (h : RecordEffect cr D now who s s') :
    RefundedLate now s' := by
  intro c hrefunded
  rcases hs.effect_cases h with hswaps | ⟨sender, value, a, id, -, hswaps⟩ |
    ⟨sender, id, p, -, -, hswaps⟩ | ⟨id, -, htimelock, hswaps⟩
  · rw [hswaps] at hrefunded ⊢
    exact hlate c hrefunded
  -- A new record is not refunded.
  · rw [hswaps, HashedTimelock.Storage.writeSwap_swaps] at hrefunded ⊢
    split_ifs at hrefunded ⊢ with hc
    · cases hrefunded
    · exact hlate c hrefunded
  · rw [hswaps, HashedTimelock.Storage.setWithdrawn_swaps] at hrefunded ⊢
    split_ifs at hrefunded ⊢ with hc
    · exact hlate c hrefunded
    · exact hlate c hrefunded
  -- The refund of this step has checked the timelock itself.
  · rw [hswaps, HashedTimelock.Storage.setRefunded_swaps] at hrefunded ⊢
    split_ifs at hrefunded ⊢ with hc
    · exact hc ▸ htimelock
    · exact hlate c hrefunded

/-- **Until its timelock** a record that was locked is active, or has paid its
    recipient. -/
theorem Orderly.before_timelock (hs : Orderly D s) (hlate : RefundedLate now s) {c : Bytes32}
    {t : Terms} (hvested : Vested c (.held t) s) (htime : now < t.timelock) :
    (s.htlc.swaps c).terms = t ∧ (s.htlc.swaps c).refunded = false ∧
      ((s.htlc.swaps c).withdrawn = true ∧
        s.books.paidFor c = [⟨c, D.htlc, (s.htlc.swaps c).redeemPayout⟩] ∨
        (s.htlc.swaps c).Active) := by
  rcases Escrow.Stage.held_le.mp hvested.stage with hheld | hclaimed | hreclaimed
  · obtain ⟨hactive, rfl⟩ := Swap.stage_held.mp hheld
    exact ⟨rfl, hactive.2.2, .inr hactive⟩
  · obtain ⟨hexists, hwithdrawn, rfl⟩ := Swap.stage_claimed.mp hclaimed
    exact ⟨rfl, hs.not_refunded_of_withdrawn hwithdrawn,
      .inl ⟨hwithdrawn, hs.paid_of_withdrawn hexists hwithdrawn⟩⟩
  · -- A refund would have come before the record's timelock.
    obtain ⟨-, -, hrefunded, rfl⟩ := Swap.stage_reclaimed.mp hreclaimed
    exact absurd htime (BitVec.not_lt.mpr (hlate c hrefunded))

/-! ## Redeem events carry a preimage -/

/-- The record of every announced redeem event is redeemed, and the event
    carries a preimage of its hashlock. -/
def Revealed (cr : Crypto) (D : Deployment) (s : State) : Prop :=
  ∀ c p, s.Announced D (.logRedeem c p) →
    ∃ t, (s.htlc.swaps c).stage = .claimed t ∧ cr.hashlockOf p = t.hashlock

theorem Revealed.fresh {l : Ledger Address Address} : Revealed cr D (State.fresh l) := by
  intro c p hann
  exact absurd hann not_announced_fresh

/-- `redeem` claims its record. -/
theorem State.redeem_claims {c p : Bytes32} (h : s.redeem cr D now c p = .ok o) :
    ∃ t, (o.state.htlc.swaps c).stage = .claimed t ∧ cr.hashlockOf p = t.hashlock := by
  obtain ⟨hchecks, hpay⟩ := State.redeem_ok.mp h
  obtain ⟨hactive, -, hpreimage⟩ := redeemChecks_ok.mp hchecks
  have hstill : Still (s.withHtlc (s.htlc.setWithdrawn c)) o.state :=
    Still.pay hpay (fun _ hw => hw) fun _ hk =>
      ⟨(Still.finished hk).swaps, (Still.finished hk).frames⟩
  have hread : (s.withHtlc (s.htlc.setWithdrawn c)).htlc.swaps c =
      { s.htlc.swaps c with withdrawn := true } := by
    show (s.htlc.setWithdrawn c).swaps c = _
    rw [HashedTimelock.Storage.setWithdrawn_swaps, if_pos rfl]
  refine ⟨(s.htlc.swaps c).terms, ?_, hpreimage⟩
  rw [hstill.swaps, hread]
  exact Swap.stage_claimed.mpr ⟨hactive.1, rfl, rfl⟩

theorem Revealed.moves {π : Policy} (hs : Orderly D s) (hrevealed : Revealed cr D s)
    (h : (system cr D π now).Moves s s') : Revealed cr D s' := by
  intro c p hann
  rcases moves_adds h hann with hold | ⟨x, call, o, -, -, hinvoke, rfl, hnew⟩
  · -- The record was claimed before, and nothing undoes that.
    obtain ⟨t, hstage, hpreimage⟩ := hrevealed c p hold
    have hmoves : (anyTime cr D π).Moves s s' := h.to_union
    have hvested := Vested.invariant (by simp) (hs.vested hstage.ge) hmoves
    exact ⟨t, Escrow.Stage.claimed_le.mp hvested.stage, hpreimage⟩
  · -- Only a `redeem` whose checks pass announces the event.
    cases call with
    | redeem id q =>
      obtain ⟨heq, -⟩ := hnew
      cases heq
      exact State.redeem_claims hinvoke
    | newSwap | settleLeg => obtain ⟨id, heq⟩ := hnew; cases heq
    | refund | refundLeg => cases hnew
    | authorizeLeg | transfer | approve | transferFrom => exact hnew.elim

/-! ## A secret that nobody has used -/

/-- No record under the secret's hashlock is redeemed. -/
def Undisclosed (cr : Crypto) (secret : Bytes32) (s : State) : Prop :=
  ∀ c, (s.htlc.swaps c).hashlock = cr.hashlockOf secret → (s.htlc.swaps c).withdrawn = false

theorem Undisclosed.fresh {secret : Bytes32} {l : Ledger Address Address} :
    Undisclosed cr secret (State.fresh l) := fun _ _ => rfl

/-- It takes the secret itself to redeem a record under its hashlock. -/
theorem Undisclosed.effect {secret : Bytes32}
    (hunique : ∀ p, cr.hashlockOf p = cr.hashlockOf secret → p = secret) (hs : Orderly D s)
    (hundisclosed : Undisclosed cr secret s) {who : Option (Address × Call)}
    (hwho : ∀ sender id, who ≠ some (sender, .redeem id secret))
    (h : RecordEffect cr D now who s s') : Undisclosed cr secret s' := by
  intro c hhashlock
  rcases hs.effect_cases h with hswaps | ⟨sender, value, a, id, -, hswaps⟩ |
    ⟨sender, id, p, hcaller, hchecks, hswaps⟩ | ⟨id, -, -, hswaps⟩
  · rw [hswaps] at hhashlock ⊢
    exact hundisclosed c hhashlock
  · rw [hswaps, HashedTimelock.Storage.writeSwap_swaps] at hhashlock ⊢
    split_ifs at hhashlock ⊢ with hc
    · rfl
    · exact hundisclosed c hhashlock
  · rw [hswaps, HashedTimelock.Storage.setWithdrawn_swaps] at hhashlock ⊢
    split_ifs at hhashlock ⊢ with hc
    · -- The redeemed record is under another hashlock, or the secret was used.
      obtain ⟨-, -, hpreimage⟩ := redeemChecks_ok.mp hchecks
      have hopened : (s.htlc.swaps id).hashlock = cr.hashlockOf secret := hc ▸ hhashlock
      obtain rfl := hunique p (hpreimage.trans hopened)
      exact absurd hcaller (hwho sender id)
    · exact hundisclosed c hhashlock
  · rw [hswaps, HashedTimelock.Storage.setRefunded_swaps] at hhashlock ⊢
    split_ifs at hhashlock ⊢ with hc
    · exact hundisclosed c hhashlock
    · exact hundisclosed c hhashlock

/-! ## What an active record promises -/

/-- `redeem`, called by anybody, succeeds and pays `y` exactly `n` of `token`. -/
def State.Redeemable (cr : Crypto) (D : Deployment) (now : Uint256) (s : State)
    (c p : Bytes32) (y token : Address) (n : Nat) : Prop :=
  ∀ x, ∃ s', callThrough cr D now x (.redeem c p) s = .ok s' ∧
    Receives y token n s.ledger s'.ledger

/-- **Until its timelock an active record is redeemable** by a preimage. -/
theorem State.Redeemable.of_active (hs : Orderly D s) {c p : Bytes32}
    (hactive : (s.htlc.swaps c).Active) (htime : now < (s.htlc.swaps c).timelock)
    (hpreimage : cr.hashlockOf p = (s.htlc.swaps c).hashlock)
    (hrecipient : D.Account (s.htlc.swaps c).recipient) :
    s.Redeemable cr D now c p (s.htlc.swaps c).recipient (s.htlc.swaps c).token
      (s.htlc.swaps c).amount.toNat := by
  intro x
  have hchecks : redeemChecks cr now s.htlc c p = .ok () :=
    redeemChecks_ok.mpr ⟨hactive, htime, hpreimage⟩
  -- The HTLC holds what it owes.
  have hfunds : (s.htlc.swaps c).amount.toNat ≤ s.ledger.bal (s.htlc.swaps c).token D.htlc :=
    le_trans (HashedTimelock.Storage.amount_le_activeTotal hactive) (hs.books.covered _)
  obtain ⟨l, hmove⟩ : ∃ l, s.ledger.move (s.htlc.swaps c).token D.htlc
      (s.htlc.swaps c).recipient (s.htlc.swaps c).amount.toNat = some l :=
    Ledger.move_isSome.mpr hfunds
  have hreceives : Receives (s.htlc.swaps c).recipient (s.htlc.swaps c).token
      (s.htlc.swaps c).amount.toNat s.ledger l := .move hrecipient.2.1 hmove
  rcases hs.books.tracked c hactive.1 with heth | hstandard
  · -- ETH: the recipient's code runs, and the call goes on when it returns.
    have hinvoke : invoke cr D now x (.redeem c p) s = .ok (.waiting _) :=
      State.redeem_ok.mpr ⟨hchecks, State.pay_ok.mpr (.inl ⟨heth, hrecipient.2.1,
        hrecipient.2.2, l, hmove, rfl⟩)⟩
    exact ⟨_, callThrough_ok.mpr ⟨_, hinvoke, complete_payout rfl⟩, hreceives⟩
  · have hinvoke : invoke cr D now x (.redeem c p) s = .ok (.done _) :=
      State.redeem_ok.mpr ⟨hchecks, State.pay_ok.mpr (.inr (.inl ⟨.inr hstandard, l, hmove, rfl⟩))⟩
    exact ⟨_, callThrough_ok.mpr ⟨_, hinvoke, complete_done.mpr rfl⟩, hreceives⟩

end Kael.Exchange
