import Kael.Contracts.PassThrough
import Kael.Contracts.LogHistory

/-!
# The HTLC on the Chain Refines the HTLC Alone

`Reentrancy` runs the HTLC alone, among tokens and recipients that may call it
back; `Exchange` runs it on a chain, beside the Settlement that calls it and on
the balances of every account. With standard ERC-20s every run of the chain is,
as the HTLC sees it, a run of the HTLC alone in which no slot is taken while a
`newSwap` waits. What holds of those runs holds of the chain, whichever of its
calls come through the Settlement.

A call of the chain that has one outcome is a whole call of the HTLC: opened,
paid and returned. The payment of `refundLeg` to its maker runs code outside
the HTLC, which the HTLC sees as a call of somebody else around its own refund.
-/

namespace Kael.Exchange

open NestedCalls
open Kael.Settlement (Failure SettleLeg Leg)
open HashedTimelock (NewSwap Payout Setting World SlotVacant guarded newSwapChecks
  newSwapChecks_ok redeemChecks_ok refundChecks_ok)

/-! ## Whole calls of the HTLC alone -/

section Alone

variable {S : Setting} {now : Uint256} {w : World}

/-- A lock whose token pays and returns at once. -/
theorem run_lock {msg : Msg} (hcaller : S.Caller msg.sender) {a : NewSwap} {id : Bytes32}
    (hchecks : newSwapChecks S.crypto S.hasCode now w.htlc msg a = .ok id) :
    Run (guarded S) ⟨w, []⟩ ⟨{ w with
      htlc := w.htlc.writeSwap msg.sender a id
      held := Function.update w.held a.token (w.held a.token + a.amount.toNat) }, []⟩ := by
  obtain ⟨-, -, -, -, habsent, hpay⟩ := newSwapChecks_ok.mp hchecks
  by_cases htoken : a.token = zeroAddress
  -- ETH arrives with the call.
  · have hvalue : msg.value = a.amount := by
      rcases hpay with ⟨-, hvalue⟩ | ⟨herc20, -⟩
      · exact hvalue
      · exact absurd htoken herc20
    refine .single (.act ⟨now, .newSwap msg a hcaller htoken ?_⟩)
    simp only [World.newSwap, hchecks, htoken, hvalue, ↓reduceIte]
  -- A token is called, moves the amount and returns; the slot is as it was checked.
  · have hopen : Step (guarded S) ⟨w, []⟩
        ⟨{ w with frames := .newSwap msg.sender a id false :: w.frames }, [w]⟩ := by
      refine .enter ⟨now, .newSwap msg a hcaller htoken ?_⟩
      simp only [World.newSwap, hchecks, htoken, ↓reduceIte]
    refine .head hopen (.head (.act ⟨now, .transfer rfl⟩) (.single (.leave ⟨⟨now, ?_⟩, ?_⟩)))
    · show World.finish S _ = some _
      simp [World.finish]
    · rintro sender a' c moved fs hframes
      cases hframes
      exact habsent

/-- What the contract holds after a payment. -/
def heldAfter (S : Setting) (p : Payout) (held : Address → Nat) : Address → Nat :=
  if p.dest = S.self then held
  else Function.update held p.token (held p.token - p.amount.toNat)

/-- `_payout` of ETH waits for the recipient. -/
theorem startPayout_eth {p : Payout} {done : HashedTimelock.Event} (heth : p.token = zeroAddress)
    (hdest : p.dest ≠ S.self) (hheld : p.amount.toNat ≤ w.held p.token) :
    World.startPayout S p done w = .ok { w with
      held := heldAfter S p w.held, frames := .payout p true done :: w.frames } := by
  rw [World.startPayout_ok]
  refine .inl ⟨heth, hdest, heth ▸ hheld, ?_⟩
  simp [heldAfter, hdest, heth]

/-- A call up to its payment, the payment and the rest of the call. -/
theorem run_payout {st : HashedTimelock.Storage} {p : Payout} {done : HashedTimelock.Event}
    (henter : ∀ w', World.startPayout S p done { w with htlc := st } = .ok w' →
      (guarded S).enter w w')
    (hdest : p.token = zeroAddress → p.dest ≠ S.self) (hheld : p.amount.toNat ≤ w.held p.token) :
    Run (guarded S) ⟨w, []⟩
      ⟨{ w with htlc := st.emit done, held := heldAfter S p w.held }, []⟩ := by
  -- Either way the call then waits with its payment made.
  have hopen : Run (guarded S) ⟨w, []⟩ ⟨{ w with
      htlc := st, held := heldAfter S p w.held, frames := .payout p true done :: w.frames },
      [w]⟩ := by
    by_cases heth : p.token = zeroAddress
    · exact .single (.enter (henter _ (startPayout_eth heth (hdest heth) hheld)))
    · have hstart : World.startPayout S p done { w with htlc := st } = .ok { w with
          htlc := st, frames := .payout p false done :: w.frames } :=
        World.startPayout_ok.mpr (.inr ⟨heth, rfl⟩)
      refine .head (.enter (henter _ hstart)) (.single (.act ⟨0, .transfer ?_⟩))
      by_cases hself : p.dest = S.self
      · simp [World.transfer, heldAfter, hself, Nat.not_lt.mpr hheld]
      · simp [World.transfer, heldAfter, hself, Nat.not_lt.mpr hheld]
  refine hopen.tail (.leave ⟨⟨0, ?_⟩, ?_⟩)
  · show World.finish S _ = some _
    simp [World.finish]
  · rintro sender a c moved fs hframes
    cases hframes

end Alone

/-! ## What the HTLC sees of the chain -/

/-- The HTLC of the chain, whose tokens move exact amounts. -/
def Deployment.setting (cr : Crypto) (D : Deployment) : Setting where
  crypto := cr
  hasCode := D.hasCode
  self := D.htlc
  exact _ := true

/-- The HTLC's own payment waits in both; the maker of a leg is somebody else. -/
inductive Frame.SeenAs : Frame → HashedTimelock.Frame → Prop where
  | payout (done : HashedTimelock.Event) (p : Payout) : SeenAs (.payout done) (.payout p true done)
  | legForward (id : Bytes32) (leg : Leg) : SeenAs (.legForward id leg) .other
  | other : SeenAs .other .other

/-- The HTLC alone in the state it has on the chain. -/
structure SeenAs (D : Deployment) (s : State) (w : World) : Prop where
  orderly : Orderly D s
  htlc : w.htlc = s.htlc
  held : ∀ token, w.held token = s.ledger.bal token D.htlc
  frames : List.Forall₂ Frame.SeenAs s.frames w.frames

section Seen

variable {cr : Crypto} {D : Deployment} {now : Uint256} {s s' : State} {w : World}

/-- A fresh deployment is a fresh HTLC with the balances it was sent before. -/
theorem SeenAs.fresh {l : Ledger Address Address} (h : Genesis D l) :
    SeenAs D (State.fresh l) (World.fresh fun token => l.bal token D.htlc) where
  orderly := ⟨.fresh h, fun _ hf => absurd hf List.not_mem_nil⟩
  htlc := rfl
  held _ := rfl
  frames := .nil

/-- The balances that a payment by the HTLC leaves. -/
theorem held_of_move {p : Payout} {l l' : Ledger Address Address}
    (h : l.move p.token D.htlc p.dest p.amount.toNat = some l') {held : Address → Nat}
    (hheld : ∀ token, held token = l.bal token D.htlc) (token : Address) :
    heldAfter (D.setting cr) p held token = l'.bal token D.htlc := by
  have hbal := Ledger.move_bal h token D.htlc
  have hle := (Ledger.move_eq_some.mp h).1
  by_cases hself : p.dest = D.htlc
  · simp only [heldAfter, Deployment.setting, hself, ↓reduceIte, hheld]
    simp only [hself, and_true] at hbal
    omega
  · have hother : D.htlc ≠ p.dest := fun heq => hself heq.symm
    simp only [heldAfter, Deployment.setting, hself, ↓reduceIte, Function.update_apply, hheld]
    simp only [hother, and_true, and_false, ↓reduceIte] at hbal
    split_ifs at hbal ⊢ with htoken
    · subst htoken
      omega
    · omega

/-- The balances after an amount of one asset has come in. -/
theorem held_credit {l l' : Ledger Address Address} {held : Address → Nat}
    (hheld : ∀ token, held token = l.bal token D.htlc) {token : Address} {n : Nat}
    (hbal : ∀ t, l'.bal t D.htlc = l.bal t D.htlc + if t = token then n else 0) (t : Address) :
    Function.update held token (held token + n) t = l'.bal t D.htlc := by
  rw [Function.update_apply, hbal, hheld, hheld]
  split_ifs with htoken
  · rw [htoken]
  · rfl

/-- A lock by an account or by the Settlement. -/
theorem SeenAs.lock (hsw : SeenAs D s w) (horderly : Orderly D s') {sender : Address}
    {value : Uint256} {a : NewSwap} {id : Bytes32} (hcaller : (D.setting cr).Caller sender)
    (hchecks : newSwapChecks cr D.hasCode now s.htlc ⟨sender, value⟩ a = .ok id)
    (hhtlc : s'.htlc = s.htlc.writeSwap sender a id)
    (hledger : Receives D.htlc a.token a.amount.toNat s.ledger s'.ledger)
    (hframes : s'.frames = s.frames) :
    ∃ w', SeenAs D s' w' ∧ Run (guarded (D.setting cr)) ⟨w, []⟩ ⟨w', []⟩ := by
  rw [← hsw.htlc] at hchecks
  refine ⟨_, ⟨horderly, ?_, held_credit hsw.held hledger.bal, hframes ▸ hsw.frames⟩,
    run_lock hcaller hchecks⟩
  rw [hhtlc, hsw.htlc]

/-- A ledger that only adds to the HTLC's balance of one asset. -/
theorem SeenAs.gift (hsw : SeenAs D s w) (horderly : Orderly D s') (token : Address) (n : Nat)
    (hhtlc : s'.htlc = s.htlc) (hframes : s'.frames = s.frames)
    (hbal : ∀ t, s'.ledger.bal t D.htlc =
      s.ledger.bal t D.htlc + if t = token then n else 0) :
    ∃ w', SeenAs D s' w' ∧ Run (guarded (D.setting cr)) ⟨w, []⟩ ⟨w', []⟩ := by
  exact ⟨{ w with held := Function.update w.held token (w.held token + n) },
    ⟨horderly, hsw.htlc.trans hhtlc.symm, held_credit hsw.held hbal, hframes ▸ hsw.frames⟩,
    .single (.act ⟨0, .gift token n rfl⟩)⟩

/-- A change of the ledger by an account touches one asset and takes nothing
    from the HTLC. -/
theorem SeenAs.ledger (hsw : SeenAs D s w) (horderly : Orderly D s') (token : Address)
    (hhtlc : s'.htlc = s.htlc) (hframes : s'.frames = s.frames)
    (hkept : ∀ t, s.ledger.bal t D.htlc ≤ s'.ledger.bal t D.htlc)
    (hothers : ∀ t, t ≠ token → s'.ledger.bal t D.htlc = s.ledger.bal t D.htlc) :
    ∃ w', SeenAs D s' w' ∧ Run (guarded (D.setting cr)) ⟨w, []⟩ ⟨w', []⟩ := by
  refine hsw.gift horderly token (s'.ledger.bal token D.htlc - s.ledger.bal token D.htlc) hhtlc
    hframes ?_
  intro t
  have hle := hkept t
  split_ifs with htoken
  · subst htoken
    omega
  · rw [hothers t htoken, Nat.add_zero]

/-! ### Following a call -/

/-- The HTLC alone follows the call: a call that waits has opened one of its own. -/
def Followed (cr : Crypto) (D : Deployment) (w : World) : Outcome → Prop
  | .done s' => ∃ w', SeenAs D s' w' ∧ Run (guarded (D.setting cr)) ⟨w, []⟩ ⟨w', []⟩
  | .waiting s' => ∃ w', SeenAs D s' w' ∧ Run (guarded (D.setting cr)) ⟨w, []⟩ ⟨w', [w]⟩

/-- `redeem` and `refund` from the payment on. -/
theorem SeenAs.payout (hsw : SeenAs D s w) {o : Outcome} (horderly : Orderly D o.state)
    {st : HashedTimelock.Storage} {id : Bytes32} {p : Payout} {done : HashedTimelock.Event}
    {ethFail tokenFail : Failure} (htracked : D.Tracked p.token)
    (henter : ∀ w', World.startPayout (D.setting cr) p done { w with htlc := st } = .ok w' →
      (guarded (D.setting cr)).enter w w')
    (h : (s.withHtlc st).pay D D.htlc id p ethFail tokenFail (.payout done)
      (fun s => finished (s.withHtlc (s.htlc.emit done))) = .ok o) : Followed cr D w o := by
  rcases State.pay_ok.mp h with
    ⟨heth, hhtlc, -, l, hmove, rfl⟩ | ⟨hcase, l, hmove, hrest⟩ | ⟨hne, hstandard, -⟩
  -- The recipient's code runs: the HTLC waits with its payment made.
  · have hheld : p.amount.toNat ≤ w.held p.token := by
      rw [hsw.held]
      exact (Ledger.move_eq_some.mp hmove).1
    refine ⟨_, ⟨horderly, rfl, held_of_move hmove hsw.held, .cons (.payout done p) hsw.frames⟩,
      .single (.enter (henter _ (startPayout_eth heth hhtlc hheld)))⟩
  -- The payment is made at once, and the call returns.
  · cases hrest
    have hdest : p.token = zeroAddress → p.dest ≠ D.htlc := by
      intro heth
      rcases hcase with ⟨-, hsettlement⟩ | hstandard
      · rw [hsettlement]
        exact D.settlement_ne_htlc
      · exact absurd heth (D.standard_ne_zero _ hstandard)
    have hheld : p.amount.toNat ≤ w.held p.token := by
      rw [hsw.held]
      exact (Ledger.move_eq_some.mp hmove).1
    exact ⟨⟨st.emit done, heldAfter (D.setting cr) p w.held, w.frames⟩,
      ⟨horderly, rfl, held_of_move hmove hsw.held, hsw.frames⟩, run_payout henter hdest hheld⟩
  · exfalso
    rcases htracked with heth | hstandard'
    · exact hne heth
    · rw [hstandard] at hstandard'
      cases hstandard'

theorem SeenAs.redeem (hsw : SeenAs D s w) {id p : Bytes32} {o : Outcome}
    (h : s.redeem cr D now id p = .ok o) : Followed cr D w o := by
  obtain ⟨hchecks, hpay⟩ := State.redeem_ok.mp h
  have hactive := (redeemChecks_ok.mp hchecks).1
  refine hsw.payout (hsw.orderly.redeem h) (hsw.orderly.books.tracked id hactive.1) ?_ hpay
  intro w' hstart
  refine ⟨now, .redeem id p (World.redeem_ok.mpr ⟨?_, ?_⟩)⟩
  · rw [hsw.htlc]
    exact hchecks
  · rw [hsw.htlc]
    exact hstart

theorem SeenAs.refund (hsw : SeenAs D s w) {x : Address} (hx : D.Account x) {id : Bytes32}
    {o : Outcome} (h : invoke cr D now x (.refund id) s = .ok o) : Followed cr D w o := by
  obtain ⟨hchecks, hpay⟩ := State.refund_ok.mp h
  have hactive := (refundChecks_ok.mp hchecks).1
  refine hsw.payout (hsw.orderly.refund hx h) (hsw.orderly.books.tracked id hactive.1) ?_ hpay
  intro w' hstart
  refine ⟨now, .refund x id ⟨hx.1, hx.2.1⟩ (World.refund_ok.mpr ⟨?_, ?_⟩)⟩
  · rw [hsw.htlc]
    exact hchecks
  · rw [hsw.htlc]
    exact hstart

/-- A leg's refund is a refund by the Settlement. While the maker's code runs
    afterwards, the HTLC sees a call of somebody else. -/
theorem SeenAs.refundLeg (hsw : SeenAs D s w) {id : Bytes32} {o : Outcome}
    (h : s.refundLeg D now id = .ok o) : Followed cr D w o := by
  have horderly := hsw.orderly.refundLeg h
  obtain ⟨hleg, hrefund⟩ := State.refundLeg_ok.mp h
  obtain ⟨hmaker, -⟩ := Settlement.refundLegChecks_ok.mp hleg
  obtain ⟨hchecks, hpay⟩ := State.refund_ok.mp hrefund
  obtain ⟨hactive, -, hsender⟩ := refundChecks_ok.mp hchecks
  have htracked : D.Tracked (s.htlc.swaps id).token := hsw.orderly.books.tracked id hactive.1
  have htoken : (s.settlement.legs id).token = (s.htlc.swaps id).token :=
    (hsw.orderly.books.agree id hsender.symm).1
  have haccount := hsw.orderly.books.makers id hmaker
  obtain ⟨l, hmove, hforward⟩ := State.pay_settlement htracked hsender.symm hpay
  obtain ⟨l', hmove', hrest⟩ := State.pay_tracked (p := (s.settlement.legs id).payout)
    (by rw [Settlement.Leg.payout, htoken]; exact htracked) hforward
  -- The HTLC's own part, from whichever calls are open.
  let p := (s.htlc.swaps id).refundPayout
  let done : HashedTimelock.Event := .logRefund id
  have hrun : ∀ fs, Run (guarded (D.setting cr)) ⟨{ w with frames := fs }, []⟩
      ⟨{ w with
        htlc := (s.htlc.setRefunded id).emit done
        held := heldAfter (D.setting cr) p w.held
        frames := fs }, []⟩ := by
    intro fs
    refine run_payout (w := { w with frames := fs }) (fun w' hstart => ?_) (fun _ => ?_) ?_
    · refine ⟨now, .refund D.settlement id ⟨D.settlement_ne_zero, D.settlement_ne_htlc⟩
        (World.refund_ok.mpr ⟨?_, ?_⟩)⟩
      · rw [hsw.htlc]
        exact hchecks
      · rw [hsw.htlc]
        exact hstart
    · rw [show p.dest = D.settlement from hsender.symm]
      exact D.settlement_ne_htlc
    · rw [hsw.held]
      exact (Ledger.move_eq_some.mp hmove).1
  -- The second payment goes past the HTLC.
  have hheld : ∀ token, heldAfter (D.setting cr) p w.held token = l'.bal token D.htlc := by
    intro token
    refine (held_of_move hmove hsw.held token).trans ?_
    exact ((Untouched.move (.inr ⟨D.settlement_ne_htlc.symm, haccount.2.1.symm⟩) hmove').bal
      token).symm
  rcases hrest with rfl | hrest
  · exact ⟨_, ⟨horderly, rfl, hheld, .cons (.legForward id _) hsw.frames⟩,
      .head (.enter ⟨now, .other rfl⟩) ((hrun (.other :: w.frames)).above [w])⟩
  · cases hrest
    exact ⟨⟨(s.htlc.setRefunded id).emit done, heldAfter (D.setting cr) p w.held, w.frames⟩,
      ⟨horderly, rfl, hheld, hsw.frames⟩, hrun w.frames⟩

/-- **The HTLC alone follows every call.** -/
theorem SeenAs.invoke (hsw : SeenAs D s w) (hstd : D.AllStandard) {x : Address}
    (hx : D.Account x) {call : Call} {o : Outcome} (h : invoke cr D now x call s = .ok o) :
    Followed cr D w o := by
  have horderly := hsw.orderly.invoke hstd hx h
  cases call with
  | newSwap value a =>
    obtain ⟨l, id, hledger, hchecks, rfl⟩ :=
      (invoke_newSwap_tracked (tracked_of_invoke_newSwap hstd h)).mp h
    obtain ⟨heth, htoken⟩ := value_of_newSwapChecks hchecks
    exact hsw.lock horderly ⟨hx.1, hx.2.1⟩ hchecks rfl
      (newSwapLedger_htlc hx heth htoken hledger) rfl
  | redeem id p => exact hsw.redeem h
  | refund id => exact hsw.refund hx h
  | authorizeLeg order signature nowTs =>
    obtain ⟨st, hst, rfl⟩ := invoke_authorizeLeg_ok.mp h
    exact ⟨w, ⟨horderly, hsw.htlc, hsw.held, hsw.frames⟩, .refl⟩
  | settleLeg value a =>
    obtain ⟨l, hledger, hsettle, hlock, rfl⟩ :=
      (invoke_settleLeg_tracked (tracked_of_invoke_settleLeg hstd h)).mp h
    obtain ⟨-, -, -, hmaker, -⟩ := Settlement.settleChecks_ok.mp hsettle
    -- To the HTLC the Settlement is one more caller.
    exact hsw.lock horderly ⟨D.settlement_ne_zero, D.settlement_ne_htlc⟩ hlock rfl
      (settleLedger_htlc hx hmaker hledger) rfl
  | refundLeg id => exact hsw.refundLeg h
  | transfer token dest amount =>
    obtain ⟨-, l, hmove, rfl⟩ := invoke_transfer_ok.mp h
    refine hsw.ledger horderly token rfl rfl
      (FundsKept.move hx.2.1.symm hmove).bal fun t ht => ?_
    simpa [ht] using Ledger.move_bal hmove t D.htlc
  | approve token spender amount =>
    obtain ⟨-, rfl⟩ := invoke_approve_ok.mp h
    exact ⟨w, ⟨horderly, hsw.htlc, hsw.held, hsw.frames⟩, .refl⟩
  | transferFrom token owner dest amount =>
    obtain ⟨-, l, htransfer, rfl⟩ := invoke_transferFrom_ok.mp h
    have hkept : FundsKept D.htlc s.ledger l :=
      .transferFrom (fun _ => (hsw.orderly.books.noAllowance token x).1) htransfer
    refine hsw.ledger horderly token rfl rfl hkept.bal fun t ht => ?_
    simpa [ht] using Ledger.move_bal (Ledger.transferFrom_eq_some.mp htransfer).2 t D.htlc

/-- A call that goes on is over, for the HTLC as well. -/
theorem SeenAs.resume (cr : Crypto) (hsw : SeenAs D s w) {o : Outcome} (h : resume cr D now s = .ok o) :
    ∃ s' w', o = .done s' ∧ SeenAs D s' w' ∧ (guarded (D.setting cr)).leave w w' := by
  have horderly := hsw.orderly.resume h
  obtain ⟨f, fs, hframes, hrest⟩ := resume_ok.mp h
  have hseen := hsw.frames
  rw [hframes] at hseen
  cases hwframes : w.frames with
  | nil =>
    rw [hwframes] at hseen
    cases hseen
  | cons g gs =>
    rw [hwframes] at hseen
    cases hseen with
    | cons hfg hrestFrames =>
      -- Neither call is a waiting `newSwap`.
      have hvacant : SlotVacant w := by
        intro sender a c moved gs' heq
        rw [hwframes] at heq
        cases heq
        cases hfg
      cases hfg with
      | payout done p =>
        cases hrest
        refine ⟨_, { w with htlc := w.htlc.emit done, frames := gs }, rfl,
          ⟨horderly, ?_, hsw.held, hrestFrames⟩, ⟨now, ?_⟩, hvacant⟩
        · show w.htlc.emit done = s.htlc.emit done
          rw [hsw.htlc]
        · show World.finish _ w = _
          simp [World.finish, hwframes]
      | legForward id leg =>
        cases hrest
        refine ⟨_, { w with frames := gs }, rfl, ⟨horderly, hsw.htlc, hsw.held, hrestFrames⟩,
          ⟨now, ?_⟩, hvacant⟩
        show World.finish _ w = _
        simp [World.finish, hwframes]
      | other =>
        cases hrest
        refine ⟨_, { w with frames := gs }, rfl, ⟨horderly, hsw.htlc, hsw.held, hrestFrames⟩,
          ⟨now, ?_⟩, hvacant⟩
        show World.finish _ w = _
        simp [World.finish, hwframes]

end Seen

/-! ## The simulation -/

/-- **The chain simulates into the HTLC alone.** -/
theorem SeenAs.simulates (cr : Crypto) {D : Deployment} (hstd : D.AllStandard) (π : Policy) :
    Simulates (anyTime cr D π) (guarded (D.setting cr)) (SeenAs D) where
  enter := by
    rintro s s' w hsw ⟨now, hmove⟩
    cases hmove with
    | invoke sender call hsender hpolicy h => exact hsw.invoke hstd hsender h
    | other h =>
      have horderly := Orderly.invariant cr hstd π hsw.orderly (.enter ⟨now, .other h⟩)
      subst h
      exact ⟨{ w with frames := .other :: w.frames },
        ⟨horderly, hsw.htlc, hsw.held, .cons .other hsw.frames⟩,
        .single (.enter ⟨now, .other rfl⟩)⟩
  act := by
    rintro s s' w hsw ⟨now, hmove⟩
    cases hmove with
    | invoke sender call hsender hpolicy h => exact hsw.invoke hstd hsender h
    | resume h =>
      obtain ⟨s'', w', heq, -, -⟩ := hsw.resume cr h
      cases heq
  leave := by
    rintro s s' w hsw ⟨now, h⟩
    obtain ⟨s'', w', heq, hsw', hleave⟩ := hsw.resume cr h
    cases heq
    exact ⟨w', hsw', fun r => .single (.leave hleave)⟩

/-- **The HTLC on the chain refines the HTLC alone**: whatever accounts, makers
    and the Settlement do, with nested calls and failures, the HTLC is in a state
    it also reaches alone, call for call and for every state that may still be
    restored, and no slot is ever taken while its `newSwap` waits. -/
theorem exchange_refines_htlc {cr : Crypto} {D : Deployment} (hstd : D.AllStandard) {π : Policy}
    {c : Config State} (h : Reachable cr D π c) :
    ∃ held d, Run (guarded (D.setting cr)) ⟨World.fresh held, []⟩ d ∧ c.Related (SeenAs D) d := by
  obtain ⟨l, hgenesis, hrun⟩ := h
  obtain ⟨d, hrelated, hrun'⟩ :=
    (SeenAs.simulates cr hstd π).run hrun (.of_cur (.fresh hgenesis))
  exact ⟨_, d, hrun', hrelated⟩

/-- A leg of 5 wei, settled and refunded, while its maker's code runs: the HTLC
    alone is inside a call of somebody else. -/
theorem refunded_leg_refines_htlc :
    ∃ c, Reachable Sample.crypto Sample.deployment anyone c ∧
      c.cur.frames = [.legForward Sample.ethId ⟨Sample.maker, zeroAddress, 5, false⟩] ∧
      ∃ held d, Run (guarded (Sample.deployment.setting Sample.crypto)) ⟨World.fresh held, []⟩ d ∧
        c.Related (SeenAs Sample.deployment) d := by
  obtain ⟨c, hrun, htest⟩ := (script Sample.crypto Sample.deployment).exists_run
    [.tx 10 Sample.maker (.settleLeg 5 Sample.ethOrder.leg),
      .tx 1000 Sample.maker (.refundLeg Sample.ethId)] ⟨State.fresh Sample.ledger, []⟩
    (fun c => decide (c.cur.frames =
      [.legForward Sample.ethId ⟨Sample.maker, zeroAddress, 5, false⟩]))
    (by decide +kernel)
  have hreach : Reachable Sample.crypto Sample.deployment anyone c :=
    ⟨Sample.ledger, Sample.genesis, hrun⟩
  exact ⟨c, hreach, of_decide_eq_true htest,
    exchange_refines_htlc Sample.deployment_allStandard hreach⟩

/-! ## What the chain inherits -/

/-- Between calls, the log of the HTLC on the chain is the log of an HTLC. -/
theorem Reachable.history {cr : Crypto} {D : Deployment} (hstd : D.AllStandard) {π : Policy}
    {c : Config State} (h : Reachable cr D π c) (hclosed : c.cur.frames = []) :
    HashedTimelock.History cr c.cur.htlc.logs ∧ HashedTimelock.Explains cr c.cur.htlc ∧
      HashedTimelock.SettlesOnce c.cur.htlc := by
  obtain ⟨l, hgenesis, hrun⟩ := h
  obtain ⟨d, ⟨hseen, -⟩, hrun'⟩ :=
    (SeenAs.simulates cr hstd π).run hrun (.of_cur (.fresh hgenesis))
  have hclosed' : d.cur.frames = [] := by
    have hframes := hseen.frames
    rw [hclosed] at hframes
    exact List.forall₂_nil_left_iff.mp hframes
  rw [← hseen.htlc]
  exact ⟨⟨_, _, d, rfl, hrun', hclosed', rfl⟩, HashedTimelock.explains_of_run hrun' hclosed',
    (HashedTimelock.Bookkeeping.run hrun').1.settlesOnce⟩

end Kael.Exchange
