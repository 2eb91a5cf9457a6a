import Kael.Contracts.SingleCalls

/-!
# Only the Maker Spends the Maker's Funds

Every piece of contract code changes the ledger by a few steps, and each step
spends for its caller or for one of the two contracts (`LedgerStep`). So the
calls of others never take from an account that has allowed nobody but the
contracts (`FundsKept`), and what the account's own locks take is computed
exactly (`Spends`).
-/

namespace Kael.Exchange

open NestedCalls
open Kael.Settlement (Failure SettleLeg Leg)
open HashedTimelock (NewSwap Payout newSwapChecks_ok)

/-! ## Who can spend -/

/-- One change of the ledger caused by a call of `x`. -/
inductive LedgerStep (D : Deployment) (x : Address) (l l' : Ledger Address Address) : Prop where
  | move (asset src dst : Address) (n : Nat)
      (hsrc : src = x ∨ src = D.htlc ∨ src = D.settlement)
      (h : l.move asset src dst n = some l')
  | approve (asset owner spender : Address) (n : Nat) (howner : owner = x ∨ owner = D.settlement)
      (h : l' = l.approve asset owner spender n)
  | transferFrom (asset spender owner dst : Address) (n : Nat)
      (hwho : spender = x ∧ D.Account x ∨
        (spender = D.htlc ∨ spender = D.settlement) ∧ (owner = x ∨ owner = D.settlement))
      (h : l.transferFrom (D.unlimitedAllowance asset) asset spender owner dst n = some l')

abbrev LedgerSteps (D : Deployment) (x : Address) :
    Ledger Address Address → Ledger Address Address → Prop :=
  Relation.ReflTransGen (LedgerStep D x)

section Code

variable {cr : Crypto} {D : Deployment} {now : Uint256} {s : State} {o : Outcome} {x : Address}

theorem LedgerSteps.finished (h : finished s = .ok o) : LedgerSteps D x s.ledger o.state.ledger := by
  cases h; exact .refl

theorem LedgerSteps.pay {src : Address} {contractId : Bytes32} {p : Payout}
    {ethFail tokenFail : Failure} {wait : Frame} {k : Rest}
    (h : s.pay D src contractId p ethFail tokenFail wait k = .ok o)
    (hsrc : src = D.htlc ∨ src = D.settlement)
    (hk : ∀ s₁, k s₁ = .ok o → LedgerSteps D x s₁.ledger o.state.ledger) :
    LedgerSteps D x s.ledger o.state.ledger := by
  rcases State.pay_ok.mp h with ⟨-, -, -, l, hmove, rfl⟩ | ⟨-, l, hmove, hrest⟩ | ⟨-, -, -, -, rfl⟩
  · exact .single (.move _ _ _ _ (.inr hsrc) hmove)
  · exact .head (.move _ _ _ _ (.inr hsrc) hmove) (hk _ hrest)
  · exact .refl

theorem LedgerSteps.newSwap {msg : Msg} {a : NewSwap} {wait : Bytes32 → Frame}
    {k : Bytes32 → Rest} (h : s.newSwap cr D now msg a wait k = .ok o)
    (hsender : msg.sender = x ∨ msg.sender = D.settlement)
    (hk : ∀ id s₁, k id s₁ = .ok o → LedgerSteps D x s₁.ledger o.state.ledger) :
    LedgerSteps D x s.ledger o.state.ledger := by
  obtain ⟨id, -, hcase⟩ := State.newSwap_ok.mp h
  rcases hcase with ⟨-, hrest⟩ | ⟨-, l, htransfer, hrest⟩ | ⟨-, -, -, -, rfl⟩
  · have hsteps := hk _ _ hrest
    exact hsteps
  · exact .head (.transferFrom _ _ _ _ _ (.inr ⟨.inl rfl, hsender⟩) htransfer) (hk _ _ hrest)
  · exact .refl

theorem LedgerSteps.settleApproved {value : Uint256} {a : SettleLeg} {contractId : Bytes32}
    (h : State.settleApproved cr D now value a contractId s = .ok o) :
    LedgerSteps D x s.ledger o.state.ledger := by
  refine LedgerSteps.newSwap h (.inr rfl) fun id s₁ hlocked => ?_
  obtain ⟨-, rfl⟩ := State.settleLocked_ok.mp hlocked
  exact .refl

theorem LedgerSteps.settleReceived {a : SettleLeg} {contractId : Bytes32}
    (h : State.settleReceived cr D now a contractId s = .ok o) :
    LedgerSteps D x s.ledger o.state.ledger := by
  rcases State.tokenCall_ok.mp h with ⟨-, l, hl, hrest⟩ | ⟨-, -, -, rfl⟩
  · cases hl
    exact .head (.approve _ _ _ _ (.inr rfl) rfl) (LedgerSteps.settleApproved hrest)
  · exact .refl

/-- `settleLeg` pulls from the maker only when the maker is the caller. -/
theorem LedgerSteps.settleLeg {value : Uint256} {a : SettleLeg}
    (h : s.settleLeg cr D now ⟨x, value⟩ a = .ok o) :
    LedgerSteps D x s.ledger o.state.ledger := by
  obtain ⟨hchecks, hrest⟩ := State.settleLeg_ok.mp h
  obtain ⟨-, -, -, hmaker, -⟩ := Settlement.settleChecks_ok.mp hchecks
  rcases State.receiveAndLock_ok.mp hrest with
    ⟨-, -, l, hmove, hlock⟩ | ⟨-, -, l, htransfer, hlock⟩ | ⟨-, -, -, -, -, -, rfl⟩
  · exact .head (.move _ _ _ _ (.inr (.inr rfl)) hmove) (LedgerSteps.settleApproved hlock)
  · exact .head (.transferFrom _ _ _ _ _ (.inr ⟨.inr rfl, .inl hmaker.symm⟩) htransfer)
      (LedgerSteps.settleReceived hlock)
  · exact .refl

theorem LedgerSteps.forwardLeg {contractId : Bytes32} {leg : Leg}
    (h : s.forwardLeg D contractId leg = .ok o) : LedgerSteps D x s.ledger o.state.ledger := by
  refine LedgerSteps.pay h (.inr rfl) fun s₁ hk => ?_
  cases hk
  exact .refl

theorem LedgerSteps.refund {sender : Address} {contractId : Bytes32} {wait : Frame} {k : Rest}
    (h : s.refund D now sender contractId wait k = .ok o)
    (hk : ∀ s₁, k s₁ = .ok o → LedgerSteps D x s₁.ledger o.state.ledger) :
    LedgerSteps D x s.ledger o.state.ledger := by
  obtain ⟨-, hpay⟩ := State.refund_ok.mp h
  have hsteps := LedgerSteps.pay (x := x) hpay (.inl rfl) fun s₁ hrest => by
    have hsteps := hk _ hrest
    exact hsteps
  exact hsteps

/-- **What a call can spend.** -/
theorem invoke_ledger {call : Call} (hx : D.Account x)
    (h : invoke cr D now x call s = .ok o) : LedgerSteps D x s.ledger o.state.ledger := by
  cases call with
  | newSwap value a =>
    obtain ⟨l, hmove, hrest⟩ := State.receive_ok.mp h
    exact .head (.move _ _ _ _ (.inl rfl) hmove)
      (LedgerSteps.newSwap hrest (.inl rfl) fun _ _ => LedgerSteps.finished)
  | redeem contractId preimage =>
    obtain ⟨-, hpay⟩ := State.redeem_ok.mp h
    -- The payment is made by the HTLC; the caller moves nothing itself.
    have hsteps := LedgerSteps.pay (x := x) hpay (.inl rfl) fun s₁ hk => by cases hk; exact .refl
    exact hsteps
  | refund contractId => exact LedgerSteps.refund h fun _ => LedgerSteps.finished
  | authorizeLeg order signature nowTs =>
    obtain ⟨st, -, rfl⟩ := invoke_authorizeLeg_ok.mp h
    exact .refl
  | settleLeg value a =>
    obtain ⟨l, hmove, hrest⟩ := State.receive_ok.mp h
    exact .head (.move _ _ _ _ (.inl rfl) hmove) (LedgerSteps.settleLeg hrest)
  | refundLeg contractId =>
    obtain ⟨-, hrest⟩ := State.refundLeg_ok.mp h
    have hsteps := LedgerSteps.refund (x := x) hrest fun _ => LedgerSteps.forwardLeg
    exact hsteps
  | transfer token dest amount =>
    obtain ⟨-, l, hmove, rfl⟩ := invoke_transfer_ok.mp h
    exact .single (.move _ _ _ _ (.inl rfl) hmove)
  | approve token spender amount =>
    obtain ⟨-, rfl⟩ := invoke_approve_ok.mp h
    exact .single (.approve _ _ _ _ (.inl rfl) rfl)
  | transferFrom token owner dest amount =>
    obtain ⟨-, l, htransfer, rfl⟩ := invoke_transferFrom_ok.mp h
    -- Here the caller spends an allowance, in its own name.
    exact .single (.transferFrom _ _ _ _ _ (.inl ⟨rfl, hx⟩) htransfer)

/-- A returning call spends for the contracts only. -/
theorem resume_ledger (h : resume cr D now s = .ok o) :
    LedgerSteps D D.settlement s.ledger o.state.ledger := by
  -- Each frame goes on with code of the contracts only.
  obtain ⟨f, fs, -, hrest⟩ := resume_ok.mp h
  cases f with
  | newSwap sender a contractId => cases hrest; exact .refl
  | payout done => cases hrest; exact .refl
  | settleReceive a contractId =>
    have hsteps := LedgerSteps.settleReceived (x := D.settlement) hrest
    exact hsteps
  | settleApprove a contractId =>
    have hsteps := LedgerSteps.settleApproved (x := D.settlement) hrest
    exact hsteps
  | settleLock a contractId got =>
    obtain ⟨-, rfl⟩ := State.settleLocked_ok.mp hrest
    exact .refl
  | legRefund contractId leg =>
    have hsteps := LedgerSteps.forwardLeg (x := D.settlement) hrest
    exact hsteps
  | legForward contractId leg => cases hrest; exact .refl
  | other => cases hrest; exact .refl

end Code

/-! ## What others can take from an account -/

/-- The account loses nothing and its allowances stay as they are. -/
structure FundsKept (m : Address) (l l' : Ledger Address Address) : Prop where
  bal : ∀ asset, l.bal asset m ≤ l'.bal asset m
  allowance : ∀ asset spender, l'.allowance asset m spender = l.allowance asset m spender

/-- The account has allowed nobody but the two contracts. -/
def OnlyContracts (D : Deployment) (m : Address) (l : Ledger Address Address) : Prop :=
  ∀ asset spender, spender ≠ D.htlc → spender ≠ D.settlement → l.allowance asset m spender = 0

theorem FundsKept.refl (m : Address) (l : Ledger Address Address) : FundsKept m l l :=
  ⟨fun _ => le_rfl, fun _ _ => rfl⟩

theorem FundsKept.trans {m : Address} {l₁ l₂ l₃ : Ledger Address Address}
    (h₁₂ : FundsKept m l₁ l₂) (h₂₃ : FundsKept m l₂ l₃) : FundsKept m l₁ l₃ :=
  ⟨fun a => le_trans (h₁₂.bal a) (h₂₃.bal a),
    fun a x => (h₂₃.allowance a x).trans (h₁₂.allowance a x)⟩

theorem OnlyContracts.of_kept {D : Deployment} {m : Address} {l l' : Ledger Address Address}
    (h : OnlyContracts D m l) (hkept : FundsKept m l l') : OnlyContracts D m l' :=
  fun asset spender hhtlc hsettlement =>
    (hkept.allowance asset spender).trans (h asset spender hhtlc hsettlement)

theorem FundsKept.move {m asset src dst : Address} {n : Nat} {l l' : Ledger Address Address}
    (hsrc : m ≠ src) (h : l.move asset src dst n = some l') : FundsKept m l l' :=
  ⟨fun _ => Ledger.move_bal_ge h (.inr hsrc), fun _ _ => by rw [Ledger.move_allowance h]⟩

theorem FundsKept.approve {m asset owner spender : Address} {n : Nat}
    {l : Ledger Address Address} (howner : m ≠ owner) :
    FundsKept m l (l.approve asset owner spender n) :=
  ⟨fun _ => le_rfl, fun a y => by
    rw [Ledger.approve_allowance, if_neg fun heq => howner heq.2.1]⟩

/-- A spender with no allowance takes nothing. -/
theorem FundsKept.transferFrom {m asset spender owner dst : Address} {n : Nat}
    {unlimited : Nat → Bool} {l l' : Ledger Address Address}
    (hzero : owner = m → l.allowance asset m spender = 0)
    (h : l.transferFrom unlimited asset spender owner dst n = some l') : FundsKept m l l' := by
  obtain ⟨hle, hmove⟩ := Ledger.transferFrom_eq_some.mp h
  by_cases howner : owner = m
  -- The owner is `m`, who has allowed this spender nothing, so nothing is moved.
  · subst howner
    have hnone := hzero rfl
    have hn : n = 0 := by omega
    subst hn
    refine ⟨fun a => ?_, fun a y => ?_⟩
    · have hbal := Ledger.move_bal hmove a owner
      simp only [Ledger.approve_bal] at hbal
      split_ifs at hbal <;> omega
    -- No allowance of `m` was spent either.
    · rw [Ledger.transferFrom_allowance h]
      split_ifs with heq
      · obtain ⟨rfl, -, rfl⟩ := heq
        simp [Ledger.spent, hnone]
      · rfl
  -- The owner is another account.
  · refine ⟨fun a => ?_, fun a y => ?_⟩
    · exact Ledger.move_bal_ge hmove (.inr fun h => howner h.symm)
    · rw [Ledger.transferFrom_allowance h, if_neg fun heq => howner heq.2.1.symm]

/-- A step caused by somebody else takes nothing from `m`. -/
theorem LedgerStep.fundsKept {D : Deployment} {x m : Address} {l l' : Ledger Address Address}
    (hm : D.Account m) (hx : x ≠ m) (honly : OnlyContracts D m l) (h : LedgerStep D x l l') :
    FundsKept m l l' := by
  obtain ⟨-, hmhtlc, hmsettlement⟩ := hm
  cases h with
  | move asset src dst n hsrc h =>
    refine .move ?_ h
    rintro rfl
    rcases hsrc with heq | heq | heq
    · exact hx heq.symm
    · exact hmhtlc heq
    · exact hmsettlement heq
  | approve asset owner spender n howner h =>
    subst h
    refine .approve ?_
    rintro rfl
    exact howner.elim (fun heq => hx heq.symm) hmsettlement
  | transferFrom asset spender owner dst n hwho h =>
    refine .transferFrom (fun howner => ?_) h
    -- Only a third party can be the spender here.
    rcases hwho with ⟨rfl, haccount⟩ | ⟨-, howner' | howner'⟩
    · exact honly asset spender haccount.2.1 haccount.2.2
    · exact absurd (howner'.symm.trans howner) hx
    · exact absurd (howner.symm.trans howner') hmsettlement

theorem LedgerSteps.fundsKept {D : Deployment} {x m : Address} {l l' : Ledger Address Address}
    (hm : D.Account m) (hx : x ≠ m) (honly : OnlyContracts D m l) (h : LedgerSteps D x l l') :
    FundsKept m l l' := by
  induction h with
  | refl => exact .refl m l
  | tail _ hstep ih => exact ih.trans (hstep.fundsKept hm hx (honly.of_kept ih))

/-- Everybody but `m` calls anything. -/
def others (m : Address) : Policy := fun x _ => x ≠ m

/-- While only others call, an account that has allowed nobody but the
    contracts keeps its funds. -/
theorem others_progress (cr : Crypto) {D : Deployment} {m : Address} (hm : D.Account m) :
    Progress (anyTime cr D (others m)) fun s s' =>
      OnlyContracts D m s.ledger → FundsKept m s.ledger s'.ledger where
  -- The funds that others cannot touch are carried along the preorder.
  refl s _ := .refl m s.ledger
  trans h₁₂ h₂₃ honly := (h₁₂ honly).trans (h₂₃ (honly.of_kept (h₁₂ honly)))
  moves {s s'} hmove honly := by
    -- The contracts go on in their own name, which is not `m`.
    have hsettlement : D.settlement ≠ m := fun h => hm.2.2 h.symm
    obtain ⟨now, hmove⟩ := CallSystem.Moves.of_union hmove
    cases hmove with
    | enter h =>
      cases h with
      | invoke sender call hsender hpolicy h =>
        exact (invoke_ledger hsender h).fundsKept hm hpolicy honly
      | other h => subst h; exact .refl m s.ledger
    | act h =>
      cases h with
      | invoke sender call hsender hpolicy h =>
        exact (invoke_ledger hsender h).fundsKept hm hpolicy honly
      | resume h => exact (resume_ledger h).fundsKept hm hsettlement honly
    | leave h => exact (resume_ledger h).fundsKept hm hsettlement honly

/-! ## What an account's own calls take -/

/-- `m` loses exactly `n` of `token`, and its allowance for `spender`, if
    `token` is a token, is spent by `n`. Nothing else of `m` changes. -/
structure Spends (D : Deployment) (m spender token : Address) (n : Nat)
    (l l' : Ledger Address Address) : Prop where
  bal : ∀ asset, l'.bal asset m + (if asset = token then n else 0) = l.bal asset m
  allowance : ∀ asset y, l'.allowance asset m y =
    if asset = token ∧ y = spender ∧ token ≠ zeroAddress then
      Ledger.spent (D.unlimitedAllowance token) (l.allowance token m spender) n
    else l.allowance asset m y

/-- ETH sent along with a call, spent or not. -/
theorem Spends.eth {D : Deployment} {m spender dst : Address} {n : Nat}
    {l l' : Ledger Address Address} (hdst : m ≠ dst)
    (h : l.move zeroAddress m dst n = some l') : Spends D m spender zeroAddress n l l' := by
  refine ⟨fun asset => ?_, fun asset y => ?_⟩
  · have hbal := Ledger.move_bal h asset m
    simpa [hdst] using hbal
  · rw [Ledger.move_allowance h, if_neg (by simp)]

theorem Spends.token {D : Deployment} {m spender dst token : Address} {n : Nat}
    {l l' : Ledger Address Address} (htoken : token ≠ zeroAddress) (hdst : m ≠ dst)
    (h : l.transferFrom (D.unlimitedAllowance token) token spender m dst n = some l') :
    Spends D m spender token n l l' := by
  obtain ⟨-, hmove⟩ := Ledger.transferFrom_eq_some.mp h
  refine ⟨fun asset => ?_, fun asset y => ?_⟩
  · have hbal := Ledger.move_bal hmove asset m
    simpa [hdst] using hbal
  · rw [Ledger.transferFrom_allowance h]
    simp [htoken]

/-- What `m` keeps exactly. -/
structure Untouched (m : Address) (l l' : Ledger Address Address) : Prop where
  bal : ∀ asset, l'.bal asset m = l.bal asset m
  allowance : ∀ asset y, l'.allowance asset m y = l.allowance asset m y

theorem Untouched.trans {m : Address} {l₁ l₂ l₃ : Ledger Address Address}
    (h₁₂ : Untouched m l₁ l₂) (h₂₃ : Untouched m l₂ l₃) : Untouched m l₁ l₃ :=
  ⟨fun a => (h₂₃.bal a).trans (h₁₂.bal a),
    fun a y => (h₂₃.allowance a y).trans (h₁₂.allowance a y)⟩

theorem Untouched.fundsKept {m : Address} {l l' : Ledger Address Address}
    (h : Untouched m l l') : FundsKept m l l' :=
  ⟨fun a => (h.bal a).ge, h.allowance⟩

/-- A transfer of nothing, or between others. -/
theorem Untouched.move {m asset src dst : Address} {n : Nat} {l l' : Ledger Address Address}
    (hm : n = 0 ∨ (m ≠ src ∧ m ≠ dst)) (h : l.move asset src dst n = some l') :
    Untouched m l l' := by
  refine ⟨fun a => ?_, fun a y => by rw [Ledger.move_allowance h]⟩
  have hbal := Ledger.move_bal h a m
  rcases hm with rfl | ⟨hsrc, hdst⟩
  · split_ifs at hbal <;> omega
  · simpa [hsrc, hdst] using hbal

theorem Untouched.transferFrom {m asset spender owner dst : Address} {n : Nat}
    {unlimited : Nat → Bool} {l l' : Ledger Address Address} (howner : m ≠ owner) (hdst : m ≠ dst)
    (h : l.transferFrom unlimited asset spender owner dst n = some l') : Untouched m l l' := by
  obtain ⟨-, hmove⟩ := Ledger.transferFrom_eq_some.mp h
  refine ⟨(Untouched.move (.inr ⟨howner, hdst⟩) hmove).bal, fun a y => ?_⟩
  rw [Ledger.transferFrom_allowance h, if_neg fun heq => howner heq.2.1]

theorem Untouched.approve {m asset owner spender : Address} {n : Nat}
    {l : Ledger Address Address} (howner : m ≠ owner) :
    Untouched m l (l.approve asset owner spender n) :=
  ⟨fun _ => rfl, fun a y => by
    rw [Ledger.approve_allowance, if_neg fun heq => howner heq.2.1]⟩

theorem Spends.of_untouched {D : Deployment} {m spender token : Address} {n : Nat}
    {l₁ l₂ l₃ : Ledger Address Address} (h : Spends D m spender token n l₁ l₂)
    (h' : Untouched m l₂ l₃) : Spends D m spender token n l₁ l₃ :=
  ⟨fun a => (h'.bal a).symm ▸ h.bal a, fun a y => (h'.allowance a y).trans (h.allowance a y)⟩

theorem Spends.after_untouched {D : Deployment} {m spender token : Address} {n : Nat}
    {l₁ l₂ l₃ : Ledger Address Address} (h' : Untouched m l₁ l₂)
    (h : Spends D m spender token n l₂ l₃) : Spends D m spender token n l₁ l₃ :=
  ⟨fun a => (h.bal a).trans (h'.bal a), fun a y => by
    rw [h.allowance a y, h'.allowance, h'.allowance]⟩

section OwnCalls

variable {cr : Crypto} {D : Deployment} {now : Uint256} {m : Address}
  {l l' : Ledger Address Address}

/-- The ETH a lock sends along: the amount if ETH is locked, nothing otherwise. -/
theorem value_of_newSwapChecks {st : HashedTimelock.Storage} {sender : Address} {value : Uint256}
    {a : NewSwap} {contractId : Bytes32}
    (h : HashedTimelock.newSwapChecks cr D.hasCode now st ⟨sender, value⟩ a = .ok contractId) :
    (a.token = zeroAddress → value = a.amount) ∧ (a.token ≠ zeroAddress → value = 0) := by
  obtain ⟨-, -, -, -, -, ⟨htoken, hvalue⟩ | ⟨htoken, hvalue, -⟩⟩ := newSwapChecks_ok.mp h
  · exact ⟨fun _ => hvalue, fun h => absurd htoken h⟩
  · exact ⟨fun h => absurd h htoken, fun _ => hvalue⟩

theorem newSwapLedger_spends (hm : D.Account m) {value : Uint256} {a : NewSwap}
    (heth : a.token = zeroAddress → value = a.amount)
    (htoken : a.token ≠ zeroAddress → value = 0)
    (h : newSwapLedger D m value a l = some l') :
    Spends D m D.htlc a.token a.amount.toNat l l' := by
  obtain ⟨l₁, hmove, hrest⟩ := Option.bind_eq_some_iff.mp h
  split_ifs at hrest with hzero
  · cases hrest
    rw [hzero, ← heth hzero]
    exact .eth hm.2.1 hmove
  · have hnone : value.toNat = 0 := by rw [htoken hzero]; rfl
    exact .after_untouched (.move (.inl hnone) hmove) (.token hzero hm.2.1 hrest)

theorem settleLedger_spends (hm : D.Account m) {value : Uint256} {a : SettleLeg}
    (hmaker : m = a.order.maker)
    (heth : a.order.sellToken = zeroAddress → value = a.order.sellAmount)
    (htoken : a.order.sellToken ≠ zeroAddress → value = 0)
    (h : settleLedger D value a m l = some l') :
    Spends D m D.settlement a.order.sellToken a.order.sellAmount.toNat l l' := by
  obtain ⟨l₁, hmove, hrest⟩ := Option.bind_eq_some_iff.mp h
  split_ifs at hrest with hzero
  -- ETH goes to Settlement with the call, and on to the HTLC.
  · rw [hzero, ← heth hzero]
    rw [← heth hzero] at hrest
    exact .of_untouched (.eth hm.2.2 hmove) (.move (.inr ⟨hm.2.2, hm.2.1⟩) hrest)
  -- The token is pulled from the maker; the rest moves Settlement's own.
  · have hnone : value.toNat = 0 := by rw [htoken hzero]; rfl
    obtain ⟨l₂, hpull, hlock⟩ := Option.bind_eq_some_iff.mp hrest
    rw [← hmaker] at hpull
    exact .after_untouched (.move (.inl hnone) hmove)
      (.of_untouched (.token hzero hm.2.2 hpull)
        ((Untouched.approve hm.2.2).trans (.transferFrom hm.2.2 hm.2.1 hlock)))

variable {s : State} {o : Outcome}

/-- A call of the contracts that locks nothing. -/
def Call.LocksNothing : Call → Prop
  | .redeem .. => True
  | .refund .. => True
  | .authorizeLeg .. => True
  | .refundLeg .. => True
  | _ => False

/-- Calls that lock nothing spend for the contracts only, whoever makes them. -/
theorem invoke_ledger_of_locksNothing {x : Address} {call : Call} (hcall : call.LocksNothing)
    (h : invoke cr D now x call s = .ok o) :
    LedgerSteps D D.settlement s.ledger o.state.ledger := by
  cases call with
  -- Payments are made by the contracts, out of what they hold.
  | redeem contractId preimage =>
    obtain ⟨-, hpay⟩ := State.redeem_ok.mp h
    have hsteps := LedgerSteps.pay (x := D.settlement) hpay (.inl rfl)
      fun s₁ hk => by cases hk; exact .refl
    exact hsteps
  | refund contractId => exact LedgerSteps.refund h fun _ => LedgerSteps.finished
  | authorizeLeg order signature nowTs =>
    obtain ⟨st, -, rfl⟩ := invoke_authorizeLeg_ok.mp h
    exact .refl
  | refundLeg contractId =>
    obtain ⟨-, hrest⟩ := State.refundLeg_ok.mp h
    have hsteps := LedgerSteps.refund (x := D.settlement) hrest fun _ => LedgerSteps.forwardLeg
    exact hsteps
  | newSwap | settleLeg | transfer | approve | transferFrom => exact hcall.elim

/-- A lock of a foreign token waits for that token, and touches nothing else. -/
theorem invoke_newSwap_foreign {value : Uint256} {a : NewSwap} (htoken : ¬D.Tracked a.token)
    (h : invoke cr D now m (.newSwap value a) s = .ok o) :
    Untouched m s.ledger o.state.ledger := by
  rw [Deployment.Tracked, not_or] at htoken
  obtain ⟨l, hmove, hrest⟩ := State.receive_ok.mp h
  obtain ⟨id, hchecks, hcase⟩ := State.newSwap_ok.mp hrest
  have hnone : value.toNat = 0 := by rw [(value_of_newSwapChecks hchecks).2 htoken.1]; rfl
  rcases hcase with ⟨hzero, -⟩ | ⟨hstandard, -⟩ | ⟨-, -, -, -, rfl⟩
  · exact absurd hzero htoken.1
  · exact absurd hstandard htoken.2
  · exact .move (.inl hnone) hmove

/-- A `settleLeg` of a foreign token waits for it to pay. -/
theorem settleLeg_waits {value : Uint256} {a : SettleLeg}
    (htoken : ¬D.Tracked a.order.sellToken)
    (h : invoke cr D now m (.settleLeg value a) s = .ok o) : ∃ l,
    s.ledger.move zeroAddress m D.settlement value.toNat = some l ∧
    Settlement.settleChecks cr D.chainId now s.settlement m a = .ok () ∧ value = 0#256 ∧
    (a.order.sellToken ≠ D.htlc ∧ a.order.sellToken ≠ D.settlement) ∧
    o = .waiting { s with
      ledger := l
      settlement := s.settlement.openLeg (a.contractId cr D.settlement) a
      frames := .settleReceive a (a.contractId cr D.settlement) :: s.frames } := by
  rw [Deployment.Tracked, not_or] at htoken
  obtain ⟨l, hmove, hrest⟩ := State.receive_ok.mp h
  obtain ⟨hchecks, hlock⟩ := State.settleLeg_ok.mp hrest
  rcases State.receiveAndLock_ok.mp hlock with
    ⟨hzero, -⟩ | ⟨hstandard, -⟩ | ⟨-, -, hvalue, -, hhtlc, hsettlement, rfl⟩
  · exact absurd hzero htoken.1
  · exact absurd hstandard htoken.2
  · exact ⟨l, hmove, hchecks, hvalue, ⟨hhtlc, hsettlement⟩, rfl⟩

theorem invoke_settleLeg_foreign {value : Uint256} {a : SettleLeg}
    (htoken : ¬D.Tracked a.order.sellToken)
    (h : invoke cr D now m (.settleLeg value a) s = .ok o) :
    Untouched m s.ledger o.state.ledger := by
  obtain ⟨l, hmove, -, hvalue, -, rfl⟩ := settleLeg_waits htoken h
  exact .move (.inl (by rw [hvalue]; rfl)) hmove

/-- **Only the maker spends the maker's funds.** Let `m` have allowed nobody
    but the two contracts. While only others call, with whatever orders and
    signatures, `m` loses nothing and its allowances stay; this holds from
    outside all calls, and inside `m`'s own waiting calls as long as they are
    not undone. A lock by `m` takes exactly the amount of the record it creates,
    from the balance and from the allowance; a leg settled by `m` is one `m`
    signed, for this chain and not expired. `m`'s other calls take nothing. -/
theorem only_maker_spends (hm : D.Account m) {c : Config State}
    (honly : OnlyContracts D m c.cur.ledger) :
    (c.saved = [] → ∀ c', Run (anyTime cr D (others m)) c c' →
      FundsKept m c.cur.ledger c'.cur.ledger) ∧
    (∀ s' inner outer, Kept (anyTime cr D (others m)) c s' inner outer →
      FundsKept m c.cur.ledger s'.ledger) ∧
    (∀ now value a o, invoke cr D now m (.newSwap value a) c.cur = .ok o →
      if D.Tracked a.token then ∃ s' contractId, o = .done s' ∧
        ¬(c.cur.htlc.swaps contractId).Exists ∧ s'.htlc.swaps contractId = a.record m ∧
        Spends D m D.htlc a.token a.amount.toNat c.cur.ledger s'.ledger
      else Untouched m c.cur.ledger o.state.ledger) ∧
    (∀ now value a o, invoke cr D now m (.settleLeg value a) c.cur = .ok o →
      OrderLib.SignedByMaker cr a.order a.signature ∧ a.order.maker = m ∧
      a.order.sellChainId = D.chainId ∧ now ≤ a.order.validUntil ∧
      if D.Tracked a.order.sellToken then ∃ s' contractId, o = .done s' ∧
        ¬(c.cur.htlc.swaps contractId).Exists ∧
        s'.htlc.swaps contractId = a.lock.record D.settlement ∧
        Spends D m D.settlement a.order.sellToken a.order.sellAmount.toNat c.cur.ledger s'.ledger
      else Untouched m c.cur.ledger o.state.ledger) ∧
    (∀ now call o, call.LocksNothing → invoke cr D now m call c.cur = .ok o →
      FundsKept m c.cur.ledger o.state.ledger) := by
  refine ⟨fun hsaved c' hrun => ?_, fun s' inner outer hkept => ?_, fun now value a o h => ?_,
    fun now value a o h => ?_, fun now call o hcall h => ?_⟩
  -- Others, over a whole run from a state outside all calls.
  · obtain ⟨s, saved⟩ := c
    cases hsaved
    exact ((others_progress cr hm).run_from hrun).1 honly
  -- Others, as long as no failure undoes the history.
  · exact ((others_progress cr hm).kept hkept).1 honly
  -- A direct lock of `m`.
  · split_ifs with htoken
    · obtain ⟨l, id, hledger, hchecks, rfl⟩ := (invoke_newSwap_tracked htoken).mp h
      obtain ⟨heth, herc20⟩ := value_of_newSwapChecks hchecks
      obtain ⟨-, -, -, -, habsent, -⟩ := newSwapChecks_ok.mp hchecks
      refine ⟨_, id, rfl, habsent, ?_, newSwapLedger_spends hm heth herc20 hledger⟩
      rw [HashedTimelock.Storage.writeSwap_swaps, if_pos rfl]
    · exact invoke_newSwap_foreign htoken h
  -- A leg of `m`: the order is signed by `m` before anything is spent.
  · have hchecks : Settlement.settleChecks cr D.chainId now c.cur.settlement m a = .ok () := by
      obtain ⟨l, -, hrest⟩ := State.receive_ok.mp h
      exact (State.settleLeg_ok.mp hrest).1
    obtain ⟨hsigned, htime, hchain, hmaker, -⟩ := Settlement.settleChecks_ok.mp hchecks
    refine ⟨hsigned, hmaker.symm, hchain, htime, ?_⟩
    split_ifs with htoken
    · obtain ⟨l, hledger, -, hlock, rfl⟩ := (invoke_settleLeg_tracked htoken).mp h
      obtain ⟨heth, herc20⟩ := value_of_newSwapChecks hlock
      obtain ⟨-, -, -, -, habsent, -⟩ := newSwapChecks_ok.mp hlock
      refine ⟨_, a.contractId cr D.settlement, rfl, habsent, ?_,
        settleLedger_spends hm hmaker heth herc20 hledger⟩
      simp only [State.settled, HashedTimelock.Storage.writeSwap_swaps, if_pos]
    · exact invoke_settleLeg_foreign htoken h
  -- Any other call of `m` to the contracts.
  · exact (invoke_ledger_of_locksNothing hcall h).fundsKept hm (fun heq => hm.2.2 heq.symm) honly

end OwnCalls

/-- A maker that settles a leg of 5 from a balance of 10. -/
theorem maker_spends_leg :
    ∃ o s', invoke Sample.crypto Sample.deployment 10 Sample.maker
        (.settleLeg 0 Sample.coinOrder.leg) (State.fresh Sample.ledger) = .ok o ∧
      o = .done s' ∧ s'.ledger.bal Sample.coin Sample.maker + 5 = 10 := by
  -- The sample makers have approved the two contracts only.
  have honly : OnlyContracts Sample.deployment Sample.maker Sample.ledger := by
    intro asset spender hhtlc hsettlement
    simp [Sample.ledger, hhtlc, hsettlement]
  have hok : (invoke Sample.crypto Sample.deployment 10 Sample.maker
      (.settleLeg 0 Sample.coinOrder.leg) (State.fresh Sample.ledger)).isOk = true := by
    decide +kernel
  cases ho : invoke Sample.crypto Sample.deployment 10 Sample.maker
      (.settleLeg 0 Sample.coinOrder.leg) (State.fresh Sample.ledger) with
  | error e => rw [ho] at hok; cases hok
  | ok o =>
    obtain ⟨-, -, -, -, hlock⟩ := (only_maker_spends (by decide)
      (c := ⟨State.fresh Sample.ledger, []⟩) honly).2.2.2.1 10 0 Sample.coinOrder.leg o ho
    rw [if_pos (by decide)] at hlock
    obtain ⟨s', contractId, hdone, -, -, hspends⟩ := hlock
    exact ⟨o, s', rfl, hdone, hspends.bal Sample.coin⟩

/-- Two calls by an account itself that do not take the amount of the record
    they create: ETH sent to the Settlement creates no record, and an
    allowance that the token takes as unlimited stays. -/
theorem own_call_without_record_or_spending :
    (∃ s', invoke Sample.crypto Sample.deployment 10 Sample.maker
        (.transfer zeroAddress Sample.deployment.settlement 3) (State.fresh Sample.ledger) =
          .ok (.done s') ∧
      s'.htlc = (State.fresh Sample.ledger).htlc ∧
      s'.ledger.bal zeroAddress Sample.maker + 3 = Sample.ledger.bal zeroAddress Sample.maker) ∧
    ∃ s', invoke Sample.crypto Sample.deployment 10 Sample.maker
        (.newSwap 0 Sample.directLock) (State.fresh Sample.ledger) = .ok (.done s') ∧
      (s'.htlc.swaps Sample.directId).amount.toNat = maxUint256 ∧
      s'.ledger.allowance Sample.maxCoin Sample.maker Sample.deployment.htlc =
        Sample.ledger.allowance Sample.maxCoin Sample.maker Sample.deployment.htlc := by
  constructor
  · refine ⟨_, rfl, rfl, by decide +kernel⟩
  · have hok : doneAnd (fun s' => (s'.htlc.swaps Sample.directId).amount.toNat = maxUint256 ∧
        s'.ledger.allowance Sample.maxCoin Sample.maker Sample.deployment.htlc =
          Sample.ledger.allowance Sample.maxCoin Sample.maker Sample.deployment.htlc)
      (invoke Sample.crypto Sample.deployment 10 Sample.maker (.newSwap 0 Sample.directLock)
        (State.fresh Sample.ledger)) = true := by decide +kernel
    obtain ⟨s', hs', htest⟩ := doneAnd_iff.mp hok
    exact ⟨s', hs', of_decide_eq_true htest⟩

end Kael.Exchange
