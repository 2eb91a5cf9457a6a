import Kael.Contracts.Funds

/-!
# Settlement Is a Non-Custodial Pass-Through

With standard ERC-20s, and ETH recipients that call back whatever they like,
the Settlement's legs and the HTLC's records always agree, the Settlement
keeps nothing of what passes through it, and every amount is in the HTLC until
it goes where its record says.

What the two contracts keep about this are their books (`Books`): records,
legs, the ledger and the payments made. Code that waits for an ETH recipient
only emits events when it goes on, so one invariant of the books (`Sound`)
holds whenever control is outside both contracts.
-/

namespace Kael.Exchange

open NestedCalls
open Kael.Settlement (Failure SettleLeg Leg)
open HashedTimelock (NewSwap Payout Swap newSwapChecks redeemChecks refundChecks newSwapChecks_ok
  redeemChecks_ok refundChecks_ok)

/-! ## What locks do to the contracts' balances -/

/-- `y` gains exactly `n` of `token` and its allowances stay. -/
structure Receives (y token : Address) (n : Nat) (l l' : Ledger Address Address) : Prop where
  bal : ∀ asset, l'.bal asset y = l.bal asset y + if asset = token then n else 0
  allowance : ∀ asset z, l'.allowance asset y z = l.allowance asset y z

theorem Receives.move {src dst token : Address} {n : Nat} {l l' : Ledger Address Address}
    (hne : dst ≠ src) (h : l.move token src dst n = some l') : Receives dst token n l l' := by
  refine ⟨fun asset => ?_, fun asset z => by rw [Ledger.move_allowance h]⟩
  have hbal := Ledger.move_bal h asset dst
  simpa [hne] using hbal

theorem Receives.transferFrom {unlimited : Nat → Bool} {token spender owner dst : Address} {n : Nat}
    {l l' : Ledger Address Address} (hne : dst ≠ owner)
    (h : l.transferFrom unlimited token spender owner dst n = some l') :
    Receives dst token n l l' := by
  obtain ⟨-, hmove⟩ := Ledger.transferFrom_eq_some.mp h
  refine ⟨(Receives.move hne hmove).bal, fun asset z => ?_⟩
  rw [Ledger.transferFrom_allowance h, if_neg fun heq => hne heq.2.1]

theorem Receives.after_untouched {y token : Address} {n : Nat} {l₁ l₂ l₃ : Ledger Address Address}
    (h' : Untouched y l₁ l₂) (h : Receives y token n l₂ l₃) : Receives y token n l₁ l₃ :=
  ⟨fun asset => by rw [h.bal, h'.bal],
    fun asset z => (h.allowance asset z).trans (h'.allowance asset z)⟩

section Locks

variable {D : Deployment} {x : Address} {value : Uint256} {l l' : Ledger Address Address}

theorem newSwapLedger_htlc (hx : D.Account x) {a : NewSwap}
    (heth : a.token = zeroAddress → value = a.amount)
    (htoken : a.token ≠ zeroAddress → value = 0)
    (h : newSwapLedger D x value a l = some l') :
    Receives D.htlc a.token a.amount.toNat l l' := by
  obtain ⟨l₁, hmove, hrest⟩ := Option.bind_eq_some_iff.mp h
  split_ifs at hrest with hzero
  · cases hrest
    rw [hzero, ← heth hzero]
    exact .move hx.2.1.symm hmove
  · have hnone : value.toNat = 0 := by rw [htoken hzero]; rfl
    exact .after_untouched (.move (.inl hnone) hmove) (.transferFrom hx.2.1.symm hrest)

theorem newSwapLedger_settlement (hx : D.Account x) {a : NewSwap}
    (h : newSwapLedger D x value a l = some l') : Untouched D.settlement l l' := by
  obtain ⟨l₁, hmove, hrest⟩ := Option.bind_eq_some_iff.mp h
  have hfirst := Untouched.move (.inr ⟨hx.2.2.symm, D.settlement_ne_htlc⟩) hmove
  split_ifs at hrest with hzero
  · cases hrest
    exact hfirst
  · exact hfirst.trans (.transferFrom hx.2.2.symm D.settlement_ne_htlc hrest)

theorem settleLedger_htlc (hx : D.Account x) {a : SettleLeg} (hmaker : x = a.order.maker)
    (h : settleLedger D value a x l = some l') :
    Receives D.htlc a.order.sellToken a.order.sellAmount.toNat l l' := by
  have hne := D.settlement_ne_htlc
  obtain ⟨l₁, hmove, hrest⟩ := Option.bind_eq_some_iff.mp h
  have hfirst : Untouched D.htlc l l₁ := .move (.inr ⟨hx.2.1.symm, hne.symm⟩) hmove
  split_ifs at hrest with hzero
  · rw [hzero]
    exact .after_untouched hfirst (.move hne.symm hrest)
  · obtain ⟨l₂, hpull, hlock⟩ := Option.bind_eq_some_iff.mp hrest
    have hsecond : Untouched D.htlc l₁ l₂ :=
      .transferFrom (hmaker ▸ hx.2.1.symm) hne.symm hpull
    exact .after_untouched (hfirst.trans (hsecond.trans (.approve hne.symm)))
      (.transferFrom hne.symm hlock)

/-- The Settlement's allowance for the HTLC after a lock of `n`: nothing is
    left, except of an allowance taken as unlimited. -/
def leftover (D : Deployment) (token : Address) (n : Nat) : Nat :=
  if D.unlimitedAllowance token n then n else 0

/-- What comes into the Settlement goes out again in the same call. -/
theorem settleLedger_settlement (hx : D.Account x) {a : SettleLeg} (hmaker : x = a.order.maker)
    (heth : a.order.sellToken = zeroAddress → value = a.order.sellAmount)
    (htoken : a.order.sellToken ≠ zeroAddress → value = 0)
    (h : settleLedger D value a x l = some l') :
    (∀ asset, l'.bal asset D.settlement = l.bal asset D.settlement) ∧
    ∀ asset y, l'.allowance asset D.settlement y =
      if asset = a.order.sellToken ∧ y = D.htlc ∧ a.order.sellToken ≠ zeroAddress then
        leftover D asset a.order.sellAmount.toNat
      else l.allowance asset D.settlement y := by
  have hne := D.settlement_ne_htlc
  obtain ⟨l₁, hmove, hrest⟩ := Option.bind_eq_some_iff.mp h
  split_ifs at hrest with hzero
  -- ETH: what arrives with the call leaves with the lock.
  · have hin : Receives D.settlement zeroAddress value.toNat l l₁ := .move hx.2.2.symm hmove
    rw [← heth hzero] at hrest
    refine ⟨fun asset => ?_, fun asset y => ?_⟩
    -- In and out cancel.
    · have hout := Ledger.move_bal hrest asset D.settlement
      rw [hin.bal] at hout
      simp only [hne, and_false, ↓reduceIte, and_true] at hout
      omega
    · rw [Ledger.move_allowance hrest, hin.allowance, if_neg (by simp [hzero])]
  -- A token: no ETH arrives, and what is pulled from the maker is locked.
  · have hnone : value.toNat = 0 := by rw [htoken hzero]; rfl
    obtain ⟨l₂, hpull, hlock⟩ := Option.bind_eq_some_iff.mp hrest
    rw [← hmaker] at hpull
    have hin : Receives D.settlement a.order.sellToken a.order.sellAmount.toNat l l₂ :=
      .after_untouched (.move (.inl hnone) hmove) (.transferFrom hx.2.2.symm hpull)
    refine ⟨fun asset => ?_, fun asset y => ?_⟩
    · have hout := Ledger.move_bal (Ledger.transferFrom_eq_some.mp hlock).2 asset D.settlement
      rw [Ledger.approve_bal, Ledger.approve_bal, hin.bal] at hout
      simp only [hne, and_false, ↓reduceIte, and_true] at hout
      omega
    · rw [Ledger.transferFrom_allowance hlock, Ledger.approve_allowance, Ledger.approve_allowance]
      -- The approval of this leg is spent, except where the token takes it as unlimited.
      by_cases hspent : asset = a.order.sellToken ∧ y = D.htlc
      · obtain ⟨rfl, rfl⟩ := hspent
        simp [hzero, Ledger.spent, leftover]
      · simp [hspent, ← and_assoc, hin.allowance]

end Locks

/-! ## The books -/

/-- What the two contracts and the ledger record about legs. -/
structure Books where
  swaps : Bytes32 → Swap
  legs : Bytes32 → Leg
  ledger : Ledger Address Address
  paid : List Payment

def State.books (s : State) : Books := ⟨s.htlc.swaps, s.settlement.legs, s.ledger, s.paid⟩

/-- The HTLC owes this much in `token` to its active records. -/
noncomputable def Books.owed (b : Books) (token : Address) : Nat :=
  Totals.total (Swap.owed token) b.swaps

/-- The payments made out of the record at `c`, oldest first. -/
def Books.paidFor (b : Books) (c : Bytes32) : List Payment :=
  b.paid.filter fun p => p.contractId = c

/-- The payments the record's stage calls for: none while it is held; to the
    recipient if it was redeemed; to its sender if it was refunded, and from
    the Settlement on to the maker. -/
def duePayments (D : Deployment) (c : Bytes32) (r : Swap) (l : Leg) : List Payment :=
  if r.sender = zeroAddress then []
  else if r.withdrawn then [⟨c, D.htlc, r.redeemPayout⟩]
  else if r.refunded then
    if r.sender = D.settlement then
      [⟨c, D.htlc, r.refundPayout⟩, ⟨c, D.settlement, l.payout⟩]
    else [⟨c, D.htlc, r.refundPayout⟩]
  else []

/-- The invariant of the books. -/
structure Sound (D : Deployment) (b : Books) : Prop where
  tracked : ∀ c, (b.swaps c).Exists → D.Tracked (b.swaps c).token
  senders : ∀ c, (b.swaps c).Exists → (b.swaps c).sender ≠ D.htlc
  notBoth : ∀ c, ¬((b.swaps c).withdrawn = true ∧ (b.swaps c).refunded = true)
  linked : ∀ c, (b.legs c).maker ≠ zeroAddress ↔ (b.swaps c).sender = D.settlement
  agree : ∀ c, (b.swaps c).sender = D.settlement →
    (b.legs c).token = (b.swaps c).token ∧ (b.legs c).amount = (b.swaps c).amount ∧
    (b.legs c).refunded = (b.swaps c).refunded
  makers : ∀ c, (b.legs c).maker ≠ zeroAddress → D.Account (b.legs c).maker
  covered : ∀ token, b.owed token ≤ b.ledger.bal token D.htlc
  noAllowance : ∀ token y, b.ledger.allowance token D.htlc y = 0 ∧
    (y ≠ D.htlc → b.ledger.allowance token D.settlement y = 0)
  /-- The Settlement leaves no allowance behind, unless a token takes it as unlimited. -/
  allowance : ∀ token, b.ledger.allowance token D.settlement D.htlc = 0 ∨
    D.unlimited token = true ∧ ∃ c, (b.legs c).maker ≠ zeroAddress ∧ (b.legs c).token = token ∧
      (b.legs c).amount.toNat = maxUint256
  paid : ∀ c, b.paidFor c = duePayments D c (b.swaps c) (b.legs c)

theorem Sound.fresh {D : Deployment} {l : Ledger Address Address} (h : Genesis D l) :
    Sound D (State.fresh l).books where
  tracked c hc := absurd hc Swap.not_exists_empty
  senders c hc := absurd hc Swap.not_exists_empty
  notBoth c := by simp [State.books, State.fresh, HashedTimelock.Storage.empty, Swap.empty]
  -- No leg is set and no record has a sender.
  linked c := by
    have hne : ¬zeroAddress = D.settlement := fun heq => D.settlement_ne_zero heq.symm
    simp [State.books, State.fresh, HashedTimelock.Storage.empty, Settlement.Storage.empty,
      Swap.empty, Settlement.Leg.empty, hne]
  agree c hc := absurd (show (zeroAddress : Address) = D.settlement from hc).symm D.settlement_ne_zero
  makers c hc := absurd rfl hc
  covered token := by
    have hzero := HashedTimelock.Storage.activeTotal_empty token
    have howed : (State.fresh l).books.owed token = 0 := hzero
    omega
  noAllowance token y := ⟨(h token y).1, fun _ => (h token y).2⟩
  allowance token := .inl (h token D.htlc).2
  paid c := by
    simp [State.books, State.fresh, Books.paidFor, duePayments, HashedTimelock.Storage.empty,
      Swap.empty]

/-! ### One lemma for each thing that can happen to the books -/

section Steps

variable {D : Deployment} {s s' : State}

/-- The ledger changes without taking from the contracts. -/
theorem Sound.ledger (hs : Sound D s.books) (hswaps : s'.htlc.swaps = s.htlc.swaps)
    (hlegs : s'.settlement.legs = s.settlement.legs) (hpaid : s'.paid = s.paid)
    (hbal : ∀ token, s.ledger.bal token D.htlc ≤ s'.ledger.bal token D.htlc)
    (hhtlc : ∀ token y, s'.ledger.allowance token D.htlc y = s.ledger.allowance token D.htlc y)
    (hsettlement : ∀ token y,
      s'.ledger.allowance token D.settlement y = s.ledger.allowance token D.settlement y) :
    Sound D s'.books := by
  have hbooks : s'.books = { s.books with ledger := s'.ledger } := by
    simp [State.books, hswaps, hlegs, hpaid]
  rw [hbooks]
  -- Only the balances of the contracts and their allowances matter.
  refine { hs with
    covered := fun token => le_trans (hs.covered token) (hbal token)
    noAllowance := fun token y => ?_
    allowance := fun token => ?_
    paid := hs.paid }
  · rw [hhtlc, hsettlement]; exact hs.noAllowance token y
  · rw [hsettlement]; exact hs.allowance token

/-- What a new record does to the books, whoever its sender is. -/
theorem Sound.write (hs : Sound D s.books) {y : Address} {a : NewSwap} {id : Bytes32}
    (hy : y ≠ D.htlc) (htracked : D.Tracked a.token)
    (hswaps : s'.htlc.swaps = (s.htlc.writeSwap y a id).swaps)
    (hhtlc : Receives D.htlc a.token a.amount.toNat s.ledger s'.ledger) :
    (∀ c, (s'.books.swaps c).Exists →
      D.Tracked (s'.books.swaps c).token ∧ (s'.books.swaps c).sender ≠ D.htlc) ∧
    (∀ c, ¬((s'.books.swaps c).withdrawn = true ∧ (s'.books.swaps c).refunded = true)) ∧
    ∀ token, s'.books.owed token ≤ s'.books.ledger.bal token D.htlc := by
  have hread : ∀ c, s'.books.swaps c = if c = id then a.record y else s.books.swaps c := by
    intro c
    simp only [State.books, hswaps, HashedTimelock.Storage.writeSwap_swaps]
  refine ⟨?_, ?_, ?_⟩
  · intro c hc
    rw [hread] at hc ⊢
    split_ifs at hc ⊢ with heq
    · exact ⟨htracked, hy⟩
    · exact ⟨hs.tracked c hc, hs.senders c hc⟩
  · intro c
    rw [hread]
    split_ifs with heq
    · simp [NewSwap.record]
    · exact hs.notBoth c
  · intro token
    -- The HTLC owes the new amount and has received it.
    have hle := s.htlc.activeTotal_writeSwap_le y a id token
    have hcovered := hs.covered token
    have hbal := hhtlc.bal token
    have howed : s'.books.owed token = (s.htlc.writeSwap y a id).activeTotal token := by
      simp only [Books.owed, State.books, hswaps, HashedTimelock.Storage.activeTotal]
    have howed' : s.books.owed token = s.htlc.activeTotal token := rfl
    simp only [State.books] at howed howed' hcovered ⊢
    simp only [eq_comm (a := a.token)] at hle
    omega

/-- A lock by an account. -/
theorem Sound.lock (hs : Sound D s.books) {x : Address} {a : NewSwap} {id : Bytes32}
    (hx : D.Account x) (htracked : D.Tracked a.token) (habsent : ¬(s.htlc.swaps id).Exists)
    (hswaps : s'.htlc.swaps = (s.htlc.writeSwap x a id).swaps)
    (hlegs : s'.settlement.legs = s.settlement.legs) (hpaid : s'.paid = s.paid)
    (hhtlc : Receives D.htlc a.token a.amount.toNat s.ledger s'.ledger)
    (hsettlement : Untouched D.settlement s.ledger s'.ledger) : Sound D s'.books := by
  have hread : ∀ c, s'.books.swaps c = if c = id then a.record x else s.books.swaps c := by
    intro c
    simp only [State.books, hswaps, HashedTimelock.Storage.writeSwap_swaps]
  -- A leg would have made the Settlement the record's sender.
  have hnoLeg : (s.books.legs id).maker = zeroAddress := by
    by_contra hmaker
    have hsender := (hs.linked id).mp hmaker
    exact habsent (fun hzero => D.settlement_ne_zero (hsender.symm.trans hzero))
  have hlegs' : s'.books.legs = s.books.legs := hlegs
  have hpaid' : ∀ c, s'.books.paidFor c = s.books.paidFor c := fun c => by
    simp [Books.paidFor, State.books, hpaid]
  obtain ⟨hwritten, hnotBoth, hcovered⟩ := hs.write hx.2.1 htracked hswaps hhtlc
  refine ⟨fun c hc => (hwritten c hc).1, fun c hc => (hwritten c hc).2, hnotBoth, fun c => ?_,
    fun c hc => ?_, fun c hc => ?_, hcovered, fun token y => ?_, fun token => ?_, fun c => ?_⟩
  -- `linked`: the new record belongs to an account, and has no leg.
  · rw [hread, hlegs']
    split_ifs with heq
    · subst heq
      simp [hnoLeg, NewSwap.record, hx.2.2]
    · exact hs.linked c
  · rw [hread] at hc ⊢
    split_ifs at hc ⊢ with heq
    · exact absurd hc hx.2.2
    · rw [hlegs']; exact hs.agree c hc
  · rw [hlegs'] at hc ⊢; exact hs.makers c hc
  · have hkept := hs.noAllowance token y
    exact ⟨(hhtlc.allowance token y).trans hkept.1,
      fun hy => (hsettlement.allowance token y).trans (hkept.2 hy)⟩
  · rw [hlegs']
    refine (hs.allowance token).imp_left fun h => ?_
    exact (hsettlement.allowance token D.htlc).trans h
  -- `paid`: nothing has been paid out of the new record.
  · rw [hpaid', hs.paid c, hread, hlegs']
    split_ifs with heq
    · subst heq
      have hzero : (s.books.swaps c).sender = zeroAddress := not_not.mp habsent
      simp [duePayments, NewSwap.record, hzero]
    · rfl

/-- A leg settled by its maker. -/
theorem Sound.settle (hs : Sound D s.books) {a : SettleLeg} {id : Bytes32}
    (hmaker : D.Account a.order.maker) (htracked : D.Tracked a.order.sellToken)
    (habsent : ¬(s.htlc.swaps id).Exists)
    (hswaps : s'.htlc.swaps = (s.htlc.writeSwap D.settlement a.lock id).swaps)
    (hlegs : s'.settlement.legs = (s.settlement.openLeg id a).legs) (hpaid : s'.paid = s.paid)
    (hhtlc : Receives D.htlc a.order.sellToken a.order.sellAmount.toNat s.ledger s'.ledger)
    (hsettlement : ∀ asset y, s'.ledger.allowance asset D.settlement y =
      if asset = a.order.sellToken ∧ y = D.htlc ∧ a.order.sellToken ≠ zeroAddress then
        leftover D asset a.order.sellAmount.toNat
      else s.ledger.allowance asset D.settlement y) : Sound D s'.books := by
  have hread : ∀ c, s'.books.swaps c =
      if c = id then a.lock.record D.settlement else s.books.swaps c := by
    intro c
    simp only [State.books, hswaps, HashedTimelock.Storage.writeSwap_swaps]
  have hreadLeg : ∀ c, s'.books.legs c =
      if c = id then ⟨a.order.maker, a.order.sellToken, a.order.sellAmount, false⟩
      else s.books.legs c := by
    intro c
    simp only [State.books, hlegs, Settlement.Storage.openLeg_legs]
  have hpaid' : ∀ c, s'.books.paidFor c = s.books.paidFor c := fun c => by
    simp [Books.paidFor, State.books, hpaid]
  obtain ⟨hwritten, hnotBoth, hcovered⟩ := hs.write D.settlement_ne_htlc htracked hswaps hhtlc
  refine ⟨fun c hc => (hwritten c hc).1, fun c hc => (hwritten c hc).2, hnotBoth, fun c => ?_,
    fun c hc => ?_, fun c hc => ?_, hcovered, fun token y => ⟨?_, fun hy => ?_⟩, fun token => ?_,
    fun c => ?_⟩
  · rw [hread, hreadLeg]
    split_ifs with heq
    · simp [NewSwap.record, hmaker.1]
    · exact hs.linked c
  · rw [hread] at hc ⊢
    rw [hreadLeg]
    split_ifs at hc ⊢ with heq
    · exact ⟨rfl, rfl, rfl⟩
    · exact hs.agree c hc
  · rw [hreadLeg] at hc ⊢
    split_ifs at hc ⊢ with heq
    · exact hmaker
    · exact hs.makers c hc
  · exact (hhtlc.allowance token y).trans (hs.noAllowance token y).1
  · refine (hsettlement token y).trans ?_
    rw [if_neg fun h => hy h.2.1]
    exact (hs.noAllowance token y).2 hy
  · have hallowance := hsettlement token D.htlc
    -- A leg of the maximal amount of an unlimited token leaves its allowance.
    split_ifs at hallowance with hspent
    · obtain ⟨rfl, -, -⟩ := hspent
      unfold leftover at hallowance
      split_ifs at hallowance with hunlimited
      · simp only [Deployment.unlimitedAllowance, Bool.and_eq_true, beq_iff_eq] at hunlimited
        refine .inr ⟨hunlimited.1, id, ?_⟩
        rw [hreadLeg, if_pos rfl]
        exact ⟨hmaker.1, rfl, hunlimited.2⟩
      · exact .inl hallowance
    · rcases hs.allowance token with hzero | ⟨hunlimited, c, hleg, htoken, hmax⟩
      · exact .inl (hallowance.trans hzero)
      · have hne : c ≠ id := by
          rintro rfl
          have hsender := (hs.linked c).mp hleg
          exact habsent fun hzero => D.settlement_ne_zero (hsender.symm.trans hzero)
        refine .inr ⟨hunlimited, c, ?_⟩
        rw [hreadLeg, if_neg hne]
        exact ⟨hleg, htoken, hmax⟩
  · rw [hpaid', hs.paid c, hread, hreadLeg]
    split_ifs with heq
    · subst heq
      have hzero : (s.books.swaps c).sender = zeroAddress := not_not.mp habsent
      simp [duePayments, NewSwap.record, hzero]
    · rfl

/-- What the HTLC pays out it no longer owes. -/
private theorem covered_of_move (hs : Sound D s.books) {st : HashedTimelock.Storage}
    {token : Address} {n : Nat} (hswaps : s'.htlc.swaps = st.swaps)
    (howed : ∀ t, st.activeTotal t + (if token = t then n else 0) = s.htlc.activeTotal t)
    (hmove : ∀ t, s.ledger.bal t D.htlc ≤
      s'.ledger.bal t D.htlc + if token = t then n else 0) (t : Address) :
    s'.books.owed t ≤ s'.books.ledger.bal t D.htlc := by
  have hcovered := hs.covered t
  have howed' : s'.books.owed t = st.activeTotal t := by
    simp only [Books.owed, State.books, hswaps, HashedTimelock.Storage.activeTotal]
  have howed'' : s.books.owed t = s.htlc.activeTotal t := rfl
  have hle := howed t
  have hbal := hmove t
  simp only [State.books] at howed' howed'' hcovered ⊢
  omega

/-- A payment takes at most its amount from the payer. -/
private theorem bal_le_of_move {l l' : Ledger Address Address} {token src dest : Address} {n : Nat}
    (h : l.move token src dest n = some l') (t : Address) :
    l.bal t src ≤ l'.bal t src + if token = t then n else 0 := by
  have hbal := Ledger.move_bal h t src
  simp only [and_true, eq_comm (a := t)] at hbal
  omega

/-- The payments for `id` grow by `ps`, those for other ids stay. -/
private theorem paidFor_append {ps : List Payment} {id : Bytes32} (hps : ∀ p ∈ ps, p.contractId = id)
    (hpaid : s'.paid = s.paid ++ ps) (c : Bytes32) :
    s'.books.paidFor c = s.books.paidFor c ++ if c = id then ps else [] := by
  simp only [Books.paidFor, State.books, hpaid, List.filter_append]
  congr 1
  split_ifs with heq
  · rw [List.filter_eq_self]
    intro p hp
    simp [hps p hp, heq]
  · rw [List.filter_eq_nil_iff]
    intro p hp
    simp [hps p hp, Ne.symm heq]

/-- An active record is settled and its payments are made: `withdrawn` by
    `redeem`, otherwise by `refund` or `refundLeg`. -/
theorem Sound.payOut (hs : Sound D s.books) {id : Bytes32} (withdrawn refunded : Bool)
    (st : HashedTimelock.Storage) (hactive : (s.htlc.swaps id).Active)
    (hflags : withdrawn = !refunded)
    (hst : ∀ c, st.swaps c = if c = id then
      { s.htlc.swaps c with withdrawn := withdrawn, refunded := refunded } else s.htlc.swaps c)
    (hswaps : s'.htlc.swaps = st.swaps)
    (hlegs : ∀ c, s'.settlement.legs c =
      if c = id ∧ (s.htlc.swaps c).sender = D.settlement then
        { s.settlement.legs c with refunded := refunded } else s.settlement.legs c)
    (hpaid : s'.paid = s.paid ++ duePayments D id (st.swaps id) (s.settlement.legs id))
    (howed : ∀ t, st.activeTotal t + (if (s.htlc.swaps id).token = t then
      (s.htlc.swaps id).amount.toNat else 0) = s.htlc.activeTotal t)
    (hbal : ∀ t, s.ledger.bal t D.htlc ≤ s'.ledger.bal t D.htlc +
      if (s.htlc.swaps id).token = t then (s.htlc.swaps id).amount.toNat else 0)
    (hallowance : s'.ledger.allowance = s.ledger.allowance) : Sound D s'.books := by
  -- Senders, tokens and amounts stay; only the flags of `id` change.
  have hread : ∀ c, s'.books.swaps c = if c = id then
      { s.books.swaps c with withdrawn := withdrawn, refunded := refunded }
      else s.books.swaps c := fun c => (congrFun hswaps c).trans (hst c)
  have hfields : ∀ c, (s'.books.swaps c).sender = (s.books.swaps c).sender ∧
      (s'.books.swaps c).token = (s.books.swaps c).token ∧
      (s'.books.swaps c).amount = (s.books.swaps c).amount := by
    intro c; rw [hread]; split_ifs <;> exact ⟨rfl, rfl, rfl⟩
  have hlegFields : ∀ c, (s'.books.legs c).maker = (s.books.legs c).maker ∧
      (s'.books.legs c).token = (s.books.legs c).token ∧
      (s'.books.legs c).amount = (s.books.legs c).amount := by
    intro c
    have hleg : s'.books.legs c = _ := hlegs c
    rw [hleg]
    split_ifs <;> exact ⟨rfl, rfl, rfl⟩
  have hpaidSelf : ∀ p ∈ duePayments D id (st.swaps id) (s.settlement.legs id),
      p.contractId = id := by
    intro p hp
    unfold duePayments at hp
    split_ifs at hp <;> simp at hp
    all_goals first | exact hp ▸ rfl | (rcases hp with rfl | rfl <;> rfl)
  refine ⟨fun c hc => ?_, fun c hc => ?_, fun c => ?_, fun c => ?_, fun c hc => ?_, fun c hc => ?_,
    ?_, fun token y => ?_, fun token => ?_, fun c => ?_⟩
  · rw [Swap.Exists, (hfields c).1] at hc
    rw [(hfields c).2.1]
    exact hs.tracked c hc
  · rw [Swap.Exists, (hfields c).1] at hc
    rw [(hfields c).1]
    exact hs.senders c hc
  -- `notBoth`: one of the two flags is set, the other stays unset.
  · rw [hread]
    split_ifs with heq
    · cases refunded <;> simp [hflags]
    · exact hs.notBoth c
  · rw [(hfields c).1, (hlegFields c).1]; exact hs.linked c
  · rw [(hfields c).1] at hc
    obtain ⟨htoken, hamount, hrefunded⟩ := hs.agree c hc
    refine ⟨?_, ?_, ?_⟩
    · rw [(hfields c).2.1, (hlegFields c).2.1]; exact htoken
    · rw [(hfields c).2.2, (hlegFields c).2.2]; exact hamount
    -- The leg's flag follows the record's.
    · have hleg : s'.books.legs c = _ := hlegs c
      rw [hleg, hread]
      have hc' : (s.htlc.swaps c).sender = D.settlement := hc
      by_cases heq : c = id
      · rw [if_pos ⟨heq, hc'⟩, if_pos heq]
      · rw [if_neg fun h => heq h.1, if_neg heq]; exact hrefunded
  · rw [(hlegFields c).1] at hc ⊢; exact hs.makers c hc
  · exact covered_of_move hs hswaps howed hbal
  · have hallowance' : s'.books.ledger.allowance = s.books.ledger.allowance := hallowance
    rw [hallowance']; exact hs.noAllowance token y
  -- `allowance`: the leg that explains an allowance is still there.
  · have hallowance' : s'.books.ledger.allowance = s.books.ledger.allowance := hallowance
    rw [hallowance']
    apply (hs.allowance token).imp_right
    intro hallowed
    obtain ⟨hunlimited, c, hleg⟩ := hallowed
    refine ⟨hunlimited, c, ?_⟩
    rwa [(hlegFields c).1, (hlegFields c).2.1, (hlegFields c).2.2]
  -- `paid`: the new payments are those that are due after the change.
  · have hdue : ∀ r l l', (l : Leg).payout = (l' : Leg).payout →
        duePayments D c r l = duePayments D c r l' := fun r l l' h => by
      unfold duePayments; rw [h]
    have hpayout : (s'.books.legs c).payout = (s.books.legs c).payout := by
      unfold Settlement.Leg.payout
      rw [(hlegFields c).1, (hlegFields c).2.1, (hlegFields c).2.2]
    rw [paidFor_append hpaidSelf hpaid, hs.paid c, hdue _ _ _ hpayout]
    have hread' : s'.books.swaps c = st.swaps c := congrFun hswaps c
    split_ifs with heq
    -- An active record owes everything and has paid nothing.
    · subst heq
      have hsender : (s.books.swaps c).sender ≠ zeroAddress := hactive.1
      have hnotWithdrawn : (s.books.swaps c).withdrawn = false := hactive.2.1
      have hnotRefunded : (s.books.swaps c).refunded = false := hactive.2.2
      have hnone : duePayments D c (s.books.swaps c) (s.books.legs c) = [] := by
        simp [duePayments, hnotWithdrawn, hnotRefunded]
      rw [hnone, hread', List.nil_append]
      rfl
    · rw [hread, if_neg heq, List.append_nil]

end Steps

/-! ## Every call keeps the books -/

/-- The waiting call only emits an event when it goes on. -/
def Frame.Quiet : Frame → Prop
  | .payout _ => True
  | .legForward .. => True
  | .other => True
  | _ => False

/-- The books are sound and only quiet calls wait. -/
structure Orderly (D : Deployment) (s : State) : Prop where
  books : Sound D s.books
  quiet : ∀ f ∈ s.frames, f.Quiet

section Calls

variable {cr : Crypto} {D : Deployment} {now : Uint256} {s : State} {o : Outcome}

/-- A payment of a tracked asset is made at once; only ETH runs foreign code then. -/
theorem State.pay_tracked {src : Address} {contractId : Bytes32} {p : Payout}
    {ethFail tokenFail : Failure} {wait : Frame} {k : Rest} (htracked : D.Tracked p.token)
    (h : s.pay D src contractId p ethFail tokenFail wait k = .ok o) :
    ∃ l, s.ledger.move p.token src p.dest p.amount.toNat = some l ∧
      (o = .waiting { s with
          ledger := l, paid := s.paid ++ [⟨contractId, src, p⟩], frames := wait :: s.frames } ∨
        k { s with ledger := l, paid := s.paid ++ [⟨contractId, src, p⟩] } = .ok o) := by
  rcases State.pay_ok.mp h with
    ⟨-, -, -, l, hmove, rfl⟩ | ⟨-, l, hmove, hrest⟩ | ⟨hne, hstandard, -⟩
  · exact ⟨l, hmove, .inl rfl⟩
  · exact ⟨l, hmove, .inr hrest⟩
  · exfalso
    rcases htracked with heth | hstandard'
    · exact hne heth
    · rw [hstandard] at hstandard'; cases hstandard'

/-- With standard tokens only, a checked lock is of a tracked asset. -/
theorem tracked_of_newSwapChecks (hstd : D.AllStandard) {st : HashedTimelock.Storage} {msg : Msg}
    {a : NewSwap} {contractId : Bytes32}
    (hchecks : newSwapChecks cr D.hasCode now st msg a = .ok contractId)
    (hhtlc : a.token ≠ D.htlc) (hsettlement : a.token ≠ D.settlement) : D.Tracked a.token := by
  obtain ⟨-, -, -, -, -, ⟨hzero, -⟩ | ⟨-, -, hcode⟩⟩ := newSwapChecks_ok.mp hchecks
  · exact .inl hzero
  · exact .inr (hstd _ hcode hhtlc hsettlement)

/-- A successful `newSwap` locks a tracked asset. -/
theorem tracked_of_invoke_newSwap (hstd : D.AllStandard) {x : Address} {value : Uint256}
    {a : NewSwap} (h : invoke cr D now x (.newSwap value a) s = .ok o) : D.Tracked a.token := by
  obtain ⟨l, -, hrest⟩ := State.receive_ok.mp h
  obtain ⟨id, hchecks, hcase⟩ := State.newSwap_ok.mp hrest
  rcases hcase with ⟨hzero, -⟩ | ⟨hstandard, -⟩ | ⟨-, -, hhtlc, hsettlement, -⟩
  · exact .inl hzero
  · exact .inr hstandard
  · exact tracked_of_newSwapChecks hstd hchecks hhtlc hsettlement

theorem tracked_of_invoke_settleLeg (hstd : D.AllStandard) {x : Address} {value : Uint256}
    {a : SettleLeg} (h : invoke cr D now x (.settleLeg value a) s = .ok o) :
    D.Tracked a.order.sellToken := by
  obtain ⟨l, -, hrest⟩ := State.receive_ok.mp h
  obtain ⟨-, hlock⟩ := State.settleLeg_ok.mp hrest
  rcases State.receiveAndLock_ok.mp hlock with
    ⟨hzero, -⟩ | ⟨hstandard, -⟩ | ⟨-, -, -, hcode, hhtlc, hsettlement, -⟩
  · exact .inl hzero
  · exact .inr hstandard
  · exact .inr (hstd _ hcode hhtlc hsettlement)

theorem Orderly.newSwap (hs : Orderly D s) (hstd : D.AllStandard) {x : Address} (hx : D.Account x)
    {value : Uint256} {a : NewSwap} (h : invoke cr D now x (.newSwap value a) s = .ok o) :
    Orderly D o.state := by
  have htracked := tracked_of_invoke_newSwap hstd h
  obtain ⟨l, id, hledger, hchecks, rfl⟩ := (invoke_newSwap_tracked htracked).mp h
  obtain ⟨heth, htoken⟩ := value_of_newSwapChecks hchecks
  obtain ⟨-, -, -, -, habsent, -⟩ := newSwapChecks_ok.mp hchecks
  exact ⟨hs.books.lock hx htracked habsent rfl rfl rfl (newSwapLedger_htlc hx heth htoken hledger)
    (newSwapLedger_settlement hx hledger), hs.quiet⟩

theorem Orderly.settleLeg (hs : Orderly D s) (hstd : D.AllStandard) {x : Address}
    (hx : D.Account x) {value : Uint256} {a : SettleLeg}
    (h : invoke cr D now x (.settleLeg value a) s = .ok o) : Orderly D o.state := by
  have htracked := tracked_of_invoke_settleLeg hstd h
  obtain ⟨l, hledger, hsettle, hlock, rfl⟩ := (invoke_settleLeg_tracked htracked).mp h
  obtain ⟨-, -, -, hmaker, -⟩ := Settlement.settleChecks_ok.mp hsettle
  obtain ⟨heth, htoken⟩ := value_of_newSwapChecks hlock
  obtain ⟨-, -, -, -, habsent, -⟩ := newSwapChecks_ok.mp hlock
  exact ⟨hs.books.settle (hmaker ▸ hx) htracked habsent rfl rfl rfl
    (settleLedger_htlc hx hmaker hledger)
    (settleLedger_settlement hx hmaker heth htoken hledger).2, hs.quiet⟩

/-- Reading a settled record back. -/
private theorem duePayments_withdrawn {c : Bytes32} {r : Swap} {l : Leg} (h : r.Active) :
    duePayments D c { r with withdrawn := true } l = [⟨c, D.htlc, r.redeemPayout⟩] := by
  have hsender : r.sender ≠ zeroAddress := h.1
  simp [duePayments, hsender, Swap.redeemPayout]

private theorem duePayments_refunded {c : Bytes32} {r : Swap} {l : Leg} (h : r.Active) :
    duePayments D c { r with refunded := true } l =
      if r.sender = D.settlement then
        [⟨c, D.htlc, r.refundPayout⟩, ⟨c, D.settlement, l.payout⟩]
      else [⟨c, D.htlc, r.refundPayout⟩] := by
  have hsender : r.sender ≠ zeroAddress := h.1
  simp [duePayments, hsender, h.2.1, Swap.refundPayout]

/-- A payment of a tracked asset waits for its recipient, or its call goes on. -/
theorem Orderly.pay {src : Address} {contractId : Bytes32} {p : Payout}
    {ethFail tokenFail : Failure} {wait : Frame} {k : Rest} (htracked : D.Tracked p.token)
    (hquiet : ∀ f ∈ s.frames, f.Quiet) (hwait : wait.Quiet)
    (hbooks : ∀ l, s.ledger.move p.token src p.dest p.amount.toNat = some l →
      Sound D (State.books { s with ledger := l, paid := s.paid ++ [⟨contractId, src, p⟩] }))
    (hdone : ∀ l, s.ledger.move p.token src p.dest p.amount.toNat = some l →
      k { s with ledger := l, paid := s.paid ++ [⟨contractId, src, p⟩] } = .ok o →
      Orderly D o.state)
    (h : s.pay D src contractId p ethFail tokenFail wait k = .ok o) : Orderly D o.state := by
  obtain ⟨l, hmove, rfl | hrest⟩ := State.pay_tracked htracked h
  · refine ⟨hbooks l hmove, ?_⟩
    intro f hf
    rcases List.mem_cons.mp hf with rfl | hf
    · exact hwait
    · exact hquiet f hf
  · exact hdone l hmove hrest

theorem Orderly.redeem (hs : Orderly D s) {id p : Bytes32}
    (h : s.redeem cr D now id p = .ok o) : Orderly D o.state := by
  obtain ⟨hchecks, hpay⟩ := State.redeem_ok.mp h
  have hactive := (redeemChecks_ok.mp hchecks).1
  have hnotRefunded : (s.htlc.swaps id).refunded = false := hactive.2.2
  have hbooks : ∀ l, s.ledger.move (s.htlc.swaps id).token D.htlc
        (s.htlc.swaps id).redeemPayout.dest (s.htlc.swaps id).amount.toNat = some l →
      ∀ s' : State, s'.htlc.swaps = (s.htlc.setWithdrawn id).swaps →
      s'.settlement.legs = s.settlement.legs → s'.ledger = l →
      s'.paid = s.paid ++ [⟨id, D.htlc, (s.htlc.swaps id).redeemPayout⟩] → Sound D s'.books := by
    -- What holds of any state with this storage, whether its call waits or is over.
    intro l hmove s' hswaps hlegs hledger hpaid
    refine hs.books.payOut true false (s.htlc.setWithdrawn id) hactive rfl (fun c => ?_) hswaps
      (fun c => ?_) ?_
      (HashedTimelock.Storage.activeTotal_setWithdrawn hactive) ?_ ?_
    · rw [HashedTimelock.Storage.setWithdrawn_swaps]
      split_ifs with heq
      · subst heq; rw [← hnotRefunded]
      · rfl
    -- A withdrawn leg is not refunded.
    · rw [hlegs]
      split_ifs with heq
      · obtain ⟨rfl, hsender⟩ := heq
        have hrefunded : (s.settlement.legs c).refunded = false :=
          (hs.books.agree c hsender).2.2.trans hnotRefunded
        rw [← hrefunded]
      · rfl
    · rw [hpaid, HashedTimelock.Storage.setWithdrawn_swaps, if_pos rfl,
        duePayments_withdrawn hactive]
    · rw [hledger]; exact bal_le_of_move hmove
    · rw [hledger]; exact Ledger.move_allowance hmove
  apply Orderly.pay (hs.books.tracked id hactive.1) ?_ ?_ ?_ ?_ hpay
  · exact hs.quiet
  · trivial
  · intro l hmove
    exact hbooks l hmove _ rfl rfl rfl rfl
  · intro l hmove hrest
    cases hrest
    exact ⟨hbooks l hmove _ rfl rfl rfl rfl, hs.quiet⟩

/-- The Settlement takes a payment without running foreign code. -/
theorem State.pay_settlement {src : Address} {contractId : Bytes32} {p : Payout}
    {ethFail tokenFail : Failure} {wait : Frame} {k : Rest} (htracked : D.Tracked p.token)
    (hdest : p.dest = D.settlement)
    (h : s.pay D src contractId p ethFail tokenFail wait k = .ok o) :
    ∃ l, s.ledger.move p.token src p.dest p.amount.toNat = some l ∧
      k { s with ledger := l, paid := s.paid ++ [⟨contractId, src, p⟩] } = .ok o := by
  rcases State.pay_ok.mp h with
    ⟨-, -, hne, -⟩ | ⟨-, l, hmove, hrest⟩ | ⟨hne, hstandard, -⟩
  · exact absurd hdest hne
  · exact ⟨l, hmove, hrest⟩
  · exfalso
    rcases htracked with heth | hstandard'
    · exact hne heth
    · rw [hstandard] at hstandard'; cases hstandard'

/-- What is the same after a refund, direct or through the Settlement. -/
private theorem Sound.refund (hs : Sound D s.books) {id : Bytes32} {s' : State}
    (hactive : (s.htlc.swaps id).Active)
    (hswaps : s'.htlc.swaps = (s.htlc.setRefunded id).swaps)
    (hlegs : ∀ c, s'.settlement.legs c =
      if c = id ∧ (s.htlc.swaps c).sender = D.settlement then
        { s.settlement.legs c with refunded := true } else s.settlement.legs c)
    (hpaid : s'.paid = s.paid ++
      if (s.htlc.swaps id).sender = D.settlement then
        [⟨id, D.htlc, (s.htlc.swaps id).refundPayout⟩,
          ⟨id, D.settlement, (s.settlement.legs id).payout⟩]
      else [⟨id, D.htlc, (s.htlc.swaps id).refundPayout⟩])
    (hbal : ∀ t, s.ledger.bal t D.htlc ≤ s'.ledger.bal t D.htlc +
      if (s.htlc.swaps id).token = t then (s.htlc.swaps id).amount.toNat else 0)
    (hallowance : s'.ledger.allowance = s.ledger.allowance) : Sound D s'.books := by
  refine hs.payOut false true (s.htlc.setRefunded id) hactive rfl (fun c => ?_) hswaps hlegs ?_
    (HashedTimelock.Storage.activeTotal_setRefunded hactive) hbal hallowance
  · rw [HashedTimelock.Storage.setRefunded_swaps]
    split_ifs with heq
    · subst heq; rw [← hactive.2.1]
    · rfl
  · rw [hpaid, HashedTimelock.Storage.setRefunded_swaps, if_pos rfl,
      duePayments_refunded hactive]

theorem Orderly.refund (hs : Orderly D s) {x : Address} (hx : D.Account x) {id : Bytes32}
    (h : invoke cr D now x (.refund id) s = .ok o) : Orderly D o.state := by
  obtain ⟨hchecks, hpay⟩ := State.refund_ok.mp h
  obtain ⟨hactive, -, hsender⟩ := refundChecks_ok.mp hchecks
  have hne : (s.htlc.swaps id).sender ≠ D.settlement := fun heq => hx.2.2 (hsender.trans heq)
  have hbooks : ∀ l, s.ledger.move (s.htlc.swaps id).token D.htlc
        (s.htlc.swaps id).refundPayout.dest (s.htlc.swaps id).amount.toNat = some l →
      ∀ s' : State, s'.htlc.swaps = (s.htlc.setRefunded id).swaps →
      s'.settlement.legs = s.settlement.legs → s'.ledger = l →
      s'.paid = s.paid ++ [⟨id, D.htlc, (s.htlc.swaps id).refundPayout⟩] → Sound D s'.books := by
    intro l hmove s' hswaps hlegs hledger hpaid
    -- An account's record has no leg, so no leg changes.
    refine Sound.refund hs.books hactive hswaps (fun c => ?_) (by rw [if_neg hne, hpaid]) ?_ ?_
    · rw [hlegs, if_neg]
      rintro ⟨rfl, heq⟩
      exact hne heq
    · rw [hledger]; exact bal_le_of_move hmove
    · rw [hledger]; exact Ledger.move_allowance hmove
  apply Orderly.pay (hs.books.tracked id hactive.1) ?_ ?_ ?_ ?_ hpay
  · exact hs.quiet
  · trivial
  · intro l hmove
    exact hbooks l hmove _ rfl rfl rfl rfl
  · intro l hmove hrest
    cases hrest
    exact ⟨hbooks l hmove _ rfl rfl rfl rfl, hs.quiet⟩

/-- What `refundLeg` does: the amount comes from the HTLC and goes to the maker. -/
structure LegRefunded (D : Deployment) (now : Uint256) (id : Bytes32) (s : State)
    (o : Outcome) : Prop where
  active : (s.htlc.swaps id).Active
  expired : (s.htlc.swaps id).timelock ≤ now
  sender : (s.htlc.swaps id).sender = D.settlement
  maker : (s.settlement.legs id).maker ≠ zeroAddress
  swaps : o.state.htlc.swaps = (s.htlc.setRefunded id).swaps
  legs : o.state.settlement.legs = (s.settlement.setRefunded id).legs
  paid : o.state.paid = s.paid ++ [⟨id, D.htlc, (s.htlc.swaps id).refundPayout⟩,
    ⟨id, D.settlement, (s.settlement.legs id).payout⟩]
  moves : ∃ l, s.ledger.move (s.htlc.swaps id).token D.htlc D.settlement
      (s.htlc.swaps id).amount.toNat = some l ∧
    l.move (s.settlement.legs id).token D.settlement (s.settlement.legs id).maker
      (s.settlement.legs id).amount.toNat = some o.state.ledger
  frames : o.state.frames = s.frames ∨
    o.state.frames = .legForward id (s.settlement.legs id) :: s.frames

theorem refundLeg_spec (hs : Sound D s.books) {id : Bytes32}
    (h : s.refundLeg D now id = .ok o) : LegRefunded D now id s o := by
  obtain ⟨hleg, hrefund⟩ := State.refundLeg_ok.mp h
  obtain ⟨hmaker, -⟩ := Settlement.refundLegChecks_ok.mp hleg
  obtain ⟨hchecks, hpay⟩ := State.refund_ok.mp hrefund
  obtain ⟨hactive, hexpired, hsender⟩ := refundChecks_ok.mp hchecks
  have hsender' : (s.htlc.swaps id).sender = D.settlement := hsender.symm
  have htracked : D.Tracked (s.htlc.swaps id).token := hs.tracked id hactive.1
  have htoken : (s.settlement.legs id).token = (s.htlc.swaps id).token := (hs.agree id hsender').1
  -- The Settlement takes the amount without running code, so the forwarding follows at once.
  obtain ⟨l, hmove, hforward⟩ := State.pay_settlement htracked hsender' hpay
  obtain ⟨l', hmove', hrest⟩ := State.pay_tracked (p := (s.settlement.legs id).payout)
    (by rw [Settlement.Leg.payout, htoken]; exact htracked) hforward
  have hin : s.ledger.move (s.htlc.swaps id).token D.htlc D.settlement
      (s.htlc.swaps id).amount.toNat = some l := by rw [← hsender']; exact hmove
  rcases hrest with rfl | hrest
  · exact ⟨hactive, hexpired, hsender', hmaker, rfl, rfl, List.append_assoc .., ⟨l, hin, hmove'⟩,
      .inr rfl⟩
  · cases hrest
    exact ⟨hactive, hexpired, hsender', hmaker, rfl, rfl, List.append_assoc .., ⟨l, hin, hmove'⟩,
      .inl rfl⟩

theorem Orderly.refundLeg (hs : Orderly D s) {id : Bytes32}
    (h : s.refundLeg D now id = .ok o) : Orderly D o.state := by
  have hspec := refundLeg_spec hs.books h
  obtain ⟨l, hmove, hmove'⟩ := hspec.moves
  have haccount := hs.books.makers id hspec.maker
  refine ⟨Sound.refund hs.books hspec.active hspec.swaps (fun c => ?_) ?_ (fun t => ?_) ?_,
    fun f hf => ?_⟩
  -- The record is the Settlement's, so its leg is marked too.
  · rw [hspec.legs, Settlement.Storage.setRefunded_legs]
    refine if_congr ⟨fun heq => ⟨heq, ?_⟩, And.left⟩ rfl rfl
    rw [heq]; exact hspec.sender
  · rw [hspec.paid, if_pos hspec.sender]
  -- The second payment goes from the Settlement to the maker, past the HTLC.
  · have hsame : o.state.ledger.bal t D.htlc = l.bal t D.htlc :=
      (Untouched.move (.inr ⟨D.settlement_ne_htlc.symm, haccount.2.1.symm⟩) hmove').bal t
    rw [hsame]
    exact bal_le_of_move hmove t
  · rw [Ledger.move_allowance hmove', Ledger.move_allowance hmove]
  -- Afterwards the call is over, or waits for the maker in a quiet frame.
  · rcases hspec.frames with hframes | hframes
    · exact hs.quiet f (hframes ▸ hf)
    · rw [hframes] at hf
      rcases List.mem_cons.mp hf with rfl | hf'
      · trivial
      · exact hs.quiet f hf'

/-- A ledger call that takes nothing from the contracts. -/
theorem Orderly.ledger (hs : Orderly D s) {l : Ledger Address Address}
    (hhtlc : FundsKept D.htlc s.ledger l) (hsettlement : FundsKept D.settlement s.ledger l) :
    Orderly D { s with ledger := l } :=
  ⟨hs.books.ledger rfl rfl rfl hhtlc.bal hhtlc.allowance hsettlement.allowance, hs.quiet⟩

/-- **Every call keeps the books.** -/
theorem Orderly.invoke (hs : Orderly D s) (hstd : D.AllStandard) {x : Address} (hx : D.Account x)
    {call : Call} (h : invoke cr D now x call s = .ok o) : Orderly D o.state := by
  have hhtlc : D.htlc ≠ x := hx.2.1.symm
  have hsettlement : D.settlement ≠ x := hx.2.2.symm
  cases call with
  | newSwap value a => exact hs.newSwap hstd hx h
  | redeem contractId preimage => exact hs.redeem h
  | refund contractId => exact hs.refund hx h
  | authorizeLeg order signature nowTs =>
    -- An authorization changes nonces and logs only.
    obtain ⟨st, hst, rfl⟩ := invoke_authorizeLeg_ok.mp h
    obtain ⟨-, -, -, rfl⟩ := Settlement.authorizeLeg_ok.mp hst
    exact ⟨hs.books, hs.quiet⟩
  | settleLeg value a => exact hs.settleLeg hstd hx h
  | refundLeg contractId => exact hs.refundLeg h
  | transfer token dest amount =>
    obtain ⟨-, l, hmove, rfl⟩ := invoke_transfer_ok.mp h
    exact hs.ledger (.move hhtlc hmove) (.move hsettlement hmove)
  | approve token spender amount =>
    obtain ⟨-, rfl⟩ := invoke_approve_ok.mp h
    exact hs.ledger (.approve hhtlc) (.approve hsettlement)
  | transferFrom token owner dest amount =>
    obtain ⟨-, l, htransfer, rfl⟩ := invoke_transferFrom_ok.mp h
    -- The contracts have approved no account, so none can pull from them.
    exact hs.ledger
      (.transferFrom (fun _ => (hs.books.noAllowance token x).1) htransfer)
      (.transferFrom (fun _ => (hs.books.noAllowance token x).2 hx.2.1) htransfer)

/-- A quiet call that goes on is over, and changes the events only. -/
theorem resume_quiet (hs : Orderly D s) (h : resume cr D now s = .ok o) :
    ∃ s', o = .done s' ∧ s'.books = s.books ∧ s'.settlement.legs = s.settlement.legs ∧
      s'.settlement.consumedNonce = s.settlement.consumedNonce ∧ s.frames.tail = s'.frames := by
  obtain ⟨f, fs, hframes, hrest⟩ := resume_ok.mp h
  have hquiet := hs.quiet f (hframes ▸ List.mem_cons_self ..)
  rw [hframes]
  cases f with
  | payout done => cases hrest; exact ⟨_, rfl, rfl, rfl, rfl, rfl⟩
  | legForward contractId leg => cases hrest; exact ⟨_, rfl, rfl, rfl, rfl, rfl⟩
  | other => cases hrest; exact ⟨_, rfl, rfl, rfl, rfl, rfl⟩
  | newSwap | settleReceive | settleApprove | settleLock | legRefund => exact hquiet.elim

theorem Orderly.resume (hs : Orderly D s) (h : resume cr D now s = .ok o) :
    Orderly D o.state := by
  obtain ⟨s', rfl, hbooks, -, -, hframes⟩ := resume_quiet hs h
  refine ⟨?_, fun f hf => hs.quiet f (List.mem_of_mem_tail (hframes ▸ hf))⟩
  show Sound D s'.books
  rw [hbooks]
  exact hs.books

end Calls

theorem Orderly.invariant (cr : Crypto) {D : Deployment} (hstd : D.AllStandard) (π : Policy) :
    Invariant (anyTime cr D π) (Orderly D) := by
  intro s s' hs hmove
  obtain ⟨now, hmove⟩ := CallSystem.Moves.of_union hmove
  cases hmove with
  | enter h =>
    cases h with
    | invoke sender call hsender hpolicy h => exact hs.invoke hstd hsender h
    | other h =>
      subst h
      refine ⟨hs.books, fun f hf => ?_⟩
      rcases List.mem_cons.mp hf with rfl | hf'
      · trivial
      · exact hs.quiet f hf'
  | act h =>
    cases h with
    | invoke sender call hsender hpolicy h => exact hs.invoke hstd hsender h
    | resume h => exact hs.resume h
  | leave h => exact hs.resume h

/-- Run rule: the books are sound in every reachable state. -/
theorem Orderly.reachable {cr : Crypto} {D : Deployment} (hstd : D.AllStandard) {π : Policy}
    {c : Config State} (h : Reachable cr D π c) : c.All (Orderly D) := by
  obtain ⟨l, hgenesis, hrun⟩ := h
  exact (Orderly.invariant cr hstd π).run hrun
    (.of_cur ⟨.fresh hgenesis, fun _ hf => absurd hf List.not_mem_nil⟩)

/-! ## What passes through -/

/-- Legs keep their terms, and the Settlement loses nothing. -/
structure Passes (D : Deployment) (s s' : State) : Prop where
  legs : ∀ c, (s.settlement.legs c).maker ≠ zeroAddress →
    (s'.settlement.legs c).payout = (s.settlement.legs c).payout
  bal : ∀ asset, s.ledger.bal asset D.settlement ≤ s'.ledger.bal asset D.settlement

theorem Passes.of_legs_eq {D : Deployment} {s s' : State}
    (hlegs : s'.settlement.legs = s.settlement.legs)
    (hbal : ∀ asset, s.ledger.bal asset D.settlement ≤ s'.ledger.bal asset D.settlement) :
    Passes D s s' := ⟨fun c _ => by rw [hlegs], hbal⟩

theorem Passes.refl (D : Deployment) (s : State) : Passes D s s := .of_legs_eq rfl fun _ => le_rfl

theorem Passes.trans {D : Deployment} {s₁ s₂ s₃ : State} (h₁₂ : Passes D s₁ s₂)
    (h₂₃ : Passes D s₂ s₃) : Passes D s₁ s₃ := by
  refine ⟨fun c hc => ?_, fun asset => le_trans (h₁₂.bal asset) (h₂₃.bal asset)⟩
  have hfirst := h₁₂.legs c hc
  have hmaker : (s₂.settlement.legs c).maker = (s₁.settlement.legs c).maker :=
    congrArg Payout.dest hfirst
  exact (h₂₃.legs c (hmaker ▸ hc)).trans hfirst

section Passing

variable {cr : Crypto} {D : Deployment} {now : Uint256} {s : State} {o : Outcome}

/-- `settleLeg` leaves the Settlement's balances as it found them. -/
theorem settleLeg_settlement_bal (hstd : D.AllStandard) {x : Address} (hx : D.Account x)
    {value : Uint256} {a : SettleLeg} (h : invoke cr D now x (.settleLeg value a) s = .ok o)
    (asset : Address) : o.state.ledger.bal asset D.settlement = s.ledger.bal asset D.settlement := by
  obtain ⟨l, hledger, hsettle, hlock, rfl⟩ :=
    (invoke_settleLeg_tracked (tracked_of_invoke_settleLeg hstd h)).mp h
  obtain ⟨-, -, -, hmaker, -⟩ := Settlement.settleChecks_ok.mp hsettle
  obtain ⟨heth, htoken⟩ := value_of_newSwapChecks hlock
  exact (settleLedger_settlement hx hmaker heth htoken hledger).1 asset

/-- `refundLeg` does too: what the HTLC returns goes on to the maker. -/
theorem refundLeg_settlement_bal (hs : Sound D s.books) {id : Bytes32}
    (h : s.refundLeg D now id = .ok o) (asset : Address) :
    o.state.ledger.bal asset D.settlement = s.ledger.bal asset D.settlement := by
  have hspec := refundLeg_spec hs h
  obtain ⟨l, hmove, hmove'⟩ := hspec.moves
  obtain ⟨htoken, hamount, -⟩ := hs.agree id hspec.sender
  have hmaker := (hs.makers id hspec.maker).2.2
  have hin := Ledger.move_bal hmove asset D.settlement
  have hout := Ledger.move_bal hmove' asset D.settlement
  have htoken' : (s.settlement.legs id).token = (s.htlc.swaps id).token := htoken
  have hamount' : (s.settlement.legs id).amount = (s.htlc.swaps id).amount := hamount
  have hne : D.settlement ≠ (s.settlement.legs id).maker := fun heq => hmaker heq.symm
  rw [htoken', hamount'] at hout
  simp only [D.settlement_ne_htlc, hne, and_false, and_true, ↓reduceIte, Nat.add_zero]
    at hin hout
  omega

/-- A payment by the HTLC takes nothing from the Settlement. -/
theorem Passes.pay {st : HashedTimelock.Storage} {contractId : Bytes32} {p : Payout}
    {ethFail tokenFail : Failure} {wait : Frame} {e : HashedTimelock.Event}
    (htracked : D.Tracked p.token)
    (h : (s.withHtlc st).pay D D.htlc contractId p ethFail tokenFail wait
      (fun s => finished (s.withHtlc (s.htlc.emit e))) = .ok o) : Passes D s o.state := by
  obtain ⟨l, hmove, hrest⟩ := State.pay_tracked htracked h
  have hkept : FundsKept D.settlement s.ledger l := .move D.settlement_ne_htlc hmove
  rcases hrest with rfl | hrest
  · exact .of_legs_eq rfl hkept.bal
  · cases hrest
    exact .of_legs_eq rfl hkept.bal

theorem Passes.invoke (hs : Orderly D s) (hstd : D.AllStandard) {x : Address} (hx : D.Account x)
    {call : Call} (h : invoke cr D now x call s = .ok o) : Passes D s o.state := by
  have hsettlement : D.settlement ≠ x := hx.2.2.symm
  cases call with
  | newSwap value a =>
    obtain ⟨l, id, hledger, hchecks, rfl⟩ :=
      (invoke_newSwap_tracked (tracked_of_invoke_newSwap hstd h)).mp h
    exact .of_legs_eq rfl fun asset => ((newSwapLedger_settlement hx hledger).bal asset).ge
  | redeem contractId preimage =>
    obtain ⟨hchecks, hpay⟩ := State.redeem_ok.mp h
    have hactive := (redeemChecks_ok.mp hchecks).1
    exact .pay (hs.books.tracked contractId hactive.1) hpay
  | refund contractId =>
    obtain ⟨hchecks, hpay⟩ := State.refund_ok.mp h
    have hactive := (refundChecks_ok.mp hchecks).1
    exact .pay (hs.books.tracked contractId hactive.1) hpay
  | authorizeLeg order signature nowTs =>
    obtain ⟨st, hst, rfl⟩ := invoke_authorizeLeg_ok.mp h
    obtain ⟨-, -, -, rfl⟩ := Settlement.authorizeLeg_ok.mp hst
    exact .of_legs_eq rfl fun _ => le_rfl
  | settleLeg value a =>
    refine ⟨fun c hc => ?_, fun asset => (settleLeg_settlement_bal hstd hx h asset).ge⟩
    obtain ⟨l, -, -, hlock, rfl⟩ :=
      (invoke_settleLeg_tracked (tracked_of_invoke_settleLeg hstd h)).mp h
    obtain ⟨-, -, -, -, habsent, -⟩ := newSwapChecks_ok.mp hlock
    -- The HTLC refuses the id of a leg that is set already.
    have hne : c ≠ a.contractId cr D.settlement := by
      rintro rfl
      have hsender := (hs.books.linked _).mp hc
      exact habsent fun hzero => D.settlement_ne_zero (hsender.symm.trans hzero)
    simp only [Outcome.state, State.settled, Settlement.Storage.emit_legs,
      Settlement.Storage.openLeg_legs, if_neg hne]
  | refundLeg contractId =>
    have hspec := refundLeg_spec hs.books h
    refine ⟨fun c hc => ?_, fun asset => (refundLeg_settlement_bal hs.books h asset).ge⟩
    rw [hspec.legs, Settlement.Storage.setRefunded_legs]
    split_ifs <;> rfl
  | transfer token dest amount =>
    obtain ⟨-, l, hmove, rfl⟩ := invoke_transfer_ok.mp h
    exact .of_legs_eq rfl (FundsKept.move hsettlement hmove).bal
  | approve token spender amount =>
    obtain ⟨-, rfl⟩ := invoke_approve_ok.mp h
    exact .of_legs_eq rfl fun _ => le_rfl
  | transferFrom token owner dest amount =>
    obtain ⟨-, l, htransfer, rfl⟩ := invoke_transferFrom_ok.mp h
    exact .of_legs_eq rfl (FundsKept.transferFrom
      (fun _ => (hs.books.noAllowance token x).2 hx.2.1) htransfer).bal

theorem Passes.resume (hs : Orderly D s) (h : resume cr D now s = .ok o) :
    Passes D s o.state := by
  obtain ⟨s', rfl, hbooks, hlegs, -, -⟩ := resume_quiet hs h
  have hledger : s'.ledger = s.ledger := congrArg Books.ledger hbooks
  exact .of_legs_eq hlegs fun asset => by rw [Outcome.state, hledger]

/-- From a sound state every move passes. -/
theorem passes_progress (cr : Crypto) (hstd : D.AllStandard) (π : Policy) :
    -- Carried together with the invariant, on which the moves rely.
    Progress (anyTime cr D π) fun s s' => Orderly D s → Orderly D s' ∧ Passes D s s' where
  refl s hs := ⟨hs, .refl D s⟩
  trans h₁₂ h₂₃ hs :=
    have ⟨hs₂, hpass₁₂⟩ := h₁₂ hs
    have ⟨hs₃, hpass₂₃⟩ := h₂₃ hs₂
    ⟨hs₃, hpass₁₂.trans hpass₂₃⟩
  moves {s s'} hmove hs := by
    refine ⟨Orderly.invariant cr hstd π hs hmove, ?_⟩
    obtain ⟨now, hmove⟩ := CallSystem.Moves.of_union hmove
    cases hmove with
    | enter h =>
      cases h with
      | invoke sender call hsender hpolicy h => exact .invoke hs hstd hsender h
      | other h => subst h; exact .of_legs_eq rfl fun _ => le_rfl
    | act h =>
      cases h with
      | invoke sender call hsender hpolicy h => exact .invoke hs hstd hsender h
      | resume h => exact .resume hs h
    | leave h => exact .resume hs h

/-- An expired leg can be refunded, by anybody. -/
theorem refundLeg_live (hs : Sound D s.books) {id : Bytes32}
    (hmaker : (s.settlement.legs id).maker ≠ zeroAddress)
    (hwithdrawn : (s.htlc.swaps id).withdrawn = false)
    (hrefunded : (s.htlc.swaps id).refunded = false)
    (hexpired : (s.htlc.swaps id).timelock ≤ now) :
    ∃ o, s.refundLeg D now id = .ok o ∧ ((∃ s', o = .done s') ∨
      ∃ s', o = .waiting s' ∧ s'.frames = .legForward id (s.settlement.legs id) :: s.frames) := by
  have hsender : (s.htlc.swaps id).sender = D.settlement := (hs.linked id).mp hmaker
  have hactive : (s.htlc.swaps id).Active :=
    ⟨fun hzero => D.settlement_ne_zero (hsender.symm.trans hzero), hwithdrawn, hrefunded⟩
  obtain ⟨htoken, hamount, hflag⟩ := hs.agree id hsender
  have htracked : D.Tracked (s.htlc.swaps id).token := hs.tracked id hactive.1
  have haccount := hs.makers id hmaker
  -- The HTLC can pay the Settlement, and the Settlement then the maker.
  have hheld : (s.htlc.swaps id).amount.toNat ≤ s.ledger.bal (s.htlc.swaps id).token D.htlc :=
    le_trans (HashedTimelock.Storage.amount_le_activeTotal hactive) (hs.covered _)
  obtain ⟨l, hmove⟩ : ∃ l, s.ledger.move (s.htlc.swaps id).token D.htlc D.settlement
      (s.htlc.swaps id).amount.toNat = some l := Ledger.move_isSome.mpr hheld
  have hgot := Ledger.move_bal_dst hmove D.settlement_ne_htlc
  have htoken' : (s.settlement.legs id).token = (s.htlc.swaps id).token := htoken
  have hheld' : (s.settlement.legs id).amount.toNat ≤
      l.bal (s.settlement.legs id).token D.settlement := by
    have hamount' : (s.settlement.legs id).amount = (s.htlc.swaps id).amount := hamount
    rw [htoken', hamount', hgot]
    omega
  obtain ⟨l', hmove'⟩ : ∃ l', l.move (s.settlement.legs id).token D.settlement
      (s.settlement.legs id).maker (s.settlement.legs id).amount.toNat = some l' :=
    Ledger.move_isSome.mpr hheld'
  have hchecks : refundChecks now s.htlc D.settlement id = .ok () :=
    refundChecks_ok.mpr ⟨hactive, hexpired, hsender.symm⟩
  have hleg : Settlement.refundLegChecks s.settlement id = .ok () :=
    Settlement.refundLegChecks_ok.mpr ⟨hmaker, hflag.trans hrefunded⟩
  have hin : s.ledger.move (s.htlc.swaps id).token D.htlc (s.htlc.swaps id).sender
      (s.htlc.swaps id).amount.toNat = some l := by rw [hsender]; exact hmove
  have hpass : (s.htlc.swaps id).token = zeroAddress ∧ (s.htlc.swaps id).sender = D.settlement ∨
      D.standard (s.htlc.swaps id).token = true := htracked.imp_left fun heth => ⟨heth, hsender⟩
  have hrefund : ∀ o, State.forwardLeg D id (s.settlement.legs id)
      { s with
        htlc := (s.htlc.setRefunded id).emit (.logRefund id)
        settlement := s.settlement.setRefunded id
        ledger := l
        paid := s.paid ++ [⟨id, D.htlc, (s.htlc.swaps id).refundPayout⟩] } = .ok o →
      s.refundLeg D now id = .ok o := by
    intro o hforward
    refine State.refundLeg_ok.mpr ⟨hleg, State.refund_ok.mpr ⟨hchecks, ?_⟩⟩
    exact State.pay_ok.mpr (.inr (.inl ⟨hpass, l, hin, hforward⟩))
  rcases htracked with heth | hstandard
  · refine ⟨_, hrefund _ (State.pay_ok.mpr (.inl ⟨htoken'.trans heth, haccount.2.1, haccount.2.2,
      l', hmove', rfl⟩)), .inr ⟨_, rfl, rfl⟩⟩
  · refine ⟨_, hrefund _ (State.pay_ok.mpr (.inr (.inl ⟨.inr ?_, l', hmove', rfl⟩))),
      .inl ⟨_, rfl⟩⟩
    rw [Settlement.Leg.payout, htoken']
    exact hstandard

/-- Where the amount of a leg is: in the HTLC, with the recipient, or with the
    maker. Each payment has been made once. -/
inductive LegAt (D : Deployment) (c : Bytes32) (r : Swap) (l : Leg) (paid : List Payment) : Prop where
  | htlc (hactive : r.withdrawn = false ∧ r.refunded = false) (hpaid : paid = [])
  | recipient (hredeemed : r.withdrawn = true ∧ r.refunded = false)
      (hpaid : paid = [⟨c, D.htlc, ⟨l.token, r.recipient, l.amount⟩⟩])
  | maker (hrefunded : r.withdrawn = false ∧ r.refunded = true)
      (hpaid : paid = [⟨c, D.htlc, ⟨l.token, D.settlement, l.amount⟩⟩,
        ⟨c, D.settlement, ⟨l.token, l.maker, l.amount⟩⟩])

theorem Sound.legAt (hs : Sound D s.books) {c : Bytes32}
    (hmaker : (s.settlement.legs c).maker ≠ zeroAddress) :
    LegAt D c (s.htlc.swaps c) (s.settlement.legs c) (s.books.paidFor c) := by
  have hsender : (s.htlc.swaps c).sender = D.settlement := (hs.linked c).mp hmaker
  have hne : (s.htlc.swaps c).sender ≠ zeroAddress := hsender ▸ D.settlement_ne_zero
  have htoken : (s.settlement.legs c).token = (s.htlc.swaps c).token := (hs.agree c hsender).1
  have hamount : (s.settlement.legs c).amount = (s.htlc.swaps c).amount := (hs.agree c hsender).2.1
  have hboth : ¬((s.htlc.swaps c).withdrawn = true ∧ (s.htlc.swaps c).refunded = true) :=
    hs.notBoth c
  have hpaid : s.books.paidFor c =
    duePayments D c (s.htlc.swaps c) (s.settlement.legs c) := hs.paid c
  rw [duePayments, if_neg hne] at hpaid
  -- A settled record has been paid out to its recipient, or through the Settlement to the maker.
  split_ifs at hpaid with hwithdrawn hrefunded
  · refine .recipient ⟨hwithdrawn, by simpa [hwithdrawn] using hboth⟩ ?_
    rw [hpaid, htoken, hamount]
    rfl
  · refine .maker ⟨by simpa using hwithdrawn, hrefunded⟩ ?_
    rw [hpaid, htoken, hamount]
    simp only [Swap.refundPayout, Settlement.Leg.payout, hsender, htoken, hamount]
  · exact .htlc ⟨by simpa using hwithdrawn, by simpa using hrefunded⟩ hpaid

end Passing

/-- **The Settlement is a non-custodial pass-through.** In every reachable
    state with control outside both contracts, with standard tokens:

    1. a leg is set exactly where the HTLC's record was locked by the
       Settlement, and then token, amount and the refunded flag agree;
    2. a leg that is set keeps maker, token and amount as long as the state is
       not undone, and meanwhile the Settlement's balances only grow;
    3. `settleLeg` and `refundLeg` leave the Settlement's balances as they found
       them, `refundLeg` up to its payment to the maker, during which others
       may send the Settlement more; what follows the payment leaves the ledger
       as it is. They leave its allowance for the HTLC as they found it, unless
       a leg of the maximal amount of a token that takes that allowance as
       unlimited has been settled;
    4. each leg's amount is in exactly one place, and what is in the HTLC is
       covered by its balance;
    5. an expired leg that was neither redeemed nor refunded can be refunded
       by anybody, provided the maker accepts a payment in ETH. -/
theorem settlement_passes_through {cr : Crypto} {D : Deployment} (hstd : D.AllStandard)
    {c : Config State} (h : Reachable cr D anyone c) :
    (∀ id, ((c.cur.settlement.legs id).maker ≠ zeroAddress ↔
        (c.cur.htlc.swaps id).sender = D.settlement) ∧
      ((c.cur.htlc.swaps id).sender = D.settlement →
        (c.cur.settlement.legs id).token = (c.cur.htlc.swaps id).token ∧
        (c.cur.settlement.legs id).amount = (c.cur.htlc.swaps id).amount ∧
        (c.cur.settlement.legs id).refunded = (c.cur.htlc.swaps id).refunded)) ∧
    (∀ s' inner outer, Kept (anyTime cr D anyone) c s' inner outer → Passes D c.cur s') ∧
    (∀ now x call o, D.Account x →
      (∃ value a, call = .settleLeg value a) ∨ (∃ id, call = .refundLeg id) →
      invoke cr D now x call c.cur = .ok o → ∀ asset,
        o.state.ledger.bal asset D.settlement = c.cur.ledger.bal asset D.settlement ∧
        (o.state.ledger.allowance asset D.settlement D.htlc =
            c.cur.ledger.allowance asset D.settlement D.htlc ∨
          D.unlimited asset = true ∧ ∃ id, (o.state.settlement.legs id).maker ≠ zeroAddress ∧
            (o.state.settlement.legs id).token = asset ∧
            (o.state.settlement.legs id).amount.toNat = maxUint256)) ∧
    (∀ now o, resume cr D now c.cur = .ok o → o.state.ledger = c.cur.ledger) ∧
    (∀ id, (c.cur.settlement.legs id).maker ≠ zeroAddress →
      LegAt D id (c.cur.htlc.swaps id) (c.cur.settlement.legs id) (c.cur.books.paidFor id)) ∧
    (∀ token, c.cur.htlc.activeTotal token ≤ c.cur.ledger.bal token D.htlc) ∧
    (∀ now x id, (c.cur.settlement.legs id).maker ≠ zeroAddress →
      (c.cur.htlc.swaps id).withdrawn = false → (c.cur.htlc.swaps id).refunded = false →
      (c.cur.htlc.swaps id).timelock ≤ now →
      (∃ s', invoke cr D now x (.refundLeg id) c.cur = .ok (.done s')) ∨
      ∃ s', invoke cr D now x (.refundLeg id) c.cur = .ok (.waiting s') ∧
        ∀ s₁ now', s₁.frames = s'.frames → ∃ s₂, resume cr D now' s₁ = .ok (.done s₂)) := by
  have hs : Orderly D c.cur := (Orderly.reachable hstd h).1
  refine ⟨fun id => ⟨hs.books.linked id, hs.books.agree id⟩, fun s' inner outer hkept => ?_,
    fun now x call o hx hcall hok asset => ?_, fun now o hok => ?_,
    fun id hmaker => hs.books.legAt hmaker, hs.books.covered,
    fun now x id hmaker hwithdrawn hrefunded hexpired => ?_⟩
  -- Any history inside open calls that are not undone.
  · exact (((passes_progress cr hstd anyone).kept hkept).1 hs).2
  · constructor
    · rcases hcall with ⟨value, a, rfl⟩ | ⟨id, rfl⟩
      · exact settleLeg_settlement_bal hstd hx hok asset
      · exact refundLeg_settlement_bal hs.books hok asset
    · -- The allowance was and is zero, or a maximal leg has been settled by now.
      have hpass := Passes.invoke hs hstd hx hok
      rcases (hs.invoke hstd hx hok).books.allowance asset with hafter | hmax
      · rcases hs.books.allowance asset with hbefore | ⟨hunlimited, id, hleg, htoken, hmax⟩
        · exact .inl (hafter.trans hbefore.symm)
        · refine .inr ⟨hunlimited, id, ?_⟩
          have hpayout := hpass.legs id hleg
          have hmaker : (o.state.settlement.legs id).maker = (c.cur.settlement.legs id).maker :=
            congrArg Payout.dest hpayout
          have htoken' : (o.state.settlement.legs id).token = (c.cur.settlement.legs id).token :=
            congrArg Payout.token hpayout
          have hamount : (o.state.settlement.legs id).amount =
            (c.cur.settlement.legs id).amount := congrArg Payout.amount hpayout
          rw [hmaker, htoken', hamount]
          exact ⟨hleg, htoken, hmax⟩
      · exact .inr hmax
  · obtain ⟨s', rfl, hbooks, -⟩ := resume_quiet hs hok
    exact congrArg Books.ledger hbooks
  -- An expired leg that is still held.
  · obtain ⟨o, hok, hdone | ⟨s', rfl, hframes⟩⟩ :=
      refundLeg_live hs.books hmaker hwithdrawn hrefunded hexpired
    · obtain ⟨s', rfl⟩ := hdone
      exact .inl ⟨s', hok⟩
    · refine .inr ⟨s', hok, fun s₁ now' hsame => ?_⟩
      exact ⟨_, resume_ok.mpr ⟨_, _, hsame.trans hframes, rfl⟩⟩

/-- A leg of 5 wei, settled and in the HTLC. -/
theorem settled_leg_passes_through :
    ∃ c, Reachable Sample.crypto Sample.deployment anyone c ∧
      (c.cur.htlc.swaps Sample.ethId).sender = Sample.deployment.settlement ∧
      LegAt Sample.deployment Sample.ethId (c.cur.htlc.swaps Sample.ethId)
        (c.cur.settlement.legs Sample.ethId) (c.cur.books.paidFor Sample.ethId) := by
  obtain ⟨c, hrun, htest⟩ := (script Sample.crypto Sample.deployment).exists_run
    [.tx 10 Sample.maker (.settleLeg 5 Sample.ethOrder.leg)] ⟨State.fresh Sample.ledger, []⟩
    (fun c => decide ((c.cur.htlc.swaps Sample.ethId).sender = Sample.deployment.settlement))
    (by decide +kernel)
  have hsender := of_decide_eq_true htest
  have hreach : Reachable Sample.crypto Sample.deployment anyone c :=
    ⟨Sample.ledger, Sample.genesis, hrun⟩
  have hlaw := settlement_passes_through Sample.deployment_allStandard hreach
  exact ⟨c, hreach, hsender, hlaw.2.2.2.2.1 Sample.ethId ((hlaw.1 Sample.ethId).1.mpr hsender)⟩

/-- Two calls that do not leave the Settlement as they found it: during a
    `refundLeg` the maker sends the Settlement 1 wei, and a `settleLeg` of all
    of a token leaves its allowance for the HTLC. -/
theorem settlement_keeps_gift_and_allowance :
    (∃ c c', Reachable Sample.crypto Sample.deployment anyone c ∧
      Run (anyTime Sample.crypto Sample.deployment anyone) c c' ∧ c.saved = [] ∧ c'.saved = [] ∧
      c'.cur.settlement.logs = c.cur.settlement.logs ++ [.legRefunded Sample.ethId Sample.maker 5] ∧
      c.cur.ledger.bal zeroAddress Sample.deployment.settlement = 0 ∧
      c'.cur.ledger.bal zeroAddress Sample.deployment.settlement = 1) ∧
    ∃ c c', Reachable Sample.crypto Sample.deployment anyone c ∧
      Run (anyTime Sample.crypto Sample.deployment anyone) c c' ∧ c.saved = [] ∧ c'.saved = [] ∧
      (c'.cur.settlement.legs Sample.maxId).maker = Sample.maker ∧
      c.cur.ledger.allowance Sample.maxCoin Sample.deployment.settlement
        Sample.deployment.htlc = 0 ∧
      c'.cur.ledger.allowance Sample.maxCoin Sample.deployment.settlement
        Sample.deployment.htlc = maxUint256 := by
  constructor
  -- A refund leaves behind what an account has given to the Settlement in between.
  · obtain ⟨c, c', hrun, hrun', htest⟩ := (script Sample.crypto Sample.deployment).exists_run_run
      [.tx 10 Sample.maker (.settleLeg 5 Sample.ethOrder.leg)]
      [.tx 1000 Sample.bob (.refundLeg Sample.ethId),
        .tx 1000 Sample.maker (.transfer zeroAddress Sample.deployment.settlement 1),
        .resume 1000]
      ⟨State.fresh Sample.ledger, []⟩
      (fun c c' => decide (c.saved.length = 0 ∧ c'.saved.length = 0 ∧
        c'.cur.settlement.logs =
          c.cur.settlement.logs ++ [.legRefunded Sample.ethId Sample.maker 5] ∧
        c.cur.ledger.bal zeroAddress Sample.deployment.settlement = 0 ∧
        c'.cur.ledger.bal zeroAddress Sample.deployment.settlement = 1)) (by decide +kernel)
    obtain ⟨hsaved, hsaved', hrest⟩ := of_decide_eq_true htest
    exact ⟨c, c', ⟨Sample.ledger, Sample.genesis, hrun⟩, hrun', List.length_eq_zero_iff.mp hsaved,
      List.length_eq_zero_iff.mp hsaved', hrest⟩
  -- A leg of the maximal amount leaves its allowance.
  · obtain ⟨c', hrun, htest⟩ := (script Sample.crypto Sample.deployment).exists_run
      [.tx 10 Sample.maker (.settleLeg 0 Sample.maxOrder.leg)] ⟨State.fresh Sample.ledger, []⟩
      (fun c' => decide (c'.saved.length = 0 ∧
        (c'.cur.settlement.legs Sample.maxId).maker = Sample.maker ∧
        c'.cur.ledger.allowance Sample.maxCoin Sample.deployment.settlement
          Sample.deployment.htlc = maxUint256)) (by decide +kernel)
    obtain ⟨hsaved, hmaker, hafter⟩ := of_decide_eq_true htest
    exact ⟨_, c', ⟨Sample.ledger, Sample.genesis, .refl⟩, hrun, rfl,
      List.length_eq_zero_iff.mp hsaved, hmaker, (Sample.genesis _ _).2, hafter⟩

end Kael.Exchange
