import Kael.Contracts.Interference
import Kael.CrossChain.HonestSwap

/-!
# When a Lock Goes Through

What a wallet sends to lock its leg is an approval, if it locks a token, and a
call of the HTLC or of the Settlement. On the chain these go through exactly if
the lock is `Lockable`: a condition on the wallet's balance, on the slot and on
the clock, and on the order if the Settlement locks (`lock_goes_through_iff`).
-/

namespace Kael.CrossChain

open Exchange (Affordable Call Deployment Settleable State callThrough callThrough_ok complete_done
  invoke_approve_ok invoke_newSwap_tracked newSwapLedger value_of_newSwapChecks)
open HashedTimelock (NewSwap computeContractId newSwapChecks newSwapChecks_ok)
open Settlement (SettleLeg settleChecks)
open Swapkit (Executor TxAnswers lockArgs lockValue sendLock approveExact)

section Contracts

variable {cr : Crypto} {D : Deployment} {now : Uint256} {x : Address} {value : Uint256} {s : State}

/-- **When `newSwap` succeeds**, for ETH and for standard tokens. -/
theorem newSwap_succeeds_iff {a : NewSwap} (htracked : D.Tracked a.token) :
    (∃ s', callThrough cr D now x (.newSwap value a) s = .ok s') ↔
      newSwapChecks cr D.hasCode now s.htlc ⟨x, value⟩ a = .ok (computeContractId cr x a) ∧
      value.toNat ≤ s.ledger.bal zeroAddress x ∧
      (a.token ≠ zeroAddress → a.amount.toNat ≤ s.ledger.allowance a.token x D.htlc ∧
        a.amount.toNat ≤ s.ledger.bal a.token x) := by
  constructor
  · rintro ⟨s', h⟩
    obtain ⟨o, hinvoke, -⟩ := callThrough_ok.mp h
    obtain ⟨l, id, hledger, hchecks, -⟩ := (invoke_newSwap_tracked htracked).mp hinvoke
    obtain ⟨-, -, -, rfl, -⟩ := newSwapChecks_ok.mp hchecks
    obtain ⟨l₁, hmove, hpull⟩ := Option.bind_eq_some_iff.mp hledger
    refine ⟨hchecks, Ledger.move_isSome.mp ⟨l₁, hmove⟩, fun htoken => ?_⟩
    -- No ETH comes with a token, so the first move has changed nothing of the sender's.
    have hzero : value.toNat = 0 := by
      rw [(value_of_newSwapChecks hchecks).2 htoken]
      rfl
    have hsame : Exchange.Untouched x s.ledger l₁ := .move (.inl hzero) hmove
    rw [if_neg htoken] at hpull
    have hle := Ledger.transferFrom_isSome.mp ⟨l, hpull⟩
    rwa [hsame.allowance, hsame.bal] at hle
  · rintro ⟨hchecks, hvalue, htoken⟩
    obtain ⟨l₁, hmove⟩ := Ledger.move_isSome.mpr hvalue
    obtain ⟨l, hledger⟩ : ∃ l, newSwapLedger D x value a s.ledger = some l := by
      rw [newSwapLedger, hmove, Option.bind_some]
      split_ifs with hzero
      · exact ⟨l₁, rfl⟩
      · have hnone : value.toNat = 0 := by
          rw [(value_of_newSwapChecks hchecks).2 hzero]
          rfl
        have hsame : Exchange.Untouched x s.ledger l₁ := .move (.inl hnone) hmove
        rw [Ledger.transferFrom_isSome, hsame.allowance, hsame.bal]
        exact htoken hzero
    exact ⟨_, callThrough_ok.mpr ⟨_, (invoke_newSwap_tracked htracked).mpr
      ⟨l, _, hledger, hchecks, rfl⟩, complete_done.mpr rfl⟩⟩

/-- **When `settleLeg` succeeds.** -/
theorem settleLeg_succeeds_iff {a : SettleLeg} (hx : D.Account x) :
    (∃ s', callThrough cr D now x (.settleLeg value a) s = .ok s') ↔
      Settleable cr D now x value a s :=
  ⟨fun ⟨_, h⟩ => .of_mined hx (.of_through h), fun h => h.through hx⟩

end Contracts

/-! ## What a wallet sends -/

section Sending

variable {cr : Crypto} {D : Deployment} {now : Uint256} {x spender token recipient : Address}
  {amount : U128} {id h : Bytes32} {timelock : U64} {call : Call} {io : TxAnswers} {s : State}

/-- The state after an approval. -/
def approved (s : State) (token owner spender : Address) (n : Nat) : State :=
  { s with ledger := s.ledger.approve token owner spender n }

theorem allSucceed_sendLock (hserved : io.Served amount) :
    AllSucceed cr D now x s (sendLock spender token amount id call io).sent ↔
      if token = zeroAddress then ∃ s', callThrough cr D now x call s = .ok s'
      else D.standard token = true ∧
        ∃ s', callThrough cr D now x call (approved s token x spender amount.toNat) = .ok s' := by
  obtain ⟨r, hr⟩ := hserved.receipt
  obtain ⟨r', hr'⟩ := hserved.approved
  have happrove : approveExact amount io.approve = .ok () := by
    simp [approveExact, hr', hserved.allowance]
  simp only [sendLock, happrove]
  split_ifs with htoken
  · simp only [AllSucceed, and_true]
  · simp only [AllSucceed, and_true, callThrough_ok, invoke_approve_ok]
    constructor
    · rintro ⟨s₁, ⟨o, ⟨hstandard, rfl⟩, hdone⟩, hcall⟩
      rw [complete_done.mp hdone] at hcall
      exact ⟨hstandard, hcall⟩
    · rintro ⟨hstandard, hcall⟩
      exact ⟨_, ⟨_, ⟨hstandard, rfl⟩, complete_done.mpr rfl⟩, hcall⟩

/-- The checks of the HTLC, on what a wallet locks. -/
theorem newSwapChecks_lockArgs {st : HashedTimelock.Storage} (hamount : amount ≠ 0) :
    newSwapChecks cr D.hasCode now st ⟨x, lockValue token amount⟩
        (lockArgs recipient token amount h timelock) =
        .ok (computeContractId cr x (lockArgs recipient token amount h timelock)) ↔
      h ≠ 0 ∧ now < timelock.setWidth 256 ∧
      ¬(st.swaps (computeContractId cr x (lockArgs recipient token amount h timelock))).Exists ∧
      (token = zeroAddress ∨ D.hasCode token = true) := by
  have hnonzero : (lockArgs recipient token amount h timelock).amount ≠ 0#256 := fun hzero =>
    hamount (setWidth_word_injective (by omega) hzero)
  rw [newSwapChecks_ok]
  simp only [hnonzero, ne_eq, not_false_eq_true, true_and, lockValue]
  by_cases htoken : token = zeroAddress
  · simp [htoken, lockArgs]
  · simp [htoken, lockArgs]

end Sending

/-! ## Locks -/

/-- What the chain asks of a lock. -/
structure Lockable (cr : Crypto) (D : Deployment) (now : Uint256) (e : Executor) (h : Bytes32)
    (s : State) : Prop where
  hashlock : h ≠ 0
  timelock : now < e.ctx.myTimelock.setWidth 256
  /-- No swap has the id of the lock. -/
  free : ¬(s.htlc.swaps (ownLeg cr e h).id).Exists
  token : e.ctx.myToken = zeroAddress ∨
    D.hasCode e.ctx.myToken = true ∧ e.ctx.myToken ≠ D.htlc ∧ e.ctx.myToken ≠ D.settlement
  funds : e.ctx.myAmount.toNat ≤ s.ledger.bal e.ctx.myToken e.ownSigner
  /-- The Settlement accepts the order. -/
  order : ∀ config, e.ownSettlementLock = some config →
    settleChecks cr D.chainId now s.settlement e.ownSigner
      (config.leg e.ownSigner e.ctx.myRecipient e.ctx.myToken e.ctx.myAmount h e.ctx.myTimelock) =
      .ok ()

section Locks

variable {cr : Crypto} {D : Deployment} {now : Uint256} {e : Executor} {h : Bytes32} {s : State}
  {io : TxAnswers}

theorem toNat_lockValue {token : Address} {amount : U128} :
    (lockValue token amount).toNat = if token = zeroAddress then amount.toNat else 0 := by
  unfold lockValue
  split_ifs
  · exact BitVec.toNat_setWidth_of_le (by omega)
  · rfl

/-- A token that a lock can hold. -/
theorem tracked_iff (hstd : D.AllStandard) {token : Address} : D.Tracked token ↔
    token = zeroAddress ∨ D.hasCode token = true ∧ token ≠ D.htlc ∧ token ≠ D.settlement := by
  refine or_congr_right ⟨fun h => ⟨D.standard_hasCode _ h, D.standard_ne_htlc _ h,
    D.standard_ne_settlement _ h⟩, ?_⟩
  rintro ⟨hcode, hhtlc, hsettlement⟩
  exact hstd _ hcode hhtlc hsettlement

/-- The call of the HTLC, made by the wallet itself. -/
theorem newSwap_goes_through_iff (hstd : D.AllStandard) (htracked : D.Tracked e.ctx.myToken)
    (hnone : e.ownSettlementLock = none) (hamount : e.ctx.myAmount ≠ 0)
    (hallowance : e.ctx.myToken ≠ zeroAddress →
      s.ledger.allowance e.ctx.myToken e.ownSigner D.htlc = e.ctx.myAmount.toNat) :
    (∃ s', callThrough cr D now e.ownSigner
        (.newSwap (lockValue e.ctx.myToken e.ctx.myAmount) (legLock e h)) s = .ok s') ↔
      Lockable cr D now e h s := by
  have hid : (ownLeg cr e h).id = computeContractId cr e.ownSigner (legLock e h) := by
    rw [ownLeg, Executor.lockSender, hnone]
  have hnat : (legLock e h).amount.toNat = e.ctx.myAmount.toNat :=
    BitVec.toNat_setWidth_of_le (by omega)
  have htoken : (legLock e h).token = e.ctx.myToken := rfl
  rw [newSwap_succeeds_iff htracked, legLock, newSwapChecks_lockArgs hamount, ← legLock, ← hid,
    toNat_lockValue, hnat, htoken]
  constructor
  · rintro ⟨⟨hh, ht, hfree, -⟩, heth, htokens⟩
    refine ⟨hh, ht, hfree, (tracked_iff hstd).mp htracked, ?_, by simp [hnone]⟩
    by_cases hzero : e.ctx.myToken = zeroAddress
    · rwa [if_pos hzero, ← hzero] at heth
    · exact (htokens hzero).2
  · rintro ⟨hh, ht, hfree, htoken, hfunds, -⟩
    refine ⟨⟨hh, ht, hfree, htoken.imp_right And.left⟩, ?_, fun hzero =>
      ⟨(hallowance hzero).ge, hfunds⟩⟩
    split_ifs with hzero
    · rwa [hzero] at hfunds
    · exact Nat.zero_le _

/-- The call of the Settlement, which pulls the funds and locks them. -/
theorem settleLeg_goes_through_iff (hstd : D.AllStandard) (hsigner : D.Account e.ownSigner)
    (htracked : D.Tracked e.ctx.myToken) {config : Swapkit.SettlementLockConfig}
    (hconfig : e.ownSettlementLock = some config) (hsettlement : config.settlement = D.settlement)
    (hamount : e.ctx.myAmount ≠ 0)
    (hallowance : e.ctx.myToken ≠ zeroAddress →
      s.ledger.allowance e.ctx.myToken e.ownSigner D.settlement = e.ctx.myAmount.toNat) :
    (∃ s', callThrough cr D now e.ownSigner (.settleLeg (lockValue e.ctx.myToken e.ctx.myAmount)
        (config.leg e.ownSigner e.ctx.myRecipient e.ctx.myToken e.ctx.myAmount h
          e.ctx.myTimelock)) s = .ok s') ↔
      Lockable cr D now e h s := by
  have hsender : e.lockSender = D.settlement := by
    simp only [Executor.lockSender, hconfig, hsettlement]
  have hid : (ownLeg cr e h).id = computeContractId cr D.settlement (legLock e h) := by
    rw [← hsender]
    rfl
  have hchecks := @newSwapChecks_lockArgs cr D now D.settlement e.ctx.myToken e.ctx.myRecipient
    e.ctx.myAmount h e.ctx.myTimelock s.htlc hamount
  have hnat : (e.ctx.myAmount.setWidth 256).toNat = e.ctx.myAmount.toNat :=
    BitVec.toNat_setWidth_of_le (by omega)
  have hzero_or : e.ctx.myToken = zeroAddress ∨ D.standard e.ctx.myToken = true := htracked
  rw [settleLeg_succeeds_iff hsigner]
  constructor
  · rintro ⟨horder, hlock, -, heth, htokens⟩
    obtain ⟨hh, ht, hfree, -⟩ := hchecks.mp hlock
    refine ⟨hh, ht, hid ▸ hfree, (tracked_iff hstd).mp htracked, ?_, ?_⟩
    · rcases hzero_or with hzero | hstandard
      · rw [toNat_lockValue, if_pos hzero] at heth
        rwa [hzero]
      · exact hnat ▸ (htokens hstandard).2
    · intro config' hconfig'
      cases hconfig.symm.trans hconfig'
      exact horder
  · rintro ⟨hh, ht, hfree, htoken, hfunds, horder⟩
    refine ⟨horder config hconfig, ?_, ?_, ?_, fun hstandard => ?_⟩
    · exact hchecks.mpr ⟨hh, ht, hid ▸ hfree, htoken.imp_right And.left⟩
    · rcases htoken with hzero | ⟨-, hne⟩
      · exact ⟨fun h => D.htlc_ne_zero (h.symm.trans hzero),
          fun h => D.settlement_ne_zero (h.symm.trans hzero)⟩
      · exact hne
    · rw [toNat_lockValue]
      split_ifs with hzero
      · rwa [hzero] at hfunds
      · exact Nat.zero_le _
    · have hnonzero := D.standard_ne_zero _ hstandard
      exact ⟨hnat.trans (hallowance hnonzero).symm |>.le, hnat ▸ hfunds⟩

/-- An approval is nothing that a lock depends on. -/
theorem lockable_approved {owner spender : Address} {n : Nat} :
    Lockable cr D now e h (approved s e.ctx.myToken owner spender n) ↔ Lockable cr D now e h s :=
  ⟨fun hl => ⟨hl.1, hl.2, hl.3, hl.4, hl.5, hl.6⟩, fun hl => ⟨hl.1, hl.2, hl.3, hl.4, hl.5, hl.6⟩⟩

/-- The call goes through exactly if the lock is lockable, once the approval has. -/
def GoesThrough (cr : Crypto) (D : Deployment) (now : Uint256) (e : Executor) (h : Bytes32)
    (spender : Address) (call : Call) : Prop :=
  ∀ s : State, D.Tracked e.ctx.myToken →
    (e.ctx.myToken ≠ zeroAddress →
      s.ledger.allowance e.ctx.myToken e.ownSigner spender = e.ctx.myAmount.toNat) →
    ((∃ s', callThrough cr D now e.ownSigner call s = .ok s') ↔ Lockable cr D now e h s)

/-- The approval and the call. -/
theorem allSucceed_sendLock_iff {spender : Address} {id : Bytes32} {call : Call}
    (hstd : D.AllStandard) (hserved : io.Served e.ctx.myAmount)
    (hcall : GoesThrough cr D now e h spender call) :
    AllSucceed cr D now e.ownSigner s
        (sendLock spender e.ctx.myToken e.ctx.myAmount id call io).sent ↔
      Lockable cr D now e h s := by
  have hallowance : (approved s e.ctx.myToken e.ownSigner spender e.ctx.myAmount.toNat).ledger.allowance
      e.ctx.myToken e.ownSigner spender = e.ctx.myAmount.toNat := by
    rw [approved, Ledger.approve_allowance, if_pos ⟨rfl, rfl, rfl⟩]
  rw [allSucceed_sendLock hserved]
  split_ifs with hzero
  · exact hcall s (.inl hzero) (absurd hzero)
  · rw [← lockable_approved]
    constructor
    · rintro ⟨hstandard, hok⟩
      exact (hcall _ (.inr hstandard) fun _ => hallowance).mp hok
    · intro hlockable
      have htracked := (tracked_iff hstd).mpr hlockable.token
      exact ⟨htracked.resolve_left hzero, (hcall _ htracked fun _ => hallowance).mpr hlockable⟩

/-- What a wallet sends to lock its leg, directly or at the Settlement. -/
theorem sendLockMyLeg_call (hstd : D.AllStandard) (hsigner : D.Account e.ownSigner)
    (hhtlc : e.ownHtlc = D.htlc)
    (hsettlement : ∀ config, e.ownSettlementLock = some config →
      config.settlement = D.settlement) (hamount : e.ctx.myAmount ≠ 0) :
    ∃ spender id call, e.sendLockMyLeg cr e.ctx.myRecipient e.ctx.myToken e.ctx.myAmount h
        e.ctx.myTimelock io = sendLock spender e.ctx.myToken e.ctx.myAmount id call io ∧
      GoesThrough cr D now e h spender call := by
  unfold Executor.sendLockMyLeg
  cases hconfig : e.ownSettlementLock with
  | none =>
    dsimp only
    unfold Swapkit.lock
    rw [if_neg hamount, hhtlc]
    exact ⟨_, _, _, rfl, fun s htracked hallowance =>
      newSwap_goes_through_iff hstd htracked hconfig hamount hallowance⟩
  | some config =>
    dsimp only
    unfold Swapkit.lockViaSettlement
    rw [if_neg hamount, hsettlement config hconfig]
    exact ⟨_, _, _, rfl, fun s htracked hallowance => settleLeg_goes_through_iff hstd hsigner
      htracked hconfig (hsettlement config hconfig) hamount hallowance⟩

/-- **A lock goes through** exactly if it is lockable. -/
theorem lock_goes_through_iff (hstd : D.AllStandard) (hsigner : D.Account e.ownSigner)
    (hhtlc : e.ownHtlc = D.htlc)
    (hsettlement : ∀ config, e.ownSettlementLock = some config →
      config.settlement = D.settlement)
    (hserved : io.Served e.ctx.myAmount) (hamount : e.ctx.myAmount ≠ 0) :
    AllSucceed cr D now e.ownSigner s (e.sendLockMyLeg cr e.ctx.myRecipient e.ctx.myToken
        e.ctx.myAmount h e.ctx.myTimelock io).sent ↔
      Lockable cr D now e h s := by
  obtain ⟨spender, id, call, hsend, hcall⟩ := @sendLockMyLeg_call cr D now e h io hstd hsigner hhtlc
    hsettlement hamount
  rw [hsend]
  exact allSucceed_sendLock_iff hstd hserved hcall

end Locks

/-- The lock of `rival`, who has the 7 wei and sends them with the call. -/
theorem lock_goes_through_of_rival :
    AllSucceed Sample.hashes (Sample.deployments false) 10 (Sample.parties false).ownSigner
      (.fresh Exchange.Sample.ledger)
      ((Sample.parties false).sendLockMyLeg Sample.hashes (Sample.parties false).ctx.myRecipient
        (Sample.parties false).ctx.myToken (Sample.parties false).ctx.myAmount
        HashedTimelock.Sample.hashlock (Sample.parties false).ctx.myTimelock
        (Sample.txAnswers 7)).sent :=
  (lock_goes_through_iff (Sample.deployments_allStandard false) (by decide) rfl
    (fun config h => by cases h) (Sample.served _) (by decide)).mpr
    ⟨by decide, by decide, by decide +kernel, .inl rfl, by decide +kernel,
      fun config h => by cases h⟩

end Kael.CrossChain
