import Kael.CrossChain.Wallet

/-!
# What a Wallet Knows of Its Transactions

The executor does not read the status of a receipt, and it forgets a lock whose
receipt it does not get. So what it records is never ahead of the chains as long
as no transaction with a receipt has reverted (`records_never_ahead`), and it
can reclaim all of its locks as long as none is mined behind its back
(`locks_never_lost`).
-/

namespace Kael.CrossChain

open Exchange (Deployment State Call Later Mined no_frames_of_run)
open Swapkit (Executor Stepped TxCall StepAnswers Receipt TxError TxAnswers Sending Locked)
open HashedTimelock (Swap)

/-! ## Sent calls -/

section Calls

variable {cr : Crypto} {D : Deployment} {x : Address} {call : Call} {fate : Fate}
  {receipt : Except TxError Receipt} {s s' : State} {e : Executor} {io : TxAnswers} {t : Stepped}

/-- Whatever becomes of the transaction, the chain goes on. -/
theorem Sent.later (hx : D.Account x) (h : Sent cr D x call receipt fate s s') :
    Later cr D s s' := by
  cases h with
  | confirmed now _ _ hbefore hmined hafter => exact (hbefore.trans (hmined.later hx)).trans hafter
  | reverted _ _ hlater => exact hlater
  | unseen now _ hbefore hmined hafter => exact (hbefore.trans (hmined.later hx)).trans hafter
  | dropped _ hlater => exact hlater

/-- A transaction with a receipt that has not reverted was mined with success;
    what it establishes holds at the end, if others keep it. -/
theorem Sent.establishes {P : State → Prop} (h : Sent cr D x call receipt fate s s')
    (hx : D.Account x) (hframes : s.frames = []) (hfate : fate ≠ .reverted) {r : Receipt}
    (hreceipt : receipt = .ok r)
    (hmined : ∀ now s₁ s₂, s₁.frames = [] → Mined cr D now x call s₁ s₂ → P s₂)
    (hkept : ∀ s₁ s₂, s₁.frames = [] → P s₁ → Later cr D s₁ s₂ → P s₂) : P s' := by
  cases h with
  -- The chain goes on before and after the block that mines the call.
  | confirmed now _ _ hbefore hmined' hafter =>
    have hframes₁ := no_frames_of_run hframes hbefore
    have hframes₂ := no_frames_of_run hframes₁ (hmined'.later hx)
    exact hkept _ _ hframes₂ (hmined now _ _ hframes₁ hmined') hafter
  | reverted => exact absurd rfl hfate
  | unseen now herror =>
    rw [herror] at hreceipt
    cases hreceipt
  | dropped herror =>
    rw [herror] at hreceipt
    cases hreceipt

theorem Sent.locks {c : Bytes32} (h : Sent cr D x call receipt fate s s') (hx : D.Account x)
    (hframes : s.frames = []) (hfate : fate ≠ .reverted) {r : Receipt} (hreceipt : receipt = .ok r)
    (hcall : call.lockId cr D x = some c) : s'.HasRecord c := by
  apply h.establishes hx hframes hfate hreceipt
  · exact fun now s₁ s₂ hframes hmined => hmined.locks hx.1 hframes hcall
  · exact fun s₁ s₂ hframes hrecord hlater => hlater.hasRecord hframes hrecord

theorem Sent.redeems {c p : Bytes32} (h : Sent cr D x (.redeem c p) receipt fate s s')
    (hx : D.Account x) (hframes : s.frames = []) (hfate : fate ≠ .reverted) {r : Receipt}
    (hreceipt : receipt = .ok r) : ∃ t, (s'.htlc.swaps c).stage = .claimed t := by
  apply h.establishes (P := fun s => ∃ t, (s.htlc.swaps c).stage = .claimed t)
    hx hframes hfate hreceipt
  · exact fun now s₁ s₂ hframes hmined => hmined.redeems hframes
  · exact fun s₁ s₂ hframes hclaimed hlater => hlater.claimed hframes hclaimed

theorem Sent.refunds {c : Bytes32} (h : Sent cr D x call receipt fate s s') (hx : D.Account x)
    (hframes : s.frames = []) (hfate : fate ≠ .reverted) {r : Receipt} (hreceipt : receipt = .ok r)
    (hcall : call = .refund c ∨ call = .refundLeg c) :
    ∃ t, (s'.htlc.swaps c).stage = .reclaimed t := by
  apply h.establishes (P := fun s => ∃ t, (s.htlc.swaps c).stage = .reclaimed t)
    hx hframes hfate hreceipt
  · exact fun now s₁ s₂ hframes hmined => hmined.refunds hframes hcall
  · exact fun s₁ s₂ hframes hreclaimed hlater => hlater.reclaimed hframes hreclaimed

/-- A call that returned had its receipt. -/
theorem receipt_of_result {hash : Bytes32} (h : (Swapkit.sendCall call io).result = .ok hash) :
    ∃ r, io.call.receipt = .ok r := by
  have hmap : io.call.receipt.map Receipt.transactionHash = .ok hash := h
  cases hreceipt : io.call.receipt with
  | error failure =>
    rw [hreceipt] at hmap
    cases hmap
  | ok r => exact ⟨r, rfl⟩

theorem redeemedId_eq {contractId : Bytes32} (h : redeemedId t = some contractId) :
    ∃ sending hash secret, t.tx = some (.redeem sending) ∧ sending.result = .ok hash ∧
      sending.sent = [.redeem contractId secret] := by
  unfold redeemedId at h
  split at h
  · rename_i hash c secret htx
    cases h
    exact ⟨_, hash, secret, htx, rfl, rfl⟩
  · cases h

end Calls

/-! ## Never ahead of the chains -/

/-- What the executor has recorded is so on the chains. -/
structure Wallet.NotAhead (w : Wallet) : Prop where
  locked : ∀ c, w.exec.ownContractId = some c → w.own.HasRecord c
  redeemed : w.exec.state = .counterpartyRedeemed →
    ∃ c, w.redeemed = some c ∧ (w.counterparty.htlc.swaps c).withdrawn = true
  refunded : w.exec.state = .refunded →
    ∃ c, w.exec.ownContractId = some c ∧ (w.own.htlc.swaps c).refunded = true

/-- No transaction whose receipt was obtained has reverted. -/
def Event.NotReverted : Event → Prop
  | .sends _ _ fate => fate ≠ .reverted
  | _ => True

/-- The invariant: records that are settled stay settled. -/
structure Wallet.Sound (A B : Deployment) (w : Wallet) : Prop where
  settlement : ∀ config, w.exec.ownSettlementLock = some config → config.settlement = A.settlement
  ownSigner : A.Account w.exec.ownSigner
  counterpartySigner : B.Account w.exec.counterpartySigner
  ownFrames : w.own.frames = []
  counterpartyFrames : w.counterparty.frames = []
  locked : ∀ c, w.exec.ownContractId = some c → w.own.HasRecord c
  claimed : ∀ c, w.redeemed = some c → ∃ t, (w.counterparty.htlc.swaps c).stage = .claimed t
  redeemed : w.exec.state = .counterpartyRedeemed → w.redeemed.isSome
  refunded : w.exec.state = .refunded →
    ∃ c t, w.exec.ownContractId = some c ∧ (w.own.htlc.swaps c).stage = .reclaimed t

section Soundness

variable {cr : Crypto} {A B : Deployment} {w w' : Wallet}

theorem Wallet.Sound.notAhead (hw : w.Sound A B) : w.NotAhead := by
  refine ⟨hw.locked, fun hstate => ?_, fun hstate => ?_⟩
  · obtain ⟨c, hc⟩ := Option.isSome_iff_exists.mp (hw.redeemed hstate)
    obtain ⟨t, hclaimed⟩ := hw.claimed c hc
    exact ⟨c, hc, (Swap.stage_claimed.mp hclaimed).2.1⟩
  · obtain ⟨c, t, hc, hreclaimed⟩ := hw.refunded hstate
    exact ⟨c, hc, (Swap.stage_reclaimed.mp hreclaimed).2.2.1⟩

/-- Transactions of others. -/
theorem Wallet.Sound.chains (hw : w.Sound A B) {own counterparty : State}
    (hown : Later cr A w.own own) (hcounterparty : Later cr B w.counterparty counterparty) :
    Wallet.Sound A B { w with own := own, counterparty := counterparty } where
  settlement := hw.settlement
  ownSigner := hw.ownSigner
  counterpartySigner := hw.counterpartySigner
  ownFrames := no_frames_of_run hw.ownFrames hown
  counterpartyFrames := no_frames_of_run hw.counterpartyFrames hcounterparty
  locked c hc := hown.hasRecord hw.ownFrames (hw.locked c hc)
  claimed c hc := hcounterparty.claimed hw.counterpartyFrames (hw.claimed c hc)
  redeemed := hw.redeemed
  refunded hstate := by
    obtain ⟨c, t, hc, hreclaimed⟩ := hw.refunded hstate
    obtain ⟨t', hkept⟩ := hown.reclaimed hw.ownFrames ⟨t, hreclaimed⟩
    exact ⟨c, t', hc, hkept⟩

/-- A step of the executor, if the chains have what its transactions return. -/
theorem Wallet.Sound.stepped (hw : w.Sound A B) (io : StepAnswers) {own counterparty : State}
    (hown : Later cr A w.own own) (hcounterparty : Later cr B w.counterparty counterparty)
    (hlock : ∀ sending locked, (w.exec.step cr io).tx = some (.lock sending) →
      sending.result = .ok locked → own.HasRecord locked.contractId)
    (hredeem : ∀ c, redeemedId (w.exec.step cr io) = some c →
      ∃ t, (counterparty.htlc.swaps c).stage = .claimed t)
    (hrefund : ∀ sending hash c, (w.exec.step cr io).tx = some (.refund sending) →
      sending.result = .ok hash → w.exec.ownContractId = some c →
      ∃ t, (own.htlc.swaps c).stage = .reclaimed t) :
    (w.stepped cr io own counterparty).Sound A B := by
  have hrecorded := recorded_step cr hw.settlement io
  have hchains := hw.chains hown hcounterparty
  -- An id that was there stays there.
  have hkeeps : ∀ c, w.exec.ownContractId = some c →
      (w.exec.step cr io).exec.ownContractId = some c := by
    intro c hc
    rcases hrecorded.ownContractId with hsame | ⟨hnone, -⟩
    · exact hsame.trans hc
    · rw [hc] at hnone
      cases hnone
  refine ⟨?_, ?_, ?_, hchains.ownFrames, hchains.counterpartyFrames, ?_, ?_, ?_, ?_⟩
  · intro config hconfig
    exact hw.settlement config (hrecorded.ownSettlementLock.symm.trans hconfig)
  · show A.Account (w.exec.step cr io).exec.ownSigner
    rw [hrecorded.ownSigner]
    exact hw.ownSigner
  · show B.Account (w.exec.step cr io).exec.counterpartySigner
    rw [hrecorded.counterpartySigner]
    exact hw.counterpartySigner
  · intro c hc
    have hc' : (w.exec.step cr io).exec.ownContractId = some c := hc
    rcases hrecorded.ownContractId with hsame | ⟨-, sending, locked, htx, hresult, hid⟩
    · exact hchains.locked c (hsame.symm.trans hc')
    · obtain rfl := Option.some.inj (hid.symm.trans hc')
      exact hlock sending locked htx hresult
  · intro c hc
    have hc' : (redeemedId (w.exec.step cr io)).or w.redeemed = some c := hc
    rcases Option.or_eq_some_iff.mp hc' with hnew | ⟨-, hold⟩
    · exact hredeem c hnew
    · exact hchains.claimed c hold
  · intro hstate
    show ((redeemedId (w.exec.step cr io)).or w.redeemed).isSome
    rw [Option.isSome_or, Bool.or_eq_true]
    rcases hrecorded.redeemed hstate with hbefore | hnew
    · exact .inr (hw.redeemed hbefore)
    · exact .inl hnew
  · intro hstate
    rcases hrecorded.refunded hstate with hbefore | ⟨sending, hash, htx, hresult⟩
    · obtain ⟨c, t, hc, hreclaimed⟩ := hchains.refunded hbefore
      exact ⟨c, t, hkeeps c hc, hreclaimed⟩
    · obtain ⟨c, hc, -⟩ := hrecorded.refund sending htx
      obtain ⟨t, hreclaimed⟩ := hrefund sending hash c htx hresult hc
      exact ⟨c, t, hkeeps c hc, hreclaimed⟩

theorem Wallet.Sound.settled (hw : w.Sound A B) (call : Call) (fate : Fate) :
    (w.settled cr A call fate).Sound A B := by
  unfold Wallet.settled
  cases w.lockId cr A call with
  | none => exact hw
  | some id =>
    cases fate with
    | confirmed | unseen | dropped | reverted =>
      exact ⟨hw.settlement, hw.ownSigner, hw.counterpartySigner, hw.ownFrames,
        hw.counterpartyFrames, hw.locked, hw.claimed, hw.redeemed, hw.refunded⟩

/-- A step that sends no call returns no id. -/
theorem Wallet.Sound.quiet (hw : w.Sound A B) (io : StepAnswers) {own counterparty : State}
    (hownCall : ownCall (w.exec.step cr io) = none)
    (hcounterpartyCall : counterpartyCall (w.exec.step cr io) = none)
    (hown : Later cr A w.own own) (hcounterparty : Later cr B w.counterparty counterparty) :
    (w.stepped cr io own counterparty).Sound A B := by
  have hrecorded := recorded_step cr hw.settlement io
  apply hw.stepped io hown hcounterparty
  · intro sending locked htx hresult
    obtain ⟨⟨call, hcall, -⟩, -⟩ := (hrecorded.lock sending htx).1.returned locked hresult
    simp [ownCall, htx, hcall] at hownCall
  · intro c hc
    obtain ⟨sending, hash, secret, htx, -, hsent⟩ := redeemedId_eq hc
    simp [counterpartyCall, htx, sentCall, hsent, isApproval] at hcounterpartyCall
  · intro sending hash c htx hresult hc
    obtain ⟨id, -, rfl | rfl⟩ := hrecorded.refund sending htx
    · simp [ownCall, htx, sentCall, Swapkit.refund, Swapkit.sendCall, isApproval] at hownCall
    · simp [ownCall, htx, sentCall, Swapkit.refundViaSettlement, Swapkit.sendCall,
        isApproval] at hownCall

/-- A lock or a refund, on the own chain. -/
theorem Wallet.Sound.sendsOwn (hw : w.Sound A B) (io : StepAnswers) {own counterparty : State}
    {call : Call} {fate : Fate} (hcall : ownCall (w.exec.step cr io) = some call)
    (hsent : Sent cr A w.exec.ownSigner call io.tx.call.receipt fate w.own own)
    (hcounterparty : Later cr B w.counterparty counterparty) (hfate : fate ≠ .reverted) :
    (w.stepped cr io own counterparty).Sound A B := by
  have hrecorded := recorded_step cr hw.settlement io
  apply hw.stepped io (hsent.later hw.ownSigner) hcounterparty
  · intro sending locked htx hresult
    obtain ⟨⟨call', hcall', hid⟩, r, hreceipt⟩ := (hrecorded.lock sending htx).1.returned
      locked hresult
    have hsame : sentCall sending = some call := by simpa [ownCall, htx] using hcall
    obtain rfl := Option.some.inj (hcall'.symm.trans hsame)
    exact hsent.locks hw.ownSigner hw.ownFrames hfate hreceipt hid
  · intro c hc
    obtain ⟨sending, hash, secret, htx, -, -⟩ := redeemedId_eq hc
    simp [ownCall, htx] at hcall
  · intro sending hash c htx hresult hc
    obtain ⟨id, hid, hsending⟩ := hrecorded.refund sending htx
    obtain rfl := Option.some.inj (hid.symm.trans hc)
    have hsame : sentCall sending = some call := by simpa [ownCall, htx] using hcall
    -- Directly or through Settlement, the refund is of the recorded id.
    rcases hsending with rfl | rfl
    · obtain ⟨r, hreceipt⟩ := receipt_of_result hresult
      cases hsame
      exact hsent.refunds hw.ownSigner hw.ownFrames hfate hreceipt (.inl rfl)
    · obtain ⟨r, hreceipt⟩ := receipt_of_result hresult
      cases hsame
      exact hsent.refunds hw.ownSigner hw.ownFrames hfate hreceipt (.inr rfl)

/-- A redeem, on the counterparty's chain. -/
theorem Wallet.Sound.sendsCounterparty (hw : w.Sound A B) (io : StepAnswers)
    {own counterparty : State} {call : Call} {fate : Fate}
    (hcall : counterpartyCall (w.exec.step cr io) = some call) (hown : Later cr A w.own own)
    (hsent : Sent cr B w.exec.counterpartySigner call io.tx.call.receipt fate w.counterparty
      counterparty) (hfate : fate ≠ .reverted) :
    (w.stepped cr io own counterparty).Sound A B := by
  have hrecorded := recorded_step cr hw.settlement io
  apply hw.stepped io hown (hsent.later hw.counterpartySigner)
  · intro sending locked htx
    simp [counterpartyCall, htx] at hcall
  · intro c hc
    obtain ⟨sending, hash, secret, htx, hresult, hredeem⟩ := redeemedId_eq hc
    obtain ⟨c', secret', rfl⟩ := hrecorded.redeem sending htx
    cases hredeem
    have hcall' : call = .redeem c secret := by
      simpa [counterpartyCall, htx, sentCall, Swapkit.redeem, Swapkit.sendCall, isApproval]
        using hcall.symm
    obtain ⟨r, hreceipt⟩ := receipt_of_result hresult
    subst hcall'
    exact hsent.redeems hw.counterpartySigner hw.counterpartyFrames hfate hreceipt
  · intro sending hash c htx
    simp [counterpartyCall, htx] at hcall

/-- **Step rule.** -/
theorem Wallet.Sound.step (hw : w.Sound A B) {event : Event} (h : w.Step cr A B event w')
    (hevent : event.NotReverted) : w'.Sound A B := by
  cases h with
  | others hown hcounterparty => exact hw.chains hown hcounterparty
  | minedLate now hpending hmined =>
    have hchains := hw.chains (hmined.later hw.ownSigner) (Relation.ReflTransGen.refl)
    exact ⟨hw.settlement, hw.ownSigner, hw.counterpartySigner, hchains.ownFrames,
      hw.counterpartyFrames, hchains.locked, hw.claimed, hw.redeemed, hchains.refunded⟩
  | quiet io hownCall hcounterpartyCall hown hcounterparty =>
    exact hw.quiet io hownCall hcounterpartyCall hown hcounterparty
  | sendsOwn io hcall hsent hcounterparty =>
    exact (hw.sendsOwn io hcall hsent hcounterparty hevent).settled _ _
  | sendsCounterparty io hcall hown hsent =>
    exact hw.sendsCounterparty io hcall hown hsent hevent

/-- Run rule. -/
theorem Wallet.Sound.run (hw : w.Sound A B) (h : w.Run cr A B Event.NotReverted w') :
    w'.Sound A B :=
  h.invariant (fun _ _ _ hsound hstep hevent => hsound.step hstep hevent) hw

theorem Wallet.New.sound (hw : w.New A B)
    (hstate : w.exec.state ≠ .counterpartyRedeemed ∧ w.exec.state ≠ .refunded) :
    w.Sound A B where
  settlement := hw.settlement
  ownSigner := hw.ownSigner
  counterpartySigner := hw.counterpartySigner
  ownFrames := hw.ownFrames
  counterpartyFrames := hw.counterpartyFrames
  locked c hc := by
    rw [hw.ownContractId] at hc
    cases hc
  claimed c hc := by
    rw [hw.redeemed] at hc
    cases hc
  redeemed h := absurd h hstate.1
  refunded h := absurd h hstate.2

/-- **The executor is never ahead of the chains**, in any run in which no
    transaction that it has a receipt of has reverted. -/
theorem records_never_ahead (hw : w.New A B)
    (hstate : w.exec.state ≠ .counterpartyRedeemed ∧ w.exec.state ≠ .refunded)
    (hrun : w.Run cr A B Event.NotReverted w') : w'.NotAhead :=
  ((hw.sound hstate).run hrun).notAhead

end Soundness

/-! ## Locks that are lost -/

/-- The executor knows the active records that it has created, and is in a state
    from which it can reclaim them. -/
def Wallet.Reclaimable (w : Wallet) : Prop :=
  ∀ c ∈ w.locks, (w.own.htlc.swaps c).Active →
    w.exec.ownContractId = some c ∧ w.exec.state ≠ .start ∧ w.exec.state ≠ .secretGenerated ∧
      ∀ reason, w.exec.state ≠ .aborted reason

/-- No lock is mined whose receipt is not obtained in the same step. -/
def Event.NotLost : Event → Prop
  | .minedLate _ => False
  | .sends _ call fate => IsLock call → fate ≠ .unseen
  | _ => True

/-- The invariant: all records that the executor has created are known to it. -/
structure Wallet.Known (A : Deployment) (w : Wallet) : Prop where
  settlement : ∀ config, w.exec.ownSettlementLock = some config → config.settlement = A.settlement
  coherent : w.exec.Coherent
  known : ∀ c ∈ w.locks, w.exec.ownContractId = some c

section Locks

variable {cr : Crypto} {A B : Deployment} {w w' : Wallet} {call : Call} {id : Bytes32}

theorem isLock_of_lockId (h : w.lockId cr A call = some id) : IsLock call := by
  cases call with
  | newSwap | settleLeg => trivial
  | redeem | refund | authorizeLeg | refundLeg | transfer | approve | transferFrom => cases h

theorem Wallet.Known.reclaimable (hw : w.Known A) : w.Reclaimable := by
  intro c hc _
  have hid := hw.known c hc
  have hlocked : w.exec.state.HasLocked := hw.coherent.locked.mp (by rw [hid]; rfl)
  refine ⟨hid, ?_, ?_, ?_⟩
  · rintro hstate
    simp [hstate, Swapkit.SwapState.HasLocked] at hlocked
  · rintro hstate
    simp [hstate, Swapkit.SwapState.HasLocked] at hlocked
  · rintro reason hstate
    simp [hstate, Swapkit.SwapState.HasLocked] at hlocked

theorem Wallet.Known.stepped (hw : w.Known A) (io : StepAnswers) (own counterparty : State) :
    (w.stepped cr io own counterparty).Known A := by
  have hadvances : w.exec.Advances (w.exec.step cr io) := hw.coherent.step io
  refine ⟨?_, hadvances.coherent, ?_⟩
  · intro config hconfig
    exact hw.settlement config
      ((recorded_step cr hw.settlement io).ownSettlementLock.symm.trans hconfig)
  · intro c hc
    have hid := hw.known c hc
    exact (hadvances.ownContractId (by rw [hid]; rfl)).trans hid

/-- A lock with a receipt is known. -/
theorem Wallet.Known.confirmed (hw : w.Known A) (io : StepAnswers)
    (hcall : ownCall (w.exec.step cr io) = some call) (hid : w.lockId cr A call = some id)
    {r : Receipt} (hreceipt : io.tx.call.receipt = .ok r) :
    (w.exec.step cr io).exec.ownContractId = some id := by
  have hrecorded := recorded_step cr hw.settlement io
  unfold ownCall at hcall
  split at hcall
  · rename_i sending htx
    obtain ⟨hsent, hstored⟩ := hrecorded.lock sending htx
    obtain ⟨id', hid', hreturned⟩ := hsent.sent call hcall
    obtain ⟨locked, hresult, hlocked⟩ := hreturned r hreceipt
    obtain rfl := Option.some.inj (hid.symm.trans hid')
    rw [hstored locked hresult, hlocked]
  · rename_i sending htx
    -- A refund locks nothing.
    obtain ⟨c, -, rfl | rfl⟩ := hrecorded.refund sending htx <;> (cases hcall; cases hid)
  · cases hcall

/-- **Step rule.** -/
theorem Wallet.Known.step (hw : w.Known A) {event : Event} (h : w.Step cr A B event w')
    (hevent : event.NotLost) : w'.Known A := by
  cases h with
  | others => exact ⟨hw.settlement, hw.coherent, hw.known⟩
  | minedLate => exact hevent.elim
  | quiet io => exact hw.stepped io _ _
  | sendsCounterparty io => exact hw.stepped io _ _
  -- Only a lock call changes what is to be known.
  | @sendsOwn own counterparty io call fate hcall hsent hcounterparty =>
    have hstepped : (w.stepped cr io own counterparty).Known A := hw.stepped io own counterparty
    unfold Wallet.settled
    have hsame : (w.stepped cr io own counterparty).lockId cr A call = w.lockId cr A call := by
      show call.lockId cr A (w.exec.step cr io).exec.ownSigner = _
      rw [(recorded_step cr hw.settlement io).ownSigner]
      rfl
    rw [hsame]
    cases hid : w.lockId cr A call with
    | none => exact hstepped
    | some id =>
      cases hsent with
      | confirmed now hreceipt =>
        refine ⟨hstepped.settlement, hstepped.coherent, ?_⟩
        intro c hc
        rcases List.mem_cons.mp hc with rfl | hold
        · exact hw.confirmed io hcall hid hreceipt
        · exact hstepped.known c hold
      | reverted => exact hstepped
      -- The only way to lose a lock: it is mined, and its receipt is not obtained.
      | unseen => exact absurd rfl (hevent (isLock_of_lockId hid))
      | dropped => exact ⟨hstepped.settlement, hstepped.coherent, hstepped.known⟩

/-- Run rule. -/
theorem Wallet.Known.run (hw : w.Known A) (h : w.Run cr A B Event.NotLost w') : w'.Known A :=
  h.invariant (fun _ _ _ hknown hstep hevent => hknown.step hstep hevent) hw

/-- **No lock is lost**, in any run in which no lock is mined without its receipt
    being obtained; transactions fail and are sent again in any way. -/
theorem locks_never_lost (hw : w.New A B) (hstarted : w.exec.Started cr)
    (hrun : w.Run cr A B Event.NotLost w') : w'.Reclaimable := by
  have hknown : w.Known A := by
    refine ⟨hw.settlement, hstarted.coherent, fun c hc => ?_⟩
    rw [hw.locks] at hc
    cases hc
  exact (hknown.run hrun).reclaimable

end Locks

/-! ### One lock, with and without its receipt

`maker` locks 5 wei for `bob`, as a taker that has its secret. -/

namespace Sample

open Exchange.Sample (maker bob crypto deployment ledger ethLock ethLockId)
open Swapkit (RefreshAnswers SendAnswers)

def taker : Executor := { Swapkit.Sample.taker with
  ctx := { Swapkit.Sample.taker.ctx with
    myTimelock := 1000
    myRecipient := bob
    hashlock := some HashedTimelock.Sample.hashlock
    secret := some HashedTimelock.Sample.preimage }
  ownSigner := maker
  counterpartySigner := maker
  ownHtlc := deployment.htlc
  counterpartyHtlc := deployment.htlc }

/-- Both chains are fresh. -/
def wallet : Wallet := ⟨taker, State.fresh ledger, State.fresh ledger, [], [], none⟩

theorem wallet_new : wallet.New deployment deployment where
  ownHtlc := rfl
  settlement := nofun
  counterpartyHtlc := rfl
  ownSigner := by decide
  counterpartySigner := by decide
  ownFrames := rfl
  counterpartyFrames := rfl
  ownContractId := rfl
  pending := rfl
  locks := rfl
  redeemed := rfl

theorem taker_started : taker.Started crypto :=
  ⟨rfl, .inl ⟨rfl, .inr rfl, HashedTimelock.Sample.preimage, rfl, by decide +kernel⟩⟩

/-- A step at time 10, with the answer to its transaction. -/
def answered (call : SendAnswers) : StepAnswers :=
  ⟨Swapkit.Sample.noLogs 10, Swapkit.Sample.noLogs 11, { Swapkit.Sample.mined with call := call }, 0⟩

def receiptOf (status : Bool) : SendAnswers := ⟨.ok (), .ok ⟨2, status⟩⟩

def timeout : SendAnswers := ⟨.ok (), .error "timeout"⟩

/-- The endpoints at time `now`, when the lock has been mined. -/
def lockShown (now : U64) : RefreshAnswers := { Swapkit.Sample.noLogs now with
  ownPoll := ⟨.ok 4, fun _ _ => .ok [some (Exchange.lockEvent maker ethLock ethLockId)]⟩ }

/-- The lock is shown, and the node refuses a call that would revert. -/
def refused : StepAnswers := ⟨lockShown 20, lockShown 21, { Swapkit.Sample.mined with
  call := ⟨.error "execution reverted", .error "not sent"⟩ }, 0⟩

theorem lock_mined : ∃ s, Mined crypto deployment 11 maker (.newSwap 5 ethLock)
    (State.fresh ledger) s ∧ s.htlc.swaps ethLockId = ethLock.record maker := by
  obtain ⟨s, hlock, htest⟩ := Exchange.doneAnd_iff.mp (show Exchange.doneAnd
    (fun s => decide (s.htlc.swaps ethLockId = ethLock.record maker))
    (Exchange.invoke crypto deployment 11 maker (.newSwap 5 ethLock) (State.fresh ledger)) = true by
      decide +kernel)
  exact ⟨s, .inl hlock, of_decide_eq_true htest⟩

/-- The first step, if it sends the lock. -/
theorem lock_step {io : StepAnswers} {s : State} {fate : Fate}
    (hcall : ownCall (taker.step crypto io) = some (.newSwap 5 ethLock))
    (hsent : Sent crypto deployment maker (.newSwap 5 ethLock) io.tx.call.receipt fate
      (State.fresh ledger) s) :
    wallet.Step crypto deployment deployment (.sends io (.newSwap 5 ethLock) fate)
      ((wallet.stepped crypto io s (State.fresh ledger)).settled crypto deployment
        (.newSwap 5 ethLock) fate) :=
  .sendsOwn io hcall hsent .refl

/-- The first step sends the lock and takes the receipt for it, whatever its status. -/
theorem lock_sent (status : Bool) :
    ownCall (taker.step crypto (answered (receiptOf status))) = some (.newSwap 5 ethLock) ∧
    (taker.step crypto (answered (receiptOf status))).exec.ownContractId = some ethLockId ∧
    (taker.step crypto (answered (receiptOf status))).exec.ownSigner = maker := by
  revert status
  decide +kernel

theorem lock_id : HashedTimelock.computeContractId crypto maker ethLock = ethLockId := by
  decide +kernel

/-- The executor after a lock without a receipt. -/
def retrying : Executor := (taker.step crypto (answered timeout)).exec

theorem lock_timeout : ownCall (taker.step crypto (answered timeout)) =
    some (.newSwap 5 ethLock) ∧ retrying.ownSigner = maker := by decide +kernel

/-- Though it now observes its lock, it sends it again, and learns no id when that
    is refused. -/
theorem lock_retried : ownCall (retrying.step crypto refused) = some (.newSwap 5 ethLock) ∧
    (retrying.step crypto refused).exec.state = .secretGenerated ∧
    (retrying.step crypto refused).exec.ownContractId = none ∧
    (retrying.step crypto refused).exec.ownObserver.discoverContractId
      HashedTimelock.Sample.hashlock = some ethLockId := by decide +kernel

/-- The next step, if its lock is refused. -/
theorem retry_step {w : Wallet} (hexec : w.exec = retrying) :
    w.Step crypto deployment deployment (.sends refused (.newSwap 5 ethLock) .dropped)
      ((w.stepped crypto refused w.own w.counterparty).settled crypto deployment
        (.newSwap 5 ethLock) .dropped) := by
  have hcall : ownCall (w.exec.step crypto refused) =
      some (.newSwap 5 ethLock) := by
    rw [hexec]
    exact lock_retried.1
  exact .sendsOwn _ hcall (.dropped rfl .refl) .refl

end Sample

/-- The lock is mined and its receipt obtained: the executor knows its record. -/
theorem records_never_ahead_after_receipt :
    ∃ w, Sample.wallet.Run Exchange.Sample.crypto Exchange.Sample.deployment
        Exchange.Sample.deployment Event.NotReverted w ∧
      w.exec.ownContractId = some Exchange.Sample.ethLockId ∧ w.NotAhead := by
  obtain ⟨s, hmined, -⟩ := Sample.lock_mined
  have hstep := Sample.lock_step (Sample.lock_sent true).1 (.confirmed 11 rfl rfl .refl hmined .refl)
  have hrun : Sample.wallet.Run Exchange.Sample.crypto Exchange.Sample.deployment
      Exchange.Sample.deployment Event.NotReverted _ := .single ⟨_, hstep, nofun⟩
  exact ⟨_, hrun, (Sample.lock_sent true).2.1,
    records_never_ahead Sample.wallet_new ⟨nofun, nofun⟩ hrun⟩

/-- The lock is mined and fails: the executor takes the receipt for a lock that
    is not there. -/
theorem reverted_lock_recorded :
    ∃ w, Sample.wallet.Run Exchange.Sample.crypto Exchange.Sample.deployment
        Exchange.Sample.deployment (fun _ => True) w ∧
      w.exec.ownContractId = some Exchange.Sample.ethLockId ∧
      ¬w.own.HasRecord Exchange.Sample.ethLockId ∧ ¬w.NotAhead := by
  have hstep := Sample.lock_step (Sample.lock_sent false).1 (.reverted rfl rfl .refl)
  have hrun : Sample.wallet.Run Exchange.Sample.crypto Exchange.Sample.deployment
      Exchange.Sample.deployment (fun _ => True) _ := .single ⟨_, hstep, trivial⟩
  have hid : (Sample.taker.step Exchange.Sample.crypto
      (Sample.answered (Sample.receiptOf false))).exec.ownContractId =
      some Exchange.Sample.ethLockId := (Sample.lock_sent false).2.1
  refine ⟨_, hrun, hid, fun hrecord => hrecord rfl, fun hnot => ?_⟩
  exact hnot.locked Exchange.Sample.ethLockId hid rfl

/-- The lock is mined and its receipt obtained: the executor can reclaim it. -/
theorem locks_never_lost_after_receipt :
    ∃ w, Sample.wallet.Run Exchange.Sample.crypto Exchange.Sample.deployment
        Exchange.Sample.deployment Event.NotLost w ∧
      w.locks = [Exchange.Sample.ethLockId] ∧
      (w.own.htlc.swaps Exchange.Sample.ethLockId).Active ∧ w.Reclaimable := by
  obtain ⟨s, hmined, hrecord⟩ := Sample.lock_mined
  have hstep := Sample.lock_step (Sample.lock_sent true).1 (.confirmed 11 rfl rfl .refl hmined .refl)
  have hrun : Sample.wallet.Run Exchange.Sample.crypto Exchange.Sample.deployment
      Exchange.Sample.deployment Event.NotLost _ := .single ⟨_, hstep, nofun⟩
  refine ⟨_, hrun, ?_, ?_, locks_never_lost Sample.wallet_new Sample.taker_started hrun⟩
  · show [HashedTimelock.computeContractId Exchange.Sample.crypto (Sample.taker.step
      Exchange.Sample.crypto (Sample.answered (Sample.receiptOf true))).exec.ownSigner
      Exchange.Sample.ethLock] = _
    rw [(Sample.lock_sent true).2.2, Sample.lock_id]
  · show (s.htlc.swaps Exchange.Sample.ethLockId).Active
    rw [hrecord]
    decide +kernel

/-- The lock is mined but its receipt times out; the next step observes both
    chains and the lock, and locks again, which is refused because the record
    exists. -/
theorem unseen_lock_lost :
    ∃ w, Sample.wallet.Run Exchange.Sample.crypto Exchange.Sample.deployment
        Exchange.Sample.deployment (fun _ => True) w ∧
      w.locks = [Exchange.Sample.ethLockId] ∧
      (w.own.htlc.swaps Exchange.Sample.ethLockId).Active ∧
      w.exec.ownObserver.discoverContractId HashedTimelock.Sample.hashlock =
        some Exchange.Sample.ethLockId ∧
      w.exec.state = .secretGenerated ∧ w.exec.ownContractId = none ∧ ¬w.Reclaimable := by
  obtain ⟨s, hmined, hrecord⟩ := Sample.lock_mined
  have hfirst := Sample.lock_step Sample.lock_timeout.1 (.unseen 11 rfl .refl hmined .refl)
  have hrun : Sample.wallet.Run Exchange.Sample.crypto Exchange.Sample.deployment
      Exchange.Sample.deployment (fun _ => True) _ :=
    .tail (.single ⟨_, hfirst, trivial⟩) ⟨_, Sample.retry_step rfl, trivial⟩
  obtain ⟨-, hstate, hid, hseen⟩ := Sample.lock_retried
  have hlocks : [HashedTimelock.computeContractId Exchange.Sample.crypto
      Sample.retrying.ownSigner Exchange.Sample.ethLock] = [Exchange.Sample.ethLockId] := by
    rw [Sample.lock_timeout.2, Sample.lock_id]
  have hactive : (s.htlc.swaps Exchange.Sample.ethLockId).Active := by
    rw [hrecord]
    decide +kernel
  refine ⟨_, hrun, hlocks, hactive, hseen, hstate, hid, fun hreclaimable => ?_⟩
  -- The record is there, active and observed, but the executor has no id to refund it with.
  have hmem : Exchange.Sample.ethLockId ∈ [HashedTimelock.computeContractId
      Exchange.Sample.crypto Sample.retrying.ownSigner Exchange.Sample.ethLock] := by
    rw [hlocks]
    exact List.mem_singleton.mpr rfl
  have hknown := (hreclaimable Exchange.Sample.ethLockId hmem hactive).1
  cases hid.symm.trans hknown

end Kael.CrossChain
