import Kael.Contracts.Evm
import Kael.Lib.Escrow

/-!
# The HashedTimelock Contract

The storage of `HashedTimelock.sol` and its three entry points. Each entry
point is cut at its external call: the checks made before it and the writes
made around it are functions of the storage alone, and a model of the chain
says what the external call does in between.

A record is an escrow ticket (`Swap.stage`): vacant while `sender` is zero,
then held, and claimed by `redeem` or reclaimed by `refund`.
-/

namespace Kael.HashedTimelock

/-! ## Storage and events -/

structure Swap where
  /-- Locker; can refund after the deadline. -/
  sender : Address
  /-- Can redeem with the preimage. -/
  recipient : Address
  /-- Zero for native ETH. -/
  token : Address
  amount : Uint256
  hashlock : Bytes32
  timelock : Uint256
  withdrawn : Bool
  refunded : Bool
deriving DecidableEq

/-- The value of an unwritten `mapping` slot. -/
def Swap.empty : Swap := ⟨zeroAddress, zeroAddress, zeroAddress, 0, 0, 0, false, false⟩

inductive Event where
  | logNewSwap (contractId : Bytes32) (sender recipient token : Address) (amount : Uint256)
      (hashlock : Bytes32) (timelock : Uint256)
  | logRedeem (contractId preimage : Bytes32)
  | logRefund (contractId : Bytes32)
deriving DecidableEq

inductive Error where
  | zeroAmount
  | zeroHashlock
  | timelockInPast
  | swapAlreadyExists
  | swapNotFound
  | alreadyWithdrawn
  | alreadyRefunded
  | invalidPreimage
  | timelockNotExpired
  | timelockExpired
  | notSender
  | ethValueMismatch
  | ethNotAllowedForToken
  | invalidToken
  | tokenTransferFailed
deriving DecidableEq

/-- The contract's mapping and the events it has emitted, oldest first. -/
structure Storage where
  swaps : Bytes32 → Swap
  logs : List Event

/-- A freshly deployed contract. -/
def Storage.empty : Storage := ⟨fun _ => Swap.empty, []⟩

/-- The arguments of `newSwap`. -/
structure NewSwap where
  recipient : Address
  token : Address
  amount : Uint256
  hashlock : Bytes32
  timelock : Uint256
deriving DecidableEq

/-- The record `newSwap` writes for `sender`. -/
def NewSwap.record (a : NewSwap) (sender : Address) : Swap :=
  ⟨sender, a.recipient, a.token, a.amount, a.hashlock, a.timelock, false, false⟩

/-! ## newSwap -/

/-- `keccak256(abi.encode(sender, recipient, token, amount, hashlock, timelock))`. -/
def computeContractId (cr : Crypto) (sender : Address) (a : NewSwap) : Bytes32 :=
  cr.keccak256 (abiEncode
    [addressWord sender, addressWord a.recipient, addressWord a.token, a.amount, a.hashlock,
      a.timelock])

/-- `newSwap` up to its token call. -/
def newSwapChecks (cr : Crypto) (hasCode : Address → Bool) (now : Uint256) (st : Storage)
    (msg : Msg) (a : NewSwap) : Except Error Bytes32 :=
  if a.amount = 0#256 then .error .zeroAmount
  else if a.hashlock = 0#256 then .error .zeroHashlock
  else if a.timelock ≤ now then .error .timelockInPast
  else
    let contractId := computeContractId cr msg.sender a
    if (st.swaps contractId).sender ≠ zeroAddress then .error .swapAlreadyExists
    else if a.token = zeroAddress then
      if msg.value ≠ a.amount then .error .ethValueMismatch else .ok contractId
    else if msg.value ≠ 0#256 then .error .ethNotAllowedForToken
    else if hasCode a.token = false then .error .invalidToken
    else .ok contractId

/-- `newSwap` after its token call: the record is written whatever the slot
    holds by then. -/
def Storage.writeSwap (st : Storage) (sender : Address) (a : NewSwap) (contractId : Bytes32) :
    Storage where
  swaps := Function.update st.swaps contractId (a.record sender)
  logs := st.logs ++
    [.logNewSwap contractId sender a.recipient a.token a.amount a.hashlock a.timelock]

/-! ## redeem and refund -/

/-- The checks of `redeem`. -/
def redeemChecks (cr : Crypto) (now : Uint256) (st : Storage) (contractId preimage : Bytes32) :
    Except Error Unit :=
  let s := st.swaps contractId
  if s.sender = zeroAddress then .error .swapNotFound
  else if s.withdrawn then .error .alreadyWithdrawn
  else if s.refunded then .error .alreadyRefunded
  else if s.timelock ≤ now then .error .timelockExpired
  else if cr.hashlockOf preimage ≠ s.hashlock then .error .invalidPreimage
  else .ok ()

/-- `s.withdrawn = true`. -/
def Storage.setWithdrawn (st : Storage) (contractId : Bytes32) : Storage :=
  { st with
    swaps := Function.update st.swaps contractId { st.swaps contractId with withdrawn := true } }

/-- The checks of `refund`. -/
def refundChecks (now : Uint256) (st : Storage) (sender : Address) (contractId : Bytes32) :
    Except Error Unit :=
  let s := st.swaps contractId
  if s.sender = zeroAddress then .error .swapNotFound
  else if s.withdrawn then .error .alreadyWithdrawn
  else if s.refunded then .error .alreadyRefunded
  else if now < s.timelock then .error .timelockNotExpired
  else if sender ≠ s.sender then .error .notSender
  else .ok ()

/-- `s.refunded = true`. -/
def Storage.setRefunded (st : Storage) (contractId : Bytes32) : Storage :=
  { st with
    swaps := Function.update st.swaps contractId { st.swaps contractId with refunded := true } }

/-- `emit e`. -/
def Storage.emit (st : Storage) (e : Event) : Storage := { st with logs := st.logs ++ [e] }

/-- The arguments of `_payout`. -/
structure Payout where
  token : Address
  dest : Address
  amount : Uint256
deriving DecidableEq

/-- `_payout(s.token, s.recipient, s.amount)`, the payment of `redeem`. -/
def Swap.redeemPayout (s : Swap) : Payout := ⟨s.token, s.recipient, s.amount⟩

/-- `_payout(s.token, s.sender, s.amount)`, the payment of `refund`. -/
def Swap.refundPayout (s : Swap) : Payout := ⟨s.token, s.sender, s.amount⟩

/-! ## Records as escrow tickets -/

/-- The record exists. -/
def Swap.Exists (s : Swap) : Prop := s.sender ≠ zeroAddress

/-- The record is neither withdrawn nor refunded. -/
def Swap.Active (s : Swap) : Prop := s.Exists ∧ s.withdrawn = false ∧ s.refunded = false

instance (s : Swap) : Decidable s.Exists := inferInstanceAs (Decidable (_ ≠ _))

instance (s : Swap) : Decidable s.Active := inferInstanceAs (Decidable (_ ∧ _ ∧ _))

/-- The six defining fields. -/
structure Terms where
  sender : Address
  recipient : Address
  token : Address
  amount : Uint256
  hashlock : Bytes32
  timelock : Uint256
deriving DecidableEq

def Swap.terms (s : Swap) : Terms :=
  ⟨s.sender, s.recipient, s.token, s.amount, s.hashlock, s.timelock⟩

/-- The escrow ticket a record stands for. -/
def Swap.stage (s : Swap) : Escrow.Stage Terms :=
  if s.sender = zeroAddress then .vacant
  else if s.withdrawn then .claimed s.terms
  else if s.refunded then .reclaimed s.terms
  else .held s.terms

/-- What a record still owes in `token`. -/
def Swap.owed (token : Address) (s : Swap) : Nat :=
  if s.Active ∧ s.token = token then s.amount.toNat else 0

/-- The sum of `amount` over all records of `token` that are neither withdrawn
    nor refunded. -/
noncomputable def Storage.activeTotal (st : Storage) (token : Address) : Nat :=
  Totals.total (Swap.owed token) st.swaps

/-! ## What the checks establish -/

section Checks

variable {cr : Crypto} {hasCode : Address → Bool} {now : Uint256} {st : Storage}

theorem newSwapChecks_ok {msg : Msg} {a : NewSwap} {contractId : Bytes32} :
    newSwapChecks cr hasCode now st msg a = .ok contractId ↔
      a.amount ≠ 0#256 ∧ a.hashlock ≠ 0#256 ∧ now < a.timelock ∧
      contractId = computeContractId cr msg.sender a ∧ ¬(st.swaps contractId).Exists ∧
      (a.token = zeroAddress ∧ msg.value = a.amount ∨
        a.token ≠ zeroAddress ∧ msg.value = 0#256 ∧ hasCode a.token = true) := by
  constructor
  · intro h
    unfold newSwapChecks at h
    dsimp only at h
    -- The order of the checks is the order of the source.
    split_ifs at h with hamount hhashlock htimelock hexists htoken hvalue hvalue hcode
    all_goals cases h
    · exact ⟨hamount, hhashlock, BitVec.not_le.mp htimelock, rfl, hexists,
        .inl ⟨htoken, not_not.mp hvalue⟩⟩
    · exact ⟨hamount, hhashlock, BitVec.not_le.mp htimelock, rfl, hexists,
        .inr ⟨htoken, not_not.mp hvalue, Bool.not_eq_false _ ▸ hcode⟩⟩
  · rintro ⟨hamount, hhashlock, htimelock, rfl, habsent, hpay⟩
    unfold newSwapChecks
    dsimp only
    rw [if_neg hamount, if_neg hhashlock, if_neg (BitVec.not_le.mpr htimelock),
      if_neg (show ¬_ ≠ zeroAddress from habsent)]
    rcases hpay with ⟨htoken, hvalue⟩ | ⟨htoken, hvalue, hcode⟩
    · rw [if_pos htoken, if_neg (not_not.mpr hvalue)]
    · rw [if_neg htoken, if_neg (not_not.mpr hvalue), if_neg (by simp [hcode])]

theorem redeemChecks_ok {contractId preimage : Bytes32} :
    redeemChecks cr now st contractId preimage = .ok () ↔
      (st.swaps contractId).Active ∧ now < (st.swaps contractId).timelock ∧
      cr.hashlockOf preimage = (st.swaps contractId).hashlock := by
  unfold redeemChecks Swap.Active Swap.Exists
  dsimp only
  split_ifs with hsender hwithdrawn hrefunded htimelock hpreimage
  · simp [hsender]
  · simp [hwithdrawn]
  · simp [hrefunded]
  · simp [BitVec.not_lt.mpr htimelock]
  · simp [hpreimage]
  · simp_all

theorem refundChecks_ok {sender : Address} {contractId : Bytes32} :
    refundChecks now st sender contractId = .ok () ↔
      (st.swaps contractId).Active ∧ (st.swaps contractId).timelock ≤ now ∧
      sender = (st.swaps contractId).sender := by
  unfold refundChecks Swap.Active Swap.Exists
  dsimp only
  split_ifs with hsender hwithdrawn hrefunded htimelock hnotSender
  · simp [hsender]
  · simp [hwithdrawn]
  · simp [hrefunded]
  · simp [BitVec.not_le.mpr htimelock]
  · simp [hnotSender]
  · simp_all

end Checks

/-! ## Reading the storage after a write -/

@[simp] theorem Swap.not_exists_empty : ¬Swap.empty.Exists := by simp [Swap.Exists, Swap.empty]

@[simp] theorem NewSwap.record_exists {a : NewSwap} {sender : Address} :
    (a.record sender).Exists ↔ sender ≠ zeroAddress := Iff.rfl

@[simp] theorem NewSwap.record_active {a : NewSwap} {sender : Address} :
    (a.record sender).Active ↔ sender ≠ zeroAddress := by
  simp [Swap.Active, NewSwap.record, Swap.Exists]

@[simp] theorem Storage.emit_swaps (st : Storage) (e : Event) : (st.emit e).swaps = st.swaps := rfl

@[simp] theorem Storage.emit_logs (st : Storage) (e : Event) :
    (st.emit e).logs = st.logs ++ [e] := rfl

@[simp] theorem Storage.setWithdrawn_logs (st : Storage) (contractId : Bytes32) :
    (st.setWithdrawn contractId).logs = st.logs := rfl

@[simp] theorem Storage.setRefunded_logs (st : Storage) (contractId : Bytes32) :
    (st.setRefunded contractId).logs = st.logs := rfl

theorem Storage.writeSwap_swaps (st : Storage) (sender : Address) (a : NewSwap)
    (contractId c : Bytes32) :
    (st.writeSwap sender a contractId).swaps c =
      if c = contractId then a.record sender else st.swaps c := by
  simp [Storage.writeSwap, Function.update_apply]

theorem Storage.setWithdrawn_swaps (st : Storage) (contractId c : Bytes32) :
    (st.setWithdrawn contractId).swaps c =
      if c = contractId then { st.swaps c with withdrawn := true } else st.swaps c := by
  by_cases h : c = contractId
  · subst h; simp [Storage.setWithdrawn]
  · simp [Storage.setWithdrawn, h]

theorem Storage.setRefunded_swaps (st : Storage) (contractId c : Bytes32) :
    (st.setRefunded contractId).swaps c =
      if c = contractId then { st.swaps c with refunded := true } else st.swaps c := by
  by_cases h : c = contractId
  · subst h; simp [Storage.setRefunded]
  · simp [Storage.setRefunded, h]

/-! ## The escrow order on storages -/

@[simp] theorem Swap.stage_vacant {s : Swap} : s.stage = .vacant ↔ ¬s.Exists := by
  unfold Swap.stage Swap.Exists
  split_ifs <;> simp_all

theorem Swap.stage_of_active {s : Swap} (h : s.Active) : s.stage = .held s.terms := by
  obtain ⟨hexists, hwithdrawn, hrefunded⟩ := h
  have hsender : s.sender ≠ zeroAddress := hexists
  simp [Swap.stage, hsender, hwithdrawn, hrefunded]

theorem Swap.stage_held {s : Swap} {t : Terms} : s.stage = .held t ↔ s.Active ∧ s.terms = t := by
  unfold Swap.stage Swap.Active Swap.Exists
  split_ifs <;> simp_all

theorem Swap.stage_claimed {s : Swap} {t : Terms} :
    s.stage = .claimed t ↔ s.Exists ∧ s.withdrawn = true ∧ s.terms = t := by
  unfold Swap.stage Swap.Exists
  split_ifs <;> simp_all

theorem Swap.stage_reclaimed {s : Swap} {t : Terms} :
    s.stage = .reclaimed t ↔
      s.Exists ∧ s.withdrawn = false ∧ s.refunded = true ∧ s.terms = t := by
  unfold Swap.stage Swap.Exists
  split_ifs <;> simp_all

/-- Every ticket of `st'` is as far as in `st` or further. -/
def Storage.Extends (st st' : Storage) : Prop :=
  ∀ c, (st.swaps c).stage ≤ (st'.swaps c).stage

theorem Storage.Extends.refl (st : Storage) : st.Extends st := fun _ => le_rfl

theorem Storage.Extends.trans {st₁ st₂ st₃ : Storage} (h₁₂ : st₁.Extends st₂)
    (h₂₃ : st₂.Extends st₃) : st₁.Extends st₃ :=
  fun c => le_trans (h₁₂ c) (h₂₃ c)

/-- Storages with the same records extend each other. -/
theorem Storage.Extends.of_swaps_eq {st st' : Storage} (h : st'.swaps = st.swaps) :
    st.Extends st' := fun c => by rw [h]

/-- `newSwap` opens a ticket if its slot is still vacant. -/
theorem Storage.Extends.writeSwap {st : Storage} {sender : Address} {a : NewSwap}
    {contractId : Bytes32} (hvacant : ¬(st.swaps contractId).Exists) :
    st.Extends (st.writeSwap sender a contractId) := by
  intro c
  rw [Storage.writeSwap_swaps]
  split_ifs with hc
  · subst hc
    rw [Swap.stage_vacant.mpr hvacant]
    trivial
  · exact le_rfl

/-- `redeem` claims a held ticket. -/
theorem Storage.Extends.setWithdrawn {st : Storage} {contractId : Bytes32}
    (hactive : (st.swaps contractId).Active) : st.Extends (st.setWithdrawn contractId) := by
  intro c
  rw [Storage.setWithdrawn_swaps]
  split_ifs with hc
  · subst hc
    rw [Swap.stage_of_active hactive]
    have hsender : (st.swaps c).sender ≠ zeroAddress := hactive.1
    simp [Swap.stage, hsender, Swap.terms, Escrow.Stage.held_le]
  · exact le_rfl

/-- `refund` reclaims a held ticket. -/
theorem Storage.Extends.setRefunded {st : Storage} {contractId : Bytes32}
    (hactive : (st.swaps contractId).Active) : st.Extends (st.setRefunded contractId) := by
  intro c
  rw [Storage.setRefunded_swaps]
  split_ifs with hc
  · subst hc
    rw [Swap.stage_of_active hactive]
    have hsender : (st.swaps c).sender ≠ zeroAddress := hactive.1
    simp [Swap.stage, hsender, hactive.2.1, Swap.terms, Escrow.Stage.held_le]
  · exact le_rfl

/-- The six defining fields of an existing record are the terms of its ticket. -/
theorem Swap.terms_eq_of_stage_le {s s' : Swap} (h : s.stage ≤ s'.stage) (hs : s.Exists) :
    s'.Exists ∧ s'.terms = s.terms := by
  have hterms : ∀ r : Swap, r.stage.terms = if r.sender = zeroAddress then none else some r.terms := by
    intro r
    unfold Swap.stage
    split_ifs <;> rfl
  have hs0 : s.sender ≠ zeroAddress := hs
  have hle := Escrow.Stage.terms_of_le h (by rw [hterms, if_neg hs0])
  rw [hterms] at hle
  split_ifs at hle with hs'
  exact ⟨hs', by simpa using hle⟩

/-- The payment of `redeem`, from an amount that a wallet counts with. -/
theorem Swap.redeemPayout_eq {s : Swap} {token dest : Address} {amount : U128}
    (htoken : s.token = token) (hrecipient : s.recipient = dest)
    (hamount : s.amount.toNat = amount.toNat) :
    s.redeemPayout = ⟨token, dest, amount.setWidth 256⟩ := by
  have hwide : s.amount = amount.setWidth 256 := by
    apply BitVec.eq_of_toNat_eq
    rw [BitVec.toNat_setWidth_of_le (by omega)]
    exact hamount
  rw [Swap.redeemPayout, htoken, hrecipient, hwide]

/-! ## What a storage owes -/

theorem Swap.owed_of_not_active {s : Swap} (h : ¬s.Active) (token : Address) :
    s.owed token = 0 := by simp [Swap.owed, h]

theorem Swap.owed_of_active {s : Swap} (h : s.Active) (token : Address) :
    s.owed token = if s.token = token then s.amount.toNat else 0 := by simp [Swap.owed, h]

@[simp] theorem Storage.activeTotal_emit (st : Storage) (e : Event) (token : Address) :
    (st.emit e).activeTotal token = st.activeTotal token := rfl

@[simp] theorem Storage.activeTotal_empty (token : Address) :
    Storage.empty.activeTotal token = 0 :=
  Totals.total_eq_zero _ _ fun _ => Swap.owed_of_not_active (fun h => Swap.not_exists_empty h.1) _

/-- Writing a record adds at most its amount. -/
theorem Storage.activeTotal_writeSwap_le (st : Storage) (sender : Address) (a : NewSwap)
    (contractId : Bytes32) (token : Address) :
    (st.writeSwap sender a contractId).activeTotal token ≤
      st.activeTotal token + if a.token = token then a.amount.toNat else 0 := by
  have hupdate := Totals.total_update (Swap.owed token) st.swaps contractId (a.record sender)
  have hle : (a.record sender).owed token ≤ if a.token = token then a.amount.toNat else 0 := by
    unfold Swap.owed NewSwap.record
    split_ifs <;> simp_all
  simp only [Storage.activeTotal, Storage.writeSwap] at hupdate ⊢
  omega

/-- Settling an active record takes its amount off the total. -/
theorem Storage.activeTotal_setWithdrawn {st : Storage} {contractId : Bytes32}
    (hactive : (st.swaps contractId).Active) (token : Address) :
    (st.setWithdrawn contractId).activeTotal token +
      (if (st.swaps contractId).token = token then (st.swaps contractId).amount.toNat else 0) =
      st.activeTotal token := by
  have hupdate := Totals.total_update (Swap.owed token) st.swaps contractId
    { st.swaps contractId with withdrawn := true }
  rw [Swap.owed_of_not_active (s := { st.swaps contractId with withdrawn := true })
    (by simp [Swap.Active]), Swap.owed_of_active hactive, Nat.add_zero] at hupdate
  exact hupdate

theorem Storage.activeTotal_setRefunded {st : Storage} {contractId : Bytes32}
    (hactive : (st.swaps contractId).Active) (token : Address) :
    (st.setRefunded contractId).activeTotal token +
      (if (st.swaps contractId).token = token then (st.swaps contractId).amount.toNat else 0) =
      st.activeTotal token := by
  have hupdate := Totals.total_update (Swap.owed token) st.swaps contractId
    { st.swaps contractId with refunded := true }
  rw [Swap.owed_of_not_active (s := { st.swaps contractId with refunded := true })
    (by simp [Swap.Active]), Swap.owed_of_active hactive, Nat.add_zero] at hupdate
  exact hupdate

/-- An active record's amount is part of the total. -/
theorem Storage.amount_le_activeTotal {st : Storage} {contractId : Bytes32}
    (hactive : (st.swaps contractId).Active) :
    (st.swaps contractId).amount.toNat ≤ st.activeTotal (st.swaps contractId).token := by
  have hle := Totals.le_total (Swap.owed (st.swaps contractId).token) st.swaps contractId
  rw [Swap.owed_of_active hactive, if_pos rfl] at hle
  exact hle

end Kael.HashedTimelock
