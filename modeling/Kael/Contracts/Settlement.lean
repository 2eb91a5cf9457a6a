import Kael.Contracts.HashedTimelock
import Kael.Contracts.Order

/-!
# The Settlement Contract

The storage of `Settlement.sol`, and the checks and writes of its entry points
between their external calls. Its calls into the canonical `HashedTimelock` and
into tokens are made in the model of the chain.
-/

namespace Kael.Settlement

open OrderLib (Order)

/-! ## Storage and events -/

/-- Refund record keyed by HTLC contract id. -/
structure Leg where
  /-- True fund owner; zero in an unwritten slot. -/
  maker : Address
  /-- Zero for native ETH. -/
  token : Address
  amount : Uint256
  refunded : Bool
deriving DecidableEq

def Leg.empty : Leg := ⟨zeroAddress, zeroAddress, 0, false⟩

inductive Event where
  | legAuthorized (orderHash : Bytes32) (maker : Address) (nonce : Uint256)
  | swapLegSettled (contractId : Bytes32) (maker recipient : Address) (hashlock : Bytes32)
      (timelock : Uint256)
  | legRefunded (contractId : Bytes32) (maker : Address) (amount : Uint256)
deriving DecidableEq

inductive Error where
  | nonceAlreadyUsed
  | wrongChain
  | notOrderMaker
  | ethValueMismatch
  | ethNotAllowedForToken
  | contractIdMismatch
  | unknownLeg
  | alreadyRefunded
  | invalidToken
  | tokenTransferFailed
  | tokenApproveFailed
  | ethTransferFailed
deriving DecidableEq

/-- Why a call reverts: in the order library, in this contract or in the HTLC. -/
inductive Failure where
  | order (e : OrderLib.Error)
  | settlement (e : Error)
  | htlc (e : HashedTimelock.Error)
  /-- The caller does not have the ETH it sends. -/
  | balance
  /-- A call of a token contract fails. -/
  | token
deriving DecidableEq

structure Storage where
  consumedNonce : Address → Uint256 → Bool
  legs : Bytes32 → Leg
  /-- Oldest first. -/
  logs : List Event

def Storage.empty : Storage := ⟨fun _ _ => false, fun _ => Leg.empty, []⟩

/-- `consumedNonce[maker][nonce] = true`. -/
def Storage.consume (st : Storage) (maker : Address) (nonce : Uint256) : Storage :=
  { st with
    consumedNonce := fun m n => if m = maker ∧ n = nonce then true else st.consumedNonce m n }

/-- `emit e`. -/
def Storage.emit (st : Storage) (e : Event) : Storage := { st with logs := st.logs ++ [e] }

/-! ## authorizeLeg -/

/-- Consumes the maker's nonce without locking. The caller is not read, and
    `nowTs` is the caller's. -/
def authorizeLeg (cr : Crypto) (st : Storage) (order : Order) (signature : List Byte)
    (nowTs : Uint256) : Except Failure Storage :=
  match OrderLib.verify cr order signature nowTs with
  | .error e => .error (.order e)
  | .ok orderHash =>
    if st.consumedNonce order.maker order.nonce then .error (.settlement .nonceAlreadyUsed)
    else .ok ((st.consume order.maker order.nonce).emit
      (.legAuthorized orderHash order.maker order.nonce))

/-! ## settleLeg -/

/-- The arguments of `settleLeg`. -/
structure SettleLeg where
  order : Order
  signature : List Byte
  recipient : Address
  hashlock : Bytes32
  timelock : Uint256
deriving DecidableEq

/-- The lock `settleLeg` asks the HTLC for. -/
def SettleLeg.lock (a : SettleLeg) : HashedTimelock.NewSwap :=
  ⟨a.recipient, a.order.sellToken, a.order.sellAmount, a.hashlock, a.timelock⟩

/-- The id `settleLeg` computes for its lock. -/
def SettleLeg.contractId (cr : Crypto) (self : Address) (a : SettleLeg) : Bytes32 :=
  HashedTimelock.computeContractId cr self a.lock

/-- Steps a to c of `settleLeg`, before anything is written. -/
def settleChecks (cr : Crypto) (chainId now : Uint256) (st : Storage) (sender : Address)
    (a : SettleLeg) : Except Failure Unit :=
  match OrderLib.verify cr a.order a.signature now with
  | .error e => .error (.order e)
  | .ok _ =>
    if a.order.sellChainId ≠ chainId then .error (.settlement .wrongChain)
    else if sender ≠ a.order.maker then .error (.settlement .notOrderMaker)
    else if st.consumedNonce a.order.maker a.order.nonce then
      .error (.settlement .nonceAlreadyUsed)
    else .ok ()

/-- Steps c to e: the nonce is consumed and the leg recorded before any
    external call. -/
def Storage.openLeg (st : Storage) (contractId : Bytes32) (a : SettleLeg) : Storage :=
  let st' := st.consume a.order.maker a.order.nonce
  { st' with
    legs := Function.update st'.legs contractId
      ⟨a.order.maker, a.order.sellToken, a.order.sellAmount, false⟩ }

/-- The event of step h. -/
def SettleLeg.settled (a : SettleLeg) (contractId : Bytes32) : Event :=
  .swapLegSettled contractId a.order.maker a.recipient a.hashlock a.timelock

/-! ## refundLeg -/

def refundLegChecks (st : Storage) (contractId : Bytes32) : Except Failure Unit :=
  if (st.legs contractId).maker = zeroAddress then .error (.settlement .unknownLeg)
  else if (st.legs contractId).refunded then .error (.settlement .alreadyRefunded)
  else .ok ()

/-- `leg.refunded = true`. -/
def Storage.setRefunded (st : Storage) (contractId : Bytes32) : Storage :=
  { st with
    legs := Function.update st.legs contractId { st.legs contractId with refunded := true } }

/-- `refundLeg`'s payment to the maker. -/
def Leg.payout (l : Leg) : HashedTimelock.Payout := ⟨l.token, l.maker, l.amount⟩

/-- The event at the end of `refundLeg`. -/
def Leg.refundEvent (l : Leg) (contractId : Bytes32) : Event :=
  .legRefunded contractId l.maker l.amount

/-! ## What the checks establish -/

section Checks

variable {cr : Crypto} {chainId now : Uint256} {st : Storage}

theorem authorizeLeg_ok {order : Order} {signature : List Byte} {nowTs : Uint256} {st' : Storage} :
    authorizeLeg cr st order signature nowTs = .ok st' ↔
      OrderLib.SignedByMaker cr order signature ∧ nowTs ≤ order.validUntil ∧
      st.consumedNonce order.maker order.nonce = false ∧
      st' = (st.consume order.maker order.nonce).emit
        (.legAuthorized (OrderLib.hash cr order) order.maker order.nonce) := by
  unfold authorizeLeg
  split
  · rename_i e hverify
    refine ⟨(nomatch ·), ?_⟩
    rintro ⟨hsigned, htime, -⟩
    exact absurd ⟨hsigned, htime⟩ (OrderLib.not_signed_of_verify hverify)
  · rename_i orderHash hverify
    obtain ⟨hsigned, htime, rfl⟩ := OrderLib.verify_ok.mp hverify
    split_ifs with hnonce
    · simp [hnonce]
    · simp [hsigned, htime, hnonce, eq_comm]

theorem settleChecks_ok {sender : Address} {a : SettleLeg} :
    settleChecks cr chainId now st sender a = .ok () ↔
      OrderLib.SignedByMaker cr a.order a.signature ∧ now ≤ a.order.validUntil ∧
      a.order.sellChainId = chainId ∧ sender = a.order.maker ∧
      st.consumedNonce a.order.maker a.order.nonce = false := by
  unfold settleChecks
  split
  · rename_i e hverify
    refine ⟨(nomatch ·), ?_⟩
    rintro ⟨hsigned, htime, -⟩
    exact absurd ⟨hsigned, htime⟩ (OrderLib.not_signed_of_verify hverify)
  · rename_i orderHash hverify
    obtain ⟨hsigned, htime, -⟩ := OrderLib.verify_ok.mp hverify
    split_ifs with hchain hsender hnonce
    · simp [hchain]
    · simp [hsender]
    · simp [hnonce]
    · simp [hsigned, htime, hnonce, not_not.mp hchain, not_not.mp hsender]

theorem refundLegChecks_ok {contractId : Bytes32} :
    refundLegChecks st contractId = .ok () ↔
      (st.legs contractId).maker ≠ zeroAddress ∧ (st.legs contractId).refunded = false := by
  unfold refundLegChecks
  split_ifs with hmaker hrefunded
  · simp [hmaker]
  · simp [hrefunded]
  · simp [hmaker, hrefunded]

end Checks

/-! ## Reading the storage after a write -/

@[simp] theorem Storage.consume_legs (st : Storage) (maker : Address) (nonce : Uint256) :
    (st.consume maker nonce).legs = st.legs := rfl

@[simp] theorem Storage.emit_legs (st : Storage) (e : Event) : (st.emit e).legs = st.legs := rfl

@[simp] theorem Storage.emit_consumedNonce (st : Storage) (e : Event) :
    (st.emit e).consumedNonce = st.consumedNonce := rfl

@[simp] theorem Storage.setRefunded_consumedNonce (st : Storage) (contractId : Bytes32) :
    (st.setRefunded contractId).consumedNonce = st.consumedNonce := rfl

theorem Storage.consume_consumedNonce (st : Storage) (maker : Address) (nonce : Uint256)
    (m : Address) (n : Uint256) :
    (st.consume maker nonce).consumedNonce m n =
      if m = maker ∧ n = nonce then true else st.consumedNonce m n := rfl

theorem Storage.openLeg_legs (st : Storage) (contractId : Bytes32) (a : SettleLeg) (c : Bytes32) :
    (st.openLeg contractId a).legs c =
      if c = contractId then ⟨a.order.maker, a.order.sellToken, a.order.sellAmount, false⟩
      else st.legs c := by
  simp [Storage.openLeg, Function.update_apply]

theorem Storage.setRefunded_legs (st : Storage) (contractId c : Bytes32) :
    (st.setRefunded contractId).legs c =
      if c = contractId then { st.legs c with refunded := true } else st.legs c := by
  by_cases h : c = contractId
  · subst h; simp [Storage.setRefunded]
  · simp [Storage.setRefunded, h]

end Kael.Settlement
