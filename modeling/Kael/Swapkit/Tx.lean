import Kael.Contracts.Exchange
import Kael.Swapkit.Verify

/-!
# Sending Transactions

`tx.rs`: each function builds the calls it sends and turns the endpoint's
answers into a result. A receipt is proof enough for it: the status of the
mined transaction is not read.
-/

namespace Kael.Swapkit

open Exchange (Call)
open HashedTimelock (NewSwap)

inductive TxError where
  | zeroAmount
  | send (e : String)
deriving DecidableEq

/-- Lock result: `contractId` for observation and refund. -/
structure Locked where
  contractId : Bytes32
  txHash : Bytes32
deriving DecidableEq

/-- The maker's private key is known by what it signs. -/
structure SettlementLockConfig where
  settlement : Address
  /-- `eip712::sign` with `maker_private_key`. -/
  sign : OrderLib.Order → List Byte
  sellChainId : U64
  buyToken : Address
  buyChainId : U64
  buyAmount : U128
  validUntil : U64
  nonce : U64

/-! ## Answers -/

/-- A receipt. -/
structure Receipt where
  transactionHash : Bytes32
  /-- Whether the transaction succeeded; no function of this file reads it. -/
  status : Bool
deriving DecidableEq

/-- What an endpoint answers to a transaction. -/
structure SendAnswers where
  send : Except String Unit
  getReceipt : Except String Receipt

/-- The transaction was accepted and its receipt obtained. -/
def SendAnswers.receipt (io : SendAnswers) : Except TxError Receipt :=
  match io.send with
  | .error e => .error (.send e)
  | .ok _ =>
    match io.getReceipt with
    | .error e => .error (.send e)
    | .ok receipt => .ok receipt

/-- What an endpoint answers to an approval. -/
structure ApproveAnswers where
  approve : SendAnswers
  allowance : Except String Uint256

structure TxAnswers where
  approve : ApproveAnswers
  call : SendAnswers

/-- What a function of this file returns, and the calls it has sent. -/
structure Sending (α : Type) where
  result : Except TxError α
  sent : List Call

/-! ## Calls -/

/-- The arguments of `newSwap`, from the wallet's types. -/
def lockArgs (recipient token : Address) (amount : U128) (hashlock : Bytes32) (timelock : U64) :
    NewSwap :=
  ⟨recipient, token, amount.setWidth 256, hashlock, timelock.setWidth 256⟩

def computeContractId (cr : Crypto) (sender recipient token : Address) (amount : U128)
    (hashlock : Bytes32) (timelock : U64) : Bytes32 :=
  HashedTimelock.computeContractId cr sender (lockArgs recipient token amount hashlock timelock)

/-- The ETH sent along with a lock. -/
def lockValue (token : Address) (amount : U128) : Uint256 :=
  if token = zeroAddress then amount.setWidth 256 else 0

/-- The result of `approve_exact`, which has sent the approval. -/
def approveExact (amount : U128) (io : ApproveAnswers) : Except TxError Unit :=
  match io.approve.receipt with
  | .error e => .error e
  | .ok _ =>
    match io.allowance with
    | .error e => .error (.send e)
    | .ok allowance =>
      if allowance ≠ amount.setWidth 256 then
        let expected := amount.toNat
        let got := allowance.toNat
        .error (.send
          s!"ERC-20 allowance mismatch after approve: expected {expected}, got {got}")
      else .ok ()

/-- Approve `spender` if a token is locked, then send the lock. -/
def sendLock (spender token : Address) (amount : U128) (contractId : Bytes32) (call : Call)
    (io : TxAnswers) : Sending Locked :=
  let finish := io.call.receipt.map fun receipt => Locked.mk contractId receipt.transactionHash
  if token = zeroAddress then ⟨finish, [call]⟩
  else
    let approval := Call.approve token spender amount.toNat
    match approveExact amount io.approve with
    | .error e => ⟨.error e, [approval]⟩
    | .ok _ => ⟨finish, [approval, call]⟩

/-- Lock in the HTLC at `htlc`, as `signer`. -/
def lock (cr : Crypto) (signer htlc recipient token : Address) (amount : U128)
    (hashlock : Bytes32) (timelock : U64) (io : TxAnswers) : Sending Locked :=
  if amount = 0 then ⟨.error .zeroAmount, []⟩
  else
    sendLock htlc token amount (computeContractId cr signer recipient token amount hashlock timelock)
      (.newSwap (lockValue token amount) (lockArgs recipient token amount hashlock timelock)) io

/-- The order of a lock through Settlement. -/
def SettlementLockConfig.order (config : SettlementLockConfig) (signer token : Address)
    (amount : U128) : OrderLib.Order where
  maker := signer
  sellToken := token
  sellChainId := config.sellChainId.setWidth 256
  sellAmount := amount.setWidth 256
  buyToken := config.buyToken
  buyChainId := config.buyChainId.setWidth 256
  buyAmount := config.buyAmount.setWidth 256
  validUntil := config.validUntil.setWidth 256
  nonce := config.nonce.setWidth 256

/-- The arguments of `settleLeg`. -/
def SettlementLockConfig.leg (config : SettlementLockConfig) (signer recipient token : Address)
    (amount : U128) (hashlock : Bytes32) (timelock : U64) : Settlement.SettleLeg :=
  let order := config.order signer token amount
  ⟨order, config.sign order, recipient, hashlock, timelock.setWidth 256⟩

/-- Lock through Settlement, which is the HTLC's sender. -/
def lockViaSettlement (cr : Crypto) (signer : Address) (config : SettlementLockConfig)
    (recipient token : Address) (amount : U128) (hashlock : Bytes32) (timelock : U64)
    (io : TxAnswers) : Sending Locked :=
  if amount = 0 then ⟨.error .zeroAmount, []⟩
  else
    sendLock config.settlement token amount
      (computeContractId cr config.settlement recipient token amount hashlock timelock)
      (.settleLeg (lockValue token amount)
        (config.leg signer recipient token amount hashlock timelock)) io

/-- Send one call; the transaction hash comes from the receipt. -/
def sendCall (call : Call) (io : TxAnswers) : Sending Bytes32 :=
  ⟨io.call.receipt.map Receipt.transactionHash, [call]⟩

/-- Redeem the counterparty's leg by revealing `secret`. -/
def redeem (contractId secret : Bytes32) (io : TxAnswers) : Sending Bytes32 :=
  sendCall (.redeem contractId secret) io

/-- Refund my leg after its timelock. -/
def refund (contractId : Bytes32) (io : TxAnswers) : Sending Bytes32 :=
  sendCall (.refund contractId) io

def refundViaSettlement (contractId : Bytes32) (io : TxAnswers) : Sending Bytes32 :=
  sendCall (.refundLeg contractId) io

/-- A lock sends an approval, its call, or both. -/
theorem mem_sendLock {spender token : Address} {amount : U128} {contractId : Bytes32}
    {call c : Call} {io : TxAnswers} (h : c ∈ (sendLock spender token amount contractId call io).sent) :
    c = .approve token spender amount.toNat ∨ c = call := by
  unfold sendLock at h
  dsimp only at h
  split_ifs at h
  · exact .inr (List.mem_singleton.mp h)
  · cases happrove : approveExact amount io.approve with
    | error e =>
      rw [happrove] at h
      exact .inl (List.mem_singleton.mp h)
    | ok u =>
      rw [happrove] at h
      simpa using h

end Kael.Swapkit
