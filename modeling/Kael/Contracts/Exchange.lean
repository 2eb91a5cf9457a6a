import Kael.Contracts.Settlement
import Kael.Contracts.Reentrancy
import Kael.Lib.Ledger
import Kael.Lib.Histories

/-!
# Both Contracts on One Chain

`Settlement` and its canonical `HashedTimelock` together with the balances and
allowances of every account. An entry point runs until it is done or until it
calls foreign code: an ETH recipient, or a token that is not a standard ERC-20.
It then waits in a frame, and goes on (`resume`) when the foreign code returns;
until then any account may call anything. Standard ERC-20s move exactly the
requested amount and call nobody, so their calls take no frame.
-/

namespace Kael.Exchange

open NestedCalls
open Kael.Settlement (Failure SettleLeg Leg)
open HashedTimelock (NewSwap Payout newSwapChecks redeemChecks refundChecks newSwapChecks_ok)

/-! ## Deployments -/

/-- What one chain fixes. The asset at `zeroAddress` is ETH. -/
structure Deployment where
  /-- The canonical HTLC. -/
  htlc : Address
  /-- `address(this)` of the Settlement. -/
  settlement : Address
  /-- `block.chainid`. -/
  chainId : Uint256
  /-- `token.code.length != 0`. -/
  hasCode : Address → Bool
  /-- The token is a standard ERC-20. -/
  standard : Address → Bool
  /-- The token does not decrease an allowance of `type(uint256).max`. -/
  unlimited : Address → Bool
  htlc_ne_zero : htlc ≠ zeroAddress
  settlement_ne_zero : settlement ≠ zeroAddress
  settlement_ne_htlc : settlement ≠ htlc
  standard_hasCode : ∀ token, standard token = true → hasCode token = true
  standard_ne_zero : ∀ token, standard token = true → token ≠ zeroAddress
  standard_ne_htlc : ∀ token, standard token = true → token ≠ htlc
  standard_ne_settlement : ∀ token, standard token = true → token ≠ settlement

/-- ETH is no token. -/
theorem Deployment.standard_zero (D : Deployment) : D.standard zeroAddress = false := by
  simpa using fun h => D.standard_ne_zero _ h rfl

/-- Accounts other than the two contracts. -/
def Deployment.Account (D : Deployment) (x : Address) : Prop :=
  x ≠ zeroAddress ∧ x ≠ D.htlc ∧ x ≠ D.settlement

instance (D : Deployment) (x : Address) : Decidable (D.Account x) :=
  inferInstanceAs (Decidable (_ ∧ _ ∧ _))

/-- The token takes the allowance `n` as unlimited. -/
def Deployment.unlimitedAllowance (D : Deployment) (token : Address) (n : Nat) : Bool :=
  D.unlimited token && n == maxUint256

/-- Every token is a standard ERC-20. -/
def Deployment.AllStandard (D : Deployment) : Prop :=
  ∀ token, D.hasCode token = true → token ≠ D.htlc → token ≠ D.settlement →
    D.standard token = true

/-! ## States -/

/-- A call that waits for foreign code to return. -/
inductive Frame where
  /-- HTLC `newSwap`, in `_safeTransferFrom`. -/
  | newSwap (sender : Address) (a : NewSwap) (contractId : Bytes32)
  /-- HTLC `redeem` or `refund`, in `_payout`; the event comes after it. -/
  | payout (done : HashedTimelock.Event)
  /-- `settleLeg`, in `_safeTransferFrom`. -/
  | settleReceive (a : SettleLeg) (contractId : Bytes32)
  /-- `settleLeg`, in `_safeApprove`. -/
  | settleApprove (a : SettleLeg) (contractId : Bytes32)
  /-- `settleLeg`, in the HTLC's `newSwap`; the HTLC computed `got`. -/
  | settleLock (a : SettleLeg) (contractId got : Bytes32)
  /-- `refundLeg`, in the HTLC's `refund`. -/
  | legRefund (contractId : Bytes32) (leg : Leg)
  /-- `refundLeg`, in its payment to the maker. -/
  | legForward (contractId : Bytes32) (leg : Leg)
  /-- Somebody else's code. -/
  | other
deriving DecidableEq

/-- A payment out of a record, by the HTLC or by the Settlement. -/
structure Payment where
  contractId : Bytes32
  src : Address
  payout : Payout
deriving DecidableEq

structure State where
  htlc : HashedTimelock.Storage
  settlement : Settlement.Storage
  ledger : Ledger Address Address
  /-- Not storage: the payments the two contracts have made, oldest first. -/
  paid : List Payment
  /-- The waiting calls, innermost first. -/
  frames : List Frame

/-- Both contracts freshly deployed. -/
def State.fresh (ledger : Ledger Address Address) : State :=
  ⟨.empty, .empty, ledger, [], []⟩

/-- The result of a call that does not revert. -/
inductive Outcome where
  | done (s : State)
  /-- Foreign code runs; the innermost frame is the call's. -/
  | waiting (s : State)

def Outcome.state : Outcome → State
  | .done s => s
  | .waiting s => s

/-- The rest of a call, after one of its external calls has returned. -/
abbrev Rest := State → Except Failure Outcome

/-- The call is over. -/
def finished : Rest := fun s => .ok (.done s)

/-- Set the HTLC's storage. -/
def State.withHtlc (s : State) (st : HashedTimelock.Storage) : State := { s with htlc := st }

/-- Set the Settlement's storage. -/
def State.withSettlement (s : State) (st : Settlement.Storage) : State :=
  { s with settlement := st }

/-! ## External calls -/

/-- A call of `token` by one of the contracts. `effect` is what a standard
    token does; another token's code runs in the frame `wait`. The contracts
    themselves have no token functions. -/
def State.tokenCall (D : Deployment) (token : Address)
    (effect : Ledger Address Address → Option (Ledger Address Address)) (wait : Frame)
    (fail : Failure) (k : Rest) (s : State) : Except Failure Outcome :=
  if D.standard token then
    match effect s.ledger with
    | none => .error fail
    | some l => k { s with ledger := l }
  else if token = D.htlc ∨ token = D.settlement then .error fail
  else .ok (.waiting { s with frames := wait :: s.frames })

/-- A payment by `src`: `call{value}` for ETH, which the HTLC does not accept
    and the Settlement accepts without running more code; `_safeTransfer`
    otherwise. -/
def State.pay (D : Deployment) (src : Address) (contractId : Bytes32) (p : Payout)
    (ethFail tokenFail : Failure) (wait : Frame) (k : Rest) (s : State) :
    Except Failure Outcome :=
  let s : State := { s with paid := s.paid ++ [⟨contractId, src, p⟩] }
  if p.token = zeroAddress then
    if p.dest = D.htlc then .error ethFail
    else match s.ledger.move zeroAddress src p.dest p.amount.toNat with
      | none => .error ethFail
      | some l =>
        if p.dest = D.settlement then k { s with ledger := l }
        else .ok (.waiting { s with ledger := l, frames := wait :: s.frames })
  else s.tokenCall D p.token (fun l => l.move p.token src p.dest p.amount.toNat) wait tokenFail k

/-! ## HashedTimelock -/

/-- `newSwap` after its ETH has arrived. -/
def State.newSwap (cr : Crypto) (D : Deployment) (now : Uint256) (msg : Msg) (a : NewSwap)
    (wait : Bytes32 → Frame) (k : Bytes32 → Rest) (s : State) : Except Failure Outcome :=
  match newSwapChecks cr D.hasCode now s.htlc msg a with
  | .error e => .error (.htlc e)
  | .ok contractId =>
    let write (s : State) := s.withHtlc (s.htlc.writeSwap msg.sender a contractId)
    if a.token = zeroAddress then k contractId (write s)
    else s.tokenCall D a.token
      (fun l => l.transferFrom (D.unlimitedAllowance a.token) a.token D.htlc msg.sender D.htlc
        a.amount.toNat)
      (wait contractId) (.htlc .tokenTransferFailed) (fun s => k contractId (write s))

/-- `redeem`. -/
def State.redeem (cr : Crypto) (D : Deployment) (now : Uint256) (contractId preimage : Bytes32)
    (s : State) : Except Failure Outcome :=
  match redeemChecks cr now s.htlc contractId preimage with
  | .error e => .error (.htlc e)
  | .ok _ =>
    let done := .logRedeem contractId preimage
    (s.withHtlc (s.htlc.setWithdrawn contractId)).pay D D.htlc contractId
      (s.htlc.swaps contractId).redeemPayout (.htlc .tokenTransferFailed)
      (.htlc .tokenTransferFailed) (.payout done)
      (fun s => finished (s.withHtlc (s.htlc.emit done)))

/-- `refund`, called by `sender`. -/
def State.refund (D : Deployment) (now : Uint256) (sender : Address) (contractId : Bytes32)
    (wait : Frame) (k : Rest) (s : State) : Except Failure Outcome :=
  match refundChecks now s.htlc sender contractId with
  | .error e => .error (.htlc e)
  | .ok _ =>
    (s.withHtlc (s.htlc.setRefunded contractId)).pay D D.htlc contractId
      (s.htlc.swaps contractId).refundPayout (.htlc .tokenTransferFailed)
      (.htlc .tokenTransferFailed) wait
      (fun s => k (s.withHtlc (s.htlc.emit (.logRefund contractId))))

/-! ## Settlement -/

/-- `settleLeg` from the return of the HTLC's `newSwap`. -/
def State.settleLocked (a : SettleLeg) (contractId got : Bytes32) (s : State) :
    Except Failure Outcome :=
  if got ≠ contractId then .error (.settlement .contractIdMismatch)
  else finished (s.withSettlement (s.settlement.emit (a.settled contractId)))

/-- `settleLeg` from its call of the HTLC's `newSwap` with `value` ETH. -/
def State.settleApproved (cr : Crypto) (D : Deployment) (now value : Uint256) (a : SettleLeg)
    (contractId : Bytes32) (s : State) : Except Failure Outcome :=
  s.newSwap cr D now ⟨D.settlement, value⟩ a.lock (.settleLock a contractId ·)
    (State.settleLocked a contractId)

/-- `settleLeg` from its approval of the HTLC. -/
def State.settleReceived (cr : Crypto) (D : Deployment) (now : Uint256) (a : SettleLeg)
    (contractId : Bytes32) (s : State) : Except Failure Outcome :=
  s.tokenCall D a.order.sellToken
    (fun l => some (l.approve a.order.sellToken D.settlement D.htlc a.order.sellAmount.toNat))
    (.settleApprove a contractId) (.settlement .tokenApproveFailed)
    (State.settleApproved cr D now 0 a contractId)

/-- `_receiveAndLock`, called with `value` ETH. -/
def State.receiveAndLock (cr : Crypto) (D : Deployment) (now value : Uint256) (a : SettleLeg)
    (contractId : Bytes32) (s : State) : Except Failure Outcome :=
  if a.order.sellToken = zeroAddress then
    if value ≠ a.order.sellAmount then .error (.settlement .ethValueMismatch)
    else match s.ledger.move zeroAddress D.settlement D.htlc a.order.sellAmount.toNat with
      | none => .error .balance
      | some l =>
        State.settleApproved cr D now a.order.sellAmount a contractId { s with ledger := l }
  else if value ≠ 0#256 then .error (.settlement .ethNotAllowedForToken)
  else if D.hasCode a.order.sellToken = false then .error (.settlement .invalidToken)
  else s.tokenCall D a.order.sellToken
    (fun l => l.transferFrom (D.unlimitedAllowance a.order.sellToken) a.order.sellToken
      D.settlement a.order.maker D.settlement a.order.sellAmount.toNat)
    (.settleReceive a contractId) (.settlement .tokenTransferFailed)
    (State.settleReceived cr D now a contractId)

/-- `settleLeg` after its ETH has arrived. -/
def State.settleLeg (cr : Crypto) (D : Deployment) (now : Uint256) (msg : Msg) (a : SettleLeg)
    (s : State) : Except Failure Outcome :=
  match Settlement.settleChecks cr D.chainId now s.settlement msg.sender a with
  | .error e => .error e
  | .ok _ =>
    let contractId := a.contractId cr D.settlement
    (s.withSettlement (s.settlement.openLeg contractId a)).receiveAndLock cr D now msg.value a
      contractId

/-- `refundLeg` from its payment to the maker; `leg` was read before. -/
def State.forwardLeg (D : Deployment) (contractId : Bytes32) (leg : Leg) (s : State) :
    Except Failure Outcome :=
  s.pay D D.settlement contractId leg.payout
    (.settlement .ethTransferFailed) (.settlement .tokenTransferFailed)
    (.legForward contractId leg)
    (fun s => finished (s.withSettlement (s.settlement.emit (leg.refundEvent contractId))))

def State.refundLeg (D : Deployment) (now : Uint256) (contractId : Bytes32) (s : State) :
    Except Failure Outcome :=
  match Settlement.refundLegChecks s.settlement contractId with
  | .error e => .error e
  | .ok _ =>
    let leg := s.settlement.legs contractId
    (s.withSettlement (s.settlement.setRefunded contractId)).refund D now D.settlement contractId
      (.legRefund contractId leg) (fun s => s.forwardLeg D contractId leg)

/-! ## Calls -/

/-- What an account can call. -/
inductive Call where
  | newSwap (value : Uint256) (a : NewSwap)
  | redeem (contractId preimage : Bytes32)
  | refund (contractId : Bytes32)
  | authorizeLeg (order : OrderLib.Order) (signature : List Byte) (nowTs : Uint256)
  | settleLeg (value : Uint256) (a : SettleLeg)
  | refundLeg (contractId : Bytes32)
  /-- Plain ETH, or `transfer` of a standard token. -/
  | transfer (token dest : Address) (amount : Nat)
  /-- `approve` of a standard token. -/
  | approve (token spender : Address) (amount : Nat)
  /-- `transferFrom` of a standard token. -/
  | transferFrom (token owner dest : Address) (amount : Nat)
deriving DecidableEq

/-- A call with `value` ETH: the contract's code runs on the new balances. -/
def State.receive (sender contract : Address) (value : Uint256) (k : Rest) (s : State) :
    Except Failure Outcome :=
  match s.ledger.move zeroAddress sender contract value.toNat with
  | none => .error .balance
  | some l => k { s with ledger := l }

/-- A change of the ledger made by an account itself. -/
def State.ledgerCall (s : State) (l : Option (Ledger Address Address)) :
    Except Failure Outcome :=
  match l with
  | none => .error .token
  | some l => .ok (.done { s with ledger := l })

/-- `sender` makes the call in a block with timestamp `now`. -/
def invoke (cr : Crypto) (D : Deployment) (now : Uint256) (sender : Address) (call : Call)
    (s : State) : Except Failure Outcome :=
  match call with
  | .newSwap value a =>
    s.receive sender D.htlc value
      (State.newSwap cr D now ⟨sender, value⟩ a (.newSwap sender a ·) fun _ => finished)
  | .redeem contractId preimage => s.redeem cr D now contractId preimage
  | .refund contractId =>
    s.refund D now sender contractId (.payout (.logRefund contractId)) finished
  | .authorizeLeg order signature nowTs =>
    match Settlement.authorizeLeg cr s.settlement order signature nowTs with
    | .error e => .error e
    | .ok st => finished (s.withSettlement st)
  | .settleLeg value a =>
    s.receive sender D.settlement value (State.settleLeg cr D now ⟨sender, value⟩ a)
  | .refundLeg contractId => s.refundLeg D now contractId
  | .transfer token dest amount =>
    if token = zeroAddress ∧ dest = D.htlc then .error .token
    else if token = zeroAddress ∨ D.standard token then
      s.ledgerCall (s.ledger.move token sender dest amount)
    else .error .token
  | .approve token spender amount =>
    if D.standard token then s.ledgerCall (some (s.ledger.approve token sender spender amount))
    else .error .token
  | .transferFrom token owner dest amount =>
    if D.standard token then
      s.ledgerCall (s.ledger.transferFrom (D.unlimitedAllowance token) token sender owner dest
        amount)
    else .error .token

/-- What the waiting call does when its foreign code returns. -/
def Frame.rest (cr : Crypto) (D : Deployment) (now : Uint256) : Frame → Rest
  | .newSwap sender a contractId => fun s =>
    finished (s.withHtlc (s.htlc.writeSwap sender a contractId))
  | .payout done => fun s => finished (s.withHtlc (s.htlc.emit done))
  | .settleReceive a contractId => State.settleReceived cr D now a contractId
  | .settleApprove a contractId => State.settleApproved cr D now 0 a contractId
  | .settleLock a contractId got => fun s =>
    (s.withHtlc (s.htlc.writeSwap D.settlement a.lock got)).settleLocked a contractId got
  | .legRefund contractId leg => fun s =>
    (s.withHtlc (s.htlc.emit (.logRefund contractId))).forwardLeg D contractId leg
  | .legForward contractId leg => fun s =>
    finished (s.withSettlement (s.settlement.emit (leg.refundEvent contractId)))
  | .other => finished

/-- The foreign code of the innermost frame returns, and its caller goes on. -/
def resume (cr : Crypto) (D : Deployment) (now : Uint256) (s : State) :
    Except Failure Outcome :=
  match s.frames with
  | f :: fs => f.rest cr D now { s with frames := fs }
  | [] => .error .token

/-! ## Runs -/

/-- Who makes which calls, as far as that is restricted. -/
abbrev Policy := Address → Call → Prop

/-- Everybody calls anything. -/
def anyone : Policy := fun _ _ => True

inductive Enters (cr : Crypto) (D : Deployment) (π : Policy) (now : Uint256) (s s' : State) :
    Prop where
  | invoke (sender : Address) (call : Call) (hsender : D.Account sender)
      (hpolicy : π sender call) (h : invoke cr D now sender call s = .ok (.waiting s'))
  | other (h : s' = { s with frames := .other :: s.frames })

inductive Acts (cr : Crypto) (D : Deployment) (π : Policy) (now : Uint256) (s s' : State) :
    Prop where
  | invoke (sender : Address) (call : Call) (hsender : D.Account sender)
      (hpolicy : π sender call) (h : invoke cr D now sender call s = .ok (.done s'))
  | resume (h : resume cr D now s = .ok (.waiting s'))

/-- The chain in a block with timestamp `now`. -/
def system (cr : Crypto) (D : Deployment) (π : Policy) (now : Uint256) : CallSystem State where
  enter := Enters cr D π now
  act := Acts cr D π now
  leave s s' := resume cr D now s = .ok (.done s')

/-- The chain in blocks with any timestamps. -/
def anyTime (cr : Crypto) (D : Deployment) (π : Policy) : CallSystem State :=
  .union (system cr D π)

/-- A ledger on which the two contracts have not approved anybody. -/
def Genesis (D : Deployment) (l : Ledger Address Address) : Prop :=
  ∀ token spender, l.allowance token D.htlc spender = 0 ∧
    l.allowance token D.settlement spender = 0

/-- `c` is reachable from a fresh deployment. -/
def Reachable (cr : Crypto) (D : Deployment) (π : Policy) (c : Config State) : Prop :=
  ∃ l, Genesis D l ∧ Run (anyTime cr D π) ⟨State.fresh l, []⟩ c

/-- Labels that are read off the calls change nothing about the runs. -/
theorem plain_eq_anyTime {ε : Type} {cr : Crypto} {D : Deployment} {π : Policy}
    {L : Labelled ε State} (label : Uint256 → State → Address → Call → Option ε)
    (henter : ∀ l s s', L.enter l s s' ↔
      (∃ now sender call, l = label now s sender call ∧ D.Account sender ∧ π sender call ∧
        invoke cr D now sender call s = .ok (.waiting s')) ∨
      l = none ∧ s' = { s with frames := .other :: s.frames })
    (hact : ∀ l s s', L.act l s s' ↔
      (∃ now sender call, l = label now s sender call ∧ D.Account sender ∧ π sender call ∧
        invoke cr D now sender call s = .ok (.done s')) ∨
      l = none ∧ ∃ now, resume cr D now s = .ok (.waiting s'))
    (hleave : ∀ l s s', L.leave l s s' ↔ l = none ∧ ∃ now, resume cr D now s = .ok (.done s')) :
    L.plain = anyTime cr D π := by
  apply Labelled.plain_eq
  · intro s s'
    simp only [henter]
    constructor
    · rintro ⟨l, ⟨now, sender, call, -, hsender, hpolicy, h⟩ | ⟨-, h⟩⟩
      · exact ⟨now, .invoke sender call hsender hpolicy h⟩
      -- Foreign code may start at any time; the timestamp is not read.
      · exact ⟨0, .other h⟩
    · rintro ⟨now, ⟨sender, call, hsender, hpolicy, h⟩ | ⟨h⟩⟩
      · exact ⟨_, .inl ⟨now, sender, call, rfl, hsender, hpolicy, h⟩⟩
      · exact ⟨_, .inr ⟨rfl, h⟩⟩
  · intro s s'
    simp only [hact]
    constructor
    · rintro ⟨l, ⟨now, sender, call, -, hsender, hpolicy, h⟩ | ⟨-, now, h⟩⟩
      · exact ⟨now, .invoke sender call hsender hpolicy h⟩
      · exact ⟨now, .resume h⟩
    · rintro ⟨now, ⟨sender, call, hsender, hpolicy, h⟩ | ⟨h⟩⟩
      · exact ⟨_, .inl ⟨now, sender, call, rfl, hsender, hpolicy, h⟩⟩
      · exact ⟨_, .inr ⟨rfl, now, h⟩⟩
  · intro s s'
    simp only [hleave]
    constructor
    · rintro ⟨l, -, now, h⟩
      exact ⟨now, h⟩
    · rintro ⟨now, h⟩
      exact ⟨none, rfl, now, h⟩

/-! ## Scripts -/

inductive Action where
  | tx (now : Uint256) (sender : Address) (call : Call)
  | resume (now : Uint256)
  | revert

/-- Perform one action; `none` if it is not possible here. -/
def Action.perform (cr : Crypto) (D : Deployment) (a : Action) (c : Config State) :
    Option (Config State) :=
  match a with
  | .tx now sender call =>
    if D.Account sender then
      match invoke cr D now sender call c.cur with
      | .ok (.done s') => some ⟨s', c.saved⟩
      | .ok (.waiting s') => some ⟨s', c.cur :: c.saved⟩
      | .error _ => none
    else none
  | .resume now =>
    match Exchange.resume cr D now c.cur, c.saved with
    | .ok (.done s'), _ :: ss => some ⟨s', ss⟩
    | .ok (.waiting s'), ss => some ⟨s', ss⟩
    | _, _ => none
  | .revert =>
    match c.saved with
    | r :: ss => some ⟨r, ss⟩
    | [] => none

theorem Action.perform_sound {cr : Crypto} {D : Deployment} {a : Action} {c c' : Config State}
    (h : a.perform cr D c = some c') : Step (anyTime cr D anyone) c c' := by
  obtain ⟨s, ss⟩ := c
  -- Each action is one step: a call, a return or a failure.
  cases a with
  | tx now sender call =>
    simp only [Action.perform] at h
    split_ifs at h with hsender
    split at h
    · rename_i s' hok
      cases h
      exact .act ⟨now, .invoke sender call hsender trivial hok⟩
    · rename_i s' hok
      cases h
      exact .enter ⟨now, .invoke sender call hsender trivial hok⟩
    · cases h
  | resume now =>
    simp only [Action.perform] at h
    split at h
    · rename_i s' r ss' hok
      cases h
      exact .leave ⟨now, hok⟩
    · rename_i s' hok
      cases h
      exact .act ⟨now, .resume hok⟩
    · cases h
  | revert =>
    simp only [Action.perform] at h
    split at h
    · cases h; exact .revert
    · cases h

/-- The scripts of unrestricted runs. -/
def script (cr : Crypto) (D : Deployment) : Script (anyTime cr D anyone) Action where
  perform := Action.perform cr D
  sound := Action.perform_sound

/-! ### A deployment to compute in

Two makers, a token that decreases every allowance and one that does not. All
hashes and signatures are those of the functions of the EVM. -/

namespace Sample

def maker : Address := 0x7e5f4552091a69125d5dfcb7b8c2659029395bdf

def rival : Address := 0x2b5ad5c4795c026514f8317c7a215e218dccd6cf

def bob : Address := 0xb0

def coin : Address := 0x70

/-- Takes the maximal allowance as unlimited. -/
def maxCoin : Address := 0x71

def deployment : Deployment where
  htlc := 0xc0
  settlement := 0x5e
  chainId := 31337
  hasCode token := token = coin ∨ token = maxCoin
  standard token := token = coin ∨ token = maxCoin
  unlimited token := token = maxCoin
  htlc_ne_zero := by decide
  settlement_ne_zero := by decide
  settlement_ne_htlc := by decide
  standard_hasCode _ h := h
  standard_ne_zero token h := by rintro rfl; revert h; decide
  standard_ne_htlc token h := by rintro rfl; revert h; decide
  standard_ne_settlement token h := by rintro rfl; revert h; decide

theorem deployment_allStandard : deployment.AllStandard := fun _ h _ _ => h

/-- An order with its hashes and its maker's signature. -/
structure Signed where
  order : OrderLib.Order
  structHash : Bytes32
  digest : Bytes32
  r : Bytes32
  s : Bytes32
  v : Byte

def domainSeparator : Bytes32 :=
  0xc420abb1f32a367b5e624c22fe23edff18215146e3e5e59114624452b0296f41

def orderTypehash : Bytes32 :=
  0xf6c291778979ad7c29dbd6bde82617cada4fa74881d58bd9ca6189414eaed731

def Signed.signature (x : Signed) : List Byte := wordBytes x.r ++ wordBytes x.s ++ [x.v]

/-- What is hashed to obtain the digest. -/
def Signed.hashes (x : Signed) : List (List Byte × Bytes32) :=
  [(abiEncode [orderTypehash, addressWord x.order.maker, addressWord x.order.sellToken,
      x.order.sellChainId, x.order.sellAmount, addressWord x.order.buyToken, x.order.buyChainId,
      x.order.buyAmount, x.order.validUntil, x.order.nonce], x.structHash),
    ([0x19, 0x01] ++ wordBytes domainSeparator ++ wordBytes x.structHash, x.digest)]

/-- The leg that sells to `bob`. -/
def Signed.leg (x : Signed) : SettleLeg :=
  ⟨x.order, x.signature, bob, HashedTimelock.Sample.hashlock, 1000⟩

/-- Sells 5 wei. -/
def ethOrder : Signed where
  order := ⟨maker, zeroAddress, 31337, 5, coin, 1, 9, 5000, 1⟩
  structHash := 0xf9b82ef6087f924b863ac5000ed4ccc3429d17c4c8c77e4618bb90364b44fd84
  digest := 0x73c3313cce89d86a28d6c0d5d5e42c0f0244de9d0a7ba8553a5f66aa689688fe
  r := 0xe32a35a4ff18b12fdb9636140665a87b437c9f723be91028171befcb1e02fdc
  s := 0x41aeec86fcaedddaf6ac7fe945f540a34184e078b15fa094ad96e94ee6f1fd12
  v := 28

/-- Sells all of `maxCoin` there can be. -/
def maxOrder : Signed where
  order := ⟨maker, maxCoin, 31337, (BitVec.ofNat 256 maxUint256), zeroAddress, 1, 9, 5000, 2⟩
  structHash := 0x6a3130cafa1aad4e6ba4f358ed44636fe9d4ec76d1a3e3b065b5198bc00ce024
  digest := 0xab09a27a364273ba42de3d581d6837be07732ab62ec7888cb66dcbd05505ebd2
  r := 0xdd6a1f36596cbfdcad66c3bd43f6806bd370ab1ff91d9e08f429956fb0c46ddf
  s := 0x57ca48aafd40c472b74742760aa7a5dae5ceade95ff9ac3062c0b98c00bdb705
  v := 28

/-- Sells 5 units of `coin`. -/
def coinOrder : Signed where
  order := ⟨maker, coin, 31337, 5, zeroAddress, 1, 9, 5000, 3⟩
  structHash := 0x570fe7edbaed1eea77a0ff74aa2b0ec5dbaf45195d5d08d5f557533ef58b8bc0
  digest := 0x5d1621b81850292402d7fb910de36fa48254891c1115ca31f619b5db3ba1795b
  r := 0x86323f56f2b78ee1be57242673067ab2844ccf5a16163ce7c8234c97025e909
  s := 0x6b23b6b4cc674ce4054019c3516c37cd6c6d5ec9e88b3200ab470aab23b51955
  v := 27

/-- Sells 5 units of `coin`, like `coinOrder`. -/
def twinOrder : Signed where
  order := ⟨rival, coin, 31337, 5, zeroAddress, 1, 9, 5000, 1⟩
  structHash := 0xf824576dd35a483a1a2af214166b6c17bdd0a5e1a243e2f4b4473bb0b4a46d90
  digest := 0xec223002e9ee6911cf9884c2273796e06f448d22f8de054f2094f5c076b22ef0
  r := 0x3c5ea8498d013b5e0ae9d5bf4efa45141752ff16a9b9e2f1897e74dcab9914a4
  s := 0x6dc9dd54d3aca7ebf4acdad14ec43692f6a52cfcf92e710ee4a7fb4f4aa6eeff
  v := 27

def ethId : Bytes32 := 0xe9aa608e86dcccfdc7577be669bf5894824311f505242fddbd30a8745bae9e55

def maxId : Bytes32 := 0xdd6b1ed9f968ab1f8c1b69c3505359c63cbf5c82fcbd537bd2c181a5c3470e8b

/-- The id of `coinOrder`'s leg, and of `twinOrder`'s. -/
def coinId : Bytes32 := 0x1ed5366279d63426c9204cb23fc903bc30cae30d1e30391e1d96a84bce8445b2

/-- The words an id is hashed from. -/
def lockWords (sender : Address) (a : NewSwap) : List Byte :=
  abiEncode [addressWord sender, addressWord a.recipient, addressWord a.token, a.amount,
    a.hashlock, a.timelock]

/-- The direct lock of all of `maxCoin`. -/
def directLock : NewSwap := maxOrder.leg.lock

def directId : Bytes32 := 0x4110d960599c6093f8cf812b00d8e2e82cbb9edb18e87d245e425d837b3a01e4

/-- A lock of ETH with a timelock of more than 64 bits. -/
def farLock : NewSwap := ⟨bob, zeroAddress, 7, HashedTimelock.Sample.hashlock, 2 ^ 64⟩

def farId : Bytes32 := 0xa0ac9785d66dfbf5824b2b7d2c78445943a13612ece09d996be29f9e2687886e

/-- The direct lock of 5 wei. -/
def ethLock : NewSwap := ethOrder.leg.lock

def ethLockId : Bytes32 := 0xf8eb9fd0cf0cc6750e3d6efe11c7b21addf60bb18e3ede65a2da44dbb04eb9d0

/-- `rival`'s lock of 7 wei for `maker`, for longer than `ethLock`. -/
def longLock : NewSwap := ⟨maker, zeroAddress, 7, HashedTimelock.Sample.hashlock, 2000⟩

def longLockId : Bytes32 := 0x19b723cf16b667baaa18fbc7faa0b0111cfd2de00b57e892309503e42ddcf10b

def crypto : Crypto := .ofTables
  ([(asciiBytes "EIP712Domain(string name,string version)",
      0xb03948446334eb9b2196d5eb166f69b9d49403eb4a12f36de8d3f9f3cb8e15c3),
    (asciiBytes ("Order(address maker,address sellToken,uint256 sellChainId," ++
      "uint256 sellAmount,address buyToken,uint256 buyChainId,uint256 buyAmount," ++
      "uint256 validUntil,uint256 nonce)"), orderTypehash),
    (asciiBytes "Kael", 0xd699c44124502d280929a94c15db1397d2eaee89c24cd9f780bad1191a22ad62),
    (asciiBytes "1", 0xc89efdaa54c0f20c7adf612882df0950f5a951637e0307cdcb4c672f298b8bc6),
    (abiEncode
      [0xb03948446334eb9b2196d5eb166f69b9d49403eb4a12f36de8d3f9f3cb8e15c3,
        0xd699c44124502d280929a94c15db1397d2eaee89c24cd9f780bad1191a22ad62,
        0xc89efdaa54c0f20c7adf612882df0950f5a951637e0307cdcb4c672f298b8bc6],
      domainSeparator),
    (lockWords deployment.settlement ethOrder.leg.lock, ethId),
    (lockWords deployment.settlement maxOrder.leg.lock, maxId),
    (lockWords deployment.settlement coinOrder.leg.lock, coinId),
    (lockWords maker directLock, directId),
    (lockWords rival farLock, farId),
    (lockWords maker ethLock, ethLockId),
    (lockWords rival longLock, longLockId)] ++
    [ethOrder, maxOrder, coinOrder, twinOrder].flatMap Signed.hashes)
  [(wordBytes HashedTimelock.Sample.preimage, HashedTimelock.Sample.hashlock)]
  ([ethOrder, maxOrder, coinOrder, twinOrder].map fun x =>
    ((x.digest, x.v, x.r, x.s), x.order.maker))

/-- The makers have 10 of ETH and of `coin`, and `maker` all of `maxCoin`; they
    allow the contracts everything. -/
def ledger : Ledger Address Address where
  bal asset x :=
    if asset = maxCoin then if x = maker then maxUint256 else 0
    else if x = maker ∨ x = rival then 10 else 0
  allowance _ owner spender :=
    if (owner = maker ∨ owner = rival) ∧
        (spender = deployment.settlement ∨ spender = deployment.htlc) then maxUint256
    else 0

theorem genesis : Genesis deployment ledger := by
  intro token spender
  simp [ledger, deployment, maker, rival]

end Sample

/-! ## What the calls establish

One characterisation for each function; proofs about calls go through these. -/

section Specs

variable {cr : Crypto} {D : Deployment} {now : Uint256} {s : State} {o : Outcome}

theorem State.tokenCall_ok {token : Address}
    {effect : Ledger Address Address → Option (Ledger Address Address)} {wait : Frame}
    {fail : Failure} {k : Rest} :
    s.tokenCall D token effect wait fail k = .ok o ↔
      (D.standard token = true ∧ ∃ l, effect s.ledger = some l ∧ k { s with ledger := l } = .ok o) ∨
      (D.standard token = false ∧ token ≠ D.htlc ∧ token ≠ D.settlement ∧
        o = .waiting { s with frames := wait :: s.frames }) := by
  unfold State.tokenCall
  split_ifs with hstandard hself
  · cases heffect : effect s.ledger <;> simp [hstandard]
  · rcases hself with rfl | rfl <;> simp [hstandard]
  · rw [not_or] at hself
    simp [hstandard, hself, eq_comm]

/-- ETH to foreign code, a payment that runs no foreign code, or a foreign token. -/
theorem State.pay_ok {src : Address} {contractId : Bytes32} {p : Payout}
    {ethFail tokenFail : Failure} {wait : Frame} {k : Rest} :
    s.pay D src contractId p ethFail tokenFail wait k = .ok o ↔
      (p.token = zeroAddress ∧ p.dest ≠ D.htlc ∧ p.dest ≠ D.settlement ∧
        ∃ l, s.ledger.move p.token src p.dest p.amount.toNat = some l ∧
          o = .waiting { s with
            ledger := l, paid := s.paid ++ [⟨contractId, src, p⟩], frames := wait :: s.frames }) ∨
      ((p.token = zeroAddress ∧ p.dest = D.settlement ∨ D.standard p.token = true) ∧
        ∃ l, s.ledger.move p.token src p.dest p.amount.toNat = some l ∧
          k { s with ledger := l, paid := s.paid ++ [⟨contractId, src, p⟩] } = .ok o) ∨
      (p.token ≠ zeroAddress ∧ D.standard p.token = false ∧ p.token ≠ D.htlc ∧
        p.token ≠ D.settlement ∧
        o = .waiting { s with
          paid := s.paid ++ [⟨contractId, src, p⟩], frames := wait :: s.frames }) := by
  unfold State.pay
  dsimp only
  -- ETH: the HTLC does not accept it, and the Settlement runs no code.
  by_cases htoken : p.token = zeroAddress
  · have hstandard : D.standard p.token ≠ true := fun h => D.standard_ne_zero _ h htoken
    rw [if_pos htoken]
    by_cases hhtlc : p.dest = D.htlc
    · simp [htoken, hhtlc, D.settlement_ne_htlc.symm, htoken ▸ hstandard]
    · rw [if_neg hhtlc]
      cases hmove : s.ledger.move zeroAddress src p.dest p.amount.toNat with
      | none => simp [htoken, hmove]
      | some l =>
        by_cases hsettlement : p.dest = D.settlement
        · rw [hsettlement] at hmove
          simp [htoken, hmove, hsettlement]
        · simp [htoken, hhtlc, hmove, hsettlement, htoken ▸ hstandard, eq_comm]
  -- Another token: as any token call.
  · rw [if_neg htoken, State.tokenCall_ok]
    simp [htoken]

theorem State.newSwap_ok {msg : Msg} {a : NewSwap} {wait : Bytes32 → Frame}
    {k : Bytes32 → Rest} :
    s.newSwap cr D now msg a wait k = .ok o ↔
      ∃ contractId, newSwapChecks cr D.hasCode now s.htlc msg a = .ok contractId ∧
        ((a.token = zeroAddress ∧
            k contractId (s.withHtlc (s.htlc.writeSwap msg.sender a contractId)) = .ok o) ∨
          (D.standard a.token = true ∧ ∃ l,
            s.ledger.transferFrom (D.unlimitedAllowance a.token) a.token D.htlc msg.sender D.htlc
              a.amount.toNat = some l ∧
            k contractId { s with
              ledger := l, htlc := s.htlc.writeSwap msg.sender a contractId } = .ok o) ∨
          (a.token ≠ zeroAddress ∧ D.standard a.token = false ∧ a.token ≠ D.htlc ∧
            a.token ≠ D.settlement ∧
            o = .waiting { s with frames := wait contractId :: s.frames })) := by
  unfold State.newSwap
  split
  · rename_i e hchecks
    simp [hchecks]
  · rename_i contractId hchecks
    have hstandard : a.token = zeroAddress → D.standard a.token ≠ true :=
      fun h hs => D.standard_ne_zero _ hs h
    dsimp only
    -- ETH has arrived with the call; a token is pulled now.
    by_cases htoken : a.token = zeroAddress
    · simp [hchecks, htoken, htoken ▸ hstandard htoken]
    · rw [if_neg htoken, State.tokenCall_ok]
      simp [hchecks, htoken, State.withHtlc]

theorem State.redeem_ok {contractId preimage : Bytes32} :
    s.redeem cr D now contractId preimage = .ok o ↔
      redeemChecks cr now s.htlc contractId preimage = .ok () ∧
      (s.withHtlc (s.htlc.setWithdrawn contractId)).pay D D.htlc contractId
        (s.htlc.swaps contractId).redeemPayout (.htlc .tokenTransferFailed)
        (.htlc .tokenTransferFailed) (.payout (.logRedeem contractId preimage))
        (fun s => finished (s.withHtlc (s.htlc.emit (.logRedeem contractId preimage)))) = .ok o := by
  unfold State.redeem
  split <;> simp_all

theorem State.refund_ok {sender : Address} {contractId : Bytes32} {wait : Frame} {k : Rest} :
    s.refund D now sender contractId wait k = .ok o ↔
      refundChecks now s.htlc sender contractId = .ok () ∧
      (s.withHtlc (s.htlc.setRefunded contractId)).pay D D.htlc contractId
        (s.htlc.swaps contractId).refundPayout (.htlc .tokenTransferFailed)
        (.htlc .tokenTransferFailed) wait
        (fun s => k (s.withHtlc (s.htlc.emit (.logRefund contractId)))) = .ok o := by
  unfold State.refund
  split <;> simp_all

theorem State.settleLocked_ok {a : SettleLeg} {contractId got : Bytes32} :
    s.settleLocked a contractId got = .ok o ↔
      got = contractId ∧
      o = .done (s.withSettlement (s.settlement.emit (a.settled contractId))) := by
  unfold State.settleLocked finished
  split_ifs with hgot
  · simp [hgot]
  · simp [not_not.mp hgot, eq_comm]

theorem State.receive_ok {sender contract : Address} {value : Uint256} {k : Rest} :
    s.receive sender contract value k = .ok o ↔
      ∃ l, s.ledger.move zeroAddress sender contract value.toNat = some l ∧
        k { s with ledger := l } = .ok o := by
  unfold State.receive
  split <;> simp_all

theorem State.settleLeg_ok {msg : Msg} {a : SettleLeg} :
    s.settleLeg cr D now msg a = .ok o ↔
      Settlement.settleChecks cr D.chainId now s.settlement msg.sender a = .ok () ∧
      (s.withSettlement (s.settlement.openLeg (a.contractId cr D.settlement) a)).receiveAndLock
        cr D now msg.value a (a.contractId cr D.settlement) = .ok o := by
  unfold State.settleLeg
  split <;> simp_all

theorem State.refundLeg_ok {contractId : Bytes32} :
    s.refundLeg D now contractId = .ok o ↔
      Settlement.refundLegChecks s.settlement contractId = .ok () ∧
      (s.withSettlement (s.settlement.setRefunded contractId)).refund D now D.settlement
        contractId (.legRefund contractId (s.settlement.legs contractId))
        (fun s' => s'.forwardLeg D contractId (s.settlement.legs contractId)) = .ok o := by
  unfold State.refundLeg
  split <;> simp_all

theorem State.ledgerCall_ok {l : Option (Ledger Address Address)} :
    s.ledgerCall l = .ok o ↔ ∃ l', l = some l' ∧ o = .done { s with ledger := l' } := by
  unfold State.ledgerCall
  split <;> simp [eq_comm]

/-- `_receiveAndLock`: ETH passes through, a standard token is pulled, approved
    and locked, a foreign token's code runs first. -/
theorem State.receiveAndLock_ok {value : Uint256} {a : SettleLeg} {contractId : Bytes32} :
    s.receiveAndLock cr D now value a contractId = .ok o ↔
      (a.order.sellToken = zeroAddress ∧ value = a.order.sellAmount ∧
        ∃ l, s.ledger.move zeroAddress D.settlement D.htlc a.order.sellAmount.toNat = some l ∧
          State.settleApproved cr D now a.order.sellAmount a contractId
            { s with ledger := l } = .ok o) ∨
      (D.standard a.order.sellToken = true ∧ value = 0#256 ∧
        ∃ l, s.ledger.transferFrom (D.unlimitedAllowance a.order.sellToken) a.order.sellToken
            D.settlement a.order.maker D.settlement a.order.sellAmount.toNat = some l ∧
          State.settleReceived cr D now a contractId { s with ledger := l } = .ok o) ∨
      (a.order.sellToken ≠ zeroAddress ∧ D.standard a.order.sellToken = false ∧ value = 0#256 ∧
        D.hasCode a.order.sellToken = true ∧ a.order.sellToken ≠ D.htlc ∧
        a.order.sellToken ≠ D.settlement ∧
        o = .waiting { s with frames := .settleReceive a contractId :: s.frames }) := by
  unfold State.receiveAndLock
  -- As in the source: ETH by value, a token by `transferFrom`.
  by_cases htoken : a.order.sellToken = zeroAddress
  · have hstandard : D.standard a.order.sellToken ≠ true :=
      fun h => D.standard_ne_zero _ h htoken
    rw [if_pos htoken]
    split_ifs with hvalue
    · simp [hvalue, htoken, htoken ▸ hstandard]
    · cases hmove : s.ledger.move zeroAddress D.settlement D.htlc a.order.sellAmount.toNat <;>
        simp [htoken, htoken ▸ hstandard, not_not.mp hvalue]
  · rw [if_neg htoken]
    by_cases hvalue : value = 0#256
    · rw [if_neg (not_not.mpr hvalue)]
      by_cases hcode : D.hasCode a.order.sellToken = true
      · rw [if_neg (by simp [hcode]), State.tokenCall_ok]
        simp [htoken, hvalue, hcode]
      · have hstandard : D.standard a.order.sellToken ≠ true :=
          fun h => hcode (D.standard_hasCode _ h)
        rw [if_pos (by simpa using hcode)]
        simp [htoken, hcode, hstandard]
    · rw [if_pos hvalue]
      simp [htoken, hvalue]

/-! ### Locks of ETH and of standard tokens

These run no foreign code, so the whole call has one outcome. -/

/-- ETH or a standard token. -/
def Deployment.Tracked (D : Deployment) (token : Address) : Prop :=
  token = zeroAddress ∨ D.standard token = true

instance (D : Deployment) (token : Address) : Decidable (D.Tracked token) :=
  inferInstanceAs (Decidable (_ ∨ _))

/-- The ledger after `newSwap`. -/
def newSwapLedger (D : Deployment) (sender : Address) (value : Uint256) (a : NewSwap)
    (l : Ledger Address Address) : Option (Ledger Address Address) :=
  (l.move zeroAddress sender D.htlc value.toNat).bind fun l =>
    if a.token = zeroAddress then some l
    else l.transferFrom (D.unlimitedAllowance a.token) a.token D.htlc sender D.htlc a.amount.toNat

/-- The ledger after `settleLeg`: in from the maker, out to the HTLC. -/
def settleLedger (D : Deployment) (value : Uint256) (a : SettleLeg) (sender : Address)
    (l : Ledger Address Address) : Option (Ledger Address Address) :=
  let token := a.order.sellToken
  let amount := a.order.sellAmount.toNat
  (l.move zeroAddress sender D.settlement value.toNat).bind fun l =>
    if token = zeroAddress then l.move zeroAddress D.settlement D.htlc amount
    else (l.transferFrom (D.unlimitedAllowance token) token D.settlement a.order.maker
        D.settlement amount).bind fun l =>
      (l.approve token D.settlement D.htlc amount).transferFrom (D.unlimitedAllowance token)
        token D.htlc D.settlement D.htlc amount

/-- The state after `settleLeg`. -/
def State.settled (D : Deployment) (s : State) (a : SettleLeg) (contractId : Bytes32)
    (l : Ledger Address Address) : State :=
  { s with
    ledger := l
    htlc := s.htlc.writeSwap D.settlement a.lock contractId
    settlement := (s.settlement.openLeg contractId a).emit (a.settled contractId) }

theorem invoke_newSwap_tracked {sender : Address} {value : Uint256} {a : NewSwap}
    (htracked : D.Tracked a.token) :
    invoke cr D now sender (.newSwap value a) s = .ok o ↔
      ∃ l contractId, newSwapLedger D sender value a s.ledger = some l ∧
        newSwapChecks cr D.hasCode now s.htlc ⟨sender, value⟩ a = .ok contractId ∧
        o = .done { s with ledger := l, htlc := s.htlc.writeSwap sender a contractId } := by
  have hrun : invoke cr D now sender (.newSwap value a) s = .ok o ↔ _ := State.receive_ok
  simp only [hrun, State.newSwap_ok, newSwapLedger, Option.bind_eq_some_iff]
  rcases htracked with htoken | hstandard
  -- ETH: received and written.
  · simp only [htoken, D.standard_zero, ↓reduceIte, true_and, ne_eq, not_true_eq_false, false_and,
      or_false, Bool.false_eq_true, finished, State.withHtlc, Except.ok.injEq]
    constructor
    · rintro ⟨l, hmove, id, hchecks, rfl⟩
      exact ⟨l, id, ⟨l, hmove, rfl⟩, hchecks, rfl⟩
    · rintro ⟨l, id, ⟨l', hmove, hl⟩, hchecks, rfl⟩
      cases hl
      exact ⟨l, hmove, id, hchecks, rfl⟩
  -- A standard token: pulled at once, then written.
  · have hnot : a.token ≠ zeroAddress := D.standard_ne_zero _ hstandard
    simp only [hnot, hstandard, ↓reduceIte, true_and, false_and, false_or, reduceCtorEq, and_false,
      or_false, finished, State.withHtlc, Except.ok.injEq]
    constructor
    · rintro ⟨l, hmove, id, hchecks, l', htransfer, rfl⟩
      exact ⟨l', id, ⟨l, hmove, htransfer⟩, hchecks, rfl⟩
    · rintro ⟨l', id, ⟨l, hmove, htransfer⟩, hchecks, rfl⟩
      exact ⟨l, hmove, id, hchecks, l', htransfer, rfl⟩

/-- `settleLeg` from its call of the HTLC, for ETH. -/
private theorem State.settleApproved_eth {value : Uint256} {a : SettleLeg} {contractId : Bytes32}
    (htoken : a.order.sellToken = zeroAddress) :
    s.settleApproved cr D now value a contractId = .ok o ↔
      newSwapChecks cr D.hasCode now s.htlc ⟨D.settlement, value⟩ a.lock = .ok contractId ∧
      o = .done { s with
        htlc := s.htlc.writeSwap D.settlement a.lock contractId
        settlement := s.settlement.emit (a.settled contractId) } := by
  have hlock : a.lock.token = zeroAddress := htoken
  simp only [State.settleApproved, State.newSwap_ok, State.settleLocked_ok, hlock,
    D.standard_zero, true_and, ne_eq, not_true_eq_false, false_and, or_false, Bool.false_eq_true]
  constructor
  · rintro ⟨id, hchecks, rfl, rfl⟩
    exact ⟨hchecks, rfl⟩
  · rintro ⟨hchecks, rfl⟩
    exact ⟨contractId, hchecks, rfl, rfl⟩

/-- `settleLeg` from its approval of the HTLC, for a standard token. -/
private theorem State.settleReceived_standard {a : SettleLeg} {contractId : Bytes32}
    (hstandard : D.standard a.order.sellToken = true) :
    s.settleReceived cr D now a contractId = .ok o ↔
      newSwapChecks cr D.hasCode now s.htlc ⟨D.settlement, 0⟩ a.lock = .ok contractId ∧
      ∃ l, (s.ledger.approve a.order.sellToken D.settlement D.htlc
            a.order.sellAmount.toNat).transferFrom (D.unlimitedAllowance a.order.sellToken)
          a.order.sellToken D.htlc D.settlement D.htlc a.order.sellAmount.toNat = some l ∧
        o = .done { s with
          ledger := l
          htlc := s.htlc.writeSwap D.settlement a.lock contractId
          settlement := s.settlement.emit (a.settled contractId) } := by
  have hlock : D.standard a.lock.token = true := hstandard
  have hne : a.lock.token ≠ zeroAddress := D.standard_ne_zero _ hlock
  -- Approval, pull and the id check in one ledger step.
  simp only [State.settleReceived, State.tokenCall_ok, hstandard, State.settleApproved,
    State.newSwap_ok, State.settleLocked_ok, hlock, hne, true_and, false_and, or_false,
    false_or, reduceCtorEq, and_false]
  constructor
  · rintro ⟨l, hl, id, hchecks, l', htransfer, rfl, rfl⟩
    cases hl
    exact ⟨hchecks, l', htransfer, rfl⟩
  · rintro ⟨hchecks, l', htransfer, rfl⟩
    exact ⟨_, rfl, contractId, hchecks, l', htransfer, rfl, rfl⟩

theorem invoke_settleLeg_tracked {sender : Address} {value : Uint256} {a : SettleLeg}
    (htracked : D.Tracked a.order.sellToken) :
    invoke cr D now sender (.settleLeg value a) s = .ok o ↔
      ∃ l, settleLedger D value a sender s.ledger = some l ∧
        Settlement.settleChecks cr D.chainId now s.settlement sender a = .ok () ∧
        newSwapChecks cr D.hasCode now s.htlc ⟨D.settlement, value⟩ a.lock =
          .ok (a.contractId cr D.settlement) ∧
        o = .done (s.settled D a (a.contractId cr D.settlement) l) := by
  have hrun : invoke cr D now sender (.settleLeg value a) s = .ok o ↔ _ := State.receive_ok
  simp only [hrun, State.settleLeg_ok, State.receiveAndLock_ok, settleLedger,
    Option.bind_eq_some_iff]
  rcases htracked with htoken | hstandard
  · simp only [State.settleApproved_eth htoken]
    simp only [htoken, D.standard_zero, ↓reduceIte, true_and, ne_eq, not_true_eq_false, false_and,
      or_false, Bool.false_eq_true]
    constructor
    · rintro ⟨l, hmove, hchecks, rfl, l', hmove', hlock, rfl⟩
      exact ⟨l', ⟨l, hmove, hmove'⟩, hchecks, hlock, rfl⟩
    · rintro ⟨l', ⟨l, hmove, hmove'⟩, hchecks, hlock, rfl⟩
      -- That the HTLC accepts the value is also the Settlement's check of it.
      obtain ⟨-, -, -, -, -, hpay⟩ := newSwapChecks_ok.mp hlock
      have hvalue : value = a.order.sellAmount := by
        rcases hpay with ⟨-, hvalue⟩ | ⟨hne, -⟩
        · exact hvalue
        · exact absurd htoken hne
      exact ⟨l, hmove, hchecks, hvalue, l', hmove', hvalue ▸ hlock, rfl⟩
  · have hnot : a.order.sellToken ≠ zeroAddress := D.standard_ne_zero _ hstandard
    simp only [State.settleReceived_standard hstandard]
    simp only [hnot, hstandard, ↓reduceIte, true_and, false_and, false_or, reduceCtorEq, and_false,
      or_false, Option.bind_eq_some_iff]
    constructor
    · rintro ⟨l, hmove, hchecks, rfl, l', htransfer, hlock, l'', htransfer', rfl⟩
      exact ⟨l'', ⟨l, hmove, l', htransfer, htransfer'⟩, hchecks, hlock, rfl⟩
    · rintro ⟨l'', ⟨l, hmove, l', htransfer, htransfer'⟩, hchecks, hlock, rfl⟩
      -- No ETH comes with a token.
      obtain ⟨-, -, -, -, -, hpay⟩ := newSwapChecks_ok.mp hlock
      have hvalue : value = 0#256 := by
        rcases hpay with ⟨heth, -⟩ | ⟨-, hvalue, -⟩
        · exact absurd heth hnot
        · exact hvalue
      rw [hvalue] at hlock
      exact ⟨l, hmove, hchecks, hvalue, l', htransfer, hlock, l'', htransfer', rfl⟩

theorem resume_ok : resume cr D now s = .ok o ↔
    ∃ f fs, s.frames = f :: fs ∧ f.rest cr D now { s with frames := fs } = .ok o := by
  unfold resume
  cases hframes : s.frames <;> simp

theorem invoke_authorizeLeg_ok {sender : Address} {order : OrderLib.Order}
    {signature : List Byte} {nowTs : Uint256} :
    invoke cr D now sender (.authorizeLeg order signature nowTs) s = .ok o ↔
      ∃ st, Settlement.authorizeLeg cr s.settlement order signature nowTs = .ok st ∧
        o = .done (s.withSettlement st) := by
  simp only [invoke, finished]
  cases Settlement.authorizeLeg cr s.settlement order signature nowTs with
  | error e => simp
  | ok st => simp [eq_comm]

theorem invoke_transfer_ok {sender token dest : Address} {amount : Nat} :
    invoke cr D now sender (.transfer token dest amount) s = .ok o ↔
      (token = zeroAddress ∧ dest ≠ D.htlc ∨ D.standard token = true) ∧
      ∃ l, s.ledger.move token sender dest amount = some l ∧
        o = .done { s with ledger := l } := by
  have hstandard : token = zeroAddress → D.standard token ≠ true :=
    fun h hs => D.standard_ne_zero _ hs h
  simp only [invoke]
  by_cases htoken : token = zeroAddress
  · by_cases hdest : dest = D.htlc
    · simp [htoken, hdest, htoken ▸ hstandard htoken]
    · simp [htoken, hdest, State.ledgerCall_ok]
  · by_cases hs : D.standard token = true
    · simp [htoken, hs, State.ledgerCall_ok]
    · simp [htoken, hs]

theorem invoke_approve_ok {sender token spender : Address} {amount : Nat} :
    invoke cr D now sender (.approve token spender amount) s = .ok o ↔
      D.standard token = true ∧
      o = .done { s with ledger := s.ledger.approve token sender spender amount } := by
  simp only [invoke]
  by_cases hs : D.standard token = true
  · simp [hs, State.ledgerCall_ok]
  · simp [hs]

theorem invoke_transferFrom_ok {sender token owner dest : Address} {amount : Nat} :
    invoke cr D now sender (.transferFrom token owner dest amount) s = .ok o ↔
      D.standard token = true ∧
      ∃ l, s.ledger.transferFrom (D.unlimitedAllowance token) token sender owner dest amount =
          some l ∧
        o = .done { s with ledger := l } := by
  simp only [invoke]
  by_cases hs : D.standard token = true
  · simp [hs, State.ledgerCall_ok]
  · simp [hs]

end Specs

end Kael.Exchange
