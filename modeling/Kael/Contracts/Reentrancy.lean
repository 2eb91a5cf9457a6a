import Kael.Contracts.HashedTimelock
import Kael.Lib.NestedCalls

/-!
# The HashedTimelock among Hostile Tokens and Recipients

The contract together with its own balances and the external calls it is in
the middle of. A token's `transfer` or `transferFrom`, and an ETH recipient,
run foreign code: before that code returns it may call the contract again, to
any depth, through any account. Every state of this model is one in which
control is outside the contract.

An external call that fails makes the contract revert (`TokenTransferFailed`),
and foreign code may revert calls of its own. Both restore the state in which
the call was opened, which is what `NestedCalls` does with a failed call.
-/

namespace Kael.HashedTimelock

open NestedCalls

/-! ## States -/

/-- What the chain around one contract fixes. -/
structure Setting where
  crypto : Crypto
  /-- `token.code.length != 0`. -/
  hasCode : Address → Bool
  /-- The address of the contract. -/
  self : Address
  /-- The tokens whose successful transfers move exactly the requested amount. -/
  exact : Address → Bool

/-- An open call: of the contract, waiting for its own external call, or of
    somebody else's code. -/
inductive Frame where
  /-- `newSwap` inside `_safeTransferFrom`; `moved` once the token has moved the amount. -/
  | newSwap (sender : Address) (args : NewSwap) (contractId : Bytes32) (moved : Bool)
  /-- `redeem` or `refund` inside `_payout`; `done` is the event emitted after it. -/
  | payout (p : Payout) (moved : Bool) (done : Event)
  | other
deriving DecidableEq

structure World where
  htlc : Storage
  /-- The contract's balance of each asset. -/
  held : Address → Nat
  /-- The open calls, innermost first. -/
  frames : List Frame

/-- A deployed contract that nobody has called; it may have been sent assets. -/
def World.fresh (held : Address → Nat) : World := ⟨.empty, held, []⟩

/-! ## The entry points -/

/-- `newSwap`: an ETH lock runs to its end, a token lock to its token call. -/
def World.newSwap (S : Setting) (now : Uint256) (msg : Msg) (a : NewSwap) (w : World) :
    Except Error World :=
  match newSwapChecks S.crypto S.hasCode now w.htlc msg a with
  | .error e => .error e
  | .ok contractId =>
    if a.token = zeroAddress then
      .ok { w with
        htlc := w.htlc.writeSwap msg.sender a contractId
        held := Function.update w.held zeroAddress (w.held zeroAddress + msg.value.toNat) }
    else .ok { w with frames := .newSwap msg.sender a contractId false :: w.frames }

/-- `_payout` up to the recipient's or the token's code. ETH leaves with the
    call; the contract itself has no function that could receive it. -/
def World.startPayout (S : Setting) (p : Payout) (done : Event) (w : World) :
    Except Error World :=
  if p.token = zeroAddress then
    if p.dest = S.self then .error .tokenTransferFailed
    else if w.held zeroAddress < p.amount.toNat then .error .tokenTransferFailed
    else .ok { w with
      held := Function.update w.held zeroAddress (w.held zeroAddress - p.amount.toNat)
      frames := .payout p true done :: w.frames }
  else .ok { w with frames := .payout p false done :: w.frames }

/-- `redeem` up to its external call. -/
def World.redeem (S : Setting) (now : Uint256) (contractId preimage : Bytes32) (w : World) :
    Except Error World :=
  match redeemChecks S.crypto now w.htlc contractId preimage with
  | .error e => .error e
  | .ok _ =>
    startPayout S (w.htlc.swaps contractId).redeemPayout (.logRedeem contractId preimage)
      { w with htlc := w.htlc.setWithdrawn contractId }

/-- `refund` up to its external call. -/
def World.refund (S : Setting) (now : Uint256) (sender : Address) (contractId : Bytes32)
    (w : World) : Except Error World :=
  match refundChecks now w.htlc sender contractId with
  | .error e => .error e
  | .ok _ =>
    startPayout S (w.htlc.swaps contractId).refundPayout (.logRefund contractId)
      { w with htlc := w.htlc.setRefunded contractId }

/-- The token called by the innermost frame moves the requested amount. -/
def World.transfer (S : Setting) (w : World) : Option World :=
  match w.frames with
  | .newSwap sender a contractId false :: fs =>
    some { w with
      held := Function.update w.held a.token (w.held a.token + a.amount.toNat)
      frames := .newSwap sender a contractId true :: fs }
  | .payout p false done :: fs =>
    if w.held p.token < p.amount.toNat then none
    else if p.dest = S.self then some { w with frames := .payout p true done :: fs }
    else some { w with
      held := Function.update w.held p.token (w.held p.token - p.amount.toNat)
      frames := .payout p true done :: fs }
  | _ => none

/-- The innermost call returns successfully: `newSwap` writes its record and
    emits, `redeem` and `refund` emit. -/
def World.finish (S : Setting) (w : World) : Option World :=
  match w.frames with
  | .newSwap sender a contractId moved :: fs =>
    if S.exact a.token && !moved then none
    else some { w with htlc := w.htlc.writeSwap sender a contractId, frames := fs }
  | .payout p moved done :: fs =>
    if (S.exact p.token || p.token = zeroAddress) && !moved then none
    else some { w with htlc := w.htlc.emit done, frames := fs }
  | .other :: fs => some { w with frames := fs }
  | [] => none

/-! ## Runs -/

/-- Accounts that can call the contract. -/
def Setting.Caller (S : Setting) (x : Address) : Prop := x ≠ zeroAddress ∧ x ≠ S.self

inductive Enters (S : Setting) (now : Uint256) (w w' : World) : Prop where
  | newSwap (msg : Msg) (a : NewSwap) (hsender : S.Caller msg.sender)
      (htoken : a.token ≠ zeroAddress) (h : w.newSwap S now msg a = .ok w')
  | redeem (contractId preimage : Bytes32) (h : w.redeem S now contractId preimage = .ok w')
  | refund (sender : Address) (contractId : Bytes32) (hsender : S.Caller sender)
      (h : w.refund S now sender contractId = .ok w')
  | other (h : w' = { w with frames := .other :: w.frames })

inductive Acts (S : Setting) (now : Uint256) (w w' : World) : Prop where
  | newSwap (msg : Msg) (a : NewSwap) (hsender : S.Caller msg.sender)
      (htoken : a.token = zeroAddress) (h : w.newSwap S now msg a = .ok w')
  | transfer (h : w.transfer S = some w')
  /-- Anyone may send the contract assets. -/
  | gift (asset : Address) (n : Nat)
      (h : w' = { w with held := Function.update w.held asset (w.held asset + n) })
  /-- A token outside `exact` may change balances at will. -/
  | drift (token : Address) (n : Nat) (htoken : token ≠ zeroAddress)
      (hexact : S.exact token = false)
      (h : w' = { w with held := Function.update w.held token n })

/-- The contract at block time `now`. -/
def system (S : Setting) (now : Uint256) : CallSystem World where
  enter := Enters S now
  act := Acts S now
  leave w w' := w.finish S = some w'

/-- The contract at any block times. -/
def anyTime (S : Setting) : CallSystem World := .union (system S)

/-! ## Scripts

Runs that can be computed, with calls returning only where `P` holds. -/

inductive Action where
  | newSwap (now : Uint256) (msg : Msg) (a : NewSwap)
  | redeem (now : Uint256) (contractId preimage : Bytes32)
  | refund (now : Uint256) (sender : Address) (contractId : Bytes32)
  | transfer
  | finish
  | revert

/-- Perform one action; `none` if it is not possible here. -/
def Action.perform (S : Setting) (P : World → Prop) [DecidablePred P] (a : Action)
    (c : Config World) : Option (Config World) :=
  match a with
  | .newSwap now msg a =>
    if msg.sender = zeroAddress ∨ msg.sender = S.self then none
    else match c.cur.newSwap S now msg a with
      | .error _ => none
      | .ok w' => some ⟨w', if a.token = zeroAddress then c.saved else c.cur :: c.saved⟩
  | .redeem now contractId preimage =>
    match c.cur.redeem S now contractId preimage with
    | .error _ => none
    | .ok w' => some ⟨w', c.cur :: c.saved⟩
  | .refund now sender contractId =>
    if sender = zeroAddress ∨ sender = S.self then none
    else match c.cur.refund S now sender contractId with
      | .error _ => none
      | .ok w' => some ⟨w', c.cur :: c.saved⟩
  | .transfer => (c.cur.transfer S).map fun w' => ⟨w', c.saved⟩
  | .finish =>
    match c.saved, c.cur.finish S with
    | _ :: ss, some w' => if P c.cur then some ⟨w', ss⟩ else none
    | _, _ => none
  | .revert =>
    match c.saved with
    | r :: ss => some ⟨r, ss⟩
    | [] => none

theorem Action.perform_sound {S : Setting} {P : World → Prop} [DecidablePred P] {a : Action}
    {c c' : Config World} (h : a.perform S P c = some c') :
    Step ((anyTime S).guardLeave P) c c' := by
  obtain ⟨w, ss⟩ := c
  -- Each action is one step, if its call succeeds.
  cases a with
  | newSwap now msg a =>
    simp only [Action.perform] at h
    split_ifs at h with hcaller htoken
    · rw [not_or] at hcaller
      split at h
      · cases h
      · rename_i w' hok
        cases h
        exact .act ⟨now, .newSwap msg a hcaller htoken hok⟩
    · rw [not_or] at hcaller
      split at h
      · cases h
      · rename_i w' hok
        cases h
        exact .enter ⟨now, .newSwap msg a hcaller htoken hok⟩
  | redeem now contractId preimage =>
    simp only [Action.perform] at h
    split at h
    · cases h
    · rename_i w' hok
      cases h
      exact .enter ⟨now, .redeem contractId preimage hok⟩
  | refund now sender contractId =>
    simp only [Action.perform] at h
    split_ifs at h with hcaller
    rw [not_or] at hcaller
    split at h
    · cases h
    · rename_i w' hok
      cases h
      exact .enter ⟨now, .refund sender contractId hcaller hok⟩
  | transfer =>
    simp only [Action.perform, Option.map_eq_some_iff] at h
    obtain ⟨w', hok, rfl⟩ := h
    exact .act ⟨0, .transfer hok⟩
  | finish =>
    simp only [Action.perform] at h
    split at h
    · rename_i r ss' w' hfinish
      split_ifs at h with hP
      cases h
      exact .leave ⟨⟨0, hfinish⟩, hP⟩
    · cases h
  | revert =>
    simp only [Action.perform] at h
    split at h
    · cases h; exact .revert
    · cases h

/-- The scripts of runs whose calls return only where `P` holds. -/
def script (S : Setting) (P : World → Prop) [DecidablePred P] :
    Script ((anyTime S).guardLeave P) Action where
  perform a := a.perform S P
  sound := Action.perform_sound

/-! ### A setting to compute in: one token, one locker, one recipient -/

namespace Sample

def alice : Address := 0xa1

def bob : Address := 0xb0

def hookToken : Address := 0x70

def preimage : Bytes32 := 1

/-- `sha256` of `preimage`. -/
def hashlock : Bytes32 := 0xec4916dd28fc4c10d78e287ca5d9cc51ee1ae73cbfde08c6b37324cbfaac8bc5

/-- `keccak256` of the encoding of `alice`'s lock. -/
def contractId : Bytes32 := 0xab726402575f467f87295c29089019b6778dab1f7e1e6138b09760dcd3fc9370

def lock : NewSwap := ⟨bob, hookToken, 5, hashlock, 1000⟩

/-- `keccak256` of the encoding of `bob`'s lock. -/
def ethContractId : Bytes32 := 0xdba6459c34aee1853f1317273db0bf1d0c8d31b8c677c301d1d106456f5d2288

def ethLock : NewSwap := ⟨alice, zeroAddress, 7, hashlock, 500⟩

def setting : Setting where
  crypto := .ofTables
    [(abiEncode [addressWord alice, addressWord bob, addressWord hookToken, 5, hashlock, 1000],
      contractId),
      (abiEncode [addressWord bob, addressWord alice, addressWord zeroAddress, 7, hashlock, 500],
        ethContractId)]
    [(wordBytes preimage, hashlock)] []
  hasCode token := token = hookToken
  self := 0xc0
  exact _ := true

end Sample

/-! ## What the entry points establish -/

section Specs

variable {S : Setting} {now : Uint256} {w w' : World}

theorem World.startPayout_ok {p : Payout} {done : Event} :
    w.startPayout S p done = .ok w' ↔
      (p.token = zeroAddress ∧ p.dest ≠ S.self ∧ p.amount.toNat ≤ w.held zeroAddress ∧
        w' = { w with
          held := Function.update w.held zeroAddress (w.held zeroAddress - p.amount.toNat)
          frames := .payout p true done :: w.frames }) ∨
      (p.token ≠ zeroAddress ∧ w' = { w with frames := .payout p false done :: w.frames }) := by
  unfold World.startPayout
  split_ifs with htoken hdest hheld
  · simp [htoken, hdest]
  · simp [htoken]; omega
  · simp [htoken, hdest, eq_comm]; omega
  · simp [htoken, eq_comm]

theorem World.newSwap_ok {msg : Msg} {a : NewSwap} (h : w.newSwap S now msg a = .ok w') :
    ∃ contractId,
      newSwapChecks S.crypto S.hasCode now w.htlc msg a = .ok contractId ∧
      ((a.token = zeroAddress ∧ w' = { w with
          htlc := w.htlc.writeSwap msg.sender a contractId
          held := Function.update w.held zeroAddress (w.held zeroAddress + msg.value.toNat) }) ∨
        (a.token ≠ zeroAddress ∧
          w' = { w with frames := .newSwap msg.sender a contractId false :: w.frames })) := by
  unfold World.newSwap at h
  split at h
  · cases h
  · rename_i contractId hchecks
    refine ⟨contractId, hchecks, ?_⟩
    split_ifs at h with htoken
    · cases h; exact .inl ⟨htoken, rfl⟩
    · cases h; exact .inr ⟨htoken, rfl⟩

theorem World.redeem_ok {contractId preimage : Bytes32} :
    w.redeem S now contractId preimage = .ok w' ↔
      redeemChecks S.crypto now w.htlc contractId preimage = .ok () ∧
      startPayout S (w.htlc.swaps contractId).redeemPayout (.logRedeem contractId preimage)
        { w with htlc := w.htlc.setWithdrawn contractId } = .ok w' := by
  unfold World.redeem
  split <;> simp_all

theorem World.refund_ok {sender : Address} {contractId : Bytes32} :
    w.refund S now sender contractId = .ok w' ↔
      refundChecks now w.htlc sender contractId = .ok () ∧
      startPayout S (w.htlc.swaps contractId).refundPayout (.logRefund contractId)
        { w with htlc := w.htlc.setRefunded contractId } = .ok w' := by
  unfold World.refund
  split <;> simp_all

end Specs

/-! ## Everything a move can do

Invariants are proved from these two case analyses alone. -/

/-- What opening a call, or acting without one, does. -/
inductive Effect (S : Setting) (w w' : World) : Prop where
  /-- An ETH lock. -/
  | lockEth (sender : Address) (a : NewSwap) (contractId : Bytes32)
      (hsender : S.Caller sender) (htoken : a.token = zeroAddress)
      (habsent : ¬(w.htlc.swaps contractId).Exists)
      (h : w' = { w with
        htlc := w.htlc.writeSwap sender a contractId
        held := Function.update w.held zeroAddress (w.held zeroAddress + a.amount.toNat) })
  /-- A token lock up to its token call. -/
  | openLock (sender : Address) (a : NewSwap) (contractId : Bytes32)
      (hsender : S.Caller sender) (habsent : ¬(w.htlc.swaps contractId).Exists)
      (h : w' = { w with frames := .newSwap sender a contractId false :: w.frames })
  /-- `redeem` up to its payment. -/
  | openRedeem (contractId preimage : Bytes32) (hactive : (w.htlc.swaps contractId).Active)
      (h : World.startPayout S (w.htlc.swaps contractId).redeemPayout
        (.logRedeem contractId preimage)
        { w with htlc := w.htlc.setWithdrawn contractId } = .ok w')
  /-- `refund` up to its payment. -/
  | openRefund (contractId : Bytes32) (hactive : (w.htlc.swaps contractId).Active)
      (h : World.startPayout S (w.htlc.swaps contractId).refundPayout
        (.logRefund contractId)
        { w with htlc := w.htlc.setRefunded contractId } = .ok w')
  /-- The token of the innermost frame pays. -/
  | transfer (h : w.transfer S = some w')
  /-- Foreign code opens a call of its own or moves assets. -/
  | foreign (hhtlc : w'.htlc = w.htlc)
      (hframes : w'.frames = .other :: w.frames ∨ w'.frames = w.frames)
      (hheld : ∀ asset, w.held asset ≤ w'.held asset ∨ S.exact asset = false)

/-- What the return of the innermost call does. -/
inductive Return (S : Setting) (w w' : World) : Prop where
  /-- A token lock after its token call. -/
  | closeLock (sender : Address) (a : NewSwap) (contractId : Bytes32) (moved : Bool)
      (fs : List Frame) (hframes : w.frames = .newSwap sender a contractId moved :: fs)
      (hmoved : S.exact a.token = true → moved = true)
      (h : w' = { w with htlc := w.htlc.writeSwap sender a contractId, frames := fs })
  /-- `redeem` or `refund` after its payment. -/
  | closePayout (p : Payout) (moved : Bool) (done : Event) (fs : List Frame)
      (hframes : w.frames = .payout p moved done :: fs)
      (h : w' = { w with htlc := w.htlc.emit done, frames := fs })
  | closeOther (fs : List Frame) (hframes : w.frames = .other :: fs)
      (h : w' = { w with frames := fs })

theorem Effect.of_enters {S : Setting} {now : Uint256} {w w' : World}
    (h : Enters S now w w') : Effect S w w' := by
  cases h with
  | newSwap msg a hsender htoken h =>
    obtain ⟨contractId, hchecks, hcase⟩ := World.newSwap_ok h
    rcases hcase with ⟨heth, -⟩ | ⟨-, rfl⟩
    · exact absurd heth htoken
    · obtain ⟨-, -, -, -, habsent, -⟩ := newSwapChecks_ok.mp hchecks
      exact .openLock msg.sender a contractId hsender habsent rfl
  | redeem contractId preimage h =>
    obtain ⟨hchecks, hpay⟩ := World.redeem_ok.mp h
    exact .openRedeem contractId preimage (redeemChecks_ok.mp hchecks).1 hpay
  | refund sender contractId hsender h =>
    obtain ⟨hchecks, hpay⟩ := World.refund_ok.mp h
    exact .openRefund contractId (refundChecks_ok.mp hchecks).1 hpay
  | other h => subst h; exact .foreign rfl (.inl rfl) fun _ => .inl le_rfl

theorem Effect.of_acts {S : Setting} {now : Uint256} {w w' : World}
    (h : Acts S now w w') : Effect S w w' := by
  cases h with
  | newSwap msg a hsender htoken h =>
    obtain ⟨contractId, hchecks, hcase⟩ := World.newSwap_ok h
    obtain ⟨-, -, -, -, habsent, hpay⟩ := newSwapChecks_ok.mp hchecks
    -- An ETH lock writes in one step.
    rcases hcase with ⟨-, rfl⟩ | ⟨herc20, -⟩
    · have hvalue : msg.value = a.amount := by
        rcases hpay with ⟨-, hvalue⟩ | ⟨herc20, -⟩
        · exact hvalue
        · exact absurd htoken herc20
      rw [hvalue]
      exact .lockEth msg.sender a contractId hsender htoken habsent rfl
    · exact absurd htoken herc20
  | transfer h => exact .transfer h
  -- A gift adds to one asset.
  | gift asset n h =>
    subst h
    refine .foreign rfl (.inr rfl) fun asset' => .inl ?_
    by_cases hasset : asset' = asset
    · subst hasset; simp
    · simp [hasset]
  -- A token that is not exact may change the balance of the HTLC.
  | drift token n htoken hexact h =>
    subst h
    refine .foreign rfl (.inr rfl) fun asset => ?_
    by_cases hasset : asset = token
    · subst hasset; exact .inr hexact
    · simp [hasset]

theorem Return.of_finish {S : Setting} {w w' : World} (h : w.finish S = some w') :
    Return S w w' := by
  unfold World.finish at h
  split at h
  · rename_i sender a contractId moved fs hframes
    split_ifs at h with hmoved
    cases h
    exact .closeLock sender a contractId moved fs hframes (fun hexact => by simp_all) rfl
  · rename_i p moved done fs hframes
    split_ifs at h with hmoved
    cases h
    exact .closePayout p moved done fs hframes rfl
  · rename_i fs hframes
    cases h
    exact .closeOther fs hframes rfl
  · cases h

theorem moves_cases {S : Setting} {w w' : World} (h : (anyTime S).Moves w w') :
    Effect S w w' ∨ Return S w w' := by
  obtain ⟨now, hmoves⟩ := CallSystem.Moves.of_union h
  cases hmoves with
  | enter h => exact .inl (.of_enters h)
  | act h => exact .inl (.of_acts h)
  | leave h => exact .inr (.of_finish h)

/-- The token of the innermost frame only moves balances and marks its frame. -/
theorem World.transfer_frames {S : Setting} {w w' : World} (h : w.transfer S = some w') :
    w'.htlc = w.htlc ∧
    ((∃ sender a contractId fs, w.frames = .newSwap sender a contractId false :: fs ∧
        w'.frames = .newSwap sender a contractId true :: fs) ∨
      (∃ p done fs, w.frames = .payout p false done :: fs ∧
        w'.frames = .payout p true done :: fs)) := by
  unfold World.transfer at h
  split at h
  · rename_i sender a contractId fs hframes
    cases h
    exact ⟨rfl, .inl ⟨sender, a, contractId, fs, hframes, rfl⟩⟩
  · rename_i p done fs hframes
    split_ifs at h <;> cases h <;> exact ⟨rfl, .inr ⟨p, done, fs, hframes, rfl⟩⟩
  · cases h

end Kael.HashedTimelock
