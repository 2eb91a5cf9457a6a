import Kael.Contracts.Events
import Kael.Lib.Histories
import Mathlib.Tactic.Abel

/-!
# Orders Are Used Once

The EIP-712 domain of an order names neither a chain nor a contract, so the
same signature is good everywhere. What keeps it from being replayed is the
chain id in the order and the nonce that `settleLeg` and `authorizeLeg` consume
before any foreign code runs. Here the calls that have taken effect are noted
next to the state: every nonce is consumed by one of them at most, and the
Settlement's locks are those of its `settleLeg` calls, one for one. Side by side
on several chains, every order is locked on one of them at most, and once
(`orders_settle_once`).
-/

namespace Kael.Exchange

open NestedCalls
open Kael.Settlement (Failure SettleLeg Leg)
open HashedTimelock (NewSwap Payout Event newSwapChecks_ok computeContractId)
open OrderLib (SignedByMaker)

/-! ## The calls of a run -/

/-- The moves of a chain, labelled by the calls that cause them. -/
def calls (cr : Crypto) (D : Deployment) (π : Policy) : Labelled (Address × Call) State where
  enter l s s' :=
    (∃ now sender call, l = some (sender, call) ∧ D.Account sender ∧ π sender call ∧
      invoke cr D now sender call s = .ok (.waiting s')) ∨
    l = none ∧ s' = { s with frames := .other :: s.frames }
  act l s s' :=
    (∃ now sender call, l = some (sender, call) ∧ D.Account sender ∧ π sender call ∧
      invoke cr D now sender call s = .ok (.done s')) ∨
    l = none ∧ ∃ now, resume cr D now s = .ok (.waiting s')
  leave l s s' := l = none ∧ ∃ now, resume cr D now s = .ok (.done s')

/-- A chain with the calls that have taken effect. -/
abbrev Traced := Noted (Address × Call) State

/-- Both contracts freshly deployed, and not yet called. -/
def Traced.fresh (l : Ledger Address Address) : Traced := ⟨State.fresh l, []⟩

section Calls

variable {cr : Crypto} {D : Deployment} {π : Policy} {s s' : State}
  {l : Option (Address × Call)}

/-- The labels change nothing about the runs. -/
theorem calls_plain (cr : Crypto) (D : Deployment) (π : Policy) :
    (calls cr D π).plain = anyTime cr D π :=
  plain_eq_anyTime (fun _ _ sender call => some (sender, call)) (fun _ _ _ => Iff.rfl)
    (fun _ _ _ => Iff.rfl) fun _ _ _ => Iff.rfl

/-- A move is a call, foreign code of somebody else, or a return. -/
theorem calls_moves (h : (calls cr D π).Moves l s s') :
    (∃ now sender call o, l = some (sender, call) ∧ D.Account sender ∧ π sender call ∧
      invoke cr D now sender call s = .ok o ∧ s' = o.state) ∨
    l = none ∧ s' = { s with frames := .other :: s.frames } ∨
    l = none ∧ ∃ now o, resume cr D now s = .ok o ∧ s' = o.state := by
  -- A call is noted when it is made; foreign code and returns are not.
  cases h with
  | enter h =>
    obtain ⟨now, sender, call, hl, hsender, hpolicy, h⟩ | ⟨hl, h⟩ := h
    · exact .inl ⟨now, sender, call, _, hl, hsender, hpolicy, h, rfl⟩
    · exact .inr (.inl ⟨hl, h⟩)
  | act h =>
    obtain ⟨now, sender, call, hl, hsender, hpolicy, h⟩ | ⟨hl, now, h⟩ := h
    · exact .inl ⟨now, sender, call, _, hl, hsender, hpolicy, h, rfl⟩
    · exact .inr (.inr ⟨hl, now, _, h, rfl⟩)
  | leave h =>
    obtain ⟨hl, now, h⟩ := h
    exact .inr (.inr ⟨hl, now, _, h, rfl⟩)

end Calls

/-! ## Locks of the Settlement -/

/-- The lock events of which the Settlement is the sender. -/
def settlementLocks (D : Deployment) (logs : List Event) : List Event :=
  logs.filter fun
    | .logNewSwap _ sender .. => decide (sender = D.settlement)
    | _ => false

/-- The lock event of a `settleLeg`: its token and amount are those of the order. -/
def SettleLeg.lockEvent (cr : Crypto) (D : Deployment) (a : SettleLeg) : Event :=
  .logNewSwap (a.contractId cr D.settlement) D.settlement a.recipient a.order.sellToken
    a.order.sellAmount a.hashlock a.timelock

/-- The locks of the Settlement that a waiting call is still to make. -/
def Frame.pending (cr : Crypto) (D : Deployment) : Frame → List Event
  | .newSwap sender a contractId => settlementLocks D [lockEvent sender a contractId]
  | .payout done => settlementLocks D [done]
  | .settleReceive a _ | .settleApprove a _ => [SettleLeg.lockEvent cr D a]
  | .settleLock a _ got => settlementLocks D [lockEvent D.settlement a.lock got]
  | _ => []

/-- The locks of the Settlement, made and pending. -/
def State.booked (cr : Crypto) (D : Deployment) (s : State) : Multiset Event :=
  ↑(settlementLocks D s.htlc.logs) + ↑(s.frames.flatMap (Frame.pending cr D))

/-- Code that consumes no nonce and books `extra`. -/
structure Handles (cr : Crypto) (D : Deployment) (extra : Multiset Event) (s : State)
    (o : Outcome) : Prop where
  nonces : o.state.settlement.consumedNonce = s.settlement.consumedNonce
  booked : o.state.booked cr D = s.booked cr D + extra

section Code

variable {cr : Crypto} {D : Deployment} {now : Uint256} {s s₁ : State} {o : Outcome}
  {extra : Multiset Event}

theorem settlementLocks_append (logs logs' : List Event) :
    settlementLocks D (logs ++ logs') = settlementLocks D logs ++ settlementLocks D logs' :=
  List.filter_append ..

theorem Handles.refl : Handles cr D 0 s (.done s) := ⟨rfl, (add_zero _).symm⟩

theorem Handles.ledger (l : Ledger Address Address) :
    Handles cr D 0 s (.done { s with ledger := l }) := ⟨rfl, (add_zero _).symm⟩

/-- Only nonces, logs and waiting calls matter. -/
theorem Handles.of_eq (h : Handles cr D extra s₁ o)
    (hnonces : s₁.settlement.consumedNonce = s.settlement.consumedNonce)
    (hlogs : s₁.htlc.logs = s.htlc.logs) (hframes : s₁.frames = s.frames) :
    Handles cr D extra s o := by
  refine ⟨h.nonces.trans hnonces, h.booked.trans ?_⟩
  rw [State.booked, hlogs, hframes, State.booked]

theorem Handles.push {f : Frame}
    (hnonces : s₁.settlement.consumedNonce = s.settlement.consumedNonce)
    (hlogs : s₁.htlc.logs = s.htlc.logs) (hframes : s₁.frames = f :: s.frames) :
    Handles cr D ↑(f.pending cr D) s (.waiting s₁) := by
  refine ⟨hnonces, ?_⟩
  simp only [State.booked, Outcome.state, hlogs, hframes, List.flatMap_cons,
    ← Multiset.coe_add]
  abel

/-- Code that goes on after an event was emitted. -/
theorem Handles.after_emit {e : Event} (h : Handles cr D extra s₁ o)
    (hnonces : s₁.settlement.consumedNonce = s.settlement.consumedNonce)
    (hlogs : s₁.htlc.logs = s.htlc.logs ++ [e]) (hframes : s₁.frames = s.frames) :
    Handles cr D (↑(settlementLocks D [e]) + extra) s o := by
  refine ⟨h.nonces.trans hnonces, h.booked.trans ?_⟩
  simp only [State.booked, hlogs, hframes, settlementLocks_append, ← Multiset.coe_add]
  abel

theorem Handles.pay {src : Address} {contractId : Bytes32} {p : Payout}
    {ethFail tokenFail : Failure} {wait : Frame} {k : Rest}
    (h : s.pay D src contractId p ethFail tokenFail wait k = .ok o)
    (hwait : wait.pending cr D = []) (hk : ∀ s₁, k s₁ = .ok o → Handles cr D 0 s₁ o) :
    Handles cr D 0 s o := by
  have hzero : (↑(wait.pending cr D) : Multiset Event) = 0 := by rw [hwait]; rfl
  rcases State.pay_ok.mp h with ⟨-, -, -, l, -, rfl⟩ | ⟨-, l, -, hrest⟩ | ⟨-, -, -, -, rfl⟩
  · rw [← hzero]
    exact .push rfl rfl rfl
  · exact (hk _ hrest).of_eq rfl rfl rfl
  · rw [← hzero]
    exact .push rfl rfl rfl

/-- A lock is booked when its checks have passed. -/
theorem Handles.newSwap {msg : Msg} {a : NewSwap} {wait : Bytes32 → Frame} {k : Bytes32 → Rest}
    (h : s.newSwap cr D now msg a wait k = .ok o)
    (hwait : ∀ id, (wait id).pending cr D = settlementLocks D [lockEvent msg.sender a id])
    (hk : ∀ id s₁, k id s₁ = .ok o → Handles cr D 0 s₁ o) :
    Handles cr D ↑(settlementLocks D [lockEvent msg.sender a (computeContractId cr msg.sender a)])
      s o := by
  obtain ⟨id, hchecks, hcase⟩ := State.newSwap_ok.mp h
  obtain ⟨-, -, -, rfl, -⟩ := newSwapChecks_ok.mp hchecks
  rcases hcase with ⟨-, hrest⟩ | ⟨-, l, -, hrest⟩ | ⟨-, -, -, -, rfl⟩
  · have hemit : Handles cr D _ s o := (hk _ _ hrest).after_emit rfl rfl rfl
    rwa [add_zero] at hemit
  · have hemit : Handles cr D _ s o := (hk _ _ hrest).after_emit rfl rfl rfl
    rwa [add_zero] at hemit
  · rw [← hwait]
    exact .push rfl rfl rfl

theorem Handles.settleLocked {a : SettleLeg} {contractId got : Bytes32}
    (h : s.settleLocked a contractId got = .ok o) : Handles cr D 0 s o := by
  obtain ⟨-, rfl⟩ := State.settleLocked_ok.mp h
  exact Handles.refl.of_eq rfl rfl rfl

/-- The Settlement locks what the order says. -/
theorem settlementLocks_settled (a : SettleLeg) :
    settlementLocks D [lockEvent D.settlement a.lock (computeContractId cr D.settlement a.lock)] =
      [SettleLeg.lockEvent cr D a] := by
  simp [settlementLocks, lockEvent, SettleLeg.lockEvent, Settlement.SettleLeg.lock,
    Settlement.SettleLeg.contractId]

theorem Handles.settleApproved {value : Uint256} {a : SettleLeg} {contractId : Bytes32}
    (h : State.settleApproved cr D now value a contractId s = .ok o) :
    Handles cr D {SettleLeg.lockEvent cr D a} s o := by
  have hlock : Handles cr D _ s o := Handles.newSwap h (fun _ => rfl) fun _ _ => .settleLocked
  rwa [settlementLocks_settled] at hlock

theorem Handles.settleReceived {a : SettleLeg} {contractId : Bytes32}
    (h : State.settleReceived cr D now a contractId s = .ok o) :
    Handles cr D {SettleLeg.lockEvent cr D a} s o := by
  rcases State.tokenCall_ok.mp h with ⟨-, l, -, hrest⟩ | ⟨-, -, -, rfl⟩
  · exact (Handles.settleApproved hrest).of_eq rfl rfl rfl
  · exact Handles.push (f := .settleApprove a contractId) rfl rfl rfl

theorem Handles.receiveAndLock {value : Uint256} {a : SettleLeg} {contractId : Bytes32}
    (h : s.receiveAndLock cr D now value a contractId = .ok o) :
    Handles cr D {SettleLeg.lockEvent cr D a} s o := by
  rcases State.receiveAndLock_ok.mp h with
    ⟨-, -, l, -, hlock⟩ | ⟨-, -, l, -, hlock⟩ | ⟨-, -, -, -, -, -, rfl⟩
  · exact (Handles.settleApproved hlock).of_eq rfl rfl rfl
  · exact (Handles.settleReceived hlock).of_eq rfl rfl rfl
  · exact Handles.push (f := .settleReceive a contractId) rfl rfl rfl

theorem Handles.forwardLeg {contractId : Bytes32} {leg : Leg}
    (h : State.forwardLeg D contractId leg s = .ok o) : Handles cr D 0 s o :=
  Handles.pay h rfl fun _ hk => by
    cases hk
    exact Handles.refl.of_eq rfl rfl rfl

theorem Handles.refund {sender : Address} {contractId : Bytes32} {wait : Frame} {k : Rest}
    (h : s.refund D now sender contractId wait k = .ok o) (hwait : wait.pending cr D = [])
    (hk : ∀ s₁, k s₁ = .ok o → Handles cr D 0 s₁ o) : Handles cr D 0 s o := by
  obtain ⟨-, hpay⟩ := State.refund_ok.mp h
  have hrefund : Handles cr D 0 (s.withHtlc (s.htlc.setRefunded contractId)) o := by
    apply Handles.pay hpay hwait
    intro s₁ hrest
    have hemit := (hk _ hrest).after_emit (s := s₁) (e := .logRefund contractId) rfl rfl rfl
    rwa [add_zero] at hemit
  exact hrefund.of_eq rfl rfl rfl

/-! ## Each call -/

/-- The call consumes the nonce `n` of `m` if it succeeds. -/
def Call.Consumes (m : Address) (n : Uint256) : Call → Prop
  | .authorizeLeg order _ _ => order.maker = m ∧ order.nonce = n
  | .settleLeg _ a => a.order.maker = m ∧ a.order.nonce = n
  | _ => False

theorem consumed_iff {st : Settlement.Storage} {maker m : Address} {nonce n : Uint256} :
    (st.consume maker nonce).consumedNonce m n = true ↔
      st.consumedNonce m n = true ∨ maker = m ∧ nonce = n := by
  rw [Settlement.Storage.consume_consumedNonce]
  split_ifs with heq
  · simp [heq]
  · simp [eq_comm (a := maker), eq_comm (a := nonce), heq]

/-- The locks of the Settlement that a call asks for. -/
def Call.locks (cr : Crypto) (D : Deployment) : Call → Multiset Event
  | .settleLeg _ a => {SettleLeg.lockEvent cr D a}
  | _ => 0

/-- What a call that takes effect does to nonces and locks. -/
structure TakesEffect (cr : Crypto) (D : Deployment) (x : Address) (call : Call) (s s' : State) :
    Prop where
  fresh : ∀ m n, call.Consumes m n → s.settlement.consumedNonce m n = false
  nonces : ∀ m n, s'.settlement.consumedNonce m n = true ↔
    s.settlement.consumedNonce m n = true ∨ call.Consumes m n
  booked : s'.booked cr D = s.booked cr D + call.locks cr D
  order : ∀ value a, call = .settleLeg value a →
    SignedByMaker cr a.order a.signature ∧ a.order.sellChainId = D.chainId ∧ x = a.order.maker

/-- A call that handles no nonce and asks for no lock of the Settlement. -/
theorem Handles.takesEffect (h : Handles cr D 0 s o) (x : Address) (call : Call)
    (hconsumes : ∀ m n, ¬call.Consumes m n) (hlocks : call.locks cr D = 0) :
    TakesEffect cr D x call s o.state where
  fresh m n hm := absurd hm (hconsumes m n)
  nonces m n := by simp [h.nonces, hconsumes m n]
  booked := by rw [hlocks]; exact h.booked
  order value a hcall := by
    subst hcall
    exact absurd ⟨rfl, rfl⟩ (hconsumes a.order.maker a.order.nonce)

theorem invoke_settleLeg_takesEffect {x : Address} {value : Uint256} {a : SettleLeg}
    (h : invoke cr D now x (.settleLeg value a) s = .ok o) :
    TakesEffect cr D x (.settleLeg value a) s o.state := by
  obtain ⟨l, -, hrest⟩ := State.receive_ok.mp h
  obtain ⟨hchecks, hlock⟩ := State.settleLeg_ok.mp hrest
  obtain ⟨hsigned, -, hchain, hsender, hnonce⟩ := Settlement.settleChecks_ok.mp hchecks
  have hhandles := Handles.receiveAndLock hlock
  refine ⟨?_, fun m n => ?_, hhandles.booked, ?_⟩
  · rintro m n ⟨rfl, rfl⟩
    exact hnonce
  · rw [hhandles.nonces]
    exact consumed_iff
  · rintro value' a' ⟨⟩
    exact ⟨hsigned, hchain, hsender⟩

theorem invoke_authorizeLeg_takesEffect {x : Address} {order : OrderLib.Order}
    {signature : List Byte} {nowTs : Uint256}
    (h : invoke cr D now x (.authorizeLeg order signature nowTs) s = .ok o) :
    TakesEffect cr D x (.authorizeLeg order signature nowTs) s o.state := by
  obtain ⟨st, hst, rfl⟩ := invoke_authorizeLeg_ok.mp h
  obtain ⟨-, -, hnonce, rfl⟩ := Settlement.authorizeLeg_ok.mp hst
  refine ⟨?_, fun m n => consumed_iff, (add_zero _).symm, nofun⟩
  rintro m n ⟨rfl, rfl⟩
  exact hnonce

/-- **A call takes effect with a fresh nonce**, and locks what it was asked to. -/
theorem invoke_takesEffect {x : Address} (hx : D.Account x) {call : Call}
    (h : invoke cr D now x call s = .ok o) : TakesEffect cr D x call s o.state := by
  cases call with
  -- An account's own lock is not one of the Settlement's.
  | newSwap value a =>
    obtain ⟨l, -, hrest⟩ := State.receive_ok.mp h
    have hlock : Handles cr D _ _ o := Handles.newSwap hrest (fun _ => rfl) fun _ _ hk => by
      cases hk
      exact .refl
    have hnone : settlementLocks D [lockEvent x a (computeContractId cr x a)] = [] := by
      simp [settlementLocks, lockEvent, hx.2.2]
    rw [hnone] at hlock
    have hall : Handles cr D 0 s o := hlock.of_eq rfl rfl rfl
    exact hall.takesEffect x (.newSwap value a) (fun _ _ => id) rfl
  | settleLeg value a => exact invoke_settleLeg_takesEffect h
  | authorizeLeg order signature nowTs => exact invoke_authorizeLeg_takesEffect h
  -- Payouts book nothing: their events are no locks.
  | redeem contractId preimage =>
    obtain ⟨-, hpay⟩ := State.redeem_ok.mp h
    have hredeem : Handles cr D 0 _ o := Handles.pay hpay rfl fun s₁ hk => by
      cases hk
      exact Handles.refl.after_emit (s := s₁) (e := .logRedeem contractId preimage) rfl rfl rfl
    have hall : Handles cr D 0 s o := hredeem.of_eq rfl rfl rfl
    exact hall.takesEffect x (.redeem contractId preimage) (fun _ _ => id) rfl
  | refund contractId =>
    have hrefund : Handles cr D 0 s o := Handles.refund h rfl fun _ hk => by
      cases hk
      exact .refl
    exact hrefund.takesEffect x (.refund contractId) (fun _ _ => id) rfl
  | refundLeg contractId =>
    obtain ⟨-, hrest⟩ := State.refundLeg_ok.mp h
    have hrefund : Handles cr D 0 _ o := Handles.refund hrest rfl fun _ => Handles.forwardLeg
    have hall : Handles cr D 0 s o := hrefund.of_eq rfl rfl rfl
    exact hall.takesEffect x (.refundLeg contractId) (fun _ _ => id) rfl
  -- Calls of tokens touch neither the log nor the nonces.
  | transfer token dest amount =>
    obtain ⟨-, l, -, rfl⟩ := invoke_transfer_ok.mp h
    exact (Handles.ledger l).takesEffect x (.transfer token dest amount) (fun _ _ => id) rfl
  | approve token spender amount =>
    obtain ⟨-, rfl⟩ := invoke_approve_ok.mp h
    exact (Handles.ledger _).takesEffect x (.approve token spender amount) (fun _ _ => id) rfl
  | transferFrom token owner dest amount =>
    obtain ⟨-, l, -, rfl⟩ := invoke_transferFrom_ok.mp h
    exact (Handles.ledger l).takesEffect x (.transferFrom token owner dest amount) (fun _ _ => id) rfl

/-- A returning call makes the lock it has booked. -/
theorem resume_handles (h : resume cr D now s = .ok o) : Handles cr D 0 s o := by
  obtain ⟨f, fs, hframes, hrest⟩ := resume_ok.mp h
  have hrun : Handles cr D ↑(f.pending cr D) { s with frames := fs } o := by
    cases f with
    -- The lock of the waiting call is booked when its event is emitted.
    | newSwap sender a id =>
      cases hrest
      have hemit := Handles.after_emit (s := { s with frames := fs })
        (e := lockEvent sender a id) (@Handles.refl cr D (State.withHtlc { s with frames := fs }
          (s.htlc.writeSwap sender a id))) rfl rfl rfl
      rwa [add_zero] at hemit
    | payout done =>
      cases hrest
      have hemit := Handles.after_emit (s := { s with frames := fs }) (e := done)
        (@Handles.refl cr D (State.withHtlc { s with frames := fs } (s.htlc.emit done))) rfl rfl rfl
      rwa [add_zero] at hemit
    | settleReceive a id => exact Handles.settleReceived hrest
    | settleApprove a id => exact Handles.settleApproved hrest
    | settleLock a id got =>
      have hlocked : Handles cr D 0 _ o := Handles.settleLocked hrest
      have hemit := hlocked.after_emit (s := { s with frames := fs })
        (e := lockEvent D.settlement a.lock got) rfl rfl rfl
      rwa [add_zero] at hemit
    | legRefund id leg =>
      exact (Handles.forwardLeg hrest).after_emit (e := .logRefund id) rfl rfl rfl
    | legForward id leg =>
      cases hrest
      exact Handles.refl.of_eq rfl rfl rfl
    | other =>
      cases hrest
      exact .refl
  -- What was pending in the innermost frame is now in the log.
  refine ⟨hrun.nonces, hrun.booked.trans ?_⟩
  simp only [State.booked, hframes, List.flatMap_cons, ← Multiset.coe_add]
  abel

end Code

/-! ## The accounts of a chain -/

/-- The call settles a leg of `order`, if it takes effect. -/
def Call.Settles (order : OrderLib.Order) : Call → Prop
  | .settleLeg _ a => a.order = order
  | _ => False

instance (m : Address) (n : Uint256) : DecidablePred (Call.Consumes m n)
  | .authorizeLeg .. => inferInstanceAs (Decidable (_ ∧ _))
  | .settleLeg .. => inferInstanceAs (Decidable (_ ∧ _))
  | .newSwap .. | .redeem .. | .refund .. | .refundLeg .. | .transfer .. | .approve ..
  | .transferFrom .. => isFalse id

instance (order : OrderLib.Order) : DecidablePred (Call.Settles order)
  | .settleLeg .. => inferInstanceAs (Decidable (_ = _))
  | .newSwap .. | .redeem .. | .refund .. | .authorizeLeg .. | .refundLeg .. | .transfer ..
  | .approve .. | .transferFrom .. => isFalse id

/-- How many calls have consumed the nonce. -/
def Traced.uses (t : Traced) (m : Address) (n : Uint256) : Nat :=
  t.notes.countP fun p => p.2.Consumes m n

/-- How many calls have settled a leg of the order. -/
def Traced.settlements (t : Traced) (order : OrderLib.Order) : Nat :=
  t.notes.countP fun p => p.2.Settles order

/-- The storage says what the calls have done. -/
structure Accounted (cr : Crypto) (D : Deployment) (t : Traced) : Prop where
  nonces : ∀ m n, t.uses m n = if t.state.settlement.consumedNonce m n then 1 else 0
  booked : t.state.booked cr D = (t.notes.map fun p => p.2.locks cr D).sum
  orders : ∀ x value a, (x, .settleLeg value a) ∈ t.notes →
    SignedByMaker cr a.order a.signature ∧ a.order.sellChainId = D.chainId ∧ x = a.order.maker

section Accounts

variable {cr : Crypto} {D : Deployment} {π : Policy} {t : Traced} {s' : State}

theorem Accounted.fresh {l : Ledger Address Address} : Accounted cr D (Traced.fresh l) :=
  ⟨fun _ _ => rfl, rfl, fun _ _ _ h => absurd h List.not_mem_nil⟩

/-- Code that runs between calls. -/
theorem Accounted.handles {o : Outcome} (h : Accounted cr D t)
    (hhandles : Handles cr D 0 t.state o) : Accounted cr D ⟨o.state, t.notes⟩ := by
  refine ⟨fun m n => ?_, ?_, h.orders⟩
  · dsimp only [Traced.uses]
    rw [hhandles.nonces]
    exact h.nonces m n
  · rw [hhandles.booked, add_zero]
    exact h.booked

/-- A call that takes effect is entered in the accounts. -/
theorem Accounted.call {x : Address} {call : Call} (h : Accounted cr D t)
    (heffect : TakesEffect cr D x call t.state s') :
    Accounted cr D ⟨s', t.notes ++ [(x, call)]⟩ := by
  refine ⟨fun m n => ?_, ?_, ?_⟩
  -- Each nonce is used once more exactly if this call consumes it.
  · have hbefore := h.nonces m n
    have hafter := heffect.nonces m n
    simp only [Traced.uses, List.countP_append, List.countP_singleton] at hbefore ⊢
    by_cases hconsumes : call.Consumes m n
    · rw [hbefore, heffect.fresh m n hconsumes, hafter.mpr (.inr hconsumes)]
      simp [hconsumes]
    · have hsame : s'.settlement.consumedNonce m n = t.state.settlement.consumedNonce m n := by
        rw [Bool.eq_iff_iff, hafter, or_iff_left hconsumes]
      rw [hbefore, hsame]
      simp [hconsumes]
  -- The Settlement's locks are those of the calls so far, and the new one.
  · rw [heffect.booked, h.booked, List.map_append, List.sum_append]
    simp
  -- The order of a settled leg is signed by its maker and names this chain.
  · intro y value a hmem
    rcases List.mem_append.mp hmem with hold | hnew
    · exact h.orders y value a hold
    · obtain ⟨rfl, hcall⟩ := Prod.mk.inj (List.mem_singleton.mp hnew)
      exact heffect.order value a hcall.symm

/-- The accounts stay true. -/
theorem Accounted.invariant (cr : Crypto) (D : Deployment) (π : Policy) :
    Invariant (calls cr D π).noted (Accounted cr D) := by
  apply Labelled.noted_invariant
  intro t s' l ht hmove
  rcases calls_moves hmove with ⟨now, x, call, o, rfl, hx, -, h, rfl⟩ | ⟨rfl, rfl⟩ |
    ⟨rfl, now, o, h, rfl⟩
  · exact ht.call (invoke_takesEffect hx h)
  · rw [Option.toList_none, List.append_nil]
    exact ht.handles (o := .waiting _) (Handles.push (f := .other) rfl rfl rfl)
  · rw [Option.toList_none, List.append_nil]
    exact ht.handles (resume_handles h)

/-- A consumed nonce is never set free. -/
theorem consumed_invariant (cr : Crypto) (D : Deployment) (π : Policy) (m : Address)
    (n : Uint256) : Invariant (calls cr D π).noted
      fun t => t.state.settlement.consumedNonce m n = true := by
  apply Labelled.noted_invariant
  intro t s' l ht hmove
  rcases calls_moves hmove with ⟨now, x, call, o, -, hx, -, h, rfl⟩ | ⟨-, rfl⟩ |
    ⟨-, now, o, h, rfl⟩
  · exact ((invoke_takesEffect hx h).nonces m n).mpr (.inl ht)
  · exact ht
  · rw [← ht]
    have hresumed : Handles cr D 0 _ o := resume_handles h
    exact congrFun (congrFun hresumed.nonces m) n

theorem Accounted.uses_le_one (h : Accounted cr D t) (m : Address) (n : Uint256) :
    t.uses m n ≤ 1 := by
  rw [h.nonces]
  split_ifs <;> omega

/-- A settlement of an order consumes the order's nonce. -/
theorem Accounted.settlements_le_one (h : Accounted cr D t) (order : OrderLib.Order) :
    t.settlements order ≤ 1 := by
  refine le_trans ?_ (h.uses_le_one order.maker order.nonce)
  apply List.countP_mono_left
  rintro ⟨x, call⟩ - hsettles
  simp only [decide_eq_true_eq] at hsettles ⊢
  cases call with
  | settleLeg value a => cases hsettles; exact ⟨rfl, rfl⟩
  | _ => exact hsettles.elim

/-- An order is settled on the chain that it names, signed by its maker. -/
theorem Accounted.of_settlements {order : OrderLib.Order} (h : Accounted cr D t)
    (hsettled : 0 < t.settlements order) :
    order.sellChainId = D.chainId ∧ ∃ signature, SignedByMaker cr order signature := by
  obtain ⟨⟨x, call⟩, hmem, hsettles⟩ := List.countP_pos_iff.mp hsettled
  have hsettles : call.Settles order := of_decide_eq_true hsettles
  cases call with
  | settleLeg value a =>
    cases hsettles
    obtain ⟨hsigned, hchain, -⟩ := h.orders x value a hmem
    exact ⟨hchain, _, hsigned⟩
  | _ => exact hsettles.elim

end Accounts

/-! ## Several chains -/

/-- Each chain with anybody calling anything. -/
def chains {κ : Type} (cr : Crypto) (D : κ → Deployment) : κ → CallSystem Traced :=
  fun i => (calls cr (D i) anyone).noted

/-- `w` is reachable from fresh deployments on all chains. -/
def ReachableTogether {κ : Type} [DecidableEq κ] (cr : Crypto) (D : κ → Deployment)
    (w : κ → Config Traced) : Prop :=
  ∃ l : κ → Ledger Address Address, (∀ i, Genesis (D i) (l i)) ∧
    RunTogether (chains cr D) (fun i => ⟨Traced.fresh (l i), []⟩) w

/-- **Orders are used once.** In any interleaving of calls on any chains, with
    failing and nested calls: each chain's nonces are consumed by one of its
    calls at most and stay consumed; an order settles at most one leg on all
    chains together, on the chain it names; and the Settlement's locks are those
    of the orders it has settled, one for one, with their tokens and amounts. -/
theorem orders_settle_once {κ : Type} [DecidableEq κ] {cr : Crypto} {D : κ → Deployment}
    (hchains : ∀ i j, (D i).chainId = (D j).chainId → i = j) {w : κ → Config Traced}
    (hreach : ReachableTogether cr D w) :
    (∀ i m n, (w i).cur.uses m n ≤ 1 ∧
      ((w i).cur.state.settlement.consumedNonce m n = true ↔ (w i).cur.uses m n = 1)) ∧
    (∀ w', RunTogether (chains cr D) w w' → ∀ i, (w i).saved = [] → ∀ m n,
      (w i).cur.state.settlement.consumedNonce m n = true →
        (w' i).All fun t => t.state.settlement.consumedNonce m n = true) ∧
    (∀ order i, (w i).cur.settlements order ≤ 1 ∧
      (0 < (w i).cur.settlements order → order.sellChainId = (D i).chainId ∧
        (∃ signature, SignedByMaker cr order signature) ∧
        ∀ j, 0 < (w j).cur.settlements order → i = j)) ∧
    ∀ i, ↑(settlementLocks (D i) (w i).cur.state.htlc.logs) ≤
        ((w i).cur.notes.map fun p => p.2.locks cr (D i)).sum ∧
      ((w i).cur.state.frames = [] → ↑(settlementLocks (D i) (w i).cur.state.htlc.logs) =
        ((w i).cur.notes.map fun p => p.2.locks cr (D i)).sum) := by
  obtain ⟨l, -, hrun⟩ := hreach
  have haccounted : ∀ i, Accounted cr (D i) (w i).cur := fun i =>
    ((Accounted.invariant cr (D i) anyone).run (hrun.at i) (.of_cur .fresh)).1
  refine ⟨fun i m n => ⟨(haccounted i).uses_le_one m n, ?_⟩, ?_, ?_, fun i => ?_⟩
  -- The nonces that are consumed, and how often.
  · rw [(haccounted i).nonces]
    split_ifs with hconsumed <;> simp [hconsumed]
  -- A consumed nonce stays consumed, on every chain.
  · intro w' hrun' i hsaved m n hconsumed
    have hstart : w i = ⟨(w i).cur, []⟩ := by rw [← hsaved]
    have hrun_i := hrun'.at i
    rw [hstart] at hrun_i
    exact (consumed_invariant cr (D i) anyone m n).run hrun_i (.of_cur hconsumed)
  -- An order is settled on the chain that it names, and on no other.
  · intro order i
    refine ⟨(haccounted i).settlements_le_one order, fun hsettled => ?_⟩
    obtain ⟨hchain, hsigned⟩ := (haccounted i).of_settlements hsettled
    refine ⟨hchain, hsigned, fun j hsettled' => hchains i j ?_⟩
    rw [← hchain, ((haccounted j).of_settlements hsettled').1]
  -- Outside all calls, nothing is pending.
  · rw [← (haccounted i).booked]
    refine ⟨Multiset.le_add_right _ _, fun hframes => ?_⟩
    rw [State.booked, hframes]
    exact (add_zero _).symm

/-- The sample deployment on chain 31337, and the same contracts on chain 1. -/
def Sample.twoChains : Bool → Deployment
  | false => Sample.deployment
  | true => { Sample.deployment with chainId := 1 }

/-- An order of 5 wei that is settled on one of two chains is not settled on
    the other. -/
theorem orders_settle_once_on_two_chains :
    ∃ w, ReachableTogether Sample.crypto Sample.twoChains w ∧
      settlementLocks Sample.deployment (w false).cur.state.htlc.logs =
        [SettleLeg.lockEvent Sample.crypto Sample.deployment Sample.ethOrder.leg] ∧
      (w false).cur.uses Sample.maker 1 = 1 ∧
      (0 < (w false).cur.settlements Sample.ethOrder.order →
        (w true).cur.settlements Sample.ethOrder.order = 0) := by
  obtain ⟨c, hrun, htest⟩ := (script Sample.crypto Sample.deployment).exists_run
    [.tx 10 Sample.maker (.settleLeg 5 Sample.ethOrder.leg)] ⟨State.fresh Sample.ledger, []⟩
    (fun c => decide (c.cur.settlement.consumedNonce Sample.maker 1 = true ∧
      settlementLocks Sample.deployment c.cur.htlc.logs =
        [SettleLeg.lockEvent Sample.crypto Sample.deployment Sample.ethOrder.leg]))
    (by decide +kernel)
  obtain ⟨hconsumed, hlocks⟩ := of_decide_eq_true htest
  -- The computed run, with its calls noted.
  rw [← calls_plain] at hrun
  obtain ⟨c', rfl, hnoted⟩ := Labelled.noted_of_run
    (c := ⟨Traced.fresh Sample.ledger, []⟩) hrun
  have htogether : ReachableTogether Sample.crypto Sample.twoChains
      (Function.update (fun _ => ⟨Traced.fresh Sample.ledger, []⟩) false c') := by
    refine ⟨fun _ => Sample.ledger, fun i => ?_, RunTogether.single (i := false) hnoted⟩
    cases i <;> exact Sample.genesis
  have hlaw := orders_settle_once (by decide) htogether
  refine ⟨_, htogether, hlocks, ((hlaw.1 false Sample.maker 1).2).mp hconsumed, fun hsettled => ?_⟩
  by_contra hnot
  have hsame := ((hlaw.2.2.1 _ false).2 hsettled).2.2 true (Nat.pos_of_ne_zero hnot)
  cases hsame

end Kael.Exchange
