import Kael.Contracts.Records

/-!
# Where the HTLC's Events Come From

Every event of the HTLC goes back to a call that was allowed to be made: a
lock event to a lock with those arguments, a redeem event to a `redeem` whose
checks passed. A call that waits for foreign code has announced the event it
will emit when it goes on, so the rules are about announced events.
-/

namespace Kael.Exchange

open NestedCalls
open Kael.Settlement (Failure SettleLeg Leg)
open HashedTimelock (NewSwap Payout Event redeemChecks newSwapChecks_ok redeemChecks_ok)

/-! ## Announced events -/

/-- The event of a lock. -/
def lockEvent (sender : Address) (a : NewSwap) (contractId : Bytes32) : Event :=
  .logNewSwap contractId sender a.recipient a.token a.amount a.hashlock a.timelock

/-- The events a waiting call may still emit. -/
def Frame.Announces (D : Deployment) (e : Event) : Frame → Prop
  | .newSwap sender a contractId => e = lockEvent sender a contractId
  | .payout done => e = done
  | .settleReceive a _ => ∃ id, e = lockEvent D.settlement a.lock id
  | .settleApprove a _ => ∃ id, e = lockEvent D.settlement a.lock id
  | .settleLock a _ got => e = lockEvent D.settlement a.lock got
  | .legRefund contractId _ => e = .logRefund contractId
  | .legForward .. => False
  | .other => False

/-- The event has been emitted or announced. -/
def Announced (D : Deployment) (logs : List Event) (frames : List Frame) (e : Event) : Prop :=
  e ∈ logs ∨ ∃ f ∈ frames, f.Announces D e

abbrev State.Announced (D : Deployment) (s : State) (e : Event) : Prop :=
  Exchange.Announced D s.htlc.logs s.frames e

/-- The events a call can add; the checks of `redeem` have passed in `s`. -/
def Call.Introduces (cr : Crypto) (D : Deployment) (now : Uint256) (s : State) (x : Address)
    (call : Call) (e : Event) : Prop :=
  match call with
  | .newSwap _ a => ∃ id, e = lockEvent x a id
  | .settleLeg _ a => ∃ id, e = lockEvent D.settlement a.lock id
  | .redeem id p => e = .logRedeem id p ∧ redeemChecks cr now s.htlc id p = .ok ()
  | .refund id => e = .logRefund id
  | .refundLeg id => e = .logRefund id
  | _ => False

/-- Code that adds no events but those that satisfy `P`. -/
def Adds (D : Deployment) (P : Event → Prop) (s : State) (o : Outcome) : Prop :=
  ∀ e, o.state.Announced D e → s.Announced D e ∨ P e

section Code

variable {cr : Crypto} {D : Deployment} {now : Uint256} {s s₁ : State} {o : Outcome}
  {P : Event → Prop}

theorem Announced.of_append {logs : List Event} {frames : List Frame} {e e' : Event}
    (h : Announced D (logs ++ [e']) frames e) : Announced D logs frames e ∨ e = e' := by
  rcases h with hlog | hframe
  · rcases List.mem_append.mp hlog with hold | hnew
    · exact .inl (.inl hold)
    · exact .inr (List.mem_singleton.mp hnew)
  · exact .inl (.inr hframe)

theorem Announced.of_cons {logs : List Event} {frames : List Frame} {f : Frame} {e : Event}
    (h : Announced D logs (f :: frames) e) : Announced D logs frames e ∨ f.Announces D e := by
  rcases h with hlog | ⟨g, hg, hann⟩
  · exact .inl (.inl hlog)
  · rcases List.mem_cons.mp hg with rfl | hg'
    · exact .inr hann
    · exact .inl (.inr ⟨g, hg', hann⟩)

theorem Adds.refl : Adds D P s (.done s) := fun _ he => .inl he

/-- Code that runs after something else has added events. -/
theorem Adds.after (h : Adds D P s₁ o)
    (hbefore : ∀ e, s₁.Announced D e → s.Announced D e ∨ P e) : Adds D P s o := by
  intro e he
  rcases h e he with he₁ | hP
  · exact hbefore e he₁
  · exact .inr hP

/-- Only the logs and the waiting calls matter. -/
theorem Adds.of_eq (h : Adds D P s₁ o) (hlogs : s₁.htlc.logs = s.htlc.logs)
    (hframes : s₁.frames = s.frames) : Adds D P s o := by
  apply h.after
  intro e he
  have hann : Announced D s₁.htlc.logs s₁.frames e := he
  rw [hlogs, hframes] at hann
  exact .inl hann

/-- Waiting in a frame that announces only events in `P`. -/
theorem Adds.push {f : Frame} (hlogs : s₁.htlc.logs = s.htlc.logs)
    (hframes : s₁.frames = f :: s.frames) (hf : ∀ e, f.Announces D e → P e) :
    Adds D P s (.waiting s₁) := by
  intro e he
  have hann : Announced D s₁.htlc.logs s₁.frames e := he
  rw [hlogs, hframes] at hann
  exact hann.of_cons.imp_right (hf e)

theorem Adds.emit {e : Event} (he : P e) (hlogs : s₁.htlc.logs = s.htlc.logs ++ [e])
    (hframes : s₁.frames = s.frames) : Adds D P s (.done s₁) := by
  intro e' he'
  have hann : Announced D s₁.htlc.logs s₁.frames e' := he'
  rw [hlogs, hframes] at hann
  rcases hann.of_append with hold | rfl
  · exact .inl hold
  · exact .inr he

theorem Adds.pay {src : Address} {contractId : Bytes32} {p : Payout}
    {ethFail tokenFail : Failure} {wait : Frame} {k : Rest}
    (h : s.pay D src contractId p ethFail tokenFail wait k = .ok o)
    (hwait : ∀ e, wait.Announces D e → P e) (hk : ∀ s₁, k s₁ = .ok o → Adds D P s₁ o) :
    Adds D P s o := by
  rcases State.pay_ok.mp h with ⟨-, -, -, l, -, rfl⟩ | ⟨-, l, -, hrest⟩ | ⟨-, -, -, -, rfl⟩
  · exact .push rfl rfl hwait
  · exact (hk _ hrest).of_eq rfl rfl
  · exact .push rfl rfl hwait

theorem Adds.newSwap {msg : Msg} {a : NewSwap} {wait : Bytes32 → Frame} {k : Bytes32 → Rest}
    (h : s.newSwap cr D now msg a wait k = .ok o)
    (hlock : ∀ id, P (lockEvent msg.sender a id))
    (hwait : ∀ id e, (wait id).Announces D e → P e)
    (hk : ∀ id s₁, k id s₁ = .ok o → Adds D P s₁ o) : Adds D P s o := by
  -- The write of the record emits the lock's event before the call goes on.
  have hwrite : ∀ id (s₁ : State), k id s₁ = .ok o →
      s₁.htlc.logs = s.htlc.logs ++ [lockEvent msg.sender a id] → s₁.frames = s.frames →
      Adds D P s o := by
    intro id s₁ hrest hlogs hframes
    apply (hk id s₁ hrest).after
    intro e he
    have hann : Announced D s₁.htlc.logs s₁.frames e := he
    rw [hlogs, hframes] at hann
    rcases hann.of_append with hold | rfl
    · exact .inl hold
    · exact .inr (hlock id)
  obtain ⟨id, -, hcase⟩ := State.newSwap_ok.mp h
  rcases hcase with ⟨-, hrest⟩ | ⟨-, l, -, hrest⟩ | ⟨-, -, -, -, rfl⟩
  · exact hwrite id _ hrest rfl rfl
  · exact hwrite id _ hrest rfl rfl
  · exact .push rfl rfl (hwait id)

theorem Adds.settleLocked {a : SettleLeg} {contractId got : Bytes32}
    (h : s.settleLocked a contractId got = .ok o) : Adds D P s o := by
  obtain ⟨-, rfl⟩ := State.settleLocked_ok.mp h
  exact Adds.refl.of_eq rfl rfl

theorem Adds.settleApproved {value : Uint256} {a : SettleLeg} {contractId : Bytes32}
    (hP : ∀ id, P (lockEvent D.settlement a.lock id))
    (h : State.settleApproved cr D now value a contractId s = .ok o) : Adds D P s o := by
  apply Adds.newSwap h hP
  · intro id e he
    exact he ▸ hP id
  · intro id s₁ hrest
    exact .settleLocked hrest

theorem Adds.settleReceived {a : SettleLeg} {contractId : Bytes32}
    (hP : ∀ id, P (lockEvent D.settlement a.lock id))
    (h : State.settleReceived cr D now a contractId s = .ok o) : Adds D P s o := by
  rcases State.tokenCall_ok.mp h with ⟨-, l, -, hrest⟩ | ⟨-, -, -, rfl⟩
  · exact (Adds.settleApproved hP hrest).of_eq rfl rfl
  · refine Adds.push (s := s) rfl rfl ?_
    rintro e ⟨id, rfl⟩
    exact hP id

theorem Adds.settleLeg {msg : Msg} {a : SettleLeg}
    (hP : ∀ id, P (lockEvent D.settlement a.lock id))
    (h : s.settleLeg cr D now msg a = .ok o) : Adds D P s o := by
  obtain ⟨-, hrest⟩ := State.settleLeg_ok.mp h
  rcases State.receiveAndLock_ok.mp hrest with
    ⟨-, -, l, -, hlock⟩ | ⟨-, -, l, -, hlock⟩ | ⟨-, -, -, -, -, -, rfl⟩
  · exact (Adds.settleApproved hP hlock).of_eq rfl rfl
  · exact (Adds.settleReceived hP hlock).of_eq rfl rfl
  · refine Adds.push (s := s) rfl rfl ?_
    rintro e ⟨id, rfl⟩
    exact hP id

theorem Adds.forwardLeg {contractId : Bytes32} {leg : Leg}
    (h : State.forwardLeg D contractId leg s = .ok o) : Adds D P s o := by
  apply Adds.pay h
  · intro e he
    exact he.elim
  · intro s₁ hk
    cases hk
    exact Adds.refl.of_eq rfl rfl

theorem Adds.refund {sender : Address} {contractId : Bytes32} {wait : Frame} {k : Rest}
    (hP : P (.logRefund contractId)) (h : s.refund D now sender contractId wait k = .ok o)
    (hwait : ∀ e, wait.Announces D e → P e) (hk : ∀ s₁, k s₁ = .ok o → Adds D P s₁ o) :
    Adds D P s o := by
  obtain ⟨-, hpay⟩ := State.refund_ok.mp h
  have hadds : Adds D P (s.withHtlc (s.htlc.setRefunded contractId)) o := by
    apply Adds.pay hpay hwait
    intro s₁ hrest
    apply (hk _ hrest).after
    intro e he
    rcases Announced.of_append he with hold | rfl
    · exact .inl hold
    · exact .inr hP
  exact hadds.of_eq rfl rfl

/-! ## Calls and returns -/

/-- **A call adds only events of its own.** -/
theorem invoke_adds {x : Address} {call : Call} (h : invoke cr D now x call s = .ok o) :
    Adds D (call.Introduces cr D now s x) s o := by
  -- Each call introduces the events that it emits now and those that its frames will emit.
  cases call with
  | newSwap value a =>
    obtain ⟨l, -, hrest⟩ := State.receive_ok.mp h
    have hlock : ∀ id, (Call.newSwap value a).Introduces cr D now s x (lockEvent x a id) :=
      fun id => ⟨id, rfl⟩
    have hadds : Adds D _ _ o := Adds.newSwap hrest hlock (fun id e he => he ▸ hlock id)
      fun id s₁ hk => by cases hk; exact .refl
    exact hadds.of_eq rfl rfl
  | redeem id p =>
    obtain ⟨hchecks, hpay⟩ := State.redeem_ok.mp h
    have hadds : Adds D ((Call.redeem id p).Introduces cr D now s x)
        (s.withHtlc (s.htlc.setWithdrawn id)) o := by
      apply Adds.pay hpay
      · intro e he
        exact ⟨he, hchecks⟩
      · intro s₁ hk
        cases hk
        exact .emit ⟨rfl, hchecks⟩ rfl rfl
    exact hadds.of_eq rfl rfl
  | refund id =>
    apply Adds.refund (P := (Call.refund id).Introduces cr D now s x) rfl h
    · intro e he
      exact he
    · intro s₁ hk
      cases hk
      exact .refl
  -- An authorization emits nothing in the HTLC.
  | authorizeLeg order signature nowTs =>
    obtain ⟨st, -, rfl⟩ := invoke_authorizeLeg_ok.mp h
    exact Adds.refl.of_eq rfl rfl
  | settleLeg value a =>
    obtain ⟨l, -, hrest⟩ := State.receive_ok.mp h
    have hlock : ∀ id, (Call.settleLeg value a).Introduces cr D now s x
        (lockEvent D.settlement a.lock id) := fun id => ⟨id, rfl⟩
    exact (Adds.settleLeg hlock hrest).of_eq rfl rfl
  | refundLeg id =>
    obtain ⟨-, hrest⟩ := State.refundLeg_ok.mp h
    have hadds : Adds D ((Call.refundLeg id).Introduces cr D now s x)
        (s.withSettlement (s.settlement.setRefunded id)) o :=
      Adds.refund rfl hrest (fun _ he => he) fun _ => Adds.forwardLeg
    exact hadds.of_eq rfl rfl
  | transfer token dest amount =>
    obtain ⟨-, l, -, rfl⟩ := invoke_transfer_ok.mp h
    exact Adds.refl.of_eq rfl rfl
  | approve token spender amount =>
    obtain ⟨-, rfl⟩ := invoke_approve_ok.mp h
    exact Adds.refl.of_eq rfl rfl
  | transferFrom token owner dest amount =>
    obtain ⟨-, l, -, rfl⟩ := invoke_transferFrom_ok.mp h
    exact Adds.refl.of_eq rfl rfl

/-- A returning call emits what it has announced. -/
theorem resume_adds (h : resume cr D now s = .ok o) : Adds D (fun _ => False) s o := by
  obtain ⟨f, fs, hframes, hrest⟩ := resume_ok.mp h
  -- The frame that goes on emits what it has announced, and announces nothing else.
  have hadds : Adds D (fun e => f.Announces D e) { s with frames := fs } o := by
    cases f with
    | newSwap sender a id => cases hrest; exact .emit rfl rfl rfl
    | payout done => cases hrest; exact .emit rfl rfl rfl
    | settleReceive a id =>
      have hlock : ∀ got, (Frame.settleReceive a id).Announces D (lockEvent D.settlement a.lock got) :=
        fun got => ⟨got, rfl⟩
      exact Adds.settleReceived hlock hrest
    | settleApprove a id =>
      have hlock : ∀ got, (Frame.settleApprove a id).Announces D (lockEvent D.settlement a.lock got) :=
        fun got => ⟨got, rfl⟩
      exact Adds.settleApproved hlock hrest
    | settleLock a id got =>
      apply (Adds.settleLocked hrest).after
      intro e he
      exact Announced.of_append he
    | legRefund id leg =>
      apply (Adds.forwardLeg hrest).after
      intro e he
      exact Announced.of_append he
    | legForward id leg => cases hrest; exact Adds.refl.of_eq rfl rfl
    | other => cases hrest; exact .refl
  intro e he
  refine .inl ?_
  rcases hadds e he with (hlog | ⟨g, hg, hann⟩) | hann
  · exact .inl hlog
  · exact .inr ⟨g, hframes ▸ List.mem_cons_of_mem _ hg, hann⟩
  · exact .inr ⟨f, hframes ▸ List.mem_cons_self .., hann⟩

/-- What one move adds, and who was allowed to cause it. -/
theorem moves_adds {π : Policy} {s' : State} (h : (system cr D π now).Moves s s') {e : Event}
    (he : s'.Announced D e) :
    s.Announced D e ∨ ∃ x call o, D.Account x ∧ π x call ∧
      invoke cr D now x call s = .ok o ∧ s' = o.state ∧ call.Introduces cr D now s x e := by
  have hinvoke : ∀ {x call o}, D.Account x → π x call → invoke cr D now x call s = .ok o →
      s' = o.state → s.Announced D e ∨ ∃ x call o, D.Account x ∧ π x call ∧
        invoke cr D now x call s = .ok o ∧ s' = o.state ∧ call.Introduces cr D now s x e := by
    intro x call o hx hpolicy h hs'
    rcases invoke_adds h e (hs' ▸ he) with hold | hnew
    · exact .inl hold
    · exact .inr ⟨x, call, o, hx, hpolicy, h, hs', hnew⟩
  -- Returns introduce nothing.
  have hresume : ∀ {o}, resume cr D now s = .ok o → s' = o.state → s.Announced D e :=
    fun h hs' => (resume_adds h e (hs' ▸ he)).resolve_right id
  cases h with
  | enter h =>
    cases h with
    | invoke sender call hsender hpolicy h => exact hinvoke hsender hpolicy h rfl
    | other h =>
      subst h
      rcases Announced.of_cons he with hold | hother
      · exact .inl hold
      · exact hother.elim
  | act h =>
    cases h with
    | invoke sender call hsender hpolicy h => exact hinvoke hsender hpolicy h rfl
    | resume h => exact .inl (hresume h rfl)
  | leave h => exact .inl (hresume h rfl)

/-- Nothing is announced on a fresh chain. -/
theorem not_announced_fresh {l : Ledger Address Address} {e : Event} :
    ¬(State.fresh l).Announced D e := by
  rintro (hlog | ⟨f, hf, -⟩)
  · exact List.not_mem_nil hlog
  · exact List.not_mem_nil hf

/-- What holds of every event that an allowed call can introduce holds of every
    event announced in a run. -/
theorem announced_invariant {π : Policy} {Q : Event → Prop}
    (hQ : ∀ now s x call e, π x call → call.Introduces cr D now s x e → Q e) :
    Invariant (anyTime cr D π) fun s => ∀ e, s.Announced D e → Q e := by
  intro s s' hs hmove e he
  obtain ⟨now, hmove⟩ := CallSystem.Moves.of_union hmove
  rcases moves_adds hmove he with hold | ⟨x, call, o, -, hpolicy, -, -, hnew⟩
  · exact hs e hold
  · exact hQ now s x call e hpolicy hnew

end Code

end Kael.Exchange
