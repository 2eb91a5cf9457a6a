import Kael.Contracts.Exchange

/-!
# What Happens to Records

Every piece of code that runs between two points of foreign control does at
most one thing to the HTLC's records (`RecordEffect`). A record that exists
while no waiting `newSwap` is about to write its slot can therefore only move
forward (`Vested`); outside all calls every record is of this kind.
-/

namespace Kael.Exchange

open NestedCalls
open Kael.Settlement (Failure SettleLeg Leg)
open HashedTimelock (NewSwap Payout Swap newSwapChecks redeemChecks refundChecks newSwapChecks_ok
  redeemChecks_ok refundChecks_ok)

/-- The waiting call will write the slot when its foreign code returns. -/
def Frame.Writes (c : Bytes32) : Frame → Prop
  | .newSwap _ _ contractId => contractId = c
  | .settleLock _ _ got => got = c
  | _ => False

/-- Waiting calls about to write a slot wait in `s` already, or the slot is
    vacant there. -/
def WritesKept (s s' : State) : Prop :=
  ∀ f ∈ s'.frames, ∀ c, f.Writes c → f ∈ s.frames ∨ ¬(s.htlc.swaps c).Exists

/-- What one piece of code does to the records. `who` is the caller and the
    call, and `none` when foreign code returns. -/
inductive RecordEffect (cr : Crypto) (D : Deployment) (now : Uint256)
    (who : Option (Address × Call)) (s s' : State) : Prop where
  | keep (hswaps : s'.htlc.swaps = s.htlc.swaps) (hframes : WritesKept s s')
  /-- A lock whose slot was checked in `s`. -/
  | lock (sender : Address) (value : Uint256) (a : NewSwap) (contractId : Bytes32)
      (hwho : who = some (sender, .newSwap value a) ∨ sender = D.settlement)
      (hchecks : newSwapChecks cr D.hasCode now s.htlc ⟨sender, value⟩ a = .ok contractId)
      (hswaps : s'.htlc.swaps = (s.htlc.writeSwap sender a contractId).swaps)
      (hframes : WritesKept s s')
  /-- A lock that waited for its token. -/
  | finishLock (f : Frame) (sender : Address) (a : NewSwap) (contractId : Bytes32)
      (hf : f ∈ s.frames) (hwrites : f.Writes contractId)
      (hswaps : s'.htlc.swaps = (s.htlc.writeSwap sender a contractId).swaps)
      (hframes : WritesKept s s')
  | redeem (sender : Address) (contractId preimage : Bytes32)
      (hwho : who = some (sender, .redeem contractId preimage))
      (hchecks : redeemChecks cr now s.htlc contractId preimage = .ok ())
      (hswaps : s'.htlc.swaps = (s.htlc.setWithdrawn contractId).swaps)
      (hframes : WritesKept s s')
  | refund (sender : Address) (contractId : Bytes32)
      (hwho : who = some (sender, .refund contractId) ∨ sender = D.settlement)
      (hchecks : refundChecks now s.htlc sender contractId = .ok ())
      (hswaps : s'.htlc.swaps = (s.htlc.setRefunded contractId).swaps)
      (hframes : WritesKept s s')

theorem WritesKept.of_subset {s s' : State} (h : ∀ f ∈ s'.frames, f ∈ s.frames) :
    WritesKept s s' := fun f hf _ _ => .inl (h f hf)

/-- Waiting in a frame that writes nothing. -/
theorem WritesKept.push {s s' : State} {wait : Frame} (hframes : s'.frames = wait :: s.frames)
    (hwait : ∀ c, ¬wait.Writes c) : WritesKept s s' := by
  intro f hf c hw
  rw [hframes] at hf
  rcases List.mem_cons.mp hf with rfl | hf'
  · exact absurd hw (hwait c)
  · exact .inl hf'

/-- The effect depends on the records and the waiting calls only. -/
theorem RecordEffect.of_eq {cr : Crypto} {D : Deployment} {now : Uint256}
    {who : Option (Address × Call)} {s₁ s s' : State}
    (h : RecordEffect cr D now who s₁ s') (hhtlc : s₁.htlc = s.htlc)
    (hframes : ∀ f ∈ s₁.frames, f ∈ s.frames) : RecordEffect cr D now who s s' := by
  have hkept : WritesKept s₁ s' → WritesKept s s' := fun hk f hf c hw => by
    rw [← hhtlc]
    exact (hk f hf c hw).imp (hframes f) id
  -- Only the storage that is read and the frames below may be exchanged.
  cases h with
  | keep hswaps hf => exact .keep (hhtlc ▸ hswaps) (hkept hf)
  | lock sender value a id hwho hchecks hswaps hf =>
    rw [hhtlc] at hchecks hswaps
    exact .lock sender value a id hwho hchecks hswaps (hkept hf)
  | finishLock f sender a id hmem hwrites hswaps hf =>
    rw [hhtlc] at hswaps
    exact .finishLock f sender a id (hframes f hmem) hwrites hswaps (hkept hf)
  | redeem sender id p hwho hchecks hswaps hf =>
    rw [hhtlc] at hchecks hswaps
    exact .redeem sender id p hwho hchecks hswaps (hkept hf)
  | refund sender id hwho hchecks hswaps hf =>
    rw [hhtlc] at hchecks hswaps
    exact .refund sender id hwho hchecks hswaps (hkept hf)

/-! ## Code that leaves the records alone -/

/-- The records are as in `s`, and at most a call that writes nothing waits. -/
structure Still (s s' : State) : Prop where
  swaps : s'.htlc.swaps = s.htlc.swaps
  frames : s'.frames = s.frames ∨ ∃ f, s'.frames = f :: s.frames ∧ ∀ c, ¬f.Writes c

theorem Still.writesKept {s s₁ s' : State} (h : Still s₁ s') (hframes : s₁.frames = s.frames) :
    WritesKept s s' := by
  rcases h.frames with hf | ⟨f, hf, hw⟩
  · exact .of_subset fun f hmem => hframes ▸ hf ▸ hmem
  · exact .push (hframes ▸ hf) hw

theorem Still.keep {cr : Crypto} {D : Deployment} {now : Uint256}
    {who : Option (Address × Call)} {s s' : State} (h : Still s s') :
    RecordEffect cr D now who s s' :=
  .keep h.swaps (h.writesKept rfl)

section Code

variable {cr : Crypto} {D : Deployment} {now : Uint256} {s : State} {o : Outcome}

theorem Still.finished (h : finished s = .ok o) : Still s o.state := by
  cases h; exact ⟨rfl, .inl rfl⟩

theorem Still.pay {src : Address} {contractId : Bytes32} {p : Payout}
    {ethFail tokenFail : Failure} {wait : Frame} {k : Rest}
    (h : s.pay D src contractId p ethFail tokenFail wait k = .ok o)
    (hwait : ∀ c, ¬wait.Writes c) (hk : ∀ s₁, k s₁ = .ok o → Still s₁ o.state) :
    Still s o.state := by
  rcases State.pay_ok.mp h with ⟨-, -, -, l, -, rfl⟩ | ⟨-, l, -, hrest⟩ | ⟨-, -, -, -, rfl⟩
  · exact ⟨rfl, .inr ⟨wait, rfl, hwait⟩⟩
  · exact ⟨(hk _ hrest).swaps, (hk _ hrest).frames⟩
  · exact ⟨rfl, .inr ⟨wait, rfl, hwait⟩⟩

theorem Still.forwardLeg {contractId : Bytes32} {leg : Leg}
    (h : State.forwardLeg D contractId leg s = .ok o) : Still s o.state :=
  Still.pay h (fun _ hw => hw) fun _ hk =>
    ⟨(Still.finished hk).swaps, (Still.finished hk).frames⟩

theorem Still.settleLocked {a : SettleLeg} {contractId got : Bytes32}
    (h : s.settleLocked a contractId got = .ok o) : Still s o.state := by
  obtain ⟨-, rfl⟩ := State.settleLocked_ok.mp h
  exact ⟨rfl, .inl rfl⟩

/-! ## Each call -/

variable {who : Option (Address × Call)}

/-- `newSwap` writes its slot, or waits for its token with the slot vacant. -/
theorem State.newSwap_records {msg : Msg} {a : NewSwap} {wait : Bytes32 → Frame}
    {k : Bytes32 → Rest} (h : s.newSwap cr D now msg a wait k = .ok o)
    (hwho : who = some (msg.sender, .newSwap msg.value a) ∨ msg.sender = D.settlement)
    (hwait : ∀ id c, (wait id).Writes c → id = c)
    (hk : ∀ id s₁, k id s₁ = .ok o → Still s₁ o.state) :
    RecordEffect cr D now who s o.state := by
  obtain ⟨id, hchecks, hcase⟩ := State.newSwap_ok.mp h
  -- ETH, a standard token, or a wait in which the slot stays vacant.
  rcases hcase with ⟨-, hrest⟩ | ⟨-, l, -, hrest⟩ | ⟨-, -, -, -, rfl⟩
  · exact .lock msg.sender msg.value a id hwho hchecks (hk _ _ hrest).swaps
      ((hk _ _ hrest).writesKept rfl)
  · exact .lock msg.sender msg.value a id hwho hchecks (hk _ _ hrest).swaps
      ((hk _ _ hrest).writesKept rfl)
  · refine .keep rfl fun f hf c hw => ?_
    rcases List.mem_cons.mp hf with rfl | hf'
    · obtain ⟨-, -, -, -, habsent, -⟩ := newSwapChecks_ok.mp hchecks
      exact .inr (hwait id c hw ▸ habsent)
    · exact .inl hf'

theorem State.settleApproved_records {value : Uint256} {a : SettleLeg} {contractId : Bytes32}
    (h : State.settleApproved cr D now value a contractId s = .ok o) :
    RecordEffect cr D now who s o.state :=
  State.newSwap_records h (.inr rfl) (fun _ _ hw => hw) fun _ _ => Still.settleLocked

theorem State.settleReceived_records {a : SettleLeg} {contractId : Bytes32}
    (h : State.settleReceived cr D now a contractId s = .ok o) :
    RecordEffect cr D now who s o.state := by
  rcases State.tokenCall_ok.mp h with ⟨-, l, -, hrest⟩ | ⟨-, -, -, rfl⟩
  · exact (State.settleApproved_records hrest).of_eq rfl fun _ hf => hf
  · exact .keep rfl (.push rfl fun _ hw => hw)

theorem State.settleLeg_records {msg : Msg} {a : SettleLeg}
    (h : s.settleLeg cr D now msg a = .ok o) : RecordEffect cr D now who s o.state := by
  obtain ⟨-, hrest⟩ := State.settleLeg_ok.mp h
  rcases State.receiveAndLock_ok.mp hrest with
    ⟨-, -, l, -, hlock⟩ | ⟨-, -, l, -, hlock⟩ | ⟨-, -, -, -, -, -, rfl⟩
  · exact (State.settleApproved_records hlock).of_eq rfl fun _ hf => hf
  · exact (State.settleReceived_records hlock).of_eq rfl fun _ hf => hf
  · exact .keep rfl (.push rfl fun _ hw => hw)

theorem State.redeem_records {sender : Address} {contractId preimage : Bytes32}
    (h : s.redeem cr D now contractId preimage = .ok o) :
    RecordEffect cr D now (some (sender, .redeem contractId preimage)) s o.state := by
  obtain ⟨hchecks, hpay⟩ := State.redeem_ok.mp h
  have hstill := Still.pay hpay (fun _ hw => hw) fun _ hk =>
    ⟨(Still.finished hk).swaps, (Still.finished hk).frames⟩
  exact .redeem sender contractId preimage rfl hchecks hstill.swaps (hstill.writesKept rfl)

theorem State.refund_records {sender : Address} {contractId : Bytes32} {wait : Frame} {k : Rest}
    (h : s.refund D now sender contractId wait k = .ok o)
    (hwho : who = some (sender, .refund contractId) ∨ sender = D.settlement)
    (hwait : ∀ c, ¬wait.Writes c) (hk : ∀ s₁, k s₁ = .ok o → Still s₁ o.state) :
    RecordEffect cr D now who s o.state := by
  obtain ⟨hchecks, hpay⟩ := State.refund_ok.mp h
  have hstill := Still.pay hpay hwait fun _ hrest => ⟨(hk _ hrest).swaps, (hk _ hrest).frames⟩
  exact .refund sender contractId hwho hchecks hstill.swaps (hstill.writesKept rfl)

theorem State.refundLeg_records {contractId : Bytes32}
    (h : s.refundLeg D now contractId = .ok o) : RecordEffect cr D now who s o.state := by
  obtain ⟨-, hrest⟩ := State.refundLeg_ok.mp h
  exact (State.refund_records hrest (.inr rfl) (fun _ hw => hw) fun _ => Still.forwardLeg).of_eq
    rfl fun _ hf => hf

/-- **Every call does at most one thing to the records.** -/
theorem invoke_records {sender : Address} {call : Call}
    (h : invoke cr D now sender call s = .ok o) :
    RecordEffect cr D now (some (sender, call)) s o.state := by
  cases call with
  | newSwap value a =>
    obtain ⟨l, -, hrest⟩ := State.receive_ok.mp h
    exact (State.newSwap_records hrest (.inl rfl) (fun _ _ hw => hw)
      fun _ _ => Still.finished).of_eq rfl fun _ hf => hf
  | redeem contractId preimage => exact State.redeem_records h
  | refund contractId =>
    exact State.refund_records h (.inl rfl) (fun _ hw => hw) fun _ => Still.finished
  | authorizeLeg order signature nowTs =>
    obtain ⟨st, -, rfl⟩ := invoke_authorizeLeg_ok.mp h
    exact .keep rfl (.of_subset fun _ hf => hf)
  | settleLeg value a =>
    obtain ⟨l, -, hrest⟩ := State.receive_ok.mp h
    exact (State.settleLeg_records hrest).of_eq rfl fun _ hf => hf
  | refundLeg contractId => exact State.refundLeg_records h
  -- Calls of tokens write no record.
  | transfer token dest amount =>
    obtain ⟨-, l, -, rfl⟩ := invoke_transfer_ok.mp h
    exact .keep rfl (.of_subset fun _ hf => hf)
  | approve token spender amount =>
    obtain ⟨-, rfl⟩ := invoke_approve_ok.mp h
    exact .keep rfl (.of_subset fun _ hf => hf)
  | transferFrom token owner dest amount =>
    obtain ⟨-, l, -, rfl⟩ := invoke_transferFrom_ok.mp h
    exact .keep rfl (.of_subset fun _ hf => hf)

/-- Returning from foreign code does at most one thing to the records. -/
theorem resume_records (h : resume cr D now s = .ok o) :
    RecordEffect cr D now none s o.state := by
  obtain ⟨f, fs, hframes, hrest⟩ := resume_ok.mp h
  have hmem : f ∈ s.frames := hframes ▸ List.mem_cons_self ..
  have hsub : ∀ g ∈ fs, g ∈ s.frames := fun g hg => hframes ▸ List.mem_cons_of_mem _ hg
  have hstill : ∀ {s'}, Still { s with frames := fs } s' → RecordEffect cr D now none s s' :=
    fun hs => hs.keep.of_eq rfl hsub
  -- Two frames still have a record to write; the others announce, or pay on.
  cases f with
  | newSwap sender a id =>
    cases hrest
    exact .finishLock _ sender a id hmem rfl rfl (.of_subset hsub)
  | payout done =>
    cases hrest
    exact hstill ⟨rfl, .inl rfl⟩
  | settleReceive a id => exact (State.settleReceived_records hrest).of_eq rfl hsub
  | settleApprove a id => exact (State.settleApproved_records hrest).of_eq rfl hsub
  | settleLock a contractId got =>
    have hlocked := Still.settleLocked hrest
    refine .finishLock _ D.settlement a.lock got hmem rfl hlocked.swaps fun g hg c hw => ?_
    exact (hlocked.writesKept (s := { s with frames := fs }) rfl g hg c hw).imp (hsub g) id
  | legRefund id leg =>
    have hforward := Still.forwardLeg hrest
    exact hstill ⟨hforward.swaps, hforward.frames⟩
  | legForward id leg =>
    cases hrest
    exact hstill ⟨rfl, .inl rfl⟩
  | other =>
    cases hrest
    exact hstill ⟨rfl, .inl rfl⟩

/-! ## Moves -/

/-- What one move does to the records, and who was allowed to cause it. -/
theorem moves_records {π : Policy} {s s' : State} (h : (system cr D π now).Moves s s') :
    (∃ sender call, D.Account sender ∧ π sender call ∧
      RecordEffect cr D now (some (sender, call)) s s') ∨
    RecordEffect cr D now none s s' := by
  cases h with
  | enter h =>
    cases h with
    | invoke sender call hsender hpolicy h =>
      exact .inl ⟨sender, call, hsender, hpolicy, invoke_records h⟩
    | other h => subst h; exact .inr (.keep rfl (.push rfl fun _ hw => hw))
  | act h =>
    cases h with
    | invoke sender call hsender hpolicy h =>
      exact .inl ⟨sender, call, hsender, hpolicy, invoke_records h⟩
    | resume h => exact .inr (resume_records h)
  | leave h => exact .inr (resume_records h)

end Code

/-! ## Records at the boundary of calls -/

/-- The record at `c` is at least as far as `g`, and no waiting call is about
    to write its slot. -/
structure Vested (c : Bytes32) (g : Escrow.Stage HashedTimelock.Terms) (s : State) : Prop where
  stage : g ≤ (s.htlc.swaps c).stage
  unwritten : ∀ f ∈ s.frames, ¬f.Writes c

/-- A vested record exists. -/
theorem Vested.exists {c : Bytes32} {g : Escrow.Stage HashedTimelock.Terms} {s : State}
    (h : Vested c g s) (hg : g ≠ .vacant) : (s.htlc.swaps c).Exists := by
  by_contra hnot
  have hle := h.stage
  rw [Swap.stage_vacant.mpr hnot] at hle
  cases g <;> simp_all [Escrow.Stage.le_def, Escrow.Stage.AtMost]

/-- Step rule: a vested record only moves forward. -/
theorem Vested.effect {cr : Crypto} {D : Deployment} {now : Uint256}
    {who : Option (Address × Call)} {c : Bytes32} {g : Escrow.Stage HashedTimelock.Terms}
    (hg : g ≠ .vacant) {s s' : State} (hs : Vested c g s)
    (h : RecordEffect cr D now who s s') : Vested c g s' := by
  -- A record that exists is not locked again, and no waiting call writes it.
  have hexists := hs.exists hg
  have hunwritten : WritesKept s s' → ∀ f ∈ s'.frames, ¬f.Writes c := fun hk f hf hw =>
    (hk f hf c hw).elim (fun hmem => hs.unwritten f hmem hw) (fun hnot => hnot hexists)
  cases h with
  | keep hswaps hframes => exact ⟨by rw [hswaps]; exact hs.stage, hunwritten hframes⟩
  | lock sender value a id hwho hchecks hswaps hframes =>
    obtain ⟨-, -, -, -, habsent, -⟩ := newSwapChecks_ok.mp hchecks
    have hne : c ≠ id := fun heq => habsent (heq ▸ hexists)
    refine ⟨?_, hunwritten hframes⟩
    rw [hswaps, HashedTimelock.Storage.writeSwap_swaps, if_neg hne]
    exact hs.stage
  | finishLock f sender a id hmem hwrites hswaps hframes =>
    have hne : c ≠ id := fun heq => hs.unwritten f hmem (heq ▸ hwrites)
    refine ⟨?_, hunwritten hframes⟩
    rw [hswaps, HashedTimelock.Storage.writeSwap_swaps, if_neg hne]
    exact hs.stage
  -- Flags are set on active records, which go up by one stage.
  | redeem sender id p hwho hchecks hswaps hframes =>
    refine ⟨?_, hunwritten hframes⟩
    rw [hswaps]
    exact le_trans hs.stage (HashedTimelock.Storage.Extends.setWithdrawn
      (redeemChecks_ok.mp hchecks).1 c)
  | refund sender id hwho hchecks hswaps hframes =>
    refine ⟨?_, hunwritten hframes⟩
    rw [hswaps]
    exact le_trans hs.stage (HashedTimelock.Storage.Extends.setRefunded
      (refundChecks_ok.mp hchecks).1 c)

theorem Vested.invariant {cr : Crypto} {D : Deployment} {π : Policy} {c : Bytes32}
    {g : Escrow.Stage HashedTimelock.Terms} (hg : g ≠ .vacant) :
    Invariant (anyTime cr D π) (Vested c g) := by
  intro s s' hs hmove
  obtain ⟨now, hmove⟩ := CallSystem.Moves.of_union hmove
  rcases moves_records hmove with ⟨sender, call, -, -, heffect⟩ | heffect
  · exact hs.effect hg heffect
  · exact hs.effect hg heffect

end Kael.Exchange
