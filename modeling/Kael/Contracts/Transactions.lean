import Kael.Contracts.Deadlines

/-!
# Whole Transactions

A transaction makes one call from outside and is mined as a whole: the foreign
code that it runs may call back in any way, and at the end the call returns
successfully. What the call has asked for then holds (`Mined.hasLock`,
`Mined.redeems`, `Mined.refunds`).

Every open call waits in exactly one frame (`Stacked`), so that outside all
calls no frame is left.
-/

namespace Kael.Exchange

open NestedCalls
open Kael.Settlement (Failure SettleLeg Leg)
open HashedTimelock (NewSwap Payout Swap Terms newSwapChecks_ok redeemChecks_ok refundChecks_ok)

/-! ## How a piece of code ends -/

/-- Code that has started on top of the frames `fs`: it is over in a state that
    satisfies `R`, or it waits in one new frame that satisfies `W`. -/
def Outcome.Ends (W : Frame → Prop) (R : State → Prop) (fs : List Frame) : Outcome → Prop
  | .done s => s.frames = fs ∧ R s
  | .waiting s => ∃ f, s.frames = f :: fs ∧ W f

/-- The record that the call creates when it succeeds. -/
def Call.lockId (cr : Crypto) (D : Deployment) (x : Address) : Call → Option Bytes32
  | .newSwap _ a => some (HashedTimelock.computeContractId cr x a)
  | .settleLeg _ a => some (a.contractId cr D.settlement)
  | _ => none

/-- The waiting call is going to create the record at `id`. -/
def Frame.Locks (id : Bytes32) : Frame → Prop
  | .newSwap sender _ contractId => sender ≠ zeroAddress ∧ contractId = id
  | .settleReceive _ contractId => contractId = id
  | .settleApprove _ contractId => contractId = id
  | .settleLock _ contractId _ => contractId = id
  | _ => False

/-- The id in the waiting `settleLeg` is the one of its lock, and so is the one
    that the HTLC computed. -/
def Frame.IdMatches (cr : Crypto) (D : Deployment) : Frame → Prop
  | .settleReceive a contractId => contractId = a.contractId cr D.settlement
  | .settleApprove a contractId => contractId = a.contractId cr D.settlement
  | .settleLock a contractId got =>
    contractId = a.contractId cr D.settlement ∧ got = a.contractId cr D.settlement
  | _ => True

/-- Who locks and what, if the call succeeds. -/
def Call.lockOf (D : Deployment) (x : Address) : Call → Option (Address × NewSwap)
  | .newSwap _ a => some (x, a)
  | .settleLeg _ a => some (D.settlement, a.lock)
  | _ => none

/-- Who locks and what, once the waiting call goes on. -/
def Frame.lockOf (D : Deployment) : Frame → Option (Address × NewSwap)
  | .newSwap sender a _ => some (sender, a)
  | .settleReceive a _ => some (D.settlement, a.lock)
  | .settleApprove a _ => some (D.settlement, a.lock)
  | .settleLock a _ _ => some (D.settlement, a.lock)
  | _ => none

/-- The record at `id` exists. -/
def State.HasRecord (id : Bytes32) (s : State) : Prop := (s.htlc.swaps id).Exists

section Code

variable {cr : Crypto} {D : Deployment} {now : Uint256} {s : State} {o : Outcome}
  {W : Frame → Prop} {R : State → Prop} {fs : List Frame}

namespace Outcome.Ends

theorem finished (h : Exchange.finished s = .ok o) (hframes : s.frames = fs) (hR : R s) :
    o.Ends W R fs := by
  cases h
  exact ⟨hframes, hR⟩

theorem pay {src : Address} {contractId : Bytes32} {p : Payout} {ethFail tokenFail : Failure}
    {wait : Frame} {k : Rest} (h : s.pay D src contractId p ethFail tokenFail wait k = .ok o)
    (hframes : s.frames = fs) (hwait : W wait)
    (hk : ∀ s₁, k s₁ = .ok o → s₁.frames = fs → o.Ends W R fs) : o.Ends W R fs := by
  subst hframes
  rcases State.pay_ok.mp h with ⟨-, -, -, l, -, rfl⟩ | ⟨-, l, -, hrest⟩ | ⟨-, -, -, -, rfl⟩
  · exact ⟨wait, rfl, hwait⟩
  · exact hk _ hrest rfl
  · exact ⟨wait, rfl, hwait⟩

theorem newSwap {msg : Msg} {a : NewSwap} {wait : Bytes32 → Frame} {k : Bytes32 → Rest}
    (h : s.newSwap cr D now msg a wait k = .ok o) (hframes : s.frames = fs)
    (hwait : W (wait (HashedTimelock.computeContractId cr msg.sender a)))
    (hk : ∀ s₁, k (HashedTimelock.computeContractId cr msg.sender a) s₁ = .ok o →
      s₁.frames = fs →
      s₁.htlc.swaps (HashedTimelock.computeContractId cr msg.sender a) = a.record msg.sender →
      o.Ends W R fs) : o.Ends W R fs := by
  subst hframes
  obtain ⟨id, hchecks, hcase⟩ := State.newSwap_ok.mp h
  obtain ⟨-, -, -, rfl, -⟩ := newSwapChecks_ok.mp hchecks
  have hwrite : (s.htlc.writeSwap msg.sender a
      (HashedTimelock.computeContractId cr msg.sender a)).swaps
        (HashedTimelock.computeContractId cr msg.sender a) = a.record msg.sender :=
    (HashedTimelock.Storage.writeSwap_swaps ..).trans (if_pos rfl)
  -- ETH and standard tokens: the record is written before the call goes on.
  rcases hcase with ⟨-, hrest⟩ | ⟨-, l, -, hrest⟩ | ⟨-, -, -, -, rfl⟩
  · exact hk _ hrest rfl hwrite
  · exact hk _ hrest rfl hwrite
  · exact ⟨_, rfl, hwait⟩

theorem settleApproved {value : Uint256} {a : SettleLeg} {contractId : Bytes32}
    (h : s.settleApproved cr D now value a contractId = .ok o) (hframes : s.frames = fs)
    (hwait : W (.settleLock a contractId (a.contractId cr D.settlement)))
    (hR : ∀ s', s'.htlc.swaps contractId = a.lock.record D.settlement → R s') :
    o.Ends W R fs := by
  apply newSwap h hframes hwait
  intro s₁ hrest hframes₁ hrecord
  obtain ⟨hgot, rfl⟩ := State.settleLocked_ok.mp hrest
  refine ⟨hframes₁, hR _ ?_⟩
  rw [← hgot]
  exact hrecord

theorem settleReceived {a : SettleLeg} {contractId : Bytes32}
    (h : s.settleReceived cr D now a contractId = .ok o) (hframes : s.frames = fs)
    (happrove : W (.settleApprove a contractId))
    (hlock : W (.settleLock a contractId (a.contractId cr D.settlement)))
    (hR : ∀ s', s'.htlc.swaps contractId = a.lock.record D.settlement → R s') :
    o.Ends W R fs := by
  subst hframes
  rcases State.tokenCall_ok.mp h with ⟨-, l, -, hrest⟩ | ⟨-, -, -, rfl⟩
  · exact settleApproved hrest rfl hlock hR
  · exact ⟨_, rfl, happrove⟩

theorem settleLeg {msg : Msg} {a : SettleLeg} (h : s.settleLeg cr D now msg a = .ok o)
    (hframes : s.frames = fs)
    (hreceive : W (.settleReceive a (a.contractId cr D.settlement)))
    (happrove : W (.settleApprove a (a.contractId cr D.settlement)))
    (hlock : W (.settleLock a (a.contractId cr D.settlement) (a.contractId cr D.settlement)))
    (hR : ∀ s', s'.htlc.swaps (a.contractId cr D.settlement) = a.lock.record D.settlement →
      R s') : o.Ends W R fs := by
  subst hframes
  rcases State.receiveAndLock_ok.mp (State.settleLeg_ok.mp h).2 with ⟨-, -, l, -, hrest⟩ |
    ⟨-, -, l, -, hrest⟩ | ⟨-, -, -, -, -, -, rfl⟩
  · exact settleApproved hrest rfl hlock hR
  · exact settleReceived hrest rfl happrove hlock hR
  · exact ⟨_, rfl, hreceive⟩

theorem forwardLeg {contractId : Bytes32} {leg : Leg}
    (h : s.forwardLeg D contractId leg = .ok o) (hframes : s.frames = fs)
    (hwait : W (.legForward contractId leg)) (hR : ∀ s', R s') : o.Ends W R fs := by
  apply pay h hframes hwait
  intro s₁ hk hframes₁
  exact finished hk hframes₁ (hR _)

end Outcome.Ends

/-- Any call ends so; a new `settleLeg` has the id of its lock. -/
theorem invoke_ends {x : Address} {call : Call} (h : invoke cr D now x call s = .ok o) :
    o.Ends (Frame.IdMatches cr D) (fun _ => True) s.frames := by
  cases call with
  | newSwap value a =>
    obtain ⟨l, -, hrest⟩ := State.receive_ok.mp h
    apply Outcome.Ends.newSwap hrest rfl trivial
    intro s₁ hk hframes _
    exact .finished hk hframes trivial
  | redeem id p =>
    obtain ⟨-, hpay⟩ := State.redeem_ok.mp h
    apply Outcome.Ends.pay hpay rfl trivial
    intro s₁ hk hframes
    exact .finished hk hframes trivial
  | refund id =>
    obtain ⟨-, hpay⟩ := State.refund_ok.mp h
    apply Outcome.Ends.pay hpay rfl trivial
    intro s₁ hk hframes
    exact .finished hk hframes trivial
  -- No foreign code runs.
  | authorizeLeg order signature nowTs =>
    obtain ⟨st, -, rfl⟩ := invoke_authorizeLeg_ok.mp h
    exact ⟨rfl, trivial⟩
  | settleLeg value a =>
    obtain ⟨l, -, hrest⟩ := State.receive_ok.mp h
    exact Outcome.Ends.settleLeg hrest rfl rfl rfl ⟨rfl, rfl⟩ fun _ _ => trivial
  | refundLeg id =>
    obtain ⟨-, hpay⟩ := State.refund_ok.mp (State.refundLeg_ok.mp h).2
    apply Outcome.Ends.pay hpay rfl trivial
    intro s₁ hk hframes
    exact Outcome.Ends.forwardLeg hk hframes trivial fun _ => trivial
  | transfer token dest amount =>
    obtain ⟨-, l, -, rfl⟩ := invoke_transfer_ok.mp h
    exact ⟨rfl, trivial⟩
  | approve token spender amount =>
    obtain ⟨-, rfl⟩ := invoke_approve_ok.mp h
    exact ⟨rfl, trivial⟩
  | transferFrom token owner dest amount =>
    obtain ⟨-, l, -, rfl⟩ := invoke_transferFrom_ok.mp h
    exact ⟨rfl, trivial⟩

/-- So does any call that goes on; a `settleLeg` keeps its id. -/
theorem Frame.rest_ends {f : Frame} (h : f.rest cr D now s = .ok o) :
    o.Ends (fun g => f.IdMatches cr D → g.IdMatches cr D) (fun _ => True) s.frames := by
  cases f with
  | newSwap | payout | legForward | other => exact .finished h rfl trivial
  | settleReceive a id =>
    exact Outcome.Ends.settleReceived h rfl (fun hid => hid) (fun hid => ⟨hid, rfl⟩)
      fun _ _ => trivial
  | settleApprove a id =>
    exact Outcome.Ends.settleApproved h rfl (fun hid => ⟨hid, rfl⟩) fun _ _ => trivial
  | settleLock a id got =>
    obtain ⟨-, rfl⟩ := State.settleLocked_ok.mp h
    exact ⟨rfl, trivial⟩
  | legRefund id leg => exact Outcome.Ends.forwardLeg h rfl (fun _ => trivial) fun _ => trivial

theorem Call.lockId_eq (cr : Crypto) (D : Deployment) (x : Address) (call : Call) :
    call.lockId cr D x =
      (call.lockOf D x).map fun p => HashedTimelock.computeContractId cr p.1 p.2 := by
  cases call <;> rfl

/-- The waiting call is going to write the record of this lock at `id`. -/
def Frame.WritesAs (D : Deployment) (id : Bytes32) (y : Address) (a : NewSwap) (f : Frame) : Prop :=
  f.Locks id ∧ f.lockOf D = some (y, a)

/-- The record at `id` is this lock, just made. -/
def State.HasLock (id : Bytes32) (y : Address) (a : NewSwap) (s : State) : Prop :=
  s.htlc.swaps id = a.record y

/-- A call that locks creates its record, or waits for that. -/
theorem invoke_locks {x y : Address} {call : Call} {a : NewSwap} (hx : x ≠ zeroAddress)
    (hlocks : call.lockOf D x = some (y, a)) (h : invoke cr D now x call s = .ok o) :
    o.Ends (Frame.WritesAs D (HashedTimelock.computeContractId cr y a) y a)
      (State.HasLock (HashedTimelock.computeContractId cr y a) y a) s.frames := by
  cases call with
  | newSwap value a =>
    cases hlocks
    obtain ⟨l, -, hrest⟩ := State.receive_ok.mp h
    apply Outcome.Ends.newSwap hrest rfl ⟨⟨hx, rfl⟩, rfl⟩
    intro s₁ hk hframes hrecord
    exact .finished hk hframes hrecord
  | settleLeg value a =>
    cases hlocks
    obtain ⟨l, -, hrest⟩ := State.receive_ok.mp h
    exact Outcome.Ends.settleLeg hrest rfl ⟨rfl, rfl⟩ ⟨rfl, rfl⟩ ⟨rfl, rfl⟩ fun _ h => h
  | redeem | refund | authorizeLeg | refundLeg | transfer | approve | transferFrom => cases hlocks

theorem Frame.rest_locks {f : Frame} {id : Bytes32} {y : Address} {a : NewSwap}
    (hlocks : f.WritesAs D id y a) (h : f.rest cr D now s = .ok o) :
    o.Ends (Frame.WritesAs D id y a) (State.HasLock id y a) s.frames := by
  obtain ⟨hid, hlock⟩ := hlocks
  have hwritten : (s.htlc.writeSwap y a id).swaps id = a.record y := by
    rw [HashedTimelock.Storage.writeSwap_swaps, if_pos rfl]
  -- Two frames write the record themselves, two hand it on to the next piece of code.
  cases f with
  | newSwap sender a contractId =>
    obtain ⟨-, rfl⟩ := hid
    cases hlock
    cases h
    exact ⟨rfl, hwritten⟩
  | settleReceive a contractId =>
    cases hid
    cases hlock
    exact Outcome.Ends.settleReceived h rfl ⟨rfl, rfl⟩ ⟨rfl, rfl⟩ fun _ h => h
  | settleApprove a contractId =>
    cases hid
    cases hlock
    exact Outcome.Ends.settleApproved h rfl ⟨rfl, rfl⟩ fun _ h => h
  | settleLock a contractId got =>
    cases hid
    cases hlock
    obtain ⟨rfl, rfl⟩ := State.settleLocked_ok.mp h
    exact ⟨rfl, hwritten⟩
  | payout | legRefund | legForward | other => cases hid

/-! ## Frames and open calls -/

theorem Enters.frames {π : Policy} {s' : State} (h : Enters cr D π now s s') :
    ∃ f, s'.frames = f :: s.frames := by
  cases h with
  | invoke sender call _ _ h =>
    obtain ⟨f, hf, -⟩ := invoke_ends h
    exact ⟨f, hf⟩
  | other h =>
    subst h
    exact ⟨.other, rfl⟩

/-- A call that acts without returning keeps the frames below its own. -/
theorem Acts.frames {π : Policy} {s' : State} (h : Acts cr D π now s s') :
    s'.frames = s.frames ∨ ∃ f f' fs, s.frames = f :: fs ∧ s'.frames = f' :: fs ∧
      f.rest cr D now { s with frames := fs } = .ok (.waiting s') := by
  cases h with
  | invoke sender call _ _ h =>
    obtain ⟨hf, -⟩ := invoke_ends h
    exact .inl hf
  | resume h =>
    obtain ⟨f, fs, hframes, hrest⟩ := resume_ok.mp h
    obtain ⟨f', hf', -⟩ := Frame.rest_ends hrest
    exact .inr ⟨f, f', fs, hframes, hf', hrest⟩

theorem resume_done_frames {s' : State} (h : resume cr D now s = .ok (.done s')) :
    ∃ f, s.frames = f :: s'.frames ∧
      f.rest cr D now { s with frames := s'.frames } = .ok (.done s') := by
  obtain ⟨f, fs, hframes, hrest⟩ := resume_ok.mp h
  obtain ⟨hf, -⟩ := Frame.rest_ends hrest
  have hsame : s'.frames = fs := hf
  rw [hsame]
  exact ⟨f, hframes, hrest⟩

end Code

/-- Every open call waits in one frame, on top of the frames it has started
    from; the frames below all of them satisfy `B`. -/
def Stacked (B : List Frame → Prop) : State → List State → Prop
  | s, [] => B s.frames
  | s, r :: saved => (∃ f, s.frames = f :: r.frames) ∧ Stacked B r saved

section Stacks

variable {cr : Crypto} {D : Deployment} {π : Policy} {B : List Frame → Prop}
  {c c' : Config State}

/-- Only the frames matter. -/
theorem Stacked.of_frames {s s' : State} {saved : List State} (hframes : s'.frames = s.frames)
    (h : Stacked B s saved) : Stacked B s' saved := by
  cases saved with
  | nil =>
    show B s'.frames
    rw [hframes]
    exact h
  | cons r saved =>
    obtain ⟨⟨f, hf⟩, hr⟩ := h
    exact ⟨⟨f, hframes.trans hf⟩, hr⟩

/-- Step rule. -/
theorem Stacked.step
    (hB : ∀ s s', (anyTime cr D π).act s s' → B s.frames → B s'.frames)
    (hc : Stacked B c.cur c.saved) (h : Step (anyTime cr D π) c c') :
    Stacked B c'.cur c'.saved := by
  -- A call puts a frame on top, and its return takes away the one it has put there.
  cases h with
  | enter h =>
    obtain ⟨now, h⟩ := h
    exact ⟨h.frames, hc⟩
  | @act s s' saved h =>
    cases saved with
    | nil => exact hB s s' h hc
    | cons r saved =>
      obtain ⟨⟨f, hf⟩, hr⟩ := hc
      obtain ⟨now, h⟩ := h
      refine ⟨?_, hr⟩
      -- Only the innermost frame may be exchanged for another.
      rcases h.frames with hsame | ⟨g, g', fs, hg, hg', -⟩
      · exact ⟨f, hsame.trans hf⟩
      · have hfs : fs = r.frames := (List.cons.inj (hg.symm.trans hf)).2
        exact ⟨g', hfs ▸ hg'⟩
  | @leave s s' r saved h =>
    obtain ⟨now, h⟩ := h
    obtain ⟨⟨f, hf⟩, hr⟩ := hc
    obtain ⟨g, hg, -⟩ := resume_done_frames h
    exact hr.of_frames (List.cons.inj (hg.symm.trans hf)).2
  | revert => exact hc.2

/-- Run rule. -/
theorem Stacked.run (hB : ∀ s s', (anyTime cr D π).act s s' → B s.frames → B s'.frames)
    (hc : Stacked B c.cur c.saved) (h : Run (anyTime cr D π) c c') :
    Stacked B c'.cur c'.saved := by
  induction h with
  | refl => exact hc
  | tail _ hstep ih => exact ih.step hB hstep

/-- Outside all calls no frame is left. -/
theorem no_frames_of_run {s s' : State} (hs : s.frames = [])
    (h : Run (anyTime cr D π) ⟨s, []⟩ ⟨s', []⟩) : s'.frames = [] := by
  have hstacked : Stacked (· = []) s [] := hs
  refine Stacked.run ?_ hstacked h
  intro s s' hact hnone
  obtain ⟨now, hact⟩ := hact
  rcases hact.frames with hsame | ⟨g, g', fs, hg, -, -⟩
  · exact hsame.trans hnone
  · rw [hnone] at hg
    cases hg

end Stacks

/-! ## Mined transactions -/

/-- The chain between two blocks, after any transactions of anybody. -/
def Later (cr : Crypto) (D : Deployment) (s s' : State) : Prop :=
  Run (anyTime cr D anyone) ⟨s, []⟩ ⟨s', []⟩

/-- The call of `x` is mined in a block with timestamp `now` and succeeds. The
    foreign code that it runs calls back in any way. -/
def Mined (cr : Crypto) (D : Deployment) (now : Uint256) (x : Address) (call : Call)
    (s s' : State) : Prop :=
  invoke cr D now x call s = .ok (.done s') ∨
  ∃ s₁ s₂, invoke cr D now x call s = .ok (.waiting s₁) ∧
    Run (system cr D anyone now) ⟨s₁, []⟩ ⟨s₂, []⟩ ∧ resume cr D now s₂ = .ok (.done s')

section Transactions

variable {cr : Crypto} {D : Deployment} {now : Uint256} {x : Address} {call : Call}
  {s s' : State} {c : Bytes32}

/-- A mined transaction is a run of the chain. -/
theorem Mined.later (h : Mined cr D now x call s s') (hx : D.Account x) : Later cr D s s' := by
  rcases h with hdone | ⟨s₁, s₂, hwaiting, hinside, hresume⟩
  · exact .single (.act ⟨now, .invoke x call hx trivial hdone⟩)
  · have henter : Step (anyTime cr D anyone) ⟨s, []⟩ ⟨s₁, [s]⟩ :=
      .enter ⟨now, .invoke x call hx trivial hwaiting⟩
    have hinside' : Run (anyTime cr D anyone) ⟨s₁, [s]⟩ ⟨s₂, [s]⟩ :=
      (hinside.to_union).above [s]
    exact (Relation.ReflTransGen.head henter hinside').tail (.leave ⟨now, hresume⟩)

/-- Foreign code may also just return. -/
theorem Mined.of_through (h : callThrough cr D now x call s = .ok s') :
    Mined cr D now x call s s' := by
  obtain ⟨o, hinvoke, hcomplete⟩ := callThrough_ok.mp h
  cases o with
  | done s₁ =>
    obtain rfl := complete_done.mp hcomplete
    exact .inl hinvoke
  | waiting s₁ =>
    obtain ⟨s₂, hrun, hreturns⟩ := complete_returns hcomplete anyone
    exact .inr ⟨s₁, s₂, hinvoke, hrun, hreturns⟩

/-- What the call establishes and every move keeps holds at its end. -/
theorem Mined.of_invariant {I : State → Prop} (hI : Invariant (system cr D anyone now) I)
    (h : Mined cr D now x call s s')
    (hstart : ∀ o, invoke cr D now x call s = .ok o → I o.state) : I s' := by
  rcases h with hdone | ⟨s₁, s₂, hwaiting, hinside, hresume⟩
  · exact hstart _ hdone
  · exact hI (hI.run hinside (.of_cur (hstart _ hwaiting))).1 (.leave hresume)

/-- **A mined lock** has written its record, whatever ran in between. -/
theorem Mined.hasLock {y : Address} {a : NewSwap} (hx : x ≠ zeroAddress) (hframes : s.frames = [])
    (hcall : call.lockOf D x = some (y, a)) (h : Mined cr D now x call s s') :
    s'.HasLock (HashedTimelock.computeContractId cr y a) y a := by
  rcases h with hdone | ⟨s₁, s₂, hwaiting, hinside, hresume⟩
  · obtain ⟨-, hrecord⟩ := invoke_locks hx hcall hdone
    exact hrecord
  · obtain ⟨f, hf, hlocks⟩ := invoke_locks hx hcall hwaiting
    rw [hframes] at hf
    -- Below all nested calls the transaction waits to write the record.
    have hstart : Stacked (fun fs => ∃ f, fs = [f] ∧
        f.WritesAs D (HashedTimelock.computeContractId cr y a) y a) s₁ [] := ⟨f, hf, hlocks⟩
    have hend := Stacked.run (π := anyone) ?_ hstart hinside.to_union
    · obtain ⟨g, hg, hlocks'⟩ := hend
      obtain ⟨g', hg', hrest⟩ := resume_done_frames hresume
      obtain ⟨rfl, hnil⟩ := List.cons.inj (hg.symm.trans hg')
      rw [← hnil] at hrest
      obtain ⟨-, hrecord⟩ := Frame.rest_locks hlocks' hrest
      exact hrecord
    · intro t t' hact hbase
      obtain ⟨g, hg, hlocks'⟩ := hbase
      obtain ⟨now', hact⟩ := hact
      rcases hact.frames with hsame | ⟨f₁, f₂, fs, hf₁, hf₂, hrest⟩
      · exact ⟨g, hsame.trans hg, hlocks'⟩
      · obtain ⟨rfl, rfl⟩ := List.cons.inj (hf₁.symm.trans hg)
        obtain ⟨g', hg', hwaits⟩ := Frame.rest_locks hlocks' hrest
        exact ⟨g', hg', hwaits⟩

/-- So the record exists. -/
theorem Mined.locks (hx : x ≠ zeroAddress) (hframes : s.frames = [])
    (hcall : call.lockId cr D x = some c) (h : Mined cr D now x call s s') : s'.HasRecord c := by
  rw [Call.lockId_eq, Option.map_eq_some_iff] at hcall
  obtain ⟨⟨y, a⟩, hlock, rfl⟩ := hcall
  have hy : y ≠ zeroAddress := by
    cases call with
    | newSwap value a => cases hlock; exact hx
    | settleLeg value a => cases hlock; exact D.settlement_ne_zero
    | redeem | refund | authorizeLeg | refundLeg | transfer | approve | transferFrom => cases hlock
  have hrecord : s'.htlc.swaps (HashedTimelock.computeContractId cr y a) = a.record y :=
    h.hasLock hx hframes hlock
  show (s'.htlc.swaps _).Exists
  rw [hrecord]
  exact hy

/-- Outside all calls, a stage that the call reaches is still reached at its end. -/
theorem Mined.stage_of_invoke {t : Terms} {g : Escrow.Stage Terms} (hg : g ≠ .vacant)
    (hframes : s.frames = []) (hheld : (s.htlc.swaps c).stage = .held t)
    (hreached : ∀ o, invoke cr D now x call s = .ok o → (o.state.htlc.swaps c).stage = g)
    (h : Mined cr D now x call s s') : g ≤ (s'.htlc.swaps c).stage := by
  have hvested : Vested c (.held t) s := by
    refine ⟨hheld.ge, ?_⟩
    rw [hframes]
    exact fun _ hf => absurd hf List.not_mem_nil
  have hI : Invariant (system cr D anyone now) (Vested c g) :=
    fun _ _ hs hmove => Vested.invariant hg hs hmove.to_union
  refine (h.of_invariant hI ?_).stage
  intro o hinvoke
  have hkept := hvested.effect (by simp) (invoke_records hinvoke)
  exact ⟨(hreached o hinvoke).ge, hkept.unwritten⟩

/-- **A mined redeem** has claimed its record. -/
theorem Mined.redeems {p : Bytes32} (hframes : s.frames = [])
    (h : Mined cr D now x (.redeem c p) s s') : ∃ t, (s'.htlc.swaps c).stage = .claimed t := by
  obtain ⟨o, hinvoke⟩ : ∃ o, s.redeem cr D now c p = .ok o := by
    rcases h with hdone | ⟨s₁, s₂, hwaiting, -, -⟩
    · exact ⟨_, hdone⟩
    · exact ⟨_, hwaiting⟩
  obtain ⟨hactive, -, -⟩ := redeemChecks_ok.mp (State.redeem_ok.mp hinvoke).1
  obtain ⟨t, hclaimed, -⟩ := State.redeem_claims hinvoke
  have hstage := h.stage_of_invoke (g := .claimed t) (by simp) hframes
    (Swap.stage_of_active hactive) ?_
  · exact ⟨t, Escrow.Stage.claimed_le.mp hstage⟩
  · intro o' hinvoke'
    have hsame : Except.ok o' = Except.ok o := hinvoke'.symm.trans hinvoke
    cases hsame
    exact hclaimed

/-- `refund` reclaims its record. -/
theorem State.refund_reclaims {sender : Address} {wait : Frame} {k : Rest} {o : Outcome}
    (h : s.refund D now sender c wait k = .ok o) (hwait : ∀ id, ¬wait.Writes id)
    (hk : ∀ s₁, k s₁ = .ok o → Still s₁ o.state) :
    (s.htlc.swaps c).Active ∧
      (o.state.htlc.swaps c).stage = .reclaimed (s.htlc.swaps c).terms := by
  obtain ⟨hchecks, hpay⟩ := State.refund_ok.mp h
  obtain ⟨hactive, -, -⟩ := refundChecks_ok.mp hchecks
  have hstill := Still.pay hpay hwait fun _ hrest => ⟨(hk _ hrest).swaps, (hk _ hrest).frames⟩
  have hread : (s.withHtlc (s.htlc.setRefunded c)).htlc.swaps c =
      { s.htlc.swaps c with refunded := true } := by
    show (s.htlc.setRefunded c).swaps c = _
    rw [HashedTimelock.Storage.setRefunded_swaps, if_pos rfl]
  refine ⟨hactive, ?_⟩
  rw [hstill.swaps, hread]
  exact Swap.stage_reclaimed.mpr ⟨hactive.1, hactive.2.1, rfl, rfl⟩

theorem invoke_reclaims {o : Outcome} (hcall : call = .refund c ∨ call = .refundLeg c)
    (h : invoke cr D now x call s = .ok o) :
    (s.htlc.swaps c).Active ∧
      (o.state.htlc.swaps c).stage = .reclaimed (s.htlc.swaps c).terms := by
  rcases hcall with rfl | rfl
  · exact State.refund_reclaims h (fun _ hw => hw) fun _ => Still.finished
  · obtain ⟨-, hrest⟩ := State.refundLeg_ok.mp h
    exact State.refund_reclaims (s := s.withSettlement (s.settlement.setRefunded c)) hrest
      (fun _ hw => hw) fun _ => Still.forwardLeg

/-- **A mined refund** has reclaimed its record. -/
theorem Mined.refunds (hframes : s.frames = []) (hcall : call = .refund c ∨ call = .refundLeg c)
    (h : Mined cr D now x call s s') : ∃ t, (s'.htlc.swaps c).stage = .reclaimed t := by
  have hactive : (s.htlc.swaps c).Active := by
    rcases h with hdone | ⟨s₁, s₂, hwaiting, -, -⟩
    · exact (invoke_reclaims hcall hdone).1
    · exact (invoke_reclaims hcall hwaiting).1
  have hstage := h.stage_of_invoke (g := .reclaimed (s.htlc.swaps c).terms) (by simp) hframes
    (Swap.stage_of_active hactive) fun o hinvoke => (invoke_reclaims hcall hinvoke).2
  exact ⟨_, Escrow.Stage.reclaimed_le.mp hstage⟩

/-! ## What later transactions keep -/

/-- Outside all calls, what a record has reached it keeps. -/
theorem Later.stage {g : Escrow.Stage Terms} (hg : g ≠ .vacant) (hframes : s.frames = [])
    (hs : g ≤ (s.htlc.swaps c).stage) (h : Later cr D s s') : g ≤ (s'.htlc.swaps c).stage := by
  have hvested : Vested c g s := by
    refine ⟨hs, ?_⟩
    rw [hframes]
    exact fun _ hf => absurd hf List.not_mem_nil
  exact ((Vested.invariant hg).run h (.of_cur hvested)).1.stage

theorem Later.claimed (hframes : s.frames = []) (hs : ∃ t, (s.htlc.swaps c).stage = .claimed t)
    (h : Later cr D s s') : ∃ t, (s'.htlc.swaps c).stage = .claimed t := by
  obtain ⟨t, hclaimed⟩ := hs
  exact ⟨t, Escrow.Stage.claimed_le.mp (h.stage (by simp) hframes hclaimed.ge)⟩

theorem Later.reclaimed (hframes : s.frames = [])
    (hs : ∃ t, (s.htlc.swaps c).stage = .reclaimed t) (h : Later cr D s s') :
    ∃ t, (s'.htlc.swaps c).stage = .reclaimed t := by
  obtain ⟨t, hreclaimed⟩ := hs
  exact ⟨t, Escrow.Stage.reclaimed_le.mp (h.stage (by simp) hframes hreclaimed.ge)⟩

theorem Later.hasRecord (hframes : s.frames = []) (hs : s.HasRecord c) (h : Later cr D s s') :
    s'.HasRecord c := by
  have hne : (s.htlc.swaps c).stage ≠ .vacant := fun hvacant => Swap.stage_vacant.mp hvacant hs
  have hstage := h.stage hne hframes le_rfl
  by_contra hnot
  have hvacant : (s'.htlc.swaps c).stage = .vacant := Swap.stage_vacant.mpr hnot
  rw [hvacant] at hstage
  cases hold : (s.htlc.swaps c).stage with
  | vacant => exact hne hold
  | held | claimed | reclaimed => simp [hold, Escrow.Stage.le_def, Escrow.Stage.AtMost] at hstage

end Transactions

end Kael.Exchange
