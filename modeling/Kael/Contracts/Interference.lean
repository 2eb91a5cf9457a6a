import Kael.Contracts.Funds
import Kael.Contracts.Replay
import Kael.Contracts.Transactions

/-!
# Who Can Spoil a Settlement

A `settleLeg` that would succeed depends on the maker's own funds, on the
maker's nonce and on one slot of the HTLC. What others call in the meantime, if
it leaves the maker's funds alone, can therefore spoil it in two ways only:
`authorizeLeg` consumes the nonce without asking who calls, and a lock of the
Settlement for another maker can take the slot, because all makers have the same
HTLC sender (`Spoils`). It makes no difference how deep in other calls the call
was made; so the conditions are about all calls that have taken effect
(`settleLeg_survives_iff`).
-/

namespace Kael.Exchange

open NestedCalls
open Kael.Settlement (Failure SettleLeg Leg)
open HashedTimelock (NewSwap Payout computeContractId newSwapChecks newSwapChecks_ok)

/-! ## The slots of calls -/

/-- The slot that the waiting call is still to take; that of a new call is its
    `lockId`. -/
def Frame.slot (cr : Crypto) (D : Deployment) : Frame → Option Bytes32
  | .newSwap _ _ contractId => some contractId
  | .settleReceive a _ | .settleApprove a _ => some (a.contractId cr D.settlement)
  | .settleLock _ _ got => some got
  | _ => none

/-- A record without a sender does not exist. -/
def Frame.HasSender : Frame → Prop
  | .newSwap sender _ _ => sender ≠ zeroAddress
  | _ => True

/-- Code that takes `slot`, at once or when the foreign code it waits for returns. -/
inductive Fills (cr : Crypto) (D : Deployment) (slot : Option Bytes32) (s : State) :
    Outcome → Prop where
  | done {s' : State} (hframes : s'.frames = s.frames)
      (hslots : ∀ c, (s'.htlc.swaps c).Exists ↔ (s.htlc.swaps c).Exists ∨ slot = some c) :
      Fills cr D slot s (.done s')
  | waiting {s' : State} {f : Frame} (hframes : s'.frames = f :: s.frames)
      (hslot : f.slot cr D = slot) (hsender : f.HasSender)
      (hslots : ∀ c, (s'.htlc.swaps c).Exists ↔ (s.htlc.swaps c).Exists) :
      Fills cr D slot s (.waiting s')

/-- The same frames wait, and the same slots are taken. -/
structure SameSlots (s s' : State) : Prop where
  frames : s'.frames = s.frames
  slots : ∀ c, (s'.htlc.swaps c).Exists ↔ (s.htlc.swaps c).Exists

section Slots

variable {cr : Crypto} {D : Deployment} {now : Uint256} {x m : Address} {value : Uint256}
  {a : SettleLeg} {s s₁ s' : State} {o : Outcome} {call : Call} {slot : Option Bytes32}

theorem SameSlots.of_eq (hframes : s'.frames = s.frames)
    (hswaps : s'.htlc.swaps = s.htlc.swaps) : SameSlots s s' := ⟨hframes, fun _ => by rw [hswaps]⟩

theorem SameSlots.setRefunded (contractId : Bytes32) :
    SameSlots s (s.withHtlc (s.htlc.setRefunded contractId)) := by
  refine ⟨rfl, fun c => ?_⟩
  simp only [State.withHtlc, HashedTimelock.Storage.setRefunded_swaps]
  split_ifs <;> rfl

theorem SameSlots.setWithdrawn (contractId : Bytes32) :
    SameSlots s (s.withHtlc (s.htlc.setWithdrawn contractId)) := by
  refine ⟨rfl, fun c => ?_⟩
  simp only [State.withHtlc, HashedTimelock.Storage.setWithdrawn_swaps]
  split_ifs <;> rfl

theorem exists_writeSwap {st : HashedTimelock.Storage} {sender : Address} {b : NewSwap}
    {id c : Bytes32} (hsender : sender ≠ zeroAddress) :
    ((st.writeSwap sender b id).swaps c).Exists ↔ (st.swaps c).Exists ∨ some id = some c := by
  rw [HashedTimelock.Storage.writeSwap_swaps, Option.some.injEq]
  split_ifs with hc
  · simp [hc, hsender]
  · simp [Ne.symm hc]

theorem Fills.after (h : Fills cr D slot s₁ o) (hsame : SameSlots s s₁) : Fills cr D slot s o := by
  cases h with
  | done hframes hslots =>
    exact .done (hframes.trans hsame.frames) fun c => (hslots c).trans (by rw [hsame.slots])
  | waiting hframes hslot hsender hslots =>
    refine .waiting (hframes.trans ?_) hslot hsender fun c => (hslots c).trans (hsame.slots c)
    rw [hsame.frames]

/-- Code that takes no slot is over. -/
theorem Fills.none_done (h : SameSlots s s') : Fills cr D none s (.done s') :=
  .done h.frames fun c => (h.slots c).trans (by simp)

theorem Fills.finished (h : finished s = .ok o) : Fills cr D none s o := by
  cases h
  exact .none_done (.of_eq rfl rfl)

theorem Fills.pay {src : Address} {contractId : Bytes32} {p : Payout}
    {ethFail tokenFail : Failure} {wait : Frame} {k : Rest}
    (h : s.pay D src contractId p ethFail tokenFail wait k = .ok o)
    (hwait : wait.slot cr D = none) (hsender : wait.HasSender)
    (hk : ∀ s₁, k s₁ = .ok o → Fills cr D none s₁ o) : Fills cr D none s o := by
  rcases State.pay_ok.mp h with ⟨-, -, -, l, -, rfl⟩ | ⟨-, l, -, hrest⟩ | ⟨-, -, -, -, rfl⟩
  · exact .waiting rfl hwait hsender fun _ => Iff.rfl
  · exact (hk _ hrest).after (.of_eq rfl rfl)
  · exact .waiting rfl hwait hsender fun _ => Iff.rfl

/-- `newSwap` takes the slot of its id, and what comes after it takes none. -/
theorem Fills.newSwap {msg : Msg} {b : NewSwap} {wait : Bytes32 → Frame} {k : Bytes32 → Rest}
    (h : s.newSwap cr D now msg b wait k = .ok o) (hmsg : msg.sender ≠ zeroAddress)
    (hwait : ∀ id, (wait id).slot cr D = some id ∧ (wait id).HasSender)
    (hk : ∀ id s₁, k id s₁ = .ok o → ∃ s', o = .done s' ∧ SameSlots s₁ s') :
    Fills cr D (some (computeContractId cr msg.sender b)) s o := by
  obtain ⟨id, hchecks, hcase⟩ := State.newSwap_ok.mp h
  obtain ⟨-, -, -, rfl, -⟩ := newSwapChecks_ok.mp hchecks
  rcases hcase with ⟨-, hrest⟩ | ⟨-, l, -, hrest⟩ | ⟨-, -, -, -, rfl⟩
  · obtain ⟨s', rfl, hsame⟩ := hk _ _ hrest
    exact .done hsame.frames fun c => (hsame.slots c).trans (exists_writeSwap hmsg)
  · obtain ⟨s', rfl, hsame⟩ := hk _ _ hrest
    exact .done hsame.frames fun c => (hsame.slots c).trans (exists_writeSwap hmsg)
  · exact .waiting rfl (hwait _).1 (hwait _).2 fun _ => Iff.rfl

theorem Fills.settleApproved {contractId : Bytes32}
    (h : State.settleApproved cr D now value a contractId s = .ok o) :
    Fills cr D (some (a.contractId cr D.settlement)) s o := by
  have hlocked : ∀ id s₁, State.settleLocked a contractId id s₁ = .ok o →
      ∃ s', o = .done s' ∧ SameSlots s₁ s' := by
    intro id s₁ hrest
    obtain ⟨-, rfl⟩ := State.settleLocked_ok.mp hrest
    exact ⟨_, rfl, .of_eq rfl rfl⟩
  have hlock : Fills cr D _ s o :=
    Fills.newSwap h D.settlement_ne_zero (fun _ => ⟨rfl, trivial⟩) hlocked
  rwa [← Settlement.SettleLeg.contractId] at hlock

theorem Fills.settleReceived {contractId : Bytes32}
    (h : State.settleReceived cr D now a contractId s = .ok o) :
    Fills cr D (some (a.contractId cr D.settlement)) s o := by
  rcases State.tokenCall_ok.mp h with ⟨-, l, -, hrest⟩ | ⟨-, -, -, rfl⟩
  · exact (Fills.settleApproved hrest).after (.of_eq rfl rfl)
  · exact .waiting rfl rfl trivial fun _ => Iff.rfl

theorem Fills.receiveAndLock {contractId : Bytes32}
    (h : s.receiveAndLock cr D now value a contractId = .ok o) :
    Fills cr D (some (a.contractId cr D.settlement)) s o := by
  rcases State.receiveAndLock_ok.mp h with
    ⟨-, -, l, -, hlock⟩ | ⟨-, -, l, -, hlock⟩ | ⟨-, -, -, -, -, -, rfl⟩
  · exact (Fills.settleApproved hlock).after (.of_eq rfl rfl)
  · exact (Fills.settleReceived hlock).after (.of_eq rfl rfl)
  · exact .waiting rfl rfl trivial fun _ => Iff.rfl

theorem Fills.forwardLeg {contractId : Bytes32} {leg : Leg}
    (h : State.forwardLeg D contractId leg s = .ok o) : Fills cr D none s o :=
  Fills.pay h rfl trivial fun _ hk => (Fills.finished hk).after (.of_eq rfl rfl)

theorem Fills.refund {sender : Address} {contractId : Bytes32} {wait : Frame} {k : Rest}
    (h : s.refund D now sender contractId wait k = .ok o) (hwait : wait.slot cr D = none)
    (hsender : wait.HasSender) (hk : ∀ s₁, k s₁ = .ok o → Fills cr D none s₁ o) :
    Fills cr D none s o :=
  (Fills.pay (State.refund_ok.mp h).2 hwait hsender fun _ hrest =>
    (hk _ hrest).after (.of_eq rfl rfl)).after (.setRefunded contractId)

/-- **Every call takes its slot.** -/
theorem invoke_fills (hx : D.Account x) (h : invoke cr D now x call s = .ok o) :
    Fills cr D (call.lockId cr D x) s o := by
  cases call with
  -- The calls that lock.
  | newSwap value b =>
    obtain ⟨l, -, hrest⟩ := State.receive_ok.mp h
    have hfinished : ∀ (id : Bytes32) s₁, finished s₁ = .ok o →
        ∃ s', o = .done s' ∧ SameSlots s₁ s' := by
      intro id s₁ hk
      cases hk
      exact ⟨_, rfl, .of_eq rfl rfl⟩
    have hlock : Fills cr D _ { s with ledger := l } o :=
      Fills.newSwap hrest hx.1 (fun _ => ⟨rfl, hx.1⟩) hfinished
    exact hlock.after (.of_eq rfl rfl)
  | settleLeg value b =>
    obtain ⟨l, -, hrest⟩ := State.receive_ok.mp h
    exact (Fills.receiveAndLock (State.settleLeg_ok.mp hrest).2).after (.of_eq rfl rfl)
  -- The calls that pay out.
  | redeem contractId preimage =>
    have hpay : Fills cr D none _ o := Fills.pay (State.redeem_ok.mp h).2 rfl trivial
      fun _ hk => (Fills.finished hk).after (.of_eq rfl rfl)
    exact hpay.after (.setWithdrawn contractId)
  | refund contractId => exact Fills.refund h rfl trivial fun _ => Fills.finished
  | refundLeg contractId =>
    have hrefund : Fills cr D none _ o :=
      Fills.refund (State.refundLeg_ok.mp h).2 rfl trivial fun _ => Fills.forwardLeg
    exact hrefund.after (.of_eq rfl rfl)
  -- The calls that run no code of the HTLC.
  | authorizeLeg order signature nowTs =>
    obtain ⟨st, -, rfl⟩ := invoke_authorizeLeg_ok.mp h
    exact .none_done (.of_eq rfl rfl)
  | transfer token dest amount =>
    obtain ⟨-, l, -, rfl⟩ := invoke_transfer_ok.mp h
    exact .none_done (.of_eq rfl rfl)
  | approve token spender amount =>
    obtain ⟨-, rfl⟩ := invoke_approve_ok.mp h
    exact .none_done (.of_eq rfl rfl)
  | transferFrom token owner dest amount =>
    obtain ⟨-, l, -, rfl⟩ := invoke_transferFrom_ok.mp h
    exact .none_done (.of_eq rfl rfl)

/-- **A waiting call takes its slot** when its foreign code returns. -/
theorem rest_fills {f : Frame} (hsender : f.HasSender) (h : f.rest cr D now s = .ok o) :
    Fills cr D (f.slot cr D) s o := by
  cases f with
  | newSwap sender b id =>
    cases h
    exact .done rfl fun _ => exists_writeSwap hsender
  | payout done => exact (Fills.finished h).after (.of_eq rfl rfl)
  | settleReceive b id => exact Fills.settleReceived h
  | settleApprove b id => exact Fills.settleApproved h
  | settleLock b id got =>
    obtain ⟨-, rfl⟩ := State.settleLocked_ok.mp h
    exact .done rfl fun _ => exists_writeSwap D.settlement_ne_zero
  | legRefund id leg => exact (Fills.forwardLeg h).after (.of_eq rfl rfl)
  | legForward id leg => exact (Fills.finished h).after (.of_eq rfl rfl)
  | other => exact Fills.finished h

/-- A call that waits once more has no sender to miss. -/
theorem resume_waiting (h : resume cr D now s = .ok (.waiting s')) :
    ∃ f f' fs, s.frames = f :: fs ∧ s'.frames = f' :: fs ∧ f'.slot cr D = f.slot cr D ∧
      f'.HasSender ∧ ∀ c, (s'.htlc.swaps c).Exists ↔ (s.htlc.swaps c).Exists := by
  obtain ⟨f, fs, hframes, hrest⟩ := resume_ok.mp h
  have hsender : f.HasSender := by
    cases f with
    | newSwap sender b id => cases hrest
    | _ => trivial
  cases rest_fills hsender hrest with
  | waiting hframes' hslot hsender' hslots =>
    exact ⟨f, _, fs, hframes, hframes', hslot, hsender', hslots⟩

theorem resume_done {f : Frame} {fs : List Frame} (hframes : s.frames = f :: fs)
    (hsender : f.HasSender) (h : resume cr D now s = .ok (.done s')) :
    s'.frames = fs ∧
      ∀ c, (s'.htlc.swaps c).Exists ↔ (s.htlc.swaps c).Exists ∨ f.slot cr D = some c := by
  obtain ⟨g, gs, hframes', hrest⟩ := resume_ok.mp h
  obtain ⟨rfl, rfl⟩ := List.cons.inj (hframes.symm.trans hframes')
  cases rest_fills hsender hrest with
  | done hframes'' hslots => exact ⟨hframes'', hslots⟩

end Slots

/-! ## What a run consumes and takes -/

section Runs

variable {cr : Crypto} {D : Deployment} {π : Policy} {s s' : State} {n : Nat} {t : Traced}
  {notes : List (Address × Call)}

/-- Besides the nonces of `s`, those of the calls that have taken effect. -/
def NoncesSince (s : State) (t : Traced) : Prop :=
  ∀ m k, t.state.settlement.consumedNonce m k = true ↔
    s.settlement.consumedNonce m k = true ∨ ∃ p ∈ t.notes, p.2.Consumes m k

/-- Besides the slots of `s`, those of the calls that have taken effect: taken,
    or still to be taken by one of the `n` calls that wait above those of `s`. -/
def SlotsSince (cr : Crypto) (D : Deployment) (s : State) (n : Nat) (t : Traced) : Prop :=
  ∃ inner outer, t.state.frames = inner ++ outer ∧ inner.length = n ∧
    (∀ f ∈ inner, f.HasSender) ∧
    ∀ c, (t.state.htlc.swaps c).Exists ∨ (∃ f ∈ inner, f.slot cr D = some c) ↔
      (s.htlc.swaps c).Exists ∨ ∃ p ∈ t.notes, p.2.lockId cr D p.1 = some c

theorem NoncesSince.invariant (cr : Crypto) (D : Deployment) (π : Policy) (s : State) :
    Invariant (calls cr D π).noted (NoncesSince s) := by
  apply Labelled.noted_invariant
  intro t s' l ht hmove m k
  rcases calls_moves hmove with ⟨now, x, call, o, rfl, hx, -, h, rfl⟩ | ⟨rfl, rfl⟩ |
    ⟨rfl, now, o, h, rfl⟩
  -- A call adds the nonce that it consumes.
  · rw [(invoke_takesEffect hx h).nonces, ht m k, or_assoc]
    simp [or_and_right, exists_or]
  · simpa using ht m k
  · have hresumed : Handles cr D 0 _ o := resume_handles h
    rw [hresumed.nonces]
    simpa using ht m k

/-- Nothing has happened yet. -/
theorem SlotsSince.refl : SlotsSince cr D s 0 ⟨s, []⟩ :=
  ⟨[], s.frames, rfl, rfl, nofun, fun c => by simp⟩

/-- A call that has been made takes its slot or waits to take it. -/
theorem SlotsSince.call {now : Uint256} {x : Address} {call : Call} {o : Outcome}
    (ht : SlotsSince cr D s n t) (hx : D.Account x) (h : invoke cr D now x call t.state = .ok o) :
    SlotsSince cr D s (match o with | .done _ => n | .waiting _ => n + 1)
      ⟨o.state, t.notes ++ [(x, call)]⟩ := by
  obtain ⟨inner, outer, hframes, hlength, hsenders, hslots⟩ := ht
  cases invoke_fills hx h with
  | @done s' hframes' hslots' =>
    refine ⟨inner, outer, hframes'.trans hframes, hlength, hsenders, fun c => ?_⟩
    simp only [Outcome.state, hslots', List.mem_append, List.mem_singleton, or_and_right, exists_or,
      exists_eq_left]
    rw [or_right_comm, hslots c, or_assoc]
  | @waiting s' f hframes' hslot hsender hslots' =>
    refine ⟨f :: inner, outer, ?_, congrArg Nat.succ hlength, ?_, fun c => ?_⟩
    · rw [Outcome.state, hframes', hframes, List.cons_append]
    · exact List.forall_mem_cons.mpr ⟨hsender, hsenders⟩
    · simp only [Outcome.state, hslots', List.mem_append, List.mem_cons, List.not_mem_nil, or_false,
        or_and_right, exists_or, exists_eq_left, hslot]
      rw [or_left_comm, hslots c]
      exact or_rotate

theorem SlotsSince.invariant (cr : Crypto) (D : Deployment) (π : Policy) (s : State) :
    DepthInvariant (calls cr D π).noted (SlotsSince cr D s) := by
  apply Labelled.noted_depthInvariant
  · rintro n t s' l ht (⟨now, x, call, rfl, hx, -, h⟩ | ⟨rfl, rfl⟩)
    · exact ht.call hx h
    -- Foreign code of somebody else takes no slot.
    · obtain ⟨inner, outer, hframes, hlength, hsenders, hslots⟩ := ht
      refine ⟨.other :: inner, outer, congrArg _ hframes, congrArg Nat.succ hlength, ?_, ?_⟩
      · exact List.forall_mem_cons.mpr ⟨trivial, hsenders⟩
      · intro c
        simpa [Frame.slot] using hslots c
  · rintro n t s' l ht (⟨now, x, call, rfl, hx, -, h⟩ | ⟨rfl, now, h⟩)
    · exact ht.call hx h
    -- The innermost call waits once more, for the same slot.
    · obtain ⟨inner, outer, hframes, hlength, hsenders, hslots⟩ := ht
      obtain ⟨f, f', fs, hbefore, hafter, hslot, hsender, hslots'⟩ := resume_waiting h
      cases inner with
      | nil =>
        refine ⟨[], f' :: fs, hafter, hlength, nofun, fun c => ?_⟩
        simpa [hslots'] using hslots c
      | cons g inner =>
        obtain ⟨rfl, rfl⟩ := List.cons.inj (hframes.symm.trans hbefore)
        refine ⟨f' :: inner, outer, hafter, hlength, ?_, fun c => ?_⟩
        · exact List.forall_mem_cons.mpr ⟨hsender, (List.forall_mem_cons.mp hsenders).2⟩
        · simpa [hslots', hslot] using hslots c
  -- The innermost call returns.
  · rintro n t s' l ⟨inner, outer, hframes, hlength, hsenders, hslots⟩ ⟨rfl, now, h⟩
    obtain ⟨f, inner, rfl⟩ := List.exists_cons_of_length_eq_add_one hlength
    obtain ⟨hsender, hsenders⟩ := List.forall_mem_cons.mp hsenders
    obtain ⟨hafter, hslots'⟩ := resume_done hframes hsender h
    refine ⟨inner, outer, hafter, Nat.succ.inj hlength, hsenders, fun c => ?_⟩
    have hbefore := hslots c
    simp only [List.mem_cons, or_and_right, exists_or, exists_eq_left] at hbefore
    simp only [hslots', Option.toList_none, List.append_nil, or_assoc]
    exact hbefore

/-- **What a run has consumed**: the nonces of its calls. -/
theorem run_nonces (h : Run (calls cr D π).noted ⟨⟨s, []⟩, []⟩ ⟨⟨s', notes⟩, []⟩) (m : Address)
    (k : Uint256) : s'.settlement.consumedNonce m k = true ↔
      s.settlement.consumedNonce m k = true ∨ ∃ p ∈ notes, p.2.Consumes m k :=
  ((NoncesSince.invariant cr D π s).run h (.of_cur fun _ _ => by simp)).1 m k

/-- **What a run has taken**, when its calls are over: their slots. -/
theorem run_slots (h : Run (calls cr D π).noted ⟨⟨s, []⟩, []⟩ ⟨⟨s', notes⟩, []⟩) (c : Bytes32) :
    (s'.htlc.swaps c).Exists ↔
      (s.htlc.swaps c).Exists ∨ ∃ p ∈ notes, p.2.lockId cr D p.1 = some c := by
  obtain ⟨inner, outer, -, hlength, -, hslots⟩ :=
    ((SlotsSince.invariant cr D π s).run h (.of_cur .refl)).1
  obtain rfl := List.length_eq_zero_iff.mp hlength
  simpa using hslots c

end Runs

/-! ## When `settleLeg` succeeds -/

/-- The maker can pay: `value` in ETH, and a standard token from its allowance. -/
def Affordable (D : Deployment) (m : Address) (value : Uint256) (a : SettleLeg)
    (l : Ledger Address Address) : Prop :=
  value.toNat ≤ l.bal zeroAddress m ∧
  (D.standard a.order.sellToken = true →
    a.order.sellAmount.toNat ≤ l.allowance a.order.sellToken m D.settlement ∧
    a.order.sellAmount.toNat ≤ l.bal a.order.sellToken m)

/-- Everything `settleLeg` asks for. -/
structure Settleable (cr : Crypto) (D : Deployment) (now : Uint256) (m : Address) (value : Uint256)
    (a : SettleLeg) (s : State) : Prop where
  order : Settlement.settleChecks cr D.chainId now s.settlement m a = .ok ()
  lock : newSwapChecks cr D.hasCode now s.htlc ⟨D.settlement, value⟩ a.lock =
    .ok (a.contractId cr D.settlement)
  token : a.order.sellToken ≠ D.htlc ∧ a.order.sellToken ≠ D.settlement
  funds : Affordable D m value a s.ledger

section Settleable

variable {cr : Crypto} {D : Deployment} {now : Uint256} {m : Address} {value : Uint256}
  {a : SettleLeg} {s s' : State} {o : Outcome}

theorem settleLedger_isSome (hm : D.Account m) (hmaker : m = a.order.maker)
    (htracked : D.Tracked a.order.sellToken)
    (heth : a.order.sellToken = zeroAddress → value = a.order.sellAmount)
    (htoken : a.order.sellToken ≠ zeroAddress → value = 0) {l : Ledger Address Address} :
    (∃ l', settleLedger D value a m l = some l') ↔ Affordable D m value a l := by
  have hne := D.settlement_ne_htlc
  simp only [settleLedger, Option.bind_eq_some_iff]
  rcases htracked with hzero | hstandard
  -- ETH: only the first payment can fail, since the second forwards what it has brought.
  · simp only [hzero, ↓reduceIte, Affordable, D.standard_zero, Bool.false_eq_true, false_implies,
      and_true]
    constructor
    · rintro ⟨l', l₁, hmove, -⟩
      exact Ledger.move_isSome.mp ⟨l₁, hmove⟩
    · intro hle
      obtain ⟨l₁, hmove⟩ := Ledger.move_isSome.mpr hle
      have hgot := Ledger.move_bal_dst hmove hm.2.2.symm
      obtain ⟨l', hmove'⟩ : ∃ l', l₁.move zeroAddress D.settlement D.htlc
          a.order.sellAmount.toNat = some l' := by
        refine Ledger.move_isSome.mpr ?_
        rw [hgot, heth hzero]
        omega
      exact ⟨l', l₁, hmove, hmove'⟩
  -- A token: only the pull from the maker can fail.
  · have hnonzero : a.order.sellToken ≠ zeroAddress := D.standard_ne_zero _ hstandard
    have hnone : value.toNat = 0 := by rw [htoken hnonzero]; rfl
    simp only [hnonzero, ↓reduceIte, Affordable, hstandard, forall_const, Option.bind_eq_some_iff,
      hnone, Nat.zero_le, true_and, ← hmaker]
    constructor
    · rintro ⟨l', l₁, hmove, l₂, hpull, -⟩
      have hsame : Untouched m l l₁ := .move (.inl rfl) hmove
      have hle := Ledger.transferFrom_isSome.mp ⟨l₂, hpull⟩
      rw [hsame.allowance, hsame.bal] at hle
      exact hle
    · intro hle
      obtain ⟨l₁, hmove⟩ : ∃ l₁, l.move zeroAddress m D.settlement 0 = some l₁ :=
        Ledger.move_isSome.mpr (Nat.zero_le _)
      have hsame : Untouched m l l₁ := .move (.inl rfl) hmove
      obtain ⟨l₂, hpull⟩ : ∃ l₂, l₁.transferFrom (D.unlimitedAllowance a.order.sellToken)
          a.order.sellToken D.settlement m D.settlement a.order.sellAmount.toNat = some l₂ := by
        refine Ledger.transferFrom_isSome.mpr ?_
        rw [hsame.allowance, hsame.bal]
        exact hle
      have hgot := Ledger.move_bal_dst (Ledger.transferFrom_eq_some.mp hpull).2 hm.2.2.symm
      -- Settlement has just received the amount and has approved it.
      obtain ⟨l', hlock⟩ : ∃ l', (l₂.approve a.order.sellToken D.settlement D.htlc
          a.order.sellAmount.toNat).transferFrom (D.unlimitedAllowance a.order.sellToken)
          a.order.sellToken D.htlc D.settlement D.htlc a.order.sellAmount.toNat = some l' := by
        refine Ledger.transferFrom_isSome.mpr ⟨?_, ?_⟩
        · rw [Ledger.approve_allowance, if_pos ⟨rfl, rfl, rfl⟩]
        · rw [Ledger.approve_bal, hgot]
          omega
      exact ⟨l', l₁, hmove, l₂, hpull, hlock⟩

/-- A waiting frame of this `settleLeg`. Where it has called the HTLC, the checks
    of `newSwap` have passed, and also pass in `s`. -/
inductive Frame.Settling (cr : Crypto) (D : Deployment) (now : Uint256) (a : SettleLeg)
    (s : State) : Frame → Prop where
  | receive (contractId : Bytes32) : Frame.Settling cr D now a s (.settleReceive a contractId)
  | approve (contractId : Bytes32) : Frame.Settling cr D now a s (.settleApprove a contractId)
  | lock (contractId got : Bytes32)
    (hchecks : newSwapChecks cr D.hasCode now s.htlc ⟨D.settlement, 0⟩ a.lock =
      .ok (a.contractId cr D.settlement)) :
    Frame.Settling cr D now a s (.settleLock a contractId got)

/-- The `settleLeg` waits above `outer`, and above it `n` calls of the foreign
    code that it runs. -/
structure Settling (cr : Crypto) (D : Deployment) (now : Uint256) (a : SettleLeg) (s : State)
    (outer : List Frame) (n : Nat) (s' : State) : Prop where
  frames : ∃ inner f, s'.frames = inner ++ f :: outer ∧ inner.length = n ∧
    (∀ g ∈ inner, g.HasSender) ∧ f.Settling cr D now a s
  slots : ∀ c, (s.htlc.swaps c).Exists → (s'.htlc.swaps c).Exists

/-- The checks of a lock that have passed pass also where fewer slots are taken. -/
theorem newSwapChecks_fewer {msg : Msg} {b : NewSwap} {id : Bytes32}
    (hslots : ∀ c, (s.htlc.swaps c).Exists → (s'.htlc.swaps c).Exists)
    (h : newSwapChecks cr D.hasCode now s'.htlc msg b = .ok id) :
    newSwapChecks cr D.hasCode now s.htlc msg b = .ok id := by
  obtain ⟨hamount, hhashlock, htimelock, hid, habsent, hpay⟩ := newSwapChecks_ok.mp h
  exact newSwapChecks_ok.mpr
    ⟨hamount, hhashlock, htimelock, hid, fun hexists => habsent (hslots _ hexists), hpay⟩

/-- From its call of the HTLC on, the checks of the lock have passed. -/
theorem Frame.Settling.approved {id : Bytes32} {s₁ : State}
    (h : State.settleApproved cr D now 0 a id s₁ = .ok o)
    (hslots : ∀ c, (s.htlc.swaps c).Exists → (s₁.htlc.swaps c).Exists) :
    newSwapChecks cr D.hasCode now s.htlc ⟨D.settlement, 0⟩ a.lock =
        .ok (a.contractId cr D.settlement) ∧
      ∀ s₂, o = .waiting s₂ → ∃ f, s₂.frames = f :: s₁.frames ∧ f.Settling cr D now a s := by
  obtain ⟨got, hchecks, hcase⟩ := State.newSwap_ok.mp h
  obtain ⟨-, -, -, rfl, -⟩ := newSwapChecks_ok.mp hchecks
  have hchecks' := newSwapChecks_fewer hslots hchecks
  refine ⟨hchecks', ?_⟩
  rcases hcase with ⟨-, hrest⟩ | ⟨-, l, -, hrest⟩ | ⟨-, -, -, -, rfl⟩
  · obtain ⟨-, rfl⟩ := State.settleLocked_ok.mp hrest
    exact nofun
  · obtain ⟨-, rfl⟩ := State.settleLocked_ok.mp hrest
    exact nofun
  · rintro s₂ ⟨⟩
    exact ⟨_, rfl, .lock _ _ hchecks'⟩

/-- What its frame does next: it calls the HTLC, or waits for the approval first. -/
theorem Frame.Settling.rest {f : Frame} (hf : f.Settling cr D now a s)
    (hslots : ∀ c, (s.htlc.swaps c).Exists → (s'.htlc.swaps c).Exists)
    (h : f.rest cr D now s' = .ok o) :
    newSwapChecks cr D.hasCode now s.htlc ⟨D.settlement, 0⟩ a.lock =
        .ok (a.contractId cr D.settlement) ∧
      (∀ s₁, o = .waiting s₁ → ∃ f', s₁.frames = f' :: s'.frames ∧ f'.Settling cr D now a s) ∨
    ∃ id, o = .waiting { s' with frames := .settleApprove a id :: s'.frames } := by
  cases hf with
  | receive id =>
    have hrun : State.settleReceived cr D now a id s' = .ok o := h
    rcases State.tokenCall_ok.mp hrun with ⟨-, l, -, hrest⟩ | ⟨-, -, -, rfl⟩
    · have hcalled := Frame.Settling.approved hrest hslots
      exact .inl hcalled
    · exact .inr ⟨id, rfl⟩
  | approve id => exact .inl (Frame.Settling.approved h hslots)
  | lock id got hchecks =>
    obtain ⟨-, rfl⟩ := State.settleLocked_ok.mp h
    exact .inl ⟨hchecks, nofun⟩

/-- Slots that are taken stay taken, whatever the foreign code calls. -/
theorem Fills.slots {slot : Option Bytes32} (h : Fills cr D slot s o) (c : Bytes32)
    (hc : (s.htlc.swaps c).Exists) : (o.state.htlc.swaps c).Exists := by
  cases h with
  | done hframes hslots => exact (hslots c).mpr (.inl hc)
  | waiting hframes hslot hsender hslots => exact (hslots c).mpr hc

theorem Settling.invariant (cr : Crypto) (D : Deployment) (now : Uint256) (a : SettleLeg)
    (s : State) (outer : List Frame) :
    DepthInvariant (system cr D anyone now) (Settling cr D now a s outer) where
  enter := by
    rintro n s₁ s₂ ⟨⟨inner, f, hframes, hlength, hsenders, hf⟩, hslots⟩ (⟨x, call, hx, -, h⟩ | rfl)
    -- A call that waits does so above the others.
    · have hfills := invoke_fills hx h
      refine ⟨?_, fun c hc => hfills.slots c (hslots c hc)⟩
      cases hfills with
      | @waiting _ g hframes' hslot hsender hslots' =>
        refine ⟨g :: inner, f, ?_, congrArg Nat.succ hlength, ?_, hf⟩
        · rw [hframes', hframes, List.cons_append]
        · exact List.forall_mem_cons.mpr ⟨hsender, hsenders⟩
    · refine ⟨⟨.other :: inner, f, congrArg _ hframes, congrArg Nat.succ hlength, ?_, hf⟩, hslots⟩
      exact List.forall_mem_cons.mpr ⟨trivial, hsenders⟩
  act := by
    rintro n s₁ s₂ ⟨⟨inner, f, hframes, hlength, hsenders, hf⟩, hslots⟩ (⟨x, call, hx, -, h⟩ | h)
    · have hfills := invoke_fills hx h
      refine ⟨?_, fun c hc => hfills.slots c (hslots c hc)⟩
      cases hfills with
      | done hframes' hslots' =>
        exact ⟨inner, f, hframes'.trans hframes, hlength, hsenders, hf⟩
    · obtain ⟨g, g', fs, hbefore, hafter, -, hsender, hslots'⟩ := resume_waiting h
      refine ⟨?_, fun c hc => (hslots' c).mpr (hslots c hc)⟩
      cases inner with
      -- The `settleLeg` itself goes on, up to its next wait.
      | nil =>
        obtain ⟨f₁, fs₁, hframes₁, hrest⟩ := resume_ok.mp h
        obtain ⟨rfl, rfl⟩ := List.cons.inj (hframes.symm.trans hframes₁)
        have hslots₁ : ∀ c, (s.htlc.swaps c).Exists →
            ((State.htlc { s₁ with frames := outer }).swaps c).Exists := hslots
        rcases hf.rest hslots₁ hrest with ⟨-, hwaits⟩ | ⟨id, heq⟩
        · obtain ⟨f', hf', hsettling⟩ := hwaits _ rfl
          exact ⟨[], f', hf', hlength, hsenders, hsettling⟩
        · cases heq
          exact ⟨[], _, rfl, hlength, hsenders, .approve id⟩
      | cons g₁ inner =>
        obtain ⟨rfl, rfl⟩ := List.cons.inj (hframes.symm.trans hbefore)
        refine ⟨g' :: inner, f, hafter, hlength, ?_, hf⟩
        exact List.forall_mem_cons.mpr ⟨hsender, (List.forall_mem_cons.mp hsenders).2⟩
  leave := by
    rintro n s₁ s₂ ⟨⟨inner, f, hframes, hlength, hsenders, hf⟩, hslots⟩ h
    obtain ⟨g, inner, rfl⟩ := List.exists_cons_of_length_eq_add_one hlength
    obtain ⟨hsender, hsenders⟩ := List.forall_mem_cons.mp hsenders
    obtain ⟨hafter, hslots'⟩ := resume_done hframes hsender h
    refine ⟨⟨inner, f, hafter, Nat.succ.inj hlength, hsenders, hf⟩, fun c hc => ?_⟩
    exact (hslots' c).mpr (.inl (hslots c hc))

/-- ETH and standard tokens: the whole call is one step of the ledger. -/
theorem Settleable.of_tracked (hm : D.Account m) (htracked : D.Tracked a.order.sellToken)
    (h : invoke cr D now m (.settleLeg value a) s = .ok o) : Settleable cr D now m value a s := by
  obtain ⟨l, hledger, hchecks, hlock, -⟩ := (invoke_settleLeg_tracked htracked).mp h
  obtain ⟨-, -, -, hmaker, -⟩ := Settlement.settleChecks_ok.mp hchecks
  obtain ⟨heth, htoken⟩ := value_of_newSwapChecks hlock
  have hself : a.order.sellToken ≠ D.htlc ∧ a.order.sellToken ≠ D.settlement := by
    rcases htracked with hzero | hstandard
    · rw [hzero]
      exact ⟨D.htlc_ne_zero.symm, D.settlement_ne_zero.symm⟩
    · exact ⟨D.standard_ne_htlc _ hstandard, D.standard_ne_settlement _ hstandard⟩
  exact ⟨hchecks, hlock, hself,
    (settleLedger_isSome hm hmaker htracked heth htoken).mp ⟨l, hledger⟩⟩

/-- **A `settleLeg` that can succeed** has everything it asks for, whatever the
    foreign code of its token calls. -/
theorem Settleable.of_mined (hm : D.Account m)
    (h : Mined cr D now m (.settleLeg value a) s s') : Settleable cr D now m value a s := by
  by_cases htracked : D.Tracked a.order.sellToken
  · rcases h with hinvoke | ⟨s₁, s₂, hinvoke, -⟩
    · exact .of_tracked hm htracked hinvoke
    · exact .of_tracked hm htracked hinvoke
  -- A foreign token: nothing is known of its balances.
  rcases h with hinvoke | ⟨s₁, s₂, hinvoke, hrun, hreturns⟩
  · obtain ⟨l, -, -, -, -, hwaits⟩ := settleLeg_waits htracked hinvoke
    cases hwaits
  · obtain ⟨l, -, hchecks, hvalue, hself, hwaits⟩ := settleLeg_waits htracked hinvoke
    cases hwaits
    have hstart : Settling cr D now a s s.frames 0 { s with
        ledger := l
        settlement := s.settlement.openLeg (a.contractId cr D.settlement) a
        frames := .settleReceive a (a.contractId cr D.settlement) :: s.frames } :=
      ⟨⟨[], _, rfl, rfl, nofun, .receive _⟩, fun _ hc => hc⟩
    -- When it returns at last, it has called the HTLC.
    obtain ⟨⟨inner, f, hframes, hlength, -, hf⟩, hslots⟩ :=
      ((Settling.invariant cr D now a s s.frames).run hrun (.of_cur hstart)).1
    obtain rfl := List.length_eq_zero_iff.mp hlength
    obtain ⟨f₁, fs₁, hframes₁, hrest⟩ := resume_ok.mp hreturns
    obtain ⟨rfl, rfl⟩ := List.cons.inj (hframes.symm.trans hframes₁)
    have hslots₂ : ∀ c, (s.htlc.swaps c).Exists →
        ((State.htlc { s₂ with frames := s.frames }).swaps c).Exists := hslots
    rcases hf.rest hslots₂ hrest with ⟨hlock, -⟩ | ⟨id, hwaits⟩
    · refine ⟨hchecks, hvalue ▸ hlock, hself, ?_, fun hstandard => ?_⟩
      · rw [hvalue]
        exact Nat.zero_le _
      · exact absurd (.inr hstandard) htracked
    · cases hwaits

/-- The three waits of `settleLeg` on a foreign token that returns each time. -/
private theorem complete_settleReceive {id : Bytes32} {s₁ : State} {fs : List Frame}
    (hframes : s₁.frames = .settleReceive a id :: fs) (hzero : a.order.sellToken ≠ zeroAddress)
    (hforeign : D.standard a.order.sellToken = false)
    (hchecks : newSwapChecks cr D.hasCode now s₁.htlc ⟨D.settlement, 0⟩ a.lock = .ok id)
    (hhtlc : a.order.sellToken ≠ D.htlc) (hsettlement : a.order.sellToken ≠ D.settlement) :
    ∃ s', complete cr D now 3 (.waiting s₁) = .ok s' := by
  have hreceived : (Frame.settleReceive a id).rest cr D now { s₁ with frames := fs } =
      .ok (.waiting { s₁ with frames := .settleApprove a id :: fs }) := by
    show State.settleReceived cr D now a id { s₁ with frames := fs } = _
    exact State.tokenCall_ok.mpr (.inr ⟨hforeign, hhtlc, hsettlement, rfl⟩)
  have happroved : (Frame.settleApprove a id).rest cr D now { s₁ with frames := fs } =
      .ok (.waiting { s₁ with frames := .settleLock a id id :: fs }) :=
    State.newSwap_ok.mpr ⟨id, hchecks, .inr (.inr ⟨hzero, hforeign, hhtlc, hsettlement, rfl⟩)⟩
  have hlocked : (Frame.settleLock a id id).rest cr D now { s₁ with frames := fs } =
      .ok (.done { s₁ with
        htlc := s₁.htlc.writeSwap D.settlement a.lock id
        settlement := s₁.settlement.emit (a.settled id)
        frames := fs }) := State.settleLocked_ok.mpr ⟨rfl, rfl⟩
  have hlast : complete cr D now 1 (.waiting { s₁ with frames := .settleLock a id id :: fs }) =
      .ok _ := (complete_waiting rfl).mpr ⟨_, hlocked, complete_done.mpr rfl⟩
  have hthen : complete cr D now 2 (.waiting { s₁ with frames := .settleApprove a id :: fs }) =
      .ok _ := (complete_waiting rfl).mpr ⟨_, happroved, hlast⟩
  exact ⟨_, (complete_waiting hframes).mpr ⟨_, hreceived, hthen⟩⟩

/-- And it succeeds if that code just returns. -/
theorem Settleable.through (hm : D.Account m) (h : Settleable cr D now m value a s) :
    ∃ s', callThrough cr D now m (.settleLeg value a) s = .ok s' := by
  obtain ⟨-, -, -, hmaker, -⟩ := Settlement.settleChecks_ok.mp h.order
  obtain ⟨heth, htoken⟩ := value_of_newSwapChecks h.lock
  by_cases htracked : D.Tracked a.order.sellToken
  -- Nothing is waited for: the ledger decides.
  · obtain ⟨l, hledger⟩ := (settleLedger_isSome hm hmaker htracked heth htoken).mpr h.funds
    exact ⟨_, callThrough_ok.mpr ⟨_, (invoke_settleLeg_tracked htracked).mpr
      ⟨l, hledger, h.order, h.lock, rfl⟩, complete_done.mpr rfl⟩⟩
  · rw [Deployment.Tracked, not_or] at htracked
    have hforeign : D.standard a.order.sellToken = false := by simpa using htracked.2
    have hvalue : value = 0#256 := htoken htracked.1
    have hcode : D.hasCode a.order.sellToken = true := by
      obtain ⟨-, -, -, -, -, ⟨hzero, -⟩ | ⟨-, -, hcode⟩⟩ := newSwapChecks_ok.mp h.lock
      · exact absurd hzero htracked.1
      · exact hcode
    -- No ETH is sent along, so receiving it cannot fail.
    obtain ⟨l, hmove⟩ := Ledger.move_isSome.mpr h.funds.1
    have hlock := h.lock
    rw [hvalue] at hlock
    obtain ⟨s₁, hinvoke, hframes, hhtlc⟩ : ∃ s₁,
        invoke cr D now m (.settleLeg value a) s = .ok (.waiting s₁) ∧
        s₁.frames = .settleReceive a (a.contractId cr D.settlement) :: s.frames ∧
        s₁.htlc = s.htlc :=
      ⟨_, State.receive_ok.mpr ⟨l, hmove, State.settleLeg_ok.mpr ⟨h.order,
        State.receiveAndLock_ok.mpr (.inr (.inr ⟨htracked.1, hforeign, hvalue, hcode,
          h.token.1, h.token.2, rfl⟩))⟩⟩, rfl, rfl⟩
    obtain ⟨s', hs'⟩ := complete_settleReceive hframes htracked.1 hforeign (hhtlc ▸ hlock)
      h.token.1 h.token.2
    exact ⟨s', callThrough_ok.mpr ⟨_, hinvoke, hs'⟩⟩

/-- **When `settleLeg` can succeed**, for some behaviour of its token. -/
theorem settleLeg_mined_iff (hm : D.Account m) :
    (∃ t, Mined cr D now m (.settleLeg value a) s t) ↔ Settleable cr D now m value a s := by
  constructor
  · rintro ⟨t, ht⟩
    exact .of_mined hm ht
  · intro h
    obtain ⟨t, ht⟩ := h.through hm
    exact ⟨t, .of_through ht⟩

end Settleable

/-! ## Spoiling a settlement -/

/-- The call of `x` consumes the nonce that `m`'s `settleLeg` needs, or takes
    its slot: an `authorizeLeg` of an order of `m` with that nonce, another
    maker's `settleLeg` with the same id, or a `newSwap` whose id collides. -/
def Call.Spoils (cr : Crypto) (D : Deployment) (m : Address) (a : SettleLeg) (x : Address)
    (call : Call) : Prop :=
  call.Consumes m a.order.nonce ∨ call.lockId cr D x = some (a.contractId cr D.settlement)

section Spoiling

variable {cr : Crypto} {D : Deployment} {now : Uint256} {m : Address} {value : Uint256}
  {a : SettleLeg} {s s' : State} {notes : List (Address × Call)}

/-- With the maker's funds as they were, only the nonce and the slot count. -/
theorem Settleable.after (h : Settleable cr D now m value a s)
    (hfunds : Untouched m s.ledger s'.ledger) :
    Settleable cr D now m value a s' ↔
      s'.settlement.consumedNonce m a.order.nonce = false ∧
      ¬(s'.htlc.swaps (a.contractId cr D.settlement)).Exists := by
  obtain ⟨hsigned, htime, hchain, hmaker, -⟩ := Settlement.settleChecks_ok.mp h.order
  obtain ⟨hamount, hhashlock, htimelock, hid, -, hpay⟩ := newSwapChecks_ok.mp h.lock
  constructor
  -- What the call can have spoiled is the nonce and the slot; all else is as before.
  · intro h'
    obtain ⟨-, -, -, -, hnonce⟩ := Settlement.settleChecks_ok.mp h'.order
    obtain ⟨-, -, -, -, habsent, -⟩ := newSwapChecks_ok.mp h'.lock
    exact ⟨hmaker ▸ hnonce, habsent⟩
  · rintro ⟨hnonce, habsent⟩
    refine ⟨Settlement.settleChecks_ok.mpr ⟨hsigned, htime, hchain, hmaker, hmaker ▸ hnonce⟩,
      newSwapChecks_ok.mpr ⟨hamount, hhashlock, htimelock, hid, habsent, hpay⟩, h.token, ?_⟩
    -- The funds are those that the maker had before.
    unfold Affordable
    rw [hfunds.bal, hfunds.bal, hfunds.allowance]
    exact h.funds

/-- **Who can spoil a settlement.** Let `m`'s `settleLeg` be able to succeed in
    `s`. Then let others call what they like, one call with all that the foreign
    code it runs calls, to any depth, or many such calls, at any time; and let it
    leave `m`'s balances and allowances as they were. Afterwards the same
    `settleLeg` can succeed exactly if none of the calls that have taken effect
    consumes its nonce or takes its slot. -/
theorem settleLeg_survives_iff (hm : D.Account m)
    (hok : ∃ t, Mined cr D now m (.settleLeg value a) s t)
    (hrun : Run (calls cr D anyone).noted ⟨⟨s, []⟩, []⟩ ⟨⟨s', notes⟩, []⟩)
    (hfunds : Untouched m s.ledger s'.ledger) :
    (∃ t, Mined cr D now m (.settleLeg value a) s' t) ↔
      ∀ p ∈ notes, ¬p.2.Spoils cr D m a p.1 := by
  have hable := (settleLeg_mined_iff hm).mp hok
  obtain ⟨-, -, -, hmaker, hnonce⟩ := Settlement.settleChecks_ok.mp hable.order
  obtain ⟨-, -, -, -, habsent, -⟩ := newSwapChecks_ok.mp hable.lock
  rw [← hmaker] at hnonce
  rw [settleLeg_mined_iff hm, hable.after hfunds, run_slots hrun, ← Bool.not_eq_true,
    run_nonces hrun]
  -- The nonce was free and the slot vacant before.
  have habsent' : ¬(s.htlc.swaps (a.contractId cr D.settlement)).Exists := habsent
  simp only [hnonce, Bool.false_eq_true, false_or, habsent', not_exists, not_and, Call.Spoils,
    not_or]
  exact ⟨fun ⟨hconsumes, hslots⟩ p hp => ⟨hconsumes p hp, hslots p hp⟩,
    fun h => ⟨fun p hp => (h p hp).1, fun p hp => (h p hp).2⟩⟩

end Spoiling

section Samples

variable {cr : Crypto} {D : Deployment} {now : Uint256} {x m : Address} {value : Uint256}
  {a : SettleLeg} {s s' : State}

/-- `authorizeLeg` runs no foreign code and moves no funds. -/
theorem authorizeLeg_through {order : OrderLib.Order} {signature : List Byte} {nowTs : Uint256}
    (h : callThrough cr D now x (.authorizeLeg order signature nowTs) s = .ok s') :
    s' = s.withSettlement ((s.settlement.consume order.maker order.nonce).emit
      (.legAuthorized (OrderLib.hash cr order) order.maker order.nonce)) := by
  obtain ⟨o, hinvoke, hcomplete⟩ := callThrough_ok.mp h
  obtain ⟨st, hst, rfl⟩ := invoke_authorizeLeg_ok.mp hinvoke
  obtain ⟨-, -, -, rfl⟩ := Settlement.authorizeLeg_ok.mp hst
  exact complete_done.mp hcomplete

/-- A settled leg of ETH or of a standard token takes from its maker only. -/
theorem settleLeg_through_untouched (hm : D.Account m) (hne : m ≠ x)
    (htracked : D.Tracked a.order.sellToken)
    (h : callThrough cr D now x (.settleLeg value a) s = .ok s') :
    Untouched m s.ledger s'.ledger := by
  obtain ⟨o, hinvoke, hcomplete⟩ := callThrough_ok.mp h
  obtain ⟨l, hledger, hchecks, -, rfl⟩ := (invoke_settleLeg_tracked htracked).mp hinvoke
  obtain ⟨-, -, -, hmaker, -⟩ := Settlement.settleChecks_ok.mp hchecks
  rw [complete_done.mp hcomplete]
  -- `m` appears in none of the four movements: the payer is `x`, the others are contracts.
  have huntouched : Untouched m s.ledger l := by
    obtain ⟨l₁, hmove, hrest⟩ := Option.bind_eq_some_iff.mp hledger
    have hfirst : Untouched m s.ledger l₁ := .move (.inr ⟨hne, hm.2.2⟩) hmove
    split_ifs at hrest with hzero
    · exact hfirst.trans (.move (.inr ⟨hm.2.2, hm.2.1⟩) hrest)
    · obtain ⟨l₂, hpull, hlock⟩ := Option.bind_eq_some_iff.mp hrest
      rw [← hmaker] at hpull
      exact hfirst.trans ((Untouched.transferFrom hne hm.2.2 hpull).trans
        ((Untouched.approve hm.2.2).trans (.transferFrom hm.2.2 hm.2.1 hlock)))
  exact huntouched

/-- A call that runs foreign code, which makes one call before it returns. -/
theorem calls_nested {y : Address} {call call' : Call} {s₁ s₂ : State} (hx : D.Account x)
    (hy : D.Account y) (hcall : invoke cr D now x call s = .ok (.waiting s₁))
    (hcall' : invoke cr D now y call' s₁ = .ok (.done s₂))
    (hreturns : resume cr D now s₂ = .ok (.done s')) :
    Run (calls cr D anyone).noted ⟨⟨s, []⟩, []⟩ ⟨⟨s', [(x, call), (y, call')]⟩, []⟩ := by
  have henter : Step (calls cr D anyone).noted ⟨⟨s, []⟩, []⟩ ⟨⟨s₁, [(x, call)]⟩, [⟨s, []⟩]⟩ :=
    .enter ⟨some (x, call), .inl ⟨now, x, call, rfl, hx, trivial, hcall⟩, rfl⟩
  have hact : Step (calls cr D anyone).noted ⟨⟨s₁, [(x, call)]⟩, [⟨s, []⟩]⟩
      ⟨⟨s₂, [(x, call), (y, call')]⟩, [⟨s, []⟩]⟩ :=
    .act ⟨some (y, call'), .inl ⟨now, y, call', rfl, hy, trivial, hcall'⟩, rfl⟩
  have hleave : Step (calls cr D anyone).noted ⟨⟨s₂, [(x, call), (y, call')]⟩, [⟨s, []⟩]⟩
      ⟨⟨s', [(x, call), (y, call')]⟩, []⟩ := .leave ⟨none, ⟨rfl, now, hreturns⟩, rfl⟩
  exact .head henter (.head hact (.single hleave))

/-- A redeem during which an order is authorized takes nothing from an account
    that is not paid by it. -/
theorem redeem_authorizing_untouched {y : Address} {contractId preimage : Bytes32}
    {order : OrderLib.Order} {signature : List Byte} {nowTs : Uint256} {s₁ s₂ : State}
    (hm : D.Account m) (hrecipient : m ≠ (s.htlc.swaps contractId).recipient)
    (hredeem : invoke cr D now x (.redeem contractId preimage) s = .ok (.waiting s₁))
    (hauthorize : invoke cr D now y (.authorizeLeg order signature nowTs) s₁ = .ok (.done s₂))
    (hreturns : resume cr D now s₂ = .ok (.done s')) : Untouched m s.ledger s'.ledger := by
  obtain ⟨st, -, hst⟩ := invoke_authorizeLeg_ok.mp hauthorize
  cases hst
  rcases State.pay_ok.mp (State.redeem_ok.mp hredeem).2 with
    ⟨-, -, -, l, hmove, hwaits⟩ | ⟨-, l, -, hdone⟩ | ⟨-, -, -, -, hwaits⟩
  · cases hwaits
    cases hreturns
    exact .move (.inr ⟨hm.2.1, hrecipient⟩) hmove
  · cases hdone
  · cases hwaits
    cases hreturns
    exact ⟨fun _ => rfl, fun _ _ => rfl⟩

end Samples

/-! ### An order that is authorized in between

`rival` redeems a lock of 7 wei for `bob`, and `bob`, when he is paid, authorizes
an order. -/

namespace Sample

def redeemCall : Call := .redeem farId HashedTimelock.Sample.preimage

def authorizeBy (x : Signed) : Call := .authorizeLeg x.order x.signature 10

/-- The state before the redeem and the state after it pass a test. -/
def redeemsAuthorizing (x : Signed) (test : State → State → Bool) : Bool :=
  doneAnd (fun s => decide ((s.htlc.swaps farId).recipient = bob) &&
    waitingAnd (fun s₁ => doneAnd (fun s₂ => doneAnd (test s) (resume crypto deployment 10 s₂))
      (invoke crypto deployment 10 bob (authorizeBy x) s₁))
      (invoke crypto deployment 10 rival redeemCall s))
    (invoke crypto deployment 10 rival (.newSwap 7 farLock) (State.fresh ledger))

theorem redeemsAuthorizing_runs {x : Signed} {test : State → State → Bool}
    (h : redeemsAuthorizing x test = true) :
    ∃ s s', Reachable crypto deployment anyone ⟨s, []⟩ ∧
      Mined crypto deployment 10 rival redeemCall s s' ∧
      Run (calls crypto deployment anyone).noted ⟨⟨s, []⟩, []⟩
        ⟨⟨s', [(rival, redeemCall), (bob, authorizeBy x)]⟩, []⟩ ∧
      Untouched maker s.ledger s'.ledger ∧ test s s' = true := by
  obtain ⟨s, hlock, hrest⟩ := doneAnd_iff.mp h
  obtain ⟨hrecipient, hrest⟩ := Bool.and_eq_true_iff.mp hrest
  obtain ⟨s₁, hredeem, hrest⟩ := waitingAnd_iff.mp hrest
  obtain ⟨s₂, hauthorize, hrest⟩ := doneAnd_iff.mp hrest
  obtain ⟨s', hreturns, htest⟩ := doneAnd_iff.mp hrest
  have hreach : Reachable crypto deployment anyone ⟨s, []⟩ :=
    ⟨ledger, genesis, .single (.act ⟨10, .invoke rival _ (by decide) trivial hlock⟩)⟩
  have hnested : Run (system crypto deployment anyone 10) ⟨s₁, []⟩ ⟨s₂, []⟩ :=
    .single (.act (.invoke bob _ (by decide) trivial hauthorize))
  refine ⟨s, s', hreach, .inr ⟨s₁, s₂, hredeem, hnested, hreturns⟩, ?_, ?_, htest⟩
  · exact calls_nested (by decide) (by decide) hredeem hauthorize hreturns
  · refine redeem_authorizing_untouched (by decide) ?_ hredeem hauthorize hreturns
    rw [of_decide_eq_true hrecipient]
    decide

def settleCall : Call := .settleLeg 0 coinOrder.leg

/-- The order that is authorized is another maker's, or the maker's own. -/
theorem authorized_in_between :
    redeemsAuthorizing twinOrder (fun s _ =>
      okAnd (fun _ => true) (callThrough crypto deployment 10 maker settleCall s)) = true ∧
    redeemsAuthorizing coinOrder (fun s s' =>
      okAnd (fun _ => true) (callThrough crypto deployment 10 maker settleCall s) &&
      failsWith (.settlement .nonceAlreadyUsed)
        (callThrough crypto deployment 10 maker settleCall s')) = true := by
  decide +kernel

/-- The order is settled, unless it is authorized or its twin settled first. -/
theorem settle_spoiled :
    okAnd (fun _ => true)
        (callThrough crypto deployment 10 maker settleCall (State.fresh ledger)) = true ∧
      okAnd (fun s' => failsWith (.settlement .nonceAlreadyUsed)
          (callThrough crypto deployment 10 maker settleCall s'))
        (callThrough crypto deployment 10 bob (authorizeBy coinOrder) (State.fresh ledger)) = true ∧
      okAnd (fun s' => failsWith (.htlc .swapAlreadyExists)
          (callThrough crypto deployment 10 maker settleCall s'))
        (callThrough crypto deployment 10 rival (.settleLeg 0 twinOrder.leg)
          (State.fresh ledger)) = true := by
  decide +kernel

end Sample

/-- The order of another maker, authorized while a redeem pays out, does not stop
    a settlement. -/
theorem settleLeg_survives_authorizeLeg :
    ∃ s s', Mined Sample.crypto Sample.deployment 10 Sample.rival Sample.redeemCall s s' ∧
      (∃ t, Mined Sample.crypto Sample.deployment 10 Sample.maker Sample.settleCall s t) ∧
      ∃ t, Mined Sample.crypto Sample.deployment 10 Sample.maker Sample.settleCall s' t := by
  obtain ⟨s, s', -, hredeem, hrun, hfunds, hok⟩ :=
    Sample.redeemsAuthorizing_runs Sample.authorized_in_between.1
  obtain ⟨t, ht, -⟩ := okAnd_iff.mp hok
  have hbefore : ∃ t, Mined Sample.crypto Sample.deployment 10 Sample.maker Sample.settleCall
      s t := ⟨t, .of_through ht⟩
  refine ⟨s, s', hredeem, hbefore,
    (settleLeg_survives_iff (by decide) hbefore hrun hfunds).mpr ?_⟩
  intro p hp
  rcases List.mem_pair.mp hp with rfl | rfl
  · rintro (hconsumes | hslot)
    · exact hconsumes
    · cases hslot
  · rintro (hconsumes | hslot)
    · exact absurd hconsumes.1 (by decide)
    · cases hslot

/-- Three calls of others that stop a settlement without touching the maker's
    funds: `bob` authorizes the maker's published order, by a call of his own or
    while `rival`'s redeem pays him, and `rival` settles a leg of the same token,
    amount, recipient, hashlock and timelock. -/
theorem others_spoil_settleLeg :
    Reachable Sample.crypto Sample.deployment anyone ⟨State.fresh Sample.ledger, []⟩ ∧
    (∃ t, callThrough Sample.crypto Sample.deployment 10 Sample.maker
      (.settleLeg 0 Sample.coinOrder.leg) (State.fresh Sample.ledger) = .ok t) ∧
    (∃ s', callThrough Sample.crypto Sample.deployment 10 Sample.bob
        (.authorizeLeg Sample.coinOrder.order Sample.coinOrder.signature 10)
        (State.fresh Sample.ledger) = .ok s' ∧
      Untouched Sample.maker Sample.ledger s'.ledger ∧
      callThrough Sample.crypto Sample.deployment 10 Sample.maker
        (.settleLeg 0 Sample.coinOrder.leg) s' = .error (.settlement .nonceAlreadyUsed)) ∧
    (∃ s', callThrough Sample.crypto Sample.deployment 10 Sample.rival
        (.settleLeg 0 Sample.twinOrder.leg) (State.fresh Sample.ledger) = .ok s' ∧
      Untouched Sample.maker Sample.ledger s'.ledger ∧
      callThrough Sample.crypto Sample.deployment 10 Sample.maker
        (.settleLeg 0 Sample.coinOrder.leg) s' = .error (.htlc .swapAlreadyExists)) ∧
    ∃ s, Reachable Sample.crypto Sample.deployment anyone ⟨s, []⟩ ∧
      (∃ t, callThrough Sample.crypto Sample.deployment 10 Sample.maker
        (.settleLeg 0 Sample.coinOrder.leg) s = .ok t) ∧
      ∃ s', Mined Sample.crypto Sample.deployment 10 Sample.rival Sample.redeemCall s s' ∧
        Untouched Sample.maker s.ledger s'.ledger ∧
        callThrough Sample.crypto Sample.deployment 10 Sample.maker
          (.settleLeg 0 Sample.coinOrder.leg) s' = .error (.settlement .nonceAlreadyUsed) := by
  obtain ⟨hok, hauthorized, hsettled⟩ := Sample.settle_spoiled
  obtain ⟨t, ht, -⟩ := okAnd_iff.mp hok
  -- The order is authorized by somebody, or its slot is taken by a twin.
  refine ⟨⟨Sample.ledger, Sample.genesis, .refl⟩, ⟨t, ht⟩, ?_, ?_, ?_⟩
  · obtain ⟨s', hs', hfails⟩ := okAnd_iff.mp hauthorized
    refine ⟨s', hs', ?_, failsWith_iff.mp hfails⟩
    rw [authorizeLeg_through hs']
    exact ⟨fun _ => rfl, fun _ _ => rfl⟩
  · obtain ⟨s', hs', hfails⟩ := okAnd_iff.mp hsettled
    exact ⟨s', hs', settleLeg_through_untouched (by decide) (by decide) (by decide) hs',
      failsWith_iff.mp hfails⟩
  · obtain ⟨s, s', hreach, hredeem, -, hfunds, htest⟩ :=
      Sample.redeemsAuthorizing_runs Sample.authorized_in_between.2
    obtain ⟨hok, hfails⟩ := Bool.and_eq_true_iff.mp htest
    obtain ⟨t, ht, -⟩ := okAnd_iff.mp hok
    exact ⟨s, hreach, ⟨t, ht⟩, s', hredeem, hfunds, failsWith_iff.mp hfails⟩

end Kael.Exchange
