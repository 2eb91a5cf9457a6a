import Kael.Contracts.Deadlines
import Kael.Swapkit.Looks

/-!
# One Leg of a Swap on Its Chain

What a chain shows of a leg while its swap goes on (`LegShown`): whether it has
been locked, that nothing else is locked under its hashlock, and that nothing
under the hashlock has been redeemed before the secret is out. Bystanders keep
all this (`LegShown.others`): they may call anything, but they neither lock under
the hashlock nor redeem with a preimage that no redeem has revealed. The calls of
the parties move it on (`LegShown.lock`, `LegShown.redeem`).
-/

namespace Kael.CrossChain

open NestedCalls
open Exchange (Deployment State Call Policy system anyTime anyone Orderly Vested RefundedLate
  lockEvent callThrough callThrough_ok complete_done complete_payout invoke)
open HashedTimelock (Event Explains NewSwap Swap Terms Storage)
open Maestro (Fits EventFits)
open Swapkit (LiveChain lockUnder firstLock)

/-! ## What a chain shows -/

structure AgreedLeg where
  /-- The id of its record. -/
  id : Bytes32
  terms : Terms

/-- What the chain shows of the leg that is to be locked under `h`. -/
structure LegShown (h : Bytes32) (leg : AgreedLeg) (now : Uint256)
    (opened disclosed claimed : Prop) (s : State) : Prop where
  late : RefundedLate now s
  fits : ∀ e ∈ s.htlc.logs, EventFits e
  /-- The leg is all that is locked under `h`. -/
  only : ∀ e ∈ s.htlc.logs, ∀ c, lockUnder h e = some c → c = leg.id ∧ opened
  record : opened → (s.htlc.swaps leg.id).stage = .held leg.terms ∨
    (s.htlc.swaps leg.id).stage = .claimed leg.terms
  secret : ¬disclosed → ∀ c, (s.htlc.swaps c).hashlock = h → (s.htlc.swaps c).withdrawn = false
  claimed : claimed → (s.htlc.swaps leg.id).stage = .claimed leg.terms

/-- What others may call while the preimages of `h` are not `revealed`, and after. -/
def bystanders (cr : Crypto) (h : Bytes32) (revealed : Prop) : Policy := fun _ call =>
  match call with
  | .newSwap _ a => Fits a.timelock a.amount ∧ a.hashlock ≠ h
  | .settleLeg _ a => Fits a.timelock a.order.sellAmount ∧ a.hashlock ≠ h
  | .redeem _ p => cr.hashlockOf p = h → revealed
  | _ => True

/-- A redeem has revealed a preimage of `h`. -/
def Discloses (cr : Crypto) (h : Bytes32) (st : Storage) : Prop :=
  ∃ c p, .logRedeem c p ∈ st.logs ∧ cr.hashlockOf p = h

section Shown

variable {cr : Crypto} {D : Deployment} {h : Bytes32} {leg : AgreedLeg} {now : Uint256}
  {opened disclosed claimed : Prop} {s s' : State}

theorem LegShown.mono {opened' disclosed' claimed' : Prop}
    (hs : LegShown h leg now opened disclosed claimed s) (hopened : opened' ↔ opened)
    (hdisclosed : disclosed → disclosed') (hclaimed : claimed' → claimed) :
    LegShown h leg now opened' disclosed' claimed' s where
  late := hs.late
  fits := hs.fits
  only e he c hc := ⟨(hs.only e he c hc).1, hopened.mpr (hs.only e he c hc).2⟩
  record hopened' := hs.record (hopened.mp hopened')
  secret hnot := hs.secret (mt hdisclosed hnot)
  claimed hclaimed' := hs.claimed (hclaimed hclaimed')

theorem LegShown.later {now' : Uint256} (hs : LegShown h leg now opened disclosed claimed s)
    (hnow : now ≤ now') : LegShown h leg now' opened disclosed claimed s where
  late c hc := BitVec.le_trans (hs.late c hc) hnow
  fits := hs.fits
  only := hs.only
  record := hs.record
  secret := hs.secret
  claimed := hs.claimed

/-- A record has been locked under its hashlock. -/
theorem exists_lockUnder {st : Storage} {c : Bytes32} (hexplains : Explains cr st)
    (hexists : (st.swaps c).Exists) (hhash : (st.swaps c).hashlock = h) :
    ∃ e ∈ st.logs, lockUnder h e = some c := by
  obtain ⟨e, he, hopens⟩ := hexplains.locked c hexists
  refine ⟨e, he, ?_⟩
  cases e with
  | logNewSwap c' sender recipient token amount hashlock timelock =>
    obtain rfl := of_decide_eq_true hopens
    have hterms := (hexplains.sound _ he).2
    exact if_pos ((congrArg Terms.hashlock hterms).symm.trans hhash)
  | logRedeem | logRefund => cases hopens

/-- The lock under `h` that an observer finds. -/
theorem LegShown.firstLock_eq (hs : LegShown h leg now opened disclosed claimed s)
    (hexplains : Explains cr s.htlc) (hhash : leg.terms.hashlock = h) (hopened : opened) :
    firstLock h s.htlc.logs = some leg.id := by
  have hterms : (s.htlc.swaps leg.id).Exists ∧ (s.htlc.swaps leg.id).terms = leg.terms := by
    rcases hs.record hopened with hheld | hclaimed
    · obtain ⟨hactive, hterms⟩ := Swap.stage_held.mp hheld
      exact ⟨hactive.1, hterms⟩
    · obtain ⟨hexists, -, hterms⟩ := Swap.stage_claimed.mp hclaimed
      exact ⟨hexists, hterms⟩
  obtain ⟨e, he, hunder⟩ := exists_lockUnder hexplains hterms.1
    ((congrArg Terms.hashlock hterms.2).trans hhash)
  cases hfirst : firstLock h s.htlc.logs with
  | none => exact absurd (List.findSome?_eq_none_iff.mp hfirst e he) (by simp [hunder])
  | some c =>
    obtain ⟨e', he', hc⟩ := List.exists_of_findSome?_eq_some hfirst
    rw [(hs.only e' he' c hc).1]

theorem LegShown.firstLock_none (hs : LegShown h leg now opened disclosed claimed s)
    (hopened : ¬opened) : firstLock h s.htlc.logs = none := by
  apply List.findSome?_eq_none_iff.mpr
  intro e he
  cases hc : lockUnder h e with
  | none => rfl
  | some c => exact absurd (hs.only e he c hc).2 hopened

/-- As long as nothing is disclosed no preimage is in the log. -/
theorem LegShown.not_discloses (hs : LegShown h leg now opened disclosed claimed s)
    (hexplains : Explains cr s.htlc) (hnot : ¬disclosed) : ¬Discloses cr h s.htlc := by
  rintro ⟨c, p, he, hp⟩
  obtain ⟨-, hwithdrawn, hhash⟩ := hexplains.sound _ he
  rw [hs.secret hnot c (hhash.symm.trans hp)] at hwithdrawn
  cases hwithdrawn

end Shown

/-! ## Bystanders -/

section Others

variable {cr : Crypto} {D : Deployment} {h : Bytes32} {leg : AgreedLeg} {now : Uint256}
  {opened disclosed claimed revealed : Prop} {p p' : LiveChain cr D anyone}

/-- The events that bystanders cause. -/
structure Bystanding (cr : Crypto) (h : Bytes32) (revealed : Prop) (e : Event) : Prop where
  fits : EventFits e
  notUnder : lockUnder h e = none
  unrevealed : ∀ c q, e = .logRedeem c q → cr.hashlockOf q = h → revealed

/-- What bystanders add to the log. -/
theorem bystanders_events {s s' : State} (hclosed : s.frames = [])
    (hrun : Run (system cr D (bystanders cr h revealed) now) ⟨s, []⟩ ⟨s', []⟩) :
    ∀ e ∈ s'.htlc.logs, e ∈ s.htlc.logs ∨ Bystanding cr h revealed e := by
  have hinvariant : Invariant (anyTime cr D (bystanders cr h revealed))
      fun s₁ => ∀ e, s₁.Announced D e → e ∈ s.htlc.logs ∨ Bystanding cr h revealed e := by
    apply Exchange.announced_invariant
    intro now s₁ x call e hpolicy hnew
    right
    cases call with
    | newSwap value a =>
      obtain ⟨id, rfl⟩ := hnew
      exact ⟨hpolicy.1, if_neg hpolicy.2, nofun⟩
    | settleLeg value a =>
      obtain ⟨id, rfl⟩ := hnew
      exact ⟨hpolicy.1, if_neg hpolicy.2, nofun⟩
    | redeem id q =>
      obtain ⟨rfl, -⟩ := hnew
      refine ⟨trivial, rfl, ?_⟩
      rintro c q' ⟨⟩
      exact hpolicy
    | refund id | refundLeg id =>
      cases hnew
      exact ⟨trivial, rfl, nofun⟩
    | authorizeLeg | transfer | approve | transferFrom => exact hnew.elim
  intro e he
  refine (hinvariant.run hrun.to_union (.of_cur ?_)).1 e (.inl he)
  -- Between two transactions nothing is announced but the log.
  rintro e (hlog | ⟨f, hf, -⟩)
  · exact .inl hlog
  · rw [hclosed] at hf
    exact absurd hf List.not_mem_nil

theorem refundedLate_invariant (hstd : D.AllStandard) {π : Policy} :
    Invariant (system cr D π now) fun s => Orderly D s ∧ RefundedLate now s := by
  rintro s s' ⟨horderly, hlate⟩ hmove
  refine ⟨Orderly.invariant cr hstd π horderly hmove.to_union, ?_⟩
  rcases Exchange.moves_records hmove with ⟨sender, call, -, -, heffect⟩ | heffect
  · exact hlate.effect horderly heffect
  · exact hlate.effect horderly heffect

/-- A stage that a record has reached it keeps. -/
theorem stage_of_run {π : Policy} {s s' : State} {c : Bytes32} {g : Escrow.Stage Terms}
    (hg : g ≠ .vacant) (hclosed : s.frames = []) (hs : (s.htlc.swaps c).stage = g)
    (hrun : Run (system cr D π now) ⟨s, []⟩ ⟨s', []⟩) : g ≤ (s'.htlc.swaps c).stage := by
  have hvested : Vested c g s := by
    refine ⟨hs.ge, ?_⟩
    rw [hclosed]
    exact fun _ hf => absurd hf List.not_mem_nil
  exact ((Vested.invariant hg).run hrun.to_union (.of_cur hvested)).1.stage

/-- **Bystanders** change nothing that matters before the leg's timelock. -/
theorem LegShown.others (hstd : D.AllStandard)
    (hs : LegShown h leg now opened disclosed claimed p.state)
    (hrun : Run (system cr D (bystanders cr h revealed) now) ⟨p.state, []⟩ ⟨p'.state, []⟩)
    (hrevealed : revealed → disclosed) (htime : now < leg.terms.timelock) :
    LegShown h leg now opened disclosed claimed p'.state := by
  have hevents := bystanders_events p.closed hrun
  have hexplains := p.explains hstd
  have hlate : RefundedLate now p'.state :=
    ((refundedLate_invariant hstd).run hrun
      (.of_cur ⟨(Orderly.reachable hstd p.reachable).1, hs.late⟩)).1.2
  have hkept : ∀ {g : Escrow.Stage Terms}, g ≠ .vacant →
      (p.state.htlc.swaps leg.id).stage = g → g ≤ (p'.state.htlc.swaps leg.id).stage :=
    fun hg hstage => stage_of_run hg p.closed hstage hrun
  have hclaimed : (p.state.htlc.swaps leg.id).stage = .claimed leg.terms →
      (p'.state.htlc.swaps leg.id).stage = .claimed leg.terms :=
    fun hstage => Escrow.Stage.claimed_le.mp (hkept (by simp) hstage)
  refine ⟨hlate, ?_, ?_, ?_, ?_, fun hc => hclaimed (hs.claimed hc)⟩
  · intro e he
    rcases hevents e he with hold | hnew
    · exact hs.fits e hold
    · exact hnew.fits
  · intro e he c hc
    rcases hevents e he with hold | hnew
    · exact hs.only e hold c hc
    · rw [hnew.notUnder] at hc
      cases hc
  · intro hopened
    rcases hs.record hopened with hheld | hstage
    · rcases Escrow.Stage.held_le.mp (hkept (by simp) hheld) with hheld' | hclaimed' | hreclaimed
      · exact .inl hheld'
      · exact .inr hclaimed'
      -- A refund would have waited for the timelock.
      · obtain ⟨-, -, hrefunded, hterms⟩ := Swap.stage_reclaimed.mp hreclaimed
        have htimelock : (p'.state.htlc.swaps leg.id).timelock = leg.terms.timelock :=
          congrArg Terms.timelock hterms
        have hpast := hlate _ hrefunded
        rw [htimelock] at hpast
        exact absurd htime (BitVec.not_lt.mpr hpast)
    · exact .inr (hclaimed hstage)
  · intro hnot c hhash
    rw [← Bool.not_eq_true]
    intro hwithdrawn
    obtain ⟨q, hq⟩ := (p'.explains hstd).withdrawn c hwithdrawn
    have hpreimage : cr.hashlockOf q = h := ((p'.explains hstd).sound _ hq).2.2.trans hhash
    -- The redeem is an old one, or it was revealed before.
    rcases hevents _ hq with hold | hnew
    · exact hs.not_discloses hexplains hnot ⟨c, q, hold, hpreimage⟩
    · exact hnot (hrevealed (hnew.unrevealed c q rfl hpreimage))

end Others

/-! ## The calls of the parties -/

section Calls

variable {cr : Crypto} {D : Deployment} {h c q : Bytes32} {leg : AgreedLeg} {now : Uint256}
  {opened disclosed claimed : Prop} {s s' : State} {x y : Address} {call : Call} {a : NewSwap}

/-- A lock that succeeds writes its record, and nothing else. -/
theorem callThrough_lock (hstd : D.AllStandard) (hcall : call.lockOf D x = some (y, a))
    (hok : callThrough cr D now x call s = .ok s') :
    s'.htlc = s.htlc.writeSwap y a (HashedTimelock.computeContractId cr y a) := by
  obtain ⟨o, hinvoke, hcomplete⟩ := callThrough_ok.mp hok
  cases call with
  | newSwap value a =>
    cases hcall
    obtain ⟨l, id, -, hchecks, rfl⟩ :=
      (Exchange.invoke_newSwap_tracked (Exchange.tracked_of_invoke_newSwap hstd hinvoke)).mp hinvoke
    obtain ⟨-, -, -, rfl, -⟩ := HashedTimelock.newSwapChecks_ok.mp hchecks
    rw [complete_done.mp hcomplete]
  | settleLeg value a =>
    cases hcall
    obtain ⟨l, -, -, -, rfl⟩ :=
      (Exchange.invoke_settleLeg_tracked
        (Exchange.tracked_of_invoke_settleLeg hstd hinvoke)).mp hinvoke
    rw [complete_done.mp hcomplete]
    rfl
  | redeem | refund | authorizeLeg | refundLeg | transfer | approve | transferFrom => cases hcall

theorem callThrough_approve {token spender : Address} {n : Nat}
    (hok : callThrough cr D now x (.approve token spender n) s = .ok s') : s'.htlc = s.htlc := by
  obtain ⟨o, hinvoke, hcomplete⟩ := callThrough_ok.mp hok
  obtain ⟨-, rfl⟩ := Exchange.invoke_approve_ok.mp hinvoke
  rw [complete_done.mp hcomplete]

/-- A redeem that succeeds marks its record and says so. -/
theorem callThrough_redeem (hs : Orderly D s)
    (hok : callThrough cr D now x (.redeem c q) s = .ok s') :
    s'.htlc = (s.htlc.setWithdrawn c).emit (.logRedeem c q) := by
  obtain ⟨o, hinvoke, hcomplete⟩ := callThrough_ok.mp hok
  obtain ⟨hchecks, hpay⟩ := Exchange.State.redeem_ok.mp hinvoke
  obtain ⟨hactive, -, -⟩ := HashedTimelock.redeemChecks_ok.mp hchecks
  rcases Exchange.State.pay_ok.mp hpay with ⟨-, -, -, l, -, rfl⟩ | ⟨-, l, -, hrest⟩ |
    ⟨hne, hstandard, -, -, -⟩
  · rw [complete_payout rfl, Except.ok.injEq] at hcomplete
    rw [← hcomplete]
    rfl
  · cases hrest
    rw [complete_done.mp hcomplete]
    rfl
  · rcases hs.books.tracked c hactive.1 with heth | htracked
    · exact absurd heth hne
    · exact absurd (hstandard.symm.trans htracked) (by simp)

/-- **Locking** opens the leg. -/
theorem LegShown.lock (hs : LegShown h leg now opened disclosed claimed s) (hnot : ¬opened)
    (hnotClaimed : ¬claimed) (hy : y ≠ zeroAddress) (hhash : a.hashlock = h)
    (hfits : Fits a.timelock a.amount) (hterms : (a.record y).terms = leg.terms)
    (hhtlc : s'.htlc = s.htlc.writeSwap y a leg.id) :
    LegShown h leg now True disclosed claimed s' := by
  have hread : ∀ c, s'.htlc.swaps c = if c = leg.id then a.record y else s.htlc.swaps c := by
    intro c
    rw [hhtlc, HashedTimelock.Storage.writeSwap_swaps]
  have hlogs : s'.htlc.logs = s.htlc.logs ++ [lockEvent y a leg.id] := by
    rw [hhtlc]
    rfl
  refine ⟨?_, ?_, ?_, ?_, ?_, fun hc => absurd hc hnotClaimed⟩
  · intro c hc
    rw [hread] at hc ⊢
    split_ifs at hc ⊢
    · cases hc
    · exact hs.late c hc
  · rw [hlogs]
    exact List.forall_mem_append.mpr ⟨hs.fits, List.forall_mem_singleton.mpr hfits⟩
  · intro e he c hc
    rw [hlogs] at he
    rcases List.mem_append.mp he with hold | hnew
    · exact absurd (hs.only e hold c hc).2 hnot
    · rw [List.mem_singleton.mp hnew] at hc
      have hid : lockUnder h (lockEvent y a leg.id) = some leg.id := if_pos hhash
      exact ⟨Option.some.inj (hc.symm.trans hid), trivial⟩
  · intro _
    rw [hread, if_pos rfl]
    exact .inl (Swap.stage_held.mpr ⟨⟨hy, rfl, rfl⟩, hterms⟩)
  · intro hnotDisclosed c hc
    rw [hread] at hc ⊢
    split_ifs at hc ⊢
    · rfl
    · exact hs.secret hnotDisclosed c hc

/-- **Redeeming** claims it. -/
theorem LegShown.redeem (hs : LegShown h leg now opened disclosed claimed s)
    (hheld : (s.htlc.swaps leg.id).stage = .held leg.terms)
    (hhtlc : s'.htlc = (s.htlc.setWithdrawn leg.id).emit (.logRedeem leg.id q)) :
    LegShown h leg now opened True True s' := by
  have hread : ∀ c, s'.htlc.swaps c =
      if c = leg.id then { s.htlc.swaps c with withdrawn := true } else s.htlc.swaps c := by
    intro c
    rw [hhtlc]
    exact HashedTimelock.Storage.setWithdrawn_swaps ..
  have hlogs : s'.htlc.logs = s.htlc.logs ++ [.logRedeem leg.id q] := by
    rw [hhtlc]
    rfl
  obtain ⟨hactive, hterms⟩ := Swap.stage_held.mp hheld
  have hclaimed : (s'.htlc.swaps leg.id).stage = .claimed leg.terms := by
    rw [hread, if_pos rfl]
    exact Swap.stage_claimed.mpr ⟨hactive.1, rfl, hterms⟩
  refine ⟨?_, ?_, ?_, fun _ => .inr hclaimed, fun hnot => absurd trivial hnot, fun _ => hclaimed⟩
  · intro c hc
    rw [hread] at hc ⊢
    split_ifs at hc ⊢
    · exact hs.late c hc
    · exact hs.late c hc
  · rw [hlogs]
    exact List.forall_mem_append.mpr ⟨hs.fits, List.forall_mem_singleton.mpr trivial⟩
  · intro e he c hc
    rw [hlogs] at he
    rcases List.mem_append.mp he with hold | hnew
    · exact hs.only e hold c hc
    · rw [List.mem_singleton.mp hnew] at hc
      cases hc

/-- Until its timelock a leg that is held can be redeemed by a preimage. -/
theorem callThrough_redeem_ok (hs : Orderly D s)
    (hheld : (s.htlc.swaps leg.id).stage = .held leg.terms) (htime : now < leg.terms.timelock)
    (hpreimage : cr.hashlockOf q = leg.terms.hashlock) (hrecipient : D.Account leg.terms.recipient) :
    ∃ s', callThrough cr D now x (.redeem leg.id q) s = .ok s' := by
  obtain ⟨hactive, hterms⟩ := Swap.stage_held.mp hheld
  rw [← hterms] at htime hpreimage hrecipient
  obtain ⟨s', hok, -⟩ := State.Redeemable.of_active hs hactive htime hpreimage hrecipient x
  exact ⟨s', hok⟩

end Calls

end Kael.CrossChain
