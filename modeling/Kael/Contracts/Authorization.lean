import Kael.Contracts.SingleCalls
import Kael.Lib.Histories

/-!
# Two Ways to Use an Order

`settleLeg` and `authorizeLeg` consume the same nonces, and verify an order with
the same library. But `settleLeg` verifies at the time of the block, and takes
orders for its own chain only; `authorizeLeg` verifies at a time that its caller
names, and takes orders for any chain. What it has authorized is noted here
together with the block, so that runs can be compared with what `settleLeg`
would have said.
-/

namespace Kael.Exchange

open NestedCalls
open OrderLib (Order SignedByMaker)

/-- The signature, expiry, chain and nonce checks of `settleLeg`, called by the
    maker in a block with timestamp `now`, pass. -/
def PassesSettle (cr : Crypto) (D : Deployment) (now : Uint256) (st : Settlement.Storage)
    (order : Order) (signature : List Byte) : Prop :=
  ∀ recipient hashlock timelock, Settlement.settleChecks cr D.chainId now st order.maker
    ⟨order, signature, recipient, hashlock, timelock⟩ = .ok ()

/-- The order has not expired in the block, and is for its chain. -/
def FitsBlock (D : Deployment) (now : Uint256) (order : Order) : Prop :=
  now ≤ order.validUntil ∧ order.sellChainId = D.chainId

section Calls

variable {cr : Crypto} {D : Deployment} {now : Uint256} {st : Settlement.Storage} {order : Order}
  {signature : List Byte}

theorem passesSettle_iff : PassesSettle cr D now st order signature ↔
    SignedByMaker cr order signature ∧ FitsBlock D now order ∧
      st.consumedNonce order.maker order.nonce = false := by
  constructor
  · intro hpasses
    obtain ⟨hsigned, htime, hchain, -, hnonce⟩ :=
      Settlement.settleChecks_ok.mp (hpasses zeroAddress 0 0)
    exact ⟨hsigned, ⟨htime, hchain⟩, hnonce⟩
  · rintro ⟨hsigned, ⟨htime, hchain⟩, hnonce⟩ recipient hashlock timelock
    exact Settlement.settleChecks_ok.mpr ⟨hsigned, htime, hchain, rfl, hnonce⟩

/-- An order that is authorized would be settled if it fits the block. -/
theorem authorizeLeg_passesSettle {nowTs : Uint256} {st' : Settlement.Storage}
    (h : Settlement.authorizeLeg cr st order signature nowTs = .ok st') :
    PassesSettle cr D now st order signature ↔ FitsBlock D now order := by
  obtain ⟨hsigned, -, hnonce, -⟩ := Settlement.authorizeLeg_ok.mp h
  rw [passesSettle_iff]
  exact ⟨fun hpasses => hpasses.2.1, fun hfits => ⟨hsigned, hfits, hnonce⟩⟩

end Calls

/-! ## Authorizations of a run -/

/-- A call of `authorizeLeg` that has taken effect. -/
structure Authorization where
  /-- The timestamp of the block. -/
  now : Uint256
  order : Order
  signature : List Byte
  /-- The time that the caller named. -/
  nowTs : Uint256
  /-- The Settlement's storage before the call. -/
  before : Settlement.Storage

/-- What is noted of a call. -/
def authorization (now : Uint256) (s : State) : Call → Option Authorization
  | .authorizeLeg order signature nowTs => some ⟨now, order, signature, nowTs, s.settlement⟩
  | _ => none

/-- The moves of a chain, with what they authorize. -/
def authorizations (cr : Crypto) (D : Deployment) : Labelled Authorization State where
  enter l s s' :=
    (∃ now sender call, l = authorization now s call ∧ D.Account sender ∧
      invoke cr D now sender call s = .ok (.waiting s')) ∨
    l = none ∧ s' = { s with frames := .other :: s.frames }
  act l s s' :=
    (∃ now sender call, l = authorization now s call ∧ D.Account sender ∧
      invoke cr D now sender call s = .ok (.done s')) ∨
    l = none ∧ ∃ now, resume cr D now s = .ok (.waiting s')
  leave l s s' := l = none ∧ ∃ now, resume cr D now s = .ok (.done s')

/-- A chain with what was authorized on it. -/
abbrev Authorized := Noted Authorization State

def Authorized.fresh (l : Ledger Address Address) : Authorized := ⟨State.fresh l, []⟩

/-- What was noted was accepted. -/
def Authorization.Accepted (cr : Crypto) (n : Authorization) : Prop :=
  ∃ st', Settlement.authorizeLeg cr n.before n.order n.signature n.nowTs = .ok st'

def Authorization.PassesSettle (cr : Crypto) (D : Deployment) (n : Authorization) : Prop :=
  Exchange.PassesSettle cr D n.now n.before n.order n.signature

def Authorization.FitsBlock (D : Deployment) (n : Authorization) : Prop :=
  Exchange.FitsBlock D n.now n.order

section Runs

variable {cr : Crypto} {D : Deployment} {s s' : State} {l : Option Authorization}

/-- The notes change nothing about the runs. -/
theorem authorizations_plain (cr : Crypto) (D : Deployment) :
    (authorizations cr D).plain = anyTime cr D anyone := by
  apply plain_eq_anyTime fun now s _ call => authorization now s call
  · intro l s s'
    simp [authorizations, anyone]
  · intro l s s'
    simp [authorizations, anyone]
  · intro l s s'
    exact Iff.rfl

/-- Step lemma: what a move notes was accepted. -/
theorem accepted_of_moves (h : (authorizations cr D).Moves l s s') :
    ∀ n ∈ l, n.Accepted cr := by
  -- Only a successful `authorizeLeg` is noted.
  have hcall : ∀ {now sender call o}, invoke cr D now sender call s = .ok o →
      ∀ n ∈ authorization now s call, n.Accepted cr := by
    intro now sender call o hinvoke n hn
    cases call with
    | authorizeLeg order signature nowTs =>
      cases hn
      obtain ⟨st', hst', -⟩ := invoke_authorizeLeg_ok.mp hinvoke
      exact ⟨st', hst'⟩
    | newSwap | redeem | refund | settleLeg | refundLeg | transfer | approve | transferFrom =>
      cases hn
  cases h with
  | enter h =>
    rcases h with ⟨now, sender, call, rfl, -, hinvoke⟩ | ⟨rfl, -⟩
    · exact hcall hinvoke
    · exact fun n hn => by cases hn
  | act h =>
    rcases h with ⟨now, sender, call, rfl, -, hinvoke⟩ | ⟨rfl, -⟩
    · exact hcall hinvoke
    · exact fun n hn => by cases hn
  | leave h =>
    obtain ⟨rfl, -⟩ := h
    exact fun n hn => by cases hn

/-- Run lemma: everything that was noted was accepted. -/
theorem accepted_of_run {l : Ledger Address Address} {c : Config Authorized}
    (h : Run (authorizations cr D).noted ⟨Authorized.fresh l, []⟩ c) :
    ∀ n ∈ c.cur.notes, n.Accepted cr := by
  have hinvariant : Invariant (authorizations cr D).noted
      (fun t : Authorized => ∀ n ∈ t.notes, n.Accepted cr) := by
    apply Labelled.noted_invariant
    intro t s' l ht hmove n hn
    rcases List.mem_append.mp hn with hold | hnew
    · exact ht n hold
    · exact accepted_of_moves hmove n (Option.mem_toList.mp hnew)
  exact (hinvariant.run h (.of_cur fun n hn => absurd hn List.not_mem_nil)).1

/-- **When an authorized order would also be settled.** A call of `authorizeLeg`
    that succeeds consumes the nonce, and the checks of `settleLeg` pass in the
    same block if the order fits the block, or the call does not succeed at all.
    So all that a run has authorized passes these checks if all of it fits its
    block, and only then. -/
theorem authorizes_settleable_iff (cr : Crypto) (D : Deployment) :
    (∀ now sender s order signature nowTs,
      (∀ o, invoke cr D now sender (.authorizeLeg order signature nowTs) s = .ok o →
        o.state.settlement.consumedNonce order.maker order.nonce = true ∧
          PassesSettle cr D now s.settlement order signature) ↔
      (SignedByMaker cr order signature → nowTs ≤ order.validUntil →
        s.settlement.consumedNonce order.maker order.nonce = false → FitsBlock D now order)) ∧
    ∀ l c, Run (authorizations cr D).noted ⟨Authorized.fresh l, []⟩ c →
      ((∀ n ∈ c.cur.notes, n.PassesSettle cr D) ↔ ∀ n ∈ c.cur.notes, n.FitsBlock D) := by
  constructor
  · intro now sender s order signature nowTs
    constructor
    -- A state in which the nonce is free: the call succeeds, and settling was possible.
    · intro hsettles hsigned htime hnonce
      have haccepts : Settlement.authorizeLeg cr s.settlement order signature nowTs = .ok _ :=
        Settlement.authorizeLeg_ok.mpr ⟨hsigned, htime, hnonce, rfl⟩
      obtain ⟨-, hpasses⟩ := hsettles _ (invoke_authorizeLeg_ok.mpr ⟨_, haccepts, rfl⟩)
      exact (authorizeLeg_passesSettle haccepts).mp hpasses
    -- `authorizeLeg` itself consumes the nonce that `settleLeg` needs.
    · intro hfits o hinvoke
      obtain ⟨st', haccepts, rfl⟩ := invoke_authorizeLeg_ok.mp hinvoke
      obtain ⟨hsigned, htime, hnonce, rfl⟩ := Settlement.authorizeLeg_ok.mp haccepts
      refine ⟨?_, (authorizeLeg_passesSettle haccepts).mpr (hfits hsigned htime hnonce)⟩
      show (s.settlement.consume order.maker order.nonce).consumedNonce order.maker order.nonce =
        true
      rw [Settlement.Storage.consume_consumedNonce, if_pos ⟨rfl, rfl⟩]
  -- Over runs: every note is a call that was accepted.
  · intro l c hrun
    have haccepted := accepted_of_run hrun
    apply forall₂_congr
    intro n hn
    obtain ⟨st', haccepts⟩ := haccepted n hn
    exact authorizeLeg_passesSettle haccepts

end Runs

/-! ### One order, authorized in three blocks

`rival` authorizes the order of `maker`, which is valid until 5000. -/

namespace Sample

def authorizeCall : Call := .authorizeLeg ethOrder.order ethOrder.signature 20

/-- The order is authorized in a block with timestamp `now` of a chain `D`. -/
def authorizes (D : Deployment) (now : Uint256) : Bool :=
  doneAnd (fun s => s.settlement.consumedNonce maker 1)
    (invoke crypto D now rival authorizeCall (State.fresh ledger))

/-- The same contracts on another chain. -/
def elsewhere : Deployment := { deployment with chainId := 10 }

end Sample

/-- In a block with timestamp 10 the order fits, and would be settled. -/
theorem authorizes_settleable_in_time :
    ∃ c, Run (authorizations Sample.crypto Sample.deployment).noted
        ⟨Authorized.fresh Sample.ledger, []⟩ c ∧
      c.cur.notes = [⟨10, Sample.ethOrder.order, Sample.ethOrder.signature, 20, .empty⟩] ∧
      ∀ n ∈ c.cur.notes, n.PassesSettle Sample.crypto Sample.deployment := by
  obtain ⟨s, hcall, -⟩ := doneAnd_iff.mp
    (show Sample.authorizes Sample.deployment 10 = true by decide +kernel)
  have hrun : Run (authorizations Sample.crypto Sample.deployment).noted
      ⟨Authorized.fresh Sample.ledger, []⟩ ⟨⟨s, [_]⟩, []⟩ :=
    .single (.act ⟨_, .inl ⟨10, Sample.rival, Sample.authorizeCall, rfl, by decide, hcall⟩, rfl⟩)
  refine ⟨_, hrun, rfl, ((authorizes_settleable_iff _ _).2 _ _ hrun).mpr ?_⟩
  intro n hn
  obtain rfl := List.mem_singleton.mp hn
  exact ⟨by decide, rfl⟩

/-- In a block with timestamp 6000, and on another chain, the order is
    authorized all the same, and would not be settled. -/
theorem unsettleable_order_authorized :
    (∃ o, invoke Sample.crypto Sample.deployment 6000 Sample.rival Sample.authorizeCall
        (State.fresh Sample.ledger) = .ok o ∧
      ¬PassesSettle Sample.crypto Sample.deployment 6000 .empty Sample.ethOrder.order
        Sample.ethOrder.signature) ∧
    ∃ o, invoke Sample.crypto Sample.elsewhere 10 Sample.rival Sample.authorizeCall
        (State.fresh Sample.ledger) = .ok o ∧
      ¬PassesSettle Sample.crypto Sample.elsewhere 10 .empty Sample.ethOrder.order
        Sample.ethOrder.signature := by
  constructor
  -- An order that `settleLeg` finds expired.
  · obtain ⟨s, hcall, -⟩ := doneAnd_iff.mp
      (show Sample.authorizes Sample.deployment 6000 = true by decide +kernel)
    refine ⟨_, hcall, fun hpasses => ?_⟩
    obtain ⟨-, ⟨htime, -⟩, -⟩ := passesSettle_iff.mp hpasses
    revert htime
    decide
  -- An order for another chain.
  · obtain ⟨s, hcall, -⟩ := doneAnd_iff.mp
      (show Sample.authorizes Sample.elsewhere 10 = true by decide +kernel)
    refine ⟨_, hcall, fun hpasses => ?_⟩
    obtain ⟨-, ⟨-, hchain⟩, -⟩ := passesSettle_iff.mp hpasses
    revert hchain
    decide

end Kael.Exchange
