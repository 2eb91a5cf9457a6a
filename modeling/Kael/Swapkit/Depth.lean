import Kael.Swapkit.Discovery
import Kael.Swapkit.Progress

/-!
# Confirmation Depth

A lock counts once it is `min_confirmations` blocks deep, and so does an own
transaction (`exec/confirm.rs`). The head and the log's block are read at
different moments, and `confirmations` subtracts them with saturation: a block
above the head is one block deep, like the head itself. For one required
confirmation the gate is then open to a lock that the head has not reached.
-/

namespace Kael.Swapkit

open HashedTimelock (Swap)
open Runs (Every)

/-! ## The depth of an own transaction -/

/-- What an RPC endpoint answers about a transaction. -/
structure ReceiptAnswers where
  /-- The block number of a receipt, if the transaction has a receipt. -/
  receipt : Bytes32 → Except String (Option (Option U64))
  blockNumber : Except String U64

/-- The head is not read for a transaction that is in no block. -/
def confirmationsOf (io : ReceiptAnswers) (txHash : Bytes32) : Except ChainError U64 :=
  match io.receipt txHash with
  | .error e => .error (.rpc e)
  | .ok receipt =>
    match receipt.join with
    | none => .ok 0
    | some block =>
      match io.blockNumber with
      | .error e => .error (.rpc e)
      | .ok head => .ok (confirmations head block)

def isConfirmed (io : ReceiptAnswers) (txHash : Bytes32) (minConfirmations : U64) :
    Except ChainError Bool :=
  match confirmationsOf io txHash with
  | .error e => .error e
  | .ok confs => .ok (minConfirmations ≤ confs)

/-! ## Depth as numbers -/

/-- The confirmations of something in `block`, or in no block. -/
def depth (head : U64) (block : Option U64) : U64 := (block.map (confirmations head)).getD 0

/-- At least `minConfirmations` blocks from `block` to `head`, both included. -/
def Deep (head : U64) (block : Option U64) (minConfirmations : U64) : Prop :=
  minConfirmations = 0 ∨
    ∃ b, block = some b ∧ b.toNat + minConfirmations.toNat ≤ head.toNat + 1

/-- The head has reached the block, unless more than one confirmation is
    required; and the blocks from zero to the head can be counted. -/
def Measured (head : U64) (block : Option U64) (minConfirmations : U64) : Prop :=
  ∀ b, block = some b →
    (minConfirmations = 1 → b ≤ head) ∧
    (b = 0 → head = BitVec.allOnes 64 → minConfirmations = 0)

section Depth

variable {head b minConfirmations : U64} {block : Option U64}

theorem saturatingSub_toNat (a b : U64) : (saturatingSub a b).toNat = a.toNat - b.toNat := by
  unfold saturatingSub
  split_ifs with hlt
  · have hnat := BitVec.lt_def.mp hlt
    exact (Nat.sub_eq_zero_of_le (Nat.le_of_lt hnat)).symm
  · exact BitVec.toNat_sub_of_le (BitVec.not_lt.mp hlt)

theorem confirmations_toNat :
    (confirmations head b).toNat = (head.toNat - b.toNat + 1) % 2 ^ 64 := by
  rw [confirmations, BitVec.toNat_add, saturatingSub_toNat]
  rfl

/-- **The depth rule is right exactly where depth is measured.** -/
theorem depth_iff_deep :
    (minConfirmations ≤ depth head block ↔ Deep head block minConfirmations) ↔
      Measured head block minConfirmations := by
  have hzero : minConfirmations = 0 ↔ minConfirmations.toNat = 0 :=
    ⟨congrArg BitVec.toNat, fun h => BitVec.eq_of_toNat_eq h⟩
  unfold Deep Measured
  cases block with
  | none => simp [depth, BitVec.le_zero_iff]
  | some b =>
    have hone : minConfirmations = 1 ↔ minConfirmations.toNat = 1 :=
      ⟨congrArg BitVec.toNat, fun h => BitVec.eq_of_toNat_eq h⟩
    have hfirst : b = 0 ↔ b.toNat = 0 :=
      ⟨congrArg BitVec.toNat, fun h => BitVec.eq_of_toNat_eq h⟩
    have hlast : head = BitVec.allOnes 64 ↔ head.toNat = 2 ^ 64 - 1 :=
      ⟨congrArg BitVec.toNat, fun h => BitVec.eq_of_toNat_eq h⟩
    have hdepth : (depth head (some b)).toNat = (head.toNat - b.toNat + 1) % 2 ^ 64 :=
      confirmations_toNat
    have hhead := head.isLt
    have hb := b.isLt
    have hmin := minConfirmations.isLt
    simp only [Option.some.injEq, forall_eq', exists_eq_left', BitVec.le_def, hdepth, hzero, hone,
      hfirst, hlast]
    -- Only the depth of block zero under the last head wraps around.
    by_cases hwraps : head.toNat - b.toNat + 1 = 2 ^ 64
    · rw [hwraps, Nat.mod_self]
      omega
    · rw [Nat.mod_eq_of_lt (by omega)]
      omega

end Depth

/-! ## What the gates read -/

/-- The record is an active lock, and is read as `lock`. -/
def ReadAs (s : Swap) (lock : ObservedLock) : Prop :=
  s.Active ∧ ∃ raw, rawSwap s = .ok raw ∧ lock = observedFromSwap raw

section Gates

variable {io : LockAnswers} {contractId : Bytes32} {minConfirmations : U64} {lock : ObservedLock}

theorem exist_iff_active {s : Swap} {raw : RawSwap} (h : rawSwap s = .ok raw) :
    (observedFromSwap raw).exist = true ↔ s.Active := by
  obtain ⟨-, -, hsender, -, -, -, hwithdrawn, hrefunded⟩ := rawSwap_ok.mp h
  simp only [observedFromSwap, decide_eq_true_eq, hsender, hwithdrawn, hrefunded,
    Bool.not_eq_true']
  rfl

/-- **When a lock is confirmed**: it was read as active, and both depth reads
    were answered and are deep enough by `confirmations`. -/
theorem observeLock_eq_confirmed :
    observeLock io contractId minConfirmations = .ok (.confirmed lock) ↔
      ∃ s head block, io.getSwap contractId = .ok s ∧ io.blockNumber = .ok head ∧
        io.creationBlock contractId = .ok block ∧ ReadAs s lock ∧
        minConfirmations ≤ depth head block := by
  unfold observeLock ReadAs
  cases hswap : io.getSwap contractId with
  | error e => simp
  | ok s =>
    cases hraw : rawSwap s with
    | error e => simp [hraw]
    | ok raw =>
      have hactive := exist_iff_active hraw
      -- Only an existing record has its depth compared.
      by_cases hexist : (observedFromSwap raw).exist = true
      · cases io.blockNumber with
        | error e => simp [hraw, hexist]
        | ok head =>
          cases io.creationBlock contractId with
          | error e => simp [hraw, hexist]
          | ok block =>
            simp only [hraw, hexist, Bool.not_true, Bool.false_eq_true, if_false]
            by_cases hdepth : minConfirmations ≤ depth head block
            · rw [if_pos (show _ ≤ (block.map (confirmations head)).getD 0 from hdepth)]
              simp [hraw, hactive.mp hexist, hdepth, eq_comm]
            · rw [if_neg (show ¬_ ≤ (block.map (confirmations head)).getD 0 from hdepth)]
              simp [hdepth]
      · have hnot : ¬s.Active := fun h => hexist (hactive.mpr h)
        simp [hraw, hexist, hnot]

/-- **The observer's gate**, when all three reads are answered. -/
theorem observeLock_deep_iff {s : Swap} {head : U64} {logs : List (Option U64)}
    (hswap : io.getSwap contractId = .ok s) (hhead : io.blockNumber = .ok head)
    (hlogs : io.creationLogs contractId = .ok logs) :
    (∀ lock, observeLock io contractId minConfirmations = .ok (.confirmed lock) ↔
        ReadAs s lock ∧ Deep head logs.head?.join minConfirmations) ↔
      ∀ lock, ReadAs s lock → Measured head logs.head?.join minConfirmations := by
  have hblock : io.creationBlock contractId = .ok logs.head?.join := by
    unfold LockAnswers.creationBlock
    rw [hlogs]
  have hconfirmed : ∀ lock, observeLock io contractId minConfirmations = .ok (.confirmed lock) ↔
      ReadAs s lock ∧ minConfirmations ≤ depth head logs.head?.join := by
    intro lock
    rw [observeLock_eq_confirmed]
    simp only [hswap, hhead, hblock, Except.ok.injEq, exists_eq_left', exists_and_left]
  simp only [hconfirmed, ← depth_iff_deep, and_congr_right_iff]

/-- **The gate of an own transaction** follows the same rule. -/
theorem isConfirmed_deep_iff {io : ReceiptAnswers} {txHash : Bytes32}
    {receipt : Option (Option U64)} {head : U64} (hreceipt : io.receipt txHash = .ok receipt)
    (hhead : io.blockNumber = .ok head) :
    (isConfirmed io txHash minConfirmations = .ok true ↔
        Deep head receipt.join minConfirmations) ↔
      Measured head receipt.join minConfirmations := by
  have hconfirmed : isConfirmed io txHash minConfirmations = .ok true ↔
      minConfirmations ≤ depth head receipt.join := by
    unfold isConfirmed confirmationsOf
    cases hjoin : receipt.join with
    | none => simp [hreceipt, hjoin, depth]
    | some block => simp [hreceipt, hhead, hjoin, depth]
  rw [hconfirmed, depth_iff_deep]

end Gates

/-! ## What the executor acts on -/

namespace Executor

/-- The observed lock of the counterparty is in the answers, and deep enough. -/
def SeesDeepLock (e : Executor) (io : LockAnswers) (contractId : Bytes32) : Prop :=
  e.counterpartyContractId = some contractId ∧
  ∃ s lock head b, e.ctx.counterpartyLock = some lock ∧ io.getSwap contractId = .ok s ∧
    ReadAs s lock ∧ io.blockNumber = .ok head ∧ io.creationBlock contractId = .ok (some b) ∧
    b.toNat + e.minConfirmations.toNat ≤ head.toNat + 1

/-- Only a maker locks and only a taker redeems against an observed lock. -/
def Gated (role : Role) : TxCall → Prop
  | .lock _ => role = .maker
  | .redeem _ => role = .taker
  | .refund _ => False

/-- What the call redeems, if it redeems, is the lock with this id. -/
def RedeemsOnly (contractId : Bytes32) : TxCall → Prop
  | .redeem sending => ∀ call ∈ sending.sent, ∃ secret, call = .redeem contractId secret
  | _ => True

/-- If the step locks as maker or redeems as taker, it has seen a deep lock. -/
def ActsOnDeepLock (cr : Crypto) (e : Executor) (io : StepAnswers) : Prop :=
  ∀ call, (e.step cr io).tx = some call → Gated e.ctx.role call →
    ∃ contractId, (e.step cr io).exec.SeesDeepLock io.second.counterpartyLock contractId ∧
      RedeemsOnly contractId call

end Executor

/-- All depths that the endpoint reports are measured. -/
def LockAnswers.Measures (io : LockAnswers) (minConfirmations : U64) : Prop :=
  ∀ contractId head block, io.blockNumber = .ok head → io.creationBlock contractId = .ok block →
    Measured head block minConfirmations

namespace Executor

section Steps

variable {cr : Crypto} {e e' e₁ e₂ : Executor}

theorem Refreshed.minConfirmations (h : Refreshed cr e e') :
    e'.minConfirmations = e.minConfirmations :=
  show e'.setup.minConfirmations = e.setup.minConfirmations from congrArg _ h.setup

/-- What a refresh has observed was confirmed at the discovered id. -/
theorem confirmed_of_refresh {io : RefreshAnswers} {lock : ObservedLock}
    (h : e.refresh cr io = (e', .ok ())) (hlock : e'.ctx.counterpartyLock = some lock) :
    ∃ contractId, e'.counterpartyContractId = some contractId ∧
      observeLock io.counterpartyLock contractId e.minConfirmations = .ok (.confirmed lock) := by
  unfold refresh at h
  dsimp only at h
  cases hhashlock : e.ctx.hashlock with
  -- No lock is confirmed unless both observers have answered.
  | none => simp [hhashlock] at h
  | some hashlock =>
    simp only [hhashlock] at h
    cases hobserve : e.counterpartyObserver.observe cr hashlock e.minConfirmations
        io.counterpartyPoll io.counterpartyLock with
    | mk o result =>
      cases result with
      | err failure => simp [hobserve] at h
      | panicked => simp [hobserve] at h
      | ok observation =>
        simp only [hobserve] at h
        cases hpoll : e.ownObserver.poll cr io.ownPoll with
        | err failure => simp [hpoll] at h
        | panicked => simp [hpoll] at h
        | ok own =>
          simp only [hpoll, Prod.mk.injEq, and_true] at h
          subst h
          exact CounterpartyObserver.observe_reads hobserve hlock

/-- A refresh that ends with a safe lock has seen it deep enough. -/
theorem seesDeepLock_of_refresh {io : RefreshAnswers} (h : e.refresh cr io = (e', .ok ()))
    (hmin : e.minConfirmations ≠ 0) (hmeasures : io.counterpartyLock.Measures e.minConfirmations)
    (hsafe : e'.ctx.CounterpartySafe) :
    ∃ contractId, e'.SeesDeepLock io.counterpartyLock contractId := by
  obtain ⟨lock, hlock, -⟩ := hsafe
  obtain ⟨contractId, hid, hread⟩ := confirmed_of_refresh h hlock
  obtain ⟨s, head, block, hswap, hhead, hblock, hreadAs, hdepth⟩ :=
    observeLock_eq_confirmed.mp hread
  have hdeep := (depth_iff_deep.mpr (hmeasures contractId head block hhead hblock)).mp hdepth
  obtain ⟨b, rfl, hb⟩ := hdeep.resolve_left hmin
  refine ⟨contractId, hid, s, lock, head, b, hlock, hswap, hreadAs, hhead, hblock, ?_⟩
  rwa [(refreshed_of_refresh h).minConfirmations]

/-- Locking keeps what was seen. -/
theorem SeesDeepLock.lockMyLeg {io : LockAnswers} {contractId : Bytes32} {recipient token : Address}
    {amount : U128} {hashlock : Bytes32} {timelock : U64} {txIo : TxAnswers}
    (h : e.SeesDeepLock io contractId) :
    (e.lockMyLeg cr recipient token amount hashlock timelock txIo).exec.SeesDeepLock io
      contractId := by
  unfold Executor.lockMyLeg
  dsimp only
  split_ifs
  · exact h
  · cases (e.sendLockMyLeg cr recipient token amount hashlock timelock txIo).result with
    | error failure => exact h
    | ok locked => exact h

/-- Redeeming keeps what was seen, and redeems the lock that was seen. -/
theorem SeesDeepLock.redeemCounterpartyLeg {io : LockAnswers} {contractId secret : Bytes32}
    {txIo : TxAnswers} (h : e.SeesDeepLock io contractId) :
    (e.redeemCounterpartyLeg secret txIo).exec.SeesDeepLock io contractId ∧
      ∀ call, (e.redeemCounterpartyLeg secret txIo).tx = some call →
        RedeemsOnly contractId call := by
  unfold Executor.redeemCounterpartyLeg
  simp only [h.1]
  -- Both outcomes have sent the one call of the redeem.
  have honly : RedeemsOnly contractId (.redeem (Swapkit.redeem contractId secret txIo)) :=
    fun call hcall => ⟨secret, List.mem_singleton.mp hcall⟩
  cases (Swapkit.redeem contractId secret txIo).result with
  | error failure =>
    refine ⟨h, ?_⟩
    rintro call ⟨⟩
    exact honly
  | ok txHash =>
    refine ⟨⟨rfl, h.2⟩, ?_⟩
    rintro call ⟨⟩
    exact honly

/-- **One step** that locks as maker or redeems as taker acts on a deep lock, if
    the depths read before it are measured. -/
theorem actsOnDeepLock (hmin : e.minConfirmations ≠ 0) {io : StepAnswers}
    (hmeasures : io.second.counterpartyLock.Measures e.minConfirmations) :
    e.ActsOnDeepLock cr io := by
  have hstep := step_cases cr e io
  unfold ActsOnDeepLock
  generalize e.step cr io = s at hstep
  cases hstep with
  | idle hrefreshed hidle => intro call hcall; cases hcall
  | generate hfirst hplanned => intro call hcall; cases hcall
  | abort hfirst hplanned => intro call hcall; cases hcall
  | refund hfirst hplanned =>
    intro call hcall hgated
    obtain ⟨contractId, -, rfl⟩ := refund_tx hcall
    exact absurd hgated not_false
  | @lock e₁ e₂ _ _ _ _ _ hfirst hplanned hsecond hcurrent =>
    intro call hcall hgated
    have hfirst := refreshed_of_refresh hfirst
    have hrefreshed := hfirst.trans (refreshed_of_refresh hsecond)
    rw [← hfirst.minConfirmations] at hmin hmeasures
    obtain rfl := lockMyLeg_tx hcall
    -- A maker decides to lock only against a leg that is safe.
    have hsafe : e₂.ctx.CounterpartySafe := by
      obtain ⟨-, -, ⟨htaker, -⟩ | ⟨-, -, hsafe⟩⟩ := nextAction_lockMyLeg.mp hcurrent
      · rw [hrefreshed.role, show e.ctx.role = .maker from hgated] at htaker
        cases htaker
      · exact hsafe
    obtain ⟨contractId, hsees⟩ := seesDeepLock_of_refresh hsecond hmin hmeasures hsafe
    exact ⟨contractId, hsees.lockMyLeg, trivial⟩
  | @redeem e₁ e₂ _ hfirst hplanned hsecond hcurrent =>
    intro call hcall hgated
    have hfirst := refreshed_of_refresh hfirst
    have hrefreshed := hfirst.trans (refreshed_of_refresh hsecond)
    rw [← hfirst.minConfirmations] at hmin hmeasures
    obtain ⟨id, -, rfl⟩ := redeemCounterpartyLeg_tx hcall
    -- A taker decides to redeem only a leg that is safe.
    have hsafe : e₂.ctx.CounterpartySafe := by
      obtain ⟨-, -, -, hsafe⟩ | ⟨hmaker, -, -⟩ := nextAction_redeem.mp hcurrent
      · exact hsafe
      · rw [hrefreshed.role, show e.ctx.role = .taker from hgated] at hmaker
        cases hmaker
    obtain ⟨contractId, hsees⟩ := seesDeepLock_of_refresh hsecond hmin hmeasures hsafe
    exact ⟨contractId, hsees.redeemCounterpartyLeg.1, hsees.redeemCounterpartyLeg.2 _ hcall⟩

/-- The required depth is never changed. -/
theorem step_minConfirmations (cr : Crypto) (e : Executor) (io : StepAnswers) :
    (e.step cr io).exec.minConfirmations = e.minConfirmations := by
  show (e.step cr io).exec.base.minConfirmations = e.base.minConfirmations
  obtain hbase | ⟨-, hbase⟩ := step_base cr e io
  · rw [hbase]
  · rw [hbase]

end Steps

end Executor

/-- **When the gates count depth right.** Whatever the endpoints answer, both
    gates follow the rule of whole numbers exactly where the depth is measured:
    the head has reached the block, or more than one confirmation is required,
    and the count fits. In a run with measured depths no maker locks and no taker
    redeems against a lock that is too shallow. -/
theorem gates_count_depth_iff_measured (cr : Crypto) :
    (∀ (io : LockAnswers) (contractId : Bytes32) (minConfirmations : U64) (s : Swap) (head : U64)
        (logs : List (Option U64)), io.getSwap contractId = .ok s → io.blockNumber = .ok head →
      io.creationLogs contractId = .ok logs →
      ((∀ lock, observeLock io contractId minConfirmations = .ok (.confirmed lock) ↔
          ReadAs s lock ∧ Deep head logs.head?.join minConfirmations) ↔
        ∀ lock, ReadAs s lock → Measured head logs.head?.join minConfirmations)) ∧
    (∀ (io : ReceiptAnswers) (txHash : Bytes32) (minConfirmations : U64)
        (receipt : Option (Option U64)) (head : U64), io.receipt txHash = .ok receipt →
      io.blockNumber = .ok head →
      ((isConfirmed io txHash minConfirmations = .ok true ↔
          Deep head receipt.join minConfirmations) ↔
        Measured head receipt.join minConfirmations)) ∧
    ∀ (e : Executor) (ios : List StepAnswers), e.minConfirmations ≠ 0 →
      (∀ io ∈ ios, io.second.counterpartyLock.Measures e.minConfirmations) →
      Every (Executor.next cr) (fun e io => e.ActsOnDeepLock cr io) e ios := by
  refine ⟨?_, ?_, ?_⟩
  · intro io contractId minConfirmations s head logs hswap hhead hlogs
    exact observeLock_deep_iff hswap hhead hlogs
  · intro io txHash minConfirmations receipt head hreceipt hhead
    exact isConfirmed_deep_iff hreceipt hhead
  -- The configured depth never changes, so one premise about it serves the whole run.
  · intro e ios hmin hmeasures
    apply Every.of_invariant (I := fun e' : Executor => e'.minConfirmations = e.minConfirmations)
    · intro e' io hkept
      exact (Executor.step_minConfirmations cr e' io).trans hkept
    · intro e' hkept io hio
      rw [← hkept] at hmin hmeasures
      exact Executor.actsOnDeepLock hmin (hmeasures io hio)
    · rfl

/-! ## A maker before and after the head reaches the lock -/

namespace Sample

open HashedTimelock.Sample (ethContractId)

/-- `bob`'s lock is in block five, and the head that is read is `head`. -/
def reads (head : U64) : LockAnswers := ⟨fun _ => .ok ethRecord, .ok head, fun _ => .ok [some 5]⟩

def seen (head : U64) : RefreshAnswers where
  now := 10
  counterpartyPoll := ⟨.ok 5, fun _ _ => .ok [some locked]⟩
  counterpartyLock := reads head
  ownPoll := ⟨.ok 3, fun _ _ => .ok []⟩

def lockingStep (head : U64) : StepAnswers := ⟨seen head, seen head, mined, 0⟩

/-- The maker locks against the lock it sees. -/
theorem lockingStep_gated (head : U64) (h : head = 4 ∨ head = 5) :
    ∃ call, (waitingMaker.step strangerSetting.crypto (lockingStep head)).tx = some call ∧
      Executor.Gated waitingMaker.ctx.role call := by
  rcases h with rfl | rfl <;> exact ⟨.lock _, rfl, rfl⟩

theorem reads_measures : (reads 5).Measures 1 := by
  rintro contractId head block ⟨⟩ ⟨⟩ b ⟨⟩
  exact ⟨by decide, by decide⟩

end Sample

/-- The head is at the block of the lock, which has one confirmation. -/
theorem gates_count_depth_of_head_at_block :
    ∃ contractId, (Sample.waitingMaker.step Sample.strangerSetting.crypto
      (Sample.lockingStep 5)).exec.SeesDeepLock (Sample.reads 5) contractId := by
  obtain ⟨-, -, hruns⟩ := gates_count_depth_iff_measured Sample.strangerSetting.crypto
  have hrun := hruns Sample.waitingMaker [Sample.lockingStep 5] (by decide)
    (fun io hio => List.mem_singleton.mp hio ▸ Sample.reads_measures)
  obtain ⟨call, hcall, hgated⟩ := Sample.lockingStep_gated 5 (.inr rfl)
  obtain ⟨contractId, hsees, -⟩ := hrun.1 call hcall hgated
  exact ⟨contractId, hsees⟩

/-- The head is one block behind the lock: it is confirmed, and the maker locks
    against it. -/
theorem lock_above_head_confirmed :
    observeLock (Sample.reads 4) HashedTimelock.Sample.ethContractId 1 =
      .ok (.confirmed Sample.ethObserved) ∧
    ¬Deep 4 (some 5) 1 ∧
    ¬Sample.waitingMaker.ActsOnDeepLock Sample.strangerSetting.crypto (Sample.lockingStep 4) := by
  refine ⟨by decide, ?_, ?_⟩
  · rintro (hzero | ⟨b, ⟨⟩, hdeep⟩)
    · exact absurd hzero (by decide)
    · exact absurd hdeep (by decide)
  · intro hacts
    obtain ⟨call, hcall, hgated⟩ := Sample.lockingStep_gated 4 (.inl rfl)
    obtain ⟨contractId, ⟨-, s, lock, head, b, -, -, -, ⟨⟩, ⟨⟩, hdeep⟩, -⟩ := hacts call hcall hgated
    exact absurd hdeep (by decide)

end Kael.Swapkit
