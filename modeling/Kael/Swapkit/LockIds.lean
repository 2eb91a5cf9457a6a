import Kael.Contracts.Transactions
import Kael.Swapkit.Tx

/-!
# The Ids of Locks

An id is computed in three places: by the wallet before it sends a lock, by
Settlement before it calls the HTLC, and by the HTLC itself. Each place has an
encoder of its own. They hash the same bytes, these determine all six fields,
and so the wallet's id addresses the record that its transaction has written
(`lock_ids_address_records`).
-/

namespace Kael

open HashedTimelock (NewSwap Swap newSwapChecks newSwapChecks_ok)
open Settlement (SettleLeg Failure)

/-! ## The three encoders -/

/-- `abi.encode(sender, recipient, token, amount, hashlock, timelock)` in
    `computeContractId`. -/
def HashedTimelock.NewSwap.encoded (sender : Address) (a : NewSwap) : List Byte :=
  abiEncode
    [addressWord sender, addressWord a.recipient, addressWord a.token, a.amount, a.hashlock,
      a.timelock]

/-- `abi.encode(address(this), recipient, order.sellToken, order.sellAmount,
    hashlock, timelock)` in `settleLeg`. -/
def Settlement.SettleLeg.encoded (self : Address) (a : SettleLeg) : List Byte :=
  abiEncode
    [addressWord self, addressWord a.recipient, addressWord a.order.sellToken, a.order.sellAmount,
      a.hashlock, a.timelock]

namespace Swapkit

/-- The ABI token of an `EvmAddress`: its 20 bytes after 12 zeros. -/
def addressToken (a : Address) : List Byte := List.replicate 12 0 ++ BigEndian.bytes 20 a

/-- The ABI token of a `U256` or a `B256`: its 32 bytes. -/
def wordToken (w : BitVec 256) : List Byte := BigEndian.bytes 32 w

/-- `encoded` in `compute_contract_id`: the six tokens of the tuple. -/
def encoded (sender recipient token : Address) (amount : U128) (hashlock : Bytes32)
    (timelock : U64) : List Byte :=
  addressToken sender ++ addressToken recipient ++ addressToken token ++
    wordToken (amount.setWidth 256) ++ wordToken hashlock ++ wordToken (timelock.setWidth 256)

end Swapkit

section Encoders

variable {cr : Crypto} {self sender sender' recipient recipient' token token' : Address}
  {amount amount' : U128} {hashlock hashlock' : Bytes32} {timelock timelock' : U64}

theorem Swapkit.addressToken_eq (a : Address) :
    Swapkit.addressToken a = wordBytes (addressWord a) :=
  BigEndian.replicate_append_bytes (m := 20) (n := 32) (v := 256) (by omega) (by omega) (by omega) a

/-- The wallet and the HTLC encode alike. -/
theorem HashedTimelock.NewSwap.encoded_lockArgs :
    (Swapkit.lockArgs recipient token amount hashlock timelock).encoded sender =
      Swapkit.encoded sender recipient token amount hashlock timelock := by
  simp only [NewSwap.encoded, Swapkit.encoded, Swapkit.addressToken_eq, Swapkit.wordToken,
    ← wordBytes_eq_bytes, abiEncode, List.flatMap_cons, List.flatMap_nil, List.append_nil,
    List.append_assoc]
  rfl

/-- Settlement and the HTLC encode alike. -/
theorem HashedTimelock.NewSwap.encoded_lock (a : SettleLeg) :
    a.lock.encoded self = a.encoded self := rfl

/-- So do the wallet and Settlement. -/
theorem Settlement.SettleLeg.encoded_leg {config : Swapkit.SettlementLockConfig} :
    (config.leg sender recipient token amount hashlock timelock).encoded self =
      Swapkit.encoded self recipient token amount hashlock timelock := by
  rw [← HashedTimelock.NewSwap.encoded_lock]
  exact HashedTimelock.NewSwap.encoded_lockArgs

/-- The contract's encoding determines who locks what. -/
theorem HashedTimelock.NewSwap.encoded_injective {a a' : NewSwap}
    (h : a.encoded sender = a'.encoded sender') : sender = sender' ∧ a = a' := by
  unfold NewSwap.encoded at h
  have hwords := abiEncode_injective (by simp) h
  simp only [List.cons.injEq, and_true] at hwords
  obtain ⟨hsender, hrecipient, htoken, hamount, hhashlock, htimelock⟩ := hwords
  have haddress : ∀ {x y : Address}, addressWord x = addressWord y → x = y :=
    setWidth_word_injective (by omega)
  refine ⟨haddress hsender, ?_⟩
  cases a
  cases a'
  simp only [NewSwap.mk.injEq]
  exact ⟨haddress hrecipient, haddress htoken, hamount, hhashlock, htimelock⟩

/-- The wallet's encoding determines all six fields. -/
theorem Swapkit.encoded_injective
    (h : Swapkit.encoded sender recipient token amount hashlock timelock =
      Swapkit.encoded sender' recipient' token' amount' hashlock' timelock') :
    sender = sender' ∧ recipient = recipient' ∧ token = token' ∧ amount = amount' ∧
      hashlock = hashlock' ∧ timelock = timelock' := by
  rw [← HashedTimelock.NewSwap.encoded_lockArgs, ← HashedTimelock.NewSwap.encoded_lockArgs] at h
  obtain ⟨hsender, hargs⟩ := HashedTimelock.NewSwap.encoded_injective h
  simp only [Swapkit.lockArgs, NewSwap.mk.injEq] at hargs
  obtain ⟨hrecipient, htoken, hamount, hhashlock, htimelock⟩ := hargs
  exact ⟨hsender, hrecipient, htoken, setWidth_word_injective (by omega) hamount, hhashlock,
    setWidth_word_injective (by omega) htimelock⟩

/-- What `compute_contract_id` returns is the hash of its encoding. -/
theorem Swapkit.computeContractId_eq :
    Swapkit.computeContractId cr sender recipient token amount hashlock timelock =
      cr.keccak256 (Swapkit.encoded sender recipient token amount hashlock timelock) := by
  rw [← HashedTimelock.NewSwap.encoded_lockArgs]
  rfl

end Encoders

/-! ## The id that Settlement checks -/

namespace Exchange

open NestedCalls

section Matching

variable {cr : Crypto} {D : Deployment} {now : Uint256} {s : State}

/-- All waiting `settleLeg`s have the ids of their locks. -/
def State.IdsMatch (cr : Crypto) (D : Deployment) (s : State) : Prop :=
  ∀ f ∈ s.frames, f.IdMatches cr D

theorem State.IdsMatch.cons {s' : State} {f : Frame} (hs : s.IdsMatch cr D)
    (hframes : s'.frames = f :: s.frames) (hf : f.IdMatches cr D) : s'.IdsMatch cr D := by
  intro g hg
  rw [hframes] at hg
  rcases List.mem_cons.mp hg with rfl | hg
  · exact hf
  · exact hs g hg

theorem State.IdsMatch.invoke {x : Address} {call : Call} {o : Outcome} (hs : s.IdsMatch cr D)
    (h : invoke cr D now x call s = .ok o) : o.state.IdsMatch cr D := by
  have hends := invoke_ends h
  cases o with
  | done s' =>
    obtain ⟨hframes, -⟩ := hends
    intro f hf
    rw [show (Outcome.done s').state.frames = s.frames from hframes] at hf
    exact hs f hf
  | waiting s' =>
    obtain ⟨f, hframes, hf⟩ := hends
    exact hs.cons hframes hf

theorem State.IdsMatch.resume {o : Outcome} (hs : s.IdsMatch cr D)
    (h : resume cr D now s = .ok o) : o.state.IdsMatch cr D := by
  obtain ⟨f, fs, hold, hrest⟩ := resume_ok.mp h
  have hf : f.IdMatches cr D := hs f (by simp [hold])
  have hfs : State.IdsMatch cr D { s with frames := fs } := fun g hg =>
    hs g (by rw [hold]; exact List.mem_cons_of_mem _ hg)
  have hends := Frame.rest_ends hrest
  cases o with
  | done s' =>
    obtain ⟨hframes, -⟩ := hends
    intro g hg
    rw [show (Outcome.done s').state.frames = fs from hframes] at hg
    exact hfs g hg
  | waiting s' =>
    obtain ⟨g, hframes, hg⟩ := hends
    exact hfs.cons hframes (hg hf)

/-- Step rule. -/
theorem State.IdsMatch.invariant {π : Policy} :
    Invariant (anyTime cr D π) (State.IdsMatch cr D) := by
  intro s s' hs hmove
  obtain ⟨now, hmove⟩ := hmove.of_union
  cases hmove with
  | enter h =>
    cases h with
    | invoke sender call _ _ h => exact hs.invoke h
    | other h =>
      subst h
      exact hs.cons rfl trivial
  | act h =>
    cases h with
    | invoke sender call _ _ h => exact hs.invoke h
    | resume h => exact hs.resume h
  | leave h => exact hs.resume h

theorem Reachable.idsMatch {π : Policy} {c : Config State} (h : Reachable cr D π c) :
    c.cur.IdsMatch cr D := by
  obtain ⟨l, -, hrun⟩ := h
  have hstart : (State.fresh l).IdsMatch cr D := fun _ hf => absurd hf List.not_mem_nil
  exact (State.IdsMatch.invariant.run hrun (.of_cur hstart)).1

/-- The code does not revert with `ContractIdMismatch`. -/
def Matches (r : Except Failure Outcome) : Prop :=
  r ≠ .error (.settlement .contractIdMismatch)

namespace Matches

theorem ok {o : Outcome} : Matches (.ok o) := by
  intro h
  cases h

theorem error {e : Failure} (he : e ≠ .settlement .contractIdMismatch) : Matches (.error e) :=
  fun h => he (Except.error.inj h)

theorem tokenCall {token : Address}
    {effect : Ledger Address Address → Option (Ledger Address Address)} {wait : Frame}
    {fail : Failure} {k : Rest} (hfail : fail ≠ .settlement .contractIdMismatch)
    (hk : ∀ s, Matches (k s)) : Matches (s.tokenCall D token effect wait fail k) := by
  unfold State.tokenCall
  split_ifs
  · cases effect s.ledger with
    | none => exact error hfail
    | some l => exact hk _
  · exact error hfail
  · exact ok

theorem pay {src : Address} {contractId : Bytes32} {p : HashedTimelock.Payout}
    {ethFail tokenFail : Failure} {wait : Frame} {k : Rest}
    (heth : ethFail ≠ .settlement .contractIdMismatch)
    (htoken : tokenFail ≠ .settlement .contractIdMismatch) (hk : ∀ s, Matches (k s)) :
    Matches (s.pay D src contractId p ethFail tokenFail wait k) := by
  unfold State.pay
  dsimp only
  split_ifs
  · exact error heth
  · cases s.ledger.move zeroAddress src p.dest p.amount.toNat with
    | none => exact error heth
    | some l => exact hk _
  · cases s.ledger.move zeroAddress src p.dest p.amount.toNat with
    | none => exact error heth
    | some l => exact ok
  · exact tokenCall htoken hk

theorem receive {sender contract : Address} {value : Uint256} {k : Rest}
    (hk : ∀ s, Matches (k s)) : Matches (s.receive sender contract value k) := by
  unfold State.receive
  cases s.ledger.move zeroAddress sender contract value.toNat with
  | none => exact error (by simp)
  | some l => exact hk _

/-- `newSwap` goes on with the id of its lock only. -/
theorem newSwap {msg : Msg} {a : NewSwap} {wait : Bytes32 → Frame} {k : Bytes32 → Rest}
    (hk : ∀ s, Matches (k (HashedTimelock.computeContractId cr msg.sender a) s)) :
    Matches (s.newSwap cr D now msg a wait k) := by
  unfold State.newSwap
  cases hchecks : newSwapChecks cr D.hasCode now s.htlc msg a with
  | error e => exact error (by simp)
  | ok contractId =>
    obtain ⟨-, -, -, rfl, -⟩ := newSwapChecks_ok.mp hchecks
    dsimp only
    split_ifs
    · exact hk _
    · exact tokenCall (by simp) fun _ => hk _

/-- The check at the end of `settleLeg` passes. -/
theorem settleLocked {a : SettleLeg} {contractId got : Bytes32} (hgot : got = contractId) :
    Matches (s.settleLocked a contractId got) := by
  unfold State.settleLocked
  rw [if_neg (not_not.mpr hgot)]
  exact ok

theorem settleApproved {value : Uint256} {a : SettleLeg} :
    Matches (s.settleApproved cr D now value a (a.contractId cr D.settlement)) :=
  newSwap fun _ => settleLocked rfl

theorem settleReceived {a : SettleLeg} :
    Matches (s.settleReceived cr D now a (a.contractId cr D.settlement)) :=
  tokenCall (by simp) fun _ => settleApproved

theorem settleLeg {msg : Msg} {a : SettleLeg} : Matches (s.settleLeg cr D now msg a) := by
  unfold State.settleLeg
  -- The checks come first, and none of them fails with `InvalidContractId`.
  cases hchecks : Settlement.settleChecks cr D.chainId now s.settlement msg.sender a with
  | error e =>
    apply error
    rintro rfl
    unfold Settlement.settleChecks at hchecks
    split at hchecks
    · cases hchecks
    · split_ifs at hchecks <;> cases hchecks
  | ok u =>
    dsimp only
    unfold State.receiveAndLock
    -- ETH comes with the call; a token is pulled from the trader by a call of Settlement.
    split_ifs
    · exact error (by simp)
    · split
      · exact error (by simp)
      · exact settleApproved
    · exact error (by simp)
    · exact error (by simp)
    · exact tokenCall (by simp) fun _ => settleReceived

theorem forwardLeg {contractId : Bytes32} {leg : Settlement.Leg} :
    Matches (s.forwardLeg D contractId leg) :=
  pay (by simp) (by simp) fun _ => ok

theorem refund {sender : Address} {contractId : Bytes32} {wait : Frame} {k : Rest}
    (hk : ∀ s, Matches (k s)) : Matches (s.refund D now sender contractId wait k) := by
  unfold State.refund
  split
  · exact error (by simp)
  · exact pay (by simp) (by simp) fun _ => hk _

theorem ledgerCall {l : Option (Ledger Address Address)} : Matches (s.ledgerCall l) := by
  cases l with
  | none => exact error (by simp)
  | some l => exact ok

/-- No call reverts so when it is made. -/
theorem invoke {x : Address} {call : Call} : Matches (invoke cr D now x call s) := by
  -- One case for each call that an account can make.
  cases call with
  | newSwap value a => exact receive fun _ => newSwap fun _ => ok
  | redeem id p =>
    show Matches (s.redeem cr D now id p)
    unfold State.redeem
    split
    · exact error (by simp)
    · exact pay (by simp) (by simp) fun _ => ok
  | refund id => exact refund fun _ => ok
  -- An authorization checks the order and keeps it: no contract is called.
  | authorizeLeg order signature nowTs =>
    cases hchecks : Settlement.authorizeLeg cr s.settlement order signature nowTs with
    | error e =>
      simp only [Exchange.invoke, hchecks]
      apply error
      rintro rfl
      unfold Settlement.authorizeLeg at hchecks
      split at hchecks
      · cases hchecks
      · split_ifs at hchecks
        cases hchecks
    | ok st =>
      simp only [Exchange.invoke, hchecks]
      exact ok
  | settleLeg value a => exact receive fun _ => settleLeg
  | refundLeg id =>
    show Matches (s.refundLeg D now id)
    unfold State.refundLeg
    cases hchecks : Settlement.refundLegChecks s.settlement id with
    | error e =>
      apply error
      rintro rfl
      unfold Settlement.refundLegChecks at hchecks
      split_ifs at hchecks <;> cases hchecks
    | ok u => exact refund fun _ => forwardLeg
  | transfer token dest amount =>
    show Matches (if _ then _ else _)
    split_ifs
    · exact error (by simp)
    · exact ledgerCall
    · exact error (by simp)
  | approve token spender amount =>
    show Matches (if _ then _ else _)
    split_ifs
    · exact ledgerCall
    · exact error (by simp)
  | transferFrom token owner dest amount =>
    show Matches (if _ then _ else _)
    split_ifs
    · exact ledgerCall
    · exact error (by simp)

/-- Nor does a call that goes on, if the waiting `settleLeg`s have the ids of
    their locks. -/
theorem resume (hs : s.IdsMatch cr D) : Matches (resume cr D now s) := by
  unfold Exchange.resume
  cases hframes : s.frames with
  | nil => exact error (by simp)
  -- Each frame goes on with what its call has left to do.
  | cons f fs =>
    have hf : f.IdMatches cr D := hs f (by simp [hframes])
    cases f with
    | newSwap | payout | legForward | other => exact ok
    | settleReceive a id =>
      cases hf
      exact settleReceived
    | settleApprove a id =>
      cases hf
      exact settleApproved
    -- The id kept in the frame is the one that the call was matched with.
    | settleLock a id got =>
      obtain ⟨rfl, rfl⟩ := hf
      exact settleLocked rfl
    | legRefund id leg => exact forwardLeg

end Matches

end Matching

/-! ## Locked records -/

/-- The record at `id` exists and has these fields. -/
structure State.RecordedAs (s : State) (id : Bytes32) (sender recipient token : Address)
    (amount : U128) (hashlock : Bytes32) (timelock : U64) : Prop where
  made : (s.htlc.swaps id).Exists
  sender_eq : (s.htlc.swaps id).sender = sender
  recipient_eq : (s.htlc.swaps id).recipient = recipient
  token_eq : (s.htlc.swaps id).token = token
  amount_eq : (s.htlc.swaps id).amount.toNat = amount.toNat
  hashlock_eq : (s.htlc.swaps id).hashlock = hashlock
  timelock_eq : (s.htlc.swaps id).timelock.toNat = timelock.toNat

section Records

variable {cr : Crypto} {D : Deployment} {now : Uint256} {x y : Address} {call : Call}
  {s s' s'' : State}

/-- A mined lock keeps its record's fields in all that follows. -/
theorem Mined.keeps_terms {a : NewSwap} (hx : D.Account x) (hy : y ≠ zeroAddress)
    (hframes : s.frames = []) (hcall : call.lockOf D x = some (y, a))
    (h : Mined cr D now x call s s') (hlater : Later cr D s' s'') :
    (s''.htlc.swaps (HashedTimelock.computeContractId cr y a)).Exists ∧
      (s''.htlc.swaps (HashedTimelock.computeContractId cr y a)).terms = (a.record y).terms := by
  have hrecord : s'.htlc.swaps (HashedTimelock.computeContractId cr y a) = a.record y :=
    h.hasLock hx.1 hframes hcall
  have hexists : (s'.htlc.swaps (HashedTimelock.computeContractId cr y a)).Exists := by
    rw [hrecord]
    exact hy
  have hframes' : s'.frames = [] := no_frames_of_run hframes (h.later hx)
  -- The record is written, and no frame is left that could write it again.
  have hstage := hlater.stage (mt Swap.stage_vacant.mp (not_not.mpr hexists)) hframes' le_rfl
  obtain ⟨hexists', hterms⟩ := Swap.terms_eq_of_stage_le hstage hexists
  refine ⟨hexists', ?_⟩
  rw [hterms, hrecord]

end Records

end Exchange

namespace Swapkit

open Exchange (Call Deployment State Mined Later Reachable anyone)

/-- If `tx` returns an id, then it has sent `call` last; and once this is mined
    and succeeds, the record at the id has these fields, and keeps them. -/
def AddressesRecord (cr : Crypto) (D : Deployment) (signer : Address) (tx : Sending Locked)
    (call : Call) (sender recipient token : Address) (amount : U128) (hashlock : Bytes32)
    (timelock : U64) : Prop :=
  ∀ locked, tx.result = .ok locked → tx.sent.getLast? = some call ∧
    ∀ s, Reachable cr D anyone ⟨s, []⟩ → ∀ now s' s'', Mined cr D now signer call s s' →
      Later cr D s' s'' →
      s''.RecordedAs locked.contractId sender recipient token amount hashlock timelock

section Wallet

variable {cr : Crypto} {D : Deployment} {signer spender recipient token y : Address}
  {amount : U128} {hashlock contractId : Bytes32} {timelock : U64} {call : Call} {io : TxAnswers}

/-- The lock is sent last, and the id is returned as it was computed. -/
theorem sendLock_ok {locked : Locked}
    (h : (sendLock spender token amount contractId call io).result = .ok locked) :
    locked.contractId = contractId ∧
      (sendLock spender token amount contractId call io).sent.getLast? = some call := by
  -- Both ways the id of the locked leg is the one that was computed before sending.
  have hfinish : ∀ {r : Except TxError Receipt},
      r.map (fun receipt => Locked.mk contractId receipt.transactionHash) = .ok locked →
      locked.contractId = contractId := by
    intro r hr
    cases r with
    | error e => cases hr
    | ok receipt => cases hr; rfl
  unfold sendLock at h ⊢
  dsimp only at h ⊢
  split_ifs at h ⊢
  · exact ⟨hfinish h, rfl⟩
  -- A token is approved first, and the call is sent only after.
  · cases happrove : approveExact amount io.approve with
    | error e =>
      rw [happrove] at h
      cases h
    | ok u =>
      rw [happrove] at h
      exact ⟨hfinish h, rfl⟩

theorem addressesRecord_sendLock (hsigner : D.Account signer) (hy : y ≠ zeroAddress)
    (hcall : call.lockOf D signer = some (y, lockArgs recipient token amount hashlock timelock)) :
    AddressesRecord cr D signer
      (sendLock spender token amount
        (computeContractId cr y recipient token amount hashlock timelock) call io)
      call y recipient token amount hashlock timelock := by
  intro locked hresult
  obtain ⟨hid, hlast⟩ := sendLock_ok hresult
  refine ⟨hlast, ?_⟩
  intro s hs now s' s'' hmined hlater
  -- No call is left open between transactions, so the mined call starts from a clean state.
  obtain ⟨l, -, hrun⟩ := hs
  have hframes : s.frames = [] := Exchange.no_frames_of_run rfl hrun
  obtain ⟨hexists, hterms⟩ := hmined.keeps_terms hsigner hy hframes hcall hlater
  rw [hid]
  simp only [Swap.terms, NewSwap.record, lockArgs, HashedTimelock.Terms.mk.injEq] at hterms
  obtain ⟨hsender, hrecipient, htoken, hamount, hhashlock, htimelock⟩ := hterms
  -- The record's amount and timelock are as wide as the values that the caller passed.
  refine ⟨hexists, hsender, hrecipient, htoken, ?_, hhashlock, ?_⟩
  · exact (congrArg BitVec.toNat hamount).trans (BitVec.toNat_setWidth_of_le (by omega))
  · exact (congrArg BitVec.toNat htimelock).trans (BitVec.toNat_setWidth_of_le (by omega))

/-- A direct lock is the signer's. -/
theorem addressesRecord_lock (hsigner : D.Account signer) :
    AddressesRecord cr D signer (lock cr signer D.htlc recipient token amount hashlock timelock io)
      (.newSwap (lockValue token amount) (lockArgs recipient token amount hashlock timelock))
      signer recipient token amount hashlock timelock := by
  unfold lock
  split_ifs
  · intro locked hresult
    cases hresult
  · exact addressesRecord_sendLock hsigner hsigner.1 rfl

/-- A lock through Settlement is Settlement's. -/
theorem addressesRecord_lockViaSettlement {config : SettlementLockConfig}
    (hsigner : D.Account signer) (hsettlement : config.settlement = D.settlement) :
    AddressesRecord cr D signer
      (lockViaSettlement cr signer config recipient token amount hashlock timelock io)
      (.settleLeg (lockValue token amount)
        (config.leg signer recipient token amount hashlock timelock))
      D.settlement recipient token amount hashlock timelock := by
  unfold lockViaSettlement
  split_ifs
  · intro locked hresult
    cases hresult
  · rw [hsettlement]
    exact addressesRecord_sendLock hsigner D.settlement_ne_zero rfl

end Wallet

/-- The ids of the three places are hashes of their encodings. -/
structure Hashed (cr : Crypto) : Prop where
  wallet : ∀ sender recipient token amount hashlock timelock,
    computeContractId cr sender recipient token amount hashlock timelock =
      cr.keccak256 (encoded sender recipient token amount hashlock timelock)
  settlement : ∀ self (a : SettleLeg), a.contractId cr self = cr.keccak256 (a.encoded self)
  /-- What `newSwap` returns. -/
  htlc : ∀ hasCode now st msg a id, newSwapChecks cr hasCode now st msg a = .ok id →
    id = cr.keccak256 (a.encoded msg.sender)

/-- What the wallet sends is encoded by the contracts as the wallet encodes it:
    with the signer as the sender of a direct lock, with Settlement as the sender
    of a lock through it. -/
structure SameBytes : Prop where
  direct : ∀ signer recipient token amount hashlock timelock,
    (lockArgs recipient token amount hashlock timelock).encoded signer =
      encoded signer recipient token amount hashlock timelock
  settled : ∀ (config : SettlementLockConfig) signer recipient token amount hashlock timelock,
    (config.leg signer recipient token amount hashlock timelock).encoded config.settlement =
      encoded config.settlement recipient token amount hashlock timelock
  /-- The lock that Settlement makes for a leg. -/
  nested : ∀ (a : SettleLeg) self, a.lock.encoded self = a.encoded self

theorem hashed (cr : Crypto) : Hashed cr where
  wallet _ _ _ _ _ _ := computeContractId_eq
  settlement _ _ := rfl
  htlc hasCode now st msg a id h := by
    obtain ⟨-, -, -, hid, -⟩ := newSwapChecks_ok.mp h
    exact hid

theorem sameBytes : SameBytes where
  direct _ _ _ _ _ _ := NewSwap.encoded_lockArgs
  settled _ _ _ _ _ _ _ := SettleLeg.encoded_leg
  nested _ _ := NewSwap.encoded_lock _

/-- **The wallet's id addresses its own lock.** The three ids of a lock are
    hashes of the same bytes; these determine all six fields; Settlement never
    finds another id than its own; and a lock that returns an id has been sent,
    and is the record at that id once it has succeeded. -/
theorem lock_ids_address_records (cr : Crypto) (D : Deployment) :
    Hashed cr ∧ SameBytes ∧
    (∀ sender recipient token amount hashlock timelock
        sender' recipient' token' amount' hashlock' timelock',
      encoded sender recipient token amount hashlock timelock =
        encoded sender' recipient' token' amount' hashlock' timelock' →
      sender = sender' ∧ recipient = recipient' ∧ token = token' ∧ amount = amount' ∧
        hashlock = hashlock' ∧ timelock = timelock') ∧
    (∀ sender sender' (a a' : NewSwap), a.encoded sender = a'.encoded sender' →
      sender = sender' ∧ a = a') ∧
    (∀ c, Reachable cr D anyone c → ∀ now,
      (∀ x call, Exchange.invoke cr D now x call c.cur ≠
        .error (.settlement .contractIdMismatch)) ∧
      Exchange.resume cr D now c.cur ≠ .error (.settlement .contractIdMismatch)) ∧
    ∀ signer, D.Account signer → ∀ recipient token amount hashlock timelock io,
      AddressesRecord cr D signer
        (lock cr signer D.htlc recipient token amount hashlock timelock io)
        (.newSwap (lockValue token amount) (lockArgs recipient token amount hashlock timelock))
        signer recipient token amount hashlock timelock ∧
      ∀ config : SettlementLockConfig, config.settlement = D.settlement →
        AddressesRecord cr D signer
          (lockViaSettlement cr signer config recipient token amount hashlock timelock io)
          (.settleLeg (lockValue token amount)
            (config.leg signer recipient token amount hashlock timelock))
          D.settlement recipient token amount hashlock timelock := by
  refine ⟨hashed cr, sameBytes, ?_, ?_, ?_, ?_⟩
  · intro _ _ _ _ _ _ _ _ _ _ _ _ h
    exact encoded_injective h
  · intro _ _ _ _ h
    exact NewSwap.encoded_injective h
  · intro c hc now
    exact ⟨fun _ _ => Exchange.Matches.invoke, Exchange.Matches.resume hc.idsMatch⟩
  · intro signer hsigner recipient token amount hashlock timelock io
    exact ⟨addressesRecord_lock hsigner, fun _ => addressesRecord_lockViaSettlement hsigner⟩

/-! ### Two locks of five wei -/

section FiveWei

open Exchange.Sample (crypto deployment ledger maker bob coin ethOrder ethLock ethId ethLockId)
open HashedTimelock.Sample (hashlock)

namespace Sample

/-- The transaction is sent and its receipt obtained. -/
def obtained : TxAnswers where
  approve := ⟨⟨.ok (), .error "unused"⟩, .error "unused"⟩
  call := ⟨.ok (), .ok ⟨5, true⟩⟩

/-- The maker's part of `ethOrder`. -/
def config : SettlementLockConfig where
  settlement := deployment.settlement
  sign _ := ethOrder.signature
  sellChainId := 31337
  buyToken := coin
  buyChainId := 1
  buyAmount := 9
  validUntil := 5000
  nonce := 1

end Sample

/-- The maker locks five wei, once by itself and once through Settlement. -/
theorem five_wei_address_records :
    (∃ s, Mined crypto deployment 10 maker (.newSwap 5 ethLock) (State.fresh ledger) s ∧
      s.RecordedAs ethLockId maker bob zeroAddress 5 hashlock 1000) ∧
    ∃ s, Mined crypto deployment 10 maker (.settleLeg 5 ethOrder.leg) (State.fresh ledger) s ∧
      s.RecordedAs ethId deployment.settlement bob zeroAddress 5 hashlock 1000 := by
  -- The lock of the ETH leg, direct and through Settlement.
  obtain ⟨-, -, -, -, -, hrecords⟩ := lock_ids_address_records crypto deployment
  obtain ⟨hdirect, hsettled⟩ :=
    hrecords maker (by decide) bob zeroAddress 5 hashlock 1000 Sample.obtained
  have hstart : Reachable crypto deployment anyone ⟨State.fresh ledger, []⟩ :=
    ⟨_, Exchange.Sample.genesis, .refl⟩
  constructor
  · obtain ⟨s, hdone, -⟩ := Exchange.doneAnd_iff.mp (show Exchange.doneAnd (fun _ => true)
      (Exchange.invoke crypto deployment 10 maker (.newSwap 5 ethLock) (State.fresh ledger)) = true
        by decide +kernel)
    obtain ⟨-, hrecord⟩ := hdirect ⟨ethLockId, 5⟩ (by decide +kernel)
    exact ⟨s, .inl hdone, hrecord _ hstart 10 s s (.inl hdone) .refl⟩
  · obtain ⟨s, hdone, -⟩ := Exchange.doneAnd_iff.mp (show Exchange.doneAnd (fun _ => true)
      (Exchange.invoke crypto deployment 10 maker (.settleLeg 5 ethOrder.leg)
        (State.fresh ledger)) = true by decide +kernel)
    obtain ⟨-, hrecord⟩ := hsettled Sample.config rfl ⟨ethId, 5⟩ (by decide +kernel)
    exact ⟨s, .inl hdone, hrecord _ hstart 10 s s (.inl hdone) .refl⟩

end FiveWei

end Swapkit

end Kael
