import Kael.ClosedTestnet.Config
import Kael.Orderbook.Signing
import Kael.Orderbook.Wire
import Kael.Swapkit.Sends

/-!
# The Closed Testnet Swap

`closed-testnet-swap.rs`: both parties of a swap in one program. It checks its
configuration against the two chains, makes the two executors, and lets them
take steps in turn until both have redeemed or the steps are used up. Nothing is
sent before all checks have passed, and then only what the configuration says
(`run_sends_as_configured`).
-/

namespace Kael.ClosedTestnet

open Guards (refuseIf)
open Orderbook (SigningKeys signDigest)
open Swapkit (ChainError CounterpartyObserver Executor ExecutorError Role SettlementLockConfig
  Signer SignerError StepAnswers Stepped SwapContext SwapState TxCall TxError WalletExecutorConfig
  allowedTestChains assertChainAllowed keyText saturatingAdd)

/-! ## What errors say -/

section Texts

variable (debug : String → String)

def chainErrorText : ChainError → String
  | .badUrl e => "BadUrl(" ++ debug e ++ ")"
  | .rpc e => "Rpc(" ++ debug e ++ ")"
  | .decode e => "Decode(" ++ debug e ++ ")"
  | .amountOverflow => "AmountOverflow"
  | .timelockOverflow => "TimelockOverflow"

def txErrorText : TxError → String
  | .zeroAmount => "amount must be greater than zero"
  | .send e => s!"failed to send/mine tx: {e}"

def executorErrorText : ExecutorError → String
  | .missingHashlock => "hashlock missing from executor context"
  | .missingOwnContractId => "own-leg contractId missing"
  | .missingCounterpartyContractId => "counterparty-leg contractId missing"
  | .chain e => "chain error: " ++ chainErrorText debug e
  | .tx e => "tx error: " ++ txErrorText e

end Texts

/-! ## Checking the contracts -/

/-- What an endpoint tells of a contract. -/
structure ContractAnswers where
  chainId : Except String U64
  code : Except String (List Byte)
  /-- `Settlement.htlc()`. -/
  htlc : Except String Address

section Checks

variable (fmt : Formats)

/-- There is code at `address` of the chain that is configured. The contract is
    `kind` in the variables and `what` in the errors. -/
def validateCode (kind what name rpc : String) (expectedChainId : U64) (address : Address)
    (io : ContractAnswers) : Except RunnerError Unit := do
  (fmt.url rpc).mapError fun e => ⟨s!"KAEL_RPC_{name} is invalid: {e}"⟩
  let chainId ← io.chainId.mapError fun e => ⟨s!"RPC {name} failed to read chain_id: {e}"⟩
  let expected := expectedChainId.toNat
  let got := chainId.toNat
  refuseIf (chainId ≠ expectedChainId) ⟨s!"KAEL_CHAIN_{name} expected {expected}, RPC returned {got}"⟩
  (assertChainAllowed chainId).mapError fun e => ⟨e.display⟩
  let code ← io.code.mapError fun e => ⟨s!"RPC {name} failed to read {what}: {e}"⟩
  let shown := fmt.showAddress address
  refuseIf (code = []) ⟨s!"KAEL_{kind}_{name} is invalid: {shown} has no bytecode on chain {got}; " ++
    "aborting before any broadcast"⟩

def validateHtlcContract (name rpc : String) (expectedChainId : U64) (htlc : Address)
    (io : ContractAnswers) : Except RunnerError Unit := do
  refuseIf (htlc = zeroAddress)
    ⟨s!"KAEL_HTLC_{name} is invalid: zero address is not a valid HTLC contract"⟩
  validateCode fmt "HTLC" "HTLC" name rpc expectedChainId htlc io

def validateSettlementContract (name rpc : String) (expectedChainId : U64)
    (settlement expectedHtlc : Address) (io : ContractAnswers) : Except RunnerError Unit := do
  refuseIf (settlement = zeroAddress)
    ⟨s!"KAEL_SETTLEMENT_{name} is invalid: zero address is not a valid Settlement contract"⟩
  validateCode fmt "SETTLEMENT" "Settlement" name rpc expectedChainId settlement io
  let canonicalHtlc ← io.htlc.mapError fun e =>
    ⟨s!"RPC {name} failed to read Settlement.htlc(): {e}"⟩
  let canonical := fmt.showAddress canonicalHtlc
  let expected := fmt.showAddress expectedHtlc
  refuseIf (canonicalHtlc ≠ expectedHtlc)
    ⟨s!"KAEL_SETTLEMENT_{name} points to HTLC {canonical}, expected {expected}"⟩

/-- ETH has no contract. -/
def validateTokenContract (name rpc : String) (expectedChainId : U64) (token : Address)
    (io : ContractAnswers) : Except RunnerError Unit :=
  if token = zeroAddress then .ok ()
  else validateCode fmt "TOKEN" "ERC-20 token" name rpc expectedChainId token io

end Checks

/-! ## Preparing -/

/-- The legs are numbered by `Bool`: `false` is the taker's on chain A, `true` the
    maker's on chain B. -/
def SwapConfig.leg (config : SwapConfig) : Bool → LegConfig
  | false => config.taker
  | true => config.maker

/-- What endpoints, clock and random generator answer before the first step. -/
structure PrepareAnswers where
  htlc : Bool → ContractAnswers
  settlement : Bool → ContractAnswers
  token : Bool → ContractAnswers
  /-- The chain id that the endpoint of a leg tells the signer of a party. -/
  signer : Bool → Bool → Except String U64
  now : U64
  secret : Bytes32

/-- `rpc_observer`: its two endpoints have one URL. -/
def rpcObserver (fmt : Formats) (rpc : String) (chainId : U64) :
    Except ChainError CounterpartyObserver :=
  ((fmt.url rpc).map fun _ => CounterpartyObserver.new chainId).mapError .badUrl

section Prepare

variable (cr : Crypto) (sk : SigningKeys) (fmt : Formats) (config : SwapConfig)
  (io : PrepareAnswers)

/-- The signer of party `i` on the chain of leg `j`. -/
def connect (who chain : String) (i j : Bool) : Except RunnerError Signer :=
  (Signer.fromKeyStr fmt.signer fmt.url (config.leg i).key (config.leg j).rpc
    (io.signer i j)).mapError fun e =>
      let text := e.display
      ⟨s!"{who} signer on chain {chain} refused: {text}"⟩

def observe (who : String) (j : Bool) : Except RunnerError CounterpartyObserver :=
  (rpcObserver fmt (config.leg j).rpc (config.leg j).chainId).mapError fun e =>
    let text := chainErrorText fmt.debug e
    ⟨s!"observer {who}: {text}"⟩

def lockSecs (i : Bool) : U64 := cond i config.makerLockSecs config.takerLockSecs

/-- The context of party `i`; only the taker has the secret. -/
def swapContext (signers : Bool → Signer) (i : Bool) : SwapContext where
  role := cond i .maker .taker
  myToken := (config.leg i).token
  myAmount := (config.leg i).amount
  myTimelock := saturatingAdd io.now (lockSecs config i)
  myRecipient := (signers !i).address
  cpToken := (config.leg !i).token
  cpAmount := (config.leg !i).amount
  me := (signers i).address
  minGap := config.minGap
  hashlock := some (cr.hashlockOf io.secret)
  secret := cond i none (some io.secret)
  myLegLocked := false
  counterpartyLock := none
  revealedSecret := none
  now := io.now

/-- The order of party `i` is as long valid as its leg is locked. -/
def settlementLock (i : Bool) : SettlementLockConfig where
  settlement := (config.leg i).settlement
  sign order := (signDigest sk (config.leg i).keyBytes (OrderLib.hash cr order)).getD []
  sellChainId := (config.leg i).chainId
  buyToken := (config.leg !i).token
  buyChainId := (config.leg !i).chainId
  buyAmount := (config.leg !i).amount
  validUntil := saturatingAdd io.now (lockSecs config i)
  nonce := (config.leg i).nonce

/-- `own` are the signers on the own chain, `counterparty` those on the other one. -/
def walletExecutor (own counterparty : Bool → Signer)
    (ownObserver counterpartyObserver : CounterpartyObserver) (i : Bool) : Executor :=
  .new
    { state := cond i .start .secretGenerated
      ctx := swapContext cr config io own i
      ownSigner := (own i).address
      counterpartySigner := (counterparty i).address
      ownHtlc := (config.leg i).htlc
      counterpartyHtlc := (config.leg !i).htlc
      ownSettlementLock := some (settlementLock cr sk config io i)
      ownObserver := ownObserver
      counterpartyObserver := counterpartyObserver
      minConfirmations := config.minConfirmations }

/-- `run` up to its loop: the two executors, if all checks pass. -/
def prepare : Except RunnerError (Bool → Executor) := do
  refuseIf (config.taker.chainId = config.maker.chainId)
    ⟨"KAEL_CHAIN_A and KAEL_CHAIN_B must be distinct"⟩
  refuseIf (config.minConfirmations = 0) ⟨"min_confirmations must be >= 1"⟩
  refuseIf (config.takerLockSecs < saturatingAdd config.makerLockSecs config.minGap)
    ⟨"invalid timelocks: taker_lock_secs must be >= maker_lock_secs + min_gap"⟩
  validateHtlcContract fmt "A" config.taker.rpc config.taker.chainId config.taker.htlc
    (io.htlc false)
  validateHtlcContract fmt "B" config.maker.rpc config.maker.chainId config.maker.htlc
    (io.htlc true)
  validateSettlementContract fmt "A" config.taker.rpc config.taker.chainId
    config.taker.settlement config.taker.htlc (io.settlement false)
  validateSettlementContract fmt "B" config.maker.rpc config.maker.chainId
    config.maker.settlement config.maker.htlc (io.settlement true)
  validateTokenContract fmt "A" config.taker.rpc config.taker.chainId config.taker.token
    (io.token false)
  validateTokenContract fmt "B" config.maker.rpc config.maker.chainId config.maker.token
    (io.token true)
  let takerOwn ← connect fmt config io "taker" "A" false false
  let takerCp ← connect fmt config io "taker" "B" false true
  let makerOwn ← connect fmt config io "maker" "B" true true
  let makerCp ← connect fmt config io "maker" "A" true false
  refuseIf (takerOwn.chainId ≠ config.taker.chainId ∨ takerCp.chainId ≠ config.maker.chainId)
    ⟨"taker chain_id does not match configuration"⟩
  refuseIf (makerOwn.chainId ≠ config.maker.chainId ∨ makerCp.chainId ≠ config.taker.chainId)
    ⟨"maker chain_id does not match configuration"⟩
  let own := fun i => cond i makerOwn takerOwn
  let counterparty := fun i => cond i makerCp takerCp
  let takerObserver ← observe fmt config "taker" false
  let takerCpObserver ← observe fmt config "taker/cp" true
  let makerObserver ← observe fmt config "maker" true
  let makerCpObserver ← observe fmt config "maker/cp" false
  return fun i => walletExecutor cr sk config io own counterparty
    (cond i makerObserver takerObserver) (cond i makerCpObserver takerCpObserver) i

end Prepare

/-! ## The loop -/

/-- How the program ends, and what its steps have sent. -/
structure Ran where
  outcome : Fallible RunnerError Unit
  exec : Bool → Executor
  /-- Who has sent what, oldest first. -/
  sent : List (Bool × TxCall)
  /-- The rounds in which both parties have taken their steps. -/
  rounds : Nat

/-- `CounterpartyRedeemed | Done`. -/
def hasRedeemed (state : SwapState) : Bool := state = .counterpartyRedeemed ∨ state = .done

/-- Both executors, after a step of party `i`. -/
def stepped (exec : Bool → Executor) (i : Bool) (t : Stepped) : Bool → Executor :=
  Function.update exec i t.exec

def sentBy (i : Bool) (t : Stepped) : List (Bool × TxCall) := (t.tx.map (i, ·)).toList

/-- A run that goes on after these transactions. -/
def Ran.after (sent : List (Bool × TxCall)) (r : Ran) : Ran := { r with sent := sent ++ r.sent }

section Loop

variable (cr : Crypto) (debug : String → String) (io : Nat → Bool → StepAnswers)

section Round

variable (exec : Bool → Executor) (n : Nat)

/-- The step of the taker in round `n`. -/
def takerStep : Stepped := (exec false).step cr (io n false)

/-- The step of the maker, which comes after it. -/
def makerStep : Stepped := (exec true).step cr (io n true)

/-- Both executors after round `n`. -/
def afterRound : Bool → Executor :=
  stepped (stepped exec false (takerStep cr io exec n)) true (makerStep cr io exec n)

def sentInRound : List (Bool × TxCall) :=
  sentBy false (takerStep cr io exec n) ++ sentBy true (makerStep cr io exec n)

end Round

/-- `left` more rounds, from round `n` on. -/
def swapLoop : Nat → Nat → (Bool → Executor) → Ran
  | 0, n, exec => ⟨.err ⟨"step limit exceeded"⟩, exec, [], n⟩
  | left + 1, n, exec =>
    let t := takerStep cr io exec n
    match t.result with
    | .err e =>
      let text := executorErrorText debug e
      ⟨.err ⟨s!"taker step {n}: {text}"⟩, stepped exec false t, sentBy false t, n⟩
    | .panicked => ⟨.panicked, stepped exec false t, sentBy false t, n⟩
    | .ok _ =>
      let after := afterRound cr io exec n
      let sent := sentInRound cr io exec n
      match (makerStep cr io exec n).result with
      | .err e =>
        let text := executorErrorText debug e
        ⟨.err ⟨s!"maker step {n}: {text}"⟩, after, sent, n⟩
      | .panicked => ⟨.panicked, after, sent, n⟩
      | .ok _ =>
        if hasRedeemed (after false).state ∧ hasRedeemed (after true).state then
          ⟨.ok (), after, sent, n + 1⟩
        else (swapLoop left (n + 1) after).after sent

variable (exec : Bool → Executor) (n : Nat)

/-- Neither step of round `n` fails. -/
def RoundOk : Prop :=
  (∃ outcome, (takerStep cr io exec n).result = .ok outcome) ∧
    ∃ outcome, (makerStep cr io exec n).result = .ok outcome

/-- Both parties have redeemed. -/
def Finished (exec : Bool → Executor) : Prop := ∀ i, hasRedeemed (exec i).state = true

/-- **One round of the loop**: it fails, it is the last one, or the loop goes on. -/
inductive RoundCase (left : Nat) : Ran → Prop
  | takerFails {outcome} (hfails : outcome ≠ .ok ()) (hround : ¬RoundOk cr io exec n) :
    RoundCase left ⟨outcome, stepped exec false (takerStep cr io exec n),
      sentBy false (takerStep cr io exec n), n⟩
  | makerFails {outcome} (hfails : outcome ≠ .ok ()) (hround : ¬RoundOk cr io exec n) :
    RoundCase left ⟨outcome, afterRound cr io exec n, sentInRound cr io exec n, n⟩
  | last (hround : RoundOk cr io exec n) (hfinished : Finished (afterRound cr io exec n)) :
    RoundCase left ⟨.ok (), afterRound cr io exec n, sentInRound cr io exec n, n + 1⟩
  | goesOn (hround : RoundOk cr io exec n) (hfinished : ¬Finished (afterRound cr io exec n)) :
    RoundCase left ((swapLoop cr debug io left (n + 1) (afterRound cr io exec n)).after
      (sentInRound cr io exec n))

theorem swapLoop_cases (left : Nat) :
    RoundCase cr debug io exec n left (swapLoop cr debug io (left + 1) n exec) := by
  unfold swapLoop
  dsimp only
  cases htaker : (takerStep cr io exec n).result with
  | err e => exact .takerFails nofun fun h => by simp [RoundOk, htaker] at h
  | panicked => exact .takerFails nofun fun h => by simp [RoundOk, htaker] at h
  | ok outcome =>
    dsimp only
    cases hmaker : (makerStep cr io exec n).result with
    | err e => exact .makerFails nofun fun h => by simp [RoundOk, hmaker] at h
    | panicked => exact .makerFails nofun fun h => by simp [RoundOk, hmaker] at h
    | ok outcome' =>
      dsimp only
      have hround : RoundOk cr io exec n := ⟨⟨_, htaker⟩, _, hmaker⟩
      split_ifs with hfinished
      · exact .last hround (Bool.forall_bool.mpr hfinished)
      · exact .goesOn hround fun h => hfinished (Bool.forall_bool.mp h)

/-- The executors before round `n`. -/
def execAt : Nat → Bool → Executor
  | 0 => exec
  | n + 1 => afterRound cr io (execAt n) n

/-- **The loop ends well** in the first round that leaves both parties redeemed, if
    no step fails before. -/
theorem swapLoop_ok_iff {exec : Bool → Executor} (left n : Nat) :
    (swapLoop cr debug io left n (execAt cr io exec n)).outcome = .ok () ↔
      ∃ b, n ≤ b ∧ b < n + left ∧
        (∀ k, n ≤ k → k < b → RoundOk cr io (execAt cr io exec k) k ∧
          ¬Finished (execAt cr io exec (k + 1))) ∧
        RoundOk cr io (execAt cr io exec b) b ∧ Finished (execAt cr io exec (b + 1)) := by
  induction left generalizing n with
  | zero =>
    constructor
    · exact nofun
    · rintro ⟨b, hn, hb, -⟩
      exact absurd hb (Nat.not_lt.mpr hn)
  | succ left ih =>
    -- A failure in round `n` is one of the last round or of a round before it.
    have hfailure : ¬RoundOk cr io (execAt cr io exec n) n → ¬∃ b, n ≤ b ∧ b < n + (left + 1) ∧
        (∀ k, n ≤ k → k < b → RoundOk cr io (execAt cr io exec k) k ∧
          ¬Finished (execAt cr io exec (k + 1))) ∧
        RoundOk cr io (execAt cr io exec b) b ∧ Finished (execAt cr io exec (b + 1)) := by
      rintro hnot ⟨b, hn, -, hrounds, hround, -⟩
      rcases Nat.eq_or_lt_of_le hn with rfl | hlt
      · exact hnot hround
      · exact hnot (hrounds n (Nat.le_refl n) hlt).1
    have hcases := swapLoop_cases cr debug io (execAt cr io exec n) n left
    generalize swapLoop cr debug io (left + 1) n (execAt cr io exec n) = ran at hcases ⊢
    cases hcases with
    | takerFails hfails hround => exact iff_of_false hfails (hfailure hround)
    | makerFails hfails hround => exact iff_of_false hfails (hfailure hround)
    | last hround hfinished =>
      refine iff_of_true rfl ⟨n, Nat.le_refl n, by omega, ?_, hround, hfinished⟩
      exact fun k hn hk => absurd hk (Nat.not_lt.mpr hn)
    | goesOn hround hfinished =>
      refine (ih (n + 1)).trans ⟨?_, ?_⟩
      · rintro ⟨b, hn, hb, hrounds, hlast⟩
        refine ⟨b, Nat.le_of_succ_le hn, by omega, fun k hk hkb => ?_, hlast⟩
        rcases Nat.eq_or_lt_of_le hk with rfl | hlt
        · exact ⟨hround, hfinished⟩
        · exact hrounds k hlt hkb
      · rintro ⟨b, hn, hb, hrounds, hlast, hdone⟩
        rcases Nat.eq_or_lt_of_le hn with rfl | hlt
        · exact absurd hdone hfinished
        · exact ⟨b, hlt, by omega, fun k hk hkb => hrounds k (Nat.le_of_succ_le hk) hkb, hlast, hdone⟩

end Loop

/-! ## The program -/

section Program

variable (cr : Crypto) (sk : SigningKeys) (fmt : Formats)

def requireExplicitSendConfirmation (env : Env) : Except RunnerError Unit :=
  let refused : RunnerError := ⟨"set KAEL_CLOSED_TESTNET_SEND_TX=I_UNDERSTAND_THIS_USES_TEST_FUNDS " ++
    "to allow closed-testnet sending"⟩
  match env "KAEL_CLOSED_TESTNET_SEND_TX" with
  | .value v => if v = "I_UNDERSTAND_THIS_USES_TEST_FUNDS" then .ok () else .error refused
  | _ => .error refused

/-- The configuration and the two executors, before anything is sent. -/
def start (env : Env) (random : Bool → U64) (prep : PrepareAnswers) :
    Except RunnerError (SwapConfig × (Bool → Executor)) := do
  requireExplicitSendConfirmation env
  let config ← readConfig env fmt random
  let exec ← prepare cr sk fmt config prep
  return (config, exec)

/-- The program, with the answers to the step of each party in each round: how it
    ends, and what it has sent. -/
def run (env : Env) (random : Bool → U64) (prep : PrepareAnswers)
    (io : Nat → Bool → StepAnswers) : Fallible RunnerError Unit × List (Bool × TxCall) :=
  match start cr sk fmt env random prep with
  | .error e => (.err e, [])
  | .ok (config, exec) =>
    let ran := swapLoop cr fmt.debug io config.maxSteps.toNat 0 exec
    (ran.outcome, ran.sent)

end Program

/-! ## What the checks establish -/

/-- A contract that has been found on the chain of its leg. -/
structure Found (fmt : Formats) (leg : LegConfig) (io : ContractAnswers) : Prop where
  url : fmt.url leg.rpc = .ok ()
  chainId : io.chainId = .ok leg.chainId
  allowed : leg.chainId ∈ allowedTestChains
  code : ∃ b bs, io.code = .ok (b :: bs)

/-- A signer of the key of `leg` on the chain of `host`. -/
structure Connected (fmt : Formats) (leg host : LegConfig) (chainId : Except String U64)
    (signer : Signer) : Prop where
  key : ∃ key, fmt.signer (keyText leg.key) = .ok (key, signer.address)
  url : fmt.url host.rpc = .ok ()
  told : chainId = .ok signer.chainId
  allowed : signer.chainId ∈ allowedTestChains
  chainId : signer.chainId = host.chainId

/-- **What the checks establish** of a configuration. -/
structure Checked (fmt : Formats) (config : SwapConfig) (io : PrepareAnswers)
    (own counterparty : Bool → Signer) : Prop where
  distinct : config.taker.chainId ≠ config.maker.chainId
  minConfirmations : config.minConfirmations ≠ 0
  timelocks : saturatingAdd config.makerLockSecs config.minGap ≤ config.takerLockSecs
  htlc : ∀ i, (config.leg i).htlc ≠ zeroAddress ∧ Found fmt (config.leg i) (io.htlc i)
  settlement : ∀ i, (config.leg i).settlement ≠ zeroAddress ∧
    Found fmt (config.leg i) (io.settlement i) ∧ (io.settlement i).htlc = .ok (config.leg i).htlc
  token : ∀ i, (config.leg i).token = zeroAddress ∨ Found fmt (config.leg i) (io.token i)
  own : ∀ i, Connected fmt (config.leg i) (config.leg i) (io.signer i i) (own i)
  counterparty : ∀ i, Connected fmt (config.leg i) (config.leg !i) (io.signer i !i)
    (counterparty i)

section Checked

variable {cr : Crypto} {sk : SigningKeys} {fmt : Formats} {config : SwapConfig}
  {io : PrepareAnswers} {leg : LegConfig} {name kind what : String} {answers : ContractAnswers}
  {exec : Bool → Executor} {x : Unit}

theorem validateCode_ok {address : Address} :
    validateCode fmt kind what name leg.rpc leg.chainId address answers = .ok x ↔
      Found fmt leg answers := by
  simp only [validateCode, Guards.bind_ok, Guards.mapError_ok, Guards.refuseIf_ok,
    Swapkit.assertChainAllowed_ok, not_not]
  constructor
  · rintro ⟨⟨⟩, hurl, id, hid, ⟨⟩, rfl, ⟨⟩, hallowed, code, hcode, hne⟩
    obtain ⟨b, bs, rfl⟩ := List.exists_cons_of_ne_nil hne
    exact ⟨hurl, hid, hallowed, b, bs, hcode⟩
  · rintro ⟨hurl, hid, hallowed, b, bs, hcode⟩
    exact ⟨(), hurl, _, hid, (), rfl, (), hallowed, _, hcode, by simp⟩

theorem validateHtlcContract_ok {htlc : Address} :
    validateHtlcContract fmt name leg.rpc leg.chainId htlc answers = .ok x ↔
      htlc ≠ zeroAddress ∧ Found fmt leg answers := by
  simp only [validateHtlcContract, Guards.bind_ok, Guards.refuseIf_ok, validateCode_ok]
  constructor
  · rintro ⟨⟨⟩, hvalid⟩
    exact hvalid
  · exact fun hvalid => ⟨(), hvalid⟩

theorem validateSettlementContract_ok {settlement htlc : Address} :
    validateSettlementContract fmt name leg.rpc leg.chainId settlement htlc answers = .ok x ↔
      settlement ≠ zeroAddress ∧ Found fmt leg answers ∧ answers.htlc = .ok htlc := by
  simp only [validateSettlementContract, Guards.bind_ok, Guards.refuseIf_ok, validateCode_ok,
    Guards.mapError_ok, not_not]
  constructor
  · rintro ⟨⟨⟩, hzero, ⟨⟩, hfound, canonical, hcanonical, rfl⟩
    exact ⟨hzero, hfound, hcanonical⟩
  · rintro ⟨hzero, hfound, hcanonical⟩
    exact ⟨(), hzero, (), hfound, _, hcanonical, rfl⟩

theorem validateTokenContract_ok {token : Address} :
    validateTokenContract fmt name leg.rpc leg.chainId token answers = .ok x ↔
      token = zeroAddress ∨ Found fmt leg answers := by
  unfold validateTokenContract
  split_ifs with htoken
  · simp [htoken]
  · simp [htoken, validateCode_ok]

theorem observe_ok {who : String} {j : Bool} {o : CounterpartyObserver} :
    observe fmt config who j = .ok o ↔
      fmt.url (config.leg j).rpc = .ok () ∧ o = .new (config.leg j).chainId := by
  simp only [observe, rpcObserver, Guards.mapError_ok]
  cases fmt.url (config.leg j).rpc with
  | error e => simp [Except.map]
  | ok u => simp [Except.map, eq_comm]

theorem cond_eta {α : Type} (f : Bool → α) : (fun i => cond i (f true) (f false)) = f := by
  funext i
  cases i <;> rfl

theorem connect_ok {who chain : String} {i j : Bool} {signer : Signer} :
    connect fmt config io who chain i j = .ok signer ∧ signer.chainId = (config.leg j).chainId ↔
      Connected fmt (config.leg i) (config.leg j) (io.signer i j) signer := by
  rw [connect, Guards.mapError_ok, Signer.fromKeyStr_ok]
  constructor
  · rintro ⟨⟨hkey, hurl, htold, hallowed⟩, hchain⟩
    exact ⟨hkey, hurl, htold, hallowed, hchain⟩
  · rintro ⟨hkey, hurl, htold, hallowed, hchain⟩
    exact ⟨⟨hkey, hurl, htold, hallowed⟩, hchain⟩

/-- **The checks pass** exactly if everything is as configured. -/
theorem prepare_ok : prepare cr sk fmt config io = .ok exec ↔
    ∃ own counterparty, Checked fmt config io own counterparty ∧
      exec = fun i => walletExecutor cr sk config io own counterparty
        (.new (config.leg i).chainId) (.new (config.leg !i).chainId) i := by
  have htaker : config.taker = config.leg false := rfl
  have hmaker : config.maker = config.leg true := rfl
  simp only [prepare, Guards.bind_ok, Guards.pure_ok, Guards.refuseIf_ok, htaker, hmaker,
    validateHtlcContract_ok, validateSettlementContract_ok, validateTokenContract_ok, observe_ok,
    not_or, not_not, BitVec.not_lt]
  constructor
  · rintro ⟨⟨⟩, hdistinct, ⟨⟩, hconfirmations, ⟨⟩, htimelocks, ⟨⟩, hhtlcA, ⟨⟩, hhtlcB, ⟨⟩,
      hsettlementA, ⟨⟩, hsettlementB, ⟨⟩, htokenA, ⟨⟩, htokenB, takerOwn, htakerOwn, takerCp,
      htakerCp, makerOwn, hmakerOwn, makerCp, hmakerCp, ⟨⟩, ⟨htakerOwnId, htakerCpId⟩, ⟨⟩,
      ⟨hmakerOwnId, hmakerCpId⟩, o₁, ⟨-, rfl⟩, o₂, ⟨-, rfl⟩, o₃, ⟨-, rfl⟩, o₄, ⟨-, rfl⟩, rfl⟩
    refine ⟨fun i => cond i makerOwn takerOwn, fun i => cond i makerCp takerCp, ⟨hdistinct,
      hconfirmations, htimelocks, Bool.forall_bool.mpr ⟨hhtlcA, hhtlcB⟩,
      Bool.forall_bool.mpr ⟨hsettlementA, hsettlementB⟩, Bool.forall_bool.mpr ⟨htokenA, htokenB⟩,
      Bool.forall_bool.mpr ⟨connect_ok.mp ⟨htakerOwn, htakerOwnId⟩,
        connect_ok.mp ⟨hmakerOwn, hmakerOwnId⟩⟩,
      Bool.forall_bool.mpr ⟨connect_ok.mp ⟨htakerCp, htakerCpId⟩,
        connect_ok.mp ⟨hmakerCp, hmakerCpId⟩⟩⟩, ?_⟩
    funext i
    cases i <;> rfl
  · rintro ⟨own, counterparty, hc, rfl⟩
    -- The program makes both signers of the taker first, then those of the maker.
    obtain ⟨htakerOwn, htakerOwnId⟩ := (@connect_ok fmt config io "taker" "A" _ _ _).mpr (hc.own false)
    obtain ⟨hmakerOwn, hmakerOwnId⟩ := (@connect_ok fmt config io "maker" "B" _ _ _).mpr (hc.own true)
    obtain ⟨htakerCp, htakerCpId⟩ :=
      (@connect_ok fmt config io "taker" "B" _ _ _).mpr (hc.counterparty false)
    obtain ⟨hmakerCp, hmakerCpId⟩ :=
      (@connect_ok fmt config io "maker" "A" _ _ _).mpr (hc.counterparty true)
    refine ⟨(), hc.distinct, (), hc.minConfirmations, (), hc.timelocks, (), hc.htlc false, (),
      hc.htlc true, (), hc.settlement false, (), hc.settlement true, (), hc.token false, (),
      hc.token true, _, htakerOwn, _, htakerCp, _, hmakerOwn, _, hmakerCp, (),
      ⟨htakerOwnId, htakerCpId⟩, (), ⟨hmakerOwnId, hmakerCpId⟩, _, ⟨(hc.own false).url, rfl⟩, _,
      ⟨(hc.own true).url, rfl⟩, _, ⟨(hc.own true).url, rfl⟩, _, ⟨(hc.own false).url, rfl⟩, ?_⟩
    funext i
    rw [cond_eta own, cond_eta counterparty]
    cases i <;> rfl

end Checked

/-! ## What the program sends -/

section Sends

variable {cr : Crypto} {h : Bytes32} {debug : String → String} {io : Nat → Bool → StepAnswers}
  {exec origin : Bool → Executor}

/-- The two executors, on their way from `origin`. -/
def Underway (cr : Crypto) (h : Bytes32) (origin exec : Bool → Executor) : Prop :=
  ∀ i, (exec i).SetUp cr h ∧ (exec i).base = (origin i).base

/-- A step of one party. -/
theorem Underway.stepped (hunderway : Underway cr h origin exec) (i : Bool) (answers : StepAnswers) :
    Underway cr h origin (stepped exec i ((exec i).step cr answers)) ∧
      ∀ x ∈ sentBy i ((exec i).step cr answers), (origin x.1).MaySend cr h x.2 := by
  obtain ⟨hup, hbase⟩ := hunderway i
  obtain ⟨hup', hbase', hsends⟩ := hup.step answers
  constructor
  · intro j
    rcases eq_or_ne j i with rfl | hne
    · rw [ClosedTestnet.stepped, Function.update_self]
      exact ⟨hup', hbase'.trans hbase⟩
    · rw [ClosedTestnet.stepped, Function.update_of_ne hne]
      exact hunderway j
  · intro x hx
    rw [sentBy, Option.mem_toList, Option.map_eq_some_iff] at hx
    obtain ⟨call, hcall, rfl⟩ := hx
    exact (hsends call hcall).of_base hbase

theorem Underway.afterRound {n : Nat} (hunderway : Underway cr h origin exec) :
    Underway cr h origin (afterRound cr io exec n) ∧
      (∀ x ∈ sentBy false (takerStep cr io exec n), (origin x.1).MaySend cr h x.2) ∧
      ∀ x ∈ sentInRound cr io exec n, (origin x.1).MaySend cr h x.2 := by
  obtain ⟨htaker, hsentTaker⟩ := hunderway.stepped false (io n false)
  obtain ⟨hmaker, hsentMaker⟩ := htaker.stepped true (io n true)
  -- The taker's step has not touched the maker.
  have hother : ClosedTestnet.stepped exec false ((exec false).step cr (io n false)) true =
      exec true := Function.update_of_ne (by decide) _ _
  rw [hother] at hmaker hsentMaker
  refine ⟨hmaker, hsentTaker, fun x hx => ?_⟩
  rcases List.mem_append.mp hx with hx | hx
  · exact hsentTaker x hx
  · exact hsentMaker x hx

/-- Round by round, the loop sends what the parties may. -/
theorem swapLoop_sends {left : Nat} : ∀ {n : Nat} {exec : Bool → Executor},
    Underway cr h origin exec →
    ∀ x ∈ (swapLoop cr debug io left n exec).sent, (origin x.1).MaySend cr h x.2 := by
  induction left with
  | zero =>
    intro n exec _ x hx
    cases hx
  | succ left ih =>
    intro n exec hunderway x hx
    obtain ⟨hafter, htaker, hround⟩ := @Underway.afterRound cr h io exec origin n hunderway
    have hcases := swapLoop_cases cr debug io exec n left
    generalize swapLoop cr debug io (left + 1) n exec = ran at hcases hx
    -- However the round ends, it has sent no more than its two steps.
    cases hcases with
    | takerFails hfails hnot => exact htaker x hx
    | makerFails hfails hnot => exact hround x hx
    | last hok hfinished => exact hround x hx
    | goesOn hok hfinished =>
      rcases List.mem_append.mp hx with hx | hx
      · exact hround x hx
      · exact ih hafter x hx

end Sends

section Program

variable {cr : Crypto} {sk : SigningKeys} {fmt : Formats} {env : Env} {random : Bool → U64}
  {prep : PrepareAnswers} {io : Nat → Bool → StepAnswers} {config : SwapConfig}
  {exec : Bool → Executor}

theorem start_ok : start cr sk fmt env random prep = .ok (config, exec) ↔
    env "KAEL_CLOSED_TESTNET_SEND_TX" = .value "I_UNDERSTAND_THIS_USES_TEST_FUNDS" ∧
      readConfig env fmt random = .ok config ∧ prepare cr sk fmt config prep = .ok exec := by
  have hconfirmed : requireExplicitSendConfirmation env = .ok () ↔
      env "KAEL_CLOSED_TESTNET_SEND_TX" = .value "I_UNDERSTAND_THIS_USES_TEST_FUNDS" := by
    unfold requireExplicitSendConfirmation
    cases env "KAEL_CLOSED_TESTNET_SEND_TX" with
    | value v =>
      dsimp only
      rw [Var.value.injEq]
      split_ifs with h
      · exact ⟨fun _ => h, fun _ => rfl⟩
      · exact ⟨nofun, fun h' => absurd h' h⟩
    | notPresent => exact ⟨nofun, nofun⟩
    | notUnicode e => exact ⟨nofun, nofun⟩
  simp only [start, Guards.bind_ok, Guards.pure_ok, Prod.mk.injEq]
  constructor
  · rintro ⟨⟨⟩, hsend, config', hread, exec', hprepare, rfl, rfl⟩
    exact ⟨hconfirmed.mp hsend, hread, hprepare⟩
  · rintro ⟨hsend, hread, hprepare⟩
    exact ⟨(), hconfirmed.mpr hsend, config, hread, exec, hprepare, rfl, rfl⟩

/-- The executors that the program makes are set up for the hash of its secret. -/
theorem walletExecutor_setUp {own counterparty : Bool → Signer}
    {ownObserver counterpartyObserver : CounterpartyObserver} {chainId : U64}
    (hobserver : ownObserver = .new chainId) (i : Bool) :
    (walletExecutor cr sk config prep own counterparty ownObserver counterpartyObserver i).SetUp cr
      (cr.hashlockOf prep.secret) := by
  have hstarted : (walletExecutor cr sk config prep own counterparty ownObserver
      counterpartyObserver i).Started cr := by
    refine ⟨rfl, ?_⟩
    cases i with
    | false => exact .inl ⟨rfl, .inr rfl, prep.secret, rfl, rfl⟩
    | true => exact .inr ⟨rfl, rfl, rfl⟩
  refine hstarted.setUp rfl ?_ nofun ?_
  · subst hobserver
    exact Maestro.SwapTracker.Genuine.new
  · intro p hp
    cases i with
    | false => cases hp; rfl
    | true => cases hp

/-- **What the program sends**: nothing before it is told to and all checks have
    passed, which leave two test chains; and then, whatever endpoints, clock and
    transactions answer, each party's lock of its configured leg, redeems with
    preimages of one hashlock, and refunds of that lock. -/
theorem run_sends_as_configured {x : Bool × TxCall}
    (hsent : x ∈ (run cr sk fmt env random prep io).2) :
    env "KAEL_CLOSED_TESTNET_SEND_TX" = .value "I_UNDERSTAND_THIS_USES_TEST_FUNDS" ∧
    ∃ config own counterparty, readConfig env fmt random = .ok config ∧
      Checked fmt config prep own counterparty ∧
      (∀ i, (config.leg i).chainId ∈ allowedTestChains ∧ (config.leg i).amount ≠ 0) ∧
      (walletExecutor cr sk config prep own counterparty (.new (config.leg x.1).chainId)
        (.new (config.leg !x.1).chainId) x.1).MaySend cr (cr.hashlockOf prep.secret) x.2 := by
  unfold run at hsent
  cases hstart : start cr sk fmt env random prep with
  | error e =>
    rw [hstart] at hsent
    cases hsent
  | ok started =>
    rw [hstart] at hsent
    obtain ⟨config, exec⟩ := started
    obtain ⟨hconfirmed, hread, hprepare⟩ := start_ok.mp hstart
    obtain ⟨own, counterparty, hchecked, hexec⟩ := prepare_ok.mp hprepare
    obtain ⟨-, -, ⟨htaker, -⟩, hmaker, -⟩ := readConfig_amounts hread
    have hunderway : Underway cr (cr.hashlockOf prep.secret) exec exec := by
      intro i
      rw [hexec]
      exact ⟨walletExecutor_setUp rfl i, rfl⟩
    have hsends := swapLoop_sends hunderway x hsent
    rw [hexec] at hsends
    refine ⟨hconfirmed, config, own, counterparty, hread, hchecked, fun i =>
      ⟨(hchecked.htlc i).2.allowed, ?_⟩, hsends⟩
    cases i with
    | false => exact htaker
    | true => exact hmaker

end Program

namespace Sample

open Exchange.Sample (Signed deployment domainSeparator lockWords longLock maker rival)
open HashedTimelock.Sample (hashlock preimage)

/-- Sells the 7 wei of `rival` as long as they are locked. -/
def takerOrder : Signed where
  order := ⟨rival, zeroAddress, 31337, 7, zeroAddress, 31338, 5, 2000, 1⟩
  structHash := 0x4542dc43dacbee7ec344b308fcbc34fbb2521e5d1c9fdb844b1b798899538f18
  digest := 0x2404d354776e453362d226bcc7dce4f302b942f0ecf1f30cb8673d0563b22495
  r := 0x18e1ad19b2c587ba02bb2d0ce6cb3df16dabca513848d36bd2291fe365bb16ef
  s := 0x110bd5434cbec8d8c5df7fbade2c70c7eb21f8706891aa38eb3f0a393706a2ef
  v := 28

/-- The hashes of the secret, of the order and of its lock. -/
def crypto : Crypto := .ofTables
  ([(lockWords deployment.settlement longLock,
      0x83f73428e551396ad710e9f147eda050a2d92c2289d4e942a35d4b7942b62bf6)] ++ takerOrder.hashes ++
    [(abiEncode
        [0xb03948446334eb9b2196d5eb166f69b9d49403eb4a12f36de8d3f9f3cb8e15c3,
          0xd699c44124502d280929a94c15db1397d2eaee89c24cd9f780bad1191a22ad62,
          0xc89efdaa54c0f20c7adf612882df0950f5a951637e0307cdcb4c672f298b8bc6], domainSeparator),
      (asciiBytes "Kael", 0xd699c44124502d280929a94c15db1397d2eaee89c24cd9f780bad1191a22ad62),
      (asciiBytes "1", 0xc89efdaa54c0f20c7adf612882df0950f5a951637e0307cdcb4c672f298b8bc6),
      (asciiBytes "EIP712Domain(string name,string version)",
        0xb03948446334eb9b2196d5eb166f69b9d49403eb4a12f36de8d3f9f3cb8e15c3),
      (asciiBytes ("Order(address maker,address sellToken,uint256 sellChainId," ++
        "uint256 sellAmount,address buyToken,uint256 buyChainId,uint256 buyAmount," ++
        "uint256 validUntil,uint256 nonce)"), Exchange.Sample.orderTypehash)])
  [(wordBytes preimage, hashlock)] []

/-- The key of `rival`. -/
def signingKeys : SigningKeys where
  verifyingKey x := if x = 2 then some
    ([4] ++ wordBytes 0xc6047f9441ed7d6d3045406e95c07cd85c778e4b8cef3ca7abac09b95c709ee5 ++
      wordBytes 0x1ae168fea63dc339a3c58419466ceaeef7f632653266d0e1236431a950cfe52a) else none
  signPrehash x dig :=
    if x = 2 ∧ dig = takerOrder.digest then some ((takerOrder.r, takerOrder.s), 1) else none

def takerKey : String := "0000000000000000000000000000000000000000000000000000000000000002"

def makerKey : String := "0000000000000000000000000000000000000000000000000000000000000001"

def settings : List (String × String) :=
  [("KAEL_CLOSED_TESTNET_SEND_TX", "I_UNDERSTAND_THIS_USES_TEST_FUNDS"),
    ("KAEL_AMOUNT_A_WEI", "7"), ("KAEL_AMOUNT_B_WEI", "5"),
    ("KAEL_RPC_A", "http://a"), ("KAEL_RPC_B", "http://b"),
    ("KAEL_CHAIN_A", "31337"), ("KAEL_CHAIN_B", "31338"),
    ("KAEL_HTLC_A", "0x00000000000000000000000000000000000000c0"),
    ("KAEL_HTLC_B", "0x00000000000000000000000000000000000000c0"),
    ("KAEL_SETTLEMENT_A", "0x000000000000000000000000000000000000005e"),
    ("KAEL_SETTLEMENT_B", "0x000000000000000000000000000000000000005e"),
    ("KAEL_SIGNER_KEY_A", takerKey), ("KAEL_SIGNER_KEY_B", makerKey),
    ("KAEL_TAKER_LOCK_SECS", "1990"), ("KAEL_MAKER_LOCK_SECS", "990"),
    ("KAEL_MIN_GAP_SECS", "200"), ("KAEL_CLOSED_TESTNET_MAX_STEPS", "1")]

def env (name : String) : Var :=
  match settings.lookup name with
  | some v => .value v
  | none => .notPresent

def formats : Formats where
  address s := (Orderbook.parseAddr s "address").mapError Orderbook.DtoError.debug
  showAddress a := "0x" ++ String.ofList (Text.hexEncode (BigEndian.bytes 20 a))
  signer s := if s = takerKey then .ok (2, rival) else if s = makerKey then .ok (1, maker)
    else .error "invalid key"
  url _ := .ok ()
  hexError _ := "Invalid string length"
  debug s := s

def chainId (i : Bool) : U64 := cond i 31338 31337

/-- Both chains have both contracts. -/
def prep : PrepareAnswers where
  htlc i := ⟨.ok (chainId i), .ok [0x60], .error ""⟩
  settlement i := ⟨.ok (chainId i), .ok [0x60], .ok deployment.htlc⟩
  token i := ⟨.ok (chainId i), .ok [], .error ""⟩
  signer _ j := .ok (chainId j)
  now := 10
  secret := preimage

/-- A round in which nothing has been mined. -/
def io (_ : Nat) (_ : Bool) : StepAnswers :=
  ⟨Swapkit.Sample.noLogs 10, Swapkit.Sample.noLogs 11, Swapkit.Sample.mined, 0⟩

end Sample

/-- One round for 7 wei against 5 wei, in which the taker locks. -/
theorem run_sends_as_configured_of_ether :
    ∃ x ∈ (run Sample.crypto Sample.signingKeys Sample.formats Sample.env (fun _ => 1) Sample.prep
        Sample.io).2,
      ∃ config own counterparty,
        Checked Sample.formats config Sample.prep own counterparty ∧
        (walletExecutor Sample.crypto Sample.signingKeys config Sample.prep own counterparty
          (.new (config.leg x.1).chainId) (.new (config.leg !x.1).chainId) x.1).MaySend
          Sample.crypto (Sample.crypto.hashlockOf HashedTimelock.Sample.preimage) x.2 := by
  obtain ⟨x, hsent⟩ : ∃ x, x ∈ (run Sample.crypto Sample.signingKeys Sample.formats Sample.env
      (fun _ => 1) Sample.prep Sample.io).2 :=
    List.exists_mem_of_length_pos (by decide +kernel)
  obtain ⟨-, config, own, counterparty, -, hchecked, -, hmay⟩ := run_sends_as_configured hsent
  exact ⟨x, hsent, config, own, counterparty, hchecked, hmay⟩

end Kael.ClosedTestnet
