import Kael.Swapkit.Signer

/-!
# The Configuration of a Closed Testnet Swap

`closed-testnet-swap.rs`, `read_config`: the two legs and the parameters of a
swap are read from environment variables. Each error names its variable; a
configuration that is read has amounts within its bound (`readConfig_amounts`),
and what is not set has its documented default.
-/

namespace Kael.ClosedTestnet

open Guards (refuseIf)
open Swapkit (keyText)
open Text (decimalDigit dropPlus hexDecode)

structure RunnerError where
  message : String
deriving DecidableEq

/-- `std::env::var`. -/
inductive Var where
  | value (v : String)
  | notPresent
  | notUnicode (e : String)

abbrev Env := String → Var

/-- What is used of other crates to read and to write values. -/
structure Formats where
  /-- An address in hexadecimal. -/
  address : String → Except String Address
  showAddress : Address → String
  /-- `PrivateKeySigner::from_str`: the private key and its address. -/
  signer : String → Except String (Bytes32 × Address)
  /-- The URL of an endpoint. -/
  url : String → Except String Unit
  /-- What `hex::decode` says of a text that it does not decode. -/
  hexError : List Char → String
  /-- `{:?}` of a text. -/
  debug : String → String

/-! ## Numbers -/

inductive ParseIntError where
  | empty
  | invalidDigit
  | posOverflow
deriving DecidableEq

def ParseIntError.display : ParseIntError → String
  | .empty => "cannot parse integer from empty string"
  | .invalidDigit => "invalid digit found in string"
  | .posOverflow => "number too large to fit in target type"

/-- The digits after `acc`; a character that is no digit is found before an
    overflow by it. -/
def parseIntDigits (bound : Nat) : Nat → List Char → Except ParseIntError Nat
  | acc, [] => .ok acc
  | acc, c :: cs =>
    match decimalDigit c with
    | none => .error .invalidDigit
    | some d =>
      if 10 * acc + d < bound then parseIntDigits bound (10 * acc + d) cs
      else .error .posOverflow

/-- `str::parse` for an unsigned integer of `w` bits. -/
def parseUint (w : Nat) (v : String) : Except String (BitVec w) :=
  let parsed : Except ParseIntError Nat :=
    match v.toList with
    | [] => .error .empty
    | cs =>
      match dropPlus cs with
      | [] => .error .invalidDigit
      | digits => parseIntDigits (2 ^ w) 0 digits
  (parsed.map (BitVec.ofNat w)).mapError ParseIntError.display

/-! ## Variables -/

section Variables

variable (env : Env)

def envRequired (name : String) : Except RunnerError String :=
  match env name with
  | .value v => .ok v
  | _ => .error ⟨s!"missing required variable: {name}"⟩

/-- `{name} is invalid: {e}`. -/
def invalid (name e : String) : RunnerError := ⟨s!"{name} is invalid: {e}"⟩

/-- A variable that must be set, and is parsed. -/
def envParsed {α : Type} (parse : String → Except String α) (name : String) :
    Except RunnerError α := do
  let v ← envRequired env name
  (parse v).mapError (invalid name)

/-- A variable that need not be set. -/
def envOptional {α : Type} (parse : String → Except String α) (name : String) :
    Except RunnerError (Option α) :=
  match env name with
  | .value v => ((parse v).map some).mapError (invalid name)
  | .notPresent => .ok none
  | .notUnicode e => .error (invalid name e)

def envU64Required (name : String) : Except RunnerError U64 := envParsed env (parseUint 64) name

def envU64 (name : String) : Except RunnerError (Option U64) := envOptional env (parseUint 64) name

def envU128 (name : String) : Except RunnerError (Option U128) :=
  envOptional env (parseUint 128) name

variable (fmt : Formats)

def envAddress (name : String) : Except RunnerError Address := envParsed env fmt.address name

/-- The zero address stands for ETH. -/
def envOptionalAddress (name : String) : Except RunnerError Address := do
  let address ← envOptional env fmt.address name
  return address.getD zeroAddress

def envPrivateKey (name : String) : Except RunnerError Bytes32 := do
  let raw ← envRequired env name
  match hexDecode (keyText raw).toList with
  | none => .error (invalid name (fmt.hexError (keyText raw).toList))
  | some bytes =>
    let length := bytes.length
    if length ≠ 32 then .error (invalid name s!"expected 32 bytes, got {length}")
    else return bytesWord bytes

end Variables

/-! ## The configuration -/

structure LegConfig where
  rpc : String
  chainId : U64
  htlc : Address
  settlement : Address
  token : Address
  key : String
  keyBytes : Bytes32
  amount : U128
  nonce : U64

structure SwapConfig where
  taker : LegConfig
  maker : LegConfig
  takerLockSecs : U64
  makerLockSecs : U64
  minGap : U64
  minConfirmations : U64
  maxSteps : U64
  pollSecs : U64

section Config

variable (env : Env) (fmt : Formats)

/-- The leg on chain `name`; without a nonce it is `random`. -/
def readLeg (name : String) (amount : U128) (random : U64) : Except RunnerError LegConfig := do
  let rpc ← envRequired env s!"KAEL_RPC_{name}"
  let chainId ← envU64Required env s!"KAEL_CHAIN_{name}"
  let htlc ← envAddress env fmt s!"KAEL_HTLC_{name}"
  let settlement ← envAddress env fmt s!"KAEL_SETTLEMENT_{name}"
  let token ← envOptionalAddress env fmt s!"KAEL_TOKEN_{name}"
  let key ← envRequired env s!"KAEL_SIGNER_KEY_{name}"
  let keyBytes ← envPrivateKey env fmt s!"KAEL_SIGNER_KEY_{name}"
  let nonce ← envU64 env s!"KAEL_NONCE_{name}"
  return ⟨rpc, chainId, htlc, settlement, token, key, keyBytes, amount, nonce.getD random⟩

/-- `random` are the two calls of `random_nonce`. -/
def readConfig (random : Bool → U64) : Except RunnerError SwapConfig := do
  let bound ← envU128 env "KAEL_CLOSED_TESTNET_MAX_AMOUNT_WEI"
  let maxAmount := bound.getD 10000000000000000
  let takerAmount ← envParsed env (parseUint 128) "KAEL_AMOUNT_A_WEI"
  let makerAmount ← envParsed env (parseUint 128) "KAEL_AMOUNT_B_WEI"
  refuseIf (takerAmount = 0 ∨ makerAmount = 0)
    ⟨"KAEL_AMOUNT_A_WEI and KAEL_AMOUNT_B_WEI must be greater than zero"⟩
  let most := maxAmount.toNat
  refuseIf (maxAmount < takerAmount ∨ maxAmount < makerAmount)
    ⟨s!"amount exceeds KAEL_CLOSED_TESTNET_MAX_AMOUNT_WEI ({most})"⟩
  let taker ← readLeg env fmt "A" takerAmount (random false)
  let maker ← readLeg env fmt "B" makerAmount (random true)
  let takerLockSecs ← envU64 env "KAEL_TAKER_LOCK_SECS"
  let makerLockSecs ← envU64 env "KAEL_MAKER_LOCK_SECS"
  let minGap ← envU64 env "KAEL_MIN_GAP_SECS"
  let minConfirmations ← envU64 env "KAEL_CLOSED_TESTNET_MIN_CONFIRMATIONS"
  let maxSteps ← envU64 env "KAEL_CLOSED_TESTNET_MAX_STEPS"
  let pollSecs ← envU64 env "KAEL_CLOSED_TESTNET_POLL_SECS"
  return ⟨taker, maker, takerLockSecs.getD 7200, makerLockSecs.getD 3600, minGap.getD 1800,
    minConfirmations.getD 3, maxSteps.getD 120, pollSecs.getD 12⟩

end Config

/-! ## What is read -/

section Read

variable {env : Env} {fmt : Formats} {name : String} {leg : LegConfig} {config : SwapConfig}
  {amount bound : U128} {random : U64} {randoms : Bool → U64}

theorem envPrivateKey_ok {key : Bytes32} (h : envPrivateKey env fmt name = .ok key) :
    ∃ raw bytes, envRequired env name = .ok raw ∧ hexDecode (keyText raw).toList = some bytes ∧
      bytes.length = 32 ∧ key = bytesWord bytes := by
  obtain ⟨raw, hraw, hdecoded⟩ := Guards.bind_ok.mp h
  cases hbytes : hexDecode (keyText raw).toList with
  | none =>
    rw [hbytes] at hdecoded
    cases hdecoded
  | some bytes =>
    simp only [hbytes] at hdecoded
    split_ifs at hdecoded with hlength
    exact ⟨raw, bytes, hraw, hbytes, not_not.mp hlength, (Guards.pure_ok.mp hdecoded).symm⟩

/-- The signer's key and the key that signs orders are of one text. -/
theorem readLeg_ok (h : readLeg env fmt name amount random = .ok leg) :
    leg.amount = amount ∧ ∃ bytes, hexDecode (keyText leg.key).toList = some bytes ∧
      bytes.length = 32 ∧ leg.keyBytes = bytesWord bytes := by
  simp only [readLeg, Guards.bind_ok, Guards.pure_ok] at h
  obtain ⟨rpc, -, chainId, -, htlc, -, settlement, -, token, -, key, hkey, keyBytes, hbytes, nonce, -,
    rfl⟩ := h
  obtain ⟨raw, bytes, hraw, hdecoded, hlength, hword⟩ := envPrivateKey_ok hbytes
  cases hkey.symm.trans hraw
  exact ⟨rfl, bytes, hdecoded, hlength, hword⟩

/-- **The amounts of a configuration** are positive and within its bound. -/
theorem readConfig_amounts (h : readConfig env fmt randoms = .ok config) :
    ∃ bound, envU128 env "KAEL_CLOSED_TESTNET_MAX_AMOUNT_WEI" = .ok bound ∧
      (config.taker.amount ≠ 0 ∧ config.taker.amount ≤ bound.getD 10000000000000000) ∧
      config.maker.amount ≠ 0 ∧ config.maker.amount ≤ bound.getD 10000000000000000 := by
  simp only [readConfig, Guards.bind_ok, Guards.pure_ok, Guards.refuseIf_ok, not_or,
    BitVec.not_lt] at h
  obtain ⟨bound, hbound, takerAmount, -, makerAmount, -, -, ⟨htaker, hmaker⟩, -,
    ⟨htakerLe, hmakerLe⟩, taker, hreadTaker, maker, hreadMaker, -, -, -, -, -, -, -, -, -, -, -, -,
    rfl⟩ := h
  rw [(readLeg_ok hreadTaker).1, (readLeg_ok hreadMaker).1]
  exact ⟨bound, hbound, ⟨htaker, htakerLe⟩, hmaker, hmakerLe⟩

end Read

end Kael.ClosedTestnet
