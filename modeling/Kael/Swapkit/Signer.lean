import Kael.Contracts.Evm
import Kael.Lib.Text

/-!
# The Signer's Guard

`exec/signer.rs`: a signer is a key on a chain. It is only made on a chain of a
fixed list of test chains, as the endpoint tells the chain's id.
-/

namespace Kael.Swapkit

/-- The chains on which a signer is made. -/
def allowedTestChains : List U64 :=
  [31337, 31338, 1337, 11155111, 17000, 11155420, 84532, 421614, 80002]

inductive SignerError where
  | missingKey
  | badKey (e : String)
  | badUrl (e : String)
  | rpc (e : String)
  | mainnetForbidden (chainId : U64)
deriving DecidableEq

def SignerError.display : SignerError → String
  | .missingKey => "variable KAEL_SIGNER_KEY is not set"
  | .badKey e => s!"invalid key: {e}"
  | .badUrl e => s!"invalid RPC URL: {e}"
  | .rpc e => s!"failed to query chain-id: {e}"
  | .mainnetForbidden chainId =>
    let id := chainId.toNat
    s!"REFUSED: chain-id {id} is outside the test allowlist: " ++
      "the executor does not sign where real value could be touched"

/-- The provider is known by its answers. -/
structure Signer where
  address : Address
  chainId : U64
deriving DecidableEq

def assertChainAllowed (chainId : U64) : Except SignerError Unit :=
  if chainId ∈ allowedTestChains then .ok () else .error (.mainnetForbidden chainId)

@[simp] theorem assertChainAllowed_ok {chainId : U64} {x : Unit} :
    assertChainAllowed chainId = .ok x ↔ chainId ∈ allowedTestChains := by
  unfold assertChainAllowed
  split_ifs with h <;> simp [h]

/-- The text of a key, trimmed and without one `0x`. -/
def keyText (v : String) : String :=
  match Text.trim v.toList with
  | '0' :: 'x' :: cs => String.ofList cs
  | cs => String.ofList cs

/-- `parseKey` is `PrivateKeySigner::from_str`, `chainId` what the endpoint tells. -/
def Signer.fromKeyStr (parseKey : String → Except String (Bytes32 × Address))
    (parseUrl : String → Except String Unit) (keyHex rpcUrl : String)
    (chainId : Except String U64) : Except SignerError Signer := do
  let signer ← (parseKey (keyText keyHex)).mapError .badKey
  (parseUrl rpcUrl).mapError .badUrl
  let chainId ← chainId.mapError .rpc
  assertChainAllowed chainId
  return ⟨signer.2, chainId⟩

/-- **A signer is on a test chain**, the one that its endpoint tells. -/
theorem Signer.fromKeyStr_ok {parseKey : String → Except String (Bytes32 × Address)}
    {parseUrl : String → Except String Unit} {keyHex rpcUrl : String}
    {chainId : Except String U64} {signer : Signer} :
    fromKeyStr parseKey parseUrl keyHex rpcUrl chainId = .ok signer ↔
      (∃ key, parseKey (keyText keyHex) = .ok (key, signer.address)) ∧
      parseUrl rpcUrl = .ok () ∧ chainId = .ok signer.chainId ∧
      signer.chainId ∈ allowedTestChains := by
  simp only [fromKeyStr, Guards.bind_ok, Guards.mapError_ok, Guards.pure_ok, assertChainAllowed_ok]
  constructor
  · rintro ⟨⟨key, address⟩, hkey, ⟨⟩, hurl, id, hid, ⟨⟩, hallowed, rfl⟩
    exact ⟨⟨key, hkey⟩, hurl, hid, hallowed⟩
  · rintro ⟨⟨key, hkey⟩, hurl, hid, hallowed⟩
    exact ⟨_, hkey, (), hurl, _, hid, (), hallowed, rfl⟩

end Kael.Swapkit
