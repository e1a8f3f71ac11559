import ProofGate.Member

/-!
# Settings

The chains that the gate knows, where their nodes and verifying contracts are, and the digest of
the wrapping circuit. Settings come from an environment of named texts; an entry that is absent,
empty or zero says nothing.
-/

namespace ProofGate

structure Settings where
  endpoints : List (Int × Value)
  verifiers : List (Int × Value)
  anyVerifier : Value
  circuit : Value
deriving Repr

namespace Settings

def mainChain : Int := 1
def sepolia : Int := 11155111
def holesky : Int := 17000
def base : Int := 8453
def baseSepolia : Int := 84532

def chains : List Int :=
  [mainChain, sepolia, holesky, base, baseSepolia]

/-- All chains, and nothing set for them. -/
def blank : Settings :=
  { endpoints := chains.map fun c => (c, .null)
    verifiers := chains.map fun c => (c, .null)
    anyVerifier := .null
    circuit := .null }

/-- Sets the entry of a chain, which may be a new one. -/
def put (entries : List (Int × Value)) (chain : Int) (entry : Value) : List (Int × Value) :=
  if entries.any (·.1 == chain) then
    entries.map fun e => if e.1 == chain then (chain, entry) else e
  else entries ++ [(chain, entry)]

def endpointVariable (chain : Int) : String :=
  if chain = mainChain then "ETHEREUM_MAINNET_RPC_URL"
  else if chain = sepolia then "SEPOLIA_RPC_URL"
  else if chain = holesky then "HOLESKY_RPC_URL"
  else if chain = base then "BASE_MAINNET_RPC_URL"
  else "BASE_SEPOLIA_RPC_URL"

def verifierVariable (chain : Int) : String :=
  "LPN_VERIFIER_ADDRESS_" ++ Numeral.ofInt chain

/-- The names of all texts that settings are made from. -/
def variableNames : List String :=
  chains.map endpointVariable ++ chains.map verifierVariable
    ++ ["LPN_VERIFIER_ADDRESS", "LPN_CIRCUIT_DIGEST"]

def ofEnvironment (environment : String → Option Text) : Settings :=
  let entry (name : String) : Value := ((environment name).map Value.text).getD .null
  { endpoints := chains.map fun c => (c, entry (endpointVariable c))
    verifiers := chains.map fun c => (c, entry (verifierVariable c))
    anyVerifier := entry "LPN_VERIFIER_ADDRESS"
    circuit := entry "LPN_CIRCUIT_DIGEST" }

/-- The first of two entries that says anything, else the second. -/
def either (v w : Value) : Value :=
  if v.isPresent then v else w

/-! ## Use -/

/-- The address of a chain's node. -/
def endpoint (s : Settings) (chain : Value) : Except Failure Value := do
  let n ← Member.wholeNumber .decimal chain
  match s.endpoints.lookup n with
  | none => throw (.chainUnknown n)
  | some url => if url.isPresent then pure url else throw (.endpointUnset n)

/-- The verifying contract of a chain, or the one for any chain. -/
def verifier (s : Settings) (chain : Value) : Except Failure Value := do
  let n ← Member.wholeNumber .decimal chain
  let address := either ((s.verifiers.lookup n).getD .null) s.anyVerifier
  if address.isPresent then pure address else throw (.verifierUnset chain)

/-- The digest of the wrapping circuit: the one given, or else the one set. -/
def circuitDigest (s : Settings) (given : Value) : Except Failure Int :=
  let value := either given s.circuit
  if value.isPresent then
    let base := match value with
      | .text _ => Literal.Base.detected
      | _ => .decimal
    match Member.wholeNumber base value with
    | .ok n => .ok n
    | .error e => .error (if e.isA .value then .badDigest value e else e)
  else .error .digestUnset

/-- Whether a value is the number of a chain. -/
def checkChain (s : Settings) (chain : Value) : Except Failure Unit :=
  let known := s.endpoints.map Prod.fst
  if !chain.canBeKey then .error (.notKey chain)
  else if known.any fun c => chain.toInt? == some c then .ok ()
  else .error (.badChain chain (known.mergeSort fun a b => a ≤ b))

end Settings

end ProofGate
