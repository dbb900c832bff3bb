import PwndaWallet.Desk.Engine
import PwndaWallet.Lib.Ip
import PwndaWallet.Lib.Uri

/-!
# Arming the engine

The gate on the environment (`desk/arm.rs`), and the configuration of the engine's process with the
check on the wallet's URL (`desk/sidecar.rs`). Every error is a `BadConfig`, and its text is kept.
-/

namespace Desk

open Rust

/-! ## The configuration of the process -/

/-- `KNOWN_ENV_PRESETS` -/
def knownEnvPresets : List String :=
  ["dev", "preview", "preprod", "mainnet", "zeph-dev", "zeph-preprod", "zeph-mainnet"]

/-- `KNOWN_LTC_NETWORKS` -/
def knownLtcNetworks : List String := ["mainnet", "testnet", "regtest"]

def Leg.networkVar : Leg → String
  | .ada => "ADA_ENGINE_ENV"
  | .ltc => "LTC_ENGINE_NETWORK"

/-- The network variable of the other leg. -/
def Leg.otherVar : Leg → String
  | .ada => Leg.ltc.networkVar
  | .ltc => Leg.ada.networkVar

def Leg.knownNetworks : Leg → List String
  | .ada => knownEnvPresets
  | .ltc => knownLtcNetworks

def Leg.debug : Leg → String
  | .ada => "Ada"
  | .ltc => "Ltc"

def debugList (l : List String) : String := "[" ++ ", ".intercalate (l.map debugStr) ++ "]"

def chainBNetworkFor (envPreset : String) : Except String String :=
  if envPreset = "preprod" ∨ envPreset = "preview" then .ok "xmr-stagenet"
  else if envPreset = "dev" ∨ envPreset = "mainnet" then .ok "xmr-mainnet"
  else if envPreset = "zeph-dev" ∨ envPreset = "zeph-preprod" ∨ envPreset = "zeph-mainnet" then
    .ok "zeph-mainnet"
  else .error (s!"no CHAIN_B_NETWORK mapping for ADA_ENGINE_ENV {debugStr envPreset}. Add one to " ++
    "chain_b_network_for rather than letting the engine fall back to no chain-B address — an absent " ++
    "address silently disables the M2 address cross-check")

def chainBNetworkForLtc (ltcNetwork : String) : Except String String :=
  if ltcNetwork = "mainnet" then .ok "xmr-mainnet"
  else if ltcNetwork = "testnet" then .ok "xmr-stagenet"
  else if ltcNetwork = "regtest" then .ok "xmr-mainnet"
  else .error s!"no CHAIN_B_NETWORK mapping for LTC_ENGINE_NETWORK {debugStr ltcNetwork}"

structure SidecarConfig where
  python : String
  engineDir : String
  envPreset : String
  dataDir : Option String
  chainBNetwork : String
  leg : Leg
  extraEnv : List (String × String)
deriving DecidableEq

namespace SidecarConfig

def newForLeg (leg : Leg) (python engineDir envPreset : String) : Except String SidecarConfig :=
  if trim envPreset = "" then .error s!"{leg.networkVar} is required and has no default"
  else if envPreset ∉ leg.knownNetworks then
    .error (s!"{leg.networkVar} {debugStr envPreset} is not a known network {debugList leg.knownNetworks};" ++
      " a typo here exits the engine 1 (not the config-fault 78), so we refuse it before spawn")
  else
    let stem := toAsciiLowercase
      (String.ofList (python.toList.reverse.takeWhile fun c => c ≠ '/' && c ≠ '\\').reverse)
    if startsWith stem "pythonw" then
      .error (s!"interpreter {debugStr python} is a windowless pythonw with no usable stdio; use " ++
        "python/python3")
    else
      (match leg with
      | .ada => chainBNetworkFor envPreset
      | .ltc => chainBNetworkForLtc envPreset).map fun chainBNetwork =>
        ⟨python, engineDir, envPreset, none, chainBNetwork, leg, []⟩

def new (python engineDir envPreset : String) : Except String SidecarConfig :=
  newForLeg .ada python engineDir envPreset

def withDataDir (cfg : SidecarConfig) (dir : String) : SidecarConfig := { cfg with dataDir := some dir }

end SidecarConfig

/-! ## The check on a wallet's URL -/

/-- What follows the first `://`. -/
def afterSeparator : List Char → Option (List Char)
  | ':' :: '/' :: '/' :: rest => some rest
  | _ :: cs => afterSeparator cs
  | [] => none

/-- The authority of a URL, as the check takes it. -/
def urlAuthority (url : List Char) : List Char :=
  Uri.afterLastAt (((afterSeparator url).getD url).takeWhile (· ≠ '/'))

/-- The host of that authority. -/
def authorityHost : List Char → List Char
  | '[' :: rest => rest.takeWhile (· ≠ ']')
  | authority => authority.takeWhile (· ≠ ':')

def urlHostIsLoopback (url : String) : Bool :=
  let host := authorityHost (urlAuthority url.toList)
  if host = "localhost".toList then true
  else
    match Net.parseIp host with
    | some ip => ip.isLoopback
    | none => false

def SidecarConfig.withEnv (cfg : SidecarConfig) (key value : String) : Except String SidecarConfig :=
  if key = "XMR_WALLET_RPC" ∧ urlHostIsLoopback value = false then
    .error (s!"XMR_WALLET_RPC {debugStr value} is not loopback: the joint spend key is POSTed there in " ++
      "the clear, so it must be a 127.0.0.1/localhost/[::1] wallet-rpc")
  else if key = "ADA_ENGINE_ENV" ∧ trim value = "" then .error "ADA_ENGINE_ENV cannot be set empty"
  else if key = "CHAIN_B_NETWORK" ∨ key = "XMR_ADDRESS_PREFIX" then
    .error (s!"{key} must not be set through the env passthrough: the chain-B network is DERIVED from " ++
      s!"{cfg.leg.networkVar} so the two can never disagree. If you need a different chain B, change " ++
      "the network")
  else if key = cfg.leg.otherVar then
    .error (s!"{key} belongs to the other leg; this sidecar is {cfg.leg.debug} and names its network with " ++
      s!"{cfg.leg.networkVar}. Setting both leaves one of them inert")
  else .ok { cfg with extraEnv := cfg.extraEnv ++ [(key, value)] }

/-- A variable that need not be given. -/
def SidecarConfig.withSome (cfg : SidecarConfig) (key : String) : Option String → Except String SidecarConfig
  | some value => cfg.withEnv key value
  | none => .ok cfg

/-! ## The gate -/

structure ArmParams where
  python : String
  engineDir : String
  preset : String
  blockfrostProjectId : String
  xmrWalletRpc : String
  xmrWatchWalletRpc : Option String
  stateKey : String
  fundingSkeyHex : Option String
deriving DecidableEq

inductive ArmDecision where
  | skip
  | fault (reason : String)
  | proceed (p : ArmParams)
deriving DecidableEq

def isMainnetPreset (preset : String) : Bool := contains (toAsciiLowercase preset) "mainnet"

/-- The variables that have to be set, and what they are. -/
def armRequired : List (String × String) :=
  [("PWNDA_ENGINE_PYTHON", "the engine interpreter"), ("PWNDA_ENGINE_DIR", "the engine directory"),
    ("ADA_ENGINE_ENV", "the ADA_ENGINE_ENV preset"), ("BLOCKFROST_PROJECT_ID", "the Blockfrost project id"),
    ("XMR_WALLET_RPC", "the loopback XMR wallet-rpc"), ("ADA_ENGINE_STATE_KEY", "the engine state key")]

section
variable (get : String → Option String)

/-- The value of a variable that is not blank. -/
def nonempty (k : String) : Option String := (get k).filter fun v => trim v ≠ ""

def evaluateArm (isDebug : Bool) : ArmDecision :=
  if (nonempty get "PWNDA_DESK_ARM").isNone then .skip
  else if !isDebug then
    .fault ("PWNDA_DESK_ARM is set but this is a RELEASE build. The funded desk is testnet-only and must " ++
      "never arm in a shipped binary. Refusing.")
  else
    match armRequired.find? fun (key, _) => (nonempty get key).isNone with
    | some (key, what) => .fault (s!"PWNDA_DESK_ARM is set but {key} ({what}) is not. Source " ++
        "client-testnet.env.sh before launching. Refusing to arm on an incomplete config.")
    | none =>
      let value (k : String) : String := (nonempty get k).getD ""
      let preset := value "ADA_ENGINE_ENV"
      if isMainnetPreset preset then
        .fault (s!"PWNDA_DESK_ARM is set with a MAINNET preset ({debugStr preset}). Mainnet is rejected at " ++
          "this rung by construction - it is the whole M7/M8 track, not a preset flip. Refusing.")
      else .proceed
        { python := value "PWNDA_ENGINE_PYTHON"
          engineDir := value "PWNDA_ENGINE_DIR"
          preset
          blockfrostProjectId := value "BLOCKFROST_PROJECT_ID"
          xmrWalletRpc := value "XMR_WALLET_RPC"
          xmrWatchWalletRpc := nonempty get "XMR_WATCH_WALLET_RPC"
          stateKey := value "ADA_ENGINE_STATE_KEY"
          fundingSkeyHex := nonempty get "ADA_FUNDING_SKEY_HEX" }

end

def buildConfig (p : ArmParams) (dataDir : String) : Except String SidecarConfig := do
  let bad (e : String) : String := s!"engine sidecar misconfigured: {e}"
  let cfg ← (SidecarConfig.new p.python p.engineDir p.preset).mapError bad
  let cfg ← ((cfg.withDataDir dataDir).withEnv "ADA_ENGINE_STATE_KEY" p.stateKey).mapError bad
  let cfg ← (cfg.withEnv "XMR_WALLET_RPC" p.xmrWalletRpc).mapError bad
  let cfg ← (cfg.withEnv "BLOCKFROST_PROJECT_ID" p.blockfrostProjectId).mapError bad
  let cfg ← (cfg.withSome "XMR_WATCH_WALLET_RPC" p.xmrWatchWalletRpc).mapError bad
  (cfg.withSome "ADA_FUNDING_SKEY_HEX" p.fundingSkeyHex).mapError bad

end Desk
