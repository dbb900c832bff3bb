import PwndaWallet.Lib.Json

/-!
# The privileged door to the swap node

The coins of the node, the path of a privileged call, and what is made of its reply
(`swap_bridge.rs`, with the coin tables of `swap_sidecar.rs`). JSON text is read by a given
function, and so is a decimal number.
-/

namespace Bridge

open Rust

/-! ## Coins -/

/-- `COIN_TICKERS` -/
def coinTickers : List (String × String) :=
  [("particl", "PART"), ("bitcoin", "BTC"), ("litecoin", "LTC"), ("monero", "XMR"), ("dogecoin", "DOGE"),
    ("dash", "DASH"), ("bitcoincash", "BCH"), ("zephyr", "ZEPH"), ("zano", "ZANO")]

/-- `WALLET_SIDECAR_COINS` -/
def walletSidecarCoins : List String :=
  ["particl", "bitcoin", "litecoin", "monero", "dogecoin", "dash", "bitcoincash", "zephyr", "zano"]

def coinKeyFrom (input : String) : Option String :=
  let want := trim input
  if want = "" then none
  else
    (coinTickers.find? fun (coin, ticker) => eqIgnoreAsciiCase want coin || eqIgnoreAsciiCase want ticker).map
      Prod.fst

def tickerFor (coin : String) : String := (coinTickers.lookup coin).getD (toAsciiUppercase coin)

def isKnownTicker (t : String) : Bool := walletSidecarCoins.any fun c => tickerFor c == t

/-! ## Paths -/

/-- `PRIVILEGED_WALLET_VERBS` -/
def privilegedWalletVerbs : List String := ["withdraw", "nextdepositaddr"]

def privilegedWalletPath (ticker verb : String) : Except String String :=
  if verb ∉ privilegedWalletVerbs then .error s!"'{verb}' is not a privileged wallet verb"
  else if !isKnownTicker ticker then .error s!"{debugStr ticker} is not a coin the swap node can run"
  else .ok s!"wallets/{ticker}/{verb}"

theorem privilegedWalletPath_ok {ticker path : String}
    (hp : privilegedWalletPath ticker "withdraw" = .ok path) :
    path = s!"wallets/{ticker}/withdraw" := by
  unfold privilegedWalletPath at hp
  split at hp
  · cases hp
  · split at hp
    · cases hp
    · rw [← Except.ok.inj hp]
      exact String.append_assoc

def assertPrivilegedPath (path : String) : Except String Unit :=
  let bad (why : String) : Except String Unit :=
    .error s!"{debugStr path} is not a privileged swap-node endpoint ({why})"
  match split path '/' with
  | [root, ticker, verb] =>
    if root ≠ "wallets" then bad "does not start at wallets/"
    else if !isKnownTicker ticker then bad "unknown coin ticker"
    else if verb ∉ privilegedWalletVerbs then bad "verb is not withdraw or nextdepositaddr"
    else .ok ()
  | _ => bad "expected exactly wallets/<TICKER>/<verb>"

/-! ## Replies -/

/-- `TRANSPORT_FAILURE_PREFIX` -/
def transportFailurePrefix : String := "swap node request failed"

/-- `NODE_UNREACHABLE_PREFIX` -/
def nodeUnreachablePrefix : String := "swap node unreachable"

def isTransportFailure (err : String) : Bool := startsWith err transportFailurePrefix

def snippet (s : String) : String := String.ofList (s.toList.take 200)

/-- What becomes of a POST to the node. -/
inductive PostReply where
  /-- the HTTP client cannot be built -/
  | unbuilt (e : String)
  /-- the connection is refused before anything is sent -/
  | unreachable (e : String)
  /-- the request was sent, and a timeout or a reset came instead of a reply -/
  | lost (e : String)
  /-- the reply ended while its body was read -/
  | cutOff (status : Nat) (e : String)
  | answered (status : Nat) (text : String)

def decodeJson (fromStr : String → Except String Json) (status : Nat) (text : String) : Except String Json :=
  if ¬ (200 ≤ status ∧ status < 300) then .error s!"swap node HTTP {status}: {snippet text}"
  else (fromStr text).mapError fun e => s!"swap node reply was not JSON: {e} — {snippet text}"

/-- The end of `api_post_privileged`, after the path was accepted. -/
def PostReply.result (fromStr : String → Except String Json) : PostReply → Except String Json
  | .unbuilt e => .error s!"http client build failed: {e}"
  | .unreachable e => .error s!"{nodeUnreachablePrefix}: {e}"
  | .lost e => .error s!"{transportFailurePrefix}: {e}"
  | .cutOff _ e => .error s!"could not read the swap node's reply: {e}"
  | .answered status text => decodeJson fromStr status text

/-- What the messages print of a JSON value is given. -/
def extractTxid (print : Json → String) (v : Json) : Except String String :=
  match v.get "error" with
  | some e => .error s!"the swap node refused the withdrawal: {print e}"
  | none =>
    match ((v.get "txid").bind Json.asStr).map trim with
    | some txid =>
      if txid = "" then .error s!"the swap node returned no txid: {snippet (print v)}" else .ok txid
    | none => .error s!"the swap node returned no txid: {snippet (print v)}"

/-- `parsed` says whether a decimal number parses, and if so whether it is finite and positive. -/
def sharedWithdrawBody (parsed : String → Option Bool) (address amount : String) : Except String Json :=
  if trim address = "" then .error "a destination address is required"
  else
    match parsed (trim amount) with
    | none => .error s!"{debugStr (trim amount)} is not a valid amount"
    | some false => .error "the amount must be greater than zero"
    | some true =>
      .ok (.obj [("address", .str (trim address)), ("value", .str (trim amount)), ("subfee", .bool false)])

end Bridge
