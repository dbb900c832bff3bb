import PwndaWallet.Lib.Json
import PwndaWallet.Lib.Pattern
import PwndaWallet.Lib.Prog

/-!
# The broadcast of a signed EVM deposit

`evm_broadcast_verified` (`swap/broadcast.rs`) with the command that joins its trail into one text
(`swap/commands.rs`), and the TypeScript that reads the text (`swap-execute.ts`, `broadcast-outcome.ts`).
-/

namespace Broadcast

open Js Rust Tasks

/-! ## What is sent and answered -/

/-- An HTTP request is answered by a status and a text, or not at all. -/
inductive Reply where
  | network (e : String)
  | http (status : Nat) (text : String)

inductive EvmOp where
  /-- `eth_sendRawTransaction` -/
  | submit (url raw : String)
  /-- `eth_getTransactionByHash` of the Rust core, to the node that took the bytes -/
  | verify (url hash : String)
  /-- `eth_getTransactionByHash` of the webview -/
  | lookup (url hash : String)

abbrev EvmOp.Ans : EvmOp → Type := fun _ => Reply

abbrev EvmProg (ε α : Type) := Prog EvmOp EvmOp.Ans ε α

/-- What other code computes: `serde_json`, `JSON.parse`, keccak-256, the tables of `toLowerCase`, and whether
the text of a number with a fraction or an exponent is zero. -/
structure Env where
  fromStr : String → Except String Json
  display : Json → String
  jsonParse : String → Option Json
  evmTxHash : String → String
  loc : Intl
  isZero : String → Bool

variable (env : Env)

def isSuccess (status : Nat) : Bool := 200 ≤ status && status < 300

/-! ## The Rust core -/

inductive BroadcastError where
  | network (e : String)
  | rpc (status : Nat) (text : String)
  | rpcLogical (e : String)
  | parse (e : String)

def BroadcastError.toString : BroadcastError → String
  | .network e => s!"network error: {e}"
  | .rpc status text => s!"RPC returned {status}: {text}"
  | .rpcLogical e => s!"RPC error: {e}"
  | .parse e => s!"response parse error: {e}"

/-- The body of a JSON-RPC reply, unless it is an error. A member `error` is one, whatever its value. -/
def readReply : Reply → Except BroadcastError Json
  | .network e => .error (.network e)
  | .http status text =>
    if !isSuccess status then .error (.rpc status text)
    else
      match env.fromStr text with
      | .error e => .error (.parse e)
      | .ok v =>
        match v.get "error" with
        | some err => .error (.rpcLogical (env.display err))
        | none => .ok v

/-- The hash that the node answered with. -/
def readHash (r : Reply) : Except BroadcastError String := do
  let v ← readReply env r
  match (v.get "result").bind Json.asStr with
  | some hash => .ok hash
  | none => .error (.parse "missing result")

def isNull : Json → Bool
  | .null => true
  | _ => false

/-- Whether the node shows the transaction. -/
def readShown (r : Reply) : Except BroadcastError Bool :=
  (readReply env r).map fun v => (v.get "result").any (!isNull ·)

def with0x (raw : String) : String := if Rust.startsWith raw "0x" then raw else "0x" ++ raw

def evmBroadcast (url raw : String) : EvmProg BroadcastError String :=
  .request (.submit url (with0x raw)) (readHash env)

def evmGetTxByHash (url hash : String) : EvmProg BroadcastError Bool := .request (.verify url hash) (readShown env)

inductive Stage where
  | broadcast
  | verify
deriving DecidableEq

def Stage.toString : Stage → String
  | .broadcast => "broadcast"
  | .verify => "verify"

structure BroadcastAttempt where
  url : String
  stage : Stage
  error : String

def notShown (hash : String) : String :=
  s!"broadcast accepted hash {hash} but eth_getTransactionByHash returned null on the same node — the submission " ++
    "likely never reached the mempool"

def evmBroadcastVerified (raw : String) : List String → List BroadcastAttempt → EvmProg (List BroadcastAttempt) String
  | [], attempts => .fail attempts
  | url :: urls, attempts => do
    match ← (evmBroadcast env url raw).attempt with
    | .error e => evmBroadcastVerified raw urls (attempts ++ [⟨url, .broadcast, e.toString⟩])
    | .ok hash =>
      match ← (evmGetTxByHash env url hash).attempt with
      | .ok true => return hash
      | .ok false => evmBroadcastVerified raw urls (attempts ++ [⟨url, .verify, notShown hash⟩])
      | .error e =>
        evmBroadcastVerified raw urls (attempts ++ [⟨url, .verify, s!"verification call failed: {e.toString}"⟩])

def BroadcastAttempt.line (a : BroadcastAttempt) : String := s!"  {a.url} ({a.stage.toString}): {a.error}"

/-- `lines.join("\n")` -/
def joinLines : List String → String
  | [] => ""
  | [line] => line
  | line :: lines => line ++ "\n" ++ joinLines lines

def headline (n : Nat) : String :=
  (BroadcastError.rpc 0 s!"All {n} EVM RPCs failed broadcast or verification").toString

/-- The text that the command rejects with. -/
def trailText (n : Nat) (attempts : List BroadcastAttempt) : String :=
  headline n ++ "\n" ++ joinLines (attempts.map BroadcastAttempt.line)

def swapEvmBroadcastVerified (rpcUrls : List String) (raw : String) : EvmProg String String :=
  (evmBroadcastVerified env raw rpcUrls []).mapErr (trailText rpcUrls.length)

/-! ## Reading the text -/

def mayBeOnNetwork : List Pattern :=
  ["already", "known transaction", "txn-mempool-conflict", "duplicate", "exists", "nonce too low", "replacement",
    "in the mempool", "in blockchain", "in block chain"].map lit

def transport : List Pattern :=
  ["network error", "timedout", "timed out", "timeout", "time out", "abort", "econn", "enotfound", "fetch failed",
    "socket", "connection reset", "connection closed", "connection refused"].map lit ++
  [lit "RPC returned 5" ++ digit ++ digit, lit "HTTP 5" ++ digit ++ digit, wordEnd ++ lit "50" ++ digit ++ wordEnd] ++
  ["response parse error", "verification call failed", "returned null on the same node"].map lit

def refusal : List Pattern :=
  [lit "RPC returned 4" ++ digit ++ digit, lit "HTTP 4" ++ digit ++ digit] ++
  ["RPC error:", "simulation failed", "insufficient", "bad-txns", "min relay fee", "mempool min fee", "dust",
    "non-final", "invalid", "rejected", "intrinsic gas", "exceeds block gas limit", "blockcypher push:",
    "blockchair:", "sendrawtransaction"].map lit

/-- The text positively reads as the node refusing the transaction. -/
def isDefinitiveBroadcastRefusal (message : List Char) : Bool :=
  trim message != [] && !test mayBeOnNetwork message && !test transport message && test refusal message

/-- What is left of the text behind a prefix. -/
def after (pre text : List Char) : Option (List Char) :=
  if pre.isPrefixOf text then some (text.drop pre.length) else none

/-- `/^(\S+) \((broadcast|verify)\): (.*)$/` -/
def readAttempt (line : List Char) : Option (Stage × List Char) :=
  let rest := line.dropWhile (!isSpace ·)
  if (line.takeWhile (!isSpace ·)).isEmpty then none
  else
    match after " (broadcast): ".toList rest, after " (verify): ".toList rest with
    | some text, _ => if text.any isLineEnd then none else some (.broadcast, text)
    | none, some text => if text.any isLineEnd then none else some (.verify, text)
    | none, none => none

/-- The attempts that are read out of the text. -/
def readAttempts (message : List Char) : List (Stage × List Char) := (trimmedLines message).filterMap readAttempt

def isRefused (m : Stage × List Char) : Bool := m.1 == .broadcast && isDefinitiveBroadcastRefusal m.2

def evmBroadcastRefusedEverywhere (message : String) : Bool :=
  let attempts := readAttempts message.toList
  !attempts.isEmpty && attempts.all isRefused

/-! ## The webview -/

def isTruthy : Json → Bool
  | .null => false
  | .bool b => b
  | .int n => n != 0
  | .float text => !env.isZero text
  | .str s => s != ""
  | .arr _ => true
  | .obj _ => true

/-- `resp.ok` and a `result` that is not falsy. -/
def replyKnows : Reply → Bool
  | .network _ => false
  | .http status text => isSuccess status && (((env.jsonParse text).bind (·.get "result")).any (isTruthy env))

/-- Whether any of the URLs knows the hash. -/
def evmTransactionKnown {ε : Type} (hash : String) : List String → EvmProg ε Bool
  | [] => .ret false
  | url :: urls => .call (.lookup url hash) fun r =>
    if replyKnows env r then .ret true else evmTransactionKnown hash urls

inductive SendError where
  | plain (message : String)
  | outcomeUnknown (message : String) (hash : String)

def refusedEverywhere (ticker msg : String) : SendError :=
  .plain s!"Every RPC refused the {ticker} deposit, so it was not sent. {msg}"

def mayHaveBeenSent (ticker msg localHash : String) : SendError :=
  .outcomeUnknown (s!"The {ticker} deposit may have been sent: an RPC accepted it or did not answer, and none can " ++
    s!"show it yet. Check {localHash} on a block explorer before trying again.\n{msg}") localHash

def otherHash (ticker verifiedHash localHash : String) : SendError :=
  .outcomeUnknown (s!"The {ticker} deposit was broadcast, but the network answered with hash {verifiedHash} while the " ++
    s!"transaction the wallet signed is {localHash} (safety check VERIFIED_HASH_MISMATCH). It may or may not be on " ++
    s!"chain — check {localHash} on a block explorer before doing anything else.") localHash

def broadcastEvmDepositOnce (ticker : String) (rpcUrls : List String) (rawTx : String) : EvmProg SendError String := do
  let localHash := env.evmTxHash rawTx
  match ← (swapEvmBroadcastVerified env rpcUrls rawTx).attempt with
  | .error msg =>
    if ← evmTransactionKnown env localHash rpcUrls then return localHash
    else if evmBroadcastRefusedEverywhere msg then .fail (refusedEverywhere ticker msg)
    else .fail (mayHaveBeenSent ticker msg localHash)
  | .ok verifiedHash =>
    if env.loc.toLowerCase verifiedHash == env.loc.toLowerCase localHash then return verifiedHash
    else .fail (otherHash ticker verifiedHash localHash)

end Broadcast
