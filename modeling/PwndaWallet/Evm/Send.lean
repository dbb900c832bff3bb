import PwndaWallet.Lib.Js
import PwndaWallet.Lib.Prog
import PwndaWallet.Send.Outcome

/-!
# An EVM send

`sendEvmTransfer` of `wallets/evm-send.ts`: the transfer is prepared on the first node that answers, signed, handed
to the nodes in turn, and looked for until its receipt shows or the budget is spent. What a node sends back over HTTP,
the clock and the signer are answers; `ethers` and the engine are parameters.
-/

namespace EvmSend

open Rust SessionSend Tasks

structure TokenRow where
  symbol : String
  network : String
  contract : String

/-- The engine, and what `ethers` computes; `getAddress` fails on a wrong checksum, `integer` on a fraction. -/
structure Library extends Env where
  toLowerCase : String → String
  stringify : Json → String
  integer : String → Option Int
  getAddress : String → Option String
  zeroAddress : String
  addressOf : String → Except String String
  transferData : String → Nat → String
  keccak256 : String → String
  hostOf : String → String
  revertReason : Option Json → String → Option String
  tokens : List TokenRow

structure EvmTransferArgs where
  privateKey : String
  toText : String
  amount : String
  urls : List String
  chainId : Option Nat
  chainName : String
  ticker : String
  gasTicker : String
  tokenContract : Option String
  decimals : Nat

structure Timing where
  requestTimeoutMs : Int := 15000
  receiptBudgetMs : Int := 90000
  pollIntervalMs : Int := 3000

structure Transfer where
  recipient : String
  value : Nat
  data : String
deriving DecidableEq

inductive Fee where
  | dynamic (maxFeePerGas maxPriorityFeePerGas : Nat)
  | legacy (gasPrice : Nat)
deriving DecidableEq

structure Prepared where
  chainId : Nat
  nonce : Nat
  gasLimit : Nat
  fee : Fee
deriving DecidableEq

/-- What comes of one `fetch`: it fails, its body does not arrive, or both arrive. -/
inductive Fetched where
  | failed (aborted : Bool) (text : String)
  | cut (aborted : Bool) (status : Nat)
  | body (status : Nat) (text : String)
deriving DecidableEq

/-- The six reads that are made at once. -/
structure Reads where
  chainId : Fetched
  nonce : Fetched
  block : Fetched
  gasPrice : Fetched
  tip : Fetched
  estimate : Fetched

inductive EvmOp where
  | reads (url sender : String) (transfer : Transfer)
  | sign (transfer : Transfer) (prepared : Prepared)
  | send (url raw : String)
  | lookup (url hash : String)
  | receipt (url hash : String) (timeoutMs : Int)
  | now
  | sleep (ms : Int)

abbrev EvmOp.Ans : EvmOp → Type
  | .reads _ _ _ => Reads
  | .sign _ _ => Except String String
  | .send _ _ | .lookup _ _ | .receipt _ _ _ => Fetched
  | .now => Int
  | .sleep _ => Unit

inductive SendError where
  | plain (text : String)
  | reverted (hash text : String)
  /-- a receipt that cannot be read -/
  | thrown (text : String)
  | outcomeUnknown (message hash : String)
deriving DecidableEq

structure TxResult where
  hash : String
  pending : Bool
deriving DecidableEq

abbrev EvmM (α : Type) := Prog EvmOp EvmOp.Ans SendError α

section

variable (env : Library)

/-! ## What was typed -/

def isHexDigit (c : Char) : Bool := c.isDigit || ('a' ≤ c && c ≤ 'f') || ('A' ≤ c && c ≤ 'F')

/-- `/^0x[0-9a-fA-F]{40}$/` -/
def isHexAddress (s : List Char) : Bool := "0x".toList.isPrefixOf s && s.length == 42 && (s.drop 2).all isHexDigit

def parseEvmRecipient (raw : String) (args : EvmTransferArgs) : Except String String :=
  let s := Js.trim raw.toList
  if s = [] then .error "Enter the recipient's address."
  else if !isHexAddress s then
    if s.length = 40 ∧ s.all isHexDigit then
      .error "That address is missing its 0x prefix. Paste the full address, starting with 0x."
    else if s.contains '.' then
      .error "Names like example.eth are not supported. Paste the recipient's 0x address."
    else
      .error (s!"That is not a valid address on {args.chainName}. It should be 0x followed by 40 hexadecimal " ++
        "characters (0-9, a-f).")
  else
    match env.getAddress (String.ofList s) with
    | none => .error ("That address fails its checksum, so at least one character is wrong. Copy it again from " ++
        "the source.")
    | some address =>
      if address = env.zeroAddress then
        .error "That is the zero address. Anything sent to it is burned: nobody can ever spend it."
      else
        let lower := env.toLowerCase address
        if args.tokenContract.any fun c => lower = env.toLowerCase c then
          .error (s!"That address is the {args.ticker} token contract itself, not a wallet. Tokens sent to it are " ++
            "lost. Paste the recipient's own address.")
        else
          match env.tokens.find? fun n => env.toLowerCase n.contract = lower with
          | some row =>
            .error (s!"That address is the {row.symbol} token contract on {row.network}, not a wallet. A send to it " ++
              "is lost or refused. Paste the recipient's own address.")
          | none => .ok address

/-- Digits with at most one point, and a digit: `/^\d*\.?\d*$/` and `/\d/`. -/
def isPlainNumber (s : List Char) : Bool :=
  let rest := s.dropWhile Char.isDigit
  (rest.isEmpty || (rest.head? == some '.' && rest.tail.all Char.isDigit)) && s.any Char.isDigit

/-- The amount in base units. -/
def parseEvmAmount (raw : String) (decimals : Nat) (ticker : String) : Except String Nat :=
  let s := Js.trim raw.toList
  if s = [] then .error "Enter an amount."
  else if s.contains ',' then
    .error "Use a dot for decimals and no thousands separators: 1.5, not 1,5."
  else if s.head? = some '-' then .error "The amount must be greater than zero."
  else if !isPlainNumber s then .error "Enter the amount as a plain number, like 0.25."
  else
    let whole := s.takeWhile Char.isDigit
    let fraction := (s.dropWhile Char.isDigit).tail
    if (fraction.drop decimals).any (· ≠ '0') then .error s!"{ticker} has at most {decimals} decimal places."
    else
      let kept := fraction.take decimals
      let units := digitsValue whole * 10 ^ decimals + digitsValue (kept ++ List.replicate (decimals - kept.length) '0')
      if units = 0 then .error "The amount must be greater than zero." else .ok units

/-! ## JSON-RPC -/

inductive Failure where
  | rpc (host : String) (code : Option Json) (message : String) (data : Option Json) (status : Nat)
  | transport (host message : String) (status : Option Nat)

def clip (s : String) (max : Nat) : String :=
  let one := Js.trim (Js.collapse false s.toList)
  String.ofList (if one.length > max then one.take (max - 1) ++ ['…'] else one)

/-- `errorText` of a text. -/
def errorText (s : String) : String := if Js.trim s.toList = [] then "Unknown error" else s

/-- The `message` of the error. -/
def Failure.message : Failure → String
  | .rpc _ code message _ _ =>
    if message = "" then "JSON-RPC error " ++ (code.map env.toText).getD "(no code)" else message
  | .transport _ message _ => message

/-- `body.error`, if it is an object. -/
def rpcError (body : Option Json) : Option Json :=
  match body with
  | some (.obj fields) =>
    match fields.lookup "error" with
    | some (.obj e) => some (.obj e)
    | some (.arr e) => some (.arr e)
    | _ => none
  | _ => none

def numberField (v : Json) (key : String) : Option Json :=
  match v.get key with
  | some (.int n) => some (.int n)
  | some (.float t) => some (.float t)
  | _ => none

def stringField (v : Json) (key : String) : String :=
  match v.get key with
  | some (.str s) => s
  | _ => ""

def noAnswer (timeoutMs : Int) : String :=
  if timeoutMs ≥ 1000 then s!"no answer within {(timeoutMs + 500) / 1000} s" else s!"no answer within {timeoutMs} ms"

def isOk (status : Nat) : Bool := 200 ≤ status && status < 300

def rpcCall (url : String) (timeoutMs : Int) : Fetched → Except Failure Json
  | .failed aborted text =>
    .error (.transport (env.hostOf url)
      (if aborted then noAnswer timeoutMs else s!"request failed ({clip (errorText text) 80})") none)
  | .cut aborted status =>
    .error (.transport (env.hostOf url)
      (if aborted then "the answer did not arrive in time" else "the answer was cut off") (some status))
  | .body status text =>
    let body := env.jsonParse text
    match rpcError body with
    | some err =>
      .error (.rpc (env.hostOf url) (numberField err "code") (stringField err "message") (err.get "data") status)
    | none =>
      if !isOk status then .error (.transport (env.hostOf url) s!"HTTP {status}" (some status))
      else
        match body.bind (·.get "result") with
        | some result => .ok result
        | none => .error (.transport (env.hostOf url) "the answer is not JSON-RPC" (some status))

/-- `/^0x[0-9a-fA-F]+$/` and `BigInt`. -/
def hexQuantity : Json → Option Nat
  | .str s =>
    if "0x".toList.isPrefixOf s.toList ∧ 2 < s.toList.length ∧ (s.toList.drop 2).all isHexDigit then
      Js.digits 16 (s.toList.drop 2)
    else none
  | _ => none

/-- `rpcErrorText` -/
def rpcErrorText (message : String) (data : Option Json) : String :=
  let shown := match data with
    | some (.str s) => s
    | some .null | none => ""
    | some v => env.stringify v
  env.toLowerCase (message ++ " " ++ shown)

/-! ## Classifying a node's answer -/

inductive Verdict where
  | known | rejected | refused | ambiguous
deriving DecidableEq

structure Attempt where
  host : String
  verdict : Verdict
  detail : String

def KNOWN : List String := [
  "already known", "known transaction", "already imported", "alreadyknown", "already exists", "already in mempool",
  "already in pool", "already in txpool", "already in the mempool", "already in the pool", "already in the txpool",
  "nonce too low", "nonce has already been used", "oldnonce", "replacement transaction underpriced",
  "replacement fee too low", "replacement_underpriced"]

def INSUFFICIENT : List String := ["insufficient funds", "insufficientfunds", "insufficient balance"]

def REJECTED : List String := INSUFFICIENT ++ [
  "intrinsic gas", "exceeds block gas limit", "invalid signature", "nonce too high"]

def REFUSED : List String := [
  "unauthorised", "unauthorized", "api key", "forbidden", "rate limit", "too many requests", "limit exceeded", "quota",
  "cannot fulfill request", "tenant disabled", "method not found", "does not exist", "not available", "not supported",
  "not allowed", "whitelist", "payment required", "underpriced", "fee too low", "gas price too low", "base fee",
  "fee cap", "priority fee", "configured cap", "pool is full", "chainid", "chain id", "replay-protected", "eip155",
  "eip-155", "invalid sender", "oversized", "too large"]

def mentions (text : String) (phrases : List String) : Bool := phrases.any (Rust.contains text ·)

def ORIGIN_UNREACHABLE : List Nat := [521, 522, 523, 525, 526]

def refusedStatus : Option Nat → Bool
  | none => false
  | some s => (400 ≤ s && s < 500 && s ≠ 408) || ORIGIN_UNREACHABLE.contains s

def refusedCode : Option Json → Bool
  | some (.int n) => n = -32601 || n = -32005 || n = 429
  | _ => false

def verdictOf : Failure → Verdict
  | .rpc host code message data status =>
    let text := rpcErrorText env (Failure.message env (.rpc host code message data status)) data
    if mentions text KNOWN then .known
    else if mentions text REJECTED then .rejected
    else if mentions text REFUSED || refusedCode code then .refused
    else if refusedStatus (some status) then .refused
    else .ambiguous
  | .transport _ _ status => if refusedStatus status then .refused else .ambiguous

def detailOf : Failure → String
  | .rpc host code message data status => clip (Failure.message env (.rpc host code message data status)) 160
  | .transport _ message _ => message

def isDefinitive (v : Verdict) : Bool := v == .rejected || v == .refused

def insufficientFundsText (args : EvmTransferArgs) : String :=
  if args.tokenContract.isSome then
    s!"Not enough {args.gasTicker} on {args.chainName} to pay the network fee for this transfer. Nothing was sent."
  else s!"Not enough {args.gasTicker} on {args.chainName} to cover this amount plus the network fee. Nothing was sent."

def definitiveText (a : Attempt) (args : EvmTransferArgs) : String :=
  if a.verdict = .rejected then
    if mentions (toAsciiLowercase a.detail) INSUFFICIENT then insufficientFundsText args
    else s!"The {args.chainName} network refused this transaction ({a.host}: {a.detail}). Nothing was sent."
  else s!"No {args.chainName} node would take this transaction ({a.host}: {a.detail}). Nothing was sent."

/-! ## Preparing -/

/-- A `TransferRefusedError`, or another failure of this node. -/
inductive PrepareFailure where
  | refused (text : String)
  | failed (text : String)

def REVERTED : List String := [
  "revert", "invalid opcode", "out of gas", "gas required exceeds allowance", "always failing"]

def estimateRefusal (args : EvmTransferArgs) : Failure → Option String
  | .transport _ _ _ => none
  | .rpc host code message data status =>
    let shown := Failure.message env (.rpc host code message data status)
    let text := rpcErrorText env shown data
    if mentions text INSUFFICIENT then
      some (if args.tokenContract.isSome then insufficientFundsText args
        else s!"Not enough {args.ticker} on {args.chainName} for this amount and its network fee. Nothing was sent.")
    else if (match code with | some (.int n) => n == 3 | _ => false) || mentions text REVERTED then
      some (if args.tokenContract.isSome then
          s!"The {args.ticker} contract refused this transfer" ++
            ((env.revertReason data shown).map fun r => s!" ({r})").getD "" ++ ". Nothing was sent."
        else
          s!"The recipient address is a contract that refused this {args.ticker} transfer. Nothing was sent.")
    else none

/-- `quantity` of a settled read. -/
def quantity (url what : String) : Except Failure Json → Except PrepareFailure Nat
  | .error e => .error (.failed (errorText (Failure.message env e)))
  | .ok v =>
    match hexQuantity v with
    | some n => .ok n
    | none => .error (.failed s!"{what} answered {clip (env.stringify v) 60}")

def optionalQuantity : Except Failure Json → Option Nat
  | .error _ => none
  | .ok v => hexQuantity v

def FALLBACK_NATIVE_GAS : Nat := 21000

def withGasMargin (estimate : Nat) : Nat :=
  if estimate ≤ FALLBACK_NATIVE_GAS then estimate else estimate + (estimate * 20 + 99) / 100

/-- `block.baseFeePerGas`, if it is there. -/
def baseFeeOf (url : String) (block : Json) : Except PrepareFailure (Option Nat) :=
  match prop (some block) "baseFeePerGas" with
  | none => .ok none
  | some v => (quantity env url "baseFeePerGas" (.ok v)).map some

def feeOf (baseFee gasPrice tip : Option Nat) : Except PrepareFailure Fee :=
  match baseFee.filter (0 < ·), gasPrice with
  | some base, _ =>
    let maxPriorityFeePerGas := tip.getD 1000000000
    .ok (.dynamic (base * 2 + maxPriorityFeePerGas) maxPriorityFeePerGas)
  | none, some gasPrice => .ok (.legacy gasPrice)
  | none, none => .error (.failed "gave no fee data")

def prepareOn (args : EvmTransferArgs) (timing : Timing) (url : String) (r : Reads) :
    Except PrepareFailure Prepared := do
  let call := rpcCall env url timing.requestTimeoutMs
  let chainId ← quantity env url "eth_chainId" (call r.chainId)
  if args.chainId.any (chainId ≠ ·) then
    throw (.failed s!"answers for chain {chainId}, not {args.chainId.getD 0}")
  else
    match call r.estimate with
    | .error e =>
      match estimateRefusal env args e with
      | some text => throw (.refused text)
      | none => throw (.failed (errorText (Failure.message env e)))
    | .ok estimate =>
      let gas ← quantity env url "eth_estimateGas" (.ok estimate)
      let nonce ← quantity env url "eth_getTransactionCount" (call r.nonce)
      match call r.block with
      | .error e => throw (.failed (errorText (Failure.message env e)))
      | .ok block =>
        let baseFee ← baseFeeOf env url block
        let fee ← feeOf baseFee (optionalQuantity (call r.gasPrice)) (optionalQuantity (call r.tip))
        return ⟨chainId, nonce, withGasMargin gas, fee⟩

def prepare (args : EvmTransferArgs) (timing : Timing) (sender : String) (tx : Transfer) :
    List String → List String → EvmM Prepared
  | [], failures =>
    .fail (.plain (s!"Could not reach any {args.chainName} node to prepare this transaction (" ++
      failures.head?.getD "no endpoint configured" ++ "). Nothing was sent."))
  | url :: urls, failures =>
    .call (.reads url sender tx) fun r =>
      match prepareOn env args timing url r with
      | .ok prepared => .ret prepared
      | .error (.refused text) => .fail (.plain text)
      | .error (.failed text) => prepare args timing sender tx urls (failures ++ [s!"{env.hostOf url}: {clip text 100}"])

/-! ## The same bytes, node by node -/

/-- The node's answer names our transaction. -/
def showsTransaction (hash : String) : Except Failure Json → Bool
  | .error _ => false
  | .ok tx =>
    match tx.get "hash" with
    | some (.str h) => env.toLowerCase h == env.toLowerCase hash
    | _ => false

def findTransaction (timing : Timing) (hash : String) : List String → EvmM (Option String)
  | [] => .ret none
  | url :: urls =>
    .call (.lookup url hash) fun r =>
      if showsTransaction env hash (rpcCall env url timing.requestTimeoutMs r) then .ret (some url)
      else findTransaction timing hash urls

/-- The node took the bytes and says so. -/
def accepts (hash : String) : Except Failure Json → Bool
  | .ok (.str result) => env.toLowerCase result == env.toLowerCase hash
  | _ => false

def attemptOf (url : String) : Except Failure Json → Attempt
  | .ok result =>
    ⟨env.hostOf url, .ambiguous, s!"answered with a different hash ({clip (env.toText result) 70})"⟩
  | .error e => ⟨env.hostOf url, verdictOf env e, detailOf env e⟩

def outcomeMessage (args : EvmTransferArgs) (attempts : List Attempt) : String :=
  s!"no {args.chainName} node confirmed it, and at least one may have taken it: " ++
    "; ".intercalate ((attempts.take 3).map fun a => s!"{a.host}: {a.detail}")

/-- With no node left to ask. -/
def broadcastEnd (args : EvmTransferArgs) (timing : Timing) (hash : String) (attempts : List Attempt) : EvmM String :=
  if attempts.all (isDefinitive ·.verdict) then
    match (attempts.find? (·.verdict = .rejected)).or attempts.head? with
    | some first => .fail (.plain (definitiveText first args))
    | none => .fail (.plain "Cannot read properties of undefined (reading 'verdict')")
  else
    (findTransaction env timing hash args.urls).bind fun
      | some via => .ret via
      | none => .fail (.outcomeUnknown (outcomeMessage args attempts) hash)

def broadcast (args : EvmTransferArgs) (timing : Timing) (raw hash : String) : List String → List Attempt → EvmM String
  | [], attempts => broadcastEnd env args timing hash attempts
  | url :: urls, attempts =>
    .call (.send url raw) fun r =>
      let answer := rpcCall env url timing.requestTimeoutMs r
      if accepts env hash answer then .ret url
      else
        let attempt := attemptOf env url answer
        let attempts := attempts ++ [attempt]
        (if attempt.verdict = .known then findTransaction env timing hash [url] else .ret none).bind fun found =>
          if found.isSome then .ret url
          else if attempt.verdict = .rejected ∧ attempts.all (isDefinitive ·.verdict) = true then
            .fail (.plain (definitiveText attempt args))
          else broadcast args timing raw hash urls attempts

/-! ## The receipt -/

/-- The status of a receipt; a number that is no integer cannot be read. -/
def statusOf (receipt : Json) : Except String (Option Int) :=
  match receipt.get "status" with
  | some (.int n) => .ok (some n)
  | some (.float t) =>
    match env.integer t with
    | some n => .ok (some n)
    | none => .error s!"The number {t} cannot be converted to a BigInt because it is not an integer"
  | some (.str s) => .ok ((hexQuantity (.str s)).map Int.ofNat)
  | _ => .ok none

/-- It names another transaction. -/
def namesOther (hash : String) (receipt : Json) : Bool :=
  match receipt.get "transactionHash" with
  | some (.str h) => env.toLowerCase h != env.toLowerCase hash
  | _ => false

def settleReceipt (args : EvmTransferArgs) (hash : String) (receipt : Json) : Except SendError (Option TxResult) :=
  match receipt with
  | .obj _ =>
    if namesOther env hash receipt then .ok none
    else if (prop (some receipt) "blockNumber").isNone then .ok none
    else
      match statusOf env receipt with
      | .error text => .error (.thrown text)
      | .ok status =>
        if status = some 1 then .ok (some ⟨hash, false⟩)
        else if status = some 0 then
          .error (.reverted hash (s!"Transaction {hash} was included in a block but reverted: the " ++
            s!"{String.ofList (Js.trim args.amount.toList)} {args.ticker} was not sent, and the network fee was spent."))
        else .ok (some ⟨hash, true⟩)
  | _ => .ok none

/-- One answer: a node that errors hands the round to the next one. -/
def pollNodes (args : EvmTransferArgs) (timing : Timing) (hash : String) (deadline : Int) :
    List String → EvmM (Option TxResult)
  | [] => .ret none
  | url :: urls =>
    .call .now fun now =>
      if deadline - now ≤ 0 then .ret (some ⟨hash, true⟩)
      else
        let timeoutMs := min timing.requestTimeoutMs (deadline - now)
        .call (.receipt url hash timeoutMs) fun r =>
          match rpcCall env url timeoutMs r with
          | .error _ => pollNodes args timing hash deadline urls
          | .ok receipt => .ofExcept (settleReceipt env args hash receipt)

/-- The nodes with `order[round % order.length]` first. -/
def rotated (order : List String) (round : Nat) : List String := order.rotate (round % order.length)

/-- The rounds, of which so many are followed. -/
def pollRounds (args : EvmTransferArgs) (timing : Timing) (hash : String) (order : List String) (deadline : Int) :
    Nat → Nat → EvmM TxResult
  | 0, _ => .cut
  | rounds + 1, round =>
    (pollNodes env args timing hash deadline (rotated order round)).bind fun
      | some result => .ret result
      | none =>
        .call .now fun now =>
          if deadline - now ≤ 0 then .ret ⟨hash, true⟩
          else
            .call (.sleep (min timing.pollIntervalMs (deadline - now))) fun _ =>
              pollRounds args timing hash order deadline rounds (round + 1)

def awaitReceipt (args : EvmTransferArgs) (timing : Timing) (hash via : String) (rounds : Nat) : EvmM TxResult :=
  .call .now fun now =>
    pollRounds env args timing hash (via :: args.urls.filter (· ≠ via)) (now + timing.receiptBudgetMs) rounds 0

/-! ## The send -/

def transferOf (args : EvmTransferArgs) (recipient : String) (units : Nat) : Except String Transfer :=
  match args.tokenContract with
  | some contract =>
    match env.getAddress contract with
    | some token => .ok ⟨token, 0, env.transferData recipient units⟩
    | none => .error "bad address checksum"
  | none => .ok ⟨recipient, units, "0x"⟩

/-- Everything typed, before any network call. -/
def checkArgs (args : EvmTransferArgs) : Except String (String × Transfer) := do
  let recipient ← parseEvmRecipient env args.toText args
  let units ← parseEvmAmount args.amount args.decimals args.ticker
  if args.urls = [] then throw s!"No {args.chainName} RPC endpoint is configured. Nothing was sent."
  else
    let sender ← env.addressOf args.privateKey
    let tx ← transferOf env args recipient units
    return (sender, tx)

def signedText (e : String) : SendError := .plain e

def sendEvmTransfer (args : EvmTransferArgs) (timing : Timing) (rounds : Nat) : EvmM TxResult := do
  let (sender, tx) ← Prog.ofExcept ((checkArgs env args).mapError .plain)
  let prepared ← prepare env args timing sender tx args.urls []
  let raw ← Prog.request (.sign tx prepared) fun r => r.mapError signedText
  let hash := env.keccak256 raw
  let via ← broadcast env args timing raw hash args.urls []
  awaitReceipt env args timing hash via rounds

end

end EvmSend
