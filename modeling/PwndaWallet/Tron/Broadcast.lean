import PwndaWallet.Lib.Unicode
import PwndaWallet.Lib.Js
import PwndaWallet.Send.Outcome

/-!
# The TRON broadcast

`broadcastTronTransaction` and `waitForTronExecution` of `wallets/trx-wallet.ts`: the two hosts are asked in turn to
take one signed transaction, and where that leaves a doubt it is looked up by its id. What the hosts answer and what
the clock shows are parameters.
-/

namespace Tron

open Rust SessionSend

/-- What the engine computes. -/
structure Engine extends Env where
  toLowerCase : String → String

/-- A request is answered with a status and a body, or fails with a text. -/
abbrev Answer := Except String (Nat × String)

inductive Host
  | trongrid | tronstack
deriving DecidableEq

/-- The answers of the hosts and the clock; the rounds of the polling are numbered. -/
structure Net where
  broadcast : Host → Answer
  lookup : Nat → Host → Answer
  entered : Int
  now : Nat → Int

def isOk (status : Nat) : Bool := 200 ≤ status && status < 300

section

variable (env : Engine)

/-! ## A node's texts -/

def isHexDigit (c : Char) : Bool := c.isDigit || ('a' ≤ c && c ≤ 'f') || ('A' ≤ c && c ≤ 'F')

def hexValue (c : Char) : Nat :=
  if c.isDigit then c.toNat - 48 else if 'a' ≤ c then c.toNat - 87 else c.toNat - 55

def hexToBytes : List Char → Wire.Bytes
  | a :: b :: cs => UInt8.ofNat (16 * hexValue a + hexValue b) :: hexToBytes cs
  | _ => []

def isNameChar (c : Char) : Bool := c.isAlphanum || c = '_' || c = '.' || c = '$'

/-- `text.replace(/^class [\w.$]+ ?: ?/, "")` -/
def dropClass (text : List Char) : List Char :=
  if "class ".toList.isPrefixOf text then
    let named := text.drop 6
    let rest := named.dropWhile isNameChar
    let colon := if rest.head? = some ' ' then rest.tail else rest
    if named.head?.any isNameChar && colon.head? = some ':' then
      if colon.tail.head? = some ' ' then colon.tail.tail else colon.tail
    else text
  else text

def tronNodeMessage (message : Option Json) : String :=
  match message with
  | some (.str m) =>
    if m = "" then ""
    else
      let cs := m.toList
      let text :=
        if cs.all isHexDigit && cs.length % 2 == 0 then Unicode.stripMark (Unicode.decodeFrom none (hexToBytes cs))
        else cs
      String.ofList (Js.trim (dropClass text))
  | _ => ""

/-- `a || b` of texts -/
def orText (a b : String) : String := if a = "" then b else a

/-! ## One node's answer -/

inductive BroadcastVerdict
  | accepted
  | refused (message : String)
  | busy (message : String)
  | uncertain (message : String)

def NODE_LOCAL_CODES : List String := ["SERVER_BUSY", "NO_CONNECTION", "NOT_ENOUGH_EFFECTIVE_CONNECTION"]

/-- A field that is a string, and the empty string else. -/
def textField (v : Json) (key : String) : String :=
  match v.get key with
  | some (.str s) => s
  | _ => ""

def saysTrue (v : Json) (key : String) : Bool :=
  match v.get key with
  | some (.bool b) => b
  | _ => false

def readBroadcastAnswer (result : Json) (txID : String) : BroadcastVerdict :=
  if saysTrue result "result" then .accepted
  else
    let code := textField result "code"
    let message := orText (tronNodeMessage (result.get "message")) (orText code "Broadcast failed")
    if code = "DUP_TRANSACTION_ERROR" then
      let id := env.toLowerCase (textField result "txid")
      if id = "" ∨ id = env.toLowerCase txID then .accepted else .uncertain message
    else if code ∈ NODE_LOCAL_CODES then .busy message
    else .refused message

/-! ## The two hosts -/

/-- What an attempt comes to. -/
inductive Reading
  | accepted
  | uncertain (why : String)
  /-- the status alone is a refusal, and the next host is asked -/
  | status (why : String)
  | busy (message : String)
  | refused (message : String)

def readAttempt (txID : String) : Answer → Reading
  | .error e => .uncertain s!"no answer, {e}"
  | .ok (status, text) =>
    if !isOk status then
      if status ≥ 500 then .uncertain s!"HTTP {status}" else .status s!"HTTP {status}"
    else
      match env.jsonParse text with
      | none => .uncertain "an unreadable answer"
      | some result =>
        match readBroadcastAnswer env result txID with
        | .accepted => .accepted
        | .uncertain message => .uncertain message
        | .busy message => .busy message
        | .refused message => .refused message

/-- How the attempts end: a host has the transaction, or why one may have it, and why it was refused. -/
inductive Ended
  | accepted
  | exhausted (uncertain refusal : Option String)

/-- The hosts that are asked, in turn, and how that ends. -/
def attempts (net : Net) (txID : String) : List Host → Option String → Option String → List Host × Ended
  | [], uncertain, refusal => ([], .exhausted uncertain refusal)
  | host :: rest, uncertain, refusal =>
    match readAttempt env txID (net.broadcast host) with
    | .accepted => ([host], .accepted)
    | .refused message => ([host], .exhausted uncertain (some message))
    | .uncertain why =>
      let r := attempts net txID rest (uncertain.or (some why)) refusal
      (host :: r.1, r.2)
    | .status why =>
      let r := attempts net txID rest uncertain (refusal.or (some why))
      (host :: r.1, r.2)
    | .busy message =>
      let r := attempts net txID rest uncertain (some message)
      (host :: r.1, r.2)

/-! ## Looking it up -/

/-- The body of the first host that answers well. -/
def tronFetch (ask : Host → Answer) : Option String :=
  match ask .trongrid with
  | .ok (status, text) => if isOk status then some text else stack
  | .error _ => stack
where
  stack : Option String :=
    match ask .tronstack with
    | .ok (status, text) => if isOk status then some text else none
    | .error _ => none

/-- The transaction's receipt, if a host shows it in a block. -/
def included (net : Net) (n : Nat) : Option Json :=
  ((tronFetch (net.lookup n)).bind env.jsonParse).filter fun info => (prop (some info) "id").any (isTruthy env.toEnv)

/-- `info.receipt?.result` where that is truthy -/
def receiptResult (info : Json) : Option Json :=
  (prop (prop (some info) "receipt") "result").filter (isTruthy env.toEnv)

def isSuccess : Json → Bool
  | .str s => s == "SUCCESS"
  | _ => false

def failedOnChain (info : Json) : Bool :=
  textField info "result" == "FAILED" || (receiptResult env info).any fun outcome => !isSuccess outcome

inductive Waited
  | confirmed
  | pending
  | failed (why : String)
deriving DecidableEq

def EXECUTION_TIMEOUT_MS : Int := 30000

/-- A round of `waitForTronExecution`. -/
def executionRound (net : Net) (n : Nat) : Option Waited :=
  match included env net n with
  | some info =>
    if failedOnChain env info then
      let outcome := ((receiptResult env info).map env.toText).getD "FAILED"
      some (.failed (orText (tronNodeMessage (info.get "resMessage")) outcome))
    else some .confirmed
  | none => if net.now n ≥ net.entered + EXECUTION_TIMEOUT_MS then some .pending else none

/-! ## The broadcast -/

inductive TronError
  /-- every node answered, and none took it -/
  | refused (message : String)
  | failedOnChain (why txID : String)
  | outcomeUnknown (message hash : String)
deriving DecidableEq

def TronError.text : TronError → String
  | .refused message => message
  | .failedOnChain why txID =>
    s!"The transaction was included but failed on chain: {why}. No tokens moved; " ++
      s!"the TRX spent on energy and bandwidth is not refunded. Transaction {txID}."
  | .outcomeUnknown message _ => message

inductive TronResult
  | accepted | confirmed
deriving DecidableEq

def afterWaiting (txID label why : String) : Waited → Except TronError TronResult
  | .confirmed => .ok .confirmed
  | .failed reason => .error (.failedOnChain reason txID)
  | .pending =>
    .error (.outcomeUnknown
      s!"TRON gave no clear answer to the {label} broadcast: {why}. It is not in a block yet." txID)

/-- What a broadcast comes to, with the hosts that got the transaction and the bytes they got. -/
structure Outcome where
  sent : List (Host × String)
  outcome : Except TronError TronResult
deriving DecidableEq

/-- None if this many rounds of polling are not enough. -/
def broadcastTronTransaction (net : Net) (body txID label : String) (rounds : Nat) : Option Outcome :=
  let r := attempts env net txID [.trongrid, .tronstack] none none
  let sent := r.1.map fun host => (host, body)
  match r.2 with
  | .accepted => some ⟨sent, .ok .accepted⟩
  | .exhausted none refusal => some ⟨sent, .error (.refused (refusal.getD s!"{label} broadcast failed"))⟩
  | .exhausted (some why) _ =>
    (Poll.run (executionRound env net) rounds 0).map fun w => ⟨sent, afterWaiting txID label why w.2⟩

end

end Tron
