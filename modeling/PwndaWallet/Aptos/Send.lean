import PwndaWallet.Lib.Js
import PwndaWallet.Send.Outcome

/-!
# An Aptos send

`aptosSubmitEntryFunction` and `settleAptosSend` of `wallets/apt-wallet.ts`: a transfer is simulated, built, signed
and submitted once, and looked up by its hash until its outcome shows. The library, the answers of the API and the
clock are parameters.
-/

namespace Aptos

open Rust SessionSend

/-- What the engine computes: `JSON.parse`, with the text of its error, and `String(v)`. -/
structure Engine where
  jsonParse : String → Except String Json
  toText : Json → String

/-! ## Timing and gas -/

def EXPIRY_SECS : Int := 30
def LEDGER_MARGIN_SECS : Int := 10
def GRACE_MS : Int := 30000

def APT_MIN_MAX_GAS : Int := 2000

def aptMaxGasFor (gasUsed : Int) : Int :=
  let withHeadroom := (gasUsed * 3 + 1).tdiv 2
  if withHeadroom > APT_MIN_MAX_GAS then withHeadroom else APT_MIN_MAX_GAS

/-! ## Outcomes -/

inductive AptosError where
  | early (text : String)
  | refused (detail : String)
  | failed (vmStatus hash : String)
  | expired (hash : String)
  | outcomeUnknown (message hash : String)
deriving DecidableEq

def AptosError.text : AptosError → String
  | .early text => text
  | .refused detail => s!"Aptos refused the transaction: {detail}. Nothing was sent."
  | .failed vmStatus hash =>
    let why := if vmStatus = "" then "no reason given" else vmStatus
    s!"Aptos committed the transaction but it failed ({why}). " ++
      s!"The network fee was charged; the amount was not sent. Hash: {hash}"
  | .expired hash =>
    "The Aptos transaction expired before it was committed, so it can no longer go through. " ++
      s!"Nothing was sent; it is safe to send again. Hash: {hash}"
  | .outcomeUnknown message _ => message

structure TxResult where
  hash : String
  pending : Bool
deriving DecidableEq

/-! ## The library and the API -/

structure Simulation where
  success : Bool
  vmStatus : Option String
  gasUsed : String
  gasUnitPrice : String

structure BuildOptions where
  maxGasAmount : Int
  gasUnitPrice : Int
  accountSequenceNumber : Nat
  expireTimestamp : Int

/-- The library, with its types of a transaction and of a signature: the account and the draft of a transfer, its
simulation, and the transaction that is signed. -/
structure Sdk (Tx Auth : Type) where
  draft : Except String Tx
  sequenceNumber : Tx → Nat
  simulate : Tx → Except String (Option Simulation)
  build : BuildOptions → Except String Tx
  sign : Tx → Except String Auth
  hashOf : Tx → Auth → Except String String

/-- A submit is accepted, or throws an error, with its status where that is a number. -/
inductive Submitted where
  | accepted
  | failed (status : Option Nat) (detail : String)

/-- The answers and the clock of a send; the rounds of the polling are numbered. -/
structure Net (Tx Auth : Type) where
  submit : Tx → Auth → Submitted
  ledger : Nat → Reply
  lookup : Nat → String → Reply
  built : Int
  entered : Int
  now : Nat → Int

section

variable (env : Engine) {Tx Auth : Type}

/-! ## What the API shows -/

/-- The ledger's clock, in whole seconds, where it can be read. -/
def aptosLedgerSecs : Reply → Option Int
  | .error _ => none
  | .ok r =>
    if r.ok then
      match env.jsonParse r.body with
      | .error _ => none
      | .ok d =>
        (prop (some d) "ledger_timestamp").bind fun us => (Js.bigInt (env.toText us)).map fun n => n.tdiv 1000000
    else none

inductive AptosLookup where
  | committed (success : Bool) (vmStatus : String)
  | pending
  | missing
  | error (detail : String)
deriving DecidableEq

def isPending (t : Json) : Bool :=
  match t.get "type" with
  | some (.str type) => type == "pending_transaction"
  | _ => false

def readTransaction (t : Json) : AptosLookup :=
  if isPending t then .pending
  else
    match t.get "success" with
    | some (.bool success) => .committed success (((prop (some t) "vm_status").map env.toText).getD "")
    | _ =>
      let type := ((t.get "type").map env.toText).getD "undefined"
      .error s!"unexpected lookup answer (type {type})"

def lookupAptosTx : Reply → AptosLookup
  | .error e => .error e
  | .ok r =>
    if r.status = 404 then .missing
    else if !r.ok then .error s!"HTTP {r.status} looking the transaction up"
    else
      match env.jsonParse r.body with
      | .error e => .error e
      | .ok t => readTransaction env t

/-! ## Settling by hash -/

/-- What went wrong last before this round. -/
def lastProblem (net : Net Tx Auth) (hash submitProblem : String) : Nat → String
  | 0 => submitProblem
  | n + 1 =>
    match lookupAptosTx env (net.lookup n hash) with
    | .error detail => detail
    | _ => lastProblem net hash submitProblem n

/-- What a send comes to that nothing settles. -/
def unsettled (hash : String) (accepted : Bool) (problem : String) : Except AptosError TxResult :=
  if accepted then .ok ⟨hash, true⟩
  else
    let why := if problem = "" then "" else " (" ++ problem ++ ")"
    .error (.outcomeUnknown s!"Aptos did not confirm the transaction{why}." hash)

def deadline (net : Net Tx Auth) (expireSecs : Int) : Int := max net.entered (expireSecs * 1000) + GRACE_MS

def isPast (ledgerSecs : Option Int) (expireSecs : Int) : Bool :=
  ledgerSecs.any fun secs => secs > expireSecs + LEDGER_MARGIN_SECS

/-- The end of a round: the deadline. -/
def stillOpen (net : Net Tx Auth) (hash : String) (expireSecs : Int) (accepted : Bool) (submitProblem : String)
    (n : Nat) : Option (Except AptosError TxResult) :=
  if net.now n ≥ deadline net expireSecs then
    some (unsettled hash accepted (lastProblem env net hash submitProblem (n + 1)))
  else none

/-- A round of `settleAptosSend`: the ledger's clock first, then the lookup. -/
def settleAptosRound (net : Net Tx Auth) (hash : String) (expireSecs : Int) (accepted : Bool) (submitProblem : String)
    (n : Nat) : Option (Except AptosError TxResult) :=
  let ledgerSecs := aptosLedgerSecs env (net.ledger n)
  match lookupAptosTx env (net.lookup n hash) with
  | .committed success vmStatus =>
    if success then some (.ok ⟨hash, false⟩) else some (.error (.failed vmStatus hash))
  | .missing =>
    if isPast ledgerSecs expireSecs then some (.error (.expired hash))
    else stillOpen env net hash expireSecs accepted submitProblem n
  | .pending => stillOpen env net hash expireSecs accepted submitProblem n
  | .error _ => stillOpen env net hash expireSecs accepted submitProblem n

/-! ## The send -/

/-- An amount that the simulation names. -/
def amount (text : String) : Except String Int :=
  match Js.bigInt text with
  | some n => .ok n
  | none => .error s!"Cannot convert {text} to a BigInt"

def expireSecs (net : Net Tx Auth) : Int := net.built / 1000 + EXPIRY_SECS

/-- Steps 1 and 2: the transaction that is signed. -/
def buildTransaction (sdk : Sdk Tx Auth) (refusalText : String → String) (net : Net Tx Auth) : Except String Tx :=
  sdk.draft.bind fun draft =>
    (sdk.simulate draft).bind fun
      | none => .error "Aptos returned no simulation for this transfer. Nothing was sent."
      | some sim =>
        if !sim.success then .error (refusalText (sim.vmStatus.getD ""))
        else
          (amount sim.gasUsed).bind fun gasUsed =>
            (amount sim.gasUnitPrice).bind fun gasUnitPrice =>
              sdk.build {
                maxGasAmount := aptMaxGasFor gasUsed
                gasUnitPrice := gasUnitPrice
                accountSequenceNumber := sdk.sequenceNumber draft
                expireTimestamp := expireSecs net }

/-- Step 3: the signature and the hash. -/
def signTransaction (sdk : Sdk Tx Auth) (transaction : Tx) : Except String (Auth × String) :=
  (sdk.sign transaction).bind fun auth => (sdk.hashOf transaction auth).map fun hash => (auth, hash)

/-- A status by which the node refuses the transaction. -/
def isRefusal (status : Nat) : Bool :=
  400 ≤ status && status < 500 && status != 408 && status != 409 && status != 429

inductive Judged where
  | refused (detail : String)
  | settle (accepted : Bool) (submitProblem : String)

def judgeSubmit : Submitted → Judged
  | .accepted => .settle true ""
  | .failed (some status) detail => if isRefusal status then .refused detail else .settle false detail
  | .failed none detail => .settle false detail

/-- What a send comes to, with the transactions that were signed and what was submitted on the way. -/
structure Sent (Tx Auth : Type) where
  signed : List Tx
  submitted : List (Tx × Auth)
  outcome : Except AptosError TxResult

/-- None if this many rounds of polling are not enough. -/
def aptosSubmitEntryFunction (sdk : Sdk Tx Auth) (refusalText : String → String) (net : Net Tx Auth) (rounds : Nat) :
    Option (Sent Tx Auth) :=
  match buildTransaction sdk refusalText net with
  | .error text => some ⟨[], [], .error (.early text)⟩
  | .ok tx =>
    match signTransaction sdk tx with
    | .error text => some ⟨[tx], [], .error (.early text)⟩
    | .ok (auth, hash) =>
      match judgeSubmit (net.submit tx auth) with
      | .refused detail => some ⟨[tx], [(tx, auth)], .error (.refused detail)⟩
      | .settle accepted submitProblem =>
        (Poll.run (settleAptosRound env net hash (expireSecs net) accepted submitProblem) rounds 0).map fun r =>
          ⟨[tx], [(tx, auth)], r.2⟩

end

end Aptos
