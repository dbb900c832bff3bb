import PwndaWallet.Lib.Machine
import PwndaWallet.Lib.Unicode
import PwndaWallet.Lib.Js

/-!
# Pricing a send

The controller behind the send form asks the wallet what a send costs. An "auto" controller asks while the user types;
for an "on-request" one a price is the built transaction, and it asks only when it is told to. Its user, its timer and
the wallet take their turns in any order.
-/

namespace SendQuotes

open Js

/-! ## What is priced -/

structure QuoteInputs where
  recipient : String
  amount : String
  assetType : Option String
  deriving DecidableEq

/-- `/^\d+(\.\d+)?$/` -/
def isDecimal (s : List Char) : Bool :=
  s.head?.any Char.isDigit &&
    match s.dropWhile Char.isDigit with
    | [] => true
    | '.' :: frac => frac != [] && frac.all Char.isDigit
    | _ => false

def isPositiveDigit (c : Char) : Bool := c.isDigit && c != '0'

def quotableInputs (recipient amount : String) (assetType : Option String) : Option QuoteInputs :=
  let t := trim recipient.toList
  let a := trim amount.toList
  if (Unicode.units t).length < 26 ∨ t.any isSpace then none
  else if !isDecimal a ∨ !a.any isPositiveDigit then none
  else some ⟨String.ofList t, String.ofList a, assetType⟩

def sameInputs : Option QuoteInputs → Option QuoteInputs → Bool
  | some a, some b => a.recipient == b.recipient && a.amount == b.amount && a.assetType == b.assetType
  | none, none => true
  | _, _ => false

/-- The built and signed transaction that a quote carries. -/
structure Ticket where
  txMetadata : String
  txHash : String
  /-- The wallet session that built it. -/
  epoch : Nat
  fee : Int

structure SendQuote where
  recipient : String
  amount : String
  assetType : Option String
  fee : String
  feeTicker : Option String
  quotedAt : Int
  ticket : Ticket

inductive SendQuoteErrorKind
  | insufficientFunds
  | invalidAddress
  | notReady
  | other
  deriving DecidableEq

/-- What a call for a quote throws: its kind if it is a `SendQuoteError`, and its text. -/
structure QuoteError where
  kind : Option SendQuoteErrorKind
  text : String

def quoteErrorKind (e : QuoteError) : SendQuoteErrorKind := e.kind.getD .other

def isDefinitiveQuoteError (e : QuoteError) : Bool :=
  quoteErrorKind e = .insufficientFunds ∨ quoteErrorKind e = .invalidAddress

structure QuoteFailure where
  kind : SendQuoteErrorKind
  message : String
  definitive : Bool

def describeQuoteFailure (e : QuoteError) : QuoteFailure := ⟨quoteErrorKind e, e.text, isDefinitiveQuoteError e⟩

structure QuoteSnapshot where
  inputs : Option QuoteInputs
  quote : Option SendQuote
  failure : Option QuoteFailure
  pending : Bool

def EMPTY_QUOTE : QuoteSnapshot := ⟨none, none, none, false⟩

inductive QuoteMode
  | auto
  | onRequest
  deriving DecidableEq

def QUOTE_DEBOUNCE_MS : Nat := 600

def QUOTE_REFRESH_MS : Nat := 60000

/-! ## The controller -/

/-- A call of the wallet that has not been answered, with what `run` read before it. -/
structure Running where
  id : Nat
  inputs : QuoteInputs
  gen : Nat
  forgets : Nat

/-- What is on record of a run. -/
inductive Note
  | changed (next : Option QuoteInputs)
  | asked
  | discarded
  | disposed
  | shown (snap : QuoteSnapshot)
  | called (id : Nat) (inputs : QuoteInputs)
  | answered (id : Nat) (inputs : QuoteInputs) (r : Except QuoteError SendQuote)

structure Controller where
  snap : QuoteSnapshot := EMPTY_QUOTE
  /-- The delay that the armed timer was given. -/
  timer : Option Nat := none
  generation : Nat := 0
  inFlight : Bool := false
  inFlightInputs : Option QuoteInputs := none
  rerun : Bool := false
  disposed : Bool := false
  lastBuild : Option (QuoteInputs × SendQuote) := none
  forgetCount : Nat := 0
  /-- The calls that are waited for, and how many there were. -/
  running : List Running := []
  calls : Nat := 0
  /-- The record, the newest note first. -/
  log : List Note := []

namespace Controller

def note (c : Controller) (x : Note) : Controller := { c with log := x :: c.log }

def emit (c : Controller) (next : QuoteSnapshot) : Controller :=
  if c.disposed then { c with snap := next } else { c with snap := next, log := .shown next :: c.log }

def clear (c : Controller) : Controller := { c with timer := none }

def schedule (c : Controller) (ms : Nat) : Controller := { c.clear with timer := some ms }

/-- `if (!snap.pending) emit({ ...snap, pending: true })` -/
def await (c : Controller) : Controller := if c.snap.pending then c else c.emit { c.snap with pending := true }

/-- The wallet is called. -/
def call (c : Controller) (inputs : QuoteInputs) : Controller :=
  { c with
    running := ⟨c.calls, inputs, c.generation, c.forgetCount⟩ :: c.running
    calls := c.calls + 1
    log := .called c.calls inputs :: c.log }

/-- The last build, where it is one of these inputs. -/
def reusable (mode : QuoteMode) (c : Controller) (inputs : QuoteInputs) : Option SendQuote :=
  if mode = .onRequest then
    (c.lastBuild.filter fun b => sameInputs (some b.1) (some inputs)).map (·.2)
  else none

/-- `run` up to the wallet's answer. -/
def run (mode : QuoteMode) (c : Controller) : Controller :=
  match c.snap.inputs with
  | none => c
  | some inputs =>
    if c.disposed then c
    else if c.inFlight then
      if mode = .onRequest ∧ sameInputs c.inFlightInputs c.snap.inputs then c
      else if mode = .onRequest then { c with rerun := true }.await
      else { c with rerun := true }
    else
      match c.reusable mode inputs with
      | some quote => c.emit ⟨some inputs, some quote, none, false⟩
      | none => ({ c with inFlight := true, rerun := false, inFlightInputs := some inputs }.await).call inputs

/-- `lastBuild` of an answer in time. -/
def remember (mode : QuoteMode) (call : Running) (r : Except QuoteError SendQuote) (c : Controller) : Controller :=
  match r with
  | .ok q => if mode = .onRequest ∧ call.forgets = c.forgetCount then { c with lastBuild := some (call.inputs, q) } else c
  | .error _ => c

def settled (inputs : QuoteInputs) : Except QuoteError SendQuote → QuoteSnapshot
  | .ok q => ⟨some inputs, some q, none, false⟩
  | .error e => ⟨some inputs, none, some (describeQuoteFailure e), false⟩

/-- `run` from the wallet's answer on. -/
def resume (mode : QuoteMode) (call : Running) (r : Except QuoteError SendQuote) (c : Controller) : Controller :=
  let c := { c.remember mode call r with inFlight := false, inFlightInputs := none }
  if c.disposed then c
  else if c.rerun then { c with rerun := false }.run mode
  else if call.gen ≠ c.generation then c
  else if mode = .auto then (c.emit (settled call.inputs r)).schedule QUOTE_REFRESH_MS
  else c.emit (settled call.inputs r)

def setInputs (mode : QuoteMode) (next : Option QuoteInputs) (c : Controller) : Controller :=
  if c.disposed ∨ sameInputs next c.snap.inputs then c
  else
    let c := ({ c with generation := c.generation + 1 }.clear).note (.changed next)
    match next with
    | none => c.emit EMPTY_QUOTE
    | some inputs =>
      if mode = .onRequest then { c with rerun := false }.emit ⟨some inputs, none, none, false⟩
      else (c.emit ⟨some inputs, none, none, true⟩).schedule QUOTE_DEBOUNCE_MS

/-- `request` and `retry` do the same. -/
def ask (mode : QuoteMode) (c : Controller) : Controller :=
  let c := c.note .asked
  if c.disposed ∨ c.snap.inputs = none then c
  else if mode = .onRequest then if c.snap.quote.isSome then c else c.run mode
  else ({ c with generation := c.generation + 1 }.clear).run mode

def request (mode : QuoteMode) (c : Controller) : Controller := c.ask mode

def retry (mode : QuoteMode) (c : Controller) : Controller := c.ask mode

def discard (c : Controller) : Controller :=
  if c.disposed then c
  else
    let c := ({ c with
      lastBuild := none, forgetCount := c.forgetCount + 1, generation := c.generation + 1 }.clear).note .discarded
    if c.snap.quote.isSome ∨ c.snap.failure.isSome ∨ c.snap.pending then c.emit ⟨c.snap.inputs, none, none, false⟩
    else c

def dispose (c : Controller) : Controller :=
  ({ c with disposed := true, generation := c.generation + 1 }.clear).note .disposed

end Controller

/-! ## Its turns -/

inductive Turn
  | setInputs (next : Option QuoteInputs)
  | retry
  | request
  | discard
  | dispose
  | fire
  | answer (id : Nat) (r : Except QuoteError SendQuote)

def Turn.take (mode : QuoteMode) (c : Controller) : Turn → Option Controller
  | .setInputs next => some (c.setInputs mode next)
  | .retry => some (c.retry mode)
  | .request => some (c.request mode)
  | .discard => some c.discard
  | .dispose => some c.dispose
  | .fire => c.timer.map fun _ => c.clear.run mode
  | .answer id r =>
    (c.running.find? fun call => call.id == id).map fun call =>
      (({ c with running := c.running.filter fun call => call.id != id }).note (.answered id call.inputs r)).resume mode call r

/-- A controller on its own: `createQuoteController` in one of the two modes. -/
def controller (mode : QuoteMode) : Tasks.Machine Controller Turn where
  step c t := t.take mode c

end SendQuotes
