import PwndaWallet.Bridge.Privileged
import PwndaWallet.Fees.Schedule
import PwndaWallet.Lib.Fs

/-!
# The fee ledger

The record of each bid and the files it is kept in (`sidecar_fees/ledger.rs`), step by step. JSON
texts, RFC 3339 times and decimal numbers are read and printed by a `Host`. Times are in nanoseconds.
-/

namespace Fees

open Rust Tasks Tasks.Fs Bridge

inductive FeeState where
  | watching
  | noFee (reason : String)
  | observed (ticker : String) (amount notional : Nat) (at_ : String)
  | attempting (ticker : String) (amount : Nat) (at_ : String)
  | paid (ticker : String) (amount : Nat) (txid at_ : String)
  | indeterminate (ticker : String) (amount : Nat) (note : String)
  | deferred (ticker : String) (amount : Nat) (until_ : String) (tries : Nat)
deriving DecidableEq

structure FeeRecord where
  bidId : String
  state : FeeState
  detail : String
deriving DecidableEq

namespace FeeRecord

def watching (bidId : String) : FeeRecord := ⟨bidId, .watching, ""⟩

def isOpen (rec : FeeRecord) : Bool :=
  match rec.state with
  | .watching => true
  | .deferred _ _ _ _ => true
  | _ => false

def isSettledForever (rec : FeeRecord) : Bool :=
  match rec.state with
  | .noFee _ => true
  | .observed _ _ _ _ => true
  | .paid _ _ _ _ => true
  | .indeterminate _ _ _ => true
  | _ => false

end FeeRecord

/-- What the program has from its libraries. -/
structure Host where
  toPretty : FeeRecord → Except String String
  fromPretty : String → Except String FeeRecord
  fromPretty_toPretty : ∀ {rec text}, toPretty rec = .ok text → fromPretty text = .ok rec
  toRfc3339 : Int → String
  parseRfc3339 : String → Except String Int
  parse_toRfc3339 : ∀ t, parseRfc3339 (trim (toRfc3339 t)) = .ok t
  parseJson : String → Except String Json
  printJson : Json → String
  /-- whether a decimal number parses, and if so whether it is finite and positive -/
  parsedF64 : String → Option Bool
  /-- whether `json_number` reads a number below 100 in a value -/
  below100 : Json → Bool
  /-- the atomic units of a balance that is a floating point number, finite and not negative -/
  balanceF64 : Json → Option Nat

inductive FeeOp where
  | fs (o : FsOp String)
  | now
  | apiContext
  /-- a read of the node's API: the path, and whether it is a POST -/
  | api (path : String) (post : Bool)
  /-- a privileged POST, for the fee of a bid -/
  | post (bid path : String) (body : Json)

abbrev FeeOp.Ans : FeeOp → Type
  | .fs o => o.Ans
  | .now => Int
  | .apiContext => Bool
  | .api _ _ => Except String Json
  | .post _ _ _ => PostReply

abbrev FeeProg := Prog FeeOp FeeOp.Ans String

/-! ## Names -/

def safeId (bidId : String) : Except String String :=
  let id := trim bidId
  if id = "" ∨ id.utf8ByteSize > 128 then .error s!"implausible bid id {debugStr bidId}"
  else if !id.toList.all fun c => c.isAlphanum || c == '-' || c == '_' then
    .error s!"bid id {debugStr bidId} is not filename-safe"
  else .ok id

def recordName (id : String) : String := id ++ ".json"

def tmpName (id : String) : String := id ++ ".json.tmp"

/-- `BASELINE_FILE` -/
def baselineFile : String := "first-started.marker"

section
variable (h : Host)

/-! ## Records -/

/-- `std::fs::write` -/
def writeFile (name content : String) : FeeProg Unit := do
  .request (.fs (.create name)) fun r => r.mapError fun e => s!"write {name}: {e.toString}"
  .request (.fs (.write name content)) fun r => r.mapError fun e => s!"write {name}: {e.toString}"

def write (rec : FeeRecord) : FeeProg Unit := do
  let id ← .ofExcept (safeId rec.bidId)
  let body ← .ofExcept ((h.toPretty rec).mapError fun e => s!"serialise: {e}")
  writeFile (tmpName id) body
  -- the destination is taken away first, whatever that answers
  .request (.fs (.remove (recordName id))) fun _ => .ok ()
  .request (.fs (.rename (tmpName id) (recordName id))) fun r =>
    r.mapError fun e => s!"rename into {recordName id}: {e.toString}"

def read (bidId : String) : FeeProg (Option FeeRecord) := do
  let id ← .ofExcept (safeId bidId)
  .request (.fs (.read (recordName id))) fun
    | .error .notFound => .ok none
    | .error (.other e) => .error s!"read {recordName id}: {e}"
    | .ok text =>
      match h.fromPretty text with
      | .ok rec => .ok (some rec)
      | .error e => .error s!"record {recordName id} is corrupt: {e}"

/-- One entry of the directory: a record, a file that is none, or nothing to read. -/
def loadEntry (name : String) : FeeProg (Option (Except String FeeRecord)) :=
  match splitExtension name with
  | some (_, "json") => .request (.fs (.read name)) fun
    | .ok text => .ok (some ((h.fromPretty text).mapError fun e => s!"{name}: {e}"))
    | .error e => .ok (some (.error s!"{name}: {e.toString}"))
  | _ => .ret none

def loadEntries : List String → FeeProg (List FeeRecord × List String)
  | [] => .ret ([], [])
  | name :: rest => do
    let entry ← loadEntry h name
    let (out, bad) ← loadEntries rest
    match entry with
    | some (.ok rec) => return (rec :: out, bad)
    | some (.error e) => return (out, e :: bad)
    | none => return (out, bad)

def sortRecords (recs : List FeeRecord) : List FeeRecord :=
  recs.mergeSort fun a b => if b.bidId < a.bidId then false else true

def loadAll : FeeProg (List FeeRecord × List String) := do
  let names ← .request (.fs .readDir) fun r => .ok r.toOption
  match names with
  | none => return ([], [])
  | some names =>
    let (out, bad) ← loadEntries h names
    return (sortRecords out, bad)

/-! ## The start -/

/-- The unix seconds of a time. -/
def timestamp (t : Int) : Int := t / 1000000000

def readOrCreateBaseline : FeeProg Int := do
  let found ← .request (.fs (.read baselineFile)) fun
    | .ok text =>
      match h.parseRfc3339 (trim text) with
      | .ok t => .ok (some (timestamp t))
      | .error e => .error (s!"the baseline marker {baselineFile} is unreadable ({e}); refusing to guess" ++
          " when                      fee watching began, because guessing early charges swaps that" ++
          "                      settled before it")
    | .error .notFound => .ok none
    | .error (.other e) => .error s!"read {baselineFile}: {e}"
  match found with
  | some baseline => return baseline
  | none =>
    let now ← .ask .now
    writeFile baselineFile (h.toRfc3339 now)
    return timestamp now

/-- What `reconcile_on_start` makes of a record. -/
def interrupted (rec : FeeRecord) : Option FeeRecord :=
  match rec.state with
  | .attempting ticker amount at_ =>
    some { rec with
      state := .indeterminate ticker amount (s!"a withdraw was in flight at {at_} when the wallet " ++
        "stopped; outcome unknown. NOT retried automatically — check the wallet for a matching " ++
        "payment before doing anything.") }
  | _ => none

def reconcileEach : List FeeRecord → FeeProg Unit
  | [] => .ret ()
  | rec :: rest => do
    match interrupted rec with
    | some rec => write h rec
    | none => .ret ()
    reconcileEach rest

def reconcileOnStart : FeeProg Unit := do
  let (records, bad) ← loadAll h
  .ensure bad.isEmpty (s!"{bad.length} unreadable fee record(s); refusing to collect until reconciled:\n  " ++
    "\n  ".intercalate bad)
  reconcileEach h records

end

end Fees
