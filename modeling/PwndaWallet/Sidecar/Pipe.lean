import PwndaWallet.Lib.Json
import PwndaWallet.Lib.Machine

/-!
# The engine sidecar

The line protocol that the desk speaks with its engine (`desk/sidecar.rs`): one child, one request
line, one response line, and the lane in which a call waits for the pipe. What the child and the
operating system do during a round trip is an `Outside`; JSON text is read and written by a `Serde`.
Times are in milliseconds.
-/

namespace Sidecar

open Rust

inductive SidecarError where
  | badConfig (message : String)
  | spawn (message : String)
  | configFault (message : String)
  | framing (method detail : String)
  | timeout (method : String) (seconds : Nat)
  | contended (method : String) (seconds : Nat)
  | sidecarDied (lastMethod : String) (code : Option Int)
  | engineRejected (method errorType message : String)

/-- `EX_CONFIG` -/
def exConfig : Int := 78

/-- JSON as text: `serde_json::from_str` and `serde_json::to_string`. -/
structure Serde where
  fromStr : String → Except String Json
  toString : Json → Except String String

/-- A live child and its pipe. -/
structure Inner where
  /-- which of the children it is -/
  child : Nat
  nextId : Nat
  /-- what it wrote that is buffered and not read -/
  stdout : List UInt8

structure Pipe where
  inner : Option Inner
  permanentFault : Option String
  /-- how many children there have been -/
  spawned : Nat

structure Request where
  method : String
  params : Json
  timeout : Nat

/-- What happens around one round trip. -/
structure Outside where
  /-- `validate_secrets_for_spawn` refuses the configuration -/
  badConfig : Option String
  /-- the child cannot be started -/
  spawn : Option String
  write : Option String
  flush : Option String
  /-- what the child has written since the last byte that was taken from its pipe -/
  arrived : List UInt8
  /-- its side of the pipe is closed -/
  closed : Bool
  readError : Option String
  /-- the exit code, if the child can be reaped in time -/
  code : Option Int
  /-- the `ENGINE-CONFIG-FAULT:` line that the drain of its stderr saw -/
  faultLine : Option String

/-- What a round trip does to the children. -/
inductive Event where
  | spawned (child : Nat)
  | wrote (child id : Nat)
  | read (child : Nat) (line : String)

/-- How a call ends: with which answer, and how it leaves the pipe. -/
structure Outcome where
  result : Except SidecarError Json
  pipe : Pipe
  events : List Event

/-! ## Lines -/

/-- `read_line`, as far as it gets before the timeout. -/
inductive ReadLine where
  | elapsed
  | failed (e : String)
  /-- the line that was read, and what is left in the buffer -/
  | line (text : String) (rest : List UInt8)

def newline : UInt8 := 10

def decodeLine (bytes rest : List UInt8) : ReadLine :=
  match String.fromUTF8? ⟨bytes.toArray⟩ with
  | some text => .line text rest
  | none => .failed "stream did not contain valid UTF-8"

def readLine (inner : Inner) (o : Outside) : ReadLine :=
  let bytes := inner.stdout ++ o.arrived
  if newline ∈ bytes then
    decodeLine (bytes.takeWhile (· ≠ newline) ++ [newline]) (bytes.dropWhile (· ≠ newline)).tail
  else
    match o.readError with
    | some e => .failed e
    | none => if o.closed then decodeLine bytes [] else .elapsed

/-- `split_once(": ")` -/
def splitOnce : List Char → Option (List Char × List Char)
  | ':' :: ' ' :: rest => some ([], rest)
  | c :: cs => (splitOnce cs).map fun (a, b) => (c :: a, b)
  | [] => none

def parseEngineError (wire : String) : String × String :=
  match splitOnce wire.toList with
  | some (ty, msg) => (trim (String.ofList ty), trim (String.ofList msg))
  | none => ("EngineError", trim wire)

/-! ## One round trip -/

def spawn (p : Pipe) (o : Outside) : Except SidecarError Inner :=
  match o.badConfig, o.spawn with
  | some e, _ => .error (.badConfig e)
  | none, some e => .error (.spawn e)
  | none, none => .ok ⟨p.spawned, 0, []⟩

/-- The child the round trip is held with, and whether it is a new one. -/
def ensureSpawned (p : Pipe) (o : Outside) : Except SidecarError (Inner × Pipe × List Event) :=
  match p.inner with
  | some inner => .ok (inner, p, [])
  | none => do
    let inner ← spawn p o
    return (inner, { p with inner := some inner, spawned := p.spawned + 1 }, [.spawned inner.child])

def requestJson (id : Nat) (req : Request) : Json :=
  .obj [("id", .int id), ("method", .str req.method), ("params", req.params)]

/-- `classify_death`, and the empty slot it leaves. -/
def classifyDeath (p : Pipe) (req : Request) (o : Outside) (ioDetail : Option String)
    (events : List Event) : Outcome :=
  if o.code = some exConfig ∨ o.faultLine.isSome then
    let msg := o.faultLine.getD (match ioDetail with
      | some d => s!"exit {exConfig} ({d})"
      | none => s!"exit {exConfig}")
    ⟨.error (.configFault msg), { p with inner := none, permanentFault := some msg }, events⟩
  else ⟨.error (.sidecarDied req.method o.code), { p with inner := none }, events⟩

def respId (resp : Json) : Option Nat := (resp.get "id").bind Json.asU64

/-- What a response that echoes the request's id says. -/
def answer (req : Request) (resp : Json) : Except SidecarError Json :=
  if (resp.get "ok").bind Json.asBool = some true then .ok ((resp.get "result").getD .null)
  else
    let wire := ((resp.get "error").bind Json.asStr).getD "unknown engine rejection"
    .error (.engineRejected req.method (parseEngineError wire).1 (parseEngineError wire).2)

/-- The response line is parsed and its id is compared. -/
def judge (sd : Serde) (p : Pipe) (req : Request) (inner : Inner) (text : String)
    (events : List Event) : Outcome :=
  match sd.fromStr (trimEnd text) with
  | .error e =>
    ⟨.error (.framing req.method s!"unparseable response line {debugStr (trimEnd text)}: {e}"),
      { p with inner := some inner }, events⟩
  | .ok resp =>
    if respId resp = some inner.nextId then ⟨answer req resp, { p with inner := some inner }, events⟩
    else
      let got := match respId resp with
        | some n => s!"Some({n})"
        | none => "None"
      ⟨.error (.framing req.method s!"expected id {inner.nextId}, got {got}"), { p with inner := none },
        events⟩

/-- The request line is written and the response line is read. -/
def exchange (sd : Serde) (p : Pipe) (req : Request) (timeout : Nat) (o : Outside) (inner : Inner)
    (events : List Event) : Outcome :=
  let events := events ++ [.wrote inner.child inner.nextId]
  match o.write.or o.flush with
  | some e => classifyDeath p req o (some e) events
  | none =>
    match readLine inner o with
    | .elapsed => ⟨.error (.timeout req.method (timeout / 1000)), { p with inner := none }, events⟩
    | .failed e => classifyDeath p req o (some e) events
    | .line text rest =>
      if text = "" then classifyDeath p req o none events
      else judge sd p req { inner with stdout := rest } text (events ++ [.read inner.child text])

def roundTripLocked (sd : Serde) (p : Pipe) (req : Request) (timeout : Nat) (o : Outside) : Outcome :=
  match ensureSpawned p o with
  | .error e => ⟨.error e, p, []⟩
  | .ok (inner, p, events) =>
    let inner := { inner with nextId := inner.nextId + 1 }
    match sd.toString (requestJson inner.nextId req) with
    | .error e =>
      ⟨.error (.framing req.method s!"cannot serialize request: {e}"), { p with inner := some inner }, events⟩
    | .ok _ => exchange sd p req timeout o inner events

/-! ## Calls -/

/-- A protocol call that waits for the pipe. -/
structure Pending where
  req : Request
  /-- how many calls had ended when it began -/
  began : Nat

/-- A call that has ended. -/
structure Done where
  req : Request
  began : Nat
  before : Pipe
  /-- what was around its round trip, if it had one -/
  outside : Option Outside
  outcome : Outcome

structure Desk where
  pipe : Pipe
  pending : List Pending
  done : List Done

inductive Move where
  /-- `call_with_timeout` begins -/
  | call (req : Request)
  /-- a protocol call has the pipe after `waited` -/
  | acquired (i waited : Nat) (o : Outside)
  /-- a protocol call has waited for its whole budget -/
  | starved (i : Nat)
  /-- `call_watch`, while somebody has the pipe or nobody -/
  | watch (req : Request) (held : Bool) (o : Outside)
  | shutdown

namespace Desk

def init : Desk := ⟨⟨none, none, 0⟩, [], []⟩

/-- A call ends. -/
def finish (d : Desk) (req : Request) (began : Nat) (o : Option Outside) (out : Outcome) : Desk :=
  { d with pipe := out.pipe, done := d.done ++ [⟨req, began, d.pipe, o, out⟩] }

/-- A call ends that leaves the pipe alone. -/
def refuse (d : Desk) (req : Request) (began : Nat) (e : SidecarError) : Desk :=
  d.finish req began none ⟨.error e, d.pipe, []⟩

/-- What is left of the caller's budget for the round trip. -/
def remaining (timeout waited : Nat) : Nat := max (timeout - waited) 1000

def callWithTimeout (d : Desk) (req : Request) : Desk :=
  match d.pipe.permanentFault with
  | some msg => d.refuse req d.done.length (.configFault msg)
  | none => { d with pending := d.pending ++ [⟨req, d.done.length⟩] }

def callWatch (sd : Serde) (d : Desk) (req : Request) (held : Bool) (o : Outside) : Desk :=
  match d.pipe.permanentFault with
  | some msg => d.refuse req d.done.length (.configFault msg)
  | none =>
    if !d.pending.isEmpty || held then d.refuse req d.done.length (.contended req.method 0)
    else d.finish req d.done.length (some o) (roundTripLocked sd d.pipe req req.timeout o)

def step (sd : Serde) (d : Desk) : Move → Option Desk
  | .call req => some (d.callWithTimeout req)
  | .acquired i waited o => do
    let c ← d.pending[i]?
    let d := { d with pending := d.pending.eraseIdx i }
    return d.finish c.req c.began (some o)
      (roundTripLocked sd d.pipe c.req (remaining c.req.timeout waited) o)
  | .starved i => do
    let c ← d.pending[i]?
    let d := { d with pending := d.pending.eraseIdx i }
    return d.refuse c.req c.began (.contended c.req.method (c.req.timeout / 1000))
  | .watch req held o => some (callWatch sd d req held o)
  | .shutdown => some { d with pipe := { d.pipe with inner := none } }

end Desk

/-- The desk's calls over one sidecar, whatever the child writes. -/
def machine (sd : Serde) : Tasks.Machine Desk Move := ⟨Desk.step sd⟩

end Sidecar
