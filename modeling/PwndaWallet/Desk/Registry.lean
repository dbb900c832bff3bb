import PwndaWallet.Desk.World

/-!
# The registry of the stop flags

`DeskWatchers` over any set of swaps: which flag the map has for an id, what the tasks that registered a
flag hold of it, and the flags themselves. Everything else that a task is answered is the outside's.
-/

namespace Desk

open Tasks

structure OwnedFlag where
  raised : Bool
  /-- the swap it was registered for; a flag that a task made for itself has none -/
  owner : Option String

structure Registry where
  flags : List OwnedFlag
  /-- the map of `DeskWatchers` -/
  watchers : String → Option FlagRef
  /-- the flags that a task registered and has not handed over -/
  held : Nat → List (String × FlagRef)
  /-- the task has cleared an entry -/
  cleared : Nat → Bool

/-- The swap and the stop flag that a task is spawned with. -/
def Spawn.stopFlag : Spawn → Option (String × FlagRef)
  | .choreography _ => none
  | .reclaimWatch id_ stop => some (id_, stop)
  | .refundWatcher id_ _ stop => some (id_, stop)
  | .rehydratedRefundWatcher id_ _ stop => some (id_, stop)
  | .swipeWatch id_ stop => some (id_, stop)
  | .pollLoop id_ stop _ => some (id_, stop)

def Entry.stopFlag : Entry → Option (String × FlagRef)
  | .task t => t.stopFlag
  | _ => none

/-- The restart is done with a flag when it has spawned the refund watcher. -/
def handOver (held : List (String × FlagRef)) : Spawn → List (String × FlagRef)
  | .rehydratedRefundWatcher id_ _ stop => held.erase (id_, stop)
  | _ => held

namespace Registry

/-- A process that has just started. -/
def empty : Registry := ⟨[], fun _ => none, fun _ => [], fun _ => false⟩

def raisedAt (w : Registry) (f : FlagRef) : Bool := (w.flags[f]?.map (·.raised)).getD false

def reply (w : Registry) : (o : Op) → o.Ans → o.Ans
  | .watchers (.register id_), _ => (w.watchers id_).getD w.flags.length
  | .flag (.new _), _ => w.flags.length
  | .flag (.load f), _ => w.raisedAt f
  | .flag (.swap f _), _ => w.raisedAt f
  | _, r => r

def setFlag (fs : List OwnedFlag) (f : FlagRef) (b : Bool) : List OwnedFlag :=
  fs.modify f fun x => { x with raised := b }

def flagsAfter (w : Registry) : Op → List OwnedFlag
  | .watchers (.register id_) =>
    if (w.watchers id_).isSome then w.flags else w.flags ++ [⟨false, some id_⟩]
  | .watchers (.raise id_) =>
    match w.watchers id_ with
    | some f => setFlag w.flags f true
    | none => w.flags
  | .flag (.new b) => w.flags ++ [⟨b, none⟩]
  | .flag (.store f b) => setFlag w.flags f b
  | .flag (.swap f b) => setFlag w.flags f b
  | _ => w.flags

def watchersAfter (w : Registry) : Op → String → Option FlagRef
  | .watchers (.register id_) => fun s =>
    if s = id_ then some ((w.watchers id_).getD w.flags.length) else w.watchers s
  | .watchers (.clear id_) => fun s => if s = id_ then none else w.watchers s
  | _ => w.watchers

def heldAfter (held : List (String × FlagRef)) : (o : Op) → o.Ans → List (String × FlagRef)
  | .watchers (.register id_), f => (id_, f) :: held
  | .spawn t, _ => handOver held t
  | _, _ => held

def clears : Op → Bool
  | .watchers (.clear _) => true
  | _ => false

/-- After task `i` has had the answer `r`. -/
def after (w : Registry) (i : Nat) (o : Op) (r : o.Ans) : Registry where
  flags := w.flagsAfter o
  watchers := w.watchersAfter o
  held j := if j = i then heldAfter (w.held i) o r else w.held j
  cleared j := w.cleared j || (j == i && clears o)

def respond (i : Nat) (o : Op) (out : Out) (w : Registry) : o.Ans × Registry :=
  let r := w.reply o (out.ans o)
  (r, w.after i o r)

/-- The tasks, the flags and the map end with the process. -/
def restart (_ : Registry) : Registry := empty

/-- The swap is signalled: `DeskWatchers::raise`. -/
def raise (w : Registry) (id_ : String) : Registry :=
  { w with flags := w.flagsAfter (.watchers (.raise id_)) }

/-- Task `i`, running `e`, has a stop flag: it was spawned with it, or registered it. -/
def Stops (w : Registry) (i : Nat) (e : Entry) (p : String × FlagRef) : Prop :=
  e.stopFlag = some p ∨ p ∈ w.held i

end Registry

/-- The tasks of all swaps. -/
def watchers.sys (env : Env) : Sys Op Op.Ans Registry Out Entry where
  respond := Registry.respond
  body := Entry.body env
  spawned := Op.spawned
  restart := Registry.restart

end Desk
