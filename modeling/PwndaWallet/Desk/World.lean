import PwndaWallet.Lib.Sys
import PwndaWallet.Desk.Rehydrate

/-!
# The world of one swap

What the tasks of one swap share: the file of its record, the stop flags and their registry, and what
the outside has seen. Every id is the id of that swap. The fields from `chain` on are written for the
statements about runs; no answer depends on them.
-/

namespace Desk

open Tasks

/-- What one of our calls puts on a chain. -/
inductive Tx where
  | lock
  | claim
  | refund
  | reclaim
  | swipe
deriving DecidableEq

def Tx.recovers : Tx → Bool
  | .lock => false
  | .claim => false
  | .refund => true
  | .reclaim => true
  | .swipe => true

structure StopFlag where
  raised : Bool
  /-- it is one of the registry's -/
  shared : Bool

structure World where
  slot : Option StoredSwap
  flags : List StopFlag
  watcher : Option FlagRef
  /-- what is on a chain and which task put it there, the last first -/
  chain : List (Nat × Tx)
  /-- the swap has settled -/
  settled : Bool
  /-- the record that was saved last, also when the file is gone -/
  last : Option StoredSwap
  /-- the record as the task last read or wrote it -/
  base : Nat → Option StoredSwap
  /-- the last reply to `/status` that the task had -/
  heard : Nat → Option StatusResponse
  /-- the txid that the task's last call of the kind was answered with -/
  named : Nat → Tx → Option String
  /-- the tasks that put a recovery on a chain and have not saved since -/
  unsaved : List Nat
  /-- a task saved the txid that its lock was answered with -/
  kept : Bool

/-! ## What an answer says -/

def savedBy : (o : Op) → o.Ans → Option StoredSwap
  | .store (.save rec), .ok _ => some rec
  | _, _ => none

def removedBy : (o : Op) → o.Ans → Bool
  | .store (.remove _), .ok _ => true
  | _, _ => false

def loadedBy : (o : Op) → o.Ans → Option StoredSwap
  | .store (.load _), .ok rec => some rec
  | _, _ => none

def repliedBy : (o : Op) → o.Ans → Option StatusResponse
  | .client (.status _), .ok st => some st
  | _, _ => none

/-- What the call puts on a chain if it takes effect. -/
def txOf : Op → Option Tx
  | .crypto (.lock _) => some .lock
  | .crypto (.submitLock _) => some .lock
  | .crypto (.claim _) => some .claim
  | .crypto (.refund _) => some .refund
  | .crypto (.reclaim _ _) => some .reclaim
  | .crypto (.swipe _) => some .swipe
  | _ => none

def txidIn (r : Except CryptoError (Option String)) : Option String :=
  match r with
  | .ok t => nonEmpty t
  | .error _ => none

/-- The txid that the answer to such a call names. -/
def txidBy : (o : Op) → o.Ans → Option String
  | .crypto (.lock _), r => txidIn r
  | .crypto (.submitLock _), r => txidIn r
  | .crypto (.claim _), r => txidIn r
  | .crypto (.refund _), r => txidIn r
  | .crypto (.reclaim _ _), r => txidIn r
  | .crypto (.swipe _), r => txidIn r
  | _, _ => none

/-- The txid of the leg that its role locks. -/
def StoredSwap.ownLock (rec : StoredSwap) : Option String :=
  match ClientRole.fromDeskRole rec.deskRole with
  | .ok role => nonEmpty (rec.ownLockTxid role)
  | .error _ => none

/-- The txid that the reply has for the leg `role` locks. -/
def StatusResponse.ownLockTxid (st : StatusResponse) (role : ClientRole) : String :=
  match role.clientLockChain with
  | .A => st.lockATxid
  | .B => st.lockBTxid

/-! ## How the world answers -/

/-- The part of an answer that the world outside decides. -/
structure Out where
  ans : (o : Op) → o.Ans
  /-- the call took effect, whatever the answer says -/
  published : Bool
  settled : Bool

namespace World

/-- A record in the file, and nothing else. -/
def ofRecord (rec : StoredSwap) : World where
  slot := some rec
  flags := []
  watcher := none
  chain := []
  settled := false
  last := some rec
  base _ := none
  heard _ := none
  named _ _ := none
  unsaved := []
  kept := false

def raisedAt (w : World) (f : FlagRef) : Bool := (w.flags[f]?.map (·.raised)).getD false

/-- The answer: the store, the flags and the registry have their own, the rest is the outside's. -/
def reply (w : World) : (o : Op) → o.Ans → o.Ans
  | .store (.load _), .ok _ =>
    match w.slot with
    | some rec => .ok rec
    | none => .error (.io "entity not found")
  | .store .loadAll, .ok _ => .ok w.slot.toList
  | .watchers (.register _), _ => w.watcher.getD w.flags.length
  | .flag (.new _), _ => w.flags.length
  | .flag (.load f), _ => w.raisedAt f
  | .flag (.swap f _), _ => w.raisedAt f
  | _, r => r

def setFlag (fs : List StopFlag) (f : FlagRef) (b : Bool) : List StopFlag :=
  fs.modify f fun x => { x with raised := b }

def flagsAfter (w : World) : Op → List StopFlag
  | .watchers (.register _) => if w.watcher.isSome then w.flags else w.flags ++ [⟨false, true⟩]
  | .watchers (.raise _) =>
    match w.watcher with
    | some f => setFlag w.flags f true
    | none => w.flags
  | .flag (.new b) => w.flags ++ [⟨b, false⟩]
  | .flag (.store f b) => setFlag w.flags f b
  | .flag (.swap f b) => setFlag w.flags f b
  | _ => w.flags

def watcherAfter (w : World) : Op → Option FlagRef
  | .watchers (.register _) => some (w.watcher.getD w.flags.length)
  | .watchers (.clear _) => none
  | _ => w.watcher

/-- The call put `tx` on its chain: it took effect, or its answer names the transaction. -/
def putBy (o : Op) (r : o.Ans) (published : Bool) : Option Tx :=
  if published || (txidBy o r).isSome then txOf o else none

def recoveredBy (o : Op) (r : o.Ans) (published : Bool) : Bool :=
  ((putBy o r published).map Tx.recovers).getD false

def unsavedAfter (w : World) (i : Nat) (o : Op) (r : o.Ans) (published : Bool) : List Nat :=
  if recoveredBy o r published then i :: w.unsaved
  else if (savedBy o r).isSome then w.unsaved.filter (· != i)
  else w.unsaved

/-- The answer to a save that keeps the txid of the task's lock. -/
def keepsLock (w : World) (i : Nat) (o : Op) (r : o.Ans) : Bool :=
  match savedBy o r, w.named i .lock with
  | some rec, some txid => rec.ownLock == some txid
  | _, _ => false

/-- The world after task `i` has had the answer `r`. -/
def after (w : World) (i : Nat) (o : Op) (r : o.Ans) (out : Out) : World where
  slot := (savedBy o r).or (if removedBy o r then none else w.slot)
  flags := w.flagsAfter o
  watcher := w.watcherAfter o
  chain := ((putBy o r out.published).map (i, ·)).toList ++ w.chain
  settled := w.settled || out.settled
  last := (savedBy o r).or w.last
  base j := if j = i then (savedBy o r).or ((loadedBy o r).or (w.base i)) else w.base j
  heard j := if j = i then (repliedBy o r).or (w.heard i) else w.heard j
  named j tx := if j = i ∧ txOf o = some tx then txidBy o r else w.named j tx
  unsaved := w.unsavedAfter i o r out.published
  kept := w.kept || w.keepsLock i o r

def respond (i : Nat) (o : Op) (out : Out) (w : World) : o.Ans × World :=
  let r := w.reply o (out.ans o)
  (r, w.after i o r out)

/-- A process that ends takes its flags and their registry with it. -/
def restart (w : World) : World := { w with flags := [], watcher := none }

end World

/-! ## The system -/

inductive Entry where
  | deskStatus (id : String)
  | deskProceed (id : String)
  | rehydrate
  | task (t : Spawn)

/-- The recovery tasks, with what starts and feeds them. -/
def Entry.Recovers : Entry → Prop
  | .rehydrate => True
  | .task (.reclaimWatch _ _) => True
  | .task (.refundWatcher _ _ _) => True
  | .task (.rehydratedRefundWatcher _ _ _) => True
  | .task (.swipeWatch _ _) => True
  | .task (.pollLoop _ _ _) => True
  | _ => False

def Entry.body (env : Env) : Entry → DeskM Unit Unit
  | .deskStatus id_ => (Desk.deskStatus id_).detach
  | .deskProceed id_ => (Desk.deskProceed env.armed id_).detach
  | .rehydrate => (Desk.rehydrate env.armed).detach
  | .task t => t.body env

def Op.spawned : Op → Option Entry
  | .spawn t => some (.task t)
  | _ => none

def desk (env : Env) : Sys Op Op.Ans World Out Entry where
  respond := World.respond
  body := Entry.body env
  spawned := Op.spawned
  restart := World.restart

end Desk
