import PwndaWallet.Lib.Monitor
import PwndaWallet.Desk.World

/-!
# How the tasks conduct themselves

One monitor for every task of a swap: what a task has in hand, and what it may ask with that. The
recovery tasks act on the record they read last, `desk_status` mirrors the reply it had, a choreography
carries its copy of the record from its first read to its last.
-/

namespace Desk

open Tasks

/-- How far a choreography is with our lock and our claim. -/
inductive Phase where
  | fresh
  /-- the refund pre-signature is saved -/
  | armed
  /-- the lock is answered with its txid, which the copy has and the file has not -/
  | sent
  | locked
  | claimed (txid : String)
  | settled
  /-- nothing but the end is left -/
  | failed

structure Drive where
  role : ClientRole
  /-- the record it carries -/
  copy : StoredSwap
  phase : Phase
  /-- the stop flag it registered -/
  stop : Option FlagRef
  /-- its flag for the watch of chain B -/
  own : Option FlagRef

inductive Hand where
  /-- a task that acts on the record it read last -/
  | free (last : Option StoredSwap)
  /-- a recovery is out and this record has to be saved -/
  | owes (rec : StoredSwap)
  | polls
  | polled (st : StatusResponse)
  | mirrors (st : StatusResponse) (rec : StoredSwap)
  | starts
  | drives (d : Drive)
  | ends
  /-- a choreography that read the record for its decision to stand down -/
  | judges (d : Drive) (rec : StoredSwap)

/-- What neither reads nor writes the record, puts nothing on a chain and hears no status. -/
def Plain : Op → Prop
  | .client (.status _) => False
  | .crypto c => txOf (.crypto c) = none
  | .store (.save _) => False
  | .store (.load _) => False
  | .store (.remove _) => False
  | _ => True

/-- What any task may ask at any time: plain, and no flag is touched. -/
def Idle : Op → Prop
  | .watchers _ => False
  | .flag (.load _) => True
  | .flag _ => False
  | o => Plain o

def isSave : Op → Bool
  | .store (.save _) => true
  | _ => false

/-- The record after our lock, as the choreography of each role writes it. -/
def lockedRecord (role : ClientRole) (rec : StoredSwap) (txid : String) : StoredSwap :=
  match role with
  | .follower => (rec.setLockB txid).setState "B_LOCKED"
  | .leader => (rec.setLockA txid).setState "A_LOCKED"

/-- What a choreography saves. -/
def Drive.MaySave (d : Drive) (rec : StoredSwap) : Prop :=
  match d.phase with
  | .fresh => ∃ ours p, rec = (d.copy.setRefundPresig ours).setClaimPresig p
  | .armed => rec = d.copy.setState "STOPPED_BEFORE_LOCK_B"
  | .sent => rec = d.copy
  | .locked => d.role = .leader ∧ ∃ txid, txid ≠ "" ∧ rec = d.copy.setLockB txid
  | .claimed _ => rec = d.copy.setState "A_CLAIMED"
  | .settled => rec = d.copy.setState "SETTLED"
  | .failed => False

/-- What a choreography may ask. -/
def Drive.Allows (d : Drive) : Op → Prop
  | .client (.status _) => True
  | .crypto (.lock _) => d.role = .follower ∧ d.phase = .armed
  | .crypto (.submitLock _) => d.role = .leader ∧ d.phase = .armed
  | .crypto (.claim _) => d.phase = .locked
  | .store (.save rec) => d.MaySave rec
  | .store (.load _) => d.phase ≠ .sent
  | .watchers (.register _) => True
  | .flag (.new _) => True
  | .flag (.store f _) => d.own = some f
  | .flag (.swap f _) => d.own = some f
  | o => Idle o

/-- What a choreography that has read the record for its decision may ask. -/
def JudgesAllow (d : Drive) (rec : StoredSwap) : Op → Prop
  | .flag (.store f b) => b = true ∧ d.stop = some f ∧ standsDown d.role rec = true
  | .watchers (.clear _) => standsDown d.role rec = true
  | o => Idle o

/-- What a recovery task may ask with the record it read last. -/
def FreeAllows (last : Option StoredSwap) : Op → Prop
  | .store (.load _) => True
  | .crypto (.refund _) => ∃ rec id_ req, last = some rec ∧ refundRequest id_ rec = .ok (some req)
  | .crypto (.reclaim _ _) => ∃ rec id_, last = some rec ∧ reclaimGuard id_ rec = .ok none
  | .crypto (.swipe _) => ∃ rec now, last = some rec ∧ deepAbortOpen rec now = true
  | .watchers (.register _) => True
  | .watchers (.clear _) => True
  | .flag (.new _) => True
  | o => Idle o

/-- What `desk_status` may ask after the reply `st`. -/
def PolledAllows (st : StatusResponse) : Op → Prop
  | .watchers (.raise _) => (DeskSwapState.parse st.state).isTerminal = true
  | .store (.remove _) => (DeskSwapState.parse st.state).isTerminal = true
  | .store (.load _) => True
  | o => Idle o

def Hand.Allows : Hand → Op → Prop
  | .free last, o => FreeAllows last o
  | .owes rec, .store (.save rec') => rec' = rec
  | .polls, .client (.status _) => True
  | .polled st, o => PolledAllows st o
  | .mirrors st rec, .store (.save rec') => rec' = mirror st rec
  | .starts, .store (.load _) => True
  | .drives d, o => d.Allows o
  | .judges d rec, o => JudgesAllow d rec o
  | _, o => Idle o

/-! ## What it has in hand next -/

/-- A lock is answered. -/
def Drive.afterLock (d : Drive) : Option String → Drive
  | some txid => { d with copy := lockedRecord d.role d.copy txid, phase := .sent }
  | none => { d with phase := .failed }

def Drive.afterClaim (d : Drive) : Option String → Drive
  | some txid => { d with phase := if d.role = .leader then .settled else .claimed txid }
  | none => d

def Phase.saved : Phase → Phase
  | .fresh => .armed
  | .sent => .locked
  | p => p

def Phase.unsaved : Phase → Phase
  | .sent => .failed
  | p => p

def Drive.afterSave (d : Drive) : Option StoredSwap → Drive
  | some rec => { d with copy := rec, phase := d.phase.saved }
  | none => { d with phase := d.phase.unsaved }

def Drive.afterStatus (d : Drive) (st : StatusResponse) : Drive :=
  match d.phase with
  | .claimed txid => { d with phase := if settledBy txid st then .settled else .claimed txid }
  | _ => d

def Drive.next (d : Drive) : (o : Op) → o.Ans → Hand
  | .store (.load _), .ok rec => .judges d rec
  | .store (.save rec), r => .drives (d.afterSave (savedBy (.store (.save rec)) r))
  | .client (.status _), .ok st => .drives (d.afterStatus st)
  | .crypto (.lock _), r => .drives (d.afterLock (txidIn r))
  | .crypto (.submitLock _), r => .drives (d.afterLock (txidIn r))
  | .crypto (.claim _), r => .drives (d.afterClaim (txidIn r))
  | .watchers (.register _), f => .drives { d with stop := some f }
  | .flag (.new _), f => .drives { d with own := some f }
  | _, _ => .drives d

/-- A recovery is answered with its txid. -/
def owesAfter (last : Option StoredSwap) (tx : Option Tx) (txid : Option String) : Hand :=
  match tx, txid, last with
  | some .refund, some t, some rec => .owes (rec.setRefunded t)
  | some .reclaim, some t, some rec => .owes (rec.setReclaimed t)
  | _, _, last => .free last

def Hand.next : Hand → (o : Op) → o.Ans → Hand
  | .free last, o, r =>
    match loadedBy o r with
    | some rec => .free (some rec)
    | none => owesAfter last (txOf o) (txidBy o r)
  | .owes rec, o, r => if isSave o then .free (savedBy o r) else .owes rec
  | .polls, o, r =>
    match repliedBy o r with
    | some st => .polled st
    | none => .polls
  | .polled st, o, r =>
    match loadedBy o r with
    | some rec => .mirrors st rec
    | none => .polled st
  | .starts, o, r =>
    match loadedBy o r with
    | some rec =>
      match ClientRole.fromDeskRole rec.deskRole with
      | .ok role => .drives ⟨role, rec, .fresh, none, none⟩
      | .error _ => .ends
    | none => .starts
  | .mirrors st rec, o, _ => if isSave o then .polls else .mirrors st rec
  | .drives d, o, r => d.next o r
  | h, _, _ => h

def conduct : Monitor Op Op.Ans where
  State := Hand
  allows := Hand.Allows
  next := Hand.next

/-- What each task starts with. -/
def Entry.hand : Entry → Hand
  | .deskStatus _ => .polls
  | .task (.choreography _) => .starts
  | _ => .free none

/-! ## What is plain changes nothing -/

section
variable {o : Op} {r : o.Ans}

theorem plain_noTx (h : Plain o) : txOf o = none := by
  cases o with
  | crypto c => exact h
  | _ => rfl

theorem plain_noTxid (h : Plain o) : txidBy o r = none := by
  cases o with
  | crypto c => cases c <;> first | rfl | exact absurd h nofun
  | _ => rfl

theorem plain_noLoad (h : Plain o) : loadedBy o r = none := by
  cases o with
  | store c => cases c <;> first | rfl | exact h.elim
  | _ => rfl

theorem plain_noSave (h : Plain o) : savedBy o r = none := by
  cases o with
  | store c => cases c <;> first | rfl | exact h.elim
  | _ => rfl

theorem plain_noReply (h : Plain o) : repliedBy o r = none := by
  cases o with
  | client c => cases c <;> first | rfl | exact h.elim
  | _ => rfl

theorem plain_notSave (h : Plain o) : isSave o = false := by
  cases o with
  | store c => cases c <;> first | rfl | exact h.elim
  | _ => rfl

theorem plain_noRemove (h : Plain o) : removedBy o r = false := by
  cases o with
  | store c => cases c <;> first | rfl | exact h.elim
  | _ => rfl

theorem plain_of_idle (h : Idle o) : Plain o := by
  cases o with
  | watchers c => exact trivial
  | flag c => exact trivial
  | _ => exact h

theorem idle_drive (d : Drive) (h : Idle o) : d.next o r = .drives d := by
  cases o with
  | store c => cases c <;> first | rfl | exact h.elim
  | client c => cases c <;> first | rfl | exact h.elim
  | watchers c => exact h.elim
  | flag c => cases c <;> first | rfl | exact h.elim
  | crypto c => cases c <;> first | rfl | exact absurd h nofun
  | _ => rfl

theorem allows_idle (s : Hand) (h : Idle o) : s.Allows o := by
  cases s with
  | free last => cases o with
    | store c => cases c <;> first | exact h | exact h.elim
    | crypto c => cases c <;> first | exact h | exact absurd h nofun
    | watchers c => exact h.elim
    | flag c => cases c <;> first | exact h | exact h.elim
    | _ => exact h
  | polled st => cases o with
    | store c => cases c <;> first | exact h | exact h.elim
    | watchers c => exact h.elim
    | _ => exact h
  | drives d => cases o with
    | client c => cases c <;> first | exact h | exact h.elim
    | store c => cases c <;> first | exact h | exact h.elim
    | crypto c => cases c <;> first | exact h | exact absurd h nofun
    | watchers c => exact h.elim
    | flag c => cases c <;> first | exact h | exact h.elim
    | _ => exact h
  | judges d rec => cases o with
    | watchers c => exact h.elim
    | flag c => cases c <;> first | exact h | exact h.elim
    | _ => exact h
  | owes rec => cases o with
    | store c => cases c <;> first | exact h | exact h.elim
    | _ => exact h
  | mirrors st rec => cases o with
    | store c => cases c <;> first | exact h | exact h.elim
    | _ => exact h
  | starts => cases o with
    | store c => cases c <;> first | exact h | exact h.elim
    | _ => exact h
  | polls => cases o with
    | client c => cases c <;> first | exact h | exact h.elim
    | _ => exact h
  | ends => exact h

theorem next_idle (s : Hand) (h : Idle o) : s.next o r = s := by
  cases s with
  | free last =>
    simp only [Hand.next, plain_noLoad (plain_of_idle h), plain_noTx (plain_of_idle h), owesAfter]
  | owes rec => simp [Hand.next, plain_notSave (plain_of_idle h)]
  | mirrors st rec => simp [Hand.next, plain_notSave (plain_of_idle h)]
  | polls => simp only [Hand.next, plain_noReply (plain_of_idle h)]
  | polled st => simp only [Hand.next, plain_noLoad (plain_of_idle h)]
  | starts => simp only [Hand.next, plain_noLoad (plain_of_idle h)]
  | drives d => exact idle_drive d h
  | _ => rfl

end

end Desk
