import PwndaWallet.Lib.Text

/-!
# What our own chain access sees

Sightings of a lock (`desk/watch.rs`), how the engine's `watch_lock` reply becomes one, and the
observer's cell that keeps the last one with its time (`desk/observer.rs`). Times are milliseconds.
-/

namespace Desk

inductive Chain where
  | A
  | B
deriving Inhabited, DecidableEq

def Chain.asStr : Chain → String
  | .A => "A"
  | .B => "B"

inductive LockSighting where
  | confirmed (confs height : Nat) (txid : String)
  | notYet (confs : Nat)
  | couldNotLook (error : String)
deriving Inhabited, DecidableEq

def LockSighting.isConfirmedTo (s : LockSighting) (minConfs : Nat) : Bool :=
  match s with
  | .confirmed confs _ _ => decide (minConfs ≤ confs)
  | _ => false

/-- The fields of a `watch_lock` reply, `none` where a field is absent or of another type. -/
structure WatchLock where
  error : Option String
  confirmed : Option Bool
  confs : Option Nat
  height : Option Nat
  txid : Option String
deriving Inhabited

def mapWatchLock (v : WatchLock) : LockSighting :=
  let err := Rust.trim (v.error.getD "")
  let confirmed := v.confirmed.getD false
  let confs := v.confs.getD 0
  if !Rust.isEmpty err && !confirmed then .couldNotLook err
  else if confirmed then .confirmed confs (v.height.getD 0) (v.txid.getD "")
  else .notYet confs

theorem isConfirmedTo_mapWatchLock (v : WatchLock) (n : Nat) :
    (mapWatchLock v).isConfirmedTo n = true ↔ v.confirmed = some true ∧ n ≤ v.confs.getD 0 := by
  unfold mapWatchLock
  rcases hc : v.confirmed with _ | _ | _
  · by_cases he : Rust.isEmpty (Rust.trim (v.error.getD "")) <;> simp [LockSighting.isConfirmedTo, he]
  · by_cases he : Rust.isEmpty (Rust.trim (v.error.getD "")) <;> simp [LockSighting.isConfirmedTo, he]
  · simp [LockSighting.isConfirmedTo]

/-! ## The observer -/

def POLL_INTERVAL : Nat := 15

def STALENESS_INTERVALS : Nat := 6

/-- A sighting with the time of the poll that made it. A cell that no poll has filled is blind. -/
structure Dated where
  sighting : LockSighting
  at_ : Option Nat
  blind : at_ = none → ∃ e, sighting = .couldNotLook e

/-- The cell of a new observer. -/
def Dated.unpolled : Dated := ⟨.couldNotLook "no poll has completed yet", none, fun _ => ⟨_, rfl⟩⟩

instance : Inhabited Dated := ⟨.unpolled⟩

/-- What `poll_once` leaves in the cell. -/
def Dated.polled (s : LockSighting) (now : Nat) : Dated := ⟨s, some now, fun h => nomatch h⟩

/-- `with_interval`: how old a sighting may be, in milliseconds; `interval` is in seconds. -/
def maxAge (interval : Nat) : Nat :=
  if interval = 0 then POLL_INTERVAL * STALENESS_INTERVALS * 1000
  else interval * STALENESS_INTERVALS * 1000

def observeLock (chain : Chain) (maxAge : Nat) (cell : Dated) (now : Nat) : LockSighting :=
  match cell.at_ with
  | some t =>
    if now - t ≤ maxAge then cell.sighting
    else .couldNotLook (s!"the last sighting for chain {chain.asStr} is {(now - t) / 1000}s old " ++
      s!"(limit {maxAge / 1000}s) - the poll loop has stopped or is starved, so this is not our " ++
      "current view of the chain")
  | none => cell.sighting

/-- The cell holds a sighting of a poll no older than `maxAge` that confirms `n` deep. -/
def Dated.Fresh (maxAge n now : Nat) (cell : Dated) : Prop :=
  ∃ t confs height txid, cell.at_ = some t ∧ now - t ≤ maxAge ∧
    cell.sighting = .confirmed confs height txid ∧ n ≤ confs

theorem fresh_of_isConfirmedTo {chain : Chain} {age n now : Nat} {cell : Dated}
    (h : (observeLock chain age cell now).isConfirmedTo n = true) : cell.Fresh age n now := by
  obtain ⟨s, t, hb⟩ := cell
  cases t with
  | none =>
    obtain ⟨e, rfl⟩ := hb rfl
    simp [observeLock, LockSighting.isConfirmedTo] at h
  | some t =>
    simp only [observeLock] at h
    split at h
    · cases s with
      | confirmed confs height txid =>
        exact ⟨t, confs, height, txid, rfl, ‹_›, rfl, by simpa [LockSighting.isConfirmedTo] using h⟩
      | notYet confs => simp [LockSighting.isConfirmedTo] at h
      | couldNotLook e => simp [LockSighting.isConfirmedTo] at h
    · simp [LockSighting.isConfirmedTo] at h

end Desk
