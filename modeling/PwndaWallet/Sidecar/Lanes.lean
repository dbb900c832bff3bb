import PwndaWallet.Sidecar.Pipe

/-!
# The lanes of the engine sidecar

`call_with_timeout` and `call_watch` (`desk/sidecar.rs`) step by step: each operation on the counter of
pending protocol calls and on the mutex of the pipe is a move of its own. The mutex is fair: it is handed
to the first in its queue, and `try_lock` gets it only when nobody has it. Calls are numbered in the order
of their first operation on the counter; a round trip is one move, whatever it ends with.
-/

namespace Sidecar

open Rust

/-- How a call ends; `none` if its future is dropped. -/
abbrev CallEnd := Option (Except SidecarError Json)

inductive Stage where
  /-- registered in `critical_pending`, and not at the mutex yet -/
  | registered
  /-- in the queue of the mutex -/
  | queued
  /-- a protocol call that has the pipe -/
  | holding
  /-- the mutex is let go, or given up, and the registration stands -/
  | released (r : CallEnd)
  /-- a watch call that found no pending protocol call -/
  | cleared
  /-- a watch call that has the pipe -/
  | watching
  | ended (r : CallEnd)

/-- A protocol call that is registered. -/
def Stage.unfinished : Stage → Bool
  | .registered => true
  | .queued => true
  | .holding => true
  | .released _ => true
  | _ => false

def Stage.isCleared : Stage → Bool
  | .cleared => true
  | _ => false

structure Call where
  req : Request
  stage : Stage

structure Lanes where
  permanentFault : Option String
  criticalPending : Nat
  holder : Option Nat
  queue : List Nat
  calls : List Call

inductive Turn where
  /-- `call_with_timeout` has looked for a permanent fault, and registers if it saw none -/
  | call (req : Request) (fault : Option String)
  /-- `call_watch` has looked for a permanent fault, and reads the counter if it saw none -/
  | watch (req : Request) (fault : Option String)
  /-- `inner.lock()` -/
  | lock (i : Nat)
  /-- a call in the queue finds that it has the mutex -/
  | granted (i : Nat)
  /-- its budget is over -/
  | elapsed (i : Nat)
  /-- `inner.try_lock()` -/
  | tryLock (i : Nat)
  /-- a round trip ends, and the guard is dropped -/
  | answered (i : Nat) (r : Except SidecarError Json)
  /-- the future of a call is dropped at one of its awaits -/
  | dropped (i : Nat)
  /-- `CriticalPending` is dropped -/
  | unregister (i : Nat)

namespace Lanes

def init : Lanes := ⟨none, 0, none, [], []⟩

def stage (s : Lanes) (i : Nat) : Option Stage := s.calls[i]?.map Call.stage

def push (s : Lanes) (req : Request) (stage : Stage) : Lanes := { s with calls := s.calls ++ [⟨req, stage⟩] }

def put (s : Lanes) (i : Nat) (c : Call) (stage : Stage) : Lanes :=
  { s with calls := s.calls.set i { c with stage } }

/-- The mutex goes to the first in the queue. -/
def release (s : Lanes) : Lanes := { s with holder := s.queue.head?, queue := s.queue.tail }

/-- A call leaves the queue, or hands on the mutex that it was given and had not found. -/
def leave (s : Lanes) (i : Nat) : Lanes :=
  if s.holder = some i then s.release else { s with queue := s.queue.filter (· ≠ i) }

/-- What a round trip leaves as the permanent fault. -/
def noteFault (s : Lanes) : Except SidecarError Json → Lanes
  | .error (.configFault msg) => { s with permanentFault := some msg }
  | _ => s

/-- What a call can have read as the permanent fault: what there is, or that there was none. -/
def reads (s : Lanes) (fault : Option String) : Bool := fault.isNone || fault == s.permanentFault

def callWithTimeout (s : Lanes) (req : Request) (fault : Option String) : Lanes :=
  match fault with
  | some msg => s.push req (.ended (some (.error (.configFault msg))))
  | none => { s.push req .registered with criticalPending := s.criticalPending + 1 }

def callWatch (s : Lanes) (req : Request) (fault : Option String) : Lanes :=
  match fault with
  | some msg => s.push req (.ended (some (.error (.configFault msg))))
  | none =>
    if s.criticalPending > 0 then s.push req (.ended (some (.error (.contended req.method 0))))
    else s.push req .cleared

/-- A move of the call `c`, which is number `i`. -/
def turn (s : Lanes) (i : Nat) (c : Call) : Turn → Option Lanes
  | .lock _ =>
    match c.stage, s.holder with
    | .registered, none => some { s.put i c .holding with holder := some i }
    | .registered, some _ => some { s.put i c .queued with queue := s.queue ++ [i] }
    | _, _ => none
  | .granted _ =>
    match c.stage with
    | .queued => if s.holder = some i then some (s.put i c .holding) else none
    | _ => none
  | .elapsed _ =>
    match c.stage with
    | .queued =>
      some ((s.leave i).put i c (.released (some (.error (.contended c.req.method (c.req.timeout / 1000))))))
    | _ => none
  | .tryLock _ =>
    match c.stage, s.holder with
    | .cleared, none => some { s.put i c .watching with holder := some i }
    | .cleared, some _ => some (s.put i c (.ended (some (.error (.contended c.req.method 0)))))
    | _, _ => none
  | .answered _ r =>
    match c.stage with
    | .holding => some ((s.noteFault r).release.put i c (.released (some r)))
    | .watching => some ((s.noteFault r).release.put i c (.ended (some r)))
    | _ => none
  | .dropped _ =>
    match c.stage with
    | .queued => some ((s.leave i).put i c (.released none))
    | .holding => some (s.release.put i c (.released none))
    | .watching => some (s.release.put i c (.ended none))
    | _ => none
  | .unregister _ =>
    match c.stage with
    | .released r => some { s.put i c (.ended r) with criticalPending := s.criticalPending - 1 }
    | _ => none
  | _ => none

def step (s : Lanes) : Turn → Option Lanes
  | .call req fault => if s.reads fault then some (s.callWithTimeout req fault) else none
  | .watch req fault => if s.reads fault then some (s.callWatch req fault) else none
  | .lock i => s.calls[i]?.bind fun c => s.turn i c (.lock i)
  | .granted i => s.calls[i]?.bind fun c => s.turn i c (.granted i)
  | .elapsed i => s.calls[i]?.bind fun c => s.turn i c (.elapsed i)
  | .tryLock i => s.calls[i]?.bind fun c => s.turn i c (.tryLock i)
  | .answered i r => s.calls[i]?.bind fun c => s.turn i c (.answered i r)
  | .dropped i => s.calls[i]?.bind fun c => s.turn i c (.dropped i)
  | .unregister i => s.calls[i]?.bind fun c => s.turn i c (.unregister i)

/-- No protocol call registers while a watch call is between its look at the counter and the mutex. -/
def apart (s : Lanes) : Turn → Bool
  | .call _ fault => fault.isSome || s.calls.all fun c => !c.stage.isCleared
  | _ => true

end Lanes

/-- Any number of calls, in any order of their steps. -/
def lanes : Tasks.Machine Lanes Turn := ⟨Lanes.step⟩

/-!
## Protocol calls come first

A watch call that comes after a protocol call has registered finds it in the counter and yields. One that
looked before it registered does not: it tries the mutex all the same (`not_always_first`). If no protocol
call registers between the two steps of a watch call, none is registered when a watch call gets the pipe.
-/

namespace Lanes

variable {s s' : Lanes}

/-! ## What a move does -/

/-- A watch call that looked at the counter and is not over. -/
def looks : Stage → Bool
  | .cleared => true
  | .watching => true
  | _ => false

/-- What a move does to the call `c`. -/
inductive Turned (s s' : Lanes) (c : Call) : Stage → Prop
  | waits {stage : Stage} : c.stage.unfinished = true → stage.unfinished = true →
      s'.criticalPending = s.criticalPending → Turned s s' c stage
  | ends {r : CallEnd} : c.stage.unfinished = true → s'.criticalPending = s.criticalPending - 1 →
      Turned s s' c (.ended r)
  | acquires : c.stage = .cleared → s.holder = none → s'.criticalPending = s.criticalPending →
      Turned s s' c .watching
  | yields {r : CallEnd} : looks c.stage = true → s'.criticalPending = s.criticalPending → Turned s s' c (.ended r)

/-- What a move does: a call begins, or one call goes on. -/
inductive Moved (s s' : Lanes) (t : Turn) : Prop
  | refused {req : Request} {r : CallEnd} : s'.calls = s.calls ++ [⟨req, .ended r⟩] →
      s'.criticalPending = s.criticalPending → Moved s s' t
  | registers {req : Request} : t = .call req none →
      s'.calls = s.calls ++ [⟨req, .registered⟩] → s'.criticalPending = s.criticalPending + 1 → Moved s s' t
  | clears {req : Request} : s'.calls = s.calls ++ [⟨req, .cleared⟩] → s.criticalPending = 0 →
      s'.criticalPending = 0 → Moved s s' t
  | goesOn {i : Nat} {c : Call} {stage : Stage} : s.calls[i]? = some c →
      s'.calls = s.calls.set i { c with stage } → Turned s s' c stage → Moved s s' t

theorem criticalPending_leave (s : Lanes) (i : Nat) : (s.leave i).criticalPending = s.criticalPending := by
  unfold leave
  split <;> rfl

theorem calls_leave (s : Lanes) (i : Nat) : (s.leave i).calls = s.calls := by
  unfold leave
  split <;> rfl

theorem criticalPending_noteFault (s : Lanes) (r : Except SidecarError Json) :
    (s.noteFault r).criticalPending = s.criticalPending := by
  unfold noteFault
  split <;> rfl

theorem calls_noteFault (s : Lanes) (r : Except SidecarError Json) : (s.noteFault r).calls = s.calls := by
  unfold noteFault
  split <;> rfl

theorem callWithTimeout_moved (s : Lanes) (req : Request) (fault : Option String) :
    Moved s (s.callWithTimeout req fault) (.call req fault) := by
  cases fault with
  | some msg => exact .refused rfl rfl
  | none => exact .registers rfl rfl rfl

theorem callWatch_moved (s : Lanes) (req : Request) (fault : Option String) :
    Moved s (s.callWatch req fault) (.watch req fault) := by
  unfold callWatch
  cases fault with
  | some msg => exact .refused rfl rfl
  | none =>
    by_cases hpending : s.criticalPending > 0
    · simp only [if_pos hpending]
      exact .refused rfl rfl
    · simp only [if_neg hpending]
      exact .clears rfl (by omega) (show s.criticalPending = 0 by omega)

theorem turn_moved {i : Nat} {c : Call} {t : Turn} (hc : s.calls[i]? = some c) (h : s.turn i c t = some s') :
    Moved s s' t := by
  unfold turn at h
  split at h
  · split at h
    · rename_i hstage _
      obtain rfl := Option.some.inj h
      exact .goesOn hc rfl (.waits (by rw [hstage]; rfl) rfl rfl)
    · rename_i hstage _
      obtain rfl := Option.some.inj h
      exact .goesOn hc rfl (.waits (by rw [hstage]; rfl) rfl rfl)
    · cases h
  · split at h
    · rename_i hstage
      split at h
      · obtain rfl := Option.some.inj h
        exact .goesOn hc rfl (.waits (by rw [hstage]; rfl) rfl rfl)
      · cases h
    · cases h
  · split at h
    · rename_i hstage
      obtain rfl := Option.some.inj h
      refine .goesOn hc (by rw [put, calls_leave]) (.waits (by rw [hstage]; rfl) rfl ?_)
      exact criticalPending_leave s i
    · cases h
  · split at h
    · rename_i hstage hfree
      obtain rfl := Option.some.inj h
      exact .goesOn hc rfl (.acquires hstage hfree rfl)
    · rename_i hstage _
      obtain rfl := Option.some.inj h
      exact .goesOn hc rfl (.yields (by rw [hstage]; rfl) rfl)
    · cases h
  · split at h
    · rename_i hstage
      obtain rfl := Option.some.inj h
      refine .goesOn hc (by rw [put, release, calls_noteFault]) (.waits (by rw [hstage]; rfl) rfl ?_)
      exact criticalPending_noteFault s _
    · rename_i hstage
      obtain rfl := Option.some.inj h
      refine .goesOn hc (by rw [put, release, calls_noteFault]) (.yields (by rw [hstage]; rfl) ?_)
      exact criticalPending_noteFault s _
    · cases h
  · split at h
    · rename_i hstage
      obtain rfl := Option.some.inj h
      refine .goesOn hc (by rw [put, calls_leave]) (.waits (by rw [hstage]; rfl) rfl ?_)
      exact criticalPending_leave s i
    · rename_i hstage
      obtain rfl := Option.some.inj h
      exact .goesOn hc rfl (.waits (by rw [hstage]; rfl) rfl rfl)
    · rename_i hstage
      obtain rfl := Option.some.inj h
      exact .goesOn hc rfl (.yields (by rw [hstage]; rfl) rfl)
    · cases h
  · split at h
    · rename_i hstage
      obtain rfl := Option.some.inj h
      exact .goesOn hc rfl (.ends (by rw [hstage]; rfl) rfl)
    · cases h
  · cases h

theorem step_moved {t : Turn} (h : s.step t = some s') : Moved s s' t := by
  cases t with
  | call req fault =>
    obtain ⟨-, h⟩ := Option.ite_none_right_eq_some.1 h
    exact Option.some.inj h ▸ callWithTimeout_moved s req fault
  | watch req fault =>
    obtain ⟨-, h⟩ := Option.ite_none_right_eq_some.1 h
    exact Option.some.inj h ▸ callWatch_moved s req fault
  | _ =>
    obtain ⟨c, hc, h⟩ := Option.bind_eq_some_iff.1 h
    exact turn_moved hc h

/-! ## What holds in every run -/

/-- The counter counts the protocol calls that are registered, and each of them came after every watch
call that got past the counter. -/
structure Counts (s : Lanes) : Prop where
  count : s.criticalPending = s.calls.countP fun c => c.stage.unfinished
  later : ∀ (i j : Nat) (c d : Call), s.calls[i]? = some c → s.calls[j]? = some d → looks c.stage = true →
    d.stage.unfinished = true → i < j

/-- No protocol call is registered while a watch call is at the mutex. -/
def Alone (s : Lanes) : Prop :=
  ∀ (i j : Nat) (c d : Call), s.calls[i]? = some c → s.calls[j]? = some d → c.stage = .cleared →
    d.stage.unfinished = false

theorem not_unfinished_of_looks {stage : Stage} (h : looks stage = true) : stage.unfinished = false := by
  cases stage <;> first | rfl | cases h

theorem counts_init : Counts init := ⟨rfl, fun _ _ _ _ h => by cases h⟩

theorem none_unfinished (h : Counts s) (hzero : s.criticalPending = 0) {d : Call} (hd : d ∈ s.calls) :
    d.stage.unfinished = false := by
  have hcount := h.count
  rw [hzero] at hcount
  simpa using List.countP_eq_zero.1 hcount.symm d hd

/-- A call that is added. -/
theorem getElem?_snoc {l : List Call} {a c : Call} {i : Nat} (h : (l ++ [a])[i]? = some c) :
    l[i]? = some c ∨ (i = l.length ∧ c = a) := by
  rcases Nat.lt_or_ge i l.length with hlt | hge
  · rw [List.getElem?_append_left hlt] at h
    exact .inl h
  · rw [List.getElem?_append_right hge] at h
    right
    by_cases heq : i = l.length
    · rw [heq, Nat.sub_self] at h
      exact ⟨heq, (Option.some.inj h).symm⟩
    · rw [List.getElem?_eq_none (by simp; omega)] at h
      cases h

theorem lt_of_getElem? {l : List Call} {c : Call} {i : Nat} (h : l[i]? = some c) : i < l.length :=
  (List.getElem?_eq_some_iff.1 h).1

/-- A call after a move of one: it was there before, or it is the one that moved. -/
theorem getElem?_put {l : List Call} {a b c : Call} {i j : Nat} (ha : l[i]? = some a)
    (h : (l.set i b)[j]? = some c) : (j ≠ i ∧ l[j]? = some c) ∨ (j = i ∧ c = b) := by
  by_cases heq : j = i
  · subst heq
    rw [List.getElem?_set_self (lt_of_getElem? ha)] at h
    exact .inr ⟨rfl, (Option.some.inj h).symm⟩
  · rw [List.getElem?_set_ne (Ne.symm heq)] at h
    exact .inl ⟨heq, h⟩

theorem countP_put {l : List Call} {a b : Call} {i : Nat} (ha : l[i]? = some a) :
    (l.set i b).countP (fun c => c.stage.unfinished) =
      l.countP (fun c => c.stage.unfinished) - a.stage.unfinished.toNat + b.stage.unfinished.toNat := by
  obtain ⟨hlt, rfl⟩ := List.getElem?_eq_some_iff.1 ha
  rw [List.countP_set hlt]
  cases l[i].stage.unfinished <;> cases b.stage.unfinished <;> rfl

theorem countP_pos {l : List Call} {a : Call} {i : Nat} (ha : l[i]? = some a)
    (h : a.stage.unfinished = true) : 0 < l.countP fun c => c.stage.unfinished :=
  List.countP_pos_iff.2 ⟨a, List.mem_of_getElem? ha, h⟩

/-- What a turn leaves of the two sides: a call that waits was waiting, one that looked had looked. -/
theorem turned_unfinished {c : Call} {stage : Stage} (h : Turned s s' c stage)
    (hun : stage.unfinished = true) : c.stage.unfinished = true := by
  cases h with
  | waits hc _ _ => exact hc
  | _ => cases hun

theorem turned_looks {c : Call} {stage : Stage} (h : Turned s s' c stage) (hl : looks stage = true) :
    looks c.stage = true := by
  cases h with
  | waits _ hun _ => cases (not_unfinished_of_looks hl).symm.trans hun
  | acquires hc _ _ => rw [hc]; rfl
  | _ => cases hl

theorem turned_count {i : Nat} {c : Call} {stage : Stage} (h : Turned s s' c stage) (hc : s.calls[i]? = some c)
    (hcount : s.criticalPending = s.calls.countP fun c => c.stage.unfinished) :
    s'.criticalPending = (s.calls.set i { c with stage }).countP fun c => c.stage.unfinished := by
  rw [countP_put hc]
  cases h with
  | waits hun hun' hp =>
    have := countP_pos hc hun
    rw [hp, hcount, hun, hun', Bool.toNat_true]
    omega
  | ends hun hp => rw [hp, hcount, hun]; rfl
  | acquires hstage _ hp => rw [hp, hcount, hstage]; rfl
  | yields hl hp => rw [hp, hcount, not_unfinished_of_looks hl]; rfl

theorem counts_step {t : Turn} (h : Counts s) (hs : s.step t = some s') : Counts s' := by
  cases step_moved hs with
  | refused hcalls hp =>
    refine ⟨?_, fun i j c d hc hd hl hun => ?_⟩
    · rw [hp, hcalls, List.countP_append, h.count]
      simp [Stage.unfinished]
    · rw [hcalls] at hc hd
      rcases getElem?_snoc hc with hc | ⟨-, rfl⟩
      · rcases getElem?_snoc hd with hd | ⟨-, rfl⟩
        · exact h.later i j c d hc hd hl hun
        · cases hun
      · cases hl
  | registers _ hcalls hp =>
    refine ⟨?_, fun i j c d hc hd hl hun => ?_⟩
    · rw [hp, hcalls, List.countP_append, h.count]
      simp [Stage.unfinished]
    · rw [hcalls] at hc hd
      rcases getElem?_snoc hc with hc | ⟨-, rfl⟩
      · rcases getElem?_snoc hd with hd | ⟨rfl, -⟩
        · exact h.later i j c d hc hd hl hun
        · exact lt_of_getElem? hc
      · cases hl
  | clears hcalls hzero hp =>
    refine ⟨?_, fun i j c d hc hd hl hun => ?_⟩
    · rw [hp, hcalls, List.countP_append, ← h.count, hzero]
      simp [Stage.unfinished]
    · -- the counter is zero, so no call is registered
      rw [hcalls] at hd
      rcases getElem?_snoc hd with hd | ⟨-, rfl⟩
      · rw [none_unfinished h hzero (List.mem_of_getElem? hd)] at hun
        cases hun
      · cases hun
  | goesOn hc hcalls hturn =>
    refine ⟨?_, fun i j a d ha hd hl hun => ?_⟩
    · rw [hcalls]
      exact turned_count hturn hc h.count
    · rw [hcalls] at ha hd
      rcases getElem?_put hc ha with ⟨-, hold⟩ | ⟨rfl, rfl⟩
      · rcases getElem?_put hc hd with ⟨-, hwaits⟩ | ⟨rfl, rfl⟩
        · exact h.later i j a d hold hwaits hl hun
        · exact h.later _ _ _ _ hold hc hl (turned_unfinished hturn hun)
      · rcases getElem?_put hc hd with ⟨-, hwaits⟩ | ⟨rfl, rfl⟩
        · exact h.later _ _ _ _ hc hwaits (turned_looks hturn hl) hun
        · cases (not_unfinished_of_looks hl).symm.trans hun

theorem reach_counts (h : lanes.Reach init s) : Counts s := h.inv counts_init fun _ _ _ hc _ hs => counts_step hc hs

/-! ## What holds when the two steps of a watch call stay together -/

theorem alone_init : Alone init := fun _ _ _ _ h => by cases h

/-- A call that registers while they do finds no watch call between them. -/
theorem registers_apart {req : Request} {i : Nat} {c : Call} (hok : s.apart (.call req none) = true)
    (hc : s.calls[i]? = some c) (hstage : c.stage = .cleared) : False := by
  have hall : (s.calls.all fun c => !c.stage.isCleared) = true := by
    simpa [apart] using hok
  have := List.all_eq_true.1 hall c (List.mem_of_getElem? hc)
  rw [hstage] at this
  cases this

theorem alone_step {t : Turn} (h : Alone s) (hcount : Counts s) (hok : s.apart t = true)
    (hs : s.step t = some s') : Alone s' := by
  intro i j a d ha hd hstage
  cases step_moved hs with
  | refused hcalls _ =>
    rw [hcalls] at ha hd
    rcases getElem?_snoc ha with ha | ⟨-, rfl⟩
    · rcases getElem?_snoc hd with hd | ⟨-, rfl⟩
      · exact h i j a d ha hd hstage
      · rfl
    · cases hstage
  | registers ht hcalls _ =>
    subst ht
    rw [hcalls] at ha
    rcases getElem?_snoc ha with ha | ⟨-, rfl⟩
    · exact (registers_apart hok ha hstage).elim
    · cases hstage
  | clears hcalls hzero _ =>
    rw [hcalls] at hd
    rcases getElem?_snoc hd with hd | ⟨-, rfl⟩
    · exact none_unfinished hcount hzero (List.mem_of_getElem? hd)
    · rfl
  | goesOn hc hcalls hturn =>
    rw [hcalls] at ha hd
    -- no move makes a call one that looked, or one that is registered
    rcases getElem?_put hc ha with ⟨-, hold⟩ | ⟨rfl, rfl⟩
    · rcases getElem?_put hc hd with ⟨-, hwaits⟩ | ⟨rfl, rfl⟩
      · exact h i j a d hold hwaits hstage
      · have := h _ _ _ _ hold hc hstage
        refine Bool.eq_false_iff.2 fun hun => ?_
        rw [turned_unfinished hturn hun] at this
        cases this
    · cases hturn with
      | waits _ hun _ =>
        dsimp only at hstage
        rw [hstage] at hun
        cases hun
      | _ => cases hstage

theorem reach_alone (h : lanes.ReachOn (fun s t => s.apart t = true) init s) : Counts s ∧ Alone s := by
  refine Tasks.Machine.ReachOn.inv (P := fun s => Counts s ∧ Alone s) h ⟨counts_init, alone_init⟩ ?_
  intro s t s' hinv hok hs
  exact ⟨counts_step hinv.1 hs, alone_step hinv.2 hinv.1 hok hs⟩

/-- Who gets the pipe by `try_lock` had found no protocol call. -/
theorem cleared_of_acquires {i : Nat} (hs : s.step (.tryLock i) = some s') (hstage : s'.stage i = some .watching) :
    ∃ c, s.calls[i]? = some c ∧ c.stage = .cleared := by
  obtain ⟨c, hc, h⟩ := Option.bind_eq_some_iff.1 hs
  refine ⟨c, hc, ?_⟩
  simp only [turn] at h
  split at h
  · assumption
  · assumption
  · cases h

end Lanes

/-! ## The runs -/

/-- In every run in which no protocol call registers between the two steps of a watch call, no protocol
call is registered and unfinished when a watch call gets the pipe, and none waits for the pipe that a
watch call has got which began after it. -/
theorem protocol_first {s : Lanes} (hr : lanes.ReachOn (fun s t => s.apart t = true) Lanes.init s) :
    (∀ i s', s.step (.tryLock i) = some s' → s'.stage i = some .watching →
      ∀ c ∈ s.calls, c.stage.unfinished = false) ∧
    (∀ i j r, s.stage i = some .watching → s.stage j = some r → r.unfinished = true → i < j) := by
  obtain ⟨hcounts, halone⟩ := Lanes.reach_alone hr
  refine ⟨fun i s' hs hstage d hd => ?_, fun i j r hi hj hun => ?_⟩
  · obtain ⟨c, hc, hcleared⟩ := Lanes.cleared_of_acquires hs hstage
    obtain ⟨j, hj⟩ := List.mem_iff_getElem?.1 hd
    exact halone i j c d hc hj hcleared
  · obtain ⟨c, hc, hwatching⟩ := Option.map_eq_some_iff.1 hi
    obtain ⟨d, hd, rfl⟩ := Option.map_eq_some_iff.1 hj
    exact hcounts.later i j c d hc hd (by rw [hwatching]; rfl) hun

/-- One read of the 300-second watch, and one protocol call of 30 seconds. -/
def watchTurn : Turn := .watch ⟨"watch_reclaim", .null, 300000⟩ none
def callTurn : Turn := .call ⟨"spend_signed", .null, 30000⟩ none

def watched : Lanes := (Lanes.init.step watchTurn).getD Lanes.init
def watchedThenLocked : Lanes := (watched.step (.tryLock 0)).getD Lanes.init
def thenCalled : Lanes := (watchedThenLocked.step callTurn).getD Lanes.init

theorem protocol_first_once :
    (∀ c ∈ watched.calls, c.stage.unfinished = false) ∧ thenCalled.stage 0 = some .watching ∧
      thenCalled.stage 1 = some .registered ∧ 0 < 1 := by
  have hwatched : lanes.ReachOn (fun s t => s.apart t = true) Lanes.init watched :=
    .step watchTurn .refl rfl rfl
  have hcalled : lanes.ReachOn (fun s t => s.apart t = true) Lanes.init thenCalled :=
    .step callTurn (.step (.tryLock 0) hwatched rfl rfl) rfl rfl
  exact ⟨(protocol_first hwatched).1 0 watchedThenLocked rfl rfl, rfl, rfl,
    (protocol_first hcalled).2 0 1 .registered rfl rfl rfl⟩

/-- A watch call that has read the counter, a protocol call that registers, and the watch call gets the
pipe all the same; the protocol call waits behind it. -/
def raced : Option Lanes := lanes.play Lanes.init [watchTurn, callTurn, .tryLock 0, .lock 1]

theorem not_always_first :
    ¬ ∀ s, lanes.Reach Lanes.init s → ∀ i s', s.step (.tryLock i) = some s' → s'.stage i = some .watching →
      ∀ c ∈ s.calls, c.stage.unfinished = false := by
  intro h
  have hs : ∃ s, lanes.play Lanes.init [watchTurn, callTurn] = some s := ⟨_, rfl⟩
  obtain ⟨s, hs⟩ := hs
  have hreach := Tasks.Machine.reach_play hs
  obtain rfl := Option.some.inj hs
  have := h _ hreach 0 _ rfl rfl ⟨⟨"spend_signed", .null, 30000⟩, .registered⟩ (.tail _ (.head _))
  cases this

/-- The protocol call is queued behind the watch that has the pipe. -/
example : (raced.bind (·.stage 0), raced.bind (·.stage 1)) = (some .watching, some .queued) := rfl

end Sidecar
