import PwndaWallet.Desk.Acts

/-!
# One lock per swap

Nothing in `desk_proceed` or in a choreography looks at the lock that the record carries, so a second
drive locks again (`not_always_locks_once`). A swap is locked once as long as no drive is started beside
a live one or after a lock was kept (`lock_once`).
-/

namespace Desk

open Tasks

def Entry.Drives : Entry → Prop
  | .task (.choreography _) => True
  | _ => False

/-- What a choreography has in hand. -/
def Hand.Drives : Hand → Prop
  | .starts => True
  | .drives _ => True
  | .ends => True
  | .judges _ _ => True
  | _ => False

/-- A choreography that has not asked for its lock. -/
def Hand.Unlocked : Hand → Prop
  | .starts => True
  | .drives d => d.phase = .fresh ∨ d.phase = .armed
  | _ => False

theorem drives_hand {e : Entry} : e.hand.Drives ↔ e.Drives := by
  cases e with
  | task t => cases t <;> exact Iff.rfl
  | _ => exact Iff.rfl

theorem drives_next {s : Hand} {o : Op} (h : Acts s o) (r : o.Ans) : (s.next o r).Drives ↔ s.Drives := by
  cases h with
  | idle ho => rw [next_idle s ho]
  | load id_ => cases r <;> exact Iff.rfl
  | refund id_ h =>
    show (owesAfter _ (some .refund) (txidIn r)).Drives ↔ _
    cases txidIn r <;> exact Iff.rfl
  | reclaim id_ ht h =>
    show (owesAfter _ (some .reclaim) (txidIn r)).Drives ↔ _
    cases txidIn r <;> exact Iff.rfl
  | swipe id_ h =>
    show (owesAfter _ (some .swipe) (txidIn r)).Drives ↔ _
    cases txidIn r <;> exact Iff.rfl
  | begin id_ =>
    cases r with
    | error e => exact Iff.rfl
    | ok rec =>
      simp only [Hand.next, loadedBy]
      split <;> exact Iff.rfl
  | poll id_ => cases r <;> exact Iff.rfl
  | read id_ => cases r <;> exact Iff.rfl
  | record => cases r <;> exact Iff.rfl
  | status id_ => cases r <;> exact Iff.rfl
  | judge id_ h => cases r <;> exact Iff.rfl
  | _ => exact Iff.rfl

theorem unlocked_drives {s : Hand} (h : s.Unlocked) : s.Drives := by
  cases s <;> first | exact trivial | exact h.elim

/-- Only one that had not locked has not locked, and what it asked was no lock. -/
theorem unlocked_next {s : Hand} {o : Op} (h : Acts s o) (r : o.Ans) (hs : (s.next o r).Unlocked) :
    s.Unlocked ∧ txOf o ≠ some .lock := by
  have hd : s.Drives := (drives_next h r).1 (unlocked_drives hs)
  cases h with
  | idle ho =>
    rw [next_idle s ho] at hs
    exact ⟨hs, by rw [plain_noTx (plain_of_idle ho)]; nofun⟩
  | begin id_ => exact ⟨trivial, nofun⟩
  | @status d id_ =>
    refine ⟨?_, nofun⟩
    cases r with
    | error e => exact hs
    | ok st =>
      change (d.afterStatus st).phase = .fresh ∨ (d.afterStatus st).phase = .armed at hs
      unfold Drive.afterStatus at hs
      split at hs
      · dsimp only at hs
        split at hs <;> exact absurd hs (by simp)
      · exact hs
  | @lock d id_ hr hp =>
    change (d.afterLock (txidIn r)).phase = .fresh ∨ (d.afterLock (txidIn r)).phase = .armed at hs
    cases htx : txidIn r <;> rw [htx] at hs <;> exact absurd hs (by simp [Drive.afterLock])
  | @submitLock d id_ hr hp =>
    change (d.afterLock (txidIn r)).phase = .fresh ∨ (d.afterLock (txidIn r)).phase = .armed at hs
    cases htx : txidIn r <;> rw [htx] at hs <;> exact absurd hs (by simp [Drive.afterLock])
  | @claim d id_ hp =>
    refine ⟨?_, nofun⟩
    change (d.afterClaim (txidIn r)).phase = .fresh ∨ (d.afterClaim (txidIn r)).phase = .armed at hs
    cases htx : txidIn r with
    | none => rw [htx] at hs; exact hs
    | some t =>
      rw [htx] at hs
      simp only [Drive.afterClaim] at hs
      split at hs <;> exact absurd hs (by simp)
  | @persist d rec hm =>
    refine ⟨?_, nofun⟩
    cases r with
    | ok _ =>
      change d.phase.saved = .fresh ∨ d.phase.saved = .armed at hs
      show d.phase = .fresh ∨ d.phase = .armed
      cases hp : d.phase <;> simp_all [Phase.saved]
    | error e =>
      change d.phase.unsaved = .fresh ∨ d.phase.unsaved = .armed at hs
      show d.phase = .fresh ∨ d.phase = .armed
      cases hp : d.phase <;> simp_all [Phase.unsaved]
  | judge id_ hp =>
    refine ⟨?_, nofun⟩
    cases r with
    | ok rec => exact hs.elim
    | error e => exact hs
  | join id_ => exact ⟨hs, nofun⟩
  | own b => exact ⟨hs, nofun⟩
  | ownStore b ho => exact ⟨hs, nofun⟩
  | ownSwap b ho => exact ⟨hs, nofun⟩
  | standDown => exact hs.elim
  | leave => exact hs.elim
  | _ => exact hd.elim

/-! ## One drive at a time -/

/-- A drive comes to be only beside no live one, and only while no lock was kept. -/
def oneDrive : Law Op Op.Ans World Entry where
  enter e w ts := e.Drives → w.kept = false ∧ ∀ t ∈ ts, t.Live → ¬ t.entry.Drives
  ask _ _ _ _ := True
  answer _ _ _ _ _ _ := True

/-- No lock of the task is answered. -/
def Unnamed (i : Nat) (w : World) : Prop := w.named i .lock = none

theorem keepsLock_unnamed {w : World} {i : Nat} {o : Op} {r : o.Ans} (h : Unnamed i w) :
    w.keepsLock i o r = false := by
  unfold World.keepsLock
  rw [show w.named i .lock = none from h]
  split <;> simp_all

theorem kept_unnamed {w : World} {i : Nat} {o : Op} {r : o.Ans} {out : Out} (h : Unnamed i w) :
    (w.after i o r out).kept = w.kept := by
  show (w.kept || w.keepsLock i o r) = w.kept
  rw [keepsLock_unnamed h, Bool.or_false]

theorem named_other {w : World} {i j : Nat} {o : Op} {r : o.Ans} {out : Out} (h : j ≠ i) (tx : Tx) :
    (w.after i o r out).named j tx = w.named j tx :=
  if_neg fun hj => h hj.1

theorem named_noTx {w : World} {i j : Nat} {o : Op} {r : o.Ans} {out : Out} {tx : Tx}
    (h : txOf o ≠ some tx) : (w.after i o r out).named j tx = w.named j tx :=
  if_neg fun hj => h hj.2

theorem drive_symm (e e' : Entry) (h : e.Drives ∧ e'.Drives) : e'.Drives ∧ e.Drives := ⟨h.2, h.1⟩

def lockMethod (env : Env) : Method (desk env) (oneDrive.unborn Unnamed) where
  inv _ := True
  rely i e w w' := w'.named i .lock = w.named i .lock ∧ (e.Drives → w.kept = false → w'.kept = false)
  must _ _ o w := txOf o = some .lock → w.kept = false
  guar _ _ _ _ _ _ := True
  fit i e w := (e.Drives → w.kept = false) ∧ Unnamed i w
  apart e e' := e.Drives ∧ e'.Drives
  rely_refl _ _ _ := ⟨rfl, fun _ h => h⟩
  rely_trans _ _ _ _ _ h h' := ⟨h'.1.trans h.1, fun he hk => h'.2 he (h.2 he hk)⟩
  apart_symm := drive_symm
  restart _ _ := trivial
  enter _ _ _ h := ⟨⟨fun he => (h.1 he).1, h.2⟩, fun t ht hl hd => (h.1 hd.1).2 t ht hl hd.2⟩

/-- What a task's hand says of the kept lock. -/
structure LockFacts (i : Nat) (e : Entry) (s : Hand) (w : World) : Prop where
  drives : s.Drives ↔ e.Drives
  other : ¬ s.Drives → Unnamed i w
  unlocked : s.Unlocked → w.kept = false ∧ Unnamed i w

theorem follows_lock (env : Env) : Follows (lockMethod env) LockFacts where
  start i e w hfit _ := ⟨drives_hand, fun _ => hfit.2,
    fun hs => ⟨hfit.1 (drives_hand.1 (unlocked_drives hs)), hfit.2⟩⟩
  rely i e s w w' h _ hr := by
    have hn : Unnamed i w → Unnamed i w' := fun hu => hr.1.trans hu
    refine ⟨h.drives, fun hs => hn (h.other hs), fun hs => ?_⟩
    obtain ⟨hk, hu⟩ := h.unlocked hs
    exact ⟨hr.2 (h.drives.1 (unlocked_drives hs)) hk, hn hu⟩
  ask i e s o w h _ ha _ htx := by
    refine (h.unlocked ?_).1
    cases ha with
    | idle ho => rw [plain_noTx (plain_of_idle ho)] at htx; cases htx
    | lock id_ hr hp => exact .inr hp
    | submitLock id_ hr hp => exact .inr hp
    | _ => cases htx
  answer i e s o out r w h _ ha _ _ := by
    refine ⟨trivial, fun j e' hj hap => ⟨named_other hj _, fun he' hk => ?_⟩, trivial, ?_⟩
    · have hs : ¬ s.Drives := fun hs => hap ⟨h.drives.1 hs, he'⟩
      rw [kept_unnamed (h.other hs)]
      exact hk
    · have hd := drives_next ha r
      refine ⟨hd.trans h.drives, fun hs => ?_, fun hs => ?_⟩
      · have hno : txOf o ≠ some .lock := by
          intro htx
          cases ha with
          | idle ho => rw [plain_noTx (plain_of_idle ho)] at htx; cases htx
          | lock id_ hr hp => exact hs trivial
          | submitLock id_ hr hp => exact hs trivial
          | _ => cases htx
        exact (named_noTx hno).trans (h.other fun h' => hs (hd.2 h'))
      · obtain ⟨hs', hno⟩ := unlocked_next ha r hs
        obtain ⟨hk, hu⟩ := h.unlocked hs'
        exact ⟨(kept_unnamed hu).trans hk, (named_noTx hno).trans hu⟩

/-- As long as drives come one at a time and none after a lock was kept, no lock is asked for after
one was kept. -/
theorem lock_once (env : Env) (w₀ : World) (h₀ : ∀ j, w₀.named j .lock = none)
    {c : Cfg Op Op.Ans World Entry} (hr : Reach (desk env) oneDrive ⟨w₀, []⟩ c) {i : Nat} {e : Entry}
    {o : Op} {k : o.Ans → DeskM Unit Unit} (ht : c.tasks[i]? = some ⟨e, .call o k, false⟩)
    (ho : txOf o = some .lock) : c.world.kept = false := by
  have hother (i j : Nat) (o : Op) (out : Out) (w : World) (hij : i ≠ j) (h : Unnamed j w) :
      Unnamed j ((desk env).respond i o out w).2 := (named_other (Ne.symm hij) _).trans h
  obtain ⟨hr, _⟩ := reach_unborn hother (fun _ _ h => h) h₀ hr
  exact Method.must_of_ask (holds_of_follows (follows_lock env) trivial hr) ht trivial ho

/-- A purchase that nothing has touched. -/
def newWorld : World := .ofRecord { (default : StoredSwap) with deskRole := "FOLLOWER" }

/-- A desk and an engine that do their part up to the lock. -/
def lockAnswers : Out where
  ans
    | .crypto (.prepareLock _) => .ok ⟨"a", 0, 5000000⟩
    | .crypto (.exchangeRefundSigs _ _ _) => .ok { (default : RefundSigExchange) with verified := true }
    | .crypto (.submitLock _) => .ok (some "a")
    | o => o.easyAns
  published := false
  settled := false

/-- A drive, up to its lock. -/
def driveToLock : List (Move Out Entry) :=
  .start (.task (.choreography "")) :: turns 0 (List.replicate 19 lockAnswers)

set_option maxRecDepth 8000 in
theorem lock_once_new : ((desk ⟨true, none, 1⟩).play ⟨newWorld, []⟩ driveToLock).world.kept = false := by
  have hlaw : oneDrive.PermitsAll (desk ⟨true, none, 1⟩) ⟨newWorld, []⟩ driveToLock := by
    refine ⟨fun _ => ⟨rfl, fun t ht => absurd ht (List.not_mem_nil)⟩, ?_⟩
    show oneDrive.PermitsAll _ _ (turns 0 _)
    repeat' first | exact trivial | exact fun h => False.elim h | refine ⟨?_, ?_⟩
  exact lock_once _ newWorld (fun _ => rfl) (reach_play hlaw) (i := 0) rfl rfl

/-- A drive that locks, the end of its process, and one more drive of the same swap. -/
def lockTwice : List (Move Out Entry) :=
  .start (.deskProceed "") :: turns 0 (List.replicate 4 lockAnswers) ++
    turns 1 (List.replicate 21 lockAnswers) ++
    .crash :: .start (.deskProceed "") :: turns 6 (List.replicate 4 lockAnswers) ++
    turns 7 (List.replicate 19 lockAnswers)

set_option maxRecDepth 16000 in
theorem not_always_locks_once : ¬ ∀ (env : Env) (w₀ : World) (c : Cfg Op Op.Ans World Entry) (i : Nat)
    (e : Entry) (o : Op) (k : o.Ans → DeskM Unit Unit), (∀ j, w₀.named j .lock = none) →
    Reach (desk env) .free ⟨w₀, []⟩ c → c.tasks[i]? = some ⟨e, .call o k, false⟩ →
    txOf o = some .lock → c.world.kept = false := by
  intro hall
  have h := hall ⟨true, none, 1⟩ newWorld _ 7 _ _ _ (fun _ => rfl)
    (reach_play (permitsAll_free _ _ lockTwice)) rfl rfl
  exact absurd h (by decide)

end Desk
