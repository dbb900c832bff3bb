import PwndaWallet.Desk.LockSound

/-!
# No lost update on the record

Every writer saves the whole record it read, so a save between its reading and its saving is lost
(`not_always_kept`). Nothing that was saved is lost as long as each writer's reading still has it, replies
leave it alone, and a drive starts on a record without it (`record_kept`).
-/

namespace Desk

open Tasks

def StoredSwap.isTerminal (rec : StoredSwap) : Bool := (DeskSwapState.parse rec.state).isTerminal

/-- `new` has all of `old` that must not be lost. -/
structure Carries (old new : StoredSwap) : Prop where
  presig : ∀ p, old.refundPresig = some p → new.refundPresig = some p
  lock : ∀ t, old.ownLock = some t → new.ownLock = some t
  refund : ∀ t, nonEmpty old.refundTxid = some t → nonEmpty new.refundTxid = some t
  reclaim : ∀ t, nonEmpty old.reclaimTxid = some t → nonEmpty new.reclaimTxid = some t
  terminal : old.isTerminal = true → new.isTerminal = true

theorem Carries.refl (rec : StoredSwap) : Carries rec rec :=
  ⟨fun _ h => h, fun _ h => h, fun _ h => h, fun _ h => h, fun h => h⟩

theorem Carries.trans {a b c : StoredSwap} (h : Carries a b) (h' : Carries b c) : Carries a c :=
  ⟨fun p hp => h'.presig p (h.presig p hp), fun t ht => h'.lock t (h.lock t ht),
    fun t ht => h'.refund t (h.refund t ht), fun t ht => h'.reclaim t (h.reclaim t ht),
    fun ht => h'.terminal (h.terminal ht)⟩

/-- A record with a refund is over. -/
def Consistent (rec : StoredSwap) : Prop := ∀ t, nonEmpty rec.refundTxid = some t → rec.isTerminal = true

/-- Nothing in the record can be lost to a drive. -/
structure Unstarted (rec : StoredSwap) : Prop where
  open_ : rec.isTerminal = false
  lock : rec.ownLock = none
  presig : rec.refundPresig = none

/-- A reply whose mirror loses nothing of the record. -/
structure Spares (rec : StoredSwap) (st : StatusResponse) : Prop where
  terminal : rec.isTerminal = true → (DeskSwapState.parse st.state).isTerminal = true
  lock : ∀ role t, ClientRole.fromDeskRole rec.deskRole = .ok role → rec.ownLock = some t →
    st.ownLockTxid role = "" ∨ st.ownLockTxid role = t

theorem no_refund_of_open {rec : StoredSwap} (h : Consistent rec) (ho : rec.isTerminal = false) {t : String} :
    nonEmpty rec.refundTxid ≠ some t := by
  intro ht
  rw [h t ht] at ho
  cases ho

/-! ## What each writer carries -/

section
variable {rec : StoredSwap}

theorem carries_setRefunded {id_ txid : String} {req : RefundRequest} (hc : Consistent rec)
    (h : refundRequest id_ rec = .ok (some req)) : Carries rec (rec.setRefunded txid) := by
  have hopen : rec.isTerminal = false := by
    unfold refundRequest at h
    split at h
    · cases h
    · rename_i ht
      exact Bool.eq_false_iff.2 ht
  exact ⟨fun _ h => h, fun _ h => h, fun _ h => absurd h (no_refund_of_open hc hopen), fun _ h => h,
    fun _ => rfl⟩

theorem carries_setReclaimed {id_ txid : String} (h : reclaimGuard id_ rec = .ok none) :
    Carries rec (rec.setReclaimed txid) := by
  have hnone : nonEmpty rec.reclaimTxid = none := by
    unfold reclaimGuard at h
    split at h
    · cases h
    · rename_i hn
      exact hn
  refine ⟨fun _ h => h, fun _ h => h, fun _ h => h, fun t ht => ?_, fun _ => rfl⟩
  rw [hnone] at ht
  cases ht

theorem consistent_of_terminal (h : rec.isTerminal = true) : Consistent rec := fun _ _ => h

theorem carries_mirror {st : StatusResponse} (h : Spares rec st) : Carries rec (mirror st rec) := by
  refine ⟨fun _ h => h, fun t ht => ?_, fun _ h => h, fun _ h => h, h.terminal⟩
  have hlock := h.lock
  have hdesk : (mirror st rec).deskRole = rec.deskRole := rfl
  unfold StoredSwap.ownLock at *
  rw [hdesk]
  cases hrole : ClientRole.fromDeskRole rec.deskRole with
  | error e => rw [hrole] at ht; cases ht
  | ok role =>
    rw [hrole] at ht hlock
    cases role with
    | follower => exact nonEmpty_mirrored ht (hlock .follower t rfl ht)
    | leader => exact nonEmpty_mirrored ht (hlock .leader t rfl ht)

theorem consistent_mirror {st : StatusResponse} (hc : Consistent rec) (h : Spares rec st) :
    Consistent (mirror st rec) := fun t ht => h.terminal (hc t ht)

end

/-! ## What a drive carries -/

section
variable {d : Drive} {b rec : StoredSwap}

/-- The copy of a drive beside the record it last read or wrote. -/
def CopyOf (phase : Phase) (copy b : StoredSwap) : Prop :=
  match phase with
  | .fresh => copy = b ∧ Unstarted b
  | .armed => copy = b ∧ b.isTerminal = false ∧ b.ownLock = none
  | .sent => Carries b copy ∧ copy.isTerminal = false
  | .locked => copy = b ∧ b.isTerminal = false
  | .claimed _ => copy = b ∧ b.isTerminal = false
  | .settled => copy = b
  | .failed => True

structure DriveFacts (d : Drive) (base : Option StoredSwap) : Prop where
  role : ClientRole.fromDeskRole d.copy.deskRole = .ok d.role
  consistent : Consistent d.copy
  copy : ∃ b, base = some b ∧ CopyOf d.phase d.copy b

theorem consistent_open {rec' : StoredSwap} (hc : Consistent rec) (ho : rec.isTerminal = false)
    (hsame : rec'.refundTxid = rec.refundTxid) : Consistent rec' := by
  intro t ht
  rw [hsame] at ht
  exact absurd ht (no_refund_of_open hc ho)

theorem ownLock_lockedRecord {role : ClientRole} {txid : String}
    (hr : ClientRole.fromDeskRole rec.deskRole = .ok role) (ht : txid ≠ "") :
    (lockedRecord role rec txid).ownLock = some txid := by
  cases role <;> simp [StoredSwap.ownLock, lockedRecord, StoredSwap.setState, StoredSwap.setLockB,
    StoredSwap.setLockA, hr, StoredSwap.ownLockTxid, ClientRole.clientLockChain, nonEmpty, Rust.isEmpty, ht]

theorem carries_lockedRecord {role : ClientRole} {txid : String} (ho : rec.isTerminal = false)
    (hl : rec.ownLock = none) : Carries rec (lockedRecord role rec txid) := by
  refine ⟨?_, fun t ht => ?_, ?_, ?_, fun ht => ?_⟩
  · cases role <;> exact fun _ h => h
  · rw [hl] at ht; cases ht
  · cases role <;> exact fun _ h => h
  · cases role <;> exact fun _ h => h
  · rw [ho] at ht; cases ht

/-- A record whose state alone changes. -/
theorem carries_setState {st : String} (h : rec.isTerminal = true → (DeskSwapState.parse st).isTerminal = true) :
    Carries rec (rec.setState st) :=
  ⟨fun _ h => h, fun _ h => h, fun _ h => h, fun _ h => h, h⟩

theorem carries_presig {ours : AdaptorPresig} {p : Option AdaptorPresig} (h : Unstarted rec) :
    Carries rec ((rec.setRefundPresig ours).setClaimPresig p) := by
  refine ⟨fun q hq => ?_, ?_, ?_, ?_, ?_⟩
  · rw [h.presig] at hq; cases hq
  · cases p <;> exact fun _ h => h
  · cases p <;> exact fun _ h => h
  · cases p <;> exact fun _ h => h
  · cases p <;> exact fun h => h

theorem carries_setLockB {txid : String} (hr : ClientRole.fromDeskRole rec.deskRole = .ok .leader) :
    Carries rec (rec.setLockB txid) := by
  refine ⟨fun _ h => h, fun t ht => ?_, fun _ h => h, fun _ h => h, fun h => h⟩
  have hdesk : (rec.setLockB txid).deskRole = rec.deskRole := rfl
  unfold StoredSwap.ownLock at *
  rw [hr] at ht
  rw [hdesk, hr]
  exact ht

theorem not_terminal {P : Prop} (h : rec.isTerminal = false) (ht : rec.isTerminal = true) : P := by
  rw [h] at ht
  cases ht

/-- What a drive saves carries the record it last read or wrote, and is what it goes on with. -/
theorem carries_of_maySave (h : DriveFacts d (some b)) (hm : d.MaySave rec) :
    Carries b rec ∧ DriveFacts { d with copy := rec, phase := d.phase.saved } (some rec) := by
  obtain ⟨b', hb, hcopy⟩ := h.copy
  obtain rfl := Option.some.inj hb
  have hrole := h.role
  have hcons := h.consistent
  obtain ⟨role, copy, phase, stop, own⟩ := d
  cases phase with
  | fresh =>
    obtain ⟨rfl, hu⟩ := hcopy
    obtain ⟨ours, p, rfl⟩ := hm
    refine ⟨carries_presig hu, ?_, consistent_open hcons hu.open_ ?_, _, rfl, rfl, ?_, ?_⟩
    · cases p <;> exact hrole
    · cases p <;> rfl
    · cases p <;> exact hu.open_
    · cases p <;> exact hu.lock
  | armed =>
    obtain ⟨rfl, ho, hl⟩ := hcopy
    obtain rfl : rec = _ := hm
    exact ⟨carries_setState (not_terminal ho), hrole, consistent_open hcons ho rfl,
      _, rfl, rfl, rfl, hl⟩
  | sent =>
    obtain ⟨hc, ho⟩ := hcopy
    obtain rfl : rec = _ := hm
    exact ⟨hc, hrole, hcons, _, rfl, rfl, ho⟩
  | locked =>
    obtain ⟨rfl, ho⟩ := hcopy
    obtain ⟨hlead, txid, _, rfl⟩ := hm
    obtain rfl : role = .leader := hlead
    exact ⟨carries_setLockB hrole, hrole, consistent_open hcons ho rfl, _, rfl, rfl, ho⟩
  | claimed t =>
    obtain ⟨rfl, ho⟩ := hcopy
    obtain rfl : rec = _ := hm
    exact ⟨carries_setState (not_terminal ho), hrole, consistent_open hcons ho rfl,
      _, rfl, rfl, rfl⟩
  | settled =>
    obtain rfl : copy = b := hcopy
    obtain rfl : rec = _ := hm
    exact ⟨carries_setState fun _ => rfl, hrole, consistent_of_terminal rfl, _, rfl, rfl⟩
  | failed => exact hm.elim

theorem driveFacts_lock {r : Except CryptoError (Option String)} {base : Option StoredSwap}
    (hp : d.phase = .armed) (h : DriveFacts d base) : DriveFacts (d.afterLock (txidIn r)) base := by
  obtain ⟨b, hb, hcopy⟩ := h.copy
  have hrole := h.role
  have hcons := h.consistent
  obtain ⟨role, copy, phase, stop, own⟩ := d
  obtain rfl : phase = .armed := hp
  obtain ⟨rfl, ho, hl⟩ := hcopy
  cases txidIn r with
  | none => exact ⟨hrole, hcons, copy, hb, trivial⟩
  | some t =>
    refine ⟨?_, ?_, copy, hb, carries_lockedRecord ho hl, ?_⟩
    · cases role <;> exact hrole
    · cases role <;> exact consistent_open hcons ho rfl
    · cases role <;> rfl

theorem driveFacts_claim {r : Except CryptoError (Option String)} {base : Option StoredSwap}
    (hp : d.phase = .locked) (h : DriveFacts d base) : DriveFacts (d.afterClaim (txidIn r)) base := by
  cases txidIn r with
  | none => exact h
  | some t =>
    obtain ⟨b, hb, hcopy⟩ := h.copy
    rw [hp] at hcopy
    refine ⟨h.role, h.consistent, b, hb, ?_⟩
    simp only [Drive.afterClaim]
    split
    · exact hcopy.1
    · exact hcopy

theorem driveFacts_status {st : StatusResponse} {base : Option StoredSwap} (h : DriveFacts d base) :
    DriveFacts (d.afterStatus st) base := by
  unfold Drive.afterStatus
  split
  · rename_i t hp
    obtain ⟨b, hb, hcopy⟩ := h.copy
    rw [hp] at hcopy
    refine ⟨h.role, h.consistent, b, hb, ?_⟩
    dsimp only
    split
    · exact hcopy.1
    · exact hcopy
  · exact h

theorem driveFacts_unsaved {base : Option StoredSwap} (h : DriveFacts d base) :
    DriveFacts (d.afterSave none) base := by
  obtain ⟨b, hb, hcopy⟩ := h.copy
  refine ⟨h.role, h.consistent, b, hb, ?_⟩
  show CopyOf d.phase.unsaved d.copy b
  cases hp : d.phase <;> rw [hp] at hcopy <;> first | exact trivial | exact hcopy

end

/-! ## The invariant -/

def Entry.IsStatus : Entry → Prop
  | .deskStatus _ => True
  | _ => False

/-- Each save has a reading behind it that lost nothing, replies spare the record, and drives start on
records that they cannot harm. -/
def recordLaw : Law Op Op.Ans World Entry where
  enter _ _ _ := True
  ask _ _ _ _ := True
  answer i e o r w _ :=
    ((savedBy o r).isSome = true → ∀ old b, w.last = some old → w.base i = some b → Carries old b) ∧
    ((savedBy o r).isSome = true → e.IsStatus → ∀ st b, w.heard i = some st → w.base i = some b →
      Spares b st) ∧
    (e.Drives → w.base i = none → ∀ rec, loadedBy o r = some rec → Unstarted rec)

/-- The task has not read the record. -/
def Unread (i : Nat) (w : World) : Prop := w.base i = none

def recordMethod (env : Env) : Method (desk env) (recordLaw.unborn Unread) where
  inv w := ∀ rec, w.slot = some rec → Consistent rec
  rely i _ w w' := w'.base i = w.base i ∧ w'.heard i = w.heard i
  must _ _ _ _ := True
  guar _ _ o r w _ := ∀ old new, w.last = some old → savedBy o r = some new → Carries old new
  fit i _ w := Unread i w
  apart _ _ := False
  rely_refl _ _ _ := ⟨rfl, rfl⟩
  rely_trans _ _ _ _ _ h h' := ⟨h'.1.trans h.1, h'.2.trans h.2⟩
  apart_symm _ _ h := h
  restart _ h := h
  enter _ _ _ h := ⟨h.2, fun _ _ _ => id⟩

/-- What a task's hand says of the record it read. -/
def RecordFacts (i : Nat) (e : Entry) (s : Hand) (w : World) : Prop :=
  match s with
  | .free last => ∀ rec, last = some rec → w.base i = some rec ∧ Consistent rec
  | .owes rec => Consistent rec ∧ ∃ b, w.base i = some b ∧ Carries b rec
  | .polls => e.IsStatus
  | .polled st => e.IsStatus ∧ w.heard i = some st
  | .mirrors st rec => e.IsStatus ∧ w.heard i = some st ∧ w.base i = some rec ∧ Consistent rec
  | .starts => e.Drives ∧ w.base i = none
  | .drives d => DriveFacts d (w.base i)
  | _ => True

theorem recordFacts_of_same {i : Nat} {e : Entry} {s : Hand} {w w' : World} (h : RecordFacts i e s w)
    (hb : w'.base i = w.base i) (hh : w'.heard i = w.heard i) : RecordFacts i e s w' := by
  cases s with
  | free last => exact fun rec hrec => ⟨hb.trans (h rec hrec).1, (h rec hrec).2⟩
  | owes rec =>
    obtain ⟨hc, b, hbase, hcar⟩ := h
    exact ⟨hc, b, hb.trans hbase, hcar⟩
  | polled st => exact ⟨h.1, hh.trans h.2⟩
  | mirrors st rec => exact ⟨h.1, hh.trans h.2.1, hb.trans h.2.2.1, h.2.2.2⟩
  | starts => exact ⟨h.1, hb.trans h.2⟩
  | drives d =>
    change DriveFacts d (w'.base i)
    rw [hb]
    exact h
  | _ => exact h

theorem follows_record (env : Env) : Follows (recordMethod env) RecordFacts where
  start i e w hfit _ := by
    have hfree : RecordFacts i e (.free none) w := fun _ h => nomatch h
    cases e with
    | deskStatus id_ => exact trivial
    | task t => cases t with
      | choreography id_ => exact ⟨trivial, hfit⟩
      | _ => exact hfree
    | _ => exact hfree
  rely i e s w w' h _ hr := recordFacts_of_same h hr.1 hr.2
  ask _ _ _ _ _ _ _ _ _ := trivial
  answer i e s o out r w h hinv ha hr hl := by
    have hinv : ∀ rec, w.slot = some rec → Consistent rec := hinv
    have hother : ∀ (j : Nat) (e' : Entry), j ≠ i → ¬ False →
        (w.after i o r out).base j = w.base j ∧ (w.after i o r out).heard j = w.heard j :=
      fun j _ hj _ => ⟨if_neg hj, if_neg hj⟩
    have hslot : (w.after i o r out).slot =
        (savedBy o r).or (if removedBy o r then none else w.slot) := rfl
    -- nothing is saved
    have hkeep (hs : savedBy o r = none) (hf : RecordFacts i e (s.next o r) (w.after i o r out)) :
        (∀ rec, (w.after i o r out).slot = some rec → Consistent rec) ∧
        (∀ (j : Nat) (e' : Entry), j ≠ i → ¬ False →
          (w.after i o r out).base j = w.base j ∧ (w.after i o r out).heard j = w.heard j) ∧
        (∀ old new, w.last = some old → savedBy o r = some new → Carries old new) ∧
        RecordFacts i e (s.next o r) (w.after i o r out) := by
      refine ⟨fun rec hrec => ?_, hother, fun old new _ hn => ?_, hf⟩
      · rw [hslot, hs, Option.none_or] at hrec
        split at hrec
        · cases hrec
        · exact hinv rec hrec
      · rw [hs] at hn; cases hn
    -- a record is saved that carries what was read
    have hsave {b new : StoredSwap} (hs : savedBy o r = some new) (hb : w.base i = some b)
        (hc : Consistent new) (hcar : Carries b new)
        (hf : RecordFacts i e (s.next o r) (w.after i o r out)) :
        (∀ rec, (w.after i o r out).slot = some rec → Consistent rec) ∧
        (∀ (j : Nat) (e' : Entry), j ≠ i → ¬ False →
          (w.after i o r out).base j = w.base j ∧ (w.after i o r out).heard j = w.heard j) ∧
        (∀ old new, w.last = some old → savedBy o r = some new → Carries old new) ∧
        RecordFacts i e (s.next o r) (w.after i o r out) := by
      refine ⟨fun rec hrec => ?_, hother, fun old new' hold hn => ?_, hf⟩
      · rw [hslot, hs, Option.some_or] at hrec
        cases hrec
        exact hc
      · rw [hs] at hn
        cases hn
        exact (hl.1 (by rw [hs]; rfl) old b hold hb).trans hcar
    cases ha with
    | idle ho =>
      refine hkeep (plain_noSave (plain_of_idle ho)) ?_
      rw [next_idle s ho, after_idle ho]
      exact recordFacts_of_same h rfl rfl
    | load id_ =>
      cases r with
      | error e => exact hkeep rfl (recordFacts_of_same h (if_pos rfl) (if_pos rfl))
      | ok rec =>
        refine hkeep rfl ?_
        rintro rec' ⟨⟩
        exact ⟨if_pos rfl, hinv rec (slot_of_read hr.symm)⟩
    | @refund rec at_ req id_ hreq =>
      refine hkeep rfl ?_
      show RecordFacts i e (owesAfter (some rec) (some .refund) (txidIn r)) _
      have hbase : (w.after i (.crypto (.refund id_)) r out).base i = w.base i := if_pos rfl
      cases txidIn r with
      | none => exact recordFacts_of_same h hbase (if_pos rfl)
      | some t =>
        obtain ⟨hb, hc⟩ := h rec rfl
        exact ⟨consistent_of_terminal rfl, rec, hbase.trans hb, carries_setRefunded hc hreq⟩
    | @reclaim rec at_ id_ ht hg =>
      refine hkeep rfl ?_
      show RecordFacts i e (owesAfter (some rec) (some .reclaim) (txidIn r)) _
      have hbase : (w.after i (.crypto (.reclaim id_ ht)) r out).base i = w.base i := if_pos rfl
      cases txidIn r with
      | none => exact recordFacts_of_same h hbase (if_pos rfl)
      | some t =>
        obtain ⟨hb, _⟩ := h rec rfl
        exact ⟨consistent_of_terminal rfl, rec, hbase.trans hb, carries_setReclaimed hg⟩
    | swipe id_ hopen => exact hkeep rfl (recordFacts_of_same h (if_pos rfl) (if_pos rfl))
    | register id_ => exact hkeep rfl (recordFacts_of_same h (if_pos rfl) (if_pos rfl))
    | unregister id_ => exact hkeep rfl (recordFacts_of_same h (if_pos rfl) (if_pos rfl))
    | flag b => exact hkeep rfl (recordFacts_of_same h (if_pos rfl) (if_pos rfl))
    | @record rec =>
      cases r with
      | error e => exact hkeep rfl fun _ h => nomatch h
      | ok _ =>
        obtain ⟨hc, b, hb, hcar⟩ := h
        refine hsave rfl hb hc hcar ?_
        rintro rec' ⟨⟩
        exact ⟨if_pos rfl, hc⟩
    | poll id_ =>
      cases r with
      | error e => exact hkeep rfl h
      | ok st => exact hkeep rfl ⟨h, if_pos rfl⟩
    | raise id_ ht => exact hkeep rfl (recordFacts_of_same h (if_pos rfl) (if_pos rfl))
    | remove id_ ht => cases r <;> exact hkeep rfl (recordFacts_of_same h (if_pos rfl) (if_pos rfl))
    | read id_ =>
      cases r with
      | error e => exact hkeep rfl (recordFacts_of_same h (if_pos rfl) (if_pos rfl))
      | ok rec =>
        exact hkeep rfl ⟨h.1, (if_pos rfl).trans h.2, if_pos rfl, hinv rec (slot_of_read hr.symm)⟩
    | @mirror st rec =>
      obtain ⟨hstatus, hheard, hbase, hc⟩ := h
      cases r with
      | error e => exact hkeep rfl hstatus
      | ok _ =>
        have hspares := hl.2.1 rfl hstatus st rec hheard hbase
        exact hsave rfl hbase (consistent_mirror hc hspares) (carries_mirror hspares) hstatus
    | begin id_ =>
      cases r with
      | error e => exact hkeep rfl ⟨h.1, (if_pos rfl).trans h.2⟩
      | ok rec =>
        refine hkeep rfl ?_
        have hu := hl.2.2 h.1 h.2 rec rfl
        have hb : (w.after i (.store (.load id_)) (.ok rec) out).base i = some rec := if_pos rfl
        simp only [Hand.next, loadedBy]
        split
        · rename_i role hrole
          exact ⟨hrole, hinv rec (slot_of_read hr.symm), rec, hb, rfl, hu⟩
        · exact trivial
    | @status d id_ =>
      have hb : (w.after i (.client (.status id_)) r out).base i = w.base i := if_pos rfl
      cases r with
      | error e => exact hkeep rfl (recordFacts_of_same h hb (if_pos rfl))
      | ok st =>
        refine hkeep rfl ?_
        show DriveFacts (d.afterStatus st) _
        rw [hb]
        exact driveFacts_status h
    | @lock d id_ hrole hp =>
      refine hkeep rfl ?_
      show DriveFacts (d.afterLock (txidIn r)) ((w.after i (.crypto (.lock id_)) r out).base i)
      rw [show (w.after i (.crypto (.lock id_)) r out).base i = w.base i from if_pos rfl]
      exact driveFacts_lock hp h
    | @submitLock d id_ hrole hp =>
      refine hkeep rfl ?_
      show DriveFacts (d.afterLock (txidIn r)) ((w.after i (.crypto (.submitLock id_)) r out).base i)
      rw [show (w.after i (.crypto (.submitLock id_)) r out).base i = w.base i from if_pos rfl]
      exact driveFacts_lock hp h
    | @claim d id_ hp =>
      refine hkeep rfl ?_
      show DriveFacts (d.afterClaim (txidIn r)) ((w.after i (.crypto (.claim id_)) r out).base i)
      rw [show (w.after i (.crypto (.claim id_)) r out).base i = w.base i from if_pos rfl]
      exact driveFacts_claim hp h
    | @persist d rec hm =>
      cases r with
      | error e =>
        refine hkeep rfl ?_
        show DriveFacts (d.afterSave none) ((w.after i (.store (.save rec)) (.error e) out).base i)
        rw [show (w.after i (.store (.save rec)) (.error e) out).base i = w.base i from if_pos rfl]
        exact driveFacts_unsaved h
      | ok _ =>
        have h' := h
        obtain ⟨b, hb, _⟩ := h.copy
        change DriveFacts d (w.base i) at h'
        rw [hb] at h'
        obtain ⟨hcar, hfacts⟩ := carries_of_maySave h' hm
        refine hsave rfl hb hfacts.consistent hcar ?_
        show DriveFacts { d with copy := rec, phase := d.phase.saved } _
        rw [show (w.after i (.store (.save rec)) (.ok _) out).base i = some rec from if_pos rfl]
        exact hfacts
    | judge id_ hp =>
      cases r with
      | error e => exact hkeep rfl (recordFacts_of_same h (if_pos rfl) (if_pos rfl))
      | ok rec => exact hkeep rfl trivial
    | @join d id_ =>
      have hb : (w.after i (.watchers (.register id_)) r out).base i = w.base i := if_pos rfl
      refine hkeep rfl ?_
      show DriveFacts { d with stop := some r } _
      rw [hb]
      exact ⟨h.role, h.consistent, h.copy⟩
    | @own d b =>
      have hb : (w.after i (.flag (.new b)) r out).base i = w.base i := if_pos rfl
      refine hkeep rfl ?_
      show DriveFacts { d with own := some r } _
      rw [hb]
      exact ⟨h.role, h.consistent, h.copy⟩
    | ownStore b ho => exact hkeep rfl (recordFacts_of_same h (if_pos rfl) (if_pos rfl))
    | ownSwap b ho => exact hkeep rfl (recordFacts_of_same h (if_pos rfl) (if_pos rfl))
    | standDown => exact hkeep rfl trivial
    | leave => exact hkeep rfl trivial

/-! ## What was saved stays -/

/-- What one move does to the record that was saved last. -/
theorem last_step {env : Env} {law : Law Op Op.Ans World Entry} {c c' : Cfg Op Op.Ans World Entry}
    {m : Move Out Entry} {old : StoredSwap}
    (hguar : ∀ i e o (k : o.Ans → DeskM Unit Unit) (out : Out) r w new,
      c.tasks[i]? = some ⟨e, .call o k, true⟩ → (desk env).respond i o out c.world = (r, w) →
      law.answer i e o r c.world w → savedBy o r = some new → Carries old new)
    (hs : Step (desk env) law c m c') (hold : c.world.last = some old) :
    ∃ new, c'.world.last = some new ∧ Carries old new := by
  cases hs with
  | start => exact ⟨old, hold, .refl old⟩
  | ask => exact ⟨old, hold, .refl old⟩
  | crash => exact ⟨old, hold, .refl old⟩
  | @answer i out e o k r w ht hr hl hent =>
    have hlast : w.last = (savedBy o r).or c.world.last := by
      obtain ⟨rfl, rfl⟩ := Prod.mk.inj hr
      rfl
    cases hsaved : savedBy o r with
    | none => exact ⟨old, by rw [hlast, hsaved]; exact hold, .refl old⟩
    | some new => exact ⟨new, by rw [hlast, hsaved]; rfl, hguar i e o k out r w new ht hr hl hsaved⟩

/-- Nothing that was saved is lost to a later save, as long as the writers keep to the law. -/
theorem record_kept (env : Env) {w₀ : World} (hunread : ∀ j, w₀.base j = none)
    (hconsistent : ∀ rec, w₀.slot = some rec → Consistent rec) {c c' : Cfg Op Op.Ans World Entry}
    (hr : Reach (desk env) recordLaw ⟨w₀, []⟩ c) (hr' : Reach (desk env) recordLaw c c')
    {old : StoredSwap} (hold : c.world.last = some old) :
    ∃ new, c'.world.last = some new ∧ Carries old new := by
  have hother (i j : Nat) (o : Op) (out : Out) (w : World) (hij : i ≠ j) (h : Unread j w) :
      Unread j ((desk env).respond i o out w).2 := (if_neg (Ne.symm hij)).trans h
  induction hr' with
  | refl => exact ⟨old, hold, .refl old⟩
  | @step c₁ c₂ m hr₁ hs ih =>
    obtain ⟨mid, hmid, hcar⟩ := ih
    obtain ⟨hreach, _⟩ := reach_unborn hother (fun _ _ h => h) hunread (hr.trans hr₁)
    have hholds := holds_of_follows (follows_record env) hconsistent hreach
    have hguar (i : Nat) (e : Entry) (o : Op) (k : o.Ans → DeskM Unit Unit) (out : Out) (r : o.Ans)
        (w : World) (new : StoredSwap) (ht : c₁.tasks[i]? = some ⟨e, .call o k, true⟩)
        (hr : (desk env).respond i o out c₁.world = (r, w)) (hl : recordLaw.answer i e o r c₁.world w)
        (hsaved : savedBy o r = some new) : Carries mid new :=
      Method.guar_of_answer hholds ht hr hl mid new hmid hsaved
    obtain ⟨new, hnew, hcar'⟩ := last_step hguar hs hmid
    exact ⟨new, hnew, hcar.trans hcar'⟩

/-- A led swap whose refund is due. -/
def dueWorld : World := .ofRecord
  { (default : StoredSwap) with
    deskRole := "FOLLOWER"
    state := "A_LOCKED"
    refundPresigREnc := some "r"
    refundPresigSp := some "s"
    lockATxid := some "a"
    keyProvenance := "vendored" }

/-- An engine that refunds, and a desk that knows the lock. -/
def dueAnswers : Out where
  ans
    | .client (.status _) => .ok { (default : StatusResponse) with state := "B_LOCKED" }
    | .crypto (.refund _) => .ok (some "x")
    | o => o.easyAns
  published := false
  settled := false

/-- The refund watch refunds and saves. -/
def refunded : List (Move Out Entry) :=
  .start (.task (.refundWatcher "" 0 0)) :: turns 0 (List.replicate 5 dueAnswers)

theorem consistent_dueWorld (rec : StoredSwap) (h : dueWorld.slot = some rec) : Consistent rec := by
  cases h
  rintro t ⟨⟩

set_option maxRecDepth 4000 in
theorem record_kept_refunded : ∃ new,
    ((desk ⟨true, none, 1⟩).play ⟨dueWorld, []⟩ refunded).world.last = some new ∧
      Carries (dueWorld.slot.getD default) new := by
  have hlaw : recordLaw.PermitsAll (desk ⟨true, none, 1⟩) ⟨dueWorld, []⟩ refunded := by
    refine ⟨trivial, ?_⟩
    repeat' first | exact trivial | exact fun h => False.elim h | exact fun _ h => False.elim h |
      (intro _ _ _ h h'; cases h; cases h'; exact .refl _) | (rintro ⟨⟩) | refine ⟨?_, ?_⟩
  exact record_kept _ (fun _ => rfl) consistent_dueWorld .refl (reach_play hlaw) rfl

/-- `desk_status` reads the record, the refund is saved, `desk_status` saves. -/
def mirroredOver : List (Move Out Entry) :=
  .start (.deskStatus "") :: turns 1 (List.replicate 4 dueAnswers)

set_option maxRecDepth 8000 in
theorem not_always_kept : ¬ ∀ (env : Env) (w₀ : World) (c c' : Cfg Op Op.Ans World Entry)
    (old : StoredSwap), (∀ j, w₀.base j = none) → (∀ rec, w₀.slot = some rec → Consistent rec) →
    Reach (desk env) .free ⟨w₀, []⟩ c → Reach (desk env) .free c c' → c.world.last = some old →
    ∃ new, c'.world.last = some new ∧ Carries old new := by
  intro hall
  -- the first four turns of `desk_status` come before the refund, its save after
  have h := hall ⟨true, none, 1⟩ dueWorld _ _ _ (fun _ => rfl) consistent_dueWorld
    (reach_play (permitsAll_free _ _ (.start (.task (.refundWatcher "" 0 0)) :: mirroredOver ++
      turns 0 (List.replicate 5 dueAnswers))))
    (reach_play (permitsAll_free _ _ (turns 1 [dueAnswers]))) rfl
  obtain ⟨new, hnew, hcar⟩ := h
  cases hnew
  exact absurd (hcar.terminal rfl) (by decide)

end Desk
