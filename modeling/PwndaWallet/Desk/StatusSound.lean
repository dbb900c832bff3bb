import PwndaWallet.Desk.Acts

/-!
# What a status reply can disarm

`desk_status` raises the stop flag, removes the record and mirrors state and txids on the word of the
desk alone, so one reply disarms our recovery (`not_always_armed`). It stays armed as long as no reply is
terminal and none names another transaction for our leg (`armed_of_keeping`).
-/

namespace Desk

open Tasks

/-- A reply that leaves a lock `txid` of `role` recoverable. -/
structure Keeping (role : ClientRole) (txid : String) (st : StatusResponse) : Prop where
  open_ : (DeskSwapState.parse st.state).isTerminal = false
  own : st.ownLockTxid role = "" ∨ st.ownLockTxid role = txid

/-- The record recovers the lock `txid` of `role`. -/
structure Standing (role : ClientRole) (txid : String) (rec : StoredSwap) : Prop where
  ours : ClientRole.fromDeskRole rec.deskRole = .ok role
  lock : nonEmpty (rec.ownLockTxid role) = some txid
  presig : rec.refundPresig.isSome = true
  open_ : (DeskSwapState.parse rec.state).isTerminal = false

/-- The record stands, and no stop flag is raised. -/
structure Armed (role : ClientRole) (txid : String) (w : World) : Prop where
  slot : ∃ rec, w.slot = some rec ∧ Standing role txid rec
  flags : ∀ f ∈ w.flags, f.shared = true → f.raised = false

/-- Our claim, or a recovery, is on a chain. -/
def Spent (w : World) : Prop := ∃ x ∈ w.chain, x.2 ≠ .lock

theorem refundRequest_of_standing {role : ClientRole} {txid : String} {rec : StoredSwap}
    (h : Standing role txid rec) (id_ : String) :
    ∃ req, refundRequest id_ rec = .ok (some req) ∧ req.lockTxid = txid := by
  obtain ⟨presig, hp⟩ := Option.isSome_iff_exists.1 h.presig
  unfold refundRequest
  simp only [h.open_, h.ours, h.lock, hp, Bool.false_eq_true, if_false]
  exact ⟨_, rfl, rfl⟩

/-- What the mirror writes stands if the reply keeps it. -/
theorem standing_mirror {role : ClientRole} {txid : String} {st : StatusResponse} {rec : StoredSwap}
    (hst : Keeping role txid st) (h : Standing role txid rec) : Standing role txid (mirror st rec) := by
  refine ⟨h.ours, ?_, h.presig, hst.open_⟩
  have hlock := h.lock
  have hown := hst.own
  cases role with
  | follower => exact nonEmpty_mirrored hlock hown
  | leader => exact nonEmpty_mirrored hlock hown

/-! ## The invariant -/

/-- `desk_status` and the recovery tasks, with a condition on the replies. -/
def statusLaw (good : StatusResponse → Prop) : Law Op Op.Ans World Entry where
  enter e _ _ := e.Recovers ∨ ∃ id_, e = .deskStatus id_
  ask _ _ _ _ := True
  answer _ _ o r _ _ := ∀ st, repliedBy o r = some st → good st

section
variable {role : ClientRole} {txid : String} {w : World} {i : Nat} {o : Op} {r : o.Ans} {out : Out}

theorem spent_after (h : Spent w) : Spent (w.after i o r out) := by
  obtain ⟨x, hx, hne⟩ := h
  exact ⟨x, List.mem_append_right _ hx, hne⟩

theorem armed_of_same {w' : World} (h : Armed role txid w) (hs : w'.slot = w.slot)
    (hf : w'.flags = w.flags) : Armed role txid w' := by
  refine ⟨?_, ?_⟩
  · rw [hs]; exact h.slot
  · rw [hf]; exact h.flags

theorem inv_of_same {w' : World} (h : Spent w ∨ Armed role txid w) (hspent : Spent w → Spent w')
    (hs : w'.slot = w.slot) (hf : w'.flags = w.flags) : Spent w' ∨ Armed role txid w' :=
  h.imp hspent fun ha => armed_of_same ha hs hf

/-- A new flag is not raised, or not shared. -/
theorem armed_of_more {w' : World} {f : StopFlag} (h : Armed role txid w) (hs : w'.slot = w.slot)
    (hf : w'.flags = w.flags ++ [f]) (hnew : f.shared = true → f.raised = false) :
    Armed role txid w' := by
  refine ⟨by rw [hs]; exact h.slot, fun g hg => ?_⟩
  rw [hf] at hg
  rcases List.mem_append.1 hg with hg | hg
  · exact h.flags g hg
  · obtain rfl := List.mem_singleton.1 hg
    exact hnew

theorem armed_register (h : Armed role txid w) (id_ : String) (f : FlagRef) :
    Armed role txid (w.after i (.watchers (.register id_)) f out) := by
  have hflags : (w.after i (.watchers (.register id_)) f out).flags =
      if w.watcher.isSome then w.flags else w.flags ++ [⟨false, true⟩] := rfl
  by_cases hw : w.watcher.isSome = true
  · exact armed_of_same h rfl (by rw [hflags, if_pos hw])
  · exact armed_of_more h rfl (by rw [hflags, if_neg hw]) fun _ => rfl

end

def statusMethod (env : Env) (role : ClientRole) (txid : String) :
    Method (desk env) (statusLaw (Keeping role txid)) where
  inv w := Spent w ∨ Armed role txid w
  rely _ _ w w' := Spent w → Spent w'
  must _ _ _ _ := True
  guar _ _ _ _ _ _ := True
  fit _ e _ := e.Recovers ∨ ∃ id_, e = .deskStatus id_
  apart _ _ := False
  rely_refl _ _ _ h := h
  rely_trans _ _ _ _ _ h h' hs := h' (h hs)
  apart_symm _ _ h := h
  restart w h := h.imp id fun ha => ⟨ha.slot, fun f hf => by simp [desk, World.restart] at hf⟩
  enter _ _ _ h := ⟨h, fun _ _ _ => id⟩

/-- What a task's hand says of the recovery. -/
def StatusFacts (role : ClientRole) (txid : String) (s : Hand) (w : World) : Prop :=
  match s with
  | .free _ => True
  | .owes _ => Spent w
  | .polls => True
  | .polled st => Keeping role txid st
  | .mirrors st rec => Keeping role txid st ∧ (Spent w ∨ Standing role txid rec)
  | _ => False

theorem statusFacts_after {role : ClientRole} {txid : String} {s : Hand} {w w' : World}
    (hw : Spent w → Spent w') (h : StatusFacts role txid s w) : StatusFacts role txid s w' := by
  cases s with
  | owes rec => exact hw h
  | mirrors st rec => exact ⟨h.1, h.2.imp hw id⟩
  | _ => exact h

theorem follows_status (env : Env) (role : ClientRole) (txid : String) :
    Follows (statusMethod env role txid) fun _ _ => StatusFacts role txid where
  start i e w hfit _ := by
    rcases hfit with hfit | ⟨id_, rfl⟩
    · cases e with
      | rehydrate => exact trivial
      | task t => cases t <;> first | exact trivial | exact hfit.elim
      | _ => exact hfit.elim
    · exact trivial
  rely i e s w w' h _ hr := statusFacts_after hr h
  ask _ _ _ _ _ _ _ _ _ := trivial
  answer i e s o out r w h hinv ha hr hl := by
    have hinv : Spent w ∨ Armed role txid w := hinv
    -- a recovery that is answered with its txid is on its chain
    have howes {rec : StoredSwap} {tx : Tx} (htx : txOf o = some tx) (hne : tx ≠ .lock) :
        StatusFacts role txid (owesAfter (some rec) (some tx) (txidBy o r)) (w.after i o r out) := by
      cases ht : txidBy o r with
      | none => cases tx <;> exact trivial
      | some t =>
        have hs : Spent (w.after i o r out) := ⟨_, mem_chain_of_txid htx ht, hne⟩
        cases tx <;> first | exact trivial | exact hs
    suffices (Spent (w.after i o r out) ∨ Armed role txid (w.after i o r out)) ∧
        StatusFacts role txid (s.next o r) (w.after i o r out) from
      ⟨this.1, fun _ _ _ _ => spent_after, trivial, this.2⟩
    cases ha with
    | idle ho =>
      rw [next_idle s ho, after_idle ho]
      exact ⟨inv_of_same hinv (fun hs => hs) rfl rfl, statusFacts_after (fun hs => hs) h⟩
    | load id_ => cases r <;> exact ⟨inv_of_same hinv spent_after rfl rfl, trivial⟩
    | refund id_ hreq => exact ⟨inv_of_same hinv spent_after rfl rfl, howes rfl nofun⟩
    | reclaim id_ ht hg => exact ⟨inv_of_same hinv spent_after rfl rfl, howes rfl nofun⟩
    | swipe id_ hopen => exact ⟨inv_of_same hinv spent_after rfl rfl, howes rfl nofun⟩
    | register id_ => exact ⟨hinv.imp spent_after fun ha => armed_register ha id_ r, trivial⟩
    | unregister id_ => exact ⟨inv_of_same hinv spent_after rfl rfl, trivial⟩
    | flag b =>
      exact ⟨hinv.imp spent_after fun ha => armed_of_more (w := w) ha rfl rfl nofun, trivial⟩
    | record => exact ⟨.inl (spent_after h), by cases r <;> exact trivial⟩
    | poll id_ =>
      cases r with
      | error e => exact ⟨inv_of_same hinv spent_after rfl rfl, trivial⟩
      | ok st => exact ⟨inv_of_same hinv spent_after rfl rfl, hl st rfl⟩
    | raise id_ ht => exact absurd ht (by rw [h.open_]; nofun)
    | remove id_ ht => exact absurd ht (by rw [h.open_]; nofun)
    | read id_ =>
      cases r with
      | error e => exact ⟨inv_of_same hinv spent_after rfl rfl, h⟩
      | ok rec =>
        refine ⟨inv_of_same hinv spent_after rfl rfl, h, hinv.imp spent_after fun ha => ?_⟩
        obtain ⟨rec', hslot, hstand⟩ := ha.slot
        rw [slot_of_read hr.symm] at hslot
        cases hslot
        exact hstand
    | @mirror st rec =>
      refine ⟨?_, trivial⟩
      cases r with
      | error e => exact inv_of_same hinv spent_after rfl rfl
      | ok _ =>
        rcases h.2 with hs | hstand
        · exact .inl (spent_after hs)
        · exact hinv.imp spent_after fun ha => ⟨⟨_, rfl, standing_mirror h.1 hstand⟩, ha.flags⟩
    | _ => exact h.elim

/-- A refund that the record allows reaches the broadcaster. -/
theorem run_executeRefund {id_ : String} {rec : StoredSwap} {req : RefundRequest}
    (hreq : refundRequest id_ rec = .ok (some req)) (broadcaster : RefundBroadcaster) :
    ∃ k, (executeRefund broadcaster id_).Run [⟨.store (.load id_), .ok rec⟩]
      (((broadcaster req).mapErr (.broadcast id_)).bind k) := by
  have hrun := Prog.Run.one (p := executeRefund broadcaster id_) (o := .store (.load id_)) rfl (.ok rec)
  refine ⟨fun txid => ((store.save (rec.setRefunded txid)).mapErr (.persist id_ txid)).bind fun _ =>
    .ret (.broadcast txid), ?_⟩
  simp only [Prog.ofExcept, Prog.handle, hreq] at hrun
  exact hrun

/-- As long as every reply keeps the lock, the recovery of a lock that is neither claimed nor recovered
stays armed, and a refund reaches its broadcaster. -/
theorem armed_of_keeping (env : Env) (role : ClientRole) (txid : String) {w₀ : World}
    (h₀ : Armed role txid w₀) {c : Cfg Op Op.Ans World Entry}
    (hr : Reach (desk env) (statusLaw (Keeping role txid)) ⟨w₀, []⟩ c) (hc : ¬ Spent c.world) :
    Armed role txid c.world ∧ ∀ (broadcaster : RefundBroadcaster) (id_ : String), ∃ rec req k,
      c.world.slot = some rec ∧ req.lockTxid = txid ∧
      (executeRefund broadcaster id_).Run [⟨.store (.load id_), .ok rec⟩]
        (((broadcaster req).mapErr (.broadcast id_)).bind k) := by
  have harmed : Armed role txid c.world :=
    (holds_of_follows (follows_status env role txid) (.inr h₀) hr).inv.resolve_left hc
  refine ⟨harmed, fun broadcaster id_ => ?_⟩
  obtain ⟨rec, hslot, hstand⟩ := harmed.slot
  obtain ⟨req, hreq, htxid⟩ := refundRequest_of_standing hstand id_
  obtain ⟨k, hrun⟩ := run_executeRefund hreq broadcaster
  exact ⟨rec, req, k, hslot, htxid, hrun⟩

/-- A purchase with our lock `a` in the record. -/
def lockedWorld : World := .ofRecord
  { (default : StoredSwap) with
    deskRole := "FOLLOWER"
    state := "A_LOCKED"
    refundPresigREnc := some "r"
    refundPresigSp := some "s"
    lockATxid := some "a" }

theorem armed_lockedWorld : Armed .leader "a" lockedWorld where
  slot := ⟨_, rfl, rfl, rfl, rfl, rfl⟩
  flags := by simp [lockedWorld, World.ofRecord]

/-- A desk that answers every poll with `state`. -/
def statusAnswers (state : String) : Out where
  ans
    | .client (.status _) => .ok { (default : StatusResponse) with state := state }
    | o => o.easyAns
  published := false
  settled := false

/-- A poll of the desk. -/
def pollStep (state : String) : List (Move Out Entry) :=
  .start (.deskStatus "") :: turns 0 (List.replicate 5 (statusAnswers state))

set_option maxRecDepth 4000 in
theorem armed_of_keeping_poll :
    Armed .leader "a" ((desk ⟨true, none, 1⟩).play ⟨lockedWorld, []⟩ (pollStep "B_LOCKED")).world := by
  have hlaw : (statusLaw (Keeping .leader "a")).PermitsAll (desk ⟨true, none, 1⟩) ⟨lockedWorld, []⟩
      (pollStep "B_LOCKED") := by
    refine ⟨.inr ⟨"", rfl⟩, trivial, ⟨?_, trivial⟩, ?_⟩
    · rintro st ⟨⟩
      exact ⟨rfl, .inl rfl⟩
    · repeat' first | exact trivial | (rintro _ ⟨⟩) | refine ⟨?_, ?_⟩
  refine (armed_of_keeping _ .leader "a" armed_lockedWorld (reach_play hlaw) ?_).1
  rintro ⟨x, hx, _⟩
  exact List.not_mem_nil (show x ∈ [] from hx)

set_option maxRecDepth 4000 in
theorem not_always_armed : ¬ ∀ (env : Env) (role : ClientRole) (txid : String) (w₀ : World)
    (c : Cfg Op Op.Ans World Entry), Armed role txid w₀ →
    Reach (desk env) (statusLaw fun _ => True) ⟨w₀, []⟩ c → ¬ Spent c.world →
    Armed role txid c.world := by
  intro hall
  have hlaw : (statusLaw fun _ => True).PermitsAll (desk ⟨true, none, 1⟩) ⟨lockedWorld, []⟩
      (pollStep "SETTLED") := by
    refine ⟨.inr ⟨"", rfl⟩, ?_⟩
    show (statusLaw fun _ => True).PermitsAll _ _ (turns 0 _)
    repeat' first | exact trivial | (intro _ _; exact trivial) | refine ⟨?_, ?_⟩
  have h := hall _ .leader "a" _ _ armed_lockedWorld (reach_play hlaw) (by
    rintro ⟨x, hx, _⟩
    exact List.not_mem_nil (show x ∈ [] from hx))
  obtain ⟨rec, hslot, _⟩ := h.slot
  exact absurd hslot nofun

end Desk
