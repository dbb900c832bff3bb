import PwndaWallet.Lib.Trace
import PwndaWallet.Desk.Rehydrate
import PwndaWallet.Desk.World

/-!
# The guards of the refund

`refund_guarded`: whatever the record and the broadcaster, the broadcaster is called where a refund of the
leg that is ours is due, with what the record says of it, and the record changes only after it went out.
-/

namespace Desk

open Tasks

/-! ## What is due -/

/-- The leg of our role is locked: chain A when we lead, chain B when we follow. -/
def OursLocked (rec : StoredSwap) (chain : Chain) (lockTxid : String) : Prop :=
  (ClientRole.fromDeskRole rec.deskRole = .ok .leader ∧ chain = .A ∧ rec.lockATxid = some lockTxid) ∨
    (ClientRole.fromDeskRole rec.deskRole = .ok .follower ∧ chain = .B ∧ rec.lockBTxid = some lockTxid)

/-- `req` is the refund of an open swap whose leg we locked, from both halves of its pre-signature. -/
structure Due (rec : StoredSwap) (req : RefundRequest) : Prop where
  open_ : (DeskSwapState.parse rec.state).isTerminal = false
  locked : OursLocked rec req.chain req.lockTxid ∧ req.lockTxid ≠ ""
  presigR : rec.refundPresigREnc = some req.refundPresig.rEnc ∧ req.refundPresig.rEnc ≠ ""
  presigS : rec.refundPresigSp = some req.refundPresig.sp ∧ req.refundPresig.sp ≠ ""
  provenance : req.provenance = KeyProvenance.parse rec.keyProvenance
  ids : req.swapId = rec.swapId ∧ req.pair = rec.pair ∧ req.direction = rec.direction ∧
    req.refundAddress = rec.refundAddress

theorem nonEmpty_eq_some {s : Option String} {t : String} : nonEmpty s = some t ↔ s = some t ∧ t ≠ "" := by
  cases s with
  | none => simp [nonEmpty]
  | some x =>
    by_cases hx : x = ""
    · simp only [nonEmpty, hx, Rust.isEmpty]
      constructor
      · intro h
        cases h
      · rintro ⟨h, hne⟩
        exact absurd (Option.some.inj h).symm hne
    · simp only [nonEmpty, Option.filter_eq_some_iff, Rust.isEmpty]
      constructor
      · rintro ⟨h, hne⟩
        exact ⟨h, by simpa using hne⟩
      · rintro ⟨h, hne⟩
        exact ⟨h, by simpa using hne⟩

theorem refundPresig_eq_some {rec : StoredSwap} {p : AdaptorPresig} : rec.refundPresig = some p ↔
    (rec.refundPresigREnc = some p.rEnc ∧ p.rEnc ≠ "") ∧ rec.refundPresigSp = some p.sp ∧ p.sp ≠ "" := by
  rw [← nonEmpty_eq_some, ← nonEmpty_eq_some]
  unfold StoredSwap.refundPresig
  cases hr : nonEmpty rec.refundPresigREnc with
  | none => simp
  | some r =>
    cases hs : nonEmpty rec.refundPresigSp with
    | none => simp
    | some sp =>
      obtain ⟨r', sp'⟩ := p
      simp

theorem ownLock_iff {rec : StoredSwap} {role : ClientRole} {txid : String}
    (hrole : ClientRole.fromDeskRole rec.deskRole = .ok role) :
    nonEmpty (rec.ownLockTxid role) = some txid ↔ OursLocked rec role.clientLockChain txid ∧ txid ≠ "" := by
  rw [nonEmpty_eq_some]
  unfold OursLocked
  rw [hrole]
  cases role <;> simp [StoredSwap.ownLockTxid, ClientRole.clientLockChain]

theorem due_iff {swapId : String} {rec : StoredSwap} {req : RefundRequest} :
    refundRequest swapId rec = .ok (some req) ↔ Due rec req := by
  constructor
  · intro h
    unfold refundRequest at h
    split at h
    · cases h
    rename_i hopen
    split at h
    · cases h
    rename_i role hrole
    split at h
    · cases h
    rename_i txid htxid
    split at h
    · cases h
    rename_i presig hpresig
    cases h
    obtain ⟨hr, hs⟩ := refundPresig_eq_some.1 hpresig
    exact ⟨by simpa using hopen, (ownLock_iff hrole).1 htxid, hr, hs, rfl, rfl, rfl, rfl, rfl⟩
  · intro h
    obtain ⟨role, hrole, hchain⟩ : ∃ role, ClientRole.fromDeskRole rec.deskRole = .ok role ∧
        req.chain = role.clientLockChain := by
      rcases h.locked.1 with ⟨hrole, hchain, _⟩ | ⟨hrole, hchain, _⟩
      · exact ⟨.leader, hrole, hchain⟩
      · exact ⟨.follower, hrole, hchain⟩
    have hlock : nonEmpty (rec.ownLockTxid role) = some req.lockTxid := (ownLock_iff hrole).2 (hchain ▸ h.locked)
    have hpresig : rec.refundPresig = some req.refundPresig := refundPresig_eq_some.2 ⟨h.presigR, h.presigS⟩
    obtain ⟨hid, hpair, hdirection, haddress⟩ := h.ids
    unfold refundRequest
    rw [h.open_, hrole]
    dsimp only
    rw [hlock, hpresig]
    dsimp only
    rw [← hid, ← hpair, ← hdirection, ← haddress, ← hchain, ← h.provenance]
    rfl

/-! ## What a call does -/

/-- What follows the broadcaster's answer. -/
def afterBroadcast (swapId : String) (rec : StoredSwap) : Except CryptoError String → DeskM RefundError RefundVerdict
  | .error e => .fail (.broadcast swapId e)
  | .ok txid => .call (.store (.save (rec.setRefunded txid))) fun (saved : Except StoreError Unit) =>
    match saved with
    | .ok _ => .ret (.broadcast txid)
    | .error e => .fail (.persist swapId txid e)

/-- What follows the load. -/
def afterLoad (b : RefundBroadcaster) (swapId : String) : Except StoreError StoredSwap → DeskM RefundError RefundVerdict
  | .error e => .fail (.load swapId e)
  | .ok rec =>
    match refundRequest swapId rec with
    | .error e => .fail e
    | .ok none => .ret .nothingLocked
    | .ok (some req) => (b req).handle (afterBroadcast swapId rec)

theorem executeRefund_eq (b : RefundBroadcaster) (swapId : String) :
    executeRefund b swapId = .call (.store (.load swapId)) (afterLoad b swapId) := by
  refine congrArg (Prog.call _) (funext fun (loaded : Except StoreError StoredSwap) => ?_)
  cases loaded with
  | error e => rfl
  | ok rec =>
    unfold afterLoad
    dsimp only
    cases hreq : refundRequest swapId rec with
    | error e =>
      show Prog.bind (Prog.ofExcept (refundRequest swapId rec)) _ = _
      rw [hreq]
      rfl
    | ok found =>
      show Prog.bind (Prog.ofExcept (refundRequest swapId rec)) _ = _
      rw [hreq]
      cases found with
      | none => rfl
      | some req =>
        show Prog.bind (Prog.mapErr _ (b req)) _ = _
        unfold Prog.mapErr Prog.bind
        rw [Prog.handle_handle]
        refine congrArg (Prog.handle (b req)) (funext fun r => ?_)
        cases r with
        | error e => rfl
        | ok txid =>
          refine congrArg (Prog.call _) (funext fun (saved : Except StoreError Unit) => ?_)
          cases saved <;> rfl

/-- What the broadcaster's answer `sent` leads to, and the answers to what is asked then. -/
def SentAs (swapId : String) (rec : StoredSwap) (sent : Except CryptoError String) (tr : List (Ev Op.Ans))
    (r : Except RefundError RefundVerdict) : Prop :=
  match sent with
  | .error e => tr = [] ∧ r = .error (.broadcast swapId e)
  | .ok txid => ∃ saved, tr = [⟨.store (.save { rec with refundTxid := some txid, state := "A_REFUNDED" }), saved⟩] ∧
      r = match saved with
        | .ok _ => .ok (.broadcast txid)
        | .error e => .error (.persist swapId txid e)

theorem sentAs_of_run {swapId : String} {rec : StoredSwap} {sent : Except CryptoError String}
    {tr : List (Ev Op.Ans)} {r : Except RefundError RefundVerdict}
    (hr : (afterBroadcast swapId rec sent).Run tr (.ofExcept r)) : SentAs swapId rec sent tr r := by
  cases sent with
  | error e =>
    have hend : (Prog.ofExcept (.error (.broadcast swapId e)) : DeskM RefundError RefundVerdict).Run tr (.ofExcept r) := hr
    exact hend.end_eq
  | ok txid =>
    rcases Prog.Run.call_cases hr with ⟨_, hq⟩ | ⟨saved, tr', rfl, hr'⟩
    · cases r <;> cases hq
    · cases saved with
      | ok u =>
        have hend : (Prog.ofExcept (.ok (.broadcast txid)) : DeskM RefundError RefundVerdict).Run tr' (.ofExcept r) := hr'
        obtain ⟨rfl, rfl⟩ := hend.end_eq
        exact ⟨_, rfl, rfl⟩
      | error e =>
        have hend : (Prog.ofExcept (.error (.persist swapId txid e)) : DeskM RefundError RefundVerdict).Run tr'
          (.ofExcept r) := hr'
        obtain ⟨rfl, rfl⟩ := hend.end_eq
        exact ⟨_, rfl, rfl⟩

/-- What ends a call before the broadcaster is asked. -/
def Declines : Except RefundError RefundVerdict → Prop
  | .ok .nothingLocked => True
  | .error (.load _ _) => True
  | .error (.alreadyTerminal _ _) => True
  | .error (.role _ _) => True
  | .error (.noPresignedRefund _ _ _) => True
  | _ => False

theorem declines_refundRequest {swapId : String} {rec : StoredSwap} {e : RefundError}
    (h : refundRequest swapId rec = .error e) : Declines (.error e) := by
  unfold refundRequest at h
  split at h
  · cases h
    exact trivial
  split at h
  · cases h
    exact trivial
  split at h
  · cases h
  split at h
  · cases h
    exact trivial
  · cases h

/-- A call to its end: it is declined with the load, or the broadcaster runs for what is due. -/
inductive RefundRun (b : RefundBroadcaster) (swapId : String) :
    List (Ev Op.Ans) → Except RefundError RefundVerdict → Prop
  | declined {loaded : Except StoreError StoredSwap} {r : Except RefundError RefundVerdict} (hd : Declines r)
      (hdue : ∀ rec req, loaded = .ok rec → ¬ Due rec req) : RefundRun b swapId [⟨.store (.load swapId), loaded⟩] r
  | sent {rec : StoredSwap} {req : RefundRequest} {outcome : Except CryptoError String} {trb tr : List (Ev Op.Ans)}
      {r : Except RefundError RefundVerdict} (hdue : Due rec req) (hb : (b req).Run trb (.ofExcept outcome))
      (hs : SentAs swapId rec outcome tr r) :
      RefundRun b swapId (⟨.store (.load swapId), .ok rec⟩ :: (trb ++ tr)) r

theorem refundRun_of_run {b : RefundBroadcaster} {swapId : String} {tr : List (Ev Op.Ans)}
    {r : Except RefundError RefundVerdict} (hr : (executeRefund b swapId).Run tr (.ofExcept r)) :
    RefundRun b swapId tr r := by
  rw [executeRefund_eq] at hr
  rcases hr.call_cases with ⟨_, hq⟩ | ⟨loaded, tr', rfl, hr'⟩
  · cases r <;> cases hq
  have hdeclined : ∀ r', afterLoad b swapId loaded = .ofExcept r' → Declines r' →
      (∀ rec req, loaded = .ok rec → ¬ Due rec req) →
      RefundRun b swapId (⟨.store (.load swapId), loaded⟩ :: tr') r := by
    intro r' heq hd hdue
    rw [heq] at hr'
    obtain ⟨rfl, rfl⟩ := hr'.end_eq
    exact .declined hd hdue
  cases loaded with
  | error e => exact hdeclined (.error (.load swapId e)) rfl trivial fun _ _ h => (by cases h)
  | ok rec =>
    unfold afterLoad at hr' hdeclined
    dsimp only at hr' hdeclined
    cases hreq : refundRequest swapId rec with
    | error e =>
      rw [hreq] at hdeclined
      refine hdeclined (.error e) rfl (declines_refundRequest hreq) ?_
      rintro _ req ⟨⟩ hdue
      cases hreq.symm.trans (due_iff.2 hdue)
    | ok found =>
      cases found with
      | none =>
        rw [hreq] at hdeclined
        refine hdeclined (.ok .nothingLocked) rfl trivial ?_
        rintro _ req ⟨⟩ hdue
        cases hreq.symm.trans (due_iff.2 hdue)
      | some req =>
        rw [hreq] at hr'
        obtain ⟨outcome, trb, tr₂, rfl, hb, hafter⟩ := Prog.Run.handle_end hr'
        exact .sent (due_iff.1 hreq) hb (sentAs_of_run hafter)

/-! ## The stored record -/

/-- What the store holds after the answers `tr`. -/
def slotAfter (slot : Option StoredSwap) (tr : List (Ev Op.Ans)) : Option StoredSwap :=
  tr.foldl (fun slot e => (savedBy e.op e.ans).or (if removedBy e.op e.ans then none else slot)) slot

/-- The task does not write the store. -/
def LeavesRecord {ε α : Type} (p : DeskM ε α) : Prop :=
  Uses (fun o => ∀ r, savedBy o r = none ∧ removedBy o r = false) p

theorem slotAfter_append (slot : Option StoredSwap) (tr tr' : List (Ev Op.Ans)) :
    slotAfter slot (tr ++ tr') = slotAfter (slotAfter slot tr) tr' := List.foldl_append ..

theorem slotAfter_load (slot : Option StoredSwap) (swapId : String) (loaded : Except StoreError StoredSwap)
    (tr : List (Ev Op.Ans)) : slotAfter slot (⟨.store (.load swapId), loaded⟩ :: tr) = slotAfter slot tr := rfl

theorem slotAfter_of_leaves {ε α : Type} {p q : DeskM ε α} {tr : List (Ev Op.Ans)} (hp : LeavesRecord p)
    (hr : p.Run tr q) (slot : Option StoredSwap) : slotAfter slot tr = slot ∧ LeavesRecord q := by
  induction hr with
  | refl => exact ⟨rfl, hp⟩
  | @step tr o k r _ ih =>
    obtain ⟨hslot, hcall⟩ := ih
    obtain ⟨hsaved, hremoved⟩ := hcall.1 r
    refine ⟨?_, hcall.2 r⟩
    rw [slotAfter_append, hslot]
    simp [slotAfter, hsaved, hremoved]

theorem leavesRecord_active (armed : Bool) (req : RefundRequest) : LeavesRecord (activeRefundBroadcaster armed req) := by
  cases armed with
  | false => exact .bind (.ensure ..) fun _ => trivial
  | true => exact .bind (.ensure ..) fun _ => .request fun _ => ⟨rfl, rfl⟩

/-- The record is as it was, and after a refund that went out, with its txid and the state of a refund. -/
def RefundKeeps (slot slot' : Option StoredSwap) (rec : Except StoreError StoredSwap) :
    Except RefundError RefundVerdict → Prop
  | .error (.persist _ _ _) => True
  | .error _ => slot' = slot
  | .ok .nothingLocked => slot' = slot
  | .ok (.broadcast txid) => ∃ old, rec = .ok old ∧
      slot' = some { old with refundTxid := some txid, state := "A_REFUNDED" }

/-- The broadcaster is asked exactly for what is due, and the record changes only as its answer says. -/
theorem refund_guarded {b : RefundBroadcaster} {swapId : String} {tr : List (Ev Op.Ans)}
    {r : Except RefundError RefundVerdict} (hr : (executeRefund b swapId).Run tr (.ofExcept r)) :
    ∃ loaded rest, tr = ⟨.store (.load swapId), loaded⟩ :: rest ∧
      ((∀ rec req, loaded = .ok rec → ¬ Due rec req) → rest = [] ∧ Declines r) ∧
      (∀ rec req, loaded = .ok rec → Due rec req → ∃ trb outcome sent, rest = trb ++ sent ∧
        (b req).Run trb (.ofExcept outcome) ∧ SentAs swapId rec outcome sent r) ∧
      ((∀ req, LeavesRecord (b req)) → ∀ slot, RefundKeeps slot (slotAfter slot tr) loaded r) := by
  have hdue_unique : ∀ {rec : StoredSwap} {req req' : RefundRequest}, Due rec req → Due rec req' → req = req' := by
    intro rec req req' h h'
    have heq : refundRequest swapId rec = .ok (some req) := due_iff.2 h
    rw [due_iff.2 h'] at heq
    exact (Option.some.inj (Except.ok.inj heq)).symm
  cases refundRun_of_run hr with
  | @declined loaded _ hd hdue =>
    refine ⟨loaded, [], rfl, fun _ => ⟨rfl, hd⟩, fun rec req hl hd' => absurd hd' (hdue rec req hl), fun _ slot => ?_⟩
    rcases r with e | v
    · cases e <;> first | exact rfl | exact trivial
    · cases v with
      | nothingLocked => exact rfl
      | broadcast txid => cases hd
  | @sent rec req outcome trb tr' _ hdue hb hs =>
    refine ⟨.ok rec, trb ++ tr', rfl, fun hno => absurd hdue (hno rec req rfl), ?_, fun hleaves slot => ?_⟩
    · rintro _ req' ⟨⟩ hdue'
      obtain rfl := hdue_unique hdue hdue'
      exact ⟨trb, outcome, tr', rfl, hb, hs⟩
    · rw [slotAfter_load, slotAfter_append, (slotAfter_of_leaves (hleaves req) hb slot).1]
      cases outcome with
      | error e =>
        obtain ⟨rfl, rfl⟩ := hs
        exact rfl
      | ok txid =>
        obtain ⟨saved, rfl, rfl⟩ := hs
        cases saved with
        | error e => exact trivial
        | ok u => exact ⟨rec, rfl, rfl⟩

/-! ## A refund of chain A -/

/-- A swap that we lead, locked, with the pre-signature of its refund. -/
def lockedLed : StoredSwap :=
  { (default : StoredSwap) with
    swapId := "8f40ce4b"
    deskRole := "FOLLOWER"
    state := "A_LOCKED"
    lockATxid := some "a9fa251f"
    refundPresigREnc := some "r"
    refundPresigSp := some "s"
    keyProvenance := "vendored" }

def refundAns (_ : Nat) : (o : Op) → o.Ans
  | .store (.load _) => .ok lockedLed
  | .crypto (.refund _) => .ok (some "77ee")
  | o => o.easyAns

def refundCall : DeskM RefundError RefundVerdict := executeRefund (activeRefundBroadcaster true) "8f40ce4b"

theorem refund_guarded_led : ∃ trb outcome sent,
    refundCall.fed refundAns 3 = [⟨.store (.load "8f40ce4b"), .ok lockedLed⟩] ++ trb ++ sent ∧
    SentAs "8f40ce4b" lockedLed outcome sent (.ok (.broadcast "77ee")) ∧
    slotAfter (some lockedLed) (refundCall.fed refundAns 3) =
      some { lockedLed with refundTxid := some "77ee", state := "A_REFUNDED" } := by
  have hrun : refundCall.Run (refundCall.fed refundAns 3) (.ofExcept (.ok (.broadcast "77ee"))) :=
    refundCall.run_feed refundAns 3
  obtain ⟨loaded, rest, htr, _, hsent, hkeeps⟩ := refund_guarded hrun
  have hloaded : refundCall.fed refundAns 3 =
      ⟨.store (.load "8f40ce4b"), .ok lockedLed⟩ :: (refundCall.fed refundAns 3).tail := rfl
  obtain ⟨h1, h2⟩ := List.cons.inj (htr.symm.trans hloaded)
  cases h1
  obtain ⟨req, hreq⟩ : ∃ req, refundRequest "8f40ce4b" lockedLed = .ok (some req) := ⟨_, rfl⟩
  obtain ⟨trb, outcome, sent, hrest, _, has⟩ := hsent lockedLed req rfl (due_iff.1 hreq)
  obtain ⟨old, ⟨⟩, hslot⟩ := hkeeps (leavesRecord_active true) (some lockedLed)
  refine ⟨trb, outcome, sent, ?_, has, hslot⟩
  rw [htr, hrest]
  rfl

end Desk
