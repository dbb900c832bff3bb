import PwndaWallet.Desk.Acts

/-!
# One recovery per swap

The recovery tasks decide on the record they read last and write their success only afterwards, the swipe
not at all; so a swap that is recovered can be recovered again (`not_always_recovered_once`), and a swipe can
follow a refund (`not_always_cooperative_first`). Where no task overlaps another's way from its reading to
its saving, neither happens (`recover_once`, `cooperative_first`).
-/

namespace Desk

open Tasks

/-- The record is the one the task read last, and nobody has a recovery out that is not saved. -/
structure Alone (i : Nat) (w : World) : Prop where
  read : w.slot = w.base i
  saved : w.unsaved = []

/-- No recovery task acts on the record. -/
structure Closed (rec : StoredSwap) : Prop where
  terminal : (DeskSwapState.parse rec.state).isTerminal = true
  reclaimed : ClientRole.fromDeskRole rec.deskRole = .ok .follower → nonEmpty rec.reclaimTxid ≠ none

/-- A refund or a reclaim is out. -/
def Recovered (w : World) : Prop := ∃ x ∈ w.chain, x.2.recovers = true ∧ x.2 ≠ .swipe

/-- What took effect is answered with its txid, and no refund takes effect on a followed swap. -/
structure Told (i : Nat) (o : Op) (r : o.Ans) (tx : Tx) (w : World) : Prop where
  txid : tx ≠ .swipe → (txidBy o r).isSome = true
  led : ∀ rec, tx = .refund → w.base i = some rec → ClientRole.fromDeskRole rec.deskRole ≠ .ok .follower

/-- The recovery tasks one at a time, with saves that succeed, and with `may i tx w` whenever something
takes effect. -/
def recoveryLaw (may : Nat → Tx → World → Prop) : Law Op Op.Ans World Entry where
  enter e _ _ := e.Recovers
  ask i _ o w := ∀ tx, txOf o = some tx → Alone i w
  answer i _ o r w w' := (isSave o = true → (savedBy o r).isSome = true) ∧
    ∀ tx, txOf o = some tx → w'.chain ≠ w.chain → Told i o r tx w ∧ may i tx w

/-! ## A closed record -/

theorem not_refund_of_closed {rec : StoredSwap} {id_ : String} {req : RefundRequest} (h : Closed rec) :
    refundRequest id_ rec ≠ .ok (some req) := by
  unfold refundRequest
  rw [h.terminal]
  nofun

theorem not_reclaim_of_closed {rec : StoredSwap} {id_ : String} (h : Closed rec) :
    reclaimGuard id_ rec ≠ .ok none := by
  unfold reclaimGuard
  have hr := h.reclaimed
  unfold nonEmpty at hr
  split
  · nofun
  · rename_i hnone
    split
    · nofun
    · rename_i role hrole
      cases role with
      | follower => exact absurd hnone (hr hrole)
      | leader => nofun

theorem not_swipe_of_closed {rec : StoredSwap} {now : Int} (h : Closed rec) :
    deepAbortOpen rec now ≠ true := by
  unfold deepAbortOpen deepAbortDecisionForRecord deepAbortDecision
  split
  · nofun
  · cases engineT2ForDeepAbort rec with
    | error e => nofun
    | ok t2 =>
      simp only [Except.map, h.terminal, if_true]
      nofun

theorem closed_setRefunded {rec : StoredSwap} {txid : String}
    (h : ClientRole.fromDeskRole rec.deskRole ≠ .ok .follower) : Closed (rec.setRefunded txid) :=
  ⟨rfl, fun hr => absurd hr h⟩

theorem closed_setReclaimed {rec : StoredSwap} {txid : String} (h : txid ≠ "") :
    Closed (rec.setReclaimed txid) := by
  refine ⟨rfl, fun _ => ?_⟩
  show nonEmpty (some txid) ≠ none
  simp [nonEmpty, Rust.isEmpty, h]

/-! ## The invariant -/

section
variable {w : World} {i : Nat} {o : Op} {r : o.Ans} {out : Out} {tx : Tx}

/-- An engine call leaves the record and what the tasks read of it alone. -/
theorem record_of_tx (h : txOf o = some tx) : (w.after i o r out).slot = w.slot ∧
    (∀ j, (w.after i o r out).base j = w.base j) := by
  cases o with
  | crypto c =>
    refine ⟨rfl, fun j => ?_⟩
    show (if j = i then w.base i else w.base j) = w.base j
    split
    · rename_i hj; rw [hj]
    · rfl
  | _ => cases h

theorem putBy_eq_none (h : txOf o = some tx) {published : Bool} (hp : World.putBy o r published = none) :
    txidBy o r = none := by
  unfold World.putBy at hp
  rw [h] at hp
  cases ht : txidBy o r with
  | none => rfl
  | some t => rw [ht] at hp; simp at hp

theorem putBy_eq_some {published : Bool} {tx' : Tx} (h : txOf o = some tx)
    (hp : World.putBy o r published = some tx') : tx' = tx := by
  unfold World.putBy at hp
  split at hp
  · rw [h] at hp; exact (Option.some.inj hp).symm
  · cases hp

/-- A recovery took effect, and is not saved yet, or it changed nothing. -/
theorem after_recovery (h : txOf o = some tx) (hr : tx.recovers = true) :
    (txidBy o r = none ∧ (w.after i o r out).chain = w.chain ∧ (w.after i o r out).unsaved = w.unsaved) ∨
      ((w.after i o r out).chain = (i, tx) :: w.chain ∧ (w.after i o r out).unsaved = i :: w.unsaved) := by
  have hsave : savedBy o r = none := by cases o <;> first | rfl | cases h
  have hchain : (w.after i o r out).chain =
      ((World.putBy o r out.published).map (i, ·)).toList ++ w.chain := rfl
  have hunsaved : (w.after i o r out).unsaved = w.unsavedAfter i o r out.published := rfl
  unfold World.unsavedAfter World.recoveredBy at hunsaved
  rw [hchain, hunsaved]
  cases hp : World.putBy o r out.published with
  | none => exact .inl ⟨putBy_eq_none h hp, rfl, by simp [hsave]⟩
  | some tx' =>
    obtain rfl := putBy_eq_some h hp
    exact .inr ⟨rfl, by simp [hr]⟩

end

/-- The record is closed once a recovery is out and saved, and `J` holds of all that is out. -/
structure RecoveryInv (J : List (Nat × Tx) → Prop) (w : World) : Prop where
  closed : Recovered w → w.unsaved = [] → ∀ rec, w.slot = some rec → Closed rec
  outs : J w.chain

/-- What a task's hand says of the record. -/
def RecoveryFacts (i : Nat) (s : Hand) (w : World) : Prop :=
  match s with
  | .free last => ∀ rec, last = some rec → w.base i = some rec
  | .owes rec => Closed rec
  | _ => False

/-- `J` is kept by whatever may take effect. -/
def KeptBy (may : Nat → Tx → World → Prop) (J : List (Nat × Tx) → Prop) : Prop :=
  ∀ i tx w, may i tx w → (Alone i w → ¬ Recovered w) → J w.chain → J ((i, tx) :: w.chain)

def recoveryMethod (env : Env) (may : Nat → Tx → World → Prop) (J : List (Nat × Tx) → Prop) :
    Method (desk env) (recoveryLaw may) where
  inv := RecoveryInv J
  rely i _ w w' := w'.base i = w.base i
  must _ _ o w := ∀ tx, txOf o = some tx → ¬ Recovered w
  guar _ _ _ _ _ _ := True
  fit _ e _ := e.Recovers
  apart _ _ := False
  rely_refl _ _ _ := rfl
  rely_trans _ _ _ _ _ h h' := h'.trans h
  apart_symm _ _ h := h
  restart _ h := ⟨h.closed, h.outs⟩
  enter _ _ _ h := ⟨h, fun _ _ _ => id⟩

section
variable {J : List (Nat × Tx) → Prop} {w w' : World} {i : Nat}

/-- What a task may act on is not closed, so nothing was recovered before. -/
theorem not_recovered {rec : StoredSwap} (h : RecoveryInv J w) (hfacts : RecoveryFacts i (.free (some rec)) w)
    (hopen : ¬ Closed rec) (halone : Alone i w) : ¬ Recovered w := by
  intro hrec
  have hslot : w.slot = some rec := halone.read.trans (hfacts rec rfl)
  exact hopen (h.closed hrec halone.saved rec hslot)

theorem recoveryInv_of_same (h : RecoveryInv J w) (hs : w'.slot = w.slot) (hc : w'.chain = w.chain)
    (hu : w'.unsaved = w.unsaved) : RecoveryInv J w' := by
  refine ⟨fun hrec hsaved => ?_, by rw [hc]; exact h.outs⟩
  unfold Recovered at hrec
  rw [hc] at hrec
  rw [hu] at hsaved
  rw [hs]
  exact h.closed hrec hsaved

theorem recoveryFacts_of_base {s : Hand} (h : RecoveryFacts i s w) (hb : w'.base i = w.base i) :
    RecoveryFacts i s w' := by
  cases s with
  | free last => exact fun rec hrec => hb.trans (h rec hrec)
  | _ => exact h

/-- A recovery keeps the invariant, and is told of if it is answered with a txid. -/
theorem recoveryInv_after {may : Nat → Tx → World → Prop} (hJ : KeptBy may J) {rec : StoredSwap}
    {o : Op} {r : o.Ans} {out : Out} {tx : Tx} {e : Entry} (h : RecoveryInv J w)
    (hfacts : RecoveryFacts i (.free (some rec)) w) (hopen : ¬ Closed rec) (htx : txOf o = some tx)
    (hrec : tx.recovers = true) (hl : (recoveryLaw may).answer i e o r w (w.after i o r out)) :
    RecoveryInv J (w.after i o r out) ∧ (txidBy o r = none ∨ Told i o r tx w) := by
  have hslot : (w.after i o r out).slot = w.slot := (record_of_tx htx).1
  have hafter : (txidBy o r = none ∧ (w.after i o r out).chain = w.chain ∧
      (w.after i o r out).unsaved = w.unsaved) ∨ ((w.after i o r out).chain = (i, tx) :: w.chain ∧
      (w.after i o r out).unsaved = i :: w.unsaved) := after_recovery htx hrec
  rcases hafter with ⟨htxid, hchain, hunsaved⟩ | ⟨hchain, hunsaved⟩
  · exact ⟨recoveryInv_of_same h hslot hchain hunsaved, .inl htxid⟩
  · obtain ⟨htold, hmay⟩ := hl.2 tx htx (by rw [hchain]; simp)
    refine ⟨⟨fun _ hsaved => ?_, ?_⟩, .inr htold⟩
    · rw [hunsaved] at hsaved; cases hsaved
    · rw [hchain]
      exact hJ i tx w hmay (not_recovered h hfacts hopen) h.outs

end

theorem follows_recovery (env : Env) {may : Nat → Tx → World → Prop} {J : List (Nat × Tx) → Prop}
    (hJ : KeptBy may J) : Follows (recoveryMethod env may J) fun i _ => RecoveryFacts i where
  start i e w hfit _ := by
    have hfree : RecoveryFacts i (.free none) w := fun _ h => nomatch h
    cases e with
    | rehydrate => exact hfree
    | task t => cases t <;> first | exact hfree | exact hfit.elim
    | _ => exact hfit.elim
  rely i e s w w' h _ hr := recoveryFacts_of_base h hr
  ask i e s o w h hinv ha hl tx htx := by
    have halone := hl tx htx
    cases ha with
    | idle ho => rw [plain_noTx (plain_of_idle ho)] at htx; cases htx
    | refund id_ hreq => exact not_recovered hinv h (fun hc => not_refund_of_closed hc hreq) halone
    | reclaim id_ ht hg => exact not_recovered hinv h (fun hc => not_reclaim_of_closed hc hg) halone
    | swipe id_ hopen => exact not_recovered hinv h (fun hc => not_swipe_of_closed hc hopen) halone
    | lock => exact h.elim
    | submitLock => exact h.elim
    | claim => exact h.elim
    | _ => cases htx
  answer i e s o out r w h hinv ha hr hl := by
    have hother : ∀ (j : Nat) (e' : Entry), j ≠ i → ¬ False → (w.after i o r out).base j = w.base j :=
      fun j _ hj _ => if_neg hj
    suffices RecoveryInv J (w.after i o r out) ∧ RecoveryFacts i (s.next o r) (w.after i o r out) from
      ⟨this.1, hother, trivial, this.2⟩
    cases ha with
    | idle ho =>
      rw [next_idle s ho, after_idle ho]
      exact ⟨recoveryInv_of_same hinv rfl rfl rfl, recoveryFacts_of_base h rfl⟩
    | load id_ =>
      cases r with
      | error e =>
        exact ⟨recoveryInv_of_same hinv rfl (chain_of_noTx rfl) (unsaved_of_noTx rfl rfl),
          recoveryFacts_of_base h (if_pos rfl)⟩
      | ok rec =>
        refine ⟨recoveryInv_of_same hinv rfl (chain_of_noTx rfl) (unsaved_of_noTx rfl rfl), ?_⟩
        rintro rec' ⟨⟩
        exact if_pos rfl
    | @refund rec at_ req id_ hreq =>
      obtain ⟨hinv', htold⟩ := recoveryInv_after (r := r) hJ hinv h
        (fun hc => not_refund_of_closed hc hreq) rfl rfl hl
      refine ⟨hinv', ?_⟩
      show RecoveryFacts i (owesAfter (some rec) (some .refund) (txidIn r)) _
      cases ht : txidIn r with
      | none => exact recoveryFacts_of_base h ((record_of_tx rfl).2 i)
      | some t =>
        have htold := htold.resolve_left fun hn => by
          rw [show txidIn r = none from hn] at ht
          cases ht
        exact closed_setRefunded (htold.led rec rfl (h rec rfl))
    | @reclaim rec at_ id_ ht hg =>
      obtain ⟨hinv', _⟩ := recoveryInv_after (r := r) hJ hinv h
        (fun hc => not_reclaim_of_closed hc hg) rfl rfl hl
      refine ⟨hinv', ?_⟩
      show RecoveryFacts i (owesAfter (some rec) (some .reclaim) (txidIn r)) _
      cases ht : txidIn r with
      | none => exact recoveryFacts_of_base h ((record_of_tx rfl).2 i)
      | some t => exact closed_setReclaimed (ne_empty_of_txidIn ht)
    | swipe id_ hopen =>
      obtain ⟨hinv', _⟩ := recoveryInv_after (r := r) hJ hinv h
        (fun hc => not_swipe_of_closed hc hopen) rfl rfl hl
      exact ⟨hinv', recoveryFacts_of_base h ((record_of_tx rfl).2 i)⟩
    | register id_ =>
      have hp : Plain (.watchers (.register id_)) := trivial
      rw [after_plain hp]
      exact ⟨recoveryInv_of_same hinv rfl rfl rfl, recoveryFacts_of_base h rfl⟩
    | unregister id_ =>
      have hp : Plain (.watchers (.clear id_)) := trivial
      rw [after_plain hp]
      exact ⟨recoveryInv_of_same hinv rfl rfl rfl, recoveryFacts_of_base h rfl⟩
    | flag b =>
      have hp : Plain (.flag (.new b)) := trivial
      rw [after_plain hp]
      exact ⟨recoveryInv_of_same hinv rfl rfl rfl, recoveryFacts_of_base h rfl⟩
    | record =>
      obtain ⟨rec', hsaved⟩ := Option.isSome_iff_exists.1 (hl.1 rfl)
      cases r with
      | error e => cases hsaved
      | ok _ =>
        refine ⟨⟨fun _ _ => ?_, by rw [chain_of_noTx rfl]; exact hinv.outs⟩, ?_⟩
        · rintro rec'' ⟨⟩
          exact h
        · rintro rec'' ⟨⟩
          exact if_pos rfl
    | _ => exact h.elim

/-! ## The two results -/

section
variable {env : Env} {w₀ : World} {c : Cfg Op Op.Ans World Entry}

/-- No recovery is out. -/
def Unrecovered (w : World) : Prop := ∀ x ∈ w.chain, x.2.recovers = false

def Unrefunded (w : World) : Prop := ∀ x ∈ w.chain, x.2 ≠ .refund

theorem not_recovered_start (h₀ : Unrecovered w₀) : ¬ Recovered w₀ := by
  rintro ⟨x, hx, hr, _⟩
  rw [h₀ x hx] at hr
  cases hr

/-- As long as the recovery tasks do not overlap and no swipe takes effect, none asks for a recovery once
one is out. -/
theorem recover_once (h₀ : Unrecovered w₀)
    (hr : Reach (desk env) (recoveryLaw fun _ tx _ => tx ≠ .swipe) ⟨w₀, []⟩ c) {i : Nat} {e : Entry}
    {o : Op} {k : o.Ans → DeskM Unit Unit} {tx : Tx}
    (ht : c.tasks[i]? = some ⟨e, .call o k, false⟩) (htx : txOf o = some tx) (halone : Alone i c.world) :
    Unrecovered c.world := by
  have hJ : KeptBy (fun _ tx _ => tx ≠ .swipe) fun ch => ∀ x ∈ ch, x.2 ≠ .swipe := by
    intro i tx w hne _ hch x hx
    rcases List.mem_cons.1 hx with rfl | hx
    · exact hne
    · exact hch x hx
  have hstart : RecoveryInv (fun ch => ∀ x ∈ ch, x.2 ≠ .swipe) w₀ :=
    ⟨fun h => absurd h (not_recovered_start h₀), fun x hx hs => by
      have := h₀ x hx
      rw [hs] at this
      cases this⟩
  have hholds := holds_of_follows (follows_recovery env hJ) hstart hr
  have hno : ¬ Recovered c.world :=
    Method.must_of_ask hholds ht (fun _ _ => halone) tx htx
  intro x hx
  cases hrec : x.2.recovers with
  | false => rfl
  | true => exact absurd ⟨x, hx, hrec, hholds.inv.outs x hx⟩ hno

/-- What takes effect does so alone, and before any swipe. -/
def BeforeSwipe (i : Nat) (_ : Tx) (w : World) : Prop := Alone i w ∧ ∀ x ∈ w.chain, x.2 ≠ .swipe

end

/-! ## Runs -/

/-- The recovery tasks with saves that succeed. -/
def savesSucceed : Law Op Op.Ans World Entry where
  enter e _ _ := e.Recovers
  ask _ _ _ _ := True
  answer _ _ o r _ _ := isSave o = true → (savedBy o r).isSome = true

/-- A led swap with our lock in the record, after its T2. -/
def ledWorld : World := .ofRecord
  { (default : StoredSwap) with
    deskRole := "FOLLOWER"
    state := "A_LOCKED"
    refundPresigREnc := some "r"
    refundPresigSp := some "s"
    lockATxid := some "a"
    keyProvenance := "vendored"
    t2EngineUnix := some 0 }

theorem unrecovered_ledWorld : Unrecovered ledWorld := by
  intro x hx
  exact absurd (show x ∈ [] from hx) List.not_mem_nil

/-- An engine that answers a refund so, and swipes. -/
def recoveryAnswers (refund : Except CryptoError (Option String)) : Out where
  ans
    | .crypto (.refund _) => refund
    | .crypto (.swipe _) => .ok (some "w")
    | o => o.easyAns
  published := false
  settled := false

def refused : Except CryptoError (Option String) := .error (.broadcast "txn-mempool-conflict")

/-- A swipe watch whose refund is refused, up to its swipe. -/
def refusedRefund : List (Move Out Entry) :=
  .start (.task (.swipeWatch "" 0)) :: turns 0 (List.replicate 7 (recoveryAnswers refused))

/-- A refund watch, up to its refund. -/
def refundDue : List (Move Out Entry) :=
  .start (.task (.refundWatcher "" 0 0)) :: turns 0 (List.replicate 3 (recoveryAnswers refused))

set_option maxRecDepth 4000 in
theorem recover_once_due :
    Unrecovered ((desk ⟨true, none, 1⟩).play ⟨ledWorld, []⟩ refundDue).world := by
  have hlaw : (recoveryLaw fun _ tx _ => tx ≠ .swipe).PermitsAll (desk ⟨true, none, 1⟩) ⟨ledWorld, []⟩
      refundDue := by
    refine ⟨trivial, ?_⟩
    show (recoveryLaw _).PermitsAll _ _ (turns 0 _)
    repeat' first | exact trivial | (rintro _ ⟨⟩) | (rintro ⟨⟩) | refine ⟨?_, ?_⟩
  exact recover_once unrecovered_ledWorld (reach_play hlaw) (i := 0) rfl rfl ⟨rfl, rfl⟩

/-- The swipe goes out, and a refund watch comes to its refund. -/
def swipeThenRefund : List (Move Out Entry) :=
  refusedRefund ++ turns 0 [recoveryAnswers refused] ++
    .start (.task (.refundWatcher "" 0 0)) :: turns 1 (List.replicate 3 (recoveryAnswers refused))

set_option maxRecDepth 4000 in
theorem not_always_recovered_once : ¬ ∀ (env : Env) (w₀ : World) (c : Cfg Op Op.Ans World Entry) (i : Nat)
    (e : Entry) (o : Op) (k : o.Ans → DeskM Unit Unit) (tx : Tx),
    Unrecovered w₀ → Reach (desk env) savesSucceed ⟨w₀, []⟩ c →
    c.tasks[i]? = some ⟨e, .call o k, false⟩ → txOf o = some tx →
    Unrecovered c.world := by
  intro hall
  have hlaw : savesSucceed.PermitsAll (desk ⟨true, none, 1⟩) ⟨ledWorld, []⟩ swipeThenRefund := by
    refine ⟨trivial, ?_⟩
    repeat' first | exact trivial | (rintro ⟨⟩) | refine ⟨?_, ?_⟩
  have h := hall _ _ _ 1 _ _ _ _ unrecovered_ledWorld (reach_play hlaw) rfl rfl
    (0, .swipe) (.head _)
  exact absurd h nofun

/-- Both watches ask for the refund; the second is refused while the first is not saved, and swipes. -/
def swipeAfterRefund : List (Move Out Entry) :=
  refundDue ++ .ask 0 :: .start (.task (.swipeWatch "" 0)) ::
    turns 1 (List.replicate 4 (recoveryAnswers refused)) ++
    .ask 1 :: .answer 0 (recoveryAnswers (.ok (some "x"))) :: .answer 1 (recoveryAnswers refused) ::
    turns 1 (List.replicate 2 (recoveryAnswers refused))

end Desk
