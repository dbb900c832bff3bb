import PwndaWallet.Desk.LockSound

/-!
# Standing down over a locked leg

A choreography that ends asks the record whether anything of ours is locked, and the record can be behind
the chain (`not_always_stands`). It stands down only when the swap is over as long as the record says no
less than the chain: locks are answered and saved, and nobody else overwrites them (`stands_down_over`).
-/

namespace Desk

open Tasks

def Published (w : World) : Prop := ∃ x ∈ w.chain, x.2 = .lock

/-- The swap has settled, or a recovery is out. -/
def Over (w : World) : Prop := w.settled = true ∨ ∃ x ∈ w.chain, x.2.recovers = true

/-- The record in the file calls for the net to be stood down only when the swap is over. -/
def Honest (role : ClientRole) (w : World) : Prop :=
  ∀ rec, w.slot = some rec → standsDown role rec = true → Over w

/-- What a drive is answered. -/
structure Answered (role : ClientRole) (i : Nat) (o : Op) (r : o.Ans) (w w' : World) : Prop where
  /-- a lock that takes effect is answered with its txid -/
  lock : txOf o = some .lock → w'.chain ≠ w.chain → (txidBy o r).isSome = true
  /-- over a lock that the record does not show, the save succeeds -/
  save : isSave o = true → Published w → ¬ Honest role w → (savedBy o r).isSome = true
  /-- the desk's SETTLED for our claim is true -/
  settled : ∀ st txid, repliedBy o r = some st → w.named i .claim = some txid →
    settledBy txid st = true → Over w'
  /-- our claim of chain B settles the swap -/
  claim : txOf o = some .claim → role = .leader → (txidBy o r).isSome = true → Over w'

/-- Drives one at a time, started over a lock only if the record shows it and answered as they should be,
and other tasks that do not unsay the lock. -/
def standLaw (role : ClientRole) : Law Op Op.Ans World Entry where
  enter e w ts := e.Drives → (Published w → Honest role w) ∧ ∀ t ∈ ts, t.Live → ¬ t.entry.Drives
  ask _ _ _ _ := True
  answer i e o r w w' := (e.Drives → Answered role i o r w w') ∧
    (¬ e.Drives → Published w → Honest role w → Honest role w')

/-! ## Records -/

def OfRole (role : ClientRole) (rec : StoredSwap) : Prop :=
  ClientRole.fromDeskRole rec.deskRole = .ok role

section
variable {role : ClientRole} {rec : StoredSwap}

theorem standsDown_lockedRecord {txid : String} (ht : txid ≠ "") :
    standsDown role (lockedRecord role rec txid) = false := by
  have he : Rust.isEmpty txid = false := by simp [Rust.isEmpty, ht]
  cases role <;> simp only [standsDown, lockedRecord, StoredSwap.setLockB, StoredSwap.setLockA,
    StoredSwap.setState, he] <;> rfl

/-- A state that is not terminal calls for nothing that the record did not call for. -/
theorem standsDown_setState {st : String} (hs : (DeskSwapState.parse st).isTerminal = false)
    (h : standsDown role (rec.setState st) = true) : standsDown role rec = true := by
  rw [isTerminal_eq, Bool.or_eq_false_iff] at hs
  unfold standsDown at *
  simp only [StoredSwap.setState, hs.1, hs.2, Bool.or_false] at h
  cases role <;> simp only at h ⊢ <;> simp [h]

theorem standsDown_presig {ours : AdaptorPresig} {p : Option AdaptorPresig} :
    standsDown role ((rec.setRefundPresig ours).setClaimPresig p) = standsDown role rec := by
  cases p <;> cases role <;> rfl

theorem standsDown_setLockB {txid : String} :
    standsDown .leader (rec.setLockB txid) = standsDown .leader rec := rfl

theorem ofRole_lockedRecord {txid : String} (h : OfRole role rec) :
    OfRole role (lockedRecord role rec txid) := by
  cases role <;> exact h

theorem ofRole_presig {ours : AdaptorPresig} {p : Option AdaptorPresig} (h : OfRole role rec) :
    OfRole role ((rec.setRefundPresig ours).setClaimPresig p) := by
  cases p <;> exact h

end

/-! ## What every move keeps -/

section
variable {role : ClientRole} {w : World} {i : Nat} {o : Op} {r : o.Ans} {out : Out}

theorem over_after (h : Over w) : Over (w.after i o r out) := by
  rcases h with h | ⟨x, hx, hr⟩
  · left
    show (w.settled || out.settled) = true
    rw [h, Bool.true_or]
  · exact .inr ⟨x, List.mem_append_right _ hx, hr⟩

theorem published_after (h : Published w) : Published (w.after i o r out) := by
  obtain ⟨x, hx, hl⟩ := h
  exact ⟨x, List.mem_append_right _ hx, hl⟩

theorem published_of_noLock (hno : txOf o ≠ some .lock) (h : Published (w.after i o r out)) :
    Published w := by
  obtain ⟨x, hx, hl⟩ := h
  rcases List.mem_append.1 hx with hx | hx
  · obtain ⟨tx, htx, rfl⟩ : ∃ tx, World.putBy o r out.published = some tx ∧ (i, tx) = x := by
      simpa using hx
    obtain rfl : tx = .lock := hl
    unfold World.putBy at htx
    split at htx
    · exact absurd htx hno
    · cases htx
  · exact ⟨x, hx, hl⟩

theorem honest_of_slot (h : Honest role w) (hs : (w.after i o r out).slot = w.slot) :
    Honest role (w.after i o r out) := by
  intro rec hrec hdown
  rw [hs] at hrec
  exact over_after (h rec hrec hdown)

/-- A flag is shared or not for as long as it is there. -/
theorem shared_setFlag {fs : List StopFlag} {f g : FlagRef} {b : Bool} {x : StopFlag}
    (h : fs[g]? = some x) : ∃ x', (World.setFlag fs f b)[g]? = some x' ∧ x'.shared = x.shared := by
  unfold World.setFlag
  rw [List.getElem?_modify, h]
  refine ⟨_, rfl, ?_⟩
  split <;> rfl

theorem shared_append {fs : List StopFlag} {g : FlagRef} {x y : StopFlag} (h : fs[g]? = some x) :
    ∃ x', (fs ++ [y])[g]? = some x' ∧ x'.shared = x.shared :=
  ⟨x, by rw [List.getElem?_append_left (List.getElem?_eq_some_iff.1 h).1]; exact h, rfl⟩

theorem shared_after {g : FlagRef} {x : StopFlag} (h : w.flags[g]? = some x) :
    ∃ x', (w.after i o r out).flags[g]? = some x' ∧ x'.shared = x.shared := by
  show ∃ x', (w.flagsAfter o)[g]? = some x' ∧ x'.shared = x.shared
  have hsame : ∃ x', w.flags[g]? = some x' ∧ x'.shared = x.shared := ⟨x, h, rfl⟩
  cases o with
  | watchers c => cases c with
    | register id_ =>
      unfold World.flagsAfter
      dsimp only
      split
      · exact hsame
      · exact shared_append h
    | raise id_ =>
      unfold World.flagsAfter
      dsimp only
      split
      · exact shared_setFlag h
      · exact hsame
    | clear id_ => exact hsame
  | flag c => cases c with
    | new b => exact shared_append h
    | load f => exact hsame
    | store f b => exact shared_setFlag h
    | swap f b => exact shared_setFlag h
  | _ => exact hsame

end

/-! ## The invariant -/

/-- What a drive in a phase knows of the world. -/
def PhaseFacts (role : ClientRole) (i : Nat) (phase : Phase) (copy : StoredSwap) (w : World) : Prop :=
  match phase with
  | .fresh => Published w → Honest role w ∧ (standsDown role copy = true → Over w)
  | .armed => Published w → Honest role w ∧ (standsDown role copy = true → Over w)
  | .sent => Published w ∧ standsDown role copy = false
  | .locked => Published w ∧ Honest role w ∧ standsDown role copy = false
  | .claimed txid => Published w ∧ Honest role w ∧ standsDown role copy = false ∧
      w.named i .claim = some txid
  | .settled => Over w
  | .failed => Published w → Honest role w

structure StandDrive (role : ClientRole) (i : Nat) (d : Drive) (w : World) : Prop where
  ours : d.role = role
  copy : OfRole role d.copy
  own : ∀ f, d.own = some f → ∃ x, w.flags[f]? = some x ∧ x.shared = false
  phase : PhaseFacts role i d.phase d.copy w

/-- What a task's hand says of the record and the chain. -/
def StandFacts (role : ClientRole) (i : Nat) (s : Hand) (w : World) : Prop :=
  match s with
  | .free last => ∀ rec, last = some rec → OfRole role rec
  | .owes rec => OfRole role rec
  | .mirrors _ rec => OfRole role rec
  | .starts => Published w → Honest role w
  | .drives d => StandDrive role i d w
  | .judges d rec => d.role = role ∧ (Published w → standsDown role rec = true → Over w)
  | _ => True

/-- It would stand the net down. -/
def StandsDown (o : Op) (w : World) : Prop :=
  (∃ f x, o = .flag (.store f true) ∧ w.flags[f]? = some x ∧ x.shared = true) ∨
    ∃ id_, o = .watchers (.clear id_)

/-- What everyone keeps for a task, and what the tasks beside a drive keep for it. -/
structure StandRely (role : ClientRole) (i : Nat) (e : Entry) (w w' : World) : Prop where
  wasOver : Over w → Over w'
  flags : ∀ (f : FlagRef) (x : StopFlag), w.flags[f]? = some x →
    ∃ x', w'.flags[f]? = some x' ∧ x'.shared = x.shared
  named : w'.named i .claim = w.named i .claim
  published : Published w → Published w'
  drive : e.Drives → (Published w' → Published w) ∧ (Published w → Honest role w → Honest role w')

def standMethod (env : Env) (role : ClientRole) : Method (desk env) (standLaw role) where
  inv w := ∀ rec, w.slot = some rec → OfRole role rec
  rely := StandRely role
  must _ e o w := e.Drives → StandsDown o w → Published w → Over w
  guar _ _ _ _ _ _ := True
  fit _ e w := e.Drives → Published w → Honest role w
  apart e e' := e.Drives ∧ e'.Drives
  rely_refl _ _ _ := ⟨id, fun _ x h => ⟨x, h, rfl⟩, rfl, id, fun _ => ⟨id, fun _ h => h⟩⟩
  rely_trans _ _ _ _ _ h h' := by
    refine ⟨fun ho => h'.wasOver (h.wasOver ho), fun f x hf => ?_, h'.named.trans h.named,
      fun hp => h'.published (h.published hp), fun he => ⟨fun hp => (h.drive he).1 ((h'.drive he).1 hp),
        fun hp hh => (h'.drive he).2 (h.published hp) ((h.drive he).2 hp hh)⟩⟩
    obtain ⟨x', hx', hs'⟩ := h.flags f x hf
    obtain ⟨x'', hx'', hs''⟩ := h'.flags f x' hx'
    exact ⟨x'', hx'', hs''.trans hs'⟩
  apart_symm := drive_symm
  restart _ h := h
  enter _ _ _ h := ⟨fun he => (h he).1, fun t ht hl hd => (h hd.1).2 t ht hl hd.2⟩

section
variable {role : ClientRole} {i : Nat} {e : Entry} {s : Hand} {d : Drive} {w w' : World}

theorem phaseFacts_rely {phase : Phase} {copy : StoredSwap} (h : PhaseFacts role i phase copy w)
    (he : e.Drives) (hr : StandRely role i e w w') : PhaseFacts role i phase copy w' := by
  obtain ⟨hback, hhonest⟩ := hr.drive he
  cases phase with
  | fresh =>
    intro hp
    obtain ⟨hh, hover⟩ := h (hback hp)
    exact ⟨hhonest (hback hp) hh, fun hd => hr.wasOver (hover hd)⟩
  | armed =>
    intro hp
    obtain ⟨hh, hover⟩ := h (hback hp)
    exact ⟨hhonest (hback hp) hh, fun hd => hr.wasOver (hover hd)⟩
  | sent => exact ⟨hr.published h.1, h.2⟩
  | locked => exact ⟨hr.published h.1, hhonest h.1 h.2.1, h.2.2⟩
  | claimed txid =>
    obtain ⟨hp, hh, hd, hn⟩ := h
    exact ⟨hr.published hp, hhonest hp hh, hd, hr.named.trans hn⟩
  | settled => exact hr.wasOver h
  | failed => exact fun hp => hhonest (hback hp) (h (hback hp))

theorem standFacts_rely (h : StandFacts role i s w) (he : s.Drives → e.Drives)
    (hr : StandRely role i e w w') : StandFacts role i s w' := by
  cases s with
  | starts =>
    obtain ⟨hback, hhonest⟩ := hr.drive (he trivial)
    exact fun hp => hhonest (hback hp) (h (hback hp))
  | drives d =>
    refine ⟨h.ours, h.copy, fun f hf => ?_, phaseFacts_rely h.phase (he trivial) hr⟩
    obtain ⟨x, hx, hs⟩ := h.own f hf
    obtain ⟨x', hx', hs'⟩ := hr.flags f x hx
    exact ⟨x', hx', hs'.trans hs⟩
  | judges d rec =>
    obtain ⟨hback, _⟩ := hr.drive (he trivial)
    exact ⟨h.1, fun hp hd => hr.wasOver (h.2 (hback hp) hd)⟩
  | _ => exact h

variable {o : Op} {r : o.Ans} {out : Out}

/-- A task's own step that writes no record and is neither a lock nor a claim. -/
theorem standRely_own (hs : (w.after i o r out).slot = w.slot) (hl : txOf o ≠ some .lock)
    (hc : txOf o ≠ some .claim) : StandRely role i e w (w.after i o r out) where
  wasOver := over_after
  flags _ _ h := shared_after h
  named := named_noTx hc
  published := published_after
  drive _ := ⟨published_of_noLock hl, fun _ h => honest_of_slot h hs⟩

/-- What a step of a task gives the others. -/
theorem standRely_other {j : Nat} {e' : Entry} (hj : j ≠ i) (hl : e'.Drives → txOf o ≠ some .lock)
    (hh : e'.Drives → Published w → Honest role w → Honest role (w.after i o r out)) :
    StandRely role j e' w (w.after i o r out) where
  wasOver := over_after
  flags _ _ h := shared_after h
  named := named_other hj _
  published := published_after
  drive he' := ⟨published_of_noLock (hl he'), hh he'⟩

/-- A record that a drive saves is of its role, and what the drive knows goes on. -/
theorem standDrive_saved {rec : StoredSwap} (h : StandDrive role i d w) (hm : d.MaySave rec)
    (hslot : (w.after i (.store (.save rec)) (.ok ()) out).slot = some rec) :
    OfRole role rec ∧ StandDrive role i { d with copy := rec, phase := d.phase.saved }
      (w.after i (.store (.save rec)) (.ok ()) out) := by
  have hown : ∀ f, d.own = some f → ∃ x,
      (w.after i (.store (.save rec)) (.ok ()) out).flags[f]? = some x ∧ x.shared = false := by
    intro f hf
    obtain ⟨x, hx, hs⟩ := h.own f hf
    have hf' : ∃ x', (w.after i (.store (.save rec)) (.ok ()) out).flags[f]? = some x' ∧
        x'.shared = x.shared := shared_after hx
    obtain ⟨x', hx', hs'⟩ := hf'
    exact ⟨x', hx', hs'.trans hs⟩
  -- the file is honest if the saved record is
  have hhonest (hd : standsDown role rec = true → Over w) :
      Honest role (w.after i (.store (.save rec)) (.ok ()) out) := by
    intro rec' hrec' hdown
    rw [hslot] at hrec'
    cases hrec'
    exact over_after (hd hdown)
  have hlocked (hd : standsDown role rec = false) :
      Honest role (w.after i (.store (.save rec)) (.ok ()) out) :=
    hhonest fun h => Bool.noConfusion (hd.symm.trans h)
  have hback : Published (w.after i (.store (.save rec)) (.ok ()) out) → Published w :=
    published_of_noLock (o := .store (.save rec)) nofun
  have hrole := h.ours
  have hcopy := h.copy
  have hphase := h.phase
  obtain ⟨role', copy, phase, stop, own⟩ := d
  obtain rfl : role' = role := hrole
  cases phase with
  | fresh =>
    obtain ⟨ours, p, rfl⟩ := hm
    refine ⟨ofRole_presig hcopy, rfl, ofRole_presig hcopy, hown, fun hp => ?_⟩
    obtain ⟨_, hover⟩ := hphase (hback hp)
    have hover' : standsDown role' ((copy.setRefundPresig ours).setClaimPresig p) = true → Over w := by
      rw [standsDown_presig]
      exact hover
    exact ⟨hhonest hover', fun hd => over_after (hover' hd)⟩
  | armed =>
    obtain rfl : rec = _ := hm
    refine ⟨hcopy, rfl, hcopy, hown, fun hp => ?_⟩
    obtain ⟨_, hover⟩ := hphase (hback hp)
    have hover' : standsDown role' (copy.setState "STOPPED_BEFORE_LOCK_B") = true → Over w :=
      fun hd => hover (standsDown_setState rfl hd)
    exact ⟨hhonest hover', fun hd => over_after (hover' hd)⟩
  | sent =>
    obtain rfl : rec = _ := hm
    obtain ⟨hp, hd⟩ := hphase
    exact ⟨hcopy, rfl, hcopy, hown, published_after hp, hlocked hd, hd⟩
  | locked =>
    obtain ⟨hlead, txid, _, rfl⟩ := hm
    obtain rfl : role' = .leader := hlead
    obtain ⟨hp, _, hd⟩ := hphase
    exact ⟨hcopy, rfl, hcopy, hown, published_after hp, hlocked hd, hd⟩
  | claimed t =>
    obtain rfl : rec = _ := hm
    obtain ⟨hp, _, hd, hn⟩ := hphase
    have hd' : standsDown role' (copy.setState "A_CLAIMED") = false := by
      refine Bool.eq_false_iff.2 fun h => ?_
      rw [standsDown_setState rfl h] at hd
      cases hd
    have hno : txOf (.store (.save (copy.setState "A_CLAIMED"))) ≠ some .claim := nofun
    exact ⟨hcopy, rfl, hcopy, hown, published_after hp, hlocked hd', hd', (named_noTx hno).trans hn⟩
  | settled =>
    obtain rfl : rec = _ := hm
    exact ⟨hcopy, rfl, hcopy, hown, over_after hphase⟩
  | failed => exact hm.elim

/-- A lock is answered. -/
theorem standDrive_lock {o : Op} {r : o.Ans} {res : Except CryptoError (Option String)}
    (htx : txOf o = some .lock) (hres : txidBy o r = txidIn res) (hp : d.phase = .armed)
    (h : StandDrive role i d w) (hl : Answered role i o r w (w.after i o r out))
    (hs : (w.after i o r out).slot = w.slot) :
    StandDrive role i (d.afterLock (txidIn res)) (w.after i o r out) := by
  have hown : ∀ f, d.own = some f → ∃ x, (w.after i o r out).flags[f]? = some x ∧ x.shared = false := by
    intro f hf
    obtain ⟨x, hx, hsh⟩ := h.own f hf
    have hf' : ∃ x', (w.after i o r out).flags[f]? = some x' ∧ x'.shared = x.shared := shared_after hx
    obtain ⟨x', hx', hs'⟩ := hf'
    exact ⟨x', hx', hs'.trans hsh⟩
  have hrole := h.ours
  have hcopy := h.copy
  have hphase := h.phase
  obtain ⟨role', copy, phase, stop, own⟩ := d
  obtain rfl : role' = role := hrole
  obtain rfl : phase = .armed := hp
  cases ht : txidIn res with
  | some t =>
    have hne := ne_empty_of_txidIn ht
    refine ⟨rfl, ofRole_lockedRecord hcopy, hown, ⟨_, mem_chain_of_txid htx (hres.trans ht), rfl⟩,
      standsDown_lockedRecord hne⟩
  | none =>
    refine ⟨rfl, hcopy, hown, fun hp' => ?_⟩
    -- no txid, so nothing took effect
    have hchain : (w.after i o r out).chain = w.chain := by
      refine Classical.byContradiction fun hne => ?_
      have := hl.lock htx hne
      rw [hres, ht] at this
      cases this
    have hpub : Published w := by
      unfold Published at hp'
      rw [hchain] at hp'
      exact hp'
    exact honest_of_slot (hphase hpub).1 hs

/-- What a drive knows, but for a lock that it has not saved. -/
theorem honest_of_phase {phase : Phase} {copy : StoredSwap} (h : PhaseFacts role i phase copy w)
    (hne : phase ≠ .sent) (hp : Published w) : Over w ∨ Honest role w := by
  cases phase with
  | fresh => exact .inr (h hp).1
  | armed => exact .inr (h hp).1
  | sent => exact absurd rfl hne
  | locked => exact .inr h.2.1
  | claimed txid => exact .inr h.2.1
  | settled => exact .inl h
  | failed => exact .inr (h hp)

theorem standDrive_status {id_ : String} {st : StatusResponse} (h : StandDrive role i d w)
    (he : e.Drives) (hl : Answered role i (.client (.status id_)) (.ok st) w
      (w.after i (.client (.status id_)) (.ok st) out)) :
    StandDrive role i (d.afterStatus st) (w.after i (.client (.status id_)) (.ok st) out) := by
  have hrely : StandRely role i e w (w.after i (.client (.status id_)) (.ok st) out) :=
    standRely_own rfl nofun nofun
  have hself : StandDrive role i d (w.after i (.client (.status id_)) (.ok st) out) :=
    standFacts_rely (s := .drives d) h (fun _ => he) hrely
  have hphase := h.phase
  obtain ⟨role', copy, phase, stop, own⟩ := d
  cases phase with
  | claimed txid =>
    by_cases hs : settledBy txid st = true
    · have hover := hl.settled st txid rfl hphase.2.2.2 hs
      simp only [Drive.afterStatus, if_pos hs]
      exact ⟨hself.ours, hself.copy, hself.own, hover⟩
    · simp only [Drive.afterStatus, if_neg hs]
      exact hself
  | _ => exact hself

theorem standDrive_claim {id_ : String} {r : CryptoCall.Ans (.claim id_)} (h : StandDrive role i d w)
    (hp : d.phase = .locked) (hl : Answered role i (.crypto (.claim id_)) r w
      (w.after i (.crypto (.claim id_)) r out)) :
    StandDrive role i (d.afterClaim (txidIn r)) (w.after i (.crypto (.claim id_)) r out) := by
  have hown : ∀ f, d.own = some f → ∃ x,
      (w.after i (.crypto (.claim id_)) r out).flags[f]? = some x ∧ x.shared = false := by
    intro f hf
    obtain ⟨x, hx, hs⟩ := h.own f hf
    exact ⟨x, hx, hs⟩
  have hrole := h.ours
  have hcopy := h.copy
  have hphase := h.phase
  obtain ⟨role', copy, phase, stop, own⟩ := d
  obtain rfl : role' = role := hrole
  obtain rfl : phase = .locked := hp
  obtain ⟨hpub, hh, hd⟩ := hphase
  have hhonest : Honest role' (w.after i (.crypto (.claim id_)) r out) := honest_of_slot hh rfl
  cases ht : txidIn r with
  | none => exact ⟨rfl, hcopy, hown, published_after hpub, hhonest, hd⟩
  | some t =>
    have htxid : txidBy (.crypto (.claim id_)) r = some t := ht
    cases role' with
    | leader => exact ⟨rfl, hcopy, hown, hl.claim rfl rfl (by rw [htxid]; rfl)⟩
    | follower =>
      have hnamed : (w.after i (.crypto (.claim id_)) r out).named i .claim = some t :=
        (if_pos ⟨rfl, rfl⟩).trans htxid
      exact ⟨rfl, hcopy, hown, published_after hpub, hhonest, hd, hnamed⟩

/-- A save that fails. -/
theorem standDrive_unsaved {rec : StoredSwap} {x : StoreError} (h : StandDrive role i d w)
    (he : e.Drives) (hl : Answered role i (.store (.save rec)) (.error x) w
      (w.after i (.store (.save rec)) (.error x) out)) :
    StandDrive role i { d with phase := d.phase.unsaved } (w.after i (.store (.save rec)) (.error x) out) := by
  have hrely : StandRely role i e w (w.after i (.store (.save rec)) (.error x) out) :=
    standRely_own rfl nofun nofun
  have hself : StandDrive role i d (w.after i (.store (.save rec)) (.error x) out) :=
    standFacts_rely (s := .drives d) h (fun _ => he) hrely
  have hphase := h.phase
  obtain ⟨role', copy, phase, stop, own⟩ := d
  cases phase with
  | sent =>
    -- a save over a record that does not show the lock would have succeeded
    have hh : Honest role w := by
      refine Classical.byContradiction fun hn => ?_
      have := hl.save rfl hphase.1 hn
      cases this
    exact ⟨hself.ours, hself.copy, hself.own, fun _ => honest_of_slot hh rfl⟩
  | _ => exact hself

/-- A record is read for the decision. -/
theorem judges_read {rec : StoredSwap} {o : Op} {r : o.Ans} (h : StandDrive role i d w)
    (hne : d.phase ≠ .sent) (hslot : w.slot = some rec) (hno : txOf o ≠ some .lock) :
    StandFacts role i (.judges d rec) (w.after i o r out) := by
  refine ⟨h.ours, fun hp hd => ?_⟩
  rcases honest_of_phase h.phase hne (published_of_noLock hno hp) with hover | hh
  · exact over_after hover
  · exact over_after (hh rec hslot hd)

end

/-! ## The tasks -/

section
variable {role : ClientRole} {i : Nat} {e : Entry} {s : Hand} {w : World} {o : Op} {out : Out}

theorem noLock_of_not_drives (ha : Acts s o) (hs : ¬ s.Drives) : txOf o ≠ some .lock := by
  intro htx
  cases ha with
  | idle ho => rw [plain_noTx (plain_of_idle ho)] at htx; cases htx
  | lock id_ hr hp => exact hs trivial
  | submitLock id_ hr hp => exact hs trivial
  | _ => cases htx

/-- What is in the file is of the role, whoever moved. -/
theorem ofRole_after {r : o.Ans} (hinv : ∀ rec, w.slot = some rec → OfRole role rec)
    (hsaved : ∀ rec, savedBy o r = some rec → OfRole role rec) :
    ∀ rec, (w.after i o r out).slot = some rec → OfRole role rec := by
  intro rec hrec
  change (savedBy o r).or (if removedBy o r then none else w.slot) = some rec at hrec
  cases hs : savedBy o r with
  | some rec' =>
    rw [hs] at hrec
    cases hrec
    exact hsaved _ hs
  | none =>
    rw [hs, Option.none_or] at hrec
    split at hrec
    · cases hrec
    · exact hinv _ hrec

/-- What one answer preserves of what a task's hand says. -/
theorem standFacts_next {r : o.Ans} (h : StandFacts role i s w)
    (hinv : ∀ rec, w.slot = some rec → OfRole role rec) (ha : Acts s o) (he : s.Drives → e.Drives)
    (hr : r = w.reply o (out.ans o)) (hl : s.Drives → Answered role i o r w (w.after i o r out)) :
    (∀ rec, savedBy o r = some rec → OfRole role rec) ∧
      StandFacts role i (s.next o r) (w.after i o r out) := by
  -- an own step that leaves the hand as it was
  have hsame (hs : (w.after i o r out).slot = w.slot) (hlock : txOf o ≠ some .lock)
      (hclaim : txOf o ≠ some .claim) : StandFacts role i s (w.after i o r out) :=
    standFacts_rely h he (standRely_own hs hlock hclaim)
  have hnone (hs : savedBy o r = none) : ∀ rec, savedBy o r = some rec → OfRole role rec := by
    intro rec hrec
    rw [hs] at hrec
    cases hrec
  cases ha with
  | idle ho =>
    have htx : txOf o = none := plain_noTx (plain_of_idle ho)
    rw [next_idle s ho]
    refine ⟨hnone (plain_noSave (plain_of_idle ho)), hsame ?_ ?_ ?_⟩
    · rw [after_idle ho]
    · rw [htx]; intro hx; cases hx
    · rw [htx]; intro hx; cases hx
  | load id_ =>
    refine ⟨hnone rfl, ?_⟩
    cases r with
    | error x => exact h
    | ok rec =>
      intro rec' hrec'
      cases hrec'
      exact hinv _ (slot_of_read hr.symm)
  | @refund rec at_ req id_ hreq =>
    refine ⟨hnone rfl, ?_⟩
    show StandFacts role i (owesAfter (some rec) (some .refund) (txidIn r)) _
    cases txidIn r with
    | none => exact h
    | some t => exact h rec rfl
  | @reclaim rec at_ id_ ht hg =>
    refine ⟨hnone rfl, ?_⟩
    show StandFacts role i (owesAfter (some rec) (some .reclaim) (txidIn r)) _
    cases txidIn r with
    | none => exact h
    | some t => exact h rec rfl
  | @swipe rec now id_ hopen =>
    refine ⟨hnone rfl, ?_⟩
    show StandFacts role i (owesAfter (some rec) (some .swipe) (txidIn r)) _
    cases txidIn r with
    | none => exact h
    | some t => exact h
  | register id_ => exact ⟨hnone rfl, h⟩
  | unregister id_ => exact ⟨hnone rfl, h⟩
  | flag b => exact ⟨hnone rfl, h⟩
  | @record rec =>
    cases r with
    | error x => exact ⟨hnone rfl, fun _ hrec => by cases hrec⟩
    | ok _ =>
      have hrec : ∀ rec', some rec = some rec' → OfRole role rec' := by
        rintro _ ⟨⟩
        exact h
      exact ⟨hrec, hrec⟩
  | poll id_ =>
    refine ⟨hnone rfl, ?_⟩
    cases r <;> exact trivial
  | raise id_ ht => exact ⟨hnone rfl, trivial⟩
  | remove id_ ht => exact ⟨hnone rfl, trivial⟩
  | read id_ =>
    refine ⟨hnone rfl, ?_⟩
    cases r with
    | error x => exact trivial
    | ok rec => exact hinv _ (slot_of_read hr.symm)
  | mirror =>
    refine ⟨fun rec hrec => ?_, trivial⟩
    cases r with
    | error x => cases hrec
    | ok _ => cases hrec; exact h
  | begin id_ =>
    refine ⟨hnone rfl, ?_⟩
    cases r with
    | error x => exact hsame rfl (by rintro ⟨⟩) (by rintro ⟨⟩)
    | ok rec =>
      have hslot : w.slot = some rec := slot_of_read hr.symm
      have hrole : ClientRole.fromDeskRole rec.deskRole = .ok role := hinv _ hslot
      have hback : Published (w.after i (.store (.load id_)) (.ok rec) out) → Published w :=
        published_of_noLock (o := .store (.load id_)) (by rintro ⟨⟩)
      simp only [Hand.next, loadedBy, hrole]
      refine ⟨rfl, hrole, (fun _ hf => by cases hf), fun hp => ?_⟩
      have hh : Honest role w := h (hback hp)
      exact ⟨honest_of_slot hh rfl, fun hd => over_after (hh rec hslot hd)⟩
  | status id_ =>
    refine ⟨hnone rfl, ?_⟩
    cases r with
    | error x => exact hsame rfl (by rintro ⟨⟩) (by rintro ⟨⟩)
    | ok st => exact standDrive_status h (he trivial) (hl trivial)
  | lock id_ hrole hp =>
    exact ⟨hnone rfl, standDrive_lock rfl rfl hp h (hl trivial) rfl⟩
  | submitLock id_ hrole hp =>
    exact ⟨hnone rfl, standDrive_lock rfl rfl hp h (hl trivial) rfl⟩
  | claim id_ hp => exact ⟨hnone rfl, standDrive_claim h hp (hl trivial)⟩
  | @persist d rec hm =>
    cases r with
    | error x => exact ⟨hnone rfl, standDrive_unsaved h (he trivial) (hl trivial)⟩
    | ok _ =>
      have hslot : (w.after i (.store (.save rec)) (.ok ()) out).slot = some rec := rfl
      refine ⟨?_, (standDrive_saved h hm hslot).2⟩
      rintro _ ⟨⟩
      exact (standDrive_saved h hm hslot).1
  | judge id_ hp =>
    refine ⟨hnone rfl, ?_⟩
    cases r with
    | error x => exact hsame rfl (by rintro ⟨⟩) (by rintro ⟨⟩)
    | ok rec => exact judges_read (o := .store (.load id_)) h hp (slot_of_read hr.symm) (by rintro ⟨⟩)
  | join id_ =>
    have hself : StandDrive role i _ _ := hsame rfl (by rintro ⟨⟩) (by rintro ⟨⟩)
    exact ⟨hnone rfl, hself.ours, hself.copy, hself.own, hself.phase⟩
  | own b =>
    have hself : StandDrive role i _ _ := hsame rfl (by rintro ⟨⟩) (by rintro ⟨⟩)
    refine ⟨hnone rfl, hself.ours, hself.copy, fun f hf => ?_, hself.phase⟩
    cases hf
    refine ⟨⟨b, false⟩, ?_, rfl⟩
    show (w.flags ++ [⟨b, false⟩])[r]? = _
    rw [hr]
    exact List.getElem?_concat_length
  | ownStore b ho => exact ⟨hnone rfl, hsame rfl (by rintro ⟨⟩) (by rintro ⟨⟩)⟩
  | ownSwap b ho => exact ⟨hnone rfl, hsame rfl (by rintro ⟨⟩) (by rintro ⟨⟩)⟩
  | standDown hs hd => exact ⟨hnone rfl, hsame rfl (by rintro ⟨⟩) (by rintro ⟨⟩)⟩
  | leave id_ hd => exact ⟨hnone rfl, hsame rfl (by rintro ⟨⟩) (by rintro ⟨⟩)⟩

end

theorem follows_stand (env : Env) (role : ClientRole) :
    Follows (standMethod env role) fun i e s w => (s.Drives ↔ e.Drives) ∧ StandFacts role i s w where
  start i e w hfit _ := by
    refine ⟨drives_hand, ?_⟩
    cases e with
    | task t =>
      cases t with
      | choreography id_ => exact hfit trivial
      | _ => exact fun _ h => by cases h
    | deskStatus id_ => exact trivial
    | _ => exact fun _ h => by cases h
  rely i e s w w' h _ hr := ⟨h.1, standFacts_rely h.2 h.1.1 hr⟩
  ask i e s o w h _ ha _ he hdown hp := by
    have hs : s.Drives := h.1.2 he
    have hfacts := h.2
    rcases hdown with ⟨f, x, rfl, hx, hshared⟩ | ⟨id_, rfl⟩
    · cases ha with
      | idle ho => exact ho.elim
      | ownStore b ho =>
        obtain ⟨x', hx', hs'⟩ := hfacts.own f ho
        rw [hx] at hx'
        cases hx'
        rw [hshared] at hs'
        cases hs'
      | standDown hstop hd => exact hfacts.2 hp (hfacts.1 ▸ hd)
    · cases ha with
      | idle ho => exact ho.elim
      | unregister id_ => exact hs.elim
      | leave id_ hd => exact hfacts.2 hp (hfacts.1 ▸ hd)
  answer i e s o out r w h hinv ha hr hl := by
    obtain ⟨hsaved, hnext⟩ :=
      standFacts_next (e := e) h.2 hinv ha h.1.1 hr fun hs => hl.1 (h.1.1 hs)
    refine ⟨ofRole_after hinv hsaved, fun j e' hj hap => ?_, trivial, (drives_next ha r).trans h.1, hnext⟩
    have hother : e'.Drives → ¬ e.Drives := fun he' he => hap ⟨he, he'⟩
    exact standRely_other hj (fun he' => noLock_of_not_drives ha fun hs => hother he' (h.1.1 hs))
      fun he' => hl.2 (hother he')

/-- In every run under `standLaw`, a drive that stands the recovery net down over a published lock does
so when the swap has settled or is recovered. -/
theorem stand_down_over (env : Env) (role : ClientRole) {w₀ : World}
    (h₀ : ∀ rec, w₀.slot = some rec → OfRole role rec) {c : Cfg Op Op.Ans World Entry}
    (hr : Reach (desk env) (standLaw role) ⟨w₀, []⟩ c) {i : Nat} {e : Entry} {o : Op}
    {k : o.Ans → DeskM Unit Unit} (ht : c.tasks[i]? = some ⟨e, .call o k, false⟩) (he : e.Drives)
    (ho : StandsDown o c.world) (hp : Published c.world) : Over c.world :=
  Method.must_of_ask (holds_of_follows (follows_stand env role) h₀ hr) ht trivial he ho hp

/-- What is neither a save nor puts anything on a chain is answered as it should be, if it does not say
that the swap has settled. -/
theorem answered_of_quiet {role : ClientRole} {i : Nat} {o : Op} {r : o.Ans} {w w' : World}
    (htx : txOf o = none) (hs : isSave o = false)
    (hst : ∀ st, repliedBy o r = some st → (DeskSwapState.parse st.state).isSettled = false) :
    Answered role i o r w w' where
  lock h := by rw [htx] at h; cases h
  save h := by rw [hs] at h; cases h
  settled st txid h _ hset := by
    unfold settledBy at hset
    rw [hst st h] at hset
    cases hset
  claim h := by rw [htx] at h; cases h

/-- A lock that is out and refunded, and a record that shows neither. -/
def refundedWorld : World := { newWorld with chain := [(0, .refund), (0, .lock)] }

/-- An engine that prepares no lock. -/
def noPrepare : Out where
  ans
    | .crypto (.prepareLock _) => .error (.unavailable "")
    | o => o.easyAns
  published := false
  settled := false

/-- A drive, up to its decision to stand down. -/
def driveToStandDown : List (Move Out Entry) :=
  .start (.task (.choreography "")) :: turns 0 (List.replicate 12 noPrepare)

set_option maxRecDepth 8000 in
theorem stand_down_over_refunded :
    Over ((desk ⟨true, none, 1⟩).play ⟨refundedWorld, []⟩ driveToStandDown).world := by
  have hlaw : (standLaw .leader).PermitsAll (desk ⟨true, none, 1⟩) ⟨refundedWorld, []⟩
      driveToStandDown := by
    refine ⟨fun _ => ⟨fun _ rec _ _ => .inr ⟨(0, .refund), List.mem_cons_self, rfl⟩,
      fun t ht => absurd ht List.not_mem_nil⟩, ?_⟩
    show (standLaw .leader).PermitsAll _ _ (turns 0 _)
    repeat' first
      | exact trivial
      | exact fun h => False.elim h
      | exact fun h => absurd trivial h
      | (refine fun _ => answered_of_quiet rfl rfl ?_; rintro _ ⟨⟩; done)
      | (refine fun _ => answered_of_quiet rfl rfl ?_; rintro _ ⟨⟩; exact rfl)
      | refine ⟨?_, ?_⟩
  have hrole : ∀ rec, refundedWorld.slot = some rec → OfRole .leader rec := by
    rintro _ ⟨⟩
    rfl
  exact stand_down_over _ .leader hrole (reach_play hlaw) (i := 0) rfl trivial
    (.inl ⟨_, _, rfl, rfl, rfl⟩) ⟨(0, .lock), by decide, rfl⟩

/-- A purchase whose lock goes out while its answer is an error. -/
def lostLock : Out where
  ans
    | .crypto (.submitLock _) => .error (.unavailable "")
    | o => lockAnswers.ans o
  published := true
  settled := false

/-- A drive that loses its lock, up to the store that raises the shared flag. -/
def lostRun : Cfg Op Op.Ans World Entry :=
  (desk ⟨true, none, 1⟩).play ⟨newWorld, []⟩
    (.start (.task (.choreography "")) :: turns 0 (List.replicate 21 lostLock))

set_option maxRecDepth 8000 in
theorem lostRun_asks : ∃ k, lostRun.tasks[0]? =
    some ⟨.task (.choreography ""), .call (.flag (.store 0 true)) k, false⟩ := ⟨_, rfl⟩

set_option maxRecDepth 8000 in
theorem lostRun_world : lostRun.world.flags[0]? = some ⟨false, true⟩ ∧
    lostRun.world.chain = [(0, .lock)] ∧ lostRun.world.settled = false := ⟨rfl, rfl, rfl⟩

theorem not_always_stands : ¬ ∀ (env : Env) (role : ClientRole) (w₀ : World)
    (c : Cfg Op Op.Ans World Entry) (i : Nat) (e : Entry) (o : Op) (k : o.Ans → DeskM Unit Unit),
    (∀ rec, w₀.slot = some rec → OfRole role rec) → Reach (desk env) .free ⟨w₀, []⟩ c →
    c.tasks[i]? = some ⟨e, .call o k, false⟩ → e.Drives → StandsDown o c.world → Published c.world →
    Over c.world := by
  intro hall
  obtain ⟨k, hasks⟩ := lostRun_asks
  obtain ⟨hflag, hchain, hsettled⟩ := lostRun_world
  have hrole : ∀ rec, newWorld.slot = some rec → OfRole .leader rec := by
    rintro _ ⟨⟩
    rfl
  have hpub : Published lostRun.world := ⟨(0, .lock), by rw [hchain]; exact List.mem_cons_self, rfl⟩
  have h := hall _ .leader newWorld lostRun 0 _ _ k hrole (reach_play (permitsAll_free _ _ _)) hasks
    trivial (.inl ⟨_, _, rfl, hflag, rfl⟩) hpub
  rcases h with h | ⟨x, hx, hr⟩
  · rw [hsettled] at h
    cases h
  · rw [hchain] at hx
    obtain rfl := List.mem_singleton.1 hx
    cases hr

end Desk
