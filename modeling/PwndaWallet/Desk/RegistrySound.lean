import PwndaWallet.Desk.Leash

/-!
# Every live watcher stays stoppable

`DeskWatchers::clear` takes the entry away whoever still runs with its flag, so one task that ends leaves
the others out of reach (`not_always_stoppable`). A raise reaches every task of the swap as long as no
entry is cleared while another task has its flag and the flag is not raised (`raise_reaches`).
-/

namespace Desk

open Tasks

def Registry.ownerAt (w : Registry) (f : FlagRef) : Option String := w.flags[f]?.bind (·.owner)

/-- Flags stay, with their owner, and those of the registry stay raised. -/
def Registry.Keeps (w w' : Registry) : Prop :=
  ∀ (f : FlagRef) (x : OwnedFlag), w.flags[f]? = some x → ∃ x', w'.flags[f]? = some x' ∧
    x'.owner = x.owner ∧ (x.owner.isSome = true → x.raised = true → x'.raised = true)

section
variable {w w' w'' : Registry}

theorem keeps_of_same (h : w'.flags = w.flags) : w.Keeps w' := by
  intro f x hx
  exact ⟨x, by rw [h]; exact hx, rfl, fun _ hr => hr⟩

theorem Registry.Keeps.trans (h : w.Keeps w') (h' : w'.Keeps w'') : w.Keeps w'' := by
  intro f x hx
  obtain ⟨x', hx', ho, hr⟩ := h f x hx
  obtain ⟨x'', hx'', ho', hr'⟩ := h' f x' hx'
  refine ⟨x'', hx'', ho'.trans ho, fun hs hraised => hr' ?_ (hr hs hraised)⟩
  rw [ho]
  exact hs

theorem ownerAt_of_keeps (h : w.Keeps w') {f : FlagRef} {id_ : String} (ho : w.ownerAt f = some id_) :
    w'.ownerAt f = some id_ := by
  unfold Registry.ownerAt at *
  obtain ⟨x, hx, hox⟩ := Option.bind_eq_some_iff.1 ho
  obtain ⟨x', hx', hox', _⟩ := h f x hx
  rw [hx']
  exact hox'.trans hox

theorem raisedAt_of_keeps (h : w.Keeps w') {f : FlagRef} {id_ : String} (ho : w.ownerAt f = some id_)
    (hr : w.raisedAt f = true) : w'.raisedAt f = true := by
  unfold Registry.ownerAt at ho
  obtain ⟨x, hx, hox⟩ := Option.bind_eq_some_iff.1 ho
  obtain ⟨x', hx', _, hraised⟩ := h f x hx
  unfold Registry.raisedAt at *
  rw [hx] at hr
  rw [hx']
  exact hraised (by rw [hox]; rfl) hr

theorem getElem?_setFlag (fs : List OwnedFlag) (f g : FlagRef) (b : Bool) :
    (Registry.setFlag fs f b)[g]? = fs[g]?.map fun x => if f = g then { x with raised := b } else x := by
  unfold Registry.setFlag
  rw [List.getElem?_modify]
  cases fs[g]? with
  | none => rfl
  | some x => by_cases h : f = g <;> simp [h]

/-- Raising a flag keeps, and so does setting one that has no owner. -/
theorem keeps_setFlag {f : FlagRef} {b : Bool} (h : w'.flags = Registry.setFlag w.flags f b)
    (hb : b = true ∨ w.ownerAt f = none) : w.Keeps w' := by
  intro g x hx
  rw [h, getElem?_setFlag, hx]
  by_cases hg : f = g
  · subst hg
    refine ⟨_, rfl, by simp, fun hs _ => ?_⟩
    rcases hb with rfl | hb
    · simp
    · unfold Registry.ownerAt at hb
      rw [hx] at hb
      rw [show x.owner = none from hb] at hs
      cases hs
  · exact ⟨x, by simp [hg], rfl, fun _ hr => hr⟩

theorem keeps_append {x : OwnedFlag} (h : w'.flags = w.flags ++ [x]) : w.Keeps w' := by
  intro f y hy
  refine ⟨y, ?_, rfl, fun _ hr => hr⟩
  rw [h, List.getElem?_append_left (List.getElem?_eq_some_iff.1 hy).1]
  exact hy

end

/-! ## What one task does -/

/-- Nothing is registered or cleared for a task that has not started. -/
def Unleashed (i : Nat) (w : Registry) : Prop := w.held i = [] ∧ w.cleared i = false

def leashMethod (env : Env) : Method (watchers.sys env) (Law.free.unborn Unleashed) where
  inv _ := True
  rely i _ w w' := w'.held i = w.held i ∧ w'.cleared i = w.cleared i ∧ w.Keeps w'
  must i _ _ w := w.cleared i = false
  guar i _ o _ w w' := w.Keeps w' ∧ ∀ t p, o = .spawn t → t.stopFlag = some p → p ∈ w.held i
  fit i _ w := Unleashed i w
  apart _ _ := False
  rely_refl _ _ _ := ⟨rfl, rfl, keeps_of_same rfl⟩
  rely_trans _ _ _ _ _ h h' := ⟨h'.1.trans h.1, h'.2.1.trans h.2.1, h.2.2.trans h'.2.2⟩
  apart_symm _ _ h := h
  restart _ _ := trivial
  enter _ _ _ h := ⟨h.2, fun _ _ _ => id⟩

/-- What a task's leash says of the registry. -/
structure LeashFacts (i : Nat) (s : Leash) (w : Registry) : Prop where
  held : w.held i = s.held
  cleared : w.cleared i = s.done
  own : ∀ f ∈ s.own, ∃ x, w.flags[f]? = some x ∧ x.owner = none

section
variable {i : Nat} {s : Leash} {w : Registry} {o : Op} {out : Out}

theorem ownerAt_own (h : LeashFacts i s w) {f : FlagRef} (hf : f ∈ s.own) : w.ownerAt f = none := by
  obtain ⟨x, hx, ho⟩ := h.own f hf
  unfold Registry.ownerAt
  rw [hx]
  exact ho

/-- A step on the leash keeps the flags. -/
theorem keeps_after {r : o.Ans} (h : LeashFacts i s w) (ha : s.Allows o) : w.Keeps (w.after i o r) := by
  cases o with
  | watchers c => cases c with
    | register id_ =>
      by_cases hw : (w.watchers id_).isSome = true
      · refine keeps_of_same ?_
        show w.flagsAfter (.watchers (.register id_)) = w.flags
        simp [Registry.flagsAfter, hw]
      · refine keeps_append (x := ⟨false, some id_⟩) ?_
        show w.flagsAfter (.watchers (.register id_)) = _
        simp [Registry.flagsAfter, hw]
    | raise id_ =>
      cases hw : w.watchers id_ with
      | none =>
        refine keeps_of_same ?_
        show w.flagsAfter (.watchers (.raise id_)) = w.flags
        simp [Registry.flagsAfter, hw]
      | some f =>
        refine keeps_setFlag (f := f) (b := true) ?_ (.inl rfl)
        show w.flagsAfter (.watchers (.raise id_)) = _
        simp [Registry.flagsAfter, hw]
    | clear id_ => exact keeps_of_same rfl
  | flag c => cases c with
    | new b => exact keeps_append rfl
    | load f => exact keeps_of_same rfl
    | store f b =>
      refine keeps_setFlag rfl ?_
      rcases ha.2 with hf | hb
      · exact .inr (ownerAt_own h hf)
      · exact .inl hb
    | swap f b => exact keeps_setFlag rfl (.inr (ownerAt_own h ha.2))
  | _ => exact keeps_of_same rfl

/-- What one answer does to the leash, it does to the registry. -/
theorem leashFacts_next {r : o.Ans} (h : LeashFacts i s w) (ha : s.Allows o)
    (hr : r = w.reply o (out.ans o)) : LeashFacts i (s.next o r) (w.after i o r) := by
  have hover : s.done = false := by
    cases o with
    | spawn t => exact ha.1
    | flag c => cases c with
      | store f b => exact ha.1
      | swap f b => exact ha.1
      | _ => exact ha
    | _ => exact ha
  have hheld : (w.after i o r).held i = Registry.heldAfter s.held o r := by
    rw [← h.held]
    exact if_pos rfl
  have hcleared : (w.after i o r).cleared i = Registry.clears o := by
    show (w.cleared i || (i == i && Registry.clears o)) = Registry.clears o
    rw [h.cleared, hover]
    simp
  have hown : ∀ f ∈ s.own, ∃ x, (w.after i o r).flags[f]? = some x ∧ x.owner = none := by
    intro f hf
    obtain ⟨x, hx, ho⟩ := h.own f hf
    obtain ⟨x', hx', ho', _⟩ := keeps_after (r := r) h ha f x hx
    exact ⟨x', hx', ho'.trans ho⟩
  cases o with
  | watchers c => cases c with
    | clear id_ => exact ⟨hheld, hcleared, hown⟩
    | _ => exact ⟨hheld, hcleared.trans hover.symm, hown⟩
  | flag c => cases c with
    | new b =>
      refine ⟨hheld, hcleared.trans hover.symm, fun f hf => ?_⟩
      rcases List.mem_cons.1 hf with hf | hf
      · refine ⟨⟨b, none⟩, ?_, rfl⟩
        show (w.flags ++ [⟨b, none⟩])[f]? = _
        rw [hf, hr]
        exact List.getElem?_concat_length
      · exact hown f hf
    | _ => exact ⟨hheld, hcleared.trans hover.symm, hown⟩
  | _ => exact ⟨hheld, hcleared.trans hover.symm, hown⟩

end

theorem holds_leash (env : Env) {c : Cfg Op Op.Ans Registry Entry}
    (hr : Reach (watchers.sys env) (Law.free.unborn Unleashed) ⟨.empty, []⟩ c) :
    (leashMethod env).Holds c := by
  refine Method.holds_reach (fun i e w hfit hinv => ?_) (Method.holds_nil trivial) hr
  refine Method.goes_of_admits (m := leash) (I := LeashFacts i) ?_ ?_ ?_ (leashed_body env e) ?_ hinv
  · intro s w w' h _ hrely
    refine ⟨hrely.1.trans h.held, hrely.2.1.trans h.cleared, fun f hf => ?_⟩
    obtain ⟨x, hx, ho⟩ := h.own f hf
    obtain ⟨x', hx', ho', _⟩ := hrely.2.2 f x hx
    exact ⟨x', hx', ho'.trans ho⟩
  · intro s o w h _ ha _
    show w.cleared i = false
    rw [h.cleared]
    cases o with
    | spawn t => exact ha.1
    | flag c => cases c with
      | store f b => exact ha.1
      | swap f b => exact ha.1
      | _ => exact ha
    | _ => exact ha
  · intro s o out r w w' h _ ha hr _
    obtain ⟨rfl, rfl⟩ := Prod.mk.inj hr
    refine ⟨trivial, fun j e' hj _ => ?_, ⟨keeps_after h ha, fun t p ho hp => ?_⟩,
      leashFacts_next h ha rfl⟩
    · refine ⟨if_neg hj, ?_, keeps_after h ha⟩
      show (w.cleared j || (j == i && _)) = w.cleared j
      simp [hj]
    · subst ho
      rw [h.held]
      exact ha.2 p hp
  · exact ⟨hfit.1, hfit.2, fun f hf => nomatch hf⟩

/-! ## The runs -/

/-- Nobody is cut off by the move: tasks are not started with a flag from elsewhere, and an entry is cleared
only if its flag is raised or no other task has it. -/
def Clean (c : Cfg Op Op.Ans Registry Entry) : Move Out Entry → Prop
  | .start e => e.stopFlag = none
  | .ask _ => True
  | .answer i _ => ∀ e id_ k f, c.tasks[i]? = some ⟨e, .call (.watchers (.clear id_)) k, true⟩ →
      c.world.watchers id_ = some f → c.world.raisedAt f = true ∨
        ∀ j t, j ≠ i → c.tasks[j]? = some t → t.Live → ¬ c.world.Stops j t.entry (id_, f)
  | .crash => True

/-- The flag is its swap's, and a raise of the swap finds it. -/
def Reachable (w : Registry) (p : String × FlagRef) : Prop :=
  w.ownerAt p.2 = some p.1 ∧ (w.raisedAt p.2 = true ∨ w.watchers p.1 = some p.2)

/-- The map has each flag under its own swap, and every live task is in reach. -/
structure Stoppable (c : Cfg Op Op.Ans Registry Entry) : Prop where
  owned : ∀ id_ f, c.world.watchers id_ = some f → c.world.ownerAt f = some id_
  tasks : ∀ i t, c.tasks[i]? = some t → t.Live → ∀ p, c.world.Stops i t.entry p → Reachable c.world p

section
variable {w : Registry} {o : Op} {r : o.Ans} {i : Nat}

theorem watchers_of_kept {id_ : String} {f : FlagRef} (hc : o ≠ .watchers (.clear id_))
    (h : w.watchers id_ = some f) : (w.after i o r).watchers id_ = some f := by
  show w.watchersAfter o id_ = some f
  cases o with
  | watchers c => cases c with
    | register id' =>
      by_cases hid : id_ = id'
      · subst hid
        simp [Registry.watchersAfter, h]
      · simp [Registry.watchersAfter, hid, h]
    | raise id' => exact h
    | clear id' =>
      have hid : id_ ≠ id' := fun e => hc (by rw [e])
      simp [Registry.watchersAfter, hid, h]
  | _ => exact h

theorem owned_after (hk : w.Keeps (w.after i o r))
    (h : ∀ id_ f, w.watchers id_ = some f → w.ownerAt f = some id_) :
    ∀ id_ f, (w.after i o r).watchers id_ = some f → (w.after i o r).ownerAt f = some id_ := by
  intro id_ f hf
  change w.watchersAfter o id_ = some f at hf
  have hsame (hf : w.watchers id_ = some f) : (w.after i o r).ownerAt f = some id_ :=
    ownerAt_of_keeps hk (h id_ f hf)
  cases o with
  | watchers c => cases c with
    | register id' =>
      by_cases hid : id_ = id'
      · subst hid
        cases hw : w.watchers id_ with
        | some g =>
          simp only [Registry.watchersAfter, hw, if_true, Option.getD_some] at hf
          cases hf
          exact hsame hw
        | none =>
          simp only [Registry.watchersAfter, hw, if_true, Option.getD_none] at hf
          cases hf
          show (w.flagsAfter (.watchers (.register id_)))[w.flags.length]?.bind (·.owner) = some id_
          simp [Registry.flagsAfter, hw]
      · simp only [Registry.watchersAfter, if_neg hid] at hf
        exact hsame hf
    | raise id' => exact hsame hf
    | clear id' =>
      simp only [Registry.watchersAfter] at hf
      split at hf
      · cases hf
      · exact hsame hf
  | _ => exact hsame hf

/-- A flag that is in reach stays so if its entry is not cleared under it. -/
theorem reachable_after {p : String × FlagRef} (hk : w.Keeps (w.after i o r)) (h : Reachable w p)
    (hc : o = .watchers (.clear p.1) → w.raisedAt p.2 = true) : Reachable (w.after i o r) p := by
  refine ⟨ownerAt_of_keeps hk h.1, ?_⟩
  rcases h.2 with hr | hw
  · exact .inl (raisedAt_of_keeps hk h.1 hr)
  · by_cases ho : o = .watchers (.clear p.1)
    · exact .inl (raisedAt_of_keeps hk h.1 (hc ho))
    · exact .inr (watchers_of_kept ho hw)

/-- What a task has after its step it had before, or it has just registered it. -/
theorem stops_after {out : Out} {e : Entry} {p : String × FlagRef} (hr : r = w.reply o (out.ans o))
    (h : (w.after i o r).Stops i e p) :
    w.Stops i e p ∨ o = .watchers (.register p.1) ∧ (w.after i o r).watchers p.1 = some p.2 := by
  rcases h with h | h
  · exact .inl (.inl h)
  · have hheld : (w.after i o r).held i = Registry.heldAfter (w.held i) o r := if_pos rfl
    rw [hheld] at h
    cases o with
    | watchers c => cases c with
      | register id_ =>
        rcases List.mem_cons.1 h with rfl | h
        · refine .inr ⟨rfl, ?_⟩
          show (if id_ = id_ then _ else _) = some r
          rw [if_pos rfl, hr]
          rfl
        · exact .inl (.inr h)
      | _ => exact .inl (.inr h)
    | spawn t => cases t with
      | rehydratedRefundWatcher id_ t1 stop => exact .inl (.inr (List.mem_of_mem_erase h))
      | _ => exact .inl (.inr h)
    | _ => exact .inl (.inr h)

end

section
variable {env : Env} {c c' : Cfg Op Op.Ans Registry Entry}

theorem unstarted_reach {ok : Cfg Op Op.Ans Registry Entry → Move Out Entry → Prop}
    (hr : ReachOn (watchers.sys env) ok ⟨.empty, []⟩ c) :
    Reach (watchers.sys env) (Law.free.unborn Unleashed) ⟨.empty, []⟩ c ∧
      ∀ j, c.tasks.length ≤ j → Unleashed j c.world := by
  refine reach_unborn (fun i j o out w hij h => ?_) (fun j w _ => ⟨rfl, rfl⟩) (fun j => ⟨rfl, rfl⟩)
    (reach_of_on hr)
  have hji : j ≠ i := Ne.symm hij
  refine ⟨(if_neg hji).trans h.1, ?_⟩
  show (w.cleared j || (j == i && _)) = false
  rw [h.2]
  simp [hji]

/-- What one move preserves. -/
theorem stoppable_step {m : Move Out Entry} (hholds : (leashMethod env).Holds c)
    (hholds' : (leashMethod env).Holds c') (hnew : ∀ j, c.tasks.length ≤ j → Unleashed j c.world)
    (h : Stoppable c) (hok : Clean c m) (hm : (watchers.sys env).move c m = some c') : Stoppable c' := by
  cases step_free hm with
  | @start e _ =>
    refine ⟨h.owned, fun j t hj hl p hp => ?_⟩
    rcases Method.old_or_new hj with hj | ⟨rfl, rfl⟩
    · exact h.tasks j t hj hl p hp
    · rcases hp with hp | hp
      · rw [show ((watchers.sys env).task e).entry.stopFlag = none from hok] at hp
        cases hp
      · rw [(hnew _ (Nat.le_refl _)).1] at hp
        cases hp
  | @ask i e o k hi _ =>
    refine ⟨h.owned, fun j t hj hl p hp => ?_⟩
    obtain ⟨u, hu, hentry, hlive⟩ := Method.before_set (t := ⟨e, .call o k, true⟩) hi ⟨o, k, rfl⟩ rfl hj
    exact h.tasks j u hu (hlive hl) p (hentry ▸ hp)
  | crash =>
    refine ⟨fun id_ f hf => (nomatch hf), fun j t hj hl => ?_⟩
    obtain ⟨t', _, rfl⟩ := List.mem_map.1 (List.mem_of_getElem? hj)
    exact absurd hl t'.not_live_kill
  | @answer i out e o k r w hi hresp _ _ =>
    obtain ⟨hr, rfl⟩ : c.world.reply o (out.ans o) = r ∧ c.world.after i o r = w := by
      obtain ⟨rfl, rfl⟩ := Prod.mk.inj hresp
      exact ⟨rfl, rfl⟩
    obtain ⟨hkeeps, hspawn⟩ := Method.guar_of_answer hholds hi hresp trivial
    have hlive : (⟨e, .call o k, true⟩ : Task Op Op.Ans Entry).Live := ⟨o, k, rfl⟩
    refine ⟨owned_after hkeeps h.owned, fun j t hj hl p hp => ?_⟩
    -- what task `i` has before its step stays in reach, unless the step clears its entry
    have hself (hc : o ≠ .watchers (.clear p.1)) (hp : c.world.Stops i e p) :
        Reachable (c.world.after i o r) p :=
      reachable_after hkeeps (h.tasks i _ hi hlive p hp) fun ho => absurd ho hc
    have hset : (c.tasks.set i ⟨e, k r, false⟩)[j]? = some t ∨
        ∃ e', Op.spawned o = some e' ∧ j = c.tasks.length ∧ t = (watchers.sys env).task e' := by
      unfold Sys.spawns at hj
      cases hs : (watchers.sys env).spawned o with
      | none =>
        rw [hs] at hj
        left
        simpa using hj
      | some e' =>
        rw [hs] at hj
        rcases Method.old_or_new hj with hj | ⟨hj, ht⟩
        · exact .inl hj
        · exact .inr ⟨e', hs, by simpa using hj, ht⟩
    rcases hset with hjt | ⟨e', hs, rfl, rfl⟩
    · by_cases hij : i = j
      · subst hij
        obtain rfl := Method.set_self hjt
        -- a task that has cleared an entry asks nothing more
        have hc : o ≠ .watchers (.clear p.1) := by
          rintro rfl
          obtain ⟨o', k', hk⟩ := hl
          have hj' : (c.tasks.set i ⟨e, k r, false⟩ ++ (watchers.sys env).spawns
              (.watchers (.clear p.1)))[i]? = some ⟨e, .call o' k', false⟩ := by
            rw [List.getElem?_append_left (List.getElem?_eq_some_iff.1 hjt).1, hjt]
            rw [show k r = .call o' k' from hk]
          have hmust : (c.world.after i (.watchers (.clear p.1)) r).cleared i = false :=
            Method.must_of_ask hholds' hj' trivial
          have hcleared : (c.world.after i (.watchers (.clear p.1)) r).cleared i = true := by
            show (c.world.cleared i || (i == i && true)) = true
            simp
          rw [hcleared] at hmust
          cases hmust
        rcases stops_after hr.symm hp with hp | ⟨rfl, hw⟩
        · exact hself hc hp
        · exact ⟨owned_after hkeeps h.owned _ _ hw, .inr hw⟩
      · rw [List.getElem?_set_ne hij] at hjt
        have hp' : c.world.Stops j t.entry p := by
          rcases hp with hp | hp
          · exact .inl hp
          · have hheld : (c.world.after i o r).held j = c.world.held j := if_neg (Ne.symm hij)
            rw [hheld] at hp
            exact .inr hp
        refine reachable_after hkeeps (h.tasks j t hjt hl p hp') ?_
        rintro rfl
        rcases (h.tasks j t hjt hl p hp').2 with hraised | hw
        · exact hraised
        · rcases hok e p.1 k p.2 hi hw with hraised | hnone
          · exact hraised
          · exact absurd hp' (hnone j t (Ne.symm hij) hjt hl)
    · cases o with
      | spawn t =>
        cases hs
        have hheld : (c.world.after i (.spawn t) r).held c.tasks.length = [] := by
          have hlt : i < c.tasks.length := (List.getElem?_eq_some_iff.1 hi).1
          exact (if_neg (Nat.ne_of_gt hlt)).trans (hnew _ (Nat.le_refl _)).1
        rcases hp with hp | hp
        · exact hself nofun (.inr (hspawn t p rfl hp))
        · rw [hheld] at hp
          cases hp
      | _ => cases hs

/-- What a run preserves. -/
theorem stoppable_reach (hr : ReachOn (watchers.sys env) Clean ⟨.empty, []⟩ c) : Stoppable c := by
  induction hr with
  | refl => exact ⟨fun _ _ h => (nomatch h), fun _ _ h => (nomatch h)⟩
  | step m hr hok hm ih =>
    obtain ⟨hreach, hnew⟩ := unstarted_reach hr
    have hholds' := holds_leash env (unstarted_reach (hr.step m hok hm)).1
    exact stoppable_step (holds_leash env hreach) hholds' hnew ih hok hm

/-- As long as no entry is cleared while another task has its flag and the flag is not raised, a raise of
a swap raises the stop flag of every live task of the swap, and of no other swap's. -/
theorem raise_reaches (hr : ReachOn (watchers.sys env) Clean ⟨.empty, []⟩ c) {i : Nat}
    {t : Task Op Op.Ans Entry} {p : String × FlagRef} (ht : c.tasks[i]? = some t) (hl : t.Live)
    (hp : c.world.Stops i t.entry p) (id_ : String) :
    (c.world.raise id_).raisedAt p.2 = true ↔ c.world.raisedAt p.2 = true ∨ id_ = p.1 := by
  have hstop := stoppable_reach hr
  obtain ⟨howner, hreach⟩ := hstop.tasks i t ht hl p hp
  have hraise (f : FlagRef) (hf : c.world.watchers id_ = some f) :
      (c.world.raise id_).raisedAt p.2 =
        ((c.world.flags[p.2]?.map fun x => if f = p.2 then true else x.raised).getD false) := by
    have hflags : (c.world.raise id_).flags = Registry.setFlag c.world.flags f true := by
      simp [Registry.raise, Registry.flagsAfter, hf]
    unfold Registry.raisedAt
    rw [hflags, getElem?_setFlag]
    cases c.world.flags[p.2]? with
    | none => rfl
    | some x => by_cases h : f = p.2 <;> simp [h]
  obtain ⟨x, hx, hox⟩ := Option.bind_eq_some_iff.1 howner
  cases hf : c.world.watchers id_ with
  | none =>
    have hsame : (c.world.raise id_).raisedAt p.2 = c.world.raisedAt p.2 := by
      unfold Registry.raisedAt Registry.raise
      simp [Registry.flagsAfter, hf]
    rw [hsame]
    refine ⟨.inl, fun h => h.elim id ?_⟩
    rintro rfl
    rcases hreach with hraised | hw
    · exact hraised
    · rw [hf] at hw
      cases hw
  | some f =>
    rw [hraise f hf, hx]
    by_cases hfp : f = p.2
    · subst hfp
      have hid : id_ = p.1 := by
        have := hstop.owned id_ p.2 hf
        rw [howner] at this
        exact (Option.some.inj this).symm
      simp [hid]
    · have hraised : c.world.raisedAt p.2 = x.raised := by
        unfold Registry.raisedAt
        rw [hx]
        rfl
      rw [hraised]
      simp only [Option.map_some, if_neg hfp, Option.getD_some]
      refine ⟨.inl, fun h => h.elim id ?_⟩
      rintro rfl
      rcases hreach with hr | hw
      · rw [← hraised]
        exact hr
      · rw [hf] at hw
        exact absurd (Option.some.inj hw) hfp

end

/-! ## A restart -/

/-- A store with one swap whose T1 has passed. -/
def oneSwap : Out where
  ans
    | .store .dataDir => some ""
    | .store .loadAll => .ok [{ (default : StoredSwap) with swapId := "s" }]
    | o => o.easyAns
  published := false
  settled := false

/-- The restart, all of it. -/
def resume (n : Nat) : List (Move Out Entry) := .start .rehydrate :: turns 0 (List.replicate n oneSwap)

set_option maxRecDepth 4000 in
/-- A raise reaches the refund watcher that the restart has spawned. -/
theorem raise_reaches_resumed :
    (((watchers.sys ⟨false, none, 1⟩).play ⟨.empty, []⟩ (resume 5)).world.raise "s").raisedAt 0 = true := by
  have hok : OkAll (watchers.sys ⟨false, none, 1⟩) Clean ⟨.empty, []⟩ (resume 5) := by
    refine ⟨rfl, ?_⟩
    repeat' first | exact trivial | (rintro _ _ _ _ ⟨⟩) | refine ⟨?_, ?_⟩
  have h := raise_reaches (reachOn_play .refl hok) (i := 1) (p := ("s", 0)) rfl ⟨_, _, rfl⟩ (.inl rfl) "s"
  exact h.2 (.inr rfl)

/-- Tasks are not started with a flag from elsewhere. -/
def Started (_ : Cfg Op Op.Ans Registry Entry) : Move Out Entry → Prop
  | .start e => e.stopFlag = none
  | _ => True

/-- The refund watcher of the restart fires, and clears the entry. -/
def refundWatcherEnds : List (Move Out Entry) := resume 10 ++ turns 4 (List.replicate 6 oneSwap)

def cutOff : Cfg Op Op.Ans Registry Entry :=
  (watchers.sys ⟨true, none, 1⟩).play ⟨.empty, []⟩ refundWatcherEnds

set_option maxRecDepth 8000 in
theorem cutOff_reclaims : ∃ o k,
    cutOff.tasks[2]? = some ⟨.task (.reclaimWatch "s" 0), .call o k, false⟩ := ⟨_, _, rfl⟩

set_option maxRecDepth 8000 in
theorem cutOff_unraised : (cutOff.world.raise "s").raisedAt 0 = false := rfl

set_option maxRecDepth 8000 in
theorem cutOff_started :
    OkAll (watchers.sys ⟨true, none, 1⟩) Started ⟨.empty, []⟩ refundWatcherEnds := by
  refine ⟨rfl, ?_⟩
  repeat' first | exact trivial | refine ⟨?_, ?_⟩

/-- The reclaim watch that the restart has spawned still runs, and no raise reaches it. -/
theorem not_always_stoppable : ¬ ∀ (env : Env) (c : Cfg Op Op.Ans Registry Entry) (i : Nat)
    (t : Task Op Op.Ans Entry) (p : String × FlagRef) (id_ : String),
    ReachOn (watchers.sys env) Started ⟨.empty, []⟩ c → c.tasks[i]? = some t → t.Live →
    c.world.Stops i t.entry p →
    ((c.world.raise id_).raisedAt p.2 = true ↔ c.world.raisedAt p.2 = true ∨ id_ = p.1) := by
  intro hall
  obtain ⟨o, k, ht⟩ := cutOff_reclaims
  have h := hall _ cutOff 2 _ ("s", 0) "s" (reachOn_play .refl cutOff_started) ht ⟨o, k, rfl⟩ (.inl rfl)
  have hraised : (cutOff.world.raise "s").raisedAt 0 = true := h.2 (.inr rfl)
  rw [cutOff_unraised] at hraised
  cases hraised

end Desk
