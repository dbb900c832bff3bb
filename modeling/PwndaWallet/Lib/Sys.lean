import PwndaWallet.Lib.Safe

/-!
# Systems of tasks

Tasks over one world, interleaved at their awaits: a task asks, the others may move, it is answered.
A move is determined by what the world outside says, so a schedule can be executed. `Method.sound`:
tasks that are safe under what they rely on keep the invariant over every run.
-/

namespace Tasks

/-- What a system is made of: how the world answers, what an entry runs, which task an operation
starts, and what a crash leaves. -/
structure Sys (Op : Type) (Ans : Op → Type) (W Out Entry : Type) where
  respond : Nat → (o : Op) → Out → W → Ans o × W
  body : Entry → Prog Op Ans Unit Unit
  spawned : Op → Option Entry
  restart : W → W

structure Task (Op : Type) (Ans : Op → Type) (Entry : Type) where
  entry : Entry
  prog : Prog Op Ans Unit Unit
  /-- its next operation is asked and not answered -/
  asked : Bool

namespace Task

variable {Op : Type} {Ans : Op → Type} {Entry : Type}

/-- A task that ends with the process it runs in. -/
def kill (t : Task Op Ans Entry) : Task Op Ans Entry := { t with prog := .ret (), asked := false }

/-- It has more to do. -/
def Live (t : Task Op Ans Entry) : Prop := ∃ o k, t.prog = .call o k

theorem not_live_kill (t : Task Op Ans Entry) : ¬ t.kill.Live := by
  rintro ⟨o, k, h⟩
  cases h

end Task

structure Cfg (Op : Type) (Ans : Op → Type) (W Entry : Type) where
  world : W
  tasks : List (Task Op Ans Entry)

inductive Move (Out Entry : Type) where
  | start (e : Entry)
  | ask (i : Nat)
  | answer (i : Nat) (out : Out)
  | crash

namespace Sys

variable {Op : Type} {Ans : Op → Type} {W Out Entry : Type} (S : Sys Op Ans W Out Entry)

/-- The task that entry `e` starts. -/
def task (e : Entry) : Task Op Ans Entry := ⟨e, S.body e, false⟩

/-- The task that an operation starts, if any. -/
def spawns (o : Op) : List (Task Op Ans Entry) := (S.spawned o).toList.map S.task

def move (c : Cfg Op Ans W Entry) : Move Out Entry → Option (Cfg Op Ans W Entry)
  | .start e => some { c with tasks := c.tasks ++ [S.task e] }
  | .ask i =>
    match c.tasks[i]? with
    | some ⟨e, .call o k, false⟩ => some { c with tasks := c.tasks.set i ⟨e, .call o k, true⟩ }
    | _ => none
  | .answer i out =>
    match c.tasks[i]? with
    | some ⟨e, .call o k, true⟩ =>
      let (r, w) := S.respond i o out c.world
      some ⟨w, c.tasks.set i ⟨e, k r, false⟩ ++ S.spawns o⟩
    | _ => none
  | .crash => some ⟨S.restart c.world, c.tasks.map Task.kill⟩

/-- Where a schedule leads; a move that cannot be made is skipped. -/
def play (c : Cfg Op Ans W Entry) : List (Move Out Entry) → Cfg Op Ans W Entry
  | [] => c
  | m :: ms => play ((S.move c m).getD c) ms

end Sys

/-- Which moves a run makes. -/
structure Law (Op : Type) (Ans : Op → Type) (W Entry : Type) where
  /-- the world and the tasks in which a task may come to be -/
  enter : Entry → W → List (Task Op Ans Entry) → Prop
  ask : Nat → Entry → Op → W → Prop
  answer : Nat → Entry → (o : Op) → Ans o → W → W → Prop

section
variable {Op : Type} {Ans : Op → Type} {W Out Entry : Type}

/-- The moves of a system under a law, with what each of them is. -/
inductive Step (S : Sys Op Ans W Out Entry) (law : Law Op Ans W Entry) :
    Cfg Op Ans W Entry → Move Out Entry → Cfg Op Ans W Entry → Prop
  | start {c : Cfg Op Ans W Entry} {e : Entry} :
      law.enter e c.world c.tasks → Step S law c (.start e) ⟨c.world, c.tasks ++ [S.task e]⟩
  | ask {c : Cfg Op Ans W Entry} {i : Nat} {e : Entry} {o : Op} {k : Ans o → Prog Op Ans Unit Unit} :
      c.tasks[i]? = some ⟨e, .call o k, false⟩ → law.ask i e o c.world →
      Step S law c (.ask i) ⟨c.world, c.tasks.set i ⟨e, .call o k, true⟩⟩
  | answer {c : Cfg Op Ans W Entry} {i : Nat} {out : Out} {e : Entry} {o : Op}
      {k : Ans o → Prog Op Ans Unit Unit} {r : Ans o} {w : W} :
      c.tasks[i]? = some ⟨e, .call o k, true⟩ → S.respond i o out c.world = (r, w) →
      law.answer i e o r c.world w → (∀ e', S.spawned o = some e' → law.enter e' w c.tasks) →
      Step S law c (.answer i out) ⟨w, c.tasks.set i ⟨e, k r, false⟩ ++ S.spawns o⟩
  | crash {c : Cfg Op Ans W Entry} :
      Step S law c .crash ⟨S.restart c.world, c.tasks.map Task.kill⟩

/-- The configurations that runs under the law reach from `c`. -/
inductive Reach (S : Sys Op Ans W Out Entry) (law : Law Op Ans W Entry) (c : Cfg Op Ans W Entry) :
    Cfg Op Ans W Entry → Prop
  | refl : Reach S law c c
  | step {c' c'' : Cfg Op Ans W Entry} (m : Move Out Entry) :
      Reach S law c c' → Step S law c' m c'' → Reach S law c c''

/-- No law. -/
def Law.free : Law Op Ans W Entry := ⟨fun _ _ _ => True, fun _ _ _ _ => True, fun _ _ _ _ _ _ => True⟩

theorem Reach.trans {S : Sys Op Ans W Out Entry} {law : Law Op Ans W Entry}
    {c c' c'' : Cfg Op Ans W Entry} (h : Reach S law c c') (h' : Reach S law c' c'') :
    Reach S law c c'' := by
  induction h' with
  | refl => exact h
  | step m _ hs ih => exact ih.step m hs

/-! ## Executed schedules -/

/-- What the law asks of the next move. -/
def Law.Permits (law : Law Op Ans W Entry) (S : Sys Op Ans W Out Entry) (c : Cfg Op Ans W Entry) :
    Move Out Entry → Prop
  | .start e => law.enter e c.world c.tasks
  | .ask i =>
    match c.tasks[i]? with
    | some ⟨e, .call o _, false⟩ => law.ask i e o c.world
    | _ => True
  | .answer i out =>
    match c.tasks[i]? with
    | some ⟨e, .call o _, true⟩ =>
      law.answer i e o (S.respond i o out c.world).1 c.world (S.respond i o out c.world).2 ∧
        match S.spawned o with
        | some e' => law.enter e' (S.respond i o out c.world).2 c.tasks
        | none => True
    | _ => True
  | .crash => True

theorem step_of_move {S : Sys Op Ans W Out Entry} {law : Law Op Ans W Entry} {c c' : Cfg Op Ans W Entry}
    {m : Move Out Entry} (h : S.move c m = some c') (hl : law.Permits S c m) : Step S law c m c' := by
  cases m with
  | start e => simp only [Sys.move, Option.some.injEq] at h; subst h; exact .start hl
  | crash => simp only [Sys.move, Option.some.injEq] at h; subst h; exact .crash
  | ask i =>
    simp only [Sys.move] at h
    split at h
    · rename_i e o k hi
      simp only [Option.some.injEq] at h; subst h
      simp only [Law.Permits, hi] at hl
      exact .ask hi hl
    · exact absurd h (by simp)
  | answer i out =>
    simp only [Sys.move] at h
    split at h
    · rename_i e o k hi
      simp only [Option.some.injEq] at h; subst h
      simp only [Law.Permits, hi] at hl
      refine .answer hi rfl hl.1 fun e' he' => ?_
      simpa only [he'] using hl.2
    · exact absurd h (by simp)

/-- The law permits the whole schedule. -/
def Law.PermitsAll (law : Law Op Ans W Entry) (S : Sys Op Ans W Out Entry) (c : Cfg Op Ans W Entry) :
    List (Move Out Entry) → Prop
  | [] => True
  | m :: ms => law.Permits S c m ∧ law.PermitsAll S ((S.move c m).getD c) ms

/-- An executed schedule is a run. -/
theorem reach_play {S : Sys Op Ans W Out Entry} {law : Law Op Ans W Entry} {c : Cfg Op Ans W Entry}
    {ms : List (Move Out Entry)} (hl : law.PermitsAll S c ms) : Reach S law c (S.play c ms) := by
  induction ms generalizing c with
  | nil => exact .refl
  | cons m ms ih =>
    unfold Sys.play
    have hrest := ih hl.2
    cases hm : S.move c m with
    | none => rw [hm] at hrest; exact hrest
    | some c' => rw [hm] at hrest; exact (Reach.refl.step m (step_of_move hm hl.1)).trans hrest

theorem permitsAll_free (S : Sys Op Ans W Out Entry) (c : Cfg Op Ans W Entry)
    (ms : List (Move Out Entry)) : Law.free.PermitsAll S c ms := by
  induction ms generalizing c with
  | nil => exact trivial
  | cons m ms ih =>
    refine ⟨?_, ih _⟩
    cases m with
    | start e => exact trivial
    | crash => exact trivial
    | ask i =>
      simp only [Law.Permits, Law.free]
      split
      · exact trivial
      · exact trivial
    | answer i out =>
      simp only [Law.Permits, Law.free]
      split
      · refine ⟨trivial, ?_⟩
        split
        · exact trivial
        · exact trivial
      · exact trivial

/-- The configurations that runs from `c` reach if each of their moves is made where `ok` allows it. -/
inductive ReachOn (S : Sys Op Ans W Out Entry) (ok : Cfg Op Ans W Entry → Move Out Entry → Prop)
    (c : Cfg Op Ans W Entry) : Cfg Op Ans W Entry → Prop
  | refl : ReachOn S ok c c
  | step {c' c'' : Cfg Op Ans W Entry} (m : Move Out Entry) :
      ReachOn S ok c c' → ok c' m → S.move c' m = some c'' → ReachOn S ok c c''

theorem ReachOn.trans {S : Sys Op Ans W Out Entry} {ok : Cfg Op Ans W Entry → Move Out Entry → Prop}
    {c c' c'' : Cfg Op Ans W Entry} (h : ReachOn S ok c c') (h' : ReachOn S ok c' c'') : ReachOn S ok c c'' := by
  induction h' with
  | refl => exact h
  | step m _ hok hm ih => exact ih.step m hok hm

theorem step_free {S : Sys Op Ans W Out Entry} {c c' : Cfg Op Ans W Entry} {m : Move Out Entry}
    (h : S.move c m = some c') : Step S .free c m c' :=
  step_of_move h (permitsAll_free S c [m]).1

theorem reach_of_on {S : Sys Op Ans W Out Entry} {ok : Cfg Op Ans W Entry → Move Out Entry → Prop}
    {c c' : Cfg Op Ans W Entry} (h : ReachOn S ok c c') : Reach S .free c c' := by
  induction h with
  | refl => exact .refl
  | step m _ _ hm ih => exact ih.step m (step_free hm)

/-- The schedule's moves are made where `ok` allows them. -/
def OkAll (S : Sys Op Ans W Out Entry) (ok : Cfg Op Ans W Entry → Move Out Entry → Prop)
    (c : Cfg Op Ans W Entry) : List (Move Out Entry) → Prop
  | [] => True
  | m :: ms => ok c m ∧ OkAll S ok ((S.move c m).getD c) ms

instance OkAll.decidable (S : Sys Op Ans W Out Entry) (ok : Cfg Op Ans W Entry → Move Out Entry → Prop)
    [∀ c m, Decidable (ok c m)] : ∀ c ms, Decidable (OkAll S ok c ms)
  | _, [] => .isTrue trivial
  | c, m :: ms =>
    have := OkAll.decidable S ok ((S.move c m).getD c) ms
    inferInstanceAs (Decidable (ok c m ∧ OkAll S ok ((S.move c m).getD c) ms))

theorem reachOn_play {S : Sys Op Ans W Out Entry} {ok : Cfg Op Ans W Entry → Move Out Entry → Prop}
    {c₀ c : Cfg Op Ans W Entry} {ms : List (Move Out Entry)} (h : ReachOn S ok c₀ c)
    (hok : OkAll S ok c ms) : ReachOn S ok c₀ (S.play c ms) := by
  induction ms generalizing c with
  | nil => exact h
  | cons m ms ih =>
    unfold Sys.play
    have hrest := hok.2
    cases hm : S.move c m with
    | none => rw [hm] at hrest; exact ih h hrest
    | some c' => rw [hm] at hrest; exact ih (h.step m hok.1 hm) hrest

/-- Task `i` asks and is answered, once with each of `outs`. -/
def turns (i : Nat) : List Out → List (Move Out Entry)
  | [] => []
  | out :: outs => .ask i :: .answer i out :: turns i outs

/-! ## Tasks to come -/

/-- The law, with what is known of the world's part of a task before it comes to be. -/
def Law.unborn (law : Law Op Ans W Entry) (P : Nat → W → Prop) : Law Op Ans W Entry :=
  { law with enter := fun e w ts => law.enter e w ts ∧ P ts.length w }

/-- What only task `j` changes is as it was until `j` comes to be. -/
theorem reach_unborn {S : Sys Op Ans W Out Entry} {law : Law Op Ans W Entry} {P : Nat → W → Prop}
    (hother : ∀ i j o out w, i ≠ j → P j w → P j (S.respond i o out w).2)
    (hrestart : ∀ j w, P j w → P j (S.restart w)) {w₀ : W} (h₀ : ∀ j, P j w₀)
    {c : Cfg Op Ans W Entry} (h : Reach S law ⟨w₀, []⟩ c) :
    Reach S (law.unborn P) ⟨w₀, []⟩ c ∧ ∀ j, c.tasks.length ≤ j → P j c.world := by
  induction h with
  | refl => exact ⟨.refl, fun j _ => h₀ j⟩
  | step m _ hs ih =>
    obtain ⟨hreach, hP⟩ := ih
    cases hs with
    | start hl =>
      refine ⟨hreach.step _ (.start ⟨hl, hP _ (Nat.le_refl _)⟩), fun j hj => hP j ?_⟩
      simp only [List.length_append] at hj
      omega
    | ask hi hl =>
      refine ⟨hreach.step _ (.ask hi hl), fun j hj => hP j ?_⟩
      simpa using hj
    | @answer i out e o k r w hi hr hl hent =>
      have hlt : i < _ := (List.getElem?_eq_some_iff.1 hi).1
      have hw : ∀ j, i ≠ j → P j _ → P j w := fun j hij hj => by
        have := hother i j o out _ hij hj
        rwa [hr] at this
      refine ⟨hreach.step _ (.answer hi hr hl fun e' he' => ⟨hent e' he', ?_⟩), fun j hj => ?_⟩
      · exact hw _ (by omega) (hP _ (Nat.le_refl _))
      · simp only [List.length_append, List.length_set] at hj
        exact hw j (by omega) (hP j (by omega))
    | crash =>
      refine ⟨hreach.step _ .crash, fun j hj => hrestart _ _ (hP j ?_)⟩
      simpa using hj

/-! ## Rely and guarantee -/

/-- A proof of an invariant, task by task: what each task may count on from the others, what it owes
when it asks and when it is answered, what the world is like where it comes to be, and which tasks
are never live together. -/
structure Method (S : Sys Op Ans W Out Entry) (law : Law Op Ans W Entry) where
  inv : W → Prop
  rely : Nat → Entry → W → W → Prop
  must : Nat → Entry → Op → W → Prop
  guar : Nat → Entry → (o : Op) → Ans o → W → W → Prop
  fit : Nat → Entry → W → Prop
  apart : Entry → Entry → Prop
  rely_refl : ∀ i e w, rely i e w w
  rely_trans : ∀ i e w w' w'', rely i e w w' → rely i e w' w'' → rely i e w w''
  apart_symm : ∀ e e', apart e e' → apart e' e
  restart : ∀ w, inv w → inv (S.restart w)
  enter : ∀ e w ts, law.enter e w ts → fit ts.length e w ∧ ∀ t ∈ ts, t.Live → ¬ apart e t.entry

namespace Method

variable {S : Sys Op Ans W Out Entry} {law : Law Op Ans W Entry} (M : Method S law)

/-- The logic of task `i`, running entry `e`. -/
def logic (i : Nat) (e : Entry) : Logic Op Ans W where
  rely w w' := M.inv w' ∧ M.rely i e w w'
  may o w := law.ask i e o w
  must := M.must i e
  act o r w w' := M.inv w ∧ (∃ out, S.respond i o out w = (r, w')) ∧ law.answer i e o r w w'
  guar o r w w' := M.inv w' ∧ (∀ j e', j ≠ i → ¬ M.apart e e' → M.rely j e' w w') ∧ M.guar i e o r w w'

/-- Nothing is asked of a task's end. -/
abbrev Goes (i : Nat) (e : Entry) (p : Prog Op Ans Unit Unit) (w : W) : Prop :=
  Safe (M.logic i e) p (fun _ _ => True) w

/-- What is known of a task between its steps. -/
def Fine (i : Nat) (t : Task Op Ans Entry) (w : W) : Prop :=
  match t with
  | ⟨e, p, false⟩ => M.Goes i e p w
  | ⟨e, .call o k, true⟩ => ∀ w₂, (M.logic i e).rely w w₂ → ∀ r w₃, (M.logic i e).act o r w₂ w₃ →
      (M.logic i e).guar o r w₂ w₃ ∧ M.Goes i e (k r) w₃
  | ⟨_, _, true⟩ => True

/-- No two live tasks are apart. -/
def Together (ts : List (Task Op Ans Entry)) : Prop :=
  ∀ (i j : Nat) (t t' : Task Op Ans Entry), i ≠ j → ts[i]? = some t → ts[j]? = some t' → t.Live → t'.Live →
    ¬ M.apart t.entry t'.entry

structure Holds (c : Cfg Op Ans W Entry) : Prop where
  inv : M.inv c.world
  fine : ∀ i t, c.tasks[i]? = some t → M.Fine i t c.world
  together : M.Together c.tasks

variable {M}

theorem holds_nil {w : W} (h : M.inv w) : M.Holds ⟨w, []⟩ where
  inv := h
  fine := by intro i t hi; simp at hi
  together := by intro i j t t' _ hi; simp at hi

theorem goes_of_rely {i : Nat} {e : Entry} {p : Prog Op Ans Unit Unit} {w w' : W}
    (h : M.Goes i e p w) (hr : M.rely i e w w') : M.Goes i e p w' := by
  cases p with
  | ret a => exact safe_ret.2 trivial
  | fail e => exact safe_fail.2 trivial
  | cut => exact safe_cut.2 trivial
  | call o k =>
    exact safe_call.2 fun w₁ h₁ hm => safe_call.1 h w₁ ⟨h₁.1, M.rely_trans _ _ _ _ _ hr h₁.2⟩ hm

/-- The others leave a task fine; nothing is needed of a task that has ended. -/
theorem fine_of_rely {i : Nat} {t : Task Op Ans Entry} {w w' : W} (h : M.Fine i t w)
    (hr : t.Live → M.rely i t.entry w w') : M.Fine i t w' := by
  obtain ⟨e, p, a⟩ := t
  cases p with
  | ret x => cases a with
    | false => exact safe_ret.2 trivial
    | true => exact trivial
  | fail x => cases a with
    | false => exact safe_fail.2 trivial
    | true => exact trivial
  | cut => cases a with
    | false => exact safe_cut.2 trivial
    | true => exact trivial
  | call o k =>
    have hr := hr ⟨o, k, rfl⟩
    cases a with
    | false => exact goes_of_rely h hr
    | true => exact fun w₂ h₂ => h w₂ ⟨h₂.1, M.rely_trans _ _ _ _ _ hr h₂.2⟩

theorem fine_kill (i : Nat) (t : Task Op Ans Entry) (w : W) : M.Fine i t.kill w := safe_ret.2 trivial

/-! What a list of tasks is after one of them moved and others came. -/

theorem old_or_new {α : Type} {l : List α} {i : Nat} {a b : α} (h : (l ++ [b])[i]? = some a) :
    l[i]? = some a ∨ i = l.length ∧ a = b := by
  rw [List.getElem?_append] at h
  split at h
  · exact .inl h
  · rw [List.getElem?_singleton] at h
    split at h
    · exact .inr ⟨by omega, by simpa using h.symm⟩
    · exact absurd h (by simp)

theorem set_self {α : Type} {l : List α} {i : Nat} {a b : α} (h : (l.set i a)[i]? = some b) :
    a = b := by
  rw [List.getElem?_set] at h
  split at h
  · split at h
    · simpa using h
    · exact absurd h (by simp)
  · contradiction

/-- A task after a move of task `i` was there before with the same entry, and was live if it is. -/
theorem before_set {l : List (Task Op Ans Entry)} {i j : Nat} {t t₀ u : Task Op Ans Entry}
    (hi : l[i]? = some t₀) (hl : t₀.Live) (he : t.entry = t₀.entry) (h : (l.set i t)[j]? = some u) :
    ∃ u₀, l[j]? = some u₀ ∧ u₀.entry = u.entry ∧ (u.Live → u₀.Live) := by
  by_cases hij : i = j
  · subst hij
    obtain rfl := set_self h
    exact ⟨t₀, hi, he.symm, fun _ => hl⟩
  · rw [List.getElem?_set_ne hij] at h
    exact ⟨u, h, rfl, id⟩

theorem together_set {l : List (Task Op Ans Entry)} {i : Nat} {t t₀ : Task Op Ans Entry}
    (ht : M.Together l) (hi : l[i]? = some t₀) (hl : t₀.Live) (he : t.entry = t₀.entry) :
    M.Together (l.set i t) := by
  intro j j' u u' hjj hj hj' hu hu'
  obtain ⟨v, hv, hve, hvl⟩ := before_set hi hl he hj
  obtain ⟨v', hv', hve', hvl'⟩ := before_set hi hl he hj'
  rw [← hve, ← hve']
  exact ht j j' v v' hjj hv hv' (hvl hu) (hvl' hu')

theorem together_append {l : List (Task Op Ans Entry)} {e : Entry} {p : Prog Op Ans Unit Unit}
    (ht : M.Together l) (he : ∀ t ∈ l, t.Live → ¬ M.apart e t.entry) :
    M.Together (l ++ [⟨e, p, false⟩]) := by
  intro i j t t' hij hi hj hl hl'
  rcases old_or_new hi with hi | ⟨hi, rfl⟩
  · rcases old_or_new hj with hj | ⟨_, rfl⟩
    · exact ht i j t t' hij hi hj hl hl'
    · exact fun h => he t (List.mem_of_getElem? hi) hl (M.apart_symm _ _ h)
  · rcases old_or_new hj with hj | ⟨hj, _⟩
    · exact he t' (List.mem_of_getElem? hj) hl'
    · omega

section
variable (bodies : ∀ i e w, M.fit i e w → M.inv w → M.Goes i e (S.body e) w)
include bodies

theorem holds_append {c : Cfg Op Ans W Entry} {e : Entry} (h : M.Holds c)
    (hl : law.enter e c.world c.tasks) : M.Holds ⟨c.world, c.tasks ++ [S.task e]⟩ where
  inv := h.inv
  fine := by
    intro i t hit
    rcases old_or_new hit with hi | ⟨rfl, rfl⟩
    · exact h.fine i t hi
    · exact bodies _ e _ (M.enter e _ _ hl).1 h.inv
  together := together_append h.together (M.enter e _ _ hl).2

/-- What one move preserves. -/
theorem holds_step {c c' : Cfg Op Ans W Entry} {m : Move Out Entry} (h : M.Holds c)
    (s : Step S law c m c') : M.Holds c' := by
  cases s with
  | @start e hl => exact holds_append bodies h hl
  | @ask i e o k hti hl =>
    refine ⟨h.inv, fun j t hjt => ?_, together_set h.together hti ⟨o, k, rfl⟩ rfl⟩
    by_cases hij : i = j
    · subst hij
      obtain rfl := set_self hjt
      exact (safe_call.1 (h.fine i _ hti) _ ⟨h.inv, M.rely_refl _ _ _⟩ hl).2
    · rw [List.getElem?_set_ne hij] at hjt
      exact h.fine j t hjt
  | @answer i out e o k r w hti hr hl hent =>
    obtain ⟨⟨hi', hrely, _⟩, hgo⟩ :=
      (h.fine i _ hti) _ ⟨h.inv, M.rely_refl _ _ _⟩ r w ⟨h.inv, ⟨out, hr⟩, hl⟩
    have hset : M.Holds ⟨w, c.tasks.set i ⟨e, k r, false⟩⟩ := by
      refine ⟨hi', fun j t hjt => ?_, together_set h.together hti ⟨o, k, rfl⟩ rfl⟩
      by_cases hij : i = j
      · subst hij
        obtain rfl := set_self hjt
        exact hgo
      · rw [List.getElem?_set_ne hij] at hjt
        refine fine_of_rely (h.fine j t hjt) fun hlive => hrely j t.entry (Ne.symm hij) ?_
        exact h.together i j _ t hij hti hjt ⟨o, k, rfl⟩ hlive
    unfold Sys.spawns
    cases hs : S.spawned o with
    | none => simpa using hset
    | some e' =>
      have hent := M.enter e' w _ (hent e' hs)
      refine ⟨hi', fun j t hjt => ?_, together_append hset.together fun t ht hlive => ?_⟩
      · rcases old_or_new hjt with hj | ⟨rfl, rfl⟩
        · exact hset.fine j t hj
        · rw [List.length_set]
          exact bodies _ e' _ hent.1 hi'
      · obtain ⟨j, hj⟩ := List.mem_iff_getElem?.1 ht
        obtain ⟨u, hu, hue, hul⟩ := before_set (t := ⟨e, k r, false⟩) hti ⟨o, k, rfl⟩ rfl hj
        rw [← hue]
        exact hent.2 u (List.mem_of_getElem? hu) (hul hlive)
  | crash =>
    refine ⟨M.restart _ h.inv, fun i t hit => ?_, fun i j t t' _ hi _ hl _ => ?_⟩
    · obtain ⟨t', _, rfl⟩ := List.mem_map.1 (List.mem_of_getElem? hit)
      exact fine_kill i t' _
    · obtain ⟨t₀, _, rfl⟩ := List.mem_map.1 (List.mem_of_getElem? hi)
      exact absurd hl t₀.not_live_kill

/-- What a run preserves. -/
theorem holds_reach {c c' : Cfg Op Ans W Entry} (h : M.Holds c) (hr : Reach S law c c') :
    M.Holds c' := by
  induction hr with
  | refl => exact h
  | step m _ hs ih => exact holds_step bodies ih hs

end

theorem must_of_ask {c : Cfg Op Ans W Entry} {i : Nat} {e : Entry} {o : Op}
    {k : Ans o → Prog Op Ans Unit Unit} (h : M.Holds c)
    (ht : c.tasks[i]? = some ⟨e, .call o k, false⟩) (hl : law.ask i e o c.world) :
    M.must i e o c.world :=
  (safe_call.1 (h.fine i _ ht) _ ⟨h.inv, M.rely_refl _ _ _⟩ hl).1

theorem guar_of_answer {c : Cfg Op Ans W Entry} {i : Nat} {e : Entry} {o : Op} {out : Out}
    {k : Ans o → Prog Op Ans Unit Unit} {r : Ans o} {w : W} (h : M.Holds c)
    (ht : c.tasks[i]? = some ⟨e, .call o k, true⟩) (hr : S.respond i o out c.world = (r, w))
    (hl : law.answer i e o r c.world w) : M.guar i e o r c.world w :=
  ((h.fine i _ ht) _ ⟨h.inv, M.rely_refl _ _ _⟩ r w ⟨h.inv, ⟨out, hr⟩, hl⟩).1.2.2

end Method
end

end Tasks
