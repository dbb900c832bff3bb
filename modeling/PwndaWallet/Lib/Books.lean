import PwndaWallet.Lib.Solo
import PwndaWallet.Lib.Sys

/-!
# Tasks that each keep a book

A book notes what a task was answered so far. Where the answers are the expected ones, what a task asks
is what its book allows, and when it ends its book is done (`ReachOn.placed`). A book is the task's own:
the others do not write in it, so a task is followed without a look at them.
-/

namespace Tasks

structure Books (Op : Type) (Ans : Op → Type) (Entry : Type) where
  Book : Type
  blank : Book
  allows : Entry → Book → Op → Prop
  /-- the answers that the followed runs give -/
  expects : Entry → Book → (o : Op) → Ans o → Prop
  note : Book → (o : Op) → Ans o → Book
  /-- the book of a task that has ended -/
  done : Entry → Book → Prop

variable {Op : Type} {Ans : Op → Type} {W Out Entry ε α β : Type} {B : Books Op Ans Entry}

namespace Books

/-- The logic whose world is the book of a task. -/
def logic (B : Books Op Ans Entry) (e : Entry) : Logic Op Ans B.Book where
  rely b b' := b' = b
  may _ _ := True
  must o b := B.allows e b o
  act o r b b' := B.expects e b o r ∧ b' = B.note b o r
  guar _ _ _ _ := True

/-- From the book `b` the task asks only what is allowed, and ends with `Q`. -/
abbrev Keeps (B : Books Op Ans Entry) (e : Entry) (p : Prog Op Ans ε α) (Q : Except ε α → B.Book → Prop)
    (b : B.Book) : Prop :=
  Safe (B.logic e) p Q b

variable {e : Entry} {b : B.Book} {o : Op}

theorem keeps_call {k : Ans o → Prog Op Ans ε α} {Q : Except ε α → B.Book → Prop} :
    B.Keeps e (.call o k) Q b ↔
      B.allows e b o ∧ ∀ r, B.expects e b o r → B.Keeps e (k r) Q (B.note b o r) := by
  unfold Keeps
  rw [safe_call]
  constructor
  · intro h
    obtain ⟨ha, hk⟩ := h b rfl trivial
    exact ⟨ha, fun r hr => (hk b rfl r _ ⟨hr, rfl⟩).2⟩
  · rintro ⟨ha, hk⟩ _ rfl _
    refine ⟨ha, ?_⟩
    rintro _ rfl r _ ⟨hr, rfl⟩
    exact ⟨trivial, hk r hr⟩

/-- `let a ← ask o` -/
theorem keeps_ask {k : Ans o → Prog Op Ans ε β} {Q : Except ε β → B.Book → Prop} (ha : B.allows e b o)
    (hk : ∀ r, B.expects e b o r → B.Keeps e (k r) Q (B.note b o r)) :
    B.Keeps e ((Prog.ask o).bind k) Q b := keeps_call.2 ⟨ha, hk⟩

/-- `request o judge` -/
theorem keeps_request {judge : Ans o → Except ε α} {Q : Except ε α → B.Book → Prop} (ha : B.allows e b o)
    (hk : ∀ r, B.expects e b o r → Q (judge r) (B.note b o r)) : B.Keeps e (.request o judge) Q b :=
  keeps_call.2 ⟨ha, fun r hr => Safe.ofExcept (hk r hr)⟩

/-- `let a ← request o judge` -/
theorem keeps_await {judge : Ans o → Except ε α} {k : α → Prog Op Ans ε β} {Q : Except ε β → B.Book → Prop}
    (ha : B.allows e b o)
    (he : ∀ r x, B.expects e b o r → judge r = .error x → Q (.error x) (B.note b o r))
    (hk : ∀ r a, B.expects e b o r → judge r = .ok a → B.Keeps e (k a) Q (B.note b o r)) :
    B.Keeps e ((Prog.request o judge).bind k) Q b := by
  refine Safe.bind (keeps_request ha fun r hr => ?_)
  cases hj : judge r with
  | ok a => exact hk r a hr hj
  | error x => exact he r x hr hj

/-- A part of a task that the book does not note. -/
theorem keeps_of_uses {P : Op → Prop} {p : Prog Op Ans ε α} (hp : Uses P p)
    (h : ∀ o, P o → B.allows e b o ∧ ∀ r, B.note b o r = b) : B.Keeps e p (fun _ b' => b' = b) b := by
  induction p with
  | ret a => exact safe_ret.2 rfl
  | fail x => exact safe_fail.2 rfl
  | cut => exact safe_cut.2 trivial
  | call o k ih =>
    obtain ⟨ha, hn⟩ := h o hp.1
    refine keeps_call.2 ⟨ha, fun r _ => ?_⟩
    rw [hn r]
    exact ih r (hp.2 r)

/-- What is known of a task between its steps. -/
def Placed (B : Books Op Ans Entry) (t : Task Op Ans Entry) (b : B.Book) : Prop :=
  match t with
  | ⟨e, p, false⟩ => B.Keeps e p (fun _ b => B.done e b) b
  | ⟨e, .call o k, true⟩ =>
    B.allows e b o ∧ ∀ r, B.expects e b o r → B.Keeps e (k r) (fun _ b => B.done e b) (B.note b o r)
  | ⟨_, _, true⟩ => False

theorem Placed.keeps {t : Task Op Ans Entry} (h : B.Placed t b) :
    B.Keeps t.entry t.prog (fun _ b => B.done t.entry b) b := by
  obtain ⟨e, p, asked⟩ := t
  cases asked with
  | false => exact h
  | true =>
    cases p with
    | call o k => exact keeps_call.2 h
    | ret a => exact h.elim
    | fail x => exact h.elim
    | cut => exact h.elim

/-- A task that has ended has a book that is done. -/
theorem Placed.done {t : Task Op Ans Entry} (h : B.Placed t b) {r : Except Unit Unit} (hr : t.prog.ended = some r) :
    B.done t.entry b := by
  obtain ⟨e, p, asked⟩ := t
  cases p with
  | ret a => cases asked <;> first | exact safe_ret.1 h | exact h.elim
  | fail x => cases asked <;> first | exact safe_fail.1 h | exact h.elim
  | cut => cases hr
  | call o k => cases hr

/-- The world `w` keeps a book for every task. -/
structure KeptBy (B : Books Op Ans Entry) (S : Sys Op Ans W Out Entry) (book : W → Nat → B.Book) : Prop where
  own : ∀ i o out w, book (S.respond i o out w).2 i = B.note (book w i) o (S.respond i o out w).1
  other : ∀ i o out w j, j ≠ i → book (S.respond i o out w).2 j = book w j

end Books

/-! ## Runs -/

section
variable {S : Sys Op Ans W Out Entry} {ok : Cfg Op Ans W Entry → Move Out Entry → Prop}
  {c₀ c : Cfg Op Ans W Entry}

/-- What every allowed move preserves holds in every run. -/
theorem ReachOn.inv {P : Cfg Op Ans W Entry → Prop} (h : ReachOn S ok c₀ c) (h₀ : P c₀)
    (hstep : ∀ c m c', ReachOn S ok c₀ c → P c → ok c m → S.move c m = some c' → P c') : P c := by
  induction h with
  | refl => exact h₀
  | step m hr hok hm ih => exact hstep _ m _ hr ih hok hm

/-- What the books of a run are about: its tasks come one by one and start nothing, it does not crash,
and its answers are expected. -/
structure Books.Follows (B : Books Op Ans Entry) (S : Sys Op Ans W Out Entry) (book : W → Nat → B.Book)
    (ok : Cfg Op Ans W Entry → Move Out Entry → Prop) : Prop where
  kept : B.KeptBy S book
  body : ∀ e, B.Keeps e (S.body e) (fun _ b => B.done e b) B.blank
  answers : ∀ c i out e o k, c.tasks[i]? = some ⟨e, .call o k, true⟩ → ok c (.answer i out) →
    B.expects e (book c.world i) o (S.respond i o out c.world).1
  spawns : ∀ o, S.spawned o = none
  crash : ∀ c, ¬ ok c .crash

variable {book : W → Nat → B.Book}

theorem ReachOn.placed (hf : B.Follows S book ok) {w₀ : W} (h₀ : ∀ j, book w₀ j = B.blank)
    (h : ReachOn S ok ⟨w₀, []⟩ c) :
    (∀ i t, c.tasks[i]? = some t → B.Placed t (book c.world i)) ∧
      ∀ j, c.tasks.length ≤ j → book c.world j = B.blank := by
  refine h.inv (P := fun c => (∀ i t, c.tasks[i]? = some t → B.Placed t (book c.world i)) ∧
    ∀ j, c.tasks.length ≤ j → book c.world j = B.blank) ⟨by simp, fun j _ => h₀ j⟩ ?_
  rintro c m c' - ⟨hplaced, hblank⟩ hok hm
  cases m with
  | start e =>
    obtain rfl := Option.some.inj hm
    refine ⟨fun i t hi => ?_, fun j hj => hblank j ?_⟩
    · rcases Method.old_or_new hi with hi | ⟨rfl, rfl⟩
      · exact hplaced i t hi
      · rw [hblank _ (Nat.le_refl _)]
        exact hf.body e
    · rw [List.length_append] at hj
      omega
  | ask i =>
    simp only [Sys.move] at hm
    split at hm
    · rename_i e o k hi
      obtain rfl := Option.some.inj hm
      refine ⟨fun j t hj => ?_, fun j hj => hblank j (by simpa using hj)⟩
      by_cases hij : i = j
      · subst hij
        obtain rfl := Method.set_self hj
        exact Books.keeps_call.1 (hplaced i _ hi)
      · rw [List.getElem?_set_ne hij] at hj
        exact hplaced j t hj
    · cases hm
  | answer i out =>
    simp only [Sys.move] at hm
    split at hm
    · rename_i e o k hi
      obtain rfl := Option.some.inj hm
      have hlt : i < c.tasks.length := (List.getElem?_eq_some_iff.1 hi).1
      simp only [Sys.spawns, hf.spawns, Option.toList_none, List.map_nil, List.append_nil]
      refine ⟨fun j t hj => ?_, fun j hj => ?_⟩
      · by_cases hij : i = j
        · subst hij
          obtain rfl := Method.set_self hj
          rw [hf.kept.own]
          exact (hplaced i _ hi).2 _ (hf.answers c i out e o k hi hok)
        · rw [List.getElem?_set_ne hij] at hj
          rw [hf.kept.other _ _ _ _ _ (Ne.symm hij)]
          exact hplaced j t hj
      · rw [List.length_set] at hj
        rw [hf.kept.other _ _ _ _ _ (by omega)]
        exact hblank j hj
    · cases hm
  | crash => exact absurd hok (hf.crash c)

/-- The entry of task `i`. -/
def Cfg.entryAt (c : Cfg Op Ans W Entry) (i : Nat) : Option Entry := c.tasks[i]?.map Task.entry

theorem entryAt_of_task {i : Nat} {t : Task Op Ans Entry} (h : c.tasks[i]? = some t) : c.entryAt i = some t.entry := by
  rw [Cfg.entryAt, h]
  rfl

/-- A task that moved has its entry still. -/
theorem entryAt_set {w : W} {i j : Nat} {t t' : Task Op Ans Entry} {e : Entry} (hi : c.tasks[i]? = some t)
    (he : t'.entry = t.entry) (hj : c.entryAt j = some e) : Cfg.entryAt ⟨w, c.tasks.set i t'⟩ j = some e := by
  by_cases hij : i = j
  · subst hij
    have hlt : i < c.tasks.length := (List.getElem?_eq_some_iff.1 hi).1
    rw [entryAt_of_task hi] at hj
    rw [Cfg.entryAt, List.getElem?_set_self hlt, Option.map_some, he, hj]
  · rw [Cfg.entryAt, List.getElem?_set_ne hij]
    exact hj

theorem entryAt_append {w : W} {i : Nat} {e : Entry} {ts : List (Task Op Ans Entry)} (hi : c.entryAt i = some e) :
    Cfg.entryAt ⟨w, c.tasks ++ ts⟩ i = some e := by
  obtain ⟨t, ht, rfl⟩ := Option.map_eq_some_iff.1 hi
  exact entryAt_of_task (by rw [List.getElem?_append_left (List.getElem?_eq_some_iff.1 ht).1, ht])

/-- A task keeps its entry. -/
theorem Step.entryAt {law : Law Op Ans W Entry} {c' : Cfg Op Ans W Entry} {m : Move Out Entry} (h : Step S law c m c')
    {i : Nat} {e : Entry} (hi : c.entryAt i = some e) : c'.entryAt i = some e := by
  cases h with
  | start _ => exact entryAt_append hi
  | ask ht _ => exact entryAt_set ht rfl hi
  | @answer j _ e' _ k r w ht _ _ _ =>
    have hset : Cfg.entryAt ⟨w, c.tasks.set j ⟨e', k r, false⟩⟩ i = some e := entryAt_set ht rfl hi
    exact entryAt_append hset
  | crash =>
    obtain ⟨t, ht, rfl⟩ := Option.map_eq_some_iff.1 hi
    simp [Cfg.entryAt, ht, Task.kill]

/-- What one move does to the world, and to the tasks' entries: if it answers a task, then what its book allowed. -/
theorem ReachOn.turn (hf : B.Follows S book ok) {w₀ : W} (h₀ : ∀ j, book w₀ j = B.blank) {m : Move Out Entry}
    {c' : Cfg Op Ans W Entry} (h : ReachOn S ok ⟨w₀, []⟩ c) (hok : ok c m) (hm : S.move c m = some c') :
    (∀ i e, c.entryAt i = some e → c'.entryAt i = some e) ∧ (c'.world = c.world ∨
      ∃ i e o out, c.entryAt i = some e ∧ B.allows e (book c.world i) o ∧ c'.world = (S.respond i o out c.world).2) := by
  cases m with
  | start e =>
    obtain rfl := Option.some.inj hm
    refine ⟨fun i e' hi => ?_, .inl rfl⟩
    obtain ⟨t, ht, rfl⟩ := Option.map_eq_some_iff.1 hi
    exact entryAt_of_task (by rw [List.getElem?_append_left (List.getElem?_eq_some_iff.1 ht).1, ht])
  | ask i =>
    simp only [Sys.move] at hm
    split at hm
    · rename_i e o k hi
      obtain rfl := Option.some.inj hm
      exact ⟨fun j e' hj => entryAt_set hi rfl hj, .inl rfl⟩
    · cases hm
  | answer i out =>
    simp only [Sys.move] at hm
    split at hm
    · rename_i e o k hi
      obtain rfl := Option.some.inj hm
      simp only [Sys.spawns, hf.spawns, Option.toList_none, List.map_nil, List.append_nil]
      refine ⟨fun j e' hj => entryAt_set hi rfl hj, .inr ⟨i, e, o, out, entryAt_of_task hi, ?_, rfl⟩⟩
      exact ((h.placed hf h₀).1 i _ hi).1
    · cases hm
  | crash => exact absurd hok (hf.crash c)

/-- Tasks that are followed to their end stay so. -/
theorem ReachOn.whole {w₀ : W} (hbody : ∀ e, Whole (fun _ => True) (S.body e)) (h : ReachOn S ok ⟨w₀, []⟩ c) {i : Nat}
    {t : Task Op Ans Entry} (hi : c.tasks[i]? = some t) : Whole (fun _ => True) t.prog := by
  have hall : ∀ t ∈ c.tasks, Whole (fun _ => True) t.prog := by
    refine h.inv (P := fun c => ∀ t ∈ c.tasks, Whole (fun _ => True) t.prog) (by simp) ?_
    rintro c m c' - hc - hm
    cases m with
    | start e =>
      obtain rfl := Option.some.inj hm
      intro t ht
      rcases List.mem_append.1 ht with ht | ht
      · exact hc t ht
      · rw [List.mem_singleton.1 ht]
        exact hbody e
    | ask i =>
      simp only [Sys.move] at hm
      split at hm
      · rename_i e o k hi
        obtain rfl := Option.some.inj hm
        intro t ht
        rcases List.mem_or_eq_of_mem_set ht with ht | rfl
        · exact hc t ht
        · have hwhole := hc _ (List.mem_of_getElem? hi)
          exact hwhole
      · cases hm
    | answer i out =>
      simp only [Sys.move] at hm
      split at hm
      · rename_i e o k hi
        obtain rfl := Option.some.inj hm
        intro t ht
        rcases List.mem_append.1 ht with ht | ht
        · rcases List.mem_or_eq_of_mem_set ht with ht | rfl
          · exact hc t ht
          · exact (hc _ (List.mem_of_getElem? hi)).2 _
        · obtain ⟨e', _, rfl⟩ := List.mem_map.1 ht
          exact hbody e'
      · cases hm
    | crash =>
      obtain rfl := Option.some.inj hm
      intro t ht
      obtain ⟨t', _, rfl⟩ := List.mem_map.1 ht
      exact trivial
  exact hall t (List.mem_of_getElem? hi)

end

end Tasks
