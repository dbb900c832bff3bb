/-!
# Sequential tasks

A task is the tree of questions it asks the world it runs in, one branch for
every answer. `Run` follows one path of that tree and keeps the answers.
-/

namespace Tasks

/-- A task. `cut` is where a bounded unfolding of a loop ends: the task has more to do that is
not followed, so a run that gets there stays there and returns nothing. -/
inductive Prog (Op : Type) (Ans : Op → Type) (ε α : Type) where
  | ret (a : α)
  | fail (e : ε)
  | cut
  | call (o : Op) (k : Ans o → Prog Op Ans ε α)

/-- An operation with the answer it got. -/
structure Ev {Op : Type} (Ans : Op → Type) where
  op : Op
  ans : Ans op

namespace Prog

variable {Op : Type} {Ans : Op → Type} {ε ε' α β : Type}

/-- Go on from the way a task ended. -/
def handle : Prog Op Ans ε α → (Except ε α → Prog Op Ans ε' β) → Prog Op Ans ε' β
  | .ret a, f => f (.ok a)
  | .fail e, f => f (.error e)
  | .cut, _ => .cut
  | .call o k, f => .call o (fun r => (k r).handle f)

def bind (p : Prog Op Ans ε α) (f : α → Prog Op Ans ε β) : Prog Op Ans ε β :=
  p.handle fun
    | .ok a => f a
    | .error e => .fail e

instance : Monad (Prog Op Ans ε) where
  pure := .ret
  bind := bind

/-- A failure becomes an answer. -/
def attempt (p : Prog Op Ans ε α) : Prog Op Ans ε' (Except ε α) :=
  p.handle .ret

def mapErr (f : ε → ε') (p : Prog Op Ans ε α) : Prog Op Ans ε' α :=
  p.handle fun
    | .ok a => .ret a
    | .error e => .fail (f e)

def ask (o : Op) : Prog Op Ans ε (Ans o) := .call o .ret

def ofExcept : Except ε α → Prog Op Ans ε α
  | .ok a => .ret a
  | .error e => .fail e

/-- Ask, and take the answer as `judge` reads it. -/
def request (o : Op) (judge : Ans o → Except ε α) : Prog Op Ans ε α :=
  .call o fun r => .ofExcept (judge r)

def orFail (x : Option α) (e : ε) : Prog Op Ans ε α :=
  match x with
  | some a => .ret a
  | none => .fail e

/-- Stop with `e` unless `c`. -/
def ensure (c : Bool) (e : ε) : Prog Op Ans ε Unit :=
  if c then .ret () else .fail e

def when (c : Bool) (p : Prog Op Ans ε Unit) : Prog Op Ans ε Unit :=
  if c then p else .ret ()

/-- A task whose end nobody waits for. -/
def detach (p : Prog Op Ans ε α) : Prog Op Ans Unit Unit :=
  p.handle fun _ => .ret ()

@[simp] theorem pure_eq (a : α) : (pure a : Prog Op Ans ε α) = .ret a := rfl

@[simp] theorem bind_eq (p : Prog Op Ans ε α) (f : α → Prog Op Ans ε β) : p >>= f = p.bind f := rfl

theorem bind_assoc {γ : Type} (p : Prog Op Ans ε α) (f : α → Prog Op Ans ε β) (g : β → Prog Op Ans ε γ) :
    (p.bind f).bind g = p.bind fun a => (f a).bind g := by
  unfold bind
  induction p with
  | ret a => rfl
  | fail e => rfl
  | cut => rfl
  | call o k ih => exact congrArg (call o) (funext ih)

@[simp] theorem ret_bind (a : α) (f : α → Prog Op Ans ε β) : (Prog.ret a).bind f = f a := rfl

@[simp] theorem ofExcept_ok_bind (a : α) (f : α → Prog Op Ans ε β) :
    (Prog.ofExcept (.ok a)).bind f = f a := rfl

theorem handle_handle {ε'' γ : Type} (p : Prog Op Ans ε α) (f : Except ε α → Prog Op Ans ε' β)
    (g : Except ε' β → Prog Op Ans ε'' γ) : (p.handle f).handle g = p.handle fun r => (f r).handle g := by
  induction p with
  | ret a => rfl
  | fail e => rfl
  | cut => rfl
  | call o k ih => exact congrArg (call o) (funext ih)

/-! ## Runs -/

/-- `Run p tr q`: after the answers `tr`, what is left of `p` is `q`. -/
inductive Run (p : Prog Op Ans ε α) : List (Ev Ans) → Prog Op Ans ε α → Prop
  | refl : Run p [] p
  | step {tr : List (Ev Ans)} {o : Op} {k : Ans o → Prog Op Ans ε α} (r : Ans o) :
      Run p tr (.call o k) → Run p (tr ++ [⟨o, r⟩]) (k r)

theorem Run.one {p : Prog Op Ans ε α} {o : Op} {k : Ans o → Prog Op Ans ε α} (h : p = .call o k)
    (r : Ans o) : Run p [⟨o, r⟩] (k r) := by
  subst h
  exact .step r .refl

theorem Run.cons {o : Op} {k : Ans o → Prog Op Ans ε α} {r : Ans o} {tr : List (Ev Ans)} {q : Prog Op Ans ε α}
    (h : (k r).Run tr q) : (Prog.call o k).Run (⟨o, r⟩ :: tr) q := by
  induction h with
  | refl => exact .one rfl r
  | step r' _ ih => exact ih.step r'

/-- The first answer of a run. -/
theorem Run.call_cases {o : Op} {k : Ans o → Prog Op Ans ε α} {tr : List (Ev Ans)} {q : Prog Op Ans ε α}
    (h : (Prog.call o k).Run tr q) :
    (tr = [] ∧ q = .call o k) ∨ ∃ r tr', tr = ⟨o, r⟩ :: tr' ∧ (k r).Run tr' q := by
  induction h with
  | refl => exact .inl ⟨rfl, rfl⟩
  | @step tr o' k' r _ ih =>
    rcases ih with ⟨rfl, hq⟩ | ⟨r', tr', rfl, hr'⟩
    · cases hq
      exact .inr ⟨r, [], rfl, .refl⟩
    · exact .inr ⟨r', tr' ++ [⟨o', r⟩], rfl, hr'.step r⟩

/-- A task that has ended asks nothing more. -/
theorem Run.of_end {r : Except ε α} {tr : List (Ev Ans)} {q : Prog Op Ans ε α} (h : (Prog.ofExcept r).Run tr q) :
    tr = [] ∧ q = .ofExcept r := by
  induction h with
  | refl => exact ⟨rfl, rfl⟩
  | step _ _ ih => cases r <;> cases ih.2

theorem Run.end_eq {r r' : Except ε α} {tr : List (Ev Ans)}
    (h : (Prog.ofExcept r : Prog Op Ans ε α).Run tr (.ofExcept r')) : tr = [] ∧ r' = r := by
  obtain ⟨htr, hq⟩ := h.of_end
  cases r <;> cases r' <;> cases hq <;> exact ⟨htr, rfl⟩

/-- A run of `p.handle f` is one of `p`, and where `p` has ended, one of `f` after it. -/
theorem Run.handle_cases {p : Prog Op Ans ε α} {f : Except ε α → Prog Op Ans ε' β} {tr : List (Ev Ans)}
    {q : Prog Op Ans ε' β} (h : (p.handle f).Run tr q) :
    (∃ p', p.Run tr p' ∧ q = p'.handle f) ∨
      ∃ r tr₁ tr₂, tr = tr₁ ++ tr₂ ∧ p.Run tr₁ (.ofExcept r) ∧ (f r).Run tr₂ q := by
  induction h with
  | refl => exact .inl ⟨p, .refl, rfl⟩
  | @step tr o k r _ ih =>
    rcases ih with ⟨p', hp, hq⟩ | ⟨r', tr₁, tr₂, rfl, hp, hf⟩
    · cases p' with
      | ret a => exact .inr ⟨.ok a, tr, [⟨o, r⟩], rfl, hp, .one hq.symm r⟩
      | fail e => exact .inr ⟨.error e, tr, [⟨o, r⟩], rfl, hp, .one hq.symm r⟩
      | cut => cases hq
      | call o' k' =>
        cases hq
        exact .inl ⟨k' r, hp.step r, rfl⟩
    · exact .inr ⟨r', tr₁, tr₂ ++ [⟨o, r⟩], List.append_assoc .., hp, hf.step r⟩

/-- A run of `p.handle f` to its end passes the end of `p`. -/
theorem Run.handle_end {p : Prog Op Ans ε α} {f : Except ε α → Prog Op Ans ε' β} {tr : List (Ev Ans)}
    {e : Except ε' β} (h : (p.handle f).Run tr (.ofExcept e)) :
    ∃ r tr₁ tr₂, tr = tr₁ ++ tr₂ ∧ p.Run tr₁ (.ofExcept r) ∧ (f r).Run tr₂ (.ofExcept e) := by
  rcases h.handle_cases with ⟨p', hp, hq⟩ | hr
  · cases p' with
    | ret a => exact ⟨.ok a, tr, [], (List.append_nil _).symm, hp, hq ▸ .refl⟩
    | fail x => exact ⟨.error x, tr, [], (List.append_nil _).symm, hp, hq ▸ .refl⟩
    | cut => cases e <;> cases hq
    | call o k => cases e <;> cases hq
  · exact hr

/-- Feed a task the answers of `f`, `n` of them. -/
def feed (f : Nat → (o : Op) → Ans o) (p : Prog Op Ans ε α) : Nat → Prog Op Ans ε α
  | 0 => p
  | n + 1 =>
    match feed f p n with
    | .call o k => k (f n o)
    | q => q

/-- The answers `feed` gave. -/
def fed (f : Nat → (o : Op) → Ans o) (p : Prog Op Ans ε α) : Nat → List (Ev Ans)
  | 0 => []
  | n + 1 =>
    match feed f p n with
    | .call o _ => fed f p n ++ [⟨o, f n o⟩]
    | _ => fed f p n

theorem run_feed (f : Nat → (o : Op) → Ans o) (p : Prog Op Ans ε α) (n : Nat) :
    Run p (fed f p n) (feed f p n) := by
  induction n with
  | zero => exact .refl
  | succ n ih =>
    unfold feed fed
    cases h : feed f p n with
    | call o k => rw [h] at ih; exact ih.step (f n o)
    | ret a => rw [h] at ih; exact ih
    | fail e => rw [h] at ih; exact ih
    | cut => rw [h] at ih; exact ih

/-- The operation that is asked next. -/
def next : Prog Op Ans ε α → Option Op
  | .call o _ => some o
  | _ => none

theorem call_of_next {p : Prog Op Ans ε α} {o : Op} (h : p.next = some o) : ∃ k, p = .call o k := by
  cases p with
  | call o' k =>
    obtain rfl := Option.some.inj h
    exact ⟨k, rfl⟩
  | ret a => cases h
  | fail e => cases h
  | cut => cases h

theorem mem_fed {f : Nat → (o : Op) → Ans o} {p : Prog Op Ans ε α} {n : Nat} {e : Ev Ans} (he : e ∈ fed f p n) :
    ∃ m, e = ⟨e.op, f m e.op⟩ := by
  induction n with
  | zero => cases he
  | succ n ih =>
    unfold fed at he
    split at he
    · rcases List.mem_append.1 he with he | he
      · exact ih he
      · obtain rfl := List.mem_singleton.1 he
        exact ⟨n, rfl⟩
    · exact ih he

/-- Answers of which the first is left out. -/
theorem feed_call (f : Nat → (o : Op) → Ans o) {o : Op} (k : Ans o → Prog Op Ans ε α) (n : Nat) :
    feed f (.call o k) (n + 1) = feed (fun m => f (m + 1)) (k (f 0 o)) n := by
  induction n with
  | zero => rfl
  | succ n ih =>
    rw [feed, ih]
    rfl

theorem fed_call (f : Nat → (o : Op) → Ans o) {o : Op} (k : Ans o → Prog Op Ans ε α) (n : Nat) :
    fed f (.call o k) (n + 1) = ⟨o, f 0 o⟩ :: fed (fun m => f (m + 1)) (k (f 0 o)) n := by
  induction n with
  | zero => rfl
  | succ n ih =>
    rw [fed, feed_call, ih, fed]
    split <;> rfl

end Prog

/-! ## The operations a task can ask -/

section
variable {Op : Type} {Ans : Op → Type} {ε ε' α β : Type} {P : Op → Prop}

/-- The task asks operations of `P` only. -/
def Uses (P : Op → Prop) : Prog Op Ans ε α → Prop
  | .ret _ => True
  | .fail _ => True
  | .cut => True
  | .call o k => P o ∧ ∀ r, Uses P (k r)

theorem Uses.handle {p : Prog Op Ans ε α} {f : Except ε α → Prog Op Ans ε' β} (h : Uses P p)
    (hf : ∀ r, Uses P (f r)) : Uses P (p.handle f) := by
  induction p with
  | ret a => exact hf _
  | fail e => exact hf _
  | cut => exact trivial
  | call o k ih => exact ⟨h.1, fun r => ih r (h.2 r)⟩

theorem Uses.bind {p : Prog Op Ans ε α} {f : α → Prog Op Ans ε β} (h : Uses P p)
    (hf : ∀ a, Uses P (f a)) : Uses P (p.bind f) :=
  h.handle fun r => by
    cases r with
    | ok a => exact hf a
    | error e => exact trivial

theorem Uses.mapErr {p : Prog Op Ans ε α} {f : ε → ε'} (h : Uses P p) : Uses P (p.mapErr f) :=
  h.handle fun r => by cases r <;> exact trivial

theorem Uses.attempt {p : Prog Op Ans ε α} (h : Uses P p) : 
    Uses P (p.attempt : Prog Op Ans ε' (Except ε α)) :=
  h.handle fun _ => trivial

theorem Uses.ask {o : Op} (h : P o) : Uses P (.ask o : Prog Op Ans ε (Ans o)) :=
  ⟨h, fun _ => trivial⟩

theorem Uses.detach {p : Prog Op Ans ε α} (h : Uses P p) : Uses P p.detach :=
  h.handle fun _ => trivial

theorem Uses.when {c : Bool} {p : Prog Op Ans ε Unit} (h : Uses P p) : Uses P (.when c p) := by
  cases c
  · exact trivial
  · exact h

theorem Uses.ofExcept (x : Except ε α) : Uses P (.ofExcept x : Prog Op Ans ε α) := by
  cases x <;> exact trivial

theorem Uses.request {o : Op} {judge : Ans o → Except ε α} (h : P o) :
    Uses P (.request o judge : Prog Op Ans ε α) :=
  ⟨h, fun r => .ofExcept (judge r)⟩

theorem Uses.orFail (x : Option α) (e : ε) : Uses P (.orFail x e : Prog Op Ans ε α) := by
  cases x <;> exact trivial

theorem Uses.ensure (c : Bool) (e : ε) : Uses P (.ensure c e : Prog Op Ans ε Unit) := by
  cases c <;> exact trivial

theorem Uses.ite {c : Prop} [Decidable c] {p q : Prog Op Ans ε α} (hp : Uses P p) (hq : Uses P q) :
    Uses P (if c then p else q) := by
  split
  · exact hp
  · exact hq

/-- The task asks operations of `P` only, and it is followed to its end. -/
def Whole (P : Op → Prop) : Prog Op Ans ε α → Prop
  | .ret _ => True
  | .fail _ => True
  | .cut => False
  | .call o k => P o ∧ ∀ r, Whole P (k r)

theorem Whole.uses {p : Prog Op Ans ε α} (h : Whole P p) : Uses P p := by
  induction p with
  | ret a => exact trivial
  | fail e => exact trivial
  | cut => exact h.elim
  | call o k ih => exact ⟨h.1, fun r => ih r (h.2 r)⟩

theorem Whole.mono {P' : Op → Prop} {p : Prog Op Ans ε α} (h : Whole P p) (hP : ∀ o, P o → P' o) : Whole P' p := by
  induction p with
  | ret a => exact trivial
  | fail e => exact trivial
  | cut => exact h.elim
  | call o k ih => exact ⟨hP o h.1, fun r => ih r (h.2 r)⟩

theorem Whole.handle {p : Prog Op Ans ε α} {f : Except ε α → Prog Op Ans ε' β} (h : Whole P p)
    (hf : ∀ r, Whole P (f r)) : Whole P (p.handle f) := by
  induction p with
  | ret a => exact hf _
  | fail e => exact hf _
  | cut => exact h.elim
  | call o k ih => exact ⟨h.1, fun r => ih r (h.2 r)⟩

theorem Whole.bind {p : Prog Op Ans ε α} {f : α → Prog Op Ans ε β} (h : Whole P p)
    (hf : ∀ a, Whole P (f a)) : Whole P (p.bind f) :=
  h.handle fun r => by
    cases r with
    | ok a => exact hf a
    | error e => exact trivial

theorem Whole.attempt {p : Prog Op Ans ε α} (h : Whole P p) :
    Whole P (p.attempt : Prog Op Ans ε' (Except ε α)) :=
  h.handle fun _ => trivial

theorem Whole.detach {p : Prog Op Ans ε α} (h : Whole P p) : Whole P p.detach :=
  h.handle fun _ => trivial

theorem Whole.ofExcept (x : Except ε α) : Whole P (.ofExcept x : Prog Op Ans ε α) := by
  cases x <;> exact trivial

theorem Whole.ask {o : Op} (h : P o) : Whole P (.ask o : Prog Op Ans ε (Ans o)) :=
  ⟨h, fun _ => trivial⟩

theorem Whole.request {o : Op} {judge : Ans o → Except ε α} (h : P o) :
    Whole P (.request o judge : Prog Op Ans ε α) :=
  ⟨h, fun r => .ofExcept (judge r)⟩

theorem Whole.orFail (x : Option α) (e : ε) : Whole P (.orFail x e : Prog Op Ans ε α) := by
  cases x <;> exact trivial

theorem Whole.ensure (c : Bool) (e : ε) : Whole P (.ensure c e : Prog Op Ans ε Unit) := by
  cases c <;> exact trivial

theorem Whole.ite {c : Prop} [Decidable c] {p q : Prog Op Ans ε α} (hp : Whole P p) (hq : Whole P q) :
    Whole P (if c then p else q) := by
  split
  · exact hp
  · exact hq

end

end Tasks
