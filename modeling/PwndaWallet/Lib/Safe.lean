import PwndaWallet.Lib.Prog

/-!
# A program logic for tasks

`Safe L p Q w`: from the world `w`, whatever the other tasks do between two steps and whatever
is answered, the task `p` asks only what it may and ends with `Q`. The rules follow the
combinators of `Prog`.
-/

namespace Tasks

/-- What a task meets and what it owes. An operation takes two steps, the question and its answer,
and the others may act before each. -/
structure Logic (Op : Type) (Ans : Op → Type) (W : Type) where
  /-- what the others may do to the world -/
  rely : W → W → Prop
  /-- the worlds in which the operation can be asked -/
  may : Op → W → Prop
  /-- what has to hold when it is asked -/
  must : Op → W → Prop
  /-- the answers, and what they do to the world -/
  act : (o : Op) → Ans o → W → W → Prop
  /-- what has to hold of that change -/
  guar : (o : Op) → Ans o → W → W → Prop

variable {Op : Type} {Ans : Op → Type} {W ε ε' α β : Type}

def Safe (L : Logic Op Ans W) : Prog Op Ans ε α → (Except ε α → W → Prop) → W → Prop
  | .ret a, Q, w => Q (.ok a) w
  | .fail e, Q, w => Q (.error e) w
  | .cut, _, _ => True
  | .call o k, Q, w => ∀ w₁, L.rely w w₁ → L.may o w₁ → L.must o w₁ ∧
      ∀ w₂, L.rely w₁ w₂ → ∀ r w₃, L.act o r w₂ w₃ → L.guar o r w₂ w₃ ∧ Safe L (k r) Q w₃

section
variable {L : Logic Op Ans W} {Q : Except ε α → W → Prop} {w : W}

@[simp] theorem safe_ret {a : α} : Safe L (.ret a) Q w ↔ Q (.ok a) w := Iff.rfl

@[simp] theorem safe_fail {e : ε} : Safe L (.fail e) Q w ↔ Q (.error e) w := Iff.rfl

@[simp] theorem safe_cut : Safe L (.cut : Prog Op Ans ε α) Q w ↔ True := Iff.rfl

theorem safe_call {o : Op} {k : Ans o → Prog Op Ans ε α} : Safe L (.call o k) Q w ↔
    ∀ w₁, L.rely w w₁ → L.may o w₁ → L.must o w₁ ∧ ∀ w₂, L.rely w₁ w₂ → ∀ r w₃, L.act o r w₂ w₃ →
      L.guar o r w₂ w₃ ∧ Safe L (k r) Q w₃ := Iff.rfl

end

/-- A postcondition of a success and one of a failure. -/
def OnEnd (E : W → Prop) (P : α → W → Prop) : Except ε α → W → Prop
  | .ok a, w => P a w
  | .error _, w => E w

/-- A postcondition of success only. -/
abbrev OnOk (P : α → W → Prop) : Except ε α → W → Prop := OnEnd (fun _ => True) P

namespace Safe

variable {L : Logic Op Ans W} {Q Q' : Except ε α → W → Prop} {R : Except ε' β → W → Prop} {w : W}

theorem mono {p : Prog Op Ans ε α} (hQ : ∀ r w, Q r w → Q' r w) (h : Safe L p Q w) :
    Safe L p Q' w := by
  induction p generalizing w with
  | ret a => exact hQ _ _ h
  | fail e => exact hQ _ _ h
  | cut => exact trivial
  | call o k ih =>
    intro w₁ h₁ hm
    obtain ⟨hmust, hk⟩ := h w₁ h₁ hm
    refine ⟨hmust, fun w₂ h₂ r w₃ h₃ => ?_⟩
    obtain ⟨hg, hk⟩ := hk w₂ h₂ r w₃ h₃
    exact ⟨hg, ih r hk⟩

theorem handle {p : Prog Op Ans ε α} {f : Except ε α → Prog Op Ans ε' β}
    (h : Safe L p (fun r w => Safe L (f r) R w) w) : Safe L (p.handle f) R w := by
  induction p generalizing w with
  | ret a => exact h
  | fail e => exact h
  | cut => exact trivial
  | call o k ih =>
    intro w₁ h₁ hm
    obtain ⟨hmust, hk⟩ := h w₁ h₁ hm
    refine ⟨hmust, fun w₂ h₂ r w₃ h₃ => ?_⟩
    obtain ⟨hg, hk⟩ := hk w₂ h₂ r w₃ h₃
    exact ⟨hg, ih r hk⟩

/-- The postcondition of `p` in `p >>= f`: its value goes on to `f`, its failure is the end. -/
def Then (L : Logic Op Ans W) (f : α → Prog Op Ans ε β) (R : Except ε β → W → Prop) :
    Except ε α → W → Prop
  | .ok a, w => Safe L (f a) R w
  | .error e, w => R (.error e) w

theorem bind {p : Prog Op Ans ε α} {f : α → Prog Op Ans ε β} {R : Except ε β → W → Prop}
    (h : Safe L p (Then L f R) w) : Safe L (p.bind f) R w :=
  handle (h.mono fun r _ hr => by cases r <;> exact hr)

theorem mapErr {p : Prog Op Ans ε α} {f : ε → ε'} {R : Except ε' α → W → Prop}
    (h : Safe L p (fun r w => R (r.mapError f) w) w) : Safe L (p.mapErr f) R w :=
  handle (h.mono fun r _ hr => by cases r <;> exact hr)

theorem attempt {p : Prog Op Ans ε α} {R : Except ε' (Except ε α) → W → Prop}
    (h : Safe L p (fun r w => R (.ok r) w) w) : Safe L (p.attempt : Prog Op Ans ε' (Except ε α)) R w :=
  handle h

theorem detach {p : Prog Op Ans ε α} (h : Safe L p (fun _ _ => True) w) :
    Safe L p.detach (fun _ _ => True) w :=
  handle h

theorem ask {o : Op} {Q : Except ε (Ans o) → W → Prop}
    (h : ∀ w₁, L.rely w w₁ → L.may o w₁ → L.must o w₁ ∧
      ∀ w₂, L.rely w₁ w₂ → ∀ r w₃, L.act o r w₂ w₃ → L.guar o r w₂ w₃ ∧ Q (.ok r) w₃) :
    Safe L (.ask o) Q w := h

theorem ofExcept {x : Except ε α} (h : Q x w) : Safe L (.ofExcept x) Q w := by
  cases x <;> exact h

theorem orFail {x : Option α} {e : ε} (hs : ∀ a, x = some a → Q (.ok a) w)
    (hn : x = none → Q (.error e) w) : Safe L (.orFail x e) Q w := by
  cases x with
  | some a => exact hs a rfl
  | none => exact hn rfl

theorem ensure {c : Bool} {e : ε} {Q : Except ε Unit → W → Prop} (ht : c = true → Q (.ok ()) w)
    (hf : c = false → Q (.error e) w) : Safe L (.ensure c e) Q w := by
  cases c with
  | true => exact ht rfl
  | false => exact hf rfl

/-- One step of a `do` block, which fails as the whole block does. -/
theorem bind_end {p : Prog Op Ans ε α} {f : α → Prog Op Ans ε β} {E : W → Prop} {P : α → W → Prop}
    {R : β → W → Prop} (hp : Safe L p (OnEnd E P) w)
    (hf : ∀ a w, P a w → Safe L (f a) (OnEnd E R) w) : Safe L (p.bind f) (OnEnd E R) w :=
  bind (hp.mono fun r w hr => by
    cases r with
    | ok a => exact hf a w hr
    | error e => exact hr)

/-- One step of a `do` block that owes nothing when it fails. -/
theorem bind_ok {p : Prog Op Ans ε α} {f : α → Prog Op Ans ε β} {P : α → W → Prop}
    {R : β → W → Prop} (hp : Safe L p (OnOk P) w)
    (hf : ∀ a w, P a w → Safe L (f a) (OnOk R) w) : Safe L (p.bind f) (OnOk R) w :=
  bind_end hp hf

theorem mapErr_end {p : Prog Op Ans ε α} {f : ε → ε'} {E : W → Prop} {P : α → W → Prop}
    (h : Safe L p (OnEnd E P) w) : Safe L (p.mapErr f) (OnEnd E P) w :=
  mapErr (h.mono fun r _ hr => by cases r <;> exact hr)

theorem mapErr_ok {p : Prog Op Ans ε α} {f : ε → ε'} {P : α → W → Prop} (h : Safe L p (OnOk P) w) :
    Safe L (p.mapErr f) (OnOk P) w :=
  mapErr_end h

theorem ret_ok {a : α} {P : α → W → Prop} (h : P a w) :
    Safe L (.ret a : Prog Op Ans ε α) (OnOk P) w := h

theorem fail_ok {e : ε} {P : α → W → Prop} : Safe L (.fail e : Prog Op Ans ε α) (OnOk P) w := trivial

section
variable {R : Except ε β → W → Prop}

theorem ensure_bind {c : Bool} {e : ε} {k : Unit → Prog Op Ans ε β} (hf : c = false → R (.error e) w)
    (ht : c = true → Safe L (k ()) R w) : Safe L ((Prog.ensure c e).bind k) R w :=
  bind (ensure ht hf)

theorem ofExcept_bind {x : Except ε α} {k : α → Prog Op Ans ε β}
    (he : ∀ e, x = .error e → R (.error e) w) (hk : ∀ a, x = .ok a → Safe L (k a) R w) :
    Safe L ((Prog.ofExcept x).bind k) R w := by
  cases x with
  | ok a => exact hk a rfl
  | error e => exact he e rfl

theorem orFail_bind {x : Option α} {e : ε} {k : α → Prog Op Ans ε β}
    (hn : x = none → R (.error e) w) (hk : ∀ a, x = some a → Safe L (k a) R w) :
    Safe L ((Prog.orFail x e).bind k) R w := by
  cases x with
  | some a => exact hk a rfl
  | none => exact hn rfl

end

theorem ite {c : Prop} [Decidable c] {p q : Prog Op Ans ε α} (ht : c → Safe L p Q w)
    (hf : ¬ c → Safe L q Q w) : Safe L (if c then p else q) Q w := by
  split
  · exact ht ‹_›
  · exact hf ‹_›

end Safe

-- a goal `Safe L p Q w` is taken apart by the rules only: evaluating `p` is never cheap
attribute [irreducible] Safe

end Tasks
