import PwndaWallet.Lib.Sys

/-!
# Monitors

A monitor follows a task from the outside: what it may ask next depends on what it was answered so
far, and on nothing else. A task that a monitor admits can be followed in any world: what the
monitor's state says of the world is then all that a proof about the world has to look at
(`goes_of_admits`).
-/

namespace Tasks

structure Monitor (Op : Type) (Ans : Op → Type) where
  State : Type
  allows : State → Op → Prop
  next : State → (o : Op) → Ans o → State

variable {Op : Type} {Ans : Op → Type} {W Out Entry ε ε' α β : Type}

/-- The logic whose world is the state of the monitor. -/
def Monitor.logic (m : Monitor Op Ans) : Logic Op Ans m.State where
  rely s s' := s' = s
  may _ _ := True
  must o s := m.allows s o
  act o r s s' := s' = m.next s o r
  guar _ _ _ _ := True

/-- From the state `s` the task asks only what is allowed, and ends with `Q`. -/
abbrev Admits (m : Monitor Op Ans) (p : Prog Op Ans ε α) (Q : Except ε α → m.State → Prop)
    (s : m.State) : Prop :=
  Safe m.logic p Q s

section
variable {m : Monitor Op Ans} {s : m.State}

theorem admits_call {o : Op} {k : Ans o → Prog Op Ans ε α} {Q : Except ε α → m.State → Prop} :
    Admits m (.call o k) Q s ↔ m.allows s o ∧ ∀ r, Admits m (k r) Q (m.next s o r) := by
  unfold Admits
  rw [safe_call]
  constructor
  · intro hs
    obtain ⟨ha, hk⟩ := hs s rfl trivial
    exact ⟨ha, fun r => (hk s rfl r _ rfl).2⟩
  · rintro ⟨ha, hk⟩ _ rfl _
    refine ⟨ha, ?_⟩
    rintro _ rfl r _ rfl
    exact ⟨trivial, hk r⟩

theorem admits_request {o : Op} {judge : Ans o → Except ε α} {Q : Except ε α → m.State → Prop}
    (ha : m.allows s o) (hk : ∀ r, Q (judge r) (m.next s o r)) : Admits m (.request o judge) Q s :=
  admits_call.2 ⟨ha, fun r => Safe.ofExcept (hk r)⟩

variable {o : Op} {R : Except ε' β → m.State → Prop}

/-- `let a ← ask o` -/
theorem admits_ask {k : Ans o → Prog Op Ans ε' β} (ha : m.allows s o)
    (hk : ∀ r, Admits m (k r) R (m.next s o r)) : Admits m ((Prog.ask o).bind k) R s :=
  admits_call.2 ⟨ha, hk⟩

/-- `let a ← (request o judge).mapErr f` -/
theorem admits_try {judge : Ans o → Except ε α} {f : ε → ε'} {k : α → Prog Op Ans ε' β}
    (ha : m.allows s o) (he : ∀ r e, judge r = .error e → R (.error (f e)) (m.next s o r))
    (hk : ∀ r a, judge r = .ok a → Admits m (k a) R (m.next s o r)) :
    Admits m (((Prog.request o judge).mapErr f).bind k) R s := by
  refine admits_call.2 ⟨ha, fun r => ?_⟩
  show Safe _ (((Prog.ofExcept (judge r)).mapErr f).bind k) R _
  cases hj : judge r with
  | ok a => exact hk r a hj
  | error e => exact safe_fail.2 (he r e hj)

/-- `let a ← (request o judge).attempt` -/
theorem admits_attempt {judge : Ans o → Except ε α} {k : Except ε α → Prog Op Ans ε' β}
    (ha : m.allows s o) (hk : ∀ r, Admits m (k (judge r)) R (m.next s o r)) :
    Admits m ((Prog.request o judge).attempt.bind k) R s := by
  refine admits_call.2 ⟨ha, fun r => ?_⟩
  have hr := hk r
  show Safe _ ((Prog.ofExcept (judge r)).attempt.bind k) R _
  cases hj : judge r with
  | ok a => rw [hj] at hr; exact hr
  | error e => rw [hj] at hr; exact hr

end

/-- The state after a history. -/
def Monitor.after (m : Monitor Op Ans) (s : m.State) (tr : List (Ev Ans)) : m.State :=
  tr.foldl (fun s e => m.next s e.op e.ans) s

theorem Monitor.after_snoc (m : Monitor Op Ans) (s : m.State) (tr : List (Ev Ans)) (o : Op) (r : Ans o) :
    m.after s (tr ++ [⟨o, r⟩]) = m.next (m.after s tr) o r := by
  simp [Monitor.after]

theorem admits_of_run {m : Monitor Op Ans} {s : m.State} {p q : Prog Op Ans ε α} {Q : Except ε α → m.State → Prop}
    {tr : List (Ev Ans)} (hs : Admits m p Q s) (hr : p.Run tr q) : Admits m q Q (m.after s tr) := by
  induction hr with
  | refl => exact hs
  | step r _ ih =>
    rw [Monitor.after_snoc]
    exact (admits_call.1 ih).2 r

/-- A task that asks only what is allowed and changes nothing leaves the state as it is. -/
theorem admits_of_uses {m : Monitor Op Ans} {P : Op → Prop} {s : m.State} {p : Prog Op Ans ε α}
    (hp : Uses P p) (h : ∀ o, P o → m.allows s o ∧ ∀ r, m.next s o r = s) :
    Admits m p (fun _ s' => s' = s) s := by
  induction p with
  | ret a => exact safe_ret.2 rfl
  | fail e => exact safe_fail.2 rfl
  | cut => exact safe_cut.2 trivial
  | call o k ih =>
    obtain ⟨ha, hn⟩ := h o hp.1
    refine admits_call.2 ⟨ha, fun r => ?_⟩
    rw [hn r]
    exact ih r (hp.2 r)

/-- A task that keeps to what a monitor allows keeps to what any logic wants of it, if the monitor's
state says enough of the world. -/
theorem safe_of_admits {m : Monitor Op Ans} {L : Logic Op Ans W} {I : m.State → W → Prop}
    (hrely : ∀ s w w', I s w → L.rely w w' → I s w')
    (hask : ∀ s o w, I s w → m.allows s o → L.may o w → L.must o w)
    (hanswer : ∀ s o r w w', I s w → m.allows s o → L.act o r w w' →
      L.guar o r w w' ∧ I (m.next s o r) w')
    {p : Prog Op Ans ε α} {s : m.State} {w : W} (hp : Admits m p (fun _ _ => True) s) (hI : I s w) :
    Safe L p (fun _ _ => True) w := by
  induction p generalizing s w with
  | ret a => exact safe_ret.2 trivial
  | fail e => exact safe_fail.2 trivial
  | cut => exact safe_cut.2 trivial
  | call o k ih =>
    obtain ⟨ha, hk⟩ := admits_call.1 hp
    refine safe_call.2 fun w₁ h₁ hmay => ?_
    have hI₁ := hrely _ _ _ hI h₁
    refine ⟨hask _ _ _ hI₁ ha hmay, fun w₂ h₂ r w₃ hact => ?_⟩
    obtain ⟨hg, hI₃⟩ := hanswer _ _ _ _ _ (hrely _ _ _ hI₁ h₂) ha hact
    exact ⟨hg, ih r (hk r) hI₃⟩

/-- The same for a task of a system. -/
theorem Method.goes_of_admits {S : Sys Op Ans W Out Entry} {law : Law Op Ans W Entry}
    {M : Method S law} {i : Nat} {e : Entry} {m : Monitor Op Ans} {I : m.State → W → Prop}
    (hrely : ∀ s w w', I s w → M.inv w' → M.rely i e w w' → I s w')
    (hask : ∀ s o w, I s w → M.inv w → m.allows s o → law.ask i e o w → M.must i e o w)
    (hanswer : ∀ s o out r w w', I s w → M.inv w → m.allows s o → S.respond i o out w = (r, w') →
      law.answer i e o r w w' →
      M.inv w' ∧ (∀ j e', j ≠ i → ¬ M.apart e e' → M.rely j e' w w') ∧ M.guar i e o r w w' ∧
        I (m.next s o r) w')
    {p : Prog Op Ans Unit Unit} {s : m.State} {w : W} (hp : Admits m p (fun _ _ => True) s)
    (hI : I s w) (hi : M.inv w) : M.Goes i e p w := by
  refine safe_of_admits (I := fun s w => I s w ∧ M.inv w) ?_ ?_ ?_ hp ⟨hI, hi⟩
  · intro s w w' h hr
    exact ⟨hrely s w w' h.1 hr.1 hr.2, hr.1⟩
  · intro s o w h ha hm
    exact hask s o w h.1 h.2 ha hm
  · intro s o r w w' h ha hact
    obtain ⟨_, ⟨out, hr⟩, hl⟩ := hact
    obtain ⟨h₁, h₂, h₃, h₄⟩ := hanswer s o out r w w' h.1 h.2 ha hr hl
    exact ⟨⟨h₁, h₂, h₃⟩, h₄, h₁⟩

end Tasks
