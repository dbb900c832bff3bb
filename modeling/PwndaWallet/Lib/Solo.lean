import PwndaWallet.Lib.Safe

/-!
# Tasks that run alone

A task that nobody interferes with, in a world that answers it in one of several ways. `Exec` is
what can have happened when it ends, or when a crash cuts it off.
-/

namespace Tasks

variable {Op : Type} {Ans : Op → Type} {W ε ε' α β : Type}

/-- What an operation can be answered, and what that does to the world. -/
abbrev Does (Op : Type) (Ans : Op → Type) (W : Type) := (o : Op) → Ans o → W → W → Prop

/-- `Exec does p w tr q w'`: from `w`, after the answers `tr`, what is left of `p` is `q`, in `w'`. -/
inductive Exec (does : Does Op Ans W) (p : Prog Op Ans ε α) (w : W) :
    List (Ev Ans) → Prog Op Ans ε α → W → Prop
  | refl : Exec does p w [] p w
  | step {tr : List (Ev Ans)} {o : Op} {k : Ans o → Prog Op Ans ε α} {r : Ans o} {w₁ w₂ : W} :
      Exec does p w tr (.call o k) w₁ → does o r w₁ w₂ → Exec does p w (tr ++ [⟨o, r⟩]) (k r) w₂

section
variable {does : Does Op Ans W} {w w₁ w' : W} {tr : List (Ev Ans)}

theorem Exec.cons {o : Op} {k : Ans o → Prog Op Ans ε α} {q : Prog Op Ans ε α} {r : Ans o}
    (hd : does o r w w₁) (h : Exec does (k r) w₁ tr q w') : Exec does (.call o k) w (⟨o, r⟩ :: tr) q w' := by
  induction h with
  | refl => exact .step .refl hd
  | step _ hd' ih => exact ih.step hd'

/-- `let a ← request o judge`, and on -/
theorem Exec.request {o : Op} {judge : Ans o → Except ε α} {k : α → Prog Op Ans ε β}
    {q : Prog Op Ans ε β} {r : Ans o} {a : α} (hd : does o r w w₁) (hj : judge r = .ok a)
    (h : Exec does (k a) w₁ tr q w') :
    Exec does ((Prog.request o judge).bind k) w (⟨o, r⟩ :: tr) q w' := by
  refine .cons hd ?_
  show Exec does ((Prog.ofExcept (judge r)).bind k) w₁ tr q w'
  rw [hj]
  exact h

/-- A task that has returned goes on with what comes next. -/
theorem Exec.bind {p : Prog Op Ans ε α} {k : α → Prog Op Ans ε β} {a : α}
    (h : Exec does p w tr (.ret a) w') : Exec does (p.bind k) w tr (k a) w' := by
  suffices ∀ q tr w', Exec does p w tr q w' → Exec does (p.bind k) w tr (q.bind k) w' from this _ _ _ h
  intro q tr w' hq
  clear h
  induction hq with
  | refl => exact .refl
  | step _ hd ih => exact .step ih hd

end

/-- A task that is cut off after one of its answers. -/
theorem exec_upto {p q : Prog Op Ans ε α} {does : Does Op Ans W} {w w' : W} {pre post : List (Ev Ans)}
    {e : Ev Ans} (h : Exec does p w (pre ++ e :: post) q w') :
    ∃ q₁ w₁, Exec does p w (pre ++ [e]) q₁ w₁ := by
  generalize htr : pre ++ e :: post = tr at h
  induction h generalizing post with
  | refl => exact absurd htr (by simp)
  | @step tr o k r w₁ w₂ h hd ih =>
    rcases List.eq_nil_or_concat post with rfl | ⟨post', e', rfl⟩
    · exact ⟨_, _, htr ▸ h.step hd⟩
    · rw [List.concat_eq_append, ← List.cons_append, ← List.append_assoc] at htr
      exact ih (List.append_inj' htr rfl).1

/-- At most `n` answers of a world that can be computed. -/
def Prog.drive {S : Type} (answer : S → (o : Op) → Option (Ans o × S)) :
    Nat → Prog Op Ans ε α → S → List (Ev Ans) × Prog Op Ans ε α × S
  | n + 1, .call o k, s =>
    match answer s o with
    | some (r, s') =>
      let (tr, rest) := drive answer n (k r) s'
      (⟨o, r⟩ :: tr, rest)
    | none => ([], .call o k, s)
  | _, p, s => ([], p, s)

theorem exec_drive {S : Type} {answer : S → (o : Op) → Option (Ans o × S)} {view : S → W}
    (hans : ∀ s o r s', answer s o = some (r, s') → does o r (view s) (view s')) (n : Nat)
    (p : Prog Op Ans ε α) (s : S) : Exec does p (view s) (p.drive answer n s).1
      (p.drive answer n s).2.1 (view (p.drive answer n s).2.2) := by
  induction n generalizing p s with
  | zero => cases p <;> exact .refl
  | succ n ih =>
    cases p with
    | ret a => exact .refl
    | fail e => exact .refl
    | cut => exact .refl
    | call o k =>
      unfold Prog.drive
      cases hr : answer s o with
      | none => exact .refl
      | some r =>
        obtain ⟨r, s'⟩ := r
        exact .cons (hans s o r s' hr) (ih (k r) s')

/-- How a task has ended, if it has. -/
def Prog.ended : Prog Op Ans ε α → Option (Except ε α)
  | .ret a => some (.ok a)
  | .fail e => some (.error e)
  | _ => none

/-- What a task has returned, if it has. -/
def Prog.value : Prog Op Ans ε α → Option α
  | .ret a => some a
  | _ => none

theorem eq_ret_of_value {p : Prog Op Ans ε α} {a : α} (h : p.value = some a) : p = .ret a := by
  cases p with
  | ret b => rw [Option.some.inj h]
  | fail e => cases h
  | cut => cases h
  | call o k => cases h

theorem ended_of_value {p : Prog Op Ans ε α} (h : p.value.isSome = true) :
    ∃ a, p.ended = some (.ok a) := by
  obtain ⟨a, ha⟩ := Option.isSome_iff_exists.1 h
  rw [eq_ret_of_value ha]
  exact ⟨a, rfl⟩

/-- The logic of a task that runs alone: its world goes with the answers so far, and `I` has to hold
after every one of them. -/
def Logic.solo (does : Does Op Ans W) (I : W → List (Ev Ans) → Prop) :
    Logic Op Ans (W × List (Ev Ans)) where
  rely w w' := w' = w
  may _ _ := True
  must _ _ := True
  act o r w w' := does o r w.1 w'.1 ∧ w'.2 = w.2 ++ [⟨o, r⟩]
  guar _ _ _ w' := I w'.1 w'.2

section
variable {does : Does Op Ans W} {I : W → List (Ev Ans) → Prop} {w : W} {tr : List (Ev Ans)}

theorem safe_call_solo {o : Op} {k : Ans o → Prog Op Ans ε α}
    {Q : Except ε α → W × List (Ev Ans) → Prop} : Safe (.solo does I) (.call o k) Q (w, tr) ↔
      ∀ r w', does o r w w' → I w' (tr ++ [⟨o, r⟩]) ∧ Safe (.solo does I) (k r) Q (w', tr ++ [⟨o, r⟩]) := by
  rw [safe_call]
  constructor
  · intro h r w' hd
    exact (h _ rfl trivial).2 _ rfl r (w', _) ⟨hd, rfl⟩
  · rintro h _ rfl _
    refine ⟨trivial, ?_⟩
    rintro _ rfl r ⟨w', tr'⟩ ⟨hd, rfl⟩
    exact h r w' hd

/-- `let a ← request o judge` -/
theorem safe_request_solo {o : Op} {judge : Ans o → Except ε α} {k : α → Prog Op Ans ε β}
    {R : Except ε β → W × List (Ev Ans) → Prop}
    (he : ∀ r w' e, does o r w w' → judge r = .error e → I w' (tr ++ [⟨o, r⟩]) ∧ R (.error e) (w', tr ++ [⟨o, r⟩]))
    (hk : ∀ r w' a, does o r w w' → judge r = .ok a →
      I w' (tr ++ [⟨o, r⟩]) ∧ Safe (.solo does I) (k a) R (w', tr ++ [⟨o, r⟩])) :
    Safe (.solo does I) ((Prog.request o judge).bind k) R (w, tr) := by
  refine safe_call_solo.2 fun r w' hd => ?_
  show _ ∧ Safe _ ((Prog.ofExcept (judge r)).bind k) R _
  cases hj : judge r with
  | ok a => exact hk r w' a hd hj
  | error e => exact ⟨(he r w' e hd hj).1, safe_fail.2 (he r w' e hd hj).2⟩

/-- `let a ← ask o` -/
theorem safe_ask_solo {o : Op} {k : Ans o → Prog Op Ans ε β}
    {R : Except ε β → W × List (Ev Ans) → Prop}
    (hk : ∀ r w', does o r w w' →
      I w' (tr ++ [⟨o, r⟩]) ∧ Safe (.solo does I) (k r) R (w', tr ++ [⟨o, r⟩])) :
    Safe (.solo does I) ((Prog.ask o).bind k) R (w, tr) := safe_call_solo.2 hk

theorem safe_solo_mono {I' : W → List (Ev Ans) → Prop} {p : Prog Op Ans ε α}
    {Q : Except ε α → W × List (Ev Ans) → Prop} (hI : ∀ w tr, I w tr → I' w tr)
    (h : Safe (.solo does I) p Q (w, tr)) : Safe (.solo does I') p Q (w, tr) := by
  induction p generalizing w tr with
  | ret a => exact safe_ret.2 (safe_ret.1 h)
  | fail e => exact safe_fail.2 (safe_fail.1 h)
  | cut => exact safe_cut.2 trivial
  | call o k ih =>
    refine safe_call_solo.2 fun r w' hd => ?_
    obtain ⟨hi, hk⟩ := safe_call_solo.1 h r w' hd
    exact ⟨hI _ _ hi, ih r hk⟩

/-- The answers so far stay. -/
theorem safe_solo_grows {p : Prog Op Ans ε α} {Q : Except ε α → W × List (Ev Ans) → Prop}
    (h : Safe (.solo does I) p Q (w, tr)) :
    Safe (.solo does I) p (fun r w' => Q r w' ∧ tr <+: w'.2) (w, tr) := by
  suffices ∀ tr', tr <+: tr' → Safe (.solo does I) p Q (w, tr') →
      Safe (.solo does I) p (fun r w' => Q r w' ∧ tr <+: w'.2) (w, tr') from this tr List.prefix_rfl h
  clear h
  intro tr' hpre h
  induction p generalizing w tr' with
  | ret a => exact safe_ret.2 ⟨safe_ret.1 h, hpre⟩
  | fail e => exact safe_fail.2 ⟨safe_fail.1 h, hpre⟩
  | cut => exact safe_cut.2 trivial
  | call o k ih =>
    refine safe_call_solo.2 fun r w' hd => ?_
    obtain ⟨hi, hk⟩ := safe_call_solo.1 h r w' hd
    exact ⟨hi, ih r _ (hpre.trans (List.prefix_append _ _)) hk⟩

theorem safe_solo_grows_end {p : Prog Op Ans ε α} {E : W × List (Ev Ans) → Prop}
    {P : α → W × List (Ev Ans) → Prop} (h : Safe (.solo does I) p (OnEnd E P) (w, tr)) :
    Safe (.solo does I) p (OnEnd E fun a w' => P a w' ∧ tr <+: w'.2) (w, tr) := by
  refine (safe_solo_grows h).mono fun r w' hr => ?_
  cases r with
  | ok a => exact hr
  | error e => exact hr.1

/-- A task whose operations leave the world as it is. -/
theorem safe_solo_of_uses {P : Op → Prop} {p : Prog Op Ans ε α} (hp : Uses P p)
    (hw : ∀ o r w₁ w', P o → does o r w₁ w' → w' = w₁)
    (hI : ∀ o r tr', P o → I w (tr' ++ [⟨o, r⟩])) :
    Safe (.solo does I) p (fun _ w' => w'.1 = w) (w, tr) := by
  induction p generalizing tr with
  | ret a => exact safe_ret.2 rfl
  | fail e => exact safe_fail.2 rfl
  | cut => exact safe_cut.2 trivial
  | call o k ih =>
    refine safe_call_solo.2 fun r w' hd => ?_
    obtain rfl := hw o r w w' hp.1 hd
    exact ⟨hI o r tr hp.1, ih r (hp.2 r)⟩

/-- A task in two worlds, of which one is a view of the other. -/
theorem safe_solo_view {V : Type} {does' : Does Op Ans V} {I' : V → List (Ev Ans) → Prop} {p : Prog Op Ans ε α}
    {Q : Except ε α → W × List (Ev Ans) → Prop} {Q' : Except ε α → V × List (Ev Ans) → Prop} (f : W → V)
    (hf : ∀ o r w w', does o r w w' → does' o r (f w) (f w')) (h' : Safe (.solo does' I') p Q' (f w, tr))
    (h : Safe (.solo does I) p Q (w, tr)) :
    Safe (.solo does I) p (fun r w' => Q r w' ∧ Q' r (f w'.1, w'.2)) (w, tr) := by
  induction p generalizing w tr with
  | ret a => exact safe_ret.2 ⟨safe_ret.1 h, safe_ret.1 h'⟩
  | fail e => exact safe_fail.2 ⟨safe_fail.1 h, safe_fail.1 h'⟩
  | cut => exact safe_cut.2 trivial
  | call o k ih =>
    refine safe_call_solo.2 fun r w' hd => ?_
    obtain ⟨hi, hk⟩ := safe_call_solo.1 h r w' hd
    exact ⟨hi, ih r (safe_call_solo.1 h' r _ (hf o r w w' hd)).2 hk⟩

/-- What a task that is safe can have done, wherever it is cut off. -/
theorem safe_exec {p q : Prog Op Ans ε α} {Q : Except ε α → W × List (Ev Ans) → Prop} {w' : W}
    (hs : Safe (.solo does I) p Q (w, [])) (hI : I w []) (he : Exec does p w tr q w') :
    I w' tr ∧ Safe (.solo does I) q Q (w', tr) := by
  induction he with
  | refl => exact ⟨hI, hs⟩
  | step _ hd ih => exact safe_call_solo.1 ih.2 _ _ hd

theorem ended_exec {p q : Prog Op Ans ε α} {Q : Except ε α → W × List (Ev Ans) → Prop} {w' : W}
    {r : Except ε α} (hs : Safe (.solo does I) p Q (w, [])) (hI : I w [])
    (he : Exec does p w tr q w') (hr : q.ended = some r) : Q r (w', tr) := by
  have hq := (safe_exec hs hI he).2
  cases q with
  | ret a => obtain rfl := Option.some.inj hr; exact safe_ret.1 hq
  | fail e => obtain rfl := Option.some.inj hr; exact safe_fail.1 hq
  | cut => cases hr
  | call o k => cases hr

end

end Tasks
