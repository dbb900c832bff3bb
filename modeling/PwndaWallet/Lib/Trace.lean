import PwndaWallet.Lib.Monitor

/-!
# Histories

The logic of a task that runs alone: its world is the list of answers it has had. That one event
came after another is stated with sublists.
-/

namespace Tasks

section
variable {Op : Type} {Ans : Op → Type}

theorem sublist_snoc {l h : List (Ev Ans)} {e : Ev Ans} (hl : l.Sublist h) :
    (l ++ [e]).Sublist (h ++ [e]) := hl.append (.refl _)

/-- Every operation of the history is one of `P`. -/
def Only (P : Op → Prop) (h : List (Ev Ans)) : Prop := ∀ e ∈ h, P e.op

theorem only_nil (P : Op → Prop) : Only P ([] : List (Ev Ans)) := by simp [Only]

@[simp] theorem only_append {P : Op → Prop} {h h' : List (Ev Ans)} :
    Only P (h ++ h') ↔ Only P h ∧ Only P h' := by
  simp only [Only, List.mem_append, or_imp, forall_and]

@[simp] theorem only_singleton {P : Op → Prop} {e : Ev Ans} : Only P [e] ↔ P e.op := by
  simp [Only]

theorem Only.mono {P P' : Op → Prop} {h : List (Ev Ans)} (hh : Only P h) (hP : ∀ o, P o → P' o) :
    Only P' h := fun e he => hP _ (hh e he)

/-- The later history is the earlier one and operations of `P`. -/
def Ext (P : Op → Prop) (h h' : List (Ev Ans)) : Prop := ∃ mid, h' = h ++ mid ∧ Only P mid

theorem Ext.refl (P : Op → Prop) (h : List (Ev Ans)) : Ext P h h := ⟨[], by simp, only_nil P⟩

theorem Ext.snoc {P : Op → Prop} {h h' : List (Ev Ans)} (he : Ext P h h') {o : Op} {r : Ans o}
    (ho : P o) : Ext P h (h' ++ [⟨o, r⟩]) := by
  obtain ⟨mid, rfl, hm⟩ := he
  exact ⟨mid ++ [⟨o, r⟩], by simp, by simp [hm, ho]⟩

theorem Ext.trans {P : Op → Prop} {h h' h'' : List (Ev Ans)} (h₁ : Ext P h h') (h₂ : Ext P h' h'') :
    Ext P h h'' := by
  obtain ⟨m₁, rfl, h₁⟩ := h₁
  obtain ⟨m₂, rfl, h₂⟩ := h₂
  exact ⟨m₁ ++ m₂, by simp, by simp [h₁, h₂]⟩

theorem Ext.mono {P P' : Op → Prop} {h h' : List (Ev Ans)} (he : Ext P h h') (hP : ∀ o, P o → P' o) :
    Ext P' h h' := by
  obtain ⟨m, rfl, hm⟩ := he
  exact ⟨m, rfl, hm.mono hP⟩

theorem Ext.sublist {l : List (Ev Ans)} {P : Op → Prop} {h h' : List (Ev Ans)} (he : Ext P h h')
    (hl : l.Sublist h) : l.Sublist h' := by
  obtain ⟨m, rfl, _⟩ := he
  exact List.sublist_append_of_sublist_left hl

theorem Only.ext {P : Op → Prop} {h h' : List (Ev Ans)} (hh : Only P h) (he : Ext P h h') :
    Only P h' := by
  obtain ⟨m, rfl, hm⟩ := he
  exact only_append.2 ⟨hh, hm⟩

/-- The last answer is to an operation of `P`. -/
def LastOf (P : Op → Prop) (h : List (Ev Ans)) : Prop := ∃ pre e, h = pre ++ [e] ∧ P e.op

/-! ## Histories with times -/

/-- The time of the last answer, or the start. -/
def moment (start : Nat) (h : List (Ev Ans × Nat)) : Nat := (h.map (·.2)).getLastD start

/-- From `start` on, time does not go back. -/
def Timed (start : Nat) (h : List (Ev Ans × Nat)) : Prop := (start :: h.map (·.2)).Pairwise (· ≤ ·)

theorem le_moment {start : Nat} {h : List (Ev Ans × Nat)} (ht : Timed start h) {e : Ev Ans × Nat}
    (he : e ∈ h) : e.2 ≤ moment start h := by
  rcases List.eq_nil_or_concat h with rfl | ⟨pre, last, rfl⟩
  · simp at he
  · rw [List.concat_eq_append] at he ht ⊢
    have hl : moment start (pre ++ [last]) = last.2 := by simp [moment]
    rw [hl]
    rcases List.mem_append.1 he with he | he
    · simp only [Timed, List.map_append, ← List.cons_append] at ht
      exact (List.pairwise_append.1 ht).2.2 _ (List.mem_cons_of_mem _ (List.mem_map_of_mem he)) _
        (by simp)
    · obtain rfl := List.mem_singleton.1 he
      exact Nat.le_refl _

/-- What is asked right after an answer of `P` is asked before the deadline if and only if all
answers of `P` came before it. -/
theorem moment_lt_iff {P : Op → Prop} {start deadline : Nat} {h : List (Ev Ans × Nat)}
    (ht : Timed start h) (hl : LastOf P (h.map (·.1))) :
    moment start h < deadline ↔ ∀ e ∈ h, P e.1.op → e.2 < deadline := by
  constructor
  · intro hm e he _
    exact Nat.lt_of_le_of_lt (le_moment ht he) hm
  · intro hall
    obtain ⟨pre, e, hh, he⟩ := hl
    obtain ⟨pre', last, rfl, rfl, hlast⟩ := List.map_eq_append_iff.1 hh
    obtain ⟨e', rfl, rfl⟩ := List.map_eq_singleton_iff.1 hlast
    have hm : moment start (pre' ++ [e']) = e'.2 := by simp [moment]
    rw [hm]
    exact hall e' (by simp) he

/-! ## The logic of histories -/

/-- The monitor that remembers everything. -/
def Monitor.hist (must : Op → List (Ev Ans) → Prop) : Monitor Op Ans where
  State := List (Ev Ans)
  allows h o := must o h
  next h o r := h ++ [⟨o, r⟩]

/-- A task alone, which must not ask `o` after `h` unless `must o h`. -/
abbrev Logic.hist (must : Op → List (Ev Ans) → Prop) : Logic Op Ans (List (Ev Ans)) :=
  (Monitor.hist must).logic

variable {must : Op → List (Ev Ans) → Prop} {ε ε' α β : Type}

theorem safe_call_hist {o : Op} {k : Ans o → Prog Op Ans ε α} {Q : Except ε α → List (Ev Ans) → Prop}
    {h : List (Ev Ans)} : Safe (.hist must) (.call o k) Q h ↔
      must o h ∧ ∀ r, Safe (.hist must) (k r) Q (h ++ [⟨o, r⟩]) := admits_call

section
variable {o : Op} {R : Except ε' β → List (Ev Ans) → Prop} {h : List (Ev Ans)}

/-- `let a ← ask o` -/
theorem safe_ask_hist {k : Ans o → Prog Op Ans ε' β} (hm : must o h)
    (hk : ∀ r, Safe (.hist must) (k r) R (h ++ [⟨o, r⟩])) :
    Safe (.hist must) ((Prog.ask o).bind k) R h := admits_ask hm hk

/-- `let a ← (request o judge).mapErr f`, where nothing is asked of an error -/
theorem safe_try_hist {judge : Ans o → Except ε α} {f : ε → ε'} {k : α → Prog Op Ans ε' β}
    (hm : must o h) (he : ∀ e h', R (.error e) h')
    (hk : ∀ r a, judge r = .ok a → Safe (.hist must) (k a) R (h ++ [⟨o, r⟩])) :
    Safe (.hist must) (((Prog.request o judge).mapErr f).bind k) R h :=
  admits_try hm (fun _ e _ => he (f e) _) hk

/-- `let a ← (request o judge).attempt` -/
theorem safe_attempt_hist {judge : Ans o → Except ε α} {k : Except ε α → Prog Op Ans ε' β}
    (hm : must o h) (hk : ∀ r, Safe (.hist must) (k (judge r)) R (h ++ [⟨o, r⟩])) :
    Safe (.hist must) ((Prog.request o judge).attempt.bind k) R h := admits_attempt hm hk

end

theorem safe_request_hist {o : Op} {judge : Ans o → Except ε α}
    {Q : Except ε α → List (Ev Ans) → Prop} {h : List (Ev Ans)} (hm : must o h)
    (hk : ∀ r, Q (judge r) (h ++ [⟨o, r⟩])) : Safe (.hist must) (.request o judge) Q h :=
  admits_request hm hk

/-- `let a ← request o judge`, where nothing is asked of an error -/
theorem safe_await_hist {o : Op} {judge : Ans o → Except ε α} {k : α → Prog Op Ans ε β}
    {R : β → List (Ev Ans) → Prop} {h : List (Ev Ans)} (hm : must o h)
    (hk : ∀ r a, judge r = .ok a → Safe (.hist must) (k a) (OnOk R) (h ++ [⟨o, r⟩])) :
    Safe (.hist must) ((Prog.request o judge).bind k) (OnOk R) h := by
  refine Safe.bind (safe_request_hist hm fun r => ?_)
  cases hj : judge r with
  | ok a => exact hk r a hj
  | error e => exact trivial

/-- `let a ← request o judge` -/
theorem safe_next_hist {o : Op} {judge : Ans o → Except ε α} {k : α → Prog Op Ans ε β}
    {R : Except ε β → List (Ev Ans) → Prop} {h : List (Ev Ans)} (hm : must o h)
    (he : ∀ r e, judge r = .error e → R (.error e) (h ++ [⟨o, r⟩]))
    (hk : ∀ r a, judge r = .ok a → Safe (.hist must) (k a) R (h ++ [⟨o, r⟩])) :
    Safe (.hist must) ((Prog.request o judge).bind k) R h := by
  refine Safe.bind (safe_request_hist hm fun r => ?_)
  cases hj : judge r with
  | ok a => exact hk r a hj
  | error e => exact he r e hj

theorem safe_of_run {p q : Prog Op Ans ε α} {Q : Except ε α → List (Ev Ans) → Prop}
    {h tr : List (Ev Ans)} (hs : Safe (.hist must) p Q h) (hr : p.Run tr q) :
    Safe (.hist must) q Q (h ++ tr) := by
  induction hr with
  | refl => simpa using hs
  | step r _ ih =>
    rw [← List.append_assoc]
    exact (safe_call_hist.1 ih).2 r

/-- Every event of a run was asked where it could be. -/
theorem must_of_mem {p q : Prog Op Ans ε α} {Q : Except ε α → List (Ev Ans) → Prop}
    {tr pre post : List (Ev Ans)} {e : Ev Ans} (hs : Safe (.hist must) p Q []) (hr : p.Run tr q)
    (he : tr = pre ++ e :: post) : must e.op pre := by
  induction hr generalizing post with
  | refl => simp at he
  | @step tr o k r hr ih =>
    rcases List.eq_nil_or_concat post with rfl | ⟨post', e', rfl⟩
    · obtain ⟨rfl, rfl⟩ : tr = pre ∧ (⟨o, r⟩ : Ev Ans) = e := by
        simpa using List.append_inj' he rfl
      have := (safe_call_hist.1 (safe_of_run hs hr)).1
      simpa using this
    · rw [List.concat_eq_append, ← List.cons_append, ← List.append_assoc] at he
      exact ih (List.append_inj' he rfl).1

/-- What has to hold where an operation is asked does, in every run. -/
theorem must_of_run {p : Prog Op Ans ε α} {Q : Except ε α → List (Ev Ans) → Prop}
    {tr : List (Ev Ans)} {o : Op} {k : Ans o → Prog Op Ans ε α} (hs : Safe (.hist must) p Q [])
    (hr : p.Run tr (.call o k)) : must o tr := by
  have := (safe_call_hist.1 (safe_of_run hs hr)).1
  simpa using this

variable {P : Op → Prop}

/-- A task that asks only what may always be asked extends the history by that. -/
theorem safe_of_uses {p : Prog Op Ans ε α} (hp : Uses P p) (hm : ∀ o h, P o → must o h)
    (h : List (Ev Ans)) : Safe (.hist must) p (fun _ h' => Ext P h h') h := by
  suffices ∀ h', Ext P h h' → Safe (.hist must) p (fun _ h' => Ext P h h') h' from this h (.refl P h)
  induction p with
  | ret a => exact fun h' he => safe_ret.2 he
  | fail e => exact fun h' he => safe_fail.2 he
  | cut => exact fun h' _ => safe_cut.2 trivial
  | call o k ih =>
    exact fun h' he => safe_call_hist.2 ⟨hm o h' hp.1, fun r => ih r (hp.2 r) _ (he.snoc hp.1)⟩

end

end Tasks
