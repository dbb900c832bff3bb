/-!
# Machines

A state and the moves that can be made from it. `Reach` are the states of all runs, `ReachOn` those
of the runs whose moves are all made where a condition allows them.
-/

namespace Tasks

structure Machine (State Move : Type) where
  step : State → Move → Option State

namespace Machine

variable {State Move : Type} {M : Machine State Move}

/-- The states that runs from `s₀` reach if each of their moves is made where `ok` allows it. -/
inductive ReachOn (M : Machine State Move) (ok : State → Move → Prop) (s₀ : State) : State → Prop
  | refl : ReachOn M ok s₀ s₀
  | step {s s' : State} (m : Move) :
      ReachOn M ok s₀ s → ok s m → M.step s m = some s' → ReachOn M ok s₀ s'

/-- The states that runs from `s₀` reach. -/
abbrev Reach (M : Machine State Move) (s₀ s : State) : Prop := M.ReachOn (fun _ _ => True) s₀ s

variable {ok ok' : State → Move → Prop} {s₀ s s' : State}

theorem ReachOn.mono (h : M.ReachOn ok s₀ s) (himp : ∀ s m, ok s m → ok' s m) : M.ReachOn ok' s₀ s := by
  induction h with
  | refl => exact .refl
  | step m _ hok hs ih => exact ih.step m (himp _ _ hok) hs

theorem ReachOn.reach (h : M.ReachOn ok s₀ s) : M.Reach s₀ s := h.mono fun _ _ _ => trivial

theorem ReachOn.trans (h : M.ReachOn ok s₀ s) (h' : M.ReachOn ok s s') : M.ReachOn ok s₀ s' := by
  induction h' with
  | refl => exact h
  | step m _ hok hs ih => exact ih.step m hok hs

/-- What every allowed move preserves holds in every run. -/
theorem ReachOn.inv {P : State → Prop} (h : M.ReachOn ok s₀ s) (h₀ : P s₀)
    (hstep : ∀ s m s', P s → ok s m → M.step s m = some s' → P s') : P s := by
  induction h with
  | refl => exact h₀
  | step m _ hok hs ih => exact hstep _ m _ ih hok hs

/-- Where a list of moves leads, if each of them can be made. -/
def play (M : Machine State Move) (s : State) : List Move → Option State
  | [] => some s
  | m :: ms => (M.step s m).bind fun s' => M.play s' ms

theorem reach_play {ms : List Move} (h : M.play s ms = some s') : M.Reach s s' := by
  induction ms generalizing s with
  | nil =>
    obtain rfl := Option.some.inj h
    exact .refl
  | cons m ms ih =>
    obtain ⟨s₁, hs, hrest⟩ := Option.bind_eq_some_iff.1 h
    exact ReachOn.trans (.step m .refl trivial hs) (ih hrest)

end Machine

end Tasks
