/-!
# Polling

A loop that asks again until an answer decides. A round that does not decide gives none.
-/

namespace Poll

variable {ρ : Type}

/-- At most this many rounds, the next of which has this number: the round that decides, and what it decides. -/
def run (step : Nat → Option ρ) : Nat → Nat → Option (Nat × ρ)
  | 0, _ => none
  | rounds + 1, n =>
    match step n with
    | some r => some (n, r)
    | none => run step rounds (n + 1)

/-- What a loop comes to is what its last round decides. -/
theorem step_of_run {step : Nat → Option ρ} {rounds n m : Nat} {r : ρ} (h : run step rounds n = some (m, r)) :
    step m = some r := by
  induction rounds generalizing n with
  | zero => cases h
  | succ rounds ih =>
    rw [run] at h
    cases hstep : step n with
    | none =>
      rw [hstep] at h
      exact ih h
    | some r' =>
      rw [hstep, Option.some.injEq, Prod.mk.injEq] at h
      obtain ⟨rfl, rfl⟩ := h
      exact hstep

/-- A loop ends at a round that decides. -/
theorem run_isSome {step : Nat → Option ρ} {rounds n m : Nat} (hstep : (step (n + m)).isSome = true) (hm : m < rounds) :
    (run step rounds n).isSome = true := by
  induction rounds generalizing n m with
  | zero => exact absurd hm (Nat.not_lt_zero m)
  | succ rounds ih =>
    rw [run]
    cases hn : step n with
    | some r => rfl
    | none =>
      cases m with
      | zero =>
        rw [Nat.add_zero, hn] at hstep
        cases hstep
      | succ m =>
        have hnext : n + 1 + m = n + (m + 1) := by omega
        exact ih (hnext ▸ hstep) (Nat.lt_of_succ_lt_succ hm)

end Poll
