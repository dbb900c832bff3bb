import Mathlib.Order.Monotone.Defs
import Mathlib.Order.Nat

/-!
# Climbing to a number that covers its own requirement

What has to be covered may itself depend on the number that covers it. Starting low and taking the
requirement for the next number ends where the requirement is met, since it never asks for more than a bound.
-/

namespace Climb

structure Requirement where
  need : Nat → Nat
  bound : Nat
  need_le : ∀ n, need n ≤ bound

namespace Requirement

variable (r : Requirement)

def settle (n : Nat) : Nat :=
  if r.need n ≤ n then n else settle (r.need n)
termination_by r.bound - n
decreasing_by
  have hle := r.need_le n
  omega

theorem settle_of_le {n : Nat} (h : r.need n ≤ n) : r.settle n = n := by rw [settle, if_pos h]

theorem settle_of_lt {n : Nat} (h : n < r.need n) : r.settle n = r.settle (r.need n) := by
  rw [settle, if_neg (by omega)]

theorem need_settle (n : Nat) : r.need (r.settle n) ≤ r.settle n := by
  induction n using settle.induct r with
  | case1 n h => rwa [r.settle_of_le h]
  | case2 n h ih => rwa [r.settle_of_lt (by omega)]

theorem le_settle (n : Nat) : n ≤ r.settle n := by
  induction n using settle.induct r with
  | case1 n h => exact Nat.le_of_eq (r.settle_of_le h).symm
  | case2 n h ih =>
    rw [r.settle_of_lt (by omega)]
    omega

/-- What the requirement does not leave from below, the climb does not leave. -/
theorem settle_le {n m : Nat} (hn : n ≤ m) (h : ∀ k, n ≤ k → k ≤ m → r.need k ≤ m) : r.settle n ≤ m := by
  induction n using settle.induct r with
  | case1 n hstop => rwa [r.settle_of_le hstop]
  | case2 n hgo ih =>
    rw [r.settle_of_lt (by omega)]
    exact ih (h n (Nat.le_refl n) hn) fun k hk => h k (by omega)

/-- A requirement that only grows is met at the least number that meets it. -/
theorem settle_least {n m : Nat} (hmono : Monotone r.need) (hn : n ≤ m) (hm : r.need m ≤ m) : r.settle n ≤ m := by
  apply r.settle_le hn
  intro k _ hk
  exact Nat.le_trans (hmono hk) hm

end Requirement

end Climb
