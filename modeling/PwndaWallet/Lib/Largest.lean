import Mathlib.Algebra.BigOperators.Group.List.Basic
import Mathlib.Algebra.Order.BigOperators.Group.List

/-!
# The largest first

Of a list in descending order no `k` elements have a larger sum than the first `k`.
-/

namespace Largest

variable {α M : Type} [AddCommMonoid M] [LinearOrder M] [IsOrderedAddMonoid M] {f : α → M}

/-- Of the first elements the last can only be exchanged for a larger one. -/
theorem take_succ_le {a : α} {l : List α} (ha : ∀ b ∈ l, f b ≤ f a) {n : Nat} (hn : n < l.length) :
    ((l.take (n + 1)).map f).sum ≤ f a + ((l.take n).map f).sum := by
  rw [List.take_add_one, List.getElem?_eq_getElem hn, List.map_append, List.sum_append, add_comm (f a)]
  simpa using add_le_add_right (ha _ (List.getElem_mem hn)) _

theorem sublist_le_take {l s : List α} (hs : s.Sublist l) (hl : l.Pairwise fun a b => f b ≤ f a) :
    (s.map f).sum ≤ ((l.take s.length).map f).sum := by
  induction hs with
  | slnil => exact le_refl _
  | @cons s l a hsub ih =>
    obtain ⟨ha, hl⟩ := List.pairwise_cons.1 hl
    refine (ih hl).trans ?_
    cases hlen : s.length with
    | zero => simp
    | succ n =>
      rw [List.take_succ_cons, List.map_cons, List.sum_cons]
      exact take_succ_le ha (by have := hsub.length_le; omega)
  | @cons_cons s l a hsub ih =>
    obtain ⟨-, hl⟩ := List.pairwise_cons.1 hl
    rw [List.length_cons, List.take_succ_cons, List.map_cons, List.map_cons, List.sum_cons, List.sum_cons]
    exact add_le_add_right (ih hl) _

/-- However the elements are chosen, each at most once. -/
theorem subperm_le_take {l s : List α} (hs : s.Subperm l) (hl : l.Pairwise fun a b => f b ≤ f a) :
    (s.map f).sum ≤ ((l.take s.length).map f).sum := by
  obtain ⟨s', hperm, hsub⟩ := hs
  rw [← (hperm.map f).sum_eq, ← hperm.length_eq]
  exact sublist_le_take hsub hl

end Largest
