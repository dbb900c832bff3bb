import PwndaWallet.Lib.Js

/-!
# Slices of an ordered set, newest first

A slice lists the elements of a set whose key lies in a range, each once and in falling order of the key. The
set may still grow: an element of the larger set `E` may be listed, one of `S` must be.
-/

/-- `l` falls in the key, holds only elements of `E` in the range `p`, and every element of `S` in it. -/
structure Slice {α : Type} (key : α → Int) (E S : Set α) (p : Int → Prop) (l : List α) : Prop where
  falls : l.Pairwise fun a b => key b < key a
  mem : ∀ a ∈ l, a ∈ E
  range : ∀ a ∈ l, p (key a)
  all : ∀ a ∈ S, p (key a) → a ∈ l

namespace Slice

variable {α : Type} {key : α → Int} {E S T : Set α} {p q : Int → Prop} {l m : List α}

theorem nil (h : ∀ t, ¬ p t) : Slice key E S p [] :=
  ⟨List.Pairwise.nil, by simp, by simp, fun a _ ha => absurd ha (h _)⟩

theorem mono (h : Slice key E S p l) (hT : ∀ a ∈ T, p (key a) → a ∈ S) : Slice key E T p l :=
  ⟨h.falls, h.mem, h.range, fun a ha hp => h.all a (hT a ha hp) hp⟩

/-- The range can be another one that holds the list and nothing more of the set. -/
theorem change (h : Slice key E S p l) (hq : ∀ a ∈ l, q (key a)) (hqp : ∀ a ∈ S, q (key a) → p (key a)) :
    Slice key E S q l :=
  ⟨h.falls, h.mem, hq, fun a ha hqa => h.all a ha (hqp a ha hqa)⟩

theorem congr (h : Slice key E S p l) (hpq : ∀ t, p t ↔ q t) : Slice key E S q l :=
  h.change (fun a ha => (hpq _).1 (h.range a ha)) fun _ _ hq => (hpq _).2 hq

theorem append (h : Slice key E S p l) (h' : Slice key E S q m) (hlt : ∀ t, p t → ∀ u, q u → u < t) :
    Slice key E S (fun t => p t ∨ q t) (l ++ m) := by
  refine ⟨?_, ?_, ?_, ?_⟩
  · rw [List.pairwise_append]
    exact ⟨h.falls, h'.falls, fun a ha b hb => hlt _ (h.range a ha) _ (h'.range b hb)⟩
  · intro a ha
    rcases List.mem_append.1 ha with ha | ha
    · exact h.mem a ha
    · exact h'.mem a ha
  · intro a ha
    rcases List.mem_append.1 ha with ha | ha
    · exact Or.inl (h.range a ha)
    · exact Or.inr (h'.range a ha)
  · intro a ha hpq
    apply List.mem_append.2
    rcases hpq with hp | hq
    · exact Or.inl (h.all a ha hp)
    · exact Or.inr (h'.all a ha hq)

/-- The first ones, down to the last of them. -/
theorem take {n : Nat} {a : α} (h : Slice key E S p l) (hlast : (l.take n).getLast? = some a) :
    Slice key E S (fun t => p t ∧ key a ≤ t) (l.take n) := by
  have hsplit : l.take n ++ l.drop n = l := List.take_append_drop n l
  have hfalls := h.falls
  rw [← hsplit, List.pairwise_append] at hfalls
  obtain ⟨htake, -, hcross⟩ := hfalls
  obtain ⟨front, hfront⟩ := List.getLast?_eq_some_iff.1 hlast
  have ha : a ∈ l.take n := by simp [hfront]
  have hle : ∀ b ∈ l.take n, key a ≤ key b := by
    intro b hb
    rw [hfront] at hb htake
    rcases List.mem_append.1 hb with hb | hb
    · have := (List.pairwise_append.1 htake).2.2 b hb a (by simp)
      omega
    · rw [List.mem_singleton.1 hb]
  refine ⟨htake, ?_, ?_, ?_⟩
  · intro b hb
    exact h.mem b (List.mem_of_mem_take hb)
  · intro b hb
    exact ⟨h.range b (List.mem_of_mem_take hb), hle b hb⟩
  · intro b hb hpb
    have hbl := h.all b hb hpb.1
    rw [← hsplit] at hbl
    rcases List.mem_append.1 hbl with hb | hb
    · exact hb
    · have := hcross a ha b hb
      have := hpb.2
      omega

/-- Two slices in one list, for a set of which each part is in one of the two. -/
theorem union {r : List α} {U : Set α} (h : Slice key E S p l) (h' : Slice key E T q m)
    (hr : ∀ a, a ∈ r ↔ a ∈ l ∨ a ∈ m) (hfalls : r.Pairwise fun a b => key b < key a)
    (hU : ∀ a ∈ U, p (key a) ∨ q (key a) → p (key a) ∧ a ∈ S ∨ q (key a) ∧ a ∈ T) :
    Slice key E U (fun t => p t ∨ q t) r := by
  refine ⟨hfalls, ?_, ?_, ?_⟩
  · intro a ha
    rcases (hr a).1 ha with ha | ha
    · exact h.mem a ha
    · exact h'.mem a ha
  · intro a ha
    rcases (hr a).1 ha with ha | ha
    · exact Or.inl (h.range a ha)
    · exact Or.inr (h'.range a ha)
  · intro a ha hpq
    apply (hr a).2
    rcases hU a ha hpq with ⟨hp, hS⟩ | ⟨hq, hT⟩
    · exact Or.inl (h.all a hS hp)
    · exact Or.inr (h'.all a hT hq)

/-- Sorting makes a list fall whose keys are different. -/
theorem falls_sort (hl : l.Pairwise fun a b => key a ≠ key b) :
    (Js.sort (fun a b => key b ≤ key a) l).Pairwise fun a b => key b < key a := by
  have hsorted : (Js.sort (fun a b => decide (key b ≤ key a)) l).Pairwise fun a b => decide (key b ≤ key a) := by
    apply Js.pairwise_sort
    · intro a b
      simp only [decide_eq_true_eq]
      omega
    · intro a b c hab hbc
      simp only [decide_eq_true_eq] at *
      omega
  have hne : (Js.sort (fun a b => decide (key b ≤ key a)) l).Pairwise fun a b => key a ≠ key b :=
    (Js.perm_sort _ l).symm.pairwise hl fun hab heq => hab heq.symm
  refine (hsorted.and hne).imp ?_
  rintro a b ⟨hle, hab⟩
  have := of_decide_eq_true hle
  omega

/-- Sorting a list puts it in the falling order it has elsewhere. -/
theorem sort_eq {l c : List α} (hperm : l.Perm c) (hc : c.Pairwise fun a b => key b < key a) :
    Js.sort (fun a b => decide (key b ≤ key a)) l = c := by
  have hne : l.Pairwise fun a b => key a ≠ key b :=
    hperm.symm.pairwise (hc.imp fun hlt heq => absurd heq (by omega)) fun hab heq => hab heq.symm
  refine List.Perm.eq_of_pairwise (fun a b _ _ hab hba => ?_) (falls_sort hne) hc ((Js.perm_sort _ l).trans hperm)
  exact absurd hab (by omega)

/-- Of a falling list, the start that holds an element holds what is above it. -/
theorem mem_of_initial {a b : α} (hl : l.Pairwise fun a b => key b < key a) (hm : m <+: l) (ha : a ∈ l) (hb : b ∈ m)
    (hlt : key b < key a) : a ∈ m := by
  obtain ⟨rest, rfl⟩ := hm
  rcases List.mem_append.1 ha with ha | ha
  · exact ha
  · have := (List.pairwise_append.1 hl).2.2 b hb a ha
    omega

end Slice
