import Mathlib.Data.Nat.Digits.Lemmas

/-!
# Numerals with leading zeros

A list of digits, the highest first, is a number of leading zeros and a value. So two bases spell the same
things, and a numeral of one base is turned into one of another by multiplying and carrying.
-/

namespace Numeral

/-- `zeros` leading zeros and the digits of the value. -/
def spell (b zeros v : Nat) : List Nat := List.replicate zeros 0 ++ (Nat.digits b v).reverse

theorem spell_succ (b zeros v : Nat) : spell b (zeros + 1) v = 0 :: spell b zeros v := by
  simp [spell, List.replicate_succ]

theorem exists_spell {b : Nat} (hb : 1 < b) {ds : List Nat} (h : ∀ d ∈ ds, d < b) : ∃ zeros v, ds = spell b zeros v := by
  induction ds with
  | nil => exact ⟨0, 0, by simp [spell]⟩
  | cons d ds ih =>
    by_cases hd : d = 0
    · obtain ⟨zeros, v, rfl⟩ := ih fun e he => h e (List.mem_cons_of_mem d he)
      exact ⟨zeros + 1, v, by rw [spell_succ, hd]⟩
    · refine ⟨0, Nat.ofDigits b (d :: ds).reverse, ?_⟩
      rw [spell, Nat.digits_ofDigits b hb, List.reverse_reverse]
      · simp
      · intro e he
        exact h e (List.mem_reverse.1 he)
      · intro hne
        rw [List.getLast_reverse]
        exact hd

theorem head_digits_reverse {b v d : Nat} (h : (Nat.digits b v).reverse.head? = some d) : d ≠ 0 := by
  by_cases hv : v = 0
  · subst hv
    simp at h
  · have hne : Nat.digits b v ≠ [] := Nat.digits_ne_nil_iff_ne_zero.2 hv
    rw [List.head?_reverse, List.getLast?_eq_some_getLast hne] at h
    rw [← Option.some.inj h]
    exact Nat.getLast_digit_ne_zero b hv

theorem spell_inj {b zeros zeros' v v' : Nat} (h : spell b zeros v = spell b zeros' v') : zeros = zeros' ∧ v = v' := by
  induction zeros generalizing zeros' with
  | zero =>
    cases zeros' with
    | zero =>
      have hd : Nat.digits b v = Nat.digits b v' := by simpa [spell] using h
      exact ⟨rfl, Nat.digits_inj_iff.1 hd⟩
    | succ n =>
      rw [spell_succ] at h
      have hhead : (Nat.digits b v).reverse.head? = some 0 := by
        have hh := congrArg List.head? h
        simpa [spell] using hh
      exact absurd rfl (head_digits_reverse hhead)
  | succ m ih =>
    cases zeros' with
    | zero =>
      rw [spell_succ] at h
      have hhead : (Nat.digits b v').reverse.head? = some 0 := by
        have hh := congrArg List.head? h.symm
        simpa [spell] using hh
      exact absurd rfl (head_digits_reverse hhead)
    | succ n =>
      rw [spell_succ, spell_succ] at h
      obtain ⟨hz, hv⟩ := ih (List.cons.inj h).2
      exact ⟨by rw [hz], hv⟩

/-- The leading ones of a kind are counted by taking them. -/
theorem takeWhile_leading {α : Type} [BEq α] [LawfulBEq α] {a : α} (zeros : Nat) {rest : List α}
    (h : rest.head? ≠ some a) : (List.replicate zeros a ++ rest).takeWhile (· == a) = List.replicate zeros a := by
  have hall : ∀ x ∈ List.replicate zeros a, (x == a) = true := by
    intro x hx
    simp [(List.mem_replicate.1 hx).2]
  rw [List.takeWhile_append_of_pos hall]
  cases rest with
  | nil => simp
  | cons x rest =>
    have hx : ¬ x = a := by simpa using h
    simp [hx]

/-- Multiplies a numeral of base `b`, the lowest digit first, and adds. -/
def mulAdd (b m : Nat) : (carry : Nat) → List Nat → List Nat
  | carry, [] => Nat.digits b carry
  | carry, d :: ds => (carry + d * m) % b :: mulAdd b m ((carry + d * m) / b) ds

theorem mulAdd_digits {b m : Nat} (hb : 1 < b) (hm : 0 < m) (carry n : Nat) :
    mulAdd b m carry (Nat.digits b n) = Nat.digits b (m * n + carry) := by
  induction n using Nat.strongRecOn generalizing carry with
  | ind n ih =>
    by_cases hn : n = 0
    · subst hn
      simp [mulAdd]
    · have hlt : n / b < n := Nat.div_lt_self (Nat.pos_of_ne_zero hn) hb
      have hpos : 0 < m * n + carry := Nat.add_pos_left (Nat.mul_pos hm (Nat.pos_of_ne_zero hn)) carry
      have hsum : m * n + carry = carry + n % b * m + b * (m * (n / b)) := by
        calc m * n + carry = m * (n % b + b * (n / b)) + carry := by rw [Nat.mod_add_div]
          _ = carry + n % b * m + b * (m * (n / b)) := by ring
      rw [Nat.digits_def' hb (Nat.pos_of_ne_zero hn), Nat.digits_def' hb hpos, mulAdd, ih _ hlt, hsum,
        Nat.add_mul_mod_self_left, Nat.add_mul_div_left _ _ (Nat.lt_of_succ_lt hb), Nat.add_comm (m * (n / b))]

/-- Reading digits of base `m` one by one gives the digits of the same value. -/
theorem foldl_mulAdd {b m : Nat} (hb : 1 < b) (hm : 0 < m) (ds : List Nat) (n : Nat) :
    ds.foldl (fun l d => mulAdd b m d l) (Nat.digits b n) = Nat.digits b (Nat.ofDigits m ds.reverse + m ^ ds.length * n) := by
  induction ds generalizing n with
  | nil => simp
  | cons d ds ih =>
    rw [List.foldl_cons, mulAdd_digits hb hm, ih, List.reverse_cons, Nat.ofDigits_append, List.length_reverse,
      List.length_cons, Nat.ofDigits_singleton]
    congr 1
    ring

end Numeral
