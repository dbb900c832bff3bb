import Mathlib.Data.List.Basic
import Mathlib.Tactic.Ring

/-!
# Groups of one size

A list cut into groups of `n`, and three digits for a number below `n ^ 3`, of which each but the first is
written as its distance from the digit before.
-/

namespace Radix

/-! ## Groups -/

section

variable {α : Type}

/-- The group `i` of those of `n` elements. -/
def chunk (l : List α) (n i : Nat) : List α := (l.drop (n * i)).take n

theorem length_chunk {l : List α} {n m i : Nat} (hl : l.length = n * m) (hi : i < m) : (chunk l n i).length = n := by
  have hle : n * (i + 1) ≤ n * m := Nat.mul_le_mul_left n hi
  rw [Nat.mul_add, Nat.mul_one] at hle
  rw [chunk, List.length_take, List.length_drop]
  omega

theorem getD_chunk {l : List α} {n i j : Nat} (d : α) (hj : j < n) : (chunk l n i).getD j d = l.getD (n * i + j) d := by
  rw [chunk, List.getD_eq_getElem?_getD, List.getD_eq_getElem?_getD, List.getElem?_take_of_lt hj, List.getElem?_drop]

theorem flatMap_chunk {l : List α} {n m : Nat} (h : l.length = n * m) : (List.range m).flatMap (chunk l n) = l := by
  have hpart (m : Nat) : (List.range m).flatMap (chunk l n) = l.take (n * m) := by
    induction m with
    | zero => simp
    | succ m ih => rw [List.range_succ, List.flatMap_append, ih, List.flatMap_singleton, chunk, Nat.mul_add, Nat.mul_one, List.take_add]
  rw [hpart, ← h, List.take_length]

theorem flatMap_congr {f g : Nat → List α} {m : Nat} (h : ∀ i < m, f i = g i) :
    (List.range m).flatMap f = (List.range m).flatMap g := by
  rw [List.flatMap_def, List.flatMap_def, List.map_congr_left fun i hi => h i (List.mem_range.1 hi)]

theorem length_flatMap {f : Nat → List α} {n : Nat} (hf : ∀ i, (f i).length = n) (m : Nat) :
    ((List.range m).flatMap f).length = n * m := by
  induction m with
  | zero => simp
  | succ m ih => rw [List.range_succ, List.flatMap_append, List.length_append, ih, List.flatMap_singleton, hf, Nat.mul_add, Nat.mul_one]

theorem chunk_flatMap {f : Nat → List α} {n m i : Nat} (hf : ∀ i, (f i).length = n) (hi : i < m) (rest : List α) :
    chunk ((List.range m).flatMap f ++ rest) n i = f i := by
  have hlen := length_flatMap hf
  obtain ⟨d, rfl⟩ : ∃ d, m = i + 1 + d := ⟨m - (i + 1), by omega⟩
  have hsplit : (List.range (i + 1 + d)).flatMap f = (List.range i).flatMap f ++ (f i ++
      (List.range d).flatMap fun j => f (i + 1 + j)) := by
    rw [List.range_add, List.flatMap_append, List.flatMap_map, List.range_succ, List.flatMap_append,
      List.flatMap_singleton, List.append_assoc]
  rw [hsplit, chunk, List.append_assoc, List.append_assoc, List.drop_append_of_le_length (by rw [hlen]),
    List.drop_eq_nil_of_le (by rw [hlen]), List.nil_append, List.take_append_of_le_length (by rw [hf]),
    List.take_of_length_le (by rw [hf])]

end

/-! ## Three digits -/

def digits (n x : Nat) : Nat × Nat × Nat :=
  let a := x % n
  let b := (x / n + a) % n
  (a, b, (x / n / n + b) % n)

def undigits (n a b c : Nat) : Nat := a + n * ((n - a + b) % n) + n * n * ((n - b + c) % n)

variable {n : Nat}

theorem digits_lt (h : 0 < n) (x : Nat) : (digits n x).1 < n ∧ (digits n x).2.1 < n ∧ (digits n x).2.2 < n :=
  ⟨Nat.mod_lt _ h, Nat.mod_lt _ h, Nat.mod_lt _ h⟩

/-- A distance of digits is taken back by adding it, and the other way round. -/
theorem distance {a x : Nat} (ha : a < n) : (n - a + (x + a) % n) % n = x % n := by
  have hsum : n - a + (x + a) = x + n := by omega
  rw [Nat.add_mod_mod, hsum, Nat.add_mod_right]

theorem distance' {a b : Nat} (ha : a < n) (hb : b < n) : ((n - a + b) % n + a) % n = b := by
  have hsum : n - a + b + a = b + n := by omega
  rw [Nat.mod_add_mod, hsum, Nat.add_mod_right, Nat.mod_eq_of_lt hb]

theorem undigits_lt {a b c : Nat} (ha : a < n) : undigits n a b c < n * n * n := by
  have hpos : 0 < n := by omega
  have hb := Nat.mod_lt (n - a + b) hpos
  have hc := Nat.mod_lt (n - b + c) hpos
  rw [undigits]
  generalize (n - a + b) % n = x at hb
  generalize (n - b + c) % n = y at hc
  have hx : n * (x + 1) ≤ n * n := Nat.mul_le_mul_left n hb
  have hy : n * n * (y + 1) ≤ n * n * n := Nat.mul_le_mul_left (n * n) hc
  rw [Nat.mul_add, Nat.mul_one] at hx hy
  omega

theorem undigits_digits {x : Nat} (h : x < n * n * n) : undigits n (digits n x).1 (digits n x).2.1 (digits n x).2.2 = x := by
  have hpos : 0 < n := by
    apply Nat.pos_of_ne_zero
    rintro rfl
    simp at h
  have hdiv : x / n / n < n := by
    rw [Nat.div_div_eq_div_mul]
    exact Nat.div_lt_of_lt_mul h
  rw [undigits]
  simp only [digits]
  rw [distance (Nat.mod_lt _ hpos), distance (Nat.mod_lt _ hpos), Nat.mod_eq_of_lt hdiv]
  have hlow := Nat.mod_add_div x n
  have hhigh := Nat.mod_add_div (x / n) n
  calc x % n + n * (x / n % n) + n * n * (x / n / n)
      = x % n + n * (x / n % n + n * (x / n / n)) := by ring
    _ = x := by rw [hhigh, hlow]

theorem digits_undigits {a b c : Nat} (ha : a < n) (hb : b < n) (hc : c < n) :
    digits n (undigits n a b c) = (a, b, c) := by
  have hpos : 0 < n := by omega
  have hx := Nat.mod_lt (n - a + b) hpos
  have hbx := distance' ha hb
  have hcy := distance' hb hc
  have hshape : undigits n a b c = a + n * ((n - a + b) % n + n * ((n - b + c) % n)) := by
    rw [undigits]
    ring
  rw [hshape]
  generalize (n - a + b) % n = x at hx hbx
  generalize (n - b + c) % n = y at hcy
  have hmod : (a + n * (x + n * y)) % n = a := by rw [Nat.add_mul_mod_self_left, Nat.mod_eq_of_lt ha]
  have hdiv : (a + n * (x + n * y)) / n = x + n * y := by
    rw [Nat.add_mul_div_left _ _ hpos, Nat.div_eq_of_lt ha, Nat.zero_add]
  have hdiv' : (x + n * y) / n = y := by
    rw [Nat.add_mul_div_left _ _ hpos, Nat.div_eq_of_lt hx, Nat.zero_add]
  have hb' : (x + n * y + a) % n = b := by
    rw [Nat.add_right_comm, Nat.add_mul_mod_self_left, hbx]
  simp only [digits, hmod, hdiv, hdiv', hb', hcy]

end Radix
