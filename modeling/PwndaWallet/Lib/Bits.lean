import Mathlib.Algebra.Ring.Int.Defs
import Mathlib.Algebra.Ring.Nat
import Mathlib.Data.List.Basic
import Mathlib.Data.Nat.Bitwise

/-!
# Bits of numbers

A number of a known width as its list of bits, the highest first. Regrouping bits (bytes to symbols of five
bits and back, the words of a phrase) keeps the list and changes where it is cut.
-/

namespace Bits

/-- The `n` low bits of a number, the highest first. -/
def bits : Nat → Nat → List Bool
  | 0, _ => []
  | n + 1, v => v.testBit n :: bits n v

/-- The number that bits are, the highest first. -/
def value : List Bool → Nat
  | [] => 0
  | b :: l => b.toNat * 2 ^ l.length + value l

@[simp] theorem bits_zero (v : Nat) : bits 0 v = [] := rfl

@[simp] theorem length_bits (n v : Nat) : (bits n v).length = n := by
  induction n with
  | zero => rfl
  | succ n ih => simp [bits, ih]

theorem bits_congr {n v w : Nat} (h : ∀ i < n, v.testBit i = w.testBit i) : bits n v = bits n w := by
  induction n with
  | zero => rfl
  | succ n ih => rw [bits, bits, h n (by omega), ih fun i hi => h i (by omega)]

@[simp] theorem bits_mod (n v : Nat) : bits n (v % 2 ^ n) = bits n v :=
  bits_congr fun i hi => by simp [Nat.testBit_mod_two_pow, hi]

@[simp] theorem bits_num_zero (n : Nat) : bits n 0 = List.replicate n false := by
  induction n with
  | zero => rfl
  | succ n ih => simp [bits, ih, List.replicate_succ]

@[simp] theorem value_bits (n v : Nat) : value (bits n v) = v % 2 ^ n := by
  induction n with
  | zero => simp [value, Nat.mod_one]
  | succ n ih => rw [bits, value, length_bits, ih, Nat.toNat_testBit, Nat.mod_pow_succ, Nat.mul_comm, Nat.add_comm]

theorem value_lt (l : List Bool) : value l < 2 ^ l.length := by
  induction l with
  | nil => simp [value]
  | cons b l ih =>
    rw [value, List.length_cons, Nat.pow_succ]
    cases b
    · simp only [Bool.toNat_false]
      omega
    · simp only [Bool.toNat_true]
      omega

@[simp] theorem bits_value (l : List Bool) : bits l.length (value l) = l := by
  induction l with
  | nil => rfl
  | cons b l ih =>
    have hlt := value_lt l
    rw [List.length_cons, bits, value, Nat.mul_comm]
    have hhigh : (2 ^ l.length * b.toNat + value l).testBit l.length = b := by
      rw [Nat.testBit_two_pow_mul_add _ hlt, if_neg (by omega), Nat.sub_self]
      cases b <;> rfl
    have hlow : bits l.length (2 ^ l.length * b.toNat + value l) = bits l.length (value l) := by
      rw [← bits_mod, Nat.mul_add_mod, bits_mod]
    rw [hhigh, hlow, ih]

theorem bits_inj {n v w : Nat} (hv : v < 2 ^ n) (hw : w < 2 ^ n) : bits n v = bits n w ↔ v = w := by
  constructor
  · intro h
    have hvalue := congrArg value h
    rwa [value_bits, value_bits, Nat.mod_eq_of_lt hv, Nat.mod_eq_of_lt hw] at hvalue
  · intro h
    rw [h]

theorem bits_add (m n v : Nat) : bits (m + n) v = bits m (v >>> n) ++ bits n v := by
  induction m with
  | zero => simp
  | succ m ih =>
    rw [show m + 1 + n = m + n + 1 by omega, bits, bits, ih, List.cons_append, Nat.testBit_shiftRight,
      Nat.add_comm n m]

/-- Appending is shifting and or. -/
theorem bits_shiftLeft_or {n w : Nat} (m v : Nat) (hw : w < 2 ^ n) :
    bits (m + n) (v <<< n ||| w) = bits m v ++ bits n w := by
  have hhigh : (v <<< n ||| w) >>> n = v := by
    rw [Nat.shiftRight_or_distrib, Nat.shiftLeft_shiftRight, Nat.shiftRight_eq_div_pow w, Nat.div_eq_of_lt hw,
      Nat.or_zero]
  have hlow : bits n (v <<< n ||| w) = bits n w :=
    bits_congr fun i hi => by simp [Nat.testBit_shiftLeft, show ¬ n ≤ i by omega]
  rw [bits_add, hhigh, hlow]

theorem bits_shiftLeft_xor {n w : Nat} (m v : Nat) (hw : w < 2 ^ n) :
    bits (m + n) (v <<< n ^^^ w) = bits m v ++ bits n w := by
  rw [← bits_shiftLeft_or m v hw]
  refine bits_congr fun i _ => ?_
  rw [Nat.testBit_xor, Nat.testBit_or, Nat.testBit_shiftLeft]
  by_cases hi : i < n
  · simp [show ¬ n ≤ i by omega]
  · have hhigh : w.testBit i = false :=
      Nat.testBit_lt_two_pow (Nat.lt_of_lt_of_le hw (Nat.pow_le_pow_right (by decide) (Nat.le_of_not_lt hi)))
    simp [hhigh]

theorem bits_take {m n : Nat} (v : Nat) (h : m ≤ n) : (bits n v).take m = bits m (v >>> (n - m)) := by
  obtain ⟨k, rfl⟩ := Nat.exists_eq_add_of_le h
  rw [bits_add, List.take_append_of_le_length (by simp), List.take_of_length_le (by simp), Nat.add_sub_cancel_left]

theorem bits_drop {m n : Nat} (v : Nat) (h : m ≤ n) : (bits n v).drop (n - m) = bits m v := by
  obtain ⟨k, rfl⟩ := Nat.exists_eq_add_of_le h
  rw [Nat.add_comm m k, bits_add, Nat.add_sub_cancel, List.drop_append_of_le_length (by simp),
    List.drop_of_length_le (by simp), List.nil_append]

/-! ## Groups of one width -/

theorem length_flatMap_bits (n : Nat) (l : List Nat) : (l.flatMap (bits n)).length = n * l.length := by
  induction l with
  | nil => rfl
  | cons a l ih => simp [ih, Nat.mul_succ, Nat.add_comm]

/-- Where the groups are cut tells the numbers. -/
theorem flatMap_bits_inj {n : Nat} (hn : 0 < n) {l l' : List Nat} (hl : ∀ a ∈ l, a < 2 ^ n)
    (hl' : ∀ a ∈ l', a < 2 ^ n) (h : l.flatMap (bits n) = l'.flatMap (bits n)) : l = l' := by
  have hlen : l.length = l'.length := by
    have hlen := congrArg List.length h
    rw [length_flatMap_bits, length_flatMap_bits] at hlen
    exact Nat.eq_of_mul_eq_mul_left hn hlen
  induction l generalizing l' with
  | nil => exact (List.length_eq_zero_iff.1 hlen.symm).symm
  | cons a l ih =>
    cases l' with
    | nil => simp at hlen
    | cons b l' =>
      rw [List.flatMap_cons, List.flatMap_cons] at h
      obtain ⟨hhead, htail⟩ := List.append_inj h (by simp)
      rw [(bits_inj (hl a List.mem_cons_self) (hl' b List.mem_cons_self)).1 hhead,
        ih (fun c hc => hl c (List.mem_cons_of_mem _ hc)) (fun c hc => hl' c (List.mem_cons_of_mem _ hc)) htail
          (by simpa using hlen)]

end Bits
