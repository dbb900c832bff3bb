import Mathlib.Algebra.Order.Floor.Ring
import Mathlib.Data.Rat.Floor
import Mathlib.Tactic.Linarith
import Mathlib.Tactic.Ring
import PwndaWallet.Lib.Text

/-!
# Double precision

The binary64 number nearest to a rational number, as `Number(x)` and the arithmetic operators round.
The range of the exponent is not bounded here.
-/

namespace Double

/-- To the nearest integer, from the middle to the even one. -/
def roundEven (x : ℚ) : ℤ :=
  let k := ⌊x⌋
  if x - k < 1 / 2 then k else if 1 / 2 < x - k then k + 1 else k + k % 2

theorem roundEven_error (x : ℚ) : |(roundEven x : ℚ) - x| ≤ 1 / 2 := by
  have hlo := Int.floor_le x
  have hhi := Int.lt_floor_add_one x
  have hodd : ⌊x⌋ % 2 = 0 ∨ ⌊x⌋ % 2 = 1 := Int.emod_two_eq_zero_or_one _
  simp only [roundEven, abs_le]
  split
  · exact ⟨by linarith, by linarith⟩
  split
  · push_cast
    exact ⟨by linarith, by linarith⟩
  · rcases hodd with h | h <;> rw [h] <;> push_cast <;> exact ⟨by linarith, by linarith⟩

/-- The exponent of a positive number: it is in `[2 ^ e, 2 ^ (e + 1))`. -/
def exponent (x : ℚ) : ℤ :=
  let e := (x.num.natAbs.log2 : ℤ) - x.den.log2
  if x < 2 ^ e then e - 1 else e

theorem exponent_le {x : ℚ} (hx : 0 < x) : (2 : ℚ) ^ exponent x ≤ x := by
  simp only [exponent]
  split
  · have hnum : x.num.natAbs ≠ 0 := by
      have := Rat.num_pos.2 hx
      omega
    have hlow : (2 : ℚ) ^ (x.num.natAbs.log2 : ℤ) ≤ x.num.natAbs := by
      rw [zpow_natCast]
      exact_mod_cast Nat.log2_self_le hnum
    have hhigh : (x.den : ℚ) ≤ 2 ^ ((x.den.log2 : ℤ) + 1) := by
      have := Nat.lt_log2_self (n := x.den)
      exact_mod_cast this.le
    have hcast : (x.num.natAbs : ℚ) = x * x.den := by
      rw [Rat.mul_den_eq_num, ← Int.cast_natCast, Int.natAbs_of_nonneg (Rat.num_pos.2 hx).le]
    have hpow : (2 : ℚ) ^ ((x.num.natAbs.log2 : ℤ) - x.den.log2 - 1) * 2 ^ ((x.den.log2 : ℤ) + 1) =
        2 ^ (x.num.natAbs.log2 : ℤ) := by
      rw [← zpow_add₀ two_ne_zero]
      congr 1
      ring
    have hden : (0 : ℚ) < 2 ^ ((x.den.log2 : ℤ) + 1) := zpow_pos two_pos _
    refine le_of_mul_le_mul_right ?_ hden
    calc (2 : ℚ) ^ ((x.num.natAbs.log2 : ℤ) - x.den.log2 - 1) * 2 ^ ((x.den.log2 : ℤ) + 1)
        = 2 ^ (x.num.natAbs.log2 : ℤ) := hpow
      _ ≤ x * x.den := hcast ▸ hlow
      _ ≤ x * 2 ^ ((x.den.log2 : ℤ) + 1) := mul_le_mul_of_nonneg_left hhigh hx.le
  · rename_i h
    exact le_of_not_gt h

/-- The double nearest to a number that is not negative. -/
def nearest (x : ℚ) : ℚ := roundEven (x / 2 ^ (exponent x - 52)) * 2 ^ (exponent x - 52)

theorem nearest_zero : nearest 0 = 0 := by simp [nearest, roundEven]

/-- Rounding changes a number by one part in `2 ^ 53` at most. -/
theorem nearest_error {x : ℚ} (hx : 0 < x) : |nearest x - x| ≤ x / 2 ^ 53 := by
  have hunit : (0 : ℚ) < 2 ^ (exponent x - 52) := zpow_pos two_pos _
  have hbits : (2 : ℚ) ^ 52 * 2 ^ (exponent x - 52) ≤ x := by
    have hpow : (2 : ℚ) ^ 52 * 2 ^ (exponent x - 52) = 2 ^ exponent x := by
      rw [← zpow_natCast, ← zpow_add₀ two_ne_zero]
      congr 1
      norm_num
    exact hpow ▸ exponent_le hx
  have hsplit : nearest x - x = (roundEven (x / 2 ^ (exponent x - 52)) - x / 2 ^ (exponent x - 52)) *
      2 ^ (exponent x - 52) := by
    rw [nearest, sub_mul, div_mul_cancel₀ _ hunit.ne']
  rw [hsplit, abs_mul, abs_of_pos hunit]
  have herr := mul_le_mul_of_nonneg_right (roundEven_error (x / 2 ^ (exponent x - 52))) hunit.le
  linarith

end Double

/-!
## Doubles of Rust

`f64` with its infinities and its non-number, in the comparisons of which it answers false, and with the strings
that `str::parse::<f64>` reads. The two zeros are one.
-/

namespace Rust

inductive F64 where
  | nan
  | inf (negative : Bool)
  | fin (q : ℚ)
deriving DecidableEq

namespace F64

/-- The nearest double, subnormal ones too. -/
def ofRat (x : ℚ) : F64 :=
  if x = 0 then .fin 0
  else
    let unit : ℚ := 2 ^ (max (Double.exponent |x|) (-1022) - 52)
    let size : ℚ := Double.roundEven (|x| / unit) * unit
    if 2 ^ 1024 ≤ size then .inf (x < 0) else .fin (if x < 0 then -size else size)

def isFinite : F64 → Bool
  | .fin _ => true
  | _ => false

/-- `a < b` -/
def lt : F64 → F64 → Bool
  | .nan, _ => false
  | _, .nan => false
  | .inf neg, .inf neg' => neg && !neg'
  | .inf neg, .fin _ => neg
  | .fin _, .inf neg => !neg
  | .fin a, .fin b => a < b

/-- `a <= b` -/
def le (a b : F64) : Bool := lt a b || (a == b && a != .nan)

def neg : F64 → F64
  | .nan => .nan
  | .inf negative => .inf !negative
  | .fin q => .fin (-q)

def abs : F64 → F64
  | .nan => .nan
  | .inf _ => .inf false
  | .fin q => .fin |q|

def add : F64 → F64 → F64
  | .nan, _ => .nan
  | _, .nan => .nan
  | .inf a, .inf b => if a = b then .inf a else .nan
  | .inf a, .fin _ => .inf a
  | .fin _, .inf b => .inf b
  | .fin a, .fin b => ofRat (a + b)

def sub (a b : F64) : F64 := add a (neg b)

def div : F64 → F64 → F64
  | .nan, _ => .nan
  | _, .nan => .nan
  | .inf _, .inf _ => .nan
  | .inf a, .fin b => .inf (a != decide (b < 0))
  | .fin _, .inf _ => .fin 0
  | .fin a, .fin b => if b = 0 then (if a = 0 then .nan else .inf (a < 0)) else ofRat (a / b)

@[simp] theorem lt_fin (a b : ℚ) : lt (.fin a) (.fin b) = decide (a < b) := rfl

@[simp] theorem le_fin (a b : ℚ) : le (.fin a) (.fin b) = decide (a ≤ b) := by
  unfold le
  rcases lt_trichotomy a b with hlt | rfl | hgt
  · simp [hlt, hlt.le]
  · simp
  · simp [hgt.not_ge, hgt.not_gt, hgt.ne']

theorem isFinite_iff {x : F64} : x.isFinite = true ↔ ∃ q, x = .fin q := by
  cases x <;> simp [isFinite]

/-! ## Text -/

/-- The digits in front, and what follows them. -/
def span (cs : List Char) : List Char × List Char := (cs.takeWhile Char.isDigit, cs.dropWhile Char.isDigit)

/-- A sign in front. -/
def signed : List Char → Bool × List Char
  | '-' :: cs => (true, cs)
  | '+' :: cs => (false, cs)
  | cs => (false, cs)

/-- The exponent behind a number, if it is written well. -/
def exponentOf : List Char → Option Int
  | [] => some 0
  | c :: cs =>
    let (negative, digits) := signed cs
    if (c = 'e' ∨ c = 'E') ∧ digits ≠ [] ∧ digits.all Char.isDigit then
      some (if negative then -(digitsValue digits : Int) else digitsValue digits)
    else none

/-- The value of a decimal number without a sign. -/
def decimal (cs : List Char) : Option ℚ := do
  let (whole, rest) := span cs
  let (frac, rest) := match rest with
    | '.' :: rest => span rest
    | rest => ([], rest)
  if whole = [] ∧ frac = [] then none
  else
    let e ← exponentOf rest
    some (digitsValue (whole ++ frac) * 10 ^ (e - frac.length))

/-- `str::parse::<f64>` -/
def parse (s : String) : Option F64 :=
  let (negative, cs) := signed s.toList
  let word := String.ofList (cs.map Char.toLower)
  if word = "inf" ∨ word = "infinity" then some (.inf negative)
  else if word = "nan" then some .nan
  else (decimal cs).map fun q => ofRat (if negative then -q else q)

end F64

end Rust
