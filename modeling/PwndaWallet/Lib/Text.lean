import Mathlib.Algebra.Ring.Int.Defs
import Mathlib.Algebra.Ring.Nat

/-!
# String and integer operations

The string methods of the Rust standard library that the program uses. The ASCII
ones change ASCII letters only, `trim` takes off every Unicode `White_Space`. `i64` arithmetic
wraps, as it does in the release profile.
-/

namespace Rust

def isWhitespace (c : Char) : Bool :=
  let n := c.toNat
  (9 ≤ n && n ≤ 13) || n == 0x20 || n == 0x85 || n == 0xa0 || n == 0x1680 ||
    (0x2000 ≤ n && n ≤ 0x200a) || n == 0x2028 || n == 0x2029 || n == 0x202f || n == 0x205f ||
    n == 0x3000

def trim (s : String) : String :=
  String.ofList ((s.toList.dropWhile isWhitespace).reverse.dropWhile isWhitespace).reverse

theorem dropWhile_dropWhile {α : Type} (p : α → Bool) (l : List α) :
    (l.dropWhile p).dropWhile p = l.dropWhile p := by
  induction l with
  | nil => rfl
  | cons a l ih =>
    by_cases ha : p a = true
    · simpa [ha] using ih
    · simp [ha]

/-- What does not begin with a blank does not either without its end. -/
theorem dropWhile_of_begins {α : Type} {p : α → Bool} {l l' : List α} (h : l.dropWhile p = l)
    (hp : l' <+: l) : l'.dropWhile p = l' := by
  cases l' with
  | nil => rfl
  | cons a l' =>
    obtain ⟨rest, rfl⟩ := hp
    by_cases ha : p a = true
    · have hlen := congrArg List.length h
      have hle := (List.dropWhile_suffix p (l := l' ++ rest)).length_le
      simp only [List.cons_append, List.dropWhile_cons, ha, if_true, List.length_cons] at hlen
      omega
    · simp [ha]

@[simp] theorem trim_trim (s : String) : trim (trim s) = trim s := by
  unfold trim
  simp only [String.toList_ofList]
  have hpre : ((s.toList.dropWhile isWhitespace).reverse.dropWhile isWhitespace).reverse <+:
      s.toList.dropWhile isWhitespace := by
    have hsuf := List.dropWhile_suffix isWhitespace (l := (s.toList.dropWhile isWhitespace).reverse)
    simpa using List.reverse_prefix.2 hsuf
  rw [dropWhile_of_begins (dropWhile_dropWhile _ _) hpre, List.reverse_reverse, dropWhile_dropWhile]

theorem dropWhile_of_all {α : Type} {p : α → Bool} {l : List α} (h : ∀ a ∈ l, p a = false) :
    l.dropWhile p = l := by
  cases l with
  | nil => rfl
  | cons a l => rw [List.dropWhile_cons, if_neg (by simp [h a])]

theorem trim_of_all {s : String} (h : ∀ c ∈ s.toList, isWhitespace c = false) : trim s = s := by
  unfold trim
  rw [dropWhile_of_all h, dropWhile_of_all fun c hc => h c (List.mem_reverse.1 hc), List.reverse_reverse,
    String.ofList_toList]

def trimEnd (s : String) : String :=
  String.ofList (s.toList.reverse.dropWhile isWhitespace).reverse

def toAsciiLowercase (s : String) : String := String.ofList (s.toList.map Char.toLower)

def toAsciiUppercase (s : String) : String := String.ofList (s.toList.map Char.toUpper)

def eqIgnoreAsciiCase (s t : String) : Bool := toAsciiLowercase s == toAsciiLowercase t

def startsWith (s t : String) : Bool := t.toList.isPrefixOf s.toList

def endsWith (s t : String) : Bool := t.toList.isSuffixOf s.toList

/-- The first list has the second one somewhere in it. -/
def hasInfix : List Char → List Char → Bool
  | [], t => t.isEmpty
  | c :: s, t => t.isPrefixOf (c :: s) || hasInfix s t

def contains (s t : String) : Bool := hasInfix s.toList t.toList

/-- A 64-bit two's complement result. -/
def wrapI64 (n : Int) : Int := n.bmod (2 ^ 64)

/-- `u64::saturating_add` -/
def saturatingAdd (a b : Nat) : Nat := min (a + b) (2 ^ 64 - 1)

/-- `u64::saturating_mul` -/
def saturatingMul (a b : Nat) : Nat := min (a * b) (2 ^ 64 - 1)

/-- `u64::checked_add` -/
def checkedAdd (a b : Nat) : Option Nat := if a + b < 2 ^ 64 then some (a + b) else none

/-- `u64::checked_mul` -/
def checkedMul (a b : Nat) : Option Nat := if a * b < 2 ^ 64 then some (a * b) else none

/-- `split` at a character -/
def split (s : String) (sep : Char) : List String := (go s.toList).map String.ofList
where
  go : List Char → List (List Char)
    | [] => [[]]
    | c :: cs =>
      if c = sep then [] :: go cs
      else
        match go cs with
        | seg :: rest => (c :: seg) :: rest
        | [] => [[c]]

/-- The value of a string of ASCII digits. -/
def digitsValue (cs : List Char) : Nat := cs.foldl (fun n c => 10 * n + (c.toNat - '0'.toNat)) 0

/-- `str::parse::<u64>` -/
def parseU64 (s : String) : Option Nat :=
  let digits := match s.toList with
    | '+' :: cs => cs
    | cs => cs
  if digits ≠ [] ∧ digits.all Char.isDigit ∧ digitsValue digits < 2 ^ 64 then some (digitsValue digits)
  else none

/-- `str::parse::<i64>` -/
def parseI64 (s : String) : Option Int :=
  match s.toList with
  | '-' :: cs =>
    if cs ≠ [] ∧ cs.all Char.isDigit ∧ digitsValue cs ≤ 2 ^ 63 then some (-(digitsValue cs : Int)) else none
  | _ => (parseU64 s).bind fun n => if n < 2 ^ 63 then some (n : Int) else none

def isEmpty (s : String) : Bool := s == ""

/-- `{:?}` of a string, for text whose characters are printable. -/
def debugStr (s : String) : String :=
  let esc (c : Char) : List Char := match c with
    | '"' => ['\\', '"']
    | '\\' => ['\\', '\\']
    | '\n' => ['\\', 'n']
    | '\r' => ['\\', 'r']
    | '\t' => ['\\', 't']
    | c => [c]
  String.ofList ('"' :: s.toList.flatMap esc ++ ['"'])

/-- `{:.6}` of `n / 1e6`. -/
def millionths (n : Nat) : String :=
  let frac := toString (n % 1000000)
  s!"{n / 1000000}." ++ String.ofList (List.replicate (6 - frac.length) '0') ++ frac

end Rust
