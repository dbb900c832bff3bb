import Mathlib.Data.List.TakeWhile
import PwndaWallet.Lib.Js

/-!
# Patterns and lines

The regular expressions of a JavaScript program that are alternatives of sequences: characters of a class,
and word boundaries. Letters are compared as the flag `i` does, which folds ASCII letters only; and the
lines that `split(/\r?\n/)` takes a text apart into.
-/

namespace Js

/-! ## Patterns -/

inductive Atom where
  | char (p : Char → Bool)
  | boundary

abbrev Pattern := List Atom

/-- The characters of a literal, in either case. -/
def lit (s : String) : Pattern := s.toList.map fun c => .char fun x => x.toLower == c.toLower

/-- `\d` -/
def digit : Pattern := [.char Char.isDigit]

/-- `\b` -/
def wordEnd : Pattern := [.boundary]

/-- `\w` -/
def isWord (c : Char) : Bool := c.isAlphanum || c == '_'

/-- The pattern matches a prefix of the text, which comes after `before`. -/
def matchesAt : Pattern → Option Char → List Char → Bool
  | [], _, _ => true
  | .boundary :: p, before, text => (before.any isWord != text.head?.any isWord) && matchesAt p before text
  | .char _ :: _, _, [] => false
  | .char q :: p, _, c :: text => q c && matchesAt p (some c) text

/-- The pattern matches somewhere in the text. -/
def search (p : Pattern) (before : Option Char) : List Char → Bool
  | [] => matchesAt p before []
  | c :: text => matchesAt p before (c :: text) || search p (some c) text

/-- `/p1|p2|.../i.test(text)` -/
def test (ps : List Pattern) (text : List Char) : Bool := ps.any fun p => search p none text

theorem search_of_matchesAt {p : Pattern} {before : Option Char} {text : List Char} (h : matchesAt p before text = true) :
    search p before text = true := by
  cases text with
  | nil => exact h
  | cons c text =>
    rw [search, h]
    rfl

/-- The characters of the pattern stand at the start of the text. -/
theorem matchesAt_append {qs : List (Char → Bool)} {before : Option Char} {pre text : List Char}
    (h : List.Forall₂ (fun q c => q c = true) qs pre) :
    matchesAt (qs.map .char) before (pre ++ text) = true := by
  induction h generalizing before with
  | nil => rfl
  | cons hq _ ih => simp [matchesAt, hq, ih]

theorem matchesAt_lit (s : String) (before : Option Char) (text : List Char) :
    matchesAt (lit s) before (s.toList ++ text) = true := by
  have hmap : lit s = (s.toList.map fun c x => x.toLower == c.toLower).map .char := by simp [lit]
  rw [hmap]
  refine matchesAt_append ?_
  rw [List.forall₂_map_left_iff, List.forall₂_same]
  simp

/-- The pattern goes on after a literal. -/
theorem matchesAt_lit_append {s : String} {p : Pattern} {text : List Char}
    (h : ∀ before, matchesAt p before text = true) (before : Option Char) :
    matchesAt (lit s ++ p) before (s.toList ++ text) = true := by
  unfold lit
  generalize s.toList = cs
  induction cs generalizing before with
  | nil => exact h before
  | cons c cs ih => simp [matchesAt, ih]

theorem test_of_mem {ps : List Pattern} {p : Pattern} {text : List Char} (hp : p ∈ ps)
    (h : matchesAt p none text = true) : test ps text = true :=
  List.any_eq_true.2 ⟨p, hp, search_of_matchesAt h⟩

/-! ## Lines -/

/-- What `.` does not match. -/
def isLineEnd (c : Char) : Bool := c == '\n' || c == '\r' || c == '\u2028' || c == '\u2029'

/-- `text.split(/\r?\n/)` -/
def splitLines : List Char → List (List Char)
  | [] => [[]]
  | '\n' :: cs => [] :: splitLines cs
  | '\r' :: '\n' :: cs => [] :: splitLines cs
  | c :: cs =>
    match splitLines cs with
    | line :: lines => (c :: line) :: lines
    | [] => [[c]]

/-- `text.split(/\r?\n/).map((l) => l.trim()).filter((l) => l.length > 0)` -/
def trimmedLines (text : List Char) : List (List Char) := ((splitLines text).map trim).filter (· ≠ [])

theorem splitLines_ne_nil (text : List Char) : splitLines text ≠ [] := by
  fun_cases splitLines text <;> simp

theorem splitLines_cons {c : Char} {cs line : List Char} {lines : List (List Char)} (hn : c ≠ '\n')
    (hr : ∀ cs', c = '\r' → cs ≠ '\n' :: cs') (h : splitLines cs = line :: lines) :
    splitLines (c :: cs) = (c :: line) :: lines := by
  rw [splitLines, h]
  · exact hn
  · exact hr

/-- The line is the other one, or that and a carriage return. -/
def SameLine (l l' : List Char) : Prop := l' = l ∨ l' = l ++ ['\r']

theorem SameLine.cons {l l' : List Char} (h : SameLine l l') (c : Char) : SameLine (c :: l) (c :: l') := by
  rcases h with rfl | rfl
  · exact .inl rfl
  · exact .inr rfl

theorem forall₂_sameLine_refl (lines : List (List Char)) : List.Forall₂ SameLine lines lines :=
  List.forall₂_same.2 fun _ _ => .inl rfl

/-- A line break ends the lines of the text before it. -/
theorem splitLines_append (a b : List Char) :
    List.Forall₂ SameLine (splitLines (a ++ '\n' :: b)) (splitLines a ++ splitLines b) := by
  induction a using splitLines.induct with
  | case1 => exact .cons (.inl rfl) (forall₂_sameLine_refl _)
  | case2 cs ih => exact .cons (.inl rfl) ih
  | case3 cs ih => exact .cons (.inl rfl) ih
  | case4 c cs hn hr line lines hlines ih =>
    rw [splitLines_cons hn hr hlines]
    rw [hlines] at ih
    by_cases hcr : c = '\r' ∧ cs = []
    · obtain ⟨rfl, rfl⟩ := hcr
      obtain ⟨rfl, rfl⟩ := List.cons.inj (show [[]] = line :: lines from hlines)
      exact .cons (.inr rfl) (forall₂_sameLine_refl _)
    · obtain ⟨line', lines', hsplit⟩ := List.exists_cons_of_ne_nil (splitLines_ne_nil (cs ++ '\n' :: b))
      have hr' : ∀ cs', c = '\r' → cs ++ '\n' :: b ≠ '\n' :: cs' := by
        intro cs' hc heq
        cases cs with
        | nil => exact hcr ⟨hc, rfl⟩
        | cons x xs => exact hr xs hc (by rw [(List.cons.inj heq).1])
      rw [List.cons_append, splitLines_cons hn hr' hsplit]
      rw [hsplit] at ih
      cases ih with
      | cons hhead htail => exact .cons (hhead.cons c) htail
  | case5 c cs hn hr hnil ih => exact absurd hnil (splitLines_ne_nil cs)

theorem trim_append_space {l : List Char} {c : Char} (hc : isSpace c = true) : trim (l ++ [c]) = trim l := by
  unfold trim
  by_cases hall : ∀ x ∈ l, isSpace x = true
  · rw [List.dropWhile_append_of_pos hall, List.dropWhile_eq_nil_iff.2 hall]
    simp [hc]
  · have hne : l.dropWhile isSpace ≠ [] := fun h => hall (List.dropWhile_eq_nil_iff.1 h)
    rw [List.dropWhile_append]
    simp [hc, hne]

theorem SameLine.trim_eq {l l' : List Char} (h : SameLine l l') : trim l = trim l' := by
  rcases h with rfl | rfl
  · rfl
  · rw [trim_append_space (by decide)]

theorem trimmedLines_append (a b : List Char) :
    trimmedLines (a ++ '\n' :: b) = trimmedLines a ++ trimmedLines b := by
  have hmap : (splitLines (a ++ '\n' :: b)).map trim = (splitLines a ++ splitLines b).map trim := by
    have h := splitLines_append a b
    generalize splitLines (a ++ '\n' :: b) = ls at h ⊢
    generalize splitLines a ++ splitLines b = ls' at h ⊢
    induction h with
    | nil => rfl
    | cons hl _ ih => rw [List.map_cons, List.map_cons, hl.trim_eq, ih]
  unfold trimmedLines
  rw [hmap, List.map_append, List.filter_append]

/-- A text without line breaks is one line. -/
theorem splitLines_of_one {text : List Char} (h : ∀ c ∈ text, c ≠ '\n') : splitLines text = [text] := by
  induction text with
  | nil => rfl
  | cons c cs ih =>
    refine splitLines_cons (h c List.mem_cons_self) ?_ (ih fun x hx => h x (List.mem_cons_of_mem _ hx))
    rintro cs' _ rfl
    exact h '\n' (by simp) rfl

end Js
