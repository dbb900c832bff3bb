import Mathlib.Data.List.GetD
import PwndaWallet.Lib.Js

/-!
# Phrases and lists of words

Phrases of lower-case words: what a program's normalizing does to them, and the `Map` that finds a word of a
list by its spelling or by its first letters. `tidy` decides what the lists are asked for.
-/

namespace Js

/-! ## Letter case -/

/-- Only the ASCII capitals change. -/
theorem toLower_eq_self {c : Char} (h : 91 ≤ c.toNat) : c.toLower = c := by
  delta Char.toLower
  rw [dif_neg]
  rintro ⟨-, hhigh⟩
  have hle := UInt32.le_iff_toNat_le.1 hhigh
  have hval : c.val.toNat = c.toNat := rfl
  simp at hle
  omega

/-- `toLowerCase`, which maps each character beside the text around it. Behind the ASCII letters, the tables
give an ASCII letter for the Kelvin sign only; what they give else is not looked at. -/
structure Casing where
  lowerAt : List Char → Char → List Char → List Char
  ascii (before : List Char) (c : Char) (rest : List Char) : c.toNat < 128 → lowerAt before c rest = [c.toLower]
  kelvin (before rest : List Char) : lowerAt before '\u212a' rest = ['k']
  other (before : List Char) (c : Char) (rest : List Char) : 128 ≤ c.toNat → c ≠ '\u212a' →
    ∃ d ∈ lowerAt before c rest, 128 ≤ d.toNat

namespace Casing

variable (k : Casing)

def lowerFrom (before : List Char) : List Char → List Char
  | [] => []
  | c :: rest => k.lowerAt before c rest ++ lowerFrom (before ++ [c]) rest

def toLowerCase (s : List Char) : List Char := k.lowerFrom [] s

theorem lowerFrom_ascii {s : List Char} (h : ∀ c ∈ s, c.toNat < 128) (before : List Char) :
    k.lowerFrom before s = s.map Char.toLower := by
  induction s generalizing before with
  | nil => rfl
  | cons c s ih =>
    rw [lowerFrom, k.ascii before c s (h c List.mem_cons_self), ih (fun d hd => h d (List.mem_cons_of_mem _ hd))]
    rfl

theorem toLowerCase_ascii {s : List Char} (h : ∀ c ∈ s, c.toNat < 128) : k.toLowerCase s = s.map Char.toLower :=
  k.lowerFrom_ascii h []

/-- A character that `toLowerCase` maps to an ASCII one. -/
def lowerOne (c : Char) : Char := if c = '\u212a' then 'k' else c.toLower

/-- An ASCII result comes from ASCII characters and Kelvin signs, each by itself. -/
theorem lowerFrom_plain {s : List Char} (before : List Char) (h : ∀ d ∈ k.lowerFrom before s, d.toNat < 128) :
    k.lowerFrom before s = s.map lowerOne ∧ ∀ c ∈ s, c.toNat < 128 ∨ c = '\u212a' := by
  induction s generalizing before with
  | nil => exact ⟨rfl, fun _ hc => absurd hc List.not_mem_nil⟩
  | cons c s ih =>
    rw [lowerFrom] at h ⊢
    obtain ⟨hrest, hall⟩ := ih (before ++ [c]) fun d hd => h d (List.mem_append_right _ hd)
    have hc : c.toNat < 128 ∨ c = '\u212a' := by
      by_contra hother
      rw [not_or, Nat.not_lt] at hother
      obtain ⟨d, hd, hhigh⟩ := k.other before c s hother.1 hother.2
      have hlow := h d (List.mem_append_left _ hd)
      omega
    have hone : k.lowerAt before c s = [lowerOne c] := by
      rw [lowerOne]
      by_cases hkelvin : c = '\u212a'
      · rw [if_pos hkelvin, hkelvin, k.kelvin]
      · rw [if_neg hkelvin, k.ascii before c s (hc.resolve_right hkelvin)]
    rw [hone, hrest]
    exact ⟨rfl, List.forall_mem_cons.2 ⟨hc, hall⟩⟩

theorem toLowerCase_plain {s : List Char} (h : ∀ d ∈ k.toLowerCase s, d.toNat < 128) :
    k.toLowerCase s = s.map lowerOne ∧ ∀ c ∈ s, c.toNat < 128 ∨ c = '\u212a' :=
  k.lowerFrom_plain [] h

/-- The tables' part that is said here. -/
def sample : Casing where
  lowerAt _ c _ := if c = '\u212a' then ['k'] else [c.toLower]
  ascii _ c _ h := by
    rw [if_neg]
    rintro rfl
    exact absurd h (by decide)
  kelvin _ _ := rfl
  other _ c _ h hne := by
    refine ⟨c, ?_, h⟩
    rw [if_neg hne, List.mem_singleton, toLower_eq_self (by omega)]

end Casing

/-! ## Phrases -/

/-- A word of lower-case letters. -/
def lowerWord (w : List Char) : Bool := w != [] && w.all fun c => 'a' ≤ c && c ≤ 'z'

/-- `ws.join(" ")` -/
def joinWords (ws : List (List Char)) : List Char := List.intercalate [' '] ws

/-- `s.split(" ")` -/
def splitWords (s : List Char) : List (List Char) := s.splitOn ' '

theorem lowerWord_ne_nil {w : List Char} (h : lowerWord w = true) : w ≠ [] := by
  simp only [lowerWord, Bool.and_eq_true, bne_iff_ne] at h
  exact h.1

theorem lowerWord_letter {w : List Char} (h : lowerWord w = true) {c : Char} (hc : c ∈ w) : 97 ≤ c.toNat ∧ c.toNat ≤ 122 := by
  simp only [lowerWord, Bool.and_eq_true, List.all_eq_true, decide_eq_true_eq] at h
  have hletter := h.2 c hc
  exact ⟨UInt32.le_iff_toNat_le.1 hletter.1, UInt32.le_iff_toNat_le.1 hletter.2⟩

theorem not_isSpace_of_letter {c : Char} (h : 97 ≤ c.toNat ∧ c.toNat ≤ 122) : isSpace c = false := by
  simp only [isSpace, Bool.or_eq_false_iff, Bool.and_eq_false_iff, decide_eq_false_iff_not, beq_eq_false_iff_ne]
  omega

theorem lowerWord_not_isSpace {w : List Char} (h : lowerWord w = true) {c : Char} (hc : c ∈ w) : isSpace c = false :=
  not_isSpace_of_letter (lowerWord_letter h hc)

theorem joinWords_cons (w : List Char) {ws : List (List Char)} (h : ws ≠ []) :
    joinWords (w :: ws) = w ++ ' ' :: joinWords ws := by
  cases ws with
  | nil => exact absurd rfl h
  | cons w' ws => rfl

@[simp] theorem joinWords_singleton (w : List Char) : joinWords [w] = w := by simp [joinWords, List.intercalate]

theorem trim_eq_self {s : List Char} (hhead : ∀ c ∈ s.head?, isSpace c = false)
    (hlast : ∀ c ∈ s.getLast?, isSpace c = false) : trim s = s := by
  have hdrop (l : List Char) (h : ∀ c ∈ l.head?, isSpace c = false) : l.dropWhile isSpace = l := by
    cases l with
    | nil => rfl
    | cons c l => rw [List.dropWhile_cons, if_neg (by simp [h c rfl])]
  rw [trim, hdrop s hhead, hdrop s.reverse (by simpa using hlast), List.reverse_reverse]

/-- What begins and ends with no space is what is left between spaces. -/
theorem trim_between {a s b : List Char} (ha : ∀ c ∈ a, isSpace c = true) (hb : ∀ c ∈ b, isSpace c = true)
    (hhead : ∀ c ∈ s.head?, isSpace c = false) (hlast : ∀ c ∈ s.getLast?, isSpace c = false) :
    trim (a ++ s ++ b) = s := by
  have hall (l : List Char) (h : ∀ c ∈ l, isSpace c = true) (m : List Char) :
      (l ++ m).dropWhile isSpace = m.dropWhile isSpace := by
    induction l with
    | nil => rfl
    | cons c l ih =>
      rw [List.cons_append, List.dropWhile_cons, if_pos (h c List.mem_cons_self),
        ih fun d hd => h d (List.mem_cons_of_mem _ hd)]
  by_cases hs : s = []
  · subst hs
    have hnone : (a ++ [] ++ b).dropWhile isSpace = [] := by
      rw [List.append_nil, hall a ha, ← List.append_nil b, hall b hb, List.dropWhile_nil]
    rw [trim, hnone]
    rfl
  · have hdrop : (a ++ s ++ b).dropWhile isSpace = s ++ b := by
      rw [List.append_assoc, hall a ha]
      cases s with
      | nil => exact absurd rfl hs
      | cons c s => rw [List.cons_append, List.dropWhile_cons, if_neg (by simp [hhead c rfl])]
    have htrim := trim_eq_self hhead hlast
    rw [trim, hdrop, List.reverse_append, hall b.reverse (by simpa using hb)]
    rw [trim] at htrim
    have hself : s.dropWhile isSpace = s := by
      cases s with
      | nil => rfl
      | cons c s => rw [List.dropWhile_cons, if_neg (by simp [hhead c rfl])]
    rwa [hself] at htrim

theorem collapse_word {w : List Char} (h : lowerWord w = true) (run : Bool) (rest : List Char) :
    collapse run (w ++ rest) = w ++ collapse false rest := by
  have hall : ∀ (l : List Char) (run : Bool), l ≠ [] → (∀ c ∈ l, isSpace c = false) →
      collapse run (l ++ rest) = l ++ collapse false rest := by
    intro l
    induction l with
    | nil => exact fun _ hne _ => absurd rfl hne
    | cons c l ih =>
      intro run _ hl
      rw [List.cons_append, collapse, if_neg (by simp [hl c List.mem_cons_self])]
      by_cases hnil : l = []
      · simp [hnil]
      · rw [ih false hnil fun d hd => hl d (List.mem_cons_of_mem _ hd), List.cons_append]
  exact hall w run (lowerWord_ne_nil h) fun c hc => lowerWord_not_isSpace h hc

section Phrase

variable {ws : List (List Char)} (h : ∀ w ∈ ws, lowerWord w = true)
include h

theorem joinWords_chars {c : Char} (hc : c ∈ joinWords ws) : c = ' ' ∨ 97 ≤ c.toNat ∧ c.toNat ≤ 122 := by
  induction ws with
  | nil => simp [joinWords, List.intercalate] at hc
  | cons w ws ih =>
    by_cases hnil : ws = []
    · subst hnil
      rw [joinWords_singleton] at hc
      exact .inr (lowerWord_letter (h w List.mem_cons_self) hc)
    · rw [joinWords_cons w hnil, List.mem_append, List.mem_cons] at hc
      rcases hc with hc | hc | hc
      · exact .inr (lowerWord_letter (h w List.mem_cons_self) hc)
      · exact .inl hc
      · exact ih (fun w hw => h w (List.mem_cons_of_mem _ hw)) hc

theorem joinWords_head {c : Char} (hc : c ∈ (joinWords ws).head?) : isSpace c = false := by
  cases ws with
  | nil => simp [joinWords, List.intercalate] at hc
  | cons w ws =>
    have hw := h w List.mem_cons_self
    have hhead : c ∈ w.head? := by
      by_cases hnil : ws = []
      · simpa [hnil] using hc
      · rw [joinWords_cons w hnil, List.head?_append_of_ne_nil w (lowerWord_ne_nil hw)] at hc
        exact hc
    exact lowerWord_not_isSpace hw (List.mem_of_mem_head? hhead)

theorem joinWords_last {c : Char} (hc : c ∈ (joinWords ws).getLast?) : isSpace c = false := by
  induction ws with
  | nil => simp [joinWords, List.intercalate] at hc
  | cons w ws ih =>
    have hw := h w List.mem_cons_self
    by_cases hnil : ws = []
    · subst hnil
      rw [joinWords_singleton] at hc
      exact lowerWord_not_isSpace hw (List.mem_of_getLast? hc)
    · rw [joinWords_cons w hnil] at hc
      have hne : joinWords ws ≠ [] := by
        cases ws with
        | nil => exact absurd rfl hnil
        | cons w' ws =>
          have hw' := lowerWord_ne_nil (h w' (by simp))
          by_cases hnil' : ws = []
          · simpa [hnil'] using hw'
          · rw [joinWords_cons w' hnil']
            simp
      rw [List.getLast?_append_of_ne_nil _ (by simp), List.getLast?_cons_of_ne_nil hne] at hc
      exact ih (fun w hw => h w (List.mem_cons_of_mem _ hw)) hc

theorem trim_joinWords : trim (joinWords ws) = joinWords ws :=
  trim_eq_self (fun _ hc => joinWords_head h hc) fun _ hc => joinWords_last h hc

theorem toLowerCase_joinWords (k : Casing) : k.toLowerCase (joinWords ws) = joinWords ws := by
  have hascii (c : Char) (hc : c ∈ joinWords ws) : c.toNat < 128 ∧ c.toLower = c := by
    rcases joinWords_chars h hc with rfl | hletter
    · decide
    · exact ⟨by omega, toLower_eq_self (by omega)⟩
  rw [k.toLowerCase_ascii fun c hc => (hascii c hc).1]
  exact (List.map_congr_left fun c hc => (hascii c hc).2).trans (List.map_id _)

theorem collapse_joinWords : collapse false (joinWords ws) = joinWords ws := by
  induction ws with
  | nil => rfl
  | cons w ws ih =>
    have hw := h w List.mem_cons_self
    by_cases hnil : ws = []
    · have hword := collapse_word hw false []
      simpa [hnil, collapse] using hword
    · have hrest := ih fun w hw => h w (List.mem_cons_of_mem _ hw)
      rw [joinWords_cons w hnil, collapse_word hw, collapse, if_pos (by decide), if_neg (by decide)]
      cases ws with
      | nil => exact absurd rfl hnil
      | cons w' ws =>
        have hw' := h w' (by simp)
        by_cases hnil' : ws = []
        · subst hnil'
          have hword := collapse_word hw' true []
          simpa [collapse] using hword
        · rw [joinWords_cons w' hnil', collapse_word hw'] at hrest ⊢
          rw [hrest]

theorem splitWords_joinWords (hne : ws ≠ []) : splitWords (joinWords ws) = ws := by
  refine List.splitOn_intercalate ' ' (fun w hw hspace => ?_) hne
  have hnot := lowerWord_not_isSpace (h w hw) hspace
  exact absurd hnot (by decide)

end Phrase

/-! ## Maps from the words -/

section Map

variable {κ ν : Type} [DecidableEq κ]

/-- `m.get(k)` of a `Map` that was filled by these `m.set`. -/
def mapGet (sets : List (κ × ν)) (k : κ) : Option ν := (sets.reverse.find? (·.1 = k)).map (·.2)

theorem mem_of_mapGet {sets : List (κ × ν)} {k : κ} {v : ν} (h : mapGet sets k = some v) : (k, v) ∈ sets := by
  obtain ⟨e, he, rfl⟩ := Option.map_eq_some_iff.1 h
  have hkey : e.1 = k := by simpa using List.find?_some he
  have hmem := List.mem_reverse.1 (List.mem_of_find?_eq_some he)
  rwa [← hkey]

theorem mapGet_of_mem {sets : List (κ × ν)} {k : κ} {v : ν} (h : (k, v) ∈ sets)
    (huniq : ∀ v', (k, v') ∈ sets → v' = v) : mapGet sets k = some v := by
  have hsome : (mapGet sets k).isSome = true := by
    rw [mapGet, Option.isSome_map, List.find?_isSome]
    exact ⟨(k, v), List.mem_reverse.2 h, by simp⟩
  obtain ⟨v', hv'⟩ := Option.isSome_iff_exists.1 hsome
  rw [hv', huniq v' (mem_of_mapGet hv')]

end Map

/-- Lower-case words, told apart by their first letters. -/
structure Wordlist where
  words : List (List Char)
  prefixLen : Nat
  lowerWord : ∀ w ∈ words, lowerWord w = true
  nodup : (words.map (·.take prefixLen)).Nodup

namespace Wordlist

variable (l : Wordlist)

/-- The spelling of a word that is typed in short. -/
def short (w : List Char) : List Char := w.take l.prefixLen

/-- `words[i]` -/
def word (i : Nat) : List Char := l.words.getD i []

/-- The index by whole words. -/
def byWord (w : List Char) : Option Nat := mapGet l.words.zipIdx w

/-- The index by whole words and their first letters. -/
def bySpelling (w : List Char) : Option Nat :=
  mapGet (l.words.zipIdx.flatMap fun e => [(e.1, e.2), (l.short e.1, e.2)]) w

variable {l}

theorem lowerWord_word {i : Nat} (h : i < l.words.length) : Js.lowerWord (l.word i) = true := by
  rw [word, List.getD_eq_getElem _ _ h]
  exact l.lowerWord _ (List.getElem_mem h)

theorem mem_zipIdx {u : List Char} {i : Nat} : (u, i) ∈ l.words.zipIdx ↔ i < l.words.length ∧ u = l.word i := by
  rw [List.mem_zipIdx_iff_getElem?, List.getElem?_eq_some_iff, word]
  constructor
  · rintro ⟨hi, hu⟩
    exact ⟨hi, by rw [List.getD_eq_getElem _ _ hi, hu]⟩
  · rintro ⟨hi, hu⟩
    exact ⟨hi, by rw [hu, List.getD_eq_getElem _ _ hi]⟩

theorem word_inj {i j : Nat} (hi : i < l.words.length) (hj : j < l.words.length)
    (h : l.short (l.word i) = l.short (l.word j)) : i = j := by
  have hi' : i < (l.words.map (·.take l.prefixLen)).length := by simpa using hi
  have hj' : j < (l.words.map (·.take l.prefixLen)).length := by simpa using hj
  refine (@List.Nodup.getElem_inj_iff _ _ l.nodup i hi' j hj').1 ?_
  rw [word, word, List.getD_eq_getElem _ _ hi, List.getD_eq_getElem _ _ hj] at h
  simpa [short] using h

theorem byWord_eq_some {w : List Char} {i : Nat} : l.byWord w = some i ↔ i < l.words.length ∧ w = l.word i := by
  rw [← mem_zipIdx]
  constructor
  · exact mem_of_mapGet
  · intro h
    refine mapGet_of_mem h fun j hj => ?_
    obtain ⟨hi, rfl⟩ := mem_zipIdx.1 h
    obtain ⟨hj, heq⟩ := mem_zipIdx.1 hj
    exact word_inj hj hi (congrArg l.short heq.symm)

@[simp] theorem short_short (w : List Char) : l.short (l.short w) = l.short w := by
  rw [short, short, List.take_take, Nat.min_self]

theorem bySpelling_eq_some {w : List Char} {i : Nat} :
    l.bySpelling w = some i ↔ i < l.words.length ∧ (w = l.word i ∨ w = l.short (l.word i)) := by
  have hmem (j : Nat) : (w, j) ∈ l.words.zipIdx.flatMap (fun e => [(e.1, e.2), (l.short e.1, e.2)]) ↔
      j < l.words.length ∧ (w = l.word j ∨ w = l.short (l.word j)) := by
    simp only [List.mem_flatMap, List.mem_cons, List.not_mem_nil, or_false, Prod.mk.injEq]
    constructor
    · rintro ⟨⟨u, j'⟩, hu, ⟨rfl, rfl⟩ | ⟨rfl, rfl⟩⟩
      · obtain ⟨hj, rfl⟩ := mem_zipIdx.1 hu
        exact ⟨hj, .inl rfl⟩
      · obtain ⟨hj, rfl⟩ := mem_zipIdx.1 hu
        exact ⟨hj, .inr rfl⟩
    · rintro ⟨hj, rfl | rfl⟩
      · exact ⟨(l.word j, j), mem_zipIdx.2 ⟨hj, rfl⟩, .inl ⟨rfl, rfl⟩⟩
      · exact ⟨(l.word j, j), mem_zipIdx.2 ⟨hj, rfl⟩, .inr ⟨rfl, rfl⟩⟩
  rw [← hmem]
  constructor
  · exact mem_of_mapGet
  · intro h
    refine mapGet_of_mem h fun j hj => ?_
    obtain ⟨hi, hw⟩ := (hmem i).1 h
    obtain ⟨hj, hw'⟩ := (hmem j).1 hj
    have hshort : l.short w = l.short (l.word i) := by
      rcases hw with hw | hw <;> simp [hw]
    have hshort' : l.short w = l.short (l.word j) := by
      rcases hw' with hw' | hw' <;> simp [hw']
    exact word_inj hj hi (hshort'.symm.trans hshort)

theorem byWord_word {i : Nat} (h : i < l.words.length) : l.byWord (l.word i) = some i := byWord_eq_some.2 ⟨h, rfl⟩

theorem bySpelling_word {i : Nat} (h : i < l.words.length) : l.bySpelling (l.word i) = some i :=
  bySpelling_eq_some.2 ⟨h, .inl rfl⟩

end Wordlist

/-! ## The check of a list -/

/-- One letter more of a code of `k` letters. -/
def addLetter : Nat → Nat → Nat → Nat
  | 0, n, _ => n
  | _ + 1, n, b => 256 * n + b

/-- The first letters of a word as one number, if all of it is lower-case letters. -/
def letterCode : Nat → List UInt8 → Nat → Option Nat
  | _, [], n => some n
  | k, b :: bs, n =>
    if Nat.ble 97 b.toNat && Nat.ble b.toNat 122 then
      letterCode (k - 1) bs (addLetter k n b.toNat)
    else none

inductive Tree where
  | leaf
  | node (left : Tree) (a : Nat) (right : Tree)

namespace Tree

def insert (a : Nat) : Tree → Tree
  | leaf => node leaf a leaf
  | node left b right =>
    match Nat.ble a b with
    | true => node (left.insert a) b right
    | false => node left b (right.insert a)

def toList : Tree → List Nat
  | leaf => []
  | node left a right => left.toList ++ a :: right.toList

theorem perm_insert (a : Nat) (t : Tree) : (t.insert a).toList.Perm (a :: t.toList) := by
  induction t with
  | leaf => exact List.Perm.refl _
  | node left b right ihl ihr =>
    rw [insert]
    cases Nat.ble a b with
    | true => exact (ihl.append_right _).trans (List.Perm.refl _)
    | false =>
      refine ((ihr.cons b).append_left _).trans ?_
      exact ((List.Perm.swap a b _).append_left _).trans List.perm_middle

end Tree

/-- Codes of an alphabetical list would make one long branch. -/
def scramble (c : Nat) : Nat := c * 6364136223846793005 % 2305843009213693951

/-- The words' codes in a tree. -/
def plant (k : Nat) : List String → Tree → Option Tree
  | [], t => some t
  | w :: ws, t => (letterCode k w.toByteArray.data.toList 0).bind fun c => plant k ws (t.insert (scramble c))

/-- Each is greater than the one before. -/
def increasing : Nat → List Nat → Bool
  | _, [] => true
  | a, b :: l => Nat.blt a b && increasing b l

/-- All are lower-case words, and their first `k` letters tell them apart. -/
def tidy (k : Nat) (ws : List String) : Bool :=
  match plant k ws .leaf with
  | some t => increasing 0 t.toList
  | none => false

theorem increasing_pairwise {a : Nat} {l : List Nat} (h : increasing a l = true) :
    (a :: l).Pairwise (· < ·) := by
  induction l generalizing a with
  | nil => exact List.pairwise_singleton _ _
  | cons b l ih =>
    simp only [increasing, Bool.and_eq_true, Nat.blt_eq] at h
    have hrest := ih h.2
    refine List.pairwise_cons.2 ⟨fun c hc => ?_, hrest⟩
    rcases List.mem_cons.1 hc with rfl | hc
    · exact h.1
    · exact Nat.lt_trans h.1 ((List.pairwise_cons.1 hrest).1 c hc)

/-- The code of the letters. -/
def codeOf (n : Nat) (w : List Char) : Nat := w.foldl (fun n c => 256 * n + c.toNat) n

theorem byte_of_char {c : Char} {bs : List UInt8} (h : ∀ b ∈ String.utf8EncodeChar c ++ bs, b.toNat < 128) :
    String.utf8EncodeChar c = [UInt8.ofNat c.toNat] ∧ c.toNat < 128 := by
  by_cases hc : c.toNat < 128
  · refine ⟨?_, hc⟩
    have hval : c.val.toNat = c.toNat := rfl
    rw [String.utf8EncodeChar, if_pos (by omega), hval]
  · exfalso
    have hval : c.val.toNat = c.toNat := rfl
    simp only [String.utf8EncodeChar] at h
    rw [if_neg (by omega)] at h
    split at h
    · have hfirst := h _ List.mem_cons_self
      simp only [UInt8.toNat_ofNat'] at hfirst
      omega
    · split at h
      · have hfirst := h _ List.mem_cons_self
        simp only [UInt8.toNat_ofNat'] at hfirst
        omega
      · have hfirst := h _ List.mem_cons_self
        simp only [UInt8.toNat_ofNat'] at hfirst
        omega

theorem letterCode_cons {k n c : Nat} {b : UInt8} {bs : List UInt8} (h : letterCode k (b :: bs) n = some c) :
    (97 ≤ b.toNat ∧ b.toNat ≤ 122) ∧
      letterCode (k - 1) bs (addLetter k n b.toNat) = some c := by
  rw [letterCode] at h
  by_cases hb : (Nat.ble 97 b.toNat && Nat.ble b.toNat 122) = true
  · rw [if_pos hb] at h
    simp only [Bool.and_eq_true, Nat.ble_eq] at hb
    exact ⟨hb, h⟩
  · rw [if_neg hb] at h
    cases h

theorem letterCode_ascii {k n c : Nat} {bs : List UInt8} (h : letterCode k bs n = some c) :
    ∀ b ∈ bs, b.toNat < 128 := by
  induction bs generalizing k n with
  | nil => simp
  | cons b bs ih =>
    obtain ⟨hb, hrest⟩ := letterCode_cons h
    intro d hd
    rcases List.mem_cons.1 hd with rfl | hd
    · omega
    · exact ih hrest d hd

theorem letterCode_eq {w : List Char} {k n c : Nat} (h : letterCode k (w.flatMap String.utf8EncodeChar) n = some c) :
    (∀ d ∈ w, 97 ≤ d.toNat ∧ d.toNat ≤ 122) ∧ c = codeOf n (w.take k) := by
  induction w generalizing k n with
  | nil =>
    rw [List.flatMap_nil, letterCode, Option.some.injEq] at h
    simp [codeOf, h]
  | cons d w ih =>
    rw [List.flatMap_cons] at h
    obtain ⟨hbyte, hlt⟩ := byte_of_char (letterCode_ascii h)
    rw [hbyte] at h
    obtain ⟨hd, hrest⟩ := letterCode_cons h
    obtain ⟨hall, hcode⟩ := ih hrest
    have hval : (UInt8.ofNat d.toNat).toNat = d.toNat := by
      rw [UInt8.toNat_ofNat']
      omega
    rw [hval] at hd
    refine ⟨fun e he => ?_, ?_⟩
    · rcases List.mem_cons.1 he with rfl | he
      · exact hd
      · exact hall e he
    · rw [hcode]
      cases k with
      | zero => simp [codeOf, addLetter]
      | succ k => simp [codeOf, addLetter, hval]

theorem plant_perm {k : Nat} {ws : List String} {t t' : Tree} (h : plant k ws t = some t') :
    (∀ w ∈ ws, ∀ d ∈ w.toList, 97 ≤ d.toNat ∧ d.toNat ≤ 122) ∧
      t'.toList.Perm (ws.map (fun w => scramble (codeOf 0 (w.toList.take k))) ++ t.toList) := by
  induction ws generalizing t with
  | nil =>
    rw [plant, Option.some.injEq] at h
    simp [h]
  | cons w ws ih =>
    rw [plant, Option.bind_eq_some_iff] at h
    obtain ⟨c, hc, hrest⟩ := h
    have hbytes : w.toByteArray.data.toList = w.toList.flatMap String.utf8EncodeChar := by
      rw [← String.utf8Encode_toList, List.utf8Encode]
      simp
    rw [hbytes] at hc
    obtain ⟨hletters, rfl⟩ := letterCode_eq hc
    obtain ⟨hall, hperm⟩ := ih hrest
    refine ⟨fun v hv => ?_, ?_⟩
    · rcases List.mem_cons.1 hv with rfl | hv
      · exact hletters
      · exact hall v hv
    · refine hperm.trans ?_
      rw [List.map_cons, List.cons_append]
      exact ((Tree.perm_insert _ t).append_left _).trans List.perm_middle

/-- The check is right. -/
theorem tidy_spec {k : Nat} {ws : List String} (h : tidy k ws = true) :
    (∀ w ∈ ws, lowerWord w.toList = true) ∧ (ws.map (·.toList.take k)).Nodup := by
  rw [tidy] at h
  cases hplant : plant k ws .leaf with
  | none => simp [hplant] at h
  | some t =>
    rw [hplant] at h
    obtain ⟨hletters, hperm⟩ := plant_perm hplant
    have hsorted := increasing_pairwise h
    simp only [Tree.toList, List.append_nil] at hperm
    have hnodup : (ws.map fun w => scramble (codeOf 0 (w.toList.take k))).Nodup :=
      hperm.nodup_iff.1 ((List.pairwise_cons.1 hsorted).2.imp fun hlt => Nat.ne_of_lt hlt)
    refine ⟨fun w hw => ?_, ?_⟩
    · simp only [lowerWord, Bool.and_eq_true, bne_iff_ne, List.all_eq_true, decide_eq_true_eq]
      refine ⟨fun hnil => ?_, fun c hc => ?_⟩
      · have hpos := (List.pairwise_cons.1 hsorted).1 _ (hperm.mem_iff.2 (List.mem_map.2 ⟨w, hw, rfl⟩))
        simp [hnil, codeOf, scramble] at hpos
      · have hletter := hletters w hw c hc
        exact ⟨UInt32.le_iff_toNat_le.2 hletter.1, UInt32.le_iff_toNat_le.2 hletter.2⟩
    · refine List.Nodup.of_map (fun w => scramble (codeOf 0 w)) ?_
      rwa [List.map_map]

/-- A list that passes the check. -/
def Wordlist.ofStrings (ws : List String) (k : Nat) (h : tidy k ws = true) : Wordlist where
  words := ws.map String.toList
  prefixLen := k
  lowerWord w hw := by
    obtain ⟨s, hs, rfl⟩ := List.mem_map.1 hw
    exact (tidy_spec h).1 s hs
  nodup := by
    rw [List.map_map]
    exact (tidy_spec h).2

end Js
