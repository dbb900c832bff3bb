import PwndaWallet.Lib.Decimal
import PwndaWallet.Sidecar.Descriptors
import Mathlib.Data.List.Infix
import Mathlib.Data.List.TakeWhile

/-!
# What an import's confirmation rests on

A reply is good if it has the expected number of entries and each one reports success. The listing
confirms an import if it names the account's fingerprint on both branches, whatever else a descriptor says.
Scrubbing leaves no secret that is apart from the marker, has no line break and is in none of the two
other marks.
-/

namespace Descriptors

open Rust

/-! ## The reply -/

theorem succeeded_iff (entry : Json) : succeeded entry = true ↔ entry.get "success" = some (.bool true) := by
  simp only [succeeded]
  cases entry.get "success" with
  | none => simp
  | some v => cases v <;> simp [Json.asBool]

theorem readEntries_ok (i : Nat) (es : List Json) :
    (∃ ws, readEntries i es = .ok ws) ↔ ∀ e ∈ es, e.get "success" = some (.bool true) := by
  induction es generalizing i with
  | nil => simp [readEntries]
  | cons e es ih =>
    by_cases h : succeeded e = true
    · simp only [readEntries, if_pos h, List.forall_mem_cons, ← ih (i + 1), (succeeded_iff e).1 h, true_and]
      cases readEntries (i + 1) es <;> simp [Except.map]
    · simp only [readEntries, if_neg h, List.forall_mem_cons, ← succeeded_iff]
      simp [h]

theorem parseImportResults_ok (v : Json) (expected : Nat) : (∃ ws, parseImportResults v expected = .ok ws) ↔
    ∃ arr, v = .arr arr ∧ arr.length = expected ∧ ∀ e ∈ arr, e.get "success" = some (.bool true) := by
  cases v with
  | arr xs =>
    by_cases h : xs.length = expected
    · simp [parseImportResults, Json.asArray, h, readEntries_ok]
    · simp [parseImportResults, Json.asArray, h]
  | _ => simp [parseImportResults, Json.asArray]

/-! ## The end of a descriptor -/

theorem hasInfix_iff (s t : List Char) : hasInfix s t = true ↔ t <:+: s := by
  induction s with
  | nil => simp [hasInfix]
  | cons c s ih => simp [hasInfix, ih, List.infix_cons_iff]

theorem head_split (desc d : String) (c : Char) :
    ((split desc c).headD d).toList = desc.toList.takeWhile (· ≠ c) := by
  have hgo (s : List Char) : ∃ rest, split.go c s = s.takeWhile (· ≠ c) :: rest := by
    induction s with
    | nil => exact ⟨[], rfl⟩
    | cons x s ih =>
      obtain ⟨rest, hrest⟩ := ih
      by_cases hx : x = c
      · exact ⟨split.go c s, by simp [split.go, hx]⟩
      · exact ⟨rest, by simp [split.go, hx, hrest]⟩
  obtain ⟨rest, hrest⟩ := hgo desc.toList
  simp [split, hrest]

theorem takeWhile_stop {s t : List Char} {c : Char} (h : c ∉ s) : (s ++ c :: t).takeWhile (· ≠ c) = s := by
  have hall : ∀ d ∈ s, (decide (d ≠ c)) = true := by
    intro d hd
    simp only [decide_eq_true_eq]
    rintro rfl
    exact h hd
  rw [List.takeWhile_append_of_pos hall]
  simp

theorem beforeStar_eq_some {s p : List Char} :
    beforeStar s = some p ↔ (∃ rest, s = p ++ '/' :: '*' :: rest) ∧ ¬ ['/', '*'] <:+: p := by
  induction s generalizing p with
  | nil => simp [beforeStar]
  | cons c s ih =>
    by_cases h : "/*".toList.isPrefixOf (c :: s) = true
    · rw [beforeStar, if_pos h]
      obtain ⟨rest, hrest⟩ := List.isPrefixOf_iff_prefix.1 h
      constructor
      · intro hp
        obtain rfl := Option.some.inj hp
        exact ⟨⟨rest, hrest.symm⟩, by simp⟩
      · rintro ⟨⟨rest', hs⟩, hno⟩
        cases p with
        | nil => rfl
        | cons d p =>
          exfalso
          apply hno
          rw [← hrest] at hs
          cases p with
          | nil => simp at hs
          | cons e p =>
            obtain ⟨rfl, rfl, -⟩ : '/' = d ∧ '*' = e ∧ rest = p ++ '/' :: '*' :: rest' := by simpa using hs
            exact ⟨[], p, rfl⟩
    · rw [beforeStar, if_neg h]
      constructor
      · intro hp
        obtain ⟨q, hq, rfl⟩ := Option.map_eq_some_iff.1 hp
        obtain ⟨⟨rest, rfl⟩, hno⟩ := ih.1 hq
        refine ⟨⟨rest, rfl⟩, ?_⟩
        intro hin
        rcases List.infix_cons_iff.1 hin with hpre | hin
        · apply h
          apply List.isPrefixOf_iff_prefix.2
          exact hpre.trans ⟨'/' :: '*' :: rest, rfl⟩
        · exact hno hin
      · rintro ⟨⟨rest, hs⟩, hno⟩
        cases p with
        | nil => exact absurd (List.isPrefixOf_iff_prefix.2 ⟨rest, hs.symm⟩) h
        | cons d p =>
          obtain ⟨rfl, rfl⟩ := List.cons.inj hs
          rw [ih.2 ⟨⟨rest, rfl⟩, fun hin => hno (List.infix_cons_iff.2 (Or.inr hin))⟩]
          rfl

theorem afterSlash_eq_some {p n : List Char} : afterSlash p = some n ↔ ∃ a, p = a ++ '/' :: n ∧ '/' ∉ n := by
  have hend (a n : List Char) (hn : '/' ∉ n) :
      ((a ++ '/' :: n).reverse.takeWhile (· ≠ '/')).reverse = n := by
    rw [List.reverse_append, List.reverse_cons, List.append_assoc]
    rw [List.singleton_append, takeWhile_stop (by simpa using hn), List.reverse_reverse]
  unfold afterSlash
  by_cases h : '/' ∈ p
  · rw [if_pos h]
    constructor
    · intro hn
      obtain rfl := Option.some.inj hn
      obtain ⟨n, a, hp, hna⟩ := List.eq_append_cons_of_mem (List.mem_reverse.2 h)
      have hp' : p = a.reverse ++ '/' :: n.reverse := by
        rw [← List.reverse_reverse p, hp]; simp
      have hn' : '/' ∉ n.reverse := by simpa using hna
      refine ⟨a.reverse, ?_, ?_⟩ <;> rw [hp', hend _ _ hn']
      exact hn'
    · rintro ⟨a, rfl, hn⟩
      rw [hend a n hn]
  · rw [if_neg h]
    constructor
    · intro hn
      cases hn
    · rintro ⟨a, rfl, -⟩
      exact absurd (by simp) h

/-- The first wildcard of the text, its checksum apart, stands after `/`, the branch and `/`. -/
def EndsIn (i : Nat) (desc : String) : Prop :=
  ∃ a n rest, desc.toList.takeWhile (· ≠ '#') = a ++ '/' :: n ++ '/' :: '*' :: rest ∧ '/' ∉ n ∧
    ¬ ['/', '*'] <:+: a ++ '/' :: n ∧ parseU32 (String.ofList n) = some i

theorem trailingBranch_eq_some {desc : String} {i : Nat} : trailingBranch desc = some i ↔ EndsIn i desc := by
  simp only [trailingBranch, Option.bind_eq_some_iff, beforeStar_eq_some, afterSlash_eq_some]
  rw [head_split]
  constructor
  · rintro ⟨p, ⟨⟨rest, hp⟩, hno⟩, n, ⟨a, rfl, hn⟩, hi⟩
    exact ⟨a, n, rest, hp, hn, hno, hi⟩
  · rintro ⟨a, n, rest, hp, hn, hno, hi⟩
    exact ⟨a ++ '/' :: n, ⟨⟨rest, hp⟩, hno⟩, n, ⟨a, rfl, hn⟩, hi⟩

/-! ## The listing -/

theorem mem_dedup (l : List Nat) (i : Nat) : i ∈ dedup l ↔ i ∈ l := by
  induction l using dedup.induct with
  | case1 => simp [dedup]
  | case2 n => simp [dedup]
  | case3 m rest ih => simp [dedup, ih]
  | case4 n m rest hne ih => simp [dedup, hne, ih]

theorem mem_readBackBranches (listed : Json) (fingerprint : String) (i : Nat) :
    i ∈ readBackBranches listed fingerprint ↔
      ∃ desc ∈ descs listed, names fingerprint desc = true ∧ EndsIn i desc := by
  simp only [readBackBranches, mem_dedup, Js.sortOn, Js.mem_sort, List.mem_filterMap, List.mem_filter,
    trailingBranch_eq_some, and_assoc]

theorem readBackConfirms_iff (listed : Json) (fingerprint : String) : readBackConfirms listed fingerprint = true ↔
    ∀ b ∈ BRANCHES, ∃ desc ∈ descs listed, names fingerprint desc = true ∧ EndsIn b.1 desc := by
  simp only [readBackConfirms, List.all_eq_true, List.contains_iff_mem, mem_readBackBranches]

/-! ## Descriptors of one key -/

/-- A step of a key's path, with its mark if it is hardened. -/
structure Level where
  index : Nat
  mark : Option Char
  mark_known : ∀ c ∈ mark, c ∈ ['h', 'H', '\'']

/-- A descriptor of one extended key with its origin, and one branch of it. -/
structure KeyDescriptor where
  wrappers : List String
  fingerprint : String
  path : List Level
  key : String
  branch : Nat
  checksum : Option String
  wrappers_plain : ∀ w ∈ wrappers, ∀ c ∈ w.toList, c.isAlphanum
  fingerprint_plain : ∀ c ∈ fingerprint.toList, c.isAlphanum
  path_ne_nil : path ≠ []
  key_plain : ∀ c ∈ key.toList, c.isAlphanum
  branch_lt : branch < 2 ^ 31
  checksum_plain : ∀ s ∈ checksum, ∀ c ∈ s.toList, c.isAlphanum

def Level.text (l : Level) : List Char := '/' :: Nat.toDigits 10 l.index ++ l.mark.toList

namespace KeyDescriptor

def opens (d : KeyDescriptor) : List Char := d.wrappers.flatMap fun w => w.toList ++ ['(']

/-- From the path on. -/
def rest (d : KeyDescriptor) : List Char :=
  d.path.flatMap Level.text ++ ']' :: d.key.toList ++ '/' :: Nat.toDigits 10 d.branch

def closes (d : KeyDescriptor) : List Char := List.replicate d.wrappers.length ')'

def text (d : KeyDescriptor) : String :=
  String.ofList (d.opens ++ '[' :: d.fingerprint.toList ++ d.rest ++ '/' :: '*' :: d.closes ++
    (d.checksum.map fun s => '#' :: s.toList).getD [])

end KeyDescriptor

/-- What a text between the marks of a descriptor is made of. -/
def plainBut (others : List Char) (s : List Char) : Prop := ∀ c ∈ s, c.isAlphanum ∨ c ∈ others

theorem plainBut_append {others s t : List Char} :
    plainBut others (s ++ t) ↔ plainBut others s ∧ plainBut others t := by
  simp [plainBut, or_imp, forall_and]

theorem plainBut_cons {others s : List Char} {c : Char} :
    plainBut others (c :: s) ↔ (c.isAlphanum ∨ c ∈ others) ∧ plainBut others s := by
  simp [plainBut]

theorem plainBut_mono {others more s : List Char} (h : plainBut others s) (hm : ∀ c ∈ others, c ∈ more) :
    plainBut more s :=
  fun c hc => (h c hc).imp_right (hm c)

theorem plainBut_flatMap {α : Type} {others : List Char} {f : α → List Char} {l : List α}
    (h : ∀ a ∈ l, plainBut others (f a)) : plainBut others (l.flatMap f) := by
  intro c hc
  obtain ⟨a, ha, hca⟩ := List.mem_flatMap.1 hc
  exact h a ha c hca

theorem not_mem_of_plainBut {others s : List Char} {c : Char} (h : plainBut others s) (hc : c.isAlphanum = false)
    (ho : c ∉ others) : c ∉ s := by
  intro hmem
  rcases h c hmem with hp | hp
  · rw [hc] at hp
    cases hp
  · exact ho hp

theorem plainBut_digits (others : List Char) (n : Nat) : plainBut others (Nat.toDigits 10 n) := by
  intro c hc
  apply Or.inl
  simp [Char.isAlphanum, isDigit_of_mem_toDigits hc]

theorem isAlphanum_toLower {c : Char} (h : c.isAlphanum = true) : c.toLower.isAlphanum = true := by
  delta Char.toLower
  split
  case isTrue hu =>
    have hle : 65 ≤ c.val.toNat := UInt32.le_iff_toNat_le.1 hu.1
    have hge : c.val.toNat ≤ 90 := UInt32.le_iff_toNat_le.1 hu.2
    have hsum : (c.val + ('a'.val - 'A'.val)).toNat = c.val.toNat + 32 := by
      rw [UInt32.toNat_add]
      exact Nat.mod_eq_of_lt (by change c.val.toNat + 32 < 2 ^ 32; omega)
    delta Char.isAlphanum Char.isAlpha Char.isLower
    simp only [Bool.or_eq_true, Bool.and_eq_true, decide_eq_true_eq,
      UInt32.le_iff_toNat_le, ge_iff_le, hsum]
    refine Or.inl (Or.inr ⟨?_, ?_⟩)
    · change 97 ≤ c.val.toNat + 32
      omega
    · change c.val.toNat + 32 ≤ 122
      omega
  case isFalse => exact h

theorem plainBut_lower {others s : List Char} (h : plainBut others s)
    (ho : (others.all fun c => c.toLower.isAlphanum || others.contains c.toLower) = true) :
    plainBut others (s.map Char.toLower) := by
  intro c hc
  obtain ⟨b, hb, rfl⟩ := List.mem_map.1 hc
  rcases h b hb with h | h
  · exact Or.inl (isAlphanum_toLower h)
  · have hb := List.all_eq_true.1 ho b h
    simpa using hb

namespace KeyDescriptor

theorem opens_plain (d : KeyDescriptor) : plainBut ['('] d.opens := by
  apply plainBut_flatMap
  intro w hw
  rw [plainBut_append]
  exact ⟨fun c hc => Or.inl (d.wrappers_plain w hw c hc), by simp [plainBut]⟩

theorem level_plain (l : Level) : plainBut ['/', '\''] l.text := by
  rw [Level.text, List.cons_append, plainBut_cons, plainBut_append]
  refine ⟨by simp, plainBut_digits _ _, ?_⟩
  intro c hc
  have hk := l.mark_known c (by simpa using hc)
  simp only [List.mem_cons, List.not_mem_nil, or_false] at hk
  rcases hk with rfl | rfl | rfl <;> decide

theorem rest_plain (d : KeyDescriptor) : plainBut ['/', '\'', ']'] d.rest := by
  simp only [rest, plainBut_append, plainBut_cons]
  refine ⟨⟨plainBut_flatMap fun l _ => ?_, by simp, fun c hc => Or.inl (d.key_plain c hc)⟩, by simp,
    plainBut_digits _ _⟩
  exact plainBut_mono (level_plain l) (by simp)

theorem rest_eq (d : KeyDescriptor) : ∃ r, d.rest = '/' :: r := by
  unfold rest
  cases h : d.path with
  | nil => exact absurd h d.path_ne_nil
  | cons l ls => exact ⟨_, rfl⟩

theorem checksum_chars (d : KeyDescriptor) : plainBut ['#'] ((d.checksum.map fun s => '#' :: s.toList).getD []) := by
  cases h : d.checksum with
  | none => simp [plainBut]
  | some s =>
    simp only [Option.map_some, Option.getD_some, plainBut_cons]
    exact ⟨by simp, fun c hc => Or.inl (d.checksum_plain s h c hc)⟩

theorem closes_plain (d : KeyDescriptor) : plainBut [')'] d.closes := by
  intro c hc
  exact Or.inr (by simp [(List.mem_replicate.1 hc).2])

end KeyDescriptor

theorem infix_bracket {s t n : List Char} {c : Char} (hs : c ∉ s) (ht : c ∉ t) :
    c :: n <:+: s ++ c :: t ↔ n <+: t := by
  constructor
  · rintro ⟨u, v, h⟩
    rw [List.append_assoc, List.cons_append, eq_comm] at h
    obtain ⟨-, -, rfl⟩ := (List.append_cons_inj_of_notMem hs ht).1 h
    exact List.prefix_append n v
  · rintro ⟨v, rfl⟩
    exact ⟨s, v, by simp⟩

theorem needle_toList (fingerprint : String) : (s!"[{toAsciiLowercase fingerprint}/" : String).toList =
    '[' :: (fingerprint.toList.map Char.toLower ++ ['/']) := by
  change ("[" ++ toAsciiLowercase fingerprint ++ "/").toList = _
  simp only [String.toList_append, toAsciiLowercase, String.toList_ofList]
  rfl

/-- A descriptor of one key names a fingerprint only if it is its own. -/
theorem names_text {fingerprint : String} (hf : ∀ c ∈ fingerprint.toList, c.isAlphanum) (d : KeyDescriptor) :
    names fingerprint d.text = true ↔ eqIgnoreAsciiCase d.fingerprint fingerprint = true := by
  obtain ⟨r, hr⟩ := d.rest_eq
  have hfp : plainBut [] d.fingerprint.toList := fun c hc => Or.inl (d.fingerprint_plain c hc)
  have hopens : '[' ∉ d.opens.map Char.toLower :=
    not_mem_of_plainBut (plainBut_lower d.opens_plain (by decide)) rfl (by decide)
  have hmore : plainBut ['/', '\'', ']', '*', ')', '#'] (d.fingerprint.toList ++ d.rest ++ '/' :: '*' :: d.closes ++
      (d.checksum.map fun s => '#' :: s.toList).getD []) := by
    simp only [plainBut_append, plainBut_cons]
    exact ⟨⟨⟨plainBut_mono hfp (by simp), plainBut_mono d.rest_plain (by simp)⟩, by simp, by simp,
      plainBut_mono d.closes_plain (by simp)⟩, plainBut_mono d.checksum_chars (by simp)⟩
  have hback : '[' ∉ (d.fingerprint.toList ++ d.rest ++ '/' :: '*' :: d.closes ++
      (d.checksum.map fun s => '#' :: s.toList).getD []).map Char.toLower :=
    not_mem_of_plainBut (plainBut_lower hmore (by decide)) rfl (by decide)
  have hslash : '/' ∉ d.fingerprint.toList.map Char.toLower :=
    not_mem_of_plainBut (plainBut_lower hfp rfl) rfl (by simp)
  have hplain : plainBut [] fingerprint.toList := fun c hc => Or.inl (hf c hc)
  have hslash' : '/' ∉ fingerprint.toList.map Char.toLower :=
    not_mem_of_plainBut (plainBut_lower hplain rfl) rfl (by simp)
  have htext : (toAsciiLowercase d.text).toList = d.opens.map Char.toLower ++ '[' ::
      (d.fingerprint.toList ++ d.rest ++ '/' :: '*' :: d.closes ++
        (d.checksum.map fun s => '#' :: s.toList).getD []).map Char.toLower := by
    simp [toAsciiLowercase, KeyDescriptor.text]
  have hlower : '/'.toLower = '/' := rfl
  rw [names, contains, hasInfix_iff, htext, needle_toList, infix_bracket hopens hback, hr]
  simp only [eqIgnoreAsciiCase, toAsciiLowercase, List.map_append, List.map_cons, List.append_assoc,
    List.cons_append, beq_iff_eq, String.ofList_inj, hlower]
  constructor
  · rintro ⟨v, hv⟩
    have h := congrArg (List.takeWhile (· ≠ '/')) hv
    rw [List.append_assoc, List.singleton_append, takeWhile_stop hslash', takeWhile_stop hslash] at h
    exact h.symm
  · intro h
    rw [h]
    exact ⟨_, by rw [List.append_assoc, List.singleton_append]⟩

theorem parseU32_digits {n : Nat} (hn : n < 2 ^ 32) : parseU32 (String.ofList (Nat.toDigits 10 n)) = some n := by
  have hdigits : (Nat.toDigits 10 n).all Char.isDigit = true :=
    List.all_eq_true.2 fun c hc => isDigit_of_mem_toDigits hc
  have hplus (cs : List Char) : Nat.toDigits 10 n ≠ '+' :: cs := by
    intro h
    have hc := isDigit_of_mem_toDigits (n := n) (c := '+') (by rw [h]; exact List.mem_cons_self)
    revert hc
    decide
  have hparse : parseU64 (String.ofList (Nat.toDigits 10 n)) = some n := by
    simp only [parseU64, String.toList_ofList]
    split
    next => rw [digitsValue_toDigits]
    next h => exact absurd ⟨Nat.toDigits_ne_nil, hdigits, by rw [digitsValue_toDigits]; omega⟩ h
  rw [parseU32, hparse, Option.filter_some]
  exact if_pos (decide_eq_true hn)

/-- A descriptor of one key ends in its branch and no other. -/
theorem endsIn_text (d : KeyDescriptor) (i : Nat) : EndsIn i d.text ↔ d.branch = i := by
  have hfp : plainBut [] d.fingerprint.toList := fun c hc => Or.inl (d.fingerprint_plain c hc)
  have hfront : plainBut ['(', '[', '/', '\'', ']'] (d.opens ++ '[' :: d.fingerprint.toList ++ d.rest) := by
    simp only [plainBut_append, plainBut_cons]
    exact ⟨⟨plainBut_mono d.opens_plain (by simp), by simp, plainBut_mono hfp (by simp)⟩,
      plainBut_mono d.rest_plain (by simp)⟩
  have hbody : d.text.toList.takeWhile (· ≠ '#') =
      d.opens ++ '[' :: d.fingerprint.toList ++ d.rest ++ '/' :: '*' :: d.closes := by
    have hclean : '#' ∉ d.opens ++ '[' :: d.fingerprint.toList ++ d.rest ++ '/' :: '*' :: d.closes := by
      have hplain : plainBut ['(', '[', '/', '\'', ']', '*', ')']
          (d.opens ++ '[' :: d.fingerprint.toList ++ d.rest ++ '/' :: '*' :: d.closes) := by
        rw [plainBut_append, plainBut_cons, plainBut_cons]
        exact ⟨plainBut_mono hfront (by simp), by simp, by simp, plainBut_mono d.closes_plain (by simp)⟩
      exact not_mem_of_plainBut hplain rfl (by decide)
    rw [KeyDescriptor.text, String.toList_ofList]
    cases d.checksum with
    | none =>
      rw [Option.map_none, Option.getD_none, List.append_nil, List.takeWhile_eq_self_iff]
      intro c hc
      simp only [decide_eq_true_eq]
      rintro rfl
      exact hclean hc
    | some s => exact takeWhile_stop hclean
  have hstar : '*' ∉ d.opens ++ '[' :: d.fingerprint.toList ++ d.rest := not_mem_of_plainBut hfront rfl (by decide)
  have hbefore : beforeStar (d.opens ++ '[' :: d.fingerprint.toList ++ d.rest ++ '/' :: '*' :: d.closes) =
      some (d.opens ++ '[' :: d.fingerprint.toList ++ d.rest) :=
    beforeStar_eq_some.2 ⟨⟨d.closes, rfl⟩, fun h => hstar (h.subset (by simp))⟩
  have hafter : afterSlash (d.opens ++ '[' :: d.fingerprint.toList ++ d.rest) =
      some (Nat.toDigits 10 d.branch) := by
    apply afterSlash_eq_some.2
    refine ⟨d.opens ++ '[' :: d.fingerprint.toList ++ (d.path.flatMap Level.text ++ ']' :: d.key.toList), ?_, ?_⟩
    · simp [KeyDescriptor.rest]
    · exact not_mem_of_plainBut (plainBut_digits [] d.branch) rfl (by simp)
  have hbranch : d.branch < 2 ^ 32 := Nat.lt_trans d.branch_lt (by decide)
  rw [← trailingBranch_eq_some, trailingBranch]
  rw [head_split, hbody, hbefore, Option.bind_some, hafter, Option.bind_some, parseU32_digits hbranch,
    Option.some_inj]

/-! ## The account -/

/-- The account that was imported: the master key's fingerprint, and the chain. -/
structure Account where
  fingerprint : String
  chain : UtxoChain
  fingerprint_plain : ∀ c ∈ fingerprint.toList, c.isAlphanum

/-- The descriptor is of a branch of exactly this account. -/
structure Account.Branch (a : Account) (i : Nat) (d : KeyDescriptor) : Prop where
  script : d.wrappers = [descriptorFn a.chain]
  fingerprint : eqIgnoreAsciiCase d.fingerprint a.fingerprint = true
  path : d.path.map (fun l => (l.index, l.mark.isSome)) = [(a.chain.purpose, true), (a.chain.slip44, true), (0, true)]
  branch : d.branch = i

def Account.Listed (a : Account) (listed : Json) (i : Nat) : Prop := ∃ d, a.Branch i d ∧ d.text ∈ descs listed

/-- The master fingerprint stands in a key origin of the text. -/
def HasOrigin (fingerprint desc : String) : Prop :=
  '[' :: (fingerprint.toList.map Char.toLower ++ ['/']) <:+: desc.toList.map Char.toLower

theorem names_iff (fingerprint desc : String) : names fingerprint desc = true ↔ HasOrigin fingerprint desc := by
  rw [names, contains, hasInfix_iff, needle_toList, toAsciiLowercase, String.toList_ofList, HasOrigin]

/-- What the wallet sends is a descriptor of the account's branch. -/
theorem branch_buildDescriptor (a : Account) {key : String} (hkey : ∀ c ∈ key.toList, c.isAlphanum) {i : Nat}
    (hi : i < 2 ^ 31) : ∃ d, a.Branch i d ∧ d.text = buildDescriptor a.fingerprint a.chain key i := by
  have hmark : ∀ c ∈ some 'h', c ∈ ['h', 'H', '\''] := by
    intro c hc
    simp [← Option.some.inj hc]
  refine ⟨⟨[descriptorFn a.chain], a.fingerprint,
    [⟨a.chain.purpose, some 'h', hmark⟩, ⟨a.chain.slip44, some 'h', hmark⟩, ⟨0, some 'h', hmark⟩], key, i, none, ?_,
    a.fingerprint_plain, by simp, hkey, hi, by simp⟩, ⟨rfl, ?_, rfl, rfl⟩, ?_⟩
  · intro w hw c hc
    rw [List.mem_singleton.1 hw] at hc
    have hall : (descriptorFn a.chain).toList.all Char.isAlphanum = true := by cases a.chain <;> decide +kernel
    exact List.all_eq_true.1 hall c hc
  · simp [eqIgnoreAsciiCase]
  · apply String.toList_inj.1
    change _ = (descriptorFn a.chain ++ "([" ++ a.fingerprint ++ "/" ++ (a.chain.purpose.repr ++ "h/" ++
      a.chain.slip44.repr ++ "h/0h") ++ "]" ++ key ++ "/" ++ i.repr ++ "/*)").toList
    simp [KeyDescriptor.text, KeyDescriptor.opens, KeyDescriptor.rest, KeyDescriptor.closes, Level.text]

theorem confirms_of_listed (a : Account) {listed : Json} (h0 : a.Listed listed 0) (h1 : a.Listed listed 1) :
    readBackConfirms listed a.fingerprint = true := by
  apply (readBackConfirms_iff listed a.fingerprint).2
  have hone (i : Nat) (h : a.Listed listed i) :
      ∃ desc ∈ descs listed, names a.fingerprint desc = true ∧ EndsIn i desc := by
    obtain ⟨d, hd, hmem⟩ := h
    exact ⟨d.text, hmem, (names_text a.fingerprint_plain d).2 hd.fingerprint, (endsIn_text d i).2 hd.branch⟩
  intro b hb
  rcases List.mem_cons.1 hb with rfl | hb
  · exact hone 0 h0
  · obtain rfl := List.mem_singleton.1 hb
    exact hone 1 h1

/-! ## Scrubbing -/

/-- A secret that the scrubbing finds: long enough, of one line, apart from the marker and in none of the
marks of whole lines. -/
structure Scrubbable (s : String) : Prop where
  long : 8 ≤ s.utf8ByteSize
  apart : Substitute.Apart s.toList "[redacted]".toList
  one_line : '\n' ∉ s.toList
  not_redacted : ¬ s.toList <:+: REDACTED.toList
  not_redacted_key : ¬ s.toList <:+: REDACTED_KEY.toList

theorem toList_ne_nil {s : String} (h : 8 ≤ s.utf8ByteSize) : s.toList ≠ [] := by
  intro hs
  have hempty : s = "" := String.toList_inj.1 hs
  rw [hempty] at h
  revert h
  decide

/-- Once a secret had its turn, no later replacement brings it back. -/
theorem foldl_replace (s : String) (hs : Scrubbable s) (secrets : List String) (text : String)
    (h : s ∈ secrets ∨ ¬ s.toList <:+: text.toList) :
    ¬ s.toList <:+: (secrets.foldl (fun out s =>
      if s.utf8ByteSize < 8 then out
      else String.ofList (Substitute.replace s.toList "[redacted]".toList out.toList)) text).toList := by
  induction secrets generalizing text with
  | nil => exact h.resolve_left List.not_mem_nil
  | cons t secrets ih =>
    rw [List.foldl_cons]
    by_cases ht : t.utf8ByteSize < 8
    · rw [if_pos ht]
      apply ih
      apply h.imp_left
      intro hmem
      rcases List.mem_cons.1 hmem with rfl | hmem
      · exact absurd hs.long (by omega)
      · exact hmem
    · rw [if_neg ht]
      have hne : t.toList ≠ [] := toList_ne_nil (by omega)
      apply ih
      by_cases hmem : s ∈ secrets
      · exact Or.inl hmem
      · apply Or.inr
        rw [String.toList_ofList]
        apply Substitute.not_infix_replace hne hs.apart
        rcases h with h | h
        · rcases List.mem_cons.1 h with rfl | h
          · exact Or.inl rfl
          · exact absurd h hmem
        · exact Or.inr h

theorem infix_of_linesFrom (s : List Char) :
    (∀ line ∈ (linesFrom s).head?, line <+: s) ∧ ∀ line ∈ linesFrom s, line <:+: s := by
  induction s with
  | nil => simp [linesFrom]
  | cons c s ih =>
    obtain ⟨hhead, hall⟩ := ih
    by_cases hn : c = '\n'
    · simp only [linesFrom, if_pos hn, List.head?_cons, Option.mem_some_iff, forall_eq', List.forall_mem_cons]
      exact ⟨List.nil_prefix, List.nil_infix, fun line hl => (hall line hl).trans (List.suffix_cons c s).isInfix⟩
    · by_cases hr : c = '\r' ∧ s.head? = some '\n'
      · obtain ⟨rest, hrest⟩ : ∃ rest, linesFrom s = [] :: rest := by
          cases s with
          | nil => simp at hr
          | cons d s =>
            obtain rfl : d = '\n' := by simpa using hr.2
            exact ⟨linesFrom s, by simp [linesFrom]⟩
        simp only [linesFrom, if_neg hn, if_pos hr]
        refine ⟨?_, fun line hl => (hall line hl).trans (List.suffix_cons c s).isInfix⟩
        rw [hrest]
        simp
      · simp only [linesFrom, if_neg hn, if_neg hr]
        cases hl : linesFrom s with
        | nil => simp [List.infix_cons_iff]
        | cons line rest =>
          rw [hl] at hhead hall
          have hpre : c :: line <+: c :: s := List.cons_prefix_cons.2 ⟨rfl, hhead line rfl⟩
          simp only [List.head?_cons, Option.mem_some_iff, forall_eq', List.forall_mem_cons]
          exact ⟨hpre, hpre.isInfix, fun l hm =>
            (hall l (List.mem_cons_of_mem _ hm)).trans (List.suffix_cons c s).isInfix⟩

section
variable (isBip39EnglishWord : String → Bool)

/-- Every line is left as it is or replaced by one of the two marks. -/
theorem mem_redactLines (phrase keys : Bool) (lines : List String) {q : String}
    (h : q ∈ redactLines isBip39EnglishWord phrase keys lines) : q ∈ lines ∨ q = REDACTED ∨ q = REDACTED_KEY := by
  induction lines generalizing phrase keys with
  | nil => simp [redactLines] at h
  | cons line rest ih =>
    have hrest {phrase keys : Bool} (hq : q ∈ redactLines isBip39EnglishWord phrase keys rest) :
        q ∈ line :: rest ∨ q = REDACTED ∨ q = REDACTED_KEY :=
      (ih phrase keys hq).imp_left (List.mem_cons_of_mem line)
    have hone {x : String} {phrase keys : Bool} (hx : x = line ∨ x = REDACTED ∨ x = REDACTED_KEY)
        (hq : q ∈ x :: redactLines isBip39EnglishWord phrase keys rest) :
        q ∈ line :: rest ∨ q = REDACTED ∨ q = REDACTED_KEY := by
      rcases List.mem_cons.1 hq with rfl | hq
      · rcases hx with rfl | hx
        · exact Or.inl List.mem_cons_self
        · exact Or.inr hx
      · exact hrest hq
    cases phrase with
    | true =>
      rw [redactLines] at h
      split at h
      · exact hone (Or.inr (Or.inl rfl)) h
      · exact hone (Or.inl rfl) h
    | false =>
      rw [redactLines] at h
      split at h
      · exact hone (Or.inl rfl) h
      · split at h
        · exact hone (Or.inl rfl) h
        · split at h
          · exact hone (Or.inl rfl) h
          · split at h
            · exact hone (Or.inr (Or.inr rfl)) h
            · refine hone ?_ h
              unfold redactAlone
              split
              · exact Or.inr (Or.inr rfl)
              · split
                · exact Or.inr (Or.inl rfl)
                · exact Or.inl rfl

theorem not_infix_redactSecrets {s text : String} (hs : Scrubbable s) (h : ¬ s.toList <:+: text.toList) :
    ¬ s.toList <:+: (redactSecrets isBip39EnglishWord text).toList := by
  have hne : s.toList ≠ [] := toList_ne_nil hs.long
  have hline : Substitute.Apart s.toList ['\n'] :=
    Substitute.apart_of_disjoint hne (by simp) fun c hc hn => hs.one_line (List.mem_singleton.1 hn ▸ hc)
  intro hin
  rw [redactSecrets, String.toList_intercalate] at hin
  cases hl : (redactLines isBip39EnglishWord false false ((linesFrom text.toList).map String.ofList)).map
      String.toList with
  | nil =>
    rw [hl] at hin
    exact hne (List.infix_nil.1 hin)
  | cons p l =>
    rw [hl] at hin
    obtain ⟨q, hq, hsq⟩ := hline.in_piece hin
    rw [← hl] at hq
    obtain ⟨r, hr, rfl⟩ := List.mem_map.1 hq
    rcases mem_redactLines isBip39EnglishWord false false _ hr with hr | rfl | rfl
    · obtain ⟨line, hmem, rfl⟩ := List.mem_map.1 hr
      rw [String.toList_ofList] at hsq
      exact h (hsq.trans ((infix_of_linesFrom text.toList).2 line hmem))
    · exact hs.not_redacted hsq
    · exact hs.not_redacted_key hsq

theorem scrub_clean (text : String) {secrets : List String} {s : String} (hmem : s ∈ secrets) (hs : Scrubbable s) :
    ¬ s.toList <:+: (scrub isBip39EnglishWord text secrets).toList := by
  rw [scrub]
  apply not_infix_redactSecrets isBip39EnglishWord hs
  apply foldl_replace s hs
  exact Or.inl (Js.mem_sort.2 hmem)

end

/-! ## The import -/

/-- A listing confirms the import if it names the fingerprint on both branches, so it does whenever both
of the account's descriptors are there; a reply is good if every entry is; and no secret is left. -/
theorem import_confirmation (isBip39EnglishWord : String → Bool) :
    (∀ listed fingerprint, readBackConfirms listed fingerprint = true ↔
      ∀ i ∈ [0, 1], ∃ desc ∈ descs listed, HasOrigin fingerprint desc ∧ EndsIn i desc) ∧
    (∀ (a : Account) (d : KeyDescriptor) i, HasOrigin a.fingerprint d.text ∧ EndsIn i d.text ↔
      eqIgnoreAsciiCase d.fingerprint a.fingerprint = true ∧ d.branch = i) ∧
    (∀ (a : Account) listed, a.Listed listed 0 → a.Listed listed 1 →
      readBackConfirms listed a.fingerprint = true) ∧
    (∀ v expected, (∃ ws, parseImportResults v expected = .ok ws) ↔
      ∃ arr, v = .arr arr ∧ arr.length = expected ∧ ∀ e ∈ arr, e.get "success" = some (.bool true)) ∧
    ∀ text secrets, (∀ s ∈ secrets, Scrubbable s) →
      ∀ s ∈ secrets, ¬ s.toList <:+: (scrub isBip39EnglishWord text secrets).toList := by
  refine ⟨?_, ?_, fun a listed => confirms_of_listed a, parseImportResults_ok, ?_⟩
  · intro listed fingerprint
    rw [readBackConfirms_iff]
    simp only [BRANCHES, List.forall_mem_cons, names_iff]
    simp
  · intro a d i
    rw [← names_iff, names_text a.fingerprint_plain, endsIn_text]
  · intro text secrets hall s hs
    exact scrub_clean isBip39EnglishWord text hs (hall s hs)

/-- What the daemon lists of a master key's taproot account. -/
def taprootListing : Json := .obj [("descriptors", .arr
  [.obj [("desc", .str "tr([73c5da0a/86h/0h/0h]xpub6Ours/0/*)#bbbbbbbb")],
   .obj [("desc", .str "tr([73c5da0a/86h/0h/0h]xpub6Ours/1/*)#cccccccc")]])]

/-- The listing shows the taproot account of the same master key, and the import is confirmed. A secret of
two lines is put together again from a text that has it with another line end. -/
theorem not_always_exactly :
    (∃ (a : Account) (listed : Json), readBackConfirms listed a.fingerprint = true ∧ ¬ a.Listed listed 0) ∧
    ∃ text s, 8 ≤ s.utf8ByteSize ∧ Substitute.Apart s.toList "[redacted]".toList ∧
      s.toList <:+: (scrub (fun _ => false) text [s]).toList := by
  refine ⟨⟨⟨"73c5da0a", .btc, List.all_eq_true.1 (by decide +kernel)⟩, taprootListing, by decide +kernel, ?_⟩,
    "umbo\r\nfizz", "umbo\nfizz", by decide +kernel, ?_, ?_⟩
  · rintro ⟨d, hd, hmem⟩
    have hall : ∀ desc ∈ descs taprootListing, (desc.toList.head? == some 't') = true :=
      List.all_eq_true.1 (by decide +kernel)
    have hw : d.text.toList.head? = some 'w' := by
      simp [KeyDescriptor.text, KeyDescriptor.opens, hd.script, descriptorFn, UtxoChain.purpose]
    have ht := hall d.text hmem
    rw [hw] at ht
    exact absurd ht (by decide)
  · apply Substitute.apart_of_disjoint (by decide +kernel) (by decide +kernel)
    have hall : ∀ c ∈ "umbo\nfizz".toList, (!"[redacted]".toList.contains c) = true :=
      List.all_eq_true.1 (by decide +kernel)
    intro c hc hm
    have hno := hall c hc
    rw [List.contains_iff_mem.2 hm] at hno
    cases hno
  · apply (hasInfix_iff _ _).1
    decide +kernel

end Descriptors
