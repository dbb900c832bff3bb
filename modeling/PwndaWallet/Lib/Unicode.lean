import PwndaWallet.Lib.Wire

/-!
# Strings of UTF-16 units and their bytes

A JavaScript string is any list of 16-bit units. `TextEncoder` writes a surrogate without its partner as the
replacement character, and `TextDecoder` reads what is not UTF-8 as that character and leaves a first byte
order mark out. Both are undone by the other on a string of characters that does not begin with the mark.
-/

namespace Unicode

open Wire

abbrev Units := List UInt16

/-- U+FFFD -/
def replacement : Char := Char.ofNat 0xfffd

/-- U+FEFF -/
def mark : Char := Char.ofNat 0xfeff

/-! ## Units -/

def isHigh (u : UInt16) : Bool := 0xd800 ≤ u.toNat && u.toNat < 0xdc00

def isLow (u : UInt16) : Bool := 0xdc00 ≤ u.toNat && u.toNat < 0xe000

def unitsOf (c : Char) : Units :=
  if c.toNat < 0x10000 then [UInt16.ofNat c.toNat]
  else [UInt16.ofNat (0xd800 + (c.toNat - 0x10000) / 0x400), UInt16.ofNat (0xdc00 + (c.toNat - 0x10000) % 0x400)]

def units (cs : List Char) : Units := cs.flatMap unitsOf

/-- The string of a text. -/
def ofString (s : String) : Units := units s.toList

def single (u : UInt16) : Char := if isHigh u || isLow u then replacement else Char.ofNat u.toNat

def pair (u v : UInt16) : Char := Char.ofNat (0x10000 + (u.toNat - 0xd800) * 0x400 + (v.toNat - 0xdc00))

/-- The characters of a string, with the replacement for a surrogate without its partner. -/
def scalars : Units → List Char
  | [] => []
  | [u] => [single u]
  | u :: v :: rest => if isHigh u && isLow v then pair u v :: scalars rest else single u :: scalars (v :: rest)

/-! ## Bytes -/

def utf8 (cs : List Char) : Bytes := cs.flatMap String.utf8EncodeChar

/-- `new TextEncoder().encode(s)` -/
def encode (s : Units) : Bytes := utf8 (scalars s)

/-- The rest of a character's bytes: how many, what the ones before say, and the range of the next. -/
structure Pending where
  needed : Nat
  value : Nat
  lower : Nat
  upper : Nat

/-- A byte where a character begins. -/
def start (b : UInt8) : List Char × Option Pending :=
  let n := b.toNat
  if n < 0x80 then ([Char.ofNat n], none)
  else if 0xc2 ≤ n ∧ n ≤ 0xdf then ([], some ⟨1, n - 0xc0, 0x80, 0xbf⟩)
  else if 0xe0 ≤ n ∧ n ≤ 0xef then
    ([], some ⟨2, n - 0xe0, if n = 0xe0 then 0xa0 else 0x80, if n = 0xed then 0x9f else 0xbf⟩)
  else if 0xf0 ≤ n ∧ n ≤ 0xf4 then
    ([], some ⟨3, n - 0xf0, if n = 0xf0 then 0x90 else 0x80, if n = 0xf4 then 0x8f else 0xbf⟩)
  else ([replacement], none)

def step (st : Option Pending) (b : UInt8) : List Char × Option Pending :=
  match st with
  | none => start b
  | some p =>
    if p.lower ≤ b.toNat ∧ b.toNat ≤ p.upper then
      let value := p.value * 64 + (b.toNat - 0x80)
      if p.needed = 1 then ([Char.ofNat value], none) else ([], some ⟨p.needed - 1, value, 0x80, 0xbf⟩)
    else (replacement :: (start b).1, (start b).2)

def decodeFrom : Option Pending → Bytes → List Char
  | none, [] => []
  | some _, [] => [replacement]
  | st, b :: bs => (step st b).1 ++ decodeFrom (step st b).2 bs

def stripMark : List Char → List Char
  | [] => []
  | c :: cs => if c = mark then cs else c :: cs

/-- `new TextDecoder().decode(b)` -/
def decode (b : Bytes) : Units := units (stripMark (decodeFrom none b))

/-! ## Units and characters -/

theorem toNat_ofNat16 {n : Nat} (h : n < 0x10000) : (UInt16.ofNat n).toNat = n := by
  rw [UInt16.toNat_ofNat']
  exact Nat.mod_eq_of_lt h

theorem scalars_unitsOf (c : Char) (s : Units) : scalars (unitsOf c ++ s) = c :: scalars s := by
  have hvalid : c.toNat < 0xd800 ∨ 0xdfff < c.toNat ∧ c.toNat < 0x110000 := c.valid
  unfold unitsOf
  by_cases h : c.toNat < 0x10000
  · rw [if_pos h, List.singleton_append]
    have hn : (UInt16.ofNat c.toNat).toNat = c.toNat := toNat_ofNat16 h
    have hhigh : isHigh (UInt16.ofNat c.toNat) = false := by
      simp only [isHigh, hn, Bool.and_eq_false_iff, decide_eq_false_iff_not]
      omega
    have hlow : isLow (UInt16.ofNat c.toNat) = false := by
      simp only [isLow, hn, Bool.and_eq_false_iff, decide_eq_false_iff_not]
      omega
    have hone : single (UInt16.ofNat c.toNat) = c := by
      rw [single, hhigh, hlow, hn]
      simp
    cases s with
    | nil => simp only [scalars, hone]
    | cons v s => simp [scalars, hhigh, hone]
  · rw [if_neg h, List.cons_append, List.singleton_append]
    have hu : (UInt16.ofNat (0xd800 + (c.toNat - 0x10000) / 0x400)).toNat = 0xd800 + (c.toNat - 0x10000) / 0x400 :=
      toNat_ofNat16 (by omega)
    have hv : (UInt16.ofNat (0xdc00 + (c.toNat - 0x10000) % 0x400)).toNat = 0xdc00 + (c.toNat - 0x10000) % 0x400 :=
      toNat_ofNat16 (by omega)
    have hhigh : isHigh (UInt16.ofNat (0xd800 + (c.toNat - 0x10000) / 0x400)) = true := by
      simp only [isHigh, hu, Bool.and_eq_true, decide_eq_true_eq]
      omega
    have hlow : isLow (UInt16.ofNat (0xdc00 + (c.toNat - 0x10000) % 0x400)) = true := by
      simp only [isLow, hv, Bool.and_eq_true, decide_eq_true_eq]
      omega
    have hsum : 0x10000 + (0xd800 + (c.toNat - 0x10000) / 0x400 - 0xd800) * 0x400 +
        (0xdc00 + (c.toNat - 0x10000) % 0x400 - 0xdc00) = c.toNat := by omega
    have hpair : pair (UInt16.ofNat (0xd800 + (c.toNat - 0x10000) / 0x400))
        (UInt16.ofNat (0xdc00 + (c.toNat - 0x10000) % 0x400)) = c := by
      rw [pair, hu, hv, hsum, Char.ofNat_toNat]
    rw [scalars, hhigh, hlow, hpair]
    rfl

theorem scalars_units_append (cs : List Char) (s : Units) : scalars (units cs ++ s) = cs ++ scalars s := by
  induction cs with
  | nil => rfl
  | cons c cs ih =>
    have h : units (c :: cs) = unitsOf c ++ units cs := List.flatMap_cons
    rw [h, List.append_assoc, scalars_unitsOf, ih, List.cons_append]

@[simp] theorem scalars_units (cs : List Char) : scalars (units cs) = cs := by
  have h := scalars_units_append cs []
  rwa [List.append_nil, scalars, List.append_nil] at h

/-- A string without a lone surrogate. -/
def WellFormed (s : Units) : Prop := ∃ cs, s = units cs

theorem WellFormed.eq {s : Units} (h : WellFormed s) : units (scalars s) = s := by
  obtain ⟨cs, rfl⟩ := h
  rw [scalars_units]

/-! ## Characters and bytes -/

theorem toNat_ofNat8 {n : Nat} (h : n < 0x100) : (UInt8.ofNat n).toNat = n := by
  rw [UInt8.toNat_ofNat']
  exact Nat.mod_eq_of_lt h

theorem start_of_ascii {n : Nat} (h : n < 0x80) : start (UInt8.ofNat n) = ([Char.ofNat n], none) := by
  simp only [start, toNat_ofNat8 (show n < 0x100 by omega), if_pos h]

theorem start_two {n : Nat} (hlow : 2 ≤ n) (hhigh : n < 0x20) :
    start (UInt8.ofNat (n + 0xc0)) = ([], some ⟨1, n, 0x80, 0xbf⟩) := by
  simp only [start, toNat_ofNat8 (show n + 0xc0 < 0x100 by omega)]
  rw [if_neg (by omega), if_pos (by omega), Nat.add_sub_cancel]

theorem start_three {n : Nat} (hhigh : n < 0x10) : start (UInt8.ofNat (n + 0xe0)) =
    ([], some ⟨2, n, if n = 0 then 0xa0 else 0x80, if n = 0xd then 0x9f else 0xbf⟩) := by
  have h0 : (n + 0xe0 = 0xe0) = (n = 0) := by apply propext; omega
  have hd : (n + 0xe0 = 0xed) = (n = 0xd) := by apply propext; omega
  simp only [start, toNat_ofNat8 (show n + 0xe0 < 0x100 by omega)]
  rw [if_neg (by omega), if_neg (by omega), if_pos (by omega), Nat.add_sub_cancel]
  simp only [h0, hd]

theorem start_four {n : Nat} (hhigh : n < 5) : start (UInt8.ofNat (n + 0xf0)) =
    ([], some ⟨3, n, if n = 0 then 0x90 else 0x80, if n = 4 then 0x8f else 0xbf⟩) := by
  have h0 : (n + 0xf0 = 0xf0) = (n = 0) := by apply propext; omega
  have h4 : (n + 0xf0 = 0xf4) = (n = 4) := by apply propext; omega
  simp only [start, toNat_ofNat8 (show n + 0xf0 < 0x100 by omega)]
  rw [if_neg (by omega), if_neg (by omega), if_neg (by omega), if_pos (by omega), Nat.add_sub_cancel]
  simp only [h0, h4]

theorem step_more {p : Pending} {m : Nat} (hm : m < 0x40) (hlow : p.lower ≤ m + 0x80)
    (hhigh : m + 0x80 ≤ p.upper) :
    step (some p) (UInt8.ofNat (m + 0x80)) =
      if p.needed = 1 then ([Char.ofNat (p.value * 64 + m)], none)
      else ([], some ⟨p.needed - 1, p.value * 64 + m, 0x80, 0xbf⟩) := by
  simp only [step, toNat_ofNat8 (show m + 0x80 < 0x100 by omega)]
  rw [if_pos ⟨hlow, hhigh⟩, Nat.add_sub_cancel]

theorem decodeFrom_char (c : Char) (bs : Bytes) :
    decodeFrom none (String.utf8EncodeChar c ++ bs) = c :: decodeFrom none bs := by
  have hvalid : c.toNat < 0xd800 ∨ 0xdfff < c.toNat ∧ c.toNat < 0x110000 := c.valid
  have hv : c.val.toNat = c.toNat := rfl
  have hc : Char.ofNat c.toNat = c := Char.ofNat_toNat c
  simp only [String.utf8EncodeChar, hv]
  by_cases h1 : c.toNat ≤ 0x7f
  · rw [if_pos h1, List.singleton_append, decodeFrom, step, start_of_ascii (by omega), hc]
    rfl
  rw [if_neg h1]
  by_cases h2 : c.toNat ≤ 0x7ff
  · rw [if_pos h2]
    have hsum : c.toNat / 64 % 0x20 * 64 + c.toNat % 0x40 = c.toNat := by omega
    simp only [List.cons_append, List.nil_append, decodeFrom]
    rw [step, start_two (by omega) (by omega)]
    simp only [List.nil_append]
    rw [step_more (by omega) (by simp only []; omega) (by simp only []; omega)]
    simp only [if_true, hsum, hc, List.singleton_append]
  rw [if_neg h2]
  by_cases h3 : c.toNat ≤ 0xffff
  · rw [if_pos h3]
    have hsum : (c.toNat / 4096 % 0x10 * 64 + c.toNat / 64 % 0x40) * 64 + c.toNat % 0x40 = c.toNat := by omega
    simp only [List.cons_append, List.nil_append, decodeFrom]
    rw [step, start_three (by omega)]
    simp only [List.nil_append]
    rw [step_more (by omega) (by simp only []; split <;> omega) (by simp only []; split <;> omega)]
    rw [if_neg (by change ¬ (2 = 1); decide)]
    simp only [List.nil_append]
    rw [step_more (by omega) (by simp only []; omega) (by simp only []; omega)]
    simp only [Nat.add_one_sub_one, if_true, hsum, hc, List.singleton_append]
  · rw [if_neg h3]
    have hsum : ((c.toNat / 262144 % 0x08 * 64 + c.toNat / 4096 % 0x40) * 64 + c.toNat / 64 % 0x40) * 64 +
        c.toNat % 0x40 = c.toNat := by omega
    simp only [List.cons_append, List.nil_append, decodeFrom]
    rw [step, start_four (by omega)]
    simp only [List.nil_append]
    rw [step_more (by omega) (by simp only []; split <;> omega) (by simp only []; split <;> omega)]
    rw [if_neg (by change ¬ (3 = 1); decide)]
    simp only [List.nil_append]
    rw [step_more (by omega) (by simp only []; omega) (by simp only []; omega)]
    rw [if_neg (by change ¬ (3 - 1 = 1); decide)]
    simp only [List.nil_append]
    rw [step_more (by omega) (by simp only []; omega) (by simp only []; omega)]
    simp only [Nat.add_one_sub_one, if_true, hsum, hc, List.singleton_append]

theorem decodeFrom_utf8 (cs : List Char) : decodeFrom none (utf8 cs) = cs := by
  induction cs with
  | nil => rfl
  | cons c cs ih =>
    have h : utf8 (c :: cs) = String.utf8EncodeChar c ++ utf8 cs := List.flatMap_cons
    rw [h, decodeFrom_char, ih]

theorem utf8_inj {cs ds : List Char} (h : utf8 cs = utf8 ds) : cs = ds := by
  rw [← decodeFrom_utf8 cs, h, decodeFrom_utf8]

/-! ## Encoding and decoding -/

/-- A string that the decoder gives back: of characters, and not with the mark first. -/
def Plain (s : Units) : Prop := ∃ cs, s = units cs ∧ cs.head? ≠ some mark

theorem stripMark_eq_self {cs : List Char} : stripMark cs = cs ↔ cs.head? ≠ some mark := by
  cases cs with
  | nil => simp [stripMark]
  | cons c cs =>
    by_cases h : c = mark
    · simp only [stripMark, if_pos h, List.head?_cons, h, ne_eq, not_true_eq_false, iff_false]
      intro heq
      have hlen := congrArg List.length heq
      simp at hlen
    · simp [stripMark, h]

theorem decode_encode (s : Units) : decode (encode s) = units (stripMark (scalars s)) := by
  rw [decode, encode, decodeFrom_utf8]

theorem decode_encode_iff (s : Units) : decode (encode s) = s ↔ Plain s := by
  rw [decode_encode]
  constructor
  · intro h
    refine ⟨stripMark (scalars s), h.symm, ?_⟩
    rw [← stripMark_eq_self]
    have hs := congrArg scalars h
    rw [scalars_units] at hs
    rw [hs, hs]
  · rintro ⟨cs, rfl, hcs⟩
    rw [scalars_units, stripMark_eq_self.2 hcs]

theorem encode_eq_iff {s t : Units} : encode s = encode t ↔ scalars s = scalars t :=
  ⟨utf8_inj, fun h => by rw [encode, encode, h]⟩

theorem encode_units (cs : List Char) : encode (units cs) = utf8 cs := by rw [encode, scalars_units]

/-- A string that no other one is written like: of characters, and none of them the replacement. -/
def Distinct (s : Units) : Prop := ∃ cs, s = units cs ∧ replacement ∉ cs

theorem toNat_char {n : Nat} (h : n.isValidChar) : (Char.ofNat n).toNat = n := by
  rw [Char.ofNat, dif_pos h]
  rfl

theorem single_of_ne {u : UInt16} (h : single u ≠ replacement) : unitsOf (single u) = [u] := by
  unfold single at h ⊢
  split at h
  case isTrue hs => exact absurd rfl h
  case isFalse hs =>
    rw [if_neg hs]
    have hu := u.toNat_lt
    simp only [isHigh, isLow, Bool.or_eq_true, Bool.and_eq_true, decide_eq_true_eq] at hs
    have hvalid : Nat.isValidChar u.toNat := by
      unfold Nat.isValidChar
      omega
    have hn : (Char.ofNat u.toNat).toNat = u.toNat := toNat_char hvalid
    rw [unitsOf, hn, if_pos (by omega)]
    simp

theorem unitsOf_pair {u v : UInt16} (hu : isHigh u = true) (hv : isLow v = true) : unitsOf (pair u v) = [u, v] := by
  simp only [isHigh, isLow, Bool.and_eq_true, decide_eq_true_eq] at hu hv
  have hvalid : Nat.isValidChar (0x10000 + (u.toNat - 0xd800) * 0x400 + (v.toNat - 0xdc00)) := by
    unfold Nat.isValidChar
    omega
  have hn : (pair u v).toNat = 0x10000 + (u.toNat - 0xd800) * 0x400 + (v.toNat - 0xdc00) :=
    toNat_char hvalid
  rw [unitsOf, hn, if_neg (by omega)]
  have hfirst : 0xd800 + (0x10000 + (u.toNat - 0xd800) * 0x400 + (v.toNat - 0xdc00) - 0x10000) / 0x400 = u.toNat := by
    omega
  have hsecond :
      0xdc00 + (0x10000 + (u.toNat - 0xd800) * 0x400 + (v.toNat - 0xdc00) - 0x10000) % 0x400 = v.toNat := by
    omega
  rw [hfirst, hsecond]
  simp

theorem units_scalars {s : Units} (h : replacement ∉ scalars s) : units (scalars s) = s := by
  induction s using scalars.induct with
  | case1 => rfl
  | case2 u =>
    simp only [scalars, List.mem_singleton] at h
    simp [scalars, units, single_of_ne (Ne.symm h)]
  | case3 u v rest huv ih =>
    simp only [scalars, huv, if_true, List.mem_cons, not_or] at h ⊢
    simp only [Bool.and_eq_true] at huv
    rw [units, List.flatMap_cons, unitsOf_pair huv.1 huv.2]
    exact congrArg (fun r => u :: v :: r) (ih h.2)
  | case4 u v rest huv ih =>
    simp only [scalars, huv, if_false, List.mem_cons, not_or, Bool.false_eq_true] at h ⊢
    rw [units, List.flatMap_cons, single_of_ne (Ne.symm h.1)]
    exact congrArg (fun r => u :: r) (ih h.2)

/-- Such a string is the only one with its bytes, and no other string is alone with its own. -/
theorem distinct_iff (s : Units) : Distinct s ↔ ∀ t, encode t = encode s → t = s := by
  constructor
  · rintro ⟨cs, rfl, hno⟩ t ht
    have hsame : scalars t = cs := by rw [encode_eq_iff.1 ht, scalars_units]
    have hback : units (scalars t) = t := units_scalars (by rwa [hsame])
    rw [← hback, hsame]
  · intro h
    have hwf : units (scalars s) = s := h _ (encode_eq_iff.2 (scalars_units _))
    refine ⟨scalars s, hwf.symm, ?_⟩
    intro hmem
    obtain ⟨a, b, hab⟩ := List.append_of_mem hmem
    have hlow : scalars (units a ++ (0xdc00 :: units b)) = a ++ replacement :: b := by
      rw [scalars_units_append]
      congr 1
      have hsingle : single 0xdc00 = replacement := by decide
      cases hb : units b with
      | nil =>
        have hb' : b = [] := by rw [← scalars_units b, hb, scalars]
        rw [scalars, hsingle, hb']
      | cons v rest =>
        have hhigh : isHigh 0xdc00 = false := by decide
        rw [scalars, hhigh, hsingle, ← hb, scalars_units]
        rfl
    have heq := h (units a ++ (0xdc00 :: units b)) (encode_eq_iff.2 (by rw [hlow, hab]))
    have hrep : units (a ++ replacement :: b) = units a ++ (0xfffd :: units b) := by
      simp only [units, List.flatMap_append, List.flatMap_cons]
      rfl
    rw [hab, hrep] at hwf
    rw [← hwf] at heq
    have hcons := List.append_cancel_left heq
    injection hcons with hunit
    exact absurd hunit (by decide)

end Unicode
