import Mathlib.Data.List.TakeWhile

/-!
# IP addresses as texts

The addresses that the standard parser reads from a text: four decimal octets, or eight groups of
hexadecimal digits of which `::` can stand for some and four octets for the last two.
-/

namespace Net

/-- What a reader takes from the front of a text, and what it leaves. -/
abbrev Reader (α : Type) := List Char → Option (α × List Char)

/-- The value of a digit. -/
def toDigit (radix : Nat) (c : Char) : Option Nat :=
  let n := c.toNat
  let v := if '0'.toNat ≤ n ∧ n ≤ '9'.toNat then some (n - '0'.toNat)
    else if 'a'.toNat ≤ n ∧ n ≤ 'z'.toNat then some (n - 'a'.toNat + 10)
    else if 'A'.toNat ≤ n ∧ n ≤ 'Z'.toNat then some (n - 'A'.toNat + 10)
    else none
  v.filter fun d => d < radix

/-- A number below `bound`, of at most `maxDigits` digits. -/
def readNumber (radix maxDigits bound : Nat) (allowZeroPrefix : Bool) : Reader Nat := fun cs =>
  let ds := cs.takeWhile fun c => (toDigit radix c).isSome
  let n := ds.foldl (fun n c => radix * n + (toDigit radix c).getD 0) 0
  if ds = [] ∨ maxDigits < ds.length ∨ bound ≤ n then none
  else if !allowZeroPrefix && ds.head? == some '0' && decide (1 < ds.length) then none
  else some (n, cs.dropWhile fun c => (toDigit radix c).isSome)

/-- What comes after a separator, which the first of a row does not have. -/
def readSeparator {α : Type} (sep : Char) (index : Nat) (p : Reader α) : Reader α := fun cs =>
  if index = 0 then p cs
  else
    match cs with
    | [] => none
    | c :: cs => if c = sep then p cs else none

structure Ipv4 where
  a : Nat
  b : Nat
  c : Nat
  d : Nat
deriving DecidableEq

def readOctet (index : Nat) : Reader Nat := readSeparator '.' index (readNumber 10 3 256 false)

def readIpv4 : Reader Ipv4 := fun cs => do
  let (a, cs) ← readOctet 0 cs
  let (b, cs) ← readOctet 1 cs
  let (c, cs) ← readOctet 2 cs
  let (d, cs) ← readOctet 3 cs
  return (⟨a, b, c, d⟩, cs)

/-- At most `left` groups, of which `index` were read before; and whether they end in an IPv4 address. -/
def readGroups : (left index : Nat) → List Char → List Nat × Bool × List Char
  | 0, _, cs => ([], false, cs)
  | left + 1, index, cs =>
    -- an IPv4 address takes the place of two groups
    match if 1 ≤ left then readSeparator ':' index readIpv4 cs else none with
    | some (v, rest) => ([v.a * 256 + v.b, v.c * 256 + v.d], true, rest)
    | none =>
      match readSeparator ':' index (readNumber 16 4 65536 true) cs with
      | some (g, rest) =>
        let (groups, v4, rest) := readGroups left (index + 1) rest
        (g :: groups, v4, rest)
      | none => ([], false, cs)

def readIpv6 : Reader (List Nat) := fun cs =>
  let (head, v4, rest) := readGroups 8 0 cs
  if head.length = 8 then some (head, rest)
  else if v4 then none
  else
    match rest with
    | ':' :: ':' :: rest =>
      let (tail, _, rest) := readGroups (7 - head.length) 0 rest
      some (head ++ List.replicate (8 - head.length - tail.length) 0 ++ tail, rest)
    | _ => none

inductive IpAddr where
  | v4 (addr : Ipv4)
  | v6 (groups : List Nat)
deriving DecidableEq

def readIp : Reader IpAddr := fun cs =>
  match readIpv4 cs with
  | some (addr, rest) => some (.v4 addr, rest)
  | none => (readIpv6 cs).map fun (groups, rest) => (.v6 groups, rest)

/-- The whole text is an address. -/
def parseIp (cs : List Char) : Option IpAddr :=
  match readIp cs with
  | some (ip, []) => some ip
  | _ => none

def IpAddr.isLoopback : IpAddr → Bool
  | .v4 addr => addr.a == 127
  | .v6 groups => groups == [0, 0, 0, 0, 0, 0, 0, 1]

def IpAddr.isV6 : IpAddr → Bool
  | .v4 _ => false
  | .v6 _ => true

/-! ## The characters of an address -/

/-- The characters that can stand in an address. -/
def isIpChar (c : Char) : Bool := (toDigit 16 c).isSome || c == ':' || c == '.'

/-- What a reader takes is of these characters. -/
def Takes {α : Type} (p : Reader α) : Prop :=
  ∀ cs a rest, p cs = some (a, rest) → ∃ used, cs = used ++ rest ∧ ∀ c ∈ used, isIpChar c = true

theorem toDigit_mono {c : Char} (h : (toDigit 10 c).isSome = true) : (toDigit 16 c).isSome = true := by
  obtain ⟨d, hd⟩ := Option.isSome_iff_exists.1 h
  unfold toDigit at hd ⊢
  obtain ⟨hv, hlt⟩ := Option.filter_eq_some_iff.1 hd
  refine Option.isSome_iff_exists.2 ⟨d, Option.filter_eq_some_iff.2 ⟨hv, ?_⟩⟩
  simp only [decide_eq_true_eq] at hlt ⊢
  omega

theorem takes_readNumber {radix maxDigits bound : Nat} {zero : Bool}
    (hr : ∀ c, (toDigit radix c).isSome = true → isIpChar c = true) :
    Takes (readNumber radix maxDigits bound zero) := by
  intro cs n rest h
  unfold readNumber at h
  dsimp only at h
  split at h
  · cases h
  · split at h
    · cases h
    · obtain ⟨_, rfl⟩ := Prod.mk.inj (Option.some.inj h)
      refine ⟨_, List.takeWhile_append_dropWhile.symm, fun c hc => hr c ?_⟩
      exact List.mem_takeWhile_imp (p := fun c => (toDigit radix c).isSome) hc

theorem isIpChar_of_digit {c : Char} (h : (toDigit 16 c).isSome = true) : isIpChar c = true := by
  simp [isIpChar, h]

theorem takes_readSeparator {α : Type} {sep : Char} {index : Nat} {p : Reader α} (hp : Takes p)
    (hs : isIpChar sep = true) : Takes (readSeparator sep index p) := by
  intro cs a rest h
  unfold readSeparator at h
  by_cases hi : index = 0
  · rw [if_pos hi] at h
    exact hp cs a rest h
  · rw [if_neg hi] at h
    cases cs with
    | nil => cases h
    | cons c cs =>
      by_cases hc : c = sep
      · subst hc
        simp only [if_true] at h
        obtain ⟨used, rfl, hused⟩ := hp cs a rest h
        exact ⟨c :: used, rfl, by simpa [hs] using hused⟩
      · simp [hc] at h

theorem takes_readOctet (index : Nat) : Takes (readOctet index) :=
  takes_readSeparator (takes_readNumber fun _ hc => isIpChar_of_digit (toDigit_mono hc)) (by decide)

theorem takes_bind {α β : Type} {p : Reader α} {f : α → Reader β} (hp : Takes p) (hf : ∀ a, Takes (f a)) :
    Takes fun cs => (p cs).bind fun r => f r.1 r.2 := by
  intro cs b rest h
  obtain ⟨⟨a, rest'⟩, ha, hb⟩ := Option.bind_eq_some_iff.1 h
  obtain ⟨used, rfl, hused⟩ := hp cs a rest' ha
  obtain ⟨used', rfl, hused'⟩ := hf a rest' b rest hb
  refine ⟨used ++ used', (List.append_assoc ..).symm, fun c hc => ?_⟩
  rcases List.mem_append.1 hc with hc | hc
  · exact hused c hc
  · exact hused' c hc

theorem takes_pure {α : Type} (a : α) : Takes fun cs => some (a, cs) := by
  intro cs b rest h
  obtain ⟨_, rfl⟩ := Prod.mk.inj (Option.some.inj h)
  exact ⟨[], rfl, by simp⟩

theorem takes_readIpv4 : Takes readIpv4 :=
  takes_bind (takes_readOctet 0) fun _ => takes_bind (takes_readOctet 1) fun _ =>
    takes_bind (takes_readOctet 2) fun _ => takes_bind (takes_readOctet 3) fun _ => takes_pure _

theorem takes_readGroups (left index : Nat) (cs : List Char) : ∃ used,
    cs = used ++ (readGroups left index cs).2.2 ∧ ∀ c ∈ used, isIpChar c = true := by
  induction left generalizing index cs with
  | zero => exact ⟨[], rfl, by simp⟩
  | succ left ih =>
    unfold readGroups
    split
    · rename_i v rest hv
      split at hv
      · exact takes_readSeparator takes_readIpv4 (by decide) cs v rest hv
      · cases hv
    · split
      · rename_i g rest hg
        obtain ⟨used, hcs, hused⟩ := takes_readSeparator (takes_readNumber fun _ hc => isIpChar_of_digit hc)
          (by decide) cs g rest hg
        obtain ⟨used', hrest, hused'⟩ := ih (index + 1) rest
        refine ⟨used ++ used', ?_, fun c hc => ?_⟩
        · rw [List.append_assoc]
          exact hcs.trans (congrArg (used ++ ·) hrest)
        · rcases List.mem_append.1 hc with hc | hc
          · exact hused c hc
          · exact hused' c hc
      · exact ⟨[], rfl, by simp⟩

theorem takes_readIpv6 : Takes readIpv6 := by
  intro cs groups rest h
  obtain ⟨used, hcs, hused⟩ := takes_readGroups 8 0 cs
  unfold readIpv6 at h
  dsimp only at h
  split at h
  · obtain ⟨_, rfl⟩ := Prod.mk.inj (Option.some.inj h)
    exact ⟨used, hcs, hused⟩
  · split at h
    · cases h
    · split at h
      · rename_i rest' hrest
        obtain ⟨_, rfl⟩ := Prod.mk.inj (Option.some.inj h)
        rw [hrest] at hcs
        obtain ⟨used', hrest', hused'⟩ := takes_readGroups (7 - (readGroups 8 0 cs).1.length) 0 rest'
        refine ⟨used ++ ':' :: ':' :: used', ?_, fun c hc => ?_⟩
        · rw [List.append_assoc]
          exact hcs.trans (congrArg (fun l => used ++ ':' :: ':' :: l) hrest')
        · have hcolon : isIpChar ':' = true := by decide
          rcases List.mem_append.1 hc with hc | hc
          · exact hused c hc
          · rcases List.mem_cons.1 hc with rfl | hc
            · exact hcolon
            · rcases List.mem_cons.1 hc with rfl | hc
              · exact hcolon
              · exact hused' c hc
      · cases h

/-- An address has only digits, colons and dots. -/
theorem isIpChar_of_parseIp {cs : List Char} {ip : IpAddr} (h : parseIp cs = some ip) :
    ∀ c ∈ cs, isIpChar c = true := by
  have htakes : ∀ {rest}, readIp cs = some (ip, rest) → rest = [] → ∀ c ∈ cs, isIpChar c = true := by
    rintro rest hr rfl
    unfold readIp at hr
    split at hr
    · rename_i addr rest hv4
      obtain ⟨_, rfl⟩ := Prod.mk.inj (Option.some.inj hr)
      obtain ⟨used, rfl, hused⟩ := takes_readIpv4 cs addr [] hv4
      simpa using hused
    · obtain ⟨⟨groups, rest⟩, hv6, heq⟩ := Option.map_eq_some_iff.1 hr
      obtain ⟨_, rfl⟩ := Prod.mk.inj heq
      obtain ⟨used, rfl, hused⟩ := takes_readIpv6 cs groups [] hv6
      simpa using hused
  unfold parseIp at h
  split at h
  · rename_i ip' hr
    obtain rfl := Option.some.inj h
    exact htakes hr rfl
  · cases h

end Net
