import Mathlib.Data.List.Induction
import Mathlib.Data.List.Sort
import PwndaWallet.Lib.Text

/-!
# JavaScript strings and arrays

The built-in operations that the TypeScript part of the program uses: what its regular expressions
call a space, the stable `Array.prototype.sort`, and a `Map` filled with the elements of an array,
which keeps its keys in the order of their first use.
-/

namespace Js

/-! ## Strings -/

/-- What `\s` matches, which is also what `trim` takes off. -/
def isSpace (c : Char) : Bool :=
  let n := c.toNat
  (9 ≤ n && n ≤ 13) || n == 0x20 || n == 0xa0 || n == 0x1680 || (0x2000 ≤ n && n ≤ 0x200a) ||
    n == 0x2028 || n == 0x2029 || n == 0x202f || n == 0x205f || n == 0x3000 || n == 0xfeff

def trim (s : List Char) : List Char :=
  ((s.dropWhile isSpace).reverse.dropWhile isSpace).reverse

/-- `s.replace(/\s+/g, " ")`, where `run` tells that the character before was a space. -/
def collapse (run : Bool) : List Char → List Char
  | [] => []
  | c :: cs =>
    if isSpace c then (if run then collapse true cs else ' ' :: collapse true cs)
    else c :: collapse false cs

/-- `s.split(/\s+/).filter(Boolean)`. -/
def words (s : List Char) : List (List Char) := (s.splitOnP isSpace).filter (· ≠ [])

/-- A string that is there and not empty, which is what a condition on a string asks. -/
def truthy (s : Option String) : Option String := s.filter (· ≠ "")

theorem truthy_eq_some {s : Option String} {t : String} : truthy s = some t ↔ s = some t ∧ t ≠ "" := by
  simp [truthy, Option.filter_eq_some_iff]

@[simp] theorem truthy_none : truthy none = none := rfl

@[simp] theorem truthy_truthy (s : Option String) : truthy (truthy s) = truthy s := by
  simp [truthy, Option.filter_filter]

theorem truthy_of_ne {t : String} (h : t ≠ "") : truthy (some t) = some t :=
  truthy_eq_some.2 ⟨rfl, h⟩

/-- The built-ins that follow tables of the language's runtime. `localeLe a b` is
`a.localeCompare(b) <= 0`, an order of all strings. -/
structure Intl where
  toLowerCase : String → String
  toLowerCase_empty : toLowerCase "" = ""
  localeLe : String → String → Bool
  localeLe_total (a b : String) : localeLe a b ∨ localeLe b a
  localeLe_trans (a b c : String) : localeLe a b → localeLe b c → localeLe a c

/-- The tables' ASCII part. -/
def Intl.ascii : Intl where
  toLowerCase := fun s => String.ofList (s.toList.map Char.toLower)
  toLowerCase_empty := rfl
  localeLe := fun a b => a ≤ b
  localeLe_total := fun a b => by simpa using String.le_total a b
  localeLe_trans := fun a b c => by simpa using String.le_trans

/-! ## Sorting -/

section Sorting

variable {α : Type}

def sort (le : α → α → Bool) (l : List α) : List α := l.insertionSort fun a b => le a b

theorem perm_sort (le : α → α → Bool) (l : List α) : (sort le l).Perm l := List.perm_insertionSort _ l

@[simp] theorem mem_sort {le : α → α → Bool} {l : List α} {a : α} : a ∈ sort le l ↔ a ∈ l :=
  (perm_sort le l).mem_iff

theorem pairwise_sort {le : α → α → Bool} (htotal : ∀ a b, le a b ∨ le b a)
    (htrans : ∀ a b c, le a b → le b c → le a c) (l : List α) :
    (sort le l).Pairwise fun a b => le a b := by
  have : Std.Total (fun a b => le a b = true) := ⟨htotal⟩
  have : IsTrans α (fun a b => le a b = true) := ⟨htrans⟩
  exact List.pairwise_insertionSort _ l

theorem sublist_sort {le : α → α → Bool} {l c : List α} (hc : c.Pairwise fun a b => le a b)
    (h : c.Sublist l) : c.Sublist (sort le l) := List.sublist_insertionSort hc h

theorem orderedInsert_of_forall {le : α → α → Bool} {a : α} {l : List α} (h : ∀ b ∈ l, le a b) :
    l.orderedInsert (fun a b => le a b) a = a :: l := by
  cases l with
  | nil => rfl
  | cons b l => exact List.orderedInsert_cons_of_le _ _ (h b List.mem_cons_self)

theorem filter_orderedInsert {le : α → α → Bool} (htrans : ∀ a b c, le a b → le b c → le a c) (p : α → Bool)
    (a : α) {l : List α} (hl : l.Pairwise fun a b => le a b) :
    (l.orderedInsert (fun a b => le a b) a).filter p =
      if p a then (l.filter p).orderedInsert (fun a b => le a b) a else l.filter p := by
  induction hl with
  | nil => cases hp : p a <;> simp [hp]
  | @cons b l hb _ ih =>
    by_cases hab : le a b
    · have hall : ∀ x ∈ (b :: l).filter p, le a x := fun x hx => by
        rcases List.mem_cons.1 (List.mem_filter.1 hx).1 with rfl | hx
        · exact hab
        · exact htrans a b x hab (hb x hx)
      rw [orderedInsert_of_forall hall, List.orderedInsert_cons, if_pos hab]
      cases hp : p a <;> simp [List.filter_cons, hp]
    · rw [List.orderedInsert_cons, if_neg hab, List.filter_cons, ih]
      by_cases hpa : p a = true <;> by_cases hpb : p b = true <;> simp [hpa, hpb, hab]

/-- Sorting is stable: it commutes with leaving elements out. -/
theorem filter_sort {le : α → α → Bool} (htotal : ∀ a b, le a b ∨ le b a)
    (htrans : ∀ a b c, le a b → le b c → le a c) (p : α → Bool) (l : List α) :
    (sort le l).filter p = sort le (l.filter p) := by
  induction l with
  | nil => rfl
  | cons a l ih =>
    have hstep : sort le (a :: l) = (sort le l).orderedInsert (fun a b => le a b) a := rfl
    rw [hstep, filter_orderedInsert htrans p a (pairwise_sort htotal htrans l), ih]
    by_cases hp : p a = true
    · rw [if_pos hp, List.filter_cons_of_pos hp]
      rfl
    · rw [if_neg hp, List.filter_cons_of_neg hp]

def sortOn (key : α → Nat) : List α → List α := sort fun a b => key a ≤ key b

theorem pairwise_sortOn (key : α → Nat) (l : List α) :
    (sortOn key l).Pairwise fun a b => key a ≤ key b := by
  have h := @pairwise_sort _ (fun a b => decide (key a ≤ key b)) (fun a b => by simp; omega)
    (fun a b c => by simp; omega) l
  simpa only [decide_eq_true_eq, sortOn] using h

theorem split_sorted {key : α → Nat} {n : Nat} {l : List α} (h : l.Pairwise fun a b => key a ≤ key b) :
    l = l.filter (fun a => key a < n) ++ l.filter (fun a => ¬ key a < n) := by
  induction h with
  | nil => rfl
  | @cons a l ha _ ih =>
    by_cases hlt : key a < n
    · simpa [hlt] using ih
    · have hall : ∀ b ∈ l, ¬ key b < n := fun b hb => by have := ha b hb; omega
      have hnone : l.filter (fun b => key b < n) = [] := List.filter_eq_nil_iff.2 (by simpa using hall)
      have hself : l.filter (fun b => ¬ key b < n) = l := List.filter_eq_self.2 (by simpa using hall)
      rw [List.filter_cons_of_neg (by simpa using hlt), List.filter_cons_of_pos (by simpa using hlt),
        hnone, hself, List.nil_append]

/-- Sorting puts those with a key of their own in its order, and those with the key `n` behind them
as they stood. -/
theorem sortOn_eq {key : α → Nat} {n : Nat} {l olds news : List α} (hp : l.Perm (olds ++ news))
    (hold : olds.Pairwise fun a b => key a < key b) (hlt : ∀ a ∈ olds, key a < n)
    (hnew : ∀ a ∈ news, key a = n) (hsub : news.Sublist l) : sortOn key l = olds ++ news := by
  have hsorted := pairwise_sortOn key l
  have hperm : (sortOn key l).Perm (olds ++ news) := (perm_sort _ l).trans hp
  have hfst : (olds ++ news).filter (fun a => key a < n) = olds := by
    rw [List.filter_append, List.filter_eq_self.2 (by simpa using hlt),
      List.filter_eq_nil_iff.2 (fun a ha => by simp [hnew a ha]), List.append_nil]
  have hsnd : (olds ++ news).filter (fun a => ¬ key a < n) = news := by
    rw [List.filter_append, List.filter_eq_nil_iff.2 (fun a ha => by simpa using hlt a ha),
      List.filter_eq_self.2 (fun a ha => by simp [hnew a ha]), List.nil_append]
  have holds : (sortOn key l).filter (fun a => key a < n) = olds := by
    have hnodup : (olds.map key).Nodup := (List.pairwise_map.2 hold).imp fun h => Nat.ne_of_lt h
    have hfp : ((sortOn key l).filter (fun a => key a < n)).Perm olds := by
      simpa only [hfst] using hperm.filter fun a => key a < n
    refine List.Perm.eq_of_pairwise (fun a b ha hb hab hba => ?_) (hsorted.filter _)
      (hold.imp fun h => Nat.le_of_lt h) hfp
    exact List.inj_on_of_nodup_map hnodup (hfp.subset ha) hb (Nat.le_antisymm hab hba)
  have hnews : (sortOn key l).filter (fun a => ¬ key a < n) = news := by
    have hfp : ((sortOn key l).filter (fun a => ¬ key a < n)).Perm news := by
      simpa only [hsnd] using hperm.filter fun a => ¬ key a < n
    have hpair : news.Pairwise fun a b => decide (key a ≤ key b) = true :=
      List.pairwise_of_forall_mem_list fun a ha b hb => by simp [hnew a ha, hnew b hb]
    have hs : (news.filter fun a => ¬ key a < n).Sublist ((sortOn key l).filter fun a => ¬ key a < n) :=
      (sublist_sort hpair hsub).filter _
    have hself : news.filter (fun a => ¬ key a < n) = news :=
      List.filter_eq_self.2 fun a ha => by simp [hnew a ha]
    rw [hself] at hs
    exact (hs.eq_of_length hfp.length_eq.symm).symm
  rw [split_sorted (n := n) hsorted, holds, hnews]

end Sorting

/-! ## Maps filled in order -/

section Group

variable {α κ : Type} [DecidableEq κ]

/-- `map.set(k, [...(map.get(k) ?? []), a])` -/
def push (k : κ) (a : α) : List (κ × List α) → List (κ × List α)
  | [] => [(k, [a])]
  | e :: m => if e.1 = k then (e.1, e.2 ++ [a]) :: m else e :: push k a m

def group (key : α → κ) (l : List α) : List (κ × List α) := l.foldl (fun m a => push (key a) a m) []

theorem map_fst_push (k : κ) (a : α) (m : List (κ × List α)) :
    (push k a m).map (·.1) = if k ∈ m.map (·.1) then m.map (·.1) else m.map (·.1) ++ [k] := by
  induction m with
  | nil => rfl
  | cons e m ih =>
    by_cases he : e.1 = k
    · simp [push, he]
    · simp only [push, he, if_false, List.map_cons, ih, List.mem_cons, Ne.symm he, false_or]
      split <;> rfl

theorem mem_push {k : κ} {a : α} {m : List (κ × List α)} (hm : (m.map (·.1)).Nodup) {e : κ × List α} :
    e ∈ push k a m ↔
      (e.1 ≠ k ∧ e ∈ m) ∨ (∃ xs, (k, xs) ∈ m ∧ e = (k, xs ++ [a])) ∨ (k ∉ m.map (·.1) ∧ e = (k, [a])) := by
  induction m with
  | nil => simp [push]
  | cons d m ih =>
    obtain ⟨hd, hm⟩ := List.nodup_cons.1 hm
    by_cases he : d.1 = k
    · subst he
      have hno : ∀ xs, (d.1, xs) ∉ m := fun xs h => hd (List.mem_map.2 ⟨_, h, rfl⟩)
      have hne : ∀ e ∈ m, e.1 ≠ d.1 := fun e h heq => hd (List.mem_map.2 ⟨e, h, heq⟩)
      simp only [push, if_true, List.mem_cons, List.map_cons, true_or, not_true_eq_false, false_and,
        or_false]
      constructor
      · rintro (rfl | h)
        · exact .inr ⟨d.2, .inl rfl, rfl⟩
        · exact .inl ⟨hne e h, .inr h⟩
      · rintro (⟨hk, rfl | h⟩ | ⟨xs, h | h, rfl⟩)
        · exact absurd rfl hk
        · exact .inr h
        · exact .inl (by rw [← h])
        · exact absurd h (hno xs)
    · simp only [push, he, if_false, List.mem_cons, ih hm, List.map_cons, not_or]
      grind

/-- The map has each key once, beside the elements that have it, as they stood. -/
theorem mem_group {key : α → κ} {l : List α} {e : κ × List α} :
    e ∈ group key l ↔ e.1 ∈ l.map key ∧ e.2 = l.filter (key · = e.1) := by
  suffices h : ((group key l).map (·.1)).Nodup ∧ ∀ e, e ∈ group key l ↔
      e.1 ∈ l.map key ∧ e.2 = l.filter (key · = e.1) from h.2 e
  unfold group
  induction l using List.reverseRecOn with
  | nil => simp
  | append_singleton l a ih =>
    obtain ⟨hnodup, hmem⟩ := ih
    simp only [List.foldl_append, List.foldl_cons, List.foldl_nil]
    have hkeys : ∀ k, k ∈ (l.foldl (fun m a => push (key a) a m) []).map (·.1) ↔ k ∈ l.map key := by
      intro k
      rw [List.mem_map]
      exact ⟨fun ⟨e, he, hk⟩ => hk ▸ ((hmem e).1 he).1, fun h => ⟨(k, l.filter (key · = k)), (hmem _).2 ⟨h, rfl⟩, rfl⟩⟩
    refine ⟨?_, fun e => ?_⟩
    · rw [map_fst_push]
      split
      · exact hnodup
      · rename_i hnot
        exact hnodup.append (List.nodup_singleton _) fun x hx hxa => by
          obtain rfl := List.mem_singleton.1 hxa
          exact hnot hx
    · rw [mem_push hnodup, hkeys, hmem]
      obtain ⟨k, xs⟩ := e
      by_cases hk : k = key a
      · subst hk
        by_cases hin : key a ∈ l.map key
        · simp only [ne_eq, not_true_eq_false, false_and, hmem, hin, true_and, Prod.mk.injEq, false_or,
            List.map_append, List.filter_append, List.mem_append, true_or]
          simp only [or_false, List.filter_cons_of_pos, decide_true, List.filter_nil]
          exact ⟨fun ⟨_, hys, h⟩ => hys ▸ h, fun h => ⟨_, rfl, h⟩⟩
        · have hnil : l.filter (fun b => key b = key a) = [] :=
            List.filter_eq_nil_iff.2 fun b hb h => hin (List.mem_map.2 ⟨b, hb, by simpa using h⟩)
          simp only [ne_eq, not_true_eq_false, false_and, hmem, hin, not_false_eq_true, true_and,
            Prod.mk.injEq, false_or, exists_false, List.map_append, List.filter_append, hnil]
          simp
      · simp only [ne_eq, hk, not_false_eq_true, true_and, Prod.mk.injEq, false_and, and_false,
          exists_false, or_false, List.map_append, List.filter_append, List.mem_append]
        simp [hk, Ne.symm hk]

end Group

/-!
## Integers as text

How JavaScript reads a string as a `BigInt`, and writes one in hexadecimal.
-/

def digitOf (c : Char) : Nat :=
  if c.isDigit then c.toNat - '0'.toNat
  else if 'a' ≤ c ∧ c ≤ 'z' then c.toNat - 'a'.toNat + 10
  else if 'A' ≤ c ∧ c ≤ 'Z' then c.toNat - 'A'.toNat + 10
  else 36

/-- The value of one digit or more. -/
def digits (base : Nat) (cs : List Char) : Option Nat :=
  if cs ≠ [] ∧ cs.all (digitOf · < base) then some (cs.foldl (fun n c => base * n + digitOf c) 0) else none

/-- `BigInt(s)` -/
def bigInt (s : String) : Option Int :=
  match trim s.toList with
  | [] => some 0
  | '0' :: 'x' :: cs => (digits 16 cs).map Int.ofNat
  | '0' :: 'X' :: cs => (digits 16 cs).map Int.ofNat
  | '0' :: 'o' :: cs => (digits 8 cs).map Int.ofNat
  | '0' :: 'O' :: cs => (digits 8 cs).map Int.ofNat
  | '0' :: 'b' :: cs => (digits 2 cs).map Int.ofNat
  | '0' :: 'B' :: cs => (digits 2 cs).map Int.ofNat
  | '-' :: cs => (digits 10 cs).map fun n => -(n : Int)
  | '+' :: cs => (digits 10 cs).map Int.ofNat
  | cs => (digits 10 cs).map Int.ofNat

/-- `n.toString(16)` -/
def hex (n : Nat) : List Char := Nat.toDigits 16 n

/-- `padStart(width, "0")` -/
def padZero (width : Nat) (cs : List Char) : List Char := List.replicate (width - cs.length) '0' ++ cs

end Js
