import Mathlib.Algebra.Ring.Int.Defs
import Mathlib.Algebra.Ring.Nat
import Mathlib.Data.List.Induction
import Mathlib.Data.Nat.Basic

/-!
# Bytes on the wire

Numbers as bytes in either order, and readers, which take what they read off the front of the bytes. A
reader undoes an encoding if it does so before any rest (`Reads`); that composes, and what some reader undoes
is free of prefixes, so equal bytes are of equal values.
-/

namespace Wire

abbrev Bytes := List UInt8

/-! ## Numbers -/

/-- The lower `w` bytes of a number, the lowest first. -/
def le : Nat → Nat → Bytes
  | 0, _ => []
  | w + 1, n => UInt8.ofNat n :: le w (n / 256)

/-- The same, the highest first. -/
def be (w n : Nat) : Bytes := (le w n).reverse

def leValue : Bytes → Nat
  | [] => 0
  | b :: bs => b.toNat + 256 * leValue bs

def beValue (bs : Bytes) : Nat := leValue bs.reverse

@[simp] theorem length_le (w n : Nat) : (le w n).length = w := by
  induction w generalizing n with
  | zero => rfl
  | succ w ih => simp [le, ih]

@[simp] theorem length_be (w n : Nat) : (be w n).length = w := by simp [be]

theorem leValue_le (w n : Nat) : leValue (le w n) = n % 256 ^ w := by
  induction w generalizing n with
  | zero => simp [le, leValue, Nat.mod_one]
  | succ w ih =>
    have hbyte : (UInt8.ofNat n).toNat = n % 256 := by simp
    rw [le, leValue, ih, hbyte, Nat.pow_succ, Nat.mul_comm (256 ^ w), Nat.mod_mul]

theorem beValue_be (w n : Nat) : beValue (be w n) = n % 256 ^ w := by
  rw [beValue, be, List.reverse_reverse, leValue_le]

theorem le_leValue (bs : Bytes) : le bs.length (leValue bs) = bs := by
  induction bs with
  | nil => rfl
  | cons b bs ih =>
    have hb := b.toNat_lt
    have hlow : UInt8.ofNat (b.toNat + 256 * leValue bs) = b := by
      apply UInt8.toNat_inj.1
      rw [UInt8.toNat_ofNat']
      omega
    have hhigh : (b.toNat + 256 * leValue bs) / 256 = leValue bs := by omega
    rw [List.length_cons, le, leValue, hlow, hhigh, ih]

theorem be_beValue (bs : Bytes) : be bs.length (beValue bs) = bs := by
  have h := le_leValue bs.reverse
  rw [List.length_reverse] at h
  rw [be, beValue, h, List.reverse_reverse]

theorem leValue_lt (bs : Bytes) : leValue bs < 256 ^ bs.length := by
  induction bs with
  | nil => simp [leValue]
  | cons b bs ih =>
    have hb := b.toNat_lt
    rw [leValue, List.length_cons, Nat.pow_succ]
    omega

theorem beValue_lt (bs : Bytes) : beValue bs < 256 ^ bs.length := by
  have h := leValue_lt bs.reverse
  rwa [List.length_reverse] at h

theorem beValue_snoc (bs : Bytes) (b : UInt8) : beValue (bs ++ [b]) = 256 * beValue bs + b.toNat := by
  simp [beValue, leValue, Nat.add_comm]

theorem foldl_beValue (bs : Bytes) (n : Nat) :
    bs.foldl (fun n b => 256 * n + b.toNat) n = 256 ^ bs.length * n + beValue bs := by
  induction bs using List.reverseRecOn with
  | nil => simp [beValue, leValue]
  | append_singleton bs b ih =>
    rw [List.foldl_append, List.foldl_cons, List.foldl_nil, ih, beValue_snoc, List.length_append,
      List.length_singleton, Nat.pow_succ, Nat.mul_add, ← Nat.mul_assoc, Nat.mul_comm 256, Nat.add_assoc]

theorem le_mod (w n : Nat) : le w (n % 256 ^ w) = le w n := by
  have h := le_leValue (le w n)
  rwa [length_le, leValue_le] at h

theorem be_mod (w n : Nat) : be w (n % 256 ^ w) = be w n := by rw [be, le_mod, be]

/-! ## Readers -/

def Reader (α : Type) := Bytes → Option (α × Bytes)

namespace Reader

variable {α β : Type}

instance : Monad Reader where
  pure a := fun bs => some (a, bs)
  bind r f := fun bs => (r bs).bind fun p => f p.1 p.2

def fail : Reader α := fun _ => none

/-- Goes on only if the condition holds. -/
def ensure (c : Bool) : Reader Unit := if c then pure () else fail

def byte : Reader UInt8
  | [] => none
  | b :: bs => some (b, bs)

def take (n : Nat) : Reader Bytes := fun bs =>
  if n ≤ bs.length then some (bs.take n, bs.drop n) else none

def leNum (w : Nat) : Reader Nat := do return leValue (← take w)

def beNum (w : Nat) : Reader Nat := do return beValue (← take w)

/-- Reads `n` of them. -/
def count (r : Reader α) : Nat → Reader (List α)
  | 0 => pure []
  | n + 1 => do
    let a ← r
    let as ← count r n
    return a :: as

/-- Reads all of the bytes. -/
def whole (r : Reader α) (bs : Bytes) : Option α :=
  match r bs with
  | some (a, []) => some a
  | _ => none

theorem pure_apply (a : α) (bs : Bytes) : (pure a : Reader α) bs = some (a, bs) := rfl

theorem bind_apply (r : Reader α) (f : α → Reader β) (bs : Bytes) :
    (r >>= f) bs = (r bs).bind fun p => f p.1 p.2 := rfl

/-- The reader gets `a` from these bytes, and leaves what follows them. -/
def Reads (r : Reader α) (bs : Bytes) (a : α) : Prop := ∀ rest, r (bs ++ rest) = some (a, rest)

namespace Reads

variable {r : Reader α} {f : α → Reader β} {bs bs' : Bytes} {a a' : α} {b : β}

theorem pure (a : α) : Reads (Pure.pure a) [] a := fun _ => rfl

theorem bind (h : Reads r bs a) (h' : Reads (f a) bs' b) : Reads (r >>= f) (bs ++ bs') b := by
  intro rest
  rw [bind_apply, List.append_assoc, h]
  exact h' rest

/-- A step that takes nothing. -/
theorem bind_nil (h : Reads r [] a) (h' : Reads (f a) bs b) : Reads (r >>= f) bs b := h.bind h'

/-- What follows takes nothing. -/
theorem bind_of (h : Reads r bs a) (h' : Reads (f a) [] b) : Reads (r >>= f) bs b := by
  have hbind := h.bind h'
  rwa [List.append_nil] at hbind

theorem bind_pure (h : Reads r bs a) (g : α → β) : Reads (r >>= fun a => Pure.pure (g a)) bs (g a) :=
  h.bind_of (pure (g a))

theorem ensure {c : Bool} (h : c = true) : Reads (ensure c) [] () := by
  subst h
  exact pure ()

theorem byte (b : UInt8) : Reads byte [b] b := fun _ => rfl

theorem take {n : Nat} (h : bs.length = n) : Reads (take n) bs bs := by
  intro rest
  subst h
  rw [Reader.take, if_pos (by simp), List.take_left, List.drop_left]

theorem leNum {w n : Nat} (h : n < 256 ^ w) : Reads (leNum w) (le w n) n := by
  have htake := (take (length_le w n)).bind_pure leValue
  rwa [leValue_le, Nat.mod_eq_of_lt h] at htake

theorem beNum {w n : Nat} (h : n < 256 ^ w) : Reads (beNum w) (be w n) n := by
  have htake := (take (length_be w n)).bind_pure beValue
  rwa [beValue_be, Nat.mod_eq_of_lt h] at htake

theorem count {enc : α → Bytes} {l : List α} (h : ∀ a ∈ l, Reads r (enc a) a) :
    Reads (count r l.length) (l.flatMap enc) l := by
  induction l with
  | nil => exact pure []
  | cons a l ih =>
    have hrest := ih fun b hb => h b (List.mem_cons_of_mem _ hb)
    exact (h a List.mem_cons_self).bind (hrest.bind_pure (a :: ·))

theorem whole (h : Reads r bs a) : whole r bs = some a := by
  have hr := h []
  rw [List.append_nil] at hr
  rw [Reader.whole, hr]

/-- Encodings that one reader undoes are free of prefixes. -/
theorem inj {rest rest' : Bytes} (h : Reads r bs a) (h' : Reads r bs' a') (heq : bs ++ rest = bs' ++ rest') :
    a = a' ∧ rest = rest' := by
  have hr := h rest
  rw [heq, h' rest'] at hr
  obtain ⟨ha, hrest⟩ := Prod.mk.inj (Option.some.inj hr)
  exact ⟨ha.symm, hrest.symm⟩

theorem eq_of_eq (h : Reads r bs a) (h' : Reads r bs a') : a = a' := (@inj _ _ _ _ _ _ [] [] h h' rfl).1

end Reads

end Reader

end Wire

/-!
## Compact sizes

The counts and lengths of Bitcoin's formats: one byte, or a marker and two, four or eight bytes. The reader takes
the shortest form only.
-/

namespace CompactSize

open Wire Reader

def write (n : Nat) : Bytes :=
  if n < 0xfd then [UInt8.ofNat n]
  else if n ≤ 0xffff then 0xfd :: le 2 n
  else if n ≤ 0xffffffff then 0xfe :: le 4 n
  else 0xff :: le 8 n

/-- `w` bytes of a number that has no shorter form. -/
def form (w least : Nat) : Reader Nat := do
  let n ← leNum w
  ensure (decide (least ≤ n))
  return n

def afterMarker (b : UInt8) : Reader Nat :=
  if b.toNat < 0xfd then pure b.toNat
  else if b.toNat = 0xfd then form 2 0xfd
  else if b.toNat = 0xfe then form 4 0x10000
  else form 8 0x100000000

def read : Reader Nat := do
  let b ← byte
  afterMarker b

theorem reads_form {w least n : Nat} (hlow : least ≤ n) (hhigh : n < 256 ^ w) : Reads (form w least) (le w n) n := by
  have hensure : Reads (ensure (decide (least ≤ n))) [] () := Reads.ensure (by simpa using hlow)
  exact (Reads.leNum hhigh).bind_of (hensure.bind_nil (Reads.pure n))

theorem reads {n : Nat} (h : n < 2 ^ 64) : Reads read (write n) n := by
  have hmarker (b : UInt8) {bs : Bytes} (hb : Reads (afterMarker b) bs n) : Reads read (b :: bs) n :=
    (Reads.byte b).bind hb
  unfold write
  by_cases hone : n < 0xfd
  · rw [if_pos hone]
    have hbyte : (UInt8.ofNat n).toNat = n := by
      rw [UInt8.toNat_ofNat']
      omega
    apply hmarker
    rw [afterMarker, hbyte, if_pos hone]
    exact Reads.pure n
  · rw [if_neg hone]
    by_cases htwo : n ≤ 0xffff
    · rw [if_pos htwo]
      exact hmarker _ (reads_form (by omega) (by omega))
    · rw [if_neg htwo]
      by_cases hfour : n ≤ 0xffffffff
      · rw [if_pos hfour]
        exact hmarker _ (reads_form (by omega) (by omega))
      · rw [if_neg hfour]
        exact hmarker _ (reads_form (by omega) (by simpa using h))

/-! ## Bytes behind their length -/

def writeBytes (b : Bytes) : Bytes := write b.length ++ b

def readBytes : Reader Bytes := do
  let n ← read
  take n

theorem reads_bytes {b : Bytes} (h : b.length < 2 ^ 64) : Reads readBytes (writeBytes b) b :=
  (reads h).bind (Reads.take rfl)

/-! ## Lists behind their count -/

variable {α : Type} {r : Reader α} {enc : α → Bytes}

def writeList (enc : α → Bytes) (l : List α) : Bytes := write l.length ++ l.flatMap enc

def readList (r : Reader α) : Reader (List α) := do
  let n ← read
  count r n

theorem reads_list {l : List α} (hlen : l.length < 2 ^ 64) (h : ∀ a ∈ l, Reads r (enc a) a) :
    Reads (readList r) (writeList enc l) l :=
  (reads hlen).bind (Reads.count h)

end CompactSize

/-!
## What a protobuf parser reads

A message is a list of fields, each under a key. Of a key the low 32 bits count, of an integer the low 64; a
field that is given more than once has the value of its last copy, an embedded message is what its copies hold one
after the other, and a field under an unexpected wire type is not that field. Groups are not read.
-/

namespace Protobuf

open Wire

/-- Seven bits a byte, the lowest first, in at most this many bytes. -/
def varint : Nat → Bytes → Option (Nat × Bytes)
  | 0, _ => none
  | _, [] => none
  | n + 1, b :: bs =>
    if b.toNat < 128 then some (b.toNat, bs)
    else (varint n bs).map fun p => (b.toNat % 128 + 128 * p.1, p.2)

theorem length_varint {n : Nat} {bs rest : Bytes} {v : Nat} (h : varint n bs = some (v, rest)) :
    rest.length < bs.length := by
  induction n generalizing bs v with
  | zero => cases h
  | succ n ih =>
    cases bs with
    | nil => cases h
    | cons b bs =>
      rw [varint] at h
      split_ifs at h
      · cases h
        exact Nat.lt_succ_self _
      · obtain ⟨⟨w, rest'⟩, hw, heq⟩ := Option.map_eq_some_iff.1 h
        cases heq
        exact Nat.lt_succ_of_lt (ih hw)

structure Field where
  no : Nat
  wire : Nat
  int : Nat := 0
  bytes : Bytes := []
deriving DecidableEq, Repr

/-- One field off the front. -/
def field (bs : Bytes) : Option (Field × Bytes) := do
  let (key, bs) ← varint 10 bs
  let tag := key % 2 ^ 32
  let no := tag / 8
  let wire := tag % 8
  match wire with
  | 0 =>
    let (v, bs) ← varint 10 bs
    return ({ no, wire, int := v % 2 ^ 64 }, bs)
  | 2 =>
    let (len, bs) ← varint 10 bs
    if len ≤ bs.length then return ({ no, wire, bytes := bs.take len }, bs.drop len) else none
  | 1 => if 8 ≤ bs.length then return ({ no, wire }, bs.drop 8) else none
  | 5 => if 4 ≤ bs.length then return ({ no, wire }, bs.drop 4) else none
  | _ => none

/-- `fuel` is the length of the message at most: every field takes a byte of its own. -/
def fieldsFrom : Nat → Bytes → Option (List Field)
  | _, [] => some []
  | 0, _ :: _ => none
  | fuel + 1, b :: bs => do
    let (f, bs) ← field (b :: bs)
    let fs ← fieldsFrom fuel bs
    return f :: fs

def fields (bs : Bytes) : Option (List Field) := fieldsFrom bs.length bs

/-! ## Reading a known field -/

def copies (no wire : Nat) (fs : List Field) : List Field := fs.filter fun f => f.no = no ∧ f.wire = wire

def lastInt (no : Nat) (fs : List Field) : Nat := ((copies no 0 fs).getLast?.map (·.int)).getD 0

def lastBytes (no : Nat) (fs : List Field) : Bytes := ((copies no 2 fs).getLast?.map (·.bytes)).getD []

/-- The fields of an embedded message, with those of every copy. -/
def embedded (no : Nat) (fs : List Field) : Option (List Field) :=
  ((copies no 2 fs).mapM fun f => fields f.bytes).map List.flatten

end Protobuf
