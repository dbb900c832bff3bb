import PwndaWallet.Algo.Encode
import PwndaWallet.Lib.Result

/-!
# The encoding is canonical

A reader of canonical msgpack refuses every integer and length that has a shorter form, a map whose keys do
not rise byte by byte, and a field that holds nothing. From what `encodeCanonicalMap` returns it gets exactly
the fields that hold something; but an integer from 2^64 on is cut to its lower 64 bits instead of refused.
-/

namespace Algo

open Wire Wire.Reader

/-! ## The reader -/

inductive Value where
  | uint (n : Nat)
  | str (s : String)
  | bin (b : Bytes)
deriving DecidableEq

def Value.isZero : Value → Bool
  | .uint n => n == 0
  | .str s => s == ""
  | .bin b => b.isEmpty

/-- A big-endian number of `w` bytes, refused below `least`. -/
def readNum (w least : Nat) : Reader Nat := do
  let n ← beNum w
  ensure (least ≤ n)
  return n

def readText (n : Nat) : Reader String := do
  let b ← take n
  match String.fromUTF8? ⟨b.toArray⟩ with
  | some s => return s
  | none => fail

def readStrAs (tag : Nat) : Reader String := do
  if 0xa0 ≤ tag ∧ tag < 0xc0 then readText (tag - 0xa0)
  else if tag = 0xd9 then readText (← readNum 1 32)
  else if tag = 0xda then readText (← readNum 2 0x100)
  else if tag = 0xdb then readText (← readNum 4 0x10000)
  else fail

def readBinAs (tag : Nat) : Reader Bytes := do
  if tag = 0xc4 then take (← readNum 1 0)
  else if tag = 0xc5 then take (← readNum 2 0x100)
  else if tag = 0xc6 then take (← readNum 4 0x10000)
  else fail

def readUintAs (tag : Nat) : Reader Nat :=
  if tag < 0x80 then pure tag
  else if tag = 0xcc then readNum 1 0x80
  else if tag = 0xcd then readNum 2 0x100
  else if tag = 0xce then readNum 4 0x10000
  else if tag = 0xcf then readNum 8 0x100000000
  else fail

def readStr : Reader String := do readStrAs (← byte).toNat

def readValue : Reader Value := do
  let tag := (← byte).toNat
  if tag < 0x80 ∨ 0xcc ≤ tag ∧ tag ≤ 0xcf then return .uint (← readUintAs tag)
  else if 0xc4 ≤ tag ∧ tag ≤ 0xc6 then return .bin (← readBinAs tag)
  else return .str (← readStrAs tag)

def readEntry : Reader (String × Value) := do
  let k ← readStr
  let v ← readValue
  return (k, v)

/-- The keys rise. -/
def rising : List (String × Value) → Bool
  | [] => true
  | [_] => true
  | a :: b :: l => (bytesLe (textBytes a.1) (textBytes b.1) && textBytes a.1 ≠ textBytes b.1) && rising (b :: l)

def readMap : Reader (List (String × Value)) := do
  let tag := (← byte).toNat
  ensure (0x80 ≤ tag && tag < 0x90)
  let l ← count readEntry (tag - 0x80)
  ensure (rising l && l.all fun e => !e.2.isZero)
  return l

/-! ## Values -/

/-- The value as the format has it, if the format has it. -/
def MsgValue.value : MsgValue → Option Value
  | .bigint n => if 0 ≤ n ∧ n < 2 ^ 64 then some (.uint n.toNat) else none
  | .number (some n) => if 0 ≤ n ∧ n < 2 ^ 64 then some (.uint n.toNat) else none
  | .number none => none
  | .string s => if (textBytes s).length ≤ 0xff then some (.str s) else none
  | .bytes b => if b.length ≤ 0xffff then some (.bin b) else none

theorem fromUTF8_textBytes (s : String) : String.fromUTF8? ⟨(textBytes s).toArray⟩ = some s := by
  have hbytes : (⟨(textBytes s).toArray⟩ : ByteArray) = s.toByteArray := by simp [textBytes]
  rw [hbytes, String.fromUTF8?, dif_pos s.isValidUTF8]
  rfl

theorem textBytes_inj {s t : String} (h : textBytes s = textBytes t) : s = t := by
  have hs := fromUTF8_textBytes s
  rw [h, fromUTF8_textBytes t] at hs
  exact (Option.some.inj hs).symm

theorem reads_readText (s : String) : Reads (readText (textBytes s).length) (textBytes s) s := by
  intro rest
  have htake := Reads.take (rfl : (textBytes s).length = (textBytes s).length) rest
  rw [readText, bind_apply, htake, Option.bind_some, fromUTF8_textBytes]
  rfl

theorem reads_readNum {w least n : Nat} (h : n < 256 ^ w) (hleast : least ≤ n) :
    Reads (readNum w least) (be w n) n := by
  refine (Reads.beNum h).bind_of ?_
  exact Reads.bind_nil (Reads.ensure (by simpa using hleast)) (Reads.pure n)

theorem or_of_lt {m n : Nat} (hm : m = 0x80 ∨ m = 0xa0) (hn : n < 16 ∨ m = 0xa0 ∧ n < 32) : m ||| n = m + n := by
  have h80 : ∀ n < 16, 0x80 ||| n = 0x80 + n := by decide
  have ha0 : ∀ n < 32, 0xa0 ||| n = 0xa0 + n := by decide
  rcases hm with rfl | rfl
  · apply h80
    omega
  · apply ha0
    omega

/-- A string is a tag of its own and what that tag announces. -/
theorem encodeStr_spec {s : String} {bs : Bytes} (h : encodeStr s = .ok bs) : ∃ tag body, bs = tag :: body ∧
    (0xa0 ≤ tag.toNat ∧ tag.toNat < 0xc0 ∨ tag.toNat = 0xd9) ∧ Reads (readStrAs tag.toNat) body s := by
  have htext := reads_readText s
  unfold encodeStr at h
  dsimp only at h
  split at h
  · rename_i hlen
    obtain rfl := Except.ok.inj h
    have hor := or_of_lt (.inr rfl) (.inr ⟨rfl, hlen⟩)
    have htag : (UInt8.ofNat (0xa0 ||| (textBytes s).length)).toNat = 0xa0 + (textBytes s).length := by
      rw [hor, UInt8.toNat_ofNat']
      omega
    refine ⟨_, _, rfl, .inl ?_, ?_⟩
    · omega
    · rw [htag, readStrAs, if_pos (by omega), Nat.add_sub_cancel_left]
      exact htext
  · split at h
    · rename_i hlen hlen'
      obtain rfl := Except.ok.inj h
      refine ⟨_, _, rfl, .inr rfl, ?_⟩
      apply (reads_readNum _ _).bind htext <;> omega
    · cases h

theorem reads_key {s : String} {bs : Bytes} (h : encodeStr s = .ok bs) : Reads readStr bs s := by
  obtain ⟨tag, body, rfl, -, hbody⟩ := encodeStr_spec h
  exact (Reads.byte tag).bind hbody

theorem reads_encodeStr {s : String} {bs : Bytes} (h : encodeStr s = .ok bs) : Reads readValue bs (.str s) := by
  obtain ⟨tag, body, rfl, htag, hbody⟩ := encodeStr_spec h
  apply (Reads.byte tag).bind
  rw [if_neg (by omega), if_neg (by omega)]
  exact hbody.bind_pure Value.str

theorem reads_encodeBin {b bs : Bytes} (h : encodeBin b = .ok bs) : Reads readValue bs (.bin b) := by
  unfold encodeBin at h
  split at h
  · obtain rfl := Except.ok.inj h
    apply (Reads.byte _).bind
    apply Reads.bind_pure _ Value.bin
    apply (reads_readNum _ _).bind (Reads.take rfl)
    · omega
    · omega
  · split at h
    · obtain rfl := Except.ok.inj h
      apply (Reads.byte _).bind
      apply Reads.bind_pure _ Value.bin
      apply (reads_readNum _ _).bind (Reads.take rfl)
      · omega
      · omega
    · cases h

theorem reads_encodeUint {n : Int} {bs : Bytes} (h : encodeUint n = .ok bs) (hn : n < 2 ^ 64) :
    Reads readValue bs (.uint n.toNat) := by
  unfold encodeUint at h
  split at h
  · cases h
  · split at h
    · rename_i hsmall
      obtain rfl := Except.ok.inj h
      have htag : (UInt8.ofNat n.toNat).toNat = n.toNat := by
        rw [UInt8.toNat_ofNat']
        omega
      apply (Reads.byte _).bind
      rw [htag, if_pos (by omega), readUintAs, if_pos (by omega)]
      exact (Reads.pure n.toNat).bind_pure Value.uint
    · split at h
      · obtain rfl := Except.ok.inj h
        apply (Reads.byte _).bind
        apply Reads.bind_pure _ Value.uint
        apply reads_readNum <;> omega
      · split at h
        · obtain rfl := Except.ok.inj h
          apply (Reads.byte _).bind
          apply Reads.bind_pure _ Value.uint
          apply reads_readNum <;> omega
        · split at h
          · obtain rfl := Except.ok.inj h
            apply (Reads.byte _).bind
            apply Reads.bind_pure _ Value.uint
            apply reads_readNum <;> omega
          · obtain rfl := Except.ok.inj h
            apply (Reads.byte _).bind
            apply Reads.bind_pure _ Value.uint
            apply reads_readNum <;> omega

/-- An integer from 2^64 on is not refused. -/
def MsgValue.wraps : MsgValue → Bool
  | .bigint n => 2 ^ 64 ≤ n
  | .number (some n) => 2 ^ 64 ≤ n
  | _ => false

theorem encodeUint_ok {n : Int} : (encodeUint n).isOk = true ↔ 0 ≤ n := by
  unfold encodeUint
  by_cases hn : n < 0
  · simp [hn, Except.isOk, Except.toBool]
  · rw [if_neg hn]
    repeat' split
    all_goals simp [Except.isOk, Except.toBool, Int.not_lt.1 hn]

theorem encodeStr_ok {s : String} : (encodeStr s).isOk = true ↔ (textBytes s).length ≤ 0xff := by
  unfold encodeStr
  dsimp only
  repeat' split
  all_goals simp [Except.isOk, Except.toBool]
  all_goals omega

theorem encodeBin_ok {b : Bytes} : (encodeBin b).isOk = true ↔ b.length ≤ 0xffff := by
  unfold encodeBin
  repeat' split
  all_goals simp [Except.isOk, Except.toBool]
  all_goals omega

/-- A value is encoded exactly when the format has it, or it wraps. -/
theorem encodeValue_ok {v : MsgValue} : (encodeValue v).isOk = true ↔ v.value.isSome ∨ v.wraps = true := by
  cases v with
  | bigint n =>
    simp only [encodeValue, encodeUint_ok, MsgValue.value, MsgValue.wraps, decide_eq_true_eq]
    split <;> simp <;> omega
  | number x =>
    cases x with
    | none => simp [encodeValue, bigIntOf, Except.bind, MsgValue.value, MsgValue.wraps, Except.isOk, Except.toBool]
    | some n =>
      simp only [encodeValue, bigIntOf, Except.bind, encodeUint_ok, MsgValue.value, MsgValue.wraps, decide_eq_true_eq]
      split <;> simp <;> omega
  | string s =>
    simp only [encodeValue, encodeStr_ok, MsgValue.value, MsgValue.wraps]
    split <;> simp <;> omega
  | bytes b =>
    simp only [encodeValue, encodeBin_ok, MsgValue.value, MsgValue.wraps]
    split <;> simp <;> omega

theorem reads_encodeValue {v : MsgValue} {w : Value} {bs : Bytes} (h : encodeValue v = .ok bs)
    (hw : v.value = some w) : Reads readValue bs w := by
  cases v with
  | bigint n =>
    rw [MsgValue.value] at hw
    obtain ⟨hrange, hw⟩ := Option.ite_none_right_eq_some.1 hw
    obtain rfl := Option.some.inj hw
    exact reads_encodeUint h hrange.2
  | number x =>
    cases x with
    | none => cases hw
    | some n =>
      rw [MsgValue.value] at hw
      obtain ⟨hrange, hw⟩ := Option.ite_none_right_eq_some.1 hw
      obtain rfl := Option.some.inj hw
      exact reads_encodeUint h hrange.2
  | string s =>
    rw [MsgValue.value] at hw
    obtain ⟨-, hw⟩ := Option.ite_none_right_eq_some.1 hw
    obtain rfl := Option.some.inj hw
    exact reads_encodeStr h
  | bytes b =>
    rw [MsgValue.value] at hw
    obtain ⟨-, hw⟩ := Option.ite_none_right_eq_some.1 hw
    obtain rfl := Option.some.inj hw
    exact reads_encodeBin h

/-! ## The order of the keys -/

theorem bytesLe_total (a b : Bytes) : bytesLe a b = true ∨ bytesLe b a = true := by
  induction a generalizing b with
  | nil => simp [bytesLe]
  | cons x a ih =>
    cases b with
    | nil => simp [bytesLe]
    | cons y b =>
      by_cases hxy : x = y
      · subst hxy
        simpa [bytesLe] using ih b
      · simp only [bytesLe, ne_eq, hxy, Ne.symm hxy, not_false_eq_true, if_true, decide_eq_true_eq]
        have hne : x.toNat ≠ y.toNat := fun h => hxy (UInt8.toNat_inj.1 h)
        rw [UInt8.lt_iff_toNat_lt, UInt8.lt_iff_toNat_lt]
        omega

theorem bytesLe_trans (a b c : Bytes) (hab : bytesLe a b = true) (hbc : bytesLe b c = true) :
    bytesLe a c = true := by
  induction a generalizing b c with
  | nil => rfl
  | cons x a ih =>
    cases b with
    | nil => cases hab
    | cons y b =>
      cases c with
      | nil => cases hbc
      | cons z c =>
        by_cases hxy : x = y
        · subst hxy
          by_cases hxz : x = z
          · subst hxz
            simp only [bytesLe, ne_eq, not_true_eq_false, if_false] at hab hbc ⊢
            exact ih b c hab hbc
          · simpa [bytesLe, hxz] using hbc
        · by_cases hyz : y = z
          · subst hyz
            simpa [bytesLe, hxy] using hab
          · simp only [bytesLe, ne_eq, hxy, hyz, not_false_eq_true, if_true, decide_eq_true_eq] at hab hbc
            have hxz : x < z := by
              rw [UInt8.lt_iff_toNat_lt] at hab hbc ⊢
              omega
            have hne : x ≠ z := fun h => by
              subst h
              rw [UInt8.lt_iff_toNat_lt] at hxz
              omega
            simp [bytesLe, hne, hxz]

theorem bytesLe_antisymm (a b : Bytes) (hab : bytesLe a b = true) (hba : bytesLe b a = true) : a = b := by
  induction a generalizing b with
  | nil =>
    cases b with
    | nil => rfl
    | cons y b => cases hba
  | cons x a ih =>
    cases b with
    | nil => cases hab
    | cons y b =>
      by_cases hxy : x = y
      · subst hxy
        simp only [bytesLe, ne_eq, not_true_eq_false, if_false] at hab hba
        rw [ih b hab hba]
      · simp only [bytesLe, ne_eq, hxy, Ne.symm hxy, not_false_eq_true, if_true, decide_eq_true_eq] at hab hba
        rw [UInt8.lt_iff_toNat_lt] at hab hba
        omega

def KeyLt (a b : String × Value) : Prop :=
  bytesLe (textBytes a.1) (textBytes b.1) = true ∧ textBytes a.1 ≠ textBytes b.1

theorem KeyLt.trans {a b c : String × Value} (hab : KeyLt a b) (hbc : KeyLt b c) : KeyLt a c := by
  refine ⟨bytesLe_trans _ _ _ hab.1 hbc.1, fun h => hab.2 ?_⟩
  exact bytesLe_antisymm _ _ hab.1 (h ▸ hbc.1)

theorem KeyLt.asymm {a b : String × Value} (hab : KeyLt a b) : ¬ KeyLt b a := fun hba =>
  hab.2 (bytesLe_antisymm _ _ hab.1 hba.1)

theorem rising_iff (l : List (String × Value)) : rising l = true ↔ l.Pairwise KeyLt := by
  induction l with
  | nil => simp [rising]
  | cons a l ih =>
    cases l with
    | nil => simp [rising]
    | cons b l =>
      rw [rising, Bool.and_eq_true, ih, Bool.and_eq_true, decide_eq_true_eq]
      constructor
      · intro h
        refine List.pairwise_cons.2 ⟨fun c hc => ?_, h.2⟩
        rcases List.mem_cons.1 hc with rfl | hc
        · exact h.1
        · exact KeyLt.trans h.1 ((List.pairwise_cons.1 h.2).1 c hc)
      · intro h
        obtain ⟨hfirst, hrest⟩ := List.pairwise_cons.1 h
        exact ⟨hfirst b List.mem_cons_self, hrest⟩

/-! ## The map -/

/-- The entries as the format has them. -/
def plain (l : List (String × MsgValue)) : List (String × Value) :=
  l.filterMap fun e => e.2.value.map fun v => (e.1, v)

theorem mem_plain {l : List (String × MsgValue)} {k : String} {v : Value} :
    (k, v) ∈ plain l ↔ ∃ m, (k, m) ∈ l ∧ m.value = some v := by
  unfold plain
  rw [List.mem_filterMap]
  constructor
  · rintro ⟨⟨k', m⟩, hm, h⟩
    obtain ⟨w, hw, heq⟩ := Option.map_eq_some_iff.1 h
    obtain ⟨rfl, rfl⟩ := Prod.mk.inj heq
    exact ⟨m, hm, hw⟩
  · rintro ⟨m, hm, h⟩
    exact ⟨(k, m), hm, by simp [h]⟩

theorem map_fst_plain {l : List (String × MsgValue)} (h : ∀ e ∈ l, e.2.value.isSome = true) :
    (plain l).map (·.1) = l.map (·.1) := by
  induction l with
  | nil => rfl
  | cons e l ih =>
    obtain ⟨v, hv⟩ := Option.isSome_iff_exists.1 (h e List.mem_cons_self)
    have hrest := ih fun d hd => h d (List.mem_cons_of_mem _ hd)
    unfold plain at hrest ⊢
    simp [hv, hrest]

theorem reads_encodeEntries {l : List (String × MsgValue)} {bs : Bytes} (h : encodeEntries l = .ok bs)
    (hl : ∀ e ∈ l, e.2.value.isSome = true) : Reads (count readEntry l.length) bs (plain l) := by
  induction l generalizing bs with
  | nil =>
    obtain rfl := Except.ok.inj h
    exact Reads.pure []
  | cons e l ih =>
    unfold encodeEntries at h
    cases hk : encodeStr e.1 with
    | error err => rw [hk] at h; cases h
    | ok k =>
      cases hv : encodeValue e.2 with
      | error err => rw [hk, hv] at h; cases h
      | ok v =>
        cases hmore : encodeEntries l with
        | error err => rw [hk, hv, hmore] at h; cases h
        | ok more =>
          rw [hk, hv, hmore] at h
          obtain rfl := Except.ok.inj h
          obtain ⟨w, hw⟩ := Option.isSome_iff_exists.1 (hl e List.mem_cons_self)
          have hrest := ih hmore fun d hd => hl d (List.mem_cons_of_mem _ hd)
          have hentry : Reads readEntry (k ++ v) (e.1, w) :=
            (reads_key hk).bind ((reads_encodeValue hv hw).bind_pure fun v => (e.1, v))
          have hplain : plain (e :: l) = (e.1, w) :: plain l := by
            simp [plain, hw]
          rw [hplain, ← List.append_assoc]
          exact hentry.bind (hrest.bind_pure ((e.1, w) :: ·))

theorem encodeEntries_ok {l : List (String × MsgValue)} : (encodeEntries l).isOk = true ↔
    ∀ e ∈ l, (textBytes e.1).length ≤ 0xff ∧ (e.2.value.isSome = true ∨ e.2.wraps = true) := by
  induction l with
  | nil => simp [encodeEntries, pure, Except.pure, Except.isOk, Except.toBool]
  | cons e l ih =>
    rw [List.forall_mem_cons, ← ih, ← encodeStr_ok, ← encodeValue_ok, encodeEntries]
    cases encodeStr e.1 with
    | error err => simp [bind, Except.bind, Except.isOk, Except.toBool]
    | ok k =>
      cases encodeValue e.2 with
      | error err => simp [bind, Except.bind, Except.isOk, Except.toBool]
      | ok v => cases encodeEntries l <;> simp [bind, Except.bind, pure, Except.pure, Except.isOk, Except.toBool]

/-- The field `k` holds `v`, which is something. -/
def Fields.Holds (fields : Fields) (k : String) (v : Value) : Prop :=
  ∃ m, (k, some m) ∈ fields.entries ∧ m.isZero = false ∧ m.value = some v

/-- What the encoder is for: at most fifteen fields, each with a key and a value of the format. -/
structure Fields.InFormat (fields : Fields) : Prop where
  count : fields.kept.length ≤ 15
  key (e : String × MsgValue) : e ∈ fields.kept → (textBytes e.1).length ≤ 0xff
  value (e : String × MsgValue) : e ∈ fields.kept → e.2.value.isSome = true

theorem mem_kept {fields : Fields} {k : String} {m : MsgValue} :
    (k, m) ∈ fields.kept ↔ (k, some m) ∈ fields.entries ∧ m.isZero = false := by
  unfold Fields.kept
  rw [List.mem_filterMap]
  constructor
  · rintro ⟨⟨k', x⟩, hx, h⟩
    obtain ⟨m', hm', heq⟩ := Option.map_eq_some_iff.1 h
    obtain ⟨rfl, rfl⟩ := Prod.mk.inj heq
    obtain ⟨rfl, hzero⟩ := Option.filter_eq_some_iff.1 hm'
    exact ⟨hx, by simpa using hzero⟩
  · intro h
    exact ⟨(k, some m), h.1, by simp [h.2]⟩

theorem nodup_kept (fields : Fields) : (fields.kept.map (·.1)).Nodup := by
  refine List.Nodup.sublist ?_ fields.nodup
  unfold Fields.kept
  induction fields.entries with
  | nil => exact List.Sublist.slnil
  | cons e l ih =>
    rw [List.filterMap_cons]
    split
    · exact ih.cons _
    · rename_i d hd
      obtain ⟨m, -, rfl⟩ := Option.map_eq_some_iff.1 hd
      exact ih.cons₂ _

theorem isZero_of_value {m : MsgValue} {v : Value} (h : m.value = some v) : v.isZero = m.isZero := by
  cases m with
  | bigint n =>
    obtain ⟨hrange, h⟩ := Option.ite_none_right_eq_some.1 h
    obtain rfl := Option.some.inj h
    have hiff : n.toNat = 0 ↔ n = 0 := by omega
    simp [Value.isZero, MsgValue.isZero, Bool.beq_eq_decide_eq, hiff]
  | number x =>
    cases x with
    | none => cases h
    | some n =>
      obtain ⟨hrange, h⟩ := Option.ite_none_right_eq_some.1 h
      obtain rfl := Option.some.inj h
      have hiff : n.toNat = 0 ↔ n = 0 := by omega
      simp [Value.isZero, MsgValue.isZero, Bool.beq_eq_decide_eq, hiff]
  | string s =>
    obtain ⟨-, h⟩ := Option.ite_none_right_eq_some.1 h
    obtain rfl := Option.some.inj h
    rfl
  | bytes b =>
    obtain ⟨-, h⟩ := Option.ite_none_right_eq_some.1 h
    obtain rfl := Option.some.inj h
    rfl

theorem keyLe_total (a b : String × MsgValue) : keyLe a b ∨ keyLe b a := bytesLe_total _ _

theorem keyLe_trans (a b c : String × MsgValue) : keyLe a b → keyLe b c → keyLe a c := bytesLe_trans _ _ _

/-- The fields that are encoded, as the format has them. -/
def Fields.plain (fields : Fields) : List (String × Value) := Algo.plain (Js.sort keyLe fields.kept)

theorem mem_fields_plain {fields : Fields} {k : String} {v : Value} :
    (k, v) ∈ fields.plain ↔ fields.Holds k v := by
  unfold Fields.plain Fields.Holds
  rw [mem_plain]
  constructor
  · rintro ⟨m, hm, hv⟩
    obtain ⟨hentry, hzero⟩ := mem_kept.1 (Js.mem_sort.1 hm)
    exact ⟨m, hentry, hzero, hv⟩
  · rintro ⟨m, hentry, hzero, hv⟩
    exact ⟨m, Js.mem_sort.2 (mem_kept.2 ⟨hentry, hzero⟩), hv⟩

theorem pairwise_plain {l : List (String × MsgValue)} (hsorted : l.Pairwise fun a b => keyLe a b = true)
    (hnodup : (l.map (·.1)).Nodup) : (plain l).Pairwise KeyLt := by
  have hlt : l.Pairwise fun a b => keyLe a b = true ∧ a.1 ≠ b.1 := hsorted.and (List.pairwise_map.1 hnodup)
  unfold plain
  rw [List.pairwise_filterMap]
  refine hlt.imp fun {a b} h x hx y hy => ?_
  obtain ⟨v, -, rfl⟩ := Option.map_eq_some_iff.1 hx
  obtain ⟨w, -, rfl⟩ := Option.map_eq_some_iff.1 hy
  exact ⟨h.1, fun heq => h.2 (textBytes_inj heq)⟩

theorem pairwise_fields_plain (fields : Fields) : fields.plain.Pairwise KeyLt := by
  apply pairwise_plain
  · exact Js.pairwise_sort keyLe_total keyLe_trans _
  · exact ((Js.perm_sort keyLe fields.kept).map _).nodup_iff.2 (nodup_kept fields)

theorem reads_encodeCanonicalMap {fields : Fields} {bs : Bytes} (h : encodeCanonicalMap fields = .ok bs)
    (hin : fields.InFormat) : Reads readMap bs fields.plain := by
  have hlen : (Js.sort keyLe fields.kept).length = fields.kept.length := (Js.perm_sort _ _).length_eq
  have hcount := hin.count
  unfold encodeCanonicalMap at h
  rw [if_neg (by omega)] at h
  cases hparts : encodeEntries (Js.sort keyLe fields.kept) with
  | error err => rw [hparts] at h; cases h
  | ok parts =>
    rw [hparts] at h
    obtain rfl := Except.ok.inj h
    have hor := or_of_lt (.inl rfl) (.inl (by omega : (Js.sort keyLe fields.kept).length < 16))
    have htag : (UInt8.ofNat (0x80 ||| (Js.sort keyLe fields.kept).length)).toNat =
        0x80 + (Js.sort keyLe fields.kept).length := by
      rw [hor, UInt8.toNat_ofNat']
      omega
    have hentries := reads_encodeEntries hparts fun e he => hin.value e (Js.mem_sort.1 he)
    have hrising : rising fields.plain = true := (rising_iff _).2 (pairwise_fields_plain fields)
    have hnonzero : (fields.plain.all fun e => !e.2.isZero) = true := by
      rw [List.all_eq_true]
      intro e he
      obtain ⟨m, -, hzero, hv⟩ := mem_fields_plain.1 he
      rw [isZero_of_value hv, hzero]
      rfl
    apply (Reads.byte _).bind
    rw [htag]
    refine Reads.bind_nil (Reads.ensure ?_) ?_
    · simp only [Bool.and_eq_true, decide_eq_true_eq]
      omega
    · rw [Nat.add_sub_cancel_left]
      refine hentries.bind_of ?_
      refine Reads.bind_nil (Reads.ensure ?_) (Reads.pure _)
      rw [Bool.and_eq_true]
      exact ⟨hrising, hnonzero⟩

theorem encodeCanonicalMap_ok {fields : Fields} : (encodeCanonicalMap fields).isOk = true ↔
    fields.kept.length ≤ 15 ∧
      ∀ e ∈ fields.kept, (textBytes e.1).length ≤ 0xff ∧ (e.2.value.isSome = true ∨ e.2.wraps = true) := by
  have hlen : (Js.sort keyLe fields.kept).length = fields.kept.length := (Js.perm_sort _ _).length_eq
  have hentries := @encodeEntries_ok (Js.sort keyLe fields.kept)
  simp only [Js.mem_sort] at hentries
  rw [← hentries]
  unfold encodeCanonicalMap
  by_cases hmany : fields.kept.length ≤ 15
  · rw [if_neg (by omega)]
    cases encodeEntries (Js.sort keyLe fields.kept) <;> simp [Except.map, Except.isOk, Except.toBool, hmany]
  · rw [if_pos (by omega)]
    simp [Except.isOk, Except.toBool, hmany]

/-! ## The bytes are of the fields -/

def Value.msg : Value → MsgValue
  | .uint n => .bigint n
  | .str s => .string s
  | .bin b => .bytes b

theorem encodeValue_msg {m : MsgValue} {v : Value} (h : m.value = some v) : encodeValue m = encodeValue v.msg := by
  cases m with
  | bigint n =>
    obtain ⟨hrange, h⟩ := Option.ite_none_right_eq_some.1 h
    obtain rfl := Option.some.inj h
    simp only [Value.msg, Int.toNat_of_nonneg hrange.1]
  | number x =>
    cases x with
    | none => cases h
    | some n =>
      obtain ⟨hrange, h⟩ := Option.ite_none_right_eq_some.1 h
      obtain rfl := Option.some.inj h
      simp only [Value.msg, Int.toNat_of_nonneg hrange.1]
      rfl
  | string s =>
    obtain ⟨-, h⟩ := Option.ite_none_right_eq_some.1 h
    obtain rfl := Option.some.inj h
    rfl
  | bytes b =>
    obtain ⟨-, h⟩ := Option.ite_none_right_eq_some.1 h
    obtain rfl := Option.some.inj h
    rfl

theorem encodeEntries_plain {l : List (String × MsgValue)} (hl : ∀ e ∈ l, e.2.value.isSome = true) :
    encodeEntries l = encodeEntries ((plain l).map fun e => (e.1, e.2.msg)) := by
  induction l with
  | nil => rfl
  | cons e l ih =>
    obtain ⟨v, hv⟩ := Option.isSome_iff_exists.1 (hl e List.mem_cons_self)
    have hplain : plain (e :: l) = (e.1, v) :: plain l := by simp [plain, hv]
    rw [hplain, List.map_cons, encodeEntries, encodeEntries, encodeValue_msg hv,
      ih fun d hd => hl d (List.mem_cons_of_mem _ hd)]

theorem encodeCanonicalMap_plain {fields : Fields} (h : fields.InFormat) : encodeCanonicalMap fields =
    (encodeEntries (fields.plain.map fun e => (e.1, e.2.msg))).map
      (UInt8.ofNat (0x80 ||| fields.plain.length) :: ·) := by
  have hvalue : ∀ e ∈ Js.sort keyLe fields.kept, e.2.value.isSome = true := fun e he =>
    h.value e (Js.mem_sort.1 he)
  have hlen : fields.plain.length = (Js.sort keyLe fields.kept).length := by
    have hmap := congrArg List.length (map_fst_plain hvalue)
    rwa [List.length_map, List.length_map] at hmap
  have hcount := h.count
  have hsort : (Js.sort keyLe fields.kept).length = fields.kept.length := (Js.perm_sort _ _).length_eq
  rw [encodeCanonicalMap, if_neg (by omega), encodeEntries_plain hvalue, hlen]
  rfl

/-! ## What is refused -/

/-- The map has a field that the encoder refuses, or too many. -/
def Fields.Refused (fields : Fields) : Prop :=
  15 < fields.kept.length ∨
    ∃ e ∈ fields.kept, 0xff < (textBytes e.1).length ∨ (e.2.value = none ∧ e.2.wraps = false)

/-- No integer is cut: none has more than 64 bits, or the map is refused for something else. -/
def Fields.NoWrap (fields : Fields) : Prop := (∀ e ∈ fields.kept, e.2.wraps = false) ∨ fields.Refused

theorem value_of_wraps {m : MsgValue} (h : m.wraps = true) : m.value = none := by
  cases m with
  | bigint n =>
    simp only [MsgValue.wraps, decide_eq_true_eq] at h
    rw [MsgValue.value, if_neg (by omega)]
  | number x =>
    cases x with
    | none => rfl
    | some n =>
      simp only [MsgValue.wraps, decide_eq_true_eq] at h
      rw [MsgValue.value, if_neg (by omega)]
  | string s => cases h
  | bytes b => cases h

/-- The format is met, and all of it is read back; or it is not met, and nothing is returned. -/
structure MapSound (fields : Fields) : Prop where
  reads : fields.InFormat → ∃ bs l, encodeCanonicalMap fields = .ok bs ∧ whole readMap bs = some l ∧
    l.Pairwise KeyLt ∧ ∀ k v, (k, v) ∈ l ↔ fields.Holds k v
  refuses : ¬ fields.InFormat → (encodeCanonicalMap fields).isOk = false

theorem encode_of_inFormat {fields : Fields} (h : fields.InFormat) : ∃ bs, encodeCanonicalMap fields = .ok bs :=
  Rust.exists_of_isOk (encodeCanonicalMap_ok.2 ⟨h.count, fun e he => ⟨h.key e he, .inl (h.value e he)⟩⟩)

theorem inFormat_of_ok {fields : Fields} (h : (encodeCanonicalMap fields).isOk = true) (hno : fields.NoWrap) :
    fields.InFormat := by
  obtain ⟨hcount, hall⟩ := encodeCanonicalMap_ok.1 h
  rcases hno with hno | hmany | ⟨e, he, hbad⟩
  · refine ⟨hcount, fun e he => (hall e he).1, fun e he => ?_⟩
    rcases (hall e he).2 with hsome | hwraps
    · exact hsome
    · rw [hno e he] at hwraps
      cases hwraps
  · omega
  · -- what is refused is not encoded
    obtain ⟨hkey, hvalue⟩ := hall e he
    rcases hbad with hlong | ⟨hnone, hno⟩
    · omega
    · rw [hnone, hno] at hvalue
      simp at hvalue

theorem mapSound_iff (fields : Fields) : MapSound fields ↔ fields.NoWrap := by
  constructor
  · intro h
    by_cases hok : (encodeCanonicalMap fields).isOk = true
    · left
      have hin : fields.InFormat := by
        by_contra hnot
        rw [h.refuses hnot] at hok
        cases hok
      intro e he
      have hvalue := hin.value e he
      by_contra hwraps
      rw [value_of_wraps (by simpa using hwraps)] at hvalue
      cases hvalue
    · right
      by_contra hrefused
      simp only [Fields.Refused, not_or, not_exists, not_and] at hrefused
      apply hok
      apply encodeCanonicalMap_ok.2
      refine ⟨by omega, fun e he => ?_⟩
      obtain ⟨hkey, hvalue⟩ := hrefused.2 e he
      refine ⟨by omega, ?_⟩
      cases hv : e.2.value with
      | none => exact .inr (by simpa using hvalue hv)
      | some v => exact .inl rfl
  · intro hno
    refine ⟨fun hin => ?_, fun hnot => ?_⟩
    · obtain ⟨bs, hbs⟩ := encode_of_inFormat hin
      exact ⟨bs, fields.plain, hbs, (reads_encodeCanonicalMap hbs hin).whole, pairwise_fields_plain fields,
        fun k v => mem_fields_plain⟩
    · by_contra hok
      exact hnot (inFormat_of_ok (by simpa using hok) hno)

/-- Equal bytes are of equal fields. -/
theorem same_bytes_iff {fields fields' : Fields} (h : fields.NoWrap) (h' : fields'.NoWrap) :
    (∃ bs, encodeCanonicalMap fields = .ok bs ∧ encodeCanonicalMap fields' = .ok bs) ↔
      fields.InFormat ∧ fields'.InFormat ∧ ∀ k v, fields.Holds k v ↔ fields'.Holds k v := by
  constructor
  · rintro ⟨bs, hbs, hbs'⟩
    have hin := inFormat_of_ok (by rw [hbs]; rfl) h
    have hin' := inFormat_of_ok (by rw [hbs']; rfl) h'
    have hplain := (reads_encodeCanonicalMap hbs hin).eq_of_eq (reads_encodeCanonicalMap hbs' hin')
    refine ⟨hin, hin', fun k v => ?_⟩
    rw [← mem_fields_plain, ← mem_fields_plain, hplain]
  · rintro ⟨hin, hin', hsame⟩
    obtain ⟨bs, hbs⟩ := encode_of_inFormat hin
    obtain ⟨bs', hbs'⟩ := encode_of_inFormat hin'
    have hplain : fields.plain = fields'.plain := by
      have hnodup : ∀ f : Fields, f.plain.Nodup := fun f => (pairwise_fields_plain f).imp fun hlt heq => by
        subst heq
        exact hlt.2 rfl
      have hperm : fields.plain.Perm fields'.plain := by
        rw [List.perm_ext_iff_of_nodup (hnodup _) (hnodup _)]
        rintro ⟨k, v⟩
        rw [mem_fields_plain, mem_fields_plain]
        exact hsame k v
      refine List.Perm.eq_of_pairwise (fun a b _ _ hab hba => ?_) (pairwise_fields_plain fields)
        (pairwise_fields_plain fields') hperm
      exact absurd hba hab.asymm
    refine ⟨bs, hbs, ?_⟩
    rw [encodeCanonicalMap_plain hin', ← hplain, ← encodeCanonicalMap_plain hin, hbs]

/-! ## Transactions -/

def readSigned : Reader (Bytes × List (String × Value)) := do
  let tag ← byte
  ensure (tag = 0x82)
  let kSig ← readStr
  ensure (kSig = "sig")
  let sig ← readBinAs (← byte).toNat
  let kTxn ← readStr
  ensure (kTxn = "txn")
  let txn ← readMap
  return (sig, txn)

/-- The signed transaction is read as the signature of the bytes of its second part, behind the tag "TX", and
the fields of these bytes. -/
theorem signed_reads {ed25519 : Bytes → Bytes → Bytes} {txn key bs : Bytes} {l : List (String × Value)}
    (htxn : Reads readMap txn l) (hsig : (ed25519 (textBytes "TX" ++ txn) key).length = 64)
    (h : signTransaction ed25519 txn key = .ok bs) :
    Reads readSigned bs (ed25519 (textBytes "TX" ++ txn) key, l) := by
  have hkSig : encodeStr "sig" = .ok [0xa3, 0x73, 0x69, 0x67] := by decide +kernel
  have hkTxn : encodeStr "txn" = .ok [0xa3, 0x74, 0x78, 0x6e] := by decide +kernel
  have hbin : encodeBin (ed25519 (textBytes "TX" ++ txn) key) =
      .ok (0xc4 :: be 1 64 ++ ed25519 (textBytes "TX" ++ txn) key) := by
    rw [encodeBin, if_pos (by omega), hsig]
  rw [signTransaction, hkSig, hkTxn, hbin] at h
  obtain rfl := Except.ok.inj h
  have hvalue : Reads (readBinAs 0xc4) (be 1 64 ++ ed25519 (textBytes "TX" ++ txn) key)
      (ed25519 (textBytes "TX" ++ txn) key) := by
    apply (reads_readNum _ _).bind (Reads.take hsig) <;> decide
  have hread : Reads readSigned ([0x82] ++ ([0xa3, 0x73, 0x69, 0x67] ++ ([0xc4] ++
      ((be 1 64 ++ ed25519 (textBytes "TX" ++ txn) key) ++ ([0xa3, 0x74, 0x78, 0x6e] ++ txn)))))
      (ed25519 (textBytes "TX" ++ txn) key, l) := by
    refine (Reads.byte 0x82).bind (Reads.bind_nil (Reads.ensure rfl) ?_)
    refine (reads_key hkSig).bind (Reads.bind_nil (Reads.ensure rfl) ?_)
    refine (Reads.byte 0xc4).bind (hvalue.bind ?_)
    refine (reads_key hkTxn).bind (Reads.bind_nil (Reads.ensure rfl) ?_)
    exact htxn.bind_pure _
  simpa only [List.cons_append, List.nil_append, List.append_assoc] using hread

/-! ## The law -/

/-- One microAlgo, and no note. -/
def oneMicro : Fields := ⟨[("note", none), ("amt", some (.bigint 1))], by decide⟩

/-- The same amount as a number, beside a fee of nothing. -/
def oneNumber : Fields := ⟨[("amt", some (.number (some 1))), ("fee", some (.bigint 0))], by decide⟩

/-- 2^64 + 1 microAlgos are encoded as one is. -/
def wrappedAmount : Fields := ⟨[("amt", some (.bigint (2 ^ 64 + 1)))], by decide⟩

end Algo
