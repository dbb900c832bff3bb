import PwndaWallet.Seed.Xelis
import PwndaWallet.Seed.Zano

/-!
# The word codecs give back what they took

The groups of the three codecs are the same three digits of a number below the cube of the list's length. What
each decoder accepts is then told apart by the indices of its words only.
-/

namespace Seed

open Js Wire Radix

/-! ## Bytes -/

theorem or_shiftLeft {a b i : Nat} (h : a < 2 ^ i) : a ||| b <<< i = a + b * 2 ^ i := by
  rw [Nat.or_comm, ← Nat.shiftLeft_add_eq_or_of_lt h, Nat.shiftLeft_eq, Nat.add_comm]

theorem or_bytes {a b c d : Nat} (ha : a < 256) (hb : b < 256) (hc : c < 256) :
    a ||| b <<< 8 ||| c <<< 16 ||| d <<< 24 = a + 256 * (b + 256 * (c + 256 * d)) := by
  rw [or_shiftLeft (i := 8) ha, or_shiftLeft (i := 16) (by omega), or_shiftLeft (i := 24) (by omega)]
  ring

theorem readUInt32LE_eq (b : Bytes) (o : Nat) :
    readUInt32LE b o = leValue [b.getD o 0, b.getD (o + 1) 0, b.getD (o + 2) 0, b.getD (o + 3) 0] := by
  simp only [readUInt32LE, Nat.add_zero, leValue, Nat.mul_zero]
  exact or_bytes (UInt8.toNat_lt _) (UInt8.toNat_lt _) (UInt8.toNat_lt _)

theorem writeUInt32LE_eq (v : Nat) : writeUInt32LE v = le 4 v := by
  have hbyte (n : Nat) : UInt8.ofNat (n &&& 0xff) = UInt8.ofNat n := by
    rw [show (0xff : Nat) = 2 ^ 8 - 1 from rfl, Nat.and_two_pow_sub_one_eq_mod]
    apply UInt8.toNat_inj.1
    simp
  simp only [writeUInt32LE, hbyte, le, Nat.shiftRight_eq_div_pow, Nat.div_div_eq_div_mul]

theorem length_writeUInt32LE (v : Nat) : (writeUInt32LE v).length = 4 := rfl

theorem list_of_length_four {α : Type} {l : List α} (h : l.length = 4) (d : α) :
    l = [l.getD 0 d, l.getD 1 d, l.getD 2 d, l.getD 3 d] := by
  match l, h with
  | [_, _, _, _], _ => rfl

theorem list_of_length_three {α : Type} {l : List α} (h : l.length = 3) (d : α) :
    l = [l.getD 0 d, l.getD 1 d, l.getD 2 d] := by
  match l, h with
  | [_, _, _], _ => rfl

theorem readUInt32LE_chunk {b : Bytes} {m i : Nat} (hb : b.length = 4 * m) (hi : i < m) :
    readUInt32LE b (i * 4) = leValue (chunk b 4 i) := by
  rw [list_of_length_four (length_chunk hb hi) 0, readUInt32LE_eq, getD_chunk 0 (by omega), getD_chunk 0 (by omega),
    getD_chunk 0 (by omega), getD_chunk 0 (by omega), Nat.mul_comm i 4]
  rfl

theorem readUInt32LE_lt {b : Bytes} {m i : Nat} (hb : b.length = 4 * m) (hi : i < m) : readUInt32LE b (i * 4) < 2 ^ 32 := by
  rw [readUInt32LE_chunk hb hi]
  have hlt := leValue_lt (chunk b 4 i)
  rwa [length_chunk hb hi] at hlt

theorem writeUInt32LE_read {b : Bytes} {m i : Nat} (hb : b.length = 4 * m) (hi : i < m) :
    writeUInt32LE (readUInt32LE b (i * 4)) = chunk b 4 i := by
  have hle := le_leValue (chunk b 4 i)
  rw [length_chunk hb hi] at hle
  rw [writeUInt32LE_eq, readUInt32LE_chunk hb hi, hle]

theorem flatMap_read {b : Bytes} (hb : b.length = 32) :
    (List.range 8).flatMap (fun i => writeUInt32LE (readUInt32LE b (i * 4))) = b := by
  refine Eq.trans ?_ (flatMap_chunk (n := 4) (m := 8) hb)
  exact flatMap_congr fun i hi => writeUInt32LE_read (m := 8) hb hi

theorem read_flatMap {v : Nat → Nat} {i : Nat} (hv : v i < 2 ^ 32) (hi : i < 8) :
    readUInt32LE ((List.range 8).flatMap fun i => writeUInt32LE (v i)) (i * 4) = v i := by
  have hlen := length_flatMap (fun i => length_writeUInt32LE (v i)) 8
  have hchunk := chunk_flatMap (fun i => length_writeUInt32LE (v i)) hi []
  rw [List.append_nil] at hchunk
  rw [readUInt32LE_chunk hlen hi, hchunk, writeUInt32LE_eq, leValue_le]
  exact Nat.mod_eq_of_lt hv

/-! ## Words -/

section Codec

variable {l : Wordlist} {index : List Char → Option Nat} {words : List (List Char)} {bytes : Bytes}

theorem indicesAt_ok {i a b c : Nat} : indicesAt index words i = .ok (a, b, c) ↔
    index (words.getD (i * 3) []) = some a ∧ index (words.getD (i * 3 + 1) []) = some b ∧
      index (words.getD (i * 3 + 2) []) = some c := by
  simp only [indicesAt, Nat.add_zero]
  cases index (words.getD (i * 3) []) with
  | none => simp
  | some a' =>
    cases index (words.getD (i * 3 + 1) []) with
    | none => simp
    | some b' => cases index (words.getD (i * 3 + 2) []) <;> simp

/-- The words' indices are the digits of the bytes. -/
def Decodes (n : Nat) (index : List Char → Option Nat) (words : List (List Char)) (bytes : Bytes) : Prop :=
  ∃ d : Nat → Nat × Nat × Nat, (∀ i < 8, indicesAt index words i = .ok (d i) ∧
      undigits n (d i).1 (d i).2.1 (d i).2.2 < 2 ^ 32) ∧
    bytes = (List.range 8).flatMap fun i => writeUInt32LE (undigits n (d i).1 (d i).2.1 (d i).2.2)

theorem mapM_ok_iff {α β ε : Type} {f : α → Except ε β} {l : List α} {r : List β} :
    l.mapM f = .ok r ↔ List.Forall₂ (fun a b => f a = .ok b) l r := by
  induction l generalizing r with
  | nil =>
    rw [List.mapM_nil, List.forall₂_nil_left_iff]
    exact ⟨fun h => (Except.ok.inj h).symm, fun h => by rw [h]; rfl⟩
  | cons a l ih =>
    rw [List.mapM_cons, List.forall₂_cons_left_iff]
    cases ha : f a with
    | error e =>
      constructor
      · intro h
        cases h
      · rintro ⟨b, u, hb, -⟩
        cases hb
    | ok b =>
      cases hl : l.mapM f with
      | error e =>
        constructor
        · intro h
          cases h
        · rintro ⟨b', u, -, hu, -⟩
          rw [← ih, hl] at hu
          cases hu
      | ok r' =>
        constructor
        · intro h
          cases h
          exact ⟨b, r', rfl, ih.1 hl, rfl⟩
        · rintro ⟨b', u, hb, hu, rfl⟩
          cases hb
          rw [← ih, hl] at hu
          cases hu
          rfl

theorem mapM_range_ok {group : Nat → Except String Nat} {m : Nat} {r : List Nat} :
    (List.range m).mapM group = .ok r ↔ ∃ v : Nat → Nat, (∀ i < m, group i = .ok (v i)) ∧ r = (List.range m).map v := by
  rw [mapM_ok_iff]
  constructor
  · intro h
    have hlen := h.length_eq
    rw [List.length_range] at hlen
    refine ⟨fun i => r.getD i 0, fun i hi => ?_, ?_⟩
    · have hget := List.forall₂_iff_get.1 h
      have hi' := hget.2 i (by simpa using hi) (by omega)
      simpa [List.getD_eq_getElem?_getD, List.getElem?_eq_getElem (hlen ▸ hi)] using hi'
    · apply List.ext_getElem (by simpa using hlen.symm)
      intro i hi hi'
      simp [List.getD_eq_getElem?_getD, List.getElem?_eq_getElem hi]
  · rintro ⟨v, hv, rfl⟩
    rw [List.forall₂_map_right_iff]
    exact List.forall₂_same.2 fun i hi => hv i (List.mem_range.1 hi)

theorem groupBytes_ok {group : Nat → Except String Nat} : groupBytes group = .ok bytes ↔
    ∃ v : Nat → Nat, (∀ i < 8, group i = .ok (v i)) ∧ bytes = (List.range 8).flatMap fun i => writeUInt32LE (v i) := by
  rw [groupBytes]
  constructor
  · intro h
    cases hr : (List.range 8).mapM group with
    | error e => simp [hr, Except.map] at h
    | ok r =>
      rw [hr, Except.map, Except.ok.injEq] at h
      obtain ⟨v, hv, rfl⟩ := mapM_range_ok.1 hr
      exact ⟨v, hv, by rw [← h, List.flatMap_map]⟩
  · rintro ⟨v, hv, rfl⟩
    rw [mapM_range_ok.2 ⟨v, hv, rfl⟩, Except.map, List.flatMap_map]

/-- A codec whose groups are decoded so. -/
theorem groupBytes_iff {n : Nat} {group : Nat → Except String Nat} (h : ∀ i v, group i = .ok v ↔
      ∃ d, indicesAt index words i = .ok d ∧ undigits n d.1 d.2.1 d.2.2 = v ∧ v < 2 ^ 32) :
    groupBytes group = .ok bytes ↔ Decodes n index words bytes := by
  rw [groupBytes_ok]
  constructor
  · rintro ⟨v, hv, rfl⟩
    have hgroup : ∀ i < 8, ∃ d, indicesAt index words i = .ok d ∧ undigits n d.1 d.2.1 d.2.2 = v i ∧ v i < 2 ^ 32 :=
      fun i hi => (h i (v i)).1 (hv i hi)
    choose! d hd using hgroup
    refine ⟨d, fun i hi => ?_, flatMap_congr fun i hi => by rw [(hd i hi).2.1]⟩
    obtain ⟨hind, hval, hlt⟩ := hd i hi
    exact ⟨hind, by rwa [hval]⟩
  · rintro ⟨d, hd, rfl⟩
    exact ⟨_, fun i hi => (h i _).2 ⟨d i, (hd i hi).1, rfl, (hd i hi).2⟩, rfl⟩

theorem length_dataWords (b : Bytes) : (dataWords l b).length = 24 :=
  length_flatMap (f := groupWords l b) (n := 3) (fun _ => rfl) 8

theorem groupWords_getD {b : Bytes} {i j : Nat} (hi : i < 8) (hj : j < 3) (rest : List (List Char)) :
    (dataWords l b ++ rest).getD (i * 3 + j) [] = (groupWords l b i).getD j [] := by
  have hchunk : chunk (dataWords l b ++ rest) 3 i = groupWords l b i :=
    chunk_flatMap (f := groupWords l b) (fun _ => rfl) hi rest
  rw [← hchunk, getD_chunk [] hj, Nat.mul_comm]

theorem decodes_dataWords (hcube : 2 ^ 32 ≤ l.words.length * l.words.length * l.words.length)
    (hindex : ∀ i < l.words.length, index (l.word i) = some i) (hb : bytes.length = 32) (rest : List (List Char)) :
    Decodes l.words.length index (dataWords l bytes ++ rest) bytes := by
  have hpos : 0 < l.words.length := by
    apply Nat.pos_of_ne_zero
    intro hzero
    simp [hzero] at hcube
  refine ⟨fun i => digits l.words.length (readUInt32LE bytes (i * 4)), fun i hi => ?_, ?_⟩
  · have hlt := readUInt32LE_lt (m := 8) hb hi
    obtain ⟨ha, hb', hc⟩ := digits_lt hpos (readUInt32LE bytes (i * 4))
    refine ⟨indicesAt_ok.2 ⟨?_, ?_, ?_⟩, ?_⟩
    · rw [← Nat.add_zero (i * 3), groupWords_getD hi (by omega)]
      exact hindex _ ha
    · rw [groupWords_getD hi (by omega)]
      exact hindex _ hb'
    · rw [groupWords_getD hi (by omega)]
      exact hindex _ hc
    · rw [undigits_digits (Nat.lt_of_lt_of_le hlt hcube)]
      exact hlt
  · refine (flatMap_read hb).symm.trans (flatMap_congr fun i hi => ?_)
    rw [undigits_digits (Nat.lt_of_lt_of_le (readUInt32LE_lt (m := 8) hb hi) hcube)]

/-- What is accepted is encoded to words with the same indices. -/
theorem Decodes.dataWords (hindex : ∀ w i, index w = some i → i < l.words.length)
    (hword : ∀ i < l.words.length, index (l.word i) = some i) (hlen : words.length = 24)
    (h : Decodes l.words.length index words bytes) :
    bytes.length = 32 ∧ (Seed.dataWords l bytes).map index = words.map index := by
  obtain ⟨d, hd, rfl⟩ := h
  refine ⟨length_flatMap (fun i => length_writeUInt32LE _) 8, ?_⟩
  have hchunks := flatMap_chunk (n := 3) (m := 8) hlen
  rw [← hchunks, Seed.dataWords, List.map_flatMap, List.map_flatMap]
  refine flatMap_congr fun i hi => ?_
  obtain ⟨hind, hlt⟩ := hd i hi
  obtain ⟨ha, hb, hc⟩ := indicesAt_ok.1 hind
  have hdigits := digits_undigits (hindex _ _ ha) (hindex _ _ hb) (hindex _ _ hc)
  have hread := read_flatMap (v := fun i => undigits l.words.length (d i).1 (d i).2.1 (d i).2.2) hlt hi
  rw [groupWords, hread, hdigits, list_of_length_three (length_chunk (n := 3) (m := 8) hlen hi) [],
    getD_chunk [] (by omega), getD_chunk [] (by omega), getD_chunk [] (by omega), Nat.mul_comm 3 i, Nat.add_zero]
  simp only [List.map_cons, List.map_nil, hword _ (hindex _ _ ha), hword _ (hindex _ _ hb), hword _ (hindex _ _ hc), ha, hb,
    hc]

/-- Only the indices count. -/
theorem Decodes.congr {n : Nat} {words' : List (List Char)} (hmap : words.map index = words'.map index)
    (hnil : index [] = none) (h : Decodes n index words bytes) : Decodes n index words' bytes := by
  have hget (j : Nat) : index (words.getD j []) = index (words'.getD j []) := by
    have hj := congrArg (fun l : List (Option Nat) => l.getD j none) hmap
    simp only [List.getD_eq_getElem?_getD, List.getElem?_map] at hj ⊢
    cases hw : words[j]? <;> cases hw' : words'[j]? <;> simp_all
  obtain ⟨d, hd, rfl⟩ := h
  refine ⟨d, fun i hi => ⟨?_, (hd i hi).2⟩, rfl⟩
  have hind := indicesAt_ok.1 (hd i hi).1
  rw [hget, hget, hget] at hind
  exact indicesAt_ok.2 hind

end Codec

/-! ## Monero -/

theorem moneroWords_cube : 2 ^ 32 ≤ moneroWords.words.length * moneroWords.words.length * moneroWords.words.length := by
  rw [moneroWords_length]
  decide

theorem word_ne_nil {l : Wordlist} {i : Nat} (h : i < l.words.length) : l.word i ≠ [] :=
  lowerWord_ne_nil (Wordlist.lowerWord_word h)

theorem byWord_lt {l : Wordlist} (w : List Char) (i : Nat) (h : l.byWord w = some i) : i < l.words.length :=
  (Wordlist.byWord_eq_some.1 h).1

theorem bySpelling_lt {l : Wordlist} (w : List Char) (i : Nat) (h : l.bySpelling w = some i) : i < l.words.length :=
  (Wordlist.bySpelling_eq_some.1 h).1

theorem byWord_nil {l : Wordlist} : l.byWord [] = none := by
  cases h : l.byWord [] with
  | none => rfl
  | some i =>
    obtain ⟨hi, hnil⟩ := Wordlist.byWord_eq_some.1 h
    exact absurd hnil.symm (word_ne_nil hi)

theorem moneroWords_prefixLen : moneroWords.prefixLen = 3 := by
  unfold moneroWords
  rfl

theorem monero_bySpelling_nil : moneroWords.bySpelling [] = none := by
  cases h : moneroWords.bySpelling [] with
  | none => rfl
  | some i =>
    obtain ⟨hi, hnil | hnil⟩ := Wordlist.bySpelling_eq_some.1 h
    · exact absurd hnil.symm (word_ne_nil hi)
    · have hlen := congrArg List.length hnil
      rw [Wordlist.short, moneroWords_prefixLen, List.length_take] at hlen
      have hpos := List.length_pos_of_ne_nil (word_ne_nil hi)
      rw [List.length_nil] at hlen
      omega

theorem lowerWord_dataWords {l : Wordlist} (hpos : 0 < l.words.length) {b : Bytes} {w : List Char} (hw : w ∈ dataWords l b) :
    lowerWord w = true := by
  obtain ⟨i, -, hw⟩ := List.mem_flatMap.1 hw
  obtain ⟨ha, hb, hc⟩ := digits_lt hpos (readUInt32LE b (i * 4))
  simp only [groupWords, List.mem_cons, List.not_mem_nil, or_false] at hw
  rcases hw with rfl | rfl | rfl
  · exact Wordlist.lowerWord_word ha
  · exact Wordlist.lowerWord_word hb
  · exact Wordlist.lowerWord_word hc

namespace Xmr

variable {words words' : List (List Char)} {bytes : Bytes}

theorem wordGroup_ok {i v : Nat} : wordGroup words i = .ok v ↔ ∃ d, indicesAt moneroWords.bySpelling words i = .ok d ∧
    undigits moneroWords.words.length d.1 d.2.1 d.2.2 = v ∧ v < 2 ^ 32 := by
  rw [wordGroup]
  cases hind : indicesAt moneroWords.bySpelling words i with
  | error bad => simp
  | ok d =>
    obtain ⟨a, b, c⟩ := d
    obtain ⟨ha, hb, hc⟩ := indicesAt_ok.1 hind
    have hdigits := digits_undigits (bySpelling_lt _ _ ha) (bySpelling_lt _ _ hb) (bySpelling_lt _ _ hc)
    have hmod : undigits moneroWords.words.length a b c % moneroWords.words.length = a := congrArg Prod.fst hdigits
    simp only [hmod, ne_eq, not_true_eq_false, if_false, Except.ok.injEq, exists_eq_left']
    by_cases hlarge : undigits moneroWords.words.length a b c > 0xffffffff
    · rw [if_pos hlarge]
      refine ⟨fun h => (nomatch h), ?_⟩
      rintro ⟨rfl, hlt⟩
      omega
    · rw [if_neg hlarge, Except.ok.injEq]
      refine ⟨fun h => ⟨h, ?_⟩, And.left⟩
      omega

theorem wordsToBytes_ok : wordsToBytes words = .ok bytes ↔ (words.length = 24 ∨ words.length = 25) ∧
    Decodes moneroWords.words.length moneroWords.bySpelling words bytes := by
  rw [wordsToBytes]
  by_cases hlen : words.length = 24 ∨ words.length = 25
  · rw [if_neg (by omega), groupBytes_iff fun i v => wordGroup_ok, and_iff_right hlen]
  · rw [if_pos (by omega)]
    exact ⟨fun h => (nomatch h), fun h => absurd h.1 hlen⟩

/-- Two spellings of one word, or the same text. -/
def SameWord (w w' : List Char) : Prop := w' = w ∨ ∃ i, moneroWords.bySpelling w = some i ∧ moneroWords.bySpelling w' = some i

theorem SameWord.index {w w' : List Char} (h : SameWord w w') : moneroWords.bySpelling w = moneroWords.bySpelling w' := by
  rcases h with rfl | ⟨i, hi, hi'⟩
  · rfl
  · rw [hi, hi']

theorem SameWord.short {w w' : List Char} (h : SameWord w w') :
    w.take MONERO_ENGLISH_PREFIX_LEN = w'.take MONERO_ENGLISH_PREFIX_LEN := by
  have hlen : MONERO_ENGLISH_PREFIX_LEN = moneroWords.prefixLen := moneroWords_prefixLen.symm
  have hshort {w : List Char} {i : Nat} (hi : moneroWords.bySpelling w = some i) :
      moneroWords.short w = moneroWords.short (moneroWords.word i) := by
    rcases (Wordlist.bySpelling_eq_some.1 hi).2 with rfl | rfl <;> simp
  rcases h with rfl | ⟨i, hi, hi'⟩
  · rfl
  · rw [hlen]
    exact (hshort hi).trans (hshort hi').symm

theorem SameWord.symm {w w' : List Char} (h : SameWord w w') : SameWord w' w := by
  rcases h with rfl | ⟨i, hi, hi'⟩
  · exact .inl rfl
  · exact .inr ⟨i, hi', hi⟩

/-- Some of the words are written by their prefixes, or in full. -/
def Respelled (words words' : List (List Char)) : Prop := List.Forall₂ SameWord words words'

theorem Respelled.symm (h : Respelled words words') : Respelled words' words := by
  have hflip := h.flip
  exact hflip.imp fun _ _ => SameWord.symm

theorem Respelled.index (h : Respelled words words') :
    words.map moneroWords.bySpelling = words'.map moneroWords.bySpelling := by
  induction h with
  | nil => rfl
  | cons hw _ ih => rw [List.map_cons, List.map_cons, hw.index, ih]

theorem Respelled.checksumIndex (h : Respelled words words') : checksumIndex words = checksumIndex words' := by
  have hmap : ∀ {words words' : List (List Char)}, Respelled words words' →
      words.map (fun w => w.take MONERO_ENGLISH_PREFIX_LEN) = words'.map fun w => w.take MONERO_ENGLISH_PREFIX_LEN := by
    intro words words' h
    induction h with
    | nil => rfl
    | cons hw _ ih => rw [List.map_cons, List.map_cons, hw.short, ih]
  rw [Xmr.checksumIndex, Xmr.checksumIndex, List.flatMap_def, List.flatMap_def, List.map_take, List.map_take, hmap h]

/-- The checksum word is spelled as the word it repeats is, if it does repeat it. -/
def Alike (words : List (List Char)) : Prop :=
  moneroWords.bySpelling (words.getD 24 []) = moneroWords.bySpelling (checksumWord words) →
    words.getD 24 [] = checksumWord words

/-! ### What is accepted -/

variable {k : Casing} {seed : List Char}

theorem unknown_eq_none : unknown words = none ↔ ∀ w ∈ words, (moneroWords.bySpelling w).isSome = true := by
  rw [unknown, List.find?_eq_none]
  constructor
  · intro h w hw
    obtain ⟨i, hi, hwi⟩ := List.mem_iff_getElem.1 hw
    have hmem : (w, i) ∈ words.zipIdx := List.mk_mem_zipIdx_iff_getElem?.2 (by rw [List.getElem?_eq_getElem hi, hwi])
    have hnot := h _ hmem
    cases hs : moneroWords.bySpelling w <;> simp_all
  · intro h e he
    have hsome := h e.1 (List.mem_of_getElem? (List.mem_zipIdx_iff_getElem?.1 he))
    cases hs : moneroWords.bySpelling e.1 <;> simp_all

theorem validateXmrSeed_ok : validateXmrSeed k seed = .ok () ↔ (wordsOf k seed).length = 25 ∧
    (∀ w ∈ wordsOf k seed, (moneroWords.bySpelling w).isSome = true) ∧
    checksumWord (wordsOf k seed) = (wordsOf k seed).getD 24 [] ∧
    ∃ bytes, wordsToBytes ((wordsOf k seed).take 24) = .ok bytes := by
  rw [validateXmrSeed]
  generalize wordsOf k seed = words
  by_cases hlen : words.length = 25
  · rw [if_neg (not_not.2 hlen), ← unknown_eq_none, and_iff_right hlen]
    cases hunknown : unknown words with
    | some e => simp
    | none =>
      simp only [true_and]
      by_cases hsum : checksumWord words = words.getD 24 []
      · rw [if_neg (not_not.2 hsum), and_iff_right hsum]
        cases wordsToBytes (words.take 24) <;> simp [Except.map]
      · rw [if_pos hsum]
        exact ⟨fun h => (nomatch h), fun h => absurd h.1 hsum⟩
  · rw [if_pos hlen]
    exact ⟨fun h => (nomatch h), fun h => absurd h.1 hlen⟩

theorem wordsOf_joinWords {words : List (List Char)} (h : ∀ w ∈ words, lowerWord w = true) (hne : words ≠ []) :
    wordsOf k (joinWords words) = words := by
  have hsplit := splitWords_joinWords h hne
  have hjoin : joinWords words ≠ [] := by
    intro hnil
    rw [hnil] at hsplit
    have hword := h [] (by rw [← hsplit]; exact List.mem_cons_self)
    exact lowerWord_ne_nil hword rfl
  rw [wordsOf, normalizeXmrSeed, trim_joinWords h, collapse_joinWords h, toLowerCase_joinWords h, if_neg hjoin, hsplit]

/-- Another spelling is accepted where it keeps the checksum word like the word it repeats. -/
theorem validate_respelled {seed' : List Char} (h : Respelled (wordsOf k seed) (wordsOf k seed'))
    (halike : Alike (wordsOf k seed')) (hok : validateXmrSeed k seed = .ok ()) : validateXmrSeed k seed' = .ok () ∧
      wordsToBytes ((wordsOf k seed).take 24) = wordsToBytes ((wordsOf k seed').take 24) := by
  rw [validateXmrSeed_ok] at hok ⊢
  obtain ⟨hlen, hknown, hsum, bytes, hbytes⟩ := hok
  generalize wordsOf k seed = words at *
  generalize wordsOf k seed' = words' at *
  have hlen' : words'.length = 25 := h.length_eq ▸ hlen
  have hindex := h.index
  have hget (j : Nat) : moneroWords.bySpelling (words.getD j []) = moneroWords.bySpelling (words'.getD j []) := by
    have hj := congrArg (fun l : List (Option Nat) => l.getD j none) hindex
    simp only [List.getD_eq_getElem?_getD, List.getElem?_map] at hj ⊢
    have hl := h.length_eq
    by_cases hlt : j < words.length
    · rw [List.getElem?_eq_getElem hlt, List.getElem?_eq_getElem (hl ▸ hlt)] at hj ⊢
      exact hj
    · rw [List.getElem?_eq_none (by omega), List.getElem?_eq_none (by omega)]
  have htake : (words.take 24).map moneroWords.bySpelling = (words'.take 24).map moneroWords.bySpelling := by
    rw [List.map_take, List.map_take, hindex]
  have hbytes' : wordsToBytes (words'.take 24) = .ok bytes := by
    rw [wordsToBytes_ok] at hbytes ⊢
    exact ⟨.inl (by rw [List.length_take]; omega), hbytes.2.congr htake monero_bySpelling_nil⟩
  refine ⟨⟨hlen', fun w hw => ?_, ?_, bytes, hbytes'⟩, by rw [hbytes, hbytes']⟩
  · have hmem : moneroWords.bySpelling w ∈ words.map moneroWords.bySpelling := hindex ▸ List.mem_map_of_mem hw
    obtain ⟨v, hv, heq⟩ := List.mem_map.1 hmem
    rw [← heq]
    exact hknown v hv
  · refine (halike ?_).symm
    rw [← hget, ← hsum, checksumWord, checksumWord, hget, h.checksumIndex]

theorem xmrAddressFromSeed_ok {addressOf : Bytes → Except String String} (h : validateXmrSeed k seed = .ok ()) :
    xmrAddressFromSeed k addressOf seed = (wordsToBytes ((wordsOf k seed).take 24)).bind addressOf := by
  obtain ⟨hlen, -, hsum, -⟩ := validateXmrSeed_ok.1 h
  have hsplit : splitWords (normalizeXmrSeed k seed) = wordsOf k seed := by
    rw [wordsOf]
    by_cases hnil : normalizeXmrSeed k seed = []
    · rw [wordsOf, if_pos hnil] at hlen
      cases hlen
    · rw [if_neg hnil]
  rw [xmrAddressFromSeed, hsplit, if_neg (not_not.2 hlen), if_neg (not_not.2 hsum)]

/-! ### Round trips -/

/-- The words of 32 bytes, with the checksum word. -/
def phraseWords (bytes : Bytes) : List (List Char) :=
  dataWords moneroWords bytes ++ [checksumWord (dataWords moneroWords bytes)]

theorem bytesToWords_eq (hb : bytes.length = 32) : bytesToWords bytes = .ok (joinWords (phraseWords bytes)) := by
  rw [bytesToWords, if_neg (not_not.2 hb)]
  rfl

theorem checksumWord_mem : checksumWord (dataWords moneroWords bytes) ∈ dataWords moneroWords bytes := by
  have hlt : checksumIndex (dataWords moneroWords bytes) < (dataWords moneroWords bytes).length := by
    rw [length_dataWords]
    exact Nat.mod_lt _ (by decide)
  rw [checksumWord, List.getD_eq_getElem _ _ hlt]
  exact List.getElem_mem hlt

theorem lowerWord_phraseWords {w : List Char} (hw : w ∈ phraseWords bytes) : lowerWord w = true := by
  have hpos : 0 < moneroWords.words.length := by rw [moneroWords_length]; decide
  rcases List.mem_append.1 hw with hw | hw
  · exact lowerWord_dataWords hpos hw
  · rw [List.mem_singleton.1 hw]
    exact lowerWord_dataWords hpos checksumWord_mem

theorem length_phraseWords : (phraseWords bytes).length = 25 := by
  rw [phraseWords, List.length_append, length_dataWords]
  rfl

theorem take_phraseWords : (phraseWords bytes).take 24 = dataWords moneroWords bytes := by
  rw [phraseWords, List.take_append_of_le_length (by rw [length_dataWords]), List.take_of_length_le (by rw [length_dataWords])]

theorem getD_24_phraseWords : (phraseWords bytes).getD 24 [] = checksumWord (dataWords moneroWords bytes) := by
  rw [phraseWords, List.getD_append_right _ _ _ _ (by rw [length_dataWords]), length_dataWords]
  rfl

theorem checksumWord_phraseWords : checksumWord (phraseWords bytes) = checksumWord (dataWords moneroWords bytes) := by
  have hindex : checksumIndex (phraseWords bytes) = checksumIndex (dataWords moneroWords bytes) := by
    rw [checksumIndex, checksumIndex, take_phraseWords, List.take_of_length_le (by rw [length_dataWords])]
  have hlt : checksumIndex (dataWords moneroWords bytes) < (dataWords moneroWords bytes).length := by
    rw [length_dataWords]
    exact Nat.mod_lt _ (by decide)
  rw [checksumWord, hindex, phraseWords, List.getD_append _ _ _ _ hlt]
  rfl

theorem decodes_phraseWords (hb : bytes.length = 32) (rest : List (List Char)) :
    Decodes moneroWords.words.length moneroWords.bySpelling (dataWords moneroWords bytes ++ rest) bytes :=
  decodes_dataWords moneroWords_cube (fun _ => Wordlist.bySpelling_word) hb rest

theorem wordsToBytes_dataWords (hb : bytes.length = 32) : wordsToBytes (dataWords moneroWords bytes) = .ok bytes := by
  have hdecodes := decodes_phraseWords hb []
  rw [List.append_nil] at hdecodes
  exact wordsToBytes_ok.2 ⟨.inl (length_dataWords _), hdecodes⟩

theorem wordsToBytes_phraseWords (hb : bytes.length = 32) : wordsToBytes (phraseWords bytes) = .ok bytes :=
  wordsToBytes_ok.2 ⟨.inr length_phraseWords, decodes_phraseWords hb _⟩

theorem validate_phrase (hb : bytes.length = 32) : validateXmrSeed k (joinWords (phraseWords bytes)) = .ok () := by
  have hwords : wordsOf k (joinWords (phraseWords bytes)) = phraseWords bytes := by
    refine wordsOf_joinWords (fun w hw => lowerWord_phraseWords hw) fun hnil => ?_
    have hlen := @length_phraseWords bytes
    rw [hnil] at hlen
    cases hlen
  have hpos : 0 < moneroWords.words.length := by rw [moneroWords_length]; decide
  rw [validateXmrSeed_ok, hwords, take_phraseWords, getD_24_phraseWords, checksumWord_phraseWords]
  refine ⟨length_phraseWords, fun w hw => ?_, rfl, bytes, wordsToBytes_dataWords hb⟩
  have hdata : w ∈ dataWords moneroWords bytes := by
    rcases List.mem_append.1 hw with hw | hw
    · exact hw
    · rw [List.mem_singleton.1 hw]
      exact checksumWord_mem
  obtain ⟨i, -, hw⟩ := List.mem_flatMap.1 hdata
  obtain ⟨ha, hb, hc⟩ := digits_lt hpos (readUInt32LE bytes (i * 4))
  simp only [groupWords, List.mem_cons, List.not_mem_nil, or_false] at hw
  rcases hw with rfl | rfl | rfl
  · rw [Wordlist.bySpelling_word ha]
    rfl
  · rw [Wordlist.bySpelling_word hb]
    rfl
  · rw [Wordlist.bySpelling_word hc]
    rfl

/-- An accepted list is encoded to the same words, written out. -/
theorem dataWords_of_ok (hlen : words.length = 24) (h : wordsToBytes words = .ok bytes) :
    bytes.length = 32 ∧ (dataWords moneroWords bytes).map moneroWords.bySpelling = words.map moneroWords.bySpelling :=
  (wordsToBytes_ok.1 h).2.dataWords bySpelling_lt (fun _ => Wordlist.bySpelling_word) hlen

end Xmr

end Seed
