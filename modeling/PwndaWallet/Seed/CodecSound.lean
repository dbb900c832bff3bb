import PwndaWallet.Seed.ZanoSound

/-!
# The three codecs

What Monero, Zano and Xelis phrases promise of keys and of each other's spellings.
-/

namespace Seed

open Js Wire Radix

/-! ## Xelis -/

namespace Xelis

theorem splitOnP_congr {p q : Char → Bool} {s : List Char} (h : ∀ c ∈ s, p c = q c) : s.splitOnP p = s.splitOnP q := by
  induction s with
  | nil => simp
  | cons c s ih =>
    rw [List.splitOnP_cons_eq_if_modifyHead, List.splitOnP_cons_eq_if_modifyHead, h c List.mem_cons_self, ih fun d hd => h d (List.mem_cons_of_mem _ hd)]

theorem words_joinWords {ws : List (List Char)} (h : ∀ w ∈ ws, lowerWord w = true) (hne : ws ≠ []) :
    words (joinWords ws) = ws := by
  have hspace : (joinWords ws).splitOnP isSpace = splitWords (joinWords ws) := by
    rw [splitWords, List.splitOn]
    refine splitOnP_congr fun c hc => ?_
    rcases joinWords_chars h hc with rfl | hletter
    · decide
    · have hne : c ≠ ' ' := by
        rintro rfl
        exact absurd hletter.1 (by decide)
      rw [not_isSpace_of_letter hletter]
      simp [hne]
  rw [words, hspace, splitWords_joinWords h hne]
  exact List.filter_eq_self.2 fun w hw => by simpa using lowerWord_ne_nil (h w hw)

variable {k : Casing} {key : Bytes}

theorem wordsOf_joinWords {ws : List (List Char)} (h : ∀ w ∈ ws, lowerWord w = true) (hne : ws ≠ []) :
    wordsOf k (joinWords ws) = ws := by
  rw [wordsOf, normalizeXelisSeed, trim_joinWords h, toLowerCase_joinWords h, words_joinWords h hne,
    splitWords_joinWords h hne]
  exact List.filter_eq_self.2 fun w hw => by simpa using lowerWord_ne_nil (h w hw)

theorem moneroWords_pos : 0 < moneroWords.words.length := by
  rw [moneroWords_length]
  decide

/-- The indices of the words of four bytes. -/
def groupIndices (key : Bytes) (i : Nat) : List Nat :=
  let d := Radix.digits moneroWords.words.length (readUInt32LE key (i * 4))
  [d.1, d.2.1, d.2.2]

theorem indices_dataWords (key : Bytes) :
    (dataWords moneroWords key).filterMap moneroWords.byWord = (List.range 8).flatMap (groupIndices key) := by
  rw [dataWords, List.filterMap_flatMap]
  refine flatMap_congr fun i hi => ?_
  obtain ⟨ha, hb, hc⟩ := digits_lt moneroWords_pos (readUInt32LE key (i * 4))
  simp only [groupWords, groupIndices, List.filterMap_cons, List.filterMap_nil, Wordlist.byWord_word ha,
    Wordlist.byWord_word hb, Wordlist.byWord_word hc]

/-- The words of a key decode to it. -/
theorem indicesToKeyBytes_dataWords (hkey : key.length = 32) (rest : List (List Char)) :
    indicesToKeyBytes ((dataWords moneroWords key ++ rest).filterMap moneroWords.byWord) = key := by
  rw [List.filterMap_append, indices_dataWords, indicesToKeyBytes]
  refine Eq.trans (flatMap_congr fun i hi => ?_) (flatMap_read hkey)
  have hget {j : Nat} (hj : j < 3) : ((List.range 8).flatMap (groupIndices key) ++ rest.filterMap moneroWords.byWord).getD
      (3 * i + j) 0 = (groupIndices key i).getD j 0 := by
    rw [← chunk_flatMap (f := groupIndices key) (n := 3) (fun _ => rfl) hi (rest.filterMap moneroWords.byWord),
      getD_chunk 0 hj]
  have hlt := readUInt32LE_lt (m := 8) hkey hi
  have h0 := hget (j := 0) (by omega)
  rw [Nat.add_zero] at h0
  rw [h0, hget (by omega), hget (by omega), tripleToU32]
  simp only [groupIndices, List.getD_cons_zero, List.getD_cons_succ]
  rw [undigits_digits (Nat.lt_of_lt_of_le hlt moneroWords_cube), Nat.mod_eq_of_lt hlt]

theorem checksum_mem : (dataWords moneroWords key).getD (checksumIndex (dataWords moneroWords key)) [] ∈
    dataWords moneroWords key := by
  have hlt : checksumIndex (dataWords moneroWords key) < (dataWords moneroWords key).length := by
    rw [length_dataWords]
    exact Nat.mod_lt _ (by decide)
  rw [List.getD_eq_getElem _ _ hlt]
  exact List.getElem_mem hlt

theorem mem_keyBytesToWords {w : List Char} (hw : w ∈ keyBytesToWords key) : w ∈ dataWords moneroWords key := by
  rcases List.mem_append.1 hw with hw | hw
  · exact hw
  · rw [List.mem_singleton.1 hw]
    exact checksum_mem

theorem length_keyBytesToWords : (keyBytesToWords key).length = 25 := by
  rw [keyBytesToWords, List.length_append, length_dataWords]
  rfl

/-- A phrase that was encoded is judged by its key. -/
theorem verify_keyBytesToWords (hkey : key.length = 32) :
    verifyXelisSeedIntegrity k (joinWords (keyBytesToWords key)) =
      if leValue key = 0 ∨ leValue key ≥ L then .key else .ok := by
  have hlen := @length_keyBytesToWords key
  have hwords : wordsOf k (joinWords (keyBytesToWords key)) = keyBytesToWords key := by
    refine wordsOf_joinWords (fun w hw => lowerWord_dataWords moneroWords_pos (mem_keyBytesToWords hw)) fun hnil => ?_
    rw [hnil] at hlen
    cases hlen
  have hknown : (keyBytesToWords key).filter (fun w => (moneroWords.byWord w).isNone) = [] := by
    refine List.filter_eq_nil_iff.2 fun w hw => ?_
    have hsome := Zano.byWord_dataWords moneroWords_pos (mem_keyBytesToWords hw)
    cases h : moneroWords.byWord w <;> simp_all
  have htake : (keyBytesToWords key).take DATA_WORDS = dataWords moneroWords key := by
    rw [keyBytesToWords, List.take_append_of_le_length (by rw [length_dataWords]; decide),
      List.take_of_length_le (by rw [length_dataWords]; decide)]
  have hindex : checksumIndex (keyBytesToWords key) = checksumIndex (dataWords moneroWords key) := by
    rw [checksumIndex, checksumIndex, htake, List.take_of_length_le (by rw [length_dataWords]; decide)]
  have hlt : checksumIndex (dataWords moneroWords key) < (dataWords moneroWords key).length := by
    rw [length_dataWords]
    exact Nat.mod_lt _ (by decide)
  have hsum : (keyBytesToWords key).getD DATA_WORDS [] = (keyBytesToWords key).getD (checksumIndex (keyBytesToWords key)) [] := by
    rw [hindex, keyBytesToWords, List.getD_append _ _ _ _ hlt,
      List.getD_append_right _ _ _ _ (by rw [length_dataWords]; decide), length_dataWords]
    rfl
  have hbytes : indicesToKeyBytes ((keyBytesToWords key).filterMap moneroWords.byWord) = key :=
    indicesToKeyBytes_dataWords hkey _
  rw [verifyXelisSeedIntegrity, hwords]
  simp only [hknown, hsum, hbytes, ne_eq, not_true_eq_false, and_false, if_false, List.length_nil, Nat.lt_irrefl]
  rw [if_neg (by rw [hlen]; decide)]

end Xelis

/-! ## The law -/

/-- What is promised of the three codecs. -/
structure CodecLaw (k : Casing) (keccak256 : Bytes → Bytes) (addressOf : Bytes → Except String String) : Prop where
  xmr (b : Bytes) : b.length = 32 → ∃ ws, Xmr.bytesToWords b = .ok (joinWords ws) ∧ ws.length = 25 ∧
    Xmr.wordsToBytes ws = .ok b ∧ Xmr.wordsToBytes (ws.take 24) = .ok b ∧ Xmr.validateXmrSeed k (joinWords ws) = .ok ()
  zano (b : Bytes) : b.length = 32 → ∃ ws, Zano.bytesToWords b = .ok ws ∧ Zano.wordsToBytes ws = .ok b
  xelis (b : Bytes) : b.length = 32 →
    Xelis.indicesToKeyBytes ((Xelis.keyBytesToWords b).filterMap moneroWords.byWord) = b ∧
      (0 < leValue b → leValue b < Xelis.L →
        Xelis.verifyXelisSeedIntegrity k (joinWords (Xelis.keyBytesToWords b)) = .ok)
  xmrWords (ws : List (List Char)) (b : Bytes) : ws.length = 24 → Xmr.wordsToBytes ws = .ok b →
    ∃ ws', Xmr.bytesToWords b = .ok (joinWords ws') ∧ List.Forall₂ Xmr.SameWord ws (ws'.take 24) ∧
      ((∀ w ∈ ws, w ∈ moneroWords.words) → ws'.take 24 = ws)
  xmrInj (ws ws' : List (List Char)) (b : Bytes) : ws.length = 24 → ws'.length = 24 → Xmr.wordsToBytes ws = .ok b →
    Xmr.wordsToBytes ws' = .ok b → List.Forall₂ Xmr.SameWord ws ws'
  zanoWords (ws : List (List Char)) (b : Bytes) : Zano.wordsToBytes ws = .ok b → Zano.bytesToWords b = .ok ws
  zanoInj (ws ws' : List (List Char)) (b : Bytes) : Zano.wordsToBytes ws = .ok b → Zano.wordsToBytes ws' = .ok b → ws = ws'
  respelled (s s' : List Char) : Xmr.Respelled (Xmr.wordsOf k s) (Xmr.wordsOf k s') → Xmr.Alike (Xmr.wordsOf k s) →
    Xmr.Alike (Xmr.wordsOf k s') → (Xmr.validateXmrSeed k s = .ok () ↔ Xmr.validateXmrSeed k s' = .ok ()) ∧
      (Xmr.validateXmrSeed k s = .ok () → Xmr.xmrAddressFromSeed k addressOf s = Xmr.xmrAddressFromSeed k addressOf s')
  secured (seed : Bytes) (timestamp : Rat) (passphrase : String) (w : List Char) (t : Zano.Timestamp) : seed.length = 32 →
    passphrase ≠ "" → Zano.encodeTimestampWord timestamp true = .ok w → Zano.decodeTimestampWord w = .ok t →
    ∃ ws, Zano.bytesToWords (Zano.cryptWithPass keccak256 seed passphrase) = .ok ws ∧
      Zano.verifyZanoSeedIntegrity keccak256 k (joinWords
        (ws ++ [w, Zano.computeChecksumWord keccak256 seed passphrase t.creationTimestamp false])) passphrase = .ok .ok ∧
      (Zano.wordsToBytes ws).map (Zano.cryptWithPass keccak256 · passphrase) = .ok seed
  stamped (timestamp : Rat) (passwordUsed : Bool) (w : List Char) : Zano.encodeTimestampWord timestamp passwordUsed = .ok w →
    ∃ t, Zano.decodeTimestampWord w = .ok t

theorem sameWord_of_index {w w' : List Char} {i : Nat} (h : moneroWords.bySpelling w = some i)
    (h' : moneroWords.bySpelling w' = some i) : Xmr.SameWord w w' := .inr ⟨i, h, h'⟩

theorem forall₂_sameWord {ws ws' : List (List Char)} (h : ws.map moneroWords.bySpelling = ws'.map moneroWords.bySpelling)
    (hsome : ∀ w ∈ ws, (moneroWords.bySpelling w).isSome = true) : List.Forall₂ Xmr.SameWord ws ws' := by
  induction ws generalizing ws' with
  | nil =>
    cases ws' with
    | nil => exact .nil
    | cons w' ws' => simp at h
  | cons w ws ih =>
    cases ws' with
    | nil => simp at h
    | cons w' ws' =>
      rw [List.map_cons, List.map_cons, List.cons.injEq] at h
      obtain ⟨i, hi⟩ := Option.isSome_iff_exists.1 (hsome w List.mem_cons_self)
      exact .cons (sameWord_of_index hi (h.1 ▸ hi)) (ih h.2 fun v hv => hsome v (List.mem_cons_of_mem _ hv))

theorem bySpelling_dataWords {b : Bytes} {w : List Char} (hw : w ∈ dataWords moneroWords b) :
    (moneroWords.bySpelling w).isSome = true := by
  obtain ⟨i, hi⟩ := Option.isSome_iff_exists.1 (Zano.byWord_dataWords Xelis.moneroWords_pos hw)
  obtain ⟨hlt, rfl⟩ := Wordlist.byWord_eq_some.1 hi
  rw [Wordlist.bySpelling_word hlt]
  rfl

/-- The indices that the spellings of an accepted list have. -/
theorem bySpelling_of_ok {ws : List (List Char)} {b : Bytes} (hlen : ws.length = 24) (h : Xmr.wordsToBytes ws = .ok b) :
    ∀ w ∈ ws, (moneroWords.bySpelling w).isSome = true := by
  obtain ⟨-, hmap⟩ := Xmr.dataWords_of_ok hlen h
  intro w hw
  have hmem : moneroWords.bySpelling w ∈ (dataWords moneroWords b).map moneroWords.bySpelling :=
    hmap ▸ List.mem_map_of_mem hw
  obtain ⟨v, hv, heq⟩ := List.mem_map.1 hmem
  rw [← heq]
  exact bySpelling_dataWords hv

/-- Words of the list with the same indices are the same. -/
theorem eq_of_sameWord {ws ws' : List (List Char)} (h : List.Forall₂ Xmr.SameWord ws ws')
    (hfull : ∀ w ∈ ws, w ∈ moneroWords.words) (hfull' : ∀ w ∈ ws', w ∈ moneroWords.words) : ws' = ws := by
  have hword {w : List Char} (hw : w ∈ moneroWords.words) : ∃ i < moneroWords.words.length, w = moneroWords.word i := by
    obtain ⟨i, hi, hwi⟩ := List.mem_iff_getElem.1 hw
    exact ⟨i, hi, by rw [Wordlist.word, List.getD_eq_getElem _ _ hi, hwi]⟩
  induction h with
  | nil => rfl
  | @cons w w' ws ws' hw _ ih =>
    obtain ⟨i, hi, hwi⟩ := hword (hfull w List.mem_cons_self)
    obtain ⟨j, hj, hwj⟩ := hword (hfull' w' List.mem_cons_self)
    have hindex := hw.index
    rw [hwi, hwj, Wordlist.bySpelling_word hi, Wordlist.bySpelling_word hj, Option.some.injEq] at hindex
    rw [ih (fun v hv => hfull v (List.mem_cons_of_mem _ hv)) fun v hv => hfull' v (List.mem_cons_of_mem _ hv), hwi, hwj,
      hindex]

theorem mem_words_dataWords {b : Bytes} {w : List Char} (hw : w ∈ dataWords moneroWords b) : w ∈ moneroWords.words := by
  obtain ⟨i, hi⟩ := Option.isSome_iff_exists.1 (Zano.byWord_dataWords Xelis.moneroWords_pos hw)
  obtain ⟨hlt, rfl⟩ := Wordlist.byWord_eq_some.1 hi
  rw [Wordlist.word, List.getD_eq_getElem _ _ hlt]
  exact List.getElem_mem hlt

/-- The seed codecs give back what they took, spelling by spelling and passphrase by passphrase. -/
theorem electrum_codecs (k : Casing) (keccak256 : Bytes → Bytes) (addressOf : Bytes → Except String String) :
    CodecLaw k keccak256 addressOf where
  xmr b hb := ⟨_, Xmr.bytesToWords_eq hb, Xmr.length_phraseWords, Xmr.wordsToBytes_phraseWords hb,
    by rw [Xmr.take_phraseWords]; exact Xmr.wordsToBytes_dataWords hb, Xmr.validate_phrase hb⟩
  zano b hb := ⟨_, if_neg (not_not.2 hb), Zano.wordsToBytes_dataWords hb⟩
  xelis b hb := by
    refine ⟨Xelis.indicesToKeyBytes_dataWords hb _, fun hpos hlt => ?_⟩
    rw [Xelis.verify_keyBytesToWords hb, if_neg (by omega)]
  xmrWords ws b hlen h := by
    obtain ⟨hb, hmap⟩ := Xmr.dataWords_of_ok hlen h
    have hsame := forall₂_sameWord hmap.symm (bySpelling_of_ok hlen h)
    refine ⟨_, Xmr.bytesToWords_eq hb, by rwa [Xmr.take_phraseWords], fun hfull => ?_⟩
    rw [Xmr.take_phraseWords]
    exact eq_of_sameWord hsame hfull fun w hw => mem_words_dataWords hw
  xmrInj ws ws' b hlen hlen' h h' := by
    obtain ⟨-, hmap⟩ := Xmr.dataWords_of_ok hlen h
    obtain ⟨-, hmap'⟩ := Xmr.dataWords_of_ok hlen' h'
    exact forall₂_sameWord (hmap.symm.trans hmap') (bySpelling_of_ok hlen h)
  zanoWords ws b h := Zano.bytesToWords_of_ok h
  zanoInj ws ws' b h h' := by
    have hsame := (Zano.bytesToWords_of_ok h).symm.trans (Zano.bytesToWords_of_ok h')
    exact Except.ok.inj hsame
  respelled s s' hrespelled halike halike' := by
    refine ⟨⟨fun hok => (Xmr.validate_respelled hrespelled halike' hok).1,
      fun hok => (Xmr.validate_respelled hrespelled.symm halike hok).1⟩, fun hok => ?_⟩
    obtain ⟨hok', hbytes⟩ := Xmr.validate_respelled hrespelled halike' hok
    rw [Xmr.xmrAddressFromSeed_ok hok, Xmr.xmrAddressFromSeed_ok hok', hbytes]
  secured seed timestamp passphrase w t hlen hpass hw ht := by
    have hcrypt : (Zano.cryptWithPass keccak256 seed passphrase).length = 32 := by rw [Zano.length_cryptWithPass, hlen]
    obtain ⟨hverify, -⟩ := @Zano.verify_phrase keccak256 k _ hlen _ _ _ (fun _ => hpass) _ _ hw ht
    have hprotected : t.passwordProtected = true := by
      obtain ⟨weeks, -, -, hdecode⟩ := Zano.encodeTimestampWord_ok hw
      rw [ht, Except.ok.injEq] at hdecode
      rw [hdecode]
    rw [Zano.phrase, hprotected, if_pos rfl] at hverify
    refine ⟨_, if_neg (not_not.2 hcrypt), hverify, ?_⟩
    rw [Zano.wordsToBytes_dataWords hcrypt, Except.map, Zano.cryptWithPass_twice]
  stamped timestamp passwordUsed w hw := by
    obtain ⟨weeks, -, -, hdecode⟩ := Zano.encodeTimestampWord_ok hw
    exact ⟨_, hdecode⟩

/-! ## Where the claim goes too far -/

/-- The key whose 32 bytes are zero. -/
def zeroKey : Bytes := List.replicate 32 0

theorem read_zeroKey (i : Nat) : readUInt32LE zeroKey i = 0 := by
  have hzero (j : Nat) : zeroKey.getD j 0 = 0 := by
    rw [zeroKey, List.getD_eq_getElem?_getD, List.getElem?_replicate]
    split <;> rfl
  simp only [readUInt32LE, hzero]
  rfl

theorem dataWords_zeroKey (l : Wordlist) : dataWords l zeroKey = List.replicate 24 (l.word 0) := by
  have hgroup (i : Nat) : groupWords l zeroKey i = List.replicate 3 (l.word 0) := by
    simp only [groupWords, read_zeroKey, Radix.digits, Nat.zero_mod, Nat.zero_div, Nat.zero_add]
    rfl
  rw [dataWords, flatMap_congr fun i _ => hgroup i]
  rfl

namespace Xmr

/-- The first word's prefix is another spelling of it. -/
theorem short_word_zero : moneroWords.short (moneroWords.word 0) ≠ moneroWords.word 0 := by
  unfold moneroWords
  decide +kernel

theorem bySpelling_short_zero : moneroWords.bySpelling (moneroWords.short (moneroWords.word 0)) = some 0 :=
  Wordlist.bySpelling_eq_some.2 ⟨Xelis.moneroWords_pos, .inr rfl⟩

theorem sameWord_zero : SameWord (moneroWords.word 0) (moneroWords.short (moneroWords.word 0)) :=
  .inr ⟨0, Wordlist.bySpelling_word Xelis.moneroWords_pos, bySpelling_short_zero⟩

theorem length_zeroKey : zeroKey.length = 32 := List.length_replicate

/-- Prefixes only. -/
def shortZero : List (List Char) := List.replicate 24 (moneroWords.short (moneroWords.word 0))

theorem respelled_shortZero : Respelled (dataWords moneroWords zeroKey) shortZero := by
  have hreplicate (n : Nat) : Respelled (List.replicate n (moneroWords.word 0))
      (List.replicate n (moneroWords.short (moneroWords.word 0))) := by
    induction n with
    | zero => exact .nil
    | succ n ih => exact .cons sameWord_zero ih
  rw [dataWords_zeroKey]
  exact hreplicate 24

theorem wordsToBytes_shortZero : wordsToBytes shortZero = .ok zeroKey := by
  have hok := wordsToBytes_dataWords length_zeroKey
  rw [wordsToBytes_ok] at hok ⊢
  exact ⟨.inl List.length_replicate, hok.2.congr respelled_shortZero.index monero_bySpelling_nil⟩

theorem shortZero_ne : shortZero ≠ dataWords moneroWords zeroKey := by
  rw [dataWords_zeroKey, shortZero]
  intro h
  exact short_word_zero (List.replicate_right_injective (by decide) h)

/-- The words of the zero key, the last by its prefix. -/
def mixedZero : List (List Char) := dataWords moneroWords zeroKey ++ [moneroWords.short (moneroWords.word 0)]

theorem checksumWord_zero : checksumWord (dataWords moneroWords zeroKey) = moneroWords.word 0 := by
  have hmem := @checksumWord_mem zeroKey
  rw [dataWords_zeroKey] at hmem ⊢
  exact List.eq_of_mem_replicate hmem

theorem respelled_mixedZero : Respelled (phraseWords zeroKey) mixedZero := by
  rw [phraseWords, mixedZero, checksumWord_zero]
  refine List.rel_append (List.forall₂_same.2 fun w _ => .inl rfl) ?_
  exact .cons sameWord_zero .nil

theorem lowerWord_take {w : List Char} (h : lowerWord w = true) (n : Nat) : lowerWord (w.take (n + 1)) = true := by
  have hne := lowerWord_ne_nil h
  simp only [lowerWord, Bool.and_eq_true, bne_iff_ne, ne_eq, List.all_eq_true] at h ⊢
  refine ⟨?_, fun c hc => h.2 c (List.mem_of_mem_take hc)⟩
  cases w with
  | nil => exact absurd rfl hne
  | cons c w => simp

variable {k : Casing}

theorem wordsOf_mixedZero : wordsOf k (joinWords mixedZero) = mixedZero := by
  refine wordsOf_joinWords (fun w hw => ?_) (by simp [mixedZero])
  rcases List.mem_append.1 hw with hw | hw
  · exact lowerWord_dataWords Xelis.moneroWords_pos hw
  · rw [List.mem_singleton.1 hw, Wordlist.short, moneroWords_prefixLen]
    exact lowerWord_take (Wordlist.lowerWord_word Xelis.moneroWords_pos) 2

/-- The word that is repeated is not the prefix that stands for it. -/
theorem validate_mixedZero : validateXmrSeed k (joinWords mixedZero) ≠ .ok () := by
  intro h
  obtain ⟨-, -, hsum, -⟩ := validateXmrSeed_ok.1 h
  have hlen := @length_dataWords moneroWords zeroKey
  have hlt : Xmr.checksumIndex mixedZero < (dataWords moneroWords zeroKey).length := by
    rw [hlen]
    exact Nat.mod_lt _ (by decide)
  have hmem : checksumWord mixedZero ∈ dataWords moneroWords zeroKey := by
    rw [checksumWord]
    generalize Xmr.checksumIndex mixedZero = i at hlt ⊢
    rw [mixedZero, List.getD_append _ _ _ _ hlt, List.getD_eq_getElem _ _ hlt]
    exact List.getElem_mem hlt
  rw [dataWords_zeroKey] at hmem
  rw [wordsOf_mixedZero, List.eq_of_mem_replicate hmem, mixedZero,
    List.getD_append_right _ _ _ _ (by rw [hlen]), hlen] at hsum
  exact short_word_zero hsum.symm

end Xmr

namespace Zano

variable {keccak256 : Bytes → Bytes} {k : Casing} {seed : Bytes}

/-- With no passphrase a phrase that says it has one asks for it. -/
theorem verify_empty {timestamp : Rat} {w : List Char} {t : Timestamp} (hw : encodeTimestampWord timestamp true = .ok w)
    (ht : decodeTimestampWord w = .ok t) :
    verifyZanoSeedIntegrity keccak256 k (joinWords (phrase keccak256 seed "" w t)) "" = .ok .passphraseRequired := by
  obtain ⟨i, hi, rfl, created, hdecode⟩ := encodeTimestampWord_index hw
  rw [ht, Except.ok.injEq] at hdecode
  obtain ⟨c, hc, heven, hcheck⟩ := @computeChecksumWord_spec keccak256 seed "" t.creationTimestamp
  obtain ⟨-, hmeta⟩ := @readZanoSeedMeta_words k
    (if t.passwordProtected then cryptWithPass keccak256 seed "" else seed) _ _ hi hc heven _ ht
  rw [verifyZanoSeedIntegrity, phrase, hcheck, hmeta, hdecode]
  rfl

theorem encodeTimestampWord_zero : encodeTimestampWord 0 true = .ok (zanoWords.word 800) := by
  have hbefore : ¬ (0 : Rat) > (BRAIN_DATE_OFFSET : Rat) := by
    rw [gt_iff_lt, not_lt]
    exact Nat.cast_nonneg _
  rw [encodeTimestampWord]
  simp only [if_neg hbefore, zero_div, Int.floor_zero]
  rfl

/-- 800 weeks after the first. -/
theorem encodeTimestampWord_late :
    encodeTimestampWord 2027462400 true = .error "Zano seed timestamp is beyond the encodable range" := by
  have hafter : (2027462400 : Rat) > (BRAIN_DATE_OFFSET : Rat) := by
    norm_num [BRAIN_DATE_OFFSET]
  have hweeks : ((2027462400 : Rat) - (BRAIN_DATE_OFFSET : Rat)) / (BRAIN_DATE_QUANTUM : Rat) = ((800 : Int) : Rat) := by
    norm_num [BRAIN_DATE_OFFSET, BRAIN_DATE_QUANTUM]
  rw [encodeTimestampWord]
  simp only [if_pos hafter, hweeks, Int.floor_intCast]
  rfl

end Zano

/-- The zero key is below the order of the group and refused; prefixes come back written out; without a passphrase
a phrase that asks for one does not pass, and late times have no word; and the last word alone may not be shortened. -/
theorem not_always_codec :
    (leValue zeroKey < Xelis.L ∧
      Xelis.verifyXelisSeedIntegrity .sample (joinWords (Xelis.keyBytesToWords zeroKey)) = .key) ∧
    (Xmr.wordsToBytes Xmr.shortZero = .ok zeroKey ∧
      Xmr.bytesToWords zeroKey = .ok (joinWords (Xmr.phraseWords zeroKey)) ∧
      (Xmr.phraseWords zeroKey).take 24 ≠ Xmr.shortZero) ∧
    (∃ w t, Zano.encodeTimestampWord 0 true = .ok w ∧ Zano.decodeTimestampWord w = .ok t ∧
      Zano.verifyZanoSeedIntegrity (fun _ => zeroKey) .sample
        (joinWords (Zano.phrase (fun _ => zeroKey) zeroKey "" w t)) "" = .ok .passphraseRequired) ∧
    (¬ ∃ w, Zano.encodeTimestampWord 2027462400 true = .ok w) ∧
    (Xmr.validateXmrSeed .sample (joinWords (Xmr.phraseWords zeroKey)) = .ok () ∧
      Xmr.Respelled (Xmr.phraseWords zeroKey) Xmr.mixedZero ∧
      Xmr.validateXmrSeed .sample (joinWords Xmr.mixedZero) ≠ .ok ()) := by
  have hzero : leValue zeroKey = 0 := by decide +kernel
  refine ⟨⟨?_, ?_⟩, ⟨Xmr.wordsToBytes_shortZero, Xmr.bytesToWords_eq Xmr.length_zeroKey, ?_⟩, ?_, ?_,
    Xmr.validate_phrase Xmr.length_zeroKey, Xmr.respelled_mixedZero, Xmr.validate_mixedZero⟩
  · rw [hzero]
    decide
  · rw [Xelis.verify_keyBytesToWords Xmr.length_zeroKey, if_pos (.inl hzero)]
  · rw [Xmr.take_phraseWords]
    exact Xmr.shortZero_ne.symm
  · obtain ⟨weeks, -, -, hdecode⟩ := Zano.encodeTimestampWord_ok Zano.encodeTimestampWord_zero
    exact ⟨_, _, Zano.encodeTimestampWord_zero, hdecode, Zano.verify_empty Zano.encodeTimestampWord_zero hdecode⟩
  · rw [Zano.encodeTimestampWord_late]
    rintro ⟨w, hw⟩
    cases hw

end Seed
