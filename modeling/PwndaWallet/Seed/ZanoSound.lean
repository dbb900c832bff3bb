import PwndaWallet.Seed.ElectrumSound

/-!
# A secured phrase opens with its passphrase

The cipher is its own inverse, the metadata words are read as they were written, and the checksum is of the plain
seed: so a phrase that was built with a passphrase passes with it.
-/

namespace Seed.Zano

open Js Wire Radix

/-! ## The cipher -/

theorem length_keystream (j : Block) : (keystream j).length = 64 :=
  length_flatMap (n := 4) (fun _ => by simp) 16

theorem zipWith_xor_twice {data key : Bytes} (h : data.length ≤ key.length) :
    List.zipWith (· ^^^ ·) (List.zipWith (· ^^^ ·) data key) key = data := by
  induction data generalizing key with
  | nil => rfl
  | cons b data ih =>
    cases key with
    | nil => simp at h
    | cons c key =>
      rw [List.zipWith_cons_cons, List.zipWith_cons_cons, ih (Nat.le_of_succ_le_succ h), UInt8.xor_assoc, UInt8.xor_self,
        UInt8.xor_zero]

theorem length_chachaFrom {n : Nat} {j : Block} {data : Bytes} (h : data.length ≤ 64 * n) :
    (chachaFrom n j data).length = data.length := by
  induction n generalizing j data with
  | zero =>
    rw [List.eq_nil_of_length_eq_zero (Nat.le_zero.1 h)]
    rfl
  | succ n ih =>
    rw [chachaFrom, List.length_append, List.length_zipWith, List.length_take, length_keystream,
      ih (by rw [List.length_drop]; omega), List.length_drop]
    omega

theorem chachaFrom_twice {n : Nat} {j : Block} {data : Bytes} (h : data.length ≤ 64 * n) :
    chachaFrom n j (chachaFrom n j data) = data := by
  induction n generalizing j data with
  | zero =>
    rw [List.eq_nil_of_length_eq_zero (Nat.le_zero.1 h)]
    rfl
  | succ n ih =>
    have hkey := length_keystream j
    have hfirst : (List.zipWith (· ^^^ ·) (data.take 64) (keystream j)).length = min 64 data.length := by
      rw [List.length_zipWith, List.length_take, hkey]
      omega
    have hsecond : (chachaFrom n (nextBlock j) (data.drop 64)).length = data.length - 64 := by
      rw [length_chachaFrom (by rw [List.length_drop]; omega), List.length_drop]
    have htwice : List.zipWith (· ^^^ ·) (List.zipWith (· ^^^ ·) (data.take 64) (keystream j)) (keystream j) =
        data.take 64 := zipWith_xor_twice (by rw [List.length_take]; omega)
    rw [chachaFrom, chachaFrom]
    by_cases hlong : 64 ≤ data.length
    · rw [List.take_append_of_le_length (by omega), List.take_of_length_le (by omega), htwice,
        List.drop_append_of_le_length (by omega), List.drop_eq_nil_of_le (by omega), List.nil_append,
        ih (by rw [List.length_drop]; omega), List.take_append_drop]
    · have hrest : chachaFrom n (nextBlock j) (data.drop 64) = [] := List.eq_nil_of_length_eq_zero (by omega)
      have hnil : chachaFrom n (nextBlock j) [] = [] :=
        List.eq_nil_of_length_eq_zero (length_chachaFrom (Nat.zero_le _))
      rw [hrest, List.append_nil, List.take_of_length_le (by omega), htwice, List.drop_eq_nil_of_le (by omega), hnil,
        List.append_nil, List.take_of_length_le (by omega)]

theorem length_chacha8 (key iv data : Bytes) : (chacha8 key iv data).length = data.length :=
  length_chachaFrom (by omega)

theorem chacha8_twice (key iv data : Bytes) : chacha8 key iv (chacha8 key iv data) = data := by
  have hlen := length_chacha8 key iv data
  unfold chacha8 at hlen ⊢
  simp only at hlen ⊢
  rw [hlen]
  exact chachaFrom_twice (by omega)

variable {keccak256 : Bytes → Bytes}

theorem cryptWithPass_twice (data : Bytes) (passphrase : String) :
    cryptWithPass keccak256 (cryptWithPass keccak256 data passphrase) passphrase = data := chacha8_twice _ _ _

theorem length_cryptWithPass (data : Bytes) (passphrase : String) :
    (cryptWithPass keccak256 data passphrase).length = data.length := length_chacha8 _ _ _

/-! ## Words -/

theorem zanoWords_cube : 2 ^ 32 ≤ zanoWords.words.length * zanoWords.words.length * zanoWords.words.length := by
  rw [zanoWords_length]
  decide

theorem zanoWords_pos : 0 < zanoWords.words.length := by
  rw [zanoWords_length]
  decide

variable {words : List (List Char)} {bytes : Bytes}

theorem wordGroup_ok {i v : Nat} : wordGroup words i = .ok v ↔ ∃ d, indicesAt zanoWords.byWord words i = .ok d ∧
    undigits zanoWords.words.length d.1 d.2.1 d.2.2 = v ∧ v < 2 ^ 32 := by
  rw [wordGroup]
  cases hind : indicesAt zanoWords.byWord words i with
  | error bad => simp
  | ok d =>
    obtain ⟨a, b, c⟩ := d
    simp only [Except.ok.injEq, exists_eq_left']
    by_cases hlarge : undigits zanoWords.words.length a b c ≥ 1 <<< 32
    · rw [if_pos hlarge]
      refine ⟨fun h => (nomatch h), ?_⟩
      rintro ⟨rfl, hlt⟩
      omega
    · rw [if_neg hlarge, Except.ok.injEq]
      refine ⟨fun h => ⟨h, ?_⟩, And.left⟩
      omega

theorem wordsToBytes_ok : wordsToBytes words = .ok bytes ↔ words.length = 24 ∧
    Decodes zanoWords.words.length zanoWords.byWord words bytes := by
  rw [wordsToBytes]
  by_cases hlen : words.length = 24
  · rw [if_neg (not_not.2 hlen), groupBytes_iff fun i v => wordGroup_ok, and_iff_right hlen]
  · rw [if_pos hlen]
    exact ⟨fun h => (nomatch h), fun h => absurd h.1 hlen⟩

theorem wordsToBytes_dataWords (hb : bytes.length = 32) : wordsToBytes (dataWords zanoWords bytes) = .ok bytes := by
  have hdecodes := decodes_dataWords zanoWords_cube (fun _ => Wordlist.byWord_word) hb []
  rw [List.append_nil] at hdecodes
  exact wordsToBytes_ok.2 ⟨length_dataWords _, hdecodes⟩

/-- Words that have indices are told apart by them. -/
theorem eq_of_map_byWord {l : Wordlist} {ws ws' : List (List Char)} (h : ws.map l.byWord = ws'.map l.byWord)
    (hsome : ∀ w ∈ ws, (l.byWord w).isSome = true) : ws = ws' := by
  induction ws generalizing ws' with
  | nil =>
    cases ws' with
    | nil => rfl
    | cons w' ws' => simp at h
  | cons w ws ih =>
    cases ws' with
    | nil => simp at h
    | cons w' ws' =>
      rw [List.map_cons, List.map_cons, List.cons.injEq] at h
      obtain ⟨i, hi⟩ := Option.isSome_iff_exists.1 (hsome w List.mem_cons_self)
      have hi' : l.byWord w' = some i := h.1 ▸ hi
      rw [(Wordlist.byWord_eq_some.1 hi).2, (Wordlist.byWord_eq_some.1 hi').2,
        ih h.2 fun v hv => hsome v (List.mem_cons_of_mem _ hv)]

theorem byWord_dataWords {l : Wordlist} (hpos : 0 < l.words.length) {b : Bytes} {w : List Char} (hw : w ∈ dataWords l b) :
    (l.byWord w).isSome = true := by
  obtain ⟨i, -, hw⟩ := List.mem_flatMap.1 hw
  obtain ⟨ha, hb, hc⟩ := digits_lt hpos (readUInt32LE b (i * 4))
  simp only [groupWords, List.mem_cons, List.not_mem_nil, or_false] at hw
  rcases hw with rfl | rfl | rfl
  · rw [Wordlist.byWord_word ha]
    rfl
  · rw [Wordlist.byWord_word hb]
    rfl
  · rw [Wordlist.byWord_word hc]
    rfl

theorem bytesToWords_of_ok (h : wordsToBytes words = .ok bytes) : bytesToWords bytes = .ok words := by
  obtain ⟨hlen, hdecodes⟩ := wordsToBytes_ok.1 h
  obtain ⟨hb, hmap⟩ := hdecodes.dataWords byWord_lt (fun _ => Wordlist.byWord_word) hlen
  rw [bytesToWords, if_neg (not_not.2 hb), eq_of_map_byWord hmap fun w hw => byWord_dataWords zanoWords_pos hw]

/-! ## Metadata -/

theorem encodeTimestampWord_ok {timestamp : Rat} {passwordUsed : Bool} {w : List Char}
    (h : encodeTimestampWord timestamp passwordUsed = .ok w) : ∃ weeks < BRAIN_DATE_MAX_WEEKS,
      w = zanoWords.word (if passwordUsed then weeks + BRAIN_DATE_MAX_WEEKS else weeks) ∧
      decodeTimestampWord w = .ok ⟨passwordUsed, weeks * BRAIN_DATE_QUANTUM + BRAIN_DATE_OFFSET⟩ := by
  rw [encodeTimestampWord] at h
  generalize hweeks : ⌊(if timestamp > (BRAIN_DATE_OFFSET : Rat) then timestamp - BRAIN_DATE_OFFSET else 0) /
    (BRAIN_DATE_QUANTUM : Rat)⌋.toNat = weeks at h
  by_cases hlarge : weeks ≥ BRAIN_DATE_MAX_WEEKS
  · rw [if_pos hlarge] at h
    cases h
  · rw [if_neg hlarge, Except.ok.injEq] at h
    have hmax : BRAIN_DATE_MAX_WEEKS = 800 := rfl
    refine ⟨weeks, by omega, h.symm, ?_⟩
    rw [← h, decodeTimestampWord]
    cases passwordUsed with
    | true =>
      have hlt : weeks + BRAIN_DATE_MAX_WEEKS < zanoWords.words.length := by rw [zanoWords_length]; omega
      simp [Wordlist.byWord_word hlt]
    | false =>
      have hlt : weeks < zanoWords.words.length := by rw [zanoWords_length]; omega
      simp [Wordlist.byWord_word hlt, Nat.lt_of_not_le hlarge]

theorem encodeTimestampWord_index {timestamp : Rat} {passwordUsed : Bool} {w : List Char}
    (h : encodeTimestampWord timestamp passwordUsed = .ok w) : ∃ i < zanoWords.words.length, w = zanoWords.word i ∧
      ∃ creationTimestamp, decodeTimestampWord w = .ok ⟨passwordUsed, creationTimestamp⟩ := by
  obtain ⟨weeks, hweeks, hword, hdecode⟩ := encodeTimestampWord_ok h
  refine ⟨_, ?_, hword, _, hdecode⟩
  have hmax : BRAIN_DATE_MAX_WEEKS = 800 := rfl
  rw [zanoWords_length]
  split <;> omega

theorem checksumOf_lt (seed : Bytes) (passphrase : String) (t : Nat) : checksumOf keccak256 seed passphrase t < 813 := by
  have hmax : CHECKSUM_MAX = 813 := by
    rw [CHECKSUM_MAX, zanoWords_length]
    rfl
  have hmod := Nat.mod_lt (leValue ((keccak256 ((le 8 t).take (keccak256 (seed ++ passphrase.toUTF8.data.toList)).length ++
    (keccak256 (seed ++ passphrase.toUTF8.data.toList)).drop 8)).take 8)) (show 0 < CHECKSUM_MAX + 1 by omega)
  rw [checksumOf]
  split
  · decide
  · rename_i hne
    rw [hmax] at hne hmod ⊢
    omega

theorem computeChecksumWord_spec (seed : Bytes) (passphrase : String) (t : Nat) :
    ∃ i, i < zanoWords.words.length ∧ i &&& 1 = 0 ∧ computeChecksumWord keccak256 seed passphrase t false = zanoWords.word i := by
  refine ⟨checksumOf keccak256 seed passphrase t <<< 1, ?_, ?_, ?_⟩
  · have hlt := @checksumOf_lt keccak256 seed passphrase t
    rw [zanoWords_length, Nat.shiftLeft_eq]
    omega
  · rw [Nat.and_one_is_mod, Nat.shiftLeft_eq]
    omega
  · rw [computeChecksumWord, if_neg (by decide), Nat.zero_or]

/-! ## A phrase -/

variable {k : Casing}

theorem splitSpaces_joinWords {ws : List (List Char)} (h : ∀ w ∈ ws, lowerWord w = true) (hne : ws ≠ []) :
    splitSpaces (joinWords ws) = ws := by
  rw [splitSpaces, collapse_joinWords h, splitWords_joinWords h hne]

theorem wordsOf_joinWords {ws : List (List Char)} (h : ∀ w ∈ ws, lowerWord w = true) (hne : ws ≠ []) :
    wordsOf k (joinWords ws) = ws := by
  rw [wordsOf, normalizeZanoSeed, trim_joinWords h, toLowerCase_joinWords h, splitSpaces_joinWords h hne,
    splitWords_joinWords h hne]

/-- The phrase of a seed: its 24 words as they are stored, the time and the checksum of the plain seed. -/
def phrase (keccak256 : Bytes → Bytes) (seed : Bytes) (passphrase : String) (w : List Char) (t : Timestamp) : List (List Char) :=
  dataWords zanoWords (if t.passwordProtected then cryptWithPass keccak256 seed passphrase else seed) ++
    [w, computeChecksumWord keccak256 seed passphrase t.creationTimestamp false]

theorem lowerWord_words {stored : Bytes} {i c : Nat} (hi : i < zanoWords.words.length) (hc : c < zanoWords.words.length) :
    ∀ w ∈ dataWords zanoWords stored ++ [zanoWords.word i, zanoWords.word c], lowerWord w = true := by
  intro w hw
  rcases List.mem_append.1 hw with hw | hw
  · exact lowerWord_dataWords zanoWords_pos hw
  · simp only [List.mem_cons, List.not_mem_nil, or_false] at hw
    rcases hw with rfl | rfl
    · exact Wordlist.lowerWord_word hi
    · exact Wordlist.lowerWord_word hc

/-- What is read off 26 words whose last has no flag. -/
theorem readZanoSeedMeta_words {stored : Bytes} {i c : Nat} (hi : i < zanoWords.words.length)
    (hc : c < zanoWords.words.length) (heven : c &&& 1 = 0) {t : Timestamp}
    (ht : decodeTimestampWord (zanoWords.word i) = .ok t) :
    wordsOf k (joinWords (dataWords zanoWords stored ++ [zanoWords.word i, zanoWords.word c])) =
        dataWords zanoWords stored ++ [zanoWords.word i, zanoWords.word c] ∧
      readZanoSeedMeta k (joinWords (dataWords zanoWords stored ++ [zanoWords.word i, zanoWords.word c])) =
        .ok ⟨26, t.passwordProtected, false, some t.creationTimestamp⟩ := by
  have hlower := @lowerWord_words stored i c hi hc
  have hwords := wordsOf_joinWords (k := k) hlower (by simp)
  refine ⟨hwords, ?_⟩
  have hdata := length_dataWords (l := zanoWords) stored
  have hcount : (dataWords zanoWords stored ++ [zanoWords.word i, zanoWords.word c]).length = 26 := by
    rw [List.length_append, hdata]
    rfl
  have hat (j : Nat) : (dataWords zanoWords stored ++ [zanoWords.word i, zanoWords.word c])[24 + j]? =
      [zanoWords.word i, zanoWords.word c][j]? := by
    rw [List.getElem?_append_right (by omega), hdata, Nat.add_sub_cancel_left]
  have h24 : (dataWords zanoWords stored ++ [zanoWords.word i, zanoWords.word c]).getD 24 [] = zanoWords.word i := by
    rw [List.getD_eq_getElem?_getD, hat 0]
    rfl
  have h25 : (dataWords zanoWords stored ++ [zanoWords.word i, zanoWords.word c]).getD 25 [] = zanoWords.word c := by
    rw [List.getD_eq_getElem?_getD, hat 1]
    rfl
  rw [readZanoSeedMeta, hwords]
  simp only [hcount, readTimestamp, readAuditable, h24, h25, ht, Wordlist.byWord_word hc, heven, Except.map, Except.bind]
  simp

/-- A phrase that was built so passes with its passphrase, and its words are the stored seed. -/
theorem verify_phrase {seed : Bytes} (hlen : seed.length = 32) {timestamp : Rat} {passwordUsed : Bool} {passphrase : String}
    (hpass : passwordUsed = true → passphrase ≠ "") {w : List Char} {t : Timestamp}
    (hw : encodeTimestampWord timestamp passwordUsed = .ok w) (ht : decodeTimestampWord w = .ok t) :
    verifyZanoSeedIntegrity keccak256 k (joinWords (phrase keccak256 seed passphrase w t)) passphrase = .ok .ok ∧
      wordsToBytes ((phrase keccak256 seed passphrase w t).take 24) =
        .ok (if passwordUsed then cryptWithPass keccak256 seed passphrase else seed) := by
  obtain ⟨i, hi, rfl, created, hdecode⟩ := encodeTimestampWord_index hw
  rw [ht, Except.ok.injEq] at hdecode
  obtain ⟨c, hc, heven, hcheck⟩ := @computeChecksumWord_spec keccak256 seed passphrase t.creationTimestamp
  have hprotected : t.passwordProtected = passwordUsed := by rw [hdecode]
  generalize hstored : (if passwordUsed then cryptWithPass keccak256 seed passphrase else seed) = stored
  have hstoredlen : stored.length = 32 := by
    rw [← hstored]
    split
    · rw [length_cryptWithPass, hlen]
    · exact hlen
  have hphrase : phrase keccak256 seed passphrase (zanoWords.word i) t =
      dataWords zanoWords stored ++ [zanoWords.word i, zanoWords.word c] := by
    rw [phrase, hprotected, hstored, hcheck]
  rw [hphrase]
  have hdata := length_dataWords (l := zanoWords) stored
  have htake : (dataWords zanoWords stored ++ [zanoWords.word i, zanoWords.word c]).take 24 = dataWords zanoWords stored := by
    rw [List.take_append_of_le_length (by omega), List.take_of_length_le (by omega)]
  have hlast : (dataWords zanoWords stored ++ [zanoWords.word i, zanoWords.word c])[25]? = some (zanoWords.word c) := by
    rw [List.getElem?_append_right (by omega), hdata]
    rfl
  have hbytes := wordsToBytes_dataWords hstoredlen
  refine ⟨?_, by rw [htake, hbytes]⟩
  obtain ⟨hwords, hmeta⟩ := @readZanoSeedMeta_words k stored _ _ hi hc heven _ ht
  rw [verifyZanoSeedIntegrity, hmeta, hprotected]
  have hrequired : ¬ (passwordUsed = true ∧ passphrase.length = 0) := by
    rintro ⟨hused, hzero⟩
    exact hpass hused (String.length_eq_zero_iff.1 hzero)
  simp only [Except.bind, if_neg Bool.false_ne_true, if_neg hrequired]
  have hplain : (if passwordUsed = true then cryptWithPass keccak256 stored passphrase else stored) = seed := by
    rw [← hstored]
    cases passwordUsed with
    | true => exact cryptWithPass_twice _ _
    | false => rfl
  rw [verifyChecksum, hwords, htake, hbytes]
  simp only [Except.map, hplain, hcheck, hlast, if_true]

end Seed.Zano
