import PwndaWallet.Lib.Wire

/-!
# RLP

Byte strings and nested lists as bytes. `Spells` says that bytes spell an item when every length is kept, in
whatever form it is written; `encode` writes the one canonical form.
-/

namespace Rlp

open Wire

inductive Item where
  | bytes (b : Bytes)
  | list (l : List Item)

/-! ## What bytes spell -/

/-- The bytes that announce `n` bytes. -/
inductive Head (base : Nat) : Bytes → Nat → Prop
  | short (n : Nat) : n < 56 → Head base [UInt8.ofNat (base + n)] n
  | long (ln : Bytes) : 1 ≤ ln.length → ln.length ≤ 8 →
      Head base (UInt8.ofNat (base + 55 + ln.length) :: ln) (beValue ln)

theorem Head.ne_nil {base n : Nat} {h : Bytes} (hhead : Head base h n) : h ≠ [] := by
  cases hhead <;> exact List.cons_ne_nil _ _

mutual

inductive Spells : Bytes → Item → Prop
  | byte (b : UInt8) : b.toNat < 0x80 → Spells [b] (.bytes [b])
  | string (h body : Bytes) : Head 0x80 h body.length → Spells (h ++ body) (.bytes body)
  | list (h body : Bytes) (l : List Item) : Head 0xc0 h body.length → SpellsAll body l →
      Spells (h ++ body) (.list l)

inductive SpellsAll : Bytes → List Item → Prop
  | nil : SpellsAll [] []
  | cons (b bs : Bytes) (i : Item) (l : List Item) : Spells b i → SpellsAll bs l → SpellsAll (b ++ bs) (i :: l)

end

/-! ## The canonical form -/

/-- How many bytes a number takes; none for zero. -/
def byteCount (n : Nat) : Nat := if n = 0 then 0 else n.log2 / 8 + 1

theorem lt_pow_byteCount (n : Nat) : n < 256 ^ byteCount n := by
  unfold byteCount
  split
  · omega
  · have hlog := Nat.lt_log2_self (n := n)
    have hpow : 2 ^ (n.log2 + 1) ≤ 2 ^ (8 * (n.log2 / 8 + 1)) := Nat.pow_le_pow_right (by decide) (by omega)
    have h256 : 256 ^ (n.log2 / 8 + 1) = 2 ^ (8 * (n.log2 / 8 + 1)) := by
      rw [Nat.pow_mul]
    omega

/-- A number without leading zeros. -/
def scalar (n : Nat) : Bytes := be (byteCount n) n

theorem beValue_scalar (n : Nat) : beValue (scalar n) = n := by
  rw [scalar, beValue_be, Nat.mod_eq_of_lt (lt_pow_byteCount n)]

def head (base n : Nat) : Bytes :=
  if n < 56 then [UInt8.ofNat (base + n)] else UInt8.ofNat (base + 55 + byteCount n) :: scalar n

mutual

def encode : Item → Bytes
  | .bytes [] => head 0x80 0
  | .bytes (x :: b) => if b = [] ∧ x.toNat < 0x80 then [x] else head 0x80 (b.length + 1) ++ (x :: b)
  | .list l => head 0xc0 (encodeAll l).length ++ encodeAll l

def encodeAll : List Item → Bytes
  | [] => []
  | i :: l => encode i ++ encodeAll l

end

theorem byteCount_le {n : Nat} (hn : n < 2 ^ 64) : byteCount n ≤ 8 := by
  unfold byteCount
  split
  · omega
  · rename_i hne
    have hlog : n.log2 < 64 := (Nat.log2_lt hne).2 hn
    omega

theorem head_spec {base n : Nat} (hn : n < 2 ^ 64) : Head base (head base n) n := by
  unfold head
  split
  · rename_i hsmall
    exact .short n hsmall
  · rename_i hlarge
    have hlen : (scalar n).length = byteCount n := length_be _ _
    have hpos : 1 ≤ byteCount n := by
      unfold byteCount
      split <;> omega
    have hhead := @Head.long base (scalar n) (by omega) (by rw [hlen]; exact byteCount_le hn)
    rwa [hlen, beValue_scalar] at hhead

mutual

theorem spells_encode : ∀ i : Item, (encode i).length < 2 ^ 64 → Spells (encode i) i
  | .bytes [], _ => by
    have hnil := Spells.string (head 0x80 0) [] (head_spec (by decide))
    rwa [List.append_nil] at hnil
  | .bytes (x :: b), h => by
    rw [encode] at h ⊢
    split
    · rename_i hone
      obtain ⟨rfl, hx⟩ := hone
      exact .byte x hx
    · rename_i hmany
      rw [if_neg hmany, List.length_append, List.length_cons] at h
      exact .string _ (x :: b) (head_spec (by omega))
  | .list l, h => by
    rw [encode, List.length_append] at h
    rw [encode]
    exact .list _ _ l (head_spec (by omega)) (spellsAll_encodeAll l (by omega))

theorem spellsAll_encodeAll : ∀ l : List Item, (encodeAll l).length < 2 ^ 64 → SpellsAll (encodeAll l) l
  | [], _ => .nil
  | i :: l, h => by
    rw [encodeAll, List.length_append] at h
    rw [encodeAll]
    exact .cons _ _ i l (spells_encode i (by omega)) (spellsAll_encodeAll l (by omega))

end

/-! ## Numbers without leading zeros -/

theorem byteCount_le_of_lt {n k : Nat} (h : n < 256 ^ k) : byteCount n ≤ k := by
  unfold byteCount
  by_cases hn : n = 0
  · simp [hn]
  · rw [if_neg hn]
    have hlog : n.log2 < 8 * k := (Nat.log2_lt hn).2 (by rwa [Nat.pow_mul])
    omega

theorem beValue_cons (b : UInt8) (bs : Bytes) : beValue (b :: bs) = 256 ^ bs.length * b.toNat + beValue bs := by
  have hfold := foldl_beValue (b :: bs) 0
  rw [Nat.mul_zero, Nat.zero_add] at hfold
  rw [← hfold, List.foldl_cons, foldl_beValue, Nat.mul_zero, Nat.zero_add]

/-- Bytes that do not begin with a zero are the shortest of their number. -/
theorem scalar_beValue {bs : Bytes} (h : bs.head? ≠ some 0) : scalar (beValue bs) = bs := by
  have hcount : byteCount (beValue bs) = bs.length := by
    apply Nat.le_antisymm
    · exact byteCount_le_of_lt (beValue_lt bs)
    · cases bs with
      | nil => exact Nat.zero_le _
      | cons b bs =>
        have hb : 1 ≤ b.toNat := by
          apply Nat.pos_of_ne_zero
          intro hzero
          exact h (by rw [List.head?_cons, UInt8.toNat_inj.1 (hzero.trans UInt8.toNat_zero.symm)])
        have hlow : 256 ^ bs.length ≤ beValue (b :: bs) := by
          rw [beValue_cons]
          exact Nat.le_add_right_of_le (Nat.le_mul_of_pos_right _ hb)
        have hpow : 256 ^ bs.length < 256 ^ byteCount (beValue (b :: bs)) :=
          Nat.lt_of_le_of_lt hlow (lt_pow_byteCount _)
        exact (Nat.pow_lt_pow_iff_right (by decide)).1 hpow
  rw [scalar, hcount, be_beValue]

theorem beValue_dropWhile (bs : Bytes) : beValue (bs.dropWhile (· == 0)) = beValue bs := by
  induction bs with
  | nil => rfl
  | cons b bs ih =>
    by_cases hb : b = 0
    · subst hb
      rw [List.dropWhile_cons_of_pos rfl, ih, beValue_cons]
      simp
    · rw [List.dropWhile_cons_of_neg (by simpa using hb)]

/-- Leading zeros are all that the shortest bytes leave out. -/
theorem dropWhile_zeros (bs : Bytes) : bs.dropWhile (· == 0) = scalar (beValue bs) := by
  rw [← beValue_dropWhile, scalar_beValue]
  intro hhead
  have hne : bs.dropWhile (· == 0) ≠ [] := by
    intro hnil
    rw [hnil] at hhead
    cases hhead
  have hnot := List.head_dropWhile_not (· == (0 : UInt8)) hne
  rw [List.head?_eq_some_head hne, Option.some.injEq] at hhead
  rw [hhead] at hnot
  cases hnot

theorem scalar_inj {m n : Nat} (h : scalar m = scalar n) : m = n := by
  rw [← beValue_scalar m, h, beValue_scalar]

/-! ## Canonical forms are told apart -/

/-- The first byte of an announcement lies in its quarter of the bytes. -/
theorem head_first {base n : Nat} (hbase : base ≤ 0xc0) (hn : n < 2 ^ 64) : ∃ x rest, head base n = x :: rest ∧
    base ≤ x.toNat ∧ x.toNat < base + 64 := by
  have hcount := byteCount_le hn
  unfold head
  by_cases hsmall : n < 56
  · rw [if_pos hsmall]
    refine ⟨_, _, rfl, ?_⟩
    rw [UInt8.toNat_ofNat']
    omega
  · rw [if_neg hsmall]
    refine ⟨_, _, rfl, ?_⟩
    rw [UInt8.toNat_ofNat']
    omega

theorem head_inj {base n n' : Nat} {r r' : Bytes} (hbase : base ≤ 0xc0) (hn : n < 2 ^ 64) (hn' : n' < 2 ^ 64)
    (h : head base n ++ r = head base n' ++ r') : n = n' ∧ r = r' := by
  have hcount := byteCount_le hn
  have hcount' := byteCount_le hn'
  have hpos {m : Nat} (hm : ¬ m < 56) : 1 ≤ byteCount m := by
    unfold byteCount
    rw [if_neg (by omega)]
    omega
  have hfirst {a b : Nat} (hab : UInt8.ofNat a = UInt8.ofNat b) (ha : a < 256) (hb : b < 256) : a = b := by
    have hval := congrArg UInt8.toNat hab
    rw [UInt8.toNat_ofNat', UInt8.toNat_ofNat'] at hval
    omega
  unfold head at h
  by_cases hsmall : n < 56
  · by_cases hsmall' : n' < 56
    · rw [if_pos hsmall, if_pos hsmall', List.cons_append, List.cons_append, List.cons.injEq] at h
      have heq := hfirst h.1 (by omega) (by omega)
      exact ⟨by omega, h.2⟩
    · rw [if_pos hsmall, if_neg hsmall', List.cons_append, List.cons_append, List.cons.injEq] at h
      have heq := hfirst h.1 (by omega) (by omega)
      have hone := hpos hsmall'
      omega
  · by_cases hsmall' : n' < 56
    · rw [if_neg hsmall, if_pos hsmall', List.cons_append, List.cons_append, List.cons.injEq] at h
      have heq := hfirst h.1 (by omega) (by omega)
      have hone := hpos hsmall
      omega
    · rw [if_neg hsmall, if_neg hsmall', List.cons_append, List.cons_append, List.cons.injEq] at h
      have heq := hfirst h.1 (by omega) (by omega)
      have hlen : (scalar n).length = (scalar n').length := by
        rw [scalar, scalar, length_be, length_be]
        omega
      obtain ⟨hnum, hrest⟩ := List.append_inj h.2 hlen
      exact ⟨scalar_inj hnum, hrest⟩

theorem encode_bytes (b : Bytes) : encode (.bytes b) =
    if b.length = 1 ∧ (b.headD 0).toNat < 0x80 then b else head 0x80 b.length ++ b := by
  cases b with
  | nil => rfl
  | cons x b =>
    rw [encode]
    by_cases hone : b = [] ∧ x.toNat < 0x80
    · obtain ⟨rfl, hx⟩ := hone
      rw [if_pos ⟨rfl, hx⟩, if_pos ⟨rfl, hx⟩]
    · rw [if_neg hone, if_neg]
      · rfl
      · rintro ⟨hlen, hx⟩
        exact hone ⟨List.eq_nil_of_length_eq_zero (by simpa using hlen), hx⟩

/-- What begins a byte string is below what begins a list. -/
theorem encode_bytes_first {b : Bytes} (hb : b.length < 2 ^ 64) : ∃ x rest, encode (.bytes b) = x :: rest ∧
    x.toNat < 0xc0 := by
  rw [encode_bytes]
  by_cases hone : b.length = 1 ∧ (b.headD 0).toNat < 0x80
  · rw [if_pos hone]
    obtain ⟨x, rfl⟩ := List.length_eq_one_iff.1 hone.1
    exact ⟨x, [], rfl, Nat.lt_trans hone.2 (by decide)⟩
  · obtain ⟨x, rest, hhead, -, hx⟩ := @head_first 0x80 _ (by decide) hb
    rw [if_neg hone, hhead]
    exact ⟨x, rest ++ b, rfl, hx⟩

theorem encode_bytes_inj {b b' r r' : Bytes} (hb : b.length < 2 ^ 64) (hb' : b'.length < 2 ^ 64)
    (h : encode (.bytes b) ++ r = encode (.bytes b') ++ r') : b = b' ∧ r = r' := by
  have hmixed {b b' r r' : Bytes} (hb' : b'.length < 2 ^ 64) (hone : b.length = 1 ∧ (b.headD 0).toNat < 0x80)
      (h : b ++ r = head 0x80 b'.length ++ b' ++ r') : False := by
    obtain ⟨x, rest, hhead, hx, -⟩ := @head_first 0x80 _ (by decide) hb'
    obtain ⟨y, rfl⟩ := List.length_eq_one_iff.1 hone.1
    rw [hhead, List.singleton_append, List.cons_append, List.cons_append, List.cons.injEq] at h
    have hy : y.toNat < 0x80 := hone.2
    rw [h.1] at hy
    omega
  rw [encode_bytes, encode_bytes] at h
  by_cases hone : b.length = 1 ∧ (b.headD 0).toNat < 0x80
  · by_cases hone' : b'.length = 1 ∧ (b'.headD 0).toNat < 0x80
    · rw [if_pos hone, if_pos hone'] at h
      exact List.append_inj h (hone.1.trans hone'.1.symm)
    · rw [if_pos hone, if_neg hone'] at h
      exact absurd h (hmixed hb' hone)
  · by_cases hone' : b'.length = 1 ∧ (b'.headD 0).toNat < 0x80
    · rw [if_neg hone, if_pos hone'] at h
      exact absurd h.symm (hmixed hb hone')
    · rw [if_neg hone, if_neg hone', List.append_assoc, List.append_assoc] at h
      obtain ⟨hlen, hrest⟩ := head_inj (by decide) hb hb' h
      exact List.append_inj hrest hlen

theorem head_ne_nil (base n : Nat) : head base n ≠ [] := by
  unfold head
  split <;> exact List.cons_ne_nil _ _

theorem encode_ne_nil (i : Item) : encode i ≠ [] := by
  cases i with
  | bytes b =>
    rw [encode_bytes]
    split
    · rename_i hone
      intro hnil
      rw [hnil] at hone
      cases hone.1
    · exact fun hnil => head_ne_nil _ _ (List.append_eq_nil_iff.1 hnil).1
  | list l =>
    rw [encode]
    exact fun hnil => head_ne_nil _ _ (List.append_eq_nil_iff.1 hnil).1

theorem length_of_encode_bytes {b : Bytes} (h : (encode (.bytes b)).length < 2 ^ 64) : b.length < 2 ^ 64 := by
  rw [encode_bytes] at h
  split at h
  · exact h
  · rw [List.length_append] at h
    omega

theorem encode_bytes_ne_list {b : Bytes} {l : List Item} {r r' : Bytes} (hi : (encode (.bytes b)).length < 2 ^ 64)
    (hj : (encode (.list l)).length < 2 ^ 64) : encode (.bytes b) ++ r ≠ encode (.list l) ++ r' := by
  intro h
  obtain ⟨x, rest, hx, hlow⟩ := encode_bytes_first (length_of_encode_bytes hi)
  rw [encode, List.length_append] at hj
  obtain ⟨y, rest', hy, hhigh, -⟩ := @head_first 0xc0 (encodeAll l).length (by decide) (by omega)
  rw [hx, encode, hy, List.cons_append, List.cons_append, List.cons_append, List.cons.injEq] at h
  rw [h.1] at hlow
  omega

mutual

/-- Equal bytes are of equal items, whatever follows. -/
theorem encode_inj : ∀ (i j : Item) (r r' : Bytes), (encode i).length < 2 ^ 64 → (encode j).length < 2 ^ 64 →
    encode i ++ r = encode j ++ r' → i = j ∧ r = r'
  | .bytes b, .bytes b', r, r', hi, hj, h => by
    obtain ⟨rfl, hr⟩ := encode_bytes_inj (length_of_encode_bytes hi) (length_of_encode_bytes hj) h
    exact ⟨rfl, hr⟩
  | .bytes b, .list l, r, r', hi, hj, h => by
    exact absurd h (encode_bytes_ne_list hi hj)
  | .list l, .bytes b, r, r', hi, hj, h => by
    exact absurd h.symm (encode_bytes_ne_list hj hi)
  | .list l, .list l', r, r', hi, hj, h => by
    rw [encode, List.length_append] at hi hj
    rw [encode, encode, List.append_assoc, List.append_assoc] at h
    obtain ⟨hlen, hrest⟩ := head_inj (by decide) (by omega) (by omega) h
    obtain ⟨hall, hr⟩ := List.append_inj hrest hlen
    exact ⟨by rw [encodeAll_inj l l' (by omega) (by omega) hall], hr⟩

theorem encodeAll_inj : ∀ (l l' : List Item), (encodeAll l).length < 2 ^ 64 → (encodeAll l').length < 2 ^ 64 →
    encodeAll l = encodeAll l' → l = l'
  | [], [], _, _, _ => rfl
  | [], j :: l', _, _, h => by
    rw [encodeAll, encodeAll] at h
    exact absurd (List.append_eq_nil_iff.1 h.symm).1 (encode_ne_nil j)
  | i :: l, [], _, _, h => by
    rw [encodeAll, encodeAll] at h
    exact absurd (List.append_eq_nil_iff.1 h).1 (encode_ne_nil i)
  | i :: l, j :: l', hl, hl', h => by
    rw [encodeAll, List.length_append] at hl hl'
    rw [encodeAll, encodeAll] at h
    obtain ⟨rfl, hrest⟩ := encode_inj i j _ _ (by omega) (by omega) h
    rw [encodeAll_inj l l' (by omega) (by omega) hrest]

end

end Rlp
