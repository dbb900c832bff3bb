import PwndaWallet.Lib.Bits
import PwndaWallet.Seed.Polyseed

/-!
# The law of polyseed

Fifteen words and the data they pack determine each other: both are the same 150 bits of the secret and 15 bits
of features and birthday. The checksum is the value of a polynomial at the element 2 of GF(2^11): doubling is
linear and one to one, and no element but zero comes back to itself within fifteen doublings, so that neither one
changed word nor two swapped ones nor another coin keeps the value at zero.
-/

namespace Seed

open Js Bits

/-! ## Doubling -/

/-- Doubling by arithmetic alone. -/
def twice (x : Nat) : Nat := Nat.xor (Nat.mul 2 x) (Nat.mul 2053 (Nat.div x 1024))

theorem gfMul2_table : (List.range 2048).all (fun x => Nat.beq (gfMul2 x) (twice x) && Nat.blt (twice x) 2048) = true := by
  decide +kernel

theorem gfMul2_eq {x : Nat} (hx : x < 2048) : gfMul2 x = twice x ∧ twice x < 2048 := by
  have h := List.all_eq_true.1 gfMul2_table x (List.mem_range.2 hx)
  simpa using h

theorem gfMul2_lt {x : Nat} (hx : x < 2048) : gfMul2 x < 2048 := by
  rw [(gfMul2_eq hx).1]
  exact (gfMul2_eq hx).2

theorem xor_lt {x y : Nat} (hx : x < 2048) (hy : y < 2048) : x ^^^ y < 2048 :=
  Nat.xor_lt_two_pow (n := 11) hx hy

theorem twice_eq (x : Nat) : twice x = (x <<< 1) ^^^ (2053 * (x >>> 10)) := by
  rw [Nat.shiftLeft_eq, Nat.shiftRight_eq_div_pow, Nat.mul_comm x]
  rfl

theorem gfMul2_xor {x y : Nat} (hx : x < 2048) (hy : y < 2048) : gfMul2 (x ^^^ y) = gfMul2 x ^^^ gfMul2 y := by
  have htop (z : Nat) (hz : z < 2048) : z >>> 10 = 0 ∨ z >>> 10 = 1 := by
    rw [Nat.shiftRight_eq_div_pow]
    omega
  rw [(gfMul2_eq hx).1, (gfMul2_eq hy).1, (gfMul2_eq (xor_lt hx hy)).1, twice_eq, twice_eq, twice_eq,
    Nat.shiftLeft_xor_distrib, Nat.shiftRight_xor_distrib]
  rcases htop x hx with hx | hx <;> rcases htop y hy with hy | hy <;>
    simp [hx, hy, Nat.xor_assoc, Nat.xor_comm, Nat.xor_left_comm]

theorem xor_eq_zero {x y : Nat} : x ^^^ y = 0 ↔ x = y := by
  constructor
  · intro h
    have hxy := congrArg (· ^^^ y) h
    simpa [Nat.xor_assoc] using hxy
  · rintro rfl
    exact Nat.xor_self x

/-- Doubling, `n` times. -/
def doubled : Nat → Nat → Nat
  | 0, x => x
  | n + 1, x => gfMul2 (doubled n x)

theorem doubled_lt {x : Nat} (hx : x < 2048) (n : Nat) : doubled n x < 2048 := by
  induction n with
  | zero => exact hx
  | succ n ih => exact gfMul2_lt ih

theorem doubled_xor {x y : Nat} (hx : x < 2048) (hy : y < 2048) (n : Nat) :
    doubled n (x ^^^ y) = doubled n x ^^^ doubled n y := by
  induction n with
  | zero => rfl
  | succ n ih => rw [doubled, doubled, doubled, ih, gfMul2_xor (doubled_lt hx n) (doubled_lt hy n)]

/-- None of the next `n` doublings of `y` is `x`. -/
def apart (x : Nat) : Nat → Nat → Bool
  | 0, _ => true
  | n + 1, y =>
    match Nat.beq (twice y) x with
    | true => false
    | false => apart x n (twice y)

theorem apart_table : (List.range' 1 2047).all (fun x => apart x 15 x) = true := by decide +kernel

theorem apart_doubled {x n m : Nat} (hx : x < 2048) (h : apart x n (doubled m x) = true) {i : Nat} (hi : i < n) :
    doubled (m + i + 1) x ≠ x := by
  induction n generalizing m i with
  | zero => omega
  | succ n ih =>
    have hstep : doubled (m + 1) x = twice (doubled m x) := (gfMul2_eq (doubled_lt hx m)).1
    rw [apart, ← hstep] at h
    cases hback : Nat.beq (doubled (m + 1) x) x with
    | true =>
      rw [hback] at h
      cases h
    | false =>
      rw [hback] at h
      cases i with
      | zero => exact Nat.ne_of_beq_eq_false hback
      | succ i =>
        have hrest := ih h (i := i) (by omega)
        rwa [show m + 1 + i + 1 = m + (i + 1) + 1 by omega] at hrest

/-- Within fifteen doublings only zero comes back. -/
theorem doubled_ne {x : Nat} (hx : x < 2048) (hne : x ≠ 0) {n : Nat} (hn : n < 15) : doubled (n + 1) x ≠ x := by
  have h := List.all_eq_true.1 apart_table x (List.mem_range'_1.2 ⟨by omega, by omega⟩)
  have hdoubled := apart_doubled (m := 0) hx h hn
  rwa [Nat.zero_add] at hdoubled

theorem gfMul2_inj {x y : Nat} (hx : x < 2048) (hy : y < 2048) (h : gfMul2 x = gfMul2 y) : x = y := by
  have hzero : gfMul2 (x ^^^ y) = 0 := by rw [gfMul2_xor hx hy, h, Nat.xor_self]
  by_contra hne
  have hd : x ^^^ y ≠ 0 := fun h => hne (xor_eq_zero.1 h)
  have hlt := xor_lt hx hy
  rw [(gfMul2_eq hlt).1, twice_eq, xor_eq_zero, Nat.shiftLeft_eq, Nat.shiftRight_eq_div_pow] at hzero
  clear h hne hx hy
  generalize x ^^^ y = d at hd hlt hzero
  have htop : d / 2 ^ 10 = 0 ∨ d / 2 ^ 10 = 1 := by omega
  rcases htop with htop | htop <;> rw [htop] at hzero <;> omega

/-! ## The checksum -/

/-- The polynomial's value, from the lowest coefficient. -/
def horner : List Nat → Nat
  | [] => 0
  | c :: cs => gfMul2 (horner cs) ^^^ c

theorem horner_lt {cs : List Nat} (h : ∀ c ∈ cs, c < 2048) : horner cs < 2048 := by
  induction cs with
  | nil => decide
  | cons c cs ih =>
    exact xor_lt (gfMul2_lt (ih fun d hd => h d (List.mem_cons_of_mem _ hd))) (h c List.mem_cons_self)

theorem gfPolyEval_eq {cs : List Nat} (hlen : cs.length = 16) : gfPolyEval cs = horner cs := by
  have hfoldr (l : List Nat) (c : Nat) : l.foldr (fun c result => gfMul2 result ^^^ c) c = horner (l ++ [c]) := by
    induction l with
    | nil => simp [horner, show gfMul2 0 = 0 from rfl]
    | cons d l ih => rw [List.foldr_cons, ih, List.cons_append, horner]
  have hlast : cs.take 15 ++ [cs.getD 15 0] = cs := by
    rw [List.getD_eq_getElem _ _ (by omega), List.take_append_getElem (by omega)]
    exact List.take_of_length_le (by omega)
  rw [gfPolyEval, hfoldr]
  exact congrArg horner hlast

section

variable {m u v : List Nat} (hm : ∀ c ∈ m, c < 2048) (hu : ∀ c ∈ u, c < 2048) (hv : ∀ c ∈ v, c < 2048)

theorem forall_append (hm : ∀ c ∈ m, c < 2048) (hu : ∀ c ∈ u, c < 2048) : ∀ c ∈ m ++ u, c < 2048 := fun c hc => by
  rcases List.mem_append.1 hc with hc | hc
  · exact hm c hc
  · exact hu c hc

include hm hu hv

/-- A difference is doubled with each coefficient before it. -/
theorem horner_append_xor : horner (m ++ u) ^^^ horner (m ++ v) = doubled m.length (horner u ^^^ horner v) := by
  induction m with
  | nil => rfl
  | cons c m ih =>
    have hm' : ∀ d ∈ m, d < 2048 := fun d hd => hm d (List.mem_cons_of_mem _ hd)
    have hmu := horner_lt (forall_append hm' hu)
    have hmv := horner_lt (forall_append hm' hv)
    rw [List.length_cons, doubled, ← ih hm', gfMul2_xor hmu hmv, List.cons_append, List.cons_append, horner, horner,
      Nat.xor_assoc, Nat.xor_comm c, Nat.xor_assoc, Nat.xor_self, Nat.xor_zero]

theorem horner_append_inj (h : horner (m ++ u) = horner (m ++ v)) : horner u = horner v := by
  induction m with
  | nil => exact h
  | cons c m ih =>
    have hm' : ∀ d ∈ m, d < 2048 := fun d hd => hm d (List.mem_cons_of_mem _ hd)
    have hmu := horner_lt (forall_append hm' hu)
    have hmv := horner_lt (forall_append hm' hv)
    exact ih hm' (gfMul2_inj hmu hmv (Nat.xor_left_injective h))

end

theorem forall_cons {x : Nat} {b : List Nat} (hx : x < 2048) (hb : ∀ c ∈ b, c < 2048) : ∀ c ∈ x :: b, c < 2048 :=
  List.forall_mem_cons.2 ⟨hx, hb⟩

section

variable {a b m : List Nat} {x y : Nat} (ha : ∀ c ∈ a, c < 2048) (hb : ∀ c ∈ b, c < 2048) (hx : x < 2048)
  (hy : y < 2048) (hne : x ≠ y)
include ha hb hx hy hne

/-- One changed coefficient changes the value. -/
theorem horner_ne_of_one : horner (a ++ x :: b) ≠ horner (a ++ y :: b) := by
  intro h
  have hrest := horner_append_inj ha (forall_cons hx hb) (forall_cons hy hb) h
  exact hne (Nat.xor_right_injective hrest)

/-- Two swapped coefficients change the value. -/
theorem horner_ne_of_swap (hm : ∀ c ∈ m, c < 2048) (hlen : m.length < 15) :
    horner (a ++ x :: (m ++ y :: b)) ≠ horner (a ++ y :: (m ++ x :: b)) := by
  intro h
  have hxb := forall_cons hx hb
  have hyb := forall_cons hy hb
  have hrest := horner_append_inj ha (forall_cons hx (forall_append hm hyb)) (forall_cons hy (forall_append hm hxb)) h
  rw [horner, horner] at hrest
  have hlow : horner (y :: b) ^^^ horner (x :: b) = x ^^^ y := by
    rw [horner, horner, Nat.xor_assoc, Nat.xor_comm y, Nat.xor_assoc, ← Nat.xor_assoc, Nat.xor_self, Nat.zero_xor]
  have hback : doubled (m.length + 1) (x ^^^ y) = x ^^^ y := by
    rw [doubled, ← hlow, ← horner_append_xor hm hyb hxb,
      gfMul2_xor (horner_lt (forall_append hm hyb)) (horner_lt (forall_append hm hxb)), hlow]
    have hmove := congrArg (fun z => z ^^^ x ^^^ gfMul2 (horner (m ++ x :: b))) hrest
    simpa [Nat.xor_assoc, Nat.xor_comm, Nat.xor_left_comm] using hmove
  exact doubled_ne (xor_lt hx hy) (fun h => hne (xor_eq_zero.1 h)) hlen hback

end

/-! ## The bits of a secret -/

/-- The first bits of a secret: of the last byte those that are left, the lowest. -/
def secretBits : List UInt8 → Nat → List Bool
  | [], _ => []
  | b :: bs, rem => bits (min rem 8) b.toNat ++ secretBits bs (rem - min rem 8)

/-- The ten bits of a word that belong to the secret. -/
def share (c : Nat) : List Bool := bits 10 (c >>> 1)

/-- The bit of a word that belongs to the features and the birthday. -/
def extra (c : Nat) : Bool := c.testBit 0

theorem secretBits_zero (bs : List UInt8) : secretBits bs 0 = [] := by
  induction bs with
  | nil => rfl
  | cons b bs ih => simp [secretBits, ih]

theorem length_secretBits {bs : List UInt8} {n : Nat} (h : n ≤ 8 * bs.length) : (secretBits bs n).length = n := by
  induction bs generalizing n with
  | nil =>
    have hn : n = 0 := by simpa using h
    simp [hn, secretBits]
  | cons b bs ih =>
    rw [List.length_cons] at h
    rw [secretBits, List.length_append, length_bits, ih (by omega)]
    omega

theorem secretBits_split {bs : List UInt8} {n r : Nat} (hn : n < bs.length) (hr : r ≤ 8) :
    secretBits bs (8 * n + r) = (bs.take n).flatMap (fun b => bits 8 b.toNat) ++ bits r (bs.getD n 0).toNat := by
  induction bs generalizing n with
  | nil => simp at hn
  | cons b bs ih =>
    cases n with
    | zero =>
      rw [secretBits, Nat.mul_zero, Nat.zero_add, Nat.min_eq_left hr, Nat.sub_self, secretBits_zero]
      simp
    | succ n =>
      have hn : n < bs.length := by simpa using hn
      rw [secretBits, show min (8 * (n + 1) + r) 8 = 8 by omega, show 8 * (n + 1) + r - 8 = 8 * n + r by omega, ih hn]
      simp

theorem flatMap_share_inj {cs cs' : List Nat} (h : ∀ c ∈ cs, c < 2048) (h' : ∀ c ∈ cs', c < 2048)
    (hshare : cs.flatMap share = cs'.flatMap share) (hextra : cs.map extra = cs'.map extra) : cs = cs' := by
  induction cs generalizing cs' with
  | nil =>
    cases cs' with
    | nil => rfl
    | cons c' cs' => simp at hextra
  | cons c cs ih =>
    cases cs' with
    | nil => simp at hextra
    | cons c' cs' =>
      rw [List.flatMap_cons, List.flatMap_cons] at hshare
      obtain ⟨hhead, htail⟩ := List.append_inj hshare (by simp [share])
      simp only [List.map_cons, List.cons.injEq] at hextra
      have hc := h c List.mem_cons_self
      have hc' := h' c' List.mem_cons_self
      have hbits : bits 11 c = bits 11 c' := by
        rw [show (11 : Nat) = 10 + 1 from rfl, bits_add, bits_add]
        exact congrArg₂ (· ++ ·) hhead (congrArg (fun b => [b]) hextra.1)
      rw [(bits_inj (n := 11) hc hc').1 hbits, ih (fun d hd => h d (List.mem_cons_of_mem _ hd))
        (fun d hd => h' d (List.mem_cons_of_mem _ hd)) htail hextra.2]

/-! ## Packing -/

section Packing

variable (secret : List UInt8)

/-- The bits that are not packed yet. -/
def Unloading.stream (s : Unloading) : List Bool :=
  bits s.secretBitsRem s.secretVal ++ secretBits (secret.drop (s.secretIdx + 1)) s.seedRemBits

/-- The secret has the bytes that are still to be loaded. -/
def Unloading.Stocked (s : Unloading) : Prop := s.seedRemBits ≤ 8 * (secret.drop (s.secretIdx + 1)).length

variable {secret} {s : Unloading}

theorem Unloading.length_stream (h : s.Stocked secret) :
    (s.stream secret).length = s.secretBitsRem + s.seedRemBits := by
  rw [stream, List.length_append, length_bits, length_secretBits h]

theorem Unloading.load_spec (h : s.Stocked secret) : (s.load secret).stream secret = s.stream secret ∧
    (s.load secret).Stocked secret ∧ (0 < (s.stream secret).length → 0 < (s.load secret).secretBitsRem) := by
  have hlen := length_stream h
  unfold load
  by_cases hrem : s.secretBitsRem = 0
  · rw [if_pos hrem]
    by_cases hseed : s.seedRemBits = 0
    · refine ⟨by simp [stream, hrem, hseed, secretBits_zero], by simp [Stocked, hseed], fun hpos => ?_⟩
      omega
    · have hidx : s.secretIdx + 1 < secret.length := by
        rw [Stocked, List.length_drop] at h
        omega
      have hdrop : secret.drop (s.secretIdx + 1) = secret.getD (s.secretIdx + 1) 0 :: secret.drop (s.secretIdx + 1 + 1) := by
        rw [List.getD_eq_getElem _ _ hidx]
        exact List.drop_eq_getElem_cons hidx
      refine ⟨?_, ?_, fun _ => by simp only; omega⟩
      · simp only [stream, hrem, bits_zero, List.nil_append]
        rw [hdrop, secretBits]
      · rw [Stocked, hdrop, List.length_cons] at h
        simp only [Stocked]
        omega
  · rw [if_neg hrem]
    exact ⟨rfl, h, fun _ => Nat.pos_of_ne_zero hrem⟩

/-- A turn moves bits from the stream to the word. -/
theorem bits_chunk {rem n : Nat} (val wordBits wordVal : Nat) (h : n ≤ rem) :
    bits (wordBits + n) (wordVal <<< n ||| (val >>> (rem - n)) &&& (1 <<< n - 1)) =
      bits wordBits wordVal ++ (bits rem val).take n := by
  rw [Nat.one_shiftLeft, Nat.and_two_pow_sub_one_eq_mod, bits_shiftLeft_or _ _ (Nat.mod_lt _ (Nat.two_pow_pos n)),
    bits_mod, bits_take val h]

theorem fillWord_spec {n wordBits wordVal : Nat} (h : s.Stocked secret) (hbits : wordBits ≤ SHARE_BITS)
    (hn : SHARE_BITS - wordBits ≤ n) (hlen : SHARE_BITS - wordBits ≤ (s.stream secret).length) :
    let r := fillWord secret n s wordBits wordVal
    bits SHARE_BITS r.2 = bits wordBits wordVal ++ (s.stream secret).take (SHARE_BITS - wordBits) ∧
      r.1.stream secret = (s.stream secret).drop (SHARE_BITS - wordBits) ∧ r.1.Stocked secret := by
  induction n generalizing s wordBits wordVal with
  | zero =>
    have hfull : wordBits = SHARE_BITS := by omega
    subst hfull
    simpa [fillWord] using h
  | succ n ih =>
    rw [fillWord]
    by_cases hlt : wordBits < SHARE_BITS
    · rw [if_pos hlt]
      obtain ⟨hstream, hstocked, hpos⟩ := Unloading.load_spec h
      have hrem := hpos (by omega)
      rw [← hstream] at hlen ⊢
      generalize s.load secret = t at hstocked hrem hlen ⊢
      have htlen := Unloading.length_stream hstocked
      obtain ⟨n', hn'⟩ : ∃ n', min t.secretBitsRem (SHARE_BITS - wordBits) = n' := ⟨_, rfl⟩
      have hsplit : t.stream secret = (bits t.secretBitsRem t.secretVal).take n' ++
          ({ t with secretBitsRem := t.secretBitsRem - n' } : Unloading).stream secret := by
        have htake : (bits t.secretBitsRem t.secretVal).drop n' = bits (t.secretBitsRem - n') t.secretVal := by
          have hdrop := bits_drop t.secretVal (m := t.secretBitsRem - n') (n := t.secretBitsRem) (by omega)
          rwa [show t.secretBitsRem - (t.secretBitsRem - n') = n' by omega] at hdrop
        simp only [Unloading.stream]
        rw [← htake, ← List.append_assoc, List.take_append_drop]
      have htaken : ((bits t.secretBitsRem t.secretVal).take n').length = n' := by
        rw [List.length_take, length_bits]
        omega
      have hle : ((bits t.secretBitsRem t.secretVal).take n').length ≤ SHARE_BITS - wordBits := by omega
      have hrest := congrArg List.length hsplit
      rw [List.length_append, htaken] at hrest
      have hstep := @ih { t with secretBitsRem := t.secretBitsRem - n' } (wordBits + n')
        (wordVal <<< n' ||| (t.secretVal >>> (t.secretBitsRem - n')) &&& (1 <<< n' - 1)) hstocked (by omega)
        (by omega) (by omega)
      rw [← Nat.sub_sub] at hstep
      simp only [hn']
      refine ⟨?_, ?_, hstep.2.2⟩
      · rw [hstep.1, bits_chunk _ _ _ (by omega), List.append_assoc, hsplit, List.take_append,
          List.take_of_length_le hle, htaken]
      · rw [hstep.2.1, hsplit, List.drop_append, List.drop_of_length_le hle, List.nil_append, htaken]
    · rw [if_neg hlt]
      have hfull : wordBits = SHARE_BITS := by omega
      subst hfull
      simpa using h

theorem word_spec (wordVal e : Nat) : let c := (wordVal <<< 1 ||| e &&& 1) &&& 0x7ff
    c < 2048 ∧ share c = bits 10 wordVal ∧ extra c = e.testBit 0 := by
  have hx : e &&& 1 < 2 ^ 1 := by
    rw [Nat.and_one_is_mod]
    omega
  have hmask : (wordVal <<< 1 ||| e &&& 1) &&& 0x7ff = (wordVal <<< 1 ||| e &&& 1) % 2 ^ 11 :=
    Nat.and_two_pow_sub_one_eq_mod _ 11
  rw [hmask]
  generalize hc : (wordVal <<< 1 ||| e &&& 1) % 2 ^ 11 = c
  have hbits : bits (10 + 1) c = bits 10 wordVal ++ bits 1 (e &&& 1) := by
    rw [← hc, bits_mod, bits_shiftLeft_or _ _ hx]
  rw [bits_add] at hbits
  obtain ⟨hshare, hextra⟩ := List.append_inj hbits (by simp)
  refine ⟨?_, hshare, ?_⟩
  · rw [← hc]
    exact Nat.mod_lt _ (by decide)
  · have hbit : c.testBit 0 = (e &&& 1).testBit 0 := (List.cons.inj hextra).1
    rw [extra, hbit]
    simp

theorem packWords_spec {n extraVal : Nat} (h : s.Stocked secret) (hlen : 10 * n ≤ (s.stream secret).length) :
    let r := packWords secret extraVal n s
    r.1.length = n ∧ (∀ c ∈ r.1, c < 2048) ∧ r.1.flatMap share = (s.stream secret).take (10 * n) ∧
      r.1.map extra = bits n extraVal ∧ r.2.stream secret = (s.stream secret).drop (10 * n) ∧
      r.2.Stocked secret := by
  induction n generalizing s with
  | zero => simpa [packWords] using h
  | succ n ih =>
    obtain ⟨hword, hstream, hstocked⟩ := @fillWord_spec _ _ SHARE_BITS 0 0 h (by decide)
      (by decide) (by rw [show SHARE_BITS - 0 = 10 from rfl]; omega)
    rw [packWords]
    generalize fillWord secret SHARE_BITS s 0 0 = r at hword hstream hstocked
    obtain ⟨s', wordVal⟩ := r
    simp only [bits_zero, List.nil_append, show SHARE_BITS - 0 = 10 from rfl, show SHARE_BITS = 10 from rfl]
      at hword hstream hstocked
    obtain ⟨hlt, hshare, hextra⟩ := word_spec wordVal (extraVal >>> n)
    obtain ⟨hlength, hall, htake, hmap, hdrop, hstock⟩ := ih hstocked (by rw [hstream, List.length_drop]; omega)
    have htwo : 10 * (n + 1) = 10 + 10 * n := by omega
    refine ⟨by simp only [List.length_cons, hlength], forall_cons hlt hall, ?_, ?_, ?_, hstock⟩
    · simp only [List.flatMap_cons]
      rw [hshare, hword, htake, hstream, htwo, List.take_add]
    · simp only [List.map_cons]
      rw [hextra, hmap, bits, Nat.testBit_shiftRight, Nat.add_zero]
    · simp only
      rw [hdrop, hstream, htwo, List.drop_drop]

end Packing

/-- What fits into a phrase: a secret of 150 bits in its buffer, ten bits of birthday, five bits of features. -/
structure PolyseedData.Fits (data : PolyseedData) : Prop where
  birthday : data.birthday < 1024
  features : data.features < 32
  length : data.secret.length = 32
  last : (data.secret.getD 18 0).toNat < 64
  padding : data.secret.drop 19 = List.replicate 13 0

/-- Coefficients are the words of data: they pack the same bits. -/
structure Packs (data : PolyseedData) (cs : List Nat) : Prop where
  length : cs.length = 15
  lt (c : Nat) : c ∈ cs → c < 2048
  secret : cs.flatMap share = secretBits data.secret 150
  extra : cs.map extra = bits 15 data.extraVal

theorem polyseedDataToPoly_spec {data : PolyseedData} (hlen : data.secret.length = 32) :
    ∃ cs, polyseedDataToPoly data = .ok cs ∧ Packs data cs := by
  obtain ⟨first, rest, hsecret⟩ : ∃ b bs, data.secret = b :: bs := by
    cases hs : data.secret with
    | nil => simp [hs] at hlen
    | cons b bs => exact ⟨b, bs, rfl⟩
  have hstocked : (Unloading.start data.secret).Stocked data.secret := by
    simp only [Unloading.Stocked, Unloading.start, List.length_drop, hlen]
    decide
  have hstream : (Unloading.start data.secret).stream data.secret = secretBits data.secret 150 := by
    simp only [Unloading.stream, Unloading.start, hsecret]
    rfl
  have hslen : ((Unloading.start data.secret).stream data.secret).length = 150 := Unloading.length_stream hstocked
  obtain ⟨hlength, hall, htake, hmap, hdrop, hstock⟩ := @packWords_spec _ _ DATA_WORDS data.extraVal
    hstocked (by rw [hslen]; decide)
  have hend := Unloading.length_stream hstock
  rw [hdrop, List.length_drop, hslen, show 150 - 10 * DATA_WORDS = 0 from rfl] at hend
  have hdone : ¬ ((packWords data.secret data.extraVal DATA_WORDS (.start data.secret)).2.seedRemBits ≠ 0 ∨
      (packWords data.secret data.extraVal DATA_WORDS (.start data.secret)).2.secretBitsRem ≠ 0) := by
    omega
  have hreturns : polyseedDataToPoly data =
      .ok (packWords data.secret data.extraVal DATA_WORDS (.start data.secret)).1 := by
    unfold polyseedDataToPoly
    exact if_neg hdone
  refine ⟨_, hreturns, hlength, hall, ?_, hmap⟩
  · rw [htake, hstream]
    exact List.take_of_length_le (by rw [← hstream, hslen]; decide)

/-! ## Unpacking -/

section Unpacking

variable {s : Filling}

/-- The bits that are written. -/
def Filling.written (s : Filling) : List Bool :=
  (s.secret.take s.secretIdx).flatMap (fun b => bits 8 b.toNat) ++
    bits s.secretBitsFilled (s.secret.getD s.secretIdx 0).toNat

/-- Behind what is written the buffer is empty. -/
structure Filling.Clean (s : Filling) : Prop where
  length : s.secret.length = 32
  idx : s.secretIdx < 32
  filled : s.secretBitsFilled ≤ 8
  lt : (s.secret.getD s.secretIdx 0).toNat < 2 ^ s.secretBitsFilled
  rest (i : Nat) : s.secretIdx < i → s.secret.getD i 0 = 0
  bytes : s.seedBitsWritten = 8 * s.secretIdx

theorem Filling.length_written (h : s.Clean) : s.written.length = 8 * s.secretIdx + s.secretBitsFilled := by
  have hlen := length_flatMap_bits 8 ((s.secret.take s.secretIdx).map UInt8.toNat)
  rw [List.flatMap_map, List.length_map, List.length_take, h.length] at hlen
  have hidx := h.idx
  rw [written, List.length_append, length_bits, hlen]
  omega

theorem Filling.next_spec (h : s.Clean) (hroom : s.written.length < 256) :
    s.next.Clean ∧ s.next.written = s.written ∧ s.next.secretBitsFilled < 8 := by
  have hlen := length_written h
  have hidx := h.idx
  unfold next
  by_cases hfull : s.secretBitsFilled = 8
  · rw [if_pos hfull]
    have hzero := h.rest (s.secretIdx + 1) (by omega)
    have htake : s.secret.take (s.secretIdx + 1) = s.secret.take s.secretIdx ++ [s.secret.getD s.secretIdx 0] := by
      rw [List.take_succ_eq_append_getElem (by rw [h.length]; omega), List.getD_eq_getElem _ _ (by rw [h.length]; omega)]
    refine ⟨⟨h.length, by simp only; omega, Nat.zero_le _, by simp only [hzero]; decide, fun i hi => h.rest i ?_, ?_⟩, ?_,
      Nat.zero_lt_succ _⟩
    · simp only at hi
      omega
    · simp only [h.bytes]
      omega
    · simp only [written, htake, hfull, List.flatMap_append]
      simp
  · rw [if_neg hfull]
    have hle := h.filled
    exact ⟨h, rfl, by omega⟩

/-- A byte takes a chunk. -/
theorem byte_spec {filled n old : Nat} (hold : old < 2 ^ filled) (hn : filled + n ≤ 8) (v : Nat) :
    let byte := (if n < 8 then old <<< n &&& 0xff else old) ||| v &&& (1 <<< n - 1)
    byte < 2 ^ (filled + n) ∧ bits (filled + n) byte = bits filled old ++ bits n v := by
  have hv : v &&& (1 <<< n - 1) = v % 2 ^ n := by rw [Nat.one_shiftLeft, Nat.and_two_pow_sub_one_eq_mod]
  have hshift : (if n < 8 then old <<< n &&& 0xff else old) = old <<< n := by
    by_cases hn8 : n < 8
    · rw [if_pos hn8]
      have hlt : old <<< n < 2 ^ 8 := by
        rw [Nat.shiftLeft_eq]
        calc old * 2 ^ n < 2 ^ filled * 2 ^ n := Nat.mul_lt_mul_of_pos_right hold (Nat.two_pow_pos n)
          _ = 2 ^ (filled + n) := (Nat.pow_add 2 filled n).symm
          _ ≤ 2 ^ 8 := Nat.pow_le_pow_right (by decide) hn
      exact (Nat.and_two_pow_sub_one_eq_mod _ 8).trans (Nat.mod_eq_of_lt hlt)
    · have hfilled : filled = 0 := by omega
      have hzero : old = 0 := by
        rw [hfilled] at hold
        omega
      rw [if_neg hn8, hzero, Nat.zero_shiftLeft]
  have hlt := Nat.mod_lt v (Nat.two_pow_pos n)
  simp only [hv, hshift]
  refine ⟨?_, by rw [bits_shiftLeft_or _ _ hlt, bits_mod]⟩
  refine Nat.or_lt_two_pow ?_ (Nat.lt_of_lt_of_le hlt (Nat.pow_le_pow_right (by decide) (by omega)))
  rw [Nat.shiftLeft_eq, Nat.pow_add]
  exact Nat.mul_lt_mul_of_pos_right hold (Nat.two_pow_pos n)

/-- A chunk of a byte is written. -/
def Filling.put (s : Filling) (n v : Nat) : Filling :=
  let old := (s.secret.getD s.secretIdx 0).toNat
  { s with secret := s.secret.set s.secretIdx
             (UInt8.ofNat ((if n < 8 then old <<< n &&& 0xff else old) ||| v &&& (1 <<< n - 1)))
           secretBitsFilled := s.secretBitsFilled + n }

theorem Filling.put_spec (h : s.Clean) {n : Nat} (hn : s.secretBitsFilled + n ≤ 8) (v : Nat) :
    (s.put n v).Clean ∧ (s.put n v).written = s.written ++ bits n v := by
  obtain ⟨hlt, hbits⟩ := byte_spec h.lt hn v
  have hidx := h.idx
  have hlen := h.length
  simp only [put]
  generalize hbyte : (if n < 8 then (s.secret.getD s.secretIdx 0).toNat <<< n &&& 0xff
    else (s.secret.getD s.secretIdx 0).toNat) ||| v &&& (1 <<< n - 1) = byte at hlt hbits ⊢
  have hsmall : byte < 256 := Nat.lt_of_lt_of_le hlt (Nat.pow_le_pow_right (by decide) hn)
  have hval : (UInt8.ofNat byte).toNat = byte := by
    rw [UInt8.toNat_ofNat']
    omega
  have hself : (s.secret.set s.secretIdx (UInt8.ofNat byte)).getD s.secretIdx 0 = UInt8.ofNat byte := by
    rw [List.getD_eq_getElem?_getD, List.getElem?_set_self (by omega), Option.getD_some]
  refine ⟨⟨?_, hidx, hn, ?_, fun i hi => ?_, h.bytes⟩, ?_⟩
  · simp only [List.length_set, hlen]
  · simp only [hself, hval]
    exact hlt
  · have hne : s.secretIdx ≠ i := Nat.ne_of_lt hi
    simp only [List.getD_eq_getElem?_getD, List.getElem?_set_ne hne]
    simpa [List.getD_eq_getElem?_getD] using h.rest i hi
  · simp only [written, hself, hval, hbits, List.append_assoc]
    rw [List.take_set_of_le (Nat.le_refl _)]

theorem emptyWord_spec {n wordBits : Nat} (wordVal : Nat) (h : s.Clean) (hn : wordBits ≤ n)
    (hroom : s.written.length + wordBits ≤ 256) :
    (emptyWord wordVal n s wordBits).Clean ∧
      (emptyWord wordVal n s wordBits).written = s.written ++ bits wordBits wordVal := by
  induction n generalizing s wordBits with
  | zero =>
    have hzero : wordBits = 0 := by omega
    subst hzero
    simpa [emptyWord] using h
  | succ n ih =>
    rw [emptyWord]
    by_cases hpos : wordBits > 0
    · rw [if_pos hpos]
      obtain ⟨hnext, hsame, hfilled⟩ := Filling.next_spec h (by omega)
      rw [← hsame] at hroom ⊢
      generalize s.next = t at hnext hfilled hroom ⊢
      obtain ⟨n', hn'⟩ : ∃ n', min wordBits (8 - t.secretBitsFilled) = n' := ⟨_, rfl⟩
      obtain ⟨hput, hwritten⟩ := Filling.put_spec hnext (n := n') (by omega) (wordVal >>> (wordBits - n'))
      have hrest := @ih _ (wordBits - n') hput (by omega) (by
        rw [hwritten, List.length_append, length_bits]
        omega)
      simp only [hn']
      have hsplit : bits wordBits wordVal = bits n' (wordVal >>> (wordBits - n')) ++ bits (wordBits - n') wordVal := by
        rw [← bits_add]
        congr 1
        omega
      rw [hsplit, ← List.append_assoc, ← hwritten]
      exact hrest
    · rw [if_neg hpos]
      have hzero : wordBits = 0 := by omega
      subst hzero
      simpa using h

theorem unpackWords_spec {cs : List Nat} {m extraVal : Nat} (h : s.Clean)
    (hroom : s.written.length + 10 * cs.length ≤ 256) :
    let r := unpackWords cs extraVal s
    r.2.Clean ∧ r.2.written = s.written ++ cs.flatMap share ∧
      bits (m + cs.length) r.1 = bits m extraVal ++ cs.map extra ∧
      (extraVal < 2 ^ m → r.1 < 2 ^ (m + cs.length)) := by
  induction cs generalizing s m extraVal with
  | nil => simpa [unpackWords] using h
  | cons c cs ih =>
    rw [List.length_cons] at hroom
    obtain ⟨hclean, hwritten⟩ := @emptyWord_spec _ SHARE_BITS SHARE_BITS (c >>> 1) h (Nat.le_refl _)
      (by rw [show SHARE_BITS = 10 from rfl]; omega)
    have hbit : c &&& 1 < 2 ^ 1 := by
      rw [Nat.and_one_is_mod]
      omega
    obtain ⟨hclean', hwritten', hextra, hlt⟩ := @ih _ (m + 1) (extraVal <<< 1 ||| c &&& 1) hclean (by
      rw [hwritten, List.length_append, length_bits, show SHARE_BITS = 10 from rfl]
      omega)
    have hlen : m + (c :: cs).length = m + 1 + cs.length := by
      rw [List.length_cons]
      omega
    rw [unpackWords, hlen]
    refine ⟨hclean', ?_, ?_, fun hm => hlt ?_⟩
    · rw [hwritten', hwritten, List.append_assoc, List.flatMap_cons]
      rfl
    · rw [hextra, bits_shiftLeft_or _ _ hbit, List.append_assoc, List.map_cons]
      simp [bits, extra]
    · refine Nat.or_lt_two_pow ?_ (Nat.lt_of_lt_of_le hbit (Nat.pow_le_pow_right (by decide) (by omega)))
      rw [Nat.shiftLeft_eq, Nat.pow_succ]
      omega

end Unpacking

theorem Filling.start_clean : Filling.start.Clean where
  length := List.length_replicate
  idx := by decide
  filled := by decide
  lt := by decide
  rest i _ := by
    by_cases hi : i < 32
    · rw [start, List.getD_eq_getElem _ _ (by simpa [SECRET_BUFFER_SIZE] using hi), List.getElem_replicate]
    · rw [start, List.getD_eq_default _ _ (by simpa [SECRET_BUFFER_SIZE] using hi)]
  bytes := rfl

theorem Packs.inj {data : PolyseedData} {cs cs' : List Nat} (h : Packs data cs) (h' : Packs data cs') : cs = cs' :=
  flatMap_share_inj h.lt h'.lt (h.secret.trans h'.secret.symm) (h.extra.trans h'.extra.symm)

theorem polyseedPolyToData_spec {c : Nat} {cs : List Nat} (hlen : cs.length = 15) (hlt : ∀ d ∈ cs, d < 2048) :
    ∃ data, polyseedPolyToData (c :: cs) = .ok data ∧ data.Fits ∧ Packs data cs := by
  have hempty : Filling.start.written = [] := rfl
  obtain ⟨hclean, hwritten, hextra, hbound⟩ := @unpackWords_spec .start cs 0 0
    Filling.start_clean (by rw [hempty, hlen]; decide)
  have hraw := hbound (by decide)
  rw [hempty, List.nil_append] at hwritten
  rw [bits_zero, List.nil_append] at hextra
  rw [hlen] at hextra hraw
  have hshare : (cs.flatMap share).length = 150 := by
    have hmap := length_flatMap_bits 10 (cs.map (· >>> 1))
    rw [List.flatMap_map, List.length_map, hlen] at hmap
    exact hmap
  have hfilled := Filling.length_written hclean
  rw [hwritten, hshare] at hfilled
  generalize hr : unpackWords cs 0 Filling.start = r at hclean hwritten hextra hraw hfilled
  have hle := hclean.filled
  have hidx : r.2.secretIdx = 18 := by omega
  have hsix : r.2.secretBitsFilled = 6 := by omega
  have hdone : ¬ (r.2.seedBitsWritten + r.2.secretBitsFilled ≠ SECRET_BITS ∨ cs.length ≠ FEATURE_BITS + DATE_BITS) := by
    rw [hclean.bytes, hidx, hsix, hlen]
    decide
  refine ⟨{ birthday := r.1 &&& DATE_MASK, features := (r.1 >>> DATE_BITS) &&& FEATURE_MASK, secret := r.2.secret,
            checksum := c }, ?_, ?_, hlen, hlt, ?_, ?_⟩
  · simp only [polyseedPolyToData, List.drop_succ_cons, List.drop_zero, hr]
    rw [if_neg hdone]
    rfl
  · have hbirthday : r.1 &&& DATE_MASK = r.1 % 2 ^ 10 := Nat.and_two_pow_sub_one_eq_mod _ 10
    have hfeatures : (r.1 >>> DATE_BITS) &&& FEATURE_MASK = (r.1 >>> DATE_BITS) % 2 ^ 5 :=
      Nat.and_two_pow_sub_one_eq_mod _ 5
    refine ⟨?_, ?_, hclean.length, ?_, ?_⟩
    · simp only [hbirthday]
      exact Nat.mod_lt _ (by decide)
    · simp only [hfeatures]
      exact Nat.mod_lt _ (by decide)
    · have hlast := hclean.lt
      rw [hidx, hsix] at hlast
      exact hlast
    · refine List.ext_getElem (by simp [hclean.length]) fun i hi _ => ?_
      have hzero := hclean.rest (19 + i) (by omega)
      rw [List.length_drop, hclean.length] at hi
      rw [List.getD_eq_getElem _ _ (by rw [hclean.length]; omega)] at hzero
      rw [List.getElem_drop, List.getElem_replicate]
      exact hzero
  · rw [← hwritten, Filling.written, hidx, hsix, show (150 : Nat) = 8 * 18 + 6 from rfl,
      secretBits_split (by rw [hclean.length]; decide) (by decide)]
  · rw [← hextra, show (15 : Nat) = 5 + 10 from rfl, Nat.zero_add, PolyseedData.extraVal]
    have hbirthday : r.1 &&& DATE_MASK = r.1 % 2 ^ 10 := Nat.and_two_pow_sub_one_eq_mod _ 10
    have hfeatures : (r.1 >>> 10) &&& FEATURE_MASK = (r.1 >>> 10) % 2 ^ 5 :=
      Nat.and_two_pow_sub_one_eq_mod _ 5
    simp only [hbirthday, hfeatures, DATE_BITS]
    rw [bits_shiftLeft_or _ _ (Nat.mod_lt _ (by decide)), bits_mod, bits_mod, bits_add]

theorem secretBits_inj {l l' : List UInt8} (hlen : l.length = 32) (hlen' : l'.length = 32)
    (hlast : (l.getD 18 0).toNat < 64) (hlast' : (l'.getD 18 0).toNat < 64)
    (hrest : l.drop 19 = l'.drop 19) (h : secretBits l 150 = secretBits l' 150) : l = l' := by
  rw [show (150 : Nat) = 8 * 18 + 6 from rfl, secretBits_split (by omega) (by decide),
    secretBits_split (by omega) (by decide)] at h
  have hbytes (m : List UInt8) : m.flatMap (fun b => bits 8 b.toNat) = (m.map UInt8.toNat).flatMap (bits 8) := by
    rw [List.flatMap_map]
  have hcount (m : List UInt8) (hm : m.length = 32) : ((m.take 18).flatMap fun b => bits 8 b.toNat).length = 144 := by
    rw [hbytes, length_flatMap_bits, List.length_map, List.length_take, hm]
    rfl
  obtain ⟨hhead, htail⟩ := List.append_inj h (by rw [hcount l hlen, hcount l' hlen'])
  rw [hbytes, hbytes] at hhead
  have hsmall (m : List UInt8) : ∀ a ∈ m.map UInt8.toNat, a < 2 ^ 8 := fun a ha => by
    obtain ⟨b, -, rfl⟩ := List.mem_map.1 ha
    exact b.toNat_lt
  have htake : l.take 18 = l'.take 18 := by
    have hmap := flatMap_bits_inj (by decide) (hsmall _) (hsmall _) hhead
    exact List.map_injective_iff.2 (fun a b hab => UInt8.toNat_inj.1 hab) hmap
  have hbyte : l.getD 18 0 = l'.getD 18 0 := UInt8.toNat_inj.1 ((bits_inj (n := 6) hlast hlast').1 htail)
  have hsplit (m : List UInt8) (hm : m.length = 32) : m = m.take 18 ++ m.getD 18 0 :: m.drop 19 := by
    have hdrop : m.drop 18 = m.getD 18 0 :: m.drop 19 := by
      rw [List.getD_eq_getElem _ _ (by omega)]
      exact List.drop_eq_getElem_cons (by omega)
    rw [← hdrop, List.take_append_drop]
  rw [hsplit l hlen, hsplit l' hlen', htake, hbyte, hrest]

theorem PolyseedData.Fits.extraVal_eq {data : PolyseedData} (h : data.Fits) :
    bits 15 data.extraVal = bits 5 data.features ++ bits 10 data.birthday := by
  rw [show (15 : Nat) = 5 + 10 from rfl, extraVal]
  exact bits_shiftLeft_or _ _ h.birthday

/-- Words tell the data. -/
theorem Packs.data_eq {data data' : PolyseedData} {cs : List Nat} (hfits : data.Fits) (hfits' : data'.Fits)
    (h : Packs data cs) (h' : Packs data' cs) :
    data.secret = data'.secret ∧ data.birthday = data'.birthday ∧ data.features = data'.features := by
  have hextra := h.extra.symm.trans h'.extra
  rw [hfits.extraVal_eq, hfits'.extraVal_eq] at hextra
  obtain ⟨hfeatures, hbirthday⟩ := List.append_inj hextra (by simp)
  refine ⟨?_, (bits_inj hfits.birthday hfits'.birthday).1 hbirthday, (bits_inj hfits.features hfits'.features).1 hfeatures⟩
  exact secretBits_inj hfits.length hfits'.length hfits.last hfits'.last (hfits.padding.trans hfits'.padding.symm)
    (h.secret.symm.trans h'.secret)

/-! ## Indices -/

theorem horner_mixCoin {cs : List Nat} {coin : Nat} (hlen : 2 ≤ cs.length) (hlt : ∀ c ∈ cs, c < 2048)
    (hcoin : coin < 2048) : horner (mixCoin coin cs) = horner cs ^^^ gfMul2 coin := by
  match cs, hlen with
  | c :: d :: r, _ =>
    have hr := horner_lt fun e he => hlt e (List.mem_cons_of_mem _ (List.mem_cons_of_mem _ he))
    have hd : gfMul2 (horner r) ^^^ d < 2048 := xor_lt (gfMul2_lt hr) (hlt d (by simp))
    have hmix : mixCoin coin (c :: d :: r) = c :: (d ^^^ coin) :: r := rfl
    rw [hmix, horner, horner, ← Nat.xor_assoc, gfMul2_xor hd hcoin, horner, horner]
    simp [Nat.xor_assoc, Nat.xor_comm, Nat.xor_left_comm]

@[simp] theorem mixCoin_mixCoin (coin : Nat) (cs : List Nat) : mixCoin coin (mixCoin coin cs) = cs := by
  match cs with
  | [] => rfl
  | [_] => rfl
  | c :: d :: r =>
    have hmix (e : Nat) : mixCoin coin (c :: e :: r) = c :: (e ^^^ coin) :: r := rfl
    rw [hmix, hmix, Nat.xor_assoc, Nat.xor_self, Nat.xor_zero]

@[simp] theorem length_mixCoin (coin : Nat) (cs : List Nat) : (mixCoin coin cs).length = cs.length :=
  List.length_modify ..

theorem mixCoin_lt {coin : Nat} {cs : List Nat} (hcoin : coin < 2048) (h : ∀ c ∈ cs, c < 2048) :
    ∀ c ∈ mixCoin coin cs, c < 2048 := by
  match cs with
  | [] => exact fun _ hc => absurd hc List.not_mem_nil
  | [_] => exact h
  | c :: d :: r =>
    exact forall_cons (h c (by simp)) (forall_cons (xor_lt (h d (by simp)) hcoin) fun e he =>
      h e (List.mem_cons_of_mem _ (List.mem_cons_of_mem _ he)))

/-- Words spell their indices. -/
def Spells (ws : List (List Char)) (idx : List Nat) : Prop := ws.map wordIndex = idx.map some

theorem wordIndex_word {i : Nat} (h : i < 2048) : wordIndex (polyseedWords.word i) = some i := by
  rw [wordIndex, Wordlist.bySpelling_word (by rwa [polyseedWords_length]), Option.some_or]

theorem wordIndex_lt {w : List Char} {i : Nat} (h : wordIndex w = some i) : i < 2048 := by
  rw [wordIndex, Option.or_eq_some_iff] at h
  rw [← polyseedWords_length]
  rcases h with h | ⟨-, h⟩
  · exact (Wordlist.bySpelling_eq_some.1 h).1
  · exact (Wordlist.bySpelling_eq_some.1 h).1

theorem Spells.length_eq {ws : List (List Char)} {idx : List Nat} (h : Spells ws idx) : ws.length = idx.length := by
  simpa using congrArg List.length h

theorem Spells.lt {ws : List (List Char)} {idx : List Nat} (h : Spells ws idx) : ∀ i ∈ idx, i < 2048 := fun i hi => by
  have hmem : some i ∈ ws.map wordIndex := h ▸ List.mem_map_of_mem hi
  obtain ⟨w, -, hw⟩ := List.mem_map.1 hmem
  exact wordIndex_lt hw

theorem spells_words {idx : List Nat} (h : ∀ i ∈ idx, i < 2048) : Spells (idx.map polyseedWords.word) idx := by
  rw [Spells, List.map_map]
  exact List.map_congr_left fun i hi => wordIndex_word (h i hi)

theorem Spells.inj {ws : List (List Char)} {idx idx' : List Nat} (h : Spells ws idx) (h' : Spells ws idx') :
    idx = idx' :=
  List.map_injective_iff.2 (Option.some_injective _) (h.symm.trans h')

theorem polyseedIndices_eq_ok {i : Nat} {ws : List (List Char)} {idx : List Nat} :
    polyseedIndices i ws = .ok idx ↔ Spells ws idx := by
  induction ws generalizing i idx with
  | nil => cases idx <;> simp [polyseedIndices, Spells]
  | cons w ws ih =>
    rw [polyseedIndices, Spells]
    cases hw : wordIndex w with
    | none => cases idx <;> simp [hw]
    | some n =>
      cases hrest : polyseedIndices (i + 1) ws with
      | error e =>
        have hno : ∀ idx, ¬ Spells ws idx := fun idx h => by simp [ih.2 h] at hrest
        cases idx with
        | nil => simp [Except.map]
        | cons m idx =>
          simp only [Except.map, List.map_cons, hw, List.cons.injEq, reduceCtorEq, false_iff, not_and]
          exact fun _ => hno idx
      | ok idx' =>
        have hspells := ih.1 hrest
        cases idx with
        | nil => simp [Except.map]
        | cons m idx =>
          simp only [Except.map, Except.ok.injEq, List.map_cons, hw, List.cons.injEq, Option.some.injEq]
          exact and_congr_right fun _ => ⟨fun h => h ▸ hspells, fun h => hspells.inj h⟩

/-! ## Encoding and decoding -/

/-- Only the reserved bit is refused. -/
theorem featuresSupported_eq {f : Nat} (h : f < 32) : polyseedFeaturesSupported f = !f.testBit 3 ∧
    (f &&& ENCRYPTED_MASK != 0) = f.testBit 4 := by
  have hall : ∀ f < 32, polyseedFeaturesSupported f = !f.testBit 3 ∧ (f &&& ENCRYPTED_MASK != 0) = f.testBit 4 := by
    decide
  exact hall f h

theorem polyseedRead_iff {coeffs : List Nat} (hlen : coeffs.length = 16) (hlt : ∀ c ∈ coeffs, c < 2048)
    {data : PolyseedData} : polyseedRead coeffs = .ok data ↔
      horner coeffs = 0 ∧ polyseedPolyToData coeffs = .ok data ∧ polyseedFeaturesSupported data.features = true := by
  rw [polyseedRead, gfPolyCheck, gfPolyEval_eq hlen]
  by_cases hzero : horner coeffs = 0
  · obtain ⟨c, cs, rfl⟩ : ∃ c cs, coeffs = c :: cs := by
      cases coeffs with
      | nil => simp at hlen
      | cons c cs => exact ⟨c, cs, rfl⟩
    obtain ⟨data', hdata, -⟩ := @polyseedPolyToData_spec c cs (by simpa using hlen)
      fun d hd => hlt d (List.mem_cons_of_mem _ hd)
    simp only [hzero, hdata, beq_self_eq_true, Bool.true_eq_false, if_false, Except.bind, Except.ok.injEq, true_and]
    by_cases hsupported : polyseedFeaturesSupported data'.features = true
    · rw [if_pos hsupported, Except.ok.injEq]
      exact ⟨fun h => ⟨h, h ▸ hsupported⟩, fun h => h.1⟩
    · rw [if_neg hsupported]
      refine ⟨fun h => (nomatch h), fun h => ?_⟩
      rw [h.1] at hsupported
      exact absurd h.2 hsupported
  · simp [hzero]

variable {k : Casing}

theorem polyseedDecode_iff {phrase : List Char} {coin : Nat} {data : PolyseedData} :
    polyseedDecode k phrase coin = .ok data ↔
      ∃ idx, idx.length = 16 ∧ Spells (polyseedPhrase k phrase) idx ∧ polyseedRead (mixCoin coin idx) = .ok data := by
  rw [polyseedDecode]
  by_cases hlen : (polyseedPhrase k phrase).length = POLYSEED_NUM_WORDS
  · rw [if_neg (not_not.2 hlen)]
    cases hidx : polyseedIndices 0 (polyseedPhrase k phrase) with
    | error e =>
      simp only [Except.bind, reduceCtorEq, false_iff, not_exists, not_and]
      intro idx _ hspells
      rw [polyseedIndices_eq_ok.2 hspells] at hidx
      cases hidx
    | ok idx =>
      have hspells := polyseedIndices_eq_ok.1 hidx
      refine ⟨fun h => ⟨idx, hspells.length_eq.symm.trans hlen, hspells, h⟩, ?_⟩
      rintro ⟨idx', -, hspells', h⟩
      rwa [hspells'.inj hspells] at h
  · rw [if_pos hlen]
    refine ⟨fun h => (nomatch h), ?_⟩
    rintro ⟨idx, hlen', hspells, -⟩
    exact absurd (hspells.length_eq.trans hlen') hlen

/-- The words that pack the data, behind the one that makes the value zero. -/
theorem polyseedEncode_spec {data : PolyseedData} {cs : List Nat} {coin : Nat} (hlen : data.secret.length = 32)
    (hpacks : Packs data cs) (hcoin : coin < 2048) : polyseedEncode data coin =
      .ok (joinWords ((mixCoin coin (gfMul2 (horner cs) :: cs)).map polyseedWords.word),
        { data with checksum := (mixCoin coin (gfMul2 (horner cs) :: cs)).getD 0 0 }) := by
  obtain ⟨cs', hcs', hpacks'⟩ := polyseedDataToPoly_spec hlen
  obtain rfl := hpacks.inj hpacks'
  have hfirst : gfPolyEncode (0 :: cs) = gfMul2 (horner cs) :: cs := by
    rw [gfPolyEncode, gfPolyEval_eq (by rw [List.length_cons, hpacks.length]), horner, Nat.xor_zero]
    rfl
  have hrange : ¬ coin ≥ GF_SIZE := Nat.not_le.2 hcoin
  rw [polyseedEncode, if_neg hrange, hcs', Except.map, hfirst]

theorem polyseedPhrase_joinWords {ws : List (List Char)} (h : ∀ w ∈ ws, lowerWord w = true) (hne : ws ≠ []) :
    polyseedPhrase k (joinWords ws) = ws := by
  rw [polyseedPhrase, normalizePolyseed, trim_joinWords h, collapse_joinWords h, toLowerCase_joinWords h,
    splitWords_joinWords h hne, List.filter_eq_self]
  intro w hw
  simpa using lowerWord_ne_nil (h w hw)

theorem words_lower {idx : List Nat} (h : ∀ i ∈ idx, i < 2048) :
    ∀ w ∈ idx.map polyseedWords.word, lowerWord w = true := fun w hw => by
  obtain ⟨i, hi, rfl⟩ := List.mem_map.1 hw
  exact Wordlist.lowerWord_word (by rw [polyseedWords_length]; exact h i hi)

/-- The phrase of data is read as these data. -/
theorem polyseed_round_trip {data : PolyseedData} {coin : Nat} (hfits : data.Fits)
    (hsupported : polyseedFeaturesSupported data.features = true) (hcoin : coin < 2048) :
    ∃ phrase data', polyseedEncode data coin = .ok (phrase, data') ∧ ∃ data'', polyseedDecode k phrase coin = .ok data'' ∧
      data''.secret = data.secret ∧ data''.birthday = data.birthday ∧ data''.features = data.features := by
  obtain ⟨cs, -, hpacks⟩ := polyseedDataToPoly_spec hfits.length
  refine ⟨_, _, polyseedEncode_spec hfits.length hpacks hcoin, ?_⟩
  have hcs := horner_lt hpacks.lt
  have hlt := mixCoin_lt hcoin (forall_cons (gfMul2_lt hcs) hpacks.lt)
  have hlen : (gfMul2 (horner cs) :: cs).length = 16 := by rw [List.length_cons, hpacks.length]
  obtain ⟨data'', hread, hfits'', hpacks''⟩ := polyseedPolyToData_spec (c := gfMul2 (horner cs)) hpacks.length hpacks.lt
  obtain ⟨hsecret, hbirthday, hfeatures⟩ := hpacks''.data_eq hfits'' hfits hpacks
  refine ⟨data'', ?_, hsecret, hbirthday, hfeatures⟩
  refine polyseedDecode_iff.2 ⟨mixCoin coin (gfMul2 (horner cs) :: cs), by rw [length_mixCoin, hlen], ?_, ?_⟩
  · rw [polyseedPhrase_joinWords (words_lower hlt)]
    · exact spells_words hlt
    · intro hnil
      have hnone := congrArg List.length hnil
      rw [List.length_map, length_mixCoin, hlen] at hnone
      cases hnone
  · rw [mixCoin_mixCoin]
    refine (polyseedRead_iff hlen (forall_cons (gfMul2_lt hcs) hpacks.lt)).2 ⟨Nat.xor_self _, hread, ?_⟩
    rw [hfeatures]
    exact hsupported

/-- The words of an accepted phrase. -/
structure Accepted (k : Casing) (phrase : List Char) (coin : Nat) (data : PolyseedData) (idx : List Nat) : Prop where
  length : idx.length = 16
  spells : Spells (polyseedPhrase k phrase) idx
  value : horner idx = gfMul2 coin
  read : polyseedPolyToData (mixCoin coin idx) = .ok data
  supported : polyseedFeaturesSupported data.features = true

theorem polyseedDecode_eq_ok {phrase : List Char} {coin : Nat} {data : PolyseedData} (hcoin : coin < 2048) :
    polyseedDecode k phrase coin = .ok data ↔ ∃ idx, Accepted k phrase coin data idx := by
  rw [polyseedDecode_iff]
  constructor
  · rintro ⟨idx, hlen, hspells, hread⟩
    have hlt := hspells.lt
    obtain ⟨hzero, hdata, hsupported⟩ := (polyseedRead_iff (by rw [length_mixCoin, hlen]) (mixCoin_lt hcoin hlt)).1 hread
    rw [horner_mixCoin (by omega) hlt hcoin, xor_eq_zero] at hzero
    exact ⟨idx, hlen, hspells, hzero, hdata, hsupported⟩
  · rintro ⟨idx, h⟩
    have hlt := h.spells.lt
    refine ⟨idx, h.length, h.spells, ?_⟩
    refine (polyseedRead_iff (by rw [length_mixCoin, h.length]) (mixCoin_lt hcoin hlt)).2 ⟨?_, h.read, h.supported⟩
    have hlen := h.length
    rw [horner_mixCoin (by omega) hlt hcoin, h.value, Nat.xor_self]

theorem Accepted.fits {phrase : List Char} {coin : Nat} {data : PolyseedData} {idx : List Nat} (hcoin : coin < 2048)
    (h : Accepted k phrase coin data idx) : data.Fits ∧ Packs data (mixCoin coin idx).tail := by
  have hlen : (mixCoin coin idx).length = 16 := by rw [length_mixCoin, h.length]
  have hlt := mixCoin_lt hcoin h.spells.lt
  have hread := h.read
  generalize mixCoin coin idx = coeffs at hlen hlt hread ⊢
  cases coeffs with
  | nil => simp at hlen
  | cons c cs =>
    obtain ⟨data', hdata', hfits, hpacks⟩ := @polyseedPolyToData_spec c cs (by simpa using hlen)
      fun d hd => hlt d (List.mem_cons_of_mem _ hd)
    rw [hdata', Except.ok.injEq] at hread
    subst hread
    exact ⟨hfits, hpacks⟩

/-- What is read encodes to the words of the list that the phrase spells. -/
theorem Accepted.encode {phrase : List Char} {coin : Nat} {data : PolyseedData} {idx : List Nat} (hcoin : coin < 2048)
    (h : Accepted k phrase coin data idx) :
    ∃ data', polyseedEncode data coin = .ok (joinWords (idx.map polyseedWords.word), data') := by
  obtain ⟨hfits, hpacks⟩ := h.fits hcoin
  have hlen := h.length
  have hzero := horner_mixCoin (by omega) h.spells.lt hcoin
  rw [h.value, Nat.xor_self] at hzero
  have hmixed : gfMul2 (horner (mixCoin coin idx).tail) :: (mixCoin coin idx).tail = mixCoin coin idx := by
    have hmixlen : (mixCoin coin idx).length = 16 := by rw [length_mixCoin, h.length]
    generalize mixCoin coin idx = coeffs at hzero hmixlen ⊢
    cases coeffs with
    | nil => simp at hmixlen
    | cons c cs =>
      rw [horner, xor_eq_zero] at hzero
      rw [List.tail_cons, hzero]
  have hencode := polyseedEncode_spec hfits.length hpacks hcoin
  rw [hmixed, mixCoin_mixCoin] at hencode
  exact ⟨_, hencode⟩

/-- The flag and the reserved bit are the last bits of the second and the third word. -/
theorem features_bits {data : PolyseedData} {idx : List Nat} (hlen : idx.length = 16) (hfits : data.Fits)
    (hpacks : Packs data idx.tail) : data.features.testBit 4 = (idx.getD 1 0).testBit 0 ∧
      data.features.testBit 3 = (idx.getD 2 0).testBit 0 := by
  match idx, hlen with
  | c :: d :: e :: r, _ =>
    have hextra := hpacks.extra
    rw [hfits.extraVal_eq] at hextra
    simp only [List.tail_cons, List.map_cons, bits, List.cons_append, List.cons.injEq] at hextra
    exact ⟨hextra.1.symm, hextra.2.1.symm⟩

theorem mixCoin_monero (idx : List Nat) : mixCoin POLYSEED_COIN_MONERO idx = idx := by
  match idx with
  | [] => rfl
  | [_] => rfl
  | c :: d :: r =>
    have hmix : mixCoin POLYSEED_COIN_MONERO (c :: d :: r) = c :: (d ^^^ 0) :: r := rfl
    rw [hmix, Nat.xor_zero]

/-- A phrase with the encrypted flag that is not refused for another reason: sixteen words, a value of zero, the
reserved bit clear, and the index of the second word odd. -/
def EncryptedPhrase (k : Casing) (phrase : List Char) : Prop :=
  ∃ idx, idx.length = 16 ∧ Spells (polyseedPhrase k phrase) idx ∧ gfPolyCheck idx = true ∧
    (idx.getD 2 0).testBit 0 = false ∧ (idx.getD 1 0).testBit 0 = true

theorem encryptedPhrase_iff {phrase : List Char} : EncryptedPhrase k phrase ↔
    ∃ data, polyseedDecode k phrase POLYSEED_COIN_MONERO = .ok data ∧ polyseedIsEncrypted data = true := by
  have hcoin : POLYSEED_COIN_MONERO < 2048 := by decide
  constructor
  · rintro ⟨idx, hlen, hspells, hcheck, hreserved, hflag⟩
    obtain ⟨c, cs, rfl⟩ : ∃ c cs, idx = c :: cs := by
      cases idx with
      | nil => simp at hlen
      | cons c cs => exact ⟨c, cs, rfl⟩
    have hlt := hspells.lt
    obtain ⟨data, hread, hfits, hpacks⟩ := @polyseedPolyToData_spec c cs (by simpa using hlen)
      fun d hd => hlt d (List.mem_cons_of_mem _ hd)
    obtain ⟨hfour, hthree⟩ := @features_bits _ (c :: cs) hlen hfits hpacks
    obtain ⟨hsupported, hencrypted⟩ := featuresSupported_eq hfits.features
    rw [gfPolyCheck, gfPolyEval_eq hlen, beq_iff_eq] at hcheck
    refine ⟨data, polyseedDecode_iff.2 ⟨c :: cs, hlen, hspells, ?_⟩, ?_⟩
    · rw [mixCoin_monero]
      refine (polyseedRead_iff hlen hlt).2 ⟨hcheck, hread, ?_⟩
      rw [hsupported, hthree, hreserved]
      rfl
    · rw [polyseedIsEncrypted, hencrypted, hfour, hflag]
  · rintro ⟨data, hdecode, hflag⟩
    obtain ⟨idx, h⟩ := (polyseedDecode_eq_ok hcoin).1 hdecode
    obtain ⟨hfits, hpacks⟩ := h.fits hcoin
    rw [mixCoin_monero] at hpacks
    obtain ⟨hfour, hthree⟩ := features_bits h.length hfits hpacks
    obtain ⟨hsupported, hencrypted⟩ := featuresSupported_eq hfits.features
    refine ⟨idx, h.length, h.spells, ?_, ?_, ?_⟩
    · rw [gfPolyCheck, gfPolyEval_eq h.length, h.value]
      rfl
    · have hok := h.supported
      rw [hsupported, hthree] at hok
      simpa using hok
    · rw [polyseedIsEncrypted, hencrypted, hfour] at hflag
      exact hflag

/-- What is asked of the codec at a phrase and a coin. -/
structure PolyseedLaw (k : Casing) (pbkdf2 : Kdf) (phrase : List Char) (coin : Nat) : Prop where
  returns (data : PolyseedData) : data.Fits → polyseedFeaturesSupported data.features = true →
    ∃ phrase' data', polyseedEncode data coin = .ok (phrase', data') ∧
      ∃ data'', polyseedDecode k phrase' coin = .ok data'' ∧ data''.secret = data.secret ∧
        data''.birthday = data.birthday ∧ data''.features = data.features
  reencodes (data : PolyseedData) : polyseedDecode k phrase coin = .ok data →
    ∃ idx data', idx.length = 16 ∧ Spells (polyseedPhrase k phrase) idx ∧
      polyseedEncode data coin = .ok (joinWords (idx.map polyseedWords.word), data')
  oneWord (data data' : PolyseedData) (phrase' : List Char) (a b : List Nat) (x y : Nat) :
    polyseedDecode k phrase coin = .ok data → Spells (polyseedPhrase k phrase) (a ++ x :: b) →
    Spells (polyseedPhrase k phrase') (a ++ y :: b) → x ≠ y → polyseedDecode k phrase' coin ≠ .ok data'
  swapped (data data' : PolyseedData) (phrase' : List Char) (a m b : List Nat) (x y : Nat) :
    polyseedDecode k phrase coin = .ok data → Spells (polyseedPhrase k phrase) (a ++ x :: (m ++ y :: b)) →
    Spells (polyseedPhrase k phrase') (a ++ y :: (m ++ x :: b)) → x ≠ y → polyseedDecode k phrase' coin ≠ .ok data'
  otherCoin (data data' : PolyseedData) (coin' : Nat) : coin' < 2048 → coin' ≠ coin →
    polyseedDecode k phrase coin = .ok data → polyseedDecode k phrase coin' ≠ .ok data'
  noKey (data : PolyseedData) (key : List UInt8) : polyseedToMoneroSpendKey k pbkdf2 phrase = .ok (data, key) →
    polyseedIsEncrypted data = false

theorem polyseed_reencodes {phrase : List Char} {coin : Nat} {data : PolyseedData} (hcoin : coin < 2048)
    (h : polyseedDecode k phrase coin = .ok data) : ∃ idx data', idx.length = 16 ∧
      Spells (polyseedPhrase k phrase) idx ∧
      polyseedEncode data coin = .ok (joinWords (idx.map polyseedWords.word), data') := by
  obtain ⟨idx, haccepted⟩ := (polyseedDecode_eq_ok hcoin).1 h
  obtain ⟨data', hencode⟩ := haccepted.encode hcoin
  exact ⟨idx, data', haccepted.length, haccepted.spells, hencode⟩

/-- All phrases that are accepted for a coin have one value. -/
theorem value_of_decode {phrase : List Char} {coin : Nat} {data : PolyseedData} {idx : List Nat} (hcoin : coin < 2048)
    (h : polyseedDecode k phrase coin = .ok data) (hspells : Spells (polyseedPhrase k phrase) idx) :
    idx.length = 16 ∧ horner idx = gfMul2 coin := by
  obtain ⟨idx', haccepted⟩ := (polyseedDecode_eq_ok hcoin).1 h
  obtain rfl := haccepted.spells.inj hspells
  exact ⟨haccepted.length, haccepted.value⟩

theorem polyseedToMoneroSpendKey_iff {pbkdf2 : Kdf} {phrase : List Char} {data : PolyseedData} :
    (∃ key, polyseedToMoneroSpendKey k pbkdf2 phrase = .ok (data, key)) ↔
      polyseedDecode k phrase POLYSEED_COIN_MONERO = .ok data := by
  rw [polyseedToMoneroSpendKey]
  cases polyseedDecode k phrase POLYSEED_COIN_MONERO with
  | error e => simp [Except.bind]
  | ok data' =>
    have hkey (d : PolyseedData) : ∃ key, polyseedKeygen pbkdf2 d POLYSEED_COIN_MONERO 32 = .ok key := ⟨_, rfl⟩
    obtain ⟨key, hkey⟩ := hkey data'
    simp [Except.bind, hkey, Except.map]

/-- The codec keeps its law at every phrase exactly if that is not an encrypted one. -/
theorem polyseed_law_iff (k : Casing) (pbkdf2 : Kdf) (phrase : List Char) {coin : Nat} (hcoin : coin < 2048) :
    PolyseedLaw k pbkdf2 phrase coin ↔ ¬ EncryptedPhrase k phrase := by
  constructor
  · intro h hencrypted
    obtain ⟨data, hdecode, hflag⟩ := encryptedPhrase_iff.1 hencrypted
    obtain ⟨key, hkey⟩ := polyseedToMoneroSpendKey_iff.2 hdecode
    rw [h.noKey data key hkey] at hflag
    cases hflag
  · intro hplain
    refine ⟨fun data hfits hsupported => polyseed_round_trip hfits hsupported hcoin,
      fun data h => polyseed_reencodes hcoin h, ?_, ?_, ?_, ?_⟩
    · intro data data' phrase' a b x y hdecode hspells hspells' hne hdecode'
      have hlt := hspells.lt
      have hlt' := hspells'.lt
      have hsame := (value_of_decode hcoin hdecode hspells).2.trans (value_of_decode hcoin hdecode' hspells').2.symm
      exact horner_ne_of_one (fun c hc => hlt c (by simp [hc])) (fun c hc => hlt c (by simp [hc])) (hlt x (by simp))
        (hlt' y (by simp)) hne hsame
    · intro data data' phrase' a m b x y hdecode hspells hspells' hne hdecode'
      have hlt := hspells.lt
      obtain ⟨hlen, hvalue⟩ := value_of_decode hcoin hdecode hspells
      have hsame := hvalue.trans (value_of_decode hcoin hdecode' hspells').2.symm
      simp only [List.length_append, List.length_cons] at hlen
      exact horner_ne_of_swap (fun c hc => hlt c (by simp [hc])) (fun c hc => hlt c (by simp [hc])) (hlt x (by simp))
        (hlt y (by simp)) hne (fun c hc => hlt c (by simp [hc])) (by omega) hsame
    · intro data data' coin' hcoin' hne hdecode hdecode'
      obtain ⟨idx, haccepted⟩ := (polyseedDecode_eq_ok hcoin).1 hdecode
      have hvalue := (value_of_decode hcoin' hdecode' haccepted.spells).2
      exact hne (gfMul2_inj hcoin' hcoin (hvalue.symm.trans haccepted.value))
    · intro data key hkey
      by_contra hflag
      exact hplain (encryptedPhrase_iff.2 ⟨data, polyseedToMoneroSpendKey_iff.1 ⟨key, hkey⟩, by simpa using hflag⟩)

theorem polyseed_law_monero : PolyseedLaw .sample (fun _ _ _ n => List.replicate n 0) "abandon".toList 0 ↔
    ¬ EncryptedPhrase .sample "abandon".toList :=
  polyseed_law_iff .sample _ _ (by decide)

/-- `able ability abandon …`: nothing of a secret, the flag, and a key. -/
theorem not_always_refused : ¬ ∀ (k : Casing) (pbkdf2 : Kdf) (phrase : List Char) (data : PolyseedData)
    (key : List UInt8), polyseedToMoneroSpendKey k pbkdf2 phrase = .ok (data, key) →
      polyseedIsEncrypted data = false := by
  intro h
  have hwords : polyseedPhrase .sample ("able ability abandon abandon abandon abandon abandon abandon abandon " ++
      "abandon abandon abandon abandon abandon abandon abandon").toList =
        (2 :: 1 :: List.replicate 14 0).map polyseedWords.word := by
    decide +kernel
  have hencrypted : EncryptedPhrase .sample ("able ability abandon abandon abandon abandon abandon abandon abandon " ++
      "abandon abandon abandon abandon abandon abandon abandon").toList :=
    ⟨2 :: 1 :: List.replicate 14 0, by decide, hwords ▸ spells_words (by decide), by decide +kernel, by decide,
      by decide⟩
  obtain ⟨data, hdecode, hflag⟩ := encryptedPhrase_iff.1 hencrypted
  obtain ⟨key, hkey⟩ := (@polyseedToMoneroSpendKey_iff _ (fun _ _ _ n => List.replicate n 0) _ _).2 hdecode
  rw [h _ _ _ data key hkey] at hflag
  cases hflag

end Seed
