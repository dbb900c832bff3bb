import Mathlib.Data.List.TakeWhile
import PwndaWallet.Bch.CashAddr
import PwndaWallet.Lib.Bits

/-!
# The law of CashAddr

Regrouping keeps the bits, so that bytes and symbols determine each other up to the padding. The checksum keeps
its state one to one: a changed symbol is never made up for, and the last eight symbols of an address are the only
ones that end in zero.
-/

namespace Bch

open Js Bits Casing

/-! ## Regrouping -/

section Regroup

variable {n m acc b : Nat} {data : List Nat}

theorem bits_mask (n v : Nat) : bits n (v &&& (1 <<< n - 1)) = bits n v := by
  rw [Nat.one_shiftLeft, Nat.and_two_pow_sub_one_eq_mod, bits_mod]

theorem mask_lt (n v : Nat) : v &&& (1 <<< n - 1) < 2 ^ n := by
  rw [Nat.one_shiftLeft, Nat.and_two_pow_sub_one_eq_mod]
  exact Nat.mod_lt _ (Nat.two_pow_pos n)

theorem drain_spec {fuel : Nat} (hm : 0 < m) (hfuel : b ≤ fuel) : let r := drain m acc fuel b
    bits b acc = r.1.flatMap (bits m) ++ bits r.2 acc ∧ r.2 < m ∧ ∀ x ∈ r.1, x < 2 ^ m := by
  induction fuel generalizing b with
  | zero =>
    have hb : b = 0 := by omega
    subst hb
    simpa [drain] using hm
  | succ fuel ih =>
    rw [drain]
    by_cases hge : b ≥ m
    · rw [if_pos hge]
      obtain ⟨hbits, hlt, hall⟩ := ih (b := b - m) (by omega)
      refine ⟨?_, hlt, List.forall_mem_cons.2 ⟨mask_lt m _, hall⟩⟩
      rw [List.flatMap_cons, bits_mask, List.append_assoc, ← hbits, ← bits_add]
      congr 1
      omega
    · rw [if_neg hge]
      exact ⟨by simp, by omega, fun _ hx => absurd hx List.not_mem_nil⟩

theorem regroup_spec (hn : n ≤ 8) (hm : 0 < m) (hwidth : m + n ≤ 32) (hb : b < m) (hdata : ∀ d ∈ data, d < 2 ^ n) :
    ∃ r, regroup n m acc b data = .ok r ∧
      bits b acc ++ data.flatMap (bits n) = r.1.flatMap (bits m) ++ bits r.2.2 r.2.1 ∧ r.2.2 < m ∧
        ∀ x ∈ r.1, x < 2 ^ m := by
  induction data generalizing acc b with
  | nil => exact ⟨_, rfl, by simp, hb, fun _ hx => absurd hx List.not_mem_nil⟩
  | cons d data ih =>
    have hd := hdata d List.mem_cons_self
    have hvalue : d &&& 0xff = d := by
      rw [show 0xff = 2 ^ 8 - 1 from rfl, Nat.and_two_pow_sub_one_eq_mod]
      exact Nat.mod_eq_of_lt (Nat.lt_of_lt_of_le hd (Nat.pow_le_pow_right (by decide) hn))
    have hrange : ¬ d >>> n ≠ 0 := by
      rw [Nat.shiftRight_eq_div_pow, Nat.div_eq_of_lt hd]
      simp
    have hacc : bits (b + n) ((acc <<< n ||| d) % 2 ^ 32) = bits b acc ++ bits n d := by
      rw [← bits_shiftLeft_or b acc hd]
      refine bits_congr fun i hi => ?_
      rw [Nat.testBit_mod_two_pow]
      simp [show i < 32 by omega]
    rw [regroup, hvalue, if_neg hrange]
    generalize (acc <<< n ||| d) % 2 ^ 32 = acc' at hacc
    obtain ⟨hbits, hlt, hall⟩ := @drain_spec m acc' (b + n) _ hm (Nat.le_refl _)
    obtain ⟨r, hr, hrbits, hrlt, hrall⟩ := @ih acc' _ hlt fun e he => hdata e (List.mem_cons_of_mem _ he)
    refine ⟨((drain m acc' (b + n) (b + n)).1 ++ r.1, r.2), by simp only [hr]; rfl, ?_, hrlt, fun x hx => ?_⟩
    · rw [List.flatMap_cons, ← List.append_assoc, ← hacc, hbits, List.append_assoc, hrbits, List.flatMap_append,
        List.append_assoc]
    · rcases List.mem_append.1 hx with hx | hx
      · exact hall x hx
      · exact hrall x hx

/-- The left bits, filled up with zeros. -/
theorem bits_last (h : b ≤ m) : bits m (acc <<< (m - b) &&& (1 <<< m - 1)) = bits b acc ++ List.replicate (m - b) false := by
  have hzero := bits_shiftLeft_or (w := 0) b acc (Nat.two_pow_pos (m - b))
  rw [Nat.or_zero, bits_num_zero, show b + (m - b) = m by omega] at hzero
  rw [bits_mask, hzero]

theorem convertBits_pad (hn : n ≤ 8) (hm : 0 < m) (hwidth : m + n ≤ 32) (hdata : ∀ d ∈ data, d < 2 ^ n) :
    ∃ r z, convertBits data n m true = .ok r ∧ z < m ∧ (∀ x ∈ r, x < 2 ^ m) ∧
      r.flatMap (bits m) = data.flatMap (bits n) ++ List.replicate z false := by
  obtain ⟨r, hr, hbits, hlt, hall⟩ := @regroup_spec n m 0 0 data hn hm hwidth hm hdata
  rw [bits_zero, List.nil_append] at hbits
  by_cases hleft : r.2.2 > 0
  · refine ⟨r.1 ++ [r.2.1 <<< (m - r.2.2) &&& (1 <<< m - 1)], m - r.2.2, ?_, by omega, fun x hx => ?_, ?_⟩
    · rw [convertBits, hr, Except.bind, if_pos rfl, if_pos hleft]
    · rcases List.mem_append.1 hx with hx | hx
      · exact hall x hx
      · rw [List.mem_singleton.1 hx]
        exact mask_lt m _
    · rw [List.flatMap_append, List.flatMap_singleton, bits_last (Nat.le_of_lt hlt), hbits, List.append_assoc]
  · have hnone : r.2.2 = 0 := by omega
    refine ⟨r.1, 0, ?_, hm, hall, ?_⟩
    · rw [convertBits, hr, Except.bind, if_pos rfl, if_neg hleft]
    · rw [hbits, hnone]
      simp

/-- Without padding, the bits that are left are few and zero. -/
theorem convertBits_iff (hn : n ≤ 8) (hm : 0 < m) (hwidth : m + n ≤ 32) (hdata : ∀ d ∈ data, d < 2 ^ n)
    {r : List Nat} : convertBits data n m false = .ok r ↔ (∀ x ∈ r, x < 2 ^ m) ∧ ∃ z, z < n ∧ z < m ∧
      data.flatMap (bits n) = r.flatMap (bits m) ++ List.replicate z false := by
  obtain ⟨r', hr', hbits, hlt, hall⟩ := @regroup_spec n m 0 0 data hn hm hwidth hm hdata
  rw [bits_zero, List.nil_append] at hbits
  have hlast := @bits_last m r'.2.1 _ (Nat.le_of_lt hlt)
  have hzero : r'.2.1 <<< (m - r'.2.2) &&& (1 <<< m - 1) = 0 ↔ bits r'.2.2 r'.2.1 = List.replicate r'.2.2 false := by
    rw [← bits_inj (mask_lt m _) (Nat.two_pow_pos m), bits_num_zero, hlast]
    have hsplit : List.replicate m false = List.replicate r'.2.2 false ++ List.replicate (m - r'.2.2) false := by
      rw [List.replicate_append_replicate]
      congr 1
      omega
    rw [hsplit, List.append_left_inj]
  have hsame {z : Nat} (hr : ∀ x ∈ r, x < 2 ^ m) (hz : z < m)
      (h : data.flatMap (bits n) = r.flatMap (bits m) ++ List.replicate z false) :
      r'.1 = r ∧ r'.2.2 = z ∧ bits r'.2.2 r'.2.1 = List.replicate z false := by
    rw [hbits] at h
    have hlen := congrArg List.length h
    simp only [List.length_append, length_flatMap_bits, length_bits, List.length_replicate] at hlen
    have hleft : r'.2.2 = z := by
      have hmod := congrArg (· % m) hlen
      simpa [Nat.mul_add_mod, Nat.mod_eq_of_lt hlt, Nat.mod_eq_of_lt hz] using hmod
    obtain ⟨hhead, htail⟩ := List.append_inj' h (by simpa using hleft)
    exact ⟨flatMap_bits_inj hm hall hr hhead, hleft, htail⟩
  rw [convertBits, hr', Except.bind, if_neg (by decide)]
  by_cases hbad : r'.2.2 ≥ n ∨ r'.2.1 <<< (m - r'.2.2) &&& (1 <<< m - 1) ≠ 0
  · rw [if_pos hbad]
    refine ⟨fun h => (nomatch h), ?_⟩
    rintro ⟨hr, z, hzn, hzm, hgroups⟩
    obtain ⟨-, rfl, htail⟩ := hsame hr hzm hgroups
    rcases hbad with hmany | hne
    · exact absurd hzn (Nat.not_lt.2 hmany)
    · exact absurd (hzero.2 htail) hne
  · rw [if_neg hbad, Except.ok.injEq]
    rw [not_or, not_not] at hbad
    constructor
    · rintro rfl
      exact ⟨hall, r'.2.2, Nat.lt_of_not_le hbad.1, hlt, by rw [hbits, hzero.1 hbad.2]⟩
    · rintro ⟨hr, z, hzn, hzm, hgroups⟩
      exact (hsame hr hzm hgroups).1

end Regroup

/-! ## The checksum -/

theorem mixGenerators_xor (c0 : Nat) (gs : List Nat) (j c : Nat) :
    mixGenerators c0 j gs c = c ^^^ mixGenerators c0 j gs 0 := by
  induction gs generalizing j c with
  | nil => simp [mixGenerators]
  | cons g gs ih =>
    rw [mixGenerators, mixGenerators, ih, ih (c := if (c0 >>> j) &&& 1 = 1 then 0 ^^^ g else 0)]
    by_cases hbit : (c0 >>> j) &&& 1 = 1
    · rw [if_pos hbit, if_pos hbit, Nat.zero_xor, Nat.xor_assoc]
    · rw [if_neg hbit, if_neg hbit, Nat.zero_xor]

/-- What the five highest bits give. -/
def mixed (c0 : Nat) : Nat := mixGenerators c0 0 POLY_C 0

theorem mixed_table : (List.range 32).all (fun x => decide (mixed x < 2 ^ 40) &&
    (List.range 32).all fun y => x == y || mixed x % 32 != mixed y % 32) = true := by decide +kernel

theorem mixed_lt {x : Nat} (hx : x < 32) : mixed x < 2 ^ 40 := by
  have h := List.all_eq_true.1 mixed_table x (List.mem_range.2 hx)
  simp only [Bool.and_eq_true, decide_eq_true_eq] at h
  exact h.1

theorem mixed_inj {x y : Nat} (hx : x < 32) (hy : y < 32) (h : mixed x % 32 = mixed y % 32) : x = y := by
  have htable := List.all_eq_true.1 mixed_table x (List.mem_range.2 hx)
  simp only [Bool.and_eq_true] at htable
  have hrow := List.all_eq_true.1 htable.2 y (List.mem_range.2 hy)
  simpa [h] using hrow

theorem polymodStep_eq (c v : Nat) : polymodStep c v = (((c % 2 ^ 35) <<< 5) ^^^ (v % 2 ^ 8)) ^^^ mixed (c >>> 35) := by
  rw [polymodStep, mixGenerators_xor, show 0x07ffffffff = 2 ^ 35 - 1 from rfl, Nat.and_two_pow_sub_one_eq_mod,
    show 0xff = 2 ^ 8 - 1 from rfl, Nat.and_two_pow_sub_one_eq_mod]
  rfl

theorem top_lt {c : Nat} (hc : c < 2 ^ 40) : c >>> 35 < 32 := by
  rw [Nat.shiftRight_eq_div_pow]
  omega

theorem polymodStep_lt {c : Nat} (hc : c < 2 ^ 40) (v : Nat) : polymodStep c v < 2 ^ 40 := by
  rw [polymodStep_eq]
  refine Nat.xor_lt_two_pow (Nat.xor_lt_two_pow ?_ ?_) (mixed_lt (top_lt hc))
  · rw [Nat.shiftLeft_eq]
    omega
  · exact Nat.lt_of_lt_of_le (Nat.mod_lt _ (Nat.two_pow_pos 8)) (by decide)

theorem xor_mod_two_pow (x y n : Nat) : (x ^^^ y) % 2 ^ n = (x % 2 ^ n) ^^^ (y % 2 ^ n) := by
  refine Nat.eq_of_testBit_eq fun i => ?_
  simp only [Nat.testBit_mod_two_pow, Nat.testBit_xor]
  by_cases hi : i < n <;> simp [hi]

theorem polymodStep_inj_state {c c' v : Nat} (hc : c < 2 ^ 40) (hc' : c' < 2 ^ 40)
    (h : polymodStep c v = polymodStep c' v) : c = c' := by
  rw [polymodStep_eq, polymodStep_eq] at h
  have hlow (d : Nat) : ((d % 2 ^ 35) <<< 5) % 2 ^ 5 = 0 := by
    rw [Nat.shiftLeft_eq]
    exact Nat.mul_mod_left _ _
  have htop : c >>> 35 = c' >>> 35 := by
    have hmod := congrArg (· % 2 ^ 5) h
    simp only [xor_mod_two_pow, hlow, Nat.zero_xor] at hmod
    exact mixed_inj (top_lt hc) (top_lt hc') (Nat.xor_right_injective hmod)
  rw [htop] at h
  have hshift := Nat.xor_left_injective (Nat.xor_left_injective h)
  simp only [Nat.shiftLeft_eq] at hshift
  have hrest : c % 2 ^ 35 = c' % 2 ^ 35 := Nat.eq_of_mul_eq_mul_right (by decide) hshift
  rw [Nat.shiftRight_eq_div_pow, Nat.shiftRight_eq_div_pow] at htop
  rw [← Nat.div_add_mod c (2 ^ 35), ← Nat.div_add_mod c' (2 ^ 35), htop, hrest]

theorem polymodStep_inj_symbol {c v w : Nat} (hv : v < 32) (hw : w < 32) (h : polymodStep c v = polymodStep c w) :
    v = w := by
  rw [polymodStep_eq, polymodStep_eq] at h
  have hsame : v % 2 ^ 8 = w % 2 ^ 8 := Nat.xor_right_injective (Nat.xor_left_injective h)
  omega

theorem foldl_polymodStep_lt {c : Nat} (hc : c < 2 ^ 40) (vs : List Nat) : vs.foldl polymodStep c < 2 ^ 40 := by
  induction vs generalizing c with
  | nil => exact hc
  | cons v vs ih => exact ih (polymodStep_lt hc v)

theorem foldl_polymodStep_inj {c c' : Nat} (hc : c < 2 ^ 40) (hc' : c' < 2 ^ 40) {vs : List Nat}
    (h : vs.foldl polymodStep c = vs.foldl polymodStep c') : c = c' := by
  induction vs generalizing c c' with
  | nil => exact h
  | cons v vs ih =>
    exact polymodStep_inj_state hc hc' (ih (polymodStep_lt hc v) (polymodStep_lt hc' v) h)

/-- One changed symbol changes the checksum. -/
theorem polymod_inj_symbol {a b : List Nat} {v w : Nat} (hv : v < 32) (hw : w < 32)
    (h : cashaddrPolymod (a ++ v :: b) = cashaddrPolymod (a ++ w :: b)) : v = w := by
  have hfold := Nat.xor_left_injective h
  simp only [List.foldl_append, List.foldl_cons] at hfold
  have hstate := foldl_polymodStep_lt (c := 1) (by decide) a
  exact polymodStep_inj_symbol hv hw
    (foldl_polymodStep_inj (polymodStep_lt hstate v) (polymodStep_lt hstate w) hfold)

/-- Symbols, five bits each, as one number. -/
def packed (e : List Nat) : Nat := e.foldl (fun d v => (d <<< 5) ^^^ v) 0

theorem packed_snoc (e : List Nat) (v : Nat) : packed (e ++ [v]) = (packed e <<< 5) ^^^ v := by
  rw [packed, List.foldl_append]
  rfl

theorem bits_packed {e : List Nat} (he : ∀ v ∈ e, v < 32) : bits (5 * e.length) (packed e) = e.flatMap (bits 5) ∧
    packed e < 2 ^ (5 * e.length) := by
  induction e using List.reverseRecOn with
  | nil => exact ⟨rfl, by decide⟩
  | append_singleton e v ih =>
    obtain ⟨hbits, hlt⟩ := ih fun w hw => he w (List.mem_append_left _ hw)
    have hv : v < 2 ^ 5 := he v (by simp)
    have hlen : 5 * (e ++ [v]).length = 5 * e.length + 5 := by
      rw [List.length_append, List.length_singleton]
      omega
    rw [packed_snoc, hlen]
    refine ⟨?_, Nat.xor_lt_two_pow ?_ (Nat.lt_of_lt_of_le hv (Nat.pow_le_pow_right (by decide) (by omega)))⟩
    · rw [bits_shiftLeft_xor _ _ hv, hbits, List.flatMap_append, List.flatMap_singleton]
    · rw [Nat.shiftLeft_eq, Nat.pow_add]
      exact Nat.mul_lt_mul_of_pos_right hlt (by decide)

/-- The last eight symbols stand beside the state, and no bit of them is mixed. -/
theorem foldl_polymodStep_packed {c : Nat} (e : List Nat) (he : ∀ v ∈ e, v < 32) (hlen : e.length ≤ 8) :
    e.foldl polymodStep c = (List.replicate e.length 0).foldl polymodStep c ^^^ packed e := by
  induction e using List.reverseRecOn with
  | nil => exact (Nat.xor_zero c).symm
  | append_singleton e v ih =>
    have he' : ∀ w ∈ e, w < 32 := fun w hw => he w (List.mem_append_left _ hw)
    have hv : v < 32 := he v (by simp)
    rw [List.length_append, List.length_singleton] at hlen
    have hsmall : packed e < 2 ^ 35 :=
      Nat.lt_of_lt_of_le (bits_packed he').2 (Nat.pow_le_pow_right (by decide) (by omega))
    rw [List.foldl_append, ih he' (by omega), List.length_append, List.length_singleton, List.replicate_succ',
      List.foldl_append, packed_snoc]
    generalize (List.replicate e.length 0).foldl polymodStep c = z
    have htop : (z ^^^ packed e) >>> 35 = z >>> 35 := by
      rw [Nat.shiftRight_xor_distrib, Nat.shiftRight_eq_div_pow (packed e), Nat.div_eq_of_lt hsmall, Nat.xor_zero]
    have hlow : (z ^^^ packed e) % 2 ^ 35 = (z % 2 ^ 35) ^^^ packed e := by
      rw [xor_mod_two_pow, Nat.mod_eq_of_lt hsmall]
    rw [List.foldl_cons, List.foldl_nil, List.foldl_cons, List.foldl_nil, polymodStep_eq, polymodStep_eq, htop, hlow,
      Nat.shiftLeft_xor_distrib, Nat.mod_eq_of_lt (show v < 2 ^ 8 by omega)]
    simp [Nat.xor_assoc, Nat.xor_comm, Nat.xor_left_comm]

theorem symbols_flatMap (n poly : Nat) :
    ((List.range n).map fun i => (poly >>> (5 * (n - 1 - i))) &&& 0x1f).flatMap (bits 5) = bits (5 * n) poly := by
  induction n with
  | zero => rfl
  | succ n ih =>
    have hhead : bits 5 ((poly >>> (5 * n)) &&& 0x1f) = bits 5 (poly >>> (5 * n)) := bits_mask 5 _
    rw [List.range_succ_eq_map, List.map_cons, List.flatMap_cons, List.map_map, show n + 1 - 1 - 0 = n from rfl, hhead,
      show 5 * (n + 1) = 5 + 5 * n by omega, bits_add, ← ih]
    congr 2
    refine List.map_congr_left fun i _ => ?_
    simp only [Function.comp_apply, Nat.add_sub_cancel]
    rw [show n - (i + 1) = n - 1 - i by omega]

theorem checksum5_flatMap {poly : Nat} : (checksum5 poly).flatMap (bits 5) = bits 40 poly := symbols_flatMap 8 poly

theorem checksum5_lt (poly : Nat) : ∀ v ∈ checksum5 poly, v < 32 := fun v hv => by
  obtain ⟨i, -, rfl⟩ := List.mem_map.1 hv
  exact mask_lt 5 _

theorem length_checksum5 (poly : Nat) : (checksum5 poly).length = 8 := by simp [checksum5]

/-- Eight symbols end a valid address exactly if they are the checksum. -/
theorem polymod_eq_zero_iff {t e : List Nat} (he : ∀ v ∈ e, v < 32) (hlen : e.length = 8) :
    cashaddrPolymod (t ++ e) = 0 ↔ e = checksum5 (cashaddrPolymod (t ++ [0, 0, 0, 0, 0, 0, 0, 0])) := by
  have hstate := foldl_polymodStep_lt (c := 1) (by decide) (t ++ [0, 0, 0, 0, 0, 0, 0, 0])
  have hpoly : cashaddrPolymod (t ++ [0, 0, 0, 0, 0, 0, 0, 0]) < 2 ^ 40 := Nat.xor_lt_two_pow hstate (by decide)
  have hvalue : cashaddrPolymod (t ++ e) = cashaddrPolymod (t ++ [0, 0, 0, 0, 0, 0, 0, 0]) ^^^ packed e := by
    rw [cashaddrPolymod, cashaddrPolymod, List.foldl_append, List.foldl_append,
      foldl_polymodStep_packed e he (by omega), hlen, Nat.xor_assoc, Nat.xor_comm (packed e), ← Nat.xor_assoc]
    rfl
  obtain ⟨hbits, hlt⟩ := bits_packed he
  rw [hlen] at hbits hlt
  rw [hvalue]
  generalize cashaddrPolymod (t ++ [0, 0, 0, 0, 0, 0, 0, 0]) = poly at hpoly
  constructor
  · intro h
    have hsame : packed e = poly := by
      have hmove := congrArg (poly ^^^ ·) h
      simpa [← Nat.xor_assoc] using hmove
    refine flatMap_bits_inj (n := 5) (by decide) he (checksum5_lt poly) ?_
    rw [checksum5_flatMap, ← hbits, hsame]
  · rintro rfl
    rw [checksum5_flatMap] at hbits
    rw [(bits_inj hlt hpoly).1 hbits, Nat.xor_self]

/-! ## The charset -/

/-- The character of a symbol. -/
def symbol (v : Nat) : Char := CHARSET.getD v ' '

theorem symbol_table : (List.range 32).all (fun v => charsetRev (symbol v) == some v && (symbol v).toNat < 128 &&
    (symbol v).toLower == symbol v && !isSpace (symbol v) && symbol v != ':' && symbol v != 'b') = true := by
  decide +kernel

theorem symbol_spec {v : Nat} (hv : v < 32) : charsetRev (symbol v) = some v ∧ (symbol v).toNat < 128 ∧
    (symbol v).toLower = symbol v ∧ isSpace (symbol v) = false ∧ symbol v ≠ ':' ∧ symbol v ≠ 'b' := by
  have h := List.all_eq_true.1 symbol_table v (List.mem_range.2 hv)
  simp only [Bool.and_eq_true, beq_iff_eq, bne_iff_ne, decide_eq_true_eq, Bool.not_eq_true'] at h
  exact ⟨h.1.1.1.1.1, h.1.1.1.1.2, h.1.1.1.2, h.1.1.2, h.1.2, h.2⟩

theorem charsetRev_eq_some {c : Char} {v : Nat} : charsetRev c = some v ↔ v < 32 ∧ c = symbol v := by
  constructor
  · intro h
    obtain ⟨hlt, hc, -⟩ := List.idxOf?_eq_some_iff.1 h
    have hlen : CHARSET.length = 32 := by decide +kernel
    refine ⟨hlen ▸ hlt, ?_⟩
    rw [symbol, List.getD_eq_getElem _ _ hlt, hc]
  · rintro ⟨hv, rfl⟩
    exact (symbol_spec hv).1

/-- The body that symbols are written as. -/
def bodyOf (data : List Nat) : List Char := data.map symbol

theorem bodyData_eq_ok {body : List Char} {data : List Nat} :
    bodyData body = .ok data ↔ (∀ v ∈ data, v < 32) ∧ body = bodyOf data := by
  induction body generalizing data with
  | nil => cases data <;> simp [bodyData, bodyOf]
  | cons c body ih =>
    rw [bodyData]
    cases hc : charsetRev c with
    | none =>
      refine ⟨fun h => (nomatch h), ?_⟩
      rintro ⟨hdata, hbody⟩
      cases data with
      | nil => cases hbody
      | cons v data =>
        rw [bodyOf, List.map_cons, List.cons.injEq] at hbody
        rw [hbody.1, (symbol_spec (hdata v List.mem_cons_self)).1] at hc
        cases hc
    | some v =>
      obtain ⟨hv, rfl⟩ := charsetRev_eq_some.1 hc
      constructor
      · intro h
        cases hrest : bodyData body with
        | error e => simp [hrest, Except.map] at h
        | ok data' =>
          simp only [hrest, Except.map, Except.ok.injEq] at h
          obtain ⟨hdata', rfl⟩ := ih.1 hrest
          subst h
          exact ⟨List.forall_mem_cons.2 ⟨hv, hdata'⟩, rfl⟩
      · rintro ⟨hdata, hbody⟩
        cases data with
        | nil => cases hbody
        | cons w data =>
          rw [bodyOf, List.map_cons, List.cons.injEq] at hbody
          have hw := hdata w List.mem_cons_self
          have hvw : v = w := by
            have hrev := (symbol_spec hv).1
            rw [hbody.1, (symbol_spec hw).1] at hrev
            exact (Option.some.inj hrev).symm
          rw [ih.2 ⟨fun u hu => hdata u (List.mem_cons_of_mem _ hu), hbody.2⟩, hvw]
          rfl

theorem bodyOf_inj {data data' : List Nat} (h : ∀ v ∈ data, v < 32) (h' : ∀ v ∈ data', v < 32)
    (heq : bodyOf data = bodyOf data') : data = data' := by
  have hok := bodyData_eq_ok.2 ⟨h, rfl⟩
  rw [heq, bodyData_eq_ok.2 ⟨h', rfl⟩] at hok
  exact (Except.ok.inj hok).symm

/-! ## Payloads -/

/-- The bytes of an address are a version byte and a hash of the size that it tells. -/
structure Payload (payloadBytes : List Nat) (type : AddressType) (hash : List UInt8) : Prop where
  cons : ∃ v, payloadBytes = v :: hash.map UInt8.toNat ∧ v < 256 ∧ hash.length = hashSizeFromVersionByte v ∧
    typeFromVersionByte v = .ok type
  size : hash.length = 20 ∨ type = .p2sh ∧ hash.length = 32

theorem ofNat_toNat (hash : List UInt8) : (hash.map UInt8.toNat).map UInt8.ofNat = hash := by
  rw [List.map_map]
  exact (List.map_congr_left fun b _ => UInt8.ofNat_toNat).trans (List.map_id _)

theorem toNat_ofNat {l : List Nat} (h : ∀ x ∈ l, x < 256) : (l.map UInt8.ofNat).map UInt8.toNat = l := by
  rw [List.map_map]
  refine (List.map_congr_left fun x hx => ?_).trans (List.map_id _)
  have hlt := h x hx
  simp only [Function.comp_apply, UInt8.toNat_ofNat', id_eq]
  omega

theorem addressOf_cons {v : Nat} {hash : List UInt8} {type : AddressType} {hash' : List UInt8} :
    addressOf (v :: hash.map UInt8.toNat) = .ok (type, hash') ↔ hash = hash' ∧ hash.length = hashSizeFromVersionByte v ∧
      typeFromVersionByte v = .ok type ∧ (hash.length = 20 ∨ type = .p2sh ∧ hash.length = 32) := by
  simp only [addressOf, List.getD_cons_zero, List.drop_succ_cons, List.drop_zero, ofNat_toNat]
  by_cases hsize : hash.length = hashSizeFromVersionByte v
  · rw [if_neg (not_not.2 hsize), and_iff_right hsize]
    clear hsize
    cases htype : typeFromVersionByte v with
    | error e => simp [Except.bind]
    | ok t =>
      cases t with
      | p2pkh =>
        by_cases h20 : hash.length = 20
        · simp [Except.bind, h20, eq_comm, and_comm]
        · simp only [Except.bind]
          rw [if_pos ⟨trivial, h20⟩]
          refine ⟨fun h => (nomatch h), ?_⟩
          rintro ⟨-, htype, h | ⟨rfl, -⟩⟩
          · exact absurd h h20
          · cases htype
      | p2sh =>
        by_cases h20 : hash.length = 20
        · simp [Except.bind, h20, eq_comm, and_comm]
        · by_cases h32 : hash.length = 32 <;> simp [Except.bind, h20, h32, eq_comm, and_comm]
  · rw [if_pos hsize]
    simp [hsize]

theorem addressOf_iff {payloadBytes : List Nat} (h : ∀ x ∈ payloadBytes, x < 256) {type : AddressType}
    {hash : List UInt8} : addressOf payloadBytes = .ok (type, hash) ↔ Payload payloadBytes type hash := by
  cases payloadBytes with
  | nil =>
    refine ⟨fun h => ?_, fun h => ?_⟩
    · simp [addressOf, hashSizeFromVersionByte] at h
    · obtain ⟨v, hnil, -⟩ := h.cons
      cases hnil
  | cons v hs =>
    have hs_eq := toNat_ofNat fun x hx => h x (List.mem_cons_of_mem _ hx)
    rw [← hs_eq, addressOf_cons]
    constructor
    · rintro ⟨rfl, hsize, htype, hstandard⟩
      exact ⟨⟨v, rfl, h v List.mem_cons_self, hsize, htype⟩, hstandard⟩
    · rintro ⟨⟨w, heq, -, hsize, htype⟩, hstandard⟩
      obtain ⟨rfl, htail⟩ := List.cons.inj heq
      have hhash : hs.map UInt8.ofNat = hash := by
        have hmap := congrArg (List.map UInt8.ofNat) htail
        rwa [ofNat_toNat, ofNat_toNat] at hmap
      rw [hhash]
      exact ⟨rfl, hsize, htype, hstandard⟩

/-- What the symbols of a valid address hold. -/
structure Valid (data : List Nat) (type : AddressType) (hash : List UInt8) : Prop where
  lt (v : Nat) : v ∈ data → v < 32
  checksum : cashaddrPolymod (prefix5 CASHADDR_PREFIX ++ 0 :: data) = 0
  payload : ∃ payloadBytes z, Payload payloadBytes type hash ∧ z < 5 ∧
    (data.take (data.length - 8)).flatMap (bits 5) = payloadBytes.flatMap (bits 8) ++ List.replicate z false

theorem Payload.lt {payloadBytes : List Nat} {type : AddressType} {hash : List UInt8}
    (h : Payload payloadBytes type hash) : ∀ x ∈ payloadBytes, x < 2 ^ 8 := by
  obtain ⟨v, rfl, hv, -⟩ := h.cons
  refine List.forall_mem_cons.2 ⟨hv, fun x hx => ?_⟩
  obtain ⟨b, -, rfl⟩ := List.mem_map.1 hx
  exact b.toNat_lt

theorem readData_iff {data : List Nat} (h : ∀ v ∈ data, v < 32) {type : AddressType} {hash : List UInt8} :
    readData CASHADDR_PREFIX data = .ok (type, hash) ↔ Valid data type hash := by
  have hpayload : ∀ d ∈ data.take (data.length - 8), d < 2 ^ 5 := fun d hd => h d (List.mem_of_mem_take hd)
  have hconvert (r : List Nat) := convertBits_iff (m := 8) (r := r) (show 5 ≤ 8 by decide) (by decide) (by decide) hpayload
  rw [readData]
  by_cases hsum : cashaddrPolymod (prefix5 CASHADDR_PREFIX ++ 0 :: data) = 0
  · rw [if_neg (not_not.2 hsum)]
    constructor
    · intro hok
      cases hbytes : convertBits (data.take (data.length - 8)) 5 8 false with
      | error e => simp [hbytes, Except.bind] at hok
      | ok payloadBytes =>
        rw [hbytes, Except.bind] at hok
        obtain ⟨hlt, z, hz, -, hbits⟩ := (hconvert payloadBytes).1 hbytes
        exact ⟨h, hsum, payloadBytes, z, (addressOf_iff hlt).1 hok, hz, hbits⟩
    · rintro ⟨-, -, payloadBytes, z, hpay, hz, hbits⟩
      rw [(hconvert payloadBytes).2 ⟨hpay.lt, z, hz, by omega, hbits⟩, Except.bind]
      exact (addressOf_iff hpay.lt).2 hpay
  · rw [if_pos hsum]
    exact ⟨fun h => (nomatch h), fun h => absurd h.checksum hsum⟩

/-! ## Lengths -/

/-- 21 bytes take 34 symbols, and 33 bytes 53. -/
theorem Valid.length {data : List Nat} {type : AddressType} {hash : List UInt8} (h : Valid data type hash) :
    hash.length = 20 ∧ data.length = 42 ∨ hash.length = 32 ∧ data.length = 61 := by
  obtain ⟨payloadBytes, z, hpay, hz, hbits⟩ := h.payload
  obtain ⟨v, rfl, -⟩ := hpay.cons
  have hlen := congrArg List.length hbits
  simp only [length_flatMap_bits, List.length_take, List.length_append, List.length_replicate, List.length_cons,
    List.length_map] at hlen
  rcases hpay.size with hsize | ⟨-, hsize⟩ <;> omega

/-! ## What an input is read as -/

section Input

variable {k : Casing} {s : List Char}

theorem splitPrefix_append {x y : List Char} (h : ':' ∈ x ∨ ':' ∉ y) :
    splitPrefix (x ++ y) = ((splitPrefix x).1, (splitPrefix x).2 ++ y) := by
  by_cases hx : ':' ∈ x
  · have htake : ∀ (x : List Char), ':' ∈ x → (x ++ y).takeWhile (· ≠ ':') = x.takeWhile (· ≠ ':') ∧
        ((x ++ y).dropWhile (· ≠ ':')).tail = (x.dropWhile (· ≠ ':')).tail ++ y := by
      intro x
      induction x with
      | nil => exact fun h => absurd h List.not_mem_nil
      | cons c x ih =>
        intro h
        by_cases hc : c = ':'
        · simp [hc]
        · obtain ⟨htake, hdrop⟩ := ih ((List.mem_cons.1 h).resolve_left fun h => hc h.symm)
          simp only [List.cons_append, List.takeWhile_cons, List.dropWhile_cons, hc, ne_eq, not_false_eq_true,
            decide_true, if_true]
          exact ⟨congrArg (c :: ·) htake, hdrop⟩
    obtain ⟨htake, hdrop⟩ := htake x hx
    simp only [splitPrefix, List.contains_eq_mem, List.mem_append, hx, true_or, decide_true, if_true, htake, hdrop]
  · have hy := h.resolve_left hx
    simp [splitPrefix, hx, hy]

/-- An accepted input: lower-cased, it is the body of a valid address, with the prefix or without it. -/
structure Reads (k : Casing) (s : List Char) (data : List Nat) (type : AddressType) (hash : List UInt8) : Prop where
  split : splitPrefix (k.toLowerCase (trim s)) = (CASHADDR_PREFIX, bodyOf data)
  valid : Valid data type hash

theorem decodeCashAddr_iff {type : AddressType} {hash : List UInt8} :
    decodeCashAddr k s = .ok (type, hash) ↔ ∃ data, Reads k s data type hash := by
  rw [decodeCashAddr]
  by_cases hpre : (splitPrefix (k.toLowerCase (trim s))).1 = CASHADDR_PREFIX
  · rw [if_neg (not_not.2 hpre), hpre]
    constructor
    · intro hok
      cases hbody : bodyData (splitPrefix (k.toLowerCase (trim s))).2 with
      | error e => simp [hbody, Except.bind] at hok
      | ok data =>
        rw [hbody, Except.bind] at hok
        obtain ⟨hlt, hbody⟩ := bodyData_eq_ok.1 hbody
        exact ⟨data, Prod.ext hpre hbody, (readData_iff hlt).1 hok⟩
    · rintro ⟨data, hsplit, hvalid⟩
      rw [hsplit, bodyData_eq_ok.2 ⟨hvalid.lt, rfl⟩, Except.bind]
      exact (readData_iff hvalid.lt).2 hvalid
  · rw [if_pos hpre]
    refine ⟨fun h => (nomatch h), ?_⟩
    rintro ⟨data, hsplit, -⟩
    rw [hsplit] at hpre
    exact absurd rfl hpre

/-- The two texts that are read so. -/
theorem splitPrefix_eq {t body : List Char} (hbody : ':' ∉ body) :
    splitPrefix t = (CASHADDR_PREFIX, body) ↔ t = body ∨ t = CASHADDR_PREFIX ++ ':' :: body := by
  have hcolon : ':' ∉ CASHADDR_PREFIX := by decide +kernel
  constructor
  · intro h
    by_cases ht : ':' ∈ t
    · right
      simp only [splitPrefix, List.contains_eq_mem, ht, decide_true, if_true, Prod.mk.injEq] at h
      have hsplit := List.takeWhile_append_dropWhile (p := (· ≠ ':')) (l := t)
      rw [h.1] at hsplit
      have hdrop : t.dropWhile (· ≠ ':') = ':' :: body := by
        cases hd : t.dropWhile (· ≠ ':') with
        | nil =>
          rw [hd, List.append_nil] at hsplit
          rw [← hsplit] at ht
          exact absurd ht hcolon
        | cons c rest =>
          have hc := List.head?_dropWhile_not (· ≠ ':') t
          rw [hd] at hc h
          have hc' : c = ':' := by simpa using hc
          rw [hc', ← h.2]
          rfl
      rw [← hsplit, hdrop]
    · left
      simpa [splitPrefix, ht] using h
  · rintro (rfl | rfl)
    · simp [splitPrefix, hbody]
    · have hempty : splitPrefix (CASHADDR_PREFIX ++ [':']) = (CASHADDR_PREFIX, []) := by decide +kernel
      have happend := splitPrefix_append (x := CASHADDR_PREFIX ++ [':']) (y := body) (.inl (by simp))
      rw [List.append_assoc, hempty] at happend
      exact happend

theorem bodyOf_spec {data : List Nat} (h : ∀ v ∈ data, v < 32) {c : Char} (hc : c ∈ bodyOf data) :
    c.toNat < 128 ∧ c.toLower = c ∧ isSpace c = false ∧ c ≠ ':' ∧ c ≠ 'b' := by
  obtain ⟨v, hv, rfl⟩ := List.mem_map.1 hc
  exact (symbol_spec (h v hv)).2

end Input

/-! ## One address for one payload -/

/-- Symbols with a checksum that hold these bytes and zero padding. -/
structure Holds (data payloadBytes : List Nat) : Prop where
  lt (v : Nat) : v ∈ data → v < 32
  checksum : cashaddrPolymod (prefix5 CASHADDR_PREFIX ++ 0 :: data) = 0
  length : 8 ≤ data.length
  bits : ∃ z, z < 5 ∧
    (data.take (data.length - 8)).flatMap (bits 5) = payloadBytes.flatMap (bits 8) ++ List.replicate z false

/-- The symbols that end a payload. -/
def sealed (payload5 : List Nat) : List Nat :=
  payload5 ++ checksum5 (cashaddrPolymod (prefix5 CASHADDR_PREFIX ++ 0 :: payload5 ++ [0, 0, 0, 0, 0, 0, 0, 0]))

theorem Holds.sealed_eq {data payloadBytes : List Nat} (h : Holds data payloadBytes) :
    data = sealed (data.take (data.length - 8)) := by
  have hlen := h.length
  have hsum := h.checksum
  rw [← List.take_append_drop (data.length - 8) data, ← List.cons_append, ← List.append_assoc] at hsum
  have htail := (polymod_eq_zero_iff (fun v hv => h.lt v (List.mem_of_mem_drop hv))
    (by rw [List.length_drop]; omega)).1 hsum
  conv_lhs => rw [← List.take_append_drop (data.length - 8) data, htail]
  rfl

theorem Holds.inj {data data' payloadBytes : List Nat} (h : Holds data payloadBytes) (h' : Holds data' payloadBytes) :
    data = data' := by
  obtain ⟨z, hz, hbits⟩ := h.bits
  obtain ⟨z', hz', hbits'⟩ := h'.bits
  have hlen := congrArg List.length hbits
  have hlen' := congrArg List.length hbits'
  simp only [length_flatMap_bits, List.length_append, List.length_replicate] at hlen hlen'
  have hsame : z = z' := by omega
  have hpayload := flatMap_bits_inj (n := 5) (by decide) (fun v hv => h.lt v (List.mem_of_mem_take hv))
    (fun v hv => h'.lt v (List.mem_of_mem_take hv)) (hbits.trans (hsame ▸ hbits'.symm))
  rw [h.sealed_eq, h'.sealed_eq, hpayload]

theorem holds_sealed {payload5 payloadBytes : List Nat} {z : Nat} (hlt : ∀ v ∈ payload5, v < 2 ^ 5) (hz : z < 5)
    (hbits : payload5.flatMap (bits 5) = payloadBytes.flatMap (bits 8) ++ List.replicate z false) :
    Holds (sealed payload5) payloadBytes := by
  have hlength : (sealed payload5).length = payload5.length + 8 := by
    rw [sealed, List.length_append, length_checksum5]
  refine ⟨fun v hv => ?_, ?_, by omega, z, hz, ?_⟩
  · rcases List.mem_append.1 hv with hv | hv
    · exact hlt v hv
    · exact checksum5_lt _ v hv
  · rw [sealed, ← List.cons_append, ← List.append_assoc]
    exact (polymod_eq_zero_iff (checksum5_lt _) (length_checksum5 _)).2 rfl
  · rw [hlength, Nat.add_sub_cancel, sealed, List.take_left]
    exact hbits

theorem Valid.holds {data : List Nat} {type : AddressType} {hash : List UInt8} (h : Valid data type hash) :
    ∃ payloadBytes, Holds data payloadBytes ∧ Payload payloadBytes type hash := by
  obtain ⟨payloadBytes, z, hpay, hz, hbits⟩ := h.payload
  have hlen := h.length
  exact ⟨payloadBytes, ⟨h.lt, h.checksum, by omega, z, hz, hbits⟩, hpay⟩

theorem Holds.valid {data payloadBytes : List Nat} {type : AddressType} {hash : List UInt8}
    (h : Holds data payloadBytes) (hpay : Payload payloadBytes type hash) : Valid data type hash := by
  obtain ⟨z, hz, hbits⟩ := h.bits
  exact ⟨h.lt, h.checksum, payloadBytes, z, hpay, hz, hbits⟩

/-- The version byte of a type, with a 20-byte hash. -/
def versionOf : AddressType → Nat
  | .p2pkh => 0x00
  | .p2sh => 0x08

theorem version_table : (List.range 256).all (fun v => [AddressType.p2pkh, .p2sh].all fun type =>
    (hashSizeFromVersionByte v == 20 && (typeFromVersionByte v).toOption == some type) ==
      (v == versionOf type || v == versionOf type + 0x80)) = true := by decide +kernel

theorem payload_twenty {v : Nat} {type : AddressType} (hv : v < 256) : hashSizeFromVersionByte v = 20 ∧
    typeFromVersionByte v = .ok type ↔ v = versionOf type ∨ v = versionOf type + 0x80 := by
  have hrow := List.all_eq_true.1 version_table v (List.mem_range.2 hv)
  have h := List.all_eq_true.1 hrow type (by cases type <;> simp)
  have hok : (typeFromVersionByte v).toOption = some type ↔ typeFromVersionByte v = .ok type := by
    cases typeFromVersionByte v <;> simp [Except.toOption]
  rw [beq_iff_eq, Bool.eq_iff_iff, Bool.and_eq_true, Bool.or_eq_true, beq_iff_eq, beq_iff_eq, beq_iff_eq, beq_iff_eq,
    hok] at h
  exact h

theorem encodeCashAddr_spec {hash : List UInt8} (hlen : hash.length = 20) (type : AddressType) :
    ∃ data, encodeCashAddr hash type = .ok (CASHADDR_PREFIX ++ ':' :: bodyOf data) ∧
      Holds data (versionOf type :: hash.map UInt8.toNat) := by
  have hbytes : ∀ d ∈ versionOf type :: hash.map UInt8.toNat, d < 2 ^ 8 := by
    refine List.forall_mem_cons.2 ⟨by cases type <;> decide, fun d hd => ?_⟩
    obtain ⟨b, -, rfl⟩ := List.mem_map.1 hd
    exact b.toNat_lt
  obtain ⟨payload5, z, hconvert, hz, hlt, hbits⟩ := convertBits_pad (m := 5) (show 8 ≤ 8 by decide) (by decide) (by decide)
    hbytes
  have hversion : versionByteFor type hash.length = .ok (versionOf type) := by
    cases type <;> simp [versionByteFor, hlen, versionOf]
  refine ⟨sealed payload5, ?_, holds_sealed hlt hz hbits⟩
  rw [encodeCashAddr, hversion, Except.bind, hconvert]
  rfl

/-! ## The law -/

/-- The input in lower case and with its prefix. -/
def canonical (k : Casing) (s : List Char) : List Char :=
  if (k.toLowerCase (trim s)).contains ':' then k.toLowerCase (trim s)
  else CASHADDR_PREFIX ++ ':' :: k.toLowerCase (trim s)

section Law

variable {k : Casing} {s : List Char}

theorem bodyOf_no_colon {data : List Nat} (h : ∀ v ∈ data, v < 32) : ':' ∉ bodyOf data := fun hc =>
  absurd rfl (bodyOf_spec h hc).2.2.2.1

theorem canonical_iff {data : List Nat} (h : ∀ v ∈ data, v < 32) :
    canonical k s = CASHADDR_PREFIX ++ ':' :: bodyOf data ↔
      splitPrefix (k.toLowerCase (trim s)) = (CASHADDR_PREFIX, bodyOf data) := by
  rw [splitPrefix_eq (bodyOf_no_colon h), canonical]
  generalize k.toLowerCase (trim s) = t
  by_cases ht : ':' ∈ t
  · have hne : t ≠ bodyOf data := fun heq => bodyOf_no_colon h (heq ▸ ht)
    simp [ht, hne]
  · have hne : t ≠ CASHADDR_PREFIX ++ ':' :: bodyOf data := fun heq => ht (by rw [heq]; simp)
    simp [ht, hne]

theorem canonical_self {data : List Nat} (h : ∀ v ∈ data, v < 32) :
    canonical k (CASHADDR_PREFIX ++ ':' :: bodyOf data) = CASHADDR_PREFIX ++ ':' :: bodyOf data := by
  have hpre : ∀ c ∈ CASHADDR_PREFIX ++ [':'], c.toNat < 128 ∧ c.toLower = c ∧ isSpace c = false := by
    have hall : (CASHADDR_PREFIX ++ [':']).all (fun c => decide (c.toNat < 128) && c.toLower == c && !isSpace c) = true := by
      decide +kernel
    intro c hc
    have hrow := List.all_eq_true.1 hall c hc
    simpa [and_assoc] using hrow
  have hchar : ∀ c ∈ CASHADDR_PREFIX ++ ':' :: bodyOf data, c.toNat < 128 ∧ c.toLower = c ∧ isSpace c = false := by
    intro c hc
    rw [← List.singleton_append, ← List.append_assoc] at hc
    rcases List.mem_append.1 hc with hc | hc
    · exact hpre c hc
    · obtain ⟨hascii, hlower, hspace, -⟩ := bodyOf_spec h hc
      exact ⟨hascii, hlower, hspace⟩
  have htrim : trim (CASHADDR_PREFIX ++ ':' :: bodyOf data) = CASHADDR_PREFIX ++ ':' :: bodyOf data :=
    trim_eq_self (fun c hc => (hchar c (List.mem_of_mem_head? hc)).2.2)
      (fun c hc => (hchar c (List.mem_of_getLast? hc)).2.2)
  have hlower : k.toLowerCase (CASHADDR_PREFIX ++ ':' :: bodyOf data) = CASHADDR_PREFIX ++ ':' :: bodyOf data := by
    rw [k.toLowerCase_ascii fun c hc => (hchar c hc).1]
    exact (List.map_congr_left fun c hc => (hchar c hc).2.1).trans (List.map_id _)
  rw [canonical, htrim, hlower, if_pos (by simp)]

/-- An address whose checksum and padding are right and whose version byte has the reserved bit. -/
def Reserved (k : Casing) (s : List Char) : Prop :=
  ∃ (data : List Nat) (hash : List UInt8) (type : AddressType),
    splitPrefix (k.toLowerCase (trim s)) = (CASHADDR_PREFIX, bodyOf data) ∧ hash.length = 20 ∧
      Holds data ((versionOf type + 0x80) :: hash.map UInt8.toNat)

/-- What is asked of the codec at an input. -/
structure CashAddrLaw (k : Casing) (s : List Char) : Prop where
  roundTrip (hash : List UInt8) (type : AddressType) : hash.length = 20 →
    ∃ a, encodeCashAddr hash type = .ok a ∧ decodeCashAddr k a = .ok (type, hash)
  accepts (hash : List UInt8) (type : AddressType) : hash.length = 20 →
    encodeCashAddr hash type = .ok (canonical k s) → decodeCashAddr k s = .ok (type, hash)
  canonical (hash : List UInt8) (type : AddressType) : decodeCashAddr k s = .ok (type, hash) → hash.length = 20 →
    encodeCashAddr hash type = .ok (canonical k s)
  oneChar (a b : List Char) (c c' : Char) (r r' : AddressType × List UInt8) : s = a ++ c :: b → isSpace c = false →
    ':' ∉ c :: b → decodeCashAddr k s = .ok r → decodeCashAddr k (a ++ c' :: b) = .ok r' →
    k.toLowerCase (trim (a ++ c' :: b)) = k.toLowerCase (trim s)

theorem decode_of_canonical {hash : List UInt8} {type : AddressType} (hlen : hash.length = 20)
    (h : encodeCashAddr hash type = .ok (canonical k s)) : decodeCashAddr k s = .ok (type, hash) := by
  obtain ⟨data, hencode, hholds⟩ := encodeCashAddr_spec hlen type
  rw [hencode, Except.ok.injEq] at h
  have hsplit := (canonical_iff hholds.lt).1 h.symm
  have hversion := (payload_twenty (v := versionOf type) (by cases type <;> decide)).2 (.inl rfl)
  refine decodeCashAddr_iff.2 ⟨data, hsplit, hholds.valid ⟨⟨_, rfl, by cases type <;> decide, ?_, hversion.2⟩, .inl hlen⟩⟩
  rw [hlen, hversion.1]

theorem Holds.payload_inj {data payloadBytes payloadBytes' : List Nat} (h : Holds data payloadBytes)
    (h' : Holds data payloadBytes') (hlt : ∀ x ∈ payloadBytes, x < 2 ^ 8) (hlt' : ∀ x ∈ payloadBytes', x < 2 ^ 8) :
    payloadBytes = payloadBytes' := by
  obtain ⟨z, hz, hbits⟩ := h.bits
  obtain ⟨z', hz', hbits'⟩ := h'.bits
  have hlen := congrArg List.length hbits
  have hlen' := congrArg List.length hbits'
  simp only [length_flatMap_bits, List.length_append, List.length_replicate] at hlen hlen'
  have hsame := hbits.symm.trans hbits'
  obtain ⟨hgroups, -⟩ := List.append_inj' hsame (by simp only [List.length_replicate]; omega)
  exact flatMap_bits_inj (by decide) hlt hlt' hgroups

theorem bytes_lt {v : Nat} (hv : v < 256) (hash : List UInt8) : ∀ x ∈ v :: hash.map UInt8.toNat, x < 2 ^ 8 := by
  refine List.forall_mem_cons.2 ⟨hv, fun x hx => ?_⟩
  obtain ⟨b, -, rfl⟩ := List.mem_map.1 hx
  exact b.toNat_lt

theorem encode_of_decode {hash : List UInt8} {type : AddressType} (h : decodeCashAddr k s = .ok (type, hash))
    (hlen : hash.length = 20) (hplain : ¬ Reserved k s) : encodeCashAddr hash type = .ok (canonical k s) := by
  obtain ⟨data, hsplit, hvalid⟩ := decodeCashAddr_iff.1 h
  obtain ⟨payloadBytes, hholds, hpay⟩ := hvalid.holds
  obtain ⟨v, rfl, hv, hsize, htype⟩ := hpay.cons
  rcases (payload_twenty hv).1 ⟨by rw [← hsize, hlen], htype⟩ with rfl | rfl
  · obtain ⟨data', hencode, hholds'⟩ := encodeCashAddr_spec hlen type
    rw [(canonical_iff hholds.lt).2 hsplit, hholds.inj hholds', hencode]
  · exact absurd ⟨data, hash, type, hsplit, hlen, hholds⟩ hplain

theorem not_reserved (h : ∀ hash type, decodeCashAddr k s = .ok (type, hash) → hash.length = 20 →
    encodeCashAddr hash type = .ok (canonical k s)) : ¬ Reserved k s := by
  rintro ⟨data, hash, type, hsplit, hlen, hholds⟩
  have hv : versionOf type + 0x80 < 256 := by cases type <;> decide
  have hversion := (payload_twenty hv).2 (.inr rfl)
  have hdecode : decodeCashAddr k s = .ok (type, hash) := decodeCashAddr_iff.2 ⟨data, hsplit,
    hholds.valid ⟨⟨_, rfl, hv, by rw [hlen, hversion.1], hversion.2⟩, .inl hlen⟩⟩
  obtain ⟨data', hencode, hholds'⟩ := encodeCashAddr_spec hlen type
  have hsame := h hash type hdecode hlen
  rw [hencode, Except.ok.injEq, (canonical_iff hholds.lt).2 hsplit, List.append_cancel_left_eq, List.cons.injEq]
    at hsame
  have hdata := bodyOf_inj hholds'.lt hholds.lt hsame.2
  subst hdata
  have hbytes := hholds.payload_inj hholds' (bytes_lt hv hash) (bytes_lt (by cases type <;> decide) hash)
  have hfirst := (List.cons.inj hbytes).1
  omega

/-! ### One character -/

theorem toLower_of_space {c : Char} (hspace : isSpace c = true) (hascii : c.toNat < 128) : c.toLower = c := by
  have hrow : ∀ n < 128, isSpace (Char.ofNat n) = true → (Char.ofNat n).toLower = Char.ofNat n := by decide +kernel
  have h := hrow c.toNat hascii
  rw [Char.ofNat_toNat] at h
  exact h hspace

theorem lowerOne_colon {c : Char} : lowerOne c = ':' ↔ c = ':' := by
  constructor
  · intro h
    by_cases hkelvin : c = '\u212a'
    · rw [hkelvin] at h
      exact absurd h (by decide)
    · rw [lowerOne, if_neg hkelvin] at h
      by_cases hc : 91 ≤ c.toNat
      · rwa [toLower_eq_self hc] at h
      · have hrow : ∀ n < 91, (Char.ofNat n).toLower = ':' → Char.ofNat n = ':' := by decide +kernel
        have hself := hrow c.toNat (by omega)
        rw [Char.ofNat_toNat] at hself
        exact hself h
  · rintro rfl
    decide

variable {data : List Nat} {type : AddressType} {hash : List UInt8}

/-- An accepted text has no space between its ends, and each character is mapped by itself. -/
theorem Reads.plain (h : Reads k s data type hash) : k.toLowerCase (trim s) = (trim s).map lowerOne ∧
    ∀ c ∈ trim s, isSpace c = false := by
  have hpre : ∀ c ∈ CASHADDR_PREFIX ++ [':'], c.toNat < 128 ∧ isSpace c = false := by
    have hall : (CASHADDR_PREFIX ++ [':']).all (fun c => decide (c.toNat < 128) && !isSpace c) = true := by
      decide +kernel
    intro c hc
    simpa using List.all_eq_true.1 hall c hc
  have hbody : ∀ c ∈ bodyOf data, c.toNat < 128 ∧ isSpace c = false := fun c hc => by
    obtain ⟨hascii, -, hspace, -⟩ := bodyOf_spec h.valid.lt hc
    exact ⟨hascii, hspace⟩
  have hchar : ∀ c ∈ k.toLowerCase (trim s), c.toNat < 128 ∧ isSpace c = false := by
    rcases (splitPrefix_eq (bodyOf_no_colon h.valid.lt)).1 h.split with ht | ht
    · rw [ht]
      exact hbody
    · rw [ht, ← List.singleton_append, ← List.append_assoc]
      intro c hc
      rcases List.mem_append.1 hc with hc | hc
      · exact hpre c hc
      · exact hbody c hc
  obtain ⟨hmap, hascii⟩ := k.toLowerCase_plain fun d hd => (hchar d hd).1
  refine ⟨hmap, fun c hc => ?_⟩
  by_contra hspace
  rw [Bool.not_eq_false] at hspace
  rcases hascii c hc with hlow | rfl
  · have hone : lowerOne c = c := by
      have hne : c ≠ '\u212a' := by
        rintro rfl
        exact absurd hlow (by decide)
      rw [lowerOne, if_neg hne, toLower_of_space hspace hlow]
    have hmem : c ∈ k.toLowerCase (trim s) := by
      rw [hmap]
      exact List.mem_map.2 ⟨c, hc, hone⟩
    rw [(hchar c hmem).2] at hspace
    cases hspace
  · exact absurd hspace (by decide)

/-- The spaces around a text, and what is between. -/
theorem exists_ends (a b : List Char) : ∃ sp A B sp', a = sp ++ A ∧ b = B ++ sp' ∧ (∀ c ∈ sp, isSpace c = true) ∧
    (∀ c ∈ sp', isSpace c = true) ∧ (∀ c ∈ A.head?, isSpace c = false) ∧ ∀ c ∈ B.getLast?, isSpace c = false := by
  have hdrop (l : List Char) : ∀ c ∈ (l.dropWhile isSpace).head?, isSpace c = false := fun c hc => by
    have hnot := List.head?_dropWhile_not isSpace l
    rw [Option.mem_def.1 hc] at hnot
    simpa using hnot
  refine ⟨a.takeWhile isSpace, a.dropWhile isSpace, (b.reverse.dropWhile isSpace).reverse,
    (b.reverse.takeWhile isSpace).reverse, List.takeWhile_append_dropWhile.symm, ?_, fun c hc => List.mem_takeWhile_imp hc,
    fun c hc => List.mem_takeWhile_imp (List.mem_reverse.1 hc), hdrop a, ?_⟩
  · rw [← List.reverse_append, List.takeWhile_append_dropWhile, List.reverse_reverse]
  · simpa using hdrop b.reverse

theorem Reads.length (h : Reads k s data type hash) : (bodyOf data).length = 42 ∨ (bodyOf data).length = 61 := by
  rw [bodyOf, List.length_map]
  rcases h.valid.length with ⟨-, hlen⟩ | ⟨-, hlen⟩
  · exact .inl hlen
  · exact .inr hlen

/-- Two accepted texts that differ in one character of the body are the same in lower case. -/
theorem same_symbol {data' : List Nat} {p z : List Char} {y y' : Char} {type' : AddressType} {hash' : List UInt8}
    (h : Valid data type hash) (h' : Valid data' type' hash') (hbody : bodyOf data = p ++ y :: z)
    (hbody' : bodyOf data' = p ++ y' :: z) : y = y' := by
  obtain ⟨d, e, rfl, hd, he⟩ := List.map_eq_append_iff.1 hbody
  obtain ⟨d', e', rfl, hd', he'⟩ := List.map_eq_append_iff.1 hbody'
  obtain ⟨v, f, rfl, rfl, hf⟩ := List.map_eq_cons_iff.1 he
  obtain ⟨v', f', rfl, rfl, hf'⟩ := List.map_eq_cons_iff.1 he'
  have hlt := h.lt
  have hlt' := h'.lt
  have hdd : d = d' := bodyOf_inj (fun u hu => hlt u (by simp [hu])) (fun u hu => hlt' u (by simp [hu])) (hd.trans hd'.symm)
  have hff : f = f' := bodyOf_inj (fun u hu => hlt u (by simp [hu])) (fun u hu => hlt' u (by simp [hu])) (hf.trans hf'.symm)
  subst hdd hff
  have hsum := h.checksum.trans h'.checksum.symm
  rw [← List.cons_append, ← List.append_assoc, ← List.cons_append, ← List.append_assoc] at hsum
  rw [polymod_inj_symbol (hlt v (by simp)) (hlt' v' (by simp)) hsum]

/-- A changed character behind a colon, or with none, is one of the body. -/
theorem no_new_colon {x z : List Char} {data' : List Nat} {p : List Char} {y : Char}
    (hx : splitPrefix x = (CASHADDR_PREFIX, p)) (hbody : bodyOf data = p ++ y :: z) (hlt : ∀ v ∈ data, v < 32)
    (hlt' : ∀ v ∈ data', v < 32) (h' : splitPrefix (x ++ ':' :: z) = (CASHADDR_PREFIX, bodyOf data')) : False := by
  by_cases hcolon : ':' ∈ x
  · rw [splitPrefix_append (.inl hcolon), hx, Prod.mk.injEq] at h'
    exact bodyOf_no_colon hlt' (by rw [← h'.2]; simp)
  · have hp : p = x := by
      simp only [splitPrefix, List.contains_eq_mem, hcolon, decide_false, Bool.false_eq_true, if_false, Prod.mk.injEq,
        true_and] at hx
      exact hx.symm
    rcases (splitPrefix_eq (bodyOf_no_colon hlt')).1 h' with ht | ht
    · exact bodyOf_no_colon hlt' (by rw [← ht]; simp)
    · have hpre : CASHADDR_PREFIX = 'b' :: "itcoincash".toList := by decide +kernel
      rw [hpre] at ht
      cases x with
      | nil => exact absurd (List.cons.inj ht).1 (by decide)
      | cons c x =>
        have hc := (List.cons.inj ht).1
        have hmem : 'b' ∈ bodyOf data := by
          rw [hbody, hp, ← hc]
          simp
        exact (bodyOf_spec hlt hmem).2.2.2.2 rfl

theorem one_char {a b : List Char} {c c' : Char} {data' : List Nat} {type' : AddressType} {hash' : List UInt8}
    (h : Reads k (a ++ c :: b) data type hash) (hc : isSpace c = false) (hcolon : ':' ∉ c :: b)
    (h' : Reads k (a ++ c' :: b) data' type' hash') :
    k.toLowerCase (trim (a ++ c' :: b)) = k.toLowerCase (trim (a ++ c :: b)) := by
  obtain ⟨sp, A, B, sp', rfl, rfl, hsp, hsp', hhead, hlast⟩ := exists_ends a b
  have hends (d : Char) (hd : isSpace d = false) : trim (sp ++ A ++ d :: (B ++ sp')) = A ++ d :: B := by
    have hbetween := trim_between (s := A ++ d :: B) hsp hsp'
      (fun e he => by
        cases A with
        | nil =>
          obtain rfl : d = e := by simpa using he
          exact hd
        | cons f A => exact hhead e he)
      (fun e he => by
        by_cases hB : B = []
        · subst hB
          obtain rfl : d = e := by simpa using he
          exact hd
        · rw [List.getLast?_append_of_ne_nil _ (by simp), List.getLast?_cons_of_ne_nil hB] at he
          exact hlast e he)
    simpa using hbetween
  have htrim := hends c hc
  obtain ⟨hlower, hplain⟩ := h.plain
  rw [htrim] at hlower hplain
  have hsplit := h.split
  rw [htrim, hlower, List.map_append, List.map_cons] at hsplit
  have hno : ':' ∉ lowerOne c :: B.map lowerOne := fun hmem => by
    rw [← List.map_cons] at hmem
    obtain ⟨d, hd, hd'⟩ := List.mem_map.1 hmem
    rw [lowerOne_colon.1 hd'] at hd
    apply hcolon
    rcases List.mem_cons.1 hd with hd | hd
    · exact List.mem_cons.2 (.inl hd)
    · exact List.mem_cons_of_mem _ (List.mem_append_left _ hd)
  rw [splitPrefix_append (.inr hno), Prod.mk.injEq] at hsplit
  obtain ⟨hpre, hbody⟩ := hsplit
  obtain ⟨p, hp⟩ : ∃ p, (splitPrefix (A.map lowerOne)).2 = p := ⟨_, rfl⟩
  have hx : splitPrefix (A.map lowerOne) = (CASHADDR_PREFIX, p) := Prod.ext hpre hp
  rw [hp] at hbody
  by_cases hspace : isSpace c' = true
  · exfalso
    have hends' {X l r : List Char} (hX : ∀ d ∈ X, isSpace d = false) (hl : ∀ d ∈ l, isSpace d = true)
        (hr : ∀ d ∈ r, isSpace d = true) : trim (l ++ X ++ r) = X :=
      trim_between hl hr (fun d hd => hX d (List.mem_of_mem_head? hd)) fun d hd => hX d (List.mem_of_getLast? hd)
    obtain ⟨hlower', hplain'⟩ := h'.plain
    have hsplit' := h'.split
    have hlen := h.length
    have hlen' := h'.length
    by_cases hB : B = []
    · subst hB
      have htrim' : trim (sp ++ A ++ c' :: ([] ++ sp')) = A :=
        hends' (fun d hd => hplain d (List.mem_append_left _ hd)) hsp (List.forall_mem_cons.2 ⟨hspace, hsp'⟩)
      rw [hlower', htrim', hx, Prod.mk.injEq] at hsplit'
      have hshort := congrArg List.length hbody
      rw [← hsplit'.2] at hlen'
      simp only [List.length_append, List.map_nil, List.length_cons, List.length_nil] at hshort
      omega
    · by_cases hA : A = []
      · subst hA
        have htrim' : trim (sp ++ [] ++ c' :: (B ++ sp')) = B := by
          have hall := hends' (X := B) (l := sp ++ [c']) (r := sp')
            (fun d hd => hplain d (List.mem_append_right _ (List.mem_cons_of_mem _ hd)))
            (List.forall_mem_append.2 ⟨hsp, by simpa using hspace⟩) hsp'
          simpa using hall
        have hnone : ':' ∉ B.map lowerOne := fun hmem => hno (List.mem_cons_of_mem _ hmem)
        rw [hlower', htrim'] at hsplit'
        simp only [splitPrefix, List.contains_eq_mem, hnone, decide_false, Bool.false_eq_true, if_false, Prod.mk.injEq,
          true_and] at hsplit'
        obtain rfl : [] = p := by simpa [splitPrefix] using hp
        have hshort := congrArg List.length hbody
        rw [← hsplit'] at hlen'
        simp only [List.nil_append, List.length_cons] at hshort
        omega
      · have hbetween : trim (sp ++ A ++ c' :: (B ++ sp')) = A ++ c' :: B := by
          have hall := trim_between (s := A ++ c' :: B) hsp hsp'
            (fun d hd => hhead d (by rwa [List.head?_append_of_ne_nil _ hA] at hd))
            (fun d hd => hlast d (by
              rwa [List.getLast?_append_of_ne_nil _ (by simp), List.getLast?_cons_of_ne_nil hB] at hd))
          simpa using hall
        rw [hbetween] at hplain'
        rw [hplain' c' (by simp)] at hspace
        cases hspace
  · have hspace' : isSpace c' = false := by simpa using hspace
    obtain ⟨hlower', -⟩ := h'.plain
    have hsplit' := h'.split
    rw [hends c' hspace'] at hlower' hsplit' ⊢
    rw [htrim, hlower, hlower']
    rw [hlower', List.map_append, List.map_cons] at hsplit'
    by_cases hnew : lowerOne c' = ':'
    · rw [hnew] at hsplit'
      exact (no_new_colon hx hbody.symm h.valid.lt h'.valid.lt hsplit').elim
    · have hno' : ':' ∉ lowerOne c' :: B.map lowerOne := fun hmem => by
        rcases List.mem_cons.1 hmem with hmem | hmem
        · exact hnew hmem.symm
        · exact hno (List.mem_cons_of_mem _ hmem)
      rw [splitPrefix_append (.inr hno'), hx, Prod.mk.injEq] at hsplit'
      rw [List.map_append, List.map_append, List.map_cons, List.map_cons,
        same_symbol h.valid h'.valid hbody.symm hsplit'.2.symm]

/-- The codec does what is asked of it exactly where the reserved bit is not set. -/
theorem cashaddr_law_iff (k : Casing) (s : List Char) : CashAddrLaw k s ↔ ¬ Reserved k s := by
  constructor
  · intro h
    exact not_reserved h.canonical
  · intro h
    refine ⟨fun hash type hlen => ?_, fun hash type hlen hencode => decode_of_canonical hlen hencode,
      fun hash type hdecode hlen => encode_of_decode hdecode hlen h, ?_⟩
    · obtain ⟨data, hencode, hholds⟩ := encodeCashAddr_spec hlen type
      refine ⟨_, hencode, decode_of_canonical hlen ?_⟩
      rw [canonical_self hholds.lt, hencode]
    · intro a b c c' r r' hs hc hcolon hdecode hdecode'
      subst hs
      obtain ⟨data, hreads⟩ := decodeCashAddr_iff.1 hdecode
      obtain ⟨data', hreads'⟩ := decodeCashAddr_iff.1 hdecode'
      exact one_char hreads hc hcolon hreads'

/-- An address with the reserved bit, read as if its version byte were zero. -/
theorem not_always_canonical_address : ¬ ∀ (k : Casing) (s : List Char) (hash : List UInt8) (type : AddressType),
    decodeCashAddr k s = .ok (type, hash) → hash.length = 20 → encodeCashAddr hash type = .ok (canonical k s) := by
  intro h
  have hencode := h .sample "bitcoincash:sqzj5nm5nxlwxzpd2fmees0xpvc9275lcsewc44emm".toList
    ((List.range 20).map fun i => UInt8.ofNat (i * 37 + 5)) .p2pkh (by decide +kernel) (by decide +kernel)
  revert hencode
  decide +kernel

end Law

end Bch
