import PwndaWallet.Fees.Schedule
import PwndaWallet.Lib.Decimal

/-!
# Amounts as text

What `parse_amount` accepts: the decimal numbers that are whole atomic units, and the lone dot. It reads
back whatever `format_amount` writes.
-/

namespace Fees

open Rust

/-! ## Decimal numbers -/

/-- The digits before and after the point of a decimal number, which may have none. -/
def Spells (cs whole frac : List Char) : Prop := (cs = whole ∧ frac = []) ∨ cs = whole ++ '.' :: frac

/-- The text is a decimal number with at most 8 decimals, and is `n / 10 ^ 8`. -/
structure ReadsAs (s : String) (whole frac : List Char) (n : Nat) : Prop where
  spells : Spells s.toList whole frac
  whole_digits : whole.all Char.isDigit = true
  frac_digits : frac.all Char.isDigit = true
  precision : frac.length ≤ 8
  value : n * 10 ^ frac.length = digitsValue (whole ++ frac) * 10 ^ 8
  fits : n < 2 ^ 64

/-- The text has digits, and they are those of `n / 10 ^ 8`. -/
def Denotes (s : String) (n : Nat) : Prop := ∃ whole frac, ReadsAs s whole frac n ∧ (whole ≠ [] ∨ frac ≠ [])

theorem append_dot {cs : List Char} (h : '.' ∈ cs) :
    cs = cs.takeWhile (· ≠ '.') ++ '.' :: (cs.dropWhile (· ≠ '.')).tail := by
  induction cs with
  | nil => cases h
  | cons c cs ih =>
    by_cases hc : c = '.'
    · simp [hc]
    · have hmem : '.' ∈ cs := by simpa [Ne.symm hc] using h
      simpa [hc] using ih hmem

theorem splitPoint_spells (cs : List Char) : Spells cs (splitPoint cs).1 (splitPoint cs).2 := by
  unfold splitPoint
  by_cases hdot : '.' ∈ cs
  · rw [if_pos hdot]
    exact .inr (append_dot hdot)
  · rw [if_neg hdot]
    exact .inl ⟨rfl, rfl⟩

theorem isDigit_ne_dot {c : Char} (h : c.isDigit = true) : c ≠ '.' := by
  rintro rfl
  exact absurd h (by decide)

theorem splitPoint_of_spells {cs whole frac : List Char} (h : Spells cs whole frac)
    (hw : whole.all Char.isDigit = true) : splitPoint cs = (whole, frac) := by
  have hne : ∀ c ∈ whole, c ≠ '.' := fun c hc => isDigit_ne_dot (List.all_eq_true.1 hw c hc)
  have hdot : ∀ c ∈ whole, Decidable.decide (c ≠ '.') = true := fun c hc => decide_eq_true (hne c hc)
  rcases h with ⟨rfl, rfl⟩ | rfl
  · have hnone : '.' ∉ cs := fun hmem => hne '.' hmem rfl
    rw [splitPoint, if_neg hnone]
  · rw [splitPoint, if_pos (by simp)]
    rw [List.takeWhile_append_of_pos hdot, List.dropWhile_append_of_pos hdot]
    simp

/-! ## Parsing -/

theorem checked_units {w f n : Nat} :
    ((checkedAdd w 0).bind fun w => (checkedMul w atomicPerCoin).bind fun w => checkedAdd w f) = some n ↔
      w * 10 ^ 8 + f = n ∧ n < 2 ^ 64 := by
  unfold checkedAdd checkedMul atomicPerCoin
  constructor
  · intro h
    rw [Option.bind_eq_some_iff] at h
    obtain ⟨a, ha, h⟩ := h
    rw [Option.bind_eq_some_iff] at h
    obtain ⟨b, hb, h⟩ := h
    rw [Option.ite_none_right_eq_some] at ha hb h
    simp only [Option.some.injEq] at ha hb h
    omega
  · rintro ⟨rfl, hlt⟩
    have hscaled : w * 100000000 < 2 ^ 64 := Nat.lt_of_le_of_lt (Nat.le_add_right _ f) hlt
    have hwhole : w < 2 ^ 64 := Nat.lt_of_le_of_lt (Nat.le_mul_of_pos_right w (by decide)) hscaled
    rw [Nat.add_zero, if_pos hwhole, Option.bind_some, if_pos hscaled, Option.bind_some]
    exact if_pos hlt

/-- The atomic units of the two halves, if they fit. -/
theorem units_iff {whole frac : List Char} (hlen : frac.length ≤ 8) {n : Nat} :
    ((checkedAdd (digitsValue whole) 0).bind fun w => (checkedMul w atomicPerCoin).bind fun w =>
        checkedAdd w (digitsValue (frac ++ List.replicate (8 - frac.length) '0'))) = some n ↔
      n * 10 ^ frac.length = digitsValue (whole ++ frac) * 10 ^ 8 ∧ n < 2 ^ 64 := by
  have hpow : 10 ^ (8 - frac.length) * 10 ^ frac.length = 10 ^ 8 := by
    rw [← Nat.pow_add, Nat.sub_add_cancel hlen]
  have hpos : 0 < 10 ^ frac.length := Nat.pow_pos (by decide)
  have hvalue : (digitsValue whole * 10 ^ 8 + digitsValue frac * 10 ^ (8 - frac.length)) * 10 ^ frac.length =
      digitsValue (whole ++ frac) * 10 ^ 8 := by
    rw [digitsValue_append, Nat.add_mul, Nat.add_mul, Nat.mul_assoc (digitsValue frac), hpow]
    congr 1
    rw [Nat.mul_assoc, Nat.mul_assoc, Nat.mul_comm (10 ^ 8)]
  rw [digitsValue_pad]
  rw [checked_units, ← hvalue]
  constructor
  · rintro ⟨rfl, hlt⟩
    exact ⟨rfl, hlt⟩
  · rintro ⟨heq, hlt⟩
    exact ⟨(Nat.eq_of_mul_eq_mul_right hpos heq).symm, hlt⟩

theorem parseAmount_iff {text : String} {n : Nat} :
    parseAmount text = .ok n ↔ trim text ≠ "" ∧ ∃ whole frac, ReadsAs (trim text) whole frac n := by
  unfold parseAmount
  obtain ⟨whole, frac, hsplit⟩ : ∃ whole frac, splitPoint (trim text).toList = (whole, frac) := ⟨_, _, rfl⟩
  have hspells : Spells (trim text).toList whole frac := by
    have hself := splitPoint_spells (trim text).toList
    rwa [hsplit] at hself
  simp only [hsplit]
  constructor
  · intro h
    split_ifs at h with hempty hneg hlong hdigits
    simp only [Bool.not_eq_true', Bool.and_eq_false_iff, not_or, Bool.not_eq_false] at hdigits
    have hlen : frac.length ≤ 8 := Nat.le_trans (length_le_utf8ByteSize frac) (Nat.le_of_not_lt hlong)
    split at h
    · rename_i m hm
      obtain rfl := Except.ok.inj h
      obtain ⟨hvalue, hfits⟩ := (units_iff hlen).1 hm
      exact ⟨hempty, whole, frac, hspells, hdigits.1, hdigits.2, hlen, hvalue, hfits⟩
    · cases h
  · rintro ⟨hempty, whole', frac', hr⟩
    have heq := splitPoint_of_spells hr.spells hr.whole_digits
    rw [hsplit] at heq
    obtain ⟨rfl, rfl⟩ := Prod.mk.inj heq
    have hneg : whole.head? ≠ some '-' := by
      intro hhead
      obtain ⟨rest, rfl⟩ := List.head?_eq_some_iff.1 hhead
      have hdigits := hr.whole_digits
      simp at hdigits
    have hlong : ¬ (String.ofList frac).utf8ByteSize > 8 := by
      rw [utf8ByteSize_of_digits hr.frac_digits]
      exact Nat.not_lt.2 hr.precision
    rw [if_neg hempty, if_neg hneg, if_neg hlong, hr.whole_digits, hr.frac_digits]
    rw [(units_iff hr.precision).2 ⟨hr.value, hr.fits⟩]
    rfl

theorem spells_dot {whole frac : List Char} (h : Spells ['.'] whole frac) (hw : whole.all Char.isDigit = true) :
    whole = [] ∧ frac = [] := by
  have heq := splitPoint_of_spells h hw
  have hdot : splitPoint ['.'] = ([], []) := by decide
  rw [hdot] at heq
  obtain ⟨rfl, rfl⟩ := Prod.mk.inj heq
  exact ⟨rfl, rfl⟩

/-- The parser reads exactly the decimal numbers, the lone dot apart. -/
theorem parse_denotes_iff (text : String) :
    (∀ n, parseAmount text = .ok n ↔ Denotes (trim text) n) ↔ trim text ≠ "." := by
  constructor
  · intro h hdot
    have hzero : parseAmount text = .ok 0 := by
      refine parseAmount_iff.2 ⟨by rw [hdot]; decide, [], [], ?_⟩
      rw [hdot]
      exact ⟨.inr rfl, rfl, rfl, by decide, by decide, by decide⟩
    obtain ⟨whole, frac, hr, hne⟩ := (h 0).1 hzero
    have hspells := hr.spells
    rw [hdot] at hspells
    obtain ⟨rfl, rfl⟩ := spells_dot hspells hr.whole_digits
    simp at hne
  · intro hdot n
    rw [parseAmount_iff]
    constructor
    · rintro ⟨hempty, whole, frac, hr⟩
      refine ⟨whole, frac, hr, ?_⟩
      by_cases hw : whole = []
      · refine .inr fun hf => ?_
        subst hw hf
        rcases hr.spells with ⟨hnil, -⟩ | hone
        · exact hempty (String.toList_eq_nil_iff.1 hnil)
        · exact hdot (String.toList_inj.1 hone)
      · exact .inl hw
    · rintro ⟨whole, frac, hr, hne⟩
      refine ⟨fun hempty => ?_, whole, frac, hr⟩
      have hspells := hr.spells
      rw [hempty] at hspells
      rcases hspells with ⟨hnil, rfl⟩ | hone
      · simp [← hnil] at hne
      · simp at hone

/-! ## Rendering -/

/-- The eight decimals of a rendered amount. -/
def decimals (n : Nat) : List Char :=
  let digits := Nat.toDigits 10 (n % atomicPerCoin)
  List.replicate (8 - digits.length) '0' ++ digits

theorem formatAmount_toList (n : Nat) :
    (formatAmount n).toList = Nat.toDigits 10 (n / atomicPerCoin) ++ '.' :: decimals n := by
  have hlen : (n % atomicPerCoin).repr.length = (Nat.toDigits 10 (n % atomicPerCoin)).length := by
    rw [← Nat.toList_repr, String.length_toList]
  unfold formatAmount decimals
  simp [String.toList_append, hlen]
  rfl

theorem all_isDigit_toDigits (n : Nat) : (Nat.toDigits 10 n).all Char.isDigit = true :=
  List.all_eq_true.2 fun _ hc => isDigit_of_mem_toDigits hc

theorem all_isDigit_decimals (n : Nat) : (decimals n).all Char.isDigit = true := by
  unfold decimals
  rw [List.all_append, all_isDigit_toDigits, Bool.and_true]
  refine List.all_eq_true.2 fun c hc => ?_
  rw [List.eq_of_mem_replicate hc]
  decide

theorem length_decimals (n : Nat) : (decimals n).length = 8 := by
  have hlt : n % atomicPerCoin < 10 ^ 8 := Nat.mod_lt _ (by decide)
  have hle := (Nat.length_toDigits_le_iff (by decide) (by decide)).2 hlt
  unfold decimals
  rw [List.length_append, List.length_replicate]
  omega

theorem digitsValue_decimals (n : Nat) : digitsValue (decimals n) = n % atomicPerCoin := by
  unfold decimals
  rw [digitsValue_append, digitsValue_zeros, Nat.zero_mul, Nat.zero_add, digitsValue_toDigits]

theorem trim_formatAmount (n : Nat) : trim (formatAmount n) = formatAmount n := by
  refine trim_of_all fun c hc => ?_
  rw [formatAmount_toList, List.mem_append, List.mem_cons] at hc
  rcases hc with hc | rfl | hc
  · exact isWhitespace_of_isDigit (isDigit_of_mem_toDigits hc)
  · decide
  · exact isWhitespace_of_isDigit (List.all_eq_true.1 (all_isDigit_decimals n) c hc)

theorem readsAs_formatAmount {n : Nat} (h : n < 2 ^ 64) :
    ReadsAs (formatAmount n) (Nat.toDigits 10 (n / atomicPerCoin)) (decimals n) n where
  spells := .inr (formatAmount_toList n)
  whole_digits := all_isDigit_toDigits _
  frac_digits := all_isDigit_decimals n
  precision := Nat.le_of_eq (length_decimals n)
  value := by
    rw [length_decimals, digitsValue_append, length_decimals, digitsValue_decimals, digitsValue_toDigits]
    congr 1
    exact (Nat.div_add_mod' n atomicPerCoin).symm
  fits := h

theorem parseAmount_formatAmount {n : Nat} (h : n < 2 ^ 64) : parseAmount (formatAmount n) = .ok n := by
  rw [parseAmount_iff, trim_formatAmount]
  refine ⟨fun hnil => ?_, _, _, readsAs_formatAmount h⟩
  have hlist := formatAmount_toList n
  rw [hnil] at hlist
  simp at hlist

/-! ## Quotes -/

theorem toUpper_lower : ∀ i < 26, isWhitespace (Char.ofNat (97 + i)).toUpper = isWhitespace (Char.ofNat (97 + i)) ∧
    (Char.ofNat (97 + i)).toUpper.toUpper = (Char.ofNat (97 + i)).toUpper := by
  decide

theorem toUpper_cases (c : Char) : c.toUpper = c ∨ ∃ i < 26, c = Char.ofNat (97 + i) := by
  unfold Char.toUpper
  split
  · rename_i h
    obtain ⟨hlo, hhi⟩ : 97 ≤ c.toNat ∧ c.toNat ≤ 122 := by simpa [UInt32.le_iff_toNat_le] using h
    refine .inr ⟨c.toNat - 97, by omega, ?_⟩
    rw [Nat.add_sub_cancel' hlo, Char.ofNat_toNat]
  · exact .inl rfl

theorem isWhitespace_toUpper (c : Char) : isWhitespace c.toUpper = isWhitespace c := by
  rcases toUpper_cases c with h | ⟨i, hi, rfl⟩
  · rw [h]
  · exact (toUpper_lower i hi).1

theorem toUpper_toUpper (c : Char) : c.toUpper.toUpper = c.toUpper := by
  rcases toUpper_cases c with h | ⟨i, hi, rfl⟩
  · rw [h, h]
  · exact (toUpper_lower i hi).2

theorem dropWhile_map_toUpper (cs : List Char) :
    (cs.map Char.toUpper).dropWhile isWhitespace = (cs.dropWhile isWhitespace).map Char.toUpper := by
  induction cs with
  | nil => rfl
  | cons c cs ih =>
    rw [List.map_cons, List.dropWhile_cons, List.dropWhile_cons, isWhitespace_toUpper]
    by_cases hc : isWhitespace c = true
    · rw [if_pos hc, if_pos hc, ih]
    · rw [if_neg hc, if_neg hc, List.map_cons]

theorem trim_toAsciiUppercase (s : String) : trim (toAsciiUppercase s) = toAsciiUppercase (trim s) := by
  unfold trim toAsciiUppercase
  simp only [String.toList_ofList]
  rw [dropWhile_map_toUpper, ← List.map_reverse, dropWhile_map_toUpper, List.map_reverse]

theorem norm_norm (ticker : String) : norm (norm ticker) = norm ticker := by
  unfold norm
  rw [trim_toAsciiUppercase, trim_trim]
  unfold toAsciiUppercase
  rw [String.toList_ofList, List.map_map]
  congr 1
  exact List.map_congr_left fun c _ => toUpper_toUpper c

theorem norm_scripted {a b : String} {leg : FeeLeg} (h : feeLeg a b = some leg) :
    norm leg.scripted = leg.scripted := by
  rcases (feeLeg_scripted h).2 with heq | heq
  · rw [heq, norm_norm]
  · rw [heq, norm_norm]

theorem feeLeg_fee_coin {row : CoinFee} (h : row ∈ feeCoins) :
    feeLeg row.ticker (scriptlessTickers.headD "") = some ⟨row.ticker, "XMR"⟩ := by
  simp only [feeCoins, List.mem_cons, List.not_mem_nil, or_false] at h
  rcases h with rfl | rfl | rfl <;> rfl

/-- A quote is what a settled bid of that size is charged. -/
theorem quote_of_charge {bid : SettledBid} {ticker address : String} {amount notional : Nat}
    (h : decide bid = .charge ticker amount address notional) :
    quote ticker notional = .charge ticker amount address notional := by
  obtain ⟨leg, row, -, hleg, rfl, hrow, haddr, hamt, hguard, hamount⟩ := decide_charge_iff.1 h
  obtain ⟨hmem, hticker⟩ := rowFor_mem hrow
  have hself : row.ticker = leg.scripted := by rw [hticker, norm_scripted hleg]
  have hfits : notional < 2 ^ 64 := by
    obtain ⟨-, whole, frac, hr⟩ := parseAmount_iff.1 hamt
    exact hr.fits
  refine decide_charge_iff.2 ⟨⟨row.ticker, "XMR"⟩, row, rfl, ?_, hself, hrow, haddr, ?_, hguard, hamount⟩
  · rw [← hself]
    exact feeLeg_fee_coin hmem
  · unfold amountOf
    dsimp only
    rw [if_pos (norm_scripted hleg)]
    exact parseAmount_formatAmount hfits

/-! ## The law -/

/-- A charge does not depend on the order of the legs, is the flat fee or the rate, is at most half of
the amount and grows with it. The parser reads the decimal numbers and, alone, the dot. -/
theorem fee_law (bid : SettledBid) :
    decide bid.swap = decide bid ∧
    (∀ ticker amount address notional, decide bid = .charge ticker amount address notional →
      notional * 50 < 2 ^ 64 → parseAmount (amountOf bid ticker) = .ok notional ∧
        ∃ flat, flatFee ticker = some flat ∧ amount = max flat (notional * 50 / 10000) ∧ 2 * amount ≤ notional) ∧
    (∀ bid' ticker amount amount' address address' notional notional',
      decide bid = .charge ticker amount address notional →
      decide bid' = .charge ticker amount' address' notional' → notional ≤ notional' → amount ≤ amount') ∧
    (∀ text, (∀ n, parseAmount text = .ok n ↔ Denotes (trim text) n) ↔ trim text ≠ ".") ∧
    ∀ n < 2 ^ 64, parseAmount (formatAmount n) = .ok n := by
  refine ⟨decide_swap bid, ?_, ?_, parse_denotes_iff, fun n hn => parseAmount_formatAmount hn⟩
  · intro ticker amount address notional hcharge hfits
    obtain ⟨leg, row, -, -, -, hrow, -, hamt, hguard, rfl⟩ := decide_charge_iff.1 hcharge
    refine ⟨hamt, row.flat, by simp [flatFee, hrow, CoinFee.flat], ?_, two_mul_le_of_not_guarded hguard⟩
    rw [pctOf_eq hfits]
  · intro bid' ticker amount amount' address address' notional notional' hcharge hcharge' hle
    obtain ⟨-, row, -, -, -, hrow, -, -, -, rfl⟩ := decide_charge_iff.1 hcharge
    obtain ⟨-, row', -, -, -, hrow', -, -, -, rfl⟩ := decide_charge_iff.1 hcharge'
    obtain rfl := Option.some.inj (hrow.symm.trans hrow')
    have hpct := pctOf_mono hle
    omega

theorem fee_law_sample :
    parseAmount "0.99" = .ok 99000000 ∧
      ∃ flat, flatFee "LTC" = some flat ∧ 495000 = max flat (99000000 * 50 / 10000) ∧ 2 * 495000 ≤ 99000000 :=
  (fee_law ⟨"b", 8, "LTC", "XMR", "0.99", "0.3"⟩).2.1 "LTC" 495000 "ltc1q5rm7yppfc7yf7zh0ua9lm4cr6vgd5veppzalkk"
    99000000 (by decide +kernel) (by decide)

/-- The lone dot is read as nothing. -/
theorem not_always_a_number : ¬ ∀ text n, parseAmount text = .ok n ↔ Denotes (trim text) n := by
  intro h
  exact (parse_denotes_iff ".").1 (h ".") (by decide)

end Fees
