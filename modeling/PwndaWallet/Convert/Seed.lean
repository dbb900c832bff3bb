import PwndaWallet.Convert.Pipeline
import PwndaWallet.Lib.Double
import PwndaWallet.Lib.Js
import PwndaWallet.Fees.AmountSound
import Mathlib.Data.List.TakeWhile

/-!
# The seed of the second hop

`hop2SeedAmount` of `features/swap/useConvertPipeline.ts`, in exact numbers: what the first hop left, less the
licence fee where the node keeps it.
-/

namespace Convert

/-! ## Numbers of texts -/

/-- The base of a literal that names one, and its digits. -/
def radixOf : List Char → Option (Nat × List Char)
  | '0' :: c :: cs =>
    if c = 'x' ∨ c = 'X' then some (16, cs)
    else if c = 'o' ∨ c = 'O' then some (8, cs)
    else if c = 'b' ∨ c = 'B' then some (2, cs)
    else none
  | _ => none

/-- `Number(s)` where that is finite. -/
def finiteNumber (s : String) : Option ℚ :=
  let cs := Js.trim s.toList
  if cs = [] then some 0
  else
    match radixOf cs with
    | some (base, ds) => (Js.digits base ds).map fun n => (n : ℚ)
    | none =>
      let (negative, ds) := Rust.F64.signed cs
      (Rust.F64.decimal ds).map fun q => if negative then -q else q

/-! ## The seed -/

def LICENCE_FEE_FRACTION : ℚ := 5 / 1000

/-- `Math.round(x)` -/
def round (x : ℚ) : ℤ := ⌊x + 1 / 2⌋

def seedAtoms (n : ℚ) : ℤ := ⌊(round (n * 10 ^ 8) : ℚ) * (1 - LICENCE_FEE_FRACTION)⌋

/-- Whole coins, and eight decimals. -/
def coinText (atoms : Nat) : String :=
  toString (atoms / 10 ^ 8) ++ "." ++ String.ofList (Js.padZero 8 (Nat.toDigits 10 (atoms % 10 ^ 8)))

def hop2SeedAmount (viaAmount : String) (paidTo : Option PaidTo) : String :=
  if paidTo ≠ some .nodeWallet then viaAmount
  else
    match finiteNumber viaAmount with
    | none => viaAmount
    | some n => if n ≤ 0 then viaAmount else coinText (seedAtoms n).toNat

/-!
## What the seed leaves for the fee

The seed keeps the rate of the fee back. The fee is the flat one below the regime's change, which is more than
that, down to where nothing is charged.
-/

open Fees

/-! ## Reading an amount -/

theorem mem_spells {cs whole frac : List Char} (h : Spells cs whole frac) (hw : whole.all Char.isDigit = true)
    (hf : frac.all Char.isDigit = true) {c : Char} (hc : c ∈ cs) : c.isDigit = true ∨ c = '.' := by
  rcases h with ⟨rfl, -⟩ | rfl
  · exact Or.inl (List.all_eq_true.1 hw c hc)
  · rcases List.mem_append.1 hc with hc | hc
    · exact Or.inl (List.all_eq_true.1 hw c hc)
    · rcases List.mem_cons.1 hc with rfl | hc
      · exact Or.inr rfl
      · exact Or.inl (List.all_eq_true.1 hf c hc)

theorem takeWhile_digits {cs : List Char} (h : cs.all Char.isDigit = true) : Rust.F64.span cs = (cs, []) := by
  have hall := List.all_eq_true.1 h
  rw [Rust.F64.span, List.takeWhile_eq_self_iff.2 hall, List.dropWhile_eq_nil_iff.2 hall]

theorem span_point {whole frac : List Char} (h : whole.all Char.isDigit = true) :
    Rust.F64.span (whole ++ '.' :: frac) = (whole, '.' :: frac) := by
  have hall := List.all_eq_true.1 h
  rw [Rust.F64.span, List.takeWhile_append_of_pos hall, List.dropWhile_append_of_pos hall]
  simp

/-- The decimals of an amount are its atoms. -/
theorem decimal_spells {cs whole frac : List Char} {n : Nat} (h : Spells cs whole frac)
    (hw : whole.all Char.isDigit = true) (hf : frac.all Char.isDigit = true) (hne : whole ≠ [] ∨ frac ≠ [])
    (hvalue : n * 10 ^ frac.length = Rust.digitsValue (whole ++ frac) * 10 ^ 8) :
    Rust.F64.decimal cs = some ((n : ℚ) / 10 ^ 8) := by
  have hempty : ¬ (whole = [] ∧ frac = []) := by
    rintro ⟨rfl, rfl⟩
    simp at hne
  have hq : (Rust.digitsValue (whole ++ frac) : ℚ) * 10 ^ ((0 : Int) - frac.length) = (n : ℚ) / 10 ^ 8 := by
    have hcast : (n : ℚ) * 10 ^ frac.length = Rust.digitsValue (whole ++ frac) * 10 ^ 8 := by exact_mod_cast hvalue
    rw [zero_sub, zpow_neg, zpow_natCast, ← div_eq_mul_inv, div_eq_div_iff (by positivity) (by positivity)]
    exact hcast.symm
  rcases h with ⟨rfl, rfl⟩ | rfl
  · have hcs : cs ≠ [] := fun hnil => hempty ⟨hnil, rfl⟩
    simp only [Rust.F64.decimal, takeWhile_digits hw, hcs, false_and, if_false]
    exact congrArg some hq
  · simp only [Rust.F64.decimal, span_point hw, takeWhile_digits hf, hempty, if_false]
    exact congrArg some hq

theorem radixOf_amount {cs : List Char} (h : ∀ c ∈ cs, c.isDigit = true ∨ c = '.') : radixOf cs = none := by
  unfold radixOf
  split
  next c cs =>
    have hc := h c (by simp)
    have hne : ∀ d ∈ ['x', 'X', 'o', 'O', 'b', 'B'], c ≠ d := by
      rintro d hd rfl
      simp only [List.mem_cons, List.not_mem_nil, or_false] at hd
      rcases hd with rfl | rfl | rfl | rfl | rfl | rfl <;> revert hc <;> decide
    simp [hne]
  next => rfl

theorem signed_amount {cs : List Char} (h : ∀ c ∈ cs, c.isDigit = true ∨ c = '.') :
    Rust.F64.signed cs = (false, cs) := by
  unfold Rust.F64.signed
  split
  next cs =>
    exact absurd (h '-' (by simp)) (by decide)
  next cs =>
    exact absurd (h '+' (by simp)) (by decide)
  next => rfl

/-- `Number` of an amount is what it denotes. -/
theorem finiteNumber_denotes {text : String} {n : Nat} (h : Denotes text n) :
    finiteNumber text = some ((n : ℚ) / 10 ^ 8) := by
  obtain ⟨whole, frac, hr, hne⟩ := h
  have hchars : ∀ c ∈ text.toList, c.isDigit = true ∨ c = '.' := fun c hc =>
    mem_spells hr.spells hr.whole_digits hr.frac_digits hc
  have hspace : ∀ c ∈ text.toList, Js.isSpace c = false := by
    intro c hc
    rcases hchars c hc with hd | rfl
    · simp only [Char.isDigit, Bool.and_eq_true, decide_eq_true_eq, UInt32.le_iff_toNat_le, ge_iff_le] at hd
      have hlo : 48 ≤ c.toNat := hd.1
      have hhi : c.toNat ≤ 57 := hd.2
      simp only [Js.isSpace, Bool.or_eq_false_iff, Bool.and_eq_false_iff, decide_eq_false_iff_not, beq_eq_false_iff_ne]
      omega
    · decide
  have htrim : Js.trim text.toList = text.toList := by
    rw [Js.trim, Rust.dropWhile_of_all hspace, Rust.dropWhile_of_all fun c hc => hspace c (List.mem_reverse.1 hc),
      List.reverse_reverse]
  have hnil : text.toList ≠ [] := by
    intro hnil
    rcases hr.spells with ⟨hw, rfl⟩ | hw
    · rw [hnil] at hw
      simp [← hw] at hne
    · rw [hnil] at hw
      simp at hw
  have hradix : radixOf text.toList = none := radixOf_amount hchars
  have hsigned : Rust.F64.signed text.toList = (false, text.toList) := signed_amount hchars
  rw [finiteNumber, htrim, if_neg hnil, hradix]
  simp only [hsigned]
  rw [decimal_spells hr.spells hr.whole_digits hr.frac_digits hne hr.value]
  rfl

/-! ## The seed -/

theorem coinText_eq (n : Nat) : coinText n = formatAmount n := by
  apply String.toList_inj.1
  have hwhole : (toString (n / 10 ^ 8)).toList = Nat.toDigits 10 (n / 10 ^ 8) := Nat.toList_repr
  rw [formatAmount_toList, coinText]
  simp only [String.toList_append, String.toList_ofList, hwhole, List.append_assoc]
  rfl

/-- What is held back is a two-hundredth, rounded up. -/
theorem seedAtoms_eq (n : Nat) : seedAtoms ((n : ℚ) / 10 ^ 8) = ((n - (n + 199) / 200 : Nat) : ℤ) := by
  have hround : round ((n : ℚ) / 10 ^ 8 * 10 ^ 8) = n := by
    rw [div_mul_cancel₀ _ (by positivity), round, Int.floor_eq_iff]
    push_cast
    constructor <;> linarith
  have hdiv : (n + 199) / 200 ≤ n := by omega
  have hlo : n ≤ 200 * ((n + 199) / 200) := by omega
  have hhi : 200 * ((n + 199) / 200) < n + 200 := by omega
  have hlo' : (n : ℚ) ≤ 200 * ((n + 199) / 200 : Nat) := by exact_mod_cast hlo
  have hhi' : (200 : ℚ) * ((n + 199) / 200 : Nat) < n + 200 := by exact_mod_cast hhi
  rw [seedAtoms, hround, LICENCE_FEE_FRACTION, Int.floor_eq_iff, Int.cast_natCast, Int.cast_natCast, Nat.cast_sub hdiv]
  constructor <;> linarith

theorem trim_amount {text : String} {n : Nat} (h : Denotes text n) : Rust.trim text = text ∧ text ≠ "." := by
  obtain ⟨whole, frac, hr, hne⟩ := h
  constructor
  · apply Rust.trim_of_all
    intro c hc
    rcases mem_spells hr.spells hr.whole_digits hr.frac_digits hc with hd | rfl
    · exact Rust.isWhitespace_of_isDigit hd
    · decide
  · rintro rfl
    obtain ⟨rfl, rfl⟩ := spells_dot hr.spells hr.whole_digits
    simp at hne

theorem denotes_unique {text : String} {n m : Nat} (hn : Denotes text n) (hm : Denotes text m) : n = m := by
  obtain ⟨htrim, hdot⟩ := trim_amount hn
  have hreads := (parse_denotes_iff text).2 (htrim.symm ▸ hdot)
  rw [htrim] at hreads
  have h := ((hreads n).2 hn).symm.trans ((hreads m).2 hm)
  exact Except.ok.inj h

theorem denotes_format {n : Nat} (h : n < 2 ^ 64) : Denotes (formatAmount n) n :=
  ⟨_, _, readsAs_formatAmount h, Or.inr fun hnil => by
    have hlen := length_decimals n
    rw [hnil] at hlen
    cases hlen⟩

/-- The amount that the seed denotes. -/
theorem denotes_seed {text : String} {n : Nat} (h : Denotes text n) :
    Denotes (hop2SeedAmount text (some .nodeWallet)) (n - (n + 199) / 200) := by
  obtain ⟨_, _, hr, _⟩ := id h
  rw [hop2SeedAmount, if_neg (by simp), finiteNumber_denotes h]
  by_cases hzero : n = 0
  · subst hzero
    simpa using h
  · have hpos : ¬ ((n : ℚ) / 10 ^ 8 ≤ 0) := by
      rw [not_le]
      have : 0 < n := Nat.pos_of_ne_zero hzero
      positivity
    simp only [if_neg hpos]
    rw [seedAtoms_eq, Int.toNat_natCast, coinText_eq]
    exact denotes_format (Nat.lt_of_le_of_lt (Nat.sub_le _ _) hr.fits)

/-! ## The fee -/

/-- What a decision takes. -/
def chargeOf : Decision → Nat
  | .charge _ amount _ _ => amount
  | .skip _ => 0

/-- A completed swap of XMR and LTC, whose LTC amount is `n` atoms. -/
structure CompletedLtc (bid : SettledBid) (n : Nat) : Prop where
  completed : bid.state = swapCompleted
  legs : norm bid.tickerFrom = "XMR" ∧ norm bid.tickerTo = "LTC" ∨ norm bid.tickerFrom = "LTC" ∧ norm bid.tickerTo = "XMR"
  notional : parseAmount (amountOf bid "LTC") = .ok n

theorem CompletedLtc.leg {bid : SettledBid} {n : Nat} (h : CompletedLtc bid n) :
    feeLeg bid.tickerFrom bid.tickerTo = some ⟨"LTC", "XMR"⟩ := by
  have hxmr : isScriptless "XMR" = true := by decide +kernel
  have hltc : isScriptless "LTC" = false := by decide +kernel
  rcases h.legs with ⟨ha, hb⟩ | ⟨ha, hb⟩
  · simp [feeLeg, ha, hb, hxmr, hltc]
  · simp [feeLeg, ha, hb, hxmr, hltc]

def ltcRow : CoinFee := ⟨"LTC", 546, 11369, "ltc1q5rm7yppfc7yf7zh0ua9lm4cr6vgd5veppzalkk"⟩

theorem rowFor_ltc : rowFor "LTC" = some ltcRow := rfl

/-- The fee of the swap: nothing, the flat fee or the rate. -/
theorem charge_ltc {bid : SettledBid} {n : Nat} (h : CompletedLtc bid n) (hn : n < 2 ^ 53) :
    chargeOf (decide bid) = if n < 45476 then 0 else max 22738 (n / 200) := by
  have hpct : pctOf n = n / 200 := by
    rw [pctOf_eq (by omega)]
    omega
  have hflat : ltcRow.flat = 22738 := rfl
  have hguard : Guarded ltcRow.flat n ↔ n < 45476 := by
    rw [Guarded, hflat, hpct, maxEffectiveRatePct]
    omega
  by_cases hsmall : n < 45476
  · rw [if_pos hsmall]
    cases hd : decide bid with
    | skip reason => rfl
    | charge ticker amount address notional =>
      obtain ⟨leg, row, -, hleg, rfl, hrow, -, hamt, hnot, -⟩ := decide_charge_iff.1 hd
      obtain rfl := Option.some.inj (h.leg.symm.trans hleg)
      obtain rfl := Option.some.inj (rowFor_ltc.symm.trans hrow)
      obtain rfl := Except.ok.inj (h.notional.symm.trans hamt)
      exact absurd (hguard.2 hsmall) hnot
  · have hcharge : decide bid = .charge "LTC" (max ltcRow.flat (pctOf n)) ltcRow.address n :=
      decide_charge_iff.2 ⟨_, ltcRow, h.completed, h.leg, rfl, rowFor_ltc, rfl, h.notional,
        fun hg => hsmall (hguard.1 hg), rfl⟩
    rw [hcharge, if_neg hsmall, hflat, hpct]
    rfl

/-- The seed leaves the fee where nothing is charged, and from just below the amount at which the rate is the
flat fee. -/
theorem seed_leaves_fee {text : String} {n : Nat} (htext : Denotes text n) (hn : n < 2 ^ 53) {bid : SettledBid}
    (hbid : CompletedLtc bid n) :
    (∃ seed, Denotes (hop2SeedAmount text (some .nodeWallet)) seed ∧ seed + chargeOf (decide bid) ≤ n) ↔
      n < 45476 ∨ 4547400 < n := by
  rw [charge_ltc hbid hn]
  have hseed := denotes_seed htext
  constructor
  · rintro ⟨seed, hdenotes, hle⟩
    obtain rfl := denotes_unique hdenotes hseed
    by_cases hsmall : n < 45476
    · exact Or.inl hsmall
    · rw [if_neg hsmall] at hle
      omega
  · intro h
    refine ⟨_, hseed, ?_⟩
    by_cases hsmall : n < 45476
    · rw [if_pos hsmall]
      omega
    · rw [if_neg hsmall]
      omega

/-- A completed swap that paid out a hundredth of a litecoin, or another amount. -/
def soldFor (amount : String) : SettledBid := ⟨"b", swapCompleted, "XMR", "LTC", "0.1", amount⟩

theorem completed_soldFor {amount : String} {n : Nat} (h : parseAmount amount = .ok n) : CompletedLtc (soldFor amount) n := by
  have hlegs : norm "XMR" = "XMR" ∧ norm "LTC" = "LTC" := by decide +kernel
  refine ⟨rfl, Or.inl hlegs, ?_⟩
  have hne : ¬ norm "XMR" = "LTC" := by decide +kernel
  rw [amountOf, soldFor, if_neg hne]
  exact h

theorem denotes_of_parse {text : String} {n : Nat} (hdot : Rust.trim text ≠ ".") (htrim : Rust.trim text = text)
    (h : parseAmount text = .ok n) : Denotes text n := by
  rw [← htrim]
  exact ((parse_denotes_iff text).2 hdot n).1 h

theorem seed_leaves_fee_twentieth :
    (∃ seed, Denotes (hop2SeedAmount "0.05" (some .nodeWallet)) seed ∧
      seed + chargeOf (decide (soldFor "0.05")) ≤ 5000000) ↔ 5000000 < 45476 ∨ 4547400 < 5000000 :=
  seed_leaves_fee (denotes_of_parse (by decide +kernel) (by decide +kernel) (by decide +kernel)) (by decide)
    (completed_soldFor (by decide +kernel))

/-- A hundredth of a litecoin is charged the flat fee, and the seed keeps less than a quarter of it back. -/
theorem not_always_left : ∃ text n bid, Denotes text n ∧ n < 2 ^ 53 ∧ CompletedLtc bid n ∧
    ¬ ∃ seed, Denotes (hop2SeedAmount text (some .nodeWallet)) seed ∧ seed + chargeOf (decide bid) ≤ n := by
  have htext : Denotes "0.01" 1000000 :=
    denotes_of_parse (by decide +kernel) (by decide +kernel) (by decide +kernel)
  have hbid : CompletedLtc (soldFor "0.01") 1000000 := completed_soldFor (by decide +kernel)
  refine ⟨"0.01", 1000000, soldFor "0.01", htext, by decide, hbid, ?_⟩
  rintro ⟨seed, hdenotes, hle⟩
  obtain rfl := denotes_unique hdenotes (denotes_seed htext)
  rw [charge_ltc hbid (by decide)] at hle
  simp at hle

end Convert
