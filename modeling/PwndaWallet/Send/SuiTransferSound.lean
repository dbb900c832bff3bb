import PwndaWallet.Lib.Decimal
import PwndaWallet.Lib.Wordlist
import PwndaWallet.Send.SuiTransfer

/-!
# A Sui transfer is funded

What the network asks of a transfer's funds, and when the transfer that is built meets it.
-/

namespace Sui

open Js

/-! ## Amounts -/

/-- The zeros that are cut off. -/
theorem trimZeros_append (cs : List Char) : ∃ k, cs = trimZeros cs ++ List.replicate k '0' := by
  refine ⟨(cs.rtakeWhile (· == '0')).length, ?_⟩
  have hzeros : cs.rtakeWhile (· == '0') = List.replicate (cs.rtakeWhile (· == '0')).length '0' := by
    apply List.eq_replicate_of_mem
    intro c hc
    simpa using List.mem_rtakeWhile_imp hc
  rw [← hzeros, trimZeros, List.rdropWhile_append_rtakeWhile]

theorem isSpace_of_isDigit {c : Char} (h : c.isDigit = true) : isSpace c = false := by
  simp only [Char.isDigit, Bool.and_eq_true, decide_eq_true_eq, UInt32.le_iff_toNat_le] at h
  have hdigit : 48 ≤ c.toNat ∧ c.toNat ≤ 57 := h
  simp only [isSpace, Bool.or_eq_false_iff, Bool.and_eq_false_iff, decide_eq_false_iff_not, beq_eq_false_iff_ne]
  omega

theorem point_of_isDigit {c : Char} (h : c.isDigit = true) : decide (c ≠ '.') = true := by
  rw [decide_eq_true_eq]
  rintro rfl
  exact absurd h (by decide)

/-- Digits, and more of them after a point if there are any. -/
def pointed (whole frac : List Char) : List Char := whole ++ (if frac = [] then [] else '.' :: frac)

theorem trim_pointed {whole frac : List Char} (hwhole : ∀ c ∈ whole, c.isDigit = true) (hfrac : ∀ c ∈ frac, c.isDigit = true) :
    trim (pointed whole frac) = pointed whole frac := by
  have hall : ∀ c ∈ pointed whole frac, isSpace c = false := by
    intro c hc
    rw [pointed] at hc
    rcases List.mem_append.1 hc with hc | hc
    · exact isSpace_of_isDigit (hwhole c hc)
    · by_cases hnil : frac = []
      · simp [hnil] at hc
      · rw [if_neg hnil] at hc
        rcases List.mem_cons.1 hc with rfl | hc
        · decide
        · exact isSpace_of_isDigit (hfrac c hc)
  exact trim_eq_self (fun c hc => hall c (List.mem_of_mem_head? hc)) fun c hc => hall c (List.mem_of_getLast? hc)

/-- What `decimalToAtomic` reads from digits with a point. -/
theorem decimalToAtomic_pointed {whole frac : List Char} {d : Nat} (hne : whole ≠ [])
    (hwhole : ∀ c ∈ whole, c.isDigit = true) (hfrac : ∀ c ∈ frac, c.isDigit = true) (hlen : frac.length ≤ d) :
    Utxo.decimalToAtomic (String.ofList (pointed whole frac)) d =
      some (Rust.digitsValue whole * 10 ^ d + Rust.digitsValue (frac ++ List.replicate (d - frac.length) '0')) := by
  have hpoint : ∀ c ∈ whole, decide (c ≠ '.') = true := fun c hc => point_of_isDigit (hwhole c hc)
  have htake : (pointed whole frac).takeWhile (· ≠ '.') = whole := by
    rw [pointed, List.takeWhile_append_of_pos hpoint]
    by_cases hnil : frac = [] <;> simp [hnil]
  have hdrop : (pointed whole frac).dropWhile (· ≠ '.') = if frac = [] then [] else '.' :: frac := by
    rw [pointed, List.dropWhile_append_of_pos hpoint]
    by_cases hnil : frac = [] <;> simp [hnil]
  have htail : (if frac = [] then [] else '.' :: frac).tail = frac := by
    by_cases hnil : frac = [] <;> simp [hnil]
  have hgood : ¬(whole = [] ∨ ¬ whole.all Char.isDigit ∨ ((if frac = [] then [] else '.' :: frac) ≠ [] ∧
      (frac = [] ∨ ¬ frac.all Char.isDigit))) := by
    rw [List.all_eq_true.2 hwhole, List.all_eq_true.2 hfrac]
    by_cases hnil : frac = [] <;> simp [hne, hnil]
  rw [Utxo.decimalToAtomic, String.toList_ofList, trim_pointed hwhole hfrac]
  simp only [htake, hdrop, htail]
  rw [if_neg hgood, if_neg (by omega)]

/-- `decimalToAtomic` undoes `atomicToDecimal`. -/
theorem decimalToAtomic_atomicToDecimal (n d : Nat) (hd : 0 < d) :
    Utxo.decimalToAtomic (atomicToDecimal n d) d = some n := by
  have hpos : 0 < 10 ^ d := Nat.pow_pos (by decide)
  have hmod : n % 10 ^ d < 10 ^ d := Nat.mod_lt _ hpos
  obtain ⟨whole, hwhole⟩ : ∃ whole, whole = Nat.toDigits 10 (n / 10 ^ d) := ⟨_, rfl⟩
  obtain ⟨padded, hpadded⟩ : ∃ padded, padded = padZero d (Nat.toDigits 10 (n % 10 ^ d)) := ⟨_, rfl⟩
  have hlen : padded.length = d := by
    have hle := (Nat.length_toDigits_le_iff (b := 10) (by decide) hd).2 hmod
    rw [hpadded, padZero, List.length_append, List.length_replicate]
    omega
  have hvalue : Rust.digitsValue padded = n % 10 ^ d := by
    rw [hpadded, padZero, Rust.digitsValue_append, Rust.digitsValue_zeros, Nat.zero_mul, Nat.zero_add,
      Rust.digitsValue_toDigits]
  have hdigits : ∀ c ∈ padded, c.isDigit = true := by
    intro c hc
    rw [hpadded, padZero] at hc
    rcases List.mem_append.1 hc with hc | hc
    · rw [List.eq_of_mem_replicate hc]
      rfl
    · exact Rust.isDigit_of_mem_toDigits hc
  obtain ⟨k, hk⟩ := trimZeros_append padded
  obtain ⟨frac, hfrac⟩ : ∃ frac, frac = trimZeros padded := ⟨_, rfl⟩
  rw [← hfrac] at hk
  have hcount : frac.length + k = d := by
    rw [← hlen, hk, List.length_append, List.length_replicate]
  have hfracs : ∀ c ∈ frac, c.isDigit = true := fun c hc => hdigits c (hk ▸ List.mem_append_left _ hc)
  have hwholes : ∀ c ∈ whole, c.isDigit = true := fun c hc => Rust.isDigit_of_mem_toDigits (hwhole ▸ hc)
  have hne : whole ≠ [] := by
    have hlength : 0 < whole.length := hwhole ▸ Nat.length_toDigits_pos
    exact List.ne_nil_of_length_pos hlength
  have htext : atomicToDecimal n d = String.ofList (pointed whole frac) := by
    have hnat : ¬ ((n : Int) < 0) := by omega
    have hrepr : toString (n / 10 ^ d) = String.ofList whole := by
      rw [hwhole, Nat.toString_eq_repr, Nat.repr_eq_ofList_toDigits]
    simp only [atomicToDecimal, Int.natAbs_natCast, if_neg hnat, ← hpadded, ← hfrac, hrepr, pointed]
    by_cases hnil : frac = []
    · simp [hnil]
    · simp [hnil, String.ofList_append]
  rw [htext, decimalToAtomic_pointed hne hwholes hfracs (by omega), hwhole, Rust.digitsValue_toDigits,
    show d - frac.length = k by omega, ← hk, hvalue, Nat.div_add_mod']

/-! ## What the network asks -/

/-- A running transaction: what is left of the gas coin beside the budget, the results so far, what is taken
from the address balance, and what is paid. -/
structure Running where
  gas : Int
  results : List Int
  withdrawn : Int
  paid : List (String × Int)
deriving DecidableEq

/-- A withdrawal must not be zero, and a coin is not split beyond its balance. -/
def Command.exec (s : Running) : Command → Option Running
  | .redeemFunds w =>
    if 0 < w then some { s with results := s.results ++ [w], withdrawn := s.withdrawn + w } else none
  | .mergeIntoGas i => s.results[i]?.map fun v => { s with gas := s.gas + v, results := s.results ++ [0] }
  | .splitGas a => if a ≤ s.gas then some { s with gas := s.gas - a, results := s.results ++ [a] } else none
  | .transferObjects i r => s.results[i]?.map fun v => { s with results := s.results ++ [0], paid := s.paid ++ [(r, v)] }

def execAll : List Command → Running → Option Running
  | [], s => some s
  | c :: cs, s => (c.exec s).bind (execAll cs)

/-- The balance of the gas payment beside the budget; gas that no coin pays comes from the address balance. -/
def Transaction.available (state : SuiSendState) (tx : Transaction) : Int :=
  if tx.gasPayment = [] then 0 else sumBalance state.coins - tx.gasBudget

/-- The transfer runs on what the account holds, and pays this. -/
structure Settles (state : SuiSendState) (tx : Transaction) (paid : List (String × Int)) : Prop where
  gas : tx.gasPayment ≠ [] → tx.gasPayment.Perm (state.coins.map SuiCoinRef.gasCoin) ∧
    tx.gasBudget ≤ sumBalance state.coins
  runs : ∃ s, execAll tx.commands ⟨tx.available state, [], 0, []⟩ = some s ∧ s.paid = paid ∧
    s.withdrawn + (if tx.gasPayment = [] then tx.gasBudget else 0) ≤ state.addressBalance

/-- The SUI of the source covers the amount and the budget; a source holds some. -/
def Covers (state : SuiSendState) (mist : Nat) (budget : Int) : SuiTransferSource → Prop
  | .coins => mist + budget ≤ sumBalance state.coins
  | .addressBalance => mist + budget ≤ state.addressBalance
  | .both => 0 < state.addressBalance ∧ budget ≤ sumBalance state.coins ∧
      mist + budget ≤ sumBalance state.coins + state.addressBalance

/-! ## Gas coins -/

theorem sumBalance_eq (coins : List SuiCoinRef) : sumBalance coins = (coins.map fun c => (c.balance : Int)).sum := by
  have hfold (acc : Int) : coins.foldl (fun sum c => sum + (c.balance : Int)) acc =
      acc + (coins.map fun c => (c.balance : Int)).sum := by
    induction coins generalizing acc with
    | nil => simp
    | cons c coins ih => rw [List.foldl_cons, ih, List.map_cons, List.sum_cons, Int.add_assoc]
  rw [sumBalance, hfold, Int.zero_add]

theorem sumBalance_nonneg (coins : List SuiCoinRef) : 0 ≤ sumBalance coins := by
  rw [sumBalance_eq]
  induction coins with
  | nil => simp
  | cons c coins ih =>
    rw [List.map_cons, List.sum_cons]
    omega

section

variable {state : SuiSendState}

/-- Of one page of coins all are used. -/
theorem perm_suiGasPayment {coins : List SuiCoinRef} (hpage : coins.length ≤ SUI_GAS_PAYMENT_MAX) :
    (suiGasPayment coins).Perm coins := by
  have hperm := perm_sort coinLe coins
  rw [suiGasPayment, List.take_of_length_le (by rw [hperm.length_eq]; exact hpage)]
  exact hperm

theorem inCoins_eq (hpage : state.coins.length ≤ SUI_GAS_PAYMENT_MAX) : inCoins state = sumBalance state.coins := by
  rw [inCoins, sumBalance_eq, sumBalance_eq]
  exact ((perm_suiGasPayment hpage).map _).sum_eq

theorem coins_ne_nil (h : 0 < inCoins state) : suiGasPayment state.coins ≠ [] := by
  intro hnil
  rw [inCoins, hnil] at h
  exact absurd h (by decide)

end

/-! ## The law -/

section

variable (simulate : Transaction → Except String SuiGasUsed) (sender recipient : String) (nonce : UInt32)
  (state : SuiSendState) (mist : Nat) (budget : SuiTransferSource → Int)

/-- These are the budgets that the dry runs price. -/
structure Priced : Prop where
  priced (source : SuiTransferSource) : priceOf simulate sender recipient nonce state mist source = .ok (budget source)
  pos (source : SuiTransferSource) : 0 < budget source

/-- What is promised of a transfer. -/
structure FundingLaw : Prop where
  pays (tx : Transaction) : buildSuiTransfer simulate sender recipient nonce (.ok state) mist = .ok tx →
    ∃ source, tx = shape sender recipient nonce state mist source (budget source) false ∧
      Covers state mist (budget source) source ∧ Settles state tx [(recipient, mist)] ∧
      (source = .both → 0 < topUp state mist (budget source) false ∧
        topUp state mist (budget source) false ≤ state.addressBalance ∧
        mist + budget source ≤ sumBalance state.coins + topUp state mist (budget source) false)
  refuses (e : Refusal) : buildSuiTransfer simulate sender recipient nonce (.ok state) mist = .error e →
    ∀ source, ¬ Covers state mist (budget source) source
  accepts (e : Refusal) (held : Int) (fees : List Int) (most : Int) :
    buildSuiTransfer simulate sender recipient nonce (.ok state) mist = .error e →
    e = .shortfall state held mist fees → shortfall state held mist fees = .noSideAlone most → 0 < most →
    (∀ source, budget source = budget .coins) →
    ∃ named, Utxo.decimalToAtomic (sui most) 9 = some named ∧ (named : Int) = most ∧
      (Priced simulate sender recipient nonce state named budget →
        ∃ tx, buildSuiTransfer simulate sender recipient nonce (.ok state) named = .ok tx ∧
          Settles state tx [(recipient, (named : Int))])

end

/-! ## One source -/

section

variable {simulate : Transaction → Except String SuiGasUsed} {sender recipient : String} {nonce : UInt32}
  {state : SuiSendState} {mist : Nat} {b : Int}

theorem covers_iff (hpage : state.coins.length ≤ SUI_GAS_PAYMENT_MAX) (source : SuiTransferSource) :
    (covers state mist source b = true ∧ (source = .both → 0 < state.addressBalance)) ↔ Covers state mist b source := by
  cases source <;> simp [covers, Covers, inCoins_eq hpage, and_comm]

theorem payment_perm (hpage : state.coins.length ≤ SUI_GAS_PAYMENT_MAX) :
    ((suiGasPayment state.coins).map SuiCoinRef.gasCoin).Perm (state.coins.map SuiCoinRef.gasCoin) :=
  (perm_suiGasPayment hpage).map _

theorem settles_coins (hpage : state.coins.length ≤ SUI_GAS_PAYMENT_MAX) (hb : 0 < b)
    (h : Covers state mist b .coins) :
    Settles state (shape sender recipient nonce state mist .coins b false) [(recipient, mist)] := by
  have hcovers : mist + b ≤ sumBalance state.coins := h
  have hne : (suiGasPayment state.coins).map SuiCoinRef.gasCoin ≠ [] := by
    rw [ne_eq, List.map_eq_nil_iff]
    exact coins_ne_nil (by rw [inCoins_eq hpage]; omega)
  refine ⟨fun _ => ⟨by simpa [shape] using payment_perm hpage, ?_⟩, ?_⟩
  · show b ≤ sumBalance state.coins
    omega
  · have hsplit : (mist : Int) ≤ sumBalance state.coins - b := by omega
    have hcoins : suiGasPayment state.coins ≠ [] := fun hnil => hne (by rw [hnil]; rfl)
    refine ⟨⟨sumBalance state.coins - b - mist, [mist, 0], 0, [(recipient, mist)]⟩, ?_, rfl, ?_⟩
    · simp [shape, commandsOf, execAll, Command.exec, Transaction.available, hcoins, hsplit]
    · simp [shape, hcoins]

theorem settles_addressBalance (hmist : 0 < mist) (h : Covers state mist b .addressBalance) :
    Settles state (shape sender recipient nonce state mist .addressBalance b false) [(recipient, mist)] := by
  have hcovers : mist + b ≤ state.addressBalance := h
  refine ⟨fun hne => absurd (by simp [shape]) hne, ?_⟩
  refine ⟨⟨0, [mist, 0], mist, [(recipient, mist)]⟩, ?_, rfl, ?_⟩
  · simp [shape, commandsOf, execAll, Command.exec, Transaction.available, hmist]
  · simpa [shape] using hcovers

theorem settles_both (hpage : state.coins.length ≤ SUI_GAS_PAYMENT_MAX) (hb : 0 < b) (h : Covers state mist b .both)
    (hpos : 0 < topUp state mist b false) :
    Settles state (shape sender recipient nonce state mist .both b false) [(recipient, mist)] := by
  obtain ⟨hbalance, hbudget, htotal⟩ := h
  have hcoins : suiGasPayment state.coins ≠ [] := coins_ne_nil (by rw [inCoins_eq hpage]; omega)
  have htop : topUp state mist b false = mist + b - sumBalance state.coins := by
    rw [topUp, inCoins_eq hpage]
    rfl
  refine ⟨fun _ => ⟨by simpa [shape] using payment_perm hpage, hbudget⟩, ?_⟩
  refine ⟨⟨0, [topUp state mist b false, 0, mist, 0], topUp state mist b false, [(recipient, mist)]⟩, ?_, rfl, ?_⟩
  · have hsplit : (mist : Int) ≤ sumBalance state.coins - b + topUp state mist b false := by omega
    have hrest : sumBalance state.coins - b + topUp state mist b false - mist = 0 := by omega
    simp [shape, commandsOf, execAll, Command.exec, Transaction.available, hcoins, hpos, hsplit, hrest]
  · simp [shape, hcoins]
    omega

end

/-! ## The source that is chosen -/

section

variable {simulate : Transaction → Except String SuiGasUsed} {sender recipient : String} {nonce : UInt32}
  {state : SuiSendState} {mist : Nat} {b : SuiTransferSource → Int}

def rank : SuiTransferSource → Nat
  | .coins => 0
  | .addressBalance => 1
  | .both => 2

theorem trySources_cases (hpriced : Priced simulate sender recipient nonce state mist b) (budgets : List Int)
    (ss : List SuiTransferSource) :
    (∃ pre s post, ss = pre ++ s :: post ∧ covers state mist s (b s) = true ∧ (∀ p ∈ pre, covers state mist p (b p) = false) ∧
      trySources simulate sender recipient nonce state mist budgets ss =
        .ok (shape sender recipient nonce state mist s (b s) false)) ∨
    ((∀ s ∈ ss, covers state mist s (b s) = false) ∧ trySources simulate sender recipient nonce state mist budgets ss =
      .error (.shortfall state (inCoins state) mist (budgets ++ ss.map b))) := by
  induction ss generalizing budgets with
  | nil => exact .inr ⟨fun s hs => absurd hs List.not_mem_nil, by rw [trySources, List.map_nil, List.append_nil]⟩
  | cons s ss ih =>
    rw [trySources, hpriced.priced s]
    cases hcovers : covers state mist s (b s) with
    | true => exact .inl ⟨[], s, ss, rfl, hcovers, fun p hp => absurd hp List.not_mem_nil, by simp [hcovers]⟩
    | false =>
      simp only [hcovers, Bool.false_eq_true, if_false]
      rcases ih (budgets ++ [b s]) with ⟨pre, t, post, hss, ht, hpre, hok⟩ | ⟨hnone, herror⟩
      · refine .inl ⟨s :: pre, t, post, by rw [hss]; rfl, ht, List.forall_mem_cons.2 ⟨hcovers, hpre⟩, hok⟩
      · refine .inr ⟨List.forall_mem_cons.2 ⟨hcovers, hnone⟩, ?_⟩
        rw [herror, List.append_assoc]
        rfl

theorem mem_sources (source : SuiTransferSource) : source ∈ sources state mist ↔ match source with
    | .coins => inCoins state > mist
    | .addressBalance => (state.addressBalance : Int) > mist
    | .both => inCoins state > 0 ∧ state.addressBalance > 0 ∧ inCoins state + state.addressBalance > mist := by
  cases source <;> simp [sources]

theorem pairwise_sources : (sources state mist).Pairwise fun s t => rank s < rank t := by
  rw [sources]
  split <;> split <;> split <;> simp [rank]

/-- Without SUI for the amount and a fee a source is not priced. -/
theorem mem_sources_of_covers (hpage : state.coins.length ≤ SUI_GAS_PAYMENT_MAX) {source : SuiTransferSource} {c : Int}
    (hc : 0 < c) (h : Covers state mist c source) : source ∈ sources state mist := by
  rw [mem_sources]
  cases source with
  | coins =>
    have hcovers : mist + c ≤ sumBalance state.coins := h
    show inCoins state > mist
    rw [inCoins_eq hpage]
    omega
  | addressBalance =>
    have hcovers : mist + c ≤ state.addressBalance := h
    show (state.addressBalance : Int) > mist
    omega
  | both =>
    obtain ⟨hbalance, hbudget, htotal⟩ := h
    show inCoins state > 0 ∧ state.addressBalance > 0 ∧ inCoins state + state.addressBalance > mist
    rw [inCoins_eq hpage]
    omega

/-- What building comes to: the first source that covers its budget, or no source. -/
theorem build_cases (hpage : state.coins.length ≤ SUI_GAS_PAYMENT_MAX)
    (hpriced : Priced simulate sender recipient nonce state mist b) :
    (∃ source, buildSuiTransfer simulate sender recipient nonce (.ok state) mist =
        .ok (shape sender recipient nonce state mist source (b source) false) ∧ Covers state mist (b source) source ∧
        ∀ s, rank s < rank source → ¬ Covers state mist (b s) s) ∨
    (∃ e, buildSuiTransfer simulate sender recipient nonce (.ok state) mist = .error e ∧
      (∀ source, ¬ Covers state mist (b source) source) ∧
      (e = .noSui ∨ e = .shortfall state (inCoins state) mist ((sources state mist).map b))) := by
  have hnot {s : SuiTransferSource} (hs : s ∈ sources state mist → covers state mist s (b s) = false) :
      ¬ Covers state mist (b s) s := by
    intro h
    have hcovers := ((covers_iff hpage s).2 h).1
    rw [hs (mem_sources_of_covers hpage (hpriced.pos s) h)] at hcovers
    cases hcovers
  rw [buildSuiTransfer]
  by_cases hzero : inCoins state = 0 ∧ state.addressBalance = 0
  · refine .inr ⟨.noSui, by simp [hzero], fun source => hnot fun hs => ?_, .inl rfl⟩
    rw [mem_sources] at hs
    cases source <;> simp only at hs <;> omega
  · simp only [if_neg hzero]
    rcases trySources_cases hpriced [] (sources state mist) with ⟨pre, s, post, hss, hs, hpre, hok⟩ | ⟨hnone, herror⟩
    · have hmem : s ∈ sources state mist := by simp [hss]
      refine .inl ⟨s, hok, (covers_iff hpage s).1 ⟨hs, fun hboth => ?_⟩, fun t ht => hnot fun htmem => hpre t ?_⟩
      · subst hboth
        exact ((mem_sources .both).1 hmem).2.1
      · have hpair := @pairwise_sources state mist
        rw [hss, List.pairwise_append, List.pairwise_cons] at hpair
        rw [hss] at htmem
        rcases List.mem_append.1 htmem with hpre | hpost
        · exact hpre
        · rcases List.mem_cons.1 hpost with rfl | hpost
          · omega
          · have hlater := hpair.2.1.1 t hpost
            omega
    · exact .inr ⟨_, herror, fun source => hnot (hnone source), .inr rfl⟩

/-! ## When the law holds -/

/-- The coins do not cover the budget of their own, but more than that of both, whose address balance is left. -/
def Overfunded (state : SuiSendState) (mist : Nat) (b : SuiTransferSource → Int) : Prop :=
  0 < state.addressBalance ∧ mist + b .both ≤ sumBalance state.coins ∧ sumBalance state.coins < mist + b .coins ∧
    (state.addressBalance : Int) < mist + b .addressBalance

theorem topUp_eq (hpage : state.coins.length ≤ SUI_GAS_PAYMENT_MAX) (c : Int) :
    topUp state mist c false = mist + c - sumBalance state.coins := by
  rw [topUp, inCoins_eq hpage]
  rfl

theorem pays_of_cases (hpage : state.coins.length ≤ SUI_GAS_PAYMENT_MAX) (hmist : 0 < mist)
    (hpriced : Priced simulate sender recipient nonce state mist b) (hnot : ¬ Overfunded state mist b)
    {source : SuiTransferSource} (hcovers : Covers state mist (b source) source)
    (hfirst : ∀ s, rank s < rank source → ¬ Covers state mist (b s) s) :
    Settles state (shape sender recipient nonce state mist source (b source) false) [(recipient, (mist : Int))] ∧
      (source = .both → 0 < topUp state mist (b source) false ∧
        topUp state mist (b source) false ≤ state.addressBalance ∧
        mist + b source ≤ sumBalance state.coins + topUp state mist (b source) false) := by
  cases source with
  | coins => exact ⟨settles_coins hpage (hpriced.pos _) hcovers, nofun⟩
  | addressBalance => exact ⟨settles_addressBalance hmist hcovers, nofun⟩
  | both =>
    obtain ⟨hbalance, hbudget, htotal⟩ := hcovers
    have hcoins : ¬ (mist + b .coins ≤ sumBalance state.coins) := hfirst .coins (by decide)
    have haddress : ¬ (mist + b .addressBalance ≤ state.addressBalance) := hfirst .addressBalance (by decide)
    have hpos : 0 < topUp state mist (b .both) false := by
      by_contra hnonpos
      rw [topUp_eq hpage] at hnonpos
      exact hnot ⟨hbalance, by omega, by omega, by omega⟩
    refine ⟨settles_both hpage (hpriced.pos _) ⟨hbalance, hbudget, htotal⟩ hpos, fun _ => ⟨hpos, ?_, ?_⟩⟩
    · rw [topUp_eq hpage]
      omega
    · rw [topUp_eq hpage]
      omega

theorem maxFee_of_all {fees : List Int} {c : Int} (hc : 0 < c) (hne : fees ≠ []) (h : ∀ f ∈ fees, f = c) : maxFee fees = c := by
  have hfold (l : List Int) (hl : ∀ f ∈ l, f = c) : l.foldl (fun max f => if f > max then f else max) c = c := by
    induction l with
    | nil => rfl
    | cons f l ih =>
      rw [List.foldl_cons, hl f List.mem_cons_self, if_neg (by omega)]
      exact ih fun g hg => hl g (List.mem_cons_of_mem _ hg)
  cases fees with
  | nil => exact absurd rfl hne
  | cons f l =>
    rw [maxFee, List.foldl_cons, h f List.mem_cons_self, if_pos hc]
    exact hfold l fun g hg => h g (List.mem_cons_of_mem _ hg)

/-- The amount that a refusal names is covered when all budgets are the same. -/
theorem most_covered (hpage : state.coins.length ≤ SUI_GAS_PAYMENT_MAX)
    (hpriced : Priced simulate sender recipient nonce state mist b) (hsame : ∀ s, b s = b .coins) {most : Int}
    (hmost : shortfall state (inCoins state) mist ((sources state mist).map b) = .noSideAlone most) :
    most = max (sumBalance state.coins) state.addressBalance - b .coins := by
  have hpos := hpriced.pos .coins
  rw [shortfall] at hmost
  by_cases hheld : isShort mist ((sources state mist).map b) (state.coinBalance + state.addressBalance) = true
  · rw [if_pos hheld] at hmost
    cases hmost
  · rw [if_neg hheld] at hmost
    by_cases hpageShort : isShort mist ((sources state mist).map b) (inCoins state + state.addressBalance) = true
    · rw [if_pos hpageShort] at hmost
      cases hmost
    · rw [if_neg hpageShort, Shortfall.noSideAlone.injEq] at hmost
      have hne : (sources state mist).map b ≠ [] := by
        intro hnil
        rw [hnil] at hpageShort
        have hsum : ¬ (inCoins state + state.addressBalance ≤ mist) := by simpa [isShort] using hpageShort
        have hnone (s : SuiTransferSource) : s ∉ sources state mist := by
          rw [List.map_eq_nil_iff.1 hnil]
          exact List.not_mem_nil
        have hcoins := hnone .coins
        have haddress := hnone .addressBalance
        have hboth := hnone .both
        rw [mem_sources] at hcoins haddress hboth
        simp only at hcoins haddress hboth
        omega
      have hfee : maxFee ((sources state mist).map b) = b .coins := maxFee_of_all hpos hne fun f hf => by
        obtain ⟨s, -, rfl⟩ := List.mem_map.1 hf
        exact hsame s
      rw [hfee, inCoins_eq hpage] at hmost
      rw [← hmost]
      split <;> omega

theorem accepts_most (hpage : state.coins.length ≤ SUI_GAS_PAYMENT_MAX) (hsame : ∀ s, b s = b .coins) {named : Nat}
    (hpos : 0 < named) (hmost : (named : Int) = max (sumBalance state.coins) state.addressBalance - b .coins)
    (hpriced : Priced simulate sender recipient nonce state named b) :
    ∃ tx, buildSuiTransfer simulate sender recipient nonce (.ok state) named = .ok tx ∧
      Settles state tx [(recipient, (named : Int))] := by
  rcases build_cases hpage hpriced with ⟨source, hok, hcovers, hfirst⟩ | ⟨e, -, hnone, -⟩
  · refine ⟨_, hok, (pays_of_cases hpage hpos hpriced ?_ hcovers hfirst).1⟩
    rintro ⟨-, hboth, hcoins, -⟩
    rw [hsame .both] at hboth
    omega
  · have hcoins : ¬ (named + b .coins ≤ sumBalance state.coins) := hnone .coins
    have haddress : ¬ (named + b .addressBalance ≤ state.addressBalance) := hnone .addressBalance
    rw [hsame .addressBalance] at haddress
    omega

end

def sampleCoin : SuiCoinRef := ⟨"0x01", "7", "9WzSXdwbky8tNbtju8Po1mJYgRPQpuPTMcPxvWmU7Ycg", 10000⟩

/-- One coin of 0.00001 SUI beside this address balance. -/
def sampleState (addressBalance : Nat) : SuiSendState :=
  ⟨1, 900, "4btiuiMPvEENsttpZC7CZ53DruC3MAgfznDbASZ7DR6S", 10000, addressBalance, [sampleCoin]⟩

/-- Dry runs in which the transfer from both sources computes less. -/
def sampleSimulate (tx : Transaction) : Except String SuiGasUsed :=
  .ok ⟨if tx.commands.length = 4 then 1000 else 2000, 2000, 0⟩

def sampleBudget : SuiTransferSource → Int
  | .both => 4000
  | _ => 5000

theorem priced_sample (mist addressBalance : Nat) :
    Priced sampleSimulate "0xaa" "0xbb" 0 (sampleState addressBalance) mist sampleBudget := by
  have hboth : suiGasBudget 1 ⟨1000, 2000, 0⟩ = 4000 := by decide
  have hone : suiGasBudget 1 ⟨2000, 2000, 0⟩ = 5000 := by decide
  refine ⟨fun source => ?_, fun source => ?_⟩
  · cases source with
    | both => exact congrArg Except.ok hboth
    | coins => exact congrArg Except.ok hone
    | addressBalance => exact congrArg Except.ok hone
  · cases source <;> decide

end Sui
