import PwndaWallet.Lib.Json
import Mathlib.Tactic.SplitIfs

/-!
# The fee decision

The schedule (`sidecar_fees/schedule.rs`), the decision on a bid (`sidecar_fees/engine.rs`), and
what is read of a bid's detail (`sidecar_fees/mod.rs`). Amounts are atomic units in a `u64`.
-/

namespace Fees

open Rust

/-! ## The schedule -/

def rateBps : Nat := 50

def k : Nat := 2

def maxEffectiveRatePct : Nat := 50

def atomicPerCoin : Nat := 100000000

/-- `SCRIPTLESS_TICKERS` -/
def scriptlessTickers : List String := ["XMR", "ZEPH", "ZANO"]

structure CoinFee where
  ticker : String
  chainMinOutput : Nat
  txCost : Nat
  address : String

/-- `FEE_COINS` -/
def feeCoins : List CoinFee :=
  [⟨"LTC", 546, 11369, "ltc1q5rm7yppfc7yf7zh0ua9lm4cr6vgd5veppzalkk"⟩,
    ⟨"BCH", 546, 243, "bitcoincash:qrppd4xmtha3ys5cmpyus0decthtw69v8u4pntv8xc"⟩,
    ⟨"BTC", 294, 476, "bc1q34ra2es97g8pdudkg7raqwd8ecen3rww0604l0"⟩]

def norm (ticker : String) : String := toAsciiUppercase (trim ticker)

def isScriptless (ticker : String) : Bool := scriptlessTickers.contains (norm ticker)

def rowFor (ticker : String) : Option CoinFee := feeCoins.find? fun c => c.ticker == norm ticker

def feeAddressFor (ticker : String) : Option String := (rowFor ticker).map (·.address)

def flatFee (ticker : String) : Option Nat := (rowFor ticker).map fun c => max c.chainMinOutput (k * c.txCost)

structure FeeLeg where
  scripted : String
  scriptless : String

def feeLeg (tickerFrom tickerTo : String) : Option FeeLeg :=
  let a := norm tickerFrom
  let b := norm tickerTo
  if a = "" ∨ b = "" ∨ a = b then none
  else
    match isScriptless a, isScriptless b with
    | true, false => some ⟨b, a⟩
    | false, true => some ⟨a, b⟩
    | _, _ => none

/-- The two halves of a decimal number, at its first dot. -/
def splitPoint (s : List Char) : List Char × List Char :=
  if '.' ∈ s then (s.takeWhile (· ≠ '.'), (s.dropWhile (· ≠ '.')).tail) else (s, [])

def parseAmount (text : String) : Except String Nat :=
  let s := trim text
  let (whole, frac) := splitPoint s.toList
  if s = "" then .error "empty amount"
  else if whole.head? = some '-' then .error s!"negative amount {debugStr s}"
  else if (String.ofList frac).utf8ByteSize > 8 then
    .error s!"amount {debugStr s} has more precision than 8 decimals"
  else if !(whole.all Char.isDigit && frac.all Char.isDigit) then
    .error s!"amount {debugStr s} is not a decimal number"
  else
    let units := digitsValue (frac ++ List.replicate (8 - frac.length) '0')
    -- the whole coins fit in a `u64` before and after they are scaled
    match (checkedAdd (digitsValue whole) 0).bind fun w =>
      (checkedMul w atomicPerCoin).bind fun w => checkedAdd w units with
    | some n => .ok n
    | none => .error s!"amount {debugStr s} overflows"

def formatAmount (atomic : Nat) : String :=
  let frac := toString (atomic % atomicPerCoin)
  s!"{atomic / atomicPerCoin}." ++ String.ofList (List.replicate (8 - frac.length) '0') ++ frac

/-! ## The decision -/

/-- `SWAP_COMPLETED` -/
def swapCompleted : Int := 8

/-- `TERMINAL_UNSETTLED` -/
def terminalUnsettled : List Int := [17, 18, 19, 21, 22, 23, 25, 31, 36, 38]

def isTerminalUnsettled (state : Int) : Bool := terminalUnsettled.contains state

structure SettledBid where
  bidId : String
  state : Int
  tickerFrom : String
  tickerTo : String
  amtFrom : String
  amtTo : String

inductive SkipReason where
  | notSettled
  | ended
  | noScriptlessLeg
  | noFeeAddress
  | unreadableAmount
  | guard
  | dust
deriving DecidableEq

def skipLabel : SkipReason → String
  | .notSettled => "notSettled"
  | .ended => "ended"
  | .noScriptlessLeg => "noScriptlessLeg"
  | .noFeeAddress => "noFeeAddress"
  | .unreadableAmount => "unreadableAmount"
  | .guard => "guard"
  | .dust => "dust"

inductive Decision where
  | charge (ticker : String) (amount : Nat) (address : String) (notional : Nat)
  | skip (reason : SkipReason)
deriving DecidableEq

def decide (bid : SettledBid) : Decision :=
  if bid.state ≠ swapCompleted then
    .skip (if isTerminalUnsettled bid.state then .ended else .notSettled)
  else
    match feeLeg bid.tickerFrom bid.tickerTo with
    | none => .skip .noScriptlessLeg
    | some leg =>
      match feeAddressFor leg.scripted, flatFee leg.scripted with
      | some address, some flat =>
        -- the amount that belongs to the scripted ticker
        let notionalStr := if norm bid.tickerFrom = leg.scripted then bid.amtFrom else bid.amtTo
        match parseAmount notionalStr with
        | .error _ => .skip .unreadableAmount
        | .ok notional =>
          if notional = 0 then .skip .unreadableAmount
          else
            let pct := saturatingMul notional rateBps / 10000
            if pct < flat ∧ flat * 100 > notional * maxEffectiveRatePct then .skip .guard
            else
              let amount := if pct < flat then flat else pct
              if amount = 0 then .skip .dust else .charge leg.scripted amount address notional
      | _, _ => .skip .noFeeAddress

def quote (scriptedTicker : String) (notionalAtomic : Nat) : Decision :=
  decide ⟨"", swapCompleted, scriptedTicker, scriptlessTickers.headD "", formatAmount notionalAtomic, "1"⟩

/-- What is held back of a balance when the scripted coin is sold, so that the fee can still be paid. -/
def reserveForSale (scriptedTicker : String) (balanceAtomic : Nat) : Nat :=
  match rowFor scriptedTicker, feeAddressFor scriptedTicker, flatFee scriptedTicker with
  | some row, some _, some flat =>
    let pct := saturatingMul balanceAtomic rateBps / 10000
    -- the guard of `decide`: there would be no charge
    if pct < flat ∧ flat * 100 > balanceAtomic * maxEffectiveRatePct then 0
    else saturatingAdd (if pct < flat then flat else pct) row.txCost
  | _, _, _ => 0

/-! ## What is read of a bid -/

def parseBidFor (v : Json) (knownId : String) : Option SettledBid := do
  let bidId ← ((v.get "bid_id").bind Json.asStr).or (((v.get "bidId").bind Json.asStr).or
    (if trim knownId = "" then none else some (trim knownId)))
  let state ← ((v.get "bid_state_ind").bind Json.asI64).or
    (((v.get "bid_state_ind").bind Json.asStr).bind parseI64)
  let s (key : String) : String := ((v.get key).bind Json.asStr).getD ""
  return ⟨bidId, state, s "ticker_from", s "ticker_to", s "amt_from", s "amt_to"⟩

def parseCreatedAt (v : Json) : Option Int :=
  ((v.get "created_at_timestamp").bind Json.asI64).or ((v.get "created_at").bind Json.asI64)

inductive Age where
  | fresh
  | preexisting
  | unknown

def classifyAge (createdAt : Option Int) (baseline : Int) : Age :=
  match createdAt with
  | some t => if baseline ≤ t then .fresh else .preexisting
  | none => .unknown

/-! ## Before the money path -/

/-- `PreSettle`; a deferral says for how many seconds. -/
inductive PreSettle where
  | proceed
  | defer (why : String) (backoff : Nat)
deriving DecidableEq

/-- `DEFER_BACKOFF` -/
def deferBackoff : Nat := 5 * 60

/-- `DEFER_BACKOFF_IN_FLIGHT` -/
def deferBackoffInFlight : Nat := 30 * 60

def preSettleGate (ticker : String) (amount : Nat) (balance inFlightReserve : Option Nat) : PreSettle :=
  let txCost := ((rowFor ticker).map (·.txCost)).getD 0
  match checkedAdd amount txCost with
  | none => .defer s!"the fee for {ticker} does not fit in a u64 with its send cost" deferBackoff
  | some need =>
    match balance with
    | none => .defer ("the wallet balance is not readable yet (still syncing, locked, or the " ++
        "node did not answer) — a zero from a syncing wallet is not a zero balance") deferBackoff
    | some bal =>
      if bal < need then
        .defer (s!"balance {formatAmount bal} {ticker} does not cover the fee {formatAmount amount}" ++
          s!" plus its {formatAmount txCost} send cost") deferBackoff
      else
        match inFlightReserve with
        | none => .defer ("the node's in-flight swaps could not be read, so the fee waits rather " ++
            "than risk one") deferBackoffInFlight
        | some reserved =>
          if reserved = 0 then .proceed
          else
            match checkedAdd need reserved with
            | none => .defer (s!"the in-flight reserve for {ticker} is implausibly large ({reserved});" ++
                "                  refusing to compare against it") deferBackoffInFlight
            | some withReserve =>
              if withReserve ≤ bal then .proceed
              else
                .defer (s!"balance {formatAmount bal} {ticker} does not leave {formatAmount reserved}" ++
                  " for the swap(s) in flight after the fee — a fee withdraw must never race a lock " ++
                  "funding") deferBackoffInFlight

/-!
## What the fee schedule promises

A charge depends on the coins and amounts of a bid, not on the order of its legs. It is the flat fee or
the rate, whichever is more, and what a sale of the coin holds back covers it.
-/

/-! ## Charges -/

/-- The rate applied to an amount. -/
def pctOf (n : Nat) : Nat := saturatingMul n rateBps / 10000

theorem pctOf_mono {n m : Nat} (h : n ≤ m) : pctOf n ≤ pctOf m := by
  unfold pctOf saturatingMul
  have hmul : n * rateBps ≤ m * rateBps := Nat.mul_le_mul_right _ h
  omega

/-- As long as the product fits, nothing is saturated. -/
theorem pctOf_eq {n : Nat} (h : n * 50 < 2 ^ 64) : pctOf n = n * 50 / 10000 := by
  unfold pctOf saturatingMul rateBps
  rw [Nat.min_eq_left (by omega)]

theorem pctOf_le (n : Nat) : 200 * pctOf n ≤ n := by
  unfold pctOf saturatingMul rateBps
  omega

/-- The guard lets a flat fee of at most half the amount through. -/
def Guarded (flat n : Nat) : Prop := pctOf n < flat ∧ flat * 100 > n * maxEffectiveRatePct

theorem Guarded.anti {flat n m : Nat} (hm : Guarded flat m) (h : n ≤ m) : Guarded flat n := by
  obtain ⟨hpct, hflat⟩ := hm
  refine ⟨Nat.lt_of_le_of_lt (pctOf_mono h) hpct, Nat.lt_of_le_of_lt ?_ hflat⟩
  exact Nat.mul_le_mul_right _ h

theorem two_mul_le_of_not_guarded {flat n : Nat} (h : ¬ Guarded flat n) : 2 * max flat (pctOf n) ≤ n := by
  have hle := pctOf_le n
  unfold Guarded maxEffectiveRatePct at h
  by_cases hpct : pctOf n < flat
  · have hflat : ¬ flat * 100 > n * 50 := fun hgt => h ⟨hpct, hgt⟩
    omega
  · omega

theorem ite_lt_eq_max (a b : Nat) : (if b < a then a else b) = max a b := by
  by_cases h : b < a
  · rw [if_pos h, Nat.max_eq_left (Nat.le_of_lt h)]
  · rw [if_neg h, Nat.max_eq_right (Nat.le_of_not_lt h)]

theorem rowFor_mem {ticker : String} {row : CoinFee} (h : rowFor ticker = some row) :
    row ∈ feeCoins ∧ row.ticker = norm ticker := by
  unfold rowFor at h
  exact ⟨List.mem_of_find?_eq_some h, by simpa using List.find?_some h⟩

/-- The flat fee of a row. -/
def CoinFee.flat (row : CoinFee) : Nat := max row.chainMinOutput (k * row.txCost)

theorem CoinFee.txCost_le_flat {row : CoinFee} (h : row ∈ feeCoins) : row.txCost ≤ row.flat := by
  simp only [feeCoins, List.mem_cons, List.not_mem_nil, or_false] at h
  rcases h with rfl | rfl | rfl <;> decide

theorem CoinFee.flat_pos {row : CoinFee} (h : row ∈ feeCoins) : 0 < row.flat := by
  simp only [feeCoins, List.mem_cons, List.not_mem_nil, or_false] at h
  rcases h with rfl | rfl | rfl <;> decide

theorem not_guarded_pos {row : CoinFee} {n : Nat} (hrow : row ∈ feeCoins) (h : ¬ Guarded row.flat n) : 0 < n := by
  have hpos := CoinFee.flat_pos hrow
  have hle := two_mul_le_of_not_guarded h
  omega

/-- The amount of the leg with the ticker. -/
def amountOf (bid : SettledBid) (ticker : String) : String :=
  if norm bid.tickerFrom = ticker then bid.amtFrom else bid.amtTo

/-- The last steps of `decide`, once the leg and its row are known. -/
theorem priced_charge_iff {row : CoinFee} (hrow : row ∈ feeCoins) {scripted ticker address : String}
    {n amount notional : Nat} :
    (if n = 0 then Decision.skip .unreadableAmount
      else if pctOf n < row.flat ∧ row.flat * 100 > n * maxEffectiveRatePct then .skip .guard
      else if max row.flat (pctOf n) = 0 then .skip .dust
      else .charge scripted (max row.flat (pctOf n)) row.address n) = .charge ticker amount address notional ↔
      scripted = ticker ∧ row.address = address ∧ n = notional ∧ ¬ Guarded row.flat notional ∧
        amount = max row.flat (pctOf notional) := by
  have hpos : max row.flat (pctOf n) ≠ 0 := by
    have := CoinFee.flat_pos hrow
    omega
  rw [if_neg hpos]
  constructor
  · intro h
    split_ifs at h with hzero hguard
    obtain ⟨rfl, rfl, rfl, rfl⟩ := Decision.charge.inj h
    exact ⟨rfl, rfl, rfl, hguard, rfl⟩
  · rintro ⟨rfl, rfl, rfl, hguard, rfl⟩
    have hflat : ¬ (pctOf n < row.flat ∧ row.flat * 100 > n * maxEffectiveRatePct) := hguard
    rw [if_neg (Nat.ne_of_gt (not_guarded_pos hrow hguard)), if_neg hflat]

theorem decide_charge_iff {bid : SettledBid} {ticker address : String} {amount notional : Nat} :
    decide bid = .charge ticker amount address notional ↔
      ∃ leg row, bid.state = swapCompleted ∧ feeLeg bid.tickerFrom bid.tickerTo = some leg ∧
        leg.scripted = ticker ∧ rowFor ticker = some row ∧ row.address = address ∧
        parseAmount (amountOf bid ticker) = .ok notional ∧ ¬ Guarded row.flat notional ∧
        amount = max row.flat (pctOf notional) := by
  unfold decide
  by_cases hstate : bid.state = swapCompleted
  · rw [if_neg (not_not_intro hstate)]
    cases hleg : feeLeg bid.tickerFrom bid.tickerTo with
    | none => simp
    | some leg =>
      cases hrow : rowFor leg.scripted with
      | none => 
        simp only [feeAddressFor, flatFee, hrow, Option.map_none]
        constructor
        · intro h
          cases h
        · rintro ⟨leg', row, -, hleg', rfl, hrow', -⟩
          obtain rfl := Option.some.inj hleg'
          rw [hrow] at hrow'
          cases hrow'
      | some row =>
        have hmem := (rowFor_mem hrow).1
        simp only [feeAddressFor, flatFee, hrow, Option.map_some, ite_lt_eq_max]
        constructor
        · intro h
          split at h
          · cases h
          · rename_i n hn
            obtain ⟨rfl, rfl, rfl, hguard, rfl⟩ := (priced_charge_iff hmem).1 h
            exact ⟨leg, row, hstate, rfl, rfl, hrow, rfl, hn, hguard, rfl⟩
        · rintro ⟨leg', row', -, hleg', rfl, hrow', rfl, hn, hguard, rfl⟩
          obtain rfl := Option.some.inj hleg'
          obtain rfl := Option.some.inj (hrow.symm.trans hrow')
          unfold amountOf at hn
          rw [hn]
          exact (priced_charge_iff hmem).2 ⟨rfl, rfl, rfl, hguard, rfl⟩
  · rw [if_pos hstate]
    simp [hstate]

/-! ## The legs -/

def SettledBid.swap (bid : SettledBid) : SettledBid :=
  { bid with
    tickerFrom := bid.tickerTo
    tickerTo := bid.tickerFrom
    amtFrom := bid.amtTo
    amtTo := bid.amtFrom }

theorem feeLeg_swap (a b : String) : feeLeg b a = feeLeg a b := by
  unfold feeLeg
  by_cases hnone : norm a = "" ∨ norm b = "" ∨ norm a = norm b
  · have hnone' : norm b = "" ∨ norm a = "" ∨ norm b = norm a := by
      rcases hnone with h | h | h
      · exact .inr (.inl h)
      · exact .inl h
      · exact .inr (.inr h.symm)
    simp only [if_pos hnone, if_pos hnone']
  · have hnone' : ¬ (norm b = "" ∨ norm a = "" ∨ norm b = norm a) := by
      rintro (h | h | h)
      · exact hnone (.inr (.inl h))
      · exact hnone (.inl h)
      · exact hnone (.inr (.inr h.symm))
    simp only [if_neg hnone, if_neg hnone']
    cases isScriptless (norm a) <;> cases isScriptless (norm b) <;> rfl

/-- The scripted ticker is that of exactly one leg. -/
theorem feeLeg_scripted {a b : String} {leg : FeeLeg} (h : feeLeg a b = some leg) :
    norm a ≠ norm b ∧ (leg.scripted = norm a ∨ leg.scripted = norm b) := by
  unfold feeLeg at h
  dsimp only at h
  by_cases hnone : norm a = "" ∨ norm b = "" ∨ norm a = norm b
  · rw [if_pos hnone] at h
    cases h
  · rw [if_neg hnone] at h
    refine ⟨fun heq => hnone (.inr (.inr heq)), ?_⟩
    split at h
    · obtain rfl := Option.some.inj h
      exact .inr rfl
    · obtain rfl := Option.some.inj h
      exact .inl rfl
    · cases h

theorem amountOf_swap {bid : SettledBid} {leg : FeeLeg} (h : feeLeg bid.tickerFrom bid.tickerTo = some leg) :
    amountOf bid.swap leg.scripted = amountOf bid leg.scripted := by
  obtain ⟨hne, hfrom | hto⟩ := feeLeg_scripted h
  · simp [amountOf, SettledBid.swap, hfrom, hne.symm]
  · simp [amountOf, SettledBid.swap, hto, hne]

theorem decide_swap (bid : SettledBid) : decide bid.swap = decide bid := by
  unfold decide
  have hlegs : feeLeg bid.swap.tickerFrom bid.swap.tickerTo = feeLeg bid.tickerFrom bid.tickerTo :=
    feeLeg_swap _ _
  have hstate : bid.swap.state = bid.state := rfl
  rw [hlegs, hstate]
  cases hleg : feeLeg bid.tickerFrom bid.tickerTo with
  | none => rfl
  | some leg =>
    have hamt := amountOf_swap hleg
    unfold amountOf at hamt
    dsimp only
    rw [hamt]

/-! ## The reserve of a sale -/

theorem reserveForSale_eq {ticker : String} {row : CoinFee} (h : rowFor ticker = some row) (balance : Nat) :
    (Guarded row.flat balance ∧ reserveForSale ticker balance = 0) ∨
      (¬ Guarded row.flat balance ∧
        reserveForSale ticker balance = saturatingAdd (max row.flat (pctOf balance)) row.txCost) := by
  unfold reserveForSale feeAddressFor flatFee
  simp only [h, Option.map_some, ite_lt_eq_max]
  by_cases hguard : Guarded row.flat balance
  · exact .inl ⟨hguard, if_pos hguard⟩
  · exact .inr ⟨hguard, if_neg hguard⟩

theorem rowFor_norm {ticker ticker' : String} (h : norm ticker = norm ticker') : rowFor ticker = rowFor ticker' := by
  unfold rowFor
  rw [h]

theorem CoinFee.flat_lt {row : CoinFee} (h : row ∈ feeCoins) : row.flat < 2 ^ 63 ∧ row.txCost < 2 ^ 62 := by
  simp only [feeCoins, List.mem_cons, List.not_mem_nil, or_false] at h
  rcases h with rfl | rfl | rfl <;> decide

theorem reserve_exact {row : CoinFee} (h : row ∈ feeCoins) (balance : Nat) :
    saturatingAdd (max row.flat (pctOf balance)) row.txCost = max row.flat (pctOf balance) + row.txCost := by
  have hpct : pctOf balance < 2 ^ 63 := by
    unfold pctOf saturatingMul
    omega
  obtain ⟨hflat, hcost⟩ := CoinFee.flat_lt h
  unfold saturatingAdd
  omega

theorem reserveForSale_le (ticker : String) (balance : Nat) : reserveForSale ticker balance ≤ balance := by
  cases hrow : rowFor ticker with
  | none => simp [reserveForSale, hrow]
  | some row =>
    have hmem := (rowFor_mem hrow).1
    rcases reserveForSale_eq hrow balance with ⟨-, hzero⟩ | ⟨hguard, heq⟩
    · omega
    · have hhalf := two_mul_le_of_not_guarded hguard
      have hcost := CoinFee.txCost_le_flat hmem
      rw [heq, reserve_exact hmem]
      omega

/-- What is held back of a balance covers the fee of every sale of the rest, and the cost of sending it. -/
theorem reserve_covers (ticker : String) (balance : Nat) :
    reserveForSale ticker balance ≤ balance ∧
      ∀ bid scripted amount address notional, decide bid = .charge scripted amount address notional →
        norm ticker = norm scripted → notional ≤ balance - reserveForSale ticker balance →
        ∃ row, rowFor scripted = some row ∧ amount + row.txCost ≤ balance - notional := by
  refine ⟨reserveForSale_le ticker balance, fun bid scripted amount address notional hcharge hnorm hsale => ?_⟩
  obtain ⟨leg, row, -, -, -, hrow, -, -, hguard, rfl⟩ := decide_charge_iff.1 hcharge
  have hmem := (rowFor_mem hrow).1
  refine ⟨row, hrow, ?_⟩
  have hle : notional ≤ balance := Nat.le_trans hsale (Nat.sub_le _ _)
  rcases reserveForSale_eq ((rowFor_norm hnorm).trans hrow) balance with ⟨hguarded, -⟩ | ⟨-, heq⟩
  · -- nothing was held back because no sale of so little is charged
    exact absurd (hguarded.anti hle) hguard
  · have hpct := pctOf_mono hle
    have hreserve := reserveForSale_le ticker balance
    rw [heq, reserve_exact hmem] at hsale hreserve
    omega

theorem reserve_covers_sample :
    ∃ row, rowFor "LTC" = some row ∧ 495000 + row.txCost ≤ 100000000 - 99000000 :=
  (reserve_covers "ltc" 100000000).2 ⟨"b", 8, "LTC", "XMR", "0.99", "0.3"⟩ "LTC" 495000
    "ltc1q5rm7yppfc7yf7zh0ua9lm4cr6vgd5veppzalkk" 99000000 (by decide +kernel) (by decide) (by decide)

end Fees
