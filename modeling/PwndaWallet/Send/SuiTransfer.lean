import Mathlib.Data.List.DropRight
import PwndaWallet.Utxo.History

/-!
# The Sui transfer

`buildSuiTransfer` of `features/swap/session-send.ts` with the gas functions of `wallets/sui-wallet.ts` and the
amounts of `wallets/decimal-amount.ts`. The library's transaction is the data it is built from; the read of the
account and the dry runs are parameters.
-/

namespace Sui

open Js

/-! ## Amounts -/

/-- `frac.replace(/0+$/, "")` -/
def trimZeros (cs : List Char) : List Char := cs.rdropWhile (· == '0')

def atomicToDecimal (atomic : Int) (decimals : Nat) : String :=
  let n := atomic.natAbs
  let scale := 10 ^ decimals
  let frac := trimZeros (padZero decimals (Nat.toDigits 10 (n % scale)))
  (if atomic < 0 then "-" else "") ++ toString (n / scale) ++ (if frac = [] then "" else "." ++ String.ofList frac)

/-! ## Gas -/

structure SuiCoinRef where
  objectId : String
  version : String
  digest : String
  balance : Nat
deriving DecidableEq, Repr

structure SuiSendState where
  referenceGasPrice : Nat
  epoch : Nat
  chainIdentifier : String
  coinBalance : Nat
  addressBalance : Nat
  coins : List SuiCoinRef
deriving DecidableEq, Repr

structure SuiGasUsed where
  computationCost : Nat
  storageCost : Nat
  storageRebate : Nat
deriving DecidableEq, Repr

def SUI_DRY_RUN_BUDGET : Int := 50000000000
def SUI_GAS_SAFE_OVERHEAD : Int := 1000
def SUI_GAS_PAYMENT_MAX : Nat := 50

/-- Larger balances first, then by object id. -/
def coinLe (a b : SuiCoinRef) : Bool :=
  if a.balance ≠ b.balance then decide (a.balance > b.balance) else !decide (a.objectId > b.objectId)

def suiGasPayment (coins : List SuiCoinRef) : List SuiCoinRef := (sort coinLe coins).take SUI_GAS_PAYMENT_MAX

def suiGasBudget (price : Nat) (gas : SuiGasUsed) : Int :=
  let base := gas.computationCost + SUI_GAS_SAFE_OVERHEAD * price
  let total := base + gas.storageCost - gas.storageRebate
  if total > base then total else base

/-! ## Transactions -/

/-- A command of a transaction; a number names the result of an earlier command. -/
inductive Command where
  | redeemFunds (withdrawal : Int)
  | mergeIntoGas (coin : Nat)
  | splitGas (amount : Int)
  | transferObjects (coin : Nat) (recipient : String)
deriving DecidableEq, Repr

structure GasCoin where
  objectId : String
  version : String
  digest : String
deriving DecidableEq, Repr

def SuiCoinRef.gasCoin (c : SuiCoinRef) : GasCoin := ⟨c.objectId, c.version, c.digest⟩

structure ValidDuring where
  minEpoch : Nat
  maxEpoch : Nat
  chain : String
  nonce : UInt32
deriving DecidableEq, Repr

structure Transaction where
  sender : String
  gasPrice : Nat
  gasBudget : Int
  gasPayment : List GasCoin
  expiration : Option ValidDuring
  commands : List Command
deriving DecidableEq, Repr

inductive SuiTransferSource where
  | coins | addressBalance | both
deriving DecidableEq, Repr

def sumBalance (coins : List SuiCoinRef) : Int := coins.foldl (fun sum c => sum + c.balance) 0

/-! ## The shape of a transfer -/

section

variable (sender recipient : String) (nonce : UInt32) (state : SuiSendState) (mist : Nat)

def inCoins : Int := sumBalance (suiGasPayment state.coins)

/-- What `both` withdraws. -/
def topUp (budget : Int) (dryRun : Bool) : Int :=
  if dryRun then (if state.addressBalance < mist then state.addressBalance else mist) else mist + budget - inCoins state

def commandsOf (source : SuiTransferSource) (budget : Int) (dryRun : Bool) : List Command :=
  match source with
  | .coins => [.splitGas mist, .transferObjects 0 recipient]
  | .addressBalance => [.redeemFunds mist, .transferObjects 0 recipient]
  | .both =>
    [.redeemFunds (topUp state mist budget dryRun), .mergeIntoGas 0, .splitGas mist, .transferObjects 2 recipient]

/-- One source's transfer at `budget`; the dry run's has no gas coins. -/
def shape (source : SuiTransferSource) (budget : Int) (dryRun : Bool) : Transaction where
  sender := sender
  gasPrice := state.referenceGasPrice
  gasBudget := budget
  gasPayment :=
    if source = .addressBalance ∨ dryRun then [] else (suiGasPayment state.coins).map SuiCoinRef.gasCoin
  expiration :=
    if source = .addressBalance then some ⟨state.epoch, state.epoch + 1, state.chainIdentifier, nonce⟩ else none
  commands := commandsOf recipient state mist source budget dryRun

def covers (source : SuiTransferSource) (budget : Int) : Bool :=
  match source with
  | .coins => decide (inCoins state ≥ mist + budget)
  | .addressBalance => decide (state.addressBalance ≥ mist + budget)
  | .both => decide (inCoins state ≥ budget ∧ inCoins state + state.addressBalance ≥ mist + budget)

def sources : List SuiTransferSource :=
  (if inCoins state > mist then [.coins] else []) ++ (if state.addressBalance > mist then [.addressBalance] else []) ++
    (if inCoins state > 0 ∧ state.addressBalance > 0 ∧ inCoins state + state.addressBalance > mist then [.both] else [])

end

/-! ## Refusals -/

/-- Which of the texts of `suiShortfallText` it is; the last names the most that can be sent, if that is positive. -/
inductive Shortfall where
  | short
  | shortOfPage
  | noSideAlone (most : Int)
deriving DecidableEq, Repr

section

variable (state : SuiSendState) (inCoins : Int) (mist : Nat) (fees : List Int)

def maxFee : Int := fees.foldl (fun max f => if f > max then f else max) 0

def isShort (sum : Int) : Bool := if fees = [] then decide (sum ≤ mist) else decide (sum < mist + maxFee fees)

def shortfall : Shortfall :=
  if isShort mist fees (state.coinBalance + state.addressBalance) then .short
  else if isShort mist fees (inCoins + state.addressBalance) then .shortOfPage
  else .noSideAlone (if inCoins > state.addressBalance then inCoins - maxFee fees else state.addressBalance - maxFee fees)

def sui (v : Int) : String := atomicToDecimal (if v > 0 then v else 0) 9

def suiShortfallText : String :=
  let held : Int := state.coinBalance + state.addressBalance
  let place :=
    if state.addressBalance > 0 then
      s!"{sui held} SUI ({sui state.coinBalance} in coin objects, {sui state.addressBalance} in its address balance)"
    else s!"{sui held} SUI"
  let feeText := if fees = [] then "" else s!" (up to {sui (maxFee fees)} SUI)"
  match shortfall state inCoins mist fees with
  | .short =>
    s!"This Sui account holds {place}, not enough to send {sui mist} SUI and pay the network fee{feeText}. Nothing was sent."
  | .shortOfPage =>
    s!"This Sui account holds {place}, but one transfer can spend at most {SUI_GAS_PAYMENT_MAX} of its coin " ++
      s!"objects, which hold {sui inCoins} SUI here: not enough to send {sui mist} SUI and pay the network " ++
      s!"fee{feeText}. Send a smaller amount. Nothing was sent."
  | .noSideAlone most =>
    s!"This Sui account holds {place}. The network fee{feeText} is paid from its coin objects or from its " ++
      "address balance, and with this amount neither can pay it. " ++
      (if most > 0 then s!"You can send at most {sui most} SUI. " else "") ++ "Nothing was sent."

end

inductive Refusal where
  | unreadable (e : String)
  | noSui
  | dryRun (e : String)
  | shortfall (state : SuiSendState) (inCoins : Int) (mist : Nat) (fees : List Int)
deriving DecidableEq, Repr

def Refusal.text : Refusal → String
  | .unreadable e => s!"Sui could not be read to prepare the transfer ({e}). Nothing was sent."
  | .noSui => "This Sui account has no SUI to pay the network fee. Nothing was sent."
  | .dryRun e => e
  | .shortfall state inCoins mist fees => suiShortfallText state inCoins mist fees

/-! ## Building -/

section

variable (simulate : Transaction → Except String SuiGasUsed) (sender recipient : String) (nonce : UInt32)

/-- The budget that a dry run of the source's shape prices. -/
def priceOf (state : SuiSendState) (mist : Nat) (source : SuiTransferSource) : Except String Int :=
  (simulate (shape sender recipient nonce state mist source SUI_DRY_RUN_BUDGET true)).map
    (suiGasBudget state.referenceGasPrice)

/-- The loop over the sources that are left, with the budgets priced so far. -/
def trySources (state : SuiSendState) (mist : Nat) : List Int → List SuiTransferSource → Except Refusal Transaction
  | budgets, [] => .error (.shortfall state (inCoins state) mist budgets)
  | budgets, source :: rest =>
    match priceOf simulate sender recipient nonce state mist source with
    | .error e => .error (.dryRun e)
    | .ok budget =>
      if covers state mist source budget then .ok (shape sender recipient nonce state mist source budget false)
      else trySources state mist (budgets ++ [budget]) rest

/-- The transfer that goes to the library to be encoded. -/
def buildSuiTransfer (read : Except String SuiSendState) (mist : Nat) : Except Refusal Transaction :=
  match read with
  | .error e => .error (.unreadable e)
  | .ok state =>
    if inCoins state = 0 ∧ state.addressBalance = 0 then .error .noSui
    else trySources simulate sender recipient nonce state mist [] (sources state mist)

end

end Sui
