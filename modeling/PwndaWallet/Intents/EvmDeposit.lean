import PwndaWallet.Intents.Trade

/-!
# The EVM deposit

`depositEvm`: estimate, balance gates, one build, one signature and one broadcast. The asset's contract is
the catalog's; without one the chain's own coin is sent.
-/

namespace Intents

open Js Tasks

variable (env : Env)

/-! ## Calldata -/

def transferSelector : List Char := "a9059cbb".toList

/-- `s.toLowerCase()` without its `0x`. -/
def bareHex (s : String) : List Char :=
  match (env.loc.toLowerCase s).toList with
  | '0' :: 'x' :: cs => cs
  | cs => cs

/-- An address of 40 lower case digits, as calldata carries it. -/
def addressWord (address : String) : Except TradeError (List Char) :=
  let clean := bareHex env address
  if clean.length = 40 ∧ clean.all (fun c => c.isDigit || ('a' ≤ c && c ≤ 'f')) then .ok (padZero 64 clean)
  else .error (.plain s!"Invalid ERC-20 transfer recipient: {address}")

def buildErc20TransferCalldata (recipient : String) (amountAtomic : Nat) : Except TradeError String := do
  let word ← addressWord env recipient
  if 64 < (hex amountAtomic).length then .error (.plain "ERC-20 transfer amount overflows uint256")
  else .ok (String.ofList ("0x".toList ++ transferSelector ++ word ++ padZero 64 (hex amountAtomic)))

def buildErc20BalanceOfCalldata (holder : String) : Except TradeError String := do
  let word ← addressWord env holder
  .ok (String.ofList ("0x70a08231".toList ++ word))

/-- The recipient and the amount of a `transfer(address,uint256)`. -/
def parseErc20TransferCalldata (calldata : String) : Option (String × Nat) :=
  let body := bareHex env calldata
  let word := (body.drop 8).take 64
  if body.length ≠ 136 ∨ body.take 8 ≠ transferSelector ∨ word.take 24 ≠ List.replicate 24 '0' then none
  else (digits 16 (body.drop 72)).map fun amount => (String.ofList ('0' :: 'x' :: word.drop 24), amount)

/-! ## Invariants -/

def assertTxValueMatchesQuote (txValueAtomic : Option Int) (quoteAmountAtomic : Nat) : Except TradeError Unit :=
  if txValueAtomic = some (quoteAmountAtomic : Int) then .ok () else .error (.safety .txValueVsQuote)

def assertTxFundable (valueAtomic gasCostAtomic balanceAtomic : Int) : Except TradeError Unit :=
  if balanceAtomic < valueAtomic + gasCostAtomic then .error (.safety .txNotFundable) else .ok ()

def assertTxNotPlausibleOverspend (valueAtomic balanceAtomic : Int) : Except TradeError Unit :=
  if balanceAtomic ≠ 0 ∧ 2 * balanceAtomic < valueAtomic then .error (.safety .txPlausibleOverspend) else .ok ()

def sameText (a b : String) : Bool := env.loc.toLowerCase a == env.loc.toLowerCase b

/-- A token transfer: to the contract, without coin, and with the calldata of the quote's transfer. -/
def isTokenDeposit (tx : DecodedTx) (contract depositAddress : String) (amountAtomic : Nat) : Bool :=
  sameText env tx.txTo contract && tx.value == 0 &&
    parseErc20TransferCalldata env tx.data == some (env.loc.toLowerCase depositAddress, amountAtomic)

/-- A transfer of the chain's own coin. -/
def isNativeDeposit (tx : DecodedTx) (depositAddress : String) (amountAtomic : Nat) : Bool :=
  sameText env tx.txTo depositAddress && tx.value == amountAtomic &&
    (tx.data == "" || env.loc.toLowerCase tx.data == "0x")

def assertEvmDepositShape (tx : DecodedTx) (depositAddress : String) (amountAtomic : Nat) (contract : Option String) :
    Except TradeError Unit :=
  let right := match contract with
    | some contract => isTokenDeposit env tx contract depositAddress amountAtomic
    | none => isNativeDeposit env tx depositAddress amountAtomic
  if right then .ok () else .error (.safety .depositTxShapeDrift)

def assertSignedTxValueMatches (rawTx : String) (expectedValueAtomic : Nat) (expectedRecipient : String) :
    Except TradeError Unit := do
  let decoded ← env.decodeEvmSignedTx rawTx
  if decoded.value ≠ expectedValueAtomic then .error (.safety .signedTxValueDrift)
  else if sameText env decoded.txTo expectedRecipient then .ok ()
  else .error (.safety .signedTxRecipientDrift)

/-! ## The deposit -/

/-- The transfer that the deposit is, before gas and nonce. -/
structure EvmTransfer where
  txTo : String
  value : Nat
  data : String

def EvmTransfer.valueHex (t : EvmTransfer) : String := String.ofList ('0' :: 'x' :: hex t.value)

def evmTransfer (depositAddress : String) (amountAtomic : Nat) (contract : Option String) :
    Except TradeError EvmTransfer :=
  match contract with
  | none => .ok { txTo := depositAddress, value := amountAtomic, data := "0x" }
  | some contract => do
    let data ← buildErc20TransferCalldata env depositAddress amountAtomic
    .ok { txTo := contract, value := 0, data }

def rpcUrlsOf (input : ExecuteIntentsInput) (coin : SwapCoinMeta) : List String :=
  match truthy input.rpcUrlOverride with
  | some url => [url]
  | none => if coin.rpcFallbacks ≠ [] then coin.rpcFallbacks else (truthy coin.defaultRpcUrl).toList

/-- An RPC's answer as an integer. -/
def evmNumber (rpcUrls : List String) (call : EvmRpc) : TradeProg Int :=
  .request (.evmRpc rpcUrls call) fun r =>
    match r with
    | .error e => .error (.plain e)
    | .ok answer =>
      match bigInt answer with
      | some n => .ok n
      | none => .error (.plain s!"Cannot convert {answer} to a BigInt")

def evmText (rpcUrls : List String) (call : EvmRpc) : TradeProg String := .request (.evmRpc rpcUrls call) orThrow

/-- The estimate and a quarter of it, or the fixed limit where there is no plausible one. -/
def gasLimitOf (isErc20 : Bool) (estimate : Except TradeError Int) : Int :=
  match estimate with
  | .ok est => if est < 21000 ∨ 10000000 < est then (if isErc20 then 100000 else 21000) else (est * 125 + 99) / 100
  | .error _ => if isErc20 then 100000 else 21000

def estimateDepositGasLimit (rpcUrls : List String) (sender : String) (t : EvmTransfer) (isErc20 : Bool) :
    TradeProg Int := do
  let estimate ← (evmNumber rpcUrls (.estimateGas sender t.txTo t.valueHex t.data)).attempt
  return gasLimitOf isErc20 estimate

/-- The token's balance; without a token there is none to read. -/
def tokenBalance (rpcUrls : List String) (holder : String) : Option String → TradeProg Int
  | none => .ret 0
  | some contract => do
    let data ← .ofExcept (buildErc20BalanceOfCalldata env holder)
    evmNumber rpcUrls (.call contract data)

/-- The gates on the balances that were read. -/
def assertFunded (isErc20 : Bool) (amount : Nat) (native token gasCost : Int) : Except TradeError Unit := do
  assertTxNotPlausibleOverspend amount (if isErc20 then token else native)
  if isErc20 then
    assertTxFundable gasCost 0 native
    assertTxFundable amount 0 token
  else assertTxFundable amount gasCost native

/-- What the built transaction moves. -/
def builtAmount (isErc20 : Bool) (tx : UnsignedEvmTx) : Option Int :=
  if isErc20 then (parseErc20TransferCalldata env tx.data).map (·.2) else bigInt tx.value

/-- The built transaction, as the checks of its shape see it. -/
def UnsignedEvmTx.decoded (tx : UnsignedEvmTx) : Option DecodedTx :=
  (bigInt tx.value).map fun value => { txTo := tx.txTo, value := value.toNat, data := tx.data }

def assertBuilt (tx : UnsignedEvmTx) (depositAddress : String) (amount : Nat) (contract : Option String) :
    Except TradeError Unit := do
  assertTxValueMatchesQuote (builtAmount env contract.isSome tx) amount
  match tx.decoded with
  | some decoded => assertEvmDepositShape env decoded depositAddress amount contract
  | none => .error (.plain "Cannot convert the value to a BigInt")

/-- The checks of the bytes that the signer returned. -/
def assertSigned (rawTx : String) (t : EvmTransfer) (depositAddress : String) (amount : Nat)
    (contract : Option String) : Except TradeError Unit := do
  assertSignedTxValueMatches env rawTx t.value t.txTo
  let decoded ← env.decodeEvmSignedTx rawTx
  assertEvmDepositShape env decoded depositAddress amount contract

def phase (p : Phase) : TradeProg Unit := .request (.phase p) orThrow

/-- What the verified broadcast of signed bytes comes to: what may have been sent has an unknown outcome. -/
def settleEvm (rpcUrls : List String) (localHash : String) : Except String String → TradeProg String
  | .ok verifiedHash =>
    if sameText env verifiedHash localHash then .ret verifiedHash
    else .fail (.outcomeUnknown "the network answered with another hash" (some localHash))
  | .error msg => .call (.evmTransactionKnown rpcUrls localHash) fun known =>
    if known = true then .ret localHash
    else if env.evmBroadcastRefusedEverywhere msg then .fail (.plain s!"Every RPC refused the deposit. {msg}")
    else .fail (.outcomeUnknown msg (some localHash))

/-- Broadcast signed bytes once. -/
def broadcastEvmDepositOnce (rpcUrls : List String) (rawTx : String) : TradeProg String :=
  .call (.broadcastEvmVerified rpcUrls rawTx) (settleEvm env rpcUrls (env.evmTxHash rawTx))

/-- From the funded transfer to the broadcast. -/
def signAndBroadcastEvm (input : ExecuteIntentsInput) (rpcUrls : List String) (chainId : Nat) (t : EvmTransfer)
    (gasPrice : String) (gasLimit : Int) (depositAddress : String) (amount : Nat) (contract : Option String) :
    TradeProg String := do
  -- the nonce is read last, right before signing
  let nonce ← evmText rpcUrls (.getTransactionCount input.sourceAddress)
  let tx : UnsignedEvmTx :=
    { chainId, txTo := t.txTo, value := t.valueHex, data := t.data, gas := gasLimit.toNat, gasPrice, nonce }
  .ofExcept (assertBuilt env tx depositAddress amount contract)
  phase .signing
  let rawTx ← .request (.signEvm input.sessionId tx (input.account.getD 0) (input.index.getD 0)) orThrow
  .ofExcept (assertSigned env rawTx t depositAddress amount contract)
  phase .broadcasting
  broadcastEvmDepositOnce env rpcUrls rawTx

def depositEvm (input : ExecuteIntentsInput) (coin : SwapCoinMeta) (depositAddress : String) (amount : Nat)
    (contract : Option String) : TradeProg String := do
  let chainId ← .orFail coin.evmChainId (.plain s!"No chain id configured for {input.fromAsset}")
  let rpcUrls := rpcUrlsOf input coin
  .ensure (rpcUrls != []) (.plain s!"No RPC URL configured for {input.fromAsset}")
  let t ← .ofExcept (evmTransfer env depositAddress amount contract)
  let gasPriceHex ← evmText rpcUrls .gasPrice
  let native ← evmNumber rpcUrls (.getBalance input.sourceAddress)
  let gasPrice ← .orFail (bigInt gasPriceHex) (.plain s!"Cannot convert {gasPriceHex} to a BigInt")
  let gasLimit ← estimateDepositGasLimit rpcUrls input.sourceAddress t contract.isSome
  let token ← tokenBalance env rpcUrls input.sourceAddress contract
  .ofExcept (assertFunded contract.isSome amount native token (gasLimit * gasPrice))
  signAndBroadcastEvm env input rpcUrls chainId t gasPriceHex gasLimit depositAddress amount contract

end Intents
