import PwndaWallet.Intents.Attempts
import PwndaWallet.Lib.Double
import PwndaWallet.Lib.Js

/-!
# What a quote is held to

The checks of a quote before anything is built: the 1Click catalog has the asset (`safety-invariants.ts`),
the quote answers this swap (`intents-quote-binding.ts`), its memo can be attached
(`intents-deposit-memo.ts`), its window is open, and its amount is what the user meant.
-/

namespace Intents

open Js

/-- `SwapChainKind` -/
inductive ChainKind where
  | evm
  | btc
  | ltc
  | doge
  | bch
  | dash
  | solana
  | near
  | stellar
  | sui
  | xmr
  | zeph
  | zano
  | cardano
  | xrp
  | tron
  | aptos
deriving DecidableEq

inductive DepositMode where
  | simple
  | memo
deriving DecidableEq

/-- The fields of a quote that are read. -/
structure IntentsQuote where
  depositAddress : Option String
  depositMemo : Option String
  amountIn : Option String
  deadline : Option String

/-- The fields of a quote request that decide where money goes. -/
structure IntentsQuoteRequestEcho where
  originAsset : String
  destinationAsset : String
  amount : String
  recipient : String
  refundTo : String
  deadline : Option String
  depositMode : Option DepositMode

/-- What 1Click says that it answered, as far as it says so. -/
structure QuoteEcho where
  originAsset : Option String
  destinationAsset : Option String
  amount : Option String
  recipient : Option String
  refundTo : Option String
  depositMode : Option DepositMode

/-- What a quote must still match when it is signed. -/
structure IntentsQuoteExpectation where
  originAsset : Option String
  destinationAsset : Option String
  amountAtomic : Int
  recipient : String
  refundTo : String

/-- An entry of the generated catalog. -/
structure CatalogAsset where
  assetId : String
  blockchain : String
  decimals : Nat
  contractAddress : Option String

structure SwapCoinMeta where
  ticker : String
  chainKind : ChainKind
  nearIntentsAsset : Option String
  evmChainId : Option Nat
  decimals : Nat
  defaultRpcUrl : Option String
  rpcFallbacks : List String
  tokenContract : Option String
  tsSourceSigner : Option String
  walletsByChainKey : Option String

inductive SafetyInvariantId where
  | quoteAmountVsUserIntent
  | txValueVsQuote
  | txNotFundable
  | txPlausibleOverspend
  | signedTxValueDrift
  | signedTxRecipientDrift
  | sourceAssetNotInCatalog
  | sourceAssetCatalogMismatch
  | depositTxShapeDrift
  | quoteEchoMismatch
  | solRecipientDrift
  | nearRecipientDrift
deriving DecidableEq

/-- Where a quote and what is compared with it differ. -/
inductive Mismatch where
  | noRequest
  | originAsset
  | destinationAsset
  | amount
  | recipient
  | refundTo
  | depositMode
deriving DecidableEq

inductive TradeError where
  /-- `SendOutcomeUnknownError` -/
  | outcomeUnknown (message : String) (hash : Option String)
  /-- `IntentsQuoteAlreadyUsedError` -/
  | alreadyUsed (attempt : Attempt)
  /-- `SafetyInvariantError` -/
  | safety (invariant : SafetyInvariantId)
  /-- `IntentsQuoteMismatchError` -/
  | quoteMismatch (mismatches : List Mismatch)
  /-- `IntentsQuoteExpiredError` -/
  | quoteExpired
  /-- `IntentsDepositMemoError` -/
  | depositMemo
  | plain (message : String)
deriving DecidableEq

/-- What the checks look up in the registry and in the generated tables. -/
structure Registry where
  loc : Intl
  /-- `SWAP_COIN_META[fromAsset.toUpperCase()]` -/
  swapCoinMeta : String → Option SwapCoinMeta
  getSwapCoinMeta : String → String → Option SwapCoinMeta
  lookupByAssetId : String → Option CatalogAsset
  /-- the chain key of a HOT Omni asset id, by `HOT_OMNI_CHAIN_TO_KEY` -/
  hotOmniChain : String → Option String
  /-- `Date.parse`, where it is finite -/
  dateParse : String → Option Int

variable (reg : Registry)

/-! ## The asset -/

/-- `/^0x[0-9a-fA-F]{40}$/` -/
def isHexContract (a : String) : Bool := isHexAddress a.toList && a.toList.length == 42

def sameContract (a b : String) : Bool :=
  if isHexContract a && isHexContract b then a.toList.map Char.toLower == b.toList.map Char.toLower
  else trim a.toList == trim b.toList

/-- `contract?.trim() || null` -/
def trimmed (contract : Option String) : Option String :=
  truthy (contract.map fun c => String.ofList (trim c.toList))

/-- The contract that the deposit has to move, or none for a native coin, out of the catalog. -/
def assertSourceMetaMatchesCatalog (coin : SwapCoinMeta) (catalogAsset : Option CatalogAsset) :
    Except TradeError (Option String) :=
  match truthy coin.nearIntentsAsset, catalogAsset with
  | some asset, some entry =>
    if entry.assetId ≠ asset then .error (.safety .sourceAssetNotInCatalog)
    else if entry.decimals ≠ coin.decimals then .error (.safety .sourceAssetCatalogMismatch)
    else
      match trimmed entry.contractAddress, trimmed coin.tokenContract with
      | none, none => .ok none
      | some catalogContract, some registryContract =>
        if sameContract catalogContract registryContract then .ok (some catalogContract)
        else .error (.safety .sourceAssetCatalogMismatch)
      | _, _ => .error (.safety .sourceAssetCatalogMismatch)
  | _, _ => .error (.safety .sourceAssetNotInCatalog)

/-- The chain kinds whose deposit can be a token. -/
def tokenDepositKind : ChainKind → Bool
  | .evm | .solana | .tron | .near | .aptos => true
  | _ => false

def assertDepositable (coin : SwapCoinMeta) (catalogContract : Option String) : Except TradeError Unit :=
  if catalogContract.isSome && !tokenDepositKind coin.chainKind then .error (.safety .sourceAssetCatalogMismatch)
  else .ok ()

/-! ## The request -/

def bitcoincash : List Char := "bitcoincash:".toList

/-- How `sameAddress` reads an address. -/
def comparableAddress (s : String) : String :=
  let t := trim s.toList
  if isHexAddress t then String.ofList (t.map Char.toLower)
  else if (t.take 12).map Char.toLower == bitcoincash then reg.loc.toLowerCase (String.ofList (t.drop 12))
  else String.ofList t

def sameAddress (a b : String) : Bool :=
  a ≠ "" && b ≠ "" && comparableAddress reg a == comparableAddress reg b

def atomicEquals (sent : String) (expected : Int) : Bool :=
  let t := trim sent.toList
  t != [] && t.all Char.isDigit && (digits 10 t).map Int.ofNat == some expected

/-- A Stellar deposit is told by its memo. -/
def intentsDepositModeFor (originAsset : Option String) : DepositMode :=
  match truthy originAsset with
  | none => .simple
  | some asset =>
    if (reg.lookupByAssetId asset).any (·.blockchain == "stellar") || reg.hotOmniChain asset == some "stellar"
    then .memo
    else .simple

def quoteBindingMismatches (sent : IntentsQuoteRequestEcho) (expected : IntentsQuoteExpectation) : List Mismatch :=
  (if truthy expected.originAsset = some sent.originAsset then [] else [.originAsset]) ++
  (if truthy expected.destinationAsset = some sent.destinationAsset then [] else [.destinationAsset]) ++
  (if atomicEquals sent.amount expected.amountAtomic then [] else [.amount]) ++
  (if sameAddress reg sent.recipient expected.recipient then [] else [.recipient]) ++
  (if sameAddress reg sent.refundTo expected.refundTo then [] else [.refundTo]) ++
  if sent.depositMode.getD .simple = intentsDepositModeFor reg expected.originAsset then [] else [.depositMode]

def assertQuoteBinding (sent : Option IntentsQuoteRequestEcho) (expected : IntentsQuoteExpectation) :
    Except TradeError Unit :=
  match sent with
  | none => .error (.quoteMismatch [.noRequest])
  | some sent =>
    match quoteBindingMismatches reg sent expected with
    | [] => .ok ()
    | m => .error (.quoteMismatch m)

/-- A field of the echo, if it is there, is as `same` says. -/
def echoed {α : Type} (field : Option α) (same : α → Bool) (m : Mismatch) : List Mismatch :=
  match field with
  | some x => if same x then [] else [m]
  | none => []

def echoMismatches (sent : IntentsQuoteRequestEcho) (echo : Option QuoteEcho) : List Mismatch :=
  match echo with
  | none => []
  | some echo =>
    echoed echo.originAsset (· == sent.originAsset) .originAsset ++
    echoed echo.destinationAsset (· == sent.destinationAsset) .destinationAsset ++
    echoed echo.amount (fun a => trim a.toList == trim sent.amount.toList) .amount ++
    echoed echo.recipient (sameAddress reg · sent.recipient) .recipient ++
    echoed echo.refundTo (sameAddress reg · sent.refundTo) .refundTo ++
    echoed echo.depositMode (· == sent.depositMode.getD .simple) .depositMode

def assertEcho (sent : IntentsQuoteRequestEcho) (echo : Option QuoteEcho) : Except TradeError Unit :=
  if echoMismatches reg sent echo = [] then .ok () else .error (.safety .quoteEchoMismatch)

/-! ## The memo -/

def stellarMemoTextMaxBytes : Nat := 28

def depositMemoToAttach (depositMode : Option DepositMode) (depositMemo : Option String) (chainKind : ChainKind) :
    Except TradeError (Option String) :=
  if chainKind ≠ .stellar then
    if (memoOf depositMemo).isSome ∨ depositMode = some .memo then .error .depositMemo else .ok none
  else
    match depositMemo with
    | none => .error .depositMemo
    | some raw =>
      if trim raw.toList = [] then .error .depositMemo
      else if stellarMemoTextMaxBytes < raw.utf8ByteSize then .error .depositMemo
      else .ok (some raw)

/-! ## The window -/

/-- The minutes that a deposit needs to land. -/
def landingMinutes : ChainKind → Int
  | .btc => 60
  | .ltc | .doge | .bch | .dash => 30
  | .cardano => 15
  | _ => 10

/-- `left < 0` is a division by the milliseconds of a minute that the comparison does not need. -/
def assertDepositWindowOpen (deadline : Option String) (chainKind : ChainKind) (nowMs : Int) : Except TradeError Unit :=
  match (truthy deadline).bind reg.dateParse with
  | none => .error .quoteExpired
  | some until_ => if until_ - nowMs < landingMinutes chainKind * 60000 then .error .quoteExpired else .ok ()

/-! ## The amount -/

/-- `/^\d+(\.\d+)?$/`, and the integer part of what it matches. -/
def atomicStringToBigInt (s : String) : Except TradeError Nat :=
  let t := trim s.toList
  let whole := t.takeWhile Char.isDigit
  let ok := match t.dropWhile Char.isDigit with
    | [] => true
    | '.' :: frac => frac != [] && frac.all Char.isDigit
    | _ => false
  match digits 10 whole with
  | some n => if ok then .ok n else .error (.plain s!"Invalid atomic-units string: {s}")
  | none => .error (.plain s!"Invalid atomic-units string: {s}")

/-- `Number(n)`, or none for `Infinity`. -/
def number (n : Nat) : Option ℚ := if Double.nearest n < 2 ^ 1024 then some (Double.nearest n) else none

def quoteAmountDriftTolerance : ℚ := Double.nearest (1 / 100)

/-- Whether the quotient of two doubles is a number between the two bounds. -/
def ratioInBand (quote user : Nat) : Bool :=
  match number quote, number user with
  | some q, some u =>
    let ratio := Double.nearest (q / u)
    Double.nearest (1 - quoteAmountDriftTolerance) ≤ ratio && ratio ≤ Double.nearest (1 + quoteAmountDriftTolerance)
  | _, _ => false

def assertQuoteAmountMatchesUserIntent (quoteAmountAtomic : Nat) (userIntendedAtomic : Int) : Except TradeError Unit :=
  let refuse := .error (.safety .quoteAmountVsUserIntent)
  -- a negative amount has a ratio that is not positive
  if userIntendedAtomic ≤ 0 then refuse
  else
    let user := userIntendedAtomic.toNat
    if 100 ≤ quoteAmountAtomic / user then refuse
    else if 0 < quoteAmountAtomic ∧ 100 ≤ user / quoteAmountAtomic then refuse
    else if ratioInBand quoteAmountAtomic user then .ok ()
    else refuse

end Intents
