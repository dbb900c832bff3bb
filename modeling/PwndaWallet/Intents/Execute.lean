import PwndaWallet.Intents.SessionDeposit

/-!
# Executing a quote

`executeIntentsTrade`: the checks of the quote, the claim of its deposit, one deposit, and what is recorded
of it. `submitPassword`: what the confirm modal does around it.
-/

namespace Intents

open Js Tasks

variable (env : Env)

/-! ## Before the claim -/

/-- What the checks have found out. -/
structure Cleared where
  coin : SwapCoinMeta
  amountIn : String
  /-- `amountIn` in atomic units -/
  amount : Nat
  /-- the catalog's contract -/
  contract : Option String
  deposit : DepositRef

def fromMeta (input : ExecuteIntentsInput) : Option SwapCoinMeta :=
  match truthy input.fromBlockchain with
  | some chain => env.getSwapCoinMeta input.fromAsset chain <|> env.swapCoinMeta input.fromAsset
  | none => env.swapCoinMeta input.fromAsset

/-- The asset and the deposit address that the quote is for. -/
def quotedAsset (input : ExecuteIntentsInput) : Except TradeError (SwapCoinMeta × String × String × Option String) :=
  match fromMeta env input with
  | none => .error (.plain s!"Unknown source asset {input.fromAsset}")
  | some coin =>
    match truthy input.intentsQuote.depositAddress, truthy input.intentsQuote.amountIn with
    | none, _ => .error (.plain "NEAR Intents quote missing depositAddress")
    | _, none => .error (.plain "NEAR Intents quote missing amountIn")
    | some depositAddress, some amountIn => do
      let catalogAsset := (truthy coin.nearIntentsAsset).bind env.lookupByAssetId
      let contract ← assertSourceMetaMatchesCatalog coin catalogAsset
      assertDepositable coin contract
      .ok (coin, depositAddress, amountIn, contract)

def expectation (input : ExecuteIntentsInput) (coin : SwapCoinMeta) : IntentsQuoteExpectation where
  originAsset := coin.nearIntentsAsset
  destinationAsset := some input.destinationAsset
  amountAtomic := input.userIntendedAtomic
  recipient := input.destinationAddress
  refundTo := input.sourceAddress

/-- The quote answers this swap, as far as it and the echo say. -/
def assertBound (input : ExecuteIntentsInput) (coin : SwapCoinMeta) : Except TradeError IntentsQuoteRequestEcho := do
  assertQuoteBinding env.toRegistry input.quoteRequest (expectation input coin)
  match input.quoteRequest with
  | none => .error (.quoteMismatch [.noRequest])
  | some request => do
    assertEcho env.toRegistry request input.quoteEcho
    .ok request

/-- The checks before the claim, at the time `now`. -/
def clear (input : ExecuteIntentsInput) (now : Int) : Except TradeError Cleared := do
  let (coin, depositAddress, amountIn, contract) ← quotedAsset env input
  let request ← assertBound env input coin
  let depositMemo ← depositMemoToAttach request.depositMode input.intentsQuote.depositMemo coin.chainKind
  assertDepositWindowOpen env.toRegistry (input.intentsQuote.deadline <|> request.deadline) coin.chainKind now
  let amount ← atomicStringToBigInt amountIn
  assertQuoteAmountMatchesUserIntent amount input.userIntendedAtomic
  .ok { coin, amountIn, amount, contract, deposit := { depositAddress, depositMemo } }

/-! ## The deposit -/

def rpcUrlOf (input : ExecuteIntentsInput) (coin : SwapCoinMeta) : Except TradeError String :=
  match truthy (input.rpcUrlOverride <|> coin.defaultRpcUrl) with
  | some url => .ok url
  | none => .error (.plain s!"No RPC URL configured for {input.fromAsset}")

/-- The address to send from, asked of the session where the form has none. -/
def sourceOr (input : ExecuteIntentsInput) (derive : TradeProg String) : TradeProg String :=
  if input.sourceAddress ≠ "" then .ret input.sourceAddress else derive

/-- One transfer between the phases that show it. -/
def shown (transfer : TradeProg String) : TradeProg (String × Bool) := do
  phase .signing
  let txHash ← transfer
  phase .broadcasting
  return (txHash, false)

def depositSolana (input : ExecuteIntentsInput) (q : Cleared) : TradeProg (String × Bool) := do
  let rpcUrl ← .ofExcept (rpcUrlOf input q.coin)
  let fromAddress ← sourceOr input (.request (.getSolanaAddress input.sessionId) orThrow)
  shown (match q.contract with
    | some mint => executeSplTransfer env input.sessionId fromAddress q.deposit.depositAddress mint q.amountIn rpcUrl
    | none => executeSolanaTransfer env input.sessionId fromAddress q.deposit.depositAddress q.amountIn rpcUrl)

def depositNear (input : ExecuteIntentsInput) (q : Cleared) : TradeProg (String × Bool) := do
  let rpcUrl ← .ofExcept (rpcUrlOf input q.coin)
  let near ← .request (.getNearAddress input.sessionId) orThrow
  let fromAccountId ← sourceOr input (.ret near.accountId)
  shown (match q.contract with
    | some tokenContract => executeNearTokenTransfer env input.sessionId fromAccountId near.publicKey tokenContract
        q.deposit.depositAddress q.amountIn rpcUrl
    | none => executeNearNativeTransfer env input.sessionId fromAccountId near.publicKey q.deposit.depositAddress
        q.amountIn rpcUrl)

/-- The amount as the chain counts it, if the registry counts it so too. -/
def exactDepositAmount (amount decimals : Nat) (coin : SwapCoinMeta) : Except TradeError Nat :=
  if coin.decimals ≠ decimals then .error (.plain s!"{coin.ticker} is registered with other decimals. Nothing was signed.")
  else if amount = 0 then .error (.plain s!"The {coin.ticker} deposit amount must be positive. Nothing was signed.")
  else .ok amount

def depositStellar (input : ExecuteIntentsInput) (q : Cleared) : TradeProg (String × Bool) := do
  let memo ← .orFail q.deposit.depositMemo (.plain s!"{q.coin.ticker} deposit has no memo. Nothing was signed.")
  let stroops ← .ofExcept (exactDepositAmount q.amount 7 q.coin)
  shown (executeStellarTransfer env input.sessionId input.sourceAddress q.deposit.depositAddress stroops memo)

def depositSui (input : ExecuteIntentsInput) (q : Cleared) : TradeProg (String × Bool) := do
  let mist ← .ofExcept (exactDepositAmount q.amount 9 q.coin)
  shown (executeSuiTransfer env input.sessionId input.sourceAddress q.deposit.depositAddress mist)

/-- A send through the wallet's own adapter. -/
def depositAdapter (send : AdapterSend) : TradeProg (String × Bool) := do
  phase .signing
  let r ← .request (.adapterSend send) id
  phase .broadcasting
  return r

def mnemonicOf (input : ExecuteIntentsInput) : Option String :=
  match input.sourceSecret with
  | some (.mnemonic m) => truthy (some m)
  | _ => none

def walletChainKey (input : ExecuteIntentsInput) (coin : SwapCoinMeta) : Option String :=
  truthy (coin.walletsByChainKey <|> env.tickerToChain input.fromAsset)

/-- The single-address path, where the account cannot be spent from. -/
def depositSingleAddress (input : ExecuteIntentsInput) (q : Cleared) : TradeProg (String × Bool) := do
  .ensure (q.coin.chainKind ≠ .dash) (.plain "DASH swaps deposit from the whole wallet account. Nothing was sent.")
  let rpcUrl ← .ofExcept (rpcUrlOf input q.coin)
  let fromAddress ← sourceOr input (.request (.getUtxoAddress input.sessionId q.coin.chainKind) orThrow)
  shown (.request (.executeUtxoTransfer input.sessionId q.coin.chainKind fromAddress q.deposit.depositAddress
    q.amountIn rpcUrl) id)

/-- Whether the adapter covers the whole account. -/
def accountCovered (input : ExecuteIntentsInput) (coin : SwapCoinMeta) : TradeProg (Option (String × String)) :=
  match coin.tsSourceSigner == some "utxo-account", walletChainKey env input coin, mnemonicOf input with
  | true, some chainKey, some mnemonic => do
    let available ← .request (.accountSendAvailable chainKey input.sourceAddress) orThrow
    return if available then some (chainKey, mnemonic) else none
  | _, _, _ => .ret none

def depositUtxo (input : ExecuteIntentsInput) (q : Cleared) : TradeProg (String × Bool) := do
  let account ← accountCovered env input q.coin
  match account with
  | some (chainKey, mnemonic) =>
    depositAdapter (.accountUtxo chainKey mnemonic input.sourceAddress q.deposit.depositAddress q.amountIn)
  | none => depositSingleAddress input q

def depositCardano (input : ExecuteIntentsInput) (q : Cleared) : TradeProg (String × Bool) :=
  match mnemonicOf input with
  | some mnemonic => depositAdapter (.cardano mnemonic input.sourceAddress q.deposit.depositAddress q.amountIn)
  | none => .fail (.plain "ADA source swap requires the Cardano mnemonic.")

/-- The chains whose adapter signs with one private key. Its token has to be the catalog's. -/
def depositPrivateKey (input : ExecuteIntentsInput) (q : Cleared) : TradeProg (String × Bool) :=
  match input.sourceSecret, walletChainKey env input q.coin with
  | some (.privateKey key), some chainKey =>
    if key = "" then .fail (.plain s!"{q.coin.ticker} source swap requires the private key.")
    else if env.stablecoinContract chainKey ≠ q.contract then .fail (.safety .sourceAssetCatalogMismatch)
    else depositAdapter (.adapter chainKey key q.deposit.depositAddress q.amountIn)
  | some (.privateKey _), none => .fail (.plain s!"{input.fromAsset} has no wallet chain key.")
  | _, _ => .fail (.plain s!"{q.coin.ticker} source swap requires the private key.")

/-- The source chain's hash, and whether it is still pending. -/
def depositArm (input : ExecuteIntentsInput) (q : Cleared) : TradeProg (String × Bool) :=
  match q.coin.chainKind with
  | .evm => do
    let txHash ← depositEvm env input q.coin q.deposit.depositAddress q.amount q.contract
    return (txHash, false)
  | .solana => depositSolana env input q
  | .near => depositNear env input q
  | .btc | .ltc | .doge | .bch | .dash => depositUtxo env input q
  | .stellar => depositStellar env input q
  | .sui => depositSui env input q
  | .cardano => depositCardano input q
  | .xrp | .tron | .aptos => depositPrivateKey env input q
  | .xmr | .zeph | .zano => .fail (.plain s!"{q.coin.ticker} cannot be a NEAR Intents source — out of scope.")

/-! ## The trade -/

/-- Only a send with an unknown outcome leaves a record when the deposit fails. -/
def recordFailure (deposit : DepositRef) : TradeError → TradeProg Unit
  | .outcomeUnknown _ hash => .ask (TradeOp.record deposit { state := .unknown, txHash := hash })
  | _ => .ret ()

/-- The caller persists the trade. What it throws is swallowed. -/
def persist (input : ExecuteIntentsInput) (trade : IntentsTrade) : TradeProg Unit :=
  if input.hasOnBroadcast then .call (.onBroadcast trade) fun _ => .ret () else .ret ()

/-- After the deposit has a hash: nothing that fails here but the last callback fails the trade. -/
def afterDeposit (input : ExecuteIntentsInput) (trade : IntentsTrade) : TradeProg IntentsTrade := do
  .ask (TradeOp.record trade.deposit { state := .broadcast, txHash := some trade.sourceTxHash })
  persist input trade
  .call (.notify trade.deposit trade.sourceTxHash) fun _ => .ret ()
  phase .pending
  return trade

/-- The deposit, and what becomes of it. -/
def depositAndRecord (input : ExecuteIntentsInput) (q : Cleared) : TradeProg IntentsTrade := do
  let sent ← (depositArm env input q).attempt
  match sent with
  | .ok (sourceTxHash, pending) => afterDeposit input { sourceTxHash, deposit := q.deposit, pending }
  | .error e => do
    recordFailure q.deposit e
    .fail e

/-- An attempt that was there refuses the claim. -/
def claimed (r : Except Attempt Unit) : Except TradeError Unit := r.mapError .alreadyUsed

def executeIntentsTrade (input : ExecuteIntentsInput) : TradeProg IntentsTrade :=
  .call .now fun (now : Int) => do
    let q ← .ofExcept (clear env input now)
    .request (.claim q.deposit) claimed
    phase .building
    depositAndRecord env input q

/-! ## The calls -/

/-- A trade whose promise settles. -/
def callTrade (input : ExecuteIntentsInput) : TradeProg IntentsTrade := do
  let r ← (executeIntentsTrade env input).attempt
  .ask (TradeOp.settled r)
  .ofExcept r

/-- What the confirm modal submits. The session is the one that the password unlocks. -/
structure Submission where
  input : ExecuteIntentsInput
  password : String
  /-- the payout is on the XRP ledger -/
  paysXrp : Bool

/-- The deposit that the modal records under. -/
def Submission.deposit (s : Submission) : Option DepositRef :=
  (truthy s.input.intentsQuote.depositAddress).map fun depositAddress =>
    { depositAddress, depositMemo := memoOf s.input.intentsQuote.depositMemo }

/-- The refusals that need no key, before the vault is unlocked. -/
def precheck (s : Submission) (now : Int) : Except TradeError Unit :=
  match fromMeta env s.input with
  | none => .error (.plain s!"Unknown source asset {s.input.fromAsset}")
  | some coin => do
    assertQuoteBinding env.toRegistry s.input.quoteRequest (expectation s.input coin)
    let request := s.input.quoteRequest
    assertDepositWindowOpen env.toRegistry (s.input.intentsQuote.deadline <|> request.bind (·.deadline)) coin.chainKind now
    let _ ← depositMemoToAttach (request.bind (·.depositMode)) s.input.intentsQuote.depositMemo coin.chainKind
    .ok ()

def recheckPayout (s : Submission) : TradeProg Unit :=
  if s.paysXrp then .request .checkXrpPayout orThrow else .ret ()

def tradeFromModal (s : Submission) : TradeProg Unit :=
  .call .now fun (now : Int) => do
    .ofExcept (precheck env s now)
    recheckPayout s
    let sessionId ← .request (.unlockSwap s.password) orThrow
    let _ ← callTrade env { s.input with sessionId, hasOnBroadcast := true }
    return

/-- A failure retires the quote, unless the deposit may be on its way, was made before, or the password was wrong. -/
def afterFailure (deposit : DepositRef) : TradeError → TradeProg Unit
  | .outcomeUnknown _ hash => do
    .ask (TradeOp.record deposit { state := .unknown, txHash := hash })
    .call (.writeIntentsRow hash deposit) fun _ => .ret ()
  | .alreadyUsed _ => .ret ()
  | e => if env.wrongPasswordText e then .ret () else .ask (TradeOp.record deposit { state := .retired, txHash := none })

def submitPassword (s : Submission) : TradeProg Unit :=
  match s.deposit with
  | none => .ret ()
  | some deposit => .call (.attempt deposit) fun (prior : Option Attempt) =>
    match prior with
    | some _ => .ret ()
    | none => do
      let r ← (tradeFromModal env s).attempt
      match r with
      | .ok () => .ret ()
      | .error e => afterFailure env deposit e

end Intents
