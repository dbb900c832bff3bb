import PwndaWallet.Intents.Quote
import PwndaWallet.Lib.Prog

/-!
# What a trade asks

The awaits of `executeIntentsTrade` and of the confirm modal around it, with their answers: the session's
record of deposits, the callbacks, the chains' RPCs and the signers of the Rust swap session.
-/

namespace Intents

open Tasks

inductive Phase where
  | building
  | signing
  | broadcasting
  | pending
deriving DecidableEq

/-- The transaction that `swap_sign_evm` is given. -/
structure UnsignedEvmTx where
  chainId : Nat
  txTo : String
  value : String
  data : String
  gas : Nat
  gasPrice : String
  nonce : String

inductive EvmRpc where
  | gasPrice
  | getBalance (address : String)
  | estimateGas (sender txTo value data : String)
  | call (contract data : String)
  | getTransactionCount (address : String)
deriving DecidableEq

/-- What `decodeEvmSignedTx` reads in signed bytes. -/
structure DecodedTx where
  txTo : String
  value : Nat
  data : String
deriving DecidableEq

inductive SolanaInstruction where
  | transfer (fromPubkey toPubkey : String) (lamports : Nat)
  | createTokenAccount (payer wallet mint : String)
  | tokenTransfer (owner wallet mint : String) (amount : Nat)
deriving DecidableEq

structure SolanaMessage where
  feePayer : String
  instructions : List SolanaInstruction
  recentBlockhash : String
deriving DecidableEq

inductive NearAction where
  | transfer (deposit : Nat)
  | storageDeposit (accountId : String) (deposit : Nat)
  | ftTransfer (receiverId : String) (amount : Nat)
deriving DecidableEq

structure NearTransaction where
  signerId : String
  publicKey : String
  nonce : Nat
  receiverId : String
  blockHash : String
  actions : List NearAction
deriving DecidableEq

structure NearAddress where
  accountId : String
  publicKey : String

/-- What the reads before a NEP-141 transfer say. -/
structure Nep141State where
  receiverExists : Bool
  balance : Nat
  registered : Bool
  storageMinimum : Nat
  availableYocto : Nat
  sendCostYocto : Nat

inductive NearOutcome where
  | success
  | failure (detail : String)
  | unknown
deriving DecidableEq

structure StellarTransaction where
  source : String
  sequence : String
  destination : String
  stroops : Nat
  memo : String
deriving DecidableEq

structure SuiTransaction where
  sender : String
  recipient : String
  mist : Nat
  /-- what the chain's state filled in -/
  payment : String
deriving DecidableEq

/-- What a signer of the session answers with. -/
structure Signed where
  publicKey : String
  signature : String
deriving DecidableEq

inductive SourceSecret where
  | mnemonic (value : String)
  | privateKey (value : String)
deriving DecidableEq

/-- The sends that are not signed by the swap session. -/
inductive AdapterSend where
  | accountUtxo (chainKey mnemonic fromAddress depositAddress amountIn : String)
  | cardano (mnemonic fromAddress depositAddress amountIn : String)
  | adapter (chainKey privateKey depositAddress amountIn : String)

structure IntentsTrade where
  sourceTxHash : String
  deposit : DepositRef
  pending : Bool
deriving DecidableEq

inductive TradeOp where
  | attempt (deposit : DepositRef)
  | claim (deposit : DepositRef)
  | record (deposit : DepositRef) (patch : Patch)
  | phase (p : Phase)
  | onBroadcast (trade : IntentsTrade)
  | notify (deposit : DepositRef) (txHash : String)
  /-- the promise of a trade settles -/
  | settled (result : Except TradeError IntentsTrade)
  | now
  | evmRpc (rpcUrls : List String) (call : EvmRpc)
  | signEvm (sessionId : String) (tx : UnsignedEvmTx) (account index : Nat)
  | broadcastEvmVerified (rpcUrls : List String) (rawTx : String)
  | evmTransactionKnown (rpcUrls : List String) (hash : String)
  | getSolanaAddress (sessionId : String)
  | solanaBlockhash (rpcUrl : String)
  | solanaTokenAccount (rpcUrl wallet mint : String)
  | signSolana (sessionId : String) (message : SolanaMessage)
  | broadcastSolana (rpcUrl : String) (message : SolanaMessage) (signature : String)
  | solanaSignatureSeen (rpcUrl signature : String)
  | getNearAddress (sessionId : String)
  | viewNearAccount (rpcUrls : List String) (accountId : String)
  | nearAccessKey (rpcUrls : List String) (accountId publicKey : String)
  | nearStatus (rpcUrls : List String)
  | nep141State (rpcUrls : List String) (tokenContract sender receiver : String)
  | signNear (sessionId : String) (tx : NearTransaction)
  | broadcastNear (rpcUrl : String) (tx : NearTransaction) (signature : String)
  | waitForNearOutcome (rpcUrls : List String) (tx : NearTransaction)
  | getStellarAddress (sessionId : String)
  | horizonSequence (account : String) (stroops : Nat)
  | horizonAccountExists (account : String)
  | signStellar (sessionId : String) (tx : StellarTransaction)
  | submitStellar (tx : StellarTransaction) (signed : Signed)
  | getSuiAddress (sessionId : String)
  | buildSuiTransfer (sender recipient : String) (mist : Nat)
  | signSui (sessionId : String) (tx : SuiTransaction)
  | executeSui (tx : SuiTransaction) (signed : Signed)
  | accountSendAvailable (chainKey fromAddress : String)
  | getUtxoAddress (sessionId : String) (chain : ChainKind)
  | executeUtxoTransfer (sessionId : String) (chain : ChainKind) (fromAddress depositAddress amountIn rpcUrl : String)
  | adapterSend (send : AdapterSend)
  | checkXrpPayout
  | unlockSwap (password : String)
  | writeIntentsRow (txHash : Option String) (deposit : DepositRef)

/-- A rejected await carries the text of its error. -/
abbrev TradeOp.Ans : TradeOp → Type
  | .attempt _ => Option Attempt
  | .claim _ => Except Attempt Unit
  | .record .. => Unit
  | .phase _ => Except String Unit
  | .onBroadcast _ => Except String Unit
  | .notify .. => Except String Unit
  | .settled _ => Unit
  | .now => Int
  | .evmRpc .. => Except String String
  | .signEvm .. => Except String String
  | .broadcastEvmVerified .. => Except String String
  | .evmTransactionKnown .. => Bool
  | .getSolanaAddress _ => Except String String
  | .solanaBlockhash _ => Except String String
  | .solanaTokenAccount .. => Except String Bool
  | .signSolana .. => Except String Signed
  | .broadcastSolana .. => Except String String
  | .solanaSignatureSeen .. => Bool
  | .getNearAddress _ => Except String NearAddress
  | .viewNearAccount .. => Except String Bool
  | .nearAccessKey .. => Except String (Option Nat)
  | .nearStatus _ => Except String String
  | .nep141State .. => Except String Nep141State
  | .signNear .. => Except String String
  | .broadcastNear .. => Except String String
  | .waitForNearOutcome .. => NearOutcome
  | .getStellarAddress _ => Except String String
  | .horizonSequence .. => Except String String
  | .horizonAccountExists _ => Except String Bool
  | .signStellar .. => Except String Signed
  | .submitStellar .. => Except TradeError String
  | .getSuiAddress _ => Except String String
  | .buildSuiTransfer .. => Except String String
  | .signSui .. => Except String Signed
  | .executeSui .. => Except TradeError String
  | .accountSendAvailable .. => Except String Bool
  | .getUtxoAddress .. => Except String String
  | .executeUtxoTransfer .. => Except TradeError String
  | .adapterSend _ => Except TradeError (String × Bool)
  | .checkXrpPayout => Except String Unit
  | .unlockSwap _ => Except String String
  | .writeIntentsRow .. => Except String Unit

abbrev TradeProg := Prog TradeOp TradeOp.Ans TradeError

/-- A rejection is thrown on. -/
def orThrow {α : Type} (r : Except String α) : Except TradeError α := r.mapError .plain

/-- What is computed by code that is not modelled: the decoders, hashes and verifiers of the chains'
libraries, the classification of error texts, and the tables of the chains. -/
structure Env extends Registry where
  decodeEvmSignedTx : String → Except TradeError DecodedTx
  /-- the hash that the network gives the signed bytes -/
  evmTxHash : String → String
  evmBroadcastRefusedEverywhere : String → Bool
  isDefinitiveBroadcastRefusal : String → Bool
  isPublicKey : String → Bool
  verifySolana : String → SolanaMessage → String → Bool
  nearRpcs : List String
  parseNearRecipient : String → Except String (String × Bool)
  nearTxHash : NearTransaction → String
  verifyNear : String → NearTransaction → String → Bool
  isStellarAddress : String → Bool
  /-- `StrKey.encodeEd25519PublicKey` -/
  encodeStellarKey : String → String
  verifyStellar : String → StellarTransaction → String → Bool
  suiAddressFromPublicKey : String → String
  tickerToChain : String → Option String
  /-- the contract of the stablecoin that a wallet sends, if it sends one -/
  stablecoinContract : String → Option String
  /-- `/decryption failed|wrong password/i` on the error's text -/
  wrongPasswordText : TradeError → Bool

structure ExecuteIntentsInput where
  sessionId : String
  fromAsset : String
  intentsQuote : IntentsQuote
  sourceAddress : String
  userIntendedAtomic : Int
  fromBlockchain : Option String
  rpcUrlOverride : Option String
  account : Option Nat
  index : Option Nat
  sourceSecret : Option SourceSecret
  quoteRequest : Option IntentsQuoteRequestEcho
  quoteEcho : Option QuoteEcho
  destinationAsset : String
  destinationAddress : String
  hasOnBroadcast : Bool

end Intents
