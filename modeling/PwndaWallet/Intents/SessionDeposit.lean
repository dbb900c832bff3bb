import PwndaWallet.Intents.EvmDeposit

/-!
# Deposits signed by the swap session

`executeSolanaTransfer`, `executeSplTransfer`, `executeNearNativeTransfer`, `executeNearTokenTransfer`,
`executeStellarTransfer` and `executeSuiTransfer`: what each compares before its bytes are broadcast.
-/

namespace Intents

open Js Tasks

variable (env : Env)

/-! ## Solana -/

def maxSafeInteger : Nat := 2 ^ 53 - 1

/-- What a Solana broadcast comes to. The id of a transaction is its fee payer's signature. -/
def settleSolana (rpcUrl signature : String) : Except String String → TradeProg String
  | .ok txHash => .ret txHash
  | .error msg => .call (.solanaSignatureSeen rpcUrl signature) fun seen =>
    if seen = true then .ret signature
    else if env.isDefinitiveBroadcastRefusal msg then .fail (.plain s!"The Solana network refused the deposit: {msg}")
    else .fail (.outcomeUnknown msg (some signature))

/-- Sign a message for its fee payer, and broadcast it. `serialize` verifies the signature. -/
def signAndBroadcastSolana (sessionId rpcUrl : String) (message : SolanaMessage) : TradeProg String := do
  let signed ← .request (.signSolana sessionId message) orThrow
  .ensure (env.verifySolana message.feePayer message signed.signature) (.plain "Signature verification failed.")
  .call (.broadcastSolana rpcUrl message signed.signature) (settleSolana env rpcUrl signed.signature)

def executeSolanaTransfer (sessionId fromAddress depositAddress amountAtomic rpcUrl : String) : TradeProg String := do
  .ensure (env.isPublicKey fromAddress && env.isPublicKey depositAddress) (.plain "Invalid public key input")
  let lamports ← .ofExcept (atomicStringToBigInt amountAtomic)
  .ensure (lamports ≤ maxSafeInteger) (.plain "SOL amount exceeds JS Number safety bound")
  let recentBlockhash ← .request (.solanaBlockhash rpcUrl) orThrow
  signAndBroadcastSolana env sessionId rpcUrl
    { feePayer := fromAddress, recentBlockhash, instructions := [.transfer fromAddress depositAddress lamports] }

def executeSplTransfer (sessionId fromAddress depositAddress mint amountAtomic rpcUrl : String) : TradeProg String := do
  .ensure (env.isPublicKey fromAddress && env.isPublicKey depositAddress && env.isPublicKey mint)
    (.plain "Invalid public key input")
  let amount ← .ofExcept (atomicStringToBigInt amountAtomic)
  .ensure (amount ≤ 2 ^ 64 - 1) (.plain "SPL amount overflows u64")
  let there ← .request (.solanaTokenAccount rpcUrl depositAddress mint) orThrow
  let create := if there = true then [] else [.createTokenAccount fromAddress depositAddress mint]
  let recentBlockhash ← .request (.solanaBlockhash rpcUrl) orThrow
  signAndBroadcastSolana env sessionId rpcUrl
    { feePayer := fromAddress, recentBlockhash
      instructions := create ++ [.tokenTransfer fromAddress depositAddress mint amount] }

/-! ## NEAR -/

def nearBroadcastTries : Nat := 2

def nearRpcList (rpcUrl : String) : List String := ((rpcUrl :: env.nearRpcs).filter (· ≠ "")).eraseDups

/-- The same bytes go to one node after the other until one takes them. -/
def broadcastNearAny (tx : NearTransaction) (signature : String) : List String → TradeProg Unit
  | [] => .ret ()
  | url :: urls => .call (.broadcastNear url tx signature) fun (r : Except String String) =>
    match r with
    | .ok _ => .ret ()
    | .error _ => broadcastNearAny tx signature urls

/-- A transfer that is not seen in time keeps its hash. -/
def settleNear (txHash : String) : NearOutcome → TradeProg String
  | .failure detail => .fail (.plain s!"NEAR ran the transfer and it failed ({detail})")
  | .success => .ret txHash
  | .unknown => .ret txHash

def signSubmitAndConfirmNear (sessionId : String) (rpcUrls : List String) (tx : NearTransaction) : TradeProg String := do
  let signature ← .request (.signNear sessionId tx) orThrow
  .ensure (env.verifyNear tx.publicKey tx signature)
    (.plain "The NEAR signature does not match this account's key. Nothing was sent.")
  broadcastNearAny tx signature (rpcUrls.take nearBroadcastTries)
  .call (.waitForNearOutcome rpcUrls tx) (settleNear (env.nearTxHash tx))

/-- The nonce of the account's access key for the public key. -/
def fetchNearNonce (rpcUrls : List String) (accountId publicKey : String) : TradeProg (Nat × String) := do
  let nonce ← .request (.nearAccessKey rpcUrls accountId publicKey) orThrow
  let nonce ← .orFail nonce (.plain s!"NEAR account {accountId} has no access key for {publicKey}.")
  let blockHash ← .request (.nearStatus rpcUrls) orThrow
  return (nonce, blockHash)

/-- A named account that does not exist cannot receive. -/
def assertNearReceiver (rpcUrls : List String) (receiver : String × Bool) : TradeProg Unit := do
  if receiver.2 then .ret ()
  else
    let known ← .request (.viewNearAccount rpcUrls receiver.1) orThrow
    .ensure known (.plain s!"The NEAR account {receiver.1} does not exist. Nothing was sent.")

def executeNearNativeTransfer (sessionId fromAccountId fromPublicKey depositAddress amountAtomic rpcUrl : String) :
    TradeProg String := do
  let receiver ← .ofExcept (orThrow (env.parseNearRecipient depositAddress))
  let yocto ← .ofExcept (atomicStringToBigInt amountAtomic)
  .ensure (0 < yocto) (.plain "The NEAR amount must be greater than zero.")
  let rpcUrls := nearRpcList env rpcUrl
  assertNearReceiver rpcUrls receiver
  let at_ ← fetchNearNonce rpcUrls fromAccountId fromPublicKey
  signSubmitAndConfirmNear env sessionId rpcUrls
    { signerId := fromAccountId, publicKey := fromPublicKey, nonce := at_.1 + 1, receiverId := receiver.1
      blockHash := at_.2, actions := [.transfer yocto] }

/-- The refusals before a NEP-141 transfer is built. -/
def assertNep141 (st : Nep141State) (receiverId : String) (amount : Nat) : Except TradeError Unit :=
  if !st.receiverExists then .error (.plain s!"The NEAR account {receiverId} does not exist. Nothing was sent.")
  else if st.balance < amount then .error (.plain "This NEAR account holds too little of the token. Nothing was sent.")
  else if st.availableYocto < st.sendCostYocto then .error (.plain "Add NEAR first. Nothing was sent.")
  else .ok ()

def executeNearTokenTransfer (sessionId fromAccountId fromPublicKey tokenContract receiver amountAtomic rpcUrl : String) :
    TradeProg String := do
  let receiver ← .ofExcept (orThrow (env.parseNearRecipient receiver))
  let amount ← .ofExcept (atomicStringToBigInt amountAtomic)
  .ensure (0 < amount) (.plain "The amount must be greater than zero.")
  .ensure (receiver.1 != fromAccountId) (.plain "A token cannot be sent to the account that holds it.")
  let rpcUrls := nearRpcList env rpcUrl
  let st ← .request (.nep141State rpcUrls tokenContract fromAccountId receiver.1) orThrow
  .ofExcept (assertNep141 st receiver.1 amount)
  let at_ ← fetchNearNonce rpcUrls fromAccountId fromPublicKey
  let register := if st.registered then [] else [.storageDeposit receiver.1 st.storageMinimum]
  signSubmitAndConfirmNear env sessionId rpcUrls
    { signerId := fromAccountId, publicKey := fromPublicKey, nonce := at_.1 + 1, receiverId := tokenContract
      blockHash := at_.2, actions := register ++ [.ftTransfer receiver.1 amount] }

/-! ## Stellar and Sui -/

def shortAddress (a : String) : String :=
  let cs := a.toList
  if 12 < cs.length then String.ofList (cs.take 6) ++ "…" ++ String.ofList (cs.drop (cs.length - 4)) else a

/-- The session's key is not the shown address's. -/
def keyMismatch (chain shown signer : String) : TradeError :=
  .plain (s!"Sending from this {chain} wallet isn't supported yet. It shows " ++ shortAddress shown ++
    ", but this wallet can only sign for " ++ shortAddress signer ++
    s!", your recovery phrase's standard {chain} account. A {chain} wallet imported from a private key, or at " ++
    "another derivation path, cannot send from here yet. Nothing was signed.")

def executeStellarTransfer (sessionId fromAddress depositAddress : String) (stroops : Nat) (memo : String) :
    TradeProg String := do
  let source := String.ofList (trim fromAddress.toList)
  let destination := String.ofList (trim depositAddress.toList)
  .ensure (env.isStellarAddress destination) (.plain "That is not a Stellar address.")
  .ensure (0 < stroops) (.plain "Amount must be greater than zero.")
  .ensure (memo.utf8ByteSize ≤ stellarMemoTextMaxBytes) (.plain "A text memo is at most 28 bytes. Nothing was sent.")
  let signerAddress ← .request (.getStellarAddress sessionId) orThrow
  .ensure (signerAddress == source) (keyMismatch "Stellar" source signerAddress)
  let sequence ← .request (.horizonSequence source stroops) orThrow
  let there ← .request (.horizonAccountExists destination) orThrow
  .ensure there (.plain "The deposit address has no Stellar account. Nothing was sent.")
  let tx : StellarTransaction := { source, sequence, destination, stroops, memo }
  let signed ← .request (.signStellar sessionId tx) orThrow
  .ensure (env.encodeStellarKey signed.publicKey == source)
    (keyMismatch "Stellar" source (env.encodeStellarKey signed.publicKey))
  .ensure (env.verifyStellar signed.publicKey tx signed.signature)
    (.plain "The Stellar signature does not verify for this transaction. Nothing was sent.")
  .request (.submitStellar tx signed) id

def lower (s : String) : String := env.loc.toLowerCase s

/-- `0x` and 64 hexadecimal digits. -/
def parseSuiRecipient (input : String) : Except TradeError String :=
  let t := lower env (String.ofList (trim input.toList))
  if isHexAddress t.toList && t.toList.length == 66 then .ok t else .error (.plain "That is not a Sui address.")

def executeSuiTransfer (sessionId fromAddress depositAddress : String) (mist : Nat) : TradeProg String := do
  let sender := lower env (String.ofList (trim fromAddress.toList))
  let recipient ← .ofExcept (parseSuiRecipient env depositAddress)
  .ensure (0 < mist) (.plain "Amount must be greater than zero.")
  let signerAddress ← .request (.getSuiAddress sessionId) orThrow
  .ensure (lower env signerAddress == sender) (keyMismatch "Sui" sender signerAddress)
  let payment ← .request (.buildSuiTransfer sender recipient mist) orThrow
  let tx : SuiTransaction := { sender, recipient, mist, payment }
  let signed ← .request (.signSui sessionId tx) orThrow
  .ensure (lower env (env.suiAddressFromPublicKey signed.publicKey) == sender)
    (keyMismatch "Sui" sender (env.suiAddressFromPublicKey signed.publicKey))
  .request (.executeSui tx signed) id

end Intents
