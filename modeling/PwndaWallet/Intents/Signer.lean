import PwndaWallet.Intents.Execute

/-!
# The signers of the swap session

`commands.rs`: a command derives its key from the phrase that the unlock took out of the vault, and signs
what it is given. A session answers to its own id, until it expires.
-/

namespace Intents

open Js Tasks

/-! ## Keys -/

/-- The crates that derive keys and sign. A signature is taken to verify for the key that made it only. -/
structure Crypto (env : Env) where
  Seed : Type
  Key : Type
  mnemonicToSeed : String → String → Except String Seed
  evmPrivateKey : Seed → Nat → Nat → Except String Key
  evmAddress : Key → String
  signEvm : UnsignedEvmTx → Key → Except String String
  /-- the address that signed bytes are from -/
  recoverEvm : String → String
  recoverEvm_signEvm : ∀ tx key raw, signEvm tx key = .ok raw → recoverEvm raw = evmAddress key
  solanaSecret : Seed → Key
  solanaAddress : Key → String
  signSolana : Key → SolanaMessage → Except String Signed
  verifySolana_signSolana : ∀ key message signed address, signSolana key message = .ok signed →
    env.verifySolana address message signed.signature = true → address = solanaAddress key
  nearSecret : Seed → Key
  nearAddress : Key → NearAddress
  signNear : Key → NearTransaction → Except String String
  stellarSecret : Seed → Key
  stellarAddress : Key → String
  signStellar : Key → StellarTransaction → Except String Signed
  suiSecret : Seed → Key
  suiAddress : Key → String
  signSui : Key → SuiTransaction → Except String Signed

variable {env : Env} (c : Crypto env) (mnemonic : String)

/-- The key of the session's phrase: it has no passphrase. -/
def sessionKey (secret : c.Seed → Except String c.Key) : Except String c.Key :=
  c.mnemonicToSeed mnemonic "" >>= secret

def evmKey (account index : Nat) : Except String c.Key := sessionKey c mnemonic fun seed => c.evmPrivateKey seed account index
def solanaKey : Except String c.Key := sessionKey c mnemonic fun seed => .ok (c.solanaSecret seed)
def nearKey : Except String c.Key := sessionKey c mnemonic fun seed => .ok (c.nearSecret seed)
def stellarKey : Except String c.Key := sessionKey c mnemonic fun seed => .ok (c.stellarSecret seed)
def suiKey : Except String c.Key := sessionKey c mnemonic fun seed => .ok (c.suiSecret seed)

/-! ## Commands -/

def swapSignEvm (tx : UnsignedEvmTx) (account index : Nat) : Except String String :=
  evmKey c mnemonic account index >>= c.signEvm tx

def swapGetSolanaAddress : Except String String := c.solanaAddress <$> solanaKey c mnemonic

def swapSignSolana (message : SolanaMessage) : Except String Signed := do
  let key ← solanaKey c mnemonic
  c.signSolana key message

def swapGetNearAddress : Except String NearAddress := c.nearAddress <$> nearKey c mnemonic

def swapSignNearTx (tx : NearTransaction) : Except String String := do
  let key ← nearKey c mnemonic
  c.signNear key tx

def swapGetStellarAddress : Except String String := c.stellarAddress <$> stellarKey c mnemonic

def swapSignStellarTx (tx : StellarTransaction) : Except String Signed := do
  let key ← stellarKey c mnemonic
  c.signStellar key tx

def swapGetSuiAddress : Except String String := c.suiAddress <$> suiKey c mnemonic

def swapSignSuiTx (tx : SuiTransaction) : Except String Signed := do
  let key ← suiKey c mnemonic
  c.signSui key tx

/-- `with_session`: what the command answers for the open session, or a failure, of an expired session for one. -/
def WithSession {α : Type} (command r : Except String α) : Prop := r = command ∨ ∃ e, r = .error e

/-- The session's commands answer for its phrase, and an access key that a node reports is the account's. -/
def FromSession (accessKey : String → String → Prop) (e : Ev TradeOp.Ans) : Prop :=
  match e with
  | ⟨.signEvm _ tx account index, r⟩ => WithSession (swapSignEvm c mnemonic tx account index) r
  | ⟨.getSolanaAddress _, r⟩ => WithSession (swapGetSolanaAddress c mnemonic) r
  | ⟨.signSolana _ message, r⟩ => WithSession (swapSignSolana c mnemonic message) r
  | ⟨.getNearAddress _, r⟩ => WithSession (swapGetNearAddress c mnemonic) r
  | ⟨.signNear _ tx, r⟩ => WithSession (swapSignNearTx c mnemonic tx) r
  | ⟨.nearAccessKey _ account publicKey, r⟩ => ∀ nonce, r = .ok (some nonce) → accessKey account publicKey
  | ⟨.getStellarAddress _, r⟩ => WithSession (swapGetStellarAddress c mnemonic) r
  | ⟨.signStellar _ tx, r⟩ => WithSession (swapSignStellarTx c mnemonic tx) r
  | ⟨.getSuiAddress _, r⟩ => WithSession (swapGetSuiAddress c mnemonic) r
  | ⟨.signSui _ tx, r⟩ => WithSession (swapSignSuiTx c mnemonic tx) r
  | _ => True

end Intents
