import PwndaWallet.Bch.CashAddr
import PwndaWallet.Bch.Legacy
import PwndaWallet.Evm.SignedTx
import PwndaWallet.Utxo.Spend

/-!
# Bitcoin Cash transactions

`wallets/bch-wallet.ts`: the transaction that `sendBchFromAccount` serializes by hand, and the preimages that it
signs. SHA-256, RIPEMD-160 and secp256k1 are parameters.
-/

namespace Bch

open Js Wire

def SIGHASH_ALL : Nat := 0x01
def SIGHASH_FORKID : Nat := 0x40
def BCH_SIGHASH : Nat := SIGHASH_ALL ||| SIGHASH_FORKID

/-! ## Primitives -/

def u8 (n : Nat) : Bytes := [UInt8.ofNat (n &&& 0xff)]

/-- `n >>> 0` -/
def u32LE (n : Nat) : Bytes := le 4 (n % 2 ^ 32)

/-- `setBigUint64` takes the value modulo 2^64. -/
def u64LE (n : Int) : Bytes := le 8 (n % 2 ^ 64).toNat

def varInt (n : Nat) : Bytes :=
  if n < 0xfd then u8 n
  else if n ≤ 0xffff then 0xfd :: le 2 n
  else if n ≤ 0xffffffff then 0xfe :: le 4 n
  else 0xff :: le 8 n

def reverseBytes (bytes : Bytes) : Bytes := bytes.reverse

/-- The UTF-16 units of a character. -/
def unitsOf (c : Char) : List UInt16 :=
  if c.toNat < 0x10000 then [UInt16.ofNat c.toNat]
  else [UInt16.ofNat (0xd800 + (c.toNat - 0x10000) / 0x400), UInt16.ofNat (0xdc00 + (c.toNat - 0x10000) % 0x400)]

/-- The same function as that of `safety-invariants.ts`. -/
def hexToBytes (hex : String) : Bytes := Evm.hexToBytes (hex.toList.flatMap unitsOf)

def bytesToHex (bytes : Bytes) : String := String.ofList (Evm.bytesToHex bytes)

/-! ## Scripts -/

def scriptP2PKH (hash : Bytes) : Bytes := u8 0x76 ++ u8 0xa9 ++ u8 0x14 ++ hash ++ u8 0x88 ++ u8 0xac

def scriptP2SH (hash : Bytes) : Bytes := u8 0xa9 ++ u8 0x14 ++ hash ++ u8 0x87

def scriptP2SH32 (hash : Bytes) : Bytes := u8 0xaa ++ u8 0x20 ++ hash ++ u8 0x87

def outputScriptForRecipient (parsed : AddressType × Bytes) : Except String Bytes :=
  let n := parsed.2.length
  if parsed.1 = .p2pkh ∧ n = 20 then .ok (scriptP2PKH parsed.2)
  else if parsed.1 = .p2sh ∧ n = 20 then .ok (scriptP2SH parsed.2)
  else if parsed.1 = .p2sh ∧ n = 32 then .ok (scriptP2SH32 parsed.2)
  else .error s!"No standard output script for a {n}-byte {parsed.1.name} hash; nothing was sent."

/-- `base58` is `bs58check.decode`, which fails or gives bytes. -/
def parseRecipient (k : Casing) (base58 : List Char → Option Bytes) (addr : String) : Except String (AddressType × Bytes) :=
  let trimmed := trim ((trim addr.toList).takeWhile (· ≠ '?'))
  let lower := k.toLowerCase trimmed
  if lower.contains ':' ∨ lower.head? = some 'q' ∨ lower.head? = some 'p' then decodeCashAddr k trimmed
  else
    match base58 trimmed with
    | some decoded =>
      if decoded.length = 21 ∧ (decoded.headD 0 = 0x00 ∨ decoded.headD 0 = 0x05) then
        .error (s!"{String.ofList trimmed} is a legacy-format address (1… / 3…) — the same format Bitcoin (BTC) " ++
          "uses, so a Bitcoin address pasted here would be paid. Bitcoin Cash needs a " ++
          "CashAddr address (bitcoincash:q… or bitcoincash:p…): ask the recipient for it. " ++
          "Nothing was sent.")
      else .error s!"Cannot parse address: {String.ofList trimmed}"
    | none => .error s!"Cannot parse address: {String.ofList trimmed}"

/-! ## The preimage and the transaction -/

structure BchInput where
  txid : String
  vout : Nat
  value : Int
  sequence : Option Nat := none
deriving DecidableEq, Repr

structure BchOutput where
  value : Int
  scriptPubKey : Bytes
deriving DecidableEq, Repr

def BchInput.outpoint (i : BchInput) : Bytes := reverseBytes (hexToBytes i.txid) ++ u32LE i.vout

/-- `u32LE(i.sequence ?? 0xffffffff)` -/
def BchInput.sequenceBytes (i : BchInput) : Bytes := u32LE (i.sequence.getD 0xffffffff)

def BchOutput.serialized (o : BchOutput) : Bytes := u64LE o.value ++ varInt o.scriptPubKey.length ++ o.scriptPubKey

/-- A `TypeError` of the engine. -/
def undefinedProperty (name : String) : String := s!"Cannot read properties of undefined (reading '{name}')"

def buildSighashPreimage (h : Hashes) (inputs : List BchInput) (outputs : List BchOutput) (inputIndex : Nat)
    (scriptCode : Bytes) (version locktime : Nat) : Except String Bytes :=
  let hashPrevouts := h.dsha256 (inputs.flatMap BchInput.outpoint)
  let hashSequence := h.dsha256 (inputs.flatMap BchInput.sequenceBytes)
  let hashOutputs := h.dsha256 (outputs.flatMap BchOutput.serialized)
  match inputs[inputIndex]? with
  | none => .error (undefinedProperty "txid")
  | some input =>
    .ok (u32LE version ++ hashPrevouts ++ hashSequence ++ reverseBytes (hexToBytes input.txid) ++ u32LE input.vout ++
      varInt scriptCode.length ++ scriptCode ++ u64LE input.value ++ input.sequenceBytes ++ hashOutputs ++
      u32LE locktime ++ u32LE BCH_SIGHASH)

/-- The inputs with their scripts; of more scripts than inputs the rest is not read. -/
def serializedInputs : List BchInput → List Bytes → Except String Bytes
  | [], _ => .ok []
  | _ :: _, [] => .error (undefinedProperty "length")
  | inp :: inputs, scriptSig :: scriptSigs =>
    (serializedInputs inputs scriptSigs).map fun rest =>
      reverseBytes (hexToBytes inp.txid) ++ u32LE inp.vout ++ varInt scriptSig.length ++ scriptSig ++
        inp.sequenceBytes ++ rest

def serializeSignedTx (inputs : List BchInput) (outputs : List BchOutput) (scriptSigs : List Bytes)
    (version locktime : Nat) : Except String String :=
  (serializedInputs inputs scriptSigs).map fun ins =>
    let outs := varInt outputs.length ++ outputs.flatMap BchOutput.serialized
    bytesToHex (u32LE version ++ (varInt inputs.length ++ ins) ++ outs ++ u32LE locktime)

/-! ## Signing -/

/-- secp256k1: the compressed public key of a private one, and a DER signature of a digest. -/
structure Secp where
  pointFromScalar : Bytes → Option Bytes
  sign : Bytes → Bytes → Except String Bytes

/-- A node of the account's tree, which has the public key of its private key. -/
structure HdNode (curve : Secp) where
  privateKey : Bytes
  publicKey : Bytes
  pair : curve.pointFromScalar privateKey = some publicKey

section

variable (h : Hashes) (curve : Secp)

def pubkeyFromPriv (privKey : Bytes) : Except String Bytes :=
  match curve.pointFromScalar privKey with
  | some pub => .ok pub
  | none => .error "Invalid private key"

def getAddress (publicKey : Bytes) : Except String (List Char) := encodeCashAddr (h.hash160 publicKey) .p2pkh

/-- `deriveAddress`; `hash160` has 20 bytes, so `getAddress` never throws. -/
def deriveAddress (node : HdNode curve) : String :=
  match getAddress h node.publicKey with
  | .ok a => String.ofList a
  | .error _ => ""

def bchUtxoAccount : Utxo.UtxoAccountSpec (HdNode curve) where
  chain := .bitcoinCash
  accountPath := "m/44'/145'/0'"
  label := "BIP-44 legacy (CashAddr)"
  deriveAddress := deriveAddress h curve
  probeMany := true
  batchSize := some 50

def signSighash (digest privKey : Bytes) : Except String Bytes :=
  (curve.sign digest privKey).map fun der => der ++ u8 BCH_SIGHASH

structure SigningKey where
  priv : Bytes
  pub : Bytes
  script : Bytes
deriving DecidableEq, Repr

abbrev KeyMap := List (String × SigningKey)

def keyAt (keys : KeyMap) (address : String) : Option SigningKey := (keys.find? (·.1 == address)).map (·.2)

/-- One turn of the loop that fills `keys`. -/
def addKey (sources : List (String × Utxo.AccountSpendSource (HdNode curve))) (keys : KeyMap)
    (input : Utxo.AccountSpendCandidate) : Except String KeyMap :=
  if (keyAt keys input.address).isSome then .ok keys
  else
    match Utxo.getSource sources input.address with
    | none => .error s!"No signer for {input.address}; nothing was sent."
    | some src =>
      let priv := src.node.privateKey
      (pubkeyFromPriv curve priv).map fun pub =>
        keys ++ [(input.address, { priv, pub, script := scriptP2PKH (h.hash160 pub) })]

def keysFor (sources : List (String × Utxo.AccountSpendSource (HdNode curve))) :
    List Utxo.AccountSpendCandidate → KeyMap → Except String KeyMap
  | [], keys => .ok keys
  | input :: inputs, keys => (addKey h curve sources keys input).bind (keysFor sources inputs)

/-- `BigInt(n)` -/
def bigInt (q : Rat) : Except String Int :=
  if q.den = 1 then .ok q.num
  else .error "The number cannot be converted to a BigInt because it is not an integer"

def bchInputs : List Utxo.AccountSpendCandidate → Except String (List BchInput)
  | [] => .ok []
  | i :: rest =>
    (bigInt i.valueSat).bind fun value => (bchInputs rest).map ({ txid := i.txid, vout := i.vout, value } :: ·)

/-- The recipient's output, and the change if there is any. -/
def bchOutputs (k : Casing) (base58 : List Char → Option Bytes) (sendSat changeSat : Rat) (recipientScript : Bytes)
    (changeAddress : String) : Except String (List BchOutput) :=
  (bigInt sendSat).bind fun value =>
    if changeSat > 0 then
      (bigInt changeSat).bind fun change =>
        ((parseRecipient k base58 changeAddress).bind outputScriptForRecipient).map fun script =>
          [⟨value, recipientScript⟩, ⟨change, script⟩]
    else .ok [⟨value, recipientScript⟩]

def VERSION : Nat := 2
def LOCKTIME : Nat := 0

/-- The script that unlocks input `i`. -/
def scriptSigFor (keys : KeyMap) (inputs : List BchInput) (outputs : List BchOutput) (address : String) (i : Nat) :
    Except String Bytes :=
  match keyAt keys address with
  | none => .error (undefinedProperty "script")
  | some key =>
    (buildSighashPreimage h inputs outputs i key.script VERSION LOCKTIME).bind fun preimage =>
      (signSighash curve (h.dsha256 preimage) key.priv).map fun sig =>
        u8 sig.length ++ sig ++ u8 key.pub.length ++ key.pub

/-- The loop over the inputs, from the input `i` on. -/
def scriptSigsFrom (keys : KeyMap) (inputs : List BchInput) (outputs : List BchOutput) :
    Nat → List Utxo.AccountSpendCandidate → Except String (List Bytes)
  | _, [] => .ok []
  | i, c :: rest =>
    (scriptSigFor h curve keys inputs outputs c.address i).bind fun scriptSig =>
      (scriptSigsFrom keys inputs outputs (i + 1) rest).map (scriptSig :: ·)

/-- What goes to `broadcastBch`, and the scripts in it. -/
structure Signed where
  inputs : List BchInput
  outputs : List BchOutput
  scriptSigs : List Bytes
  rawHex : String

/-- `sendBchFromAccount`, once the plan covers the send. -/
def signAccountSpend (k : Casing) (base58 : List Char → Option Bytes) (g : Utxo.Gathered (HdNode curve))
    (sendSat : Rat) (recipientScript : Bytes) : Except String Signed :=
  (keysFor h curve g.sources g.plan.inputs []).bind fun keys =>
    (bchInputs g.plan.inputs).bind fun inputs =>
      (bchOutputs k base58 sendSat g.plan.changeSat recipientScript g.change.address).bind fun outputs =>
        (scriptSigsFrom h curve keys inputs outputs 0 g.plan.inputs).bind fun scriptSigs =>
          (serializeSignedTx inputs outputs scriptSigs VERSION LOCKTIME).map fun rawHex =>
            { inputs, outputs, scriptSigs, rawHex }

end

end Bch
