import PwndaWallet.Evm.SignedTx
import PwndaWallet.Tron.Broadcast

/-!
# Checking a transaction a node built

`wallets/tron-tx-verify.ts`: the bytes a node returned are decoded field by field and compared with the transfer
that was asked for, before their hash is signed. A thrown `TronTxMismatchError` is its text.
-/

namespace Tron

open Wire

inductive ExpectedTronTx
  | trx (ownerHex toHex : String) (amountSun : Nat)
  | trc20 (ownerHex contractHex data : String) (maxFeeLimitSun : Nat)

def TRANSFER_CONTRACT : Nat := 1
def TRIGGER_SMART_CONTRACT : Nat := 31

def ExpectedTronTx.typeUrl : ExpectedTronTx → String
  | .trx .. => "type.googleapis.com/protocol.TransferContract"
  | .trc20 .. => "type.googleapis.com/protocol.TriggerSmartContract"

def VARINT : Nat := 0
def LENGTH_DELIMITED : Nat := 2

/-- `auths` and `contract`. -/
def RAW_REPEATED : List Nat := [9, 11]

structure Field where
  no : Nat
  wire : Nat
  int : Option Nat := none
  bytes : Option Bytes := none
deriving DecidableEq, Repr

def malformed : String := "malformed transaction bytes"

/-- The accumulator and the shift are the loop's; what is left of the buffer stands for the position. -/
def readVarint (result shift : Nat) : Bytes → Except String (Nat × Bytes)
  | [] => .error malformed
  | byte :: bs =>
    if shift > 63 then .error malformed
    else
      let result := result ||| (byte.toNat &&& 0x7f) <<< shift
      if byte.toNat &&& 0x80 = 0 then .ok (result, bs) else readVarint result (shift + 7) bs

/-- One round of the loop. A fixed-width value that runs past the end leaves the position there, which is an error
after the loop. -/
def readField (buf : Bytes) : Except String (Field × Bytes) := do
  let (key, buf) ← readVarint 0 0 buf
  let no := key >>> 3
  let wireType := key &&& 7
  if wireType = 0 then
    let (v, buf) ← readVarint 0 0 buf
    return ({ no, wire := wireType, int := some v }, buf)
  else if wireType = 2 then
    let (len, buf) ← readVarint 0 0 buf
    if len > buf.length then throw malformed
    else return ({ no, wire := wireType, bytes := some (buf.take len) }, buf.drop len)
  else if wireType = 1 then
    if 8 > buf.length then throw malformed else return ({ no, wire := wireType }, buf.drop 8)
  else if wireType = 5 then
    if 4 > buf.length then throw malformed else return ({ no, wire := wireType }, buf.drop 4)
  else throw ("unsupported protobuf wire type " ++ toString wireType)

/-- `fuel` is the length of the buffer: each field takes a byte of its own. -/
def fieldsFrom : Nat → Bytes → Except String (List Field)
  | _, [] => .ok []
  | 0, _ :: _ => .error malformed
  | fuel + 1, byte :: buf => do
    let (f, buf) ← readField (byte :: buf)
    let out ← fieldsFrom fuel buf
    return f :: out

def fieldsOf (buf : Bytes) : Except String (List Field) := fieldsFrom buf.length buf

/-- `only` -/
def copiesOf (fields : List Field) (no : Nat) : List Field := fields.filter fun f => f.no = no

def assertNoRepeatsFrom (place : String) (repeatable seen : List Nat) : List Field → Except String Unit
  | [] => .ok ()
  | f :: fields =>
    if f.no ∈ repeatable then assertNoRepeatsFrom place repeatable seen fields
    else if f.no ∈ seen then
      .error ("the node's transaction repeats field " ++ toString f.no ++ " of its " ++ place ++
        "; the network would act on the last copy, not the one checked here")
    else assertNoRepeatsFrom place repeatable (f.no :: seen) fields

def assertNoRepeats (fields : List Field) (place : String) (repeatable : List Nat) : Except String Unit :=
  assertNoRepeatsFrom place repeatable [] fields

def single (fields : List Field) (no wire : Nat) (what : String) : Except String (Option Field) :=
  let hits := copiesOf fields no
  if hits.length > 1 then .error ("the node's transaction carries its " ++ what ++ " more than once")
  else match hits.head? with
  | some f =>
    if f.wire ≠ wire then .error ("the node's transaction encodes its " ++ what ++ " in an unexpected form")
    else .ok (some f)
  | none => .ok none

def hexOf (bytes : Option Bytes) : String := String.ofList (Evm.bytesToHex (bytes.getD []))

/-- `hexOf` has lower-case digits only, and no letter outside ASCII has one of them as its lower case. -/
def toLowerCase (s : String) : String := Rust.toAsciiLowercase s

def bytesOfHex (hex : String) : Except String Bytes :=
  let cs := hex.toList
  let clean := if "0x".toList.isPrefixOf cs then cs.drop 2 else cs
  if clean.length % 2 ≠ 0 ∨ ¬ clean.all isHexDigit then .error "transaction bytes are not hex"
  else .ok (hexToBytes clean)

/-- `new TextDecoder().decode` -/
def textOf (bytes : Bytes) : String := String.ofList (Unicode.stripMark (Unicode.decodeFrom none bytes))

/-- The four messages, each inside the one before, with what is read on the way. -/
structure Layers where
  top : List Field
  contract : List Field
  any : List Field
  params : List Field
  type : Nat
  typeUrl : String

/-- `contracts.length !== 1 || contracts[0].wire !== LENGTH_DELIMITED || !contracts[0].bytes` negated -/
def oneContract : List Field → Option Bytes
  | [f] => if f.wire = LENGTH_DELIMITED then f.bytes else none
  | _ => none

def layersOf (raw : Bytes) (params : String) : Except String Layers := do
  let top ← fieldsOf raw
  assertNoRepeats top "transaction" RAW_REPEATED
  match oneContract (copiesOf top 11) with
  | none => throw ("expected one contract, found " ++ toString (copiesOf top 11).length)
  | some contractBytes =>
    let contract ← fieldsOf contractBytes
    assertNoRepeats contract "contract" []
    let type ← single contract 1 VARINT "contract type"
    let anyField ← single contract 2 LENGTH_DELIMITED "contract parameters"
    match anyField.bind (·.bytes) with
    | none => throw "the contract carries no parameters"
    | some anyBytes =>
      let any ← fieldsOf anyBytes
      assertNoRepeats any "contract parameters" []
      let typeUrl ← single any 1 LENGTH_DELIMITED "parameter type"
      let valueField ← single any 2 LENGTH_DELIMITED "contract parameters"
      match valueField.bind (·.bytes) with
      | none => throw "the contract carries no parameters"
      | some value =>
        let fields ← fieldsOf value
        assertNoRepeats fields params []
        return {
          top, contract, any
          params := fields
          type := (type.bind (·.int)).getD 0
          typeUrl := textOf ((typeUrl.bind (·.bytes)).getD []) }

def mismatch (what : String) : String := "the node built a transaction with a different " ++ what ++ " than requested"

def Layers.bytesField (l : Layers) (no : Nat) (what : String) : Except String String :=
  (single l.params no LENGTH_DELIMITED what).map fun f => toLowerCase (hexOf (f.bind (·.bytes)))

def Layers.intField (l : Layers) (no : Nat) (what : String) : Except String Nat :=
  (single l.params no VARINT what).map fun f => (f.bind (·.int)).getD 0

/-- `if (actual !== wanted) mismatch(what)` -/
def expect {α : Type} [DecidableEq α] (actual wanted : α) (what : String) : Except String Unit :=
  if actual = wanted then .ok () else .error (mismatch what)

def ExpectedTronTx.params : ExpectedTronTx → String
  | .trx .. => "transfer"
  | .trc20 .. => "contract call"

def checkLayers (l : Layers) : ExpectedTronTx → Except String Unit
  | .trx ownerHex toHex amountSun => do
    expect (l.type, l.typeUrl) (TRANSFER_CONTRACT, (ExpectedTronTx.trx ownerHex toHex amountSun).typeUrl)
      "contract type"
    expect (← l.bytesField 1 "sender") (toLowerCase ownerHex) "sender"
    expect (← l.bytesField 2 "recipient") (toLowerCase toHex) "recipient"
    expect (← l.intField 3 "amount") amountSun "amount"
  | .trc20 ownerHex contractHex data maxFeeLimitSun => do
    expect (l.type, l.typeUrl)
      (TRIGGER_SMART_CONTRACT, (ExpectedTronTx.trc20 ownerHex contractHex data maxFeeLimitSun).typeUrl)
      "contract type"
    expect (← l.bytesField 1 "sender") (toLowerCase ownerHex) "sender"
    expect (← l.bytesField 2 "token contract") (toLowerCase contractHex) "token contract"
    expect (← l.intField 3 "TRX value") 0 "TRX value attached"
    expect (← l.bytesField 4 "call data") (toLowerCase data) "recipient or amount"
    let tokenValue ← l.intField 5 "token value"
    if tokenValue ≠ 0 then throw (mismatch "token value attached")
    else
      expect (← l.intField 6 "token id") 0 "token value attached"
      let feeLimit ← single l.top 18 VARINT "fee limit"
      if (feeLimit.bind (·.int)).getD 0 > maxFeeLimitSun then throw (mismatch "fee limit") else return ()

/-- `txID` and `raw_data_hex` where they are strings; `sha256` gives the digest as hex. -/
def verifyTronTransaction (sha256 : Bytes → String) (txID raw_data_hex : Option String) (expected : ExpectedTronTx) :
    Except String Unit :=
  match txID, raw_data_hex with
  | some txID, some raw_data_hex => do
    let raw ← bytesOfHex raw_data_hex
    if sha256 raw ≠ toLowerCase txID then
      throw "the transaction id the node returned is not the hash of the transaction it returned"
    else
      let l ← layersOf raw expected.params
      checkLayers l expected
  | _, _ => .error "the node returned no transaction to sign"

end Tron
