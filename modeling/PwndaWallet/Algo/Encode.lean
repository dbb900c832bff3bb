import PwndaWallet.Lib.Js
import PwndaWallet.Lib.Wire

/-!
# Algorand's canonical msgpack

`wallets/algo-tx.ts`: the encoder of a map of fields, and the payment and the signed transaction made with
it. A string of the program is a text of Unicode characters; the signature is any function of the bytes and
the key.
-/

namespace Algo

open Wire

/-- `new TextEncoder().encode(s)` -/
def textBytes (s : String) : Bytes := s.toByteArray.data.toList

/-- `number none` is a number that is no integer. -/
inductive MsgValue where
  | bigint (n : Int)
  | number (n : Option Int)
  | string (s : String)
  | bytes (b : Bytes)
deriving DecidableEq

def encodeUint (n : Int) : Except String Bytes :=
  if n < 0 then .error "Algorand msgpack: negative integers are not used"
  else if n < 128 then .ok [UInt8.ofNat n.toNat]
  else if n ≤ 0xff then .ok (0xcc :: be 1 n.toNat)
  else if n ≤ 0xffff then .ok (0xcd :: be 2 n.toNat)
  else if n ≤ 0xffffffff then .ok (0xce :: be 4 n.toNat)
  else .ok (0xcf :: be 8 n.toNat)

def encodeStr (s : String) : Except String Bytes :=
  let b := textBytes s
  if b.length < 32 then .ok (UInt8.ofNat (0xa0 ||| b.length) :: b)
  else if b.length ≤ 0xff then .ok (0xd9 :: be 1 b.length ++ b)
  else .error "Algorand msgpack: string too long for this encoder"

def encodeBin (b : Bytes) : Except String Bytes :=
  if b.length ≤ 0xff then .ok (0xc4 :: be 1 b.length ++ b)
  else if b.length ≤ 0xffff then .ok (0xc5 :: be 2 b.length ++ b)
  else .error "Algorand msgpack: byte string too long for this encoder"

/-- `BigInt(x)`, which throws a `RangeError` for a number that is no integer. -/
def bigIntOf : Option Int → Except String Int
  | some n => .ok n
  | none => .error "RangeError"

def encodeValue : MsgValue → Except String Bytes
  | .bytes b => encodeBin b
  | .string s => encodeStr s
  | .bigint n => encodeUint n
  | .number x => (bigIntOf x).bind encodeUint

/-- A record: each key has one value, which can be `undefined`. -/
structure Fields where
  entries : List (String × Option MsgValue)
  nodup : (entries.map (·.1)).Nodup

/-- The values that are left out. -/
def MsgValue.isZero : MsgValue → Bool
  | .bigint n => n == 0
  | .number n => n == some 0
  | .string s => s == ""
  | .bytes b => b.isEmpty

def Fields.kept (fields : Fields) : List (String × MsgValue) :=
  fields.entries.filterMap fun e => (e.2.filter fun v => !v.isZero).map fun v => (e.1, v)

/-- The comparator of the keys is not positive. -/
def bytesLe : Bytes → Bytes → Bool
  | [], _ => true
  | _ :: _, [] => false
  | a :: as, b :: bs => if a ≠ b then a < b else bytesLe as bs

def keyLe (a b : String × MsgValue) : Bool := bytesLe (textBytes a.1) (textBytes b.1)

def encodeEntries : List (String × MsgValue) → Except String Bytes
  | [] => .ok []
  | e :: rest => do
    let k ← encodeStr e.1
    let v ← encodeValue e.2
    let more ← encodeEntries rest
    return k ++ (v ++ more)

def encodeCanonicalMap (fields : Fields) : Except String Bytes :=
  let kept := Js.sort keyLe fields.kept
  if kept.length > 15 then .error "Algorand msgpack: map too large for fixmap"
  else (encodeEntries kept).map (UInt8.ofNat (0x80 ||| kept.length) :: ·)

/-! ## Transactions -/

structure AlgoSuggestedParams where
  fee : Int
  minFee : Int
  firstValid : Int
  lastValid : Int
  genesisId : String
  genesisHash : Bytes

structure PayArgs where
  sender : Bytes
  receiver : Bytes
  amountMicro : Int
  params : AlgoSuggestedParams
  note : Option Bytes

def payFields (args : PayArgs) : Fields where
  entries :=
    [("amt", some (.bigint args.amountMicro)),
     ("fee", some (.bigint args.params.fee)),
     ("fv", some (.bigint args.params.firstValid)),
     ("gen", some (.string args.params.genesisId)),
     ("gh", some (.bytes args.params.genesisHash)),
     ("lv", some (.bigint args.params.lastValid)),
     ("note", args.note.map .bytes),
     ("rcv", some (.bytes args.receiver)),
     ("snd", some (.bytes args.sender)),
     ("type", some (.string "pay"))]
  nodup := by
    simp only [List.map_cons, List.map_nil]
    decide +kernel

def encodePayTransaction (args : PayArgs) : Except String Bytes := encodeCanonicalMap (payFields args)

/-- `ed25519` is `ed25519.sign`, of a message and a key. -/
def signTransaction (ed25519 : Bytes → Bytes → Bytes) (encodedTxn privateKey : Bytes) : Except String Bytes := do
  let sig := ed25519 (textBytes "TX" ++ encodedTxn) privateKey
  let kSig ← encodeStr "sig"
  let vSig ← encodeBin sig
  let kTxn ← encodeStr "txn"
  return 0x82 :: kSig ++ vSig ++ kTxn ++ encodedTxn

end Algo
