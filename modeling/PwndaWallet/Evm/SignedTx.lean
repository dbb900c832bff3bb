import PwndaWallet.Lib.Rlp

/-!
# Reading a signed transaction

`features/swap/safety-invariants.ts`: `decodeEvmSignedTx` and the RLP reader under it. A string is a list of
UTF-16 code units. An offset that is `NaN` is `none`; the reader takes fuel, since it can go backwards.
-/

namespace Evm

open Wire Rlp

/-! ## Hex -/

/-- The code units of white space. -/
def isSpaceUnit (u : UInt16) : Bool :=
  let n := u.toNat
  (9 ≤ n && n ≤ 13) || n == 0x20 || n == 0xa0 || n == 0x1680 || (0x2000 ≤ n && n ≤ 0x200a) ||
    n == 0x2028 || n == 0x2029 || n == 0x202f || n == 0x205f || n == 0x3000 || n == 0xfeff

def hexDigit (u : UInt16) : Option Nat :=
  let n := u.toNat
  if 0x30 ≤ n ∧ n ≤ 0x39 then some (n - 0x30)
  else if 0x41 ≤ n ∧ n ≤ 0x46 then some (n - 0x41 + 10)
  else if 0x61 ≤ n ∧ n ≤ 0x66 then some (n - 0x61 + 10)
  else none

/-- The digits in front. -/
def hexDigits : List UInt16 → List Nat
  | [] => []
  | u :: us => match hexDigit u with
    | some d => d :: hexDigits us
    | none => []

/-- `0x` or `0X` is cut off. -/
def dropRadix : List UInt16 → List UInt16
  | 0x30 :: 0x78 :: us => us
  | 0x30 :: 0x58 :: us => us
  | us => us

/-- `parseInt(text, 16)`; `none` is `NaN`. -/
def parseInt16 (text : List UInt16) : Option Int :=
  let trimmed := text.dropWhile isSpaceUnit
  let (sign, rest) := match trimmed with
    | 0x2d :: us => ((-1 : Int), us)
    | 0x2b :: us => (1, us)
    | us => (1, us)
  match hexDigits (dropRadix rest) with
  | [] => none
  | d :: ds => some (sign * ((d :: ds).foldl (fun n d => 16 * n + d) 0 : Nat))

/-- What an element of a `Uint8Array` becomes. -/
def toUint8 : Option Int → UInt8
  | some n => UInt8.ofNat (n % 256).toNat
  | none => 0

def bytesOfPairs : List UInt16 → Bytes
  | a :: b :: us => toUint8 (parseInt16 [a, b]) :: bytesOfPairs us
  | _ => []

/-- `hex.startsWith("0x") ? hex.slice(2) : hex` -/
def strip0x : List UInt16 → List UInt16
  | 0x30 :: 0x78 :: us => us
  | us => us

def hexToBytes (hex : List UInt16) : Bytes := bytesOfPairs (strip0x hex)

def hexChar (n : Nat) : Char := if n < 10 then Char.ofNat (0x30 + n) else Char.ofNat (0x61 + n - 10)

def hexByte (b : UInt8) : List Char := [hexChar (b.toNat / 16), hexChar (b.toNat % 16)]

def bytesToHex (b : Bytes) : List Char := b.flatMap hexByte

/-! ## The RLP reader -/

/-- A position counted from the end if it is negative, kept inside the array. -/
def relative (n x : Int) : Nat := (if x < 0 then max (n + x) 0 else min x n).toNat

/-- `bytes.subarray(start, stop)` -/
def subarray (bytes : Bytes) (start stop : Int) : Bytes :=
  (bytes.take (relative bytes.length stop)).drop (relative bytes.length start)

/-- `bytes[offset]` -/
def byteAt (bytes : Bytes) (offset : Int) : Option UInt8 := if offset < 0 then none else bytes[offset.toNat]?

/-- A loop over 32-bit signed integers; what is beyond the end counts as zero. -/
def readBigEndianUint (bytes : Bytes) (offset : Int) (length : Nat) : Int :=
  ((List.range length).foldl
    (fun (v : BitVec 32) (i : Nat) => (v <<< 8) ||| BitVec.ofNat 32 ((byteAt bytes (offset + i)).elim 0 UInt8.toNat)) 0).toInt

/-- What an item's first byte says: whether it is a list, where its content begins, and where it ends, which
is where the next item begins. -/
structure Span where
  isList : Bool
  start : Int
  stop : Int
deriving DecidableEq

def spanOf (bytes : Bytes) (offset : Int) (first : UInt8) : Span :=
  let b := first.toNat
  if b ≤ 0x7f then ⟨false, offset, offset + 1⟩
  else if b ≤ 0xb7 then ⟨false, offset + 1, offset + 1 + (b - 0x80 : Nat)⟩
  else if b ≤ 0xbf then
    let lenLen := b - 0xb7
    let len := readBigEndianUint bytes (offset + 1) lenLen
    ⟨false, offset + 1 + lenLen, offset + 1 + lenLen + len⟩
  else if b ≤ 0xf7 then ⟨true, offset + 1, offset + 1 + (b - 0xc0 : Nat)⟩
  else
    let lenLen := b - 0xf7
    let len := readBigEndianUint bytes (offset + 1) lenLen
    ⟨true, offset + 1 + lenLen, offset + 1 + lenLen + len⟩

structure SafetyInvariantError where
  invariant : String
  message : String
  context : List (String × String)
deriving DecidableEq

inductive Thrown where
  | safety (e : SafetyInvariantError)
  | error (message : String)
deriving DecidableEq

mutual

def rlpDecodeItem : Nat → Bytes → Int → Option (Except Thrown (Item × Option Int))
  | 0, _, _ => none
  | fuel + 1, bytes, offset =>
    if offset ≥ bytes.length then some (.error (.error "RLP: unexpected end of input"))
    else
      match byteAt bytes offset with
      | none => some (.ok (.list [], none))  -- the byte is `undefined`, and so every number made of it `NaN`
      | some first =>
        let span := spanOf bytes offset first
        let content := subarray bytes span.start span.stop
        if span.isList then
          (rlpLoop fuel content 0).map fun r => r.map fun l => (.list l, some span.stop)
        else some (.ok (.bytes content, some span.stop))

/-- The loop of `rlpDecodeList`, from an offset on. -/
def rlpLoop : Nat → Bytes → Int → Option (Except Thrown (List Item))
  | 0, _, _ => none
  | fuel + 1, bytes, off =>
    if off < bytes.length then
      (rlpDecodeItem fuel bytes off).bind fun
        | .error e => some (.error e)
        | .ok (item, none) => some (.ok [item])  -- `NaN < bytes.length` is false
        | .ok (item, some next) => (rlpLoop fuel bytes next).map fun r => r.map (item :: ·)
    else some (.ok [])

end

def allConsumed (bytes : Bytes) : Item × Option Int → Except Thrown Item
  | (item, consumed) =>
    if consumed = some (bytes.length : Int) then .ok item
    else .error (.error ("RLP trailing bytes: " ++
      consumed.elim "NaN" fun n => toString ((bytes.length : Int) - n)))

def rlpDecode (fuel : Nat) (bytes : Bytes) : Option (Except Thrown Item) :=
  (rlpDecodeItem fuel bytes 0).map fun r => r.bind (allConsumed bytes)

/-! ## The transaction -/

structure Decoded where
  recipient : String
  value : Nat
  data : String
deriving DecidableEq, Repr

def drift (message : String) (context : List (String × String)) : Thrown :=
  .safety { invariant := "SIGNED_TX_VALUE_DRIFT", message, context }

def toHex (b : UInt8) : String := String.ofList ((bytesToHex [b]).dropWhile (· == '0'))

/-- The type byte of a typed envelope; none for a legacy transaction. -/
def envelopeOf (bytes : Bytes) : Option UInt8 :=
  match bytes with
  | b :: _ => if 0x01 ≤ b.toNat ∧ b.toNat ≤ 0x7f then some b else none
  | [] => none

def payloadOf (bytes : Bytes) : Bytes := if (envelopeOf bytes).isSome then bytes.drop 1 else bytes

/-- Where the recipient and the value stand. -/
def places : Option UInt8 → Except Thrown (Nat × Nat)
  | none => .ok (3, 4)
  | some b =>
    if b = 0x01 then .ok (4, 5)
    else if b = 0x02 then .ok (5, 6)
    else if b = 0x03 then .ok (5, 6)
    else .error (drift s!"Unrecognized EVM tx envelope type 0x{toHex b} — cannot decode."
      [("envelopeByte", "0x" ++ toHex b)])

def bytesAt (list : List Item) (i : Nat) : Option Bytes :=
  match list[i]? with
  | some (.bytes b) => some b
  | _ => none

/-- `"0x" + bytesToHex(toBytes).padStart(40, "0").slice(-40)` -/
def recipientText (b : Bytes) : String :=
  let hex := bytesToHex b
  let padded := List.replicate (40 - hex.length) '0' ++ hex
  String.ofList ('0' :: 'x' :: padded.drop (padded.length - 40))

/-- What is made of the outer item. -/
def fieldsOf (envelope : Option UInt8) : Item → Except Thrown Decoded
  | .bytes _ => .error (drift "Signed EVM tx did not RLP-decode to a list." [("rlpKind", "object")])
  | .list list =>
    match places envelope with
    | .error e => .error e
    | .ok (toIdx, valueIdx) =>
      match bytesAt list toIdx, bytesAt list valueIdx, bytesAt list (valueIdx + 1) with
      | some toBytes, some valueBytes, some dataBytes =>
        .ok { recipient := recipientText toBytes
              value := valueBytes.foldl (fun n b => 256 * n + b.toNat) 0
              data := String.ofList ('0' :: 'x' :: bytesToHex dataBytes) }
      | _, _, _ =>
        .error (drift "Signed EVM tx fields decoded to non-bytes — corrupt structure."
          [("toIdx", toString toIdx), ("valueIdx", toString valueIdx)])

def badHex (cleaned : List UInt16) : Thrown :=
  drift "Signed tx hex is empty or odd-length — cannot decode." [("rawTxHexLen", toString cleaned.length)]

def decodeEvmSignedTx (fuel : Nat) (rawTxHex : List UInt16) : Option (Except Thrown Decoded) :=
  let cleaned := strip0x rawTxHex
  if cleaned.length = 0 ∨ cleaned.length % 2 ≠ 0 then
    some (.error (badHex cleaned))
  else
    let bytes := hexToBytes cleaned
    (rlpDecode fuel (payloadOf bytes)).map fun r => r.bind (fieldsOf (envelopeOf bytes))

end Evm
