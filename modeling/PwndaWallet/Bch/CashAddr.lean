import PwndaWallet.Lib.Wordlist

/-!
# CashAddr

`wallets/bch-wallet.ts`: the address codec of Bitcoin Cash. The checksum is computed over big integers; the
accumulator of `convertBits` is a 32-bit one, of which only bits below the thirteenth are read.
-/

namespace Bch

open Js

def CASHADDR_PREFIX : List Char := "bitcoincash".toList

def CHARSET : List Char := "qpzry9x8gf2tvdw0s3jn54khce6mua7l".toList

/-- `CHARSET_REV[c]` -/
def charsetRev (c : Char) : Option Nat := CHARSET.idxOf? c

def POLY_C : List Nat := [0x98f2bc8e61, 0x79b76d99e2, 0xf33e5fb3c4, 0xae2eabe2a8, 0x1e4f43e470]

/-- `if ((c0 >> j) & 1) c ^= POLY_C[j]`, for each `j` from `j` on. -/
def mixGenerators (c0 : Nat) : Nat → List Nat → Nat → Nat
  | _, [], c => c
  | j, g :: gs, c => mixGenerators c0 (j + 1) gs (if (c0 >>> j) &&& 1 = 1 then c ^^^ g else c)

def polymodStep (c v : Nat) : Nat :=
  mixGenerators (c >>> 35) 0 POLY_C (((c &&& 0x07ffffffff) <<< 5) ^^^ (v &&& 0xff))

def cashaddrPolymod (values : List Nat) : Nat := values.foldl polymodStep 1 ^^^ 1

/-! ## Regrouping -/

/-- `while (bits >= to)`; each turn takes `to` bits, so `bits` turns are enough. -/
def drain (to' acc : Nat) : Nat → Nat → List Nat × Nat
  | 0, bits => ([], bits)
  | n + 1, bits =>
    if bits ≥ to' then
      let r := drain to' acc n (bits - to')
      (((acc >>> (bits - to')) &&& (1 <<< to' - 1)) :: r.1, r.2)
    else ([], bits)

/-- The values from here on: what they push, the accumulator and its bits. -/
def regroup (from' to' : Nat) : Nat → Nat → List Nat → Except String (List Nat × Nat × Nat)
  | acc, bits, [] => .ok ([], acc, bits)
  | acc, bits, d :: data =>
    let value := d &&& 0xff
    if value >>> from' ≠ 0 then .error "convertBits: input out of range"
    else
      let acc := (acc <<< from' ||| value) % 2 ^ 32
      let drained := drain to' acc (bits + from') (bits + from')
      (regroup from' to' acc drained.2 data).map fun r => (drained.1 ++ r.1, r.2)

def convertBits (data : List Nat) (from' to' : Nat) (pad : Bool) : Except String (List Nat) :=
  (regroup from' to' 0 0 data).bind fun r =>
    let last := r.2.1 <<< (to' - r.2.2) &&& (1 <<< to' - 1)
    if pad then .ok (if r.2.2 > 0 then r.1 ++ [last] else r.1)
    else if r.2.2 ≥ from' ∨ last ≠ 0 then .error "convertBits: invalid padding"
    else .ok r.1

/-! ## Addresses -/

inductive AddressType where
  | p2pkh | p2sh
deriving DecidableEq, Repr

def AddressType.name : AddressType → String
  | .p2pkh => "p2pkh"
  | .p2sh => "p2sh"

def versionByteFor (type : AddressType) (hashLen : Nat) : Except String Nat :=
  if hashLen ≠ 20 then .error s!"CashAddr: only 20-byte hashes supported, got {hashLen}"
  else
    match type with
    | .p2pkh => .ok 0x00
    | .p2sh => .ok 0x08

def typeFromVersionByte (version : Nat) : Except String AddressType :=
  let type := (version >>> 3) &&& 0x0f
  if type = 0 then .ok .p2pkh
  else if type = 1 then .ok .p2sh
  else .error s!"CashAddr: unsupported address type {type}"

def hashSizeFromVersionByte (version : Nat) : Nat := [20, 24, 28, 32, 40, 48, 56, 64].getD (version &&& 0x07) 0

def prefix5 (pre : List Char) : List Nat := pre.map fun c => c.toNat &&& 0x1f

/-- The eight symbols of a checksum. -/
def checksum5 (poly : Nat) : List Nat := (List.range 8).map fun i => (poly >>> (5 * (7 - i))) &&& 0x1f

def encodeCashAddr (hash : List UInt8) (type : AddressType) : Except String (List Char) :=
  (versionByteFor type hash.length).bind fun versionByte =>
    (convertBits (versionByte :: hash.map UInt8.toNat) 8 5 true).map fun payload5 =>
      let poly := cashaddrPolymod (prefix5 CASHADDR_PREFIX ++ 0 :: payload5 ++ [0, 0, 0, 0, 0, 0, 0, 0])
      let combined := payload5 ++ checksum5 poly
      CASHADDR_PREFIX ++ ':' :: combined.map (CHARSET.getD · ' ')

/-- The prefix and the body, cut at the first colon. -/
def splitPrefix (trimmed : List Char) : List Char × List Char :=
  if trimmed.contains ':' then (trimmed.takeWhile (· ≠ ':'), (trimmed.dropWhile (· ≠ ':')).tail)
  else (CASHADDR_PREFIX, trimmed)

/-- The symbols of a body. -/
def bodyData : List Char → Except String (List Nat)
  | [] => .ok []
  | c :: body =>
    match charsetRev c with
    | none => .error s!"CashAddr: invalid char '{c}'"
    | some v => (bodyData body).map (v :: ·)

/-- The hash, if its length is one that the version byte tells and a standard script takes. -/
def addressOf (payloadBytes : List Nat) : Except String (AddressType × List UInt8) :=
  let versionByte := payloadBytes.getD 0 0
  let hash := (payloadBytes.drop 1).map UInt8.ofNat
  let expectedSize := hashSizeFromVersionByte versionByte
  if hash.length ≠ expectedSize then
    .error s!"CashAddr: hash length mismatch (got {hash.length}, expected {expectedSize})"
  else
    (typeFromVersionByte versionByte).bind fun type =>
      if type = .p2pkh ∧ hash.length ≠ 20 then
        .error s!"CashAddr: a P2PKH address must carry a 20-byte key hash, not {hash.length} bytes"
      else if type = .p2sh ∧ hash.length ≠ 20 ∧ hash.length ≠ 32 then
        .error s!"CashAddr: a P2SH address carries a 20- or 32-byte script hash, not {hash.length} bytes"
      else .ok (type, hash)

/-- The address of a body's symbols. -/
def readData (pre : List Char) (data : List Nat) : Except String (AddressType × List UInt8) :=
  if cashaddrPolymod (prefix5 pre ++ 0 :: data) ≠ 0 then .error "CashAddr: bad checksum"
  else (convertBits (data.take (data.length - 8)) 5 8 false).bind addressOf

def decodeCashAddr (k : Casing) (input : List Char) : Except String (AddressType × List UInt8) :=
  let split := splitPrefix (k.toLowerCase (trim input))
  if split.1 ≠ CASHADDR_PREFIX then
    .error (s!"CashAddr: refusing to decode '{String.ofList split.1}:' — only mainnet " ++
      s!"'{String.ofList CASHADDR_PREFIX}:' is supported")
  else (bodyData split.2).bind (readData split.1)

end Bch
