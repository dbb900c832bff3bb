import PwndaWallet.Lib.Radix
import PwndaWallet.Lib.Wire
import PwndaWallet.Seed.Words

/-!
# Monero seeds

`wallets/xmr-keys.ts`: 32 bytes as 24 words, three for each four bytes, and a checksum word that repeats one
of them. The groups are shared with the Zano and Xelis codecs, which are the same up to what they refuse.
Characters stand for the units of a string.
-/

namespace Seed

open Js Wire

/-! ## Groups -/

/-- `(b[o] | (b[o + 1] << 8) | (b[o + 2] << 16) | (b[o + 3] << 24)) >>> 0` -/
def readUInt32LE (b : Bytes) (offset : Nat) : Nat :=
  let byte (i : Nat) := (b.getD (offset + i) 0).toNat
  byte 0 ||| byte 1 <<< 8 ||| byte 2 <<< 16 ||| byte 3 <<< 24

/-- The four bytes that are written for a value. -/
def writeUInt32LE (value : Nat) : Bytes :=
  [UInt8.ofNat (value &&& 0xff), UInt8.ofNat ((value >>> 8) &&& 0xff), UInt8.ofNat ((value >>> 16) &&& 0xff),
    UInt8.ofNat ((value >>> 24) &&& 0xff)]

/-- The words of the bytes from `4 * i` on. -/
def groupWords (l : Wordlist) (b : Bytes) (i : Nat) : List (List Char) :=
  let d := Radix.digits l.words.length (readUInt32LE b (i * 4))
  [l.word d.1, l.word d.2.1, l.word d.2.2]

def dataWords (l : Wordlist) (b : Bytes) : List (List Char) := (List.range 8).flatMap (groupWords l b)

/-- The loop over the groups, which stops at the first that is refused. -/
def groupBytes (group : Nat → Except String Nat) : Except String Bytes :=
  ((List.range 8).mapM group).map fun values => values.flatMap writeUInt32LE

/-- The indices of the group `i`, or the first of its words that has none. -/
def indicesAt (index : List Char → Option Nat) (words : List (List Char)) (i : Nat) :
    Except (List Char) (Nat × Nat × Nat) :=
  let w (j : Nat) := words.getD (i * 3 + j) []
  match index (w 0), index (w 1), index (w 2) with
  | some a, some b, some c => .ok (a, b, c)
  | none, _, _ => .error (w 0)
  | some _, none, _ => .error (w 1)
  | some _, some _, none => .error (w 2)

/-! ## Monero -/

namespace Xmr

/-- `(crc >>> 1) ^ (0xedb88320 & -(crc & 1))` -/
def crcStep (crc : Nat) : Nat := if crc &&& 1 = 1 then (crc >>> 1) ^^^ 0xedb88320 else crc >>> 1

def crc32 (input : List Char) : Nat :=
  input.foldl (fun crc c => Nat.iterate crcStep 8 (crc ^^^ c.toNat)) 0xffffffff ^^^ 0xffffffff

def checksumIndex (words : List (List Char)) : Nat :=
  crc32 ((words.take 24).flatMap fun w => w.take MONERO_ENGLISH_PREFIX_LEN) % 24

def checksumWord (words : List (List Char)) : List Char := words.getD (checksumIndex words) []

def bytesToWords (bytes : Bytes) : Except String (List Char) :=
  if bytes.length ≠ 32 then .error s!"bytesToWords: expected 32 bytes, got {bytes.length}"
  else
    let words := dataWords moneroWords bytes
    .ok (joinWords (words ++ [checksumWord words]))

def wordGroup (words : List (List Char)) (i : Nat) : Except String Nat :=
  match indicesAt moneroWords.bySpelling words i with
  | .error bad => .error s!"Word \"{String.ofList bad}\" is not in the Monero English wordlist"
  | .ok (a, b, c) =>
    let n := moneroWords.words.length
    let val := Radix.undigits n a b c
    if val % n ≠ a then .error s!"Seed word group {i + 1} failed sanity check (encoding mismatch)"
    else if val > 0xffffffff then .error s!"Seed word group {i + 1} produced an out-of-range value"
    else .ok val

def wordsToBytes (words : List (List Char)) : Except String Bytes :=
  if words.length ≠ 24 ∧ words.length ≠ 25 then .error s!"Expected 24 or 25 words, got {words.length}"
  else groupBytes (wordGroup words)

section

variable (k : Casing)

def normalizeXmrSeed (seed : List Char) : List Char := k.toLowerCase (collapse false (trim seed))

/-- The words that a phrase is read as. -/
def wordsOf (seed : List Char) : List (List Char) :=
  if normalizeXmrSeed k seed = [] then [] else splitWords (normalizeXmrSeed k seed)

/-- The first word that is in no spelling in the list. -/
def unknown (words : List (List Char)) : Option (List Char × Nat) :=
  words.zipIdx.find? fun e => (moneroWords.bySpelling e.1).isNone

def validateXmrSeed (seed : List Char) : Except String Unit :=
  let words := wordsOf k seed
  if words.length ≠ 25 then
    .error s!"Expected 25 words, got {words.length}. Monero seeds must be exactly 25 words."
  else
    match unknown words with
    | some (w, i) => .error s!"Word {i + 1} (\"{String.ofList w}\") is not in the Monero English wordlist."
    | none =>
      let expected := checksumWord words
      if expected ≠ words.getD 24 [] then
        .error (s!"Seed checksum word is wrong. Expected \"{String.ofList expected}\", got " ++
          s!"\"{String.ofList (words.getD 24 [])}\". This usually means a typo in one of the first 24 words.")
      else (wordsToBytes (words.take 24)).map fun _ => ()

/-- `addressOf` derives the keys of a secret and writes their address. -/
def xmrAddressFromSeed (addressOf : Bytes → Except String String) (seed : List Char) : Except String String :=
  let words := splitWords (normalizeXmrSeed k seed)
  if words.length ≠ 25 then
    .error s!"Expected 25 words, got {words.length}. Monero seeds must be exactly 25 words."
  else
    let expected := checksumWord words
    if expected ≠ words.getD 24 [] then
      .error (s!"Seed checksum word doesn't match. Expected \"{String.ofList expected}\", got " ++
        s!"\"{String.ofList (words.getD 24 [])}\".")
    else (wordsToBytes (words.take 24)).bind addressOf

end

end Xmr

end Seed
