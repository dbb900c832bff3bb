import PwndaWallet.Seed.Electrum

/-!
# Xelis seeds

`wallets/xelis-keys.ts`: Monero's words, taken whole only; a group beyond 32 bits wraps, and a key that is zero or
not below the order of the group is refused.
-/

namespace Seed.Xelis

open Js Wire

def XELIS_SEED_WORD_COUNT : Nat := 25
def DATA_WORDS : Nat := 24
def PREFIX_LENGTH : Nat := 3

/-- The order of the curve's group. -/
def L : Nat := 2 ^ 252 + 27742317777372353535851937790883648493

/-! ## The checksum -/

def tableStep (c : Nat) : Nat := if c &&& 1 = 1 then 0xedb88320 ^^^ (c >>> 1) else c >>> 1

/-- `CRC32_TABLE[n]` -/
def crc32Table (n : Nat) : Nat := Nat.iterate tableStep 8 n

def crc32 (bytes : Bytes) : Nat :=
  bytes.foldl (fun c b => crc32Table ((c ^^^ b.toNat) &&& 0xff) ^^^ (c >>> 8)) 0xffffffff ^^^ 0xffffffff

def checksumIndex (words : List (List Char)) : Nat :=
  let joined := (words.take DATA_WORDS).flatMap fun w => w.take PREFIX_LENGTH
  crc32 (String.ofList joined).toUTF8.data.toList % DATA_WORDS

/-! ## Words and bytes -/

/-- `val >>> 0` -/
def tripleToU32 (a b c : Nat) : Nat := Radix.undigits moneroWords.words.length a b c % 2 ^ 32

def indicesToKeyBytes (indices : List Nat) : Bytes :=
  (List.range 8).flatMap fun t =>
    writeUInt32LE (tripleToU32 (indices.getD (3 * t) 0) (indices.getD (3 * t + 1) 0) (indices.getD (3 * t + 2) 0))

def keyBytesToWords (key : Bytes) : List (List Char) :=
  let words := dataWords moneroWords key
  words ++ [words.getD (checksumIndex words) []]

/-! ## Checking -/

inductive XelisSeedCheck where
  | ok
  | wordCount (count : Nat)
  | unknownWord (words : List (List Char))
  | checksum
  | key
deriving DecidableEq, Repr

variable (k : Casing)

/-- `s.split(/\s+/).filter(Boolean)` is `Js.words`. -/
def normalizeXelisSeed (seed : List Char) : List Char := joinWords (words (k.toLowerCase (trim seed)))

/-- The words that a phrase is read as. -/
def wordsOf (seed : List Char) : List (List Char) := (splitWords (normalizeXelisSeed k seed)).filter (· ≠ [])

def verifyXelisSeedIntegrity (seed : List Char) : XelisSeedCheck :=
  let words := wordsOf k seed
  if words.length ≠ XELIS_SEED_WORD_COUNT ∧ words.length ≠ DATA_WORDS then .wordCount words.length
  else
    let unknown := words.filter fun w => (moneroWords.byWord w).isNone
    let indices := words.filterMap moneroWords.byWord
    if unknown.length > 0 then .unknownWord unknown
    else if words.length = XELIS_SEED_WORD_COUNT ∧ words.getD DATA_WORDS [] ≠ words.getD (checksumIndex words) [] then
      .checksum
    else
      let s := leValue (indicesToKeyBytes indices)
      if s = 0 ∨ s ≥ L then .key else .ok

end Seed.Xelis
