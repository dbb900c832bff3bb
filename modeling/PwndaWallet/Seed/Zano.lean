import Mathlib.Data.Rat.Floor
import PwndaWallet.Seed.Electrum

/-!
# Zano seeds

`wallets/zano-keys.ts`: the word codec over Zano's list, the Secured-Seed cipher, and the two metadata words with
the creation time and a checksum. Keccak is a parameter.
-/

namespace Seed.Zano

open Js Wire

def BRAIN_DATE_OFFSET : Nat := 1543622400
def BRAIN_DATE_QUANTUM : Nat := 604800
def BRAIN_DATE_MAX_WEEKS : Nat := 800
def CHECKSUM_MAX : Nat := zanoWords.words.length >>> 1

/-! ## Words -/

def wordGroup (words : List (List Char)) (i : Nat) : Except String Nat :=
  match indicesAt zanoWords.byWord words i with
  | .error bad => .error s!"\"{String.ofList bad}\" is not in the Zano wordlist"
  | .ok (a, b, c) =>
    let x := Radix.undigits zanoWords.words.length a b c
    if x ≥ 1 <<< 32 then .error "Zano seed word group overflows 32 bits" else .ok x

def wordsToBytes (words : List (List Char)) : Except String Bytes :=
  if words.length ≠ 24 then .error s!"Zano key payload must be 24 words, got {words.length}"
  else groupBytes (wordGroup words)

def bytesToWords (bytes : Bytes) : Except String (List (List Char)) :=
  if bytes.length ≠ 32 then .error s!"Expected 32 seed bytes, got {bytes.length}"
  else .ok (dataWords zanoWords bytes)

/-! ## ChaCha8 -/

def rotl32 (v c : UInt32) : UInt32 := (v <<< c) ||| (v >>> (32 - c))

abbrev Block := Array UInt32

def word (x : Block) (i : Nat) : UInt32 := x.getD i 0

def qr (x : Block) (a b c d : Nat) : Block :=
  let x := x.setIfInBounds a (word x a + word x b)
  let x := x.setIfInBounds d (rotl32 (word x d ^^^ word x a) 16)
  let x := x.setIfInBounds c (word x c + word x d)
  let x := x.setIfInBounds b (rotl32 (word x b ^^^ word x c) 12)
  let x := x.setIfInBounds a (word x a + word x b)
  let x := x.setIfInBounds d (rotl32 (word x d ^^^ word x a) 8)
  let x := x.setIfInBounds c (word x c + word x d)
  x.setIfInBounds b (rotl32 (word x b ^^^ word x c) 7)

def doubleRound (x : Block) : Block :=
  let x := qr (qr (qr (qr x 0 4 8 12) 1 5 9 13) 2 6 10 14) 3 7 11 15
  qr (qr (qr (qr x 0 5 10 15) 1 6 11 12) 2 7 8 13) 3 4 9 14

/-- The 64 bytes that a block is combined with. -/
def keystream (j : Block) : Bytes :=
  let x := Nat.iterate doubleRound 4 j
  (List.range 16).flatMap fun i =>
    let w := word x i + word j i
    (List.range 4).map fun k => ((w >>> UInt32.ofNat (8 * k)) &&& 0xff).toUInt8

def nextBlock (j : Block) : Block :=
  let j := j.setIfInBounds 12 (word j 12 + 1)
  if word j 12 = 0 then j.setIfInBounds 13 (word j 13 + 1) else j

/-- The blocks from here on, `n` of them. -/
def chachaFrom : Nat → Block → Bytes → Bytes
  | 0, _, _ => []
  | n + 1, j, data => List.zipWith (· ^^^ ·) (data.take 64) (keystream j) ++ chachaFrom n (nextBlock j) (data.drop 64)

def SIGMA : List UInt32 := [0x61707865, 0x3320646e, 0x79622d32, 0x6b206574]

def chacha8 (key iv data : Bytes) : Bytes :=
  let u32le (b : Bytes) (o : Nat) := UInt32.ofNat (readUInt32LE b o)
  let j : Block := (SIGMA ++ (List.range 8).map (fun i => u32le key (i * 4)) ++ [0, 0, u32le iv 0, u32le iv 4]).toArray
  chachaFrom ((data.length + 63) / 64) j data

section

variable (keccak256 : Bytes → Bytes)

def cryptWithPass (data : Bytes) (passphrase : String) : Bytes :=
  let h := keccak256 passphrase.toUTF8.data.toList
  chacha8 h (h.take 8) data

/-! ## Metadata words -/

structure Timestamp where
  passwordProtected : Bool
  creationTimestamp : Nat
deriving DecidableEq, Repr

def decodeTimestampWord (w : List Char) : Except String Timestamp :=
  match zanoWords.byWord w with
  | none => .error s!"\"{String.ofList w}\" is not in the Zano wordlist"
  | some idx =>
    let passwordProtected := idx ≥ BRAIN_DATE_MAX_WEEKS
    let weeks := if idx ≥ BRAIN_DATE_MAX_WEEKS then idx - BRAIN_DATE_MAX_WEEKS else idx
    .ok ⟨passwordProtected, weeks * BRAIN_DATE_QUANTUM + BRAIN_DATE_OFFSET⟩

def encodeTimestampWord (timestamp : Rat) (passwordUsed : Bool) : Except String (List Char) :=
  let offset : Rat := if timestamp > BRAIN_DATE_OFFSET then timestamp - BRAIN_DATE_OFFSET else 0
  let weeks := ⌊offset / BRAIN_DATE_QUANTUM⌋.toNat
  if weeks ≥ BRAIN_DATE_MAX_WEEKS then .error "Zano seed timestamp is beyond the encodable range"
  else .ok (zanoWords.word (if passwordUsed then weeks + BRAIN_DATE_MAX_WEEKS else weeks))

/-- The index of word 26 without its lowest bit's flag. -/
def checksumOf (seedPlain : Bytes) (passphrase : String) (creationTimestampRounded : Nat) : Nat :=
  let h := keccak256 (seedPlain ++ passphrase.toUTF8.data.toList)
  let h := (le 8 creationTimestampRounded).take h.length ++ h.drop 8
  let checksum := leValue ((keccak256 h).take 8) % (CHECKSUM_MAX + 1)
  if checksum = CHECKSUM_MAX then 0 else checksum

def computeChecksumWord (seedPlain : Bytes) (passphrase : String) (creationTimestampRounded : Nat) (auditable : Bool) :
    List Char :=
  zanoWords.word ((if auditable then 1 else 0) ||| checksumOf keccak256 seedPlain passphrase creationTimestampRounded <<< 1)

/-! ## Reading a phrase -/

structure ZanoSeedMeta where
  wordCount : Nat
  passwordProtected : Bool
  auditable : Bool
  creationTimestamp : Option Nat
deriving DecidableEq, Repr

/-- What a verified phrase may fail at. -/
inductive ZanoSeedCheck where
  | ok | auditable | passphraseRequired | checksum
deriving DecidableEq, Repr

variable (k : Casing)

/-- `s.split(/\s+/)` -/
def splitSpaces (s : List Char) : List (List Char) := splitWords (collapse false s)

def normalizeZanoSeed (seed : List Char) : List Char := joinWords (splitSpaces (k.toLowerCase (trim seed)))

/-- The words of the normalized phrase. -/
def wordsOf (seed : List Char) : List (List Char) := splitWords (normalizeZanoSeed k seed)

/-- Word 25, if it is there. -/
def readTimestamp (words : List (List Char)) : Except String (Option Timestamp) :=
  if words.length ≥ 25 then (decodeTimestampWord (words.getD 24 [])).map some else .ok none

/-- The flag of word 26, if it is there. -/
def readAuditable (words : List (List Char)) : Except String Bool :=
  if words.length ≥ 26 then
    match zanoWords.byWord (words.getD 25 []) with
    | none => .error s!"\"{String.ofList (words.getD 25 [])}\" is not in the Zano wordlist"
    | some idx => .ok (idx &&& 1 == 1)
  else .ok false

def readZanoSeedMeta (seed : List Char) : Except String ZanoSeedMeta :=
  let words := wordsOf k seed
  if words.length < 24 ∨ words.length > 26 then .error s!"Zano seed must be 24-26 words, got {words.length}"
  else
    (readTimestamp words).bind fun t =>
      (readAuditable words).map fun auditable =>
        ⟨words.length, t.any Timestamp.passwordProtected, auditable, t.map Timestamp.creationTimestamp⟩

/-- The comparison of word 26 with what the phrase and the passphrase give. -/
def verifyChecksum (seed : List Char) (passphrase : String) (info : ZanoSeedMeta) (creationTimestamp : Nat) :
    Except String ZanoSeedCheck :=
  let words := wordsOf k seed
  (wordsToBytes (words.take 24)).map fun encrypted =>
    let plain := if info.passwordProtected then cryptWithPass keccak256 encrypted passphrase else encrypted
    let expected := computeChecksumWord keccak256 plain passphrase creationTimestamp info.auditable
    if some expected = words[25]? then .ok else .checksum

def verifyZanoSeedIntegrity (seed : List Char) (passphrase : String) : Except String ZanoSeedCheck :=
  (readZanoSeedMeta k seed).bind fun info =>
    if info.auditable then .ok .auditable
    else if info.passwordProtected ∧ passphrase.length = 0 then .ok .passphraseRequired
    else
      match info.creationTimestamp with
      | none => .ok .checksum
      | some creationTimestamp => verifyChecksum keccak256 k seed passphrase info creationTimestamp

end

end Seed.Zano
