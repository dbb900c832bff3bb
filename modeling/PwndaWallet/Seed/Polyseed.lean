import PwndaWallet.Lib.Wire
import PwndaWallet.Seed.Words

/-!
# Polyseed

`wallets/polyseed.ts`: the packing of a secret, a birthday and features into fifteen words of eleven bits, the
checksum over GF(2^11), the phrase of sixteen words, and the spend key. PBKDF2 is a parameter. The loops over the
bits take one at least in each turn, which bounds their turns.
-/

namespace Seed

open Js

def POLYSEED_NUM_WORDS : Nat := 16
def GF_SIZE : Nat := 2048
def DATA_WORDS : Nat := 15
def SHARE_BITS : Nat := 10
def SECRET_BITS : Nat := 150
def SECRET_BUFFER_SIZE : Nat := 32
def DATE_BITS : Nat := 10
def DATE_MASK : Nat := 1023
def FEATURE_BITS : Nat := 5
def USER_FEATURES_MASK : Nat := 7
def ENCRYPTED_MASK : Nat := 16
def FEATURE_MASK : Nat := 31
def KDF_NUM_ITERATIONS : Nat := 10000
def POLYSEED_COIN_MONERO : Nat := 0

/-! ## GF(2^11) -/

def MUL2_TABLE : List Nat := [5, 7, 1, 3, 13, 15, 9, 11]

def gfMul2 (x : Nat) : Nat :=
  if x < 1024 then (2 * x) &&& 0xffff else MUL2_TABLE.getD (x % 8) 0 + 16 * ((x - 1024) / 8)

def gfPolyEval (coeffs : List Nat) : Nat :=
  (coeffs.take (POLYSEED_NUM_WORDS - 1)).foldr (fun c result => gfMul2 result ^^^ c)
    (coeffs.getD (POLYSEED_NUM_WORDS - 1) 0)

def gfPolyEncode (coeffs : List Nat) : List Nat := coeffs.set 0 (gfPolyEval coeffs)

def gfPolyCheck (coeffs : List Nat) : Bool := gfPolyEval coeffs == 0

/-! ## Packing -/

structure PolyseedData where
  birthday : Nat
  features : Nat
  secret : List UInt8
  checksum : Nat
deriving DecidableEq, Repr

/-- What is left of the secret while it is packed. -/
structure Unloading where
  secretIdx : Nat
  secretVal : Nat
  secretBitsRem : Nat
  seedRemBits : Nat

/-- The next byte, when the last one is used up. -/
def Unloading.load (secret : List UInt8) (s : Unloading) : Unloading :=
  if s.secretBitsRem = 0 then
    let rem := min s.seedRemBits 8
    { secretIdx := s.secretIdx + 1
      secretVal := (secret.getD (s.secretIdx + 1) 0).toNat
      secretBitsRem := rem
      seedRemBits := s.seedRemBits - rem }
  else s

/-- `while (wordBits < SHARE_BITS)` -/
def fillWord (secret : List UInt8) : Nat → Unloading → Nat → Nat → Unloading × Nat
  | 0, s, _, wordVal => (s, wordVal)
  | n + 1, s, wordBits, wordVal =>
    if wordBits < SHARE_BITS then
      let s := s.load secret
      let chunkBits := min s.secretBitsRem (SHARE_BITS - wordBits)
      let s := { s with secretBitsRem := s.secretBitsRem - chunkBits }
      fillWord secret n s (wordBits + chunkBits)
        (wordVal <<< chunkBits ||| (s.secretVal >>> s.secretBitsRem) &&& (1 <<< chunkBits - 1))
    else (s, wordVal)

/-- The words that are left, with so many extra bits left. -/
def packWords (secret : List UInt8) (extraVal : Nat) : Nat → Unloading → List Nat × Unloading
  | 0, s => ([], s)
  | extraBits + 1, s =>
    let (s, wordVal) := fillWord secret SHARE_BITS s 0 0
    let wordVal := wordVal <<< 1 ||| (extraVal >>> extraBits) &&& 1
    let (rest, s) := packWords secret extraVal extraBits s
    ((wordVal &&& 0x7ff) :: rest, s)

def Unloading.start (secret : List UInt8) : Unloading where
  secretIdx := 0
  secretVal := (secret.getD 0 0).toNat
  secretBitsRem := 8
  seedRemBits := SECRET_BITS - 8

/-- The features above the birthday. -/
def PolyseedData.extraVal (data : PolyseedData) : Nat := data.features <<< DATE_BITS ||| data.birthday

/-- The coefficients behind the first. -/
def polyseedDataToPoly (data : PolyseedData) : Except String (List Nat) :=
  let r := packWords data.secret data.extraVal DATA_WORDS (.start data.secret)
  if r.2.seedRemBits ≠ 0 ∨ r.2.secretBitsRem ≠ 0 then
    .error s!"polyseed encode invariant broken (seedRem={r.2.seedRemBits}, secretBits={r.2.secretBitsRem}, extraBits=0)"
  else .ok r.1

/-- How far the secret is filled while it is unpacked. -/
structure Filling where
  secret : List UInt8
  secretIdx : Nat
  secretBitsFilled : Nat
  seedBitsWritten : Nat

/-- To the next byte, when the last one is full. -/
def Filling.next (s : Filling) : Filling :=
  if s.secretBitsFilled = 8 then
    { s with secretIdx := s.secretIdx + 1, seedBitsWritten := s.seedBitsWritten + 8, secretBitsFilled := 0 }
  else s

/-- `while (wordBits > 0)` -/
def emptyWord (wordVal : Nat) : Nat → Filling → Nat → Filling
  | 0, s, _ => s
  | n + 1, s, wordBits =>
    if wordBits > 0 then
      let s := s.next
      let chunkBits := min wordBits (8 - s.secretBitsFilled)
      let wordBits := wordBits - chunkBits
      let chunkMask := 1 <<< chunkBits - 1
      let old := (s.secret.getD s.secretIdx 0).toNat
      let byte := if chunkBits < 8 then old <<< chunkBits &&& 0xff else old
      let byte := byte ||| (wordVal >>> wordBits) &&& chunkMask
      emptyWord wordVal n
        { s with secret := s.secret.set s.secretIdx (UInt8.ofNat byte)
                 secretBitsFilled := s.secretBitsFilled + chunkBits } wordBits
    else s

/-- The words, with the extra bits so far. -/
def unpackWords : List Nat → Nat → Filling → Nat × Filling
  | [], extraVal, s => (extraVal, s)
  | wordVal :: rest, extraVal, s =>
    unpackWords rest (extraVal <<< 1 ||| wordVal &&& 1) (emptyWord (wordVal >>> 1) SHARE_BITS s SHARE_BITS)

def Filling.start : Filling where
  secret := List.replicate SECRET_BUFFER_SIZE 0
  secretIdx := 0
  secretBitsFilled := 0
  seedBitsWritten := 0

def polyseedPolyToData (coeffs : List Nat) : Except String PolyseedData :=
  let r := unpackWords (coeffs.drop 1) 0 .start
  let seedBitsWritten := r.2.seedBitsWritten + r.2.secretBitsFilled
  let extraBits := (coeffs.drop 1).length
  if seedBitsWritten ≠ SECRET_BITS ∨ extraBits ≠ FEATURE_BITS + DATE_BITS then
    .error s!"polyseed decode invariant broken (seed={seedBitsWritten}, extra={extraBits})"
  else
    .ok { birthday := r.1 &&& DATE_MASK
          features := (r.1 >>> DATE_BITS) &&& FEATURE_MASK
          secret := r.2.secret
          checksum := coeffs.getD 0 0 }

/-! ## Phrases -/

/-- The coin id in the first data word. -/
def mixCoin (coin : Nat) (coeffs : List Nat) : List Nat := coeffs.modify 1 (· ^^^ coin)

/-- The phrase, and the data with its checksum. -/
def polyseedEncode (data : PolyseedData) (coin : Nat) : Except String (List Char × PolyseedData) :=
  if coin ≥ GF_SIZE then .error s!"polyseed: coin id {coin} out of range"
  else
    (polyseedDataToPoly data).map fun coeffs =>
      let coeffs := mixCoin coin (gfPolyEncode (0 :: coeffs))
      (joinWords (coeffs.map polyseedWords.word), { data with checksum := coeffs.getD 0 0 })

variable (k : Casing)

def normalizePolyseed (phrase : List Char) : List Char := k.toLowerCase (collapse false (trim phrase))

/-- The index of a word, by itself or by its first letters. -/
def wordIndex (w : List Char) : Option Nat :=
  (polyseedWords.bySpelling w).or (polyseedWords.bySpelling (polyseedWords.short w))

def polyseedIndices : Nat → List (List Char) → Except String (List Nat)
  | _, [] => .ok []
  | i, w :: ws =>
    match wordIndex w with
    | none => .error s!"Word {i + 1} (\"{String.ofList w}\") is not in the polyseed English wordlist."
    | some idx => (polyseedIndices (i + 1) ws).map (idx :: ·)

def polyseedFeaturesSupported (features : Nat) : Bool :=
  features &&& (FEATURE_MASK ^^^ ENCRYPTED_MASK ^^^ USER_FEATURES_MASK) == 0

def polyseedIsEncrypted (data : PolyseedData) : Bool := data.features &&& ENCRYPTED_MASK != 0

/-- The words of a phrase. -/
def polyseedPhrase (phrase : List Char) : List (List Char) :=
  (splitWords (normalizePolyseed k phrase)).filter (· ≠ [])

/-- The data of the indices, the coin id taken out. -/
def polyseedRead (coeffs : List Nat) : Except String PolyseedData :=
  if gfPolyCheck coeffs = false then
    .error "Polyseed checksum failed. One or more words contain a typo, or the phrase is for a different coin."
  else
    (polyseedPolyToData coeffs).bind fun data =>
      if polyseedFeaturesSupported data.features then .ok data
      else
        .error ("Polyseed uses unsupported features (encryption or reserved bits). " ++
          "Decrypt the seed before importing.")

def polyseedDecode (phrase : List Char) (coin : Nat) : Except String PolyseedData :=
  let words := polyseedPhrase k phrase
  if words.length ≠ POLYSEED_NUM_WORDS then .error s!"Expected {POLYSEED_NUM_WORDS} words, got {words.length}."
  else (polyseedIndices 0 words).bind fun coeffs => polyseedRead (mixCoin coin coeffs)

/-! ## Keys -/

/-- `pbkdf2` with SHA-256, its password, salt, rounds and length. -/
abbrev Kdf := List UInt8 → List UInt8 → Nat → Nat → List UInt8

/-- `"POLYSEED key"`, a zero, three times `0xff`, and the numbers, low byte first. -/
def keygenSalt (coin birthday features : Nat) : List UInt8 :=
  [80, 79, 76, 89, 83, 69, 69, 68, 32, 107, 101, 121, 0, 255, 255, 255] ++ Wire.le 4 coin ++ Wire.le 4 birthday ++
    Wire.le 4 features ++ [0, 0, 0, 0]

def polyseedKeygen (pbkdf2 : Kdf) (data : PolyseedData) (coin keySize : Nat) : Except String (List UInt8) :=
  if coin ≥ GF_SIZE then .error s!"polyseed: coin id {coin} out of range"
  else
    let taken := data.secret.take SECRET_BUFFER_SIZE
    let password := taken ++ List.replicate (SECRET_BUFFER_SIZE - taken.length) 0
    .ok (pbkdf2 password (keygenSalt coin data.birthday data.features) KDF_NUM_ITERATIONS keySize)

def polyseedToMoneroSpendKey (pbkdf2 : Kdf) (phrase : List Char) : Except String (PolyseedData × List UInt8) :=
  (polyseedDecode k phrase POLYSEED_COIN_MONERO).bind fun data =>
    (polyseedKeygen pbkdf2 data POLYSEED_COIN_MONERO 32).map fun spendKeyRaw => (data, spendKeyRaw)

end Seed
