import PwndaWallet.Lib.Js
import PwndaWallet.Lib.Json
import PwndaWallet.Lib.Substitute

/-!
# Importing the wallet's descriptors

What the wallet sends to a coin daemon as one account's two branches, how it reads the daemon's reply and
the listing it asks for afterwards, and how it takes its secrets out of a text. The word list of the
recovery phrases is the library's.
-/

namespace Descriptors

open Rust

/-! ## Building -/

inductive UtxoChain where
  | btc
  | ltc
  | doge
  | bch
  | dash
deriving DecidableEq

def UtxoChain.slip44 : UtxoChain → Nat
  | .btc => 0
  | .ltc => 2
  | .doge => 3
  | .bch => 145
  | .dash => 5

def UtxoChain.purpose : UtxoChain → Nat
  | .btc | .ltc => 84
  | .doge | .bch | .dash => 44

def originPath (chain : UtxoChain) : String := s!"{chain.purpose}h/{chain.slip44}h/0h"

def descriptorFn (chain : UtxoChain) : String :=
  match chain.purpose with
  | 84 => "wpkh"
  | _ => "pkh"

def buildDescriptor (fingerprint : String) (chain : UtxoChain) (accountXprv : String) (branch : Nat) : String :=
  s!"{descriptorFn chain}([{fingerprint}/{originPath chain}]{accountXprv}/{branch}/*)"

/-- The index of a branch, and whether it is the wallet's own change. -/
def BRANCHES : List (Nat × Bool) := [(0, false), (1, true)]

/-! ## The reply to an import -/

def succeeded (entry : Json) : Bool := ((entry.get "success").bind Json.asBool).getD false

def rejection (entry : Json) : String :=
  (((entry.get "error").bind fun e => e.get "message").bind Json.asStr).getD "(the daemon gave no reason)"

def warningsOf (entry : Json) : List String :=
  (((entry.get "warnings").bind Json.asArray).getD []).filterMap Json.asStr

def readEntries : (i : Nat) → List Json → Except String (List String)
  | _, [] => .ok []
  | i, entry :: rest =>
    if succeeded entry then (readEntries (i + 1) rest).map (warningsOf entry ++ ·)
    else .error s!"descriptor {i} was rejected: {rejection entry}"

def parseImportResults (v : Json) (expected : Nat) : Except String (List String) :=
  match v.asArray with
  | none => .error "the daemon's import reply was not an array"
  | some arr =>
    if arr.length ≠ expected then
      .error s!"the daemon answered for {arr.length} descriptor(s) but {expected} were sent"
    else readEntries 0 arr

/-! ## The listing -/

/-- `str::parse::<u32>` -/
def parseU32 (s : String) : Option Nat := (parseU64 s).filter (· < 2 ^ 32)

/-- The part before the first `/*`. -/
def beforeStar : List Char → Option (List Char)
  | [] => none
  | c :: s => if "/*".toList.isPrefixOf (c :: s) then some [] else (beforeStar s).map (c :: ·)

/-- The part after the last `/`. -/
def afterSlash (s : List Char) : Option (List Char) :=
  if '/' ∈ s then some (s.reverse.takeWhile (· ≠ '/')).reverse else none

def trailingBranch (desc : String) : Option Nat :=
  let head := (split desc '#').headD desc
  (beforeStar head.toList).bind fun head => (afterSlash head).bind fun n => parseU32 (String.ofList n)

/-- `Vec::dedup` -/
def dedup : List Nat → List Nat
  | [] => []
  | [n] => [n]
  | n :: m :: rest => if n = m then dedup (m :: rest) else n :: dedup (m :: rest)

/-- The texts that the listing shows. -/
def descs (listed : Json) : List String :=
  (((listed.get "descriptors").bind Json.asArray).getD []).filterMap fun e => (e.get "desc").bind Json.asStr

def names (fingerprint desc : String) : Bool :=
  contains (toAsciiLowercase desc) s!"[{toAsciiLowercase fingerprint}/"

def readBackBranches (listed : Json) (fingerprint : String) : List Nat :=
  dedup (Js.sortOn id (((descs listed).filter (names fingerprint)).filterMap trailingBranch))

def readBackConfirms (listed : Json) (fingerprint : String) : Bool :=
  BRANCHES.all fun (i, _) => (readBackBranches listed fingerprint).contains i

/-! ## Scrubbing -/

def MIN_MNEMONIC_WORDS : Nat := 12

def PRIVATE_PREFIXES : List String := ["xprv", "yprv", "zprv", "tprv", "vprv", "uprv", "Ltpv"]

def REDACTED : String := "[redacted: possible recovery phrase]"

def REDACTED_KEY : String := "[redacted: extended private key]"

/-- `trim_matches` of what is no ASCII letter or digit -/
def trimToken (t : List Char) : List Char :=
  ((t.dropWhile fun c => !c.isAlphanum).reverse.dropWhile fun c => !c.isAlphanum).reverse

def isKeyToken (token : List Char) : Bool :=
  let t := trimToken token
  50 ≤ (String.ofList t).utf8ByteSize && PRIVATE_PREFIXES.any (fun p => p.toList.isPrefixOf t) &&
    t.all Char.isAlphanum

def lineHasExtendedPrivateKey (line : String) : Bool :=
  (line.toList.splitOnP fun c => isWhitespace c || c == '(' || c == ')' || c == ',').any isKeyToken

section
variable (isBip39EnglishWord : String → Bool)

def longRun : (run : Nat) → List (List Char) → Bool
  | _, [] => false
  | run, token :: rest =>
    if token = [] then longRun run rest
    else if isBip39EnglishWord (toAsciiLowercase (String.ofList token)) then
      MIN_MNEMONIC_WORDS ≤ run + 1 || longRun (run + 1) rest
    else longRun 0 rest

def lineIsProbableMnemonic (line : String) : Bool :=
  longRun isBip39EnglishWord 0 (line.toList.splitOnP fun c => !c.isAlpha)

/-- The rules that need no line before this one. -/
def redactAlone (line : String) : String :=
  if lineHasExtendedPrivateKey (trim line) then REDACTED_KEY
  else if lineIsProbableMnemonic isBip39EnglishWord (trim line) then REDACTED
  else line

def redactLines : (expectPhraseNext inExtendedKeys : Bool) → List String → List String
  | _, _, [] => []
  | true, keys, line :: rest =>
    if trim line ≠ "" then REDACTED :: redactLines false keys rest else line :: redactLines true keys rest
  | false, keys, line :: rest =>
    if startsWith (trim line) "IMPORTANT - Save your" || startsWith (trim line) "IMPORTANT - Save this" then
      line :: redactLines true keys rest
    else if startsWith (trim line) "Extended private keys" then line :: redactLines false true rest
    else if keys && trim line == "" then line :: redactLines false false rest
    else if keys && contains (trim line) ":" && !startsWith (trim line) "NOTE" &&
        !startsWith (trim line) "WARNING" then
      REDACTED_KEY :: redactLines false true rest
    else redactAlone isBip39EnglishWord line :: redactLines false false rest

/-- `str::lines`: a line ends with `\n` or `\r\n`, and the last one need not. -/
def linesFrom : List Char → List (List Char)
  | [] => []
  | c :: s =>
    if c = '\n' then [] :: linesFrom s
    else if c = '\r' ∧ s.head? = some '\n' then linesFrom s
    else
      match linesFrom s with
      | line :: rest => (c :: line) :: rest
      | [] => [[c]]

def redactSecrets (text : String) : String :=
  "\n".intercalate (redactLines isBip39EnglishWord false false ((linesFrom text.toList).map String.ofList))

/-- The longest secrets first. -/
def ordered (secrets : List String) : List String :=
  Js.sort (fun s t => decide (t.utf8ByteSize ≤ s.utf8ByteSize)) secrets

def scrub (text : String) (secrets : List String) : String :=
  let out := (ordered secrets).foldl (fun out s =>
    if s.utf8ByteSize < 8 then out
    else String.ofList (Substitute.replace s.toList "[redacted]".toList out.toList)) text
  redactSecrets isBip39EnglishWord out

end

end Descriptors
