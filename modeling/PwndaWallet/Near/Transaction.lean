import PwndaWallet.Lib.Js
import PwndaWallet.Lib.Numeral
import PwndaWallet.Lib.Unicode

/-!
# NEAR transactions

`features/swap/swap-sources.ts` and `safety-invariants.ts`: the borsh encoders, the decoders that read their
bytes back, and the checks of what was read. A string is a list of UTF-16 units, a bigint is unbounded, and
`JSON.parse` is any function.
-/

namespace Near

open Wire Unicode

/-- A string in the text of an error. -/
def shown (s : Units) : String := String.ofList (scalars s)

/-! ## Base58 -/

def ALPHABET : Units := ofString "123456789ABCDEFGHJKLMNPQRSTUVWXYZabcdefghijkmnopqrstuvwxyz"

def one : UInt16 := 49

/-- The digits are multiplied by 256 and the byte is added, from the lowest digit on. -/
def encodeBase58 (bytes : Bytes) : Units :=
  let zeros := (bytes.takeWhile (· == 0)).length
  let digits := (bytes.drop zeros).foldl (fun digits b => Numeral.mulAdd 58 256 b.toNat digits) []
  List.replicate zeros one ++ digits.reverse.map fun d => ALPHABET.getD d 0

/-- The digits of a number, from the lowest, with one more below them. The carry goes into new bytes until
it is used up. -/
def pushDigit (bytes : List Nat) (u : UInt16) : Except String (List Nat) :=
  match ALPHABET.idxOf? u with
  | none => .error s!"Invalid base58 char {shown [u]}"
  | some c => .ok (Numeral.mulAdd 256 58 c bytes)

def decodeBase58Variable (s : Units) : Except String Bytes := do
  let zeros := (s.takeWhile (· == one)).length
  let bytes ← (s.drop zeros).foldlM pushDigit []
  return ((bytes ++ List.replicate zeros 0).reverse).map UInt8.ofNat

def decodeBase58 (s : Units) (expectedLen : Nat) : Except String Bytes := do
  let zeros := (s.takeWhile (· == one)).length
  let bytes ← (s.drop zeros).foldlM pushDigit []
  let out := ((bytes ++ List.replicate zeros 0).reverse).map UInt8.ofNat
  if out.length ≠ expectedLen then
    .error s!"base58 decode produced {out.length} bytes, expected {expectedLen}"
  else return out

/-! ## Writing -/

/-- `setBigUint64`, which takes the lower 64 bits -/
def u64 (n : Int) : Bytes := le 8 (n % 2 ^ 64).toNat

def u128 (n : Int) : Bytes := u64 (n % 2 ^ 64) ++ u64 (n / 2 ^ 64)

def u32 (n : Nat) : Bytes := le 4 n

def string (s : Units) : Bytes := u32 (encode s).length ++ encode s

inductive NearAction where
  | transfer (deposit : Int)
  | functionCall (methodName : Units) (args : Bytes) (gas deposit : Int)
deriving DecidableEq

structure NearTransaction where
  signerId : Units
  publicKeyEd25519Base58 : Units
  nonce : Int
  receiverId : Units
  blockHashB58 : Units
  actions : List NearAction
deriving DecidableEq

def writeAction : NearAction → Bytes
  | .transfer deposit => 3 :: u128 deposit
  | .functionCall methodName args gas deposit =>
    2 :: string methodName ++ u32 args.length ++ args ++ u64 gas ++ u128 deposit

def encodeNearTransaction (a : NearTransaction) : Except String Bytes := do
  let key ← decodeBase58 a.publicKeyEd25519Base58 32
  let hash ← decodeBase58 a.blockHashB58 32
  return string a.signerId ++ 0 :: key ++ u64 a.nonce ++ string a.receiverId ++ hash ++ u32 a.actions.length ++
    a.actions.flatMap writeAction

structure NearTransfer where
  signerId : Units
  publicKeyEd25519Base58 : Units
  nonce : Int
  receiverId : Units
  blockHashB58 : Units
  yoctoAmount : Int

def encodeNearTransferTransaction (a : NearTransfer) : Except String Bytes := do
  let key ← decodeBase58 a.publicKeyEd25519Base58 32
  let hash ← decodeBase58 a.blockHashB58 32
  return string a.signerId ++ 0 :: key ++ u64 a.nonce ++ string a.receiverId ++ hash ++ u32 1 ++
    3 :: u128 a.yoctoAmount

/-! ## Reading -/

/-- A step of the decoder on the bytes from its offset on. -/
def Decode (α : Type) := Bytes → Except String (α × Bytes)

instance : Monad Decode where
  pure a := fun bs => .ok (a, bs)
  bind d f := fun bs => (d bs).bind fun p => f p.1 p.2

namespace Decode

def throw {α : Type} (message : String) : Decode α := fun _ => .error message

/-- `need(n)` and the bytes it makes sure of -/
def raw (n : Nat) : Decode Bytes := fun bs =>
  if n ≤ bs.length then .ok (bs.take n, bs.drop n) else .error "NEAR transaction ends early"

def num (w : Nat) : Decode Nat := do return leValue (← raw w)

def bytes : Decode Bytes := do
  let n ← num 4
  raw n

def str : Decode Units := do return decode (← bytes)

def u128 : Decode Nat := do
  let b ← raw 16
  return leValue (b.drop 8) * 2 ^ 64 + leValue (b.take 8)

end Decode

structure DecodedNearAction where
  tag : Nat
  methodName : Option Units
  args : Option Bytes
  gas : Option Nat
  deposit : Nat
deriving DecidableEq

structure DecodedNear where
  signerId : Units
  receiverId : Units
  actions : List DecodedNearAction
deriving DecidableEq

def decodeAction : Decode DecodedNearAction := do
  let tag ← Decode.num 1
  if tag = 3 then
    let deposit ← Decode.u128
    return ⟨tag, none, none, none, deposit⟩
  else if tag = 2 then
    let methodName ← Decode.str
    let args ← Decode.bytes
    let gas ← Decode.num 8
    let deposit ← Decode.u128
    return ⟨tag, some methodName, some args, some gas, deposit⟩
  else Decode.throw s!"NEAR transaction carries action {tag}, which this wallet never builds"

def decodeActions : (count : Nat) → Decode (List DecodedNearAction)
  | 0 => pure []
  | count + 1 => do
    let a ← decodeAction
    let rest ← decodeActions count
    return a :: rest

def checkKeyType (keyType : Nat) : Decode Unit :=
  if keyType ≠ 0 then Decode.throw "NEAR transaction key is not ed25519" else pure ()

def decodeAll : Decode DecodedNear := do
  let signerId ← Decode.str
  let keyType ← Decode.num 1
  checkKeyType keyType
  let _ ← Decode.raw 32
  let _ ← Decode.num 8
  let receiverId ← Decode.str
  let _ ← Decode.raw 32
  let count ← Decode.num 4
  let actions ← decodeActions count
  return ⟨signerId, receiverId, actions⟩

def decodeNearTransaction (bytes : Bytes) : Except String DecodedNear :=
  match decodeAll bytes with
  | .ok (t, []) => .ok t
  | .ok (_, _ :: _) => .error "NEAR transaction has trailing bytes"
  | .error e => .error e

structure DecodedTransfer where
  receiverId : Units
  yoctoAmount : Nat
  actionTag : Option Nat
deriving DecidableEq

/-- `getUint32` and the like, at an offset -/
def numAt (bytes : Bytes) (off w : Nat) : Except String Nat :=
  if off + w ≤ bytes.length then .ok (leValue ((bytes.drop off).take w))
  else .error "Offset is outside the bounds of the DataView"

def stringAt (bytes : Bytes) (off : Nat) : Except String (Units × Nat) := do
  let n ← numAt bytes off 4
  return (decode ((bytes.drop (off + 4)).take n), off + 4 + n)

def decodeNearTransferTransaction (bytes : Bytes) : Except String DecodedTransfer := do
  let signer ← stringAt bytes 0
  let _ ← numAt bytes (signer.2 + 33) 8
  let receiver ← stringAt bytes (signer.2 + 41)
  let actionCount ← numAt bytes (receiver.2 + 32) 4
  if actionCount ≠ 1 then .error s!"NEAR tx has {actionCount} actions; expected exactly 1 (Transfer)"
  else
    let lo ← numAt bytes (receiver.2 + 37) 8
    let hi ← numAt bytes (receiver.2 + 45) 8
    return ⟨receiver.1, hi * 2 ^ 64 + lo, bytes[receiver.2 + 36]?.map UInt8.toNat⟩

/-! ## Checking -/

structure SafetyInvariantError where
  invariant : String
  message : String

def assertNearTransferShape (expectedRecipient recipientFromTx : Units) (yoctoAmountFromTx expectedYoctoAmount : Int)
    (actionTag : Option Nat) : Except SafetyInvariantError Unit :=
  if actionTag ≠ some 3 then
    let tag := (actionTag.map toString).getD "undefined"
    .error ⟨"NEAR_ACTION_NOT_TRANSFER", s!"NEAR tx action tag is {tag}, not Transfer (3). Refusing to broadcast."⟩
  else if recipientFromTx ≠ expectedRecipient then
    .error ⟨"NEAR_RECIPIENT_DRIFT",
      s!"NEAR tx receiver_id {shown recipientFromTx} does not match the expected deposit " ++
      s!"address {shown expectedRecipient}. Refusing to broadcast."⟩
  else if yoctoAmountFromTx ≠ expectedYoctoAmount then
    .error ⟨"TX_VALUE_VS_QUOTE",
      s!"NEAR tx yoctoNEAR amount {yoctoAmountFromTx} does not match the quote's " ++
      s!"amountIn {expectedYoctoAmount}. Refusing to broadcast."⟩
  else .ok ()

/-- What `JSON.parse` gives. -/
inductive JsValue where
  | null
  | bool (b : Bool)
  | number (text : Units)
  | str (s : Units)
  | arr (values : List JsValue)
  | obj (fields : List (Units × JsValue))

/-- The fields of an object; what is no object has none. -/
def JsValue.fields : JsValue → List (Units × JsValue)
  | .obj fields => fields
  | _ => []

/-- `a.key === s`, where the field may be missing -/
def fieldIs (o : List (Units × JsValue)) (key : String) (s : Units) : Bool :=
  match o.lookup (ofString key) with
  | some (.str t) => t == s
  | _ => false

/-- `String(a.key)` of a field that is a string, and a name for the rest. -/
def fieldText (o : List (Units × JsValue)) (key : String) : String :=
  match o.lookup (ofString key) with
  | some (.str t) => shown t
  | some _ => "[object]"
  | none => "undefined"

def isTrue (o : List (Units × JsValue)) (key : String) : Bool :=
  match o.lookup (ofString key) with
  | some (.bool b) => b
  | _ => false

/-- `Object.keys(o).sort().join(",")` -/
def keys (o : List (Units × JsValue)) : Units :=
  List.intercalate (ofString ",") (Js.sort (fun a b => !decide (b < a)) (o.map (·.1)))

section
variable (parse : Units → Option JsValue)

def argsOf (a : DecodedNearAction) : List (Units × JsValue) :=
  ((parse (decode (a.args.getD []))).map JsValue.fields).getD []

def checkRegistration (ticker : String) (receiverId : Units) (storageDeposit : Int) (reg : DecodedNearAction) :
    Except SafetyInvariantError Unit :=
  let a := argsOf parse reg
  if reg.tag ≠ 2 ∨ reg.methodName ≠ some (ofString "storage_deposit") ∨
      keys a ≠ ofString "account_id,registration_only" ∨ !isTrue a "registration_only" then
    .error ⟨"NEAR_ACTION_NOT_TRANSFER",
      s!"The {ticker} transaction's first action is not a registration-only storage_deposit. Refusing to sign."⟩
  else if !fieldIs a "account_id" receiverId then
    .error ⟨"NEAR_RECIPIENT_DRIFT",
      let registered := fieldText a "account_id"
      s!"The {ticker} registration is for {registered}, not the receiver {shown receiverId}. Refusing to sign."⟩
  else if (reg.deposit : Int) ≠ storageDeposit then
    .error ⟨"NEAR_ACTION_NOT_TRANSFER",
      s!"The {ticker} registration attaches {reg.deposit} yoctoNEAR, not {storageDeposit}. Refusing to sign."⟩
  else .ok ()

def checkTransfer (ticker : String) (receiverId : Units) (amountAtomic : Int) (xfer : DecodedNearAction) :
    Except SafetyInvariantError Unit :=
  let a := argsOf parse xfer
  if xfer.tag ≠ 2 ∨ xfer.methodName ≠ some (ofString "ft_transfer") ∨ keys a ≠ ofString "amount,receiver_id" then
    .error ⟨"NEAR_ACTION_NOT_TRANSFER",
      s!"The {ticker} transaction does not end in a plain ft_transfer. Refusing to sign."⟩
  else if xfer.deposit ≠ 1 then
    .error ⟨"NEAR_ACTION_NOT_TRANSFER",
      s!"The {ticker} ft_transfer attaches {xfer.deposit} yoctoNEAR, not exactly 1. Refusing to sign."⟩
  else if !fieldIs a "receiver_id" receiverId then
    .error ⟨"NEAR_RECIPIENT_DRIFT",
      let paid := fieldText a "receiver_id"
      s!"The {ticker} ft_transfer pays {paid}, not {shown receiverId}. Refusing to sign."⟩
  else if !fieldIs a "amount" (ofString (toString amountAtomic)) then
    .error ⟨"TX_VALUE_VS_QUOTE",
      let moved := fieldText a "amount"
      s!"The {ticker} ft_transfer moves {moved} units, not {amountAtomic}. Refusing to sign."⟩
  else .ok ()

/-- Reading a field of an action that is not there throws. -/
def onAction (a : Option DecodedNearAction) (check : DecodedNearAction → Except SafetyInvariantError Unit) :
    Except SafetyInvariantError Unit :=
  match a with
  | none => .error ⟨"TypeError", "Cannot read properties of undefined"⟩
  | some a => check a

def checkFirst (decoded : DecodedNear) (receiverId : Units) (storageDeposit : Option Int) (ticker : String) :
    Except SafetyInvariantError Unit :=
  match storageDeposit with
  | none => .ok ()
  | some deposit => onAction decoded.actions.head? (checkRegistration parse ticker receiverId deposit)

/-- `storageDeposit` is there if a registration was decided. -/
def assertNearTokenTransferShape (decoded : DecodedNear) (tokenContract receiverId : Units) (amountAtomic : Int)
    (storageDeposit : Option Int) (ticker : String) : Except SafetyInvariantError Unit :=
  let expectedCount := if storageDeposit.isNone then 1 else 2
  if decoded.receiverId ≠ tokenContract then
    .error ⟨"NEAR_RECIPIENT_DRIFT",
      s!"The {ticker} transaction is addressed to {shown decoded.receiverId}, not the token contract " ++
      s!"{shown tokenContract}. Refusing to sign."⟩
  else if decoded.actions.length ≠ expectedCount then
    .error ⟨"NEAR_ACTION_NOT_TRANSFER",
      s!"The {ticker} transaction has {decoded.actions.length} actions; it should have {expectedCount}. " ++
      "Refusing to sign."⟩
  else do
    checkFirst parse decoded receiverId storageDeposit ticker
    onAction decoded.actions.getLast? (checkTransfer parse ticker receiverId amountAtomic)

/-! ## Building -/

inductive BuildError where
  | plain (message : String)
  | safety (e : SafetyInvariantError)

def plainly {α : Type} (x : Except String α) : Except BuildError α := x.mapError .plain

def safely {α : Type} (x : Except SafetyInvariantError α) : Except BuildError α := x.mapError .safety

/-- The bytes that `executeNearNativeTransfer` signs. -/
def buildNearTransfer (a : NearTransfer) : Except BuildError Bytes := do
  let txBytes ← plainly (encodeNearTransferTransaction a)
  let decoded ← plainly (decodeNearTransferTransaction txBytes)
  safely (assertNearTransferShape a.receiverId decoded.receiverId decoded.yoctoAmount a.yoctoAmount decoded.actionTag)
  return txBytes

/-! ### JSON -/

def escape (text : String) : Units := ofString text

/-- `\u` and four hexadecimal digits -/
def hexEscape (u : UInt16) : Units :=
  let digits := Nat.toDigits 16 u.toNat
  escape "\\u" ++ units (List.replicate (4 - digits.length) '0' ++ digits)

def quoteUnit (u : UInt16) : Units :=
  if u = 0x22 then escape "\\\"" else if u = 0x5c then escape "\\\\" else if u = 8 then escape "\\b"
  else if u = 9 then escape "\\t" else if u = 10 then escape "\\n" else if u = 12 then escape "\\f"
  else if u = 13 then escape "\\r" else if u < 0x20 ∨ isHigh u ∨ isLow u then hexEscape u else [u]

def quoteUnits : Units → Units
  | [] => []
  | [u] => quoteUnit u
  | u :: v :: rest => if isHigh u && isLow v then u :: v :: quoteUnits rest else quoteUnit u ++ quoteUnits (v :: rest)

/-- `JSON.stringify(s)` of a string -/
def quote (s : Units) : Units := escape "\"" ++ quoteUnits s ++ escape "\""

/-- `JSON.stringify({ account_id, registration_only: true })` -/
def registrationArgs (accountId : Units) : Units :=
  escape "\x7b\"account_id\":" ++ quote accountId ++ escape ",\"registration_only\":true\x7d"

/-- `JSON.stringify({ receiver_id, amount })` -/
def transferArgs (receiverId : Units) (amount : Int) : Units :=
  escape "\x7b\"receiver_id\":" ++ quote receiverId ++ escape ",\"amount\":" ++ quote (ofString (toString amount)) ++
    escape "\x7d"

def FT_TRANSFER_DEPOSIT : Int := 1

structure TokenTransfer where
  fromAccountId : Units
  publicKeyB58 : Units
  nonce : Int
  blockHashB58 : Units
  tokenContract : Units
  receiverId : Units
  amount : Int
  /-- There if the receiver has to be registered. -/
  storageDeposit : Option Int
  gas : Int
  ticker : String

def tokenActions (a : TokenTransfer) : List NearAction :=
  (a.storageDeposit.toList.map fun deposit =>
    .functionCall (ofString "storage_deposit") (encode (registrationArgs a.receiverId)) a.gas deposit) ++
    [.functionCall (ofString "ft_transfer") (encode (transferArgs a.receiverId a.amount)) a.gas FT_TRANSFER_DEPOSIT]

/-- The bytes that `executeNearTokenTransfer` signs. -/
def buildNearTokenTransfer (a : TokenTransfer) : Except BuildError Bytes := do
  let txBytes ← plainly (encodeNearTransaction ⟨a.fromAccountId, a.publicKeyB58, a.nonce, a.tokenContract,
    a.blockHashB58, tokenActions a⟩)
  let decoded ← plainly (decodeNearTransaction txBytes)
  safely (assertNearTokenTransferShape parse decoded a.tokenContract a.receiverId a.amount a.storageDeposit a.ticker)
  return txBytes

end

end Near
