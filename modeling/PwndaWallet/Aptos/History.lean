import PwndaWallet.Aptos.Send
import PwndaWallet.Send.SuiTransfer

/-!
# The history of an Aptos account

`aptosAssetHistory` of `wallets/apt-wallet.ts` with what it reads: the transactions the account sent, the
transactions that touched it, and single ones by their version, which a session keeps.
-/

namespace Aptos

open Rust SessionSend

/-! ## Addresses and Move types -/

def isHexDigit (c : Char) : Bool := c.isDigit || ('a' ≤ c && c ≤ 'f') || ('A' ≤ c && c ≤ 'F')

def isWordChar (c : Char) : Bool := c.isAlphanum || c = '_'

def dropHexPrefix (cs : List Char) : List Char := if "0x".toList.isPrefixOf cs then cs.drop 2 else cs

def normalizeAptosAddress (address : String) : Except String String :=
  let raw := dropHexPrefix ((Js.trim address.toList).map Char.toLower)
  if raw ≠ [] ∧ raw.length ≤ 64 ∧ raw.all isHexDigit then .ok (String.ofList ("0x".toList ++ Js.padZero 64 raw))
  else .error s!"Invalid Aptos address: {address}"

def readAptosAddress (address : String) : String :=
  match normalizeAptosAddress address with
  | .ok padded => padded
  | .error _ => address

/-- A text before and after its first `::`. -/
def splitType : List Char → List Char × Option (List Char)
  | ':' :: ':' :: rest => ([], some rest)
  | c :: cs =>
    let r := splitType cs
    (c :: r.1, r.2)
  | [] => ([], none)

def sameMoveType (a b : String) : Bool :=
  let partsA := splitType (Js.trim a.toList)
  let partsB := splitType (Js.trim b.toList)
  partsA.2.isSome && partsA.2.getD [] == partsB.2.getD [] &&
    readAptosAddress (String.ofList partsA.1) == readAptosAddress (String.ofList partsB.1)

def APT_COIN_TYPE : String := "0x1::aptos_coin::AptosCoin"

/-- `normalizeAptosAddress("0xa")` -/
def APT_FA_METADATA : String := readAptosAddress "0xa"

def isMoveAddress (cs : List Char) : Bool :=
  "0x".toList.isPrefixOf cs && 3 ≤ cs.length && cs.length ≤ 66 && (cs.drop 2).all isHexDigit

def isWord (cs : List Char) : Bool := cs ≠ [] && cs.all isWordChar

/-- `module::function` of an id `0x1::module::function`, with any spelling of the address. -/
def frameworkFunction (id : String) : Option String :=
  let account := splitType id.toList
  let name := splitType (account.2.getD [])
  if isMoveAddress account.1 && isWord name.1 && (name.2.any isWord) &&
      readAptosAddress (String.ofList account.1) == readAptosAddress "0x1" then
    (account.2.map String.ofList)
  else none

/-! ## Transfers -/

structure AptosTransferLeg where
  recipient : String
  units : Nat
deriving DecidableEq

structure AptosTransfer where
  legs : List AptosTransferLeg
  apt : Bool

structure Payload where
  function : Option Json
  typeArguments : Option Json
  arguments : Option Json

/-- The fields of a committed transaction the rows use. -/
structure AptosTxRecord where
  type : Option Json
  version : String
  hash : Option Json
  sender : Option Json
  success : Option Json
  vmStatus : Option Json
  gasUsed : Option Json
  gasUnitPrice : Option Json
  timestamp : Option Json
  payload : Option Payload

def digitsOf (text : String) : Option Nat := Js.digits 10 text.toList

/-- An argument that is an object's `inner`, or stands for itself. -/
def innerOf : Option Json → Option Json
  | some (.obj fields) => (Json.obj fields).get "inner"
  | some (.arr _) => none
  | v => v

/-- `typeof v === "string" ? v : ""` -/
def stringOr (v : Option Json) : String :=
  match v with
  | some (.str s) => s
  | _ => ""

def argumentsOf (p : Payload) : List Json :=
  match p.arguments with
  | some (.arr args) => args
  | _ => []

def APTOS_TRANSFER_FUNCTIONS : List String :=
  ["aptos_account::transfer", "aptos_account::transfer_coins", "coin::transfer",
    "aptos_account::transfer_fungible_assets", "primary_fungible_store::transfer", "aptos_account::batch_transfer",
    "aptos_account::batch_transfer_coins", "aptos_account::batch_transfer_fungible_assets"]

section

variable (env : Engine)

/-- `String(v)` -/
def textOf (v : Option Json) : String := (v.map env.toText).getD "undefined"

/-- `String(v ?? "")` -/
def textOrEmpty (v : Option Json) : String := ((v.filter fun v => !(v matches .null)).map env.toText).getD ""

def legOf (dest units : Option Json) : Option AptosTransferLeg :=
  match dest with
  | some (.str recipient) => (digitsOf (textOf env units)).map fun n => ⟨recipient, n⟩
  | _ => none

def oneLeg (leg : Option AptosTransferLeg) (apt : Bool) : Option AptosTransfer := leg.map fun l => ⟨[l], apt⟩

def manyLegs (dests amounts : Option Json) (apt : Bool) : Option AptosTransfer :=
  match dests, amounts with
  | some (.arr dests), some (.arr amounts) =>
    if dests.length = amounts.length then
      ((dests.zip amounts).mapM fun p => legOf env (some p.1) (some p.2)).map fun legs => ⟨legs, apt⟩
    else none
  | _, _ => none

def metadataIsApt (v : Option Json) : Bool :=
  match innerOf v with
  | some (.str inner) => readAptosAddress inner == APT_FA_METADATA
  | _ => false

def coinIsApt (p : Payload) : Bool :=
  match p.typeArguments with
  | some (.arr types) => sameMoveType (textOrEmpty env types[0]?) APT_COIN_TYPE
  | _ => sameMoveType "" APT_COIN_TYPE

def aptosTransferOf (payload : Option Payload) : Option AptosTransfer :=
  payload.bind fun p =>
    (frameworkFunction (stringOr p.function)).bind fun name =>
      let args := argumentsOf p
      match name with
      | "aptos_account::transfer" => oneLeg (legOf env args[0]? args[1]?) true
      | "aptos_account::transfer_coins" | "coin::transfer" => oneLeg (legOf env args[0]? args[1]?) (coinIsApt env p)
      | "aptos_account::transfer_fungible_assets" | "primary_fungible_store::transfer" =>
        oneLeg (legOf env args[1]? args[2]?) (metadataIsApt args[0]?)
      | "aptos_account::batch_transfer" => manyLegs env args[0]? args[1]? true
      | "aptos_account::batch_transfer_coins" => manyLegs env args[0]? args[1]? (coinIsApt env p)
      | "aptos_account::batch_transfer_fungible_assets" => manyLegs env args[1]? args[2]? (metadataIsApt args[0]?)
      | _ => none

def aptosFaMetadataOf (payload : Option Payload) : Option String :=
  payload.bind fun p =>
    (frameworkFunction (stringOr p.function)).bind fun name =>
      if name = "primary_fungible_store::transfer" ∨ name = "aptos_account::transfer_fungible_assets" ∨
          name = "aptos_account::batch_transfer_fungible_assets" then
        match innerOf (argumentsOf p)[0]? with
        | some (.str inner) => (normalizeAptosAddress inner).toOption
        | _ => none
      else none

def isAptosTransferFunction (id : Option Json) : Bool :=
  (frameworkFunction (String.ofList (Js.trim (stringOr id).toList))).any fun name =>
    APTOS_TRANSFER_FUNCTIONS.contains name

def isAptAssetType (assetType : Option Json) : Bool :=
  match assetType with
  | some (.str t) => sameMoveType t APT_COIN_TYPE || readAptosAddress t == APT_FA_METADATA
  | _ => false

/-! ## Assets -/

structure AptosHistoryAsset where
  chain : String
  decimals : Nat
  isAssetType : Option Json → Bool
  movesAsset : Option Payload → AptosTransfer → Bool

def APT_DECIMALS : Nat := 8

def APT_HISTORY_ASSET : AptosHistoryAsset where
  chain := "aptos"
  decimals := APT_DECIMALS
  isAssetType := isAptAssetType
  movesAsset _ xfer := xfer.apt

def aptosFaHistoryAsset (chain metadata : String) (decimals : Nat) : Except String AptosHistoryAsset :=
  (normalizeAptosAddress metadata).map fun meta' => {
    chain
    decimals
    isAssetType := fun t =>
      match t with
      | some (.str t) => readAptosAddress t == meta'
      | _ => false
    movesAsset := fun payload _ => aptosFaMetadataOf payload == some meta' }

/-! ## Rows -/

inductive Direction where
  | incoming | outgoing | self | failed
deriving DecidableEq

structure ChainTx where
  chain : String
  hash : String
  direction : Direction
  amount : String
  fee : Option String
  timestamp : Option Int
  height : Option Nat
  counterparty : String
  intended : Direction
  failure : Option String
deriving DecidableEq

def senderOf (t : AptosTxRecord) : String :=
  match t.sender with
  | some (.str s) => readAptosAddress s
  | _ => ""

def isOutgoing (t : AptosTxRecord) (addr : String) : Bool := senderOf t == addr

def hasFailed (t : AptosTxRecord) : Bool :=
  match t.success with
  | some (.bool false) => true
  | _ => false

/-- The transfer of the asset that a transaction is. -/
def transferOf (t : AptosTxRecord) (asset : AptosHistoryAsset) : Option AptosTransfer :=
  (aptosTransferOf env t.payload).filter (asset.movesAsset t.payload)

def paysTo (addr : String) (l : AptosTransferLeg) : Bool := readAptosAddress l.recipient == addr

def totalOf (legs : List AptosTransferLeg) : Nat := (legs.map (·.units)).sum

/-- What a transaction was meant to do for the account: the direction, the units and the counterparty. -/
def intendedOf (t : AptosTxRecord) (addr : String) (deposited : Nat) (asset : AptosHistoryAsset) :
    Option (Direction × Nat × String) :=
  let xfer := transferOf env t asset
  let legs := (xfer.map (·.legs)).getD []
  if xfer.isSome && isOutgoing t addr then
    let toOthers := legs.filter fun l => !paysTo addr l
    let counted := if toOthers = [] then legs else toOthers
    some (if toOthers = [] then .self else .outgoing, totalOf counted, (counted.head?.map (·.recipient)).getD "")
  else if legs.any (paysTo addr) then
    some (.incoming, totalOf (legs.filter (paysTo addr)), textOrEmpty env t.sender)
  else if !isOutgoing t addr && 0 < deposited && !hasFailed t then
    some (.incoming, deposited, textOrEmpty env t.sender)
  else none

def isUserTransaction (t : AptosTxRecord) : Bool :=
  match t.type with
  | some (.str type) => type == "user_transaction"
  | _ => false

/-- `String(v ?? 0)` as an integer. -/
def integerOf (v : Option Json) : Option Int :=
  Js.bigInt (((v.filter fun v => !(v matches .null)).map env.toText).getD "0")

def feeOf (t : AptosTxRecord) : Option String :=
  (integerOf env t.gasUsed).bind fun used =>
    (integerOf env t.gasUnitPrice).map fun price => Sui.atomicToDecimal (used * price) APT_DECIMALS

end

/-- What the engine also computes for a history: `Math.floor(Number(t) / 1_000_000)` of a time that is there. -/
structure HistoryEngine extends Engine where
  seconds : Json → Option Int

section

variable (env : HistoryEngine)

def aptosHistoryRow (t : AptosTxRecord) (addr : String) (deposited : Nat) (asset : AptosHistoryAsset) :
    Option ChainTx :=
  if isUserTransaction t then
    (intendedOf env.toEngine t addr deposited asset).map fun r => {
      chain := asset.chain
      hash := textOrEmpty env.toEngine t.hash
      direction := if hasFailed t then .failed else r.1
      amount := Sui.atomicToDecimal r.2.1 asset.decimals
      fee := if isOutgoing t addr then feeOf env.toEngine t else none
      timestamp := t.timestamp.bind env.seconds
      height := digitsOf t.version
      counterparty := r.2.2
      intended := r.1
      failure :=
        if hasFailed t then
          some (((t.vmStatus.filter fun v => !(v matches .null)).map env.toText).getD "aborted")
        else none }
  else none

/-! ## The indexer -/

structure AptosIndexerEntry where
  version : String
  deposited : Nat
  wanted : Bool
deriving DecidableEq

/-- What the activities of a transaction say so far. -/
structure Seen where
  deposited : Nat
  moved : Bool
  failedTransfer : Bool

def saysFalse (v : Option Json) : Bool :=
  match v with
  | some (.bool false) => true
  | _ => false

/-- `field?.key` of an activity -/
def field (a : Json) (key : String) : Option Json := a.get key

/-- The text after the last `::`, where `part` is what stands between the one before and here. -/
def lastPart (part : List Char) : List Char → List Char
  | ':' :: ':' :: rest => lastPart [] rest
  | c :: cs => lastPart (part ++ [c]) cs
  | [] => part

def kindOf (a : Json) : List Char := (lastPart [] (textOrEmpty env.toEngine (field a "type")).toList).map Char.toLower

def isGasFee (a : Json) : Bool :=
  match field a "is_gas_fee" with
  | some (.bool true) => true
  | _ => false

/-- An activity of the asset that is not the gas. -/
def concerns (isAsset : Option Json → Bool) (a : Json) : Bool := !isGasFee a && isAsset (field a "asset_type")

def isDeposit (a : Json) : Bool := Rust.hasInfix (kindOf env a) "deposit".toList

def isWithdraw (a : Json) : Bool := Rust.hasInfix (kindOf env a) "withdraw".toList

def unitsOf (a : Json) : Nat := (digitsOf (textOrEmpty env.toEngine (field a "amount"))).getD 0

def readActivity (isAsset : Option Json → Bool) (s : Seen) (a : Json) : Seen :=
  let failed :=
    saysFalse (field a "is_transaction_success") && isAptosTransferFunction (field a "entry_function_id_str")
  let s := { s with failedTransfer := s.failedTransfer || failed }
  if !concerns isAsset a then s
  else if isDeposit env a then { s with moved := true, deposited := s.deposited + unitsOf env a }
  else if isWithdraw env a then { s with moved := true }
  else s

def readActivities (isAsset : Option Json → Bool) (activities : List Json) : Seen :=
  activities.foldl (readActivity env isAsset) ⟨0, false, false⟩

/-- The version a row names, where it is digits. -/
def rowVersion (row : Json) : Option String :=
  let version := match field row "transaction_version" with
    | some (.str s) => s
    | some (.int n) => env.toText (.int n)
    | some (.float text) => env.toText (.float text)
    | _ => ""
  if (digitsOf version).isSome then some version else none

def rowActivities (row : Json) : List Json :=
  match field row "fungible_asset_activities" with
  | some (.arr activities) => activities
  | _ => []

def readRow (isAsset : Option Json → Bool) (row : Json) : Option AptosIndexerEntry :=
  (rowVersion env row).map fun version =>
    let s := readActivities env isAsset (rowActivities row)
    ⟨version, s.deposited, s.moved || s.failedTransfer⟩

def aptosIndexerEntries (answer : Option Json) (isAsset : Option Json → Bool) :
    Except String (List AptosIndexerEntry) :=
  match prop answer "account_transactions" with
  | some (.arr rows) => .ok (rows.filterMap (readRow env isAsset))
  | _ => .error "the indexer's answer has no account_transactions"

/-! ## Reads -/

def API_HOST : String := "api.mainnet.aptoslabs.com"
def ARCHIVE_HOST : String := "archive.mainnet.aptoslabs.com"

/-- The services: the sent list and the touched list up to a limit, the ledger's info, and single versions. -/
structure Services where
  sent : String → Nat → Reply
  indexer : String → Nat → Reply
  info : Reply
  fullnode : String → Reply
  archive : String → Reply

def indexerErrors (j : Json) : Option String :=
  match j.get "errors" with
  | some (.arr (e :: es)) =>
    some ("; ".intercalate ((e :: es).map fun e => ((prop (some e) "message").map env.toText).getD ""))
  | _ => none

def aptosIndexedTransactions (isAsset : Option Json → Bool) : Reply → Except String (List AptosIndexerEntry)
  | .error e => .error e
  | .ok r =>
    if !r.ok then .error s!"{API_HOST} indexer HTTP {r.status}"
    else
      (env.jsonParse r.body).bind fun j =>
        match indexerErrors env j with
        | some text => .error s!"{API_HOST} indexer: {text}"
        | none => aptosIndexerEntries env (prop (some j) "data") isAsset

def payloadOf (p : Option Json) : Option Payload :=
  match p with
  | some (.obj fields) =>
    let p := Json.obj fields
    some ⟨p.get "function", p.get "type_arguments", p.get "arguments"⟩
  | some (.arr _) => some ⟨none, none, none⟩
  | _ => none

def slimAptosTx (t : Json) : AptosTxRecord where
  type := t.get "type"
  version := textOrEmpty env.toEngine (t.get "version")
  hash := t.get "hash"
  sender := t.get "sender"
  success := t.get "success"
  vmStatus := t.get "vm_status"
  gasUsed := t.get "gas_used"
  gasUnitPrice := t.get "gas_unit_price"
  timestamp := t.get "timestamp"
  payload := payloadOf (t.get "payload")

def aptosSentTransactions : Reply → Except String (List AptosTxRecord)
  | .error e => .error e
  | .ok r =>
    if r.status = 404 then .ok []
    else if !r.ok then .error s!"Aptos node HTTP {r.status}"
    else
      (env.jsonParse r.body).map fun
        | .arr rows => rows.map (slimAptosTx env)
        | _ => []

/-- What a session has read: transactions by version, and the oldest version that the fullnode keeps. -/
structure Session where
  cache : List (String × AptosTxRecord)
  oldestKept : Option Nat

def APTOS_TX_CACHE_MAX : Nat := 1000

def cacheAptosTx (s : Session) (t : AptosTxRecord) : Session :=
  if (digitsOf t.version).isSome then
    let cache := s.cache.filter (·.1 ≠ t.version) ++ [(t.version, t)]
    { s with cache := cache.drop (cache.length - APTOS_TX_CACHE_MAX) }
  else s

/-- The oldest version an answer names. -/
def oldestIn (body : Json) : Option Nat :=
  match body.get "oldest_ledger_version" with
  | some (.str oldest) => digitsOf oldest
  | _ => none

def learn (s : Session) (r : Response) : Session :=
  match env.jsonParse r.body with
  | .ok body => { s with oldestKept := (oldestIn body).or s.oldestKept }
  | .error _ => s

def learnAptosOldestKept (net : Services) (s : Session) : Session :=
  match s.oldestKept, net.info with
  | none, .ok r => if r.ok then learn env s r else s
  | _, _ => s

def isPruned (s : Session) (version : String) : Bool :=
  s.oldestKept.any fun oldest => (digitsOf version).any fun v => v < oldest

/-- The last step of `aptosTxByVersion`: an answer is read and kept. -/
def readVersion (s : Session) (version host : String) (reply : Reply) : Except String AptosTxRecord × Session :=
  match reply with
  | .error e => (.error e, s)
  | .ok r =>
    if !r.ok then (.error s!"{host} answered HTTP {r.status} for version {version}", s)
    else
      match env.jsonParse r.body with
      | .error e => (.error e, s)
      | .ok json =>
        let t := slimAptosTx env json
        if t.version ≠ version then (.error s!"{host} answered another version for {version}", s)
        else (.ok t, cacheAptosTx s t)

def aptosTxByVersion (net : Services) (s : Session) (version : String) : Except String AptosTxRecord × Session :=
  match s.cache.lookup version with
  | some t => (.ok t, s)
  | none =>
    if isPruned s version then readVersion env s version ARCHIVE_HOST (net.archive version)
    else
      match net.fullnode version with
      | .error e => (.error e, s)
      | .ok r =>
        if r.status = 410 then readVersion env (learn env s r) version ARCHIVE_HOST (net.archive version)
        else readVersion env s version API_HOST (.ok r)

/-! ## The history -/

/-- `map.set(key, value)` -/
def mapSet {α : Type} (m : List (String × α)) (key : String) (value : α) : List (String × α) :=
  if m.any (·.1 = key) then m.map fun e => if e.1 = key then (key, value) else e else m ++ [(key, value)]

structure Reads where
  txs : List (String × AptosTxRecord)
  failures : List String
  session : Session

/-- The versions are read one after the other. -/
def readAll (net : Services) : List String → Reads → Reads
  | [], reads => reads
  | v :: vs, reads =>
    match aptosTxByVersion env net reads.session v with
    | (.ok t, s) => readAll net vs { reads with txs := mapSet reads.txs v t, session := s }
    | (.error e, s) =>
      readAll net vs { reads with failures := reads.failures ++ [s!"version {v}: {e}"], session := s }

/-- Step 2: what the indexer wants and the sent list lacks is read. -/
def readWanted (net : Services) (txs : List (String × AptosTxRecord)) (wanted : List AptosIndexerEntry)
    (s : Session) : Reads :=
  let missing := (wanted.map (·.version)).filter fun v => !txs.any (·.1 = v)
  let asks := missing.any fun v => !s.cache.any (·.1 = v)
  readAll env net missing ⟨txs, [], if asks then learnAptosOldestKept env net s else s⟩

def heightKey (row : ChainTx) : Int := row.height.getD 0

/-- Step 3: the rows, newest first. -/
def aptosRows (txs : List (String × AptosTxRecord)) (deposited : List (String × Nat)) (addr : String)
    (asset : AptosHistoryAsset) (limit : Nat) : List ChainTx :=
  let rows := txs.filterMap fun e =>
    aptosHistoryRow env e.2 addr ((deposited.lookup e.2.version).getD 0) asset
  (Js.sort (fun a b => decide (heightKey b ≤ heightKey a)) rows).take limit

def depositsOf (wanted : List AptosIndexerEntry) : List (String × Nat) :=
  wanted.foldl (fun m e => mapSet m e.version e.deposited) []

def limitOf (limit : Option Rat) : Nat := (max 1 (limit.getD 25).floor).toNat

def aptosAssetHistory (net : Services) (s : Session) (address : String) (limit : Option Rat)
    (asset : AptosHistoryAsset) : Except String (List ChainTx) × Session :=
  match normalizeAptosAddress address with
  | .error e => (.error e, s)
  | .ok addr =>
    let n := limitOf limit
    let sent := aptosSentTransactions env (net.sent addr n)
    let s := (sent.toOption.getD []).foldl cacheAptosTx s
    let txs := (sent.toOption.getD []).foldl (fun m t => mapSet m t.version t) []
    match sent, aptosIndexedTransactions env asset.isAssetType (net.indexer addr n) with
    | .error e, .error reason => (.error s!"Aptos history could not be read: {e}; the indexer: {reason}", s)
    | .ok _, .error _ => (.ok (aptosRows env txs [] addr asset n), s)
    | _, .ok entries =>
      let wanted := entries.filter (·.wanted)
      let reads := readWanted env net txs wanted s
      let items := aptosRows env reads.txs (depositsOf wanted) addr asset n
      if reads.failures ≠ [] ∧ items = [] then
        let first := "; ".intercalate (reads.failures.take 3)
        (.error s!"Aptos history could not be read: {first}", reads.session)
      else (.ok items, reads.session)

end

end Aptos
