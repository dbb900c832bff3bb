import PwndaWallet.Lib.Js
import PwndaWallet.Lib.Prog
import PwndaWallet.Lib.Result
import PwndaWallet.Send.Outcome

/-!
# The XRP send

`sendTransaction`, `submitAndConfirm` and `withClient` of `wallets/xrp-wallet.ts`: a payment is prepared and signed on
one server, and its bytes are submitted on the same or other servers until one of them says how it ended.
-/

namespace Xrp

open Rust SessionSend Tasks

/-- What other code computes: the engine, and `xrpl`. -/
structure Library extends Env where
  classicAddressOf : String → Except String String
  isValidXAddress : String → Bool
  xAddressToClassicAddress : String → Except String (String × Option Nat × Bool)
  isValidClassicAddress : String → Bool
  xrpToDrops : String → Except String String

/-! ## What is asked of a server -/

/-- What a request is rejected with: a text, and what the server sent with the error. -/
structure RequestError where
  text : String
  data : Option Json

structure XrpAccount where
  balanceDrops : Int
  ownerCount : Nat
  flags : Nat

structure XrpLedgerCosts where
  reserveBaseDrops : Int
  reserveIncDrops : Int
  feeDrops : Int

/-- What `readLedgerCosts` and the two `readAccount` find. -/
structure Accounts where
  costs : XrpLedgerCosts
  sender : Option XrpAccount
  recipient : Option XrpAccount

structure Payment where
  account : String
  destination : String
  amount : String
  fee : String
  destinationTag : Option Nat

/-- An autofilled payment. -/
structure Prepared where
  payment : Payment
  fee : Option String
  lastLedgerSequence : Option Nat

structure Signed where
  blob : String
  hash : String

inductive XrpOp where
  | connect (url : String)
  | disconnect (url : String)
  | accounts (url sender recipient : String)
  | ledgerIndex (url : String)
  | autofill (url : String) (payment : Payment)
  | sign (prepared : Prepared)
  | submit (url blob : String)
  | tx (url hash : String)
  /-- `tx` from one ledger to another -/
  | window (url hash : String) (minLedger : Option Nat) (maxLedger : Nat)
  | now

abbrev XrpOp.Ans : XrpOp → Type
  | .connect _ | .disconnect _ => Except RequestError Unit
  | .accounts _ _ _ => Except RequestError Accounts
  | .ledgerIndex _ => Except RequestError (Option Nat)
  | .autofill _ _ => Except RequestError Prepared
  | .sign _ => Except RequestError Signed
  | .submit _ _ | .tx _ _ | .window _ _ _ _ => Except RequestError Json
  | .now => Int

/-! ## Errors -/

inductive ClientError where
  | plain (text : String)
  /-- an `XrpFinalError` from before the submit -/
  | final (text : String)
  | malformed (prelim message : String)
  | expired (lastLedger : Nat) (prelim : String)
  | outcomeUnknown (message hash : String)
deriving DecidableEq

def ClientError.text : ClientError → String
  | .plain text => text
  | .final text => text
  | .malformed prelim message =>
    s!"The XRP Ledger rejected the payment as malformed: {prelim} ({message}). Nothing was sent."
  | .expired lastLedger prelim =>
    s!"The payment expired before any ledger included it (last allowed ledger {lastLedger}). " ++
      s!"Nothing was sent. Preliminary result: {prelim}."
  | .outcomeUnknown message _ => message

/-- `e instanceof XrpFinalError || isSendOutcomeUnknown(e)` -/
def ClientError.isFinal : ClientError → Bool
  | .plain _ => false
  | .final _ | .malformed _ _ | .expired _ _ | .outcomeUnknown _ _ => true

inductive SendError where
  | stopped (e : ClientError)
  | refused (result hash : String)
deriving DecidableEq

def TEC_MEANING : List (String × String) := [
  ("tecNO_DST_INSUF_XRP",
    "the destination account does not exist yet, and a first payment must be at least the account reserve"),
  ("tecNO_DST", "the destination account does not exist"),
  ("tecUNFUNDED_PAYMENT", "the balance above the account reserve does not cover the amount and fee"),
  ("tecDST_TAG_NEEDED", "the destination requires a destination tag"),
  ("tecNO_PERMISSION", "the destination does not accept this payment"),
  ("tecPATH_DRY", "the payment could not be delivered")]

def SendError.text : SendError → String
  | .stopped e => e.text
  | .refused result hash =>
    let meaning := ((TEC_MEANING.lookup result).map (" — " ++ ·)).getD ""
    s!"The XRP Ledger refused the payment: {result}{meaning}. Only the network fee was spent. Transaction {hash}."

abbrev XrpM (ε α : Type) := Prog XrpOp XrpOp.Ans ε α

def plainly {α : Type} (r : Except RequestError α) : Except ClientError α := r.mapError fun e => .plain e.text

/-! ## One server after the other -/

def XRP_RPC_URLS : List String := ["wss://xrplcluster.com", "wss://s1.ripple.com", "wss://s2.ripple.com"]

/-- `withClient`, on the servers that are left. The error comes with whether a server could be connected to, that is,
whether `fn` was begun. -/
def withClient {α : Type} (fn : String → XrpM ClientError α) : List String → ClientError → Bool →
    XrpM (ClientError × Bool) α
  | [], lastError, begun => .fail (lastError, begun)
  | url :: rest, _, begun =>
    .call (.connect url) fun
      | .error e => withClient fn rest (.plain e.text) begun
      | .ok _ => (fn url).handle fun r =>
        .call (.disconnect url) fun
          | .error e => withClient fn rest (.plain e.text) true
          | .ok _ =>
            match r with
            | .ok a => .ret a
            | .error e => if e.isFinal then .fail (e, true) else withClient fn rest e true

/-! ## What the server says of the payment -/

section

variable (env : Library)

/-- `String(v ?? "")` -/
def textOf : Option Json → String
  | some (.str s) => s
  | some v => env.toText v
  | none => ""

/-- `found?.validated` -/
def isValidated (found : Option Json) : Bool := (prop found "validated").any (isTruthy env.toEnv)

/-- `String(found.meta?.TransactionResult ?? "")` -/
def resultOf (found : Option Json) : String := textOf env (prop (prop found "meta") "TransactionResult")

def isNotFound (e : RequestError) : Bool :=
  match prop e.data "error" with
  | some (.str s) => s == "txnNotFound"
  | _ => false

def searchedAll (e : RequestError) : Bool :=
  match prop e.data "searched_all" with
  | some (.bool b) => b
  | _ => false

/-- `sub?.result?.engine_result ?? ""`, of which `startsWith` is asked next. -/
def engineResult (sub : Json) : Except ClientError String :=
  match prop (prop (some sub) "result") "engine_result" with
  | none => .ok ""
  | some (.str s) => .ok s
  | some _ => .error (.plain "prelim.startsWith is not a function")

def engineMessage (sub : Json) : String := textOf env (prop (prop (some sub) "result") "engine_result_message")

def readLookup : Except RequestError Json → Except ClientError (Option Json)
  | .ok r => .ok (prop (some r) "result")
  | .error e => if isNotFound e then .ok none else .error (.plain e.text)

/-- What is found, and whether the server says that it searched everywhere. -/
def readWindow : Except RequestError Json → Except ClientError (Option Json × Bool)
  | .ok r => .ok (prop (some r) "result", true)
  | .error e => if isNotFound e then .ok (none, searchedAll e) else .error (.plain e.text)

/-! ## Waiting for the ledger -/

def notAllLedgers : String := "The XRP Ledger server could not confirm it holds every ledger this payment could be in."

/-- The rounds of `confirmOn`, of which so many are followed. -/
def pollRounds (url hash : String) (firstLedger : Option Nat) (lastLedger : Nat) (prelim : String) (deadline : Int) :
    Nat → XrpM ClientError String
  | 0 => .cut
  | rounds + 1 => do
    let found ← .request (.tx url hash) readLookup
    if isValidated env found then .ret (resultOf env found)
    else do
      let latest ← .request (.ledgerIndex url) plainly
      if latest.any (lastLedger < ·) then do
        let last ← .request (.window url hash firstLedger lastLedger) readWindow
        if isValidated env last.1 then .ret (resultOf env last.1)
        else if !last.2 then .fail (.outcomeUnknown notAllLedgers hash)
        else .fail (.expired lastLedger prelim)
      else do
        let now ← .ask .now
        if now > deadline then .fail (.outcomeUnknown "No final result from the XRP Ledger yet." hash)
        else pollRounds url hash firstLedger lastLedger prelim deadline rounds

def confirmOn (signed : Signed) (firstLedger : Option Nat) (lastLedger rounds : Nat) (url : String) :
    XrpM ClientError String := do
  let sub ← .request (.submit url signed.blob) plainly
  let prelim ← .ofExcept (engineResult sub)
  if Rust.startsWith prelim "tem" then .fail (.malformed prelim (engineMessage env sub))
  else do
    let now ← .ask .now
    pollRounds env url signed.hash firstLedger lastLedger prelim (now + 120000) rounds

/-- What `submitAndConfirm` makes of an error of `withClient`; with the first thing that `confirmOn` does, `submitted`
is set. -/
def submitFailure (hash : String) : ClientError × Bool → ClientError
  | (e, submitted) =>
    if e.isFinal || !submitted then e
    else .outcomeUnknown ("The payment was submitted, then no XRP Ledger server could be asked how it ended " ++
      s!"({e.text}).") hash

def submitAndConfirm (signed : Signed) (firstLedger : Option Nat) (lastLedger rounds : Nat) :
    XrpM ClientError String :=
  (withClient (confirmOn env signed firstLedger lastLedger rounds) XRP_RPC_URLS (.plain "undefined") false).mapErr
    (submitFailure signed.hash)

/-! ## The payment -/

/-- `xrpFixed6` -/
def xrpFixed6 (drops : Int) : String :=
  let d := drops.natAbs
  (if drops < 0 then "-" else "") ++ toString (d / 1000000) ++ "." ++
    String.ofList (Js.padZero 6 (toString (d % 1000000)).toList)

/-- `xrpText`: `.replace(/\.?0+$/, "")` of six decimals -/
def xrpText (drops : Int) : String :=
  let kept := ((xrpFixed6 drops).toList.reverse.dropWhile (· == '0')).reverse
  String.ofList (if kept.getLast? = some '.' then kept.dropLast else kept)

def parseXrpRecipient (to_ : String) (typedTag : Option Nat) : Except ClientError (String × Option Nat) :=
  let t := String.ofList (Js.trim to_.toList)
  if env.isValidXAddress t then
    match env.xAddressToClassicAddress t with
    | .error e => .error (.plain e)
    | .ok (classicAddress, embedded, test) =>
      if test then .error (.final s!"\"{t}\" is a TESTNET X-address.")
      else
        match embedded, typedTag with
        | some carried, some typed =>
          if carried ≠ typed then
            .error (.final (s!"This X-address carries destination tag {carried}, which differs from the tag " ++
              s!"entered ({typed})."))
          else .ok (classicAddress, some carried)
        | _, _ => .ok (classicAddress, embedded.or typedTag)
  else if !env.isValidClassicAddress t then
    .error (.final s!"\"{t}\" is not an XRP Ledger address (expected r… or X…).")
  else .ok (t, typedTag)

def LSF_REQUIRE_DEST_TAG : Nat := 0x00020000
def MAX_DESTINATION_TAG : Nat := 0xffffffff

/-- The tag that was typed, where it is a whole number in range. -/
def checkTag : Option Rat → Except ClientError (Option Nat)
  | none => .ok none
  | some t =>
    if t.den = 1 ∧ 0 ≤ t.num ∧ t.num ≤ MAX_DESTINATION_TAG then .ok (some t.num.toNat)
    else .error (.plain "A destination tag is a whole number from 0 to 4294967295.")

/-- The amount in drops. -/
def dropsOf (amount : String) : Except ClientError Int :=
  let drops := match env.xrpToDrops (String.ofList (Js.trim amount.toList)) with
    | .ok text => Js.bigInt text
    | .error _ => none
  match drops with
  | none => .error (.plain s!"\"{amount}\" is not a valid XRP amount (at most 6 decimal places).")
  | some drops => if drops ≤ 0 then .error (.plain "Amount must be greater than zero.") else .ok drops

/-- What is paid, once the arguments are checked. -/
structure Order where
  account : String
  destination : String
  tag : Option Nat
  drops : Int

def checkOrder (privateKey to_ amount : String) (destinationTag : Option Rat) : Except ClientError Order := do
  let key := Js.trim privateKey.toList
  let bare := if "0x".toList.isPrefixOf key then key.drop 2 else key
  let account ← (env.classicAddressOf (String.ofList bare)).mapError .plain
  let typedTag ← checkTag destinationTag
  let (destination, tag) ← parseXrpRecipient env to_ typedTag
  if destination = account then .error (.plain "That is this wallet's own XRP address.")
  else
    let drops ← dropsOf env amount
    return ⟨account, destination, tag, drops⟩

def paymentOf (order : Order) (costs : XrpLedgerCosts) : Payment where
  account := order.account
  destination := order.destination
  amount := toString order.drops
  fee := toString costs.feeDrops
  destinationTag := order.tag

/-- `BigInt(prepared.Fee ?? "0")` -/
def feeOf (prepared : Prepared) : Except ClientError Int :=
  match Js.bigInt (prepared.fee.getD "0") with
  | some fee => .ok fee
  | none => .error (.plain ("Cannot convert " ++ prepared.fee.getD "0" ++ " to a BigInt"))

/-- The checks between the autofill and the signing, with the last ledger that the payment can be in. -/
def checkPrepared (order : Order) (costs : XrpLedgerCosts) (sender : XrpAccount) (recipient : Option XrpAccount)
    (prepared : Prepared) : Except ClientError Nat := do
  let fee ← feeOf prepared
  let locked := costs.reserveBaseDrops + costs.reserveIncDrops * sender.ownerCount
  let spendable := sender.balanceDrops - locked - fee
  if order.drops > spendable then
    .error (.final (s!"You can send at most {xrpText (max spendable 0)} XRP. {xrpText locked} XRP stays locked as " ++
      s!"this account's reserve on the XRP Ledger, and the fee is {xrpText fee} XRP."))
  else if recipient.isNone && order.drops < costs.reserveBaseDrops then
    .error (.final (s!"{order.destination} is not an activated XRP account yet. The XRP Ledger only creates an " ++
      s!"account with a first payment of at least {xrpText costs.reserveBaseDrops} XRP — send at least that, " ++
      "or ask the recipient to activate it first."))
  else if recipient.any (·.flags &&& LSF_REQUIRE_DEST_TAG ≠ 0) && order.tag.isNone then
    .error (.final (s!"{order.destination} requires a destination tag. Exchanges use it to credit your account — " ++
      "enter the tag they gave you."))
  else
    match prepared.lastLedgerSequence with
    | none => .error (.final "Could not set the payment's expiry ledger; nothing was sent.")
    | some lastLedger => .ok lastLedger

/-! ## The send -/

def notActivated : String :=
  "This XRP account is not activated yet: it has never received the 1 XRP minimum, so there is nothing to send."

/-- Check, prepare and sign on one server. -/
def prepareOn (order : Order) (url : String) : XrpM ClientError (Signed × Option Nat × Nat) := do
  let found ← .request (.accounts url order.account order.destination) plainly
  let sender ← .orFail found.sender (.final notActivated)
  let firstLedger ← .request (.ledgerIndex url) plainly
  let prepared ← .request (.autofill url (paymentOf order found.costs)) plainly
  let lastLedger ← .ofExcept (checkPrepared order found.costs sender found.recipient prepared)
  let signed ← .request (.sign prepared) plainly
  return (signed, firstLedger, lastLedger)

/-- The hash of the payment, where it succeeded. -/
def sendTransaction (privateKey to_ amount : String) (destinationTag : Option Rat) (rounds : Nat) :
    XrpM SendError String := do
  let order ← .ofExcept ((checkOrder env privateKey to_ amount destinationTag).mapError .stopped)
  let (signed, firstLedger, lastLedger) ←
    (withClient (prepareOn order) XRP_RPC_URLS (.plain "undefined") false).mapErr fun e => .stopped e.1
  let result ← (submitAndConfirm env signed firstLedger lastLedger rounds).mapErr .stopped
  if result ≠ "tesSUCCESS" then .fail (.refused result signed.hash) else return signed.hash

end

end Xrp
