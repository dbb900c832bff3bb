import PwndaWallet.Lib.Pattern
import PwndaWallet.Lib.Prog
import PwndaWallet.Send.Outcome

/-!
# A Solana send

`submitSolanaTransaction` of `wallets/sol-wallet.ts`: one blockhash, one signature, the same bytes to one endpoint after
the other, and the outcome by signature until it is settled, proven absent, or out of time. What the endpoints answer,
the clock and the signer are answers.
-/

namespace Solana

open Rust SessionSend Tasks Js

/-- The engine; `toNumber` is `Number`, where that is a whole number. -/
structure Library extends Env where
  toNumber : Option Json → Option Int
  stringify : Json → String
  errorText : String → String

/-! ## What a broadcast says -/

inductive BroadcastOutcome where
  | accepted
  | alreadyProcessed
  | rejected (reason : String)
  | unavailable (reason : String)
  | ambiguous (reason : String)
deriving DecidableEq

/-- `.` -/
def anyChar : Pattern := [.char fun c => c ≠ '\n' && c ≠ '\r' && c ≠ '\u2028' && c ≠ '\u2029']

def GATE_REFUSAL : List Pattern := [
  lit "ratelimit", lit "rate" ++ anyChar ++ lit "limit", lit "too many requests", lit "forbidden", lit "unauthorised",
  lit "unauthorized", lit "apikey", lit "api" ++ anyChar ++ lit "key", lit "not allowed", lit "whitelist",
  lit "method not found", lit "not supported", lit "quota", lit "exceeded"]

section

variable (env : Library)

/-- `v === s` -/
def isText (v : Option Json) (s : String) : Bool := v.bind Json.asStr == some s

/-- The text without `/^Transaction simulation failed:\s*/i`, trimmed. -/
def afterSimulation (message : String) : String :=
  let s := message.toList
  let start := "Transaction simulation failed:"
  String.ofList (trim (if matchesAt (lit start) none s then s.drop start.length else s))

def preflightReason (simulated : Option Json) (message : String) : String :=
  if isText simulated "InsufficientFundsForFee" || isText simulated "AccountNotFound" then
    "this address does not hold enough SOL to pay the network fee"
  else if (simulated.bind (·.get "InsufficientFundsForRent")).isSome then
    "it would leave an account holding less than Solana's rent-exempt minimum"
  else
    let reason := afterSimulation message
    if reason ≠ "" then reason else "the node gave no reason"

/-- A reply with an `error` object. -/
def classifyError (gate : Bool) (err : Json) : BroadcastOutcome :=
  let code := env.toNumber (err.get "code")
  let message := ((err.get "message").bind Json.asStr).getD ""
  let simulated := prop (prop (some err) "data") "err"
  if code = some (-32002) then
    if isText simulated "BlockhashNotFound" || test [lit "blockhash not found"] message.toList then
      .unavailable "this node does not know the blockhash yet"
    else if isText simulated "AlreadyProcessed" || test [lit "already been processed"] message.toList then
      .alreadyProcessed
    else .rejected (preflightReason simulated message)
  else
    let said := if message ≠ "" then message
      else "JSON-RPC error " ++ ((err.get "code").map env.toText).getD "undefined"
    if code = some (-32003) ∨ code = some (-32013) ∨ code = some (-32602) then .rejected said
    else if code = some (-32005) ∨ code = some (-32601) ∨ code = some 429 ∨ code = some (-32429) ∨
        test GATE_REFUSAL message.toList then
      .unavailable said
    else if gate then .unavailable said
    else .ambiguous said

/-- `json?.error`, if it is an object. -/
def errorOf (json : Json) : Option Json :=
  match prop (some json) "error" with
  | some (.obj e) => some (.obj e)
  | some (.arr e) => some (.arr e)
  | _ => none

def classifyBroadcastResponse (httpStatus : Nat) (body : String) : BroadcastOutcome :=
  let gate := 400 ≤ httpStatus && httpStatus < 500
  match env.jsonParse body with
  | none =>
    if gate then .unavailable s!"HTTP {httpStatus}" else .ambiguous s!"HTTP {httpStatus}, and the reply was not JSON"
  | some json =>
    if ((prop (some json) "result").bind Json.asStr).isSome ∧ 200 ≤ httpStatus ∧ httpStatus < 300 then .accepted
    else
      match errorOf json with
      | none =>
        if gate then .unavailable s!"HTTP {httpStatus}"
        else .ambiguous s!"HTTP {httpStatus}, with neither a signature nor an error"
      | some err => classifyError env gate err

/-- A failed transaction's error, in words. -/
def txErrorText (err : Json) : String :=
  match err with
  | .str s => s
  | err =>
    match err.get "InstructionError" with
    | some (.arr ie) =>
      let what := match ie[1]? with
        | some (.str detail) => detail
        | some detail =>
          match detail.get "Custom" with
          | some code => s!"custom program error {env.toText code}"
          | none => env.stringify detail
        | none => "undefined"
      let index := ((ie[0]?).map env.toText).getD "undefined"
      s!"instruction {index} failed: {what}"
    | _ =>
      if (err.get "InsufficientFundsForRent").isSome then
        "an account would have been left below Solana's rent-exempt minimum"
      else env.stringify err

/-! ## What is asked -/

structure Response where
  status : Nat
  body : String
deriving DecidableEq

structure SignatureStatus where
  confirmationStatus : Option String
  /-- none where the slot is rooted -/
  confirmations : Option Nat
  err : Option Json

structure StatusAnswer where
  slot : Nat
  status : Option SignatureStatus

structure EpochInfo where
  absoluteSlot : Nat
  blockHeight : Option Nat

structure SignedSolanaTransaction where
  wire : String
  signature : String
deriving DecidableEq

inductive SolOp where
  | latestBlockhash
  | sign (blockhash : String) (lastValidBlockHeight : Nat)
  | broadcast (url wire : String)
  | statuses (url signature : String) (searchHistory : Bool)
  | epochInfo (url : String)
  | now
  | sleep (ms : Int)

abbrev SolOp.Ans : SolOp → Type
  | .latestBlockhash => Except String (String × Nat)
  | .sign _ _ => Except String SignedSolanaTransaction
  | .broadcast _ _ => Except String Response
  | .statuses _ _ _ => Except String StatusAnswer
  | .epochInfo _ => Except String EpochInfo
  | .now => Int
  | .sleep _ => Unit

inductive SendError where
  | plain (text : String)
  | failedOnChain (text signature : String)
  | expired (text signature : String)
  | outcomeUnknown (message signature : String)
deriving DecidableEq

structure TxResult where
  hash : String
  pending : Bool
deriving DecidableEq

abbrev SolM (ε α : Type) := Prog SolOp SolOp.Ans ε α

structure Timing where
  pollIntervalMs : Int := 2000
  rebroadcastEveryMs : Int := 6000
  budgetMs : Int := 120000

def STATUS_CACHE_TRUSTED_BLOCKS : Nat := 100

/-- `broadcastOnce`: a request that fails may have been forwarded. -/
def outcomeOf : Except String Response → BroadcastOutcome
  | .error e => .ambiguous (env.errorText e)
  | .ok res => classifyBroadcastResponse env res.status res.body

/-! ## One look -/

inductive Verdict where
  | settled (err : Option Json)
  | inBlock
  | pending
  | expired
  | inconclusive

def statusVerdict (s : SignatureStatus) : Verdict :=
  if s.confirmationStatus = some "confirmed" ∨ s.confirmationStatus = some "finalized" ∨ s.confirmations = none then
    .settled s.err
  else .inBlock

def decideAbsent (finalizedSlot : Nat) (r : StatusAnswer) : Verdict :=
  match r.status with
  | some s => statusVerdict s
  | none => if r.slot ≥ finalizedSlot then .expired else .inconclusive

def proveAbsent (url signature : String) (finalizedSlot blocksPast : Nat) : SolM String Verdict :=
  .call (.statuses url signature true) fun
    | .ok r => .ret (decideAbsent finalizedSlot r)
    | .error _ =>
      if blocksPast > STATUS_CACHE_TRUSTED_BLOCKS then .ret .inconclusive
      else
        .call (.statuses url signature false) fun
          | .ok r => .ret (decideAbsent finalizedSlot r)
          | .error e => .fail e

def checkOnce (url signature : String) (lastValidBlockHeight : Nat) : SolM String Verdict :=
  .call (.statuses url signature false) fun
    | .error e => .fail e
    | .ok ⟨_, some s⟩ => .ret (statusVerdict s)
    | .ok ⟨_, none⟩ =>
      .call (.epochInfo url) fun
        | .error e => .fail e
        | .ok ⟨_, none⟩ => .fail s!"{url} reported no block height"
        | .ok ⟨absoluteSlot, some blockHeight⟩ =>
          if blockHeight ≤ lastValidBlockHeight then .ret .pending
          else proveAbsent url signature absoluteSlot (blockHeight - lastValidBlockHeight)

/-! ## Delivering -/

/-- What the first round of broadcasts comes to. -/
structure Delivery where
  accepted : Bool
  maybeSent : Bool
  acceptedAt : Option Nat
  lateRefusal : Option String
  unavailable : List String

def firstDelivery (wire : String) (deadline : Int) : List String → Nat → Bool → List String → SolM SendError Delivery
  | [], _, maybeSent, unavailable => .ret ⟨false, maybeSent, none, none, unavailable⟩
  | url :: urls, i, maybeSent, unavailable =>
    .call .now fun now =>
      if ¬ now < deadline then .ret ⟨false, maybeSent, none, none, unavailable⟩
      else
        .call (.broadcast url wire) fun r =>
          match outcomeOf env r with
          | .accepted | .alreadyProcessed => .ret ⟨true, maybeSent, some i, none, unavailable⟩
          | .rejected reason =>
            if maybeSent then .ret ⟨false, maybeSent, none, some reason, unavailable⟩
            else .fail (.plain s!"Solana refused this transaction before sending it: {reason}. Nothing was sent.")
          | .unavailable reason => firstDelivery wire deadline urls (i + 1) maybeSent (unavailable ++ [s!"  {url}: {reason}"])
          | .ambiguous _ => firstDelivery wire deadline urls (i + 1) true unavailable

structure Waiting where
  accepted : Bool
  seen : Bool
  cursor : Nat
  resendCursor : Nat
  resendAt : Int

def isTaken : BroadcastOutcome → Bool
  | .accepted | .alreadyProcessed => true
  | _ => false

/-- Out of time with no verdict. -/
def giveUp (signature : String) (s : Waiting) : SolM SendError TxResult :=
  if s.accepted || s.seen then .ret ⟨signature, true⟩
  else
    .fail (.outcomeUnknown ("No Solana endpoint confirmed receiving this transaction, and its status could not be " ++
      "read before the wallet stopped waiting.") signature)

def expiredText (signature : String) (lateRefusal : Option String) : String :=
  "Solana did not include this transaction before its blockhash expired, so it can no longer land. Nothing moved and " ++
    s!"no fee was charged; it is safe to send again. Signature: {signature}" ++
    ((lateRefusal.filter (· ≠ "")).map fun r => s!" (An endpoint had refused it: {r}.)").getD ""

def failedText (signature : String) (err : Json) : String :=
  s!"The transaction was recorded on Solana but failed ({txErrorText env err}). The network fee was charged; nothing " ++
    s!"was transferred. Signature: {signature}"

/-- The loop over the looks, of which so many are followed. -/
def awaitOutcome (timing : Timing) (order : List String) (tx : SignedSolanaTransaction) (lastValidBlockHeight : Nat)
    (deadline : Int) (lateRefusal : Option String) : Nat → Waiting → SolM SendError TxResult
  | 0, _ => .cut
  | looks + 1, s =>
    let again := awaitOutcome timing order tx lastValidBlockHeight deadline lateRefusal looks
    .call .now fun now =>
      if ¬ now < deadline then giveUp tx.signature s
      else
        .call .now fun now =>
          .call (.sleep (min timing.pollIntervalMs (deadline - now))) fun _ =>
            (checkOnce (order.getD (s.cursor % order.length) "") tx.signature lastValidBlockHeight).handle fun
              | .error _ => again { s with cursor := s.cursor + 1 }
              | .ok (.settled err) =>
                match err.filter (isTruthy env.toEnv) with
                | some err => .fail (.failedOnChain (failedText env tx.signature err) tx.signature)
                | none => .ret ⟨tx.signature, false⟩
              | .ok .expired => .fail (.expired (expiredText tx.signature lateRefusal) tx.signature)
              | .ok .inBlock => again { s with seen := true }
              | .ok .inconclusive => again { s with cursor := s.cursor + 1 }
              | .ok .pending =>
                if s.seen then again s
                else
                  .call .now fun now =>
                    if now ≥ s.resendAt then
                      .call (.broadcast (order.getD (s.resendCursor % order.length) "") tx.wire) fun r =>
                        .call .now fun now =>
                          again { s with
                            accepted := s.accepted || isTaken (outcomeOf env r)
                            resendCursor := s.resendCursor + 1
                            resendAt := now + timing.rebroadcastEveryMs }
                    else again s

def deliverSignedTransaction (timing : Timing) (order : List String) (tx : SignedSolanaTransaction)
    (lastValidBlockHeight looks : Nat) : SolM SendError TxResult :=
  .call .now fun now =>
    let deadline := now + timing.budgetMs
    (firstDelivery env tx.wire deadline order 0 false []).bind fun first =>
      if first.accepted = false ∧ first.maybeSent = false then
        .fail (.plain ("No Solana endpoint would take the transaction right now. Nothing was sent; try again in a " ++
          "moment.\n" ++ "\n".intercalate first.unavailable))
      else
        .call .now fun now =>
          let cursor := first.acceptedAt.getD 0
          awaitOutcome env timing order tx lastValidBlockHeight deadline first.lateRefusal looks
            ⟨first.accepted, false, cursor, cursor + 1, now + timing.rebroadcastEveryMs⟩

def submitSolanaTransaction (timing : Timing) (order : List String) (looks : Nat) : SolM SendError TxResult :=
  .call .latestBlockhash fun
    | .error e => .fail (.plain e)
    | .ok (blockhash, lastValidBlockHeight) =>
      .call (.sign blockhash lastValidBlockHeight) fun
        | .error e => .fail (.plain e)
        | .ok tx => deliverSignedTransaction env timing order tx lastValidBlockHeight looks

end

end Solana
