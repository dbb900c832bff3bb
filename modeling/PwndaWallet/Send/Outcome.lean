import PwndaWallet.Lib.Json
import PwndaWallet.Lib.Poll

/-!
# Sends from a swap session

`executeStellarTransfer` and `executeSuiTransfer` of `features/swap/session-send.ts`, from the signing on, with the
GraphQL reads of `wallets/sui-wallet.ts`. What Horizon and Sui answer and what the clock shows are parameters, and so
are the libraries that build the transactions.
-/

namespace SessionSend

open Rust

/-- What the engine computes: `JSON.parse`, `String(v)` of a value, whether the text of a number with a fraction or an
exponent is zero, and `Date.parse`, without its `NaN`. -/
structure Env where
  jsonParse : String → Option Json
  toText : Json → String
  isZero : String → Bool
  dateParse : String → Option Int

def POLL_MS : Int := 3000
def STELLAR_LEDGER_MARGIN_SECS : Int := 30
def STELLAR_GRACE_MS : Int := 60000
def SUI_LOOKUP_MS : Int := 30000

/-! ## Outcomes -/

inductive SendError where
  | early (text : String)
  | keyMismatch (chain shown signer : String)
  | badSignature
  | stellarRejected (detail : String)
  | stellarFailed (detail : Option String) (hash : String)
  | stellarExpired (hash : String)
  | suiFailed (detail digest : String)
  | outcomeUnknown (message : String) (hash : String)
deriving DecidableEq

def shortAddress (a : String) : String :=
  if a.length > 12 then String.ofList (a.toList.take 6) ++ "…" ++ String.ofList (a.toList.drop (a.length - 4)) else a

def SendError.text : SendError → String
  | .early text => text
  | .keyMismatch chain shown signer =>
    s!"Sending from this {chain} wallet isn't supported yet. It shows {shortAddress shown}, " ++
      s!"but this wallet can only sign for {shortAddress signer}, your recovery phrase's " ++
      s!"standard {chain} account. A {chain} wallet imported from a private key, or at " ++
      "another derivation path, cannot send from here yet. Nothing was signed."
  | .badSignature => "The Stellar signature does not verify for this transaction. Nothing was sent."
  | .stellarRejected detail =>
    (if detail = "" then "Stellar rejected the transaction" else s!"Stellar rejected the transaction ({detail})") ++
      ". Nothing was sent."
  | .stellarFailed none hash =>
    s!"Stellar included the transaction but it failed. Only the network fee was spent. Hash: {hash}"
  | .stellarFailed (some detail) hash =>
    s!"Stellar included the transaction but it failed ({detail}). Only the network fee was spent. Hash: {hash}"
  | .stellarExpired hash =>
    "The Stellar transaction did not reach a ledger before its time limit, so it can no longer go " ++
      s!"through. Nothing was sent; it is safe to send again. Hash: {hash}"
  | .suiFailed detail digest =>
    s!"Sui ran the transaction and it failed ({detail}). The gas fee was spent; " ++
      s!"the amount was not sent. Digest: {digest}"
  | .outcomeUnknown message _ => message

/-- What a send comes to, with the bytes that were submitted on the way, in their order, how often Rust was asked to
sign, and how many rounds of polling there were. -/
structure Sent (β : Type) where
  submitted : List β
  signings : Nat
  polls : Nat
  outcome : Except SendError String

/-! ## JSON -/

section

variable (env : Env)

def isTruthy : Json → Bool
  | .null => false
  | .bool b => b
  | .int n => n != 0
  | .float text => !env.isZero text
  | .str s => s != ""
  | .arr _ => true
  | .obj _ => true

/-- `v?.key`, and `undefined` and `null` are none. -/
def prop (v : Option Json) (key : String) : Option Json :=
  match v.bind (·.get key) with
  | some .null => none
  | found => found

structure Response where
  status : Nat
  contentType : Option String
  body : String

/-- A request is answered, or fails with a text. -/
abbrev Reply := Except String Response

def Response.ok (r : Response) : Bool := 200 ≤ r.status && r.status < 300

/-- `/json/i.test(type)` -/
def saysJson (type : String) : Bool := Rust.hasInfix (type.toList.map Char.toLower) "json".toList

/-- `readJsonBody`, of which every caller asks whether it is truthy. -/
def readJsonBody (r : Response) : Option Json :=
  if saysJson (r.contentType.getD "") then (env.jsonParse r.body).filter (isTruthy env) else none

/-! ## Stellar -/

/-- The answers and the clock of a Stellar send; the rounds of the polling are numbered. -/
structure Horizon where
  submit : String → Reply
  ledger : Nat → Reply
  lookup : Nat → Reply
  entered : Int
  now : Nat → Int

/-- A transaction as it is built: what Rust signs, its hash and its time bound. -/
structure Prepared where
  txXdr : String
  hash : String
  maxTime : Nat

structure SignedStellar where
  publicKey : String
  hint : String
  signature : String

/-- What comes before the submit: everything up to the built transaction, Rust, and the library. -/
structure StellarSigner where
  prepare : Except String Prepared
  sign : String → Except String SignedStellar
  accountOf : SignedStellar → Except String String
  verifies : SignedStellar → String → Except String Bool
  envelope : String → SignedStellar → Except String String

/-- The parts of the detail, without those that are falsy. -/
def rejectionDetail (body : Json) : String :=
  let codes := prop (prop (some body) "extras") "result_codes"
  let txCode := (prop codes "transaction").getD (.str "")
  let opCodes := match prop codes "operations" with
    | some (.arr xs) => ",".intercalate (xs.map fun x => if x matches .null then "" else env.toText x)
    | _ => ""
  let detail := " ".intercalate (([txCode, .str opCodes].filter (isTruthy env)).map env.toText)
  if detail ≠ "" then detail else env.toText ((prop (some body) "title").getD (.str ""))

def isTxFailed (body : Json) : Bool :=
  match prop (prop (prop (some body) "extras") "result_codes") "transaction" with
  | some (.str code) => code == "tx_failed"
  | _ => false

def stellarRejection (body : Json) (hash : String) : SendError :=
  if isTxFailed body then .stellarFailed (some (rejectionDetail env body)) hash
  else .stellarRejected (rejectionDetail env body)

/-- The close time of Horizon's latest ledger, in milliseconds, where it is known. -/
def closedAtMs : Reply → Option Int
  | .error _ => none
  | .ok r =>
    if r.ok then
      match prop (readJsonBody env r) "history_latest_ledger_closed_at" with
      | some (.str at') => env.dateParse at'
      | _ => none
    else none

def horizonLatestLedgerSecs (r : Reply) : Option Int := (closedAtMs env r).map (· / 1000)

inductive StellarLookup where
  | success | failed | missing
  | error (e : String)
deriving DecidableEq

def lookupStellarTx : Reply → StellarLookup
  | .error e => .error e
  | .ok r =>
    if r.status = 404 then .missing
    else
      match r.ok, (readJsonBody env r).bind (·.get "successful") with
      | true, some (.bool b) => if b then .success else .failed
      | _, _ => .error s!"HTTP {r.status} looking the transaction up"

def stellarDeadline (hz : Horizon) (maxTime : Nat) : Int := max hz.entered (maxTime * 1000) + STELLAR_GRACE_MS

def isPast (closedAt : Option Int) (maxTime : Nat) : Bool :=
  maxTime > 0 && closedAt.any fun c => decide (c > maxTime + STELLAR_LEDGER_MARGIN_SECS)

/-- The rest of a round whose lookup finds no outcome: the time bound, then the deadline. -/
def stillOpen (missing : Bool) (closedAt : Option Int) (hash : String) (maxTime : Nat) (why : String) (late : Bool) :
    Option (Except SendError String) :=
  if missing && isPast closedAt maxTime then some (.error (.stellarExpired hash))
  else if late then
    some (.error (.outcomeUnknown (s!"Stellar has not confirmed the transaction ({why}). " ++
      "It could still go through until its time limit passes.") hash))
  else none

/-- A round of `settleStellarByHash`: the ledger's clock first, then the lookup. -/
def settleStellarRound (hz : Horizon) (hash : String) (maxTime : Nat) (why : String) (n : Nat) :
    Option (Except SendError String) :=
  let closedAt := horizonLatestLedgerSecs env (hz.ledger n)
  let late := decide (hz.now n ≥ stellarDeadline hz maxTime)
  match lookupStellarTx env (hz.lookup n) with
  | .success => some (.ok hash)
  | .failed => some (.error (.stellarFailed none hash))
  | .missing => stillOpen true closedAt hash maxTime why late
  | .error _ => stillOpen false closedAt hash maxTime why late

/-- `body.successful === false` -/
def saysUnsuccessful (body : Json) : Bool :=
  match body.get "successful" with
  | some (.bool false) => true
  | _ => false

/-- What the answer to the submit decides, or why it decides nothing. -/
def judgeSubmit (hash : String) : Reply → Except String (Except SendError String)
  | .error e => .error s!"the submit did not complete: {e}"
  | .ok r =>
    match readJsonBody env r with
    | some body =>
      if r.ok && !saysUnsuccessful body then .ok (.ok hash)
      else if r.status = 400 then .ok (.error (stellarRejection env body hash))
      else .error s!"Horizon answered HTTP {r.status}"
    | none => .error s!"Horizon answered HTTP {r.status} without a JSON body"

/-- A decision, or at most this many rounds of polling; with the number of rounds. -/
def settled (judged : Except String (Except SendError String)) (round : String → Nat → Option (Except SendError String))
    (rounds : Nat) : Option (Nat × Except SendError String) :=
  match judged with
  | .ok decided => some (0, decided)
  | .error why => (Poll.run (round why) rounds 0).map fun r => (r.1 + 1, r.2)

def submitStellar (hz : Horizon) (envelopeB64 hash : String) (maxTime rounds : Nat) :
    Option (Nat × Except SendError String) :=
  settled (judgeSubmit env hash (hz.submit envelopeB64)) (settleStellarRound env hz hash maxTime) rounds

/-- The envelope that is ready to be submitted, with its hash and its time bound. -/
def sealStellar (signer : StellarSigner) (shown : String) : Except SendError (Prepared × String) :=
  (signer.prepare.mapError .early).bind fun tx =>
    ((signer.sign tx.txXdr).mapError .early).bind fun signed =>
      ((signer.accountOf signed).mapError .early).bind fun account =>
        if account ≠ shown then .error (.keyMismatch "Stellar" shown account)
        else
          ((signer.verifies signed tx.hash).mapError .early).bind fun good =>
            if !good then .error .badSignature
            else ((signer.envelope tx.txXdr signed).mapError .early).map fun envelope => (tx, envelope)

/-- The signings of a send: none if it does not get that far. -/
def stellarSignings (signer : StellarSigner) : Nat := if signer.prepare.toOption.isSome then 1 else 0

def executeStellarTransfer (signer : StellarSigner) (hz : Horizon) (shown : String) (rounds : Nat) :
    Option (Sent String) :=
  match sealStellar signer shown with
  | .error e => some ⟨[], stellarSignings signer, 0, .error e⟩
  | .ok (tx, envelope) =>
    (submitStellar env hz envelope tx.hash tx.maxTime rounds).map fun r =>
      ⟨[envelope], stellarSignings signer, r.1, r.2⟩

/-! ## Sui -/

inductive ProxyReply where
  | failed (e : String)
  | http (status : Nat) (body : String)

/-- The texts of a GraphQL answer's errors, joined; none if it is not a list of objects. -/
def joinMessages (errors : List Json) : Option String :=
  if errors.any (· matches .null) then none
  else some ("; ".intercalate (errors.map fun e => ((prop (some e) "message").map env.toText).getD ""))

/-- What an endpoint's answer comes to: its data, a failure after which the next one is asked, or a `TypeError`. -/
inductive Judged where
  | data (d : Json)
  | failure (text : String)
  | typeError (text : String)

/-- `parsed.errors?.length` is truthy. -/
def judgeErrors (url : String) (parsed : Json) : Option Judged :=
  match prop (some parsed) "errors" with
  | some (.arr (e :: es)) =>
    match joinMessages env (e :: es) with
    | some text => some (.failure s!"{url}: {text}")
    | none => some (.typeError "Cannot read properties of null (reading 'message')")
  | some (.str text) => if text = "" then none else some (.typeError "parsed.errors.map is not a function")
  | some (.obj fields) =>
    if ((Json.obj fields).get "length").any (isTruthy env) then some (.typeError "parsed.errors.map is not a function")
    else none
  | _ => none

def judgeGraphQL (url : String) : ProxyReply → Judged
  | .failed e => .failure s!"{url}: {e}"
  | .http status body =>
    let start := String.ofList (body.toList.take 120)
    if status < 200 ∨ status ≥ 300 then .failure s!"{url}: HTTP {status} {start}"
    else
      match env.jsonParse body with
      | none => .failure s!"{url}: unparseable body {start}"
      | some .null => .typeError "Cannot read properties of null (reading 'errors')"
      | some parsed =>
        match judgeErrors env url parsed, prop (some parsed) "data" with
        | some judged, _ => judged
        | none, none => .failure s!"{url}: 200 but no data"
        | none, some d => .data d

/-- The endpoints that are asked, in turn, and what the query comes to. -/
def suiGraphQL (reply : String → ProxyReply) (total : Nat) : List String → List String → List String × Except String Json
  | failures, [] =>
    let joined := " | ".intercalate failures
    ([], .error s!"Sui GraphQL failed on all {total} endpoint(s): {joined}")
  | failures, url :: rest =>
    match judgeGraphQL env url (reply url) with
    | .data d => ([url], .ok d)
    | .typeError text => ([url], .error text)
    | .failure text =>
      let r := suiGraphQL reply total (failures ++ [text]) rest
      (url :: r.1, r.2)

inductive SuiStatus where
  | success | failure
deriving DecidableEq

def suiStatus (effects : Option Json) : Option SuiStatus :=
  match prop effects "status" with
  | some (.str status) => if status = "SUCCESS" then some .success else if status = "FAILURE" then some .failure else none
  | _ => none

def suiErrorMessage (effects : Option Json) : Option String := (prop (prop effects "executionError") "message").bind Json.asStr

/-- The answers and the clock of a Sui send. -/
structure SuiNet where
  endpoints : List String
  submit : String → ProxyReply
  effects : Nat → String → ProxyReply
  entered : Int
  now : Nat → Int

/-- The endpoints that got the bytes, and the effects they name. -/
def executeSuiTransaction (net : SuiNet) : List String × Except String (Option Json) :=
  let r := suiGraphQL env net.submit net.endpoints.length [] net.endpoints
  (r.1, r.2.map fun d => prop (prop (some d) "executeTransaction") "effects")

/-- The status and the error of a transaction, where Sui has it. -/
def suiTransactionStatus (net : SuiNet) (n : Nat) : Except String (Option (SuiStatus × Option String)) :=
  (suiGraphQL env (net.effects n) net.endpoints.length [] net.endpoints).2.bind fun d =>
    match prop (some d) "transactionEffects" with
    | none => .ok none
    | some fx =>
      match suiStatus (some fx) with
      | none => .error "Sui returned effects with no status"
      | some status => .ok (some (status, (suiErrorMessage (some fx)).filter (· ≠ "")))

/-- A round of `settleSuiByDigest`; a read that fails is as one that finds nothing. -/
def settleSuiRound (net : SuiNet) (digest why : String) (n : Nat) : Option (Except SendError String) :=
  match suiTransactionStatus env net n with
  | .ok (some (.success, _)) => some (.ok digest)
  | .ok (some (.failure, error)) => some (.error (.suiFailed (error.getD "FAILURE") digest))
  | _ =>
    if net.now n ≥ net.entered + SUI_LOOKUP_MS then
      some (.error (.outcomeUnknown s!"Sui has not confirmed the transaction (the node answered: {why})." digest))
    else none

structure SignedSui where
  signature : String
  publicKey : String

structure SuiSigner where
  prepare : Except String (String × String)
  sign : String → Except String SignedSui
  addressOf : SignedSui → Except String String

/-- The bytes and the signature that are ready to be submitted, and the digest of the bytes. -/
def sealSui (signer : SuiSigner) (shown : String) : Except SendError ((String × String) × String) :=
  (signer.prepare.mapError .early).bind fun tx =>
    ((signer.sign tx.1).mapError .early).bind fun signed =>
      ((signer.addressOf signed).mapError .early).bind fun address =>
        if Rust.toAsciiLowercase address ≠ shown then .error (.keyMismatch "Sui" shown address)
        else .ok ((tx.1, signed.signature), tx.2)

def suiSignings (signer : SuiSigner) : Nat := if signer.prepare.toOption.isSome then 1 else 0

/-- What the answer to the submit decides, or why it decides nothing. -/
def judgeSuiSubmit (digest : String) : Except String (Option Json) → Except String (Except SendError String)
  | .error e => .error e
  | .ok effects =>
    match suiStatus effects with
    | some .failure => .ok (.error (.suiFailed ((suiErrorMessage effects).getD "FAILURE") digest))
    | some .success => .ok (.ok digest)
    | none => .error "the answer named no outcome"

def executeSuiTransfer (signer : SuiSigner) (net : SuiNet) (shown : String) (rounds : Nat) :
    Option (Sent (String × String)) :=
  match sealSui signer shown with
  | .error e => some ⟨[], suiSignings signer, 0, .error e⟩
  | .ok (bytes, digest) =>
    let sent := executeSuiTransaction env net
    (settled (judgeSuiSubmit digest sent.2) (settleSuiRound env net digest) rounds).map fun r =>
      ⟨sent.1.map fun _ => bytes, suiSignings signer, r.1, r.2⟩

end

end SessionSend
