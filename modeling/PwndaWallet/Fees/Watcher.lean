import PwndaWallet.Fees.Ledger

/-!
# The fee watcher

One pass of the watcher and what it does about one bid (`sidecar_fees/mod.rs`), with the withdraw
that pays a fee (`sidecar_fees/settle.rs`).
-/

namespace Fees

open Rust Tasks Tasks.Fs Bridge

inductive Mode where
  | off
  | dark
  | live

inductive Pass where
  | nodeDown
  | locked
  | swept (open_ : Nat)

/-- `SWEEP_ENDPOINTS` -/
def sweepEndpoints : List String := ["sentbids"]

/-- `MAX_DEFER_TRIES` -/
def maxDeferTries : Nat := 96

/-- The path of a bid's detail. -/
def bidPath (bidId : String) : String := s!"bids/{bidId}"

def isLockedRefusal (body : Json) : Bool := (body.get "locked").bind Json.asBool == some true

def sweepBidId (v : Json) : Option String :=
  (((v.get "bid_id").bind Json.asStr).or ((v.get "bidId").bind Json.asStr)).bind fun raw =>
    (safeId raw).toOption

def normalizeCoinLabel (s : String) : String :=
  String.ofList ((s.toList.filter Char.isAlphanum).map Char.toLower)

def bidCoinMatches (label coin : String) : Bool :=
  let n := normalizeCoinLabel label
  n == coin || coin == "litecoin" && n == "litecoinmweb" || coin == "particl" && n == "particlblind" ||
    coin == "particl" && n == "particlanon"

/-- The amount of the coin's own leg in a row, if it has one. -/
def ownLeg (row : Json) (coin : String) : Option String :=
  let leg (coinKey amountKey : String) : Option String := do
    let name ← (row.get coinKey).bind Json.asStr
    if bidCoinMatches name coin then (row.get amountKey).bind Json.asStr else none
  (leg "coin_from" "amount_from").or (leg "coin_to" "amount_to")

def reserveForActiveSwaps (v : Json) (coin : String) (txCost : Nat) : Option Nat := do
  let rows ← v.asArray
  rows.foldlM (fun total row =>
    match ownLeg row coin with
    | none => some total
    | some amount => do
      let parsed ← (parseAmount amount).toOption
      return saturatingAdd (saturatingAdd total parsed) txCost) 0

section
variable (h : Host)

def deferralPending (until_ : String) (now : Int) : Bool :=
  match h.parseRfc3339 (trim until_) with
  | .ok t => t > now
  | .error _ => false

def deferUntil (backoff : Nat) : FeeProg String := do
  let now ← .ask .now
  return h.toRfc3339 (now + backoff * 1000000000)

def nowText : FeeProg String := do
  let now ← .ask .now
  return h.toRfc3339 now

/-! ## The money path -/

/-- The end of `api_post_privileged`, for the fee of a bid. -/
def apiPostPrivileged (bid path : String) (body : Json) : FeeProg Json := do
  .ofExcept (assertPrivilegedPath path)
  .request (.post bid path body) fun r => r.result h.parseJson

def executeSharedWithdrawWith (bid ticker address amount : String) : FeeProg String := do
  let body ← .ofExcept (sharedWithdrawBody h.parsedF64 address amount)
  let path ← .ofExcept (privilegedWalletPath ticker "withdraw")
  let v ← apiPostPrivileged h bid path body
  .ofExcept (extractTxid h.printJson v)

def settleWith (bid ticker : String) (amount : Nat) : FeeProg String := do
  .ensure (amount != 0) "refusing to send a zero-value fee"
  let address ← .orFail (feeAddressFor ticker) s!"no fee address is compiled in for {ticker}"
  executeSharedWithdrawWith h bid ticker address (formatAmount amount)

/-! ## One bid -/

def parseWalletBalance (v : Json) : Option Nat :=
  if (v.get "error").isSome then none
  else if (v.get "syncing").bind Json.asBool == some true then none
  else if (v.get "locked").bind Json.asBool == some true then none
  -- below 100 the balance is a partial view
  else if ((v.get "synced").map h.below100).getD false then none
  else
    (v.get "balance").bind fun b =>
      match b.asStr with
      | some s => (parseAmount s).toOption
      | none => h.balanceF64 b

def availableBalance (ticker : String) : FeeProg (Option Nat) :=
  .request (.api s!"wallets/{ticker}" false) fun r => .ok (r.toOption.bind (parseWalletBalance h))

def activeSwapReserve (ticker : String) : FeeProg (Option Nat) :=
  match coinKeyFrom ticker, rowFor ticker with
  | some coin, some row =>
    .request (.api "active" false) fun r => .ok (r.toOption.bind fun v => reserveForActiveSwaps v coin row.txCost)
  | _, _ => .ret none

/-- The record of a bid whose withdraw was refused or put off. -/
def closeOrDefer (rec : FeeRecord) (ticker : String) (amount tries : Nat) (why : String) (backoff : Nat) :
    FeeProg Unit := do
  if tries + 1 ≥ maxDeferTries then
    write h { rec with
      state := .noFee "deferredExpired"
      detail := s!"gave up after {tries + 1} attempts; last reason: {why}" }
  else
    let until_ ← deferUntil h backoff
    write h { rec with
      state := .deferred ticker amount until_ (tries + 1)
      detail := s!"{why} — next check after {until_}" }

/-- What the withdraw's end makes of the record. -/
def outcomeOf (rec : FeeRecord) (ticker : String) (amount tries : Nat) :
    Except String String → FeeProg FeeRecord
  | .ok txid => do
    let at_ ← nowText h
    return { rec with state := .paid ticker amount txid at_, detail := "" }
  | .error e =>
    if isTransportFailure e then
      return { rec with
        state := .indeterminate ticker amount (s!"the withdraw request was sent but its reply was lost" ++
          s!" ({e}); outcome unknown. NOT retried — check the wallet for a matching payment.")
        detail := "" }
    else do
      let until_ ← deferUntil h deferBackoff
      return { rec with
        state := .deferred ticker amount until_ (tries + 1)
        detail := s!"withdraw refused: {e} — next check after {until_}" }

/-- The attempt marker, the withdraw, and its outcome. -/
def collect (rec : FeeRecord) (ticker : String) (amount tries : Nat) : FeeProg Unit := do
  let at_ ← nowText h
  let marked := { rec with state := .attempting ticker amount at_ }
  write h marked
  let settled ← (settleWith h rec.bidId ticker amount).attempt
  let closed ← outcomeOf h marked ticker amount tries settled
  write h closed

def triesOf (rec : FeeRecord) : Nat :=
  match rec.state with
  | .deferred _ _ _ tries => tries
  | _ => 0

def act (m : Mode) (rec : FeeRecord) (bid : SettledBid) (createdAt : Option Int) (baseline : Int) :
    FeeProg Unit :=
  match classifyAge createdAt baseline with
  | .preexisting => write h { rec with
      state := .noFee "preexisting"
      detail := "created before this wallet first watched for fees" }
  | .unknown => write h { rec with
      state := .noFee "unknownAge"
      detail := "no creation time in the payload; cannot prove it is not preexisting" }
  | .fresh =>
    match decide bid with
    | .skip .notSettled => .ret ()
    | .skip reason => write h { rec with state := .noFee (skipLabel reason) }
    | .charge ticker amount _ notional =>
      match m with
      | .dark => do
        let at_ ← nowText h
        write h { rec with
          state := .observed ticker amount notional at_
          detail := "dark run — priced, not collected" }
      | _ => do
        let balance ← availableBalance h ticker
        let inFlight ← activeSwapReserve ticker
        match preSettleGate ticker amount balance inFlight with
        | .defer why backoff => closeOrDefer h rec ticker amount (triesOf rec) why backoff
        | .proceed => collect h rec ticker amount (triesOf rec)

/-! ## One pass -/

/-- The object that carries the bid: the detail itself, or what it nests. -/
def carrier (detail : Json) (bidId : String) : Option Json :=
  if (parseBidFor detail bidId).isSome then some detail
  else (detail.get "bid").filter fun inner => (parseBidFor inner bidId).isSome

def resolve (m : Mode) (baseline now : Int) (rec : FeeRecord) : FeeProg Unit := do
  let waits := match rec.state with
    | .deferred _ _ until_ _ => deferralPending h until_ now
    | _ => false
  if waits then return ()
  let detail ← .request (.api (bidPath rec.bidId) false) fun r => .ok r.toOption
  match detail.bind fun d => carrier d rec.bidId with
  | none => return ()
  | some src =>
    match parseBidFor src rec.bidId with
    | none => return ()
    | some bid => act h m rec bid (parseCreatedAt src) baseline

def resolveEach (m : Mode) (baseline now : Int) : List FeeRecord → FeeProg Unit
  | [] => .ret ()
  | rec :: rest => do
    resolve h m baseline now rec
    resolveEach m baseline now rest

def sweepRows : List Json → FeeProg Unit
  | [] => .ret ()
  | row :: rest => do
    match sweepBidId row with
    | none => .ret ()
    | some id =>
      match ← read h id with
      | none => write h (.watching id)
      | some _ => .ret ()
    sweepRows rest

/-- The sweep; `true` if the wallet is locked. -/
def sweep : List String → FeeProg Bool
  | [] => .ret false
  | endpoint :: rest => do
    let body ← .request (.api endpoint true) id
    match body.asArray with
    | none => if isLockedRefusal body then return true else sweep rest
    | some rows =>
      sweepRows h rows
      sweep rest

def stillOpen (now : Int) (rec : FeeRecord) : Bool :=
  rec.isOpen && match rec.state with
    | .deferred _ _ until_ _ => !deferralPending h until_ now
    | _ => true

def tick (m : Mode) (baseline : Int) : FeeProg Pass := do
  let up ← .ask .apiContext
  if up = false then return .nodeDown
  let locked ← sweep h sweepEndpoints
  if locked then return .locked
  let (records, bad) ← loadAll h
  .ensure bad.isEmpty ("unreadable fee record(s): " ++ "; ".intercalate bad)
  let now ← .ask .now
  resolveEach h m baseline now (records.filter FeeRecord.isOpen)
  let (after, _) ← loadAll h
  let now ← .ask .now
  return .swept (after.filter (stillOpen h now)).length

/-- What `spawn` runs before the first pass. -/
def startup : FeeProg Int := do
  reconcileOnStart h
  readOrCreateBaseline h

end

end Fees
