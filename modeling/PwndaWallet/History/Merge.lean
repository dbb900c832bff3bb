import PwndaWallet.History.Reports

/-!
# Merging reports into the history

An observation fills the blanks of its bid's row, and the two hashes that the lists show are read off
the transactions that the row has by then.
-/

namespace History

open BidStates

/-! ## Whose transaction it is -/

inductive P2PTxRole
  | youLocked | theyLocked | youClaimed | theyClaimed | youRefunded | theyRefunded | preRefund | other
  deriving DecidableEq, Repr

inductive Chain
  | a | b
  deriving DecidableEq, Repr

def SCRIPTLESS : List String := ["XMR", "ZEPH", "ZANO"]

/-- `replace(/\s+tx$/, "")`. -/
def dropTx (text : List Char) : List Char :=
  match text.reverse with
  | 'x' :: 't' :: c :: rest => if Js.isSpace c then (rest.dropWhile Js.isSpace).reverse else text
  | _ => text

def txKind (env : Env) (type : String) : String :=
  String.ofList (Js.trim (Js.collapse false (dropTx (env.toLowerCase type).toList)))

/-- What a row's transactions are read with: the chain this wallet locked on, whether the swap was
refunded, and the coins. -/
structure Reading where
  mine : Option Chain
  refundPath : Bool
  src : String
  dst : String
  deriving DecidableEq, Repr

def readingOf (env : Env) (row : SwapHistoryEntry) : Reading :=
  let src := env.toUpperCase row.fromAsset
  let dst := env.toUpperCase row.toAsset
  let kinds := row.bidTxns.map fun t => txKind env t.type
  let swiped := kinds.contains "chain a lock refund swipe"
  { mine := match row.bidLeg with
      | .scripted => some .a
      | .scriptless => some .b
      | .unknown => if SCRIPTLESS.contains src then some .b else if SCRIPTLESS.contains dst then some .a else none
    refundPath := !swiped && (kinds.contains "chain a lock refund spend" || row.status = .refunded)
    src := src
    dst := dst }

/-- `/^chain a\b/`, of the chain. -/
def namesChain (chain : Char) (kind : String) : Bool :=
  let name := "chain ".toList ++ [chain]
  name.isPrefixOf kind.toList && !((kind.toList.drop name.length).head?.any isTicker)

namespace Reading

variable (r : Reading)

def assetOf (chain : Chain) : Option String := r.mine.map fun mine => if chain = mine then r.src else r.dst

/-- The role of a transaction made by whoever locked the chain. -/
def madeBy (actor : Chain) (ifYou ifThem : P2PTxRole) : P2PTxRole :=
  match r.mine with
  | none => .other
  | some mine => if actor = mine then ifYou else ifThem

def roleOf (env : Env) (t : P2PBidTx) : P2PTxRole × Option String :=
  let kind := txKind env t.type
  if kind = "chain a lock" then (r.madeBy .a .youLocked .theyLocked, r.assetOf .a)
  else if kind = "chain b lock" then (r.madeBy .b .youLocked .theyLocked, r.assetOf .b)
  else if kind = "chain a lock spend" then (r.madeBy .b .youClaimed .theyClaimed, r.assetOf .a)
  else if kind = "chain b lock spend" then
    if r.refundPath then (r.madeBy .b .youRefunded .theyRefunded, r.assetOf .b)
    else (r.madeBy .a .youClaimed .theyClaimed, r.assetOf .b)
  else if kind = "chain a lock refund" then (.preRefund, r.assetOf .a)
  else if kind = "chain a lock refund spend" then (r.madeBy .a .youRefunded .theyRefunded, r.assetOf .a)
  else if kind = "chain a lock refund swipe" then (r.madeBy .b .youClaimed .theyClaimed, r.assetOf .a)
  else if kind = "mercy" then (.other, r.assetOf .a)
  else if kind = "swipe payout sweep" then (r.madeBy .b .youClaimed .theyClaimed, r.assetOf .a)
  else if kind = "initiate" ∨ kind = "participate" then
    let ticker := t.ticker.map env.toUpperCase
    if ticker = some r.src then (.youLocked, some r.src)
    else if ticker = some r.dst then (.theyLocked, some r.dst)
    else (.other, ticker)
  else if namesChain 'a' kind then (.other, r.assetOf .a)
  else if namesChain 'b' kind then (.other, r.assetOf .b)
  else (.other, none)

end Reading

structure P2PLegTx where
  role : P2PTxRole
  type : String
  txid : String
  asset : Option String
  explorerUrl : Option String

def legOf (env : Env) (r : Reading) (t : P2PBidTx) : P2PLegTx :=
  let (role, asset) := r.roleOf env t
  ⟨role, t.type, t.txid, asset, (Js.truthy asset).bind fun asset => env.destinationExplorerUrl asset t.txid⟩

def p2pLegTransactions (env : Env) (row : SwapHistoryEntry) : List P2PLegTx :=
  row.bidTxns.map (legOf env (readingOf env row))

/-! ## Merging an observation into a row -/

def sameState (env : Env) (a b : RawState) : Bool :=
  match env.bidStateNameOf a, env.bidStateNameOf b with
  | some na, some nb => na = nb
  | _, _ => a = b

def newRow (obs : P2PObservation) (base : Base) : SwapHistoryEntry where
  id := p2pHistoryId obs.bidId
  fromAsset := base.frame.fromAsset
  toAsset := base.frame.toAsset
  fromAmount := base.frame.fromAmount
  toAmount := base.frame.toAmount
  status := .pending
  provider := some "Grove P2P"
  createdAt := base.createdAt
  bidId := some obs.bidId
  bidRole := obs.role
  offerId := Js.truthy base.offerId
  bidState := present base.bidState

def orElse (s t : String) : String := if s = "" then t else s

def fillBlanks (obs : P2PObservation) (row : SwapHistoryEntry) : SwapHistoryEntry :=
  let row := match obs.base with
    | none => row
    | some base =>
      { row with
        fromAsset := orElse row.fromAsset base.frame.fromAsset
        toAsset := orElse row.toAsset base.frame.toAsset
        fromAmount := orElse row.fromAmount base.frame.fromAmount
        toAmount := orElse row.toAmount base.frame.toAmount }
  { row with
    bidId := (Js.truthy row.bidId).or (some obs.bidId)
    offerId := if (Js.truthy row.offerId).isSome then row.offerId else (Js.truthy obs.offerId).or row.offerId
    bidLeg := if obs.leg = .unknown then row.bidLeg else obs.leg }

/-- The stored row has no side, and the legs of the record of a received bid the other way round. -/
def turns (prior : Option SwapHistoryEntry) (role : Side) (rf : P2PFrame) : Bool :=
  prior.any fun p => p.bidRole.isNone && role = .maker && p.fromAsset = rf.toAsset && p.toAsset = rf.fromAsset

def turned (rf : P2PFrame) (row : SwapHistoryEntry) : SwapHistoryEntry :=
  { row with
    fromAsset := rf.fromAsset
    toAsset := rf.toAsset
    fromAmount := rf.fromAmount
    toAmount := rf.toAmount
    sourceTxHash := ""
    sourceExplorerUrl := ""
    destTxHash := none
    destExplorerUrl := none }

def takeRole (prior : Option SwapHistoryEntry) (obs : P2PObservation) (row : SwapHistoryEntry) : SwapHistoryEntry :=
  match obs.role, obs.recordFrame with
  | none, _ => row
  | some role, none => { row with bidRole := row.bidRole.or (some role) }
  | some role, some rf => { (if turns prior role rf then turned rf row else row) with bidRole := some role }

def takePayout (obs : P2PObservation) (row : SwapHistoryEntry) : SwapHistoryEntry :=
  match obs.payout, row.payoutTo with
  | some payout, none =>
    { row with
      payoutTo := some payout.paidTo
      recipient := if payout.paidTo = .address ∧ (Js.truthy row.recipient).isNone
        then (Js.truthy payout.address).or row.recipient else row.recipient }
  | _, _ => row

def takeState (env : Env) (obs : P2PObservation) (row : SwapHistoryEntry) : SwapHistoryEntry :=
  match present (obs.bidState.or row.bidState) with
  | none => row
  | some candidate =>
    let next := p2pBidStateToHistoryStatus env candidate row.bidLeg
    -- an answer from before the end may be handled after one from after it
    if row.status ≠ .pending ∧ next = .pending then row
    else
      { row with
        status := next
        bidState := match obs.bidState, row.bidState with
          | none, stored => stored
          | some reported, some (.int n) => if sameState env (.int n) reported then some (.int n) else some reported
          | some reported, _ => some reported }

def dated (obs : P2PObservation) (nowIso : String) (row : SwapHistoryEntry) : SwapHistoryEntry :=
  if row.status ≠ .pending ∧ (Js.truthy row.completedAt).isNone
  then { row with completedAt := some (obs.stateAt.getD nowIso) } else row

def takeTxns (obs : P2PObservation) (row : SwapHistoryEntry) : SwapHistoryEntry :=
  { row with bidTxns := mergeTxns row.bidTxns obs.txns }

def fillSource (legs : List P2PLegTx) (row : SwapHistoryEntry) : SwapHistoryEntry :=
  match legs.find? (·.role = .youLocked) with
  | none => row
  | some sent =>
    if row.sourceTxHash = "" then
      { row with sourceTxHash := sent.txid, sourceExplorerUrl := sent.explorerUrl.getD "" } else row

def fillDest (legs : List P2PLegTx) (row : SwapHistoryEntry) : SwapHistoryEntry :=
  match legs.find? (·.role = .youClaimed) with
  | none => row
  | some got =>
    if (Js.truthy row.destTxHash).isNone then
      { row with
        destTxHash := some got.txid
        destExplorerUrl := (Js.truthy got.explorerUrl).or row.destExplorerUrl } else row

def fillHashes (env : Env) (row : SwapHistoryEntry) : SwapHistoryEntry :=
  let legs := p2pLegTransactions env row
  fillDest legs (fillSource legs row)

/-- The row before the observation is merged in, a new one if it may create one. -/
def rowFor (prior : Option SwapHistoryEntry) (obs : P2PObservation) : Option SwapHistoryEntry :=
  match prior with
  | some row => some row
  | none => if obs.mayCreate then obs.base.map (newRow obs) else none

def merged (env : Env) (nowIso : String) (prior : Option SwapHistoryEntry) (obs : P2PObservation)
    (row : SwapHistoryEntry) : SwapHistoryEntry :=
  fillHashes env (takeTxns obs (dated obs nowIso (takeState env obs (takePayout obs
    (takeRole prior obs (fillBlanks obs row))))))

def applyP2PObservation (env : Env) (nowIso : String) (prior : Option SwapHistoryEntry) (obs : P2PObservation) :
    Option SwapHistoryEntry :=
  match (rowFor prior obs).map (merged env nowIso prior obs) with
  | none => none
  | some row => if prior = some row then none else some row

/-! ## Writing -/

structure Merging where
  rows : Rows
  changed : Bool
  inserted : Bool

def rowOf (id : String) (rows : Rows) : Option SwapHistoryEntry := rows.find? (·.id = id)

/-- `rows[i] = next` at the first row of the id. -/
def putRow (next : SwapHistoryEntry) : Rows → Rows
  | [] => []
  | r :: rows => if r.id = next.id then next :: rows else r :: putRow next rows

def mergeOne (env : Env) (nowIso : String) (m : Merging) (o : P2PObservation) : Merging :=
  let prior := rowOf (p2pHistoryId o.bidId) m.rows
  match applyP2PObservation env nowIso prior o with
  | none => m
  | some next =>
    if prior.isSome then { m with rows := putRow next m.rows, changed := true }
    else ⟨next :: m.rows, true, true⟩

def newestFirst (a b : SwapHistoryEntry) : Bool := b.createdAt ≤ a.createdAt

def mergeAll (env : Env) (nowIso : String) (list : List P2PObservation) (rows : Rows) : Merging :=
  list.foldl (mergeOne env nowIso) ⟨rows, false, false⟩

def writeP2PObservations (env : Env) (list : List P2PObservation) (nowIso : String) (rows : Rows) : Rows :=
  modifySwapHistory (fun rows =>
    let m := mergeAll env nowIso list rows
    if !m.changed then none else some (if m.inserted then Js.sort newestFirst m.rows else m.rows)) rows

end History
