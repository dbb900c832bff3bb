import PwndaWallet.History.Store
import PwndaWallet.Lib.Js

/-!
# What the swap node reports of a bid

The bid that was just placed, the rows of the node's lists and a bid's own record become observations:
what a report says of one bid, before it is merged into the row of the bid.
-/

namespace History

open BidStates

/-- The tables of the state names and coins, the explorers' links, and the runtime's letter cases and
times. `iso` is none for what is no time. -/
structure Env where
  bidStateNameOf : RawState → Option BidStateName
  tickerOf : Option String → String
  iso : Int → Option String
  toUpperCase : String → String
  toLowerCase : String → String
  destinationExplorerUrl : String → String → Option String

def p2pHistoryId (bidId : String) : String := "p2p:" ++ bidId

/-! ## Bid state and history status -/

def STAGE_HISTORY : BidStage → SwapHistoryStatus
  | .done | .swiped | .claimedAfterSwipe => .success
  | .refunded => .refunded
  | .counterpartyRecovered | .cancelled => .failed
  | .requesting | .accepted | .locking | .waitingCounterparty | .finalising | .refunding | .timelockUnwinding
  | .swipedSettling | .recovering | .needsAttention | .internal | .unknown => .pending

def p2pBidStateToHistoryStatus (env : Env) (state : RawState) (leg : SwapLeg) : SwapHistoryStatus :=
  let name := env.bidStateNameOf state
  if leg ≠ .unknown then STAGE_HISTORY (stageForBidState name leg)
  else
    let scripted := STAGE_HISTORY (stageForBidState name .scripted)
    let scriptless := STAGE_HISTORY (stageForBidState name .scriptless)
    if scripted = scriptless then scripted else .pending

/-! ## Observations -/

/-- The user's side of a swap. -/
structure P2PFrame where
  fromAsset : String
  toAsset : String
  fromAmount : String
  toAmount : String
  deriving DecidableEq, Repr

structure Base where
  frame : P2PFrame
  createdAt : String
  offerId : Option String
  bidState : Option RawState

structure Payout where
  paidTo : PaidTo
  address : Option String

structure P2PObservation where
  bidId : String
  base : Option Base := none
  bidState : Option RawState := none
  leg : SwapLeg := .unknown
  txns : List P2PBidTx := []
  offerId : Option String := none
  stateAt : Option String := none
  role : Option Side := none
  recordFrame : Option P2PFrame := none
  payout : Option Payout := none
  mayCreate : Bool

/-- What the tracker or the confirm modal knows of a bid. -/
structure SidecarSwapHandle where
  bidId : String
  offerId : Option String
  sendCoin : Option String
  receiveCoin : Option String
  sendAmount : Option String
  receiveAmount : Option String
  createdAt : Option Int
  payoutTo : Option PaidTo := none
  payoutAddress : Option String := none

structure DetailTx where
  type : Option String
  txid : Option String

/-- A bid's own record. -/
structure BasicSwapBidDetail where
  offerId : Option String
  coinFrom : Option String
  coinTo : Option String
  amtFrom : Option String
  amtTo : Option String
  bidState : Option RawState
  bidStateInd : Option RawState
  stateTime : Option Int
  wasSent : Option Bool
  wasReceived : Option Bool
  reverseBid : Option Bool
  txns : List DetailTx
  initiateTx : Option String
  participateTx : Option String

/-- A row of the node's lists. -/
structure BasicSwapBidRow where
  bidId : Option String
  offerId : Option String
  createdAt : Option Int
  bidState : Option RawState
  coinFrom : Option String
  coinTo : Option String
  amountFrom : Option String
  amountTo : Option String
  wasSent : Option Bool := none
  txStateA : Option String
  txStateB : Option String

def isoFromUnixSeconds (env : Env) (now : String) (sec : Option Int) : String := (sec.bind env.iso).getD now

def baseFromHandle (env : Env) (now : String) (h : SidecarSwapHandle) : Base where
  frame := ⟨env.tickerOf h.sendCoin, env.tickerOf h.receiveCoin, h.sendAmount.getD "", h.receiveAmount.getD ""⟩
  createdAt := isoFromUnixSeconds env now h.createdAt
  offerId := Js.truthy h.offerId
  bidState := none

def present (raw : Option RawState) : Option RawState := raw.filter (· ≠ .text "")

def usableState (env : Env) (raw : Option RawState) : Option RawState :=
  (present raw).filter fun s => surface (stageForBidState (env.bidStateNameOf s) .unknown)

def MAKER_STARTED_STAGES : List BidStage :=
  [.accepted, .locking, .waitingCounterparty, .finalising, .done, .refunding, .refunded, .timelockUnwinding,
    .swipedSettling, .swiped, .claimedAfterSwipe, .counterpartyRecovered, .recovering]

def makerSwapStarted (env : Env) (state : Option RawState) (lockSeen : Bool) : Bool :=
  if lockSeen then true
  else match present state with
    | none => false
    | some state =>
      let name := env.bidStateNameOf state
      if name = some .bidAacceptDelay then false
      else MAKER_STARTED_STAGES.contains (stageForBidState name .unknown)

def LOCK_PRESENT : List String := ["sent", "confirmed", "redeemed", "refunded", "in mempool", "in chain"]

def trimmed (s : String) : String := String.ofList (Js.trim s.toList)

def lockSeenIn (env : Env) (row : BasicSwapBidRow) : Bool :=
  let seen : Option String → Bool := fun s => s.any fun s => LOCK_PRESENT.contains (env.toLowerCase (trimmed s))
  seen row.txStateA || seen row.txStateB

def observePlaced (env : Env) (now : String) (h : SidecarSwapHandle) : P2PObservation where
  bidId := h.bidId
  base := some { baseFromHandle env now h with bidState := some (.text "BID_SENT") }
  offerId := Js.truthy h.offerId
  role := some .taker
  payout := match h.payoutTo, Js.truthy h.payoutAddress with
    | some .address, some address => some ⟨.address, some address⟩
    | some .nodeWallet, _ => some ⟨.nodeWallet, none⟩
    | _, _ => none
  mayCreate := true

def recordRole (d : BasicSwapBidDetail) : Option Side :=
  if d.wasSent = some true then some .taker else if d.wasReceived = some true then some .maker else none

def recordFrameOf (env : Env) (d : BasicSwapBidDetail) (role : Side) : Option P2PFrame :=
  let src := env.tickerOf d.coinFrom
  let dst := env.tickerOf d.coinTo
  if src = "" ∨ dst = "" then none
  else match role with
    | .maker => some ⟨src, dst, d.amtFrom.getD "", d.amtTo.getD ""⟩
    | .taker => some ⟨dst, src, d.amtTo.getD "", d.amtFrom.getD ""⟩

/-! ## The transactions of a record -/

def isHex (c : Char) : Bool := c.isDigit || ('a' ≤ c && c ≤ 'f')

def isTxid (s : String) : Bool := s.toList.length == 64 && s.toList.all isHex

def addTx (env : Env) (type : String) (txid : Option String) (ticker : Option String) (out : List P2PBidTx) :
    List P2PBidTx :=
  match txid with
  | none => out
  | some txid =>
    let id := env.toLowerCase (trimmed txid)
    if !isTxid id || out.any (·.txid == id) then out else out ++ [⟨type, id, Js.truthy ticker⟩]

def isTicker (c : Char) : Bool := c.isAlphanum || c == '_'

/-- `^([0-9a-f]{64})(?:\s+([a-z0-9_]{1,12}))?$` in either case. -/
def splitLockTx (text : String) : Option (String × Option String) :=
  let id := text.toList.take 64
  let rest := text.toList.drop 64
  let ticker := rest.dropWhile Js.isSpace
  if id.length ≠ 64 ∨ !id.all (fun c => isHex c.toLower) then none
  else if rest.isEmpty then some (String.ofList id, none)
  else if ticker.length < rest.length ∧ 1 ≤ ticker.length ∧ ticker.length ≤ 12 ∧ ticker.all isTicker then
    some (String.ofList id, some (String.ofList ticker))
  else none

def addLockTx (env : Env) (type : String) (raw : Option String) (out : List P2PBidTx) : List P2PBidTx :=
  match raw.bind fun raw => splitLockTx (trimmed raw) with
  | none => out
  | some (txid, ticker) => addTx env type (some txid) (ticker.map env.toUpperCase) out

def bidTxnsFrom (env : Env) (d : BasicSwapBidDetail) : List P2PBidTx :=
  let listed := d.txns.foldl (fun out t =>
    let type := trimmed (t.type.getD "")
    if type = "" then out else addTx env type t.txid none out) []
  addLockTx env "Participate Tx" d.participateTx (addLockTx env "Initiate Tx" d.initiateTx listed)

def mergeTxns (prior more : List P2PBidTx) : List P2PBidTx :=
  more.foldl (fun out t => if out.any (·.txid == t.txid) then out else out ++ [t]) prior

/-! ## What a read says -/

def withBidDetail (env : Env) (now : String) (obs : P2PObservation) (d : BasicSwapBidDetail) : P2PObservation :=
  let leg := swapLegOf d.reverseBid d.wasSent d.wasReceived
  let raw := d.bidStateInd.or d.bidState
  let txns := bidTxnsFrom env d
  let merged := if txns.isEmpty then obs.txns else mergeTxns obs.txns txns
  let role := recordRole d
  let frame := role.bind (recordFrameOf env d)
  let sideOf := role.or obs.role
  let state := (usableState env raw).or obs.bidState
  { obs with
    base := match frame with
      | none => obs.base
      | some frame => if role ≠ obs.role then obs.base.map ({ · with frame := frame }) else obs.base
    bidState := state
    stateAt := match d.stateTime with
      | none => obs.stateAt
      | some sec => if sec > 0 then some (isoFromUnixSeconds env now (some sec)) else obs.stateAt
    leg := if leg = .unknown then obs.leg else leg
    txns := merged
    offerId := (Js.truthy obs.offerId).or (Js.truthy d.offerId)
    role := sideOf
    recordFrame := frame.or obs.recordFrame
    mayCreate := obs.mayCreate && (sideOf ≠ some .maker || makerSwapStarted env state (!merged.isEmpty)) }

/-- What the read of a followed bid starts from. -/
def handleObservation (env : Env) (now : String) (h : SidecarSwapHandle) : P2PObservation where
  bidId := h.bidId
  base := some (baseFromHandle env now h)
  offerId := Js.truthy h.offerId
  mayCreate := true

def observeBidRead (env : Env) (now : String) (swap : SidecarSwapHandle) (d : BasicSwapBidDetail) : P2PObservation :=
  withBidDetail env now (handleObservation env now swap) d

def listObservation (env : Env) (now : String) (bidId : String) (role : Side) (mayCreate : Bool) (r : BasicSwapBidRow) :
    P2PObservation where
  bidId := bidId
  base := some
    { frame := match role with
        | .taker => ⟨env.tickerOf r.coinTo, env.tickerOf r.coinFrom, r.amountTo.getD "", r.amountFrom.getD ""⟩
        | .maker => ⟨env.tickerOf r.coinFrom, env.tickerOf r.coinTo, r.amountFrom.getD "", r.amountTo.getD ""⟩
      createdAt := isoFromUnixSeconds env now r.createdAt
      offerId := Js.truthy r.offerId
      bidState := r.bidState }
  bidState := usableState env r.bidState
  offerId := Js.truthy r.offerId
  role := some role
  mayCreate := mayCreate

def observeActive (env : Env) (now : String) (r : BasicSwapBidRow) : Option P2PObservation :=
  let role : Side := if r.wasSent = some true then .taker else .maker
  (Js.truthy r.bidId).map fun bidId =>
    listObservation env now bidId role (role = .taker || makerSwapStarted env r.bidState (lockSeenIn env r)) r

def observeSentBid (env : Env) (now : String) (b : BasicSwapBidRow) : Option P2PObservation :=
  (Js.truthy b.bidId).map fun bidId => listObservation env now bidId .taker true b

def observeReceivedBid (env : Env) (now : String) (b : BasicSwapBidRow) : Option P2PObservation :=
  (Js.truthy b.bidId).map fun bidId =>
    listObservation env now bidId .maker (makerSwapStarted env b.bidState (lockSeenIn env b)) b

end History
