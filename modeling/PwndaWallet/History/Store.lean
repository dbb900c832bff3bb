import PwndaWallet.Sidecar.BidStates

/-!
# The stored swap history

One list of rows for every kind of swap, at most 200 of them. Each write reads the list, changes it
and stores it again in one step.
-/

namespace History

open BidStates

inductive SwapHistoryStatus
  | pending | success | refunded | failed
  deriving DecidableEq, Repr

/-- A bid's state in the form in which it was reported. -/
inductive RawState
  | int (n : Int)
  | text (s : String)
  deriving DecidableEq, Repr

inductive Side
  | taker | maker
  deriving DecidableEq, Repr

inductive PaidTo
  | address | nodeWallet
  deriving DecidableEq, Repr

structure P2PBidTx where
  type : String
  txid : String
  ticker : Option String := none
  deriving DecidableEq, Repr

/-- A row, with the members that a bid's row has. An absent leg is unknown, absent transactions are none. -/
structure SwapHistoryEntry where
  id : String
  fromAsset : String
  toAsset : String
  fromAmount : String
  toAmount : String
  status : SwapHistoryStatus
  sourceTxHash : String := ""
  destTxHash : Option String := none
  sourceExplorerUrl : String := ""
  destExplorerUrl : Option String := none
  provider : Option String := none
  createdAt : String
  completedAt : Option String := none
  recipient : Option String := none
  bidId : Option String := none
  offerId : Option String := none
  bidState : Option RawState := none
  bidLeg : SwapLeg := .unknown
  bidRole : Option Side := none
  payoutTo : Option PaidTo := none
  bidTxns : List P2PBidTx := []
  deriving DecidableEq, Repr

abbrev Rows := List SwapHistoryEntry

def MAX_ROWS : Nat := 200

def appendSwapHistory (entry : SwapHistoryEntry) (rows : Rows) : Rows :=
  (entry :: rows.filter (·.id ≠ entry.id)).take MAX_ROWS

/-- `patch` is `{ ...e, ...patch }` for a patch without an id. -/
def updateSwapHistoryEntry (id : String) (patch : SwapHistoryEntry → SwapHistoryEntry) (rows : Rows) : Rows :=
  rows.map fun e => if e.id = id then { patch e with id := e.id } else e

/-- `merge` is `{ ...prior, ...entry }`. -/
def upsertSwapHistoryEntry (entry : SwapHistoryEntry) (merge : SwapHistoryEntry → SwapHistoryEntry) (rows : Rows) : Rows :=
  let merged := match rows.find? (·.id = entry.id) with
    | some prior => { merge prior with id := entry.id }
    | none => entry
  (merged :: rows.filter (·.id ≠ entry.id)).take MAX_ROWS

def modifySwapHistory (fn : Rows → Option Rows) (rows : Rows) : Rows :=
  match fn rows with
  | none => rows
  | some next => next.take MAX_ROWS

end History
