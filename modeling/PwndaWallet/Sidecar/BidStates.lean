/-!
# What a bid's state means

The states that the swap node reports for a bid and the stages that the wallet shows for them. Three
states tell another story to the side that locked the coin without a script.
-/

namespace BidStates

inductive BidStage
  | requesting | accepted | locking | waitingCounterparty | finalising | done | refunding | refunded
  | timelockUnwinding | swipedSettling | swiped | claimedAfterSwipe | counterpartyRecovered | recovering
  | cancelled | needsAttention | internal | unknown
  deriving DecidableEq, Repr

inductive BidStateName
  | bidSent | bidReceiving | bidReceived | bidReceivingAcc | bidAccepted | swapInitiated | swapParticipating
  | swapCompleted | xmrSwapScriptCoinLocked | xmrSwapHaveScriptCoinSpendTx | xmrSwapNoscriptCoinLocked
  | xmrSwapLockReleased | xmrSwapScriptTxRedeemed | xmrSwapScriptTxPrerefund | xmrSwapNoscriptTxRedeemed
  | xmrSwapNoscriptTxRecovered | xmrSwapFailedRefunded | xmrSwapFailedSwiped | xmrSwapFailed | swapDelaying
  | swapTimedout | bidAbandoned | bidError | bidStalledForTest | bidRejected | bidStateUnknown
  | xmrSwapMsgScriptLockTxSigs | xmrSwapMsgScriptLockSpendTx | bidRequestSent | bidRequestAccepted | bidExpired
  | bidAacceptDelay | bidAacceptFail | connectReqSent | xmrSwapFailedSwipedUsedMercy
  | xmrSwapFailedSwipedUsingMercy | xmrSwapFailedSwipedMercyUnused | xmrSwapFailedSwipedSendingMercy
  deriving DecidableEq, Repr

/-- Which coin this node locked: the one without a script, the one with it, or not known. -/
inductive SwapLeg
  | scriptless | scripted | unknown
  deriving DecidableEq, Repr

def BID_STATE_STAGES : BidStateName → BidStage
  | .bidRequestSent | .bidSent | .bidReceiving | .bidReceived => .requesting
  | .bidAccepted | .bidRequestAccepted | .xmrSwapMsgScriptLockTxSigs | .xmrSwapMsgScriptLockSpendTx
  | .bidAacceptDelay => .accepted
  | .swapInitiated | .xmrSwapScriptCoinLocked => .locking
  | .swapParticipating | .xmrSwapNoscriptCoinLocked | .xmrSwapHaveScriptCoinSpendTx => .waitingCounterparty
  | .xmrSwapLockReleased | .xmrSwapScriptTxRedeemed | .xmrSwapNoscriptTxRedeemed => .finalising
  | .swapCompleted => .done
  | .xmrSwapFailedRefunded | .xmrSwapNoscriptTxRecovered => .refunded
  | .xmrSwapScriptTxPrerefund => .refunding
  | .xmrSwapFailedSwiped | .xmrSwapFailedSwipedMercyUnused => .counterpartyRecovered
  | .xmrSwapFailedSwipedSendingMercy | .xmrSwapFailedSwipedUsingMercy => .recovering
  | .xmrSwapFailedSwipedUsedMercy => .claimedAfterSwipe
  | .bidAbandoned | .bidExpired | .bidRejected | .swapTimedout => .cancelled
  | .xmrSwapFailed | .bidError | .bidAacceptFail | .bidStateUnknown => .needsAttention
  | .bidStalledForTest | .connectReqSent | .swapDelaying | .bidReceivingAcc => .internal

def SCRIPTLESS_LEG_STAGES : BidStateName → Option BidStage
  | .xmrSwapScriptTxPrerefund => some .timelockUnwinding
  | .xmrSwapFailedSwiped => some .swiped
  | .xmrSwapFailedSwipedSendingMercy => some .swipedSettling
  | _ => none

def stageForBidState (name : Option BidStateName) (leg : SwapLeg) : BidStage :=
  match name with
  | none => .unknown
  | some name =>
    match leg with
    | .scriptless => (SCRIPTLESS_LEG_STAGES name).getD (BID_STATE_STAGES name)
    | _ => BID_STATE_STAGES name

/-- The stages that a screen shows. -/
def surface : BidStage → Bool
  | .internal => false
  | _ => true

/-- The leg from the flags of a bid's own record. -/
def swapLegOf (reverse wasSent wasReceived : Option Bool) : SwapLeg :=
  match reverse with
  | none => .unknown
  | some reverse =>
    let mine := if reverse then wasReceived else wasSent
    let other := if reverse then wasSent else wasReceived
    if mine = some true then .scriptless else if other = some true then .scripted else .unknown

/-- What the tracker keeps of a reading. -/
structure BidStateClassification where
  stage : BidStage
  state : Option BidStateName
  leg : SwapLeg
  deriving DecidableEq, Repr

def classifyBidState (name : Option BidStateName) (leg : SwapLeg) : BidStateClassification where
  stage := stageForBidState name leg
  state := name
  leg := leg

end BidStates
