import PwndaWallet.Convert.History
import PwndaWallet.Lib.Machine
import PwndaWallet.Sidecar.BidStates

/-!
# The conversion pipeline

A conversion's first hop is a bid that the swap node carries out, its second an ordinary swap that
the user confirms. The pipeline keeps the first hop's bid id and looks the bid up in the tracker at
every turn. It is here a machine: the tracker hands in new objects, the effect runs when one of its
dependencies is another, the user acts and the app restarts.
-/

namespace Convert

open BidStates

inductive PaidTo
  | address | nodeWallet
  deriving DecidableEq, Repr

inductive ConvertStage
  | idle | hop1Running | hop2Ready | hop2Running | failed
  deriving DecidableEq, Repr

/-- A swap that the tracker holds. Objects of different stamps are not identical. -/
structure TrackedSwap where
  stamp : Nat
  bidId : String
  sendAmount : String
  receiveAmount : String
  payoutTo : Option PaidTo
  stage : BidStateClassification
  deriving DecidableEq, Repr

inductive AutoRebidOutcome
  | trying
  | placed (bidId : String)
  | none
  deriving DecidableEq, Repr

structure Rebid where
  stamp : Nat
  outcome : AutoRebidOutcome
  deriving DecidableEq, Repr

structure Sidecar where
  swaps : List TrackedSwap
  rebids : List (String × Rebid)
  deriving DecidableEq, Repr

/-- What the confirm modal hands over. -/
structure SidecarSwapHandle where
  bidId : String
  sendCoin : String
  receiveCoin : String
  sendAmount : String
  receiveAmount : String

/-- The payout rule of the pair, the coin tables and the float arithmetic of the seed. -/
structure Env where
  feeBearing : Bool
  tickerOf : String → String
  hop2SeedAmount : String → Option PaidTo → String
  toUpperCase : String → String

/-! ## What a reading of the first hop leads to -/

inductive Hop1Reading
  | running | settled | unwound | unanswered
  deriving DecidableEq, Repr

def HOP1_STAGE_READING : BidStage → Hop1Reading
  | .done | .swiped | .claimedAfterSwipe => .settled
  | .refunded | .counterpartyRecovered => .unwound
  | .cancelled => .unanswered
  | .requesting | .accepted | .locking | .waitingCounterparty | .finalising | .refunding | .timelockUnwinding
  | .swipedSettling | .recovering | .needsAttention | .internal | .unknown => .running

inductive Hop1Step
  | unknown
  | running
  | settled (viaAmount : String)
  | follow (bidId : String)
  | unwound
  deriving DecidableEq, Repr

def readingDependsOnLeg (state : BidStateName) : Bool :=
  stageForBidState (some state) .scripted != stageForBidState (some state) .scriptless

/-- A reading that depends on the leg was made without one. -/
def awaitsLeg (reading : BidStateClassification) : Bool :=
  reading.leg = .unknown && reading.state.any readingDependsOnLeg

def rebidStep (hop1BidId : String) (held : Bool) : Option AutoRebidOutcome → Hop1Step
  | none => if held then .running else .unknown
  | some .trying => .running
  | some (.placed bidId) => if bidId = hop1BidId then .running else .follow bidId
  | some .none => .unwound

def nextHop1Step (hop1BidId : String) (hop1 : Option TrackedSwap) (rebid : Option AutoRebidOutcome) : Hop1Step :=
  match hop1 with
  | none => rebidStep hop1BidId false rebid
  | some swap =>
    match HOP1_STAGE_READING swap.stage.stage with
    | .unanswered => rebidStep hop1BidId true rebid
    | .running => .running
    | .settled => if awaitsLeg swap.stage then .running else .settled swap.receiveAmount
    | .unwound => if awaitsLeg swap.stage then .running else .unwound

def hop1PaidTo (env : Env) (bidPayoutTo : Option PaidTo) : Option PaidTo :=
  match bidPayoutTo with
  | some paidTo => some paidTo
  | none => if env.feeBearing then some .nodeWallet else none

inductive Next
  | hop2 | finish
  deriving DecidableEq, Repr

def afterHop1 (paidTo : Option PaidTo) (shared : Bool) : Next :=
  if paidTo = some .nodeWallet && !shared then .finish else .hop2

def CONVERT_ROUTE_HOP : String := "LTC"

def hop1ConversionRecord (env : Env) (handle : SidecarSwapHandle) (targetCoin : String) (startedAt : Nat) :
    ConversionRecord where
  id := handle.bidId
  fromTicker := env.tickerOf handle.sendCoin
  viaTicker := env.tickerOf handle.receiveCoin
  toTicker := targetCoin
  fromAmount := handle.sendAmount
  viaAmount := ""
  toAmount := ""
  startedAt := startedAt
  status := .running

/-! ## The hook's state -/

/-- The values whose change runs the effect again. -/
structure Deps where
  enabled : Bool
  hop1 : Option TrackedSwap
  hop1BidId : Option String
  hop1Rebid : Option Rebid
  deriving DecidableEq

/-- One conversion of the run, under the bids that it was followed under. Not part of the hook. -/
structure Conversion where
  bid : String
  earlier : List String
  past : Bool
  deriving DecidableEq, Repr

def Conversion.bids (c : Conversion) : List String := c.bid :: c.earlier

/-- A call of onSeedHop2, with the bid whose payout it hands on. -/
structure Seed where
  payout : Option String
  amount : String
  target : String
  deriving DecidableEq, Repr

/-- The props, the hook's state, what is stored, and the record of the run that claims are about. -/
structure St where
  enabled : Bool
  sidecar : Option Sidecar
  routeHopShared : Bool
  targetCoin : String
  hop1BidId : Option String
  stage : ConvertStage
  hop2InputAmount : Option String
  hop2PaidTo : Option PaidTo
  hop1Unwound : Bool
  ran : Option Deps
  storedTarget : Option String
  storedHop1 : Option String
  log : List ConversionRecord
  runs : List Conversion
  payout : Option String
  seeded : List Seed
  deriving DecidableEq

namespace St

variable (s : St)

/-- The bid id, unless it is null or empty. -/
def followed : Option String := s.hop1BidId.filter (· ≠ "")

def hop1 : Option TrackedSwap :=
  s.followed.bind fun b => s.sidecar.bind fun sidecar => sidecar.swaps.find? (·.bidId == b)

def hop1Rebid : Option Rebid :=
  s.followed.bind fun b => s.sidecar.bind fun sidecar => sidecar.rebids.lookup b

def deps : Deps := ⟨s.enabled, s.hop1, s.hop1BidId, s.hop1Rebid⟩

def hop2Next : Option Next :=
  if s.stage = .hop2Ready then some (afterHop1 s.hop2PaidTo s.routeHopShared) else none

/-- The bids that the pipeline has followed. -/
def bids : List String := s.runs.flatMap Conversion.bids

end St

/-- The conversion of the bid has left the pipeline. -/
def closeRun (b : Option String) (runs : List Conversion) : List Conversion :=
  runs.map fun c => if b.any (c.bids.contains ·) then { c with past := true } else c

/-- The newest conversion goes on under another bid. -/
def moveRun (b : String) : List Conversion → List Conversion
  | [] => []
  | c :: cs => { c with bid := b, earlier := c.bids } :: cs

/-! ## The effect -/

def takeSettled (env : Env) (b viaAmount : String) (s : St) : St :=
  { s with
    hop2InputAmount := some viaAmount
    hop2PaidTo := hop1PaidTo env (s.hop1.bind TrackedSwap.payoutTo)
    hop1Unwound := false
    stage := .hop2Ready
    log := updateConversion b { viaAmount := some viaAmount } s.log
    payout := some b }

def rebidPatch (s : St) (bidId : String) : Patch :=
  let rebid := s.sidecar.bind fun sidecar => sidecar.swaps.find? (·.bidId == bidId)
  { fromAmount := (rebid.map TrackedSwap.sendAmount).filter (· ≠ "") }

def takeFollow (b bidId : String) (s : St) : St :=
  { s with
    log := followConversionRebid b bidId (rebidPatch s bidId) s.log
    hop1BidId := some bidId
    storedHop1 := some bidId
    hop1Unwound := false
    stage := .hop1Running
    runs := moveRun bidId s.runs }

def takeUnwound (b : String) (s : St) : St :=
  { s with
    hop1Unwound := true
    stage := .idle
    hop1BidId := none
    storedHop1 := none
    log := updateConversion b { status := some .unwound } s.log }

def takeStep (env : Env) (b : String) (s : St) : Hop1Step → St
  | .unknown => s
  | .running => { s with stage := .hop1Running }
  | .settled viaAmount => takeSettled env b viaAmount s
  | .follow bidId => takeFollow b bidId s
  | .unwound => takeUnwound b s

/-- The step that the effect takes for the bid. -/
def St.next (s : St) (b : String) : Hop1Step := nextHop1Step b s.hop1 (s.hop1Rebid.map Rebid.outcome)

def effectBody (env : Env) (s : St) : St :=
  match s.followed with
  | none => s
  | some b => if s.enabled then takeStep env b s (s.next b) else s

/-- The effect runs if one of its dependencies is another than at its last run. -/
def effect (env : Env) (s : St) : Option St :=
  if s.ran = some s.deps then none else some (effectBody env { s with ran := some s.deps })

/-! ## What the user does -/

def clear (s : St) : St :=
  { s with
    stage := .idle
    hop1BidId := none
    hop2InputAmount := none
    hop2PaidTo := none
    hop1Unwound := false
    storedHop1 := none
    payout := none }

def seedHop2 (env : Env) (s : St) (amount : String) : St :=
  { s with
    stage := .hop2Running
    log := match s.followed with
      | some b => updateConversion b { status := some .done } s.log
      | none => s.log
    runs := closeRun s.hop1BidId s.runs
    seeded := ⟨s.payout, env.hop2SeedAmount amount s.hop2PaidTo, s.targetCoin⟩ :: s.seeded }

def beginHop2 (env : Env) (s : St) : St :=
  match s.hop2InputAmount.filter (· ≠ "") with
  | none => s
  | some amount => if afterHop1 s.hop2PaidTo s.routeHopShared = .hop2 then seedHop2 env s amount else s

def finishAtRouteHop (s : St) : St :=
  let ended : Patch :=
    { status := some .done, toTicker := some CONVERT_ROUTE_HOP, toAmount := some (s.hop2InputAmount.getD "") }
  clear
    { s with
      log := match s.followed with
        | some b => updateConversion b ended s.log
        | none => s.log
      runs := closeRun s.hop1BidId s.runs }

def adoptHop1 (env : Env) (handle : SidecarSwapHandle) (now : Nat) (s : St) : St :=
  { s with
    hop1BidId := some handle.bidId
    storedHop1 := some handle.bidId
    stage := .hop1Running
    log := recordConversionStarted (hop1ConversionRecord env handle s.targetCoin now) s.log
    runs := ⟨handle.bidId, [], false⟩ :: s.runs }

/-- The app starts with what is stored. -/
def restart (s : St) : St :=
  { s with
    enabled := false
    sidecar := none
    routeHopShared := false
    targetCoin := s.storedTarget.getD "BTC"
    hop1BidId := s.storedHop1
    stage := .idle
    hop2InputAmount := none
    hop2PaidTo := none
    hop1Unwound := false
    ran := none
    payout := none }

inductive Move
  | props (enabled : Bool) (sidecar : Option Sidecar) (routeHopShared : Bool)
  | effect
  | beginHop1
  | beginHop2
  | finishAtRouteHop
  | reset
  | adoptHop1 (handle : SidecarSwapHandle) (now : Nat)
  | setTargetCoin (ticker : String)
  | restart

/-- The surface offers the second hop and the finish only at a settled first hop, and the app adopts a
bid only while the pipeline waits for one or follows one. -/
def pipeline (env : Env) : Tasks.Machine St Move where
  step s
    | .props enabled sidecar routeHopShared =>
      some { s with enabled := enabled, sidecar := sidecar, routeHopShared := routeHopShared }
    | .effect => effect env s
    | .beginHop1 => some { s with hop1Unwound := false }
    | .beginHop2 => if s.stage = .hop2Ready then some (beginHop2 env s) else none
    | .finishAtRouteHop => if s.stage = .hop2Ready then some (finishAtRouteHop s) else none
    | .reset => some (clear s)
    | .adoptHop1 handle now =>
      if s.stage = .idle ∨ s.stage = .hop1Running then some (adoptHop1 env handle now s) else none
    | .setTargetCoin ticker =>
      some { s with targetCoin := env.toUpperCase ticker, storedTarget := some (env.toUpperCase ticker) }
    | .restart => some (restart s)

/-- The hook of a new installation. -/
def fresh : St where
  enabled := false
  sidecar := none
  routeHopShared := false
  targetCoin := "BTC"
  hop1BidId := none
  stage := .idle
  hop2InputAmount := none
  hop2PaidTo := none
  hop1Unwound := false
  ran := none
  storedTarget := none
  storedHop1 := none
  log := []
  runs := []
  payout := none
  seeded := []

end Convert
