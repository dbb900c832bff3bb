import PwndaWallet.Desk.Op

/-!
# The commands of the desk tab

`desk_accept`, `desk_status` and `desk_proceed` (`desk/commands.rs`). The handshake derives our role
from the direction that was asked for; the record keeps what M1 says.
-/

namespace Desk

open Tasks

def openStore : DeskM String Unit := do
  let dir ← (.orFail (← store.dataDir) "wallet data dir not resolved yet" : DeskM String String)
  (store.openStore dir).mapErr StoreError.toString

/-! ## The handshake -/

def optNonempty (s : String) : Option String :=
  let t := Rust.trim s
  if Rust.isEmpty t then none else some t

structure EngineT2 where
  slot : Option Int
  unix : Option Int
  source : String

def deriveEngineT2 (role : ClientRole) (m1T1Unix : Int)
    (m1T1Slot m1T2Slot materialT1Slot materialT2Slot cfgSwipeDeltaSlots : Option Int) :
    Except String EngineT2 :=
  let debug (x : Option Int) : String := match x with
    | some n => s!"Some({n})"
    | none => "None"
  if role == .follower then
    match m1T1Slot, m1T2Slot with
    | some a, some b => .ok
        { slot := some b
          unix := some (Rust.wrapI64 (m1T1Unix + Rust.wrapI64 (b - a)))
          source := "AcceptResponse t1Slot/t2Slot (the desk leads and commits the chain-A slots)" }
    | _, _ =>
      match cfgSwipeDeltaSlots with
      | some d => .ok
          { slot := none
            unix := some (Rust.wrapI64 (m1T1Unix + d))
            source := "effective-config ada.swipeDeltaSlots (M1 carried no slots)" }
      | none => .error (s!"we follow, M1 carried no usable slots (t1Slot={debug m1T1Slot}, " ++
          s!"t2Slot={debug m1T2Slot}) and the desk's effective-config could not supply " ++
          "ada.swipeDeltaSlots")
  else
    match materialT1Slot, materialT2Slot with
    | some a, some b => .ok
        { slot := some b
          unix := some (Rust.wrapI64 (m1T1Unix + Rust.wrapI64 (b - a)))
          source := "our own engine's derived slots (we lead; the desk echoes us)" }
    | _, _ => .error (s!"we lead but our engine reported no slots (t1Slot={debug materialT1Slot}, " ++
        s!"t2Slot={debug materialT2Slot}) — init_swap validation should have refused this")

/-- The desk's swipe delta, asked for only when we follow and M1 carried no slots. -/
def cfgDelta (role : ClientRole) (m1 : AcceptResponse) : DeskM String (Option Int) := do
  if role == .follower && (m1.t1Slot.isNone || m1.t2Slot.isNone) then
    match ← client.effectiveConfig.attempt with
    | .ok c => return c.ada.bind (·.swipeDeltaSlots)
    | .error _ => return none
  else return none

/-- The record of the handshake before M2: M1's terms, our material, the engine's T2. -/
def acceptRecord (role : ClientRole) (m1 : AcceptResponse) (material : SwapKeyMaterial)
    (cfgDelta : Option Int) (payoutAddress refundAddress : String) (createdAt : Int) : StoredSwap :=
  let record := StoredSwap.fromAccept m1 payoutAddress refundAddress createdAt
  let record := { record with
    clientKeySharePoint := some material.clientKeySharePoint
    engineRef := some material.engineRef
    keyProvenance := material.provenance.asStr }
  let record :=
    if role == .follower then
      { record with adaptorPoint := material.adaptorPoint, viewKey := material.viewKey }
    else { record with t1Slot := material.t1Slot, t2Slot := material.t2Slot }
  match deriveEngineT2 role m1.t1 m1.t1Slot m1.t2Slot material.t1Slot material.t2Slot cfgDelta with
  | .ok e => { record with t2EngineSlot := e.slot, t2EngineUnix := e.unix }
  | .error _ => record

/-- The record with the joint keys our own engine derived. -/
def StoredSwap.setJoint (rec : StoredSwap) (joint : JointKeys) : StoredSwap :=
  { rec with
    chainALockAddr := some joint.chainALockAddr
    chainBJointKey := some joint.chainBJointKey
    chainBJointAddr := some joint.chainBJointAddr }

/-- Which engine a pair's chain-A leg is built by. -/
def legOfPair (pair : String) : Leg :=
  if Rust.endsWith (Rust.toAsciiUppercase pair) "/LTC" then .ltc else .ada

/-- The leader proof is asked for on the LTC leg, whatever our role. -/
def acceptRequest (quoteId pair payoutAddress refundAddress : String) : AcceptRequest where
  quoteId := quoteId
  payoutAddress := payoutAddress
  refundAddress := refundAddress
  clientChainAPubkey := none
  leaderProof := if legOfPair pair == .ltc then some true else none

def acceptAndPersist (quoteId pair direction payoutAddress refundAddress : String) :
    DeskM String StoredSwap := do
  let role ← (.ofExcept ((ClientRole.fromDirection direction).mapError EngineError.toString))
  let leg := legOfPair pair
  let m1 ← (client.accept (acceptRequest quoteId pair payoutAddress refundAddress)).mapErr
    ProxyError.toString
  .ensure (!mustRefuseAtM1 leg role m1.leaderProof)
    (s!"swap {m1.swapId}: refusing at M1. This is an LTC-leg swap in which WE follow, so we are " ++
      "the party that locks chain B — and the leader-proof capability is off, so our " ++
      "refund-spend half would be a PLAIN signature that reveals no scalar. Our engine " ++
      "refuses to lock chain B on exactly that record (ltc_swap.py:544, a guard that found " ++
      "itself on a swap which locked 1.44 stagenet XMR unrecoverably), so this swap cannot " ++
      "settle. Refusing here costs a handshake; discovering it at the chain-B lock costs a " ++
      "timelock window with chain A already locked. The desk must open the swap with " ++
      "leaderProof:true on this pair before it can be driven.")
  let deskParty := match m1.deskRole with
    | "LEADER" => Party.leader
    | _ => Party.follower
  .ofExcept ((validRoleShape leg deskParty m1.leaderProof m1.adaptorPoint m1.dleqProof
    m1.viewKey).mapError fun e =>
      s!"the desk's M1 for swap {m1.swapId} has the wrong shape for its role: {e.toString}")
  let material ← (crypto.generateSwapKeys
    { swapId := m1.swapId
      role := role
      pair := pair
      amountA := m1.amountA
      amountB := m1.amountB
      t0 := m1.t0
      t1 := m1.t1
      t2 := m1.t2
      t1Slot := m1.t1Slot
      t2Slot := m1.t2Slot
      leaderProof := m1.leaderProof
      payoutAddress := payoutAddress
      refundAddress := refundAddress }).mapErr CryptoError.toString
  let now ← unixNow
  let delta ← cfgDelta role m1
  let record := acceptRecord role m1 material delta payoutAddress refundAddress (Rust.wrapI64 now)
  openStore
  (store.save record).mapErr fun e =>
    s!"swap {m1.swapId} was accepted by the desk but could NOT be persisted ({e.toString}) — " ++
      "abort it rather than proceeding: an unpersisted swap cannot be recovered after a restart"
  let m2 ← (client.keys m1.swapId material.keysRequest).mapErr ProxyError.toString
  .ensure m2.accepted
    (s!"the desk rejected our M2 key material for swap {m1.swapId} — refusing to " ++
      "proceed to a lock")
  let joint ← (crypto.ingestCounterparty m1.swapId
    { keySharePoint := m1.deskKeySharePoint
      chainAPubkey := m1.deskChainAPubkey
      adaptorPoint := m1.adaptorPoint
      viewKey := m1.viewKey
      dleqProof := m1.dleqProof
      t1Slot := if role == .follower then m1.t1Slot else none
      t2Slot := if role == .follower then m1.t2Slot else none
      claimDest := optNonempty m1.claimDest
      refundDest := optNonempty m1.refundDest }).mapErr CryptoError.toString
  .ensure (Rust.isEmpty m2.chainALockAddr || m2.chainALockAddr == joint.chainALockAddr)
    (s!"chain-A lock address disagreement on swap {m1.swapId}: the desk says " ++
      s!"{m2.chainALockAddr} but our own engine derived {joint.chainALockAddr} — refusing to " ++
      "proceed")
  let record := record.setJoint joint
  openStore
  (store.save record).mapErr StoreError.toString
  return record

/-! ## The status poll -/

structure DeskStatusView where
  swapId : String
  state : String
  lockATxid : String
  lockBTxid : String
  claimATxid : String
  sweepBTxid : String
  refundTxid : String
  reclaimTxid : String
  confsA : Int
  confsB : Int
  minConfsA : Int
  minConfsB : Int
  t0Remaining : Int
  t1Remaining : Int
  readyAck : Bool
  updatedAt : Int
  error : String

def DeskStatusView.ofStatus (s : StatusResponse) : DeskStatusView where
  swapId := s.swapId
  state := s.state
  lockATxid := s.lockATxid
  lockBTxid := s.lockBTxid
  claimATxid := s.claimATxid
  sweepBTxid := s.sweepBTxid
  refundTxid := s.refundTxid
  reclaimTxid := s.reclaimTxid
  confsA := s.confsA
  confsB := s.confsB
  minConfsA := s.minConfsA
  minConfsB := s.minConfsB
  t0Remaining := s.t0Remaining
  t1Remaining := s.t1Remaining
  readyAck := s.readyAck
  updatedAt := s.updatedAt
  error := s.error

/-- The record with what `/status` says of the state and of the locks. -/
def mirror (status : StatusResponse) (rec : StoredSwap) : StoredSwap :=
  { rec with
    state := status.state
    lockATxid := if Rust.isEmpty status.lockATxid then rec.lockATxid else some status.lockATxid
    lockBTxid := if Rust.isEmpty status.lockBTxid then rec.lockBTxid else some status.lockBTxid }

def deskStatus (swapId : String) : DeskM String DeskStatusView := do
  let status ← (client.status swapId).mapErr ProxyError.toString
  let parsed := DeskSwapState.parse status.state
  .when parsed.isTerminal (watchers.raise swapId)
  match ← openStore.attempt with
  | .error _ => return .ofStatus status
  | .ok () =>
    if parsed.isSettled || parsed == .aRefunded then
      let _ ← (store.remove swapId).attempt
      return .ofStatus status
    else
      match ← (store.load swapId).attempt with
      | .error _ => return .ofStatus status
      | .ok rec =>
        let _ ← (store.save (mirror status rec)).attempt
        return .ofStatus status

/-! ## The explicit step that moves value -/

/-- `armed`: the vendored engine is the active provider. -/
def deskProceed (armed : Bool) (swapId : String) : DeskM String String := do
  .ensure armed
    ("the desk engine is not armed (crypto is Mock) — refusing to start a funded swap. " ++
      "Arm the desk (PWNDA_DESK_ARM + testnet config) first.")
  openStore
  let swap ← (store.load swapId).mapErr StoreError.toString
  .ensure (!(DeskSwapState.parse swap.state).isTerminal)
    s!"swap {swapId} is already in terminal state {swap.state}; nothing to drive"
  spawn (.choreography swapId)
  return "started"

end Desk
