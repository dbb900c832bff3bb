import PwndaWallet.Desk.Watch
import PwndaWallet.Desk.Wire

/-!
# States, roles and gates

The pure part of `desk/engine.rs` with the depths of `desk/depth.rs`: what a desk state string means,
which role is ours, whether an M1 has the shape of its role, and when a sighting opens a gate.
-/

namespace Desk

inductive DeskSwapState where
  | accepted
  | aLocked
  | bLocked
  | ready
  | aClaimed
  | settled
  | aRefunded
  | failed
  | aborted
  | unknown (s : String)
deriving DecidableEq

def DeskSwapState.parse (s : String) : DeskSwapState :=
  match s with
  | "ACCEPTED" => .accepted
  | "A_LOCKED" => .aLocked
  | "B_LOCKED" => .bLocked
  | "READY" => .ready
  | "A_CLAIMED" => .aClaimed
  | "SETTLED" => .settled
  | "A_REFUNDED" => .aRefunded
  | "FAILED" => .failed
  | "ABORTED" => .aborted
  | other => .unknown other

def DeskSwapState.isTerminal : DeskSwapState → Bool
  | .settled | .aRefunded | .failed | .aborted => true
  | _ => false

def DeskSwapState.isSettled : DeskSwapState → Bool
  | .settled => true
  | _ => false

def DeskSwapState.isRecoveredOrFailed : DeskSwapState → Bool
  | .aRefunded | .failed | .aborted => true
  | _ => false

@[simp] theorem isTerminal_eq (s : DeskSwapState) :
    s.isTerminal = (s.isSettled || s.isRecoveredOrFailed) := by
  cases s <;> rfl

inductive ClientRole where
  | follower
  | leader
deriving Inhabited, DecidableEq

inductive EngineError where
  | unknownDeskRole (s : String)
  | m2NotAccepted
  | incompleteM2
  | prematureClaimRelease
  | prematureLock
  | chainUnreadable (chain error : String)
  | roleShape (leg role field why : String)
  | roleShapeMissing (leg role field why : String)
deriving Inhabited, DecidableEq

def EngineError.toString : EngineError → String
  | .unknownDeskRole s => s!"desk role not recognized: {s}"
  | .m2NotAccepted => "M2 (keys) response was not accepted by the desk"
  | .incompleteM2 => "M2 (keys) response claims accepted but is missing the joint lock material — " ++
    "refusing to proceed to lock funds"
  | .prematureClaimRelease => "desk signalled ready but the client's own chain-B observation is " ++
    "unconfirmed — refusing to release the claim sig"
  | .prematureLock =>
    "the client's own chain-A observation is unconfirmed - refusing to lock chain B"
  | .chainUnreadable chain error =>
    s!"cannot see chain {chain} - refusing to act on an unverified counterparty lock. " ++
    s!"This is OUR visibility failing, not evidence about the counterparty: {error}"
  | .roleShape leg role field why =>
    s!"role-shape violation on the {leg} leg: a {role} must not send {field} ({why}). " ++
    "Refusing rather than ignoring it: an unexpected field is either a version mismatch or " ++
    "an attempt to have us bind to something we did not ask about, and silently dropping it " ++
    "makes those two indistinguishable"
  | .roleShapeMissing leg role field why =>
    s!"role-shape violation on the {leg} leg: a {role} must send {field} ({why}), and it is absent"

def ClientRole.fromDeskRole (deskRole : String) : Except EngineError ClientRole :=
  match deskRole with
  | "LEADER" => .ok .follower
  | "FOLLOWER" => .ok .leader
  | other => .error (.unknownDeskRole other)

def ClientRole.fromDirection (direction : String) : Except EngineError ClientRole :=
  match direction with
  | "SELL_FOLLOWER" => .ok .follower
  | "BUY_FOLLOWER" => .ok .leader
  | other => .error (.unknownDeskRole other)

def ClientRole.clientLockChain : ClientRole → Chain
  | .follower => .B
  | .leader => .A

theorem fromDeskRole_eq_ok {s : String} {r : ClientRole} :
    ClientRole.fromDeskRole s = .ok r ↔
      s = "LEADER" ∧ r = .follower ∨ s = "FOLLOWER" ∧ r = .leader := by
  unfold ClientRole.fromDeskRole
  split <;> simp_all [eq_comm]

theorem fromDirection_eq_ok {s : String} {r : ClientRole} :
    ClientRole.fromDirection s = .ok r ↔
      s = "SELL_FOLLOWER" ∧ r = .follower ∨ s = "BUY_FOLLOWER" ∧ r = .leader := by
  unfold ClientRole.fromDirection
  split <;> simp_all [eq_comm]

/-! ## The shape of M1 and M2 -/

/-- A response that claims success without the lock addresses is refused. -/
def validM2 (kr : KeysResponse) : Except EngineError Unit :=
  if !kr.accepted then .error .m2NotAccepted
  else if Rust.isEmpty kr.chainALockAddr || Rust.isEmpty kr.chainBJointAddr then .error .incompleteM2
  else .ok ()

inductive Leg where
  | ada
  | ltc
deriving DecidableEq

inductive Party where
  | leader
  | follower
deriving DecidableEq

def Party.asStr : Party → String
  | .leader => "LEADER"
  | .follower => "FOLLOWER"

def mustRefuseAtM1 (leg : Leg) (role : ClientRole) (leaderProofNegotiated : Bool) : Bool :=
  leg == .ltc && role == .follower && !leaderProofNegotiated

def present (f : Option String) : Bool :=
  match f with
  | some s => !Rust.isEmpty (Rust.trim s)
  | none => false

def validRoleShape (leg : Leg) (sender : Party) (leaderProofNegotiated : Bool)
    (adaptorPoint dleqProof viewKey : Option String) : Except EngineError Unit :=
  let legName := match leg with
    | .ada => "ADA"
    | .ltc => "LTC"
  let refuse (field why : String) : Except EngineError Unit :=
    .error (.roleShape legName sender.asStr field why)
  let missing (field why : String) : Except EngineError Unit :=
    .error (.roleShapeMissing legName sender.asStr field why)
  let legHasDleq := leg == .ltc
  let mayCarryProof := match sender with
    | .follower => true
    | .leader => legHasDleq && leaderProofNegotiated
  if sender == .leader && present viewKey then
    refuse "viewKey" "one shared view secret is used and it is the FOLLOWER's"
  else if sender == .follower && !present viewKey then
    missing "viewKey" "both sides need it to see the locked chain-B output"
  else if present dleqProof && !legHasDleq then
    refuse "dleqProof"
      "both legs of this swap are ed25519, so there is no cross-group statement to prove"
  else if !mayCarryProof then
    if present adaptorPoint then
      refuse "adaptorPoint" (match sender, legHasDleq, leaderProofNegotiated with
        | .leader, true, false => "this swap did not negotiate the leader-proof capability"
        | _, _, _ => "the adaptor point is FOLLOWER material on this leg")
    else if present dleqProof then
      refuse "dleqProof" "this swap did not negotiate the leader-proof capability"
    else .ok ()
  else if !present adaptorPoint then
    missing "adaptorPoint" "it is read out of the proof this role must send"
  else if legHasDleq && !present dleqProof then
    missing "dleqProof"
      "an adaptor point on a cross-group leg is meaningless without the proof binding it"
  else .ok ()

/-! ## Depths and gates -/

def ADA_REORG_FLOOR : Nat := 3

def XMR_REORG_FLOOR : Nat := 10

structure SwapDepths where
  chainA : Nat
  chainB : Nat
deriving DecidableEq

def floorAt (reported : Int) (floor : Nat) : Nat :=
  let reported := reported.toNat
  if reported < floor then floor else reported

def SwapDepths.fromStatus (minConfsA minConfsB : Int) : SwapDepths :=
  ⟨floorAt minConfsA ADA_REORG_FLOOR, floorAt minConfsB XMR_REORG_FLOOR⟩

theorem floorAt_eq_max (reported : Int) (floor : Nat) :
    floorAt reported floor = max floor reported.toNat := by
  unfold floorAt; dsimp only; split <;> omega

/-- `judge`: `sighting` is what the observer says of the chain. -/
def judge (sighting : LockSighting) (chain : Chain) (minConfs : Nat) (premature : EngineError) :
    Except EngineError Unit :=
  if sighting.isConfirmedTo minConfs then .ok ()
  else
    match sighting with
    | .couldNotLook error => .error (.chainUnreadable chain.asStr error)
    | _ => .error premature

def safeToLockFollower (sighting : LockSighting) (minConfs : Nat) : Except EngineError Unit :=
  judge sighting .A minConfs .prematureLock

def safeToReleaseClaimSig (sighting : LockSighting) (_deskSaysReady : Bool) (minConfs : Nat) :
    Except EngineError Unit :=
  judge sighting .B minConfs .prematureClaimRelease

theorem judge_isOk {s : LockSighting} {chain : Chain} {n : Nat} {e : EngineError} :
    (judge s chain n e).isOk = s.isConfirmedTo n := by
  unfold judge
  split
  · rename_i h; rw [h]; rfl
  · rename_i h; rw [Bool.not_eq_true] at h; rw [h]; split <;> rfl

end Desk
