import PwndaWallet.Desk.Op

/-!
# The refund path

What runs when T1 passes (`desk/refund.rs`): the refund of a locked leg behind its guards, the leader's
deep abort at the engine's T2, and the two watchers that fire them (`desk/watch.rs`).
-/

namespace Desk

open Tasks

inductive RefundError where
  | load (swapId : String) (source : StoreError)
  | alreadyTerminal (swapId state : String)
  | role (swapId : String) (source : EngineError)
  | noPresignedRefund (swapId : String) (chain : Chain) (lockTxid : String)
  | broadcast (swapId : String) (source : CryptoError)
  | persist (swapId txid : String) (source : StoreError)

inductive RefundVerdict where
  | broadcast (txid : String)
  | nothingLocked

/-- The txid of the leg that `role` locks. -/
def StoredSwap.ownLockTxid (rec : StoredSwap) (role : ClientRole) : Option String :=
  match role.clientLockChain with
  | .A => rec.lockATxid
  | .B => rec.lockBTxid

def nonEmpty (s : Option String) : Option String := s.filter (!Rust.isEmpty ·)

def StoredSwap.refundPresig (rec : StoredSwap) : Option AdaptorPresig :=
  match nonEmpty rec.refundPresigREnc, nonEmpty rec.refundPresigSp with
  | some rEnc, some sp => some ⟨rEnc, sp⟩
  | _, _ => none

/-- The guards of `execute_refund` and the request they let through; `none` when nothing of ours is
locked. -/
def refundRequest (swapId : String) (rec : StoredSwap) : Except RefundError (Option RefundRequest) :=
  if (DeskSwapState.parse rec.state).isTerminal then .error (.alreadyTerminal swapId rec.state)
  else
    match ClientRole.fromDeskRole rec.deskRole with
    | .error e => .error (.role swapId e)
    | .ok role =>
      match nonEmpty (rec.ownLockTxid role) with
      | none => .ok none
      | some lockTxid =>
        match rec.refundPresig with
        | none => .error (.noPresignedRefund swapId role.clientLockChain lockTxid)
        | some presig => .ok (some
            { swapId := rec.swapId
              pair := rec.pair
              direction := rec.direction
              refundAddress := rec.refundAddress
              refundPresig := presig
              chain := role.clientLockChain
              lockTxid := lockTxid
              provenance := KeyProvenance.parse rec.keyProvenance })

abbrev RefundBroadcaster := RefundRequest → DeskM CryptoError String

def unavailableRefundBroadcaster : RefundBroadcaster := fun req => do
  .ensure req.provenance.isReal .mockMaterialRefused
  .fail (.unavailable (s!"no refund broadcaster is wired for pair {req.pair} chain " ++
    s!"{req.chain.asStr} (swap {req.swapId}). The vendored engine library supplies the chain-leg " ++
    "transaction builders; until it is present the pre-signed refund stays on disk and must be " ++
    "published manually."))

def sidecarRefundBroadcaster : RefundBroadcaster := fun req => do
  .ensure req.provenance.isReal .mockMaterialRefused
  crypto.refund req.swapId

/-- `armed`: the vendored engine is the active provider. -/
def activeRefundBroadcaster (armed : Bool) : RefundBroadcaster :=
  if armed then sidecarRefundBroadcaster else unavailableRefundBroadcaster

def executeRefund (broadcaster : RefundBroadcaster) (swapId : String) :
    DeskM RefundError RefundVerdict := do
  let rec' ← (store.load swapId).mapErr (.load swapId)
  match ← .ofExcept (refundRequest swapId rec') with
  | none => return .nothingLocked
  | some req =>
    let txid ← (broadcaster req).mapErr (.broadcast swapId)
    (store.save (rec'.setRefunded txid)).mapErr (.persist swapId txid)
    return .broadcast txid

def executeRefundAndReport (armed : Bool) (swapId : String) : DeskM Unit Unit := do
  let _ ← (executeRefund (activeRefundBroadcaster armed) swapId).attempt
  return ()

/-! ## The deep abort -/

inductive DeepAbortDecision where
  | available
  | notLeader
  | tooEarly (secondsRemaining : Int)
  | alreadyTerminal
deriving DecidableEq

def deepAbortDecision (role : ClientRole) (state : String) (now t2 : Int) : DeepAbortDecision :=
  if (DeskSwapState.parse state).isTerminal then .alreadyTerminal
  else if role.clientLockChain != .A then .notLeader
  else if now < t2 then .tooEarly (Rust.wrapI64 (t2 - now))
  else .available

def engineT2ForDeepAbort (rec : StoredSwap) : Except String Int :=
  match rec.t2EngineUnix with
  | some t2 => .ok t2
  | none => .error ("no engine-derived T2 on the record (t2_engine_unix unset). When we lead it " ++
      "comes from our own engine's slots; when we follow, from AcceptResponse.t2Slot or the " ++
      "desk's effective-config. This record predates CC-2 or its accept could read " ++
      s!"neither source — refusing to schedule branch B3 off the ADVERTISED t2 ({rec.t2}), " ++
      "which is the number D48 proved can lie")

def deepAbortDecisionForRecord (rec : StoredSwap) (role : ClientRole) (now : Int) :
    Except String DeepAbortDecision :=
  (engineT2ForDeepAbort rec).map (deepAbortDecision role rec.state now)

/-- Whether the deep abort is ours to take on this record. -/
def deepAbortOpen (rec : StoredSwap) (now : Int) : Bool :=
  match ClientRole.fromDeskRole rec.deskRole with
  | .error _ => false
  | .ok role =>
    match deepAbortDecisionForRecord rec role now with
    | .ok .available => true
    | _ => false

/-- The swipe, and one more refund when it fails. -/
def takeDeepAbort (armed : Bool) (swapId : String) : DeskM Unit Bool := do
  match ← (crypto.swipe swapId).attempt with
  | .ok _ => return true
  | .error _ =>
    match ← (executeRefund (activeRefundBroadcaster armed) swapId).attempt with
    | .ok (.broadcast _) => return true
    | _ => return false

/-- Whether anything was published: the refund first, the deep abort only when it did not go out. -/
def executeDeepAbortAndReport (armed : Bool) (swapId : String) : DeskM Unit Bool := do
  match ← (executeRefund (activeRefundBroadcaster armed) swapId).attempt with
  | .ok (.broadcast _) => return true
  | .ok .nothingLocked => return false
  | .error (.alreadyTerminal _ _) => return false
  | .error _ =>
    match ← (store.load swapId).attempt with
    | .error _ => return false
    | .ok rec' =>
      if deepAbortOpen rec' (Rust.wrapI64 (← unixNow)) then takeDeepAbort armed swapId
      else return false

/-! ## The watchers -/

structure SwipePlan where
  armAtUnix : Option Nat
  standDown : Option String

def swipePlan (rec : StoredSwap) : SwipePlan :=
  let refuse (why : String) : SwipePlan := ⟨none, some why⟩
  if (DeskSwapState.parse rec.state).isTerminal then refuse
    s!"[desk::watch] swap {rec.swapId}: no swipe watcher — swap is already terminal ({rec.state})"
  else
    match ClientRole.fromDeskRole rec.deskRole with
    | .error e => refuse
        (s!"[desk::watch] swap {rec.swapId}: no swipe watcher — cannot determine our role " ++
          s!"({e.toString}); refusing to schedule branch B3 on a guess")
    | .ok role =>
      if role.clientLockChain != .A then refuse
        (s!"[desk::watch] swap {rec.swapId}: no swipe watcher for us — we are the FOLLOWER and " ++
          "branch B3 is Alice-only (leader-only, after T2). Our chain-B coin comes back by " ++
          "RECLAIM once the leader publishes its refund and leaks `s_a`; the reclaim watch covers " ++
          "that.")
      else
        match rec.t2EngineUnix with
        | some t2 => ⟨some t2.toNat, none⟩
        | none => refuse
            (s!"[desk::watch] swap {rec.swapId}: COULD-NOT-LOOK — we lead but the record carries no " ++
              "engine-derived T2 (predates CC-2, or its accept could read neither our engine's " ++
              "slots nor the desk's effective-config). NO swipe watcher is armed: a watcher on " ++
              s!"the ADVERTISED t2 ({rec.t2}) is worse than none — it fires early, the chain " ++
              "rejects the swipe, and the failure reads as 'the swipe failed' when the true answer " ++
              "is 'not yet' (D48). Branch B3 for this swap needs a manual `deep-abort` after the " ++
              "engine T2.")

/-- The cadence of both watchers, in seconds. -/
def WATCHER_POLL : Nat := 2

/-- Both watchers: `fire` once when the deadline passes, unless `stop` is raised first. Answers
whether it fired. -/
def runToDeadline (deadline : Nat) (stop : FlagRef) (fire : DeskM Unit Unit) : Nat → DeskM Unit Bool
  | 0 => .cut
  | n + 1 => do
    if ← flag.load stop then return false
    else if deadline ≤ (← unixNow) then
      fire
      return true
    else
      sleep WATCHER_POLL
      runToDeadline deadline stop fire n

inductive RefundOutcome where
  | refunded
  | stopped

def RefundWatcher.run (t1Unix : Nat) (stop : FlagRef) (onRefund : DeskM Unit Unit) (n : Nat) :
    DeskM Unit RefundOutcome := do
  return if ← runToDeadline t1Unix stop onRefund n then .refunded else .stopped

inductive SwipeOutcome where
  | fired
  | stopped

def SwipeWatcher.run (t2EngineUnix : Nat) (stop : FlagRef) (onT2 : DeskM Unit Unit) (n : Nat) :
    DeskM Unit SwipeOutcome := do
  return if ← runToDeadline t2EngineUnix stop onT2 n then .fired else .stopped

/-- What both watchers fire. -/
def fireDeepAbort (armed : Bool) (swapId : String) : DeskM Unit Unit := do
  let _ ← executeDeepAbortAndReport armed swapId
  return ()

/-- The refund watcher of a swap driven in this session. -/
def runRefundWatcher (armed : Bool) (swapId : String) (t1Unix : Nat) (stop : FlagRef) (n : Nat) :
    DeskM Unit Unit := do
  let _ ← RefundWatcher.run t1Unix stop (fireDeepAbort armed swapId) n
  return ()

def runSwipeWatch (armed : Bool) (swapId : String) (stop : FlagRef) (n : Nat) : DeskM Unit Unit := do
  match ← (store.load swapId).attempt with
  | .error _ => return ()
  | .ok rec' =>
    match (swipePlan rec').armAtUnix with
    | none => return ()
    | some t2 =>
      let _ ← SwipeWatcher.run t2 stop (fireDeepAbort armed swapId) n
      return ()

end Desk
