import PwndaWallet.Desk.Op

/-!
# The reclaim path

A follower's way back (`desk/reclaim.rs`): discover the spend of the chain-A lock, read the leader's
secret out of it, and sweep our chain-B lock.
-/

namespace Desk

open Tasks

inductive ReclaimError where
  | load (swapId : String) (source : StoreError)
  | role (swapId : String) (source : EngineError)
  | secretUnreachable (swapId refundTxid reason : String)
  | extract (swapId refundTxid : String) (source : CryptoError)
  | broadcast (swapId : String) (source : CryptoError)
  | persist (swapId txid : String) (source : StoreError)

inductive ReclaimVerdict where
  | reclaimed (txid : String)
  | nothingToReclaim
  | secretNotYetReadable (reason : String)
  | alreadyReclaimed (txid : String)
  | notTheRefund (txid reason : String)
  | swiped (txid reason : String)

/-- What the record says before the chain is asked: done, nothing of ours, or `none` to go on. -/
def reclaimGuard (swapId : String) (rec : StoredSwap) : Except ReclaimError (Option ReclaimVerdict) :=
  match rec.reclaimTxid.filter (!Rust.isEmpty ·) with
  | some t => .ok (some (.alreadyReclaimed t))
  | none =>
    match ClientRole.fromDeskRole rec.deskRole with
    | .error e => .error (.role swapId e)
    | .ok role =>
      if role != .follower then .ok (some .nothingToReclaim)
      else if (rec.lockBTxid.map Rust.isEmpty).getD true then .ok (some .nothingToReclaim)
      else .ok none

/-- What an extraction without the secret is reported as; `none` when the secret is held. -/
def reclaimOutlook (swapId refundTxid : String) (e : SecretExtraction) :
    Except ReclaimError (Option ReclaimVerdict) :=
  match e.outlook with
  | .held => .ok none
  | .retryLater => .ok (some (.secretNotYetReadable e.reason))
  | .wrongTxid => .ok (some (.notTheRefund refundTxid e.reason))
  | .impossible => .error (.secretUnreachable swapId refundTxid e.reason)
  | .swiped => .ok (some (.swiped refundTxid e.reason))

def attemptReclaim (swapId refundTxid : String) (restoreHeight : Option Int) :
    DeskM ReclaimError ReclaimVerdict := do
  let rec' ← (store.load swapId).mapErr (.load swapId)
  match ← .ofExcept (reclaimGuard swapId rec') with
  | some verdict => return verdict
  | none =>
    let extraction ← (crypto.extractSecret swapId refundTxid).mapErr (.extract swapId refundTxid)
    match ← .ofExcept (reclaimOutlook swapId refundTxid extraction) with
    | some verdict => return verdict
    | none =>
      let txid ← (crypto.reclaim swapId restoreHeight).mapErr (.broadcast swapId)
      (store.save (rec'.setReclaimed txid)).mapErr (.persist swapId txid)
      return .reclaimed txid

/-- What the watch does after an attempt: end, or go on with these txids ruled out. -/
def afterAttempt (ruledOut : List String) :
    Except ReclaimError ReclaimVerdict → Option (List String)
  | .ok (.reclaimed _) => none
  | .ok (.alreadyReclaimed _) => none
  | .ok .nothingToReclaim => none
  | .ok (.notTheRefund txid _) => some (txid :: ruledOut)
  | .ok (.swiped _ _) => none
  | .ok (.secretNotYetReadable _) => some ruledOut
  | .error (.secretUnreachable _ _ _) => none
  | .error _ => some ruledOut

/-- One look at the lock, and the attempt it may lead to. -/
def reclaimTick (swapId : String) (ruledOut : List String) : DeskM Unit (Option (List String)) := do
  match ← (crypto.watchScriptSpend swapId).attempt with
  | .ok (.spent txid) =>
    if ruledOut.contains txid then return some ruledOut
    else return afterAttempt ruledOut (← (attemptReclaim swapId txid none).attempt)
  | .ok .notSpent => return some ruledOut
  | .ok (.couldNotLook _) => return some ruledOut
  | .error _ => return some ruledOut

/-- The watch with the txids that were shown not to be the refund. -/
def reclaimLoop (swapId : String) (stop : FlagRef) (ruledOut : List String) : Nat → DeskM Unit Unit
  | 0 => .cut
  | n + 1 => do
    if ← flag.load stop then return ()
    else
      match ← reclaimTick swapId ruledOut with
      | none => return ()
      | some ruledOut =>
        sleep POLL_INTERVAL
        reclaimLoop swapId stop ruledOut n

def runReclaimWatch (swapId : String) (stop : FlagRef) (n : Nat) : DeskM Unit Unit :=
  reclaimLoop swapId stop [] n

end Desk
