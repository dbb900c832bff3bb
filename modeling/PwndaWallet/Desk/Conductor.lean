import PwndaWallet.Desk.Op

/-!
# The conductor

`run_swap_choreography` (`desk/conductor.rs`) drives a swap from the accepted record to the claim:
`sellFollower` when the desk leads, `buyLeader` when we do. The loops are unfolded `n` times. Log
lines, and the clock and cell readings that feed only them, are left out.
-/

namespace Desk

open Tasks

inductive ConductorError where
  | notArmed
  | dataDirUnresolved
  | load (swapId : String) (source : StoreError)
  | role (swapId : String) (source : EngineError)
  | deskTerminal (swapId state : String)
  | preconditionTimeout (swapId : String) (chain : Chain)
  | claimSigTimeout (swapId : String)
  | preparedLockTimeout (swapId : String)
  | http (swapId step detail : String)
  | engine (swapId step : String) (source : CryptoError)
  | persist (swapId step : String) (source : StoreError)
  | protocol (swapId what : String)

inductive ConductorOutcome where
  | claimed (chain : Chain) (txid : String)
  | stoppedBeforeLockB (swapId : String)

inductive SecretSighting where
  | held
  | notYet (why : String)
  | neverWill (why : String)

def classifyExtraction (secretHeld : Bool) (reason : String) : SecretSighting :=
  if secretHeld then .held
  else
    let r := Rust.trim reason
    if Rust.eqIgnoreAsciiCase r "not-indexed" ||
        Rust.startsWith (Rust.toAsciiLowercase r) "error:" then .notYet r
    else .neverWill (if Rust.isEmpty r then "no reason given" else r)

inductive ClaimDestCheck where
  | agrees
  | disagrees
  | unpublished
  | agreedButNotOurs
deriving DecidableEq

def claimDestCheck (ours theirs nominated source : String) : ClaimDestCheck :=
  let ours := Rust.trim ours
  let theirs := Rust.trim theirs
  let nominated := Rust.trim nominated
  if Rust.isEmpty ours || Rust.isEmpty theirs then .unpublished
  else if ours != theirs then .disagrees
  else if Rust.isEmpty nominated then .agrees
  else if ours != nominated then .agreedButNotOurs
  else if Rust.eqIgnoreAsciiCase (Rust.trim source) "derived" then .agreedButNotOurs
  else .agrees

/-- The destination is none that the lock is refused for. -/
def ClaimDestCheck.Passes (c : ClaimDestCheck) : Prop := c ≠ .disagrees ∧ c ≠ .agreedButNotOurs

def stopBeforeLockBRequested (raw : Option String) : Bool :=
  match raw.map Rust.trim with
  | none => false
  | some v => !Rust.isEmpty v && !(["0", "false", "no", "off"].contains (Rust.toAsciiLowercase v))

def legUsesLegSigs (pair : String) : Bool := Rust.endsWith (Rust.toAsciiUppercase pair) "/LTC"

def STATUS_POLL_INTERVAL : Nat := 12

def MARGIN_SECS : Nat := 90

def driveDeadlineUnix (t1Unix : Int) : Nat := t1Unix.toNat - MARGIN_SECS

def REFUND_HOLD_GRACE_SECS : Nat := 150

def refundHoldUntil (t1Unix t2Unix : Int) : Nat :=
  Rust.saturatingAdd (max t1Unix t2Unix).toNat REFUND_HOLD_GRACE_SECS

/-! ## Waiting -/

section
variable {ε α : Type}

def deskTerminalOrStopped (swapId : String) : DeskM ε ConductorError := do
  match ← (client.status swapId).attempt with
  | .ok st => return .deskTerminal swapId st.state
  | .error _ => return .deskTerminal swapId "STOPPED"

/-- The `/status` loops: `look` decides on a reply, `late` is what the deadline means. -/
def pollStatus (swapId : String) (stop : FlagRef) (deadline : Nat) (onStop : DeskM ε α)
    (look : StatusResponse → Option (Except ε α)) (late : Except ε α) : Nat → DeskM ε α
  | 0 => .cut
  | n + 1 => do
    if ← flag.load stop then onStop
    else
      let seen := match ← (client.status swapId).attempt with
        | .ok st => look st
        | .error _ => none
      match seen with
      | some r => .ofExcept r
      | none =>
        if deadline ≤ (← unixNow) then .ofExcept late
        else
          sleep STATUS_POLL_INTERVAL
          pollStatus swapId stop deadline onStop look late n

end

def failStopped {α : Type} (swapId : String) : DeskM ConductorError α := do
  .fail (← deskTerminalOrStopped swapId)

def waitForPreparedLockUtxo (swapId : String) (stop : FlagRef) (t1Unix : Int) (n : Nat) :
    DeskM ConductorError LockUtxo :=
  pollStatus swapId stop (driveDeadlineUnix t1Unix) (failStopped swapId)
    (fun st => match st.lockUtxo with
      | some u => some (.ok u)
      | none =>
        if (DeskSwapState.parse st.state).isTerminal then some (.error (.deskTerminal swapId st.state))
        else none)
    (.error (.preparedLockTimeout swapId)) n

def waitForReleasedClaimSig (swapId : String) (stop : FlagRef) (t1Unix : Int) (n : Nat) :
    DeskM ConductorError AdaptorPresig :=
  pollStatus swapId stop (driveDeadlineUnix t1Unix) (failStopped swapId)
    (fun st => match st.releasedClaimSig with
      | some sig => some (.ok sig)
      | none =>
        if (DeskSwapState.parse st.state).isTerminal then some (.error (.deskTerminal swapId st.state))
        else none)
    (.error (.claimSigTimeout swapId)) n

inductive SettlementOutcome where
  | settled
  | unconfirmed
deriving DecidableEq

/-- The desk's SETTLED counts when it names our claim or none. -/
def settledBy (ourClaimTxid : String) (st : StatusResponse) : Bool :=
  (DeskSwapState.parse st.state).isSettled &&
    (Rust.isEmpty st.claimATxid || st.claimATxid == ourClaimTxid)

def waitForSettlement {ε : Type} (swapId ourClaimTxid : String) (stop : FlagRef) (t1Unix : Int)
    (n : Nat) : DeskM ε SettlementOutcome :=
  pollStatus swapId stop (driveDeadlineUnix t1Unix) (.ret .unconfirmed)
    (fun st => if settledBy ourClaimTxid st then some (.ok .settled) else none)
    (.ok .unconfirmed) n

def waitForDeskChainAClaim (swapId : String) (stop : FlagRef) (t1Unix : Int) (n : Nat) :
    DeskM ConductorError String :=
  pollStatus swapId stop (driveDeadlineUnix t1Unix) (failStopped swapId)
    (fun st =>
      if !Rust.isEmpty st.claimATxid then some (.ok st.claimATxid)
      else if (DeskSwapState.parse st.state).isTerminal && !(DeskSwapState.parse st.state).isSettled then
        some (.error (.deskTerminal swapId st.state))
      else none)
    (.error (.claimSigTimeout swapId)) n

inductive GateOutcome where
  | confirmed
  | stopped
  | deadline
deriving DecidableEq

/-- The gates: wait until `opens` accepts what the observer's cell says of the chain. -/
def waitForGate {ε : Type} (stop : FlagRef) (chain : Chain) (opens : LockSighting → Bool)
    (deadlineUnix poll : Nat) : Nat → DeskM ε GateOutcome
  | 0 => .cut
  | n + 1 => do
    if ← flag.load stop then return .stopped
    else
      let (cell, now) ← observe chain
      if opens (observeLock chain (maxAge POLL_INTERVAL) cell now) then return .confirmed
      else if deadlineUnix ≤ (← unixNow) then return .deadline
      else
        sleep poll
        waitForGate stop chain opens deadlineUnix poll n

def waitForLockGate {ε : Type} (stop : FlagRef) (minConfs deadlineUnix poll n : Nat) :
    DeskM ε GateOutcome :=
  waitForGate stop .A (fun s => (safeToLockFollower s minConfs).isOk) deadlineUnix poll n

def waitForReleaseGate {ε : Type} (stop : FlagRef) (minConfs deadlineUnix poll n : Nat) :
    DeskM ε GateOutcome :=
  waitForGate stop .B (fun s => (safeToReleaseClaimSig s false minConfs).isOk) deadlineUnix poll n

def ATTEMPTS : Nat := 24

def PAUSE_SECS : Nat := 8

/-- `n` attempts may still follow this one. -/
def retryWhileDeskBusy {α : Type} (call : DeskM ProxyError α) : Nat → DeskM ProxyError α
  | 0 => call
  | n + 1 => do
    match ← call.attempt with
    | .error .deskBusy | .error (.network _) =>
      sleep PAUSE_SECS
      retryWhileDeskBusy call n
    | .error e => .fail e
    | .ok a => return a

def persist (rec : StoredSwap) (step : String) : DeskM ConductorError Unit :=
  (store.save rec).mapErr (.persist rec.swapId step)

/-! ## Selling: the desk leads -/

/-- The leg signatures an LTC leg needs from our own engine. -/
def ownLegSigs (rec : StoredSwap) (produced : RefundSigExchange) :
    Except ConductorError (Option LegSigs) :=
  if legUsesLegSigs rec.pair then
    match produced.oursLegSigs with
    | some ls => .ok (some ls)
    | none => .error (.protocol rec.swapId
        (s!"M3 on {rec.pair} requires legSigs (refundParentSig + refundSpendSig) and our" ++
          "                          engine produced none. The desk fails closed without them - " ++
          "it will not                          fund a lock whose refund cannot be completed - so " ++
          "we stop here rather                          than send an M3 that cannot be honoured."))
  else .ok none

/-- M3: our refund pre-signature over the desk's prepared lock, sent and kept. -/
def sellExchange (stop : FlagRef) (rec : StoredSwap) (n : Nat) : DeskM ConductorError StoredSwap := do
  let swapId := rec.swapId
  let lockUtxo ← waitForPreparedLockUtxo swapId stop rec.t1 n
  (crypto.setLockUtxo swapId lockUtxo.txid lockUtxo.index (toString lockUtxo.amount)).mapErr
    (.engine swapId "set_lock_utxo")
  let produced ← (crypto.exchangeRefundSigs swapId none none).mapErr
    (.engine swapId "exchange_refund_sigs")
  let ours ← .orFail produced.ours (.protocol swapId
    ("M3: the follower produced no refund pre-signature (`ours` was null) — refusing to " ++
      "lock a leg we could not later reclaim"))
  let legSigs ← .ofExcept (ownLegSigs rec produced)
  let m3 ← (client.refundSigs swapId
    { refundPresig := ours, claimCosig := none, legSigs := legSigs, lockUtxo := none }).mapErr
    fun e => .http swapId "refund-sigs" e.toString
  let rec' := (rec.setRefundPresig ours).setClaimPresig m3.claimPresig
  persist rec' "refund-sigs"
  return rec'

/-- What a `/status` reply, or none, says of the claim destination and its source. -/
def claimDestOf : Except ProxyError StatusResponse → String × String
  | .ok s => (s.claimDest, s.claimDestSource)
  | .error _ => ("", "")

/-- `unwrap_or_default` -/
def textOf : Except CryptoError String → String
  | .ok d => d
  | .error _ => ""

/-- The check of the claim destination, as far as either side's can be read. -/
def checkClaimDest {ε : Type} (swapId nominated : String) :
    DeskM ε (ClaimDestCheck × String × String) := do
  let theirs := claimDestOf (← (client.status swapId).attempt)
  let ours := textOf (← (crypto.claimDest swapId).attempt)
  return (claimDestCheck ours theirs.1 nominated theirs.2, ours, theirs.1)

/-- The gate on the desk's chain-A lock, and the check of where our claim will pay. -/
def sellGate (stop : FlagRef) (rec : StoredSwap) (depths : SwapDepths) (n : Nat) :
    DeskM ConductorError Unit := do
  let swapId := rec.swapId
  match ← waitForLockGate stop depths.chainA (driveDeadlineUnix rec.t1) POLL_INTERVAL n with
  | .stopped => failStopped swapId
  | .deadline => .fail (.preconditionTimeout swapId .A)
  | .confirmed =>
    match ← checkClaimDest swapId rec.payoutAddress with
    | (.agrees, _, _) => return ()
    | (.unpublished, _, _) => return ()
    | (.disagrees, ours, theirs) => .fail (.protocol swapId
        (s!"claim destination MISMATCH before locking chain B: we would build the claim" ++
          s!"                      to {ours}, the desk will sign to {theirs}. Its claim " ++
          "pre-signature would bind                      a body we never construct, so the claim " ++
          "could not complete and both legs                      would ride to refund. Refusing to " ++
          "lock. (This is the C12/46d85388 fault,                      caught before the money " ++
          "moves rather than after.)"))
    | (.agreedButNotOurs, ours, _) => .fail (.protocol swapId
        (s!"claim destination AGREED but is NOT the address we nominated: both sides " ++
          s!"resolved {ours}, we asked for {rec.payoutAddress}. Both engines silently fell back to " ++
          "the derived per-swap address, which means our nomination failed the engine's " ++
          "is-this-an-ADA-address-for-this-network test. The claim would succeed and " ++
          "pay somewhere we did not choose. Refusing to lock. Check " ++
          "PWNDA_CLI_PAYOUT_ADDR — a mainnet address, an XMR address or a typo all " ++
          "land here, and both sides make the same substitution, so the two-party " ++
          "comparison cannot catch it."))

/-- The irreversible call on a sale, its txid kept and reported. -/
def sellLock (watchB : FlagRef) (rec : StoredSwap) : DeskM ConductorError StoredSwap := do
  let swapId := rec.swapId
  let lockTxid ← (crypto.lock swapId).mapErr (.engine swapId "lock")
  let rec' := (rec.setLockB lockTxid).setState "B_LOCKED"
  persist rec' "lock"
  flag.store watchB true
  let _ ← (client.lock swapId
    { chain := "B", lockTxid := lockTxid, amount := some rec.amountB, jointOutputProof := none }).attempt
  return rec'

/-- The desk's claim signature, our claim of chain A, and the wait for the desk's SETTLED. -/
def sellClaim (stop : FlagRef) (rec : StoredSwap) (n : Nat) : DeskM ConductorError ConductorOutcome := do
  let swapId := rec.swapId
  let presig ← waitForReleasedClaimSig swapId stop rec.t1 n
  (crypto.ingestClaimPresig swapId presig).mapErr (.engine swapId "ingest_claim_presig")
  let claimTxid ← (crypto.claim swapId).mapErr (.engine swapId "claim")
  let outcome ← waitForSettlement swapId claimTxid stop rec.t1 n
  persist (rec.setState (match outcome with
    | .settled => "SETTLED"
    | .unconfirmed => "A_CLAIMED")) "claim"
  return .claimed .A claimTxid

/-- `stopBefore` is the value of `PWNDA_CONDUCTOR_STOP_BEFORE_LOCK_B`. -/
def sellFollower (stopBefore : Option String) (stop watchB : FlagRef) (rec : StoredSwap)
    (depths : SwapDepths) (n : Nat) : DeskM ConductorError ConductorOutcome := do
  let armed ← sellExchange stop rec n
  sellGate stop armed depths n
  if stopBeforeLockBRequested stopBefore then
    persist (armed.setState "STOPPED_BEFORE_LOCK_B") "stop_before_lock_b"
    return .stoppedBeforeLockB armed.swapId
  else
    let locked ← sellLock watchB armed
    sellClaim stop locked n

/-! ## Buying: we lead -/

def MIN_REFUNDABLE_LOVELACE : Int := 2000000

def checkPreparedLockUtxo (swapId : String) (utxo : LockUtxo) : Except ConductorError Unit :=
  if 0 < utxo.amount ∧ utxo.amount < MIN_REFUNDABLE_LOVELACE then
    .error (.protocol swapId
      (s!"BUY: our prepared chain-A lock is {utxo.amount} lovelace " ++
        s!"({Rust.millionths utxo.amount.toNat} tADA), which cannot pay for " ++
        "its own refund — a Cardano refund needs the network fee plus min-UTxO on the " ++
        s!"output it returns, roughly {MIN_REFUNDABLE_LOVELACE} lovelace. Locking it would strand " ++
        "the coin: no refund could be built at T1. Refusing before M3; nothing is on chain.\n\n" ++
        "The usual cause is the AMOUNT DENOMINATION: `amountIn` is in coin_in, and coin_in " ++
        "flips with direction. 0.1 means 0.1 XMR on SELL but 0.1 ADA on BUY. To buy 0.1 " ++
        "XMR you pass roughly its ADA price, not 0.1."))
  else if Rust.isEmpty (Rust.trim utxo.txid) || utxo.amount == 0 then
    .error (.protocol swapId
      (s!"BUY: our prepared chain-A lock is not describable — txid {Rust.debugStr utxo.txid}, " ++
        s!"index {utxo.index}, amount {utxo.amount}. The desk binds its refund pre-signature to " ++
        "exactly this input, so an empty txid or a zero amount would produce a signature that " ++
        "protects nothing. Refusing before M3; nothing is on chain."))
  else .ok ()

/-- What an M3 whose pre-signature failed tells the desk's operator to compare. -/
def ourRefundTxidNote (ourRefundTxid : String) : String :=
  if Rust.isEmpty ourRefundTxid then
    " Our engine reported no derived refund txid (pre-6e5194b engine?)."
  else
    s!" We derived refund txid {ourRefundTxid}. The desk does not publish its own on this " ++
      "response, so relay ours and ask for theirs: equal txids mean the bodies " ++
      "agree and the signature is what failed; different txids mean the bodies " ++
      "differ, and the locked input, locked amount, destination and fee are what " ++
      "to compare."

/-- M3 led by us: the prepared lock goes out, the desk's pre-signature comes back, our engine
verifies it, the record keeps it. -/
def buyExchange (rec : StoredSwap) : DeskM ConductorError StoredSwap := do
  let swapId := rec.swapId
  let ourLockUtxo ← (crypto.prepareLock swapId).mapErr (.engine swapId "prepare_lock")
  .ofExcept (checkPreparedLockUtxo swapId ourLockUtxo)
  let produced ← (crypto.exchangeRefundSigs swapId none none).mapErr
    (.engine swapId "exchange_refund_sigs")
  let m3 ← (retryWhileDeskBusy (client.refundSigs swapId
    { refundPresig := produced.ours.getD ⟨"", ""⟩
      claimCosig := none
      legSigs := none
      lockUtxo := some ourLockUtxo }) (ATTEMPTS - 1)).mapErr
    fun e => .http swapId "refund-sigs" e.toString
  let exchange ← (crypto.exchangeRefundSigs swapId (some m3.refundPresig) m3.legSigs).mapErr
    (.engine swapId "verify_refund_presig")
  .ensure (!(legUsesLegSigs rec.pair && m3.legSigs.isNone)) (.protocol swapId
    (s!"M3 on {rec.pair} came back with NO legSigs. On this leg the chain-A recovery is two" ++
      "                  transactions and the desk is the producing side for both, so without " ++
      "them our                  chain-A lock would have no completable refund. Refusing before " ++
      "the lock."))
  .ensure exchange.verified (.protocol swapId
    ("M3: the desk's refund pre-signature does NOT adaptor-verify under S_a over our " ++
      "own canonical refund body (output-pinning failed). It would not reclaim our " ++
      "chain-A lock at T1, so we refuse to submit that lock. Nothing is on chain." ++
      ourRefundTxidNote exchange.ourRefundTxid))
  let rec' := (rec.setRefundPresig m3.refundPresig).setClaimPresig m3.claimPresig
  persist rec' "refund-sigs"
  return rec'

/-- Where the desk's claim will pay, against what we would pre-sign. -/
def buyClaimDest (rec : StoredSwap) : DeskM ConductorError Unit := do
  let swapId := rec.swapId
  match ← checkClaimDest swapId "" with
  | (.agrees, _, _) => return ()
  | (.unpublished, _, _) => return ()
  | (.disagrees, ours, theirs) => .fail (.protocol swapId
      (s!"claim destination MISMATCH before submitting our chain-A lock: we would " ++
        s!"pre-sign the claim to {ours}, the desk expects {theirs}. Our claim " ++
        "pre-signature would bind a body it never submits, so it could not complete " ++
        "the swap and both legs would ride to refund. Refusing to lock — nothing is " ++
        "on chain."))
  | (.agreedButNotOurs, ours, _) => .fail (.protocol swapId
      (s!"claim destination {ours} agreed but flagged as not ours, on a BUY where " ++
        "we nominate none. This should be unreachable — treat it as a bug in the " ++
        "guard's arguments rather than a protocol fault, and do not lock."))

def refundDestOf : Except ProxyError StatusResponse → String × String
  | .ok s => (s.refundDest, s.refundDestSource)
  | .error _ => ("", "")

/-- Where the refund we rely on at T1 will pay, against the address we nominated. -/
def buyRefundDest (rec : StoredSwap) : DeskM ConductorError Unit := do
  let swapId := rec.swapId
  let theirs := refundDestOf (← (client.status swapId).attempt)
  let ours := textOf ((← (crypto.refundDest swapId).attempt).map (·.1))
  match claimDestCheck ours theirs.1 rec.refundAddress theirs.2 with
  | .agrees => return ()
  | .unpublished => return ()
  | .disagrees | .agreedButNotOurs => .fail (.protocol swapId
      (s!"refund destination MISMATCH before submitting our chain-A lock: we would " ++
        s!"build the refund to {ours}, the desk to {theirs.1} (source " ++
        s!"{theirs.2}), and we nominated {rec.refundAddress}. The refund pre-signature we " ++
        "depend on for T1 recovery would pay somewhere we did not choose — which " ++
        "is how 19.82 tADA landed at a derived address on swap 967c76b9. Refusing " ++
        "to lock; nothing is on chain."))

/-- The irreversible call on a purchase, its txid kept and reported. -/
def buyLock (watchB : FlagRef) (rec : StoredSwap) : DeskM ConductorError StoredSwap := do
  let swapId := rec.swapId
  let lockTxid ← (crypto.submitLock swapId).mapErr (.engine swapId "submit_lock")
  let rec' := (rec.setLockA lockTxid).setState "A_LOCKED"
  persist rec' "lock"
  flag.store watchB true
  let _ ← (client.lock swapId
    { chain := "A", lockTxid := lockTxid, amount := some rec.amountA, jointOutputProof := none }).attempt
  return rec'

def lockBTxidOf : Except ProxyError StatusResponse → String
  | .ok st => st.lockBTxid
  | .error _ => ""

/-- Hand the desk's chain-B lock txid to the engine, which may be busy. -/
def relayOnce (rec : StoredSwap) (txid : String) : DeskM ConductorError (Option StoredSwap) := do
  if Rust.isEmpty txid then return none
  else
    match ← (crypto.setLockBTxid rec.swapId txid).attempt with
    | .error e =>
      if e.isTransientBusy then return none else .fail (.engine rec.swapId "set_lock_b_txid" e)
    | .ok () =>
      persist (rec.setLockB txid) "lock-b-txid"
      return some (rec.setLockB txid)

/-- Wait for the desk's chain-B lock txid. -/
def relayLockBTxid (stop : FlagRef) (rec : StoredSwap) : Nat → DeskM ConductorError StoredSwap
  | 0 => .cut
  | n + 1 => do
    let swapId := rec.swapId
    if ← flag.load stop then failStopped swapId
    else
      match ← relayOnce rec (lockBTxidOf (← (client.status swapId).attempt)) with
      | some rec' => return rec'
      | none =>
        if driveDeadlineUnix rec.t1 ≤ (← unixNow) then .fail (.preconditionTimeout swapId .B)
        else
          sleep POLL_INTERVAL
          relayLockBTxid stop rec n

/-- Keep the process for the refund windows after a gate ran into its deadline. -/
def holdOpenForRefund {ε : Type} (t1Unix t2Unix : Int) (stop watchB : FlagRef) (n : Nat) :
    DeskM ε Unit := do
  let _ ← flag.swap watchB false
  let until_ := refundHoldUntil t1Unix t2Unix
  if until_ ≤ (← unixNow) then return ()
  else hold until_ n
where
  hold (until_ : Nat) : Nat → DeskM ε Unit
    | 0 => .cut
    | n + 1 => do
      if (← unixNow) < until_ then
        if ← flag.load stop then return ()
        else
          sleep POLL_INTERVAL
          hold until_ n
      else return ()

/-- The gate on the desk's chain-B lock, and a last relay of its txid. -/
def buyGate (stop watchB : FlagRef) (rec : StoredSwap) (depths : SwapDepths) (n : Nat) :
    DeskM ConductorError Unit := do
  let swapId := rec.swapId
  match ← waitForReleaseGate stop depths.chainB (driveDeadlineUnix rec.t1) POLL_INTERVAL n with
  | .stopped => failStopped swapId
  | .deadline =>
    holdOpenForRefund rec.t1 (max rec.t2 (rec.t2EngineUnix.getD rec.t2)) stop watchB n
    .fail (.preconditionTimeout swapId .B)
  | .confirmed =>
    match ← (client.status swapId).attempt with
    | .error _ => return ()
    | .ok st =>
      if Rust.isEmpty st.lockBTxid then return ()
      else
        let _ ← (crypto.setLockBTxid swapId st.lockBTxid).attempt
        return ()

/-- Our claim signature goes out. -/
def buyRelease (rec : StoredSwap) : DeskM ConductorError Unit := do
  let swapId := rec.swapId
  let claimSig ← (crypto.releaseClaimSig swapId true).mapErr (.engine swapId "release_claim_sig")
  let _ ← (retryWhileDeskBusy (client.readyAck swapId
    { ack := true, claimAdaptorSig := some claimSig }) (ATTEMPTS - 1)).mapErr
    fun e => .http swapId "ready-ack" e.toString

/-- Read `t` out of the desk's chain-A claim. -/
def extractLoop (swapId claimATxid : String) (stop : FlagRef) (deadline : Nat) :
    Nat → DeskM ConductorError Unit
  | 0 => .cut
  | n + 1 => do
    if ← flag.load stop then failStopped swapId
    else
      let e ← (crypto.extractSecret swapId claimATxid).mapErr (.engine swapId "extract_secret")
      match classifyExtraction e.secretHeld e.reason with
      | .held => return ()
      | .neverWill why => .fail (.protocol swapId
          (s!"extract_secret from the desk's chain-A claim {claimATxid} will NOT " ++
            s!"yield `t` on this configuration ({why}); retrying would burn the " ++
            "window for nothing, so we stop. The leader `claim` refuses without " ++
            "`t` and we do not call it."))
      | .notYet why =>
        if deadline ≤ (← unixNow) then .fail (.protocol swapId
          (s!"extract_secret from {claimATxid} still reports `{why}` at the " ++
            "drive deadline. `t` is on chain permanently, so this is " ++
            "recoverable at any later time with Invoke-Settle — nothing is " ++
            "lost, it is simply not finished."))
        else
          sleep POLL_INTERVAL
          extractLoop swapId claimATxid stop deadline n

/-- Our claim of chain B with the `t` that the desk's claim revealed. -/
def buyClaim (stop : FlagRef) (rec : StoredSwap) (n : Nat) : DeskM ConductorError ConductorOutcome := do
  let swapId := rec.swapId
  let claimATxid ← waitForDeskChainAClaim swapId stop rec.t1 n
  extractLoop swapId claimATxid stop (driveDeadlineUnix rec.t1) n
  let sweepTxid ← (crypto.claim swapId).mapErr (.engine swapId "claim")
  persist (rec.setState "SETTLED") "claim"
  return .claimed .B sweepTxid

def buyLeader (stop watchB : FlagRef) (rec : StoredSwap) (depths : SwapDepths) (n : Nat) :
    DeskM ConductorError ConductorOutcome := do
  let armed ← buyExchange rec
  buyClaimDest armed
  buyRefundDest armed
  let locked ← buyLock watchB armed
  let both ← relayLockBTxid stop locked n
  buyGate stop watchB both depths n
  buyRelease both
  buyClaim stop both n

/-! ## The choreography -/

def spawnRecoveryWatchers {ε : Type} (swapId : String) (t1Unix : Int) (stop : FlagRef) : DeskM ε Unit := do
  spawn (.reclaimWatch swapId stop)
  spawn (.refundWatcher swapId t1Unix.toNat stop)
  spawn (.swipeWatch swapId stop)

/-- The record says that nothing of ours is locked, or that the swap is over. -/
def standsDown (role : ClientRole) (rec : StoredSwap) : Bool :=
  let ourLock := match role with
    | .follower => rec.lockBTxid
    | .leader => rec.lockATxid
  let locked := match ourLock with
    | some t => !Rust.isEmpty t
    | none => false
  let st := DeskSwapState.parse rec.state
  !locked || st.isSettled || st.isRecoveredOrFailed

def shouldStandDown {ε : Type} (swapId : String) (role : ClientRole) : DeskM ε Bool := do
  match ← (store.load swapId).attempt with
  | .error _ => return false
  | .ok rec => return standsDown role rec

/-- The window to hold the process for after a drive that failed; `none` when nothing of ours is locked. -/
def recoveryHoldBound (rec : StoredSwap) : Option (Int × Int) :=
  if (DeskSwapState.parse rec.state).isTerminal then none
  else
    match ClientRole.fromDeskRole rec.deskRole with
    | .error _ => none
    | .ok role =>
      let ours := match role.clientLockChain with
        | .A => rec.lockATxid
        | .B => rec.lockBTxid
      if (ours.map Rust.isEmpty).getD true then none
      else some (rec.t1, max rec.t2 (rec.t2EngineUnix.getD rec.t2))

/-- The depths both gates use: one poll before anything starts. -/
def readDepths (swapId : String) : DeskM ConductorError SwapDepths := do
  match ← (client.status swapId).attempt with
  | .ok st =>
    if (DeskSwapState.parse st.state).isTerminal then .fail (.deskTerminal swapId st.state)
    else return .fromStatus st.minConfsA st.minConfsB
  | .error _ => return .fromStatus 0 0

/-- `armed`: the vendored engine is the active provider. -/
def runSwapChoreography (armed : Bool) (stopBefore : Option String) (n : Nat) (swapId : String) :
    DeskM ConductorError ConductorOutcome := do
  .ensure armed .notArmed
  let dir ← .orFail (← store.dataDir) .dataDirUnresolved
  (store.openStore dir).mapErr (.load swapId)
  let swap ← (store.load swapId).mapErr (.load swapId)
  let role ← .ofExcept ((ClientRole.fromDeskRole swap.deskRole).mapError (.role swapId))
  let depths ← readDepths swapId
  let stop ← watchers.register swapId
  spawnRecoveryWatchers swapId swap.t1 stop
  let watchB ← flag.new swap.lockBTxid.isSome
  spawn (.pollLoop swapId stop watchB)
  let result ← (match role with
    | .follower => sellFollower stopBefore stop watchB swap depths n
    | .leader => buyLeader stop watchB swap depths n).attempt
  if ← shouldStandDown swapId role then
    flag.store stop true
    watchers.clear swapId
    .ofExcept result
  else .ofExcept result

end Desk
