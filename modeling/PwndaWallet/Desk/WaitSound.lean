import PwndaWallet.Lib.Trace
import PwndaWallet.Desk.Conductor

/-!
# What the waits ask

The poll loops, the retries and the destination check of the conductor never move value
(`uses_pollStatus` and its like), and a gate that opens has just read the cell that opens it
(`safe_waitForGate`).
-/

namespace Desk

open Tasks

abbrev DeskEv := Ev Op.Ans

/-- The engine calls that put something on a chain or hand out our claim signature. -/
def MovesValue : Op → Prop
  | .crypto (.lock _) => True
  | .crypto (.submitLock _) => True
  | .crypto (.claim _) => True
  | .crypto (.swipe _) => True
  | .crypto (.refund _) => True
  | .crypto (.reclaim _ _) => True
  | .crypto (.releaseClaimSig _ _) => True
  | _ => False

/-- Everything else. -/
def Quiet (o : Op) : Prop := ¬ MovesValue o

theorem quiet_client (c : ClientCall) : Quiet (.client c) := id

theorem quiet_store (c : StoreCall) : Quiet (.store c) := id

theorem quiet_flag (c : FlagCall) : Quiet (.flag c) := id

theorem quiet_observe (chain : Chain) : Quiet (.observe chain) := id

theorem quiet_unixNow : Quiet .unixNow := id

theorem quiet_sleep (secs : Nat) : Quiet (.sleep secs) := id

theorem quiet_setLockUtxo (id_ txid : String) (index : Int) (amount : String) :
    Quiet (.crypto (.setLockUtxo id_ txid index amount)) := id

theorem quiet_exchangeRefundSigs (id_ : String) (p : Option AdaptorPresig) (l : Option LegSigs) :
    Quiet (.crypto (.exchangeRefundSigs id_ p l)) := id

theorem quiet_prepareLock (id_ : String) : Quiet (.crypto (.prepareLock id_)) := id

theorem quiet_setLockBTxid (id_ txid : String) : Quiet (.crypto (.setLockBTxid id_ txid)) := id

theorem quiet_refundDest (id_ : String) : Quiet (.crypto (.refundDest id_)) := id

/-- What the poll loops ask. -/
def Waits : Op → Prop
  | .client (.status _) => True
  | .flag (.load _) => True
  | .observe _ => True
  | .unixNow => True
  | .sleep _ => True
  | _ => False

theorem quiet_of_waits (o : Op) (h : Waits o) : Quiet o := fun hm => by
  cases o with
  | crypto c => exact h
  | _ => exact hm

section
variable {P : Op → Prop} (hw : ∀ o, Waits o → P o) {ε α : Type}
include hw

theorem uses_status (swapId : String) :
    Uses P ((client.status swapId).attempt : DeskM ε (Except ProxyError StatusResponse)) :=
  .attempt ⟨hw _ trivial, fun _ => .ofExcept _⟩

theorem uses_deskTerminalOrStopped (swapId : String) :
    Uses P (deskTerminalOrStopped swapId : DeskM ε ConductorError) := by
  refine .bind (uses_status hw swapId) fun r => ?_
  cases r <;> exact trivial

theorem uses_failStopped (swapId : String) : Uses P (failStopped swapId : DeskM ConductorError α) :=
  .bind (uses_deskTerminalOrStopped hw swapId) fun _ => trivial

theorem uses_pollStatus {swapId : String} {stop : FlagRef} {deadline : Nat} {onStop : DeskM ε α}
    {look : StatusResponse → Option (Except ε α)} {late : Except ε α} (hs : Uses P onStop) (n : Nat) :
    Uses P (pollStatus swapId stop deadline onStop look late n) := by
  induction n with
  | zero => exact trivial
  | succ n ih =>
    refine .bind (.ask (hw _ trivial)) fun b => .ite hs (.bind (uses_status hw swapId) fun r => ?_)
    dsimp only
    split
    · exact .ofExcept _
    · refine .bind (.ask (hw _ trivial)) fun t => .ite (.ofExcept _) ?_
      exact .bind (.ask (hw _ trivial)) fun _ => ih

theorem uses_waitForPreparedLockUtxo (swapId : String) (stop : FlagRef) (t1 : Int) (n : Nat) :
    Uses P (waitForPreparedLockUtxo swapId stop t1 n) :=
  uses_pollStatus hw (uses_failStopped hw swapId) n

theorem uses_waitForReleasedClaimSig (swapId : String) (stop : FlagRef) (t1 : Int) (n : Nat) :
    Uses P (waitForReleasedClaimSig swapId stop t1 n) :=
  uses_pollStatus hw (uses_failStopped hw swapId) n

theorem uses_waitForSettlement (swapId claim : String) (stop : FlagRef) (t1 : Int) (n : Nat) :
    Uses P (waitForSettlement swapId claim stop t1 n : DeskM ε SettlementOutcome) :=
  uses_pollStatus hw (show Uses P (.ret .unconfirmed : DeskM ε SettlementOutcome) from trivial) n

theorem uses_waitForDeskChainAClaim (swapId : String) (stop : FlagRef) (t1 : Int) (n : Nat) :
    Uses P (waitForDeskChainAClaim swapId stop t1 n) :=
  uses_pollStatus hw (uses_failStopped hw swapId) n

theorem uses_waitForGate {stop : FlagRef} {chain : Chain} {opens : LockSighting → Bool}
    {deadline poll : Nat} (n : Nat) :
    Uses P (waitForGate stop chain opens deadline poll n : DeskM ε GateOutcome) := by
  induction n with
  | zero => exact trivial
  | succ n ih =>
    refine .bind (.ask (hw _ trivial)) fun b => .ite trivial ?_
    refine .bind (.ask (hw _ trivial)) fun x => .ite trivial ?_
    refine .bind (.ask (hw _ trivial)) fun t => .ite trivial ?_
    exact .bind (.ask (hw _ trivial)) fun _ => ih

theorem uses_retryWhileDeskBusy {call : DeskM ProxyError α} (hc : Uses P call) (n : Nat) :
    Uses P (retryWhileDeskBusy call n) := by
  induction n with
  | zero => exact hc
  | succ n ih =>
    refine .bind (.attempt hc) fun r => ?_
    split
    · exact .bind (.ask (hw _ trivial)) fun _ => ih
    · exact .bind (.ask (hw _ trivial)) fun _ => ih
    · exact trivial
    · exact trivial

theorem uses_hold (stop : FlagRef) (u n : Nat) :
    Uses P (holdOpenForRefund.hold stop u n : DeskM ε Unit) := by
  induction n with
  | zero => exact trivial
  | succ n ih =>
    refine .bind (.ask (hw _ trivial)) fun t => .ite ?_ trivial
    refine .bind (.ask (hw _ trivial)) fun b => .ite trivial ?_
    exact .bind (.ask (hw _ trivial)) fun _ => ih

theorem uses_holdOpenForRefund {watchB : FlagRef} (hs : P (.flag (.swap watchB false))) (t1 t2 : Int)
    (stop : FlagRef) (n : Nat) :
    Uses P (holdOpenForRefund t1 t2 stop watchB n : DeskM ε Unit) :=
  .bind (.ask hs) fun _ => .bind (.ask (hw _ trivial)) fun _ => .ite trivial (uses_hold hw stop _ n)

end

theorem uses_persist (rec : StoredSwap) (step : String) : Uses Quiet (persist rec step) :=
  .mapErr ⟨id, fun _ => .ofExcept _⟩

/-! ## Waits in the logic of histories -/

section
variable {must : Op → List DeskEv → Prop} (hq : ∀ o h, Quiet o → must o h) {ε α : Type}
include hq

/-- A quiet part of a task, as one step. -/
theorem safe_quiet {p : DeskM ε α} (hp : Uses Quiet p) (h : List DeskEv) :
    Safe (.hist must) p (OnOk fun _ h' => Ext Quiet h h') h :=
  (safe_of_uses hp hq h).mono fun r _ hr => by
    cases r with
    | ok a => exact hr
    | error e => exact trivial

/-- A stopped task only asks once more why, and fails. -/
theorem safe_failStopped (swapId : String) {P : α → List DeskEv → Prop} (h : List DeskEv) :
    Safe (.hist must) (failStopped swapId) (OnOk P) h :=
  Safe.bind_ok (safe_quiet hq (uses_deskTerminalOrStopped quiet_of_waits swapId) h) fun _ _ _ => Safe.fail_ok

end

/-- The last event of `h'` is a reading of the chain's cell that is fresh to `n`; nothing since `h`
moved value. -/
def JustRead (chain : Chain) (n : Nat) (h h' : List DeskEv) : Prop :=
  ∃ pre cell now, Ext Quiet h pre ∧ h' = pre ++ [⟨.observe chain, (cell, now)⟩] ∧
    cell.Fresh (maxAge POLL_INTERVAL) n now

theorem JustRead.ext {chain : Chain} {n : Nat} {h h' : List DeskEv} (hj : JustRead chain n h h') :
    Ext Quiet h h' := by
  obtain ⟨pre, cell, now, he, rfl, _⟩ := hj
  exact he.snoc (quiet_observe chain)

section
variable {must : Op → List DeskEv → Prop} (hq : ∀ o h, Quiet o → must o h) {ε α : Type}
include hq

theorem safe_waitForGate {stop : FlagRef} {chain : Chain} {opens : LockSighting → Bool}
    {confs deadline poll : Nat} (ho : ∀ s, opens s = true → s.isConfirmedTo confs = true) (n : Nat)
    (h : List DeskEv) :
    Safe (.hist must) (waitForGate stop chain opens deadline poll n : DeskM ε GateOutcome)
      (OnOk fun g h' => Ext Quiet h h' ∧ (g = .confirmed → JustRead chain confs h h')) h := by
  suffices ∀ h', Ext Quiet h h' → Safe (.hist must)
      (waitForGate stop chain opens deadline poll n : DeskM ε GateOutcome)
      (OnOk fun g h' => Ext Quiet h h' ∧ (g = .confirmed → JustRead chain confs h h')) h' from
    this h (.refl _ h)
  induction n with
  | zero => exact fun _ _ => safe_cut.2 trivial
  | succ n ih =>
    intro h' he
    unfold waitForGate
    refine safe_ask_hist (hq _ _ id) fun b => ?_
    have h₁ := he.snoc (r := b) (quiet_flag _)
    refine Safe.ite (fun _ => safe_ret.2 ⟨h₁, fun hc => nomatch hc⟩) fun _ => ?_
    refine safe_ask_hist (hq _ _ id) fun ⟨cell, now⟩ => ?_
    have h₂ := h₁.snoc (r := (cell, now)) (quiet_observe chain)
    refine Safe.ite (fun hop => safe_ret.2 ⟨h₂, fun _ =>
      ⟨_, cell, now, h₁, rfl, fresh_of_isConfirmedTo (ho _ hop)⟩⟩) fun _ => ?_
    refine safe_ask_hist (hq _ _ id) fun t => ?_
    have h₃ := h₂.snoc (r := t) quiet_unixNow
    refine Safe.ite (fun _ => safe_ret.2 ⟨h₃, fun hc => nomatch hc⟩) fun _ => ?_
    exact safe_ask_hist (hq _ _ id) fun u => ih _ (h₃.snoc (quiet_sleep _))

theorem safe_waitForLockGate (stop : FlagRef) (minConfs deadline poll n : Nat) (h : List DeskEv) :
    Safe (.hist must) (waitForLockGate stop minConfs deadline poll n : DeskM ε GateOutcome)
      (OnOk fun g h' => Ext Quiet h h' ∧ (g = .confirmed → JustRead .A minConfs h h')) h :=
  safe_waitForGate hq (fun _ h => judge_isOk ▸ h) n h

theorem safe_waitForReleaseGate (stop : FlagRef) (minConfs deadline poll n : Nat) (h : List DeskEv) :
    Safe (.hist must) (waitForReleaseGate stop minConfs deadline poll n : DeskM ε GateOutcome)
      (OnOk fun g h' => Ext Quiet h h' ∧ (g = .confirmed → JustRead .B minConfs h h')) h :=
  safe_waitForGate hq (fun _ h => judge_isOk ▸ h) n h

/-- A retried request ends with an answer to it. -/
theorem safe_retryWhileDeskBusy {o : Op} {judge : o.Ans → Except ProxyError α} (ho : Quiet o) (n : Nat)
    (h : List DeskEv) :
    Safe (.hist must) (retryWhileDeskBusy (.request o judge) n) (OnOk fun a h' =>
      ∃ pre r, Ext Quiet h pre ∧ h' = pre ++ [⟨o, r⟩] ∧ judge r = .ok a) h := by
  suffices ∀ h', Ext Quiet h h' → Safe (.hist must) (retryWhileDeskBusy (.request o judge) n)
      (OnOk fun a h' => ∃ pre r, Ext Quiet h pre ∧ h' = pre ++ [⟨o, r⟩] ∧ judge r = .ok a) h' from
    this h (.refl _ h)
  induction n with
  | zero =>
    refine fun h' he => safe_request_hist (hq _ _ ho) fun r => ?_
    cases hj : judge r with
    | ok a => exact ⟨h', r, he, rfl, hj⟩
    | error e => trivial
  | succ n ih =>
    refine fun h' he => safe_attempt_hist (hq _ _ ho) fun r => ?_
    split
    · exact safe_ask_hist (hq _ _ id) fun _ => ih _ ((he.snoc ho).snoc (quiet_sleep _))
    · exact safe_ask_hist (hq _ _ id) fun _ => ih _ ((he.snoc ho).snoc (quiet_sleep _))
    · exact Safe.fail_ok
    · rename_i a hj
      exact safe_ret.2 ⟨h', r, he, rfl, hj⟩

end

/-- Between `pre` and `h` the destination check was made, and its verdict is that of the two
answers. -/
def DestRead (swapId nominated : String) (c : ClaimDestCheck) (pre h : List DeskEv) : Prop :=
  ∃ st d, h = pre ++ [⟨.client (.status swapId), st⟩] ++ [⟨.crypto (.claimDest swapId), d⟩] ∧
    c = claimDestCheck (textOf d) (claimDestOf st).1 nominated (claimDestOf st).2

theorem DestRead.ext {swapId nominated : String} {c : ClaimDestCheck} {pre h : List DeskEv}
    (hd : DestRead swapId nominated c pre h) : Ext Quiet pre h := by
  obtain ⟨st, d, rfl, _⟩ := hd
  exact ((Ext.refl _ pre).snoc (quiet_client _)).snoc id

section
variable {must : Op → List DeskEv → Prop} (hq : ∀ o h, Quiet o → must o h) {ε α : Type}
include hq

theorem safe_checkClaimDest (swapId nominated : String) (h : List DeskEv) :
    Safe (.hist must) (checkClaimDest swapId nominated : DeskM ε _)
      (OnOk fun x h' => DestRead swapId nominated x.1 h h') h := by
  refine safe_attempt_hist (hq _ _ id) fun st => safe_attempt_hist (hq _ _ id) fun d => ?_
  exact safe_ret.2 ⟨st, d, rfl, rfl⟩

end

end Desk
