import PwndaWallet.Desk.Registry
import PwndaWallet.Desk.WaitSound
import PwndaWallet.Lib.Monitor

/-!
# What a task does with its stop flags

A task hands on only the flags that it registered, lowers none of them, and asks nothing after it has
cleared the registry (`leashed_body`).
-/

namespace Desk

open Tasks

/-- What leaves the registry alone and the flags but those of `own`. -/
def Tame (own : FlagRef → Prop) : Op → Prop
  | .watchers (.register _) => False
  | .watchers (.clear _) => False
  | .flag (.new _) => False
  | .flag (.store f _) => own f
  | .flag (.swap f _) => own f
  | .spawn _ => False
  | _ => True

theorem tame_of_waits {own : FlagRef → Prop} (o : Op) (h : Waits o) : Tame own o := by
  cases o with
  | flag c => cases c with
    | load f => exact trivial
    | _ => exact h.elim
  | watchers c => exact h.elim
  | spawn t => exact h.elim
  | _ => exact trivial

/-! ## The recovery tasks and the commands -/

section
variable {own : FlagRef → Prop} {ε α : Type}

theorem tame_broadcast (armed : Bool) (req : RefundRequest) :
    Uses (Tame own) (activeRefundBroadcaster armed req) := by
  cases armed
  · exact .bind (.ensure _ _) fun _ => trivial
  · exact .bind (.ensure _ _) fun _ => .request trivial

theorem tame_executeRefund (armed : Bool) (id_ : String) :
    Uses (Tame own) (executeRefund (activeRefundBroadcaster armed) id_) := by
  refine .bind (.mapErr (.request trivial)) fun rec => .bind (.ofExcept _) fun req => ?_
  cases req with
  | none => exact trivial
  | some req =>
    refine .bind (.mapErr (tame_broadcast armed req)) fun txid => ?_
    exact .bind (.mapErr (.request trivial)) fun _ => trivial

theorem tame_takeDeepAbort (armed : Bool) (id_ : String) : Uses (Tame own) (takeDeepAbort armed id_) := by
  refine .bind (.attempt (.request trivial)) fun r => ?_
  cases r with
  | ok _ => exact trivial
  | error e =>
    refine .bind (.attempt (tame_executeRefund armed id_)) fun r => ?_
    split <;> exact trivial

theorem tame_executeDeepAbortAndReport (armed : Bool) (id_ : String) :
    Uses (Tame own) (executeDeepAbortAndReport armed id_) := by
  refine .bind (.attempt (tame_executeRefund armed id_)) fun r => ?_
  split
  · exact trivial
  · exact trivial
  · exact trivial
  · refine .bind (.attempt (.request trivial)) fun r => ?_
    cases r with
    | error e => exact trivial
    | ok rec => exact .bind (.ask trivial) fun now => .ite (tame_takeDeepAbort armed id_) trivial

theorem tame_fireDeepAbort (armed : Bool) (id_ : String) : Uses (Tame own) (fireDeepAbort armed id_) :=
  .bind (tame_executeDeepAbortAndReport armed id_) fun _ => trivial

theorem tame_executeRefundAndReport (armed : Bool) (id_ : String) :
    Uses (Tame own) (executeRefundAndReport armed id_) :=
  .bind (.attempt (tame_executeRefund armed id_)) fun _ => trivial

theorem tame_runToDeadline {fire : DeskM Unit Unit} (hf : Uses (Tame own) fire) (deadline : Nat)
    (stop : FlagRef) (n : Nat) : Uses (Tame own) (runToDeadline deadline stop fire n) := by
  induction n with
  | zero => exact trivial
  | succ n ih =>
    refine .bind (.ask trivial) fun b => .ite trivial ?_
    refine .bind (.ask trivial) fun now => .ite (.bind hf fun _ => trivial) ?_
    exact .bind (.ask trivial) fun _ => ih

theorem tame_runRefundWatcher (armed : Bool) (id_ : String) (t1 : Nat) (stop : FlagRef) (n : Nat) :
    Uses (Tame own) (runRefundWatcher armed id_ t1 stop n) := by
  refine .bind (.bind (tame_runToDeadline (tame_fireDeepAbort armed id_) t1 stop n) fun b => ?_) fun _ => trivial
  exact trivial

theorem tame_runSwipeWatch (armed : Bool) (id_ : String) (stop : FlagRef) (n : Nat) :
    Uses (Tame own) (runSwipeWatch armed id_ stop n) := by
  refine .bind (.attempt (.request trivial)) fun r => ?_
  cases r with
  | error e => exact trivial
  | ok rec =>
    dsimp only
    split
    · exact trivial
    · rename_i t2 _
      refine .bind (.bind (tame_runToDeadline (tame_fireDeepAbort armed id_) t2 stop n) fun b => ?_)
        fun _ => trivial
      exact trivial

theorem tame_attemptReclaim (id_ refundTxid : String) (h : Option Int) :
    Uses (Tame own) (attemptReclaim id_ refundTxid h) := by
  refine .bind (.mapErr (.request trivial)) fun rec => .bind (.ofExcept _) fun verdict => ?_
  cases verdict with
  | some v => exact trivial
  | none =>
    refine .bind (.mapErr (.request trivial)) fun extraction => .bind (.ofExcept _) fun verdict => ?_
    cases verdict with
    | some v => exact trivial
    | none =>
      refine .bind (.mapErr (.request trivial)) fun txid => ?_
      exact .bind (.mapErr (.request trivial)) fun _ => trivial

theorem tame_reclaimTick (id_ : String) (ruledOut : List String) :
    Uses (Tame own) (reclaimTick id_ ruledOut) := by
  refine .bind (.attempt (.request trivial)) fun r => ?_
  split
  · exact .ite trivial (.bind (.attempt (tame_attemptReclaim id_ _ none)) fun _ => trivial)
  · exact trivial
  · exact trivial
  · exact trivial

theorem tame_reclaimLoop (id_ : String) (stop : FlagRef) (ruledOut : List String) (n : Nat) :
    Uses (Tame own) (reclaimLoop id_ stop ruledOut n) := by
  induction n generalizing ruledOut with
  | zero => exact trivial
  | succ n ih =>
    refine .bind (.ask trivial) fun b => .ite trivial (.bind (tame_reclaimTick id_ ruledOut) fun r => ?_)
    cases r with
    | none => exact trivial
    | some ruledOut => exact .bind (.ask trivial) fun _ => ih ruledOut

theorem tame_pollChains (id_ : String) (stop : FlagRef) (chains : List Chain) :
    Uses (Tame own) (pollChains id_ stop chains) := by
  induction chains with
  | nil => exact trivial
  | cons chain chains ih =>
    refine .bind (.ask trivial) fun b => .ite trivial ?_
    refine .bind (.bind (.attempt (.request trivial)) fun r => ?_) fun _ => ih
    exact .bind (.ask trivial) fun now => .ask trivial

theorem tame_runPollLoop (id_ : String) (stop watchB : FlagRef) (n : Nat) :
    Uses (Tame own) (runPollLoop id_ stop watchB n) := by
  induction n with
  | zero => exact trivial
  | succ n ih =>
    refine .bind (.ask trivial) fun b => .ite trivial (.bind (.ask trivial) fun w => ?_)
    refine .bind (tame_pollChains id_ stop _) fun _ => ?_
    exact .bind (.ask trivial) fun _ => ih

theorem tame_openStore : Uses (Tame own) openStore :=
  .bind (.ask trivial) fun _ => .bind (.orFail _ _) fun _ => .mapErr (.request trivial)

theorem tame_deskStatus (id_ : String) : Uses (Tame own) (deskStatus id_) := by
  refine .bind (.mapErr (.request trivial)) fun status => .bind (.when (.ask trivial)) fun _ => ?_
  refine .bind (.attempt tame_openStore) fun r => ?_
  cases r with
  | error e => exact trivial
  | ok _ =>
    refine .ite (.bind (.attempt (.request trivial)) fun _ => trivial) ?_
    refine .bind (.attempt (.request trivial)) fun r => ?_
    cases r with
    | error e => exact trivial
    | ok rec => exact .bind (.attempt (.request trivial)) fun _ => trivial

end

/-! ## The conductor -/

section
variable {own : FlagRef → Prop} {watchB : FlagRef} (ho : own watchB) {ε : Type}

theorem tame_checkClaimDest (id_ nominated : String) :
    Uses (Tame own) (checkClaimDest id_ nominated : DeskM ε (ClaimDestCheck × String × String)) :=
  .bind (.attempt (.request trivial)) fun _ => .bind (.attempt (.request trivial)) fun _ => trivial

theorem tame_persist (rec : StoredSwap) (step : String) : Uses (Tame own) (persist rec step) :=
  .mapErr (.request trivial)

theorem tame_sellExchange (stop : FlagRef) (rec : StoredSwap) (n : Nat) :
    Uses (Tame own) (sellExchange stop rec n) := by
  refine .bind (uses_waitForPreparedLockUtxo tame_of_waits _ _ _ _) fun utxo => ?_
  refine .bind (.mapErr (.request trivial)) fun _ => .bind (.mapErr (.request trivial)) fun produced => ?_
  refine .bind (.orFail _ _) fun ours => ?_
  generalize ownLegSigs rec produced = legSigs
  refine .bind (.ofExcept _) fun legSigs => .bind (.mapErr (.request trivial)) fun m3 => ?_
  exact .bind (tame_persist _ _) fun _ => trivial

theorem tame_sellGate (stop : FlagRef) (rec : StoredSwap) (depths : SwapDepths) (n : Nat) :
    Uses (Tame own) (sellGate stop rec depths n) := by
  refine .bind (uses_waitForGate tame_of_waits n) fun g => ?_
  cases g with
  | stopped => exact uses_failStopped tame_of_waits _
  | deadline => exact trivial
  | confirmed =>
    refine .bind (tame_checkClaimDest _ _) fun x => ?_
    obtain ⟨c, ours, theirs⟩ := x
    cases c <;> exact trivial

include ho in
theorem tame_sellLock (rec : StoredSwap) : Uses (Tame own) (sellLock watchB rec) := by
  refine .bind (.mapErr (.request trivial)) fun txid => .bind (tame_persist _ _) fun _ => ?_
  exact .bind (.ask ho) fun _ => .bind (.attempt (.request trivial)) fun _ => trivial

theorem tame_sellClaim (stop : FlagRef) (rec : StoredSwap) (n : Nat) :
    Uses (Tame own) (sellClaim stop rec n) := by
  refine .bind (uses_waitForReleasedClaimSig tame_of_waits _ _ _ _) fun presig => ?_
  refine .bind (.mapErr (.request trivial)) fun _ => .bind (.mapErr (.request trivial)) fun txid => ?_
  refine .bind (uses_waitForSettlement tame_of_waits _ _ _ _ _) fun outcome => ?_
  exact .bind (tame_persist _ _) fun _ => trivial

include ho in
theorem tame_sellFollower (stopBefore : Option String) (stop : FlagRef) (rec : StoredSwap)
    (depths : SwapDepths) (n : Nat) :
    Uses (Tame own) (sellFollower stopBefore stop watchB rec depths n) := by
  refine .bind (tame_sellExchange stop rec n) fun armed => ?_
  refine .bind (tame_sellGate stop armed depths n) fun _ => .ite ?_ ?_
  · exact .bind (tame_persist _ _) fun _ => trivial
  · exact .bind (tame_sellLock ho armed) fun locked => tame_sellClaim stop locked n

theorem tame_refundSigs (id_ : String) (req : RefundSigsRequest) :
    Uses (Tame own) (client.refundSigs id_ req) := .request trivial

theorem tame_readyAck (id_ : String) (req : ReadyAckRequest) : Uses (Tame own) (client.readyAck id_ req) :=
  .request trivial

theorem tame_buyExchange (rec : StoredSwap) : Uses (Tame own) (buyExchange rec) := by
  refine .bind (.mapErr (.request trivial)) fun utxo => ?_
  generalize checkPreparedLockUtxo rec.swapId utxo = checked
  generalize ATTEMPTS - 1 = attempts, legUsesLegSigs rec.pair = leg
  refine .bind (.ofExcept _) fun _ => .bind (.mapErr (.request trivial)) fun produced => ?_
  refine .bind (.mapErr (uses_retryWhileDeskBusy tame_of_waits (tame_refundSigs _ _) _)) fun m3 => ?_
  refine .bind (.mapErr (.request trivial)) fun exchange => .bind (.ensure _ _) fun _ => ?_
  exact .bind (.ensure _ _) fun _ => .bind (tame_persist _ _) fun _ => trivial

theorem tame_buyClaimDest (rec : StoredSwap) : Uses (Tame own) (buyClaimDest rec) := by
  refine .bind (tame_checkClaimDest _ _) fun x => ?_
  obtain ⟨c, ours, theirs⟩ := x
  cases c <;> exact trivial

theorem tame_buyRefundDest (rec : StoredSwap) : Uses (Tame own) (buyRefundDest rec) := by
  refine .bind (.attempt (.request trivial)) fun st => .bind (.attempt (.request trivial)) fun r => ?_
  dsimp only
  split <;> exact trivial

include ho in
theorem tame_buyLock (rec : StoredSwap) : Uses (Tame own) (buyLock watchB rec) := by
  refine .bind (.mapErr (.request trivial)) fun txid => .bind (tame_persist _ _) fun _ => ?_
  exact .bind (.ask ho) fun _ => .bind (.attempt (.request trivial)) fun _ => trivial

theorem tame_relayOnce (rec : StoredSwap) (txid : String) : Uses (Tame own) (relayOnce rec txid) := by
  refine .ite trivial (.bind (.attempt (.request trivial)) fun r => ?_)
  cases r with
  | error e => exact .ite trivial trivial
  | ok _ => exact .bind (tame_persist _ _) fun _ => trivial

theorem tame_relayLockBTxid (stop : FlagRef) (rec : StoredSwap) (n : Nat) :
    Uses (Tame own) (relayLockBTxid stop rec n) := by
  induction n with
  | zero => exact trivial
  | succ n ih =>
    refine .bind (.ask trivial) fun b => .ite (uses_failStopped tame_of_waits _) ?_
    refine .bind (.attempt (.request trivial)) fun st => .bind (tame_relayOnce _ _) fun out => ?_
    cases out with
    | some rec => exact trivial
    | none => exact .bind (.ask trivial) fun now => .ite trivial (.bind (.ask trivial) fun _ => ih)

include ho in
theorem tame_buyGate (stop : FlagRef) (rec : StoredSwap) (depths : SwapDepths) (n : Nat) :
    Uses (Tame own) (buyGate stop watchB rec depths n) := by
  refine .bind (uses_waitForGate tame_of_waits n) fun g => ?_
  cases g with
  | stopped => exact uses_failStopped tame_of_waits _
  | deadline => exact .bind (uses_holdOpenForRefund tame_of_waits ho _ _ _ _) fun _ => trivial
  | confirmed =>
    refine .bind (.attempt (.request trivial)) fun st => ?_
    cases st with
    | error e => exact trivial
    | ok st => exact .ite trivial (.bind (.attempt (.request trivial)) fun _ => trivial)

theorem tame_buyRelease (rec : StoredSwap) : Uses (Tame own) (buyRelease rec) := by
  generalize ATTEMPTS - 1 = attempts
  refine .bind (.mapErr (.request trivial)) fun sig => ?_
  exact .bind (.mapErr (uses_retryWhileDeskBusy tame_of_waits (tame_readyAck _ _) _)) fun _ => trivial

theorem tame_extractLoop (id_ claimATxid : String) (stop : FlagRef) (deadline n : Nat) :
    Uses (Tame own) (extractLoop id_ claimATxid stop deadline n) := by
  induction n with
  | zero => exact trivial
  | succ n ih =>
    refine .bind (.ask trivial) fun b => .ite (uses_failStopped tame_of_waits _) ?_
    refine .bind (.mapErr (.request trivial)) fun e => ?_
    split
    · exact trivial
    · exact trivial
    · exact .bind (.ask trivial) fun now => .ite trivial (.bind (.ask trivial) fun _ => ih)

theorem tame_buyClaim (stop : FlagRef) (rec : StoredSwap) (n : Nat) :
    Uses (Tame own) (buyClaim stop rec n) := by
  refine .bind (uses_waitForDeskChainAClaim tame_of_waits _ _ _ _) fun txid => ?_
  refine .bind (tame_extractLoop _ _ _ _ _) fun _ => .bind (.mapErr (.request trivial)) fun sweep => ?_
  exact .bind (tame_persist _ _) fun _ => trivial

include ho in
theorem tame_buyLeader (stop : FlagRef) (rec : StoredSwap) (depths : SwapDepths) (n : Nat) :
    Uses (Tame own) (buyLeader stop watchB rec depths n) := by
  refine .bind (tame_buyExchange rec) fun armed => .bind (tame_buyClaimDest armed) fun _ => ?_
  refine .bind (tame_buyRefundDest armed) fun _ => .bind (tame_buyLock ho armed) fun locked => ?_
  refine .bind (tame_relayLockBTxid stop locked n) fun both => ?_
  refine .bind (tame_buyGate ho stop both depths n) fun _ => .bind (tame_buyRelease both) fun _ => ?_
  exact tame_buyClaim stop both n

theorem tame_readDepths (id_ : String) : Uses (Tame own) (readDepths id_) := by
  refine .bind (.attempt (.request trivial)) fun r => ?_
  cases r with
  | error e => exact trivial
  | ok st => exact .ite trivial trivial

end

/-! ## The leash -/

structure Leash where
  /-- registered, and not handed over -/
  held : List (String × FlagRef)
  own : List FlagRef
  /-- it has cleared the registry -/
  done : Bool

def Leash.Allows (s : Leash) : Op → Prop
  | .spawn t => s.done = false ∧ ∀ p, t.stopFlag = some p → p ∈ s.held
  | .flag (.store f b) => s.done = false ∧ (f ∈ s.own ∨ b = true)
  | .flag (.swap f _) => s.done = false ∧ f ∈ s.own
  | _ => s.done = false

def Leash.next (s : Leash) : (o : Op) → o.Ans → Leash
  | .watchers (.clear _), _ => { s with done := true }
  | .flag (.new _), f => { s with own := f :: s.own }
  | o, r => { s with held := Registry.heldAfter s.held o r }

def leash : Monitor Op Op.Ans where
  State := Leash
  allows := Leash.Allows
  next := Leash.next

def Leash.none : Leash := ⟨[], [], false⟩

section
variable {s : Leash} {ε ε' α β : Type}

/-- What is tame leaves the leash as it is. -/
theorem leashed_tame {own : FlagRef → Prop} {p : DeskM ε α} (hp : Uses (Tame own) p)
    (ho : ∀ f, own f → f ∈ s.own) (hs : s.done = false) : Admits leash p (fun _ s' => s' = s) s := by
  refine admits_of_uses hp fun o h => ?_
  cases o with
  | watchers c => cases c with
    | raise id_ => exact ⟨hs, fun _ => rfl⟩
    | _ => exact h.elim
  | flag c => cases c with
    | load f => exact ⟨hs, fun _ => rfl⟩
    | new b => exact h.elim
    | store f b => exact ⟨⟨hs, .inl (ho f h)⟩, fun _ => rfl⟩
    | swap f b => exact ⟨⟨hs, ho f h⟩, fun _ => rfl⟩
  | spawn t => exact h.elim
  | _ => exact ⟨hs, fun _ => rfl⟩

theorem leashed_bind {own : FlagRef → Prop} {p : DeskM ε α} {k : α → DeskM ε β}
    {R : Except ε β → Leash → Prop} (hp : Uses (Tame own) p) (ho : ∀ f, own f → f ∈ s.own)
    (hs : s.done = false) (he : ∀ e, R (.error e) s) (hk : ∀ a, Admits leash (k a) R s) :
    Admits leash (p.bind k) R s := by
  refine Safe.bind ((leashed_tame hp ho hs).mono fun r s' hr => ?_)
  subst hr
  cases r with
  | ok a => exact hk a
  | error e => exact he e

end

/-! ## The restart -/

/-- The flags of the watchers that the restart has yet to spawn. -/
def pairs (l : List (String × Int × FlagRef)) : List (String × FlagRef) := l.map fun x => (x.1, x.2.2)

theorem leashed_registerAll (l : List (String × Int)) (s : Leash) (hs : s.done = false) :
    Admits leash (registerAll l)
      (OnOk fun out s' => s'.done = false ∧ s'.held.Perm (pairs out ++ s.held)) s := by
  induction l generalizing s with
  | nil => exact safe_ret.2 ⟨hs, .refl _⟩
  | cons x l ih =>
    obtain ⟨id_, t1⟩ := x
    unfold registerAll
    simp only [Prog.bind_eq, Prog.pure_eq]
    refine admits_ask hs fun stop => ?_
    refine Safe.bind_ok (ih _ hs) fun out s' hout => ?_
    refine safe_ret.2 ⟨hout.1, hout.2.trans ?_⟩
    exact List.perm_middle

theorem leashed_respawn (armed : Bool) (l : List (String × Int × FlagRef)) (s : Leash)
    (hs : s.done = false) (hl : s.held.Perm (pairs l)) :
    Admits leash (respawn armed l) (fun _ _ => True) s := by
  induction l generalizing s with
  | nil => exact safe_ret.2 trivial
  | cons x l ih =>
    obtain ⟨id_, t1, stop⟩ := x
    have hmem : ∀ p, some (id_, stop) = some p → p ∈ s.held := by
      intro p hp
      cases hp
      exact hl.mem_iff.2 List.mem_cons_self
    -- the refund watcher is the last that is spawned with the flag
    have hlast (own : List FlagRef) : Admits leash
        ((spawn (.rehydratedRefundWatcher id_ t1.toNat stop)).bind fun _ => respawn armed l)
        (fun _ _ => True) { s with own := own } := by
      refine admits_ask ⟨hs, hmem⟩ fun _ => ih _ hs ?_
      have herase := hl.erase (id_, stop)
      rwa [pairs, List.map_cons, List.erase_cons_head] at herase
    unfold respawn spawnChainWatchers
    simp only [Prog.bind_eq, Prog.pure_eq]
    cases armed with
    | false => exact hlast _
    | true =>
      refine Safe.bind (admits_attempt (o := Op.store (.load id_)) hs fun r => ?_)
      refine admits_ask hs fun watchB => ?_
      refine admits_ask ⟨hs, hmem⟩ fun _ => admits_call.2 ⟨⟨hs, hmem⟩, fun _ => safe_ret.2 ?_⟩
      exact admits_ask ⟨hs, hmem⟩ fun _ => hlast _

theorem leashed_rehydrate (armed : Bool) :
    Admits leash (rehydrate armed) (fun _ _ => True) Leash.none := by
  unfold rehydrate
  simp only [Prog.bind_eq]
  refine admits_ask rfl fun dir => Safe.orFail_bind (fun _ => trivial) fun dir _ => ?_
  refine admits_try (by rfl) (fun _ _ _ => trivial) fun _ _ _ => ?_
  refine admits_try (by rfl) (fun _ _ _ => trivial) fun _ all _ => ?_
  refine Safe.bind ((leashed_registerAll _ Leash.none rfl).mono fun r s hr => ?_)
  cases r with
  | error e => exact trivial
  | ok out =>
    refine leashed_respawn armed out s hr.1 ?_
    rw [← List.append_nil (pairs out)]
    exact hr.2

/-! ## The choreography -/

theorem leashed_standDown {α : Type} {s : Leash} (hs : s.done = false) (role : ClientRole)
    (stop : FlagRef) (id_ : String) (result : Except ConductorError α) :
    Admits leash ((shouldStandDown id_ role).bind fun b => if b then
        (flag.store stop true).bind fun _ => (watchers.clear id_).bind fun _ => .ofExcept result
      else .ofExcept result) (fun _ _ => True) s := by
  have hend (s : Leash) : Admits leash (.ofExcept result : DeskM ConductorError α) (fun _ _ => True) s :=
    Safe.ofExcept trivial
  unfold shouldStandDown
  simp only [Prog.bind_eq, Prog.pure_eq]
  refine Safe.bind (admits_attempt (o := Op.store (.load id_)) hs fun r => ?_)
  cases r with
  | error e => exact safe_ret.2 (Safe.ite (fun h => nomatch h) fun _ => hend _)
  | ok rec =>
    refine safe_ret.2 (Safe.ite (fun _ => ?_) fun _ => hend _)
    refine admits_ask ⟨hs, .inr rfl⟩ fun _ => ?_
    exact admits_ask hs fun _ => hend _

theorem leashed_runSwapChoreography (armed : Bool) (stopBefore : Option String) (n : Nat) (id_ : String) :
    Admits leash (runSwapChoreography armed stopBefore n id_) (fun _ _ => True) Leash.none := by
  unfold runSwapChoreography spawnRecoveryWatchers
  simp only [Prog.bind_eq]
  refine Safe.ensure_bind (fun _ => trivial) fun _ => ?_
  refine admits_ask rfl fun dir => Safe.orFail_bind (fun _ => trivial) fun dir _ => ?_
  refine admits_try (by rfl) (fun _ _ _ => trivial) fun _ _ _ => ?_
  refine admits_try (by rfl) (fun _ _ _ => trivial) fun _ rec _ => ?_
  refine Safe.ofExcept_bind (fun _ _ => trivial) fun role _ => ?_
  refine leashed_bind (tame_readDepths id_ : Uses (Tame fun _ => False) _) (fun _ h => h.elim) rfl
    (fun _ => trivial) fun depths => ?_
  refine admits_ask rfl fun stop => ?_
  have hmem : ∀ p, some (id_, stop) = some p → p ∈ [(id_, stop)] := by
    intro p hp
    cases hp
    exact List.mem_singleton_self _
  refine Safe.bind (admits_ask ⟨rfl, hmem⟩ fun _ => admits_ask ⟨rfl, hmem⟩ fun _ => ?_)
  refine admits_call.2 ⟨⟨rfl, hmem⟩, fun _ => safe_ret.2 ?_⟩
  refine admits_ask rfl fun watchB => admits_ask ⟨rfl, hmem⟩ fun _ => ?_
  have hown : ∀ f, f = watchB → f ∈ [watchB] := fun f hf => hf ▸ List.mem_singleton_self _
  refine leashed_bind (Uses.attempt ?_ : Uses (Tame (· = watchB)) _) hown rfl (fun _ => trivial) fun r => ?_
  · cases role with
    | follower =>
      refine tame_sellFollower ?_ stopBefore stop rec depths n
      exact rfl
    | leader =>
      refine tame_buyLeader ?_ stop rec depths n
      exact rfl
  · exact leashed_standDown rfl role stop id_ r

/-- Every task is on its leash. -/
theorem leashed_body (env : Env) (e : Entry) :
    Admits leash (e.body env) (fun _ _ => True) Leash.none := by
  have htame {p : DeskM Unit Unit} (hp : Uses (Tame fun _ => False) p) :
      Admits leash p (fun _ _ => True) Leash.none :=
    (leashed_tame hp (fun _ h => h.elim) rfl).mono fun _ _ _ => trivial
  cases e with
  | deskStatus id_ => exact htame (tame_deskStatus id_).detach
  | deskProceed id_ =>
    refine Safe.detach ?_
    unfold deskProceed
    simp only [Prog.bind_eq, Prog.pure_eq]
    refine Safe.ensure_bind (fun _ => trivial) fun _ => ?_
    refine leashed_bind (tame_openStore : Uses (Tame fun _ => False) _) (fun _ h => h.elim) rfl
      (fun _ => trivial) fun _ => ?_
    refine admits_try (by rfl) (fun _ _ _ => trivial) fun _ rec _ => ?_
    refine Safe.ensure_bind (fun _ => trivial) fun _ => ?_
    exact admits_ask ⟨rfl, fun _ h => nomatch h⟩ fun _ => safe_ret.2 trivial
  | rehydrate => exact (leashed_rehydrate env.armed).detach
  | task t => cases t with
    | choreography id_ => exact (leashed_runSwapChoreography _ _ _ id_).detach
    | reclaimWatch id_ stop => exact htame (tame_reclaimLoop id_ stop [] env.n)
    | refundWatcher id_ t1 stop => exact htame (tame_runRefundWatcher _ id_ t1 stop _)
    | swipeWatch id_ stop => exact htame (tame_runSwipeWatch _ id_ stop _)
    | pollLoop id_ stop watchB => exact htame (tame_runPollLoop id_ stop watchB env.n)
    | rehydratedRefundWatcher id_ t1 stop =>
      show Admits leash (runRehydratedRefundWatcher env.armed id_ t1 stop env.n) _ _
      unfold runRehydratedRefundWatcher
      simp only [Prog.bind_eq]
      have hfire : Uses (Tame fun _ => False) (if env.armed then fireDeepAbort env.armed id_
          else executeRefundAndReport env.armed id_) :=
        .ite (tame_fireDeepAbort _ _) (tame_executeRefundAndReport _ _)
      have hrun : Uses (Tame fun _ => False) (RefundWatcher.run t1 stop (if env.armed then
          fireDeepAbort env.armed id_ else executeRefundAndReport env.armed id_) env.n) :=
        .bind (tame_runToDeadline hfire t1 stop env.n) fun _ => trivial
      refine leashed_bind hrun (fun _ h => h.elim) rfl (fun _ => trivial) fun _ => ?_
      exact admits_call.2 ⟨rfl, fun _ => safe_ret.2 trivial⟩

end Desk
