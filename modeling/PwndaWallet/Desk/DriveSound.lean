import PwndaWallet.Desk.ConductSound
import PwndaWallet.Desk.WaitSound

/-!
# The choreography conducts itself

Stage by stage, what a choreography has in hand (`admits_sellFollower`, `admits_buyLeader`), and with
it the monitor's verdict on every task of a swap (`admits_body`).
-/

namespace Desk

open Tasks

/-- A choreography between two stages, or after the last. -/
def Steady (role : ClientRole) (stop : Option FlagRef) (s : Hand) : Prop :=
  ∃ d, s = .drives d ∧ d.role = role ∧ d.stop = stop ∧ d.phase ≠ .sent

/-- A stage ends with the record it hands on, in the phase `phase`, or fails. -/
abbrev Stage {ε : Type} (d : Drive) (phase : Phase) : Except ε StoredSwap → Hand → Prop :=
  OnEnd (Steady d.role d.stop) fun rec s => s = .drives { d with copy := rec, phase := phase }

/-- A stage that leaves the choreography as it was. -/
abbrev Keeps {ε α : Type} (d : Drive) : Except ε α → Hand → Prop :=
  OnEnd (Steady d.role d.stop) fun _ s => s = .drives d

/-- What a choreography asks without moving on, while it waits for no settlement. -/
def Calm (o : Op) : Prop := Idle o ∨ ∃ id_, o = .client (.status id_)

theorem calm_of_waits (o : Op) (h : Waits o) : Calm o := by
  cases o with
  | client c => cases c with
    | status id_ => exact .inr ⟨id_, rfl⟩
    | _ => exact h.elim
  | flag c => cases c with
    | load f => exact .inl trivial
    | _ => exact h.elim
  | observe chain => exact .inl trivial
  | unixNow => exact .inl trivial
  | sleep secs => exact .inl trivial
  | _ => exact h.elim

section
variable {d : Drive} {ε ε' α β : Type}

theorem steady (h : d.phase ≠ .sent) : Steady d.role d.stop (.drives d) := ⟨d, rfl, rfl, rfl, h⟩

theorem next_status (hd : ∀ t, d.phase ≠ .claimed t) (id_ : String)
    (r : Except ProxyError StatusResponse) :
    conduct.next (.drives d) (.client (.status id_)) r = .drives d := by
  cases r with
  | error e => rfl
  | ok st =>
    show Hand.drives (d.afterStatus st) = .drives d
    unfold Drive.afterStatus
    split
    · rename_i t ht
      exact absurd ht (hd t)
    · rfl

theorem admits_calm {p : DeskM ε α} (hp : Uses Calm p) (hd : ∀ t, d.phase ≠ .claimed t) :
    Admits conduct p (fun _ s => s = .drives d) (.drives d) := by
  refine admits_of_uses hp fun o ho => ?_
  rcases ho with ho | ⟨id_, rfl⟩
  · exact ⟨allows_idle (.drives d) ho, fun _ => next_idle (.drives d) ho⟩
  · exact ⟨trivial, fun r => next_status hd id_ r⟩

theorem admits_calm_keeps {p : DeskM ε α} (hp : Uses Calm p) (hd : ∀ t, d.phase ≠ .claimed t)
    (hs : d.phase ≠ .sent) : Admits conduct p (Keeps d) (.drives d) :=
  (admits_calm hp hd).mono fun r s hr => by
    cases r with
    | ok a => exact hr
    | error e => rw [hr]; exact steady hs

theorem admits_failStopped {P : α → Hand → Prop} (hd : ∀ t, d.phase ≠ .claimed t)
    (hs : d.phase ≠ .sent) (id_ : String) :
    Admits conduct (failStopped id_) (OnEnd (Steady d.role d.stop) P) (.drives d) := by
  refine Safe.bind ((admits_calm (uses_deskTerminalOrStopped calm_of_waits id_) hd).mono
    fun r s hr => ?_)
  subst hr
  cases r with
  | ok e => exact safe_fail.2 (steady hs)
  | error e => exact steady hs

/-- A record is saved, and the copy is that record. -/
theorem admits_persist {phase : Phase} {rec : StoredSwap} (hp : d.phase = phase) (h : d.MaySave rec)
    (step : String) :
    Admits conduct (persist rec step) (OnEnd (Steady d.role d.stop) fun _ s =>
      s = .drives { d with copy := rec, phase := phase.saved }) (.drives d) := by
  subst hp
  refine Safe.mapErr (admits_request h fun r => ?_)
  cases r with
  | ok _ => exact rfl
  | error e =>
    refine ⟨d.afterSave none, rfl, rfl, rfl, ?_⟩
    show d.phase.unsaved ≠ .sent
    cases d.phase <;> nofun

end

/-! ## Selling -/

section
variable {d : Drive} {ε : Type}

theorem uses_checkClaimDest (swapId nominated : String) :
    Uses Calm (checkClaimDest swapId nominated : DeskM ε (ClaimDestCheck × String × String)) :=
  .bind (uses_status calm_of_waits swapId) fun _ =>
    .bind (.attempt ⟨.inl rfl, fun _ => .ofExcept _⟩) fun _ => trivial

theorem admits_sellExchange (hp : d.phase = .fresh) (stop : FlagRef) (n : Nat) :
    Admits conduct (sellExchange stop d.copy n) (Stage d .armed) (.drives d) := by
  have hs : Steady d.role d.stop (.drives d) := steady (by rw [hp]; nofun)
  unfold sellExchange
  simp only [Prog.bind_eq, Prog.pure_eq]
  refine Safe.bind_end (admits_calm_keeps (uses_waitForPreparedLockUtxo calm_of_waits _ _ _ _)
    (by rw [hp]; nofun) (by rw [hp]; nofun)) fun utxo s hd => ?_
  subst hd
  refine admits_try_idle (by rfl) (fun _ => hs) fun _ _ _ => ?_
  refine admits_try_idle (by rfl) (fun _ => hs) fun _ produced _ => ?_
  refine Safe.orFail_bind (fun _ => hs) fun ours _ => ?_
  refine Safe.ofExcept_bind (fun _ _ => hs) fun legSigs _ => ?_
  refine admits_try_idle (by trivial) (fun _ => hs) fun _ m3 _ => ?_
  refine Safe.bind_end (admits_persist hp ?_ _) fun _ s hd => ?_
  · unfold Drive.MaySave
    rw [hp]
    exact ⟨ours, m3.claimPresig, rfl⟩
  · subst hd
    exact safe_ret.2 rfl

theorem uses_sellGate (stop : FlagRef) (rec : StoredSwap) (depths : SwapDepths) (n : Nat) :
    Uses Calm (sellGate stop rec depths n) := by
  refine .bind (uses_waitForGate calm_of_waits n) fun g => ?_
  cases g with
  | stopped => exact uses_failStopped calm_of_waits _
  | deadline => exact trivial
  | confirmed =>
    refine .bind (uses_checkClaimDest _ _) fun x => ?_
    obtain ⟨c, ours, theirs⟩ := x
    cases c <;> exact trivial

/-- The lock is answered with its txid: the record that names it is kept, and told to the desk. -/
theorem admits_keepLock {watchB : FlagRef} {txid : String} {rec : StoredSwap} (ho : d.own = some watchB)
    (hrec : rec = lockedRecord d.role d.copy txid) (id_ : String) (req : LockRequest) :
    Admits conduct ((persist rec "lock").bind fun _ => (flag.store watchB true).bind fun _ =>
      (client.lock id_ req).attempt.bind fun _ => .ret rec)
      (Stage d .locked) (.drives (d.afterLock (some txid))) := by
  subst hrec
  have hsave : (d.afterLock (some txid)).MaySave (lockedRecord d.role d.copy txid) := rfl
  refine Safe.bind_end (admits_persist rfl hsave "lock") fun _ s hd => ?_
  subst hd
  refine admits_ask ho fun _ => ?_
  exact admits_attempt_idle (by trivial) fun _ => safe_ret.2 rfl

theorem admits_sellLock {watchB : FlagRef} (hr : d.role = .follower) (hp : d.phase = .armed)
    (ho : d.own = some watchB) :
    Admits conduct (sellLock watchB d.copy) (Stage d .locked) (.drives d) := by
  have hn (r : Except CryptoError (Option String)) :
      conduct.next (.drives d) (.crypto (.lock d.copy.swapId)) r = .drives (d.afterLock (txidIn r)) := rfl
  unfold sellLock
  simp only [Prog.bind_eq, Prog.pure_eq]
  refine admits_try ⟨hr, hp⟩ (fun r e hj => ?_) fun r txid hj => ?_
  · rw [hn, txidIn_of_error hj]
    exact ⟨_, rfl, rfl, rfl, nofun⟩
  · rw [hn, txidIn_of_ok hj]
    exact admits_keepLock ho (by rw [hr]; rfl) _ _

/-- The drive after the wait for SETTLED. -/
def Drive.afterWait (d : Drive) (txid : String) (outcome : SettlementOutcome) : Drive :=
  { d with phase := match outcome with
      | .settled => .settled
      | .unconfirmed => .claimed txid }

theorem admits_waitForSettlement {txid : String} (hp : d.phase = .claimed txid) (id_ : String)
    (stop : FlagRef) (t1 : Int) (n : Nat) :
    Admits conduct (waitForSettlement id_ txid stop t1 n : DeskM ε SettlementOutcome)
      (OnEnd (Steady d.role d.stop) fun outcome s => s = .drives (d.afterWait txid outcome))
      (.drives d) := by
  have hd : Hand.drives d = .drives (d.afterWait txid .unconfirmed) := by
    unfold Drive.afterWait
    rw [← hp]
  have hn (st : StatusResponse) : conduct.next (.drives d) (.client (.status id_)) (.ok st) =
      .drives (d.afterWait txid (if settledBy txid st then .settled else .unconfirmed)) := by
    show Hand.drives (d.afterStatus st) = _
    unfold Drive.afterStatus Drive.afterWait
    rw [hp]
    by_cases hset : settledBy txid st = true
    · simp only [hset, if_true]
    · simp only [hset, if_false, Bool.false_eq_true]
  unfold waitForSettlement
  induction n with
  | zero => exact safe_cut.2 trivial
  | succ n ih =>
    have hgo : Admits conduct ((Prog.ask Op.unixNow).bind fun now =>
        if driveDeadlineUnix t1 ≤ now then .ofExcept (.ok .unconfirmed)
        else (sleep STATUS_POLL_INTERVAL).bind fun _ => pollStatus id_ stop (driveDeadlineUnix t1)
          (.ret .unconfirmed) (fun st => if settledBy txid st then some (.ok .settled) else none)
          (.ok .unconfirmed) n)
        (OnEnd (Steady d.role d.stop) fun outcome s => s = .drives (d.afterWait txid outcome))
        (.drives d) :=
      admits_ask_idle (by trivial) fun now => Safe.ite (fun _ => safe_ret.2 hd) fun _ =>
        admits_ask_idle (by trivial) fun _ => ih
    unfold pollStatus
    simp only [Prog.bind_eq]
    refine admits_ask_idle (by trivial) fun b => Safe.ite (fun _ => safe_ret.2 hd) fun _ => ?_
    refine admits_attempt trivial fun r => ?_
    cases r with
    | error e => exact hgo
    | ok st =>
      rw [hn]
      by_cases hset : settledBy txid st = true
      · simp only [hset, if_true]
        exact safe_ret.2 rfl
      · simp only [hset, if_false, Bool.false_eq_true, ← hd]
        exact hgo

/-- A claim is asked for: a failed one leaves the choreography as it was. -/
theorem admits_claim {β : Type} {k : String → DeskM ConductorError β} {R : β → Hand → Prop}
    (hp : d.phase = .locked) (id_ step : String)
    (hk : ∀ txid, Admits conduct (k txid) (OnEnd (Steady d.role d.stop) R)
      (.drives (d.afterClaim (some txid)))) :
    Admits conduct (((crypto.claim id_).mapErr (.engine id_ step)).bind k)
      (OnEnd (Steady d.role d.stop) R) (.drives d) := by
  have hn (r : Except CryptoError (Option String)) :
      conduct.next (.drives d) (.crypto (.claim id_)) r = .drives (d.afterClaim (txidIn r)) := rfl
  refine admits_try hp (fun r e hj => ?_) fun r txid hj => ?_
  · rw [hn, txidIn_of_error hj]
    exact ⟨d, rfl, rfl, rfl, by rw [hp]; nofun⟩
  · rw [hn, txidIn_of_ok hj]
    exact hk txid

theorem admits_sellClaim (hr : d.role = .follower) (hp : d.phase = .locked) (stop : FlagRef) (n : Nat) :
    Admits conduct (sellClaim stop d.copy n)
      (OnEnd (Steady d.role d.stop) fun _ s => Steady d.role d.stop s) (.drives d) := by
  have hs : Steady d.role d.stop (.drives d) := steady (by rw [hp]; nofun)
  unfold sellClaim
  simp only [Prog.bind_eq, Prog.pure_eq]
  refine Safe.bind_end (admits_calm_keeps (uses_waitForReleasedClaimSig calm_of_waits _ _ _ _)
    (by rw [hp]; nofun) (by rw [hp]; nofun)) fun presig s hd => ?_
  subst hd
  refine admits_try_idle (by rfl) (fun _ => hs) fun _ _ _ => ?_
  refine admits_claim hp _ _ fun txid => ?_
  have hc : (d.afterClaim (some txid)).phase = .claimed txid := by
    unfold Drive.afterClaim
    simp [hr]
  refine Safe.bind_end (admits_waitForSettlement hc _ stop _ n) fun outcome s hd => ?_
  subst hd
  refine Safe.bind_end (admits_persist (d := (d.afterClaim (some txid)).afterWait txid outcome) rfl ?_
    "claim") fun _ s hd => ?_
  · cases outcome <;> rfl
  · subst hd
    refine safe_ret.2 ⟨_, rfl, rfl, rfl, ?_⟩
    cases outcome <;> nofun

theorem admits_sellFollower {watchB : FlagRef} (hr : d.role = .follower) (hp : d.phase = .fresh)
    (ho : d.own = some watchB) (stopBefore : Option String) (stop : FlagRef) (depths : SwapDepths)
    (n : Nat) :
    Admits conduct (sellFollower stopBefore stop watchB d.copy depths n)
      (OnEnd (Steady d.role d.stop) fun _ s => Steady d.role d.stop s) (.drives d) := by
  unfold sellFollower
  simp only [Prog.bind_eq, Prog.pure_eq]
  refine Safe.bind_end (admits_sellExchange hp stop n) fun armed s hd => ?_
  subst hd
  refine Safe.bind_end (admits_calm_keeps (d := { d with copy := armed, phase := .armed })
    (uses_sellGate stop armed depths n) nofun nofun) fun _ s hd => ?_
  subst hd
  refine Safe.ite (fun _ => ?_) fun _ => ?_
  · have hsave : Drive.MaySave { d with copy := armed, phase := .armed }
        (armed.setState "STOPPED_BEFORE_LOCK_B") := rfl
    refine Safe.bind_end (admits_persist rfl hsave "stop_before_lock_b") fun _ s hd => ?_
    subst hd
    exact safe_ret.2 ⟨_, rfl, rfl, rfl, nofun⟩
  · refine Safe.bind_end (admits_sellLock (d := { d with copy := armed, phase := .armed }) hr rfl ho)
      fun locked s hd => ?_
    subst hd
    exact admits_sellClaim (d := { d with copy := locked, phase := .locked }) hr rfl stop n

end

/-! ## Buying -/

section
variable {d : Drive} {ε : Type}

theorem uses_refundSigs (id_ : String) (req : RefundSigsRequest) : Uses Calm (client.refundSigs id_ req) :=
  ⟨.inl trivial, fun _ => .ofExcept _⟩

theorem uses_readyAck (id_ : String) (req : ReadyAckRequest) : Uses Calm (client.readyAck id_ req) :=
  ⟨.inl trivial, fun _ => .ofExcept _⟩

theorem admits_buyExchange (hp : d.phase = .fresh) :
    Admits conduct (buyExchange d.copy) (Stage d .armed) (.drives d) := by
  have hs : Steady d.role d.stop (.drives d) := steady (by rw [hp]; nofun)
  unfold buyExchange
  simp only [Prog.bind_eq, Prog.pure_eq]
  refine admits_try_idle (by rfl) (fun _ => hs) fun _ utxo _ => ?_
  refine Safe.ofExcept_bind (fun _ _ => hs) fun _ _ => ?_
  refine admits_try_idle (by rfl) (fun _ => hs) fun _ produced _ => ?_
  refine Safe.bind_end (Safe.mapErr_end (admits_calm_keeps (uses_retryWhileDeskBusy calm_of_waits
    (uses_refundSigs _ _) _) (by rw [hp]; nofun) (by rw [hp]; nofun))) fun m3 s hd => ?_
  subst hd
  refine admits_try_idle (by rfl) (fun _ => hs) fun _ exchange _ => ?_
  refine Safe.ensure_bind (fun _ => hs) fun _ => ?_
  refine Safe.ensure_bind (fun _ => hs) fun _ => ?_
  refine Safe.bind_end (admits_persist hp ?_ _) fun _ s hd => ?_
  · unfold Drive.MaySave
    rw [hp]
    exact ⟨m3.refundPresig, m3.claimPresig, rfl⟩
  · subst hd
    exact safe_ret.2 rfl

theorem uses_buyClaimDest (rec : StoredSwap) : Uses Calm (buyClaimDest rec) := by
  refine .bind (uses_checkClaimDest _ _) fun x => ?_
  obtain ⟨c, ours, theirs⟩ := x
  cases c <;> exact trivial

theorem uses_buyRefundDest (rec : StoredSwap) : Uses Calm (buyRefundDest rec) := by
  refine .bind (uses_status calm_of_waits _) fun st => ?_
  refine .bind (.attempt ⟨.inl rfl, fun _ => .ofExcept _⟩) fun r => ?_
  dsimp only
  split <;> exact trivial

theorem admits_buyLock {watchB : FlagRef} (hr : d.role = .leader) (hp : d.phase = .armed)
    (ho : d.own = some watchB) :
    Admits conduct (buyLock watchB d.copy) (Stage d .locked) (.drives d) := by
  have hn (r : Except CryptoError (Option String)) :
      conduct.next (.drives d) (.crypto (.submitLock d.copy.swapId)) r =
        .drives (d.afterLock (txidIn r)) := rfl
  unfold buyLock
  simp only [Prog.bind_eq, Prog.pure_eq]
  refine admits_try ⟨hr, hp⟩ (fun r e hj => ?_) fun r txid hj => ?_
  · rw [hn, txidIn_of_error hj]
    exact ⟨_, rfl, rfl, rfl, nofun⟩
  · rw [hn, txidIn_of_ok hj]
    exact admits_keepLock ho (by rw [hr]; rfl) _ _

/-- One try to hand over the desk's txid keeps the record that names it, or changes nothing. -/
theorem admits_relayOnce (hr : d.role = .leader) (hp : d.phase = .locked) (txid : String) :
    Admits conduct (relayOnce d.copy txid) (OnEnd (Steady d.role d.stop) fun out s =>
      s = .drives { d with copy := out.getD d.copy }) (.drives d) := by
  have hs : Steady d.role d.stop (.drives d) := steady (by rw [hp]; nofun)
  unfold relayOnce
  simp only [Prog.bind_eq, Prog.pure_eq]
  refine Safe.ite (fun _ => safe_ret.2 rfl) fun hne => admits_attempt_idle (by rfl) fun r => ?_
  cases r with
  | error e => exact Safe.ite (fun _ => safe_ret.2 rfl) fun _ => safe_fail.2 hs
  | ok _ =>
    refine Safe.bind_end (admits_persist hp ?_ _) fun _ s hd => ?_
    · unfold Drive.MaySave
      rw [hp]
      exact ⟨hr, txid, by simpa [Rust.isEmpty] using hne, rfl⟩
    · subst hd
      exact safe_ret.2 (by rw [hp]; rfl)

theorem admits_relayLockBTxid (hr : d.role = .leader) (hp : d.phase = .locked) (stop : FlagRef)
    (n : Nat) : Admits conduct (relayLockBTxid stop d.copy n) (Stage d .locked) (.drives d) := by
  have hs : Steady d.role d.stop (.drives d) := steady (by rw [hp]; nofun)
  induction n with
  | zero => exact safe_cut.2 trivial
  | succ n ih =>
    unfold relayLockBTxid
    simp only [Prog.bind_eq, Prog.pure_eq]
    refine admits_ask_idle (by trivial) fun b => Safe.ite (fun _ => ?_) fun _ => ?_
    · exact admits_failStopped (by rw [hp]; nofun) (by rw [hp]; nofun) _
    · refine Safe.bind_end (admits_calm_keeps (uses_status calm_of_waits _) (by rw [hp]; nofun)
        (by rw [hp]; nofun)) fun st s hd => ?_
      subst hd
      refine Safe.bind_end (admits_relayOnce hr hp _) fun out s hd => ?_
      subst hd
      cases out with
      | some rec => exact safe_ret.2 (by rw [← hp]; rfl)
      | none =>
        refine admits_ask_idle (by trivial) fun now => Safe.ite (fun _ => safe_fail.2 hs) fun _ => ?_
        exact admits_ask_idle (by trivial) fun _ => ih

theorem admits_holdOpenForRefund {watchB : FlagRef} (hp : d.phase = .locked) (ho : d.own = some watchB)
    (t1 t2 : Int) (stop : FlagRef) (n : Nat) :
    Admits conduct (holdOpenForRefund t1 t2 stop watchB n : DeskM ε Unit) (Keeps d) (.drives d) := by
  unfold holdOpenForRefund
  simp only [Prog.bind_eq, Prog.pure_eq]
  refine admits_ask ho fun _ => admits_ask_idle (by trivial) fun now => ?_
  refine Safe.ite (fun _ => safe_ret.2 rfl) fun _ => ?_
  exact admits_calm_keeps (uses_hold calm_of_waits _ _ _) (by rw [hp]; nofun) (by rw [hp]; nofun)

theorem admits_buyGate {watchB : FlagRef} (hp : d.phase = .locked) (ho : d.own = some watchB)
    (stop : FlagRef) (depths : SwapDepths) (n : Nat) :
    Admits conduct (buyGate stop watchB d.copy depths n) (Keeps d) (.drives d) := by
  have hs : Steady d.role d.stop (.drives d) := steady (by rw [hp]; nofun)
  have hc : ∀ t, d.phase ≠ .claimed t := by rw [hp]; nofun
  have hsent : d.phase ≠ .sent := by rw [hp]; nofun
  unfold buyGate
  simp only [Prog.bind_eq, Prog.pure_eq]
  refine Safe.bind_end (admits_calm_keeps (uses_waitForGate calm_of_waits n) hc hsent) fun g s hd => ?_
  subst hd
  cases g with
  | stopped => exact admits_calm_keeps (uses_failStopped calm_of_waits _) hc hsent
  | deadline =>
    refine Safe.bind_end (admits_holdOpenForRefund hp ho _ _ stop n) fun _ s hd => ?_
    subst hd
    exact safe_fail.2 hs
  | confirmed =>
    refine Safe.bind_end (admits_calm_keeps (uses_status calm_of_waits _) hc hsent) fun st s hd => ?_
    subst hd
    cases st with
    | error e => exact safe_ret.2 rfl
    | ok st =>
      refine Safe.ite (fun _ => safe_ret.2 rfl) fun _ => ?_
      exact admits_attempt_idle (by rfl) fun _ => safe_ret.2 rfl

theorem uses_buyRelease (rec : StoredSwap) : Uses Calm (buyRelease rec) := by
  refine .bind (.mapErr ⟨.inl rfl, fun _ => .ofExcept _⟩) fun claimSig => ?_
  exact .bind (.mapErr (uses_retryWhileDeskBusy calm_of_waits (uses_readyAck _ _) _)) fun _ => trivial

theorem uses_extractLoop (swapId claimATxid : String) (stop : FlagRef) (deadline n : Nat) :
    Uses Calm (extractLoop swapId claimATxid stop deadline n) := by
  induction n with
  | zero => exact trivial
  | succ n ih =>
    refine .bind (.ask (.inl trivial)) fun b => .ite (uses_failStopped calm_of_waits _) ?_
    refine .bind (.mapErr ⟨.inl rfl, fun _ => .ofExcept _⟩) fun e => ?_
    split
    · exact trivial
    · exact trivial
    · refine .bind (.ask (.inl trivial)) fun now => .ite trivial ?_
      exact .bind (.ask (.inl trivial)) fun _ => ih

theorem admits_buyClaim (hr : d.role = .leader) (hp : d.phase = .locked) (stop : FlagRef) (n : Nat) :
    Admits conduct (buyClaim stop d.copy n)
      (OnEnd (Steady d.role d.stop) fun _ s => Steady d.role d.stop s) (.drives d) := by
  have hc : ∀ t, d.phase ≠ .claimed t := by rw [hp]; nofun
  have hsent : d.phase ≠ .sent := by rw [hp]; nofun
  unfold buyClaim
  simp only [Prog.bind_eq, Prog.pure_eq]
  refine Safe.bind_end (admits_calm_keeps (uses_waitForDeskChainAClaim calm_of_waits _ _ _ _) hc hsent)
    fun claimATxid s hd => ?_
  subst hd
  refine Safe.bind_end (admits_calm_keeps (uses_extractLoop _ _ _ _ _) hc hsent) fun _ s hd => ?_
  subst hd
  refine admits_claim hp _ _ fun txid => ?_
  have hset : (d.afterClaim (some txid)).phase = .settled := by
    unfold Drive.afterClaim
    simp [hr]
  refine Safe.bind_end (admits_persist hset ?_ "claim") fun _ s hd => ?_
  · unfold Drive.MaySave
    rw [hset]
    rfl
  · subst hd
    exact safe_ret.2 ⟨_, rfl, rfl, rfl, nofun⟩

theorem admits_buyLeader {watchB : FlagRef} (hr : d.role = .leader) (hp : d.phase = .fresh)
    (ho : d.own = some watchB) (stop : FlagRef) (depths : SwapDepths) (n : Nat) :
    Admits conduct (buyLeader stop watchB d.copy depths n)
      (OnEnd (Steady d.role d.stop) fun _ s => Steady d.role d.stop s) (.drives d) := by
  unfold buyLeader
  simp only [Prog.bind_eq]
  refine Safe.bind_end (admits_buyExchange hp) fun armed s hd => ?_
  subst hd
  refine Safe.bind_end (admits_calm_keeps (d := { d with copy := armed, phase := .armed })
    (uses_buyClaimDest armed) nofun nofun) fun _ s hd => ?_
  subst hd
  refine Safe.bind_end (admits_calm_keeps (d := { d with copy := armed, phase := .armed })
    (uses_buyRefundDest armed) nofun nofun) fun _ s hd => ?_
  subst hd
  refine Safe.bind_end (admits_buyLock (d := { d with copy := armed, phase := .armed }) hr rfl ho)
    fun locked s hd => ?_
  subst hd
  refine Safe.bind_end
    (admits_relayLockBTxid (d := { d with copy := locked, phase := .locked }) hr rfl stop n)
    fun both s hd => ?_
  subst hd
  refine Safe.bind_end
    (admits_buyGate (d := { d with copy := both, phase := .locked }) rfl ho stop depths n)
    fun _ s hd => ?_
  subst hd
  refine Safe.bind_end (admits_calm_keeps (d := { d with copy := both, phase := .locked })
    (uses_buyRelease both) nofun nofun) fun _ s hd => ?_
  subst hd
  exact admits_buyClaim (d := { d with copy := both, phase := .locked }) hr rfl stop n

end

/-! ## The choreography -/

theorem uses_readDepths (id_ : String) : Uses Calm (readDepths id_) := by
  refine .bind (uses_status calm_of_waits id_) fun r => ?_
  cases r with
  | error e => exact trivial
  | ok st => exact .ite trivial trivial

/-- The end: the record is read once more, and the net is stood down only if it says so. -/
theorem admits_standDown {α : Type} {d : Drive} {stop : FlagRef} (hp : d.phase ≠ .sent)
    (hs : d.stop = some stop) (id_ : String) (result : Except ConductorError α) :
    Admits conduct ((shouldStandDown id_ d.role).bind fun b => if b then
        (flag.store stop true).bind fun _ => (watchers.clear id_).bind fun _ => .ofExcept result
      else .ofExcept result) (fun _ _ => True) (.drives d) := by
  have hend (s : Hand) : Admits conduct (.ofExcept result : DeskM ConductorError α) (fun _ _ => True) s :=
    Safe.ofExcept trivial
  unfold shouldStandDown
  simp only [Prog.bind_eq, Prog.pure_eq]
  refine Safe.bind (admits_attempt hp fun r => ?_)
  cases r with
  | error e => exact safe_ret.2 (Safe.ite (fun h => nomatch h) fun _ => hend _)
  | ok rec =>
    refine safe_ret.2 (Safe.ite (fun hdown => ?_) fun _ => hend _)
    refine admits_ask ⟨rfl, hs, hdown⟩ fun _ => ?_
    exact admits_ask hdown fun _ => hend _

theorem admits_runSwapChoreography (armed : Bool) (stopBefore : Option String) (n : Nat) (id_ : String) :
    Admits conduct (runSwapChoreography armed stopBefore n id_) (fun _ _ => True) .starts := by
  unfold runSwapChoreography spawnRecoveryWatchers
  simp only [Prog.bind_eq]
  refine Safe.ensure_bind (fun _ => trivial) fun _ => ?_
  refine admits_ask_idle (by trivial) fun dir => Safe.orFail_bind (fun _ => trivial) fun dir _ => ?_
  refine admits_try_idle (by trivial) (fun _ => trivial) fun _ _ _ => ?_
  refine admits_try trivial (fun _ _ _ => trivial) fun r rec hr => ?_
  obtain rfl : r = .ok rec := hr
  cases hrole : ClientRole.fromDeskRole rec.deskRole with
  | error e => exact Safe.ofExcept_bind (fun _ _ => trivial) fun _ h => by cases h
  | ok role =>
    have hn : conduct.next .starts (.store (.load id_)) (.ok rec) =
        .drives ⟨role, rec, .fresh, none, none⟩ := by
      show Hand.next .starts (.store (.load id_)) (.ok rec) = _
      simp only [Hand.next, loadedBy, hrole]
    rw [hn]
    refine Safe.ofExcept_bind (fun _ h => by cases h) fun _ h => ?_
    cases h
    refine Safe.bind ((admits_calm (d := ⟨role, rec, .fresh, none, none⟩) (uses_readDepths id_)
      (by rintro _ ⟨⟩)).mono fun r s hs => ?_)
    subst hs
    cases r with
    | error e => trivial
    | ok depths =>
      refine admits_ask trivial fun stop => ?_
      refine Safe.bind (admits_ask_idle (by trivial) fun _ => admits_ask_idle (by trivial) fun _ => ?_)
      refine admits_call.2 ⟨trivial, fun u => safe_ret.2 ?_⟩
      refine admits_ask trivial fun watchB => admits_ask_idle (by trivial) fun _ => ?_
      refine Safe.bind (Safe.attempt (Safe.mono
        (Q := OnEnd (Steady role (some stop)) fun _ s => Steady role (some stop) s) (fun r s hs => ?_) ?_))
      · have hsteady : Steady role (some stop) s := by cases r <;> exact hs
        obtain ⟨d, rfl, rfl, hstop, hsent⟩ := hsteady
        exact admits_standDown hsent hstop id_ r
      · cases role with
        | follower =>
          exact admits_sellFollower (d := ⟨.follower, rec, .fresh, some stop, some watchB⟩) rfl rfl rfl
            stopBefore stop depths n
        | leader =>
          exact admits_buyLeader (d := ⟨.leader, rec, .fresh, some stop, some watchB⟩) rfl rfl rfl
            stop depths n

/-- Every task of a swap conducts itself. -/
theorem admits_body (env : Env) (e : Entry) :
    Admits conduct (e.body env) (fun _ _ => True) e.hand := by
  cases e with
  | deskStatus id_ => exact (admits_deskStatus id_).detach
  | deskProceed id_ => exact (admits_deskProceed env.armed id_).detach
  | rehydrate => exact (admits_rehydrate env.armed).detach
  | task t => cases t with
    | choreography id_ => exact (admits_runSwapChoreography _ _ _ id_).detach
    | reclaimWatch id_ stop => exact admits_reclaimLoop id_ stop env.n [] ⟨none, rfl⟩
    | refundWatcher id_ t1 stop => exact admits_runRefundWatcher _ id_ t1 stop _
    | rehydratedRefundWatcher id_ t1 stop => exact admits_runRehydratedRefundWatcher _ id_ t1 stop _
    | swipeWatch id_ stop => exact admits_runSwipeWatch _ id_ stop _
    | pollLoop id_ stop watchB =>
      exact (admits_idle (uses_runPollLoop id_ stop watchB env.n) _).mono fun _ _ _ => trivial

end Desk
