import PwndaWallet.Desk.Conduct

/-!
# The background tasks conduct themselves

The monitor admits the recovery tasks, the status poll, the restart and the poll loop
(`DriveSound` has the choreography).
-/

namespace Desk

open Tasks

theorem admits_idle {ε α : Type} {p : DeskM ε α} (hp : Uses Idle p) (s : Hand) :
    Admits conduct p (fun _ s' => s' = s) s :=
  admits_of_uses hp fun _ ho => ⟨allows_idle s ho, fun _ => next_idle s ho⟩

section
variable {ε ε' α β : Type} {o : Op} {R : Except ε' β → Hand → Prop} {s : Hand}

theorem admits_ask_idle {k : o.Ans → DeskM ε' β} (ho : Idle o) (hk : ∀ r, Admits conduct (k r) R s) :
    Admits conduct ((Prog.ask o).bind k) R s :=
  admits_ask (allows_idle s ho) fun r => by
    rw [show conduct.next s o r = s from next_idle s ho]
    exact hk r

theorem admits_try_idle {judge : o.Ans → Except ε α} {f : ε → ε'} {k : α → DeskM ε' β} (ho : Idle o)
    (he : ∀ e, R (.error e) s) (hk : ∀ r a, judge r = .ok a → Admits conduct (k a) R s) :
    Admits conduct (((Prog.request o judge).mapErr f).bind k) R s := by
  refine admits_try (allows_idle s ho) (fun r e _ => ?_) fun r a hr => ?_
  · rw [show conduct.next s o r = s from next_idle s ho]
    exact he _
  · rw [show conduct.next s o r = s from next_idle s ho]
    exact hk r a hr

theorem admits_attempt_idle {judge : o.Ans → Except ε α} {k : Except ε α → DeskM ε' β} (ho : Idle o)
    (hk : ∀ r, Admits conduct (k r) R s) :
    Admits conduct ((Prog.request o judge).attempt.bind k) R s :=
  admits_attempt (allows_idle s ho) fun r => by
    rw [show conduct.next s o r = s from next_idle s ho]
    exact hk _

end

theorem txidIn_of_ok {lost : CryptoError} {r : Except CryptoError (Option String)} {t : String}
    (h : txidOr lost r = .ok t) : txidIn r = some t := by
  obtain ⟨rfl, ht⟩ := txidOr_eq_ok.1 h
  simp [txidIn, nonEmpty, Rust.isEmpty, ht]

theorem txidIn_of_error {lost e : CryptoError} {r : Except CryptoError (Option String)}
    (h : txidOr lost r = .error e) : txidIn r = none := by
  rcases r with _ | _ | t
  · rfl
  · rfl
  · simp only [txidOr] at h
    split at h
    · rename_i ht
      simp [txidIn, nonEmpty, ht]
    · cases h

/-! ## Recovery -/

/-- A recovery task that owes nothing. -/
def IsFree (s : Hand) : Prop := ∃ last, s = .free last

theorem admits_broadcast {last : StoredSwap} {id_ : String} {req : RefundRequest} (armed : Bool)
    (h : refundRequest id_ last = .ok (some req)) :
    Admits conduct (activeRefundBroadcaster armed req) (fun r s =>
      match r with
      | .ok t => s = .owes (last.setRefunded t)
      | .error _ => IsFree s) (.free (some last)) := by
  cases armed with
  | false => exact Safe.ensure_bind (fun _ => ⟨_, rfl⟩) fun _ => safe_fail.2 ⟨_, rfl⟩
  | true =>
    refine Safe.ensure_bind (fun _ => ⟨_, rfl⟩) fun _ => ?_
    refine admits_request ⟨last, id_, req, rfl, h⟩ fun r => ?_
    have hn : conduct.next (.free (some last)) (.crypto (.refund req.swapId)) r =
        owesAfter (some last) (some .refund) (txidIn r) := rfl
    rw [hn]
    cases hj : txidOr (crypto.noTxid "refund" req.swapId "broadcast") r with
    | ok t => rw [txidIn_of_ok hj]; rfl
    | error e => rw [txidIn_of_error hj]; exact ⟨_, rfl⟩

theorem admits_executeRefund (armed : Bool) (id_ : String) (last : Option StoredSwap) :
    Admits conduct (executeRefund (activeRefundBroadcaster armed) id_) (fun _ s => IsFree s)
      (.free last) := by
  unfold executeRefund
  simp only [Prog.bind_eq, Prog.pure_eq]
  refine admits_try trivial (fun r _ hr => ?_) fun r rec' hr => ?_
  · obtain rfl : r = .error _ := hr
    exact ⟨last, rfl⟩
  · obtain rfl : r = .ok rec' := hr
    refine Safe.ofExcept_bind (fun _ _ => ⟨_, rfl⟩) fun req hreq => ?_
    cases req with
    | none => exact safe_ret.2 ⟨_, rfl⟩
    | some req =>
      refine Safe.bind (Safe.mapErr ((admits_broadcast armed hreq).mono fun r s hr => ?_))
      cases r with
      | error e => exact hr
      | ok t =>
        obtain rfl : s = .owes (rec'.setRefunded t) := hr
        exact admits_try rfl (fun _ _ _ => ⟨_, rfl⟩) fun _ _ _ => safe_ret.2 ⟨_, rfl⟩

theorem admits_executeDeepAbort (armed : Bool) (id_ : String) (last : Option StoredSwap) :
    Admits conduct (executeDeepAbortAndReport armed id_) (fun _ s => IsFree s) (.free last) := by
  unfold executeDeepAbortAndReport
  simp only [Prog.bind_eq, Prog.pure_eq]
  refine Safe.bind (Safe.attempt ((admits_executeRefund armed id_ last).mono fun r s hs => ?_))
  obtain ⟨last', rfl⟩ := hs
  dsimp only [Safe.Then]
  split
  · exact safe_ret.2 ⟨_, rfl⟩
  · exact safe_ret.2 ⟨_, rfl⟩
  · exact safe_ret.2 ⟨_, rfl⟩
  · refine admits_attempt trivial fun r => ?_
    cases r with
    | error e => exact safe_ret.2 ⟨last', rfl⟩
    | ok rec' =>
      refine admits_ask_idle (by trivial) fun now => Safe.ite (fun hopen => ?_) fun _ =>
        safe_ret.2 ⟨_, rfl⟩
      refine admits_attempt ⟨rec', _, rfl, hopen⟩ fun r => ?_
      split
      · exact safe_ret.2 ⟨some rec', rfl⟩
      · refine Safe.bind (Safe.attempt ((admits_executeRefund armed id_ (some rec')).mono
          fun r s hs => ?_))
        dsimp only [Safe.Then]
        split <;> exact safe_ret.2 hs

theorem admits_fireDeepAbort (armed : Bool) (id_ : String) (last : Option StoredSwap) :
    Admits conduct (fireDeepAbort armed id_) (fun _ s => IsFree s) (.free last) := by
  unfold fireDeepAbort
  simp only [Prog.bind_eq, Prog.pure_eq]
  refine Safe.bind ((admits_executeDeepAbort armed id_ last).mono fun r s hs => ?_)
  cases r with
  | ok _ => exact safe_ret.2 hs
  | error _ => exact hs

theorem admits_runToDeadline {deadline : Nat} {stop : FlagRef} {fire : DeskM Unit Unit} {R : Hand → Prop}
    (hf : ∀ s, R s → Admits conduct fire (fun _ s' => R s') s) (n : Nat) {s : Hand} (hs : R s) :
    Admits conduct (runToDeadline deadline stop fire n) (fun _ s' => R s') s := by
  induction n with
  | zero => exact safe_cut.2 trivial
  | succ n ih =>
    unfold runToDeadline
    simp only [Prog.bind_eq, Prog.pure_eq]
    refine admits_ask_idle (by trivial) fun b => Safe.ite (fun _ => safe_ret.2 hs) fun _ => ?_
    refine admits_ask_idle (by trivial) fun now => ?_
    refine Safe.ite (fun _ => Safe.bind ((hf s hs).mono fun r s' hs' => ?_)) fun _ => ?_
    · cases r with
      | ok _ => exact safe_ret.2 hs'
      | error _ => exact hs'
    · exact admits_ask_idle (by trivial) fun _ => ih

theorem admits_fires (armed : Bool) (id_ : String) (s : Hand) (hs : IsFree s) :
    Admits conduct (fireDeepAbort armed id_) (fun _ s' => IsFree s') s := by
  obtain ⟨last, rfl⟩ := hs
  exact admits_fireDeepAbort armed id_ last

theorem admits_runRefundWatcher (armed : Bool) (id_ : String) (t1 : Nat) (stop : FlagRef) (n : Nat) :
    Admits conduct (runRefundWatcher armed id_ t1 stop n) (fun _ _ => True) (.free none) := by
  unfold runRefundWatcher RefundWatcher.run
  simp only [Prog.bind_eq, Prog.pure_eq]
  refine Safe.bind (Safe.bind
    ((admits_runToDeadline (admits_fires armed id_) n ⟨none, rfl⟩).mono fun r s _ => ?_))
  cases r with
  | ok b => exact safe_ret.2 (safe_ret.2 trivial)
  | error e => trivial

theorem admits_executeRefundAndReport (armed : Bool) (id_ : String) (s : Hand) (hs : IsFree s) :
    Admits conduct (executeRefundAndReport armed id_) (fun _ s' => IsFree s') s := by
  obtain ⟨last, rfl⟩ := hs
  unfold executeRefundAndReport
  simp only [Prog.bind_eq, Prog.pure_eq]
  refine Safe.bind (Safe.attempt ((admits_executeRefund armed id_ last).mono fun r s hs => ?_))
  exact safe_ret.2 hs

theorem admits_runRehydratedRefundWatcher (armed : Bool) (id_ : String) (t1 : Nat) (stop : FlagRef)
    (n : Nat) :
    Admits conduct (runRehydratedRefundWatcher armed id_ t1 stop n) (fun _ _ => True)
      (.free none) := by
  unfold runRehydratedRefundWatcher RefundWatcher.run
  simp only [Prog.bind_eq, Prog.pure_eq]
  have hfire : ∀ s, IsFree s → Admits conduct
      (if armed then fireDeepAbort armed id_ else executeRefundAndReport armed id_)
      (fun _ s' => IsFree s') s := fun s hs =>
    Safe.ite (fun _ => admits_fires armed id_ s hs)
      fun _ => admits_executeRefundAndReport armed id_ s hs
  refine Safe.bind (Safe.bind ((admits_runToDeadline hfire n ⟨none, rfl⟩).mono fun r s hs => ?_))
  obtain ⟨last, rfl⟩ := hs
  cases r with
  | ok b =>
    refine safe_ret.2 (admits_call.2 ⟨trivial, fun r => ?_⟩)
    exact safe_ret.2 trivial
  | error e => trivial

theorem admits_runSwipeWatch (armed : Bool) (id_ : String) (stop : FlagRef) (n : Nat) :
    Admits conduct (runSwipeWatch armed id_ stop n) (fun _ _ => True) (.free none) := by
  unfold runSwipeWatch SwipeWatcher.run
  simp only [Prog.bind_eq, Prog.pure_eq]
  refine admits_attempt trivial fun r => ?_
  cases r with
  | error e => exact safe_ret.2 trivial
  | ok rec' =>
    dsimp only
    cases (swipePlan rec').armAtUnix with
    | none => exact safe_ret.2 trivial
    | some t2 =>
      refine Safe.bind (Safe.bind
        ((admits_runToDeadline (admits_fires armed id_) n ⟨some rec', rfl⟩).mono fun r s _ => ?_))
      cases r with
      | ok b => exact safe_ret.2 (safe_ret.2 trivial)
      | error e => trivial

/-! ## Reclaim -/

theorem admits_attemptReclaim (id_ refundTxid : String) (h : Option Int) (last : Option StoredSwap) :
    Admits conduct (attemptReclaim id_ refundTxid h) (fun _ s => IsFree s) (.free last) := by
  unfold attemptReclaim
  simp only [Prog.bind_eq, Prog.pure_eq]
  refine admits_try trivial (fun r _ hr => ?_) fun r rec' hr => ?_
  · obtain rfl : r = .error _ := hr
    exact ⟨last, rfl⟩
  · obtain rfl : r = .ok rec' := hr
    refine Safe.ofExcept_bind (fun _ _ => ⟨_, rfl⟩) fun verdict hguard => ?_
    cases verdict with
    | some v => exact safe_ret.2 ⟨_, rfl⟩
    | none =>
      refine admits_try_idle (by rfl) (fun _ => ⟨_, rfl⟩) fun r extraction _ => ?_
      refine Safe.ofExcept_bind (fun _ _ => ⟨_, rfl⟩) fun verdict _ => ?_
      cases verdict with
      | some v => exact safe_ret.2 ⟨_, rfl⟩
      | none =>
        have hn (r) : conduct.next (.free (some rec')) (.crypto (.reclaim id_ h)) r =
            owesAfter (some rec') (some .reclaim) (txidIn r) := rfl
        refine admits_try ⟨rec', id_, rfl, hguard⟩ (fun r e hj => ?_) fun r t hj => ?_
        · show IsFree (conduct.next (.free (some rec')) (.crypto (.reclaim id_ h)) r)
          rw [hn, txidIn_of_error hj]
          exact ⟨_, rfl⟩
        · show Admits conduct _ _ (conduct.next (.free (some rec')) (.crypto (.reclaim id_ h)) r)
          rw [hn, txidIn_of_ok hj]
          exact admits_try rfl (fun _ _ _ => ⟨_, rfl⟩) fun _ _ _ => safe_ret.2 ⟨_, rfl⟩

theorem admits_reclaimTick (id_ : String) (ruledOut : List String) (last : Option StoredSwap) :
    Admits conduct (reclaimTick id_ ruledOut) (fun _ s => IsFree s) (.free last) := by
  unfold reclaimTick
  simp only [Prog.bind_eq, Prog.pure_eq]
  refine admits_attempt_idle (by rfl) fun r => ?_
  split
  · refine Safe.ite (fun _ => safe_ret.2 ⟨_, rfl⟩) fun _ => ?_
    exact Safe.bind (Safe.attempt ((admits_attemptReclaim id_ _ none last).mono fun r s hs =>
      safe_ret.2 hs))
  · exact safe_ret.2 ⟨_, rfl⟩
  · exact safe_ret.2 ⟨_, rfl⟩
  · exact safe_ret.2 ⟨_, rfl⟩

theorem admits_reclaimLoop (id_ : String) (stop : FlagRef) (n : Nat) (ruledOut : List String)
    {s : Hand} (hs : IsFree s) :
    Admits conduct (reclaimLoop id_ stop ruledOut n) (fun _ _ => True) s := by
  induction n generalizing s ruledOut with
  | zero => exact safe_cut.2 trivial
  | succ n ih =>
    unfold reclaimLoop
    simp only [Prog.bind_eq, Prog.pure_eq]
    refine admits_ask_idle (by trivial) fun b => Safe.ite (fun _ => safe_ret.2 trivial) fun _ => ?_
    obtain ⟨last, rfl⟩ := hs
    refine Safe.bind ((admits_reclaimTick id_ ruledOut last).mono fun r s hs => ?_)
    cases r with
    | error e => trivial
    | ok next =>
      cases next with
      | none => exact safe_ret.2 trivial
      | some ruledOut => exact admits_ask_idle (by trivial) fun _ => ih ruledOut hs

/-! ## The poll loop and the restart -/

theorem uses_pollOnce (id_ : String) (chain : Chain) : Uses Idle (pollOnce id_ chain) :=
  .bind (.attempt ⟨rfl, fun _ => .ofExcept _⟩) fun _ => .bind (.ask trivial) fun _ => .ask trivial

theorem uses_pollChains (id_ : String) (stop : FlagRef) (chains : List Chain) :
    Uses Idle (pollChains id_ stop chains) := by
  induction chains with
  | nil => exact trivial
  | cons chain chains ih =>
    exact .bind (.ask trivial) fun _ => .ite trivial (.bind (uses_pollOnce _ _) fun _ => ih)

theorem uses_runPollLoop (id_ : String) (stop watchB : FlagRef) (n : Nat) :
    Uses Idle (runPollLoop id_ stop watchB n) := by
  induction n with
  | zero => exact trivial
  | succ n ih =>
    refine .bind (.ask trivial) fun _ => .ite trivial (.bind (.ask trivial) fun b => ?_)
    exact .bind (uses_pollChains _ _ _) fun _ => .bind (.ask trivial) fun _ => ih

theorem admits_spawnChainWatchers (armed : Bool) (id_ : String) (stop : FlagRef)
    (last : Option StoredSwap) :
    Admits conduct (spawnChainWatchers armed id_ stop) (fun _ s => IsFree s) (.free last) := by
  unfold spawnChainWatchers
  simp only [Prog.bind_eq, Prog.pure_eq]
  refine Safe.ite (fun _ => ?_) fun _ => safe_ret.2 ⟨_, rfl⟩
  refine admits_attempt trivial fun r => ?_
  have hfree : IsFree (conduct.next (.free last) (.store (.load id_)) r) := by
    cases r with
    | ok rec' => exact ⟨some rec', rfl⟩
    | error e => exact ⟨last, rfl⟩
  obtain ⟨last', hl⟩ := hfree
  rw [show conduct.next (.free last) (.store (.load id_)) r = .free last' from hl]
  refine admits_ask trivial fun watchB => ?_
  refine admits_ask_idle (by trivial) fun _ => ?_
  exact admits_call.2 ⟨trivial, fun _ => safe_ret.2 ⟨last', rfl⟩⟩

theorem admits_registerAll (swaps : List (String × Int)) (last : Option StoredSwap) :
    Admits conduct (registerAll swaps) (fun _ s => IsFree s) (.free last) := by
  induction swaps with
  | nil => exact safe_ret.2 ⟨last, rfl⟩
  | cons x swaps ih =>
    unfold registerAll
    simp only [Prog.bind_eq, Prog.pure_eq]
    refine admits_ask trivial fun stop => Safe.bind (ih.mono fun r s hs => ?_)
    cases r with
    | ok rest => exact safe_ret.2 hs
    | error e => exact hs

theorem admits_respawn (armed : Bool) (swaps : List (String × Int × FlagRef)) {s : Hand}
    (hs : IsFree s) : Admits conduct (respawn armed swaps) (fun _ _ => True) s := by
  induction swaps generalizing s with
  | nil => exact safe_ret.2 trivial
  | cons x swaps ih =>
    unfold respawn
    simp only [Prog.bind_eq]
    obtain ⟨last, rfl⟩ := hs
    refine Safe.bind ((admits_spawnChainWatchers armed x.1 x.2.2 last).mono fun r s hs => ?_)
    cases r with
    | error e => trivial
    | ok _ =>
      refine Safe.bind (Safe.ite (fun _ => ?_) fun _ => ?_)
      · refine admits_call.2 ⟨allows_idle _ trivial, fun u => ?_⟩
        rw [show conduct.next s (.spawn (.swipeWatch x.1 x.2.2)) u = s from next_idle s trivial]
        exact safe_ret.2 (admits_ask_idle (by trivial) fun _ => ih hs)
      · exact safe_ret.2 (admits_ask_idle (by trivial) fun _ => ih hs)

theorem admits_rehydrate (armed : Bool) :
    Admits conduct (rehydrate armed) (fun _ _ => True) (.free none) := by
  unfold rehydrate
  simp only [Prog.bind_eq]
  refine admits_ask_idle (by trivial) fun dir => ?_
  refine Safe.orFail_bind (fun _ => trivial) fun dir _ => ?_
  refine admits_try_idle (by trivial) (fun _ => trivial) fun _ _ _ => ?_
  refine admits_try_idle (by trivial) (fun _ => trivial) fun _ all _ => ?_
  refine Safe.bind ((admits_registerAll _ none).mono fun r s hs => ?_)
  cases r with
  | ok swaps => exact admits_respawn armed swaps hs
  | error e => trivial

/-! ## The commands -/

theorem terminal_of_removed {p : DeskSwapState} (h : (p.isSettled || p == .aRefunded) = true) :
    p.isTerminal = true := by
  cases p <;> simp_all [DeskSwapState.isSettled, DeskSwapState.isTerminal]

theorem idle_openStore : Uses Idle openStore :=
  .bind (.ask trivial) fun _ => .bind (.orFail _ _) fun _ => .mapErr ⟨trivial, fun _ => .ofExcept _⟩

theorem admits_deskStatus (id_ : String) :
    Admits conduct (deskStatus id_) (fun _ _ => True) .polls := by
  unfold deskStatus
  simp only [Prog.bind_eq, Prog.pure_eq]
  refine admits_try trivial (fun _ _ _ => trivial) fun r st hr => ?_
  obtain rfl : r = .ok st := hr
  show Admits conduct _ _ (.polled st)
  refine Safe.bind (Safe.mono (Q := fun _ s => s = .polled st) (fun r s hs => ?_)
    (Safe.ite (fun ht => ?_) fun _ => safe_ret.2 rfl))
  · subst hs
    cases r with
    | error e => trivial
    | ok _ =>
      refine Safe.bind (Safe.attempt ((admits_idle idle_openStore _).mono fun r s hs => ?_))
      subst hs
      cases r with
      | error e => exact safe_ret.2 trivial
      | ok _ =>
        refine Safe.ite (fun hrem => ?_) fun _ => ?_
        · exact admits_attempt (terminal_of_removed hrem) fun _ => safe_ret.2 trivial
        · refine admits_attempt trivial fun r => ?_
          cases r with
          | error e => exact safe_ret.2 trivial
          | ok rec' => exact admits_attempt rfl fun _ => safe_ret.2 trivial
  · exact admits_call.2 ⟨ht, fun _ => safe_ret.2 rfl⟩

theorem admits_deskProceed (armed : Bool) (id_ : String) :
    Admits conduct (deskProceed armed id_) (fun _ _ => True) (.free none) := by
  unfold deskProceed
  simp only [Prog.bind_eq, Prog.pure_eq]
  refine Safe.ensure_bind (fun _ => trivial) fun _ => ?_
  refine Safe.bind ((admits_idle idle_openStore _).mono fun r s hs => ?_)
  subst hs
  cases r with
  | error e => trivial
  | ok _ =>
    refine admits_try trivial (fun _ _ _ => trivial) fun r rec' hr => ?_
    refine Safe.ensure_bind (fun _ => trivial) fun _ => ?_
    exact admits_ask (allows_idle _ trivial) fun _ => safe_ret.2 trivial

end Desk
