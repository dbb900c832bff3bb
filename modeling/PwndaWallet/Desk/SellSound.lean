import PwndaWallet.Desk.WaitSound

/-!
# The order of a sale

`sell_order`: in every run of `sellFollower`, `lock` is asked once and only after everything the
recovery of our leg needs, and `claim` only after the lock is on record.
-/

namespace Desk

open Tasks

def IsLock : Op → Prop
  | .crypto (.lock _) => True
  | _ => False

/-- No `lock` has been asked. -/
def NoLock (h : List DeskEv) : Prop := Only (fun o => ¬ IsLock o) h

theorem not_isLock_of_quiet {o : Op} (h : Quiet o) : ¬ IsLock o := fun hl => h (by
  cases o with
  | crypto c => cases c <;> first | exact hl | exact hl.elim
  | _ => exact hl.elim)

/-- What M3 leaves: the record is `rec` with our refund pre-signature, which the engine made
together with leg signatures on an LTC pair. -/
structure M3Made (rec : StoredSwap) (made : RefundSigExchange) (armed : StoredSwap) : Prop where
  presig : ∃ ours, made.ours = some ours ∧ armed.refundPresigREnc = some ours.rEnc ∧
    armed.refundPresigSp = some ours.sp
  legSigs : legUsesLegSigs rec.pair = true → made.oursLegSigs.isSome = true
  swapId : armed.swapId = rec.swapId
  payout : armed.payoutAddress = rec.payoutAddress

/-- The lock is recorded with the engine, the pre-signature is made, the record is saved. -/
def armedEvents (rec : StoredSwap) (utxo : LockUtxo) (made : RefundSigExchange) (armed : StoredSwap) :
    List DeskEv :=
  [⟨.crypto (.setLockUtxo rec.swapId utxo.txid utxo.index (toString utxo.amount)), .ok ()⟩,
   ⟨.crypto (.exchangeRefundSigs rec.swapId none none), .ok made⟩,
   ⟨.store (.save armed), .ok ()⟩]

/-- All that comes before our lock on a sale, in order: the recovery is armed, chain A is read `n`
deep, and last the two claim destinations are compared. -/
def SellReady (rec : StoredSwap) (n : Nat) (h : List DeskEv) : Prop :=
  ∃ utxo made armed, ∃ cell : Dated, ∃ now pre verdict, M3Made rec made armed ∧
    cell.Fresh (maxAge POLL_INTERVAL) n now ∧
    (armedEvents rec utxo made armed ++ ([⟨.observe .A, (cell, now)⟩] : List DeskEv)).Sublist pre ∧
    DestRead rec.swapId rec.payoutAddress verdict pre h ∧ verdict.Passes

/-- All that comes between our lock on a sale and our claim, in order. -/
def SellLocked (rec : StoredSwap) (h : List DeskEv) : Prop :=
  ∃ lockTxid locked presig, lockTxid ≠ "" ∧ locked.lockBTxid = some lockTxid ∧
    List.Sublist
      [⟨.crypto (.lock rec.swapId), .ok (some lockTxid)⟩,
       ⟨.store (.save locked), .ok ()⟩,
       ⟨.crypto (.ingestClaimPresig rec.swapId presig), .ok ()⟩] h

/-- What a sale owes when it asks an operation. -/
def SellMust (rec : StoredSwap) (n : Nat) : Op → List DeskEv → Prop
  | .crypto (.lock id_), h => id_ = rec.swapId ∧ NoLock h ∧ SellReady rec n h
  | .crypto (.claim id_), h => id_ = rec.swapId ∧ SellLocked rec h
  | o, _ => Quiet o

theorem sellMust_quiet (rec : StoredSwap) (n : Nat) (o : Op) (h : List DeskEv) (hq : Quiet o) :
    SellMust rec n o h := by
  cases o with
  | crypto c => cases c <;> first | exact hq | exact absurd trivial hq
  | _ => exact hq

/-! ## The stages -/

theorem m3Made_of_exchange {rec : StoredSwap} {made : RefundSigExchange} {ours : AdaptorPresig}
    {legSigs : Option LegSigs} (ho : made.ours = some ours) (hl : ownLegSigs rec made = .ok legSigs)
    (p : Option AdaptorPresig) : M3Made rec made ((rec.setRefundPresig ours).setClaimPresig p) where
  presig := ⟨ours, ho, rec.refundPresig_setClaimPresig ours p⟩
  legSigs := by
    intro hp
    simp only [ownLegSigs, hp, if_true] at hl
    cases hm : made.oursLegSigs with
    | some ls => rfl
    | none => rw [hm] at hl; cases hl
  swapId := by cases p <;> rfl
  payout := by cases p <;> rfl

section
variable {rec₀ : StoredSwap} {n₀ : Nat}

theorem safe_sellExchange (stop : FlagRef) (rec : StoredSwap) (n : Nat) (h : List DeskEv) :
    Safe (.hist (SellMust rec₀ n₀)) (sellExchange stop rec n)
      (OnOk fun armed h' => Ext Quiet h h' ∧ ∃ utxo made, M3Made rec made armed ∧
        (armedEvents rec utxo made armed).Sublist h') h := by
  unfold sellExchange
  simp only [Prog.bind_eq, Prog.pure_eq]
  refine Safe.bind_ok (safe_quiet (sellMust_quiet _ _) (uses_waitForPreparedLockUtxo quiet_of_waits ..) h)
    fun utxo h₁ he => ?_
  refine safe_try_hist id (fun _ _ => trivial) fun r _ hr => ?_
  obtain rfl : r = .ok () := hr
  refine safe_try_hist id (fun _ _ => trivial) fun r made hr => ?_
  obtain rfl : r = .ok made := hr
  refine Safe.orFail_bind (fun _ => trivial) fun ours hours => ?_
  refine Safe.ofExcept_bind (fun _ _ => trivial) fun legSigs hlegs => ?_
  refine safe_try_hist id (fun _ _ => trivial) fun r m3 _ => ?_
  refine safe_try_hist id (fun _ _ => trivial) fun r' _ hr' => ?_
  obtain rfl : r' = .ok () := hr'
  refine safe_ret.2 ⟨?_, utxo, made, m3Made_of_exchange hours hlegs _, ?_⟩
  · exact (((he.snoc (quiet_setLockUtxo _ _ _ _)).snoc (quiet_exchangeRefundSigs _ _ _)).snoc
      (quiet_client _)).snoc (quiet_store _)
  · simp only [List.append_assoc, List.cons_append, List.nil_append]
    exact List.sublist_append_of_sublist_right
      (.cons_cons _ (.cons_cons _ (.cons _ (.cons_cons _ .slnil))))

theorem safe_sellGate (stop : FlagRef) (rec : StoredSwap) (depths : SwapDepths) (n : Nat)
    (h : List DeskEv) :
    Safe (.hist (SellMust rec₀ n₀)) (sellGate stop rec depths n)
      (OnOk fun _ h' => ∃ pre verdict, JustRead .A depths.chainA h pre ∧
        DestRead rec.swapId rec.payoutAddress verdict pre h' ∧ verdict.Passes) h := by
  unfold sellGate
  simp only [Prog.bind_eq, Prog.pure_eq]
  refine Safe.bind_ok (safe_waitForLockGate (sellMust_quiet _ _) ..) fun g pre hg => ?_
  cases g with
  | stopped => exact safe_failStopped (sellMust_quiet _ _) _ _
  | deadline => exact safe_fail.2 trivial
  | confirmed =>
    have hj := hg.2 rfl
    refine Safe.bind_ok (safe_checkClaimDest (sellMust_quiet _ _) ..) fun ⟨c, ours, theirs⟩ h' hd => ?_
    cases c with
    | agrees => exact safe_ret.2 ⟨pre, _, hj, hd, by simp [ClaimDestCheck.Passes]⟩
    | unpublished => exact safe_ret.2 ⟨pre, _, hj, hd, by simp [ClaimDestCheck.Passes]⟩
    | disagrees => exact safe_fail.2 trivial
    | agreedButNotOurs => exact safe_fail.2 trivial

theorem safe_sellLock (watchB : FlagRef) (rec : StoredSwap) {h : List DeskEv}
    (hid : rec.swapId = rec₀.swapId) (hn : NoLock h) (hr : SellReady rec₀ n₀ h) :
    Safe (.hist (SellMust rec₀ n₀)) (sellLock watchB rec)
      (OnOk fun locked h' => locked.swapId = rec₀.swapId ∧ ∃ lockTxid, lockTxid ≠ "" ∧
        locked.lockBTxid = some lockTxid ∧
        List.Sublist [⟨.crypto (.lock rec₀.swapId), .ok (some lockTxid)⟩,
          ⟨.store (.save locked), .ok ()⟩] h') h := by
  unfold sellLock
  simp only [Prog.bind_eq, Prog.pure_eq]
  refine safe_try_hist ⟨hid, hn, hr⟩ (fun _ _ => trivial) fun r lockTxid hr => ?_
  obtain ⟨rfl, ht⟩ := txidOr_eq_ok.1 hr
  refine safe_try_hist id (fun _ _ => trivial) fun r' _ hr' => ?_
  obtain rfl : r' = .ok () := hr'
  refine safe_ask_hist id fun _ => safe_attempt_hist id fun _ => ?_
  refine safe_ret.2 ⟨hid, lockTxid, ht, rfl, ?_⟩
  rw [hid]
  simp only [List.append_assoc, List.cons_append, List.nil_append]
  exact List.sublist_append_of_sublist_right (.cons_cons _ (.cons_cons _ (List.nil_sublist _)))

theorem safe_sellClaim (stop : FlagRef) (locked : StoredSwap) (n : Nat) {lockTxid : String}
    {h : List DeskEv} (hid : locked.swapId = rec₀.swapId) (ht : lockTxid ≠ "")
    (hlock : locked.lockBTxid = some lockTxid)
    (hs : List.Sublist [⟨.crypto (.lock rec₀.swapId), .ok (some lockTxid)⟩,
      ⟨.store (.save locked), .ok ()⟩] h) :
    Safe (.hist (SellMust rec₀ n₀)) (sellClaim stop locked n) (OnOk fun _ _ => True) h := by
  unfold sellClaim
  simp only [Prog.bind_eq, Prog.pure_eq, hid]
  refine Safe.bind_ok (safe_quiet (sellMust_quiet _ _) (uses_waitForReleasedClaimSig quiet_of_waits ..) h)
    fun presig h₁ he => ?_
  refine safe_try_hist id (fun _ _ => trivial) fun r _ hr => ?_
  obtain rfl : r = .ok () := hr
  have hm : SellLocked rec₀ (h₁ ++ [⟨.crypto (.ingestClaimPresig rec₀.swapId presig), .ok ()⟩]) :=
    ⟨lockTxid, locked, presig, ht, hlock, sublist_snoc (he.sublist hs)⟩
  refine safe_try_hist ⟨rfl, hm⟩ (fun _ _ => trivial) fun r claimTxid _ => ?_
  refine Safe.bind_ok (safe_quiet (sellMust_quiet _ _) (uses_waitForSettlement quiet_of_waits ..) _)
    fun outcome h₂ _ => ?_
  exact Safe.bind_ok (safe_quiet (sellMust_quiet _ _) (uses_persist _ _) _)
    fun _ _ _ => safe_ret.2 trivial

end

/-! ## The whole sale -/

theorem safe_sellFollower (stopBefore : Option String) (stop watchB : FlagRef) (rec : StoredSwap)
    (depths : SwapDepths) (n : Nat) :
    Safe (.hist (SellMust rec depths.chainA)) (sellFollower stopBefore stop watchB rec depths n)
      (OnOk fun _ _ => True) [] := by
  unfold sellFollower
  simp only [Prog.bind_eq, Prog.pure_eq]
  refine Safe.bind_ok (safe_sellExchange ..) fun armed h₁ ⟨he₁, utxo, made, hm, hs⟩ => ?_
  refine Safe.bind_ok (safe_sellGate ..) fun _ h₂ ⟨pre, verdict, hj, hd, hv⟩ => ?_
  have hn : NoLock h₂ :=
    Only.ext (only_nil _) ((he₁.trans (hj.ext.trans hd.ext)).mono fun _ => not_isLock_of_quiet)
  have hr : SellReady rec depths.chainA h₂ := by
    obtain ⟨pre, cell, now, he, rfl, hf⟩ := hj
    rw [hm.swapId, hm.payout] at hd
    exact ⟨utxo, made, armed, cell, now, _, verdict, hm, hf, sublist_snoc (he.sublist hs), hd, hv⟩
  refine Safe.ite (fun _ => ?_) fun _ => ?_
  · exact Safe.bind_ok (safe_quiet (sellMust_quiet _ _) (uses_persist _ _) _)
      fun _ _ _ => safe_ret.2 trivial
  · refine Safe.bind_ok (safe_sellLock _ _ hm.swapId hn hr)
      fun locked h₃ ⟨hid, lockTxid, ht, hl, hs⟩ => ?_
    exact safe_sellClaim stop locked n hid ht hl hs

/-- Every run of a sale asks for its lock once, with the recovery armed, the desk's lock read deep
enough and our destination agreed; and for its claim with the lock on record. -/
theorem sell_order (stopBefore : Option String) (stop watchB : FlagRef) (rec : StoredSwap)
    (minConfsA minConfsB : Int) (n : Nat) {tr : List DeskEv} {o : Op}
    {k : o.Ans → DeskM ConductorError ConductorOutcome}
    (hrun : (sellFollower stopBefore stop watchB rec (.fromStatus minConfsA minConfsB) n).Run tr
      (.call o k)) :
    SellMust rec (max 3 minConfsA.toNat) o tr := by
  have := must_of_run (safe_sellFollower stopBefore stop watchB rec _ n) hrun
  rwa [show (SwapDepths.fromStatus minConfsA minConfsB).chainA = max 3 minConfsA.toNat from
    floorAt_eq_max minConfsA 3] at this

/-- A desk and an engine that do their part of a sale. -/
def sellAnswers (_ : Nat) : (o : Op) → o.Ans
  | .client (.status _) => .ok { (default : StatusResponse) with lockUtxo := some ⟨"a", 0, 5⟩ }
  | .crypto (.exchangeRefundSigs _ _ _) => .ok { (default : RefundSigExchange) with ours := some ⟨"r", "s"⟩ }
  | .observe _ => (.polled (.confirmed 5 0 "a") 0, 1)
  | .crypto (.lock _) => .ok (some "b")
  | o => o.easyAns

theorem sell_order_locks :
    SellMust default 5 (.crypto (.lock "")) (Prog.fed sellAnswers
      (sellFollower none 0 1 default (.fromStatus 5 0) 1) 10) :=
  sell_order none 0 1 default 5 0 1 (Prog.run_feed sellAnswers
    (sellFollower none 0 1 default (.fromStatus 5 0) 1) 10)

end Desk
