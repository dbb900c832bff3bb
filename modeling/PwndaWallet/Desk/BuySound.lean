import PwndaWallet.Desk.WaitSound

/-!
# The order of a purchase

`buy_order`: in every run of `buyLeader`, `submit_lock` is asked once and only with the desk's refund
pre-signature verified and kept, our claim signature is released only over a chain B we read
ourselves, and `claim` is asked only with the secret held.
-/

namespace Desk

open Tasks

def IsSubmit : Op → Prop
  | .crypto (.submitLock _) => True
  | _ => False

/-- No `submit_lock` has been asked. -/
def NoSubmit (h : List DeskEv) : Prop := Only (fun o => ¬ IsSubmit o) h

theorem not_isSubmit_of_quiet {o : Op} (h : Quiet o) : ¬ IsSubmit o := fun hl => h (by
  cases o with
  | crypto c => cases c <;> first | exact hl | exact hl.elim
  | _ => exact hl.elim)

/-- M3 of a purchase: the UTxO that was prepared is the one that was sent, the pre-signature that
came back is the one that verified and is on the record. -/
structure M3Verified (rec : StoredSwap) (utxo : LockUtxo) (req : RefundSigsRequest)
    (m3 : RefundSigsResponse) (verdict : RefundSigExchange) (armed : StoredSwap) : Prop where
  txid : Rust.trim utxo.txid ≠ ""
  sent : req.lockUtxo = some utxo
  verified : verdict.verified = true
  legSigs : legUsesLegSigs rec.pair = true → m3.legSigs.isSome = true
  presig : armed.refundPresigREnc = some m3.refundPresig.rEnc ∧
    armed.refundPresigSp = some m3.refundPresig.sp
  swapId : armed.swapId = rec.swapId
  refundTo : armed.refundAddress = rec.refundAddress

/-- The lock is prepared and sent, the desk's pre-signature verified, the record saved. -/
def verifiedEvents (rec : StoredSwap) (utxo : LockUtxo) (req : RefundSigsRequest)
    (m3 : RefundSigsResponse) (verdict : RefundSigExchange) (armed : StoredSwap) : List DeskEv :=
  [⟨.crypto (.prepareLock rec.swapId), .ok utxo⟩,
   ⟨.client (.refundSigs rec.swapId req), .ok m3⟩,
   ⟨.crypto (.exchangeRefundSigs rec.swapId (some m3.refundPresig) m3.legSigs), .ok verdict⟩,
   ⟨.store (.save armed), .ok ()⟩]

/-- Between `pre` and `h` the two refund destinations were compared. -/
def RefundDestRead (swapId nominated : String) (c : ClaimDestCheck) (pre h : List DeskEv) : Prop :=
  ∃ st d, h = pre ++ [⟨.client (.status swapId), st⟩] ++ [⟨.crypto (.refundDest swapId), d⟩] ∧
    c = claimDestCheck (textOf (d.map (·.1))) (refundDestOf st).1 nominated (refundDestOf st).2

theorem RefundDestRead.ext {swapId nominated : String} {c : ClaimDestCheck} {pre h : List DeskEv}
    (hd : RefundDestRead swapId nominated c pre h) : Ext Quiet pre h := by
  obtain ⟨st, d, rfl, _⟩ := hd
  exact ((Ext.refl _ pre).snoc (quiet_client _)).snoc (quiet_refundDest _)

/-- All that comes before our lock on a purchase, in order. -/
def BuyReady (rec : StoredSwap) (h : List DeskEv) : Prop :=
  ∃ utxo req m3 verdict armed pre pre' toClaim toRefund,
    M3Verified rec utxo req m3 verdict armed ∧
    (verifiedEvents rec utxo req m3 verdict armed).Sublist pre ∧
    DestRead rec.swapId "" toClaim pre pre' ∧ toClaim.Passes ∧
    RefundDestRead rec.swapId rec.refundAddress toRefund pre' h ∧ toRefund.Passes

/-- The last relay of the desk's chain-B lock. -/
def Relays (o : Op) : Prop :=
  ∃ id_ txid, o = .client (.status id_) ∨ o = .crypto (.setLockBTxid id_ txid)

/-- All that comes before our claim signature leaves, in order: the lock, chain B read `n` deep, and
a last relay of its txid. -/
def BuyReleasable (rec : StoredSwap) (n : Nat) (h : List DeskEv) : Prop :=
  (∃ lockTxid, ∃ cell : Dated, ∃ now, lockTxid ≠ "" ∧ cell.Fresh (maxAge POLL_INTERVAL) n now ∧
    List.Sublist
      [⟨.crypto (.submitLock rec.swapId), .ok (some lockTxid)⟩,
       ⟨.observe .B, (cell, now)⟩] h) ∧ LastOf Relays h

/-- The last answer is an extraction that holds the secret. -/
def SecretRead (rec : StoredSwap) (h : List DeskEv) : Prop :=
  ∃ pre witness, ∃ e : SecretExtraction, e.secretHeld = true ∧
    h = pre ++ [⟨.crypto (.extractSecret rec.swapId witness), .ok e⟩]

/-- What a purchase owes when it asks an operation. -/
def BuyMust (rec : StoredSwap) (n : Nat) : Op → List DeskEv → Prop
  | .crypto (.submitLock id_), h => id_ = rec.swapId ∧ NoSubmit h ∧ BuyReady rec h
  | .crypto (.releaseClaimSig id_ _), h => id_ = rec.swapId ∧ BuyReleasable rec n h
  | .crypto (.claim id_), h => id_ = rec.swapId ∧ SecretRead rec h
  | o, _ => Quiet o

theorem buyMust_quiet (rec : StoredSwap) (n : Nat) (o : Op) (h : List DeskEv) (hq : Quiet o) :
    BuyMust rec n o h := by
  cases o with
  | crypto c => cases c <;> first | exact hq | exact absurd trivial hq
  | _ => exact hq

/-! ## The stages -/

theorem trim_ne_of_checkPreparedLockUtxo {swapId : String} {utxo : LockUtxo} {u : Unit}
    (h : checkPreparedLockUtxo swapId utxo = .ok u) : Rust.trim utxo.txid ≠ "" := by
  unfold checkPreparedLockUtxo at h
  split at h
  · cases h
  · split at h
    · cases h
    · rename_i hc
      intro ht
      simp [ht, Rust.isEmpty] at hc

theorem passes_of_agrees : ClaimDestCheck.Passes .agrees := ⟨nofun, nofun⟩

theorem passes_of_unpublished : ClaimDestCheck.Passes .unpublished := ⟨nofun, nofun⟩

section
variable {rec₀ : StoredSwap} {n₀ : Nat}

theorem safe_buyExchange (rec : StoredSwap) (h : List DeskEv) :
    Safe (.hist (BuyMust rec₀ n₀)) (buyExchange rec)
      (OnOk fun armed h' => Ext Quiet h h' ∧ ∃ utxo req m3 verdict,
        M3Verified rec utxo req m3 verdict armed ∧
        (verifiedEvents rec utxo req m3 verdict armed).Sublist h') h := by
  unfold buyExchange
  simp only [Prog.bind_eq, Prog.pure_eq]
  refine safe_try_hist id (fun _ _ => trivial) fun r utxo hr => ?_
  obtain rfl : r = .ok utxo := hr
  refine Safe.ofExcept_bind (fun _ _ => trivial) fun _ hutxo => ?_
  refine safe_try_hist id (fun _ _ => trivial) fun r produced _ => ?_
  refine Safe.bind_ok (Safe.mapErr_ok
    (safe_retryWhileDeskBusy (buyMust_quiet _ _) (quiet_client _) _ _))
    fun m3 h₁ hm3 => ?_
  obtain ⟨pre, r', he, rfl, hr'⟩ := hm3
  obtain rfl : r' = .ok m3 := hr'
  refine safe_try_hist id (fun _ _ => trivial) fun r verdict hr => ?_
  obtain rfl : r = .ok verdict := hr
  refine Safe.ensure_bind (fun _ => trivial) fun hlegs => ?_
  refine Safe.ensure_bind (fun _ => trivial) fun hver => ?_
  refine safe_try_hist id (fun _ _ => trivial) fun r' _ hr' => ?_
  obtain rfl : r' = .ok () := hr'
  have he₀ := (((Ext.refl Quiet h).snoc (quiet_prepareLock _)).snoc
    (quiet_exchangeRefundSigs _ _ _)).trans he
  have hp : List.Sublist [⟨.crypto (.prepareLock rec.swapId), .ok utxo⟩] pre :=
    he.sublist (List.sublist_append_of_sublist_left (List.sublist_append_right ..))
  refine safe_ret.2 ⟨?_, utxo, ⟨produced.ours.getD ⟨"", ""⟩, none, none, some utxo⟩, m3, verdict, ?_, ?_⟩
  · exact ((he₀.snoc (quiet_client _)).snoc (quiet_exchangeRefundSigs _ _ _)).snoc
      (quiet_store _)
  · exact
      { txid := trim_ne_of_checkPreparedLockUtxo hutxo
        sent := rfl
        verified := hver
        legSigs := fun hp => by simpa [hp] using hlegs
        presig := rec.refundPresig_setClaimPresig _ _
        swapId := by cases m3.claimPresig <;> rfl
        refundTo := by cases m3.claimPresig <;> rfl }
  · simp only [List.append_assoc, List.cons_append, List.nil_append]
    exact hp.append (.refl _)

theorem safe_buyClaimDest (rec : StoredSwap) (h : List DeskEv) :
    Safe (.hist (BuyMust rec₀ n₀)) (buyClaimDest rec)
      (OnOk fun _ h' => ∃ verdict, DestRead rec.swapId "" verdict h h' ∧ verdict.Passes) h := by
  unfold buyClaimDest
  simp only [Prog.bind_eq, Prog.pure_eq]
  refine Safe.bind_ok (safe_checkClaimDest (buyMust_quiet _ _) ..) fun ⟨c, ours, theirs⟩ h' hd => ?_
  cases c with
  | agrees => exact safe_ret.2 ⟨_, hd, passes_of_agrees⟩
  | unpublished => exact safe_ret.2 ⟨_, hd, passes_of_unpublished⟩
  | disagrees => exact safe_fail.2 trivial
  | agreedButNotOurs => exact safe_fail.2 trivial

theorem safe_buyRefundDest (rec : StoredSwap) (h : List DeskEv) :
    Safe (.hist (BuyMust rec₀ n₀)) (buyRefundDest rec)
      (OnOk fun _ h' => ∃ verdict, RefundDestRead rec.swapId rec.refundAddress verdict h h' ∧
        verdict.Passes) h := by
  unfold buyRefundDest
  simp only [Prog.bind_eq, Prog.pure_eq]
  refine safe_attempt_hist id fun st => safe_attempt_hist id fun d => ?_
  split
  · rename_i hc
    exact safe_ret.2 ⟨_, ⟨st, d, rfl, hc.symm⟩, passes_of_agrees⟩
  · rename_i hc
    exact safe_ret.2 ⟨_, ⟨st, d, rfl, hc.symm⟩, passes_of_unpublished⟩
  · exact safe_fail.2 trivial
  · exact safe_fail.2 trivial

/-- Our lock is out. -/
def Submitted (rec : StoredSwap) (h : List DeskEv) : Prop :=
  ∃ lockTxid, lockTxid ≠ "" ∧
    List.Sublist [⟨.crypto (.submitLock rec.swapId), .ok (some lockTxid)⟩] h

theorem Submitted.ext {rec : StoredSwap} {P : Op → Prop} {h h' : List DeskEv} (hs : Submitted rec h)
    (he : Ext P h h') : Submitted rec h' := by
  obtain ⟨t, ht, hs⟩ := hs
  exact ⟨t, ht, he.sublist hs⟩

theorem safe_buyLock (watchB : FlagRef) (rec : StoredSwap) {h : List DeskEv}
    (hid : rec.swapId = rec₀.swapId) (hn : NoSubmit h) (hr : BuyReady rec₀ h) :
    Safe (.hist (BuyMust rec₀ n₀)) (buyLock watchB rec)
      (OnOk fun locked h' => locked.swapId = rec₀.swapId ∧ Submitted rec₀ h') h := by
  unfold buyLock
  simp only [Prog.bind_eq, Prog.pure_eq]
  refine safe_try_hist ⟨hid, hn, hr⟩ (fun _ _ => trivial) fun r lockTxid hr => ?_
  obtain ⟨rfl, ht⟩ := txidOr_eq_ok.1 hr
  refine safe_try_hist id (fun _ _ => trivial) fun r' _ _ => ?_
  refine safe_ask_hist id fun _ => safe_attempt_hist id fun _ => ?_
  refine safe_ret.2 ⟨hid, lockTxid, ht, ?_⟩
  rw [hid]
  simp only [List.append_assoc, List.cons_append, List.nil_append]
  exact List.sublist_append_of_sublist_right (.cons_cons _ (List.nil_sublist _))

theorem safe_relayOnce (rec : StoredSwap) (txid : String) (h : List DeskEv) :
    Safe (.hist (BuyMust rec₀ n₀)) (relayOnce rec txid)
      (OnOk fun r h' => Ext Quiet h h' ∧ ∀ both, r = some both → both.swapId = rec.swapId) h := by
  unfold relayOnce
  simp only [Prog.bind_eq, Prog.pure_eq]
  refine Safe.ite (fun _ => safe_ret.2 ⟨.refl _ h, fun _ hb => nomatch hb⟩) fun _ => ?_
  refine safe_attempt_hist id fun r => ?_
  have h₁ := (Ext.refl _ h).snoc (r := r) (quiet_setLockBTxid _ _)
  cases r with
  | error e => exact Safe.ite (fun _ => safe_ret.2 ⟨h₁, fun _ hb => nomatch hb⟩) fun _ => safe_fail.2 trivial
  | ok _ =>
    refine Safe.bind_ok (safe_quiet (buyMust_quiet _ _) (uses_persist _ _) _) fun _ h₂ he => ?_
    refine safe_ret.2 ⟨h₁.trans he, fun both hb => ?_⟩
    cases hb
    rfl

theorem safe_relayLockBTxid (stop : FlagRef) (rec : StoredSwap) (n : Nat) (h : List DeskEv) :
    Safe (.hist (BuyMust rec₀ n₀)) (relayLockBTxid stop rec n)
      (OnOk fun both h' => Ext Quiet h h' ∧ both.swapId = rec.swapId) h := by
  suffices ∀ h', Ext Quiet h h' → Safe (.hist (BuyMust rec₀ n₀)) (relayLockBTxid stop rec n)
      (OnOk fun both h' => Ext Quiet h h' ∧ both.swapId = rec.swapId) h' from this h (.refl _ h)
  induction n with
  | zero => exact fun _ _ => safe_cut.2 trivial
  | succ n ih =>
    intro h' he
    unfold relayLockBTxid
    simp only [Prog.bind_eq, Prog.pure_eq]
    refine safe_ask_hist id fun b => ?_
    have h₁ := he.snoc (r := b) (quiet_flag _)
    refine Safe.ite (fun _ => safe_failStopped (buyMust_quiet _ _) _ _) fun _ => ?_
    refine safe_attempt_hist id fun st => ?_
    have h₂ := h₁.snoc (r := st) (quiet_client _)
    refine Safe.bind_ok (safe_relayOnce ..) fun r h₃ hr => ?_
    have h₃ := h₂.trans hr.1
    cases r with
    | some both => exact safe_ret.2 ⟨h₃, hr.2 both rfl⟩
    | none =>
      refine safe_ask_hist id fun t => Safe.ite (fun _ => safe_fail.2 trivial) fun _ => ?_
      exact safe_ask_hist id fun _ => ih _ ((h₃.snoc quiet_unixNow).snoc (quiet_sleep _))

theorem safe_buyGate (stop watchB : FlagRef) (rec : StoredSwap) (depths : SwapDepths) (n : Nat)
    (h : List DeskEv) :
    Safe (.hist (BuyMust rec₀ n₀)) (buyGate stop watchB rec depths n)
      (OnOk fun _ h' => ∃ mid, JustRead .B depths.chainB h mid ∧ Ext Quiet mid h' ∧
        LastOf Relays h') h := by
  unfold buyGate
  simp only [Prog.bind_eq, Prog.pure_eq]
  refine Safe.bind_ok (safe_waitForReleaseGate (buyMust_quiet _ _) ..) fun g mid hg => ?_
  cases g with
  | stopped => exact safe_failStopped (buyMust_quiet _ _) _ _
  | deadline =>
    exact Safe.bind_ok (safe_quiet (buyMust_quiet _ _) (uses_holdOpenForRefund quiet_of_waits id ..) _)
      fun _ _ _ => Safe.fail_ok
  | confirmed =>
    have hj := hg.2 rfl
    refine safe_attempt_hist id fun st => ?_
    have h₁ := (Ext.refl Quiet mid).snoc (r := st) (quiet_client _)
    have hl : LastOf Relays (mid ++ [⟨.client (.status rec.swapId), st⟩]) :=
      ⟨mid, _, rfl, rec.swapId, "", .inl rfl⟩
    cases st with
    | error e => exact safe_ret.2 ⟨mid, hj, h₁, hl⟩
    | ok st =>
      refine Safe.ite (fun _ => safe_ret.2 ⟨mid, hj, h₁, hl⟩) fun _ => ?_
      refine safe_attempt_hist id fun r => safe_ret.2 ⟨mid, hj, ?_, ?_⟩
      · exact h₁.snoc (quiet_setLockBTxid _ _)
      · exact ⟨_, _, rfl, rec.swapId, st.lockBTxid, .inr rfl⟩

theorem safe_buyRelease (rec : StoredSwap) {h : List DeskEv} (hid : rec.swapId = rec₀.swapId)
    (hr : BuyReleasable rec₀ n₀ h) :
    Safe (.hist (BuyMust rec₀ n₀)) (buyRelease rec) (OnOk fun _ _ => True) h := by
  unfold buyRelease
  simp only [Prog.bind_eq, Prog.pure_eq]
  refine safe_try_hist ⟨hid, hr⟩ (fun _ _ => trivial) fun r claimSig _ => ?_
  exact Safe.bind_ok (Safe.mapErr_ok
    (safe_retryWhileDeskBusy (buyMust_quiet _ _) (quiet_client _) _ _)) fun _ _ _ => safe_ret.2 trivial

theorem secretHeld_of_classify {held : Bool} {reason : String}
    (h : classifyExtraction held reason = .held) : held = true := by
  cases held with
  | true => rfl
  | false =>
    simp only [classifyExtraction, Bool.false_eq_true, if_false] at h
    split at h <;> cases h

theorem safe_extractLoop (claimATxid : String) (stop : FlagRef) (deadline n : Nat) (h : List DeskEv) :
    Safe (.hist (BuyMust rec₀ n₀)) (extractLoop rec₀.swapId claimATxid stop deadline n)
      (OnOk fun _ h' => SecretRead rec₀ h') h := by
  induction n generalizing h with
  | zero => exact safe_cut.2 trivial
  | succ n ih =>
    unfold extractLoop
    simp only [Prog.bind_eq, Prog.pure_eq]
    refine safe_ask_hist id fun b => ?_
    refine Safe.ite (fun _ => safe_failStopped (buyMust_quiet _ _) _ _) fun _ => ?_
    refine safe_try_hist id (fun _ _ => trivial) fun r e hr => ?_
    obtain rfl : r = .ok e := hr
    split
    · rename_i hc
      exact safe_ret.2 ⟨_, claimATxid, e, secretHeld_of_classify hc, rfl⟩
    · exact safe_fail.2 trivial
    · refine safe_ask_hist id fun t => Safe.ite (fun _ => safe_fail.2 trivial) fun _ => ?_
      exact safe_ask_hist id fun _ => ih _

theorem safe_buyClaim (stop : FlagRef) (rec : StoredSwap) (n : Nat) (h : List DeskEv)
    (hid : rec.swapId = rec₀.swapId) :
    Safe (.hist (BuyMust rec₀ n₀)) (buyClaim stop rec n) (OnOk fun _ _ => True) h := by
  unfold buyClaim
  simp only [Prog.bind_eq, Prog.pure_eq, hid]
  refine Safe.bind_ok (safe_quiet (buyMust_quiet _ _) (uses_waitForDeskChainAClaim quiet_of_waits ..) h)
    fun claimATxid h₁ _ => ?_
  refine Safe.bind_ok (safe_extractLoop ..) fun _ h₂ hs => ?_
  refine safe_try_hist ⟨rfl, hs⟩ (fun _ _ => trivial) fun r sweepTxid _ => ?_
  exact Safe.bind_ok (safe_quiet (buyMust_quiet _ _) (uses_persist _ _) _)
    fun _ _ _ => safe_ret.2 trivial

end

/-! ## The whole purchase -/

theorem safe_buyLeader (stop watchB : FlagRef) (rec : StoredSwap) (depths : SwapDepths) (n : Nat) :
    Safe (.hist (BuyMust rec depths.chainB)) (buyLeader stop watchB rec depths n)
      (OnOk fun _ _ => True) [] := by
  unfold buyLeader
  simp only [Prog.bind_eq]
  refine Safe.bind_ok (safe_buyExchange ..) fun armed h₁ hx => ?_
  obtain ⟨he₁, utxo, req, m3, verdict, hm, hs⟩ := hx
  refine Safe.bind_ok (safe_buyClaimDest ..) fun _ h₂ hc => ?_
  obtain ⟨toClaim, hd, hv⟩ := hc
  refine Safe.bind_ok (safe_buyRefundDest ..) fun _ h₃ hr => ?_
  obtain ⟨toRefund, hd', hv'⟩ := hr
  have hn : NoSubmit h₃ := Only.ext (only_nil _)
    ((he₁.trans (hd.ext.trans hd'.ext)).mono fun _ => not_isSubmit_of_quiet)
  have hready : BuyReady rec h₃ := by
    rw [hm.swapId] at hd hd'
    rw [hm.refundTo] at hd'
    exact ⟨utxo, req, m3, verdict, armed, h₁, h₂, toClaim, toRefund, hm, hs, hd, hv, hd', hv'⟩
  refine Safe.bind_ok (safe_buyLock _ _ hm.swapId hn hready) fun locked h₄ hl => ?_
  obtain ⟨hid, hsub⟩ := hl
  refine Safe.bind_ok (safe_relayLockBTxid ..) fun both h₅ hb => ?_
  obtain ⟨he₅, hid'⟩ := hb
  refine Safe.bind_ok (safe_buyGate ..) fun _ h₆ hg => ?_
  obtain ⟨_, ⟨pre, cell, now, he, rfl, hf⟩, he₆, hlast⟩ := hg
  have hrel : BuyReleasable rec depths.chainB h₆ := by
    obtain ⟨t, ht, hs⟩ := (hsub.ext he₅).ext he
    exact ⟨⟨t, cell, now, ht, hf, he₆.sublist (sublist_snoc hs)⟩, hlast⟩
  refine Safe.bind_ok (safe_buyRelease both (hid'.trans hid) hrel) fun _ h₇ _ => ?_
  exact safe_buyClaim stop both n h₇ (hid'.trans hid)

/-- Every run of a purchase asks for its lock once, with the desk's pre-signature verified and kept
and both destinations agreed; releases its claim signature with its lock out and chain B read deep
enough; and asks for its claim with the secret held. -/
theorem buy_order (stop watchB : FlagRef) (rec : StoredSwap) (minConfsA minConfsB : Int) (n : Nat)
    {tr : List DeskEv} {o : Op} {k : o.Ans → DeskM ConductorError ConductorOutcome}
    (hrun : (buyLeader stop watchB rec (.fromStatus minConfsA minConfsB) n).Run tr (.call o k)) :
    BuyMust rec (max 10 minConfsB.toNat) o tr := by
  have := must_of_run (safe_buyLeader stop watchB rec _ n) hrun
  rwa [show (SwapDepths.fromStatus minConfsA minConfsB).chainB = max 10 minConfsB.toNat from
    floorAt_eq_max minConfsB 10] at this

/-- A desk and an engine that do their part of a purchase. -/
def buyAnswers (_ : Nat) : (o : Op) → o.Ans
  | .client (.status _) => .ok { (default : StatusResponse) with lockBTxid := "b" }
  | .crypto (.prepareLock _) => .ok ⟨"a", 0, 5000000⟩
  | .crypto (.exchangeRefundSigs _ _ _) => .ok { (default : RefundSigExchange) with verified := true }
  | .crypto (.submitLock _) => .ok (some "a")
  | .observe _ => (.polled (.confirmed 12 0 "b") 0, 1)
  | o => o.easyAns

theorem buy_order_releases :
    BuyMust default 12 (.crypto (.releaseClaimSig "" true)) (Prog.fed buyAnswers
      (buyLeader 0 1 default (.fromStatus 0 12) 1) 21) :=
  buy_order 0 1 default 0 12 1 (Prog.run_feed buyAnswers
    (buyLeader 0 1 default (.fromStatus 0 12) 1) 21)

end Desk
