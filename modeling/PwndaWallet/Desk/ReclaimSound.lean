import PwndaWallet.Lib.Trace
import PwndaWallet.Desk.Rehydrate

/-!
# The reclaim watch

What the watch asks the engine, and when it ends. `reclaim_watch_iff`: it ends early on a lock of ours only
where an attempt read the record before the lock was in it.
-/

namespace Desk

open Tasks

/-! ## Sightings and attempts -/

/-- We follow, our chain-B lock is recorded, and no reclaim is. -/
def Reclaimable (rec : StoredSwap) : Prop :=
  ClientRole.fromDeskRole rec.deskRole = .ok .follower ∧ (∃ txid, rec.lockBTxid = some txid ∧ txid ≠ "") ∧
    ∀ txid, rec.reclaimTxid = some txid → txid = ""

/-- We follow, and our chain-B lock is recorded. -/
def OursOnB (rec : StoredSwap) : Prop :=
  ClientRole.fromDeskRole rec.deskRole = .ok .follower ∧ ∃ txid, rec.lockBTxid = some txid ∧ txid ≠ ""

/-- The engine answered that the lock was spent by `txid`. -/
def Sights (swapId txid : String) (e : Ev Op.Ans) : Prop :=
  ∃ v : WatchSpend, e = ⟨.crypto (.watchScriptSpend swapId), .ok v⟩ ∧ SpendSighting.fromEngine v = .spent txid

/-- `txid` is classified as not the refund. -/
def RulesOut (swapId txid : String) (e : Ev Op.Ans) : Prop :=
  ∃ x : SecretExtraction, e = ⟨.crypto (.extractSecret swapId txid), .ok x⟩ ∧ x.outlook = .wrongTxid

/-- The record that is read has nothing of ours on chain B. -/
def FindsNothing (swapId : String) (e : Ev Op.Ans) : Prop :=
  ∃ rec, e = ⟨.store (.load swapId), .ok rec⟩ ∧ reclaimGuard swapId rec = .ok (some .nothingToReclaim)

/-- A spend that was sighted is being examined: only the record has been read since. -/
def Examining (swapId txid : String) (h : List (Ev Op.Ans)) : Prop :=
  ∃ pre e rec, h = pre ++ [e, ⟨.store (.load swapId), .ok rec⟩] ∧ Sights swapId txid e ∧ Reclaimable rec

/-- What holds where the watch asks an operation. -/
structure WatchAsks (swapId : String) (o : Op) (h : List (Ev Op.Ans)) : Prop where
  /-- the watch is over once there is nothing to reclaim -/
  going : ∀ e ∈ h, ¬ FindsNothing swapId e
  extract : ∀ id_ txid, o = .crypto (.extractSecret id_ txid) → id_ = swapId ∧ Examining swapId txid h ∧
    ∀ e ∈ h, ¬ RulesOut swapId txid e
  reclaim : ∀ id_ height, o = .crypto (.reclaim id_ height) → id_ = swapId ∧ ∃ h' txid, ∃ x : SecretExtraction,
    h = h' ++ [⟨.crypto (.extractSecret swapId txid), .ok x⟩] ∧ x.outlook = .held ∧ Examining swapId txid h'

/-- The answers after which the watch may end: stopped, reclaimed now or before, swiped, or a backend that
cannot extract. -/
def EndsRightly (swapId : String) (e : Ev Op.Ans) : Prop :=
  (∃ stop, e = ⟨.flag (.load stop), true⟩) ∨
  (∃ rec, e = ⟨.store (.save rec), .ok ()⟩ ∧ ∃ txid, rec.reclaimTxid = some txid ∧ txid ≠ "") ∨
  (∃ rec txid, e = ⟨.store (.load swapId), .ok rec⟩ ∧ rec.reclaimTxid = some txid ∧ txid ≠ "") ∨
  ∃ txid, ∃ x : SecretExtraction, e = ⟨.crypto (.extractSecret swapId txid), .ok x⟩ ∧
    (x.outlook = .swiped ∨ x.outlook = .impossible)

/-- The watch ended after its last answer. -/
def WatchEnds (swapId : String) (h : List (Ev Op.Ans)) : Prop :=
  ∃ pre e, h = pre ++ [e] ∧ (∀ e' ∈ pre, ¬ FindsNothing swapId e') ∧ (EndsRightly swapId e ∨ FindsNothing swapId e)

/-! ## One attempt -/

/-- The watch goes on: it has not found that there is nothing to reclaim, and it knows what is ruled out. -/
def WatchGoes (swapId : String) (ruledOut : List String) (h : List (Ev Op.Ans)) : Prop :=
  (∀ e ∈ h, ¬ FindsNothing swapId e) ∧ ∀ txid, ∀ e ∈ h, RulesOut swapId txid e → txid ∈ ruledOut

def AfterTick (swapId : String) : Option (List String) → List (Ev Op.Ans) → Prop
  | none, h => WatchEnds swapId h
  | some ruledOut, h => WatchGoes swapId ruledOut h

section
variable {swapId : String} {ruledOut : List String} {h : List (Ev Op.Ans)} {e : Ev Op.Ans}

theorem WatchGoes.snoc (hg : WatchGoes swapId ruledOut h) (hn : ¬ FindsNothing swapId e)
    (hr : ∀ txid, RulesOut swapId txid e → txid ∈ ruledOut) : WatchGoes swapId ruledOut (h ++ [e]) := by
  refine ⟨fun e' he => ?_, fun txid e' he => ?_⟩
  · rcases List.mem_append.1 he with he | he
    · exact hg.1 e' he
    · rw [List.mem_singleton.1 he]
      exact hn
  · rcases List.mem_append.1 he with he | he
    · exact hg.2 txid e' he
    · rw [List.mem_singleton.1 he]
      exact hr txid

theorem WatchGoes.ends (hg : WatchGoes swapId ruledOut h) (he : EndsRightly swapId e ∨ FindsNothing swapId e) :
    WatchEnds swapId (h ++ [e]) :=
  ⟨h, e, rfl, hg.1, he⟩

/-- An answer that is neither a record nor an extraction. -/
theorem WatchGoes.plain (hg : WatchGoes swapId ruledOut h) (hl : ∀ id_, e.op ≠ .store (.load id_))
    (hx : ∀ id_ txid, e.op ≠ .crypto (.extractSecret id_ txid)) : WatchGoes swapId ruledOut (h ++ [e]) := by
  refine hg.snoc ?_ ?_
  · rintro ⟨rec, rfl, _⟩
    exact hl _ rfl
  · rintro txid ⟨x, rfl, _⟩
    exact absurd rfl (hx _ _)

theorem watchAsks_plain {o : Op} (hg : WatchGoes swapId ruledOut h) (hx : ∀ id_ txid, o ≠ .crypto (.extractSecret id_ txid))
    (hr : ∀ id_ height, o ≠ .crypto (.reclaim id_ height)) : WatchAsks swapId o h :=
  ⟨hg.1, fun id_ txid ho => absurd ho (hx id_ txid), fun id_ height ho => absurd ho (hr id_ height)⟩

theorem reclaimGuard_none {rec : StoredSwap} (hguard : reclaimGuard swapId rec = .ok none) : Reclaimable rec := by
  unfold reclaimGuard at hguard
  split at hguard
  · cases hguard
  rename_i hreclaim
  split at hguard
  · cases hguard
  rename_i role hrole
  split at hguard
  · cases hguard
  rename_i hfollows
  split at hguard
  · cases hguard
  rename_i hlock
  obtain rfl : role = .follower := by simpa using hfollows
  refine ⟨hrole, ?_, fun txid htxid => ?_⟩
  · cases hb : rec.lockBTxid with
    | none => simp [hb] at hlock
    | some txid => exact ⟨txid, rfl, by simpa [hb, Rust.isEmpty] using hlock⟩
  · by_cases hne : txid = ""
    · exact hne
    · simp [htxid, Rust.isEmpty, hne] at hreclaim

theorem reclaimGuard_some {rec : StoredSwap} {verdict : ReclaimVerdict}
    (hguard : reclaimGuard swapId rec = .ok (some verdict)) :
    (∃ txid, verdict = .alreadyReclaimed txid ∧ rec.reclaimTxid = some txid ∧ txid ≠ "") ∨
      verdict = .nothingToReclaim := by
  unfold reclaimGuard at hguard
  split at hguard
  · rename_i txid hreclaim
    cases hguard
    obtain ⟨htxid, hne⟩ := Option.filter_eq_some_iff.1 hreclaim
    exact .inl ⟨txid, rfl, htxid, by simpa [Rust.isEmpty] using hne⟩
  · split at hguard
    · cases hguard
    · split at hguard
      · cases hguard
        exact .inr rfl
      · split at hguard
        · cases hguard
          exact .inr rfl
        · cases hguard

/-- What an attempt leaves is what the watch does next. -/
def AfterAttempt (swapId : String) (ruledOut : List String) (r : Except ReclaimError ReclaimVerdict)
    (h : List (Ev Op.Ans)) : Prop :=
  AfterTick swapId (afterAttempt ruledOut r) h

/-- The record is reclaimable and the engine has been asked about the spend. -/
theorem watches_extracted {rec : StoredSwap} {txid : String} {x : SecretExtraction} (hg : WatchGoes swapId ruledOut h)
    (hexamining : Examining swapId txid h) :
    Safe (.hist (WatchAsks swapId)) ((Prog.ofExcept (reclaimOutlook swapId txid x)).bind fun
        | some verdict => .ret verdict
        | none => ((crypto.reclaim swapId none).mapErr (.broadcast swapId)).bind fun txid =>
          ((store.save (rec.setReclaimed txid)).mapErr (.persist swapId txid)).bind fun _ => .ret (.reclaimed txid))
      (AfterAttempt swapId ruledOut) (h ++ [⟨.crypto (.extractSecret swapId txid), .ok x⟩]) := by
  have hlast : ¬ FindsNothing swapId ⟨.crypto (.extractSecret swapId txid), .ok x⟩ := by
    rintro ⟨rec, hrec, _⟩
    cases hrec
  have hkeeps : x.outlook ≠ .wrongTxid →
      WatchGoes swapId ruledOut (h ++ [⟨.crypto (.extractSecret swapId txid), .ok x⟩]) := by
    refine fun hne => hg.snoc hlast ?_
    rintro txid' ⟨x', hx', hout⟩
    cases hx'
    exact absurd hout hne
  unfold reclaimOutlook
  cases hout : x.outlook with
  | retryLater => exact safe_ret.2 (hkeeps (by rw [hout]; decide))
  | impossible => exact safe_fail.2 (hg.ends (.inl (.inr (.inr (.inr ⟨txid, x, rfl, .inr hout⟩)))))
  | swiped => exact safe_ret.2 (hg.ends (.inl (.inr (.inr (.inr ⟨txid, x, rfl, .inl hout⟩)))))
  | wrongTxid =>
    refine safe_ret.2 ⟨?_, fun txid' e he hr => ?_⟩
    · exact fun e he => (List.mem_append.1 he).elim (hg.1 e) fun he => List.mem_singleton.1 he ▸ hlast
    · rcases List.mem_append.1 he with he | he
      · exact List.mem_cons_of_mem _ (hg.2 txid' e he hr)
      · obtain rfl := List.mem_singleton.1 he
        obtain ⟨x', hx', _⟩ := hr
        cases hx'
        exact List.mem_cons_self
  | held =>
    have hgoes := hkeeps (by rw [hout]; decide)
    refine admits_try ⟨hgoes.1, nofun, ?_⟩ (fun r x' _ => hgoes.plain nofun nofun) fun r txid' hr => ?_
    · rintro _ _ ⟨⟩
      exact ⟨rfl, h, txid, x, rfl, hout, hexamining⟩
    · have hgoes' := hgoes.plain (e := ⟨.crypto (.reclaim swapId none), r⟩) nofun nofun
      refine admits_try (watchAsks_plain hgoes' nofun nofun) (fun r x' _ => hgoes'.plain nofun nofun) fun r _ hr' => ?_
      subst hr'
      refine safe_ret.2 (hgoes'.ends (.inl (.inr (.inl ⟨_, rfl, txid', rfl, ?_⟩))))
      exact (txidOr_eq_ok.1 hr).2

theorem watches_attempt {txid : String} (hg : WatchGoes swapId ruledOut h) (hnew : txid ∉ ruledOut)
    (hsight : ∃ pre e, h = pre ++ [e] ∧ Sights swapId txid e) :
    Safe (.hist (WatchAsks swapId)) (attemptReclaim swapId txid none) (AfterAttempt swapId ruledOut) h := by
  unfold attemptReclaim
  simp only [Prog.bind_eq, Prog.pure_eq]
  refine admits_try (watchAsks_plain hg nofun nofun) (fun r x hr => ?_) fun r rec hr => ?_
  · subst hr
    refine hg.snoc ?_ nofun
    rintro ⟨rec, hrec, _⟩
    cases hrec
  subst hr
  have hload : reclaimGuard swapId rec ≠ .ok (some .nothingToReclaim) →
      WatchGoes swapId ruledOut (h ++ [⟨.store (.load swapId), .ok rec⟩]) := by
    refine fun hne => hg.snoc ?_ nofun
    rintro ⟨rec', hrec, hguard⟩
    cases hrec
    exact hne hguard
  refine Safe.ofExcept_bind (fun e he => ?_) fun found hfound => ?_
  · have hgoes := hload (by rw [he]; nofun)
    have hrole : afterAttempt ruledOut (.error e) = some ruledOut := by
      unfold reclaimGuard at he
      split at he
      · cases he
      split at he
      · cases he
        rfl
      split at he
      · cases he
      split at he <;> cases he
    unfold AfterAttempt
    rw [hrole]
    exact hgoes
  cases found with
  | some verdict =>
    rcases reclaimGuard_some hfound with ⟨t, rfl, ht, hne⟩ | rfl
    · exact safe_ret.2 (hg.ends (.inl (.inr (.inr (.inl ⟨rec, t, rfl, ht, hne⟩)))))
    · exact safe_ret.2 (hg.ends (.inr ⟨rec, rfl, hfound⟩))
  | none =>
    have hgoes := hload (by rw [hfound]; nofun)
    have hexamining : Examining swapId txid (h ++ [⟨.store (.load swapId), .ok rec⟩]) := by
      obtain ⟨pre, e, rfl, hs⟩ := hsight
      exact ⟨pre, e, rec, by simp, hs, reclaimGuard_none hfound⟩
    refine admits_try ⟨hgoes.1, ?_, nofun⟩ (fun r x hr => ?_) fun r x hr => ?_
    · rintro _ _ ⟨⟩
      exact ⟨rfl, hexamining, fun e he hr => hnew (hgoes.2 txid e he hr)⟩
    · subst hr
      refine hgoes.snoc ?_ ?_
      · rintro ⟨rec, hrec, _⟩
        cases hrec
      · rintro _ ⟨x', hx', _⟩
        cases hx'
    · subst hr
      exact watches_extracted hgoes hexamining

/-! ## The loop -/

theorem watches_tick (hg : WatchGoes swapId ruledOut h) :
    Safe (.hist (WatchAsks swapId)) (reclaimTick swapId ruledOut) (OnOk (AfterTick swapId)) h := by
  unfold reclaimTick
  simp only [Prog.bind_eq, Prog.pure_eq]
  refine admits_attempt (watchAsks_plain hg nofun nofun) fun r => ?_
  have hgoes := hg.plain (e := ⟨.crypto (.watchScriptSpend swapId), r⟩) nofun nofun
  cases r with
  | error x => exact safe_ret.2 hgoes
  | ok v =>
    cases hv : SpendSighting.fromEngine v with
    | notSpent =>
      simp only [Except.map, hv]
      exact safe_ret.2 hgoes
    | couldNotLook x =>
      simp only [Except.map, hv]
      exact safe_ret.2 hgoes
    | spent txid =>
      simp only [Except.map, hv]
      refine Safe.ite (fun _ => safe_ret.2 hgoes) fun hnew => Safe.bind (Safe.attempt ?_)
      refine (watches_attempt hgoes (by simpa using hnew) ⟨h, _, rfl, v, rfl, hv⟩).mono fun r h' hr => ?_
      exact safe_ret.2 hr

theorem watches_loop (stop : FlagRef) (n : Nat) (hg : WatchGoes swapId ruledOut h) :
    Safe (.hist (WatchAsks swapId)) (reclaimLoop swapId stop ruledOut n) (OnOk fun _ h' => WatchEnds swapId h') h := by
  induction n generalizing ruledOut h with
  | zero => exact safe_cut.2 trivial
  | succ n ih =>
    unfold reclaimLoop
    simp only [Prog.bind_eq, Prog.pure_eq]
    refine admits_ask (watchAsks_plain hg nofun nofun) fun stopped => ?_
    refine Safe.ite (fun hstop => safe_ret.2 ?_) fun _ => ?_
    · subst hstop
      exact hg.ends (.inl (.inl ⟨stop, rfl⟩))
    · have hgoes := hg.plain (e := ⟨.flag (.load stop), stopped⟩) nofun nofun
      refine Safe.bind_ok (watches_tick hgoes) fun next h' hnext => ?_
      cases next with
      | none => exact safe_ret.2 hnext
      | some ruledOut =>
        have hgoes' : WatchGoes swapId ruledOut h' := hnext
        exact admits_ask (watchAsks_plain hgoes' nofun nofun) fun _ => ih (hgoes'.plain nofun nofun)

end

/-! ## Runs -/

/-- `contents` is what the store holds at each answer of the run, and after the last. -/
def Holds (swapId : String) (tr : List (Ev Op.Ans)) (contents : Nat → Option StoredSwap) : Prop :=
  ∀ i rec, tr[i]? = some ⟨.store (.load swapId), .ok rec⟩ → contents i = some rec

/-- At no time is a chain-B lock of ours recorded. -/
def NeverOurs (tr : List (Ev Op.Ans)) (contents : Nat → Option StoredSwap) : Prop :=
  ∀ i ≤ tr.length, ∀ rec, contents i = some rec → ¬ OursOnB rec

/-- The watch ended for one of the right reasons, or there was never a lock of ours to watch for. -/
def EndsInTime (swapId : String) (tr : List (Ev Op.Ans)) (contents : Nat → Option StoredSwap) : Prop :=
  (∃ pre e, tr = pre ++ [e] ∧ EndsRightly swapId e) ∨ NeverOurs tr contents

theorem not_findsNothing {swapId : String} {e : Ev Op.Ans} (h : EndsRightly swapId e) : ¬ FindsNothing swapId e := by
  rintro ⟨rec, rfl, hguard⟩
  rcases h with ⟨_, h⟩ | ⟨_, h, _⟩ | ⟨rec', txid, h, htxid, hne⟩ | ⟨_, _, h, _⟩
  · cases h
  · cases h
  · cases h
    have hfilter : rec.reclaimTxid.filter (!Rust.isEmpty ·) = some txid :=
      Option.filter_eq_some_iff.2 ⟨htxid, by simp [Rust.isEmpty, hne]⟩
    unfold reclaimGuard at hguard
    rw [hfilter] at hguard
    cases hguard
  · cases h

/-- The engine is asked to reclaim for a held secret of a sighted spend only, a txid that is ruled out is not
looked at again, no other answer ends the watch; and a watch that ends was in time for every lock of ours if and
only if no attempt read the record before the lock was in it. -/
theorem reclaim_watch_iff {swapId : String} {stop : FlagRef} {n : Nat} {tr : List (Ev Op.Ans)} {q : DeskM Unit Unit}
    (hr : (runReclaimWatch swapId stop n).Run tr q) :
    (∀ pre e post, tr = pre ++ e :: post → WatchAsks swapId e.op pre) ∧
    (q = .ret () → WatchEnds swapId tr ∧ ∀ contents, Holds swapId tr contents →
      (EndsInTime swapId tr contents ↔ (∀ e ∈ tr, ¬ FindsNothing swapId e) ∨ NeverOurs tr contents)) := by
  have hgoes : WatchGoes swapId [] [] := ⟨by simp, by simp⟩
  have hsafe : Safe (.hist (WatchAsks swapId)) (runReclaimWatch swapId stop n) (OnOk fun _ h' => WatchEnds swapId h') [] :=
    watches_loop stop n hgoes
  refine ⟨fun pre e post htr => must_of_mem hsafe hr htr, ?_⟩
  rintro rfl
  have hends : WatchEnds swapId tr := safe_ret.1 (safe_of_run hsafe hr)
  refine ⟨hends, fun contents _ => ?_⟩
  obtain ⟨pre, e, rfl, hpre, he⟩ := hends
  constructor
  · rintro (⟨pre', e', heq, hright⟩ | hnever)
    · obtain ⟨_, heq⟩ := List.append_inj' heq rfl
      cases heq
      refine .inl fun e' he' => ?_
      rcases List.mem_append.1 he' with he' | he'
      · exact hpre e' he'
      · rw [List.mem_singleton.1 he']
        exact not_findsNothing hright
    · exact .inr hnever
  · rintro (hfound | hnever)
    · exact .inl ⟨pre, e, rfl, he.resolve_right (hfound e (by simp))⟩
    · exact .inr hnever

/-! ## A refund that is found in time, and a spend before our lock -/

/-- A swap that we follow, before we lock chain B. -/
def beforeOurLock : StoredSwap :=
  { (default : StoredSwap) with swapId := "8f40ce4b", deskRole := "LEADER", state := "A_LOCKED" }

def afterOurLock : StoredSwap := beforeOurLock.setLockB "b1c2"

/-- The lock is spent, and the engine reads the secret out of it. -/
def spentAns (rec : StoredSwap) (_ : Nat) : (o : Op) → o.Ans
  | .crypto (.watchScriptSpend _) => .ok { error := none, spent := some true, txid := some "77ee" }
  | .store (.load _) => .ok rec
  | .crypto (.extractSecret _ _) => .ok { secretHeld := true, reason := "" }
  | .crypto (.reclaim _ _) => .ok (some "5a5a")
  | o => o.easyAns

def watchSample : DeskM Unit Unit := runReclaimWatch "8f40ce4b" 0 1

theorem reclaim_watch_found :
    EndsInTime "8f40ce4b" (watchSample.fed (spentAns afterOurLock) 6) fun _ => some afterOurLock := by
  have hrun : watchSample.Run (watchSample.fed (spentAns afterOurLock) 6) (.ret ()) :=
    watchSample.run_feed (spentAns afterOurLock) 6
  refine (((reclaim_watch_iff hrun).2 rfl).2 _ ?_).2 (.inl ?_)
  · intro i rec hi
    obtain ⟨m, hm⟩ := Prog.mem_fed (List.mem_of_getElem? hi)
    cases hm
    rfl
  · rintro e he ⟨rec, rfl, hguard⟩
    obtain ⟨m, hm⟩ := Prog.mem_fed he
    cases hm
    cases hguard

theorem not_always_in_time : ¬ ∀ (swapId : String) (stop : FlagRef) (n : Nat) (tr : List (Ev Op.Ans))
    (contents : Nat → Option StoredSwap), (runReclaimWatch swapId stop n).Run tr (.ret ()) →
    Holds swapId tr contents → EndsInTime swapId tr contents := by
  intro hall
  have hrun : watchSample.Run (watchSample.fed (spentAns beforeOurLock) 3) (.ret ()) :=
    watchSample.run_feed (spentAns beforeOurLock) 3
  -- our lock is recorded right after the attempt has read the record
  have hholds : Holds "8f40ce4b" (watchSample.fed (spentAns beforeOurLock) 3)
      fun i => some (if i < 3 then beforeOurLock else afterOurLock) := by
    intro i rec hi
    have hlt : i < 3 := (List.getElem?_eq_some_iff.1 hi).1
    obtain ⟨m, hm⟩ := Prog.mem_fed (List.mem_of_getElem? hi)
    cases hm
    exact congrArg some (if_pos hlt)
  rcases hall _ _ _ _ _ hrun hholds with ⟨pre, e, heq, hright⟩ | hnever
  · refine not_findsNothing hright ?_
    have hlast := congrArg List.getLast? heq
    rw [List.getLast?_concat] at hlast
    cases hlast
    exact ⟨beforeOurLock, rfl, rfl⟩
  · exact hnever 3 (Nat.le_refl _) afterOurLock rfl ⟨rfl, "b1c2", rfl, by decide⟩

end Desk
