import PwndaWallet.Desk.Conductor
import PwndaWallet.Desk.Refund

/-!
# One T2 for the schedule, the decision and the hold

The swipe watcher, the decision to deep-abort and the bound of the process hold read the role, the lock,
the state and the engine's T2 off the same record, each by itself. They agree on every record
(`deep_abort_agrees`).
-/

namespace Desk

/-- The record of a live swap that we lead, locked, with the engine's T2. -/
structure LedUntil (rec : StoredSwap) (t : Int) : Prop where
  open_ : (DeskSwapState.parse rec.state).isTerminal = false
  leads : ClientRole.fromDeskRole rec.deskRole = .ok .leader
  locked : ∃ txid, rec.lockATxid = some txid ∧ txid ≠ ""
  t2 : rec.t2EngineUnix = some t
  /-- the deadlines are within what the code's `i64` can hold -/
  t_range : -2 ^ 62 < t ∧ t < 2 ^ 62
  t2_range : -2 ^ 62 < rec.t2 ∧ rec.t2 < 2 ^ 62
  t1_range : -2 ^ 63 ≤ rec.t1 ∧ rec.t1 < 2 ^ 63

/-- The schedule, the decision at every clock reading, and the hold run on `t`. -/
structure Agrees (rec : StoredSwap) (t : Int) : Prop where
  watcher : (swipePlan rec).armAtUnix = some (max t 0).toNat
  available : ∀ now : Nat, deepAbortDecisionForRecord rec .leader now = .ok .available ↔ t ≤ now
  early : ∀ now : Nat, (now : Int) < t →
    deepAbortDecisionForRecord rec .leader now = .ok (.tooEarly (t - now))
  hold : ∃ t1 t2, recoveryHoldBound rec = some (t1, t2) ∧ rec.t1 + 150 ≤ refundHoldUntil t1 t2 ∧
    t + 150 ≤ refundHoldUntil t1 t2
  /-- the advertised T2 changes nothing -/
  advertised : ∀ t2, (swipePlan { rec with t2 := t2 }).armAtUnix = (swipePlan rec).armAtUnix ∧
    ∀ role now, deepAbortDecisionForRecord { rec with t2 := t2 } role now =
      deepAbortDecisionForRecord rec role now

/-- No watcher is armed, and at no time is the deep abort ours to take. -/
structure Refuses (rec : StoredSwap) : Prop where
  watcher : (swipePlan rec).armAtUnix = none
  decision : ∀ role, ClientRole.fromDeskRole rec.deskRole = .ok role → ∀ now,
    deepAbortDecisionForRecord rec role now ≠ .ok .available

/-! ## The decision -/

theorem deepAbortDecision_eq_available {role : ClientRole} {state : String} {now t2 : Int} :
    deepAbortDecision role state now t2 = .available ↔
      (DeskSwapState.parse state).isTerminal = false ∧ role = .leader ∧ t2 ≤ now := by
  unfold deepAbortDecision
  generalize (DeskSwapState.parse state).isTerminal = terminal
  cases terminal with
  | true => simp
  | false =>
    cases role with
    | follower => simp [ClientRole.clientLockChain]
    | leader =>
      by_cases hnow : now < t2
      · simp [ClientRole.clientLockChain, hnow, Int.not_le.2 hnow]
      · simp [ClientRole.clientLockChain, hnow, Int.not_lt.1 hnow]

theorem deepAbortDecision_early {state : String} {now t2 : Int}
    (hopen : (DeskSwapState.parse state).isTerminal = false) (hnow : now < t2) :
    deepAbortDecision .leader state now t2 = .tooEarly (Rust.wrapI64 (t2 - now)) := by
  unfold deepAbortDecision
  rw [hopen]
  simp [ClientRole.clientLockChain, hnow]

theorem decision_of_t2 {rec : StoredSwap} {t : Int} (h : rec.t2EngineUnix = some t) (role : ClientRole)
    (now : Int) :
    deepAbortDecisionForRecord rec role now = .ok (deepAbortDecision role rec.state now t) := by
  unfold deepAbortDecisionForRecord engineT2ForDeepAbort
  rw [h]
  rfl

theorem wrapI64_of_range {n : Int} (h : -2 ^ 63 ≤ n ∧ n < 2 ^ 63) : Rust.wrapI64 n = n := by
  unfold Rust.wrapI64
  apply Int.bmod_eq_of_le <;> omega

/-! ## The hold -/

theorem le_refundHoldUntil {t1 t2 : Int} (h1 : t1 < 2 ^ 63) (h2 : t2 < 2 ^ 63) :
    t1 + 150 ≤ refundHoldUntil t1 t2 ∧ t2 + 150 ≤ refundHoldUntil t1 t2 := by
  have hmax : max t1 t2 < 2 ^ 63 := Int.max_lt.2 ⟨h1, h2⟩
  have hnat : (max t1 t2).toNat < 2 ^ 63 := by omega
  -- the sum is far from saturating
  have hsum : refundHoldUntil t1 t2 = (max t1 t2).toNat + 150 := by
    unfold refundHoldUntil Rust.saturatingAdd REFUND_HOLD_GRACE_SECS
    omega
  rw [hsum]
  have hle1 : t1 ≤ max t1 t2 := Int.le_max_left t1 t2
  have hle2 : t2 ≤ max t1 t2 := Int.le_max_right t1 t2
  omega

/-! ## The agreement -/

section
variable {rec : StoredSwap} {t : Int}

theorem swipePlan_of_led (h : LedUntil rec t) : (swipePlan rec).armAtUnix = some (max t 0).toNat := by
  have hnat : (max t 0).toNat = t.toNat := by omega
  rw [hnat]
  unfold swipePlan
  simp only [h.open_, h.leads, h.t2]
  rfl

theorem holdBound_of_led (h : LedUntil rec t) : recoveryHoldBound rec = some (rec.t1, max rec.t2 t) := by
  obtain ⟨txid, htxid, hne⟩ := h.locked
  have he : Rust.isEmpty txid = false := by simp [Rust.isEmpty, hne]
  unfold recoveryHoldBound
  rw [h.open_, h.leads, h.t2]
  simp [htxid, he, ClientRole.clientLockChain]

theorem agrees_of_led (h : LedUntil rec t) : Agrees rec t where
  watcher := swipePlan_of_led h
  available now := by
    rw [decision_of_t2 h.t2, Except.ok.injEq, deepAbortDecision_eq_available, h.open_]
    simp
  early now hnow := by
    have hrange : -2 ^ 63 ≤ t - now ∧ t - now < 2 ^ 63 := by
      have := h.t_range
      omega
    rw [decision_of_t2 h.t2, deepAbortDecision_early h.open_ hnow, wrapI64_of_range hrange]
  hold := by
    refine ⟨_, _, holdBound_of_led h, ?_⟩
    have hmax : max rec.t2 t < 2 ^ 63 := by
      have h1 := h.t_range
      have h2 := h.t2_range
      omega
    obtain ⟨h1, h2⟩ := le_refundHoldUntil h.t1_range.2 hmax
    have hle : t ≤ max rec.t2 t := Int.le_max_right _ _
    exact ⟨h1, by omega⟩
  advertised t2 := by
    refine ⟨?_, fun role now => ?_⟩
    · unfold swipePlan
      simp only [h.open_, h.leads, h.t2]
    · have hrec : ({ rec with t2 := t2 } : StoredSwap).t2EngineUnix = some t := h.t2
      rw [decision_of_t2 h.t2, decision_of_t2 hrec]

/-- Terminal, led by the desk, or without the engine's T2. -/
def NotOurs (rec : StoredSwap) : Prop :=
  (DeskSwapState.parse rec.state).isTerminal = true ∨ ClientRole.fromDeskRole rec.deskRole = .ok .follower ∨
    rec.t2EngineUnix = none

theorem refuses_of_notOurs (h : NotOurs rec) : Refuses rec where
  watcher := by
    unfold swipePlan
    by_cases hterm : (DeskSwapState.parse rec.state).isTerminal = true
    · simp only [hterm]
      rfl
    · rw [Bool.not_eq_true] at hterm
      simp only [hterm]
      rcases h with h | h | h
      · rw [hterm] at h
        cases h
      · rw [h]
        rfl
      · cases hrole : ClientRole.fromDeskRole rec.deskRole with
        | error e => rfl
        | ok role =>
          cases role with
          | follower => rfl
          | leader => simp [ClientRole.clientLockChain, h]
  decision role hrole now := by
    cases ht : rec.t2EngineUnix with
    | none =>
      unfold deepAbortDecisionForRecord engineT2ForDeepAbort
      rw [ht]
      intro heq
      cases heq
    | some t =>
      rw [decision_of_t2 ht]
      intro heq
      obtain ⟨hopen, hlead, _⟩ := deepAbortDecision_eq_available.1 (Except.ok.inj heq)
      rcases h with h | h | h
      · rw [hopen] at h
        cases h
      · rw [hlead] at hrole
        rw [h] at hrole
        cases hrole
      · rw [ht] at h
        cases h

end

/-- The schedule, the decision and the hold agree on every record. -/
theorem deep_abort_agrees (rec : StoredSwap) :
    (∀ t, LedUntil rec t → Agrees rec t) ∧ (NotOurs rec → Refuses rec) :=
  ⟨fun _ h => agrees_of_led h, refuses_of_notOurs⟩

/-- A swap we lead, locked, with the engine's T2 after the advertised one. -/
def lateT2 : StoredSwap :=
  { (default : StoredSwap) with
    deskRole := "FOLLOWER"
    state := "A_LOCKED"
    lockATxid := some "a"
    t1 := 1000
    t2 := 1600
    t2EngineUnix := some 2800 }

theorem deep_abort_agrees_lateT2 : Agrees lateT2 2800 :=
  (deep_abort_agrees lateT2).1 2800
    ⟨rfl, rfl, ⟨"a", rfl, by decide⟩, rfl, by decide, by decide, by decide⟩

end Desk
