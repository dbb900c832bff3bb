import PwndaWallet.Desk.Commands
import PwndaWallet.Desk.Refund

/-!
# Timelock arithmetic in a debug build

The engine can be armed only in a debug build, where an `i64` operation that overflows panics. These
are the T2 block of `accept_and_persist` (`desk/commands.rs`) and the decision on the deep abort
(`desk/refund.rs`) as such a build computes them; `none` is a panic.
-/

namespace Desk

def checkedI64 (n : Int) : Option Int := if -2 ^ 63 ≤ n ∧ n < 2 ^ 63 then some n else none

/-- The delta that is reported when the engine's T2 is not the advertised one. -/
def reportedDelta (engine advertised : Int) : Option (Option Int) :=
  if engine ≠ advertised then (checkedI64 (engine - advertised)).map some else some none

/-! ## The handshake -/

def deriveEngineT2Checked (role : ClientRole) (m1T1Unix : Int)
    (m1T1Slot m1T2Slot materialT1Slot materialT2Slot cfgSwipeDeltaSlots : Option Int) :
    Option (Except String EngineT2) :=
  let debug (x : Option Int) : String := match x with
    | some n => s!"Some({n})"
    | none => "None"
  if role == .follower then
    match m1T1Slot, m1T2Slot with
    | some a, some b => do
      let distance ← checkedI64 (b - a)
      let unix ← checkedI64 (m1T1Unix + distance)
      return .ok
        { slot := some b
          unix := some unix
          source := "AcceptResponse t1Slot/t2Slot (the desk leads and commits the chain-A slots)" }
    | _, _ =>
      match cfgSwipeDeltaSlots with
      | some d => do
        let unix ← checkedI64 (m1T1Unix + d)
        return .ok
          { slot := none
            unix := some unix
            source := "effective-config ada.swipeDeltaSlots (M1 carried no slots)" }
      | none => some (.error (s!"we follow, M1 carried no usable slots (t1Slot={debug m1T1Slot}, " ++
          s!"t2Slot={debug m1T2Slot}) and the desk's effective-config could not supply " ++
          "ada.swipeDeltaSlots"))
  else
    match materialT1Slot, materialT2Slot with
    | some a, some b => do
      let distance ← checkedI64 (b - a)
      let unix ← checkedI64 (m1T1Unix + distance)
      return .ok
        { slot := some b
          unix := some unix
          source := "our own engine's derived slots (we lead; the desk echoes us)" }
    | _, _ => some (.error (s!"we lead but our engine reported no slots (t1Slot={debug materialT1Slot}, " ++
        s!"t2Slot={debug materialT2Slot}) — init_swap validation should have refused this"))

def t2Disagreement (advertised : Int) (e : EngineT2) : Option (Option Int) :=
  match e.unix with
  | some unix => reportedDelta unix advertised
  | none => some none

/-- The T2 block of `accept_and_persist`: what is derived, and the delta that is reported. -/
def acceptT2 (role : ClientRole) (m1 : AcceptResponse) (material : SwapKeyMaterial) (cfgDelta : Option Int) :
    Option (Except String EngineT2 × Option Int) := do
  let derived ← deriveEngineT2Checked role m1.t1 m1.t1Slot m1.t2Slot material.t1Slot material.t2Slot cfgDelta
  match derived with
  | .ok e => do
    let delta ← t2Disagreement m1.t2 e
    return (derived, delta)
  | .error _ => return (derived, none)

/-! ## The deep abort -/

def deepAbortDecisionChecked (role : ClientRole) (state : String) (now t2 : Int) : Option DeepAbortDecision :=
  if (DeskSwapState.parse state).isTerminal then some .alreadyTerminal
  else if role.clientLockChain != .A then some .notLeader
  else if now < t2 then (checkedI64 (t2 - now)).map .tooEarly
  else some .available

def deepAbortDecisionForRecordChecked (rec : StoredSwap) (role : ClientRole) (now : Int) :
    Option (Except String DeepAbortDecision) :=
  match engineT2ForDeepAbort rec with
  | .error e => some (.error e)
  | .ok t2 => do
    let _ ← reportedDelta t2 rec.t2
    let decision ← deepAbortDecisionChecked role rec.state now t2
    return .ok decision

/-!
## When the timelock arithmetic is total

All its operands come from the other side's JSON. A debug build computes what a release build does, or
panics, and it panics exactly when one of the differences is beyond an `i64` (`timelock_total_iff`).
-/

/-- The range of an `i64`. -/
def InI64 (n : Int) : Prop := -2 ^ 63 ≤ n ∧ n < 2 ^ 63

instance (n : Int) : Decidable (InI64 n) := inferInstanceAs (Decidable (_ ∧ _))

theorem checkedI64_of_range {n : Int} (hn : InI64 n) : checkedI64 n = some n := if_pos hn

theorem isSome_checkedI64 {n : Int} : (checkedI64 n).isSome = true ↔ InI64 n := by
  unfold checkedI64 InI64
  split <;> simp_all

theorem eq_of_checkedI64 {n m : Int} (hn : checkedI64 n = some m) : InI64 n ∧ m = n := by
  unfold checkedI64 at hn
  split at hn
  · rename_i hrange
    exact ⟨hrange, (Option.some.inj hn).symm⟩
  · cases hn

theorem wrapI64_of_checked {n m : Int} (hn : checkedI64 n = some m) : Rust.wrapI64 n = m := by
  obtain ⟨hrange, rfl⟩ := eq_of_checkedI64 hn
  unfold InI64 at hrange
  unfold Rust.wrapI64
  rw [Int.bmod_def]
  split <;> omega

/-! ## The handshake -/

/-- A slot pair `a`, `b` moves `t1` to a time that fits, and fits beside the advertised `t2`. -/
structure PairFits (t1 t2 a b : Int) : Prop where
  distance : InI64 (b - a)
  unix : InI64 (t1 + (b - a))
  report : InI64 (t1 + (b - a) - t2)

/-- The same of a delta. -/
structure DeltaFits (t1 t2 d : Int) : Prop where
  unix : InI64 (t1 + d)
  report : InI64 (t1 + d - t2)

/-- The slot pair that the engine's T2 is derived from: the desk's when we follow, and ours when we
lead. -/
def slotPair (role : ClientRole) (m1 : AcceptResponse) (material : SwapKeyMaterial) : Option (Int × Int) :=
  if role == .follower then
    match m1.t1Slot, m1.t2Slot with
    | some a, some b => some (a, b)
    | _, _ => none
  else
    match material.t1Slot, material.t2Slot with
    | some a, some b => some (a, b)
    | _, _ => none

/-- What the operands of the handshake have to satisfy. -/
def AcceptFits (role : ClientRole) (m1 : AcceptResponse) (material : SwapKeyMaterial) (cfgDelta : Option Int) :
    Prop :=
  match slotPair role m1 material with
  | some (a, b) => PairFits m1.t1 m1.t2 a b
  | none => ∀ d, role = .follower → cfgDelta = some d → DeltaFits m1.t1 m1.t2 d

theorem isSome_reportedDelta {engine advertised : Int} :
    (reportedDelta engine advertised).isSome = true ↔ InI64 (engine - advertised) := by
  by_cases heq : engine = advertised
  · subst heq
    have hzero : InI64 0 := by decide
    simp [reportedDelta, hzero]
  · simp [reportedDelta, heq, isSome_checkedI64]

theorem isSome_t2Disagreement {advertised unix : Int} {slot : Option Int} {source : String} :
    (t2Disagreement advertised ⟨slot, some unix, source⟩).isSome = true ↔ InI64 (unix - advertised) :=
  isSome_reportedDelta

section
variable {role : ClientRole} {m1 : AcceptResponse} {material : SwapKeyMaterial} {cfgDelta : Option Int}

/-- What the T2 block derives. -/
abbrev derived (role : ClientRole) (m1 : AcceptResponse) (material : SwapKeyMaterial) (cfgDelta : Option Int) :
    Option (Except String EngineT2) :=
  deriveEngineT2Checked role m1.t1 m1.t1Slot m1.t2Slot material.t1Slot material.t2Slot cfgDelta

theorem derived_of_pair {a b : Int} (hp : slotPair role m1 material = some (a, b)) : ∃ source,
    derived role m1 material cfgDelta = (checkedI64 (b - a)).bind fun distance =>
      (checkedI64 (m1.t1 + distance)).bind fun unix => some (.ok ⟨some b, some unix, source⟩) := by
  unfold slotPair at hp
  cases role with
  | follower =>
    cases ha : m1.t1Slot with
    | none => simp [ha] at hp
    | some a' =>
      cases hb : m1.t2Slot with
      | none => simp [ha, hb] at hp
      | some b' =>
        simp only [ha, hb, beq_self_eq_true, if_true, Option.some.injEq, Prod.mk.injEq] at hp
        obtain ⟨rfl, rfl⟩ := hp
        exact ⟨_, by simp only [derived, deriveEngineT2Checked, ha, hb]; rfl⟩
  | leader =>
    have hrole : (ClientRole.leader == .follower) = false := by decide
    cases ha : material.t1Slot with
    | none => simp [hrole, ha] at hp
    | some a' =>
      cases hb : material.t2Slot with
      | none => simp [hrole, ha, hb] at hp
      | some b' =>
        simp only [hrole, ha, hb, Bool.false_eq_true, if_false, Option.some.injEq, Prod.mk.injEq] at hp
        obtain ⟨rfl, rfl⟩ := hp
        exact ⟨_, by simp only [derived, deriveEngineT2Checked, hrole, ha, hb]; rfl⟩

theorem derived_of_delta {d : Int} (hp : slotPair role m1 material = none) (hr : role = .follower)
    (hd : cfgDelta = some d) : ∃ source, derived role m1 material cfgDelta =
      (checkedI64 (m1.t1 + d)).bind fun unix => some (.ok ⟨none, some unix, source⟩) := by
  subst hr
  subst hd
  unfold slotPair at hp
  cases ha : m1.t1Slot with
  | none => exact ⟨_, by simp only [derived, deriveEngineT2Checked, ha]; rfl⟩
  | some a =>
    cases hb : m1.t2Slot with
    | none => exact ⟨_, by simp only [derived, deriveEngineT2Checked, ha, hb]; rfl⟩
    | some b => simp [ha, hb] at hp

theorem derived_of_none (hp : slotPair role m1 material = none) (hd : role = .follower → cfgDelta = none) :
    ∃ why, derived role m1 material cfgDelta = some (.error why) := by
  unfold slotPair at hp
  cases role with
  | follower =>
    have hd := hd rfl
    subst hd
    cases ha : m1.t1Slot with
    | none => exact ⟨_, by simp only [derived, deriveEngineT2Checked, ha]; rfl⟩
    | some a =>
      cases hb : m1.t2Slot with
      | none => exact ⟨_, by simp only [derived, deriveEngineT2Checked, ha, hb]; rfl⟩
      | some b => simp [ha, hb] at hp
  | leader =>
    have hrole : (ClientRole.leader == .follower) = false := by decide
    cases ha : material.t1Slot with
    | none => exact ⟨_, by simp only [derived, deriveEngineT2Checked, hrole, ha]; rfl⟩
    | some a =>
      cases hb : material.t2Slot with
      | none => exact ⟨_, by simp only [derived, deriveEngineT2Checked, hrole, ha, hb]; rfl⟩
      | some b => simp [hrole, ha, hb] at hp

theorem isSome_bind {α β : Type} {x : Option α} {f : α → Option β} :
    (x.bind f).isSome = true ↔ ∃ a, x = some a ∧ (f a).isSome = true := by
  cases x <;> simp

/-- The block panics in the derivation, or in the report. -/
theorem isSome_acceptT2 : (acceptT2 role m1 material cfgDelta).isSome = true ↔
    ∃ r, derived role m1 material cfgDelta = some r ∧
      ∀ e, r = .ok e → (t2Disagreement m1.t2 e).isSome = true := by
  refine isSome_bind.trans ⟨?_, ?_⟩
  · rintro ⟨r, hr, hreport⟩
    refine ⟨r, hr, fun e he => ?_⟩
    subst he
    obtain ⟨delta, hdelta, _⟩ := isSome_bind.1 hreport
    exact Option.isSome_iff_exists.2 ⟨delta, hdelta⟩
  · rintro ⟨r, hr, hreport⟩
    refine ⟨r, hr, ?_⟩
    cases r with
    | error why => rfl
    | ok e =>
      obtain ⟨delta, hdelta⟩ := Option.isSome_iff_exists.1 (hreport e rfl)
      exact isSome_bind.2 ⟨delta, hdelta, rfl⟩

/-- The handshake does not panic exactly when its operands fit. -/
theorem acceptT2_total_iff :
    (acceptT2 role m1 material cfgDelta).isSome = true ↔ AcceptFits role m1 material cfgDelta := by
  rw [isSome_acceptT2]
  unfold AcceptFits
  cases hp : slotPair role m1 material with
  | some pair =>
    obtain ⟨a, b⟩ := pair
    obtain ⟨source, heq⟩ := @derived_of_pair _ _ _ cfgDelta _ _ hp
    rw [heq]
    constructor
    · rintro ⟨r, hr, hreport⟩
      obtain ⟨distance, hdistance, hr⟩ := Option.bind_eq_some_iff.1 hr
      obtain ⟨unix, hunix, hr⟩ := Option.bind_eq_some_iff.1 hr
      obtain ⟨hd, rfl⟩ := eq_of_checkedI64 hdistance
      obtain ⟨hu, rfl⟩ := eq_of_checkedI64 hunix
      exact ⟨hd, hu, isSome_t2Disagreement.1 (hreport _ (Option.some.inj hr).symm)⟩
    · rintro ⟨hd, hu, hreport⟩
      refine ⟨.ok ⟨some b, some (m1.t1 + (b - a)), source⟩, ?_, fun e he => ?_⟩
      · rw [checkedI64_of_range hd, Option.bind_some, checkedI64_of_range hu, Option.bind_some]
      · rw [← Except.ok.inj he]
        exact isSome_t2Disagreement.2 hreport
  | none =>
    by_cases hd : role = .follower ∧ cfgDelta.isSome = true
    · obtain ⟨hrole, hsome⟩ := hd
      obtain ⟨d, hd⟩ := Option.isSome_iff_exists.1 hsome
      obtain ⟨source, heq⟩ := derived_of_delta hp hrole hd
      rw [heq]
      constructor
      · rintro ⟨r, hr, hreport⟩ d' _ hd'
        obtain rfl := Option.some.inj (hd.symm.trans hd')
        obtain ⟨unix, hunix, hr⟩ := Option.bind_eq_some_iff.1 hr
        obtain ⟨hu, rfl⟩ := eq_of_checkedI64 hunix
        exact ⟨hu, isSome_t2Disagreement.1 (hreport _ (Option.some.inj hr).symm)⟩
      · intro hfits
        obtain ⟨hu, hreport⟩ := hfits d hrole hd
        refine ⟨.ok ⟨none, some (m1.t1 + d), source⟩, ?_, fun e he => ?_⟩
        · rw [checkedI64_of_range hu, Option.bind_some]
        · rw [← Except.ok.inj he]
          exact isSome_t2Disagreement.2 hreport
    · have hnone : role = .follower → cfgDelta = none := fun hrole => by
        cases hc : cfgDelta with
        | none => rfl
        | some d => exact absurd ⟨hrole, by rw [hc]; rfl⟩ hd
      obtain ⟨why, heq⟩ := derived_of_none hp hnone
      refine ⟨fun _ d hrole hd => ?_, fun _ => ⟨_, heq, fun e he => nomatch he⟩⟩
      rw [hnone hrole] at hd
      cases hd

/-- A T2 that is derived from a slot pair is as far from `t1` as the slots are apart. -/
theorem unix_of_pair {a b : Int} {e : EngineT2} (hp : slotPair role m1 material = some (a, b))
    (he : derived role m1 material cfgDelta = some (.ok e)) : ∃ unix, e.unix = some unix ∧ unix - m1.t1 = b - a := by
  obtain ⟨source, heq⟩ := @derived_of_pair _ _ _ cfgDelta _ _ hp
  rw [heq] at he
  obtain ⟨distance, hdistance, he⟩ := Option.bind_eq_some_iff.1 he
  obtain ⟨unix, hunix, he⟩ := Option.bind_eq_some_iff.1 he
  obtain ⟨_, rfl⟩ := eq_of_checkedI64 hdistance
  obtain ⟨_, rfl⟩ := eq_of_checkedI64 hunix
  obtain rfl := Except.ok.inj (Option.some.inj he)
  exact ⟨_, rfl, by omega⟩

end

/-- What does not panic is what a release build computes. -/
theorem deriveEngineT2_of_checked {role : ClientRole} {t1 : Int} {a b a' b' cfg : Option Int}
    {r : Except String EngineT2} (hr : deriveEngineT2Checked role t1 a b a' b' cfg = some r) :
    deriveEngineT2 role t1 a b a' b' cfg = r := by
  have hpair : ∀ {a b : Int} {f : Int → Except String EngineT2},
      ((checkedI64 (b - a)).bind fun distance => (checkedI64 (t1 + distance)).bind fun unix =>
        some (f unix)) = some r → f (Rust.wrapI64 (t1 + Rust.wrapI64 (b - a))) = r := by
    intro a b f hr
    obtain ⟨distance, hdistance, hr⟩ := Option.bind_eq_some_iff.1 hr
    obtain ⟨unix, hunix, hr⟩ := Option.bind_eq_some_iff.1 hr
    rw [wrapI64_of_checked hdistance, wrapI64_of_checked hunix]
    exact Option.some.inj hr
  have hdelta : ∀ {d : Int} {f : Int → Except String EngineT2},
      ((checkedI64 (t1 + d)).bind fun unix => some (f unix)) = some r → f (Rust.wrapI64 (t1 + d)) = r := by
    intro d f hr
    obtain ⟨unix, hunix, hr⟩ := Option.bind_eq_some_iff.1 hr
    rw [wrapI64_of_checked hunix]
    exact Option.some.inj hr
  cases role with
  | follower =>
    cases a with
    | none =>
      cases cfg with
      | none => exact Option.some.inj hr
      | some d => exact hdelta hr
    | some a =>
      cases b with
      | none =>
        cases cfg with
        | none => exact Option.some.inj hr
        | some d => exact hdelta hr
      | some b => exact hpair hr
  | leader =>
    cases a' with
    | none => exact Option.some.inj hr
    | some a =>
      cases b' with
      | none => exact Option.some.inj hr
      | some b => exact hpair hr

/-! ## The deep abort -/

/-- The leader of a swap that is not over waits for `t2`. -/
def Waiting (rec : StoredSwap) (role : ClientRole) (now t2 : Int) : Prop :=
  (DeskSwapState.parse rec.state).isTerminal = false ∧ role.clientLockChain = .A ∧ now < t2

/-- What the times of a record have to satisfy: the engine's T2 is not beyond an `i64` from the
advertised one, nor from the clock while it is waited for. -/
def AbortFits (rec : StoredSwap) (role : ClientRole) (now : Int) : Prop :=
  ∀ t2, rec.t2EngineUnix = some t2 → InI64 (t2 - rec.t2) ∧ (Waiting rec role now t2 → InI64 (t2 - now))

theorem isSome_deepAbortDecisionChecked {rec : StoredSwap} {role : ClientRole} {now t2 : Int} :
    (deepAbortDecisionChecked role rec.state now t2).isSome = true ↔
      (Waiting rec role now t2 → InI64 (t2 - now)) := by
  unfold deepAbortDecisionChecked Waiting
  by_cases hover : (DeskSwapState.parse rec.state).isTerminal = true
  · rw [if_pos hover, hover]
    exact ⟨fun _ hw => (nomatch hw.1), fun _ => rfl⟩
  · rw [if_neg hover]
    by_cases hlead : role.clientLockChain = .A
    · by_cases hnow : now < t2
      · simp only [hlead, hnow, bne_self_eq_false, Bool.false_eq_true, if_false, if_true, Option.isSome_map,
          isSome_checkedI64, and_true]
        exact ⟨fun hin _ => hin, fun hin => hin (by simpa using hover)⟩
      · simp [hlead, hnow]
    · simp [hlead]

theorem deepAbort_total_iff {rec : StoredSwap} {role : ClientRole} {now : Int} :
    (deepAbortDecisionForRecordChecked rec role now).isSome = true ↔ AbortFits rec role now := by
  unfold deepAbortDecisionForRecordChecked engineT2ForDeepAbort AbortFits
  cases hunix : rec.t2EngineUnix with
  | none => simp
  | some t2 =>
    refine isSome_bind.trans ⟨?_, ?_⟩
    · rintro ⟨_, hdelta, hrest⟩ t2' ht2
      obtain rfl := Option.some.inj ht2
      obtain ⟨decision, hdecision, _⟩ := isSome_bind.1 hrest
      exact ⟨isSome_reportedDelta.1 (Option.isSome_iff_exists.2 ⟨_, hdelta⟩),
        isSome_deepAbortDecisionChecked.1 (Option.isSome_iff_exists.2 ⟨_, hdecision⟩)⟩
    · intro hfits
      obtain ⟨hdelta, hwait⟩ := hfits t2 rfl
      obtain ⟨delta, hdelta⟩ := Option.isSome_iff_exists.1 (isSome_reportedDelta.2 hdelta)
      obtain ⟨decision, hdecision⟩ := Option.isSome_iff_exists.1 (isSome_deepAbortDecisionChecked.2 hwait)
      exact ⟨delta, hdelta, isSome_bind.2 ⟨decision, hdecision, rfl⟩⟩

theorem deepAbort_of_checked {rec : StoredSwap} {role : ClientRole} {now : Int}
    {r : Except String DeepAbortDecision} (hr : deepAbortDecisionForRecordChecked rec role now = some r) :
    deepAbortDecisionForRecord rec role now = r := by
  unfold deepAbortDecisionForRecordChecked at hr
  unfold deepAbortDecisionForRecord
  cases ht2 : engineT2ForDeepAbort rec with
  | error e =>
    rw [ht2] at hr
    exact Option.some.inj hr
  | ok t2 =>
    rw [ht2] at hr
    obtain ⟨_, _, hr⟩ := Option.bind_eq_some_iff.1 hr
    obtain ⟨decision, hdecision, hr⟩ := Option.bind_eq_some_iff.1 hr
    obtain rfl := Option.some.inj hr
    show (.ok (deepAbortDecision role rec.state now t2) : Except String DeepAbortDecision) = .ok decision
    congr 1
    unfold deepAbortDecisionChecked at hdecision
    unfold deepAbortDecision
    split
    · rename_i hover
      rw [if_pos hover] at hdecision
      exact Option.some.inj hdecision
    · rename_i hover
      rw [if_neg hover] at hdecision
      split
      · rename_i hlead
        rw [if_pos hlead] at hdecision
        exact Option.some.inj hdecision
      · rename_i hlead
        rw [if_neg hlead] at hdecision
        split
        · rename_i hnow
          rw [if_pos hnow] at hdecision
          obtain ⟨left, hleft, hdecision⟩ := Option.map_eq_some_iff.1 hdecision
          rw [wrapI64_of_checked hleft]
          exact hdecision
        · rename_i hnow
          rw [if_neg hnow] at hdecision
          exact Option.some.inj hdecision

/-! ## Both -/

/-- A debug build gets through the handshake, and through the decision on the deep abort, exactly when
their operands fit; and a T2 derived from a slot pair is as far from `t1` as the slots are apart. -/
theorem timelock_total_iff (role : ClientRole) (m1 : AcceptResponse) (material : SwapKeyMaterial)
    (cfgDelta : Option Int) :
    ((acceptT2 role m1 material cfgDelta).isSome = true ↔ AcceptFits role m1 material cfgDelta) ∧
    (∀ rec now, (deepAbortDecisionForRecordChecked rec role now).isSome = true ↔ AbortFits rec role now) ∧
    ∀ a b e, slotPair role m1 material = some (a, b) →
      deriveEngineT2Checked role m1.t1 m1.t1Slot m1.t2Slot material.t1Slot material.t2Slot cfgDelta =
        some (.ok e) → ∃ unix, e.unix = some unix ∧ unix - m1.t1 = b - a :=
  ⟨acceptT2_total_iff, fun _ _ => deepAbort_total_iff, fun _ _ _ hp he => unix_of_pair hp he⟩

/-- An M1 with slots that are thirty apart. -/
def thirtySlots : AcceptResponse :=
  { (default : AcceptResponse) with t1 := 1000, t1Slot := some 10, t2Slot := some 40 }

theorem timelock_total_iff_thirty : (acceptT2 .follower thirtySlots default none).isSome = true ∧
    ∃ unix : Int, (some 1030 : Option Int) = some unix ∧ unix - 1000 = 40 - 10 := by
  have hiff := timelock_total_iff .follower thirtySlots default none
  have hfits : PairFits 1000 0 10 40 := ⟨by decide, by decide, by decide⟩
  exact ⟨hiff.1.2 hfits, hiff.2.2 10 40 ⟨some 40, some 1030, _⟩ rfl rfl⟩

/-- An M1 whose `t1` is the last second of an `i64`. -/
def lastSecond : AcceptResponse :=
  { (default : AcceptResponse) with
    t1 := 2 ^ 63 - 1
    t2 := 2 ^ 63 - 1
    t1Slot := some 84600000
    t2Slot := some 84601800 }

/-- The handshake panics on it. -/
theorem not_always_total : ¬ ∀ (m1 : AcceptResponse) (material : SwapKeyMaterial), InI64 m1.t1 →
    InI64 m1.t2 → (∀ a, m1.t1Slot = some a → InI64 a) → (∀ b, m1.t2Slot = some b → InI64 b) →
    (acceptT2 .follower m1 material none).isSome = true := by
  intro hall
  have hpanic : acceptT2 .follower lastSecond default none = none := by decide +kernel
  have hsome := hall lastSecond default (by decide) (by decide)
    (fun a ha => by obtain rfl := Option.some.inj ha; decide)
    (fun b hb => by obtain rfl := Option.some.inj hb; decide)
  rw [hpanic] at hsome
  cases hsome

end Desk
