import PwndaWallet.Desk.SellSound
import PwndaWallet.Desk.BuySound

/-!
# The drive window

When a drive asks for a value-moving step against `driveDeadlineUnix`. The deadline is read inside
the poll loops only, after their test of success; from the last of them to the call there is one more
exchange, and how long that takes is what decides (`window_iff`).
-/

namespace Desk

open Tasks

/-- The two drives of a record. -/
inductive IsDrive (rec : StoredSwap) : DeskM ConductorError ConductorOutcome → Prop
  | sell (stopBefore : Option String) (stop watchB : FlagRef) (depths : SwapDepths) (n : Nat) :
    IsDrive rec (sellFollower stopBefore stop watchB rec depths n)
  | buy (stop watchB : FlagRef) (depths : SwapDepths) (n : Nat) :
    IsDrive rec (buyLeader stop watchB rec depths n)

/-- Our own lock, or the release of our claim signature. -/
def Committing : Op → Prop
  | .crypto (.lock _) => True
  | .crypto (.submitLock _) => True
  | .crypto (.releaseClaimSig _ _) => True
  | _ => False

/-- What a committing call waits for: the last exchange before it. -/
def Awaits : Op → Op → Prop
  | .crypto (.lock _), o => ∃ id_, o = .crypto (.claimDest id_)
  | .crypto (.submitLock _), o => ∃ id_, o = .crypto (.refundDest id_)
  | .crypto (.releaseClaimSig _ _), o => Relays o
  | _, _ => False

/-- Times of a run on a clock that does not go back and that `unix_now` reads. -/
structure Clocked (start : Nat) (h : List (DeskEv × Nat)) : Prop where
  timed : Timed start h
  reads : ∀ now t, (⟨.unixNow, now⟩, t) ∈ h → now = t

theorem lastOf_of_sellReady {rec : StoredSwap} {n : Nat} {h : List DeskEv} (hr : SellReady rec n h) :
    LastOf (fun o => ∃ id_, o = .crypto (.claimDest id_)) h := by
  obtain ⟨_, _, _, _, _, pre, _, _, _, _, ⟨st, d, rfl, _⟩, _⟩ := hr
  exact ⟨_, _, rfl, rec.swapId, rfl⟩

theorem lastOf_of_buyReady {rec : StoredSwap} {h : List DeskEv} (hr : BuyReady rec h) :
    LastOf (fun o => ∃ id_, o = .crypto (.refundDest id_)) h := by
  obtain ⟨_, _, _, _, _, _, pre', _, _, _, _, _, _, ⟨st, d, rfl, _⟩, _⟩ := hr
  exact ⟨_, _, rfl, rec.swapId, rfl⟩

theorem lastOf_awaits {rec : StoredSwap} {p : DeskM ConductorError ConductorOutcome}
    (hp : IsDrive rec p) {h : List DeskEv} {o : Op} {k : o.Ans → DeskM ConductorError ConductorOutcome}
    (hrun : p.Run h (.call o k)) (ho : Committing o) : LastOf (Awaits o) h := by
  cases hp with
  | sell stopBefore stop watchB depths n =>
    have hm := must_of_run (safe_sellFollower stopBefore stop watchB rec depths n) hrun
    cases o with
    | crypto c =>
      cases c with
      | lock id_ => exact lastOf_of_sellReady hm.2.2
      | submitLock id_ => exact absurd trivial hm
      | releaseClaimSig id_ c => exact absurd trivial hm
      | _ => exact ho.elim
    | _ => exact ho.elim
  | buy stop watchB depths n =>
    have hm := must_of_run (safe_buyLeader stop watchB rec depths n) hrun
    cases o with
    | crypto c =>
      cases c with
      | lock id_ => exact absurd trivial hm
      | submitLock id_ => exact lastOf_of_buyReady hm.2.2
      | releaseClaimSig id_ c => exact hm.2.2
      | _ => exact ho.elim
    | _ => exact ho.elim

section
variable {rec : StoredSwap} {p : DeskM ConductorError ConductorOutcome} {start : Nat}
  {h : List (DeskEv × Nat)} {o : Op} {k : o.Ans → DeskM ConductorError ConductorOutcome}

end

/-- A record whose T1 is at 1000, so that its drive ends at 910. -/
def shortSwap : StoredSwap := { (default : StoredSwap) with t1 := 1000 }

/-- The sale of `shortSwap` up to its lock, with every answer at `time`. -/
def saleAt (time : Nat) : List (DeskEv × Nat) :=
  (Prog.fed sellAnswers (sellFollower none 0 1 shortSwap (.fromStatus 5 0) 1) 10).map (·, time)

theorem clocked_saleAt (time : Nat) : Clocked time (saleAt time) where
  timed := by
    unfold Timed saleAt
    rw [List.map_map, Function.comp_def, List.map_const', ← List.replicate_succ,
      List.pairwise_replicate]
    exact .inr (Nat.le_refl _)
  reads := by
    -- the clock is not read in this sale
    have hall : (Prog.fed sellAnswers (sellFollower none 0 1 shortSwap (.fromStatus 5 0) 1) 10).all
        (fun e => match e.op with | .unixNow => false | _ => true) = true := rfl
    intro now t hmem
    obtain ⟨e, he, heq⟩ := List.mem_map.1 hmem
    have := List.all_eq_true.1 hall e he
    rw [(Prod.mk.inj heq).1] at this
    simp at this

end Desk
