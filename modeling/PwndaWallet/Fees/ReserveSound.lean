import PwndaWallet.Fees.Watcher
import Mathlib.Tactic.SplitIfs

/-!
# What is kept for the swaps in flight

The reserve of `/json/active` for one coin, against what its rows say, and the gate that compares a
balance with it.
-/

namespace Fees

open Rust

/-! ## The rows -/

/-- The legs of a row that name the coin, each with the amount it carries if that is a string. -/
def namingLegs (row : Json) (coin : String) : List (Option String) :=
  [("coin_from", "amount_from"), ("coin_to", "amount_to")].filterMap fun leg =>
    ((row.get leg.1).bind Json.asStr).bind fun name =>
      if bidCoinMatches name coin then some ((row.get leg.2).bind Json.asStr) else none

/-- The amount that a leg carries, if it can be read. -/
def legAmount (leg : Option String) : Option Nat := leg.bind fun text => (parseAmount text).toOption

/-- What a leg takes: its amount and the cost of a send. -/
def legNeed (txCost : Nat) (leg : Option String) : Nat := (legAmount leg).getD 0 + txCost

/-- What the swaps of the rows take of the coin. -/
def need (rows : List Json) (coin : String) (txCost : Nat) : Nat :=
  (rows.map fun row => ((namingLegs row coin).map (legNeed txCost)).sum).sum

/-- The answer is a bound on what the rows take, and each leg that names the coin says how much. -/
def Covers (v : Json) (coin : String) (txCost r : Nat) : Prop :=
  ∃ rows, v.asArray = some rows ∧ (∀ row ∈ rows, ∀ leg ∈ namingLegs row coin, (legAmount leg).isSome) ∧
    need rows coin txCost ≤ r

/-- The rows are refused for what is read of one of them. -/
def Unreadable (rows : List Json) (coin : String) : Prop :=
  ∃ row ∈ rows, ∃ text, ownLeg row coin = some text ∧ (parseAmount text).toOption = none

/-- Every leg that names the coin carries an amount, none but the first of a row takes anything, and the
sum fits. -/
structure Plain (rows : List Json) (coin : String) (txCost : Nat) : Prop where
  carried : ∀ row ∈ rows, ∀ leg ∈ namingLegs row coin, (legAmount leg).isSome
  single : ∀ row ∈ rows, ∀ leg ∈ (namingLegs row coin).tail, legNeed txCost leg = 0
  fits : need rows coin txCost < 2 ^ 64

theorem ownLeg_eq (row : Json) (coin : String) : ownLeg row coin = (namingLegs row coin).findSome? id := by
  have hleg : ∀ name amount, (do
      let name ← (row.get name).bind Json.asStr
      if bidCoinMatches name coin then (row.get amount).bind Json.asStr else none) =
      (((row.get name).bind Json.asStr).bind fun name =>
        if bidCoinMatches name coin then some ((row.get amount).bind Json.asStr) else none).bind id := by
    intro name amount
    cases (row.get name).bind Json.asStr with
    | none => rfl
    | some name =>
      by_cases hname : bidCoinMatches name coin = true
      · simp [hname]
      · simp [hname]
  unfold ownLeg namingLegs
  simp only [hleg, List.filterMap_cons, List.filterMap_nil]
  cases ((row.get "coin_from").bind Json.asStr).bind fun name =>
      if bidCoinMatches name coin then some ((row.get "amount_from").bind Json.asStr) else none with
  | none =>
    cases ((row.get "coin_to").bind Json.asStr).bind fun name =>
        if bidCoinMatches name coin then some ((row.get "amount_to").bind Json.asStr) else none with
    | none => rfl
    | some a => cases a <;> rfl
  | some a =>
    cases ((row.get "coin_to").bind Json.asStr).bind fun name =>
        if bidCoinMatches name coin then some ((row.get "amount_to").bind Json.asStr) else none with
    | none => cases a <;> rfl
    | some b => cases a <;> cases b <;> rfl

/-! ## The sum -/

/-- What is counted for a row: the leg that is read of it. -/
def rowCounted (row : Json) (coin : String) (txCost : Nat) : Nat :=
  match ownLeg row coin with
  | some text => legNeed txCost (some text)
  | none => 0

def counted (rows : List Json) (coin : String) (txCost : Nat) : Nat :=
  (rows.map fun row => rowCounted row coin txCost).sum

/-- One round of the sum. -/
def countRow (coin : String) (txCost total : Nat) (row : Json) : Option Nat :=
  match ownLeg row coin with
  | none => some total
  | some amount => do
    let parsed ← (parseAmount amount).toOption
    return saturatingAdd (saturatingAdd total parsed) txCost

theorem saturatingAdd_min {a b c : Nat} :
    saturatingAdd (saturatingAdd (min a (2 ^ 64 - 1)) b) c = min (a + (b + c)) (2 ^ 64 - 1) := by
  unfold saturatingAdd
  omega

/-- The fold over the rows, from a sum that may have been cut off. -/
theorem fold_eq {coin : String} {txCost : Nat} {rows : List Json} (h : ¬ Unreadable rows coin) (sum : Nat) :
    rows.foldlM (countRow coin txCost) (min sum (2 ^ 64 - 1)) =
      some (min (sum + counted rows coin txCost) (2 ^ 64 - 1)) := by
  induction rows generalizing sum with
  | nil => rfl
  | cons row rows ih =>
    have hrest : ¬ Unreadable rows coin := fun ⟨row', hmem, hbad⟩ => h ⟨row', List.mem_cons_of_mem _ hmem, hbad⟩
    have hcons : counted (row :: rows) coin txCost = rowCounted row coin txCost + counted rows coin txCost := by
      simp [counted]
    rw [hcons, ← Nat.add_assoc, List.foldlM_cons]
    cases hleg : ownLeg row coin with
    | none =>
      have hzero : rowCounted row coin txCost = 0 := by rw [rowCounted, hleg]
      have hcount : countRow coin txCost (min sum (2 ^ 64 - 1)) row = some (min sum (2 ^ 64 - 1)) := by
        rw [countRow, hleg]
      rw [hzero, hcount, Nat.add_zero]
      exact ih hrest sum
    | some text =>
      cases hparsed : (parseAmount text).toOption with
      | none => exact absurd ⟨row, List.mem_cons_self, text, hleg, hparsed⟩ h
      | some n =>
        have hrow : rowCounted row coin txCost = n + txCost := by
          rw [rowCounted, hleg]
          simp [legNeed, legAmount, hparsed]
        have hcount : countRow coin txCost (min sum (2 ^ 64 - 1)) row = some (min (sum + (n + txCost)) (2 ^ 64 - 1)) := by
          unfold countRow
          rw [hleg]
          dsimp only
          rw [hparsed]
          simp only [Option.pure_def, Option.bind_eq_bind, Option.bind_some, saturatingAdd_min]
        rw [hrow, hcount]
        exact ih hrest (sum + (n + txCost))

theorem fold_none {coin : String} {txCost : Nat} {rows : List Json} (h : Unreadable rows coin) (sum : Nat) :
    rows.foldlM (countRow coin txCost) sum = none := by
  induction rows generalizing sum with
  | nil =>
    obtain ⟨row, hmem, -⟩ := h
    cases hmem
  | cons row rows ih =>
    rw [List.foldlM_cons]
    obtain ⟨row', hmem, text, hleg, hbad⟩ := h
    rcases List.mem_cons.1 hmem with rfl | hmem
    · have hcount : countRow coin txCost sum row' = none := by
        unfold countRow
        rw [hleg]
        dsimp only
        rw [hbad]
        rfl
      rw [hcount]
      rfl
    · cases countRow coin txCost sum row with
      | none => rfl
      | some total => exact ih ⟨row', hmem, text, hleg, hbad⟩ total

theorem reserve_eq {v : Json} {coin : String} {txCost : Nat} {rows : List Json} (hrows : v.asArray = some rows) :
    (Unreadable rows coin ∧ reserveForActiveSwaps v coin txCost = none) ∨
      (¬ Unreadable rows coin ∧
        reserveForActiveSwaps v coin txCost = some (min (counted rows coin txCost) (2 ^ 64 - 1))) := by
  have hfold : reserveForActiveSwaps v coin txCost = rows.foldlM (countRow coin txCost) 0 := by
    unfold reserveForActiveSwaps
    rw [hrows]
    rfl
  rw [hfold]
  by_cases hbad : Unreadable rows coin
  · exact .inl ⟨hbad, fold_none hbad 0⟩
  · have hsum := @fold_eq _ txCost _ hbad 0
    rw [Nat.zero_min, Nat.zero_add] at hsum
    exact .inr ⟨hbad, hsum⟩

/-! ## What is covered -/

theorem ownLeg_of_carried {row : Json} {coin : String} {leg : Option String} {legs : List (Option String)}
    (h : namingLegs row coin = leg :: legs) (hc : (legAmount leg).isSome) : ownLeg row coin = leg := by
  rw [ownLeg_eq, h]
  cases leg with
  | none => simp [legAmount] at hc
  | some text => rfl

/-- A row whose legs all say how much takes what is counted, and what its other leg takes. -/
theorem need_eq {row : Json} {coin : String} {txCost : Nat}
    (h : ∀ leg ∈ namingLegs row coin, (legAmount leg).isSome) :
    ((namingLegs row coin).map (legNeed txCost)).sum =
      rowCounted row coin txCost + ((namingLegs row coin).tail.map (legNeed txCost)).sum := by
  cases hlegs : namingLegs row coin with
  | nil =>
    have hown : ownLeg row coin = none := by rw [ownLeg_eq, hlegs]; rfl
    simp [rowCounted, hown]
  | cons leg legs =>
    have hc := h leg (by rw [hlegs]; exact List.mem_cons_self)
    have hown := ownLeg_of_carried hlegs hc
    cases leg with
    | none => simp [legAmount] at hc
    | some text => simp [rowCounted, hown]

theorem counted_le_need {rows : List Json} {coin : String} {txCost : Nat}
    (h : ∀ row ∈ rows, ∀ leg ∈ namingLegs row coin, (legAmount leg).isSome) :
    counted rows coin txCost ≤ need rows coin txCost ∧
      (need rows coin txCost ≤ counted rows coin txCost ↔
        ∀ row ∈ rows, ∀ leg ∈ (namingLegs row coin).tail, legNeed txCost leg = 0) := by
  induction rows with
  | nil => simp [counted, need]
  | cons row rows ih =>
    obtain ⟨hle, hiff⟩ := ih fun row' hmem => h row' (List.mem_cons_of_mem _ hmem)
    have hrow := @need_eq _ _ txCost (h row List.mem_cons_self)
    have hzero : ((namingLegs row coin).tail.map (legNeed txCost)).sum = 0 ↔
        ∀ leg ∈ (namingLegs row coin).tail, legNeed txCost leg = 0 := by
      rw [List.sum_eq_zero_iff_forall_eq_nat]
      constructor
      · intro hall leg hleg
        exact hall _ (List.mem_map_of_mem hleg)
      · intro hall x hx
        obtain ⟨leg, hleg, rfl⟩ := List.mem_map.1 hx
        exact hall leg hleg
    have hcounted : counted (row :: rows) coin txCost = rowCounted row coin txCost + counted rows coin txCost := by
      simp [counted]
    have hneed : need (row :: rows) coin txCost =
        rowCounted row coin txCost + ((namingLegs row coin).tail.map (legNeed txCost)).sum +
          need rows coin txCost := by
      simp [need, hrow]
    rw [hcounted, hneed, List.forall_mem_cons, ← hiff, ← hzero]
    omega

theorem unreadable_iff {rows : List Json} {coin : String}
    (h : ∀ row ∈ rows, ∀ leg ∈ namingLegs row coin, (legAmount leg).isSome) : ¬ Unreadable rows coin := by
  rintro ⟨row, hmem, text, hown, hbad⟩
  rw [ownLeg_eq] at hown
  obtain ⟨leg, hleg, heq⟩ := List.exists_of_findSome?_eq_some hown
  have hc := h row hmem leg hleg
  obtain rfl : leg = some text := heq
  simp [legAmount, hbad] at hc

/-- What the gate lets through leaves the reserve untouched. -/
theorem proceed_covers {ticker : String} {amount r : Nat} {balance : Option Nat}
    (h : preSettleGate ticker amount balance (some r) = .proceed) :
    ∃ b, balance = some b ∧ amount + ((rowFor ticker).map (·.txCost)).getD 0 + r ≤ b := by
  unfold preSettleGate at h
  dsimp only at h
  generalize ((rowFor ticker).map (·.txCost)).getD 0 = txCost at h ⊢
  cases hneed : checkedAdd amount txCost with
  | none => simp only [hneed] at h; cases h
  | some need =>
    obtain ⟨-, hsum⟩ := Option.ite_none_right_eq_some.1 hneed
    simp only [hneed] at h
    cases balance with
    | none => cases h
    | some b =>
      dsimp only at h
      split_ifs at h with hshort hzero
      · exact ⟨b, rfl, by simp only [Option.some.injEq] at hsum; omega⟩
      · cases hall : checkedAdd need r with
        | none => simp only [hall] at h; cases h
        | some all =>
          obtain ⟨-, htotal⟩ := Option.ite_none_right_eq_some.1 hall
          simp only [hall] at h
          split_ifs at h with hle
          exact ⟨b, rfl, by simp only [Option.some.injEq] at hsum htotal; omega⟩

/-- The reserve covers the rows exactly when they are refused, or plain; and the gate leaves it. -/
theorem reserve_iff (v : Json) (coin : String) (txCost : Nat) :
    ((∀ r, reserveForActiveSwaps v coin txCost = some r → Covers v coin txCost r) ↔
      ∀ rows, v.asArray = some rows → Unreadable rows coin ∨ Plain rows coin txCost) ∧
    ∀ ticker amount balance r, reserveForActiveSwaps v coin txCost = some r →
      preSettleGate ticker amount balance (some r) = .proceed →
      ∃ b, balance = some b ∧ amount + ((rowFor ticker).map (·.txCost)).getD 0 + r ≤ b := by
  refine ⟨⟨fun h rows hrows => ?_, fun h r hr => ?_⟩, fun _ _ _ _ _ hp => proceed_covers hp⟩
  · rcases @reserve_eq _ _ txCost _ hrows with ⟨hbad, -⟩ | ⟨-, heq⟩
    · exact .inl hbad
    · obtain ⟨rows', hrows', hcarried, hneed⟩ := h _ heq
      obtain rfl := Option.some.inj (hrows.symm.trans hrows')
      obtain ⟨-, hiff⟩ := @counted_le_need _ _ txCost hcarried
      exact .inr ⟨hcarried, hiff.1 (by omega), by omega⟩
  · cases hrows : v.asArray with
    | none =>
      unfold reserveForActiveSwaps at hr
      rw [hrows] at hr
      cases hr
    | some rows =>
      rcases h rows hrows with hbad | hplain
      · rcases @reserve_eq _ _ txCost _ hrows with ⟨-, heq⟩ | ⟨hgood, -⟩
        · rw [heq] at hr
          cases hr
        · exact absurd hbad hgood
      · rcases @reserve_eq _ _ txCost _ hrows with ⟨hbad, -⟩ | ⟨-, heq⟩
        · exact absurd hbad (unreadable_iff hplain.carried)
        · obtain ⟨hle, hiff⟩ := @counted_le_need _ _ txCost hplain.carried
          have htight := hiff.2 hplain.single
          have hfits := hplain.fits
          rw [heq] at hr
          obtain rfl := Option.some.inj hr
          exact ⟨rows, hrows, hplain.carried, by omega⟩

theorem reserve_iff_sample :
    ∃ b, some 200000 = some b ∧
      100 + ((rowFor "BCH").map (·.txCost)).getD 0 + 100243 ≤ b :=
  (reserve_iff (.arr [.obj [("coin_from", .str "Bitcoin Cash"), ("amount_from", .str "0.001")]]) "bitcoincash"
    243).2 "BCH" 100 (some 200000) 100243 (by decide +kernel) (by decide +kernel)

/-- A leg whose amount is no string is passed over. -/
theorem not_always_covered :
    ¬ ∀ v coin txCost r, reserveForActiveSwaps v coin txCost = some r → Covers v coin txCost r := by
  intro h
  have hr : reserveForActiveSwaps (.arr [.obj [("coin_from", .str "Litecoin"), ("amount_from", .int 3)]])
      "litecoin" 11369 = some 0 := by decide +kernel
  obtain ⟨rows, hrows, hcarried, -⟩ := h _ _ _ _ hr
  obtain rfl := Option.some.inj hrows
  have hnone := hcarried _ List.mem_cons_self none (by decide +kernel)
  cases hnone

end Fees
