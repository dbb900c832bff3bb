import PwndaWallet.Lib.Largest
import PwndaWallet.Utxo.ScanSound
import PwndaWallet.Utxo.Spend

/-!
# The inputs of a send

Taking the largest outputs first covers an amount whenever any choice does. The three exits of the loop pay
the fee of the transaction they describe, and the remainder that goes to the fee is at most dust. Fetching
address by address covers a send whenever all outputs together do.
-/

namespace Utxo

open Js

variable {args : SpendArgs}

def value (s : List AccountSpendCandidate) : Rat := (s.map (·.valueSat)).sum

theorem value_snoc (s : List AccountSpendCandidate) (c : AccountSpendCandidate) :
    value (s ++ [c]) = value s + c.valueSat := by
  simp [value]

/-! ## Fees -/

theorem feeFor_mono (hrate : 0 ≤ args.feePerVB) (n : Nat) : args.feeFor n 1 ≤ args.feeFor n 2 := by
  unfold SpendArgs.feeFor
  refine Int.cast_le.2 (Int.ceil_mono (mul_le_mul_of_nonneg_left (Nat.cast_le.2 ?_) hrate))
  unfold SpendArgs.size
  omega

/-! ## The exits -/

/-- A plan that covers the send, and says what happens to every base unit. -/
structure Fits (args : SpendArgs) (plan : AccountSpendPlan) : Prop where
  sum : value plan.inputs = args.sendSat + plan.feeSat + plan.changeSat
  change : plan.changeSat = 0 ∨ plan.changeSat > args.dustSat
  pays : args.feeFor plan.inputs.length (if plan.changeSat = 0 then 1 else 2) ≤ plan.feeSat
  bounded : plan.feeSat ≤ args.feeFor plan.inputs.length 2 + args.dustSat

theorem exit_some (hrate : 0 ≤ args.feePerVB) {inputs : List AccountSpendCandidate} {plan : AccountSpendPlan}
    (h : args.exit inputs (value inputs) = some plan) :
    plan.inputs = inputs ∧ plan.covered = true ∧ args.sendSat + args.feeFor inputs.length 1 ≤ value inputs ∧
      Fits args plan := by
  have hmono := feeFor_mono hrate inputs.length
  have hdust : (0 : Rat) ≤ (args.dustSat : Rat) := Nat.cast_nonneg _
  simp only [SpendArgs.exit] at h
  by_cases htwo : value inputs ≥ args.sendSat + args.feeFor inputs.length 2
  · rw [if_pos htwo] at h
    by_cases hchange : value inputs - args.sendSat - args.feeFor inputs.length 2 > args.dustSat
    · rw [if_pos hchange] at h
      obtain rfl := Option.some.inj h
      have hpos : value inputs - args.sendSat - args.feeFor inputs.length 2 ≠ 0 :=
        (lt_of_le_of_lt hdust hchange).ne'
      refine ⟨rfl, rfl, by linarith, ⟨by ring, .inr hchange, ?_, by dsimp only; linarith⟩⟩
      dsimp only
      rw [if_neg hpos]
    · rw [if_neg hchange] at h
      obtain rfl := Option.some.inj h
      refine ⟨rfl, rfl, by linarith, ⟨by ring, .inl rfl, ?_, by dsimp only; linarith⟩⟩
      dsimp only
      rw [if_pos rfl]
      linarith
  · rw [if_neg htwo] at h
    by_cases hone : value inputs ≥ args.sendSat + args.feeFor inputs.length 1
    · rw [if_pos hone] at h
      obtain rfl := Option.some.inj h
      refine ⟨rfl, rfl, hone, ⟨by ring, .inl rfl, ?_, by dsimp only; linarith⟩⟩
      dsimp only
      rw [if_pos rfl]
      linarith
    · rw [if_neg hone] at h
      cases h

theorem exit_none (hrate : 0 ≤ args.feePerVB) {inputs : List AccountSpendCandidate} {total : Rat}
    (h : args.exit inputs total = none) : total < args.sendSat + args.feeFor inputs.length 1 := by
  have hmono := feeFor_mono hrate inputs.length
  by_contra hcovers
  simp only [SpendArgs.exit, if_pos (not_lt.1 hcovers)] at h
  split at h
  · split at h <;> cases h
  · cases h

/-! ## The loop -/

/-- What the loop gives: the first inputs of the pool that suffice, or none do. -/
theorem select_spec (hrate : 0 ≤ args.feePerVB) (pool inputs : List AccountSpendCandidate) :
    (((args.select pool inputs (value inputs)).covered = true ∧
      ∃ k, 0 < k ∧ (args.select pool inputs (value inputs)).inputs = inputs ++ pool.take k ∧
        args.sendSat + args.feeFor (args.select pool inputs (value inputs)).inputs.length 1 ≤
          value (args.select pool inputs (value inputs)).inputs ∧
        (args.select pool inputs (value inputs)).inputs ≠ [] ∧
        Fits args (args.select pool inputs (value inputs))) ∨
      ((args.select pool inputs (value inputs)).covered = false ∧
        (args.select pool inputs (value inputs)).inputs = inputs ++ pool ∧
        ∀ k, 0 < k → k ≤ pool.length →
          value (inputs ++ pool.take k) < args.sendSat + args.feeFor (inputs.length + k) 1)) := by
  induction pool generalizing inputs with
  | nil => exact .inr ⟨rfl, (List.append_nil _).symm, fun k hk hle => absurd hle (by simp; omega)⟩
  | cons c pool ih =>
    rw [SpendArgs.select, ← value_snoc]
    cases hexit : args.exit (inputs ++ [c]) (value (inputs ++ [c])) with
    | some plan =>
      obtain ⟨hinputs, hcovered, hcovers, hfits⟩ := exit_some hrate hexit
      refine .inl ⟨hcovered, 1, Nat.one_pos, hinputs, ?_, ?_, hfits⟩
      · dsimp only
        rwa [hinputs]
      · dsimp only
        rw [hinputs]
        exact List.append_ne_nil_of_right_ne_nil _ (List.cons_ne_nil _ _)
    | none =>
      dsimp only
      rcases ih (inputs ++ [c]) with ⟨hcovered, k, hk, hinputs, hcovers, hne, hfits⟩ | ⟨hcovered, hinputs, hnone⟩
      · refine .inl ⟨hcovered, k + 1, Nat.succ_pos k, ?_, hcovers, hne, hfits⟩
        rw [hinputs, List.take_succ_cons, List.append_assoc, List.singleton_append]
      · refine .inr ⟨hcovered, by rw [hinputs, List.append_assoc, List.singleton_append], fun k hk hle => ?_⟩
        obtain ⟨k, rfl⟩ := Nat.exists_eq_add_one_of_ne_zero (Nat.pos_iff_ne_zero.1 hk)
        cases k with
        | zero => simpa using exit_none hrate hexit
        | succ k =>
          have hlen : (c :: pool).length = pool.length + 1 := rfl
          have hlater := hnone (k + 1) (Nat.succ_pos k) (by omega)
          rw [List.length_append, List.length_singleton] at hlater
          rw [List.take_succ_cons, ← List.singleton_append, ← List.append_assoc,
            show inputs.length + (k + 1 + 1) = inputs.length + 1 + (k + 1) by omega]
          exact hlater

/-- The candidates by value. -/
def pool (candidates : List AccountSpendCandidate) : List AccountSpendCandidate :=
  sort (fun a b => b.valueSat ≤ a.valueSat) candidates

theorem pairwise_pool (candidates : List AccountSpendCandidate) :
    (pool candidates).Pairwise fun a b => b.valueSat ≤ a.valueSat := by
  have h := @pairwise_sort AccountSpendCandidate (fun a b => decide (b.valueSat ≤ a.valueSat))
    (fun a b => by simpa using le_total b.valueSat a.valueSat)
    (fun a b c hab hbc => by
      rw [decide_eq_true_eq] at hab hbc ⊢
      exact hbc.trans hab) candidates
  exact h.imp fun hle => of_decide_eq_true hle

theorem perm_pool (candidates : List AccountSpendCandidate) : (pool candidates).Perm candidates := perm_sort _ _

/-- Some of the candidates, at least one, are worth the send and the fee of a transaction of theirs that
pays the recipient only. -/
def Suffice (args : SpendArgs) (candidates : List AccountSpendCandidate) : Prop :=
  ∃ s : List AccountSpendCandidate, s.Subperm candidates ∧ s ≠ [] ∧
    args.sendSat + args.feeFor s.length 1 ≤ value s

/-- The inputs of the plan are candidates, each at most once, and the plan fits. -/
structure Chosen (args : SpendArgs) (candidates : List AccountSpendCandidate) (plan : AccountSpendPlan) : Prop
    extends Fits args plan where
  inputs : plan.inputs.Subperm candidates

theorem chosen_of_covered (hrate : 0 ≤ args.feePerVB) {candidates : List AccountSpendCandidate}
    (h : (planAccountSpend args candidates).covered = true) :
    Chosen args candidates (planAccountSpend args candidates) ∧ Suffice args candidates := by
  rcases select_spec hrate (pool candidates) [] with ⟨-, k, hk, hinputs, hcovers, hne, hfits⟩ | ⟨hno, -, -⟩
  · have htake : (planAccountSpend args candidates).inputs.Sublist (pool candidates) := by
      refine List.Sublist.trans ?_ (List.take_sublist k _)
      exact hinputs ▸ List.Sublist.refl _
    have hsub : (planAccountSpend args candidates).inputs.Subperm candidates :=
      htake.subperm.trans (perm_pool candidates).subperm
    exact ⟨⟨hfits, hsub⟩, _, hsub, hne, hcovers⟩
  · cases h.symm.trans hno

theorem covered_of_suffice (hrate : 0 ≤ args.feePerVB) {candidates : List AccountSpendCandidate}
    (h : Suffice args candidates) : (planAccountSpend args candidates).covered = true := by
  obtain ⟨s, hsub, hne, hcovers⟩ := h
  rcases select_spec hrate (pool candidates) [] with ⟨hcovered, -⟩ | ⟨-, -, hnone⟩
  · exact hcovered
  · have hpool : s.Subperm (pool candidates) := hsub.trans (perm_pool candidates).symm.subperm
    have hlarge : value s ≤ value ((pool candidates).take s.length) :=
      Largest.subperm_le_take hpool (pairwise_pool candidates)
    have hshort := hnone s.length (List.length_pos_iff.2 hne) hpool.length_le
    rw [List.nil_append, List.length_nil, Nat.zero_add] at hshort
    exact absurd (hcovers.trans hlarge) (not_le_of_gt hshort)

theorem covered_iff (hrate : 0 ≤ args.feePerVB) (candidates : List AccountSpendCandidate) :
    (planAccountSpend args candidates).covered = true ↔ Suffice args candidates :=
  ⟨fun h => (chosen_of_covered hrate h).2, covered_of_suffice hrate⟩

theorem Suffice.mono {candidates candidates' : List AccountSpendCandidate} (h : Suffice args candidates)
    (hsub : candidates.Sublist candidates') : Suffice args candidates' := by
  obtain ⟨s, hs, hne, hcovers⟩ := h
  exact ⟨s, hs.trans hsub.subperm, hne, hcovers⟩

/-! ## Gathering -/

variable {Key : Type} {wallet : HdWallet Key} {hasPrivateKey : Key → Bool} {spec : UtxoAccountSpec Key}
  {fetchUtxos : String → Except String (List Unspent)}

/-- The source is for the address, and its key node signs for it. -/
structure Signs (wallet : HdWallet Key) (hasPrivateKey : Key → Bool) (spec : UtxoAccountSpec Key) (address : String)
    (s : AccountSpendSource Key) : Prop where
  names : s.address = address
  node : wallet.child spec.accountPath s.chainIndex s.index = .ok s.node
  privateKey : hasPrivateKey s.node = true
  derived : spec.deriveAddress s.node = address

theorem sourceFor_ok {e : UtxoAddressEntry} {s : AccountSpendSource Key}
    (h : sourceFor wallet hasPrivateKey spec e = .ok s) : Signs wallet hasPrivateKey spec e.address s := by
  unfold sourceFor at h
  cases hnode : wallet.child spec.accountPath e.chainIndex e.index with
  | error message =>
    rw [hnode] at h
    cases h
  | ok node =>
    rw [hnode] at h
    dsimp only [bind, Except.bind] at h
    split at h
    · cases h
    · rename_i hkey
      split at h
      · cases h
      · rename_i hderived
        obtain rfl := Except.ok.inj h
        exact ⟨rfl, hnode, not_not.1 hkey, not_not.1 hderived⟩

/-- Every source signs for its address. -/
def AllSign (wallet : HdWallet Key) (hasPrivateKey : Key → Bool) (spec : UtxoAccountSpec Key)
    (sources : List (String × AccountSpendSource Key)) : Prop :=
  ∀ e ∈ sources, Signs wallet hasPrivateKey spec e.1 e.2

theorem setSource_spec {sources : List (String × AccountSpendSource Key)} {address : String}
    {s : AccountSpendSource Key} (h : AllSign wallet hasPrivateKey spec sources)
    (hs : Signs wallet hasPrivateKey spec address s) :
    AllSign wallet hasPrivateKey spec (setSource sources s) ∧
      (address ∈ (setSource sources s).map (·.1)) ∧
      ∀ a ∈ sources.map (·.1), a ∈ (setSource sources s).map (·.1) := by
  obtain rfl := hs.names
  unfold setSource
  split
  · rename_i hany
    obtain ⟨e, he, heq⟩ := List.any_eq_true.1 hany
    have hkeys : (sources.map fun e => if e.1 == s.address then (s.address, s) else e).map (·.1) =
        sources.map (·.1) := by
      rw [List.map_map]
      refine List.map_congr_left fun e _ => ?_
      by_cases hkey : e.1 = s.address <;> simp [hkey]
    refine ⟨fun e' he' => ?_, ?_, fun a ha => by rwa [hkeys]⟩
    · obtain ⟨e, he, rfl⟩ := List.mem_map.1 he'
      by_cases hkey : e.1 = s.address
      · simpa [hkey] using hs
      · simpa [hkey] using h e he
    · rw [hkeys, ← beq_iff_eq.1 heq]
      exact List.mem_map_of_mem he
  · refine ⟨fun e he => ?_, ?_, fun a ha => ?_⟩
    · rcases List.mem_append.1 he with he | he
      · exact h e he
      · obtain rfl := List.mem_singleton.1 he
        exact hs
    · simp
    · rw [List.map_append]
      exact List.mem_append_left _ ha

theorem getSource_of_mem {sources : List (String × AccountSpendSource Key)} {address : String}
    (h : AllSign wallet hasPrivateKey spec sources) (hmem : address ∈ sources.map (·.1)) :
    ∃ s, getSource sources address = some s ∧ Signs wallet hasPrivateKey spec address s := by
  obtain ⟨e, he, rfl⟩ := List.mem_map.1 hmem
  obtain ⟨e', he'⟩ := Option.isSome_iff_exists.1
    (List.find?_isSome (p := fun e' : String × AccountSpendSource Key => e'.1 == e.1) |>.2 ⟨e, he, by simp⟩)
  have hkey : e'.1 = e.1 := by simpa using List.find?_some he'
  exact ⟨e'.2, by rw [getSource, he']; rfl, hkey ▸ h e' (List.mem_of_find?_eq_some he')⟩

theorem addOutputs_ok {e : UtxoAddressEntry} {us : List Unspent} {candidates candidates' : List AccountSpendCandidate}
    (h : addOutputs e us candidates = .ok candidates') : candidates' = candidates ++ us.map e.candidate := by
  induction us generalizing candidates with
  | nil =>
    obtain rfl := Except.ok.inj h
    simp
  | cons u us ih =>
    rw [addOutputs] at h
    split at h
    · rw [ih h, List.map_cons, List.append_assoc, List.singleton_append]
    · cases h

/-- What the explorer lists of an address, as candidates. -/
def outputsOf (outputs : String → List Unspent) (e : UtxoAddressEntry) : List AccountSpendCandidate :=
  (outputs e.address).map e.candidate

/-- The addresses are fetched one after the other, until the plan covers the send or there are no more. -/
theorem gatherLoop_ok {outputs : String → List Unspent}
    (hfetch : ∀ address us, fetchUtxos address = .ok us → us = outputs address) {funded : List UtxoAddressEntry}
    {sources sources' : List (String × AccountSpendSource Key)} {candidates : List AccountSpendCandidate}
    {plan plan' : AccountSpendPlan}
    (h : gatherLoop wallet hasPrivateKey spec fetchUtxos args funded sources candidates plan = .ok (plan', sources'))
    (hplan : plan = planAccountSpend args candidates) (hsign : AllSign wallet hasPrivateKey spec sources)
    (hkeys : ∀ c ∈ candidates, c.address ∈ sources.map (·.1)) :
    ∃ visited rest, funded = visited ++ rest ∧ (plan'.covered = true ∨ rest = []) ∧
      plan' = planAccountSpend args (candidates ++ visited.flatMap (outputsOf outputs)) ∧
      AllSign wallet hasPrivateKey spec sources' ∧
      ∀ c ∈ candidates ++ visited.flatMap (outputsOf outputs), c.address ∈ sources'.map (·.1) := by
  induction funded generalizing sources candidates plan with
  | nil =>
    obtain ⟨rfl, rfl⟩ := Prod.mk.inj (Except.ok.inj h)
    exact ⟨[], [], rfl, .inr rfl, by simpa using hplan, hsign, by simpa using hkeys⟩
  | cons e funded ih =>
    rw [gatherLoop] at h
    cases hsource : sourceFor wallet hasPrivateKey spec e with
    | error message =>
      rw [hsource] at h
      cases h
    | ok source =>
      cases hus : fetchUtxos e.address with
      | error message =>
        rw [hsource, hus] at h
        cases h
      | ok us =>
        cases hadd : addOutputs e us candidates with
        | error message =>
          simp only [hsource, hus, Except.bind, hadd] at h
          cases h
        | ok candidates' =>
          simp only [hsource, hus, Except.bind, hadd] at h
          obtain ⟨hall, hnew, hold⟩ := setSource_spec hsign (sourceFor_ok hsource)
          have hcandidates : candidates' = candidates ++ outputsOf outputs e := by
            rw [addOutputs_ok hadd, hfetch _ _ hus]
            rfl
          have hkeys' : ∀ c ∈ candidates', c.address ∈ (setSource sources source).map (·.1) := by
            intro c hc
            rw [hcandidates] at hc
            rcases List.mem_append.1 hc with hc | hc
            · exact hold _ (hkeys c hc)
            · obtain ⟨u, -, rfl⟩ := List.mem_map.1 hc
              exact hnew
          split at h
          · rename_i hcovered
            obtain ⟨rfl, rfl⟩ := Prod.mk.inj (Except.ok.inj h)
            refine ⟨[e], funded, rfl, .inl hcovered, ?_, hall, ?_⟩
            · rw [hcandidates, List.flatMap_singleton]
            · rwa [List.flatMap_singleton, ← hcandidates]
          · obtain ⟨visited, rest, hsplit, hend, hplan', hsign', hkeys''⟩ := ih h rfl hall hkeys'
            rw [hcandidates, List.append_assoc, ← List.flatMap_cons] at hplan' hkeys''
            exact ⟨e :: visited, rest, by rw [hsplit]; rfl, hend, hplan', hsign', hkeys''⟩

/-- What a gathering that comes to an end gives. -/
structure GatherSound (wallet : HdWallet Key) (hasPrivateKey : Key → Bool) (spec : UtxoAccountSpec Key)
    (args : SpendArgs) (outputs : String → List Unspent) (g : Gathered Key) : Prop where
  complete : g.scan.complete = true
  covered : g.plan.covered = true ↔
    (planAccountSpend args ((fundedOf g.scan).flatMap (outputsOf outputs))).covered = true
  chosen : g.plan.covered = true → Chosen args ((fundedOf g.scan).flatMap (outputsOf outputs)) g.plan
  sources : ∀ c ∈ g.plan.inputs, ∃ s, getSource g.sources c.address = some s ∧
    Signs wallet hasPrivateKey spec c.address s

theorem mem_of_exit {inputs : List AccountSpendCandidate} {total : Rat} {plan : AccountSpendPlan}
    (h : args.exit inputs total = some plan) : plan.inputs = inputs := by
  unfold SpendArgs.exit at h
  by_cases hchange : total ≥ args.sendSat + args.feeFor inputs.length 2
  · simp only [if_pos hchange] at h
    split at h <;> (cases h; rfl)
  · simp only [if_neg hchange] at h
    split at h
    · cases h
      rfl
    · cases h

theorem mem_of_select {pool inputs : List AccountSpendCandidate} {total : Rat} {c : AccountSpendCandidate}
    (h : c ∈ (args.select pool inputs total).inputs) : c ∈ inputs ∨ c ∈ pool := by
  induction pool generalizing inputs total with
  | nil => exact .inl h
  | cons d pool ih =>
    rw [SpendArgs.select] at h
    cases hexit : args.exit (inputs ++ [d]) (total + d.valueSat) with
    | some plan =>
      simp only [hexit, mem_of_exit hexit] at h
      rcases List.mem_append.1 h with h | h
      · exact .inl h
      · exact .inr (List.mem_singleton.1 h ▸ List.mem_cons_self)
    | none =>
      simp only [hexit] at h
      rcases ih h with h | h
      · rcases List.mem_append.1 h with h | h
        · exact .inl h
        · exact .inr (List.mem_singleton.1 h ▸ List.mem_cons_self)
      · exact .inr (List.mem_cons_of_mem _ h)

theorem inputs_mem {candidates : List AccountSpendCandidate} {c : AccountSpendCandidate}
    (h : c ∈ (planAccountSpend args candidates).inputs) : c ∈ candidates := by
  rcases mem_of_select h with h | h
  · cases h
  · exact (perm_pool candidates).mem_iff.1 h

/-- Each input of a plan has a source, at any rate. -/
theorem gatherFrom_sources {scan : UtxoAccountScan} {g : Gathered Key}
    (h : gatherFrom wallet hasPrivateKey spec fetchUtxos args scan = .ok g) :
    ∀ c ∈ g.plan.inputs, ∃ s, getSource g.sources c.address = some s ∧ Signs wallet hasPrivateKey spec c.address s := by
  unfold gatherFrom at h
  split at h
  · cases h
  · split at h
    · cases h
    · cases h
    · cases hloop : gatherLoop wallet hasPrivateKey spec fetchUtxos args (fundedOf scan) [] []
          (planAccountSpend args []) with
      | error message =>
        rw [hloop] at h
        cases h
      | ok r =>
        rw [hloop] at h
        obtain rfl := Except.ok.inj h
        have hfetch (address : String) (us : List Unspent) (hus : fetchUtxos address = .ok us) :
            us = (fetchUtxos address).toOption.getD [] := by rw [hus]; rfl
        obtain ⟨visited, rest, -, -, hplan, hsign, hkeys⟩ :=
          gatherLoop_ok hfetch hloop rfl (fun e he => absurd he List.not_mem_nil) fun c hc => absurd hc List.not_mem_nil
        intro c hc
        dsimp only at hc
        rw [hplan] at hc
        exact getSource_of_mem hsign (hkeys c (inputs_mem hc))

theorem gatherFrom_ok (hrate : 0 ≤ args.feePerVB) {outputs : String → List Unspent}
    (hfetch : ∀ address us, fetchUtxos address = .ok us → us = outputs address) {scan : UtxoAccountScan}
    {g : Gathered Key} (h : gatherFrom wallet hasPrivateKey spec fetchUtxos args scan = .ok g) :
    GatherSound wallet hasPrivateKey spec args outputs g := by
  unfold gatherFrom at h
  split at h
  · cases h
  · rename_i hcomplete
    split at h
    · cases h
    · cases h
    · cases hloop : gatherLoop wallet hasPrivateKey spec fetchUtxos args (fundedOf scan) [] []
          (planAccountSpend args []) with
      | error message =>
        rw [hloop] at h
        cases h
      | ok r =>
        rw [hloop] at h
        obtain rfl := Except.ok.inj h
        obtain ⟨visited, rest, hsplit, hend, hplan, hsign, hkeys⟩ :=
          gatherLoop_ok hfetch hloop rfl (fun e he => absurd he List.not_mem_nil)
            fun c hc => absurd hc List.not_mem_nil
        rw [List.nil_append] at hplan hkeys
        have hsub : (visited.flatMap (outputsOf outputs)).Sublist ((fundedOf scan).flatMap (outputsOf outputs)) := by
          rw [hsplit, List.flatMap_append]
          exact List.sublist_append_left _ _
        refine ⟨Bool.of_not_eq_false hcomplete, ⟨fun hcovered => ?_, fun hcovered => ?_⟩, fun hcovered => ?_,
          fun c hc => ?_⟩
        · -- what suffices of some addresses suffices of all
          dsimp only at hcovered ⊢
          rw [hplan, covered_iff hrate] at hcovered
          exact (covered_iff hrate _).2 (hcovered.mono hsub)
        · dsimp only at hcovered ⊢
          rcases hend with hdone | rfl
          · exact hdone
          · rwa [hsplit, List.append_nil, ← hplan] at hcovered
        · dsimp only at hcovered ⊢
          rw [hplan] at hcovered ⊢
          obtain ⟨hfits, hinputs⟩ := (chosen_of_covered hrate hcovered).1
          exact ⟨hfits, hinputs.trans hsub.subperm⟩
        · dsimp only at hc
          rw [hplan] at hc
          exact getSource_of_mem hsign (hkeys c (inputs_mem hc))

/-- Five units from the account with seven on one address. -/
def sampleSend : SpendArgs where
  sendSat := 5
  feePerVB := 1 / 100
  sizing := P2WPKH_SIZING
  dustSat := 546

def sampleOutputs (address : String) : List Unspent :=
  if address = "m/84'/0'/0'/0/2" then [⟨"a1", 0, 3⟩, ⟨"a2", 1, 4⟩] else []

def gathered {Key : Type} : Option (Except String (Gathered Key)) → Option (Gathered Key)
  | some (.ok g) => some g
  | _ => none

theorem of_gathered {Key : Type} {r : Option (Except String (Gathered Key))} {g : Gathered Key}
    (h : gathered r = some g) : r = some (.ok g) := by
  unfold gathered at h
  split at h
  · obtain rfl := Option.some.inj h
    rfl
  · cases h

def nothing : AccountSpendCandidate where
  path := "m/84'/0'/0'/0/0"
  address := "bc1"
  txid := "a1"
  vout := 0
  valueSat := 0

end Utxo
