import PwndaWallet.Cardano.Cbor
import PwndaWallet.Cardano.Transfer
import PwndaWallet.Lib.Result
import Mathlib.Algebra.Order.BigOperators.Group.List

/-!
# What an ADA transfer pays

The fee that the climb ends with covers the body it stands in, and without change it is the least that does.
The search takes the first prefix of the sorted outputs that fits, so a refusal speaks of all of them.
-/

namespace Cardano

open Wire

/-! ## Sizes -/

theorem length_array (values : List CborValue) :
    (writeValue (.array values)).length = headSize values.length + (writeValues values).length := by
  rw [writeValue, List.length_append, length_writeHead]

theorem length_output (o : TxOutput) : (writeValue (outputCbor o)).length =
    1 + headSize o.addressBytes.length + o.addressBytes.length + headSize o.coin := by
  have htwo : headSize (([CborValue.bytes o.addressBytes, .uint o.coin].length : Nat) : Int) = 1 := rfl
  rw [outputCbor, length_array, htwo]
  simp only [writeValue, writeValues, List.length_append, List.length_nil, length_writeHead]
  omega

theorem length_one_output (o : TxOutput) :
    (writeValue (.array [outputCbor o])).length = 1 + (writeValue (outputCbor o)).length := by
  have hone : headSize (([outputCbor o].length : Nat) : Int) = 1 := rfl
  rw [length_array, hone, writeValues, writeValues, List.append_nil]

theorem length_two_outputs (o o' : TxOutput) : (writeValue (.array [outputCbor o, outputCbor o'])).length =
    1 + (writeValue (outputCbor o)).length + (writeValue (outputCbor o')).length := by
  have htwo : headSize (([outputCbor o, outputCbor o'].length : Nat) : Int) = 1 := rfl
  rw [length_array, htwo, writeValues, writeValues, writeValues, List.append_nil, List.length_append]
  omega

def total (inputs : List KoiosUtxo) : Int := (inputs.map fun u => (u.value : Int)).sum

@[simp] theorem total_nil : total [] = 0 := rfl

@[simp] theorem total_append (l m : List KoiosUtxo) : total (l ++ m) = total l + total m := by simp [total]

@[simp] theorem total_singleton (u : KoiosUtxo) : total [u] = u.value := by simp [total]

namespace Transfer

variable (t : Transfer)

/-- The bytes of a body that neither its amounts nor its fee change, with the payment alone. -/
def exactBase (inputs : List KoiosUtxo) : Nat :=
  7 + (writeValue (.array (inputs.map inputCbor))).length + headSize t.toBytes.length + t.toBytes.length +
    headSize t.ttl

/-- The same with a change output. -/
def changeBase (inputs : List KoiosUtxo) : Nat :=
  t.exactBase inputs + 1 + headSize t.fromBytes.length + t.fromBytes.length

def exactRequirement (inputs : List KoiosUtxo) (send : Int) : Climb.Requirement :=
  feeRequirement inputs (t.exactOutputs send) t.ttl t.minA t.minB

def changeRequirement (inputs : List KoiosUtxo) (send total : Int) : Climb.Requirement :=
  feeRequirement inputs (t.withChangeOutputs send total) t.ttl t.minA t.minB

theorem exact_need (inputs : List KoiosUtxo) (send : Int) (fee : Nat) :
    (t.exactRequirement inputs send).need fee =
      requiredFee t.minA t.minB (t.exactBase inputs + headSize send + headSize fee) := by
  rw [exactRequirement, feeRequirement]
  simp only [length_body, exactOutputs, List.map_cons, List.map_nil, length_writeHead, length_one_output,
    length_output, exactBase]
  congr 1
  omega

theorem change_need (inputs : List KoiosUtxo) (send total : Int) (fee : Nat) :
    (t.changeRequirement inputs send total).need fee = requiredFee t.minA t.minB
      (t.changeBase inputs + headSize send + headSize (max 0 (total - send - fee)) + headSize fee) := by
  have hmax : (if total - send - (fee : Int) > 0 then total - send - fee else 0) = max 0 (total - send - fee) := by
    split_ifs <;> omega
  rw [changeRequirement, feeRequirement]
  simp only [length_body, withChangeOutputs, List.map_cons, List.map_nil, length_writeHead, hmax,
    length_two_outputs, length_output, exactBase, changeBase]
  congr 1
  omega

theorem requiredFee_mono {minA minB m n : Nat} (h : m ≤ n) : requiredFee minA minB m ≤ requiredFee minA minB n :=
  Nat.add_le_add_right (Nat.mul_le_mul_right _ (Nat.add_le_add_right h _)) _

theorem exact_need_mono (inputs : List KoiosUtxo) (send : Int) : Monotone (t.exactRequirement inputs send).need := by
  intro m n h
  rw [exact_need, exact_need]
  have hhead := headSize_mono (Int.ofNat_le.2 h)
  exact requiredFee_mono (by omega)

/-! ## The fee that is settled -/

theorem exactFor_fee (inputs : List KoiosUtxo) (send : Int) :
    (t.exactFor inputs send).fee = (t.exactRequirement inputs send).settle t.minB := rfl

theorem withChangeFor_fee (inputs : List KoiosUtxo) (send total : Int) :
    (t.withChangeFor inputs send total).fee = (t.changeRequirement inputs send total).settle t.minB := rfl

theorem minB_le_need {inputs : List KoiosUtxo} {o : OutputsFor} {ttl minA minB : Nat} (fee : Nat) :
    minB ≤ (feeRequirement inputs o ttl minA minB).need fee := Nat.le_add_left _ _

/-- No smaller fee covers the body without change. -/
theorem exactFee_least {inputs : List KoiosUtxo} {send : Int} {fee : Nat}
    (h : (t.exactRequirement inputs send).need fee ≤ fee) : (t.exactFor inputs send).fee ≤ fee :=
  Climb.Requirement.settle_least _ (t.exact_need_mono inputs send) (Nat.le_trans (minB_le_need fee) h) h

theorem exactFee_mono (inputs : List KoiosUtxo) {send send' : Int} (h : headSize send ≤ headSize send') :
    (t.exactFor inputs send).fee ≤ (t.exactFor inputs send').fee := by
  apply t.exactFee_least
  refine Nat.le_trans ?_ ((t.exactRequirement inputs send').need_settle t.minB)
  rw [exactFor_fee, exact_need, exact_need]
  exact requiredFee_mono (by omega)

/-- What the size of the largest body costs. -/
def sizeFee (inputs : List KoiosUtxo) : Nat :=
  (feeRequirement inputs (t.withChangeOutputs 0 0) t.ttl t.minA 0).bound

theorem changeRequirement_bound (inputs : List KoiosUtxo) (send total : Int) :
    (t.changeRequirement inputs send total).bound = t.sizeFee inputs + t.minB := rfl

theorem headSize_change {v : Int} (hlow : MIN_UTXO_VALUE ≤ v) (hhigh : v < 2 ^ 32) : headSize (max 0 v) = 5 := by
  rw [MIN_UTXO_VALUE] at hlow
  rw [Int.max_eq_right (by omega), headSize, if_neg (by omega), if_neg (by omega), if_neg (by omega),
    if_pos (by omega)]

/-- If some fee covers the body with change and leaves enough change, so does the one that is settled. The
change shrinks as the fee grows, which only matters where it crosses 2^32. -/
theorem change_enough {inputs : List KoiosUtxo} {send total : Int} {fee : Nat}
    (hsize : (t.sizeFee inputs : Int) + MIN_UTXO_VALUE ≤ 2 ^ 32)
    (hfee : (t.changeRequirement inputs send total).need fee ≤ fee) (hchange : MIN_UTXO_VALUE ≤ total - send - fee) :
    MIN_UTXO_VALUE ≤ total - send - (t.withChangeFor inputs send total).fee := by
  have hminB : t.minB ≤ fee := Nat.le_trans (minB_le_need fee) hfee
  rw [withChangeFor_fee]
  by_cases hsmall : total - send - t.minB < 2 ^ 32
  · have hle : (t.changeRequirement inputs send total).settle t.minB ≤ fee := by
      apply Climb.Requirement.settle_le _ hminB
      intro k hk hkfee
      refine Nat.le_trans ?_ hfee
      have hheadk := headSize_change (v := total - send - k) (by omega) (by omega)
      have hheadfee := headSize_change hchange (by omega)
      have hmono := headSize_mono (Int.ofNat_le.2 hkfee)
      rw [change_need, change_need, hheadk, hheadfee]
      exact requiredFee_mono (by omega)
    omega
  · have hle : (t.changeRequirement inputs send total).settle t.minB ≤ t.sizeFee inputs + t.minB := by
      apply Climb.Requirement.settle_le _ (Nat.le_add_left _ _)
      intro k _ _
      exact (t.changeRequirement inputs send total).need_le k
    omega

end Transfer

/-! ## Plans -/

/-- A payment of `amount` with its fee covered, and with what is left over in a change output, if anything is. -/
structure Pays (t : Transfer) (amount : Int) (p : Plan) : Prop where
  body_eq : p.body = encodeCbor (buildTxBody ⟨p.inputs, p.outputs, p.fee, t.ttl⟩)
  covers : requiredFee t.minA t.minB p.body.length ≤ p.fee
  split : (p.outputs = [⟨t.toBytes, amount⟩] ∧ total p.inputs = amount + p.fee) ∨
    ∃ change, MIN_UTXO_VALUE ≤ change ∧ p.outputs = [⟨t.toBytes, amount⟩, ⟨t.fromBytes, change⟩] ∧
      total p.inputs = amount + change + p.fee

namespace Transfer

variable (t : Transfer)

/-- What one round of the search makes of these inputs. -/
def planOf (amount : Int) (inputs : List KoiosUtxo) : Option Plan :=
  let withChange := t.withChangeFor inputs amount (total inputs)
  let exact := t.exactFor inputs amount
  if total inputs - amount - withChange.fee ≥ MIN_UTXO_VALUE then
    some ⟨inputs, withChange.outputs, withChange.fee, withChange.body⟩
  else if total inputs - amount - exact.fee = 0 then some ⟨inputs, exact.outputs, exact.fee, exact.body⟩
  else none

theorem planOf_inputs {amount : Int} {inputs : List KoiosUtxo} {p : Plan} (h : t.planOf amount inputs = some p) :
    p.inputs = inputs := by
  rw [planOf] at h
  split_ifs at h <;> cases h <;> rfl

theorem planOf_pays {amount : Int} {inputs : List KoiosUtxo} {p : Plan} (h : t.planOf amount inputs = some p) :
    Pays t amount p := by
  rw [planOf] at h
  split_ifs at h with hchange hexact
  · cases h
    refine ⟨rfl, (t.changeRequirement inputs amount (total inputs)).need_settle t.minB, Or.inr ⟨_, hchange, ?_, ?_⟩⟩
    · have hpos : total inputs - amount - (t.withChangeFor inputs amount (total inputs)).fee > 0 := by
        rw [MIN_UTXO_VALUE] at hchange
        omega
      exact congrArg (fun change => [(⟨t.toBytes, amount⟩ : TxOutput), ⟨t.fromBytes, change⟩]) (if_pos hpos)
    · simp only
      omega
  · cases h
    refine ⟨rfl, (t.exactRequirement inputs amount).need_settle t.minB, Or.inl ⟨rfl, ?_⟩⟩
    simp only
    omega

theorem search_cons (amount : Int) (taken : List KoiosUtxo) (s : Short) (u : KoiosUtxo) (left : List KoiosUtxo)
    (hs : s.total = total taken) : t.search amount taken s (u :: left) =
      match t.planOf amount (taken ++ [u]) with
      | some p => .ok p
      | none => t.search amount (taken ++ [u]) ⟨total (taken ++ [u]),
          total (taken ++ [u]) - amount - (t.exactFor (taken ++ [u]) amount).fee,
          (t.exactFor (taken ++ [u]) amount).fee⟩ left := by
  have htotal : s.total + u.value = total (taken ++ [u]) := by rw [total_append, total_singleton, hs]
  rw [search, planOf]
  simp only [htotal]
  split_ifs <;> rfl

/-- The plan found is that of some prefix. -/
theorem search_ok {amount : Int} {left : List KoiosUtxo} : ∀ {taken : List KoiosUtxo} {s : Short} {p : Plan},
    s.total = total taken → t.search amount taken s left = .ok p →
      ∃ n, t.planOf amount (taken ++ left.take n) = some p := by
  induction left with
  | nil =>
    intro taken s p hs h
    rw [search] at h
    cases h
  | cons u left ih =>
    intro taken s p hs h
    rw [search_cons _ _ _ _ _ _ hs] at h
    cases hplan : t.planOf amount (taken ++ [u]) with
    | some q =>
      rw [hplan] at h
      cases h
      exact ⟨1, by rwa [List.take_succ_cons, List.take_zero]⟩
    | none =>
      rw [hplan] at h
      obtain ⟨n, hn⟩ := ih rfl h
      refine ⟨n + 1, ?_⟩
      rwa [List.take_succ_cons, List.append_cons]

/-- With no plan found, no prefix has one, and the numbers of the refusal are those of all inputs. -/
theorem search_error {amount : Int} {left : List KoiosUtxo} : ∀ {taken : List KoiosUtxo} {s s' : Short},
    s.total = total taken → t.search amount taken s left = .error s' →
      (∀ n, 0 < n → n ≤ left.length → t.planOf amount (taken ++ left.take n) = none) ∧
      s'.total = total (taken ++ left) ∧
      (left ≠ [] → s'.exactFee = (t.exactFor (taken ++ left) amount).fee ∧ s'.rest = s'.total - amount - s'.exactFee) := by
  induction left with
  | nil =>
    intro taken s s' hs h
    rw [search] at h
    cases h
    refine ⟨fun n hpos hn => absurd hn (by simp; omega), by rw [List.append_nil, hs], fun hne => absurd rfl hne⟩
  | cons u left ih =>
    intro taken s s' hs h
    rw [search_cons _ _ _ _ _ _ hs] at h
    cases hplan : t.planOf amount (taken ++ [u]) with
    | some q =>
      rw [hplan] at h
      cases h
    | none =>
      rw [hplan] at h
      obtain ⟨hnone, htotal, hlast⟩ := ih rfl h
      rw [List.append_cons]
      refine ⟨fun n hpos hn => ?_, htotal, fun _ => ?_⟩
      · obtain ⟨n, rfl⟩ : ∃ m, n = m + 1 := ⟨n - 1, by omega⟩
        rw [List.take_succ_cons, List.append_cons]
        by_cases hzero : n = 0
        · subst hzero
          rwa [List.take_zero, List.append_nil]
        · exact hnone n (by omega) (by simpa using hn)
      · cases left with
        | nil =>
          rw [search] at h
          cases h
          rw [List.append_nil]
          exact ⟨rfl, rfl⟩
        | cons v left => exact hlast (by simp)

end Transfer

/-! ## Planning -/

section

variable {utxos : List KoiosUtxo} {amount : Int} {t : Transfer} {p : Plan} {r : Refusal}

theorem mem_spendable {u : KoiosUtxo} : u ∈ spendableLargestFirst utxos ↔ u ∈ utxos ∧ assetFree u = true := by
  rw [spendableLargestFirst, (Js.perm_sort _ _).mem_iff, List.mem_filter]

theorem spendable_subperm : (spendableLargestFirst utxos).Subperm utxos :=
  (Js.perm_sort _ _).subperm.trans List.filter_sublist.subperm

theorem planTransfer_ok (h : planTransfer utxos amount t = .ok p) :
    ∃ n, t.planOf amount ((spendableLargestFirst utxos).take n) = some p := by
  rw [planTransfer] at h
  cases hsearch : t.search amount [] ⟨0, -1, 0⟩ (spendableLargestFirst utxos) with
  | ok q =>
    rw [hsearch] at h
    cases h
    exact t.search_ok rfl hsearch
  | error s =>
    rw [hsearch] at h
    simp only at h
    split_ifs at h

theorem search_of_refused (h : planTransfer utxos amount t = .error r) :
    ∃ s, t.search amount [] ⟨0, -1, 0⟩ (spendableLargestFirst utxos) = .error s := by
  rw [planTransfer] at h
  cases hsearch : t.search amount [] ⟨0, -1, 0⟩ (spendableLargestFirst utxos) with
  | ok q =>
    rw [hsearch] at h
    cases h
  | error s => exact ⟨s, rfl⟩

theorem planOf_of_refused (h : planTransfer utxos amount t = .error r) {n : Nat} (hpos : 0 < n)
    (hn : n ≤ (spendableLargestFirst utxos).length) :
    t.planOf amount ((spendableLargestFirst utxos).take n) = none := by
  obtain ⟨s, hs⟩ := search_of_refused h
  exact (t.search_error rfl hs).1 n hpos hn

/-- All the inputs together having a plan is enough. -/
theorem planTransfer_of_planOf (hne : spendableLargestFirst utxos ≠ [])
    (h : t.planOf amount (spendableLargestFirst utxos) ≠ none) : ∃ p, planTransfer utxos amount t = .ok p := by
  cases hplan : planTransfer utxos amount t with
  | ok p => exact ⟨p, rfl⟩
  | error r =>
    have hnone := planOf_of_refused hplan (List.length_pos_iff.2 hne) (Nat.le_refl _)
    rw [List.take_length] at hnone
    exact absurd hnone h

/-- What the refusal of a remainder says of its numbers. -/
theorem dust_numbers {a rest all allFee keep : Int} (h : planTransfer utxos amount t = .error (.dust a rest all allFee keep)) :
    let sorted := spendableLargestFirst utxos
    let exactFee := (t.exactFor sorted amount).fee
    let s : Transfer.Short := ⟨total sorted, rest, exactFee⟩
    sorted ≠ [] ∧ a = amount ∧ rest = total sorted - amount - exactFee ∧ 0 < rest ∧
      all = t.sendAll sorted s ∧ allFee = total sorted - all ∧ keep = t.keep sorted amount s := by
  obtain ⟨s, hs⟩ := search_of_refused h
  obtain ⟨hnone, htotal, hlast⟩ := t.search_error rfl hs
  rw [planTransfer, hs] at h
  simp only at h
  by_cases hempty : (spendableLargestFirst utxos).length = 0
  · rw [if_pos hempty] at h
    cases h
  by_cases hshort : s.rest < 0
  · rw [if_neg hempty, if_pos hshort] at h
    cases h
  rw [if_neg hempty, if_neg hshort] at h
  rw [List.nil_append] at htotal hlast
  have hne : spendableLargestFirst utxos ≠ [] := fun hnil => hempty (by rw [hnil]; rfl)
  obtain ⟨hfee, hrest⟩ := hlast hne
  have hplan := hnone _ (List.length_pos_iff.2 hne) (Nat.le_refl _)
  rw [List.nil_append, List.take_length, Transfer.planOf] at hplan
  have hpos : 0 < s.rest := by
    split_ifs at hplan with hchange hexact
    rw [hrest, htotal, hfee] at hshort ⊢
    omega
  obtain ⟨stotal, srest, sfee⟩ := s
  simp only at htotal hfee hrest hpos
  subst htotal hfee
  cases h
  exact ⟨hne, rfl, hrest, hpos, rfl, rfl, rfl⟩

/-- A plan found pays as asked, from outputs of the list that hold no tokens. -/
theorem planTransfer_pays (h : planTransfer utxos amount t = .ok p) :
    Pays t amount p ∧ p.inputs.Subperm utxos ∧ ∀ u ∈ p.inputs, assetFree u = true := by
  obtain ⟨n, hplan⟩ := planTransfer_ok h
  have hinputs := t.planOf_inputs hplan
  have hsub : p.inputs.Sublist (spendableLargestFirst utxos) := by
    rw [hinputs]
    exact List.take_sublist _ _
  refine ⟨t.planOf_pays hplan, hsub.subperm.trans spendable_subperm, fun u hu => ?_⟩
  exact (mem_spendable.1 (hsub.subset hu)).2

end

/-! ## The signed bytes -/

/-- Every number and length that goes into a body is below 2^64. -/
structure Fits (utxos : List KoiosUtxo) (t : Transfer) : Prop where
  total_lt : total utxos < 2 ^ 64
  ttl_lt : t.ttl < 2 ^ 64
  count_lt : utxos.length < 2 ^ 64
  outpoint_lt : ∀ u ∈ utxos, u.tx_hash.length < 2 ^ 64 ∧ u.tx_index < 2 ^ 64
  to_lt : t.toBytes.length < 2 ^ 64
  from_lt : t.fromBytes.length < 2 ^ 64

theorem total_le_of_subperm {l m : List KoiosUtxo} (h : l.Subperm m) : total l ≤ total m := by
  obtain ⟨l', hperm, hsub⟩ := h
  have hsum : total l = total l' := ((hperm.map _).sum_eq).symm
  rw [hsum]
  refine (hsub.map _).sum_le_sum fun v hv => ?_
  obtain ⟨u, -, rfl⟩ := List.mem_map.1 hv
  exact Int.natCast_nonneg _

theorem reusableValues_iff {values : List CborValue} : reusableValues values ↔ ∀ v ∈ values, reusable v := by
  induction values with
  | nil => simp [reusableValues]
  | cons v values ih => rw [reusableValues, ih, List.forall_mem_cons]

theorem reusable_input {u : KoiosUtxo} (hhash : u.tx_hash.length < 2 ^ 64) (hindex : u.tx_index < 2 ^ 64) :
    reusable (inputCbor u) := by
  refine ⟨by simp, hhash, ⟨by omega, ?_⟩, trivial⟩
  exact_mod_cast hindex

theorem reusable_output {o : TxOutput} (haddress : o.addressBytes.length < 2 ^ 64) (hpos : 0 ≤ o.coin)
    (hcoin : o.coin < 2 ^ 64) : reusable (outputCbor o) := ⟨by simp, haddress, ⟨hpos, hcoin⟩, trivial⟩

theorem reusable_body {inputs : List KoiosUtxo} {outputs : List TxOutput} {fee ttl : Nat}
    (hinputs : inputs.length < 2 ^ 64) (hinput : ∀ u ∈ inputs, u.tx_hash.length < 2 ^ 64 ∧ u.tx_index < 2 ^ 64)
    (houtputs : outputs.length < 2 ^ 64)
    (houtput : ∀ o ∈ outputs, o.addressBytes.length < 2 ^ 64 ∧ 0 ≤ o.coin ∧ o.coin < 2 ^ 64)
    (hfee : fee < 2 ^ 64) (httl : ttl < 2 ^ 64) : reusable (buildTxBody ⟨inputs, outputs, fee, ttl⟩) := by
  refine ⟨by simp, ⟨by decide, by decide⟩, ⟨by simpa using hinputs, ?_⟩, ⟨by decide, by decide⟩,
    ⟨by simpa using houtputs, ?_⟩, ⟨by decide, by decide⟩, ⟨by omega, ?_⟩, ⟨by decide, by decide⟩, ⟨by omega, ?_⟩,
    trivial⟩
  · rw [reusableValues_iff]
    intro v hv
    obtain ⟨u, hu, rfl⟩ := List.mem_map.1 hv
    exact reusable_input (hinput u hu).1 (hinput u hu).2
  · rw [reusableValues_iff]
    intro v hv
    obtain ⟨o, ho, rfl⟩ := List.mem_map.1 hv
    exact reusable_output (houtput o ho).1 (houtput o ho).2.1 (houtput o ho).2.2
  · exact_mod_cast hfee
  · exact_mod_cast httl

/-- The body of a plan comes back from its bytes. -/
theorem decode_plan {utxos : List KoiosUtxo} {amount : Int} {t : Transfer} {p : Plan} (hfits : Fits utxos t)
    (hamount : 0 ≤ amount) (hpays : Pays t amount p) (hsub : p.inputs.Subperm utxos) :
    ∃ v, decodeBodyForReuse p.body = some v ∧ encodeCbor v = p.body := by
  have htotal := total_le_of_subperm hsub
  have hlt := hfits.total_lt
  refine ⟨_, ?_, hpays.body_eq.symm⟩
  rw [hpays.body_eq]
  apply decode_encode
  apply reusable_body (Nat.lt_of_le_of_lt hsub.length_le hfits.count_lt) (fun u hu => hfits.outpoint_lt u (hsub.subset hu))
  · cases hpays.split with
    | inl h => simp [h.1]
    | inr h =>
      obtain ⟨change, -, h, -⟩ := h
      simp [h]
  · intro o ho
    cases hpays.split with
    | inl h =>
      obtain ⟨houts, hsum⟩ := h
      rw [houts, List.mem_singleton] at ho
      subst ho
      exact ⟨hfits.to_lt, hamount, by simp only; omega⟩
    | inr h =>
      obtain ⟨change, hmin, houts, hsum⟩ := h
      rw [MIN_UTXO_VALUE] at hmin
      rw [houts] at ho
      simp only [List.mem_cons, List.not_mem_nil, or_false] at ho
      cases ho with
      | inl ho =>
        subst ho
        exact ⟨hfits.to_lt, hamount, by simp only; omega⟩
      | inr ho =>
        subst ho
        exact ⟨hfits.from_lt, by simp only; omega, by simp only; omega⟩
  · cases hpays.split with
    | inl h => omega
    | inr h =>
      obtain ⟨change, hmin, -, hsum⟩ := h
      rw [MIN_UTXO_VALUE] at hmin
      omega
  · exact hfits.ttl_lt

/-- The bytes that are handed out hold the body as it was hashed, and the fee covers all of them. -/
theorem signPlan_bytes {blake2b : Nat → Bytes → Bytes} {signer : CardanoSigner} {ttl minA minB : Nat} {p : Plan}
    {v : CborValue} {built : BuiltTxResult} (hv : decodeBodyForReuse p.body = some v) (hbody : encodeCbor v = p.body)
    (hcovers : requiredFee minA minB p.body.length ≤ p.fee) (h : signPlan blake2b signer ttl p = some built) :
    built.txCborBytes = 0x84 :: (p.body ++
      encodeCbor (buildWitnessSet [(signer.publicKey, signer.sign (blake2b 32 p.body))]) ++ [0xf5, 0xf6]) ∧
      built.txCborBytes.length * minA + minB ≤ p.fee := by
  rw [signPlan, hv] at h
  obtain rfl := Option.some.inj h
  have hbytes : encodeCbor (.array [v, buildWitnessSet [(signer.publicKey, signer.sign (blake2b 32 p.body))],
      .bool true, .null]) = 0x84 :: (p.body ++
        encodeCbor (buildWitnessSet [(signer.publicKey, signer.sign (blake2b 32 p.body))]) ++ [0xf5, 0xf6]) := by
    have hhead : writeHead MT_ARRAY 4 = [0x84] := by decide
    have hfour : (([v, buildWitnessSet [(signer.publicKey, signer.sign (blake2b 32 p.body))],
      .bool true, .null].length : Nat) : Int) = 4 := rfl
    have htrue : writeValue (.bool true) = [0xf5] := by decide
    have hnull : writeValue .null = [0xf6] := by decide
    rw [← hbody, encodeCbor, writeValue, writeValues, writeValues, writeValues, writeValues, writeValues, hbody,
      hfour, hhead, htrue, hnull]
    simpa [encodeCbor] using hbody
  have hwitness : (encodeCbor (buildWitnessSet [(signer.publicKey, signer.sign (blake2b 32 p.body))])).length = 104 := by
    simp only [encodeCbor, buildWitnessSet, List.map_cons, List.map_nil, writeValue, writeValues, writeEntries,
      List.length_append, length_writeHead, signer.length_publicKey, signer.length_sign, List.length_nil]
    rfl
  refine ⟨hbytes, ?_⟩
  rw [requiredFee, WITNESS_BYTES] at hcovers
  simp only [hbytes, List.length_cons, List.length_append, hwitness, List.length_nil]
  refine Nat.le_trans (Nat.add_le_add_right (Nat.mul_le_mul_right _ ?_) _) hcovers
  omega

/-! ## Refusals -/

def sampleUtxo (value : Nat) : KoiosUtxo := ⟨List.replicate 32 9, 0, value, none⟩

def sampleTransfer : Transfer := ⟨0x61 :: List.replicate 28 5, 0x61 :: List.replicate 28 7, 8200, 44, 155381⟩

/-- Paying 1.5 of 2 ADA by giving the rest to the fee. -/
def burningPlan : Plan :=
  let outputs : List TxOutput := [⟨sampleTransfer.toBytes, 1500000⟩]
  ⟨[sampleUtxo 2000000], outputs, 500000, encodeCbor (buildTxBody ⟨[sampleUtxo 2000000], outputs, 500000, 8200⟩)⟩

theorem burningPlan_pays : Pays sampleTransfer 1500000 burningPlan :=
  ⟨rfl, by decide +kernel, Or.inl ⟨rfl, by decide +kernel⟩⟩

namespace Transfer

variable (t : Transfer)

theorem settleAmount_of_eq {next : Int → Int} {amount : Int} (h : next amount = amount) :
    ∀ n, settleAmount next n amount = amount
  | 0 => rfl
  | n + 1 => by rw [settleAmount, if_pos h]

/-- Sending everything costs what it was named with if the amount takes as many bytes as the one asked. -/
theorem sendAll_of_size {sorted : List KoiosUtxo} {amount : Int} {s : Short}
    (hfee : s.exactFee = (t.exactFor sorted amount).fee) (hsize : headSize (s.total - s.exactFee) = headSize amount) :
    t.sendAll sorted s = s.total - s.exactFee := by
  rw [sendAll]
  apply settleAmount_of_eq
  have hle := t.exactFee_mono sorted (Nat.le_of_eq hsize)
  have hge := t.exactFee_mono sorted (Nat.le_of_eq hsize.symm)
  omega

theorem planOf_all {sorted : List KoiosUtxo} {amount : Int}
    (h : total sorted - (t.exactFor sorted amount).fee = amount) : t.planOf amount sorted ≠ none := by
  have hzero : total sorted - amount - (t.exactFor sorted amount).fee = 0 := by omega
  rw [planOf, if_pos hzero]
  split_ifs <;> simp

theorem planOf_keep {sorted : List KoiosUtxo} {amount : Int}
    (h : total sorted - (t.withChangeFor sorted amount (total sorted)).fee - MIN_UTXO_VALUE = amount) :
    t.planOf amount sorted ≠ none := by
  rw [planOf, if_pos (by omega)]
  simp

end Transfer

/-- The amounts named when too little would be left: all of it is what was asked and what would be left, and both
amounts are accepted where their fee is the one they were computed with. For all of it that is so if it takes as
many bytes as the amount asked. -/
theorem dust_amounts {utxos : List KoiosUtxo} {amount : Int} {t : Transfer} {a rest all allFee keep : Int}
    (h : planTransfer utxos amount t = .error (.dust a rest all allFee keep)) :
    a = amount ∧ 0 < rest ∧ all + allFee = total (spendableLargestFirst utxos) ∧
      (headSize (amount + rest) = headSize amount → all = amount + rest ∧ ∃ p, planTransfer utxos all t = .ok p) ∧
      (allFee = (t.exactFor (spendableLargestFirst utxos) all).fee → amount ≤ all ∧ ∃ p, planTransfer utxos all t = .ok p) ∧
      (total (spendableLargestFirst utxos) = keep +
          (t.withChangeFor (spendableLargestFirst utxos) keep (total (spendableLargestFirst utxos))).fee +
          MIN_UTXO_VALUE → ∃ p, planTransfer utxos keep t = .ok p) := by
  obtain ⟨hne, ha, hrest, hpos, hall, hallFee, -⟩ := dust_numbers h
  have hleft : total (spendableLargestFirst utxos) - (t.exactFor (spendableLargestFirst utxos) amount).fee =
    amount + rest := by omega
  refine ⟨ha, hpos, by omega, ?_, ?_, ?_⟩
  · intro hsize
    have hnamed : all = amount + rest := by
      rw [hall, t.sendAll_of_size rfl (by rw [hleft, hsize]), hleft]
    have hge := t.exactFee_mono (spendableLargestFirst utxos) (Nat.le_of_eq hsize)
    have hle := t.exactFee_mono (spendableLargestFirst utxos) (Nat.le_of_eq hsize.symm)
    refine ⟨hnamed, planTransfer_of_planOf hne (t.planOf_all ?_)⟩
    rw [hnamed]
    omega
  · intro hfee
    have hfix : total (spendableLargestFirst utxos) - (t.exactFor (spendableLargestFirst utxos) all).fee = all := by
      omega
    refine ⟨?_, planTransfer_of_planOf hne (t.planOf_all hfix)⟩
    by_contra hlt
    have hle := t.exactFee_mono (spendableLargestFirst utxos)
      (headSize_mono (v := all) (w := amount) (by omega))
    omega
  · intro hfee
    exact planTransfer_of_planOf hne (t.planOf_keep (by omega))

theorem dust_amounts_sample :
    planTransfer [sampleUtxo 5000000] 4500000 sampleTransfer = .error (.dust 4500000 335907 4835907 164093 3834279) ∧
      (∃ p, planTransfer [sampleUtxo 5000000] 4835907 sampleTransfer = .ok p) ∧
      ∃ p, planTransfer [sampleUtxo 5000000] 3834279 sampleTransfer = .ok p := by
  have hrefused : planTransfer [sampleUtxo 5000000] 4500000 sampleTransfer =
    .error (.dust 4500000 335907 4835907 164093 3834279) := by decide +kernel
  obtain ⟨-, -, -, hsize, -, hkeep⟩ := dust_amounts hrefused
  exact ⟨hrefused, (hsize (by decide)).2, hkeep (by decide +kernel)⟩

/-! ## The whole send -/

/-- What `buildAndSignTx` has made sure of when it hands out a transaction. -/
structure Sent (env : Koios) (args : BuildTxArgs) (built : BuiltTxResult) (amount : Int) (t : Transfer)
    (utxos : List KoiosUtxo) (p : Plan) : Prop where
  asked : requestedLovelace args = .ok amount ∧ MIN_UTXO_VALUE ≤ amount
  recipient : env.bech32 (String.ofList (Js.trim args.toAddress.toList)) = some ⟨"addr", t.toBytes⟩
  payable : isKeyPayment t.toBytes = true ∧ network t.toBytes = some NETWORK_MAINNET ∧ lengthOk t.toBytes = true
  controlled : signerControls env.blake2b t.fromBytes args.signer = true
  source : decodeAddressBytes env.bech32 args.fromAddress = .ok t.fromBytes ∧
    env.addressUtxos args.fromAddress = .ok utxos
  pays : Pays t amount p
  inputs : p.inputs.Subperm utxos ∧ ∀ u ∈ p.inputs, assetFree u = true
  fee : built.feeLovelace = p.fee ∧ env.epochParams = .ok (t.minA, t.minB)
  hash : built.txHash = env.blake2b 32 p.body
  bytes : Fits utxos t → built.txCborBytes = 0x84 :: (p.body ++
    encodeCbor (buildWitnessSet [(args.signer.publicKey, args.signer.sign built.txHash)]) ++ [0xf5, 0xf6]) ∧
    built.txCborBytes.length * t.minA + t.minB ≤ p.fee

theorem recipient_ok {bech32 : String → Option Bech32} {address : String} {bytes : Bytes}
    (h : recipientAddressBytes bech32 address = .ok bytes) :
    bech32 (String.ofList (Js.trim address.toList)) = some ⟨"addr", bytes⟩ ∧ isKeyPayment bytes = true ∧
      network bytes = some NETWORK_MAINNET ∧ lengthOk bytes = true := by
  simp only [recipientAddressBytes] at h
  cases hdecoded : bech32 (String.ofList (Js.trim address.toList)) with
  | none =>
    rw [hdecoded] at h
    split_ifs at h
  | some decoded =>
    rw [hdecoded] at h
    simp only at h
    split_ifs at h with hbyron htest hstake haddr hscript hbad
    obtain rfl := Except.ok.inj h
    simp only [not_or, Bool.not_eq_false, ne_eq, Classical.not_not] at hbad haddr
    obtain ⟨hrp, bytes⟩ := decoded
    obtain rfl : hrp = "addr" := haddr
    exact ⟨rfl, hbad⟩

def sampleKoios : Koios where
  bech32 address :=
    if address = "addr1to" then some ⟨"addr", sampleTransfer.toBytes⟩
    else if address = "addr1from" then some ⟨"addr", sampleTransfer.fromBytes⟩
    else none
  blake2b n _ := List.replicate n 7
  epochParams := .ok (44, 155381)
  tipSlot := .ok 1000
  addressUtxos _ := .ok [sampleUtxo 5000000]

def sampleArgs : BuildTxArgs where
  fromAddress := "addr1from"
  toAddress := " addr1to"
  amountAda := some "2.5"
  signer := ⟨List.replicate 32 1, fun _ => List.replicate 64 2, by decide, fun _ => by decide⟩

end Cardano
