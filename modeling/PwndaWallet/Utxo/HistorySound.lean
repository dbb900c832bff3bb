import Mathlib.Tactic.NormNum
import PwndaWallet.Utxo.History

/-!
# One row of the account for one transaction

The rows of a transaction, one for each own address that it touches, add up to what the account got and gave.
Where the account funded it and its rows tell the fee, what is left is what others were paid.
-/

namespace Utxo

open Js

/-! ## Numbers -/

theorem roundEven_intCast (n : Int) : Double.roundEven (n : ℚ) = n := by
  simp [Double.roundEven]

theorem nearest_natCast {n : Nat} (h : n ≤ 2 ^ 53) : Double.nearest (n : ℚ) = n := by
  by_cases hzero : n = 0
  · subst hzero
    simpa using Double.nearest_zero
  have hpos : (0 : ℚ) < n := by exact_mod_cast Nat.pos_of_ne_zero hzero
  by_cases hmax : n = 2 ^ 53
  · subst hmax
    decide +kernel
  have hexp : Double.exponent (n : ℚ) ≤ 52 := by
    by_contra hlarge
    have hle := Double.exponent_le hpos
    have hpow : (2 : ℚ) ^ (53 : ℤ) ≤ 2 ^ Double.exponent (n : ℚ) := zpow_le_zpow_right₀ (by norm_num) (by omega)
    have hcast : (2 : ℚ) ^ (53 : ℤ) ≤ n := le_trans hpow hle
    have hnat : 2 ^ 53 ≤ n := by exact_mod_cast hcast
    omega
  obtain ⟨d, hd⟩ : ∃ d : Nat, Double.exponent (n : ℚ) - 52 = -(d : ℤ) := ⟨(52 - Double.exponent (n : ℚ)).toNat, by omega⟩
  have hunit : (n : ℚ) / 2 ^ (-(d : ℤ)) = ((n * 2 ^ d : Nat) : Int) := by
    rw [zpow_neg, zpow_natCast, div_inv_eq_mul]
    norm_cast
  rw [Double.nearest, hd, hunit, roundEven_intCast, ← hunit, div_mul_cancel₀ _ (zpow_pos two_pos _).ne']

/-- `Number` changes no integer up to 2^53. -/
theorem toNumber_eq {v : Int} (h : v.natAbs ≤ 2 ^ 53) : toNumber v = v := by
  unfold toNumber
  by_cases hneg : v < 0
  · obtain ⟨n, hn⟩ := Int.exists_eq_neg_ofNat (Int.le_of_lt hneg)
    subst hn
    rw [if_pos hneg, neg_neg]
    have hnear := nearest_natCast (n := n) (by simpa using h)
    push_cast at hnear ⊢
    rw [hnear]
  · obtain ⟨n, hn⟩ := Int.eq_ofNat_of_zero_le (Int.not_lt.1 hneg)
    subst hn
    rw [if_neg hneg]
    have hnear := nearest_natCast (n := n) (by simpa using h)
    push_cast at hnear ⊢
    exact hnear

/-! ## Groups -/

section Groups

variable {α κ : Type} [DecidableEq κ]

theorem nodup_group (key : α → κ) (l : List α) : ((group key l).map (·.1)).Nodup := by
  unfold group
  induction l using List.reverseRecOn with
  | nil => simp
  | append_singleton l a ih =>
    rw [List.foldl_append, List.foldl_cons, List.foldl_nil, map_fst_push]
    by_cases hin : key a ∈ (l.foldl (fun m a => push (key a) a m) []).map (·.1)
    · rwa [if_pos hin]
    · rw [if_neg hin]
      exact ih.append (List.nodup_singleton _) fun x hx hxa => hin (List.mem_singleton.1 hxa ▸ hx)

omit [DecidableEq κ] in
theorem filter_filterMap_of_nodup {β : Type} {m : List (κ × List α)} {f : κ × List α → Option β} {p : β → Bool} {k : κ}
    {e : κ × List α} (hm : (m.map (·.1)).Nodup) (hp : ∀ e ∈ m, ∀ b, f e = some b → (p b = true ↔ e.1 = k)) (he : e ∈ m)
    (hk : e.1 = k) : (m.filterMap f).filter p = (f e).toList := by
  induction m with
  | nil => exact absurd he List.not_mem_nil
  | cons d m ih =>
    obtain ⟨hd, hm⟩ := List.nodup_cons.1 hm
    have hp' := fun e he => hp e (List.mem_cons_of_mem d he)
    have hpd := hp d List.mem_cons_self
    rcases List.mem_cons.1 he with rfl | he
    · have hnone : (m.filterMap f).filter p = [] := by
        apply List.filter_eq_nil_iff.2
        intro b hb
        obtain ⟨e', he', hfe⟩ := List.mem_filterMap.1 hb
        rw [hp' e' he' b hfe]
        intro hk'
        exact hd (List.mem_map.2 ⟨e', he', hk'.trans hk.symm⟩)
      cases hfe : f e with
      | none => simp [hfe, hnone]
      | some b => simp [hfe, hnone, (hpd b hfe).2 hk]
    · have hdk : d.1 ≠ k := fun hdk => hd (List.mem_map.2 ⟨e, he, hk.trans hdk.symm⟩)
      cases hfd : f d with
      | none => simpa [hfd] using ih hm hp' he
      | some b =>
        have hpb : p b = false := by
          rw [← Bool.not_eq_true, hpd b hfd]
          exact hdk
        simpa [hfd, hpb] using ih hm hp' he

end Groups

theorem firstRows_spec (rows : List SeenRow) : ∃ firsts : List SeenRow, firstRows rows = firsts.map SeenRow.tx ∧
    (firsts.map SeenRow.addr).Nodup ∧ (∀ s ∈ firsts, s ∈ rows) ∧ ∀ s ∈ rows, ∃ s' ∈ firsts, s'.addr = s.addr := by
  have hhead : ∀ e ∈ group SeenRow.addr rows, ∃ s, e.2.head? = some s ∧ s ∈ rows ∧ s.addr = e.1 := fun e he => by
    obtain ⟨hkey, hrows⟩ := mem_group.1 he
    obtain ⟨s, hs, hkey⟩ := List.mem_map.1 hkey
    cases hhd : e.2.head? with
    | none =>
      rw [List.head?_eq_none_iff, hrows, List.filter_eq_nil_iff] at hhd
      exact absurd (by simpa using hkey) (hhd s hs)
    | some s' =>
      have hmem := List.mem_of_mem_head? hhd
      rw [hrows, List.mem_filter] at hmem
      exact ⟨s', rfl, hmem.1, by simpa using hmem.2⟩
  refine ⟨(group SeenRow.addr rows).filterMap fun e => e.2.head?, ?_, ?_, ?_, ?_⟩
  · rw [firstRows, List.map_filterMap]
  · have hsame : ∀ m : List (String × List SeenRow), (∀ e ∈ m, ∃ s, e.2.head? = some s ∧ s ∈ rows ∧ s.addr = e.1) →
        (m.filterMap fun e => e.2.head?).map SeenRow.addr = m.map (·.1) := by
      intro m hm
      induction m with
      | nil => rfl
      | cons e m ih =>
        obtain ⟨s, hs, -, haddr⟩ := hm e List.mem_cons_self
        simp only [List.filterMap_cons, hs, List.map_cons, haddr]
        rw [ih fun e he => hm e (List.mem_cons_of_mem _ he)]
    rw [hsame _ hhead]
    exact nodup_group _ _
  · intro s hs
    obtain ⟨e, he, hse⟩ := List.mem_filterMap.1 hs
    obtain ⟨s', hs', hmem, -⟩ := hhead e he
    rw [hse, Option.some.injEq] at hs'
    exact hs' ▸ hmem
  · intro s hs
    have he : (s.addr, rows.filter (fun s' => s'.addr = s.addr)) ∈ group SeenRow.addr rows :=
      mem_group.2 ⟨List.mem_map_of_mem hs, rfl⟩
    obtain ⟨s', hs', -, haddr⟩ := hhead _ he
    exact ⟨s', List.mem_filterMap.2 ⟨_, he, hs'⟩, haddr⟩

/-! ## A transaction and its rows -/

/-- A transaction: the addresses and amounts of its inputs and outputs, with the empty string for no address. -/
structure Transfer where
  hash : String
  inputs : List (String × Nat)
  outputs : List (String × Nat)

def total (l : List (String × Nat)) : Nat := (l.map (·.2)).sum

/-- The amounts of those that `p` picks. -/
def part (p : String → Bool) (l : List (String × Nat)) : Nat := total (l.filter fun e => p e.1)

section

variable (intl : Intl) (chain : String)

/-- Whose an address is. -/
def party (a : String) : Option String := if a = "" then none else some (accountAddressKey intl chain a)

namespace Transfer

variable (T : Transfer)

/-- What the transaction pays to an address less what it takes from it. -/
def netAt (addr : String) : Int :=
  part (fun a => party intl chain a == some addr) T.outputs - part (fun a => party intl chain a == some addr) T.inputs

def net (own : List String) : Int := part (isOwn intl chain own) T.outputs - part (isOwn intl chain own) T.inputs

def fee : Int := total T.inputs - total T.outputs

/-- What addresses that are not the account's are paid. -/
def foreign (own : List String) : Nat := part (fun a => !isOwn intl chain own a) T.outputs

def parties : List (Option String) := (T.inputs ++ T.outputs).map fun e => party intl chain e.1

end Transfer

/-- A list of addresses names these parties. -/
def Names (listed : List (Option String)) (l : List (String × Nat)) : Prop :=
  ∀ p, p ∈ listed.map (fun a => party intl chain (a.getD "")) ↔ p ∈ l.map fun e => party intl chain e.1

/-- A correct row of one address: the net is the address's, and what else it tells is the transaction's. -/
structure RowOf (T : Transfer) (addr : String) (r : ChainTx) : Prop where
  netSat : r.rowMeta.netSat = some (T.netAt intl chain addr : Rat)
  safe : (T.netAt intl chain addr).natAbs < 2 ^ 53
  feeSat (f : Rat) : r.rowMeta.feeSat = some f → f = T.fee
  fee (s : String) (n : Nat) : r.fee = some s → decimalToAtomic s DECIMALS = some n → (n : Int) = T.fee
  inputs (l : List (Option String)) : r.rowMeta.inputs = some l → Names intl chain l T.inputs
  outputs (l : List (Option String)) : r.rowMeta.outputs = some l → Names intl chain l T.outputs

/-- A duplicate tells whether the fee, the inputs and the confirmation are there as the row it repeats does. -/
structure Repeats (r r' : ChainTx) : Prop where
  fee : (rowFeeSat r).isSome = (rowFeeSat r').isSome
  inputs : r.rowMeta.inputs.isSome = r'.rowMeta.inputs.isSome
  pending : (r.direction == .pending) = (r'.direction == .pending)

/-- The rows of a transaction in the history: all are correct, and each own address that it touches has one. -/
structure Describes (T : Transfer) (txByKey : TxByKey) : Prop where
  row (s : SeenRow) : s ∈ seen intl chain txByKey → s.h = T.hash → RowOf intl chain T s.addr s.tx
  touched (addr : String) : addr ∈ ownKeys intl chain txByKey → some addr ∈ T.parties intl chain →
    ∃ s ∈ seen intl chain txByKey, s.h = T.hash ∧ s.addr = addr
  repeats (s s' : SeenRow) : s ∈ seen intl chain txByKey → s' ∈ seen intl chain txByKey → s.h = T.hash → s'.h = T.hash →
    s.addr = s'.addr → Repeats s.tx s'.tx

end

/-! ## Sums -/

section

variable {intl : Intl} {chain : String} {T : Transfer} {txByKey : TxByKey}

theorem isOwn_iff {own : List String} {a : String} :
    isOwn intl chain own a = true ↔ ∃ addr ∈ own, party intl chain a = some addr := by
  by_cases ha : a = ""
  · simp [isOwn, party, ha]
  · simp [isOwn, party, ha]

theorem part_cons (p : String → Bool) (e : String × Nat) (l : List (String × Nat)) :
    part p (e :: l) = (if p e.1 = true then e.2 else 0) + part p l := by
  by_cases he : p e.1 = true <;> simp [part, total, he]

theorem part_congr {p q : String → Bool} {l : List (String × Nat)} (h : ∀ e ∈ l, p e.1 = q e.1) : part p l = part q l := by
  rw [part, part, List.filter_congr h]

theorem part_add_part_not (p : String → Bool) (l : List (String × Nat)) :
    part p l + part (fun a => !p a) l = total l := by
  induction l with
  | nil => rfl
  | cons e l ih =>
    rw [part_cons, part_cons, total, List.map_cons, List.sum_cons, ← total, ← ih]
    by_cases he : p e.1 = true <;> simp [he] <;> omega

theorem sum_indicator {keys : List String} (hkeys : keys.Nodup) (p : Option String) (v : Nat) :
    (keys.map fun addr => if (p == some addr) = true then v else 0).sum = if ∃ addr ∈ keys, p = some addr then v else 0 := by
  induction keys with
  | nil => simp
  | cons addr keys ih =>
    obtain ⟨hnot, hkeys⟩ := List.nodup_cons.1 hkeys
    rw [List.map_cons, List.sum_cons, ih hkeys]
    by_cases hp : p = some addr
    · have hrest : ¬ ∃ addr' ∈ keys, p = some addr' := by
        rintro ⟨addr', hmem, heq⟩
        rw [hp, Option.some.injEq] at heq
        exact hnot (heq ▸ hmem)
      rw [if_neg hrest]
      simp [hp]
    · simp [hp]

/-- Over the addresses that are touched, the parts of each add up to the part of all. -/
theorem sum_part {keys own : List String} (hkeys : keys.Nodup) {l : List (String × Nat)}
    (h : ∀ e ∈ l, isOwn intl chain own e.1 = true ↔ ∃ addr ∈ keys, party intl chain e.1 = some addr) :
    (keys.map fun addr => part (fun a => party intl chain a == some addr) l).sum = part (isOwn intl chain own) l := by
  induction l with
  | nil => simp [part, total]
  | cons e l ih =>
    have hstep : (keys.map fun addr => part (fun a => party intl chain a == some addr) (e :: l)).sum =
        (keys.map fun addr => if (party intl chain e.1 == some addr) = true then e.2 else 0).sum +
          (keys.map fun addr => part (fun a => party intl chain a == some addr) l).sum := by
      rw [← List.sum_map_add]
      exact congrArg List.sum (List.map_congr_left fun addr _ => part_cons _ _ _)
    rw [hstep, sum_indicator hkeys, ih fun e' he' => h e' (List.mem_cons_of_mem _ he'), part_cons]
    have hself := h e List.mem_cons_self
    by_cases hown : isOwn intl chain own e.1 = true
    · rw [if_pos hown, if_pos (hself.1 hown)]
    · rw [if_neg hown, if_neg fun hex => hown (hself.2 hex)]

theorem sum_sub (keys : List String) (f g : String → Nat) :
    (keys.map fun addr => (f addr : Int) - g addr).sum = ((keys.map f).sum : Nat) - ((keys.map g).sum : Nat) := by
  induction keys with
  | nil => rfl
  | cons addr keys ih =>
    simp only [List.map_cons, List.sum_cons, Int.natCast_add, ih]
    omega

theorem sum_netAt {keys own : List String} (hkeys : keys.Nodup)
    (h : ∀ e ∈ T.inputs ++ T.outputs, isOwn intl chain own e.1 = true ↔
      ∃ addr ∈ keys, party intl chain e.1 = some addr) :
    (keys.map (T.netAt intl chain)).sum = T.net intl chain own := by
  have hparts := sum_sub keys (fun addr => part (fun a => party intl chain a == some addr) T.outputs)
    fun addr => part (fun a => party intl chain a == some addr) T.inputs
  rw [sum_part hkeys fun e he => h e (List.mem_append_right _ he),
    sum_part hkeys fun e he => h e (List.mem_append_left _ he)] at hparts
  exact hparts

/-! ## One row from many -/

/-- What the rows of the transaction tell, whatever their order. -/
structure Told where
  fee : Bool
  inputs : Bool
  pending : Bool

/-- The account's direction, amount and fee, from the transaction and what its rows tell. -/
def expected (intl : Intl) (chain : String) (T : Transfer) (own : List String) (told : Told) : Netted :=
  split (T.net intl chain own) (if told.fee then some (T.fee.toNat) else none)
    (if told.inputs ∧ T.inputs ≠ [] then some (T.inputs.all fun e => isOwn intl chain own e.1) else none)

theorem RowOf.signed {addr : String} {r : ChainTx} (h : RowOf intl chain T addr r) :
    signedNetSat r = some (T.netAt intl chain addr) := by
  have hsafe : isSafeInteger (T.netAt intl chain addr : Rat) = true := by
    have hlt := h.safe
    simp only [isSafeInteger, Bool.and_eq_true, beq_iff_eq, decide_eq_true_eq]
    exact ⟨rfl, hlt⟩
  rw [signedNetSat, h.netSat, Option.filter_some, if_pos hsafe]
  rfl

theorem RowOf.rowFeeSat_eq {addr : String} {r : ChainTx} {n : Nat} (h : RowOf intl chain T addr r)
    (hn : rowFeeSat r = some n) : (n : Int) = T.fee := by
  rw [rowFeeSat] at hn
  cases hf : r.rowMeta.feeSat.filter (fun f => isSafeInteger f && 0 ≤ f) with
  | some f =>
    rw [hf] at hn
    obtain ⟨hfee, hnat⟩ := Option.filter_eq_some_iff.1 hf
    have hT := h.feeSat f hfee
    rw [Option.some.injEq] at hn
    have hnum : f.num = T.fee := by rw [hT]; rfl
    have hpos : 0 ≤ f.num := by
      simp only [Bool.and_eq_true, decide_eq_true_eq] at hnat
      exact Rat.num_nonneg.2 hnat.2
    omega
  | none =>
    rw [hf] at hn
    obtain ⟨s, hs, hparse⟩ := Option.bind_eq_some_iff.1 hn
    exact h.fee s n hs hparse

theorem feeSatOf_eq {firsts : List SeenRow} (h : ∀ s ∈ firsts, RowOf intl chain T s.addr s.tx) :
    feeSatOf (firsts.map SeenRow.tx) =
      if (firsts.any fun s => (rowFeeSat s.tx).isSome) = true then some T.fee.toNat else none := by
  induction firsts with
  | nil => rfl
  | cons s firsts ih =>
    have hrest := ih fun s' hs' => h s' (List.mem_cons_of_mem _ hs')
    rw [feeSatOf] at hrest ⊢
    rw [List.map_cons, List.findSome?_cons, List.any_cons]
    cases hs : rowFeeSat s.tx with
    | some n =>
      have hn := (h s List.mem_cons_self).rowFeeSat_eq hs
      simp only [Option.isSome_some, Bool.true_or, if_true, Option.some.injEq]
      omega
    | none => simpa using hrest

/-- The list that some row has, if one has it, names the transaction's parties. -/
theorem addressList_spec {firsts : List SeenRow} {f : RowMeta → Option (List (Option String))} {l : List (String × Nat)}
    (h : ∀ s ∈ firsts, ∀ v, f s.tx.rowMeta = some v → Names intl chain v l) :
    if (firsts.any fun s => (f s.tx.rowMeta).isSome) = true
    then ∃ v, addressList (firsts.map SeenRow.tx) f = some (v.map fun a => a.getD "") ∧ Names intl chain v l
    else addressList (firsts.map SeenRow.tx) f = none := by
  induction firsts with
  | nil => rfl
  | cons s firsts ih =>
    have hrest := ih fun s' hs' => h s' (List.mem_cons_of_mem _ hs')
    simp only [addressList] at hrest ⊢
    rw [List.map_cons, List.findSome?_cons, List.any_cons]
    cases hs : f s.tx.rowMeta with
    | some v =>
      rw [if_pos (by simp)]
      exact ⟨v, rfl, h s List.mem_cons_self v hs⟩
    | none => simpa using hrest

theorem all_isOwn {own : List String} {v : List (Option String)} {l : List (String × Nat)} (h : Names intl chain v l) :
    ((v.map fun a => a.getD "").all (isOwn intl chain own)) = l.all fun e => isOwn intl chain own e.1 := by
  have hparty (a : String) : isOwn intl chain own a = (party intl chain a).any (own.contains ·) := by
    by_cases ha : a = "" <;> simp [isOwn, party, ha]
  rw [Bool.eq_iff_iff, List.all_eq_true, List.all_eq_true]
  constructor
  · intro hall e he
    obtain ⟨a, ha, hea⟩ := List.mem_map.1 ((h _).2 (List.mem_map_of_mem he))
    have hown := hall _ (List.mem_map_of_mem ha)
    rw [hparty, hea, ← hparty] at hown
    exact hown
  · intro hall a ha
    obtain ⟨b, hb, rfl⟩ := List.mem_map.1 ha
    obtain ⟨e, he, heb⟩ := List.mem_map.1 ((h _).1 (List.mem_map_of_mem hb))
    have hown := hall e he
    rw [hparty, heb, ← hparty] at hown
    exact hown

theorem soleFunder_eq {own : List String} {firsts : List SeenRow} (h : ∀ s ∈ firsts, RowOf intl chain T s.addr s.tx) :
    soleFunder intl chain own (addressList (firsts.map SeenRow.tx) RowMeta.inputs) =
      if (firsts.any fun s => s.tx.rowMeta.inputs.isSome) = true ∧ T.inputs ≠ []
      then some (T.inputs.all fun e => isOwn intl chain own e.1) else none := by
  have hspec := addressList_spec (f := RowMeta.inputs) fun s hs v hv => (h s hs).inputs v hv
  by_cases hlisted : (firsts.any fun s => s.tx.rowMeta.inputs.isSome) = true
  · rw [if_pos hlisted] at hspec
    obtain ⟨v, hv, hnames⟩ := hspec
    have hempty : v = [] ↔ T.inputs = [] := by
      constructor
      · rintro rfl
        cases hin : T.inputs with
        | nil => rfl
        | cons e l => simpa using (hnames (party intl chain e.1)).2 (by simp [hin])
      · intro hin
        cases v with
        | nil => rfl
        | cons a v => simpa [hin] using (hnames (party intl chain (a.getD ""))).1 (by simp)
    rw [soleFunder, hv]
    by_cases hin : T.inputs = []
    · simp [hin, hempty.2 hin]
    · rw [if_pos ⟨hlisted, hin⟩, Option.filter_some, if_pos (by simpa using fun hv => hin (hempty.1 hv)), Option.map_some,
        all_isOwn hnames]
  · rw [if_neg hlisted] at hspec
    rw [hspec, if_neg fun h => hlisted h.1]
    rfl

def toldOf (rows : List SeenRow) : Told where
  fee := rows.any fun s => (rowFeeSat s.tx).isSome
  inputs := rows.any fun s => s.tx.rowMeta.inputs.isSome
  pending := rows.any fun s => s.tx.direction == .pending

/-- The account's row. -/
structure Nets (intl : Intl) (chain : String) (T : Transfer) (own : List String) (told : Told) (r : ChainTx) : Prop where
  netSat : r.rowMeta.netSat = some (toNumber (T.net intl chain own))
  netDirection : r.rowMeta.netDirection = some (expected intl chain T own told).direction
  direction : r.direction = if told.pending then .pending else (expected intl chain T own told).direction
  amount : r.amount = formatSat (expected intl chain T own told).amount
  fee : r.fee = (expected intl chain T own told).rowFee.map fun fee => formatSat fee
  counterparty (c : String) : r.counterparty = some c → isOwn intl chain own c = false

theorem mapM_signed {firsts : List SeenRow} (h : ∀ s ∈ firsts, RowOf intl chain T s.addr s.tx) :
    (firsts.map SeenRow.tx).mapM signedNetSat = some ((firsts.map SeenRow.addr).map (T.netAt intl chain)) := by
  induction firsts with
  | nil => rfl
  | cons s firsts ih =>
    rw [List.map_cons, List.mapM_cons, (h s List.mem_cons_self).signed, ih fun s' hs' => h s' (List.mem_cons_of_mem _ hs')]
    rfl

theorem netAccountTx_spec {own : List String} {s : SeenRow} {firsts : List SeenRow}
    (h : ∀ s' ∈ s :: firsts, RowOf intl chain T s'.addr s'.tx)
    (hnet : (((s :: firsts).map SeenRow.addr).map (T.netAt intl chain)).sum = T.net intl chain own) :
    Nets intl chain T own (toldOf (s :: firsts)) (netAccountTx intl chain own s.tx (firsts.map SeenRow.tx)) := by
  have hrows : s.tx :: firsts.map SeenRow.tx = (s :: firsts).map SeenRow.tx := rfl
  have hexpected : split (T.net intl chain own) (feeSatOf ((s :: firsts).map SeenRow.tx))
      (soleFunder intl chain own (addressList ((s :: firsts).map SeenRow.tx) RowMeta.inputs)) =
        expected intl chain T own (toldOf (s :: firsts)) := by
    rw [feeSatOf_eq h, soleFunder_eq h]
    rfl
  have hpending : (((s :: firsts).map SeenRow.tx).any fun r => r.direction == .pending) = (toldOf (s :: firsts)).pending := by
    rw [List.any_map]
    rfl
  unfold netAccountTx
  simp only [hrows, mapM_signed h, hnet, hexpected, hpending]
  refine ⟨rfl, rfl, rfl, rfl, rfl, fun c hc => ?_⟩
  simp only at hc
  by_cases hout : (expected intl chain T own (toldOf (s :: firsts))).direction = .out
  · rw [if_pos hout, Option.or_eq_some_iff] at hc
    rcases hc with hc | ⟨-, hc⟩
    · have hmem := (List.mem_filter.1 (List.mem_of_mem_head? hc)).2
      simp only [Bool.and_eq_true, Bool.not_eq_true'] at hmem
      exact hmem.2
    · obtain ⟨r, -, hr⟩ := List.exists_of_findSome?_eq_some hc
      have hmem := (Option.filter_eq_some_iff.1 hr).2
      simp only [Bool.and_eq_true, Bool.not_eq_true'] at hmem
      exact hmem.2
  · rw [if_neg hout] at hc
    cases hc

theorem netAccountTx_hash (own : List String) (first : ChainTx) (others : List ChainTx) :
    (netAccountTx intl chain own first others).hash = first.hash := by
  unfold netAccountTx
  simp only
  split <;> rfl

/-- The rows of the transaction. -/
def rowsOf (intl : Intl) (chain : String) (T : Transfer) (txByKey : TxByKey) : List SeenRow :=
  (seen intl chain txByKey).filter fun s => s.h = T.hash

theorem mem_rowsOf {s : SeenRow} : s ∈ rowsOf intl chain T txByKey ↔ s ∈ seen intl chain txByKey ∧ s.h = T.hash := by
  simp [rowsOf]

theorem seen_spec {s : SeenRow} (h : s ∈ seen intl chain txByKey) :
    s.addr ∈ ownKeys intl chain txByKey ∧ s.h = intl.toLowerCase s.tx.hash := by
  obtain ⟨e, he, hs⟩ := List.mem_flatMap.1 h
  obtain ⟨tx, -, rfl⟩ := List.mem_map.1 hs
  exact ⟨List.mem_map_of_mem he, rfl⟩

/-- Whatever duplicates are dropped, the rows that are kept tell the same. -/
theorem toldOf_firsts {rows firsts : List SeenRow} (hsub : ∀ s ∈ firsts, s ∈ rows)
    (hall : ∀ s ∈ rows, ∃ s' ∈ firsts, s'.addr = s.addr)
    (hrepeats : ∀ s ∈ rows, ∀ s' ∈ rows, s.addr = s'.addr → Repeats s.tx s'.tx) : toldOf firsts = toldOf rows := by
  have hany (p : SeenRow → Bool) (hp : ∀ s ∈ rows, ∀ s' ∈ rows, s.addr = s'.addr → p s = p s') :
      firsts.any p = rows.any p := by
    rw [Bool.eq_iff_iff, List.any_eq_true, List.any_eq_true]
    constructor
    · rintro ⟨s, hs, hps⟩
      exact ⟨s, hsub s hs, hps⟩
    · rintro ⟨s, hs, hps⟩
      obtain ⟨s', hs', haddr⟩ := hall s hs
      exact ⟨s', hs', by rw [hp s' (hsub s' hs') s hs haddr, hps]⟩
  simp only [toldOf, Told.mk.injEq]
  exact ⟨hany _ fun s hs s' hs' haddr => (hrepeats s hs s' hs' haddr).fee,
    hany _ fun s hs s' hs' haddr => (hrepeats s hs s' hs' haddr).inputs,
    hany _ fun s hs s' hs' haddr => (hrepeats s hs s' hs' haddr).pending⟩

/-- The history has one row for the transaction, which nets it. -/
theorem accountTxHistory_spec (h : Describes intl chain T txByKey) (hrows : rowsOf intl chain T txByKey ≠ []) :
    ∃ r, (accountTxHistory intl chain txByKey).filter (fun r => intl.toLowerCase r.hash = T.hash) = [r] ∧
      Nets intl chain T (ownKeys intl chain txByKey) (toldOf (rowsOf intl chain T txByKey)) r := by
  obtain ⟨firsts, hfirsts, hnodup, hsub, hall⟩ := firstRows_spec (rowsOf intl chain T txByKey)
  have hne : firsts ≠ [] := by
    rintro rfl
    obtain ⟨s, hs⟩ := List.exists_mem_of_ne_nil _ hrows
    obtain ⟨s', hs', -⟩ := hall s hs
    exact absurd hs' List.not_mem_nil
  have hrow : ∀ s ∈ firsts, RowOf intl chain T s.addr s.tx := fun s hs => by
    obtain ⟨hseen, hhash⟩ := mem_rowsOf.1 (hsub s hs)
    exact h.row s hseen hhash
  have hnet : ((firsts.map SeenRow.addr).map (T.netAt intl chain)).sum = T.net intl chain (ownKeys intl chain txByKey) := by
    apply sum_netAt hnodup
    intro e he
    rw [isOwn_iff]
    constructor
    · rintro ⟨addr, hown, hparty⟩
      obtain ⟨s, hs, hhash, haddr⟩ := h.touched addr hown (List.mem_map.2 ⟨e, he, hparty⟩)
      obtain ⟨s', hs', haddr'⟩ := hall s (mem_rowsOf.2 ⟨hs, hhash⟩)
      exact ⟨addr, List.mem_map.2 ⟨s', hs', haddr'.trans haddr⟩, hparty⟩
    · rintro ⟨addr, haddr, hparty⟩
      obtain ⟨s, hs, rfl⟩ := List.mem_map.1 haddr
      exact ⟨s.addr, (seen_spec (mem_rowsOf.1 (hsub s hs)).1).1, hparty⟩
  have htold := toldOf_firsts hsub hall fun s hs s' hs' => h.repeats s s' (mem_rowsOf.1 hs).1 (mem_rowsOf.1 hs').1
    (mem_rowsOf.1 hs).2 (mem_rowsOf.1 hs').2
  obtain ⟨s, rest, rfl⟩ := List.exists_cons_of_ne_nil hne
  refine ⟨_, ?_, htold ▸ netAccountTx_spec hrow hnet⟩
  have hgroup : (T.hash, rowsOf intl chain T txByKey) ∈ group SeenRow.h (seen intl chain txByKey) := by
    refine mem_group.2 ⟨?_, rfl⟩
    obtain ⟨hseen, hhash⟩ := mem_rowsOf.1 (hsub s List.mem_cons_self)
    exact List.mem_map.2 ⟨s, hseen, hhash⟩
  refine List.perm_singleton.1 (((perm_sort _ _).filter _).trans (List.Perm.of_eq ?_))
  refine (filter_filterMap_of_nodup (k := T.hash) (nodup_group SeenRow.h (seen intl chain txByKey)) ?_ hgroup rfl).trans ?_
  · intro e he b hb
    obtain ⟨firsts, hfirsts, -, hsub, -⟩ := firstRows_spec e.2
    cases firsts with
    | nil => simp [hfirsts] at hb
    | cons s firsts =>
      simp only [hfirsts, List.map_cons, Option.some.injEq] at hb
      have hs := hsub s List.mem_cons_self
      rw [(mem_group.1 he).2, List.mem_filter, decide_eq_true_eq] at hs
      rw [decide_eq_true_eq, ← hb, netAccountTx_hash, ← (seen_spec hs.1).2, hs.2]
  · simp only [hfirsts, List.map_cons, Option.toList_some]

/-! ## In any order -/

/-- The same entries in some order, each with the same rows in some order. -/
def Reordered (txByKey txByKey' : TxByKey) : Prop :=
  ∃ m, txByKey.Perm m ∧ List.Forall₂ (fun e e' => e.1 = e'.1 ∧ (e.2.getD []).Perm (e'.2.getD [])) m txByKey'

theorem Reordered.addressRows {txByKey' : TxByKey} (h : Reordered txByKey txByKey') :
    ∃ m, (addressRows intl chain txByKey).Perm m ∧
      List.Forall₂ (fun e e' => e.1 = e'.1 ∧ e.2.Perm e'.2) m (addressRows intl chain txByKey') := by
  obtain ⟨m, hperm, hall⟩ := h
  refine ⟨Utxo.addressRows intl chain m, (hperm.filter _).map _, ?_⟩
  clear hperm
  unfold Utxo.addressRows
  induction hall with
  | nil => exact .nil
  | @cons e e' m m' he _ ih =>
    rw [List.filter_cons, List.filter_cons, ← he.1]
    by_cases hkey : e.1.startsWith (chain ++ ":") = true
    · rw [if_pos hkey, if_pos hkey, List.map_cons, List.map_cons, ← he.1]
      exact .cons ⟨rfl, he.2⟩ ih
    · rw [if_neg hkey, if_neg hkey]
      exact ih

theorem Reordered.seen {txByKey' : TxByKey} (h : Reordered txByKey txByKey') :
    (Utxo.seen intl chain txByKey).Perm (Utxo.seen intl chain txByKey') := by
  obtain ⟨m, hperm, hall⟩ := @Reordered.addressRows intl chain txByKey txByKey' h
  refine (hperm.flatMap_right _).trans ?_
  clear hperm
  unfold Utxo.seen
  generalize Utxo.addressRows intl chain txByKey' = m' at hall
  induction hall with
  | nil => exact .nil
  | @cons e e' m m' he _ ih =>
    rw [List.flatMap_cons, List.flatMap_cons, he.1]
    exact (he.2.map _).append ih

theorem Reordered.ownKeys {txByKey' : TxByKey} (h : Reordered txByKey txByKey') :
    (Utxo.ownKeys intl chain txByKey).Perm (Utxo.ownKeys intl chain txByKey') := by
  obtain ⟨m, hperm, hall⟩ := @Reordered.addressRows intl chain txByKey txByKey' h
  refine (hperm.map _).trans ?_
  clear hperm
  unfold Utxo.ownKeys
  generalize Utxo.addressRows intl chain txByKey' = m' at hall
  induction hall with
  | nil => exact .nil
  | cons he _ ih =>
    rw [List.map_cons, List.map_cons, he.1]
    exact ih.cons _

theorem Describes.reordered {txByKey' : TxByKey} (h : Describes intl chain T txByKey) (hr : Reordered txByKey txByKey') :
    Describes intl chain T txByKey' := by
  have hmem {s : SeenRow} : s ∈ seen intl chain txByKey ↔ s ∈ seen intl chain txByKey' := hr.seen.mem_iff
  refine ⟨fun s hs => h.row s (hmem.2 hs), fun addr haddr hparty => ?_, fun s s' hs hs' =>
    h.repeats s s' (hmem.2 hs) (hmem.2 hs')⟩
  obtain ⟨s, hs, hrest⟩ := h.touched addr (hr.ownKeys.mem_iff.2 haddr) hparty
  exact ⟨s, hmem.1 hs, hrest⟩

theorem toldOf_perm {rows rows' : List SeenRow} (h : rows.Perm rows') : toldOf rows = toldOf rows' := by
  have hany (p : SeenRow → Bool) : rows.any p = rows'.any p := by
    rw [Bool.eq_iff_iff, List.any_eq_true, List.any_eq_true]
    simp only [h.mem_iff]
  simp only [toldOf, hany]

theorem isOwn_perm {own own' : List String} (h : own.Perm own') : isOwn intl chain own = isOwn intl chain own' := by
  funext a
  simp only [isOwn, List.contains_eq_mem, h.mem_iff]

/-! ## What is promised -/

/-- The account's row of a transaction: what it nets, and where the account paid the fee, what others got. -/
structure RowLaw (intl : Intl) (chain : String) (T : Transfer) (own : List String) (told : Told) (r : ChainTx) : Prop where
  netSat : r.rowMeta.netSat = some (toNumber (T.net intl chain own))
  exact' : (T.net intl chain own).natAbs ≤ 2 ^ 53 → toNumber (T.net intl chain own) = T.net intl chain own
  pending : told.pending = true → r.direction = .pending
  settled : told.pending = false → r.rowMeta.netDirection = some r.direction
  incoming : r.rowMeta.netDirection = some .in' → 0 < T.net intl chain own
  funded : (∀ e ∈ T.inputs, isOwn intl chain own e.1 = true) → told.inputs = true → told.fee = true →
    r.amount = formatSat (T.foreign intl chain own) ∧
      r.rowMeta.netDirection = some (if 0 < T.foreign intl chain own then .out else .self) ∧
      r.fee = if T.net intl chain own = 0 then none else some (formatSat T.fee)
  counterparty (c : String) : r.counterparty = some c → isOwn intl chain own c = false

theorem split_in {net : Int} {fee : Option Nat} {sole : Option Bool} (h : (split net fee sole).direction = .in') : 0 < net := by
  unfold split at h
  split at h
  · simp only at h
    split at h <;> cases h
  · simp only at h
    by_contra hnet
    rw [if_neg hnet] at h
    split at h <;> cases h

theorem part_all {p : String → Bool} {l : List (String × Nat)} (h : ∀ e ∈ l, p e.1 = true) : part p l = total l := by
  rw [part, List.filter_eq_self.2 h]

theorem expected_funded {own : List String} {told : Told} (hown : ∀ e ∈ T.inputs, isOwn intl chain own e.1 = true)
    (hfee : told.fee = true) (hpos : 0 ≤ T.fee) : expected intl chain T own told =
      if T.net intl chain own = 0 then ⟨.self, 0, none⟩
      else ⟨if 0 < T.foreign intl chain own then .out else .self, T.foreign intl chain own, some T.fee.toNat⟩ := by
  have hin := part_all hown
  have hout := part_add_part_not (isOwn intl chain own) T.outputs
  have hbalance : -T.net intl chain own = T.fee + T.foreign intl chain own := by
    simp only [Transfer.net, Transfer.fee, Transfer.foreign, hin]
    omega
  have hsole : (if told.inputs = true ∧ T.inputs ≠ [] then some (T.inputs.all fun e => isOwn intl chain own e.1) else none) ≠
      some false := by
    split
    · rw [List.all_eq_true.2 hown]
      simp
    · simp
  rw [expected, if_pos hfee, split]
  by_cases hnet : T.net intl chain own = 0
  · rw [if_pos hnet, Option.filter_some, if_neg (by simp [hnet])]
    simp [hnet]
  · have hneg : T.net intl chain own < 0 := by omega
    rw [if_neg hnet, Option.filter_some, if_pos (by simpa [hneg, hsole] using by omega)]
    have hamount : -T.net intl chain own - (T.fee.toNat : Int) = T.foreign intl chain own := by omega
    simp only [hamount, Netted.mk.injEq, and_true]
    by_cases hforeign : 0 < T.foreign intl chain own
    · rw [if_pos hforeign, if_pos (by omega)]
    · rw [if_neg hforeign, if_neg (by omega)]

/-- What the history says of a transaction. -/
structure HistoryLaw (intl : Intl) (chain : String) (T : Transfer) (txByKey : TxByKey) : Prop where
  one : ∃ r, (accountTxHistory intl chain txByKey).filter (fun r => intl.toLowerCase r.hash = T.hash) = [r] ∧
    RowLaw intl chain T (ownKeys intl chain txByKey) (toldOf (rowsOf intl chain T txByKey)) r
  order (txByKey' : TxByKey) (r r' : ChainTx) : Reordered txByKey txByKey' →
    r ∈ accountTxHistory intl chain txByKey → intl.toLowerCase r.hash = T.hash →
    r' ∈ accountTxHistory intl chain txByKey' → intl.toLowerCase r'.hash = T.hash →
    r.direction = r'.direction ∧ r.rowMeta.netDirection = r'.rowMeta.netDirection ∧ r.amount = r'.amount ∧
      r.fee = r'.fee ∧ r.rowMeta.netSat = r'.rowMeta.netSat

theorem Nets.law {own : List String} {rows : List SeenRow} {r : ChainTx} (h : Nets intl chain T own (toldOf rows) r)
    (hrows : ∀ s ∈ rows, RowOf intl chain T s.addr s.tx) : RowLaw intl chain T own (toldOf rows) r := by
  refine ⟨h.netSat, toNumber_eq, fun hpending => ?_, fun hsettled => ?_, fun hin => ?_, fun hown _ hfee => ?_,
    h.counterparty⟩
  · rw [h.direction, if_pos hpending]
  · rw [h.direction, hsettled, h.netDirection]
    rfl
  · rw [h.netDirection, Option.some.injEq] at hin
    exact split_in hin
  · have hpos : 0 ≤ T.fee := by
      obtain ⟨s, hs, hsome⟩ := List.any_eq_true.1 hfee
      obtain ⟨n, hn⟩ := Option.isSome_iff_exists.1 hsome
      have hT := (hrows s hs).rowFeeSat_eq hn
      omega
    have hexpected := expected_funded hown hfee hpos
    rw [h.amount, h.netDirection, h.fee, hexpected]
    by_cases hnet : T.net intl chain own = 0
    · have hforeign : T.foreign intl chain own = 0 := by
        have hin := part_all hown
        have hout := part_add_part_not (isOwn intl chain own) T.outputs
        simp only [Transfer.net, Transfer.fee, Transfer.foreign, hin] at hnet hpos ⊢
        omega
      simp [hnet, hforeign]
    · simp [hnet, Int.toNat_of_nonneg hpos]

/-- The account's history has one row for each transaction of the account, and it nets what the account got and gave. -/
theorem account_history_nets (intl : Intl) (chain : String) (T : Transfer) (txByKey : TxByKey)
    (h : Describes intl chain T txByKey) (htouched : ∃ addr ∈ ownKeys intl chain txByKey, some addr ∈ T.parties intl chain) :
    HistoryLaw intl chain T txByKey := by
  obtain ⟨addr, hown, hparty⟩ := htouched
  obtain ⟨s, hs, hhash, -⟩ := h.touched addr hown hparty
  have hmem := mem_rowsOf.2 ⟨hs, hhash⟩
  obtain ⟨r, hone, hnets⟩ := accountTxHistory_spec h (List.ne_nil_of_mem hmem)
  have hrow : ∀ s ∈ rowsOf intl chain T txByKey, RowOf intl chain T s.addr s.tx := fun s hs =>
    h.row s (mem_rowsOf.1 hs).1 (mem_rowsOf.1 hs).2
  refine ⟨⟨r, hone, hnets.law hrow⟩, fun txByKey' r₁ r₂ hr hr₁ hh₁ hr₂ hh₂ => ?_⟩
  obtain ⟨r', hone', hnets'⟩ := accountTxHistory_spec (h.reordered hr)
    (List.ne_nil_of_mem (mem_rowsOf.2 ⟨hr.seen.mem_iff.1 hs, hhash⟩))
  have hsame {l : List ChainTx} {a b : ChainTx} (hl : l.filter (fun r => intl.toLowerCase r.hash = T.hash) = [b]) (ha : a ∈ l)
      (hh : intl.toLowerCase a.hash = T.hash) : a = b := by
    have hin : a ∈ l.filter fun r => intl.toLowerCase r.hash = T.hash := List.mem_filter.2 ⟨ha, by simpa using hh⟩
    rw [hl] at hin
    exact List.mem_singleton.1 hin
  rw [hsame hone hr₁ hh₁, hsame hone' hr₂ hh₂]
  have htold : toldOf (rowsOf intl chain T txByKey') = toldOf (rowsOf intl chain T txByKey) :=
    (toldOf_perm (hr.seen.filter _)).symm
  have hnet : T.net intl chain (ownKeys intl chain txByKey') = T.net intl chain (ownKeys intl chain txByKey) := by
    simp only [Transfer.net, isOwn_perm hr.ownKeys]
  have hexpected : expected intl chain T (ownKeys intl chain txByKey') (toldOf (rowsOf intl chain T txByKey')) =
      expected intl chain T (ownKeys intl chain txByKey) (toldOf (rowsOf intl chain T txByKey)) := by
    simp only [expected, hnet, htold, isOwn_perm hr.ownKeys]
  rw [hnets.direction, hnets'.direction, hnets.netDirection, hnets'.netDirection, hnets.amount, hnets'.amount, hnets.fee,
    hnets'.fee, hnets.netSat, hnets'.netSat, hexpected, htold, hnet]
  exact ⟨rfl, rfl, rfl, rfl, rfl⟩

end

/-! ## Samples -/

section

variable (intl : Intl) (chain : String) (T : Transfer)

/-- A row that is correct with its lists in the transaction's order. -/
def rowCheck (addr : String) (r : ChainTx) : Bool :=
  let names (listed : List (Option String)) (l : List (String × Nat)) :=
    listed.map (fun a => party intl chain (a.getD "")) == l.map fun e => party intl chain e.1
  r.rowMeta.netSat == some (T.netAt intl chain addr : Rat) && (T.netAt intl chain addr).natAbs < 2 ^ 53 &&
    r.rowMeta.feeSat.all (· == (T.fee : Rat)) &&
    (r.fee.bind fun s => decimalToAtomic s DECIMALS).all (fun n => (n : Int) == T.fee) &&
    r.rowMeta.inputs.all (names · T.inputs) && r.rowMeta.outputs.all (names · T.outputs)

def describesCheck (txByKey : TxByKey) : Bool :=
  let rows := rowsOf intl chain T txByKey
  rows.all (fun s => rowCheck intl chain T s.addr s.tx) &&
    (ownKeys intl chain txByKey).all (fun addr =>
      !(T.parties intl chain).contains (some addr) || rows.any fun s => s.addr == addr) &&
    rows.all fun s => rows.all fun s' => s.addr != s'.addr || ((rowFeeSat s.tx).isSome == (rowFeeSat s'.tx).isSome &&
      s.tx.rowMeta.inputs.isSome == s'.tx.rowMeta.inputs.isSome &&
      (s.tx.direction == .pending) == (s'.tx.direction == .pending))

variable {intl chain T}

theorem rowOf_of_check {addr : String} {r : ChainTx} (h : rowCheck intl chain T addr r = true) : RowOf intl chain T addr r := by
  simp only [rowCheck, Bool.and_eq_true, beq_iff_eq, decide_eq_true_eq] at h
  obtain ⟨⟨⟨⟨⟨hnet, hsafe⟩, hfeeSat⟩, hfee⟩, hinputs⟩, houtputs⟩ := h
  refine ⟨hnet, hsafe, fun f hf => ?_, fun s n hs hn => ?_, fun l hl p => ?_, fun l hl p => ?_⟩
  · rw [hf] at hfeeSat
    simpa using hfeeSat
  · rw [hs, Option.bind_some, hn] at hfee
    simpa using hfee
  · rw [hl] at hinputs
    rw [beq_iff_eq.1 hinputs]
  · rw [hl] at houtputs
    rw [beq_iff_eq.1 houtputs]

theorem describes_of_check {txByKey : TxByKey} (h : describesCheck intl chain T txByKey = true) :
    Describes intl chain T txByKey := by
  simp only [describesCheck, Bool.and_eq_true, List.all_eq_true] at h
  obtain ⟨⟨hrow, htouched⟩, hrepeats⟩ := h
  refine ⟨fun s hs hh => rowOf_of_check (hrow s (mem_rowsOf.2 ⟨hs, hh⟩)), fun addr haddr hparty => ?_,
    fun s s' hs hs' hh hh' haddr => ?_⟩
  · have hany := htouched addr haddr
    rw [List.contains_eq_mem, decide_eq_true hparty, Bool.not_true, Bool.false_or, List.any_eq_true] at hany
    obtain ⟨s, hs, hsaddr⟩ := hany
    exact ⟨s, (mem_rowsOf.1 hs).1, (mem_rowsOf.1 hs).2, by simpa using hsaddr⟩
  · have hsame := hrepeats s (mem_rowsOf.2 ⟨hs, hh⟩) s' (mem_rowsOf.2 ⟨hs', hh'⟩)
    simp only [haddr, bne_self_eq_false, Bool.false_or, Bool.and_eq_true, beq_iff_eq] at hsame
    exact ⟨hsame.1.1, hsame.1.2, hsame.2⟩

end

/-- A payment with change: `A` pays `X` and gives the change to `B`. -/
def sampleTransfer : Transfer := ⟨"ab", [("A", 432888299)], [("X", 30000000), ("B", 402888049)]⟩

def sampleRow (netSat : Int) (feeSat : Option Rat) (direction : TxDirection) : ChainTx where
  chain := "litecoin"
  hash := "AB"
  direction := direction
  amount := "1"
  rowMeta := { netSat := some netSat, feeSat := feeSat, inputs := some [some "A"], outputs := some [some "X", some "B"] }

/-- Both addresses' rows, the second one twice. -/
def sampleHistory (feeSat : Option Rat) (direction : TxDirection) : TxByKey :=
  [("litecoin:B", some [sampleRow 402888049 feeSat direction]), ("litecoin:C", none),
    ("litecoin:A", some [sampleRow (-432888299) feeSat direction, sampleRow (-432888299) feeSat direction])]

theorem account_history_nets_sample : HistoryLaw .ascii "litecoin" sampleTransfer (sampleHistory (some 250) .in') :=
  account_history_nets .ascii "litecoin" sampleTransfer (sampleHistory (some 250) .in')
    (describes_of_check (by decide +kernel)) ⟨"A", by decide +kernel, by decide +kernel⟩

/-- `A` gives all to itself, without a fee. -/
def selfTransfer : Transfer := ⟨"ab", [("A", 5)], [("A", 5)]⟩

def selfHistory : TxByKey :=
  [("litecoin:A", some [{ sampleRow 0 (some 0) .self with
    rowMeta := { netSat := some 0, feeSat := some 0, inputs := some [some "A"], outputs := some [some "A"] } }])]

/-- Three addresses get amounts whose sum is no double. -/
def largeTransfer : Transfer := ⟨"ab", [("", 2 ^ 55)], [("A", 2 ^ 53 - 1), ("B", 2 ^ 53 - 1), ("C", 2 ^ 53 - 1)]⟩

def largeHistory : TxByKey :=
  ["A", "B", "C"].map fun addr => ("litecoin:" ++ addr, some [{ sampleRow 0 none .in' with
    rowMeta := { netSat := some (2 ^ 53 - 1) } }])

/-- Two rows of `A`, of which one tells the fee. -/
def mixedHistory (feeSat feeSat' : Option Rat) : TxByKey :=
  [("litecoin:B", some [sampleRow 402888049 none .in']),
    ("litecoin:A", some [sampleRow (-432888299) feeSat .out, sampleRow (-432888299) feeSat' .out])]

/-- A transaction in the mempool is not `out`; without a fee in its rows, or where nothing leaves the account, it has
no fee; a sum beyond 2^53 is rounded; and of rows for one address that tell different things the first one counts. -/
theorem not_always_split_out :
    (Describes .ascii "litecoin" sampleTransfer (sampleHistory (some 250) .pending) ∧
      (accountTxHistory .ascii "litecoin" (sampleHistory (some 250) .pending)).map ChainTx.direction = [.pending]) ∧
    (Describes .ascii "litecoin" sampleTransfer (sampleHistory none .in') ∧
      (accountTxHistory .ascii "litecoin" (sampleHistory none .in')).map (fun r => (r.amount, r.fee)) =
        [("0.30000250", none)]) ∧
    (Describes .ascii "litecoin" selfTransfer selfHistory ∧
      (accountTxHistory .ascii "litecoin" selfHistory).map ChainTx.fee = [none]) ∧
    (Describes .ascii "litecoin" largeTransfer largeHistory ∧
      largeTransfer.net .ascii "litecoin" (ownKeys .ascii "litecoin" largeHistory) = 3 * (2 ^ 53 - 1) ∧
      (accountTxHistory .ascii "litecoin" largeHistory).map (fun r => r.rowMeta.netSat) = [some (3 * (2 ^ 53 - 1) - 1)]) ∧
    (∀ s ∈ rowsOf .ascii "litecoin" sampleTransfer (mixedHistory none (some 250)),
        RowOf .ascii "litecoin" sampleTransfer s.addr s.tx) ∧
      Reordered (mixedHistory none (some 250)) (mixedHistory (some 250) none) ∧
      (accountTxHistory .ascii "litecoin" (mixedHistory none (some 250))).map ChainTx.amount = ["0.30000250"] ∧
      (accountTxHistory .ascii "litecoin" (mixedHistory (some 250) none)).map ChainTx.amount = ["0.30000000"] :=
  ⟨⟨describes_of_check (by decide +kernel), by decide +kernel⟩, ⟨describes_of_check (by decide +kernel), by decide +kernel⟩,
    ⟨describes_of_check (by decide +kernel), by decide +kernel⟩,
    ⟨describes_of_check (by decide +kernel), by decide +kernel, by decide +kernel⟩,
    fun s hs => rowOf_of_check (List.all_eq_true.1 (by decide +kernel : (rowsOf .ascii "litecoin" sampleTransfer
      (mixedHistory none (some 250))).all (fun s => rowCheck .ascii "litecoin" sampleTransfer s.addr s.tx) = true) s hs),
    ⟨_, .refl _, .cons ⟨rfl, .refl _⟩ (.cons ⟨rfl, .swap _ _ _⟩ .nil)⟩, by decide +kernel, by decide +kernel⟩

end Utxo
