import PwndaWallet.Utxo.Scan
import Mathlib.Algebra.BigOperators.Group.List.Basic
import Mathlib.Order.Bounds.Basic
import PwndaWallet.Utxo.ScanSound

/-!
# What a stock restore would miss

`wallets/utxo-account.ts`: `analyzeRecoveryRisk` and `assessGapHeadroom`, over the entries of a scan.
-/

namespace Utxo

open Js

def STANDARD_GAP_LIMIT : Nat := 20

structure RecoveryRisk where
  strandedSat : Int
  strandedEntries : List UtxoAddressEntry
  requiredGapLimit : Int
deriving DecidableEq, Repr

def indexLe (a b : UtxoAddressEntry) : Bool := a.index ≤ b.index

def onChain (entries : List UtxoAddressEntry) (c : UtxoChainIndex) : List UtxoAddressEntry :=
  sort indexLe (entries.filter (·.chainIndex == c))

/-- The first loop over a chain: the last touched index before the gap is too wide. -/
def lastReached (limit : Nat) : Int → List UtxoAddressEntry → Int
  | last, [] => last
  | last, e :: rest =>
    if e.touched = false then lastReached limit last rest
    else if e.index > last + limit then last
    else lastReached limit e.index rest

/-- What one chain strands, and the limit that its loop leaves. -/
def chainRisk (limit : Nat) (chain : List UtxoAddressEntry) (required : Int) : List UtxoAddressEntry × Int :=
  let lastUsed := lastReached limit (-1) chain
  let stopAt := lastUsed + 1 + limit
  let stranded := chain.filter fun e => e.balanceSat > 0 ∧ (e.index : Int) ≥ stopAt
  (stranded, stranded.foldl (fun r e => max r (e.index - lastUsed)) required)

def analyzeRecoveryRisk (entries : List UtxoAddressEntry) (standardGapLimit : Nat) : RecoveryRisk :=
  let receive := chainRisk standardGapLimit (onChain entries .receive) standardGapLimit
  let change := chainRisk standardGapLimit (onChain entries .change) receive.2
  let stranded := receive.1 ++ change.1
  { strandedSat := stranded.foldl (fun s e => s + e.balanceSat) 0
    strandedEntries := stranded
    requiredGapLimit := change.2 }

inductive GapState where
  | ok | approaching | stranded
deriving DecidableEq, Repr

structure GapHeadroom where
  state : GapState
  widestGap : Int
  headroom : Int
  chainIndex : Option UtxoChainIndex
deriving DecidableEq, Repr

structure HeadroomOpts where
  standardGapLimit : Option Nat := none
  warnWithin : Option Int := none

/-- The widest gap so far and its chain, after one gap more. -/
def widen (c : UtxoChainIndex) (w : Int × Option UtxoChainIndex) (gap : Int) : Int × Option UtxoChainIndex :=
  if gap > w.1 then (gap, some c) else w

/-- The gaps of a chain: before its first touched index, and between two. -/
def gapsOf (entries : List UtxoAddressEntry) (c : UtxoChainIndex) : List Int :=
  let used := (onChain entries c).filter (·.touched)
  match used with
  | [] => []
  | e :: rest => e.index :: List.zipWith (fun a b => (b.index : Int) - a.index - 1) used rest

def assessGapHeadroom (entries : List UtxoAddressEntry) (opts : HeadroomOpts) : GapHeadroom :=
  let limit := opts.standardGapLimit.getD STANDARD_GAP_LIMIT
  let warnWithin := opts.warnWithin.getD 5
  let w := (gapsOf entries .receive).foldl (widen .receive) (0, none)
  let w := (gapsOf entries .change).foldl (widen .change) w
  let headroom := limit - w.1
  let alreadyStranded := (analyzeRecoveryRisk entries limit).strandedSat > 0
  { state := if alreadyStranded then .stranded else if headroom ≤ warnWithin then .approaching else .ok
    widestGap := w.1
    headroom
    chainIndex := w.2 }

/-!
## What is stranded

The entries that are reported are those that a walk with the limit does not come to. The limit that is
reported is the distance to the farthest of them; a walk stops at each touched entry on its way, so the least
limit is the widest gap between two neighbours. Both are the same exactly if no stranded entry is farther
than that gap.
-/

/-! ## Gaps -/

/-- `p` and `q` are touched, and no index between; `-1` counts as touched. -/
structure Gap (touched : Nat → Bool) (p : Int) (q : Nat) : Prop where
  first : p = -1 ∨ ∃ k : Nat, p = k ∧ touched k = true
  second : touched q = true
  lt : p < q
  between (k : Nat) : p < k → k < q → touched k = false

variable {touched : Nat → Bool} {limit : Nat}

/-- The last touched index before `n`, or `-1`. -/
theorem exists_before (touched : Nat → Bool) (n : Nat) : ∃ p : Int, (p = -1 ∨ ∃ k : Nat, p = k ∧ touched k = true) ∧
    p < n ∧ ∀ k : Nat, p < k → k < n → touched k = false := by
  induction n with
  | zero => exact ⟨-1, .inl rfl, by omega, fun k _ hk => by omega⟩
  | succ n ih =>
    by_cases hn : touched n = true
    · exact ⟨n, .inr ⟨n, rfl, hn⟩, by omega, fun k hlow hhigh => by omega⟩
    · obtain ⟨p, hp, hlt, hbetween⟩ := ih
      refine ⟨p, hp, by omega, fun k hlow hhigh => ?_⟩
      by_cases hk : k = n
      · subst hk
        simpa using hn
      · exact hbetween k hlow (by omega)

/-- The next touched index from `j` on. -/
theorem exists_after {f : Nat} (hf : touched f = true) {j : Nat} (hj : j ≤ f) :
    ∃ q, j ≤ q ∧ q ≤ f ∧ touched q = true ∧ ∀ k, j ≤ k → k < q → touched k = false := by
  have hsome : ∃ k, j ≤ k ∧ touched k = true := ⟨f, hj, hf⟩
  have hspec := Nat.find_spec hsome
  refine ⟨Nat.find hsome, hspec.1, Nat.find_min' hsome ⟨hj, hf⟩, hspec.2, fun k hlow hhigh => ?_⟩
  have hmin := Nat.find_min hsome hhigh
  by_contra htouched
  exact hmin ⟨hlow, by simpa using htouched⟩

/-- A gap that ends behind a touched index starts there or behind it. -/
theorem Gap.le_of_touched {u p : Int} {q : Nat} (hgap : Gap touched p q)
    (hu : u = -1 ∨ ∃ k : Nat, u = k ∧ touched k = true) (hq : u < q) : u ≤ p := by
  by_contra hlt
  have hp : -1 ≤ p := by
    rcases hgap.first with rfl | ⟨k, rfl, -⟩ <;> omega
  rcases hu with rfl | ⟨f, rfl, hf⟩
  · omega
  · rw [hgap.between f (by omega) (by omega)] at hf
    cases hf

/-- The gap around an index. -/
theorem Gap.around {p : Int} {j q : Nat} (hp : p = -1 ∨ ∃ k : Nat, p = k ∧ touched k = true)
    (hq : touched q = true) (hlt : p < j) (hle : j ≤ q) (hbefore : ∀ k : Nat, p < k → k < j → touched k = false)
    (hafter : ∀ k, j ≤ k → k < q → touched k = false) : Gap touched p q where
  first := hp
  second := hq
  lt := by omega
  between k hpk hkq := by
    by_cases hkj : k < j
    · exact hbefore k hpk hkj
    · exact hafter k (by omega) hkq

/-- A walk comes to a touched index exactly if its limit covers each gap on the way. -/
theorem visits_iff_gaps {f : Nat} (hf : touched f = true) :
    Visits limit touched f ↔ ∀ p q, Gap touched p q → q ≤ f → q - p ≤ limit := by
  constructor
  · intro h p q hgap hq
    by_contra hwide
    have hp : -1 ≤ p := by
      rcases hgap.first with rfl | ⟨k, rfl, -⟩ <;> omega
    obtain ⟨k, hlow, hhigh, hk⟩ := h (p + 1).toNat (by omega)
    rw [hgap.between k (by omega) (by omega)] at hk
    cases hk
  · intro h j hj
    obtain ⟨p, hp, hlt, hbefore⟩ := exists_before touched j
    obtain ⟨q, hlow, hhigh, hq, hafter⟩ := exists_after hf (show j ≤ f by omega)
    have hgap : Gap touched p q := .around hp hq hlt hlow hbefore hafter
    have hwidth := h p q hgap hhigh
    exact ⟨q, hlow, by omega, hq⟩

/-- `u` is the last touched index that a walk comes to, or `-1`. -/
structure LastVisited (limit : Nat) (touched : Nat → Bool) (u : Int) : Prop where
  first : u = -1 ∨ ∃ k : Nat, u = k ∧ touched k = true
  gaps (p : Int) (q : Nat) : Gap touched p q → q ≤ u → q - p ≤ limit
  beyond (k : Nat) : touched k = true → u < k → u + limit < k

theorem LastVisited.ge {u : Int} (h : LastVisited limit touched u) : -1 ≤ u := by
  rcases h.first with rfl | ⟨k, rfl, -⟩ <;> omega

/-- The walk stops a limit behind it. -/
theorem LastVisited.visits_iff {u : Int} (h : LastVisited limit touched u) (i : Nat) :
    Visits limit touched i ↔ i ≤ u + limit := by
  have hge := h.ge
  constructor
  · intro hvisits
    by_contra hfar
    obtain ⟨k, hlow, hhigh, hk⟩ := hvisits (u + 1).toNat (by omega)
    have hbeyond := h.beyond k hk (by omega)
    omega
  · intro hi j hj
    rcases h.first with rfl | ⟨f, rfl, hf⟩
    · omega
    · obtain ⟨p, hp, hlt, hbefore⟩ := exists_before touched j
      obtain ⟨q, hlow, hhigh, hq, hafter⟩ := exists_after hf (show j ≤ f by omega)
      have hgap : Gap touched p q := .around hp hq hlt hlow hbefore hafter
      have hwidth := h.gaps p q hgap (by omega)
      exact ⟨q, hlow, by omega, hq⟩

/-- From the last touched index that a walk comes to, the next one is too far. -/
theorem LastVisited.unique {u v : Int} (hu : LastVisited limit touched u) (hv : LastVisited limit touched v) :
    u ≤ v := by
  by_contra hlt
  have hge := hv.ge
  rcases hu.first with rfl | ⟨f, rfl, hf⟩
  · omega
  · obtain ⟨q, hlow, hhigh, hq, hafter⟩ := exists_after hf (show (v + 1).toNat ≤ f by omega)
    have hgap : Gap touched v q := ⟨hv.first, hq, by omega, fun k hk hkq => hafter k (by omega) hkq⟩
    have hwidth := hu.gaps v q hgap (by omega)
    have hbeyond := hv.beyond q hq (by omega)
    omega

/-! ## The loop over a chain -/

/-- The touched indices of a chain, as the entries have them. -/
def touchedAt (entries : List UtxoAddressEntry) (c : UtxoChainIndex) (i : Nat) : Bool :=
  entries.any fun e => e.chainIndex == c && e.index == i && e.touched

theorem touchedAt_iff {entries : List UtxoAddressEntry} {c : UtxoChainIndex} {i : Nat} :
    touchedAt entries c i = true ↔ ∃ e ∈ onChain entries c, e.touched = true ∧ e.index = i := by
  simp only [touchedAt, onChain, List.any_eq_true, mem_sort, List.mem_filter, Bool.and_eq_true, beq_iff_eq]
  constructor
  · rintro ⟨e, he, ⟨hc, hi⟩, ht⟩
    exact ⟨e, ⟨he, hc⟩, ht, hi⟩
  · rintro ⟨e, ⟨he, hc⟩, ht, hi⟩
    exact ⟨e, he, ⟨hc, hi⟩, ht⟩

theorem onChain_sorted (entries : List UtxoAddressEntry) (c : UtxoChainIndex) :
    (onChain entries c).Pairwise fun a b => a.index ≤ b.index := by
  have h := @pairwise_sort _ indexLe (fun a b => by simp [indexLe]; omega)
    (fun a b c => by simp [indexLe]; omega) (entries.filter (·.chainIndex == c))
  simpa [indexLe, onChain] using h

/-- Where the loop is: the gaps up to `last` are covered, and what is touched behind it is still to come. -/
structure Walking (limit : Nat) (touched : Nat → Bool) (last : Int) (rest : List UtxoAddressEntry) : Prop where
  first : last = -1 ∨ ∃ k : Nat, last = k ∧ touched k = true
  gaps (p : Int) (q : Nat) : Gap touched p q → q ≤ last → q - p ≤ limit
  ahead (k : Nat) : touched k = true → last < k → ∃ e ∈ rest, e.touched = true ∧ e.index = k
  ge (e : UtxoAddressEntry) : e ∈ rest → last ≤ e.index
  sorted : rest.Pairwise fun a b => a.index ≤ b.index
  all (e : UtxoAddressEntry) : e ∈ rest → e.touched = true → touched e.index = true

theorem Walking.skip {last : Int} {e : UtxoAddressEntry} {rest : List UtxoAddressEntry}
    (h : Walking limit touched last (e :: rest)) (he : e.touched = false) : Walking limit touched last rest where
  first := h.first
  gaps := h.gaps
  ahead k hk hlt := by
    obtain ⟨e', he', ht, hi⟩ := h.ahead k hk hlt
    rcases List.mem_cons.1 he' with rfl | he'
    · rw [he] at ht
      cases ht
    · exact ⟨e', he', ht, hi⟩
  ge e' he' := h.ge e' (List.mem_cons_of_mem _ he')
  sorted := h.sorted.tail
  all e' he' := h.all e' (List.mem_cons_of_mem _ he')

/-- Nothing touched stands between `last` and the next touched entry. -/
theorem Walking.next_le {last : Int} {e : UtxoAddressEntry} {rest : List UtxoAddressEntry}
    (h : Walking limit touched last (e :: rest)) {k : Nat} (hk : touched k = true) (hlt : last < k) :
    e.index ≤ k := by
  obtain ⟨e', he', -, rfl⟩ := h.ahead k hk hlt
  rcases List.mem_cons.1 he' with rfl | he'
  · exact Nat.le_refl _
  · exact (List.pairwise_cons.1 h.sorted).1 e' he'

theorem Walking.step {last : Int} {e : UtxoAddressEntry} {rest : List UtxoAddressEntry}
    (h : Walking limit touched last (e :: rest)) (he : e.touched = true) (hnear : ¬ e.index > last + limit) :
    Walking limit touched e.index rest where
  first := .inr ⟨e.index, rfl, h.all e List.mem_cons_self he⟩
  gaps p q hgap hq := by
    by_cases hlast : (q : Int) ≤ last
    · exact h.gaps p q hgap hlast
    · have hnext := h.next_le hgap.second (by omega)
      have hfrom := hgap.le_of_touched h.first (by omega)
      omega
  ahead k hk hlt := by
    have hlast := h.ge e List.mem_cons_self
    obtain ⟨e', he', ht, hi⟩ := h.ahead k hk (by omega)
    rcases List.mem_cons.1 he' with rfl | he'
    · omega
    · exact ⟨e', he', ht, hi⟩
  ge e' he' := by
    have hle := (List.pairwise_cons.1 h.sorted).1 e' he'
    omega
  sorted := h.sorted.tail
  all e' he' := h.all e' (List.mem_cons_of_mem _ he')

theorem Walking.lastReached {last : Int} {rest : List UtxoAddressEntry} (h : Walking limit touched last rest) :
    LastVisited limit touched (lastReached limit last rest) := by
  induction rest generalizing last with
  | nil =>
    refine ⟨h.first, h.gaps, fun k hk hlt => ?_⟩
    obtain ⟨e, he, -⟩ := h.ahead k hk hlt
    cases he
  | cons e rest ih =>
    rw [Utxo.lastReached]
    by_cases he : e.touched = false
    · rw [if_pos he]
      exact ih (h.skip he)
    · rw [if_neg he]
      have ht : e.touched = true := by simpa using he
      by_cases hfar : e.index > last + limit
      · rw [if_pos hfar]
        refine ⟨h.first, h.gaps, fun k hk hlt => ?_⟩
        have hnext := h.next_le hk hlt
        omega
      · rw [if_neg hfar]
        exact ih (h.step ht hfar)

theorem walking_onChain (limit : Nat) (entries : List UtxoAddressEntry) (c : UtxoChainIndex) :
    Walking limit (touchedAt entries c) (-1) (onChain entries c) where
  first := .inl rfl
  gaps p q _ hq := by omega
  ahead k hk _ := touchedAt_iff.1 hk
  ge e _ := by omega
  sorted := onChain_sorted entries c
  all e he ht := touchedAt_iff.2 ⟨e, he, ht, rfl⟩

theorem lastVisited_onChain (limit : Nat) (entries : List UtxoAddressEntry) (c : UtxoChainIndex) :
    LastVisited limit (touchedAt entries c) (lastReached limit (-1) (onChain entries c)) :=
  (walking_onChain limit entries c).lastReached

/-! ## The report -/

/-- A funded entry that a walk with the limit does not come to. -/
def Misses (limit : Nat) (entries : List UtxoAddressEntry) (e : UtxoAddressEntry) : Prop :=
  e.balanceSat > 0 ∧ ¬ Visits limit (touchedAt entries e.chainIndex) e.index

/-- A walk with the limit comes to each funded entry. -/
def FindsAll (entries : List UtxoAddressEntry) (limit : Nat) : Prop :=
  ∀ e ∈ entries, e.balanceSat > 0 → Visits limit (touchedAt entries e.chainIndex) e.index

theorem funded_touched {entries : List UtxoAddressEntry} {e : UtxoAddressEntry} (he : e ∈ entries)
    (hfunded : e.balanceSat > 0) : touchedAt entries e.chainIndex e.index = true :=
  touchedAt_iff.2 ⟨e, by simp [onChain, he], by simp [UtxoAddressEntry.touched, hfunded], rfl⟩

theorem mem_chainRisk {entries : List UtxoAddressEntry} {c : UtxoChainIndex} {r : Int} {e : UtxoAddressEntry} :
    e ∈ (chainRisk limit (onChain entries c) r).1 ↔ e ∈ entries ∧ e.chainIndex = c ∧ Misses limit entries e := by
  have hlast := lastVisited_onChain limit entries c
  have hmem : e ∈ onChain entries c ↔ e ∈ entries ∧ e.chainIndex = c := by simp [onChain]
  have hstop : Misses limit entries e ∧ e.chainIndex = c ↔ (e.balanceSat > 0 ∧
      (e.index : Int) ≥ lastReached limit (-1) (onChain entries c) + 1 + limit) ∧ e.chainIndex = c := by
    constructor
    · rintro ⟨⟨hfunded, hmissed⟩, rfl⟩
      refine ⟨⟨hfunded, ?_⟩, rfl⟩
      by_contra hnear
      exact hmissed ((hlast.visits_iff e.index).2 (by omega))
    · rintro ⟨⟨hfunded, hfar⟩, rfl⟩
      refine ⟨⟨hfunded, fun hvisits => ?_⟩, rfl⟩
      have hnear := (hlast.visits_iff e.index).1 hvisits
      omega
  rw [chainRisk, List.mem_filter, decide_eq_true_eq, hmem, and_comm (a := e.chainIndex = c), hstop]
  grind

/-- The distances are all covered, and the limit or one of them is reached. -/
theorem foldl_max (last : Int) (es : List UtxoAddressEntry) (r : Int) :
    let r' := es.foldl (fun r e => max r (e.index - last)) r
    r ≤ r' ∧ (∀ e ∈ es, e.index - last ≤ r') ∧ (r' = r ∨ ∃ e ∈ es, r' = e.index - last) := by
  induction es generalizing r with
  | nil => simp
  | cons e es ih =>
    obtain ⟨hge, hall, hone⟩ := ih (max r (e.index - last))
    simp only [List.foldl_cons]
    refine ⟨by omega, fun e' he' => ?_, ?_⟩
    · rcases List.mem_cons.1 he' with rfl | he'
      · omega
      · exact hall e' he'
    · rcases hone with hone | ⟨e', he', hone⟩
      · by_cases hmax : r ≤ e.index - last
        · exact .inr ⟨e, List.mem_cons_self, by omega⟩
        · exact .inl (by omega)
      · exact .inr ⟨e', List.mem_cons_of_mem _ he', hone⟩

/-- The limit that is reported: the largest of the given one and the distances of what is missed. -/
structure Farthest (limit : Nat) (entries : List UtxoAddressEntry) (r : Int) : Prop where
  ge : limit ≤ r
  covers (e : UtxoAddressEntry) (u : Int) : e ∈ entries → Misses limit entries e →
    LastVisited limit (touchedAt entries e.chainIndex) u → e.index - u ≤ r
  reached : r = limit ∨ ∃ e ∈ entries, Misses limit entries e ∧
    ∃ u, LastVisited limit (touchedAt entries e.chainIndex) u ∧ r = e.index - u

theorem chainRisk_required (entries : List UtxoAddressEntry) (c : UtxoChainIndex) (r : Int) :
    let r' := (chainRisk limit (onChain entries c) r).2
    r ≤ r' ∧
    (∀ e ∈ entries, e.chainIndex = c → Misses limit entries e → ∀ u,
      LastVisited limit (touchedAt entries e.chainIndex) u → e.index - u ≤ r') ∧
    (r' = r ∨ ∃ e ∈ entries, Misses limit entries e ∧
      ∃ u, LastVisited limit (touchedAt entries e.chainIndex) u ∧ r' = e.index - u) := by
  have hlast := lastVisited_onChain limit entries c
  obtain ⟨hge, hcovers, hreached⟩ := foldl_max (lastReached limit (-1) (onChain entries c))
    (chainRisk limit (onChain entries c) r).1 r
  refine ⟨hge, fun e he hc hmissed u hu => ?_, ?_⟩
  · have hcover := hcovers e (mem_chainRisk.2 ⟨he, hc, hmissed⟩)
    subst hc
    have hle := hlast.unique hu
    exact Int.le_trans (by omega) hcover
  · rcases hreached with hsame | ⟨e, he, hreached⟩
    · exact .inl hsame
    · obtain ⟨hmem, rfl, hmissed⟩ := mem_chainRisk.1 he
      exact .inr ⟨e, hmem, hmissed, _, hlast, hreached⟩

theorem farthest_requiredGapLimit (entries : List UtxoAddressEntry) (limit : Nat) :
    Farthest limit entries (analyzeRecoveryRisk entries limit).requiredGapLimit := by
  obtain ⟨hge, hcovers, hreached⟩ := @chainRisk_required limit entries .receive limit
  obtain ⟨hge', hcovers', hreached'⟩ := @chainRisk_required limit entries .change
    (chainRisk limit (onChain entries .receive) limit).2
  refine ⟨Int.le_trans hge hge', fun e u he hmissed hu => ?_, ?_⟩
  · cases hc : e.chainIndex with
    | receive => exact Int.le_trans (hcovers e he hc hmissed u hu) hge'
    | change => exact hcovers' e he hc hmissed u hu
  · rcases hreached' with hsame | hreached'
    · rw [← hsame] at hreached
      exact hreached
    · exact .inr hreached'

theorem strandedEntries_perm (entries : List UtxoAddressEntry) (limit : Nat) (p : UtxoAddressEntry → Bool)
    (hp : ∀ e, p e = true ↔ Misses limit entries e) :
    (analyzeRecoveryRisk entries limit).strandedEntries.Perm (entries.filter p) := by
  have hchain (c : UtxoChainIndex) (r : Int) : (chainRisk limit (onChain entries c) r).1.Perm
      ((entries.filter p).filter (·.chainIndex == c)) := by
    have heq : (chainRisk limit (onChain entries c) r).1 = (onChain entries c).filter p := by
      refine List.filter_congr fun e he => ?_
      have hmem : e ∈ (chainRisk limit (onChain entries c) r).1 ↔ Misses limit entries e := by
        have he : e ∈ entries ∧ e.chainIndex = c := by simpa [onChain] using he
        rw [mem_chainRisk]
        exact ⟨fun h => h.2.2, fun h => ⟨he.1, he.2, h⟩⟩
      rw [chainRisk, List.mem_filter, ← hp] at hmem
      exact Bool.eq_iff_iff.2 ⟨fun h => hmem.1 ⟨he, h⟩, fun h => (hmem.2 h).2⟩
    have hsort := (perm_sort indexLe (entries.filter (·.chainIndex == c))).filter p
    rw [heq, List.filter_filter]
    simpa only [onChain, List.filter_filter, Bool.and_comm] using hsort
  have hboth := List.filter_append_perm (fun e : UtxoAddressEntry => e.chainIndex == .receive) (entries.filter p)
  have hchange : (fun e : UtxoAddressEntry => e.chainIndex == .change) =
      fun e => !(e.chainIndex == .receive) := by
    funext e
    cases e.chainIndex <;> rfl
  refine ((hchain .receive limit).append (hchain .change _)).trans ?_
  rw [hchange]
  exact hboth

/-- A missed entry is not farther from where the walk stops than some gap on the way to a funded one is wide. -/
def WithinAGap (limit : Nat) (entries : List UtxoAddressEntry) : Prop :=
  ∀ e ∈ entries, Misses limit entries e → ∀ u, LastVisited limit (touchedAt entries e.chainIndex) u →
    ∃ f ∈ entries, f.balanceSat > 0 ∧ ∃ p q, Gap (touchedAt entries f.chainIndex) p q ∧ q ≤ f.index ∧
      e.index - u ≤ q - p

variable {entries : List UtxoAddressEntry}

theorem Farthest.findsAll {n : Nat} (h : Farthest limit entries n) : FindsAll entries n := by
  intro e he hfunded
  refine (visits_iff_gaps (funded_touched he hfunded)).2 fun p q hgap hq => ?_
  have hge := h.ge
  by_cases hvisits : Visits limit (touchedAt entries e.chainIndex) e.index
  · have hwidth := (visits_iff_gaps (funded_touched he hfunded)).1 hvisits p q hgap hq
    omega
  · have hu := lastVisited_onChain limit entries e.chainIndex
    have hcovers := h.covers e _ he ⟨hfunded, hvisits⟩ hu
    by_cases hreached : (q : Int) ≤ lastReached limit (-1) (onChain entries e.chainIndex)
    · have hwidth := hu.gaps p q hgap hreached
      omega
    · have hfrom := hgap.le_of_touched hu.first (by omega)
      omega

theorem Farthest.isLeast_iff {n : Nat} (h : Farthest limit entries n) :
    IsLeast {R | limit ≤ R ∧ FindsAll entries R} n ↔ WithinAGap limit entries := by
  have hge := h.ge
  constructor
  · intro hleast e he hmissed u hu
    by_contra hnarrow
    have hcovers := h.covers e u he hmissed hu
    have hfar : ¬ (e.index : Int) ≤ u + limit := fun hnear => hmissed.2 ((hu.visits_iff _).2 hnear)
    -- one less would do
    have hless : FindsAll entries (n - 1) := fun f hf hfunded => by
      refine (visits_iff_gaps (funded_touched hf hfunded)).2 fun p q hgap hq => ?_
      by_contra hwide
      exact hnarrow ⟨f, hf, hfunded, p, q, hgap, hq, by omega⟩
    have hle := hleast.2 ⟨by omega, hless⟩
    omega
  · intro hwithin
    refine ⟨⟨by omega, h.findsAll⟩, fun R ⟨hR, hall⟩ => ?_⟩
    rcases h.reached with hlimit | ⟨e, he, hmissed, u, hu, hfar⟩
    · omega
    · obtain ⟨f, hf, hfunded, p, q, hgap, hq, hwide⟩ := hwithin e he hmissed u hu
      have hwidth := (visits_iff_gaps (funded_touched hf hfunded)).1 (hall f hf hfunded) p q hgap hq
      omega

open Classical in
/-- What a stock restore with the limit misses. -/
noncomputable def missed (limit : Nat) (entries : List UtxoAddressEntry) : List UtxoAddressEntry :=
  entries.filter fun e => Misses limit entries e

/-- The report is what a walk with the limit would tell. -/
structure MatchesRestore (limit : Nat) (entries : List UtxoAddressEntry) : Prop where
  strandedEntries : (analyzeRecoveryRisk entries limit).strandedEntries.Perm (missed limit entries)
  strandedSat : (analyzeRecoveryRisk entries limit).strandedSat = ((missed limit entries).map (·.balanceSat)).sum
  requiredGapLimit : ∃ n : Nat, (analyzeRecoveryRisk entries limit).requiredGapLimit = n ∧
    IsLeast {R | limit ≤ R ∧ FindsAll entries R} n
  headroom (opts : HeadroomOpts) : opts.standardGapLimit.getD STANDARD_GAP_LIMIT = limit →
    ((assessGapHeadroom entries opts).state = .stranded ↔ (analyzeRecoveryRisk entries limit).strandedSat > 0)

theorem strandedEntries_missed (entries : List UtxoAddressEntry) (limit : Nat) :
    (analyzeRecoveryRisk entries limit).strandedEntries.Perm (missed limit entries) :=
  strandedEntries_perm entries limit _ fun e => by simp

theorem strandedSat_missed (entries : List UtxoAddressEntry) (limit : Nat) :
    (analyzeRecoveryRisk entries limit).strandedSat = ((missed limit entries).map (·.balanceSat)).sum := by
  have hperm := (strandedEntries_missed entries limit).map (·.balanceSat)
  have hsum : (analyzeRecoveryRisk entries limit).strandedSat =
      ((analyzeRecoveryRisk entries limit).strandedEntries.map (·.balanceSat)).sum := by
    simp [analyzeRecoveryRisk, foldl_sum]
  rw [hsum, hperm.sum_eq]

theorem state_stranded_iff (entries : List UtxoAddressEntry) (opts : HeadroomOpts) :
    (assessGapHeadroom entries opts).state = .stranded ↔
      (analyzeRecoveryRisk entries (opts.standardGapLimit.getD STANDARD_GAP_LIMIT)).strandedSat > 0 := by
  by_cases hstranded :
      (analyzeRecoveryRisk entries (opts.standardGapLimit.getD STANDARD_GAP_LIMIT)).strandedSat > 0
  · simp [assessGapHeadroom, hstranded]
  · simp only [assessGapHeadroom, hstranded, if_false, iff_false]
    split <;> simp

def touchedEntry (index : Nat) (balanceSat : Int) : UtxoAddressEntry :=
  { path := "m/84'/2'/0'/0/" ++ toString index, address := "ltc1q" ++ toString index, chainIndex := .receive
    index, balanceSat, used := true }

end Utxo
