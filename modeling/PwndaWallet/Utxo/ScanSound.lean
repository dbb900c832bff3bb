import Mathlib.Data.List.Perm.Basic
import PwndaWallet.Utxo.Scan

/-!
# The scan is complete and honest

A block is answered by its batch or address by address, in whatever order the workers come back, and its
entries are the same. The walk counts the untouched run across blocks, so a scan that calls itself complete
has seen a prefix of each chain that ends in one gap limit of untouched addresses, and all of it was
answered.
-/

namespace Utxo

open Js

variable {x : Explorer} {holds : UtxoChainIndex → Nat → UtxoAddressProbe}

/-- What comes back is what the addresses hold; a batch answer of another length is none. -/
structure Explorer.Honest (x : Explorer) (holds : UtxoChainIndex → Nat → UtxoAddressProbe) : Prop where
  probe (a : AccountAddress) (r : UtxoAddressProbe) : x.probe a = some r → r = holds a.chainIndex a.index
  probeMany (block : List AccountAddress) (rs : List UtxoAddressProbe) : x.probeMany block = some rs →
    rs.length = block.length → rs = block.map fun a => holds a.chainIndex a.index

/-- The entry of an address by what it holds. -/
def entryOf (holds : UtxoChainIndex → Nat → UtxoAddressProbe) (a : AccountAddress) : UtxoAddressEntry :=
  a.entry (holds a.chainIndex a.index)

/-! ## One by one -/

def answers (x : Explorer) (block : List AccountAddress) : List UtxoAddressEntry :=
  block.filterMap fun a => (x.probe a).map a.entry

theorem answers_append (block block' : List AccountAddress) :
    answers x (block ++ block') = answers x block ++ answers x block' := List.filterMap_append

theorem settle_entries (p : Probed) (a : AccountAddress) :
    (p.settle a (x.probe a)).entries = p.entries ++ answers x [a] := by
  cases h : x.probe a <;> simp [Probed.settle, answers, h]

theorem settle_complete (p : Probed) (a : AccountAddress) :
    (p.settle a (x.probe a)).complete = (p.complete && (x.probe a).isSome) := by
  cases h : x.probe a <;> simp [Probed.settle]

/-- However the workers come back, every address is asked, and what is answered is there. -/
theorem workers_spec {n : Nat} {turns : List Nat} {working rest : List AccountAddress} {p : Probed}
    (hn : n = working.length + rest.length) (hidle : working = [] → rest = []) :
    (workers x n turns working rest p).entries.Perm (p.entries ++ answers x (working ++ rest)) ∧
      (workers x n turns working rest p).complete =
        (p.complete && (working ++ rest).all fun a => (x.probe a).isSome) := by
  induction n generalizing turns working rest p with
  | zero =>
    obtain rfl : working = [] := List.length_eq_zero_iff.1 (by omega)
    obtain rfl := hidle rfl
    simp [workers, answers]
  | succ n ih =>
    have hpos : 0 < working.length := by
      by_contra hzero
      obtain rfl : working = [] := List.length_eq_zero_iff.1 (by omega)
      obtain rfl := hidle rfl
      simp at hn
    have hk : turns.headD 0 % working.length < working.length := Nat.mod_lt _ hpos
    simp only [workers, List.getElem?_eq_getElem hk]
    have hperm := List.getElem_cons_eraseIdx_perm hk
    have hsplit : working.eraseIdx (turns.headD 0 % working.length) ++ rest.take 1 ++ rest.drop 1 =
        working.eraseIdx (turns.headD 0 % working.length) ++ rest := by
      rw [List.append_assoc, List.take_append_drop]
    obtain ⟨hentries, hcomplete⟩ := @ih turns.tail
      (working.eraseIdx (turns.headD 0 % working.length) ++ rest.take 1) (rest.drop 1)
      (p.settle working[turns.headD 0 % working.length] (x.probe working[turns.headD 0 % working.length]))
      (by
        have hlen := List.length_eraseIdx_of_lt hk
        have hrest := congrArg List.length (List.take_append_drop 1 rest)
        rw [List.length_append] at hrest ⊢
        omega)
      (fun hnil => by
        have hrest := (List.append_eq_nil_iff.1 hnil).2
        cases rest with
        | nil => rfl
        | cons a rest => cases hrest)
    rw [hsplit] at hentries hcomplete
    refine ⟨hentries.trans ?_, hcomplete.trans ?_⟩
    · rw [settle_entries, List.append_assoc, ← answers_append]
      exact (List.Perm.filterMap _ (hperm.append_right rest)).append_left _
    · rw [settle_complete, Bool.and_assoc, ← (hperm.append_right rest).all_eq]
      rfl

theorem perAddress_spec (concurrency : Nat) (block : List AccountAddress) (p : Probed) :
    (perAddress x concurrency block p).entries.Perm (p.entries ++ answers x block) ∧
      (perAddress x concurrency block p).complete =
        (p.complete && block.all fun a => (x.probe a).isSome) := by
  have hlen := congrArg List.length (List.take_append_drop (max 1 (min concurrency block.length)) block)
  rw [List.length_append] at hlen
  have h := @workers_spec x block.length (x.settles block) (block.take (max 1 (min concurrency block.length)))
    (block.drop (max 1 (min concurrency block.length))) p hlen.symm (fun hnil => by
      cases block with
      | nil => simp
      | cons a block =>
        rcases List.take_eq_nil_iff.1 hnil with hzero | hblock
        · omega
        · cases hblock)
  rwa [List.take_append_drop] at h

/-! ## A block -/

/-- An address of a batch has got an answer: the batch has, or its own probe. -/
def Got (x : Explorer) (block : List AccountAddress) (a : AccountAddress) : Prop :=
  (batchResults x block).isSome ∨ (x.probe a).isSome

theorem answers_of_all (hx : x.Honest holds) {block : List AccountAddress}
    (h : (block.all fun a => (x.probe a).isSome) = true) : answers x block = block.map (entryOf holds) := by
  induction block with
  | nil => rfl
  | cons a block ih =>
    rw [List.all_cons, Bool.and_eq_true] at h
    obtain ⟨r, hr⟩ := Option.isSome_iff_exists.1 h.1
    have hrest := ih h.2
    rw [answers] at hrest ⊢
    rw [List.filterMap_cons, hr, hrest, hx.probe a r hr]
    rfl

theorem zipWith_entry (block : List AccountAddress) :
    List.zipWith AccountAddress.entry block (block.map fun a => holds a.chainIndex a.index) =
      block.map (entryOf holds) := by
  induction block with
  | nil => rfl
  | cons a block ih => simp only [List.map_cons, List.zipWith_cons_cons, ih, entryOf]

/-- A block that leaves the scan complete was answered, and its entries are there. -/
theorem probeBlock_spec (hx : x.Honest holds) {concurrency : Nat} {p : Probed} {block : List AccountAddress}
    (h : (probeBlock x concurrency p block).complete = true) :
    p.complete = true ∧ (∀ a ∈ block, Got x block a) ∧
      (probeBlock x concurrency p block).entries.Perm (p.entries ++ block.map (entryOf holds)) := by
  unfold probeBlock at h ⊢
  cases hbatch : batchResults x block with
  | some results =>
    rw [hbatch] at h
    obtain ⟨hmany, hlen⟩ := Option.filter_eq_some_iff.1 hbatch
    rw [hx.probeMany block results hmany (of_decide_eq_true hlen)]
    refine ⟨h, fun a _ => .inl (by rw [hbatch]; rfl), ?_⟩
    dsimp only
    rw [zipWith_entry]
  | none =>
    rw [hbatch] at h
    obtain ⟨hentries, hcomplete⟩ := @perAddress_spec x concurrency block p
    rw [hcomplete, Bool.and_eq_true] at h
    rw [answers_of_all hx h.2] at hentries
    exact ⟨h.1, fun a ha => .inr (List.all_eq_true.1 h.2 a ha), hentries⟩

theorem probeBlocks_spec (hx : x.Honest holds) {concurrency : Nat} {blocks : List (List AccountAddress)}
    {p : Probed} (h : (blocks.foldl (probeBlock x concurrency) p).complete = true) :
    p.complete = true ∧ (∀ block ∈ blocks, ∀ a ∈ block, Got x block a) ∧
      (blocks.foldl (probeBlock x concurrency) p).entries.Perm
        (p.entries ++ blocks.flatten.map (entryOf holds)) := by
  induction blocks generalizing p with
  | nil => exact ⟨h, fun block hb => absurd hb List.not_mem_nil, by simp⟩
  | cons block blocks ih =>
    rw [List.foldl_cons] at h ⊢
    obtain ⟨hfirst, hrest, hentries⟩ := ih h
    obtain ⟨hp, hblock, hperm⟩ := probeBlock_spec hx hfirst
    refine ⟨hp, fun b hb => ?_, hentries.trans ?_⟩
    · rcases List.mem_cons.1 hb with rfl | hb
      · exact hblock
      · exact hrest b hb
    · rw [List.flatten_cons, List.map_append, ← List.append_assoc]
      exact hperm.append_right _

theorem flatten_slices {α : Type} {size n : Nat} (hsize : 0 < size) {l : List α} (hn : l.length ≤ n) :
    (slices size n l).flatten = l := by
  induction n generalizing l with
  | zero =>
    obtain rfl := List.length_eq_zero_iff.1 (Nat.le_zero.1 hn)
    rfl
  | succ n ih =>
    cases l with
    | nil => rfl
    | cons a l =>
      have hdrop : ((a :: l).drop size).length ≤ n := by
        rw [List.length_drop]
        omega
      rw [slices, List.flatten_cons, ih hdrop, List.take_append_drop]

/-! ## The addresses -/

variable {Key : Type} {wallet : HdWallet Key} {spec : UtxoAccountSpec Key} {c : UtxoChainIndex}

theorem derive_spec {i n : Nat} {ds : List AccountAddress} (h : deriveUtxoAddresses wallet spec c i n = .ok ds) :
    ds.map (·.index) = List.range' i n ∧ ∀ a ∈ ds, a.chainIndex = c := by
  induction n generalizing i ds with
  | zero =>
    obtain rfl := Except.ok.inj h
    exact ⟨rfl, fun a ha => absurd ha List.not_mem_nil⟩
  | succ n ih =>
    rw [deriveUtxoAddresses] at h
    cases hnode : wallet.child spec.accountPath c i with
    | error e =>
      rw [hnode] at h
      cases h
    | ok node =>
      cases hrest : deriveUtxoAddresses wallet spec c (i + 1) n with
      | error e =>
        rw [hnode, hrest] at h
        cases h
      | ok rest =>
        rw [hnode, hrest] at h
        obtain rfl := Except.ok.inj h
        obtain ⟨hindex, hchain⟩ := ih hrest
        refine ⟨by rw [List.map_cons, hindex, List.range'_succ], fun a ha => ?_⟩
        rcases List.mem_cons.1 ha with rfl | ha
        · rfl
        · exact hchain a ha

theorem derive_append {i m n : Nat} {ds ds' : List AccountAddress}
    (h : deriveUtxoAddresses wallet spec c i m = .ok ds) (h' : deriveUtxoAddresses wallet spec c (i + m) n = .ok ds') :
    deriveUtxoAddresses wallet spec c i (m + n) = .ok (ds ++ ds') := by
  induction m generalizing i ds with
  | zero =>
    obtain rfl := Except.ok.inj h
    rw [Nat.zero_add, List.nil_append]
    exact h'
  | succ m ih =>
    rw [Nat.add_right_comm, deriveUtxoAddresses]
    rw [deriveUtxoAddresses] at h
    cases hnode : wallet.child spec.accountPath c i with
    | error e =>
      rw [hnode] at h
      cases h
    | ok node =>
      cases hrest : deriveUtxoAddresses wallet spec c (i + 1) m with
      | error e =>
        rw [hnode, hrest] at h
        cases h
      | ok rest =>
        rw [hnode, hrest] at h
        obtain rfl := Except.ok.inj h
        rw [show i + (m + 1) = i + 1 + m by omega] at h'
        show (deriveUtxoAddresses wallet spec c (i + 1) (m + n) >>= fun rest => _) = _
        rw [ih hrest h']
        rfl

theorem length_derive {i n : Nat} {ds : List AccountAddress} (h : deriveUtxoAddresses wallet spec c i n = .ok ds) :
    ds.length = n := by
  rw [← List.length_map (·.index), (derive_spec h).1, List.length_range']

/-- Addresses of one chain in the order of their indices. -/
def InOrder (c : UtxoChainIndex) (ds : List AccountAddress) : Prop :=
  (∀ a ∈ ds, a.chainIndex = c) ∧ ds.Pairwise fun a b => a.index < b.index

theorem inOrder_derive {i n : Nat} {ds : List AccountAddress} (h : deriveUtxoAddresses wallet spec c i n = .ok ds) :
    InOrder c ds := by
  obtain ⟨hindex, hchain⟩ := derive_spec h
  refine ⟨hchain, List.pairwise_map.1 ?_⟩
  rw [hindex]
  exact List.pairwise_lt_range'

theorem pairwise_entries {ds : List AccountAddress} (h : InOrder c ds) :
    (ds.map (entryOf holds)).Pairwise fun a b => entryLe a b = true := by
  refine List.pairwise_map.2 (h.2.imp_of_mem fun {a b} ha hb hlt => ?_)
  simp [entryLe, entryOf, AccountAddress.entry, h.1 a ha, h.1 b hb, Nat.le_of_lt hlt]

theorem entryLe_total (a b : UtxoAddressEntry) : entryLe a b ∨ entryLe b a := by
  unfold entryLe
  cases a.chainIndex <;> cases b.chainIndex <;> simp [UtxoChainIndex.toNat] <;> omega

theorem entryLe_trans (a b d : UtxoAddressEntry) : entryLe a b → entryLe b d → entryLe a d := by
  unfold entryLe
  cases a.chainIndex <;> cases b.chainIndex <;> cases d.chainIndex <;> simp [UtxoChainIndex.toNat] <;> omega

/-- Two lists of the same entries are sorted to the same. -/
theorem sort_of_perm {es es' : List UtxoAddressEntry} (hperm : es.Perm es')
    (hsorted : es'.Pairwise fun a b => entryLe a b = true)
    (hanti : ∀ a ∈ es', ∀ b ∈ es', entryLe a b = true → entryLe b a = true → a = b) : sort entryLe es = es' := by
  have h := (perm_sort entryLe es).trans hperm
  refine List.Perm.eq_of_pairwise ?_ (pairwise_sort entryLe_total entryLe_trans es) hsorted h
  exact fun a b ha hb => hanti a (h.mem_iff.1 ha) b hb

theorem anti_entries {ds : List AccountAddress} (h : InOrder c ds) :
    ∀ e ∈ ds.map (entryOf holds), ∀ e' ∈ ds.map (entryOf holds),
      entryLe e e' = true → entryLe e' e = true → e = e' := by
  intro e he e' he' hle hle'
  obtain ⟨a, ha, rfl⟩ := List.mem_map.1 he
  obtain ⟨b, hb, rfl⟩ := List.mem_map.1 he'
  have hindex : a.index = b.index := by
    simp [entryLe, entryOf, AccountAddress.entry, h.1 a ha, h.1 b hb] at hle hle'
    omega
  have hnodup : (ds.map (·.index)).Nodup := List.pairwise_map.2 (h.2.imp fun hlt => Nat.ne_of_lt hlt)
  rw [List.inj_on_of_nodup_map hnodup ha hb hindex]

/-! ## Probing a block -/

/-- The batch requests for a block of addresses. -/
def batches (spec : UtxoAccountSpec Key) (block : List AccountAddress) : List (List AccountAddress) :=
  if spec.probeMany then slices spec.batch block.length block else []

/-- Its own probe has answered, or the batch it was in. -/
def Answered (x : Explorer) (spec : UtxoAccountSpec Key) (block : List AccountAddress) (a : AccountAddress) : Prop :=
  (x.probe a).isSome ∨ ∃ b ∈ batches spec block, a ∈ b ∧ (batchResults x b).isSome

theorem probeAddresses_spec (hx : x.Honest holds) {block : List AccountAddress} {concurrency : Nat}
    (hblock : InOrder c block) (h : (probeAddresses x spec block concurrency).complete = true) :
    (probeAddresses x spec block concurrency).entries = block.map (entryOf holds) ∧
      ∀ a ∈ block, Answered x spec block a := by
  have hsort : ∀ p : Probed, p.entries.Perm (block.map (entryOf holds)) →
      sort entryLe p.entries = block.map (entryOf holds) := fun p hperm =>
    sort_of_perm hperm (pairwise_entries hblock) (anti_entries hblock)
  unfold probeAddresses at h ⊢
  cases hmany : spec.probeMany with
  | true =>
    rw [hmany] at h
    obtain ⟨-, hgot, hperm⟩ := probeBlocks_spec hx h
    have hflat : (slices spec.batch block.length block).flatten = block :=
      flatten_slices (Nat.lt_of_lt_of_le Nat.zero_lt_one (Nat.le_max_left _ _)) (Nat.le_refl _)
    rw [List.nil_append, hflat] at hperm
    refine ⟨hsort _ hperm, fun a ha => ?_⟩
    rw [← hflat] at ha
    obtain ⟨b, hb, hab⟩ := List.mem_flatten.1 ha
    rcases hgot b hb a hab with hbatch | hprobe
    · exact .inr ⟨b, by rw [batches, if_pos hmany]; exact hb, hab, hbatch⟩
    · exact .inl hprobe
  | false =>
    rw [hmany] at h
    obtain ⟨hperm, hcomplete⟩ := @perAddress_spec x concurrency block ⟨[], true⟩
    have hall := hcomplete.symm.trans h
    rw [Bool.true_and] at hall
    rw [answers_of_all hx hall, List.nil_append] at hperm
    exact ⟨hsort _ hperm, fun a ha => .inl (List.all_eq_true.1 hall a ha)⟩

/-! ## The walk of one chain -/

/-- The last `t` entries of those seen so far are untouched. -/
def Tail (es : List UtxoAddressEntry) (t : Nat) : Prop :=
  t ≤ es.length ∧ ∀ e ∈ es.drop (es.length - t), e.touched = false

theorem tail_touched (es : List UtxoAddressEntry) (e : UtxoAddressEntry) : Tail (es ++ [e]) 0 := by
  refine ⟨Nat.zero_le _, fun e' he => ?_⟩
  rw [Nat.sub_zero, List.drop_length] at he
  cases he

theorem tail_untouched {es : List UtxoAddressEntry} {e : UtxoAddressEntry} {t : Nat} (h : Tail es t)
    (he : e.touched = false) : Tail (es ++ [e]) (t + 1) := by
  refine ⟨?_, fun e' he' => ?_⟩
  · rw [List.length_append]
    exact Nat.succ_le_succ h.1
  · rw [List.length_append, List.length_singleton, Nat.add_sub_add_right,
      List.drop_append_of_le_length (Nat.sub_le _ _)] at he'
    rcases List.mem_append.1 he' with he' | he'
    · exact h.2 e' he'
    · rwa [List.mem_singleton.1 he']

theorem notes_spec {es seen : List UtxoAddressEntry} {w : Walk} (hentries : w.entries = seen.filter (·.touched))
    (htail : Tail seen w.trailingUnused) :
    (es.foldl Walk.note w).entries = (seen ++ es).filter (·.touched) ∧
      Tail (seen ++ es) (es.foldl Walk.note w).trailingUnused := by
  induction es generalizing seen w with
  | nil => simpa using ⟨hentries, htail⟩
  | cons e es ih =>
    rw [List.foldl_cons, ← List.singleton_append, ← List.append_assoc]
    by_cases htouched : e.touched = true
    · refine ih ?_ ?_
      · simp [Walk.note, htouched, hentries, List.filter_append]
      · simpa [Walk.note, htouched] using tail_touched seen e
    · refine ih ?_ ?_
      · simp [Walk.note, htouched, hentries, List.filter_append]
      · simpa [Walk.note, htouched] using tail_untouched htail (Bool.eq_false_iff.2 htouched)

variable {gapLimit concurrency : Nat}

/-- What a walk knows that has seen the first `n` addresses of a chain. -/
structure Seen (x : Explorer) (wallet : HdWallet Key) (spec : UtxoAccountSpec Key)
    (holds : UtxoChainIndex → Nat → UtxoAddressProbe) (gapLimit concurrency : Nat) (c : UtxoChainIndex) (n : Nat)
    (ds : List AccountAddress) (entries : List UtxoAddressEntry) (trailing : Nat) : Prop where
  derived : deriveUtxoAddresses wallet spec c 0 n = .ok ds
  entries : entries = (ds.map (entryOf holds)).filter (·.touched)
  tail : Tail (ds.map (entryOf holds)) trailing
  answered : ∀ a ∈ ds, ∃ k block, deriveUtxoAddresses wallet spec c (k * blockSizeOf spec gapLimit concurrency)
    (blockSizeOf spec gapLimit concurrency) = .ok block ∧ a ∈ block ∧ Answered x spec block a

theorem seen_step (hx : x.Honest holds) {w : Walk} {k : Nat} {ds block : List AccountAddress}
    (hseen : Seen x wallet spec holds gapLimit concurrency c w.cursor ds w.entries w.trailingUnused)
    (hk : w.cursor = k * blockSizeOf spec gapLimit concurrency)
    (hblock : deriveUtxoAddresses wallet spec c w.cursor (blockSizeOf spec gapLimit concurrency) = .ok block)
    (hcomplete : (probeAddresses x spec block concurrency).complete = true) :
    Seen x wallet spec holds gapLimit concurrency c (w.cursor + block.length) (ds ++ block)
      ((probeAddresses x spec block concurrency).entries.foldl Walk.note w).entries
      ((probeAddresses x spec block concurrency).entries.foldl Walk.note w).trailingUnused := by
  obtain ⟨hentries, hanswered⟩ := probeAddresses_spec hx (inOrder_derive hblock) hcomplete
  obtain ⟨hnoted, htail⟩ := @notes_spec (block.map (entryOf holds)) _ w hseen.entries hseen.tail
  rw [hentries, length_derive hblock]
  rw [← List.map_append] at hnoted htail
  refine ⟨derive_append hseen.derived (by rwa [Nat.zero_add]), hnoted, htail, fun a ha => ?_⟩
  rcases List.mem_append.1 ha with ha | ha
  · exact hseen.answered a ha
  · exact ⟨k, block, by rwa [← hk], ha, hanswered a ha⟩

theorem walkLoop_spec (hx : x.Honest holds) {fuel k : Nat} {w : Walk} {ds : List AccountAddress} {r : Walked}
    (hseen : Seen x wallet spec holds gapLimit concurrency c w.cursor ds w.entries w.trailingUnused)
    (hk : w.cursor = k * blockSizeOf spec gapLimit concurrency) (hscanned : w.scanned = w.cursor)
    (h : walkLoop x wallet spec c gapLimit concurrency fuel w = some (.ok r)) (hr : r.complete = true) :
    ∃ ds t, gapLimit ≤ t ∧ Seen x wallet spec holds gapLimit concurrency c r.scanned ds r.entries t := by
  induction fuel generalizing k w ds with
  | zero => cases h
  | succ fuel ih =>
    rw [walkLoop] at h
    by_cases hgap : w.trailingUnused < gapLimit
    · rw [if_pos hgap] at h
      cases hblock : deriveUtxoAddresses wallet spec c w.cursor (blockSizeOf spec gapLimit concurrency) with
      | error e =>
        rw [hblock] at h
        cases Option.some.inj h
      | ok block =>
        simp only [hblock] at h
        by_cases hcomplete : (probeAddresses x spec block concurrency).complete = false
        · rw [if_pos hcomplete] at h
          obtain rfl := Except.ok.inj (Option.some.inj h)
          cases hr
        · rw [if_neg hcomplete] at h
          have hstep := seen_step hx hseen hk hblock (Bool.of_not_eq_false hcomplete)
          split at h
          · obtain rfl := Except.ok.inj (Option.some.inj h)
            cases hr
          · refine ih (k := k + 1) hstep ?_ ?_ h
            · dsimp only
              rw [length_derive hblock, hk, Nat.succ_mul]
            · dsimp only
              rw [hscanned]
    · rw [if_neg hgap] at h
      obtain rfl := Except.ok.inj (Option.some.inj h)
      exact ⟨ds, w.trailingUnused, Nat.not_lt.1 hgap, hscanned ▸ hseen⟩

/-- The first `10` addresses at least are in every block. -/
theorem blockSize_pos : 0 < blockSizeOf spec gapLimit concurrency := by
  unfold blockSizeOf
  split <;> omega

theorem walkLoop_succ {fuel : Nat} {w : Walk} {r : Except String Walked}
    (h : walkLoop x wallet spec c gapLimit concurrency fuel w = some r) :
    walkLoop x wallet spec c gapLimit concurrency (fuel + 1) w = some r := by
  induction fuel generalizing w with
  | zero => cases h
  | succ fuel ih =>
    rw [walkLoop] at h ⊢
    split at h
    · rename_i hgap
      rw [if_pos hgap]
      split at h
      · exact h
      · dsimp only at h ⊢
        split at h
        · rename_i hincomplete
          rw [if_pos hincomplete]
          exact h
        · rename_i hcomplete
          rw [if_neg hcomplete]
          split at h
          · rename_i hfar
            rw [if_pos hfar]
            exact h
          · rename_i hnear
            rw [if_neg hnear]
            exact ih h
    · rename_i hgap
      rw [if_neg hgap]
      exact h

/-- Each round goes on by a block, and the guard stops a walk that goes too far. -/
theorem walkLoop_ends {fuel : Nat} {w : Walk} (hcursor : w.cursor ≤ gapLimit * 25)
    (hfuel : gapLimit * 25 + 1 - w.cursor ≤ fuel) :
    (walkLoop x wallet spec c gapLimit concurrency fuel w).isSome := by
  induction fuel generalizing w with
  | zero => omega
  | succ fuel ih =>
    rw [walkLoop]
    split
    · split
      · rfl
      · rename_i block hblock
        have hlen := length_derive hblock
        have hpos := @blockSize_pos _ spec gapLimit concurrency
        dsimp only
        split
        · rfl
        · split
          · rfl
          · rename_i hnear
            refine ih (Nat.not_lt.1 hnear) ?_
            dsimp only
            omega
    · rfl

/-! ## The scan -/

theorem walkChain_ends {fuel : Nat} (hfuel : gapLimit * 25 + 1 ≤ fuel) :
    (walkChain x wallet spec c gapLimit concurrency fuel).isSome :=
  walkLoop_ends (Nat.zero_le _) hfuel

theorem walkChain_mono {fuel fuel' : Nat} {r : Except String Walked}
    (h : walkChain x wallet spec c gapLimit concurrency fuel = some r) (hle : fuel ≤ fuel') :
    walkChain x wallet spec c gapLimit concurrency fuel' = some r := by
  induction hle with
  | refl => exact h
  | step _ ih => exact walkLoop_succ ih

theorem walkChain_spec (hx : x.Honest holds) {fuel : Nat} {r : Walked}
    (h : walkChain x wallet spec c gapLimit concurrency fuel = some (.ok r)) (hr : r.complete = true) :
    ∃ ds t, gapLimit ≤ t ∧ Seen x wallet spec holds gapLimit concurrency c r.scanned ds r.entries t := by
  refine @walkLoop_spec _ _ _ _ _ _ _ _ hx _ 0 _ [] _ ⟨rfl, rfl, ⟨Nat.le_refl _, fun e he => ?_⟩, fun a ha => ?_⟩ ?_ rfl h hr
  · cases he
  · cases ha
  · rw [Nat.zero_mul]

/-- The scan ends, and more rounds would change nothing. -/
theorem scan_ends (opts : ScanOpts) :
    ∃ r, ∀ fuel, opts.gapLimit.getD DEFAULT_GAP_LIMIT * 25 + 1 ≤ fuel →
      scanUtxoAccount x wallet spec opts fuel = some r := by
  obtain ⟨receive, hreceive⟩ := Option.isSome_iff_exists.1
    (@walkChain_ends x _ wallet spec .receive (opts.gapLimit.getD DEFAULT_GAP_LIMIT)
      (opts.concurrency.getD SCAN_CONCURRENCY) _ (Nat.le_refl _))
  obtain ⟨change, hchange⟩ := Option.isSome_iff_exists.1
    (@walkChain_ends x _ wallet spec .change (opts.gapLimit.getD DEFAULT_GAP_LIMIT)
      (opts.concurrency.getD SCAN_CONCURRENCY) _ (Nat.le_refl _))
  cases receive with
  | error e =>
    refine ⟨.error e, fun fuel hfuel => ?_⟩
    simp only [scanUtxoAccount, walkChain_mono hreceive hfuel, Option.bind_some]
  | ok receive =>
    refine ⟨change.map (scanOf spec (opts.gapLimit.getD DEFAULT_GAP_LIMIT) receive), fun fuel hfuel => ?_⟩
    simp only [scanUtxoAccount, walkChain_mono hreceive hfuel, walkChain_mono hchange hfuel, Option.bind_some,
      Option.map_some]

def UtxoAddressProbe.touched (r : UtxoAddressProbe) : Bool := r.used || decide (r.balanceSat > 0)

/-- A walk that asks one index after the other and stops after `gapLimit` untouched ones in a row comes to
the index `i`. -/
def Visits (gapLimit : Nat) (touched : Nat → Bool) (i : Nat) : Prop :=
  ∀ j, j + gapLimit ≤ i → ∃ k, j ≤ k ∧ k < j + gapLimit ∧ touched k = true

/-- The highest used index of the first `n`, or `-1`. -/
def HighestUsed (used : Nat → Bool) (n : Nat) (m : Int) : Prop :=
  (∀ i < n, used i = true → (i : Int) ≤ m) ∧ (m = -1 ∨ ∃ i < n, used i = true ∧ m = i)

/-- A chain of a complete scan: `n` addresses were asked, and these are the entries. -/
structure ChainScan (x : Explorer) (wallet : HdWallet Key) (spec : UtxoAccountSpec Key)
    (holds : UtxoChainIndex → Nat → UtxoAddressProbe) (gapLimit concurrency : Nat) (c : UtxoChainIndex) (n : Nat)
    (entries : List UtxoAddressEntry) (maxUsed : Int) : Prop where
  found : ∃ ds, deriveUtxoAddresses wallet spec c 0 n = .ok ds ∧
    entries = (ds.filter fun a => (holds c a.index).touched).map (entryOf holds) ∧
    ∀ a ∈ ds, ∃ k block, deriveUtxoAddresses wallet spec c (k * blockSizeOf spec gapLimit concurrency)
      (blockSizeOf spec gapLimit concurrency) = .ok block ∧ a ∈ block ∧ Answered x spec block a
  gap : gapLimit ≤ n ∧ ∀ i, n - gapLimit ≤ i → i < n → (holds c i).touched = false
  walked (i : Nat) : Visits gapLimit (fun i => (holds c i).touched) i → i < n
  maxUsed : HighestUsed (fun i => (holds c i).used) n maxUsed

theorem foldl_maxUsed (es : List UtxoAddressEntry) (m : Int) :
    let m' := es.foldl (fun m e => if e.used ∧ (e.index : Int) > m then e.index else m) m
    m ≤ m' ∧ (∀ e ∈ es, e.used = true → (e.index : Int) ≤ m') ∧
      (m' = m ∨ ∃ e ∈ es, e.used = true ∧ m' = e.index) := by
  induction es generalizing m with
  | nil => exact ⟨Int.le_refl _, fun e he => absurd he List.not_mem_nil, .inl rfl⟩
  | cons e es ih =>
    rw [List.foldl_cons]
    obtain ⟨hle, hall, hwhich⟩ := ih (if e.used ∧ (e.index : Int) > m then e.index else m)
    by_cases he : e.used = true ∧ (e.index : Int) > m
    · rw [if_pos he] at hle hall hwhich ⊢
      refine ⟨Int.le_trans (Int.le_of_lt he.2) hle, fun e' he' hused => ?_, ?_⟩
      · rcases List.mem_cons.1 he' with rfl | he'
        · exact hle
        · exact hall e' he' hused
      · rcases hwhich with heq | ⟨e', he', h⟩
        · exact .inr ⟨e, List.mem_cons_self, he.1, heq⟩
        · exact .inr ⟨e', List.mem_cons_of_mem _ he', h⟩
    · rw [if_neg he] at hle hall hwhich ⊢
      refine ⟨hle, fun e' he' hused => ?_, ?_⟩
      · rcases List.mem_cons.1 he' with rfl | he'
        · exact Int.le_trans (Int.not_lt.1 fun hlt => he ⟨hused, hlt⟩) hle
        · exact hall e' he' hused
      · rcases hwhich with heq | ⟨e', he', h⟩
        · exact .inl heq
        · exact .inr ⟨e', List.mem_cons_of_mem _ he', h⟩

theorem mem_derive {n : Nat} {ds : List AccountAddress} (h : deriveUtxoAddresses wallet spec c 0 n = .ok ds)
    {i : Nat} (hi : i < n) : ∃ a ∈ ds, a.index = i ∧ a.chainIndex = c := by
  have hmem : i ∈ ds.map (·.index) := by
    rw [(derive_spec h).1, List.mem_range'_1]
    omega
  obtain ⟨a, ha, rfl⟩ := List.mem_map.1 hmem
  exact ⟨a, ha, rfl, (derive_spec h).2 a ha⟩

theorem index_lt {n : Nat} {ds : List AccountAddress} (h : deriveUtxoAddresses wallet spec c 0 n = .ok ds)
    {a : AccountAddress} (ha : a ∈ ds) : a.index < n := by
  have hmem : a.index ∈ List.range' 0 n := (derive_spec h).1 ▸ List.mem_map_of_mem ha
  rw [List.mem_range'_1] at hmem
  omega

theorem gap_of_tail {n t : Nat} {ds : List AccountAddress} (h : deriveUtxoAddresses wallet spec c 0 n = .ok ds)
    (htail : Tail (ds.map (entryOf holds)) t) (ht : gapLimit ≤ t) :
    gapLimit ≤ n ∧ ∀ i, n - gapLimit ≤ i → i < n → (holds c i).touched = false := by
  have hlen : (ds.map (entryOf holds)).length = n := by rw [List.length_map, length_derive h]
  obtain ⟨hle, hall⟩ := htail
  rw [hlen] at hle hall
  refine ⟨Nat.le_trans ht hle, fun i hlow hhigh => ?_⟩
  have hindex : ∀ j (hj : j < ds.length), ds[j].index = j := by
    intro j hj
    have hget := congrArg (fun l : List Nat => l[j]?) (derive_spec h).1
    have hjn : j < n := length_derive h ▸ hj
    simp only [List.getElem?_map, List.getElem?_eq_getElem hj, Option.map_some, List.getElem?_range' hjn,
      Option.some.injEq] at hget
    omega
  have hi : i < ds.length := by rwa [length_derive h]
  have hmem : entryOf holds ds[i] ∈ (ds.map (entryOf holds)).drop (n - t) := by
    refine List.mem_drop_iff_getElem.2 ⟨i - (n - t), by omega, ?_⟩
    simp only [List.getElem_map]
    congr 2
    omega
  have hfalse := hall _ hmem
  rwa [entryOf, (derive_spec h).2 _ (List.getElem_mem hi), hindex i hi] at hfalse

theorem filter_entries {n : Nat} {ds : List AccountAddress}
    (h : deriveUtxoAddresses wallet spec c 0 n = .ok ds) :
    (ds.map (entryOf holds)).filter (·.touched) =
      (ds.filter fun a => (holds c a.index).touched).map (entryOf holds) := by
  rw [List.filter_map]
  congr 1
  refine List.filter_congr fun a ha => ?_
  rw [Function.comp_apply, entryOf, (derive_spec h).2 a ha]
  rfl

theorem chainScan_of_seen {n t : Nat} {ds : List AccountAddress} {entries : List UtxoAddressEntry}
    (h : Seen x wallet spec holds gapLimit concurrency c n ds entries t) (ht : gapLimit ≤ t) :
    ChainScan x wallet spec holds gapLimit concurrency c n entries (maxUsedIndex entries) := by
  have hgap := gap_of_tail h.derived h.tail ht
  have hentries := h.entries.trans (filter_entries h.derived)
  refine ⟨⟨ds, h.derived, hentries, h.answered⟩, hgap, fun i hvisits => ?_, fun i hi hused => ?_, ?_⟩
  · -- a walk that came so far would have stopped in the gap
    by_contra hfar
    obtain ⟨k, hlow, hhigh, htouched⟩ := hvisits (n - gapLimit) (by omega)
    cases (hgap.2 k hlow (by omega)).symm.trans htouched
  · obtain ⟨a, ha, rfl, rfl⟩ := mem_derive h.derived hi
    refine (foldl_maxUsed entries (-1)).2.1 (entryOf holds a) ?_ hused
    rw [hentries]
    refine List.mem_map_of_mem (List.mem_filter.2 ⟨ha, ?_⟩)
    simp only [UtxoAddressProbe.touched, hused, Bool.true_or]
  · rcases (foldl_maxUsed entries (-1)).2.2 with hnone | ⟨e, he, hused, hindex⟩
    · exact .inl hnone
    · rw [hentries] at he
      obtain ⟨a, ha, rfl⟩ := List.mem_map.1 he
      have hmem := (List.mem_filter.1 ha).1
      refine .inr ⟨a.index, index_lt h.derived hmem, ?_, hindex⟩
      rwa [← (derive_spec h.derived).2 a hmem]

theorem foldl_sum (es : List UtxoAddressEntry) (s : Int) :
    es.foldl (fun s e => s + e.balanceSat) s = s + (es.map (·.balanceSat)).sum := by
  induction es generalizing s with
  | nil => simp
  | cons e es ih => rw [List.foldl_cons, ih, List.map_cons, List.sum_cons, Int.add_assoc]

/-- The entries of the two chains, receive first, are in order already. -/
theorem sort_chains {ds ds' : List AccountAddress} (h : InOrder .receive ds) (h' : InOrder .change ds') :
    sort entryLe (ds.map (entryOf holds) ++ ds'.map (entryOf holds)) =
      ds.map (entryOf holds) ++ ds'.map (entryOf holds) := by
  refine (List.pairwise_append.2 ⟨pairwise_entries h, pairwise_entries h', ?_⟩).insertionSort_eq
  intro e he e' he'
  obtain ⟨a, ha, rfl⟩ := List.mem_map.1 he
  obtain ⟨b, hb, rfl⟩ := List.mem_map.1 he'
  simp [entryLe, entryOf, AccountAddress.entry, h.1 a ha, h'.1 b hb, UtxoChainIndex.toNat]

theorem inOrder_filter {ds : List AccountAddress} (h : InOrder c ds) (q : AccountAddress → Bool) :
    InOrder c (ds.filter q) :=
  ⟨fun a ha => h.1 a (List.mem_filter.1 ha).1, h.2.sublist List.filter_sublist⟩

/-- What a scan that calls itself complete has found. -/
structure ScanSound (x : Explorer) (wallet : HdWallet Key) (spec : UtxoAccountSpec Key)
    (holds : UtxoChainIndex → Nat → UtxoAddressProbe) (gapLimit concurrency : Nat) (scan : UtxoAccountScan) :
    Prop where
  chains : ∃ n n' entries entries', scan.scanned = n + n' ∧ scan.entries = entries ++ entries' ∧
    ChainScan x wallet spec holds gapLimit concurrency .receive n entries scan.maxUsed.receive ∧
    ChainScan x wallet spec holds gapLimit concurrency .change n' entries' scan.maxUsed.change
  totalSat : scan.totalSat = (scan.entries.map (·.balanceSat)).sum

theorem scan_sound (hx : x.Honest holds) {opts : ScanOpts} {fuel : Nat} {scan : UtxoAccountScan}
    (h : scanUtxoAccount x wallet spec opts fuel = some (.ok scan)) (hcomplete : scan.complete = true) :
    ScanSound x wallet spec holds (opts.gapLimit.getD DEFAULT_GAP_LIMIT) (opts.concurrency.getD SCAN_CONCURRENCY)
      scan := by
  obtain ⟨receive, hreceive, h⟩ := Option.bind_eq_some_iff.1 h
  cases receive with
  | error e => cases Option.some.inj h
  | ok receive =>
    obtain ⟨change, hchange, h⟩ := Option.map_eq_some_iff.1 h
    cases change with
    | error e => cases h
    | ok change =>
      obtain rfl := Except.ok.inj h
      obtain ⟨hreceived, hchanged⟩ := Bool.and_eq_true_iff.1 hcomplete
      obtain ⟨ds, t, ht, hseen⟩ := walkChain_spec hx hreceive hreceived
      obtain ⟨ds', t', ht', hseen'⟩ := walkChain_spec hx hchange hchanged
      have hsorted : sort entryLe (receive.entries ++ change.entries) = receive.entries ++ change.entries := by
        rw [hseen.entries, hseen'.entries, filter_entries hseen.derived, filter_entries hseen'.derived]
        exact sort_chains (inOrder_filter (inOrder_derive hseen.derived) _)
          (inOrder_filter (inOrder_derive hseen'.derived) _)
      refine ⟨⟨_, _, _, _, rfl, hsorted, chainScan_of_seen hseen ht, chainScan_of_seen hseen' ht'⟩, ?_⟩
      exact (foldl_sum _ 0).trans (Int.zero_add _)

/-- Only the third receive address holds something; the batch source is down for the receive chain. -/
def sampleHolds : UtxoChainIndex → Nat → UtxoAddressProbe
  | .receive, 2 => ⟨7, true⟩
  | _, _ => ⟨0, false⟩

def sampleExplorer : Explorer where
  probe a := some (sampleHolds a.chainIndex a.index)
  probeMany block :=
    if block.any (·.chainIndex == .receive) then none
    else some (block.map fun a => sampleHolds a.chainIndex a.index)
  settles _ := [1, 0, 1]

def sampleSpec : UtxoAccountSpec String where
  chain := .bitcoin
  accountPath := "m/84'/0'/0'"
  label := "BIP-84"
  deriveAddress := id
  probeMany := true
  batchSize := some 5

def sampleWallet : HdWallet String where
  child path c i := .ok (childPath path c i)

theorem sampleExplorer_honest : sampleExplorer.Honest sampleHolds := by
  refine ⟨fun a r h => (Option.some.inj h).symm, fun block rs h _ => ?_⟩
  unfold sampleExplorer at h
  dsimp only at h
  split at h
  · cases h
  · exact (Option.some.inj h).symm

def completed : Option (Except String UtxoAccountScan) → Option UtxoAccountScan
  | some (.ok scan) => if scan.complete then some scan else none
  | _ => none

theorem of_completed {r : Option (Except String UtxoAccountScan)} {scan : UtxoAccountScan}
    (h : completed r = some scan) : r = some (.ok scan) ∧ scan.complete = true := by
  unfold completed at h
  split at h
  · split at h
    · rename_i hcomplete
      obtain rfl := Option.some.inj h
      exact ⟨rfl, hcomplete⟩
    · cases h
  · cases h

end Utxo
