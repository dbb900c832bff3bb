import PwndaWallet.Aptos.History
import PwndaWallet.Lib.Slice

/-!
# When an Aptos history has no holes

The page is compared with the rows of everything that touched the account. It is joined from two windows of that, the
newest transactions and the newest ones that the account sent, and holds what either of them shows.
-/

namespace Aptos

open Rust SessionSend

/-- A transaction that touched the account, and what the indexer knows of it. -/
structure Touched where
  record : AptosTxRecord
  activities : List Json

section

variable (env : HistoryEngine) (addr : String) (asset : AptosHistoryAsset)

def heightOf (t : Touched) : Int := (digitsOf t.record.version).getD 0

def seen (t : Touched) : Seen := readActivities env asset.isAssetType t.activities

/-- The transaction's row, with what it really deposited. -/
def rowOf (t : Touched) : Option ChainTx := aptosHistoryRow env t.record addr (seen env asset t).deposited asset

def isListed (t : Touched) : Bool := (rowOf env addr asset t).isSome

def isOwn (t : Touched) : Bool := isOutgoing t.record addr

def isWanted (t : Touched) : Bool := (seen env asset t).moved || (seen env asset t).failedTransfer

/-! ## The services -/

def Serves (reply : Reply) (t : Touched) : Prop :=
  ∃ r json, reply = .ok r ∧ r.status ≠ 410 ∧ r.ok = true ∧ env.jsonParse r.body = .ok json ∧
    slimAptosTx env json = t.record

def Shows (row : Json) (t : Touched) : Prop :=
  rowVersion env row = some t.record.version ∧ rowActivities row = t.activities

/-- The account's history, newest first, and services that answer completely up to the limit: the sent list with the
newest ones it sent, the indexer with the newest ones and their activities, of which one is a deposit where another
account's transfer pays this one; each of them can be read by version. -/
structure Complete (net : Services) (n : Nat) (history : List Touched) : Prop where
  numbered : ∀ t ∈ history, (digitsOf t.record.version).isSome = true
  falls : history.Pairwise fun t u => heightOf u < heightOf t
  sent : ∃ records, aptosSentTransactions env (net.sent addr n) = .ok records ∧
    records.Perm (((history.filter (isOwn addr)).take n).map (·.record))
  indexed : ∃ r j rows, net.indexer addr n = .ok r ∧ r.ok = true ∧ env.jsonParse r.body = .ok j ∧
    indexerErrors env j = none ∧ prop (prop (some j) "data") "account_transactions" = some (.arr rows) ∧
      List.Forall₂ (Shows env) rows (history.take n)
  paid : ∀ t ∈ history, isOwn addr t = false → ∀ xfer, transferOf env.toEngine t.record asset = some xfer →
    xfer.legs.any (paysTo addr) = true →
      ∃ a ∈ t.activities, concerns asset.isAssetType a = true ∧ isDeposit env a = true
  kept : ∀ t ∈ history, Serves env (net.fullnode t.record.version) t ∨
    ∃ r, net.fullnode t.record.version = .ok r ∧ r.status = 410
  archived : ∀ t ∈ history, Serves env (net.archive t.record.version) t

/-- What a session keeps of the history is so. -/
def Session.Right (s : Session) (history : List Touched) : Prop :=
  ∀ e ∈ s.cache, ∀ t ∈ history, e.1 = t.record.version → e.2 = t.record

/-! ## The promise -/

/-- A page holds the newest rows, each once: at most `n`, and none is missing that is newer than its last. -/
structure IsNewest (n : Nat) (history : List Touched) (page : List ChainTx) : Prop where
  falls : page.Pairwise fun a b => heightKey b < heightKey a
  few : page.length ≤ n
  rows : ∀ row ∈ page, ∃ t ∈ history, rowOf env addr asset t = some row
  whole : ∀ t ∈ history, ∀ row last, rowOf env addr asset t = some row → page.getLast? = some last →
    heightKey last < heightKey row → row ∈ page

/-- What the account sent beyond the indexer's window, among its `n` newest sends. -/
def olderSends (n : Nat) (history : List Touched) : List Touched :=
  ((history.drop n).filter (isOwn addr)).take (n - ((history.take n).filter (isOwn addr)).length)

/-- The transfers that the page takes from beyond the window: as many as there is room for. -/
def appended (n : Nat) (history : List Touched) : List Touched :=
  ((olderSends addr n history).filter (isListed env addr asset)).take
    (n - ((history.take n).filter (isListed env addr asset)).length)

/-- Beyond the window, another account's transaction that would be listed is newer than a transfer the page takes. -/
def Gap (n : Nat) (history : List Touched) : Prop :=
  ∃ t ∈ history.drop n, isOwn addr t = false ∧ isListed env addr asset t = true ∧
    ∃ u ∈ appended env addr asset n history, heightOf u < heightOf t

end

/-! ## Rows -/

section

variable {env : HistoryEngine} {addr : String} {asset : AptosHistoryAsset}

theorem aptosHistoryRow_own {t : AptosTxRecord} (h : isOutgoing t addr = true) (d d' : Nat) :
    aptosHistoryRow env t addr d asset = aptosHistoryRow env t addr d' asset := by
  have hsame : intendedOf env.toEngine t addr d asset = intendedOf env.toEngine t addr d' asset := by
    simp [intendedOf, h]
  rw [aptosHistoryRow, aptosHistoryRow, hsame]

theorem heightKey_of_row {t : Touched} {row : ChainTx} (h : rowOf env addr asset t = some row) :
    heightKey row = heightOf t := by
  rw [rowOf, aptosHistoryRow] at h
  by_cases huser : isUserTransaction t.record = true
  · rw [if_pos huser] at h
    obtain ⟨r, -, rfl⟩ := Option.map_eq_some_iff.1 h
    rfl
  · rw [if_neg huser] at h
    cases h

/-! ## Activities -/

theorem moved_readActivity {isAsset : Option Json → Bool} {s : Seen} (a : Json)
    (h : s.moved = true ∨ concerns isAsset a = true ∧ isDeposit env a = true) :
    (readActivity env isAsset s a).moved = true := by
  rw [readActivity]
  rcases h with h | ⟨hconcerns, hdeposit⟩
  · split
    · exact h
    · split
      · rfl
      · split
        · rfl
        · exact h
  · simp [hconcerns, hdeposit]

theorem moved_foldl {isAsset : Option Json → Bool} {activities : List Json} {s : Seen}
    (h : s.moved = true ∨ ∃ a ∈ activities, concerns isAsset a = true ∧ isDeposit env a = true) :
    (activities.foldl (readActivity env isAsset) s).moved = true := by
  induction activities generalizing s with
  | nil => simpa using h
  | cons a activities ih =>
    apply ih
    rcases h with h | ⟨b, hb, hdeposit⟩
    · exact .inl (moved_readActivity a (.inl h))
    · rcases List.mem_cons.1 hb with rfl | hb
      · exact .inl (moved_readActivity b (.inr hdeposit))
      · exact .inr ⟨b, hb, hdeposit⟩

theorem moved_of_deposited {isAsset : Option Json → Bool} {activities : List Json} {s : Seen}
    (hs : 0 < s.deposited → s.moved = true) (h : 0 < (activities.foldl (readActivity env isAsset) s).deposited) :
    (activities.foldl (readActivity env isAsset) s).moved = true := by
  induction activities generalizing s with
  | nil => exact hs h
  | cons a activities ih =>
    refine ih (fun hpos => ?_) h
    rw [readActivity] at hpos ⊢
    split
    · next hnot =>
      rw [if_pos hnot] at hpos
      exact hs hpos
    · next hnot =>
      rw [if_neg hnot] at hpos
      split
      · rfl
      · next hdeposit =>
        rw [if_neg hdeposit] at hpos
        split
        · rfl
        · next hwithdraw =>
          rw [if_neg hwithdraw] at hpos
          exact hs hpos

variable {net : Services} {n : Nat} {history : List Touched}

/-- The indexer wants what another account's transaction lists. -/
theorem Complete.wanted (hcomplete : Complete env addr asset net n history) {t : Touched} (ht : t ∈ history)
    (hforeign : isOwn addr t = false) (hlisted : isListed env addr asset t = true) : isWanted env asset t = true := by
  rw [isWanted, Bool.or_eq_true]
  left
  obtain ⟨row, hrow⟩ := Option.isSome_iff_exists.1 hlisted
  rw [rowOf, aptosHistoryRow] at hrow
  by_cases huser : isUserTransaction t.record = true
  · rw [if_pos huser] at hrow
    obtain ⟨r, hintended, -⟩ := Option.map_eq_some_iff.1 hrow
    have hnot : isOutgoing t.record addr = false := hforeign
    rw [intendedOf] at hintended
    simp only [hnot, Bool.and_false, Bool.false_eq_true, if_false] at hintended
    by_cases hpays : ((transferOf env.toEngine t.record asset).map (·.legs)).getD [] |>.any (paysTo addr)
    · cases hxfer : transferOf env.toEngine t.record asset with
      | none =>
        rw [hxfer] at hpays
        cases hpays
      | some xfer =>
        rw [hxfer] at hpays
        obtain ⟨a, ha, hdeposit⟩ := hcomplete.paid t ht hforeign xfer hxfer hpays
        exact moved_foldl (.inr ⟨a, ha, hdeposit⟩)
    · rw [if_neg hpays] at hintended
      by_cases hpos : 0 < (seen env asset t).deposited
      · exact moved_of_deposited (fun h => absurd h (Nat.lt_irrefl 0)) hpos
      · simp [hpos] at hintended
  · rw [if_neg huser] at hrow
    cases hrow

/-! ## The order of the history -/

theorem Complete.eq_of_height (hcomplete : Complete env addr asset net n history) {t u : Touched} (ht : t ∈ history)
    (hu : u ∈ history) (h : heightOf t = heightOf u) : t = u := by
  have hnodup : (history.map heightOf).Nodup := List.pairwise_map.2 (hcomplete.falls.imp fun hlt => by omega)
  exact List.inj_on_of_nodup_map hnodup ht hu h

theorem Complete.eq_of_version (hcomplete : Complete env addr asset net n history) {t u : Touched} (ht : t ∈ history)
    (hu : u ∈ history) (h : t.record.version = u.record.version) : t = u :=
  hcomplete.eq_of_height ht hu (by rw [heightOf, heightOf, h])

theorem Complete.nodup_versions (hcomplete : Complete env addr asset net n history) {l : List Touched}
    (hl : l.Sublist history) : (l.map (·.record.version)).Nodup := by
  refine (List.pairwise_map.2 (hcomplete.falls.imp fun hlt heq => ?_)).sublist (hl.map _)
  simp [heightOf, heq] at hlt

/-! ## Reading by version -/

@[simp] theorem learn_cache (s : Session) (r : Response) : (learn env s r).cache = s.cache := by
  rw [learn]
  cases env.jsonParse r.body <;> rfl

@[simp] theorem learnAptosOldestKept_cache (s : Session) : (learnAptosOldestKept env net s).cache = s.cache := by
  rw [learnAptosOldestKept]
  split
  · split
    · exact learn_cache s _
    · rfl
  · rfl

theorem Session.Right.of_cache {s s' : Session} (h : s.Right history) (heq : s'.cache = s.cache) : s'.Right history :=
  fun e he => h e (heq ▸ he)

theorem mem_cacheAptosTx {s : Session} {t : AptosTxRecord} {e : String × AptosTxRecord}
    (h : e ∈ (cacheAptosTx s t).cache) : e ∈ s.cache ∨ e = (t.version, t) := by
  rw [cacheAptosTx] at h
  split at h
  · simp only at h
    have hmem := List.mem_of_mem_drop h
    rcases List.mem_append.1 hmem with hmem | hmem
    · exact .inl (List.mem_filter.1 hmem).1
    · exact .inr (List.mem_singleton.1 hmem)
  · exact .inl h

theorem Session.Right.cache (hcomplete : Complete env addr asset net n history) {s : Session} (h : s.Right history)
    {t : Touched} (ht : t ∈ history) : (cacheAptosTx s t.record).Right history := by
  intro e he u hu hversion
  rcases mem_cacheAptosTx he with he | rfl
  · exact h e he u hu hversion
  · rw [hcomplete.eq_of_version ht hu hversion]

theorem Session.Right.foldl_cache (hcomplete : Complete env addr asset net n history) {records : List AptosTxRecord}
    (hrecords : ∀ r ∈ records, ∃ t ∈ history, t.record = r) {s : Session} (h : s.Right history) :
    (records.foldl cacheAptosTx s).Right history := by
  induction records generalizing s with
  | nil => exact h
  | cons r records ih =>
    obtain ⟨t, ht, rfl⟩ := hrecords r List.mem_cons_self
    exact ih (fun r hr => hrecords r (List.mem_cons_of_mem _ hr)) (h.cache hcomplete ht)

theorem readVersion_ok (hcomplete : Complete env addr asset net n history) {s : Session} (h : s.Right history)
    {t : Touched} (ht : t ∈ history) {reply : Reply} (hserves : Serves env reply t) (host : String) :
    (readVersion env s t.record.version host reply).1 = .ok t.record ∧
      (readVersion env s t.record.version host reply).2.Right history := by
  obtain ⟨r, json, rfl, -, hok, hparse, hslim⟩ := hserves
  have hread : readVersion env s t.record.version host (.ok r) = (.ok t.record, cacheAptosTx s t.record) := by
    simp [readVersion, hok, hparse, hslim]
  rw [hread]
  exact ⟨rfl, h.cache hcomplete ht⟩

theorem aptosTxByVersion_ok (hcomplete : Complete env addr asset net n history) {s : Session} (h : s.Right history)
    {t : Touched} (ht : t ∈ history) :
    (aptosTxByVersion env net s t.record.version).1 = .ok t.record ∧
      (aptosTxByVersion env net s t.record.version).2.Right history := by
  rw [aptosTxByVersion]
  cases hlookup : s.cache.lookup t.record.version with
  | some found =>
    have hmem : (t.record.version, found) ∈ s.cache := by
      obtain ⟨before, rest, heq, -⟩ := List.lookup_eq_some_iff.1 hlookup
      simp [heq]
    exact ⟨congrArg Except.ok (h _ hmem t ht rfl), h⟩
  | none =>
    simp only
    split
    · exact readVersion_ok hcomplete h ht (hcomplete.archived t ht) _
    · rcases hcomplete.kept t ht with hserves | ⟨r, hreply, hgone⟩
      · have hread := readVersion_ok hcomplete h ht hserves API_HOST
        obtain ⟨r, json, hreply, hnot, -⟩ := hserves
        rw [hreply] at hread ⊢
        simpa only [if_neg hnot] using hread
      · rw [hreply]
        simp only [if_pos hgone]
        exact readVersion_ok hcomplete (h.of_cache (learn_cache s r)) ht (hcomplete.archived t ht) _

/-! ## Maps -/

theorem mapSet_of_not_mem {α : Type} {m : List (String × α)} {key : String} (h : ∀ e ∈ m, e.1 ≠ key) (value : α) :
    mapSet m key value = m ++ [(key, value)] := by
  have hnone : m.any (·.1 = key) = false := by simpa using h
  rw [mapSet, hnone]
  rfl

theorem foldl_mapSet {α β : Type} {key : β → String} {value : β → α} {l : List β} {m : List (String × α)}
    (hl : (l.map key).Nodup) (hm : ∀ b ∈ l, ∀ e ∈ m, e.1 ≠ key b) :
    l.foldl (fun m b => mapSet m (key b) (value b)) m = m ++ l.map fun b => (key b, value b) := by
  induction l generalizing m with
  | nil => simp
  | cons b l ih =>
    rw [List.map_cons, List.nodup_cons] at hl
    rw [List.foldl_cons, mapSet_of_not_mem (hm b List.mem_cons_self), ih hl.2, List.append_assoc]
    · rfl
    · intro c hc e he
      rcases List.mem_append.1 he with he | he
      · exact hm c (List.mem_cons_of_mem b hc) e he
      · obtain rfl := List.mem_singleton.1 he
        exact fun heq => hl.1 (List.mem_map.2 ⟨c, hc, heq.symm⟩)

theorem lookup_map {α β : Type} {key : β → String} {value : β → α} {l : List β} {b : β}
    (hinj : ∀ c ∈ l, key c = key b → c = b) (hb : b ∈ l) :
    (l.map fun b => (key b, value b)).lookup (key b) = some (value b) := by
  induction l with
  | nil => cases hb
  | cons c l ih =>
    by_cases hkey : key b = key c
    · obtain rfl := hinj c List.mem_cons_self hkey.symm
      simp
    · have hmem : b ∈ l := by
        rcases List.mem_cons.1 hb with rfl | hb
        · exact absurd rfl hkey
        · exact hb
      have hne : (key b == key c) = false := beq_eq_false_iff_ne.2 hkey
      rw [List.map_cons, List.lookup_cons, hne]
      exact ih (fun c hc => hinj c (List.mem_cons_of_mem _ hc)) hmem

/-! ## The two windows -/

theorem readAll_ok (hcomplete : Complete env addr asset net n history) {l : List Touched} (hl : l.Sublist history)
    {reads : Reads} (hsession : reads.session.Right history)
    (hnew : ∀ t ∈ l, ∀ e ∈ reads.txs, e.1 ≠ t.record.version) :
    ∃ s, readAll env net (l.map (·.record.version)) reads =
      ⟨reads.txs ++ l.map (fun t => (t.record.version, t.record)), reads.failures, s⟩ := by
  induction l generalizing reads with
  | nil => exact ⟨reads.session, by simp [readAll]⟩
  | cons t l ih =>
    have hnodup := hcomplete.nodup_versions hl
    rw [List.map_cons, List.nodup_cons] at hnodup
    obtain ⟨hread, hright⟩ := aptosTxByVersion_ok hcomplete hsession (hl.subset List.mem_cons_self)
    cases hanswer : aptosTxByVersion env net reads.session t.record.version with
    | mk answer s =>
      rw [hanswer] at hread hright
      simp only at hread
      subst hread
      have hset := mapSet_of_not_mem (hnew t List.mem_cons_self) t.record
      have hrest : ∀ u ∈ l, ∀ e ∈ mapSet reads.txs t.record.version t.record, e.1 ≠ u.record.version := by
        intro u hu e he
        rw [hset] at he
        rcases List.mem_append.1 he with he | he
        · exact hnew u (List.mem_cons_of_mem t hu) e he
        · obtain rfl := List.mem_singleton.1 he
          exact fun heq => hnodup.1 (List.mem_map.2 ⟨u, hu, heq.symm⟩)
      obtain ⟨s', hrest⟩ := @ih ((List.sublist_cons_self t l).trans hl)
        { reads with txs := mapSet reads.txs t.record.version t.record, session := s } hright hrest
      refine ⟨s', ?_⟩
      rw [List.map_cons, readAll]
      simp only [hanswer]
      rw [hrest, hset]
      simp

/-- What the indexer says of a transaction. -/
def entryOf (env : HistoryEngine) (asset : AptosHistoryAsset) (t : Touched) : AptosIndexerEntry :=
  ⟨t.record.version, (seen env asset t).deposited, isWanted env asset t⟩

theorem filterMap_readRow {rows : List Json} {l : List Touched} (h : List.Forall₂ (Shows env) rows l) :
    rows.filterMap (readRow env asset.isAssetType) = l.map (entryOf env asset) := by
  induction h with
  | nil => rfl
  | @cons row t rows l hrow _ ih =>
    have hread : readRow env asset.isAssetType row = some (entryOf env asset t) := by
      rw [readRow, hrow.1, hrow.2]
      rfl
    rw [List.filterMap_cons_some hread, ih, List.map_cons]

theorem Complete.entries (hcomplete : Complete env addr asset net n history) :
    aptosIndexedTransactions env asset.isAssetType (net.indexer addr n) =
      .ok ((history.take n).map (entryOf env asset)) := by
  obtain ⟨r, j, rows, hreply, hok, hparse, herrors, hrows, hshows⟩ := hcomplete.indexed
  rw [hreply, aptosIndexedTransactions, hok, hparse]
  simp [Except.bind, herrors, aptosIndexerEntries, hrows, filterMap_readRow hshows]

/-! ## The page -/

/-- What is read by version. -/
def readsOf (env : HistoryEngine) (addr : String) (asset : AptosHistoryAsset) (n : Nat) (history : List Touched) :
    List Touched :=
  (history.take n).filter fun t => isWanted env asset t && !isOwn addr t

theorem sends_eq : (history.filter (isOwn addr)).take n =
    (history.take n).filter (isOwn addr) ++ olderSends addr n history := by
  have hlen : ((history.take n).filter (isOwn addr)).length ≤ n :=
    (List.length_filter_le _ _).trans (List.length_take_le n history)
  conv_lhs =>
    rw [← List.take_append_drop n history, List.filter_append, List.take_append, List.take_of_length_le hlen]
  rfl

theorem mem_sends_iff {t : Touched} (ht : t ∈ history.take n) :
    t ∈ (history.filter (isOwn addr)).take n ↔ isOwn addr t = true := by
  constructor
  · intro hmem
    exact (List.mem_filter.1 (List.mem_of_mem_take hmem)).2
  · intro hown
    rw [sends_eq]
    exact List.mem_append_left _ (List.mem_filter.2 ⟨ht, hown⟩)

theorem window_sublist : (history.take n ++ olderSends addr n history).Sublist history := by
  conv_rhs => rw [← List.take_append_drop n history]
  exact (List.Sublist.refl _).append ((List.take_sublist _ _).trans List.filter_sublist)

theorem readsOf_sublist : (readsOf env addr asset n history).Sublist history :=
  List.filter_sublist.trans (List.take_sublist n history)

/-- The sends and the reads are the window, without what nobody lists, and the older sends. -/
theorem windows_perm : ((history.filter (isOwn addr)).take n ++ readsOf env addr asset n history).Perm
    ((history.take n).filter (fun t => isOwn addr t || isWanted env asset t) ++ olderSends addr n history) := by
  have hsplit := List.filter_append_perm (isOwn addr)
    ((history.take n).filter fun t => isOwn addr t || isWanted env asset t)
  have hown : ((history.take n).filter fun t => isOwn addr t || isWanted env asset t).filter (isOwn addr) =
      (history.take n).filter (isOwn addr) := by
    rw [List.filter_filter]
    refine List.filter_congr fun t _ => ?_
    cases isOwn addr t <;> rfl
  have hreads : ((history.take n).filter fun t => isOwn addr t || isWanted env asset t).filter
      (fun t => !isOwn addr t) = readsOf env addr asset n history := by
    rw [List.filter_filter]
    refine List.filter_congr fun t _ => ?_
    cases isOwn addr t <;> simp
  rw [hown, hreads] at hsplit
  rw [sends_eq, List.append_assoc]
  exact (List.perm_append_comm.append_left _).trans
    (by rw [← List.append_assoc]; exact hsplit.append_right _)

theorem Complete.filterMap_window (hcomplete : Complete env addr asset net n history) :
    ((history.take n).filter fun t => isOwn addr t || isWanted env asset t).filterMap (rowOf env addr asset) =
      (history.take n).filterMap (rowOf env addr asset) := by
  rw [List.filterMap_filter]
  refine List.filterMap_congr fun t ht => ?_
  split
  · rfl
  · next hnot =>
    rw [Bool.not_eq_true, Bool.or_eq_false_iff] at hnot
    cases hrow : rowOf env addr asset t with
    | none => rfl
    | some row =>
      have hlisted : isListed env addr asset t = true := by rw [isListed, hrow]; rfl
      have hwanted := hcomplete.wanted (List.mem_of_mem_take ht) hnot.1 hlisted
      rw [hnot.2] at hwanted
      cases hwanted

theorem Complete.falls_rows (hcomplete : Complete env addr asset net n history) {l : List Touched}
    (hl : l.Sublist history) :
    (l.filterMap (rowOf env addr asset)).Pairwise fun a b => heightKey b < heightKey a := by
  rw [List.pairwise_filterMap]
  refine (hcomplete.falls.sublist hl).imp fun {t u} hlt row hrow row' hrow' => ?_
  rw [heightKey_of_row hrow, heightKey_of_row hrow']
  exact hlt

section

variable {records : List AptosTxRecord}

theorem version_mem_iff (hcomplete : Complete env addr asset net n history)
    (hrecords : records.Perm (((history.filter (isOwn addr)).take n).map (·.record))) {t : Touched}
    (ht : t ∈ history.take n) :
    ((records.map fun r => (r.version, r)).any fun e => e.1 = t.record.version) = isOwn addr t := by
  rw [Bool.eq_iff_iff, ← mem_sends_iff ht, List.any_map, List.any_eq_true]
  constructor
  · rintro ⟨r, hr, heq⟩
    obtain ⟨u, hu, rfl⟩ := List.mem_map.1 (hrecords.mem_iff.1 hr)
    have husame := hcomplete.eq_of_version (List.mem_filter.1 (List.mem_of_mem_take hu)).1 (List.mem_of_mem_take ht)
      (of_decide_eq_true heq)
    exact husame ▸ hu
  · intro hmem
    exact ⟨t.record, hrecords.mem_iff.2 (List.mem_map.2 ⟨t, hmem, rfl⟩), decide_eq_true rfl⟩

theorem sent_txs (hcomplete : Complete env addr asset net n history)
    (hrecords : records.Perm (((history.filter (isOwn addr)).take n).map (·.record))) :
    records.foldl (fun m t => mapSet m t.version t) [] = records.map fun r => (r.version, r) := by
  have hnodup : (records.map (·.version)).Nodup := by
    rw [(hrecords.map _).nodup_iff, List.map_map]
    exact hcomplete.nodup_versions ((List.take_sublist _ _).trans List.filter_sublist)
  exact (foldl_mapSet hnodup fun _ _ _ he => absurd he List.not_mem_nil).trans (List.nil_append _)

/-- What the indexer wants. -/
theorem wanted_eq : ((history.take n).map (entryOf env asset)).filter (·.wanted) =
    ((history.take n).filter (isWanted env asset)).map (entryOf env asset) := List.filter_map

theorem missing_eq (hcomplete : Complete env addr asset net n history)
    (hrecords : records.Perm (((history.filter (isOwn addr)).take n).map (·.record))) :
    ((((history.take n).filter (isWanted env asset)).map (entryOf env asset)).map (·.version)).filter
        (fun v => !(records.map fun r => (r.version, r)).any fun e => e.1 = v) =
      (readsOf env addr asset n history).map (·.record.version) := by
  have hversions : (((history.take n).filter (isWanted env asset)).map (entryOf env asset)).map (·.version) =
      ((history.take n).filter (isWanted env asset)).map (·.record.version) := List.map_map
  rw [hversions, List.filter_map, List.filter_filter, readsOf]
  refine congrArg _ (List.filter_congr fun t ht => ?_)
  rw [Function.comp_apply, version_mem_iff hcomplete hrecords ht, Bool.and_comm]

theorem deposits_lookup (hcomplete : Complete env addr asset net n history) {t : Touched} (ht : t ∈ history.take n)
    (hwanted : isWanted env asset t = true) :
    (depositsOf (((history.take n).filter (isWanted env asset)).map (entryOf env asset))).lookup t.record.version =
      some (seen env asset t).deposited := by
  have hsub : ((history.take n).filter (isWanted env asset)).Sublist history :=
    List.filter_sublist.trans (List.take_sublist n history)
  have hdeposits : depositsOf (((history.take n).filter (isWanted env asset)).map (entryOf env asset)) =
      ((history.take n).filter (isWanted env asset)).map
        fun t => (t.record.version, (seen env asset t).deposited) := by
    rw [depositsOf, List.foldl_map]
    exact (foldl_mapSet (hcomplete.nodup_versions hsub) fun _ _ _ he => absurd he List.not_mem_nil).trans
      (List.nil_append _)
  rw [hdeposits]
  exact lookup_map (fun u hu heq => hcomplete.eq_of_version (hsub.subset hu) (List.mem_of_mem_take ht) heq)
    (List.mem_filter.2 ⟨ht, hwanted⟩)

/-- The rows of what is read are the rows of the window and of the older sends. -/
theorem aptosRows_eq (hcomplete : Complete env addr asset net n history)
    (hrecords : records.Perm (((history.filter (isOwn addr)).take n).map (·.record))) :
    aptosRows env ((records.map fun r => (r.version, r)) ++
        (readsOf env addr asset n history).map fun t => (t.record.version, t.record))
      (depositsOf (((history.take n).filter (isWanted env asset)).map (entryOf env asset))) addr asset n =
    ((history.take n ++ olderSends addr n history).filterMap (rowOf env addr asset)).take n := by
  let deposits := depositsOf (((history.take n).filter (isWanted env asset)).map (entryOf env asset))
  let row := fun r : AptosTxRecord => aptosHistoryRow env r addr ((deposits.lookup r.version).getD 0) asset
  have hraw : ((records.map fun r => (r.version, r)) ++
      (readsOf env addr asset n history).map fun t => (t.record.version, t.record)).filterMap (fun e => row e.2) =
        (records ++ (readsOf env addr asset n history).map (·.record)).filterMap row := by
    rw [List.filterMap_append, List.filterMap_append, List.filterMap_map, List.filterMap_map, List.filterMap_map]
    rfl
  have hjoin : (records ++ (readsOf env addr asset n history).map (·.record)).Perm
      (((history.filter (isOwn addr)).take n ++ readsOf env addr asset n history).map (·.record)) := by
    rw [List.map_append]
    exact hrecords.append_right _
  have hrows : (((history.filter (isOwn addr)).take n ++ readsOf env addr asset n history).map
      (·.record)).filterMap row = ((history.filter (isOwn addr)).take n ++ readsOf env addr asset n history).filterMap
        (rowOf env addr asset) := by
    rw [List.filterMap_map]
    refine List.filterMap_congr fun t ht => ?_
    rcases List.mem_append.1 ht with ht | ht
    · exact aptosHistoryRow_own (List.mem_filter.1 (List.mem_of_mem_take ht)).2 _ _
    · rw [readsOf, List.mem_filter, Bool.and_eq_true] at ht
      show aptosHistoryRow env t.record addr ((deposits.lookup t.record.version).getD 0) asset = _
      rw [deposits_lookup hcomplete ht.1 ht.2.1]
      rfl
  have hwindow : (((history.take n).filter fun t => isOwn addr t || isWanted env asset t) ++
      olderSends addr n history).filterMap (rowOf env addr asset) =
        (history.take n ++ olderSends addr n history).filterMap (rowOf env addr asset) := by
    rw [List.filterMap_append, List.filterMap_append, hcomplete.filterMap_window]
  have hperm := (hjoin.filterMap row).trans (hrows ▸ windows_perm.filterMap (rowOf env addr asset))
  rw [hwindow] at hperm
  rw [aptosRows]
  show (Js.sort _ (((records.map fun r => (r.version, r)) ++
    (readsOf env addr asset n history).map fun t => (t.record.version, t.record)).filterMap
      fun e => row e.2)).take n = _
  rw [hraw, Slice.sort_eq hperm (hcomplete.falls_rows window_sublist)]

theorem take_filterMap {α β : Type} {f : α → Option β} (l : List α) (k : Nat) :
    (l.filterMap f).take k = ((l.filter fun a => (f a).isSome).take k).filterMap f := by
  induction l generalizing k with
  | nil => simp
  | cons a l ih =>
    cases ha : f a with
    | none => simp [ha, ih]
    | some b =>
      cases k with
      | zero => simp
      | succ k => simp [ha, ih]

theorem length_filterMap {l : List Touched} :
    (l.filterMap (rowOf env addr asset)).length = (l.filter (isListed env addr asset)).length := by
  rw [List.length_filterMap_eq_countP, List.countP_eq_length_filter]
  rfl

theorem take_rows : ((history.take n ++ olderSends addr n history).filterMap (rowOf env addr asset)).take n =
    (history.take n ++ appended env addr asset n history).filterMap (rowOf env addr asset) := by
  have hlen : ((history.take n).filterMap (rowOf env addr asset)).length ≤ n :=
    (List.length_filterMap_le _ _).trans (List.length_take_le n history)
  rw [List.filterMap_append, List.take_append, List.take_of_length_le hlen, List.filterMap_append, length_filterMap,
    take_filterMap]
  rfl

/-- The page is the rows of the window, and of the older sends there is room for. -/
theorem aptosAssetHistory_ok {s : Session} {address : String} {limit : Option Rat}
    (haddress : normalizeAptosAddress address = .ok addr)
    (hcomplete : Complete env addr asset net (limitOf limit) history) (hsession : s.Right history) :
    (aptosAssetHistory env net s address limit asset).1 =
      .ok ((history.take (limitOf limit) ++ appended env addr asset (limitOf limit) history).filterMap
        (rowOf env addr asset)) := by
  obtain ⟨records, hsent, hrecords⟩ := hcomplete.sent
  have hknown : ∀ r ∈ records, ∃ t ∈ history, t.record = r := by
    intro r hr
    obtain ⟨t, ht, rfl⟩ := List.mem_map.1 (hrecords.mem_iff.1 hr)
    exact ⟨t, (List.mem_filter.1 (List.mem_of_mem_take ht)).1, rfl⟩
  have hright := Session.Right.foldl_cache hcomplete hknown hsession
  have hmissing := missing_eq hcomplete hrecords
  have hnew : ∀ t ∈ readsOf env addr asset (limitOf limit) history, ∀ e ∈ records.map (fun r => (r.version, r)),
      e.1 ≠ t.record.version := by
    intro t ht e he heq
    rw [readsOf, List.mem_filter, Bool.and_eq_true, Bool.not_eq_true'] at ht
    have hany : ((records.map fun r => (r.version, r)).any fun e => e.1 = t.record.version) = true :=
      List.any_eq_true.2 ⟨e, he, decide_eq_true heq⟩
    rw [version_mem_iff hcomplete hrecords ht.1, ht.2.2] at hany
    cases hany
  let session := records.foldl cacheAptosTx s
  have hreads : ∀ s' : Session, s'.cache = session.cache → ∃ s'',
      readAll env net ((readsOf env addr asset (limitOf limit) history).map (·.record.version))
        ⟨records.map fun r => (r.version, r), [], s'⟩ =
      ⟨(records.map fun r => (r.version, r)) ++
        (readsOf env addr asset (limitOf limit) history).map fun t => (t.record.version, t.record), [], s''⟩ :=
    fun s' hcache => readAll_ok hcomplete readsOf_sublist (hright.of_cache hcache) hnew
  have hrun : ∃ s'', readWanted env net (records.map fun r => (r.version, r))
      (((history.take (limitOf limit)).filter (isWanted env asset)).map (entryOf env asset)) session =
      ⟨(records.map fun r => (r.version, r)) ++
        (readsOf env addr asset (limitOf limit) history).map fun t => (t.record.version, t.record), [], s''⟩ := by
    rw [readWanted]
    simp only [hmissing]
    split
    · exact hreads _ (learnAptosOldestKept_cache session)
    · exact hreads _ rfl
  obtain ⟨s'', hrun⟩ := hrun
  simp only [aptosAssetHistory, haddress, hsent, hcomplete.entries, Except.toOption, Option.getD_some,
    sent_txs hcomplete hrecords, wanted_eq]
  rw [hrun, aptosRows_eq hcomplete hrecords, take_rows]
  simp

end

/-! ## Holes -/

theorem appended_sublist : (appended env addr asset n history).Sublist (history.drop n) :=
  (List.take_sublist _ _).trans (List.filter_sublist.trans ((List.take_sublist _ _).trans List.filter_sublist))

/-- What is newer than a transfer the page takes, and is the account's own, the page takes too. -/
theorem Complete.mem_appended (hcomplete : Complete env addr asset net n history) {t u : Touched}
    (ht : t ∈ history.drop n) (hown : isOwn addr t = true) (hlisted : isListed env addr asset t = true)
    (hu : u ∈ appended env addr asset n history) (hlt : heightOf u < heightOf t) :
    t ∈ appended env addr asset n history := by
  have hfalls : (history.drop n).Pairwise fun a b => heightOf b < heightOf a :=
    hcomplete.falls.sublist (List.drop_sublist n history)
  have holder : u ∈ olderSends addr n history := (List.mem_filter.1 (List.mem_of_mem_take hu)).1
  have hin : t ∈ olderSends addr n history :=
    Slice.mem_of_initial (hfalls.sublist List.filter_sublist) (List.take_prefix _ _) (List.mem_filter.2 ⟨ht, hown⟩)
      holder hlt
  have hfalls' : ((olderSends addr n history).filter (isListed env addr asset)).Pairwise
      fun a b => heightOf b < heightOf a :=
    hfalls.sublist (List.filter_sublist.trans ((List.take_sublist _ _).trans List.filter_sublist))
  exact Slice.mem_of_initial hfalls' (List.take_prefix _ _) (List.mem_filter.2 ⟨hin, hlisted⟩) hu hlt

theorem page_sublist : (history.take n ++ appended env addr asset n history).Sublist history := by
  conv_rhs => rw [← List.take_append_drop n history]
  exact (List.Sublist.refl _).append appended_sublist

theorem Complete.window_above (hcomplete : Complete env addr asset net n history) {t u : Touched}
    (ht : t ∈ history.take n) (hu : u ∈ history.drop n) : heightOf u < heightOf t := by
  have hfalls := hcomplete.falls
  rw [← List.take_append_drop n history] at hfalls
  exact (List.pairwise_append.1 hfalls).2.2 t ht u hu

theorem last_le {l : List ChainTx} {a last : ChainTx} (hl : l.Pairwise fun a b => heightKey b < heightKey a)
    (hlast : l.getLast? = some last) (ha : a ∈ l) : heightKey last ≤ heightKey a := by
  obtain ⟨front, rfl⟩ := List.getLast?_eq_some_iff.1 hlast
  rcases List.mem_append.1 ha with ha | ha
  · exact Int.le_of_lt ((List.pairwise_append.1 hl).2.2 a ha last (List.mem_singleton_self last))
  · rw [List.mem_singleton.1 ha]

theorem page_length : ((history.take n ++ appended env addr asset n history).filterMap
    (rowOf env addr asset)).length ≤ n := by
  rw [← take_rows]
  exact List.length_take_le n _

/-- The page is the newest rows exactly if there is no gap. -/
theorem isNewest_iff (hcomplete : Complete env addr asset net n history) :
    IsNewest env addr asset n history ((history.take n ++ appended env addr asset n history).filterMap
      (rowOf env addr asset)) ↔ ¬ Gap env addr asset n history := by
  have hsub : (history.take n ++ appended env addr asset n history).Sublist history := page_sublist
  have hfalls := hcomplete.falls_rows hsub
  constructor
  · rintro hnewest ⟨t, ht, hforeign, hlisted, u, hu, hlt⟩
    obtain ⟨row, hrow⟩ := Option.isSome_iff_exists.1 hlisted
    obtain ⟨row', hrow'⟩ := Option.isSome_iff_exists.1 (List.mem_filter.1 (List.mem_of_mem_take hu)).2
    have hmem' := List.mem_filterMap.2 ⟨u, List.mem_append_right (history.take n) hu, hrow'⟩
    obtain ⟨last, hlast⟩ := Option.isSome_iff_exists.1
      (List.getLast?_isSome.2 (List.ne_nil_of_mem hmem'))
    have hle := last_le hfalls hlast hmem'
    have hbelow : heightKey last < heightKey row := by
      rw [heightKey_of_row hrow'] at hle
      rw [heightKey_of_row hrow]
      omega
    have hmem := hnewest.whole t (List.mem_of_mem_drop ht) row last hrow hlast hbelow
    obtain ⟨v, hv, hrowv⟩ := List.mem_filterMap.1 hmem
    have hsame : v = t := hcomplete.eq_of_height (hsub.subset hv) (List.mem_of_mem_drop ht)
      (by rw [← heightKey_of_row hrowv, heightKey_of_row hrow])
    rw [hsame] at hv
    rcases List.mem_append.1 hv with hv | hv
    · exact absurd (hcomplete.window_above hv ht) (Int.lt_irrefl _)
    · have hown := (List.mem_filter.1 (List.mem_of_mem_take
        (List.mem_filter.1 (List.mem_of_mem_take hv)).1)).2
      rw [hforeign] at hown
      cases hown
  · intro hgap
    refine ⟨hfalls, page_length, fun row hrow => ?_, fun t ht row last hrow hlast hbelow => ?_⟩
    · obtain ⟨t, ht, hrow⟩ := List.mem_filterMap.1 hrow
      exact ⟨t, hsub.subset ht, hrow⟩
    · obtain ⟨u, hu, hrow'⟩ := List.mem_filterMap.1 (List.mem_of_getLast? hlast)
      rw [heightKey_of_row hrow, heightKey_of_row hrow'] at hbelow
      rw [← List.take_append_drop n history] at ht
      refine List.mem_filterMap.2 ⟨t, ?_, hrow⟩
      rcases List.mem_append.1 ht with ht | ht
      · exact List.mem_append_left _ ht
      · rcases List.mem_append.1 hu with hu | hu
        · have := hcomplete.window_above hu ht
          omega
        · have hlisted : isListed env addr asset t = true := by rw [isListed, hrow]; rfl
          cases hown : isOwn addr t with
          | true => exact List.mem_append_right _ (hcomplete.mem_appended ht hown hlisted hu hbelow)
          | false => exact absurd ⟨t, ht, hown, hlisted, u, hu, hbelow⟩ hgap

/-- With complete services, the history of an account is a page of its newest rows exactly if there is no gap. -/
theorem aptos_history_whole (env : HistoryEngine) (net : Services) (s : Session) (address addr : String)
    (limit : Option Rat) (asset : AptosHistoryAsset) (history : List Touched)
    (haddress : normalizeAptosAddress address = .ok addr)
    (hcomplete : Complete env addr asset net (limitOf limit) history) (hsession : s.Right history) :
    (∃ page, (aptosAssetHistory env net s address limit asset).1 = .ok page ∧
      IsNewest env addr asset (limitOf limit) history page) ↔ ¬ Gap env addr asset (limitOf limit) history := by
  rw [aptosAssetHistory_ok haddress hcomplete hsession, ← isNewest_iff hcomplete]
  constructor
  · rintro ⟨page, hpage, hnewest⟩
    exact Except.ok.inj hpage ▸ hnewest
  · intro hnewest
    exact ⟨_, rfl, hnewest⟩

end

/-! ### A receipt between two windows -/

def sampleAddress : String := "0x00000000000000000000000000000000000000000000000000000000000000a1"

/-- A transfer of APT, or with no function another call. -/
def sampleTx (version sender function recipient : String) : Json :=
  .obj [("type", .str "user_transaction"), ("version", .str version), ("hash", .str version), ("sender", .str sender),
    ("success", .bool true),
    ("payload", .obj [("function", .str function), ("arguments", .arr [.str recipient, .str "5"])])]

def sampleSend : Json := sampleTx "1" "0xa1" "0x1::aptos_account::transfer" "0xb2"
def sampleReceipt : Json := sampleTx "2" "0xb2" "0x1::aptos_account::transfer" "0xa1"
def sampleCall : Json := sampleTx "3" "0xb2" "0x7::game::play" "0xa1"

def sampleDeposit : Json :=
  .obj [("type", .str "0x1::fungible_asset::Deposit"), ("amount", .str "5"), ("asset_type", .str "0xa"),
    ("is_gas_fee", .bool false), ("is_transaction_success", .bool true)]

def sampleHistoryEnv : HistoryEngine where
  jsonParse text :=
    if text = "1" then .ok sampleSend
    else if text = "2" then .ok sampleReceipt
    else if text = "3" then .ok sampleCall
    else if text = "sent" then .ok (.arr [sampleSend])
    else .ok (.obj [("data", .obj [("account_transactions",
      .arr [.obj [("transaction_version", .str "3"), ("fungible_asset_activities", .arr [])]])])])
  toText
    | .str s => s
    | .bool true => "true"
    | .bool false => "false"
    | .null => "null"
    | .int n => toString n
    | .float text => text
    | .arr _ => ""
    | .obj _ => "[object Object]"
  seconds _ := none

/-- The services with a limit of one. -/
def sampleServices : Services where
  sent _ _ := .ok ⟨200, none, "sent"⟩
  indexer _ _ := .ok ⟨200, none, "indexed"⟩
  info := .error "unreachable"
  fullnode version := .ok ⟨200, none, version⟩
  archive version := .ok ⟨200, none, version⟩

/-- A send, a receipt after it, and a call after both that moved nothing. -/
def sampleHistory : List Touched :=
  [⟨slimAptosTx sampleHistoryEnv sampleCall, []⟩, ⟨slimAptosTx sampleHistoryEnv sampleReceipt, [sampleDeposit]⟩,
    ⟨slimAptosTx sampleHistoryEnv sampleSend, []⟩]

theorem sampleHistory_own : sampleHistory.map (isOwn sampleAddress) = [false, false, true] := by decide +kernel

theorem sampleHistory_listed :
    sampleHistory.map (isListed sampleHistoryEnv sampleAddress APT_HISTORY_ASSET) = [false, true, true] := by
  decide +kernel

theorem sampleHistory_complete :
    Complete sampleHistoryEnv sampleAddress APT_HISTORY_ASSET sampleServices 1 sampleHistory := by
  have hown := sampleHistory_own
  simp only [sampleHistory, List.map_cons, List.map_nil, List.cons.injEq, and_true] at hown
  obtain ⟨hcall, hreceipt, hsend⟩ := hown
  have hserves : ∀ t ∈ sampleHistory, Serves sampleHistoryEnv (.ok ⟨200, none, t.record.version⟩) t := by
    simp only [sampleHistory, List.forall_mem_cons, List.not_mem_nil, false_implies, implies_true, and_true]
    exact ⟨⟨_, sampleCall, rfl, by decide, by decide, rfl, rfl⟩,
      ⟨_, sampleReceipt, rfl, by decide, by decide, rfl, rfl⟩, ⟨_, sampleSend, rfl, by decide, by decide, rfl, rfl⟩⟩
  refine ⟨by decide +kernel, by decide +kernel, ⟨_, rfl, ?_⟩, ⟨_, _, _, rfl, by decide, rfl, rfl, rfl, ?_⟩, ?_,
    fun t ht => .inl (hserves t ht), hserves⟩
  · simp [sampleHistory, hcall, hreceipt, hsend]
  · exact .cons ⟨rfl, rfl⟩ .nil
  · intro t ht hforeign xfer hxfer hpays
    simp only [sampleHistory, List.mem_cons, List.not_mem_nil, or_false] at ht
    rcases ht with rfl | rfl | rfl
    · have hnone : transferOf sampleHistoryEnv.toEngine (slimAptosTx sampleHistoryEnv sampleCall)
          APT_HISTORY_ASSET = none :=
        Option.isNone_iff_eq_none.1 (by decide +kernel)
      rw [hnone] at hxfer
      cases hxfer
    · exact ⟨sampleDeposit, List.mem_cons_self, by decide +kernel, by decide +kernel⟩
    · rw [hsend] at hforeign
      cases hforeign

theorem aptos_history_whole_sample :
    (∃ page, (aptosAssetHistory sampleHistoryEnv sampleServices ⟨[], none⟩ "0xa1" (some 1) APT_HISTORY_ASSET).1 =
        .ok page ∧ IsNewest sampleHistoryEnv sampleAddress APT_HISTORY_ASSET (limitOf (some 1)) sampleHistory page) ↔
      ¬ Gap sampleHistoryEnv sampleAddress APT_HISTORY_ASSET (limitOf (some 1)) sampleHistory :=
  aptos_history_whole sampleHistoryEnv sampleServices ⟨[], none⟩ "0xa1" sampleAddress (some 1) APT_HISTORY_ASSET
    sampleHistory (by decide +kernel) sampleHistory_complete fun e he => absurd he List.not_mem_nil

/-- The page is the send alone: the newer receipt is in neither window. -/
theorem sampleHistory_gap : Gap sampleHistoryEnv sampleAddress APT_HISTORY_ASSET 1 sampleHistory := by
  have hown := sampleHistory_own
  have hlisted := sampleHistory_listed
  simp only [sampleHistory, List.map_cons, List.map_nil, List.cons.injEq, and_true] at hown hlisted
  obtain ⟨hcall, hreceipt, hsend⟩ := hown
  obtain ⟨hcall', hreceipt', hsend'⟩ := hlisted
  refine ⟨_, List.mem_cons_self, hreceipt, hreceipt', ⟨slimAptosTx sampleHistoryEnv sampleSend, []⟩, ?_,
    by decide +kernel⟩
  simp [appended, olderSends, sampleHistory, hcall, hreceipt, hsend, hcall', hsend']

theorem not_always_whole : ¬ ∀ (env : HistoryEngine) (net : Services) (s : Session) (address addr : String)
    (limit : Option Rat) (asset : AptosHistoryAsset) (history : List Touched),
    normalizeAptosAddress address = .ok addr → Complete env addr asset net (limitOf limit) history →
      s.Right history → ∃ page, (aptosAssetHistory env net s address limit asset).1 = .ok page ∧
        IsNewest env addr asset (limitOf limit) history page := by
  intro h
  have hright : Session.Right ⟨[], none⟩ sampleHistory := fun e he => absurd he List.not_mem_nil
  have haddress : normalizeAptosAddress "0xa1" = .ok sampleAddress := by decide +kernel
  obtain ⟨page, hpage, hnewest⟩ := h sampleHistoryEnv sampleServices ⟨[], none⟩ "0xa1" sampleAddress (some 1)
    APT_HISTORY_ASSET sampleHistory haddress sampleHistory_complete hright
  have hok : (aptosAssetHistory sampleHistoryEnv sampleServices ⟨[], none⟩ "0xa1" (some 1) APT_HISTORY_ASSET).1 = _ :=
    aptosAssetHistory_ok haddress sampleHistory_complete hright
  rw [hok] at hpage
  rw [← Except.ok.inj hpage] at hnewest
  exact (isNewest_iff sampleHistory_complete).1 hnewest sampleHistory_gap

end Aptos
