import PwndaWallet.Hedera.Memory
import PwndaWallet.Lib.Slice

/-!
# The remembered history and the full one

Each walk reads a slice of the mirror's list, the memory is a slice of it, and what is joined of them is one. The
join goes wrong in one way: the memory's cursor may be newer than its top, and the rows between the two are then
read again above the cursor, so following it gives them twice.
-/

namespace Hedera

/-! ## A mirror that only grows -/

/-- Everything that the mirror ever lists. -/
def ever (listed : Nat → Set Row) : Set Row := {r | ∃ k, r ∈ listed k}

def above (point : Option Nat) (t : Int) : Prop := ∀ lt ∈ point, (lt : Int) ≤ t

def Query.covers (q : Query) (t : Int) : Prop := (∀ g ∈ q.gt, g < t) ∧ ∀ lt ∈ q.lt, t < (lt : Int)

/-- What the mirror has at each request, of which a page lists what its query covers, down to where its link goes
on, and everything until its own date less the margin is in it. -/
structure MirrorLaw (mirror : Mirror) (listed : Nat → Set Row) : Prop where
  grows : ∀ k, ∀ r ∈ listed k, r ∈ listed (k + 1)
  once : ∀ i j, ∀ r ∈ listed i, ∀ s ∈ listed j, r.consensusTimestamp = s.consensusTimestamp → r = s
  last : ∀ k q data, mirror k q = .ok data → data.next = none →
    Slice Row.time (listed k) (listed k) q.covers data.transactions
  linked : ∀ k q data q', mirror k q = .ok data → data.next = some q' → ∃ lt, q' = { q with lt := some lt } ∧
    (∀ g ∈ q.gt, g < lt) ∧ (∀ u ∈ q.lt, lt ≤ u) ∧
    Slice Row.time (listed k) (listed k) (fun t => q.covers t ∧ (lt : Int) ≤ t) data.transactions
  dated : ∀ k q data ms, mirror k q = .ok data → data.date = some ms →
    ∀ r ∈ ever listed, r.time ≤ settledBefore (nsOfMs ms) → r ∈ listed k

/-- The rows fall in time, each once, are the account's, and are all of those that were listed when the read
began, down to the point at which the next page begins. -/
def Right (listed : Nat → Set Row) (k : Nat) (read : Read) : Prop :=
  Slice Row.time (ever listed) (listed k) (above (linkOlderThan read.next)) read.raw

/-- The read finds no row between the memory's top and its cursor, or it ends at or below those that it finds. -/
def Good (mirror : Mirror) (k : Nat) (memo : Option HederaHistoryMemo) (limit : Nat) : Prop :=
  ∀ m ∈ memo, ∀ lt ∈ m.olderThan, ∀ span, readSpan mirror k m limit = .ok span → span.next = none →
    (∀ r ∈ span.raw, lt ≤ r.consensusTimestamp) ∨
    enough m limit span = false ∧ ∃ older, readBelow mirror k m limit span lt = .ok older ∧
      ∀ r ∈ span.raw, above (linkOlderThan older.next) r.time

/-- The memory of an account before a request, where every read so far was good. -/
inductive Runs (mirror : Mirror) : Nat → Option HederaHistoryMemo → Prop
  | start (k : Nat) : Runs mirror k none
  | read {j k : Nat} {memo : Option HederaHistoryMemo} {limit : Nat} (h : Runs mirror j memo) (hle : j ≤ k)
      (hgood : Good mirror k memo limit) :
      Runs mirror (k + HEDERA_HISTORY_MAX_PAGES) (readRecentHedera mirror k memo limit).2

/-- The rows of a first page, read from request `k` on, and of the pages of the cursors after it. -/
inductive Visited (mirror : Mirror) (k : Nat) : Nat → List Row → Option Nat → Prop
  | first {j : Nat} {memo memo' : Option HederaHistoryMemo} {limit : Option Nat} {page : TxHistoryPage}
      (h : Runs mirror j memo) (hle : j ≤ k) (hgood : Good mirror k memo (limit.getD 25)) (hlimit : limit ≠ some 0)
      (hpage : getTransactionHistory mirror k memo limit none = (.ok page, memo')) :
      Visited mirror k (k + HEDERA_HISTORY_MAX_PAGES) page.items page.cursor
  | older {i j lt : Nat} {rows : List Row} {memo memo' : Option HederaHistoryMemo} {limit : Option Nat}
      {page : TxHistoryPage} (h : Visited mirror k j rows (some lt)) (hle : j ≤ i) (hlimit : limit ≠ some 0)
      (hpage : getTransactionHistory mirror i memo limit (some lt) = (.ok page, memo')) :
      Visited mirror k (i + HEDERA_HISTORY_MAX_PAGES) (rows ++ page.items) page.cursor

/-! ## Merging -/

theorem mem_of_firsts {seen : List (Nat × String × Nat)} {l : List Row} {r : Row} (h : r ∈ firsts seen l) :
    r ∈ l ∧ rowKey r ∉ seen := by
  induction l generalizing seen with
  | nil => cases h
  | cons t rest ih =>
    rw [firsts] at h
    by_cases ht : rowKey t ∈ seen
    · rw [if_pos ht] at h
      obtain ⟨hr, hs⟩ := ih h
      exact ⟨List.mem_cons_of_mem _ hr, hs⟩
    · rw [if_neg ht] at h
      rcases List.mem_cons.1 h with rfl | h
      · exact ⟨List.mem_cons_self, ht⟩
      · obtain ⟨hr, hs⟩ := ih h
        exact ⟨List.mem_cons_of_mem _ hr, fun hmem => hs (List.mem_cons_of_mem _ hmem)⟩

theorem exists_firsts {seen : List (Nat × String × Nat)} {l : List Row} {r : Row} (hr : r ∈ l)
    (hs : rowKey r ∉ seen) : ∃ s ∈ firsts seen l, rowKey s = rowKey r := by
  induction l generalizing seen with
  | nil => cases hr
  | cons t rest ih =>
    rw [firsts]
    by_cases ht : rowKey t ∈ seen
    · rw [if_pos ht]
      apply ih _ hs
      rcases List.mem_cons.1 hr with rfl | hr
      · exact absurd ht hs
      · exact hr
    · rw [if_neg ht]
      by_cases hkey : rowKey r = rowKey t
      · exact ⟨t, List.mem_cons_self, hkey.symm⟩
      · have hr' : r ∈ rest := by
          rcases List.mem_cons.1 hr with rfl | hr
          · exact absurd rfl hkey
          · exact hr
        obtain ⟨s, hsmem, hskey⟩ := ih hr' (List.not_mem_cons_of_ne_of_not_mem hkey hs)
        exact ⟨s, List.mem_cons_of_mem _ hsmem, hskey⟩

theorem firsts_pairwise (seen : List (Nat × String × Nat)) (l : List Row) :
    (firsts seen l).Pairwise fun a b => rowKey a ≠ rowKey b := by
  induction l generalizing seen with
  | nil => exact List.Pairwise.nil
  | cons t rest ih =>
    rw [firsts]
    by_cases ht : rowKey t ∈ seen
    · rw [if_pos ht]
      exact ih seen
    · rw [if_neg ht, List.pairwise_cons]
      refine ⟨?_, ih _⟩
      intro b hb heq
      apply (mem_of_firsts hb).2
      simp [heq]

/-! ## What a walk reads -/

section

variable {listed : Nat → Set Row}

/-- What a walk from a request on has read. -/
structure Walked (listed : Nat → Set Row) (k : Nat) (path : Query) (raw : List Row) (next : Option Query) : Prop where
  slice : Slice Row.time (ever listed) (listed k) (fun t => path.covers t ∧ above (linkOlderThan next) t) raw
  link : ∀ q ∈ next, ∃ lt, q.lt = some lt ∧ (∀ g ∈ path.gt, g < lt) ∧ ∀ u ∈ path.lt, lt ≤ u

theorem Walked.point {k : Nat} {path : Query} {raw : List Row} {next : Option Query}
    (h : Walked listed k path raw next) {lt : Nat} (hlt : lt ∈ linkOlderThan next) : (∀ g ∈ path.gt, g < lt) ∧ ∀ u ∈ path.lt, lt ≤ u := by
  obtain ⟨q, hq, hq'⟩ := Option.bind_eq_some_iff.1 hlt
  obtain ⟨lt', hlt', hlink⟩ := h.link q hq
  obtain rfl := Option.some.inj (hq'.symm.trans hlt')
  exact hlink

theorem Walked.ended {k : Nat} {path : Query} {raw : List Row} {next : Option Query}
    (h : Walked listed k path raw next) (hnone : linkOlderThan next = none) : next = none := by
  cases next with
  | none => rfl
  | some q =>
    obtain ⟨lt, hlt, -⟩ := h.link q rfl
    rw [linkOlderThan, Option.bind_some, hlt] at hnone
    cases hnone

theorem ever_slice {S : Set Row} {p : Int → Prop} {l : List Row} {k : Nat} (h : Slice Row.time (listed k) S p l) :
    Slice Row.time (ever listed) S p l :=
  ⟨h.falls, fun a ha => ⟨k, h.mem a ha⟩, h.range, h.all⟩

/-- Nothing read at a link. -/
theorem Walked.stop {k lt : Nat} {p : Query} (hlt : p.lt = some lt) (hgt : ∀ g ∈ p.gt, g < lt) :
    Walked listed k p [] (some p) := by
  refine ⟨Slice.nil ?_, ?_⟩
  · rintro t ⟨hcovers, habove⟩
    have h₁ := hcovers.2 lt hlt
    have h₂ := habove lt hlt
    omega
  · intro q hq
    obtain rfl := Option.some.inj hq
    refine ⟨lt, hlt, hgt, ?_⟩
    intro u hu
    obtain rfl := Option.some.inj (hlt.symm.trans hu)
    exact Nat.le_refl _

end

/-! ## Under the mirror's law -/

section

variable {mirror : Mirror} {listed : Nat → Set Row} (law : MirrorLaw mirror listed)
include law

theorem MirrorLaw.eq_of_time {r s : Row} (hr : r ∈ ever listed) (hs : s ∈ ever listed) (h : r.time = s.time) :
    r = s := by
  obtain ⟨i, hi⟩ := hr
  obtain ⟨j, hj⟩ := hs
  exact law.once i j r hi s hj (Int.ofNat_inj.1 h)

theorem MirrorLaw.listed_le {j k : Nat} (h : j ≤ k) {r : Row} (hr : r ∈ listed j) : r ∈ listed k := by
  induction h with
  | refl => exact hr
  | step _ ih => exact law.grows _ _ ih

theorem mem_merge {newer older : List Row} (hn : ∀ r ∈ newer, r ∈ ever listed) (ho : ∀ r ∈ older, r ∈ ever listed)
    (r : Row) : r ∈ mergeMirrorRows newer older ↔ r ∈ newer ∨ r ∈ older := by
  have hever : ∀ s ∈ newer ++ older, s ∈ ever listed := by
    intro s hs
    rcases List.mem_append.1 hs with hs | hs
    · exact hn s hs
    · exact ho s hs
  rw [mergeMirrorRows, Js.mem_sort, ← List.mem_append]
  constructor
  · intro h
    exact (mem_of_firsts h).1
  · intro h
    obtain ⟨s, hs, hkey⟩ := exists_firsts h (List.not_mem_nil (a := rowKey r))
    have htime : s.consensusTimestamp = r.consensusTimestamp := congrArg (·.1) hkey
    have heq : s = r := law.eq_of_time (hever s (mem_of_firsts hs).1) (hever r h) (congrArg Int.ofNat htime)
    rwa [heq] at hs

theorem merge_falls {newer older : List Row} (hn : ∀ r ∈ newer, r ∈ ever listed)
    (ho : ∀ r ∈ older, r ∈ ever listed) :
    (mergeMirrorRows newer older).Pairwise fun a b => b.time < a.time := by
  apply Slice.falls_sort
  have hever : ∀ s ∈ firsts [] (newer ++ older), s ∈ ever listed := by
    intro s hs
    rcases List.mem_append.1 (mem_of_firsts hs).1 with hs | hs
    · exact hn s hs
    · exact ho s hs
  refine (firsts_pairwise [] _).imp_of_mem ?_
  intro a b ha hb hne htime
  exact hne (congrArg rowKey (law.eq_of_time (hever a ha) (hever b hb) htime))

theorem merge_slice {S T U : Set Row} {p q : Int → Prop} {l m : List Row} (h : Slice Row.time (ever listed) S p l)
    (h' : Slice Row.time (ever listed) T q m)
    (hU : ∀ a ∈ U, p a.time ∨ q a.time → p a.time ∧ a ∈ S ∨ q a.time ∧ a ∈ T) :
    Slice Row.time (ever listed) U (fun t => p t ∨ q t) (mergeMirrorRows l m) :=
  h.union h' (mem_merge law h.mem h'.mem) (merge_falls law h.mem h'.mem) hU

/-- A page whose link goes on, and what is walked from there. -/
theorem Walked.cons {k lt : Nat} {p : Query} {rows raw : List Row} {next : Option Query}
    (hlt : ∀ u ∈ p.lt, lt ≤ u)
    (hpage : Slice Row.time (listed k) (listed k) (fun t => p.covers t ∧ (lt : Int) ≤ t) rows)
    (h : Walked listed (k + 1) { p with lt := some lt } raw next) : Walked listed k p (rows ++ raw) next := by
  have hpoint : ∀ u ∈ linkOlderThan next, u ≤ lt := fun u hu => (h.point hu).2 lt rfl
  have hrest := h.slice.mono (T := listed k) fun a ha _ => law.grows k a ha
  refine ⟨((ever_slice hpage).append hrest ?_).congr ?_, ?_⟩
  · intro t ht u hu
    have := hu.1.2 lt rfl
    have := ht.2
    omega
  · intro t
    constructor
    · rintro (⟨hcovers, hle⟩ | ⟨hcovers, habove⟩)
      · refine ⟨hcovers, ?_⟩
        intro u hu
        have := hpoint u hu
        omega
      · refine ⟨⟨hcovers.1, ?_⟩, habove⟩
        intro u hu
        have := hlt u hu
        have := hcovers.2 lt rfl
        omega
    · rintro ⟨hcovers, habove⟩
      by_cases hle : (lt : Int) ≤ t
      · exact Or.inl ⟨hcovers, hle⟩
      · refine Or.inr ⟨⟨hcovers.1, ?_⟩, habove⟩
        intro u hu
        obtain rfl := Option.some.inj hu
        omega
  · intro q hq
    obtain ⟨u, hu, hgt', hle⟩ := h.link q hq
    refine ⟨u, hu, hgt', ?_⟩
    intro v hv
    exact (hle lt rfl).trans (hlt v hv)

theorem walkFrom_ok {want fuel k : Nat} {p : Query} {w w' : MirrorWalk}
    (h : walkFrom mirror want fuel k p w = .ok w')
    (hstart : fuel ≠ 0 ∧ w.raw = [] ∨ w.next = some p ∧ ∃ lt, p.lt = some lt ∧ ∀ g ∈ p.gt, g < lt) :
    ∃ new, w'.raw = w.raw ++ new ∧ Walked listed k p new w'.next := by
  induction fuel generalizing k p w with
  | zero =>
    obtain rfl := Except.ok.inj h
    rcases hstart with ⟨hfuel, -⟩ | ⟨hnext, lt, hlt, hgt⟩
    · exact absurd rfl hfuel
    · refine ⟨[], (List.append_nil _).symm, ?_⟩
      change Walked listed k p [] w.next
      rw [hnext]
      exact Walked.stop hlt hgt
  | succ fuel ih =>
    rw [walkFrom] at h
    cases hanswer : mirror k p with
    | error e =>
      rw [hanswer] at h
      by_cases hraw : w.raw = []
      · simp only [if_pos hraw] at h
        cases h
      · simp only [if_neg hraw] at h
        obtain rfl := Except.ok.inj h
        rcases hstart with ⟨-, hempty⟩ | ⟨-, lt, hlt, hgt⟩
        · exact absurd hempty hraw
        · exact ⟨[], (List.append_nil _).symm, Walked.stop hlt hgt⟩
    | ok data =>
      rw [hanswer] at h
      cases hnext : data.next with
      | none =>
        simp only [hnext] at h
        obtain rfl := Except.ok.inj h
        refine ⟨data.transactions, rfl, (ever_slice (law.last k p data hanswer hnext)).congr ?_, ?_⟩
        · intro t
          exact ⟨fun hcovers => ⟨hcovers, by rintro lt ⟨⟩⟩, fun hcovers => hcovers.1⟩
        · rintro q ⟨⟩
      | some q =>
        obtain ⟨lt, rfl, hgt, hlt, hslice⟩ := law.linked k p data q hanswer hnext
        simp only [hnext] at h
        by_cases henough : want ≤ (w.raw ++ data.transactions).length
        · rw [if_pos henough] at h
          obtain rfl := Except.ok.inj h
          refine ⟨data.transactions, rfl, (ever_slice hslice).congr ?_, ?_⟩
          · intro t
            constructor
            · rintro ⟨hcovers, hle⟩
              refine ⟨hcovers, ?_⟩
              intro u hu
              obtain rfl := Option.some.inj hu
              exact hle
            · rintro ⟨hcovers, habove⟩
              exact ⟨hcovers, habove lt rfl⟩
          · intro q hq
            obtain rfl := Option.some.inj hq
            exact ⟨lt, rfl, hgt, hlt⟩
        · rw [if_neg henough] at h
          obtain ⟨new, hraw, hwalked⟩ := ih h (Or.inr ⟨rfl, lt, rfl, hgt⟩)
          refine ⟨data.transactions ++ new, ?_, hwalked.cons law hlt hslice⟩
          rw [hraw, List.append_assoc]

theorem walkMirror_ok {k want maxPages : Nat} {path : Query} {w : MirrorWalk} (hpages : maxPages ≠ 0)
    (h : walkMirror mirror k path want maxPages = .ok w) : Walked listed k path w.raw w.next := by
  obtain ⟨new, hraw, hwalked⟩ := walkFrom_ok law h (Or.inl ⟨hpages, rfl⟩)
  have hnew : w.raw = new := hraw
  rw [hnew]
  exact hwalked

omit law in
/-- The time of the answers is the first one's. -/
theorem walkFrom_servedAt {want fuel k : Nat} {p : Query} {w w' : MirrorWalk}
    (h : walkFrom mirror want fuel k p w = .ok w') (hpages : w.pages ≠ 0) : w'.servedAt = w.servedAt := by
  induction fuel generalizing k p w with
  | zero =>
    obtain rfl := Except.ok.inj h
    rfl
  | succ fuel ih =>
    rw [walkFrom] at h
    cases hanswer : mirror k p with
    | error e =>
      rw [hanswer] at h
      by_cases hraw : w.raw = []
      · simp only [if_pos hraw] at h
        cases h
      · simp only [if_neg hraw] at h
        obtain rfl := Except.ok.inj h
        rfl
    | ok data =>
      rw [hanswer] at h
      cases hnext : data.next with
      | none =>
        simp only [hnext, if_neg hpages] at h
        obtain rfl := Except.ok.inj h
        rfl
      | some q =>
        simp only [hnext, if_neg hpages] at h
        by_cases henough : want ≤ (w.raw ++ data.transactions).length
        · rw [if_pos henough] at h
          obtain rfl := Except.ok.inj h
          rfl
        · rw [if_neg henough] at h
          have hrest := ih h (Nat.succ_ne_zero _)
          exact hrest

theorem walkMirror_settled {k want maxPages : Nat} {path : Query} {w : MirrorWalk}
    (h : walkMirror mirror k path want maxPages = .ok w) {served : Int} (hserved : w.servedAt = some served) :
    ∀ r ∈ ever listed, r.time ≤ settledBefore served → r ∈ listed k := by
  have hfirst : ∃ data, mirror k path = .ok data ∧ data.date.map nsOfMs = some served := by
    cases maxPages with
    | zero =>
      obtain rfl := Except.ok.inj h
      cases hserved
    | succ n =>
      rw [walkMirror, walkFrom] at h
      cases hanswer : mirror k path with
      | error e =>
        rw [hanswer] at h
        cases h
      | ok data =>
        rw [hanswer] at h
        refine ⟨data, rfl, ?_⟩
        cases hnext : data.next with
        | none =>
          simp only [hnext, if_true] at h
          obtain rfl := Except.ok.inj h
          exact hserved
        | some q =>
          simp only [hnext, if_true] at h
          by_cases henough : want ≤ ([] ++ data.transactions).length
          · rw [if_pos henough] at h
            obtain rfl := Except.ok.inj h
            exact hserved
          · rw [if_neg henough] at h
            have hrest := walkFrom_servedAt h (Nat.succ_ne_zero 0)
            exact hrest.symm.trans hserved
  obtain ⟨data, hanswer, hdate⟩ := hfirst
  obtain ⟨ms, hms, rfl⟩ := Option.map_eq_some_iff.1 hdate
  exact law.dated k path data ms hanswer hms

/-! ## What is remembered -/

/-- The memory before a request: a slice of what the mirror had settled, all of which is listed. -/
structure Remembers (listed : Nat → Set Row) (k : Nat) (memo : HederaHistoryMemo) : Prop where
  slice : Slice Row.time (ever listed) {r | r ∈ ever listed ∧ r.time ≤ memo.top} (above memo.olderThan) memo.raw
  settled : ∀ r ∈ ever listed, r.time ≤ memo.top → r ∈ listed k

theorem Remembers.later {j k : Nat} (hle : j ≤ k) {memo : HederaHistoryMemo} (h : Remembers listed j memo) :
    Remembers listed k memo :=
  ⟨h.slice, fun r hr ht => law.listed_le hle (h.settled r hr ht)⟩

omit law in
/-- What a read leaves behind. -/
theorem remembers_of_slice {k : Nat} {raw : List Row} {servedAt previousTop : Option Int} {olderThan : Option Nat}
    {spent : Bool} (h : Slice Row.time (ever listed) (listed k) (above olderThan) raw)
    (hserved : ∀ served ∈ servedAt, ∀ r ∈ ever listed, r.time ≤ settledBefore served → r ∈ listed k)
    (hprevious : ∀ previous ∈ previousTop, ∀ r ∈ ever listed, r.time ≤ previous → r ∈ listed k)
    {memo : HederaHistoryMemo} (hmemo : rememberHederaRead raw servedAt olderThan spent previousTop = some memo) :
    Remembers listed k memo := by
  cases hs : servedAt with
  | none =>
    rw [hs, rememberHederaRead] at hmemo
    cases hmemo
  | some served =>
    rw [hs, rememberHederaRead] at hmemo
    have htop : ∀ r ∈ ever listed, r.time ≤ topAfter (settledBefore served) previousTop → r ∈ listed k := by
      intro r hr ht
      cases hp : previousTop with
      | none =>
        rw [hp] at ht
        exact hserved served hs r hr ht
      | some previous =>
        rw [hp, topAfter] at ht
        by_cases hlt : settledBefore served < previous
        · rw [if_pos hlt] at ht
          exact hprevious previous hp r hr ht
        · rw [if_neg hlt] at ht
          exact hserved served hs r hr ht
    by_cases hlong : HEDERA_MEMO_MAX_ROWS < raw.length
    · simp only [if_pos hlong] at hmemo
      obtain rfl := Option.some.inj hmemo
      have hne : raw.take HEDERA_MEMO_MAX_ROWS ≠ [] := by
        intro hnil
        have hlen := congrArg List.length hnil
        rw [List.length_take, HEDERA_MEMO_MAX_ROWS] at hlen
        rw [HEDERA_MEMO_MAX_ROWS] at hlong
        simp only [List.length_nil] at hlen
        omega
      obtain ⟨last, hlast⟩ := Option.ne_none_iff_exists'.1 (mt List.getLast?_eq_none_iff.1 hne)
      refine ⟨?_, htop⟩
      have htaken := (h.take hlast).mono
        (T := {r | r ∈ ever listed ∧ r.time ≤ topAfter (settledBefore served) previousTop}) fun r hr _ => htop r hr.1 hr.2
      change Slice _ _ _ (above ((raw.take HEDERA_MEMO_MAX_ROWS).getLast?.map (·.consensusTimestamp))) _
      rw [hlast]
      refine htaken.congr ?_
      intro t
      constructor
      · rintro ⟨-, hle⟩ u hu
        obtain rfl := Option.some.inj hu
        exact hle
      · intro hle
        have hlt : last.time ≤ t := hle last.consensusTimestamp rfl
        refine ⟨?_, hlt⟩
        intro u hu
        have hmem : last ∈ raw := List.mem_of_mem_take (List.mem_of_getLast? hlast)
        have := h.range last hmem u hu
        omega
    · simp only [if_neg hlong] at hmemo
      obtain rfl := Option.some.inj hmemo
      exact ⟨h.mono fun r hr _ => htop r hr.1 hr.2, htop⟩

/-! ## A read -/

omit law in
theorem Walked.right {k limit : Nat} {w : MirrorWalk} (h : Walked listed k ⟨limit, none, none⟩ w.raw w.next) :
    Right listed k ⟨w.raw, w.next⟩ := by
  refine h.slice.congr ?_
  intro t
  refine ⟨fun ht => ht.2, fun ht => ⟨⟨?_, ?_⟩, ht⟩⟩
  · rintro g ⟨⟩
  · rintro lt ⟨⟩

/-- What a read gives and leaves. -/
structure Fine (listed : Nat → Set Row) (k : Nat) (x : Except String Read × Option HederaHistoryMemo) : Prop where
  right : ∀ read, x.1 = .ok read → Right listed k read
  remembers : ∀ memo ∈ x.2, Remembers listed k memo

theorem readNewest_fine (k limit : Nat) : Fine listed k (readNewest mirror k limit) := by
  unfold readNewest
  cases hw : walkMirror mirror k ⟨limit, none, none⟩ limit HEDERA_HISTORY_MAX_PAGES with
  | error e =>
    refine ⟨?_, ?_⟩
    · rintro read ⟨⟩
    · rintro memo ⟨⟩
  | ok w =>
    have hright : Right listed k ⟨w.raw, w.next⟩ := (walkMirror_ok law (by decide) hw).right
    refine ⟨?_, ?_⟩
    · rintro read ⟨⟩
      exact hright
    · intro memo hmemo
      refine remembers_of_slice hright ?_ ?_ hmemo
      · intro served hserved
        exact walkMirror_settled law hw hserved
      · rintro previous ⟨⟩

section

variable {k limit : Nat} {memo : HederaHistoryMemo} (hmemo : Remembers listed k memo) {span : MirrorWalk}
  (hspan : readSpan mirror k memo limit = .ok span)
include hmemo hspan

omit hmemo in
theorem span_walked : Walked listed k ⟨limit, some memo.top, none⟩ span.raw span.next :=
  walkMirror_ok law (by decide) hspan

omit hmemo in
/-- More new rows than one read holds. -/
theorem restart_fine (hnext : span.next ≠ none) :
    Fine listed k (.ok ⟨span.raw, span.next⟩,
      rememberHederaRead span.raw span.servedAt (linkOlderThan span.next) span.budgetSpent none) := by
  have hwalked := span_walked law hspan
  have hright : Right listed k ⟨span.raw, span.next⟩ := by
    refine hwalked.slice.congr ?_
    intro t
    refine ⟨fun ht => ht.2, fun ht => ⟨⟨?_, ?_⟩, ht⟩⟩
    · intro g hg
      obtain ⟨lt, hlt⟩ := Option.ne_none_iff_exists'.1 (mt hwalked.ended hnext)
      have := (hwalked.point hlt).1 g hg
      have := ht lt hlt
      omega
    · rintro lt ⟨⟩
  refine ⟨?_, ?_⟩
  · rintro read ⟨⟩
    exact hright
  · intro m hm
    refine remembers_of_slice hright ?_ ?_ hm
    · intro served hserved
      exact walkMirror_settled law hspan hserved
    · rintro previous ⟨⟩

/-- What is known after a span that ended: the rows above the memory's top, and those of the memory. -/
theorem known_slice (hnext : span.next = none) :
    Slice Row.time (ever listed) (listed k) (fun t => memo.top < t ∨ above memo.olderThan t) (known memo span) := by
  have hwalked := span_walked law hspan
  have hcovers : ∀ t, (⟨limit, some memo.top, none⟩ : Query).covers t ∧ above (linkOlderThan span.next) t ↔
      memo.top < t := by
    intro t
    rw [hnext]
    constructor
    · intro ht
      exact ht.1.1 _ rfl
    · intro ht
      refine ⟨⟨?_, ?_⟩, ?_⟩
      · intro g hg
        obtain rfl := Option.some.inj hg
        exact ht
      · rintro lt ⟨⟩
      · rintro lt ⟨⟩
  refine merge_slice law (hwalked.slice.congr hcovers) hmemo.slice ?_
  intro r hr ht
  by_cases htop : memo.top < r.time
  · exact Or.inl ⟨htop, hr⟩
  · have habove := ht.resolve_left htop
    exact Or.inr ⟨habove, ⟨k, hr⟩, by omega⟩

theorem mem_known {r : Row} (hr : r ∈ span.raw) : r ∈ known memo span :=
  (mem_merge law (span_walked law hspan).slice.mem hmemo.slice.mem r).2 (Or.inl hr)

theorem mem_of_known {r : Row} (hr : r ∈ known memo span) : r ∈ span.raw ∨ r ∈ memo.raw :=
  (mem_merge law (span_walked law hspan).slice.mem hmemo.slice.mem r).1 hr

omit hmemo in
theorem servedAt_settled : ∀ served ∈ span.servedAt, ∀ r ∈ ever listed, r.time ≤ settledBefore served →
    r ∈ listed k :=
  fun _ hserved => walkMirror_settled law hspan hserved

omit law hspan in
theorem top_settled : ∀ previous ∈ some memo.top, ∀ r ∈ ever listed, r.time ≤ previous → r ∈ listed k := by
  intro previous hp
  obtain rfl := Option.some.inj hp
  exact hmemo.settled

/-- Stopping with what is known is right if the span has no row below the memory's cursor. -/
theorem stopThere_fine (hnext : span.next = none) (hgood : ∀ r ∈ span.raw, above memo.olderThan r.time)
    (spent : Bool) : Fine listed k (stopThere memo limit span spent) := by
  have hslice : Slice Row.time (ever listed) (listed k) (above memo.olderThan) (known memo span) := by
    refine (known_slice law hmemo hspan hnext).change ?_ fun r _ hr => Or.inr hr
    intro r hr
    rcases mem_of_known law hmemo hspan hr with hr | hr
    · exact hgood r hr
    · exact hmemo.slice.range r hr
  refine ⟨?_, ?_⟩
  · rintro read ⟨⟩
    change Slice _ _ _ (above (linkOlderThan (memo.olderThan.map _))) _
    cases holder : memo.olderThan with
    | none =>
      rw [holder] at hslice
      exact hslice
    | some lt =>
      rw [holder] at hslice
      exact hslice
  · intro m hm
    exact remembers_of_slice hslice (servedAt_settled law hspan) (top_settled hmemo) hm

theorem of_stopThere_right (spent : Bool) {read : Read} (hread : (stopThere memo limit span spent).1 = .ok read)
    (hright : Right listed k read) : ∀ r ∈ span.raw, above memo.olderThan r.time := by
  obtain rfl := Except.ok.inj hread
  intro r hr
  have habove := hright.range r (mem_known law hmemo hspan hr)
  change above (linkOlderThan (memo.olderThan.map _)) _ at habove
  cases holder : memo.olderThan with
  | none =>
    rintro lt ⟨⟩
  | some lt =>
    rw [holder] at habove
    exact habove

end

/-! ## A read below the memory -/

section

variable {k limit lt : Nat} {memo : HederaHistoryMemo} (hmemo : Remembers listed k memo) {span older : MirrorWalk}
  (hspan : readSpan mirror k memo limit = .ok span) (hlt : memo.olderThan = some lt)
  (holder : readBelow mirror k memo limit span lt = .ok older)
include hmemo hspan hlt holder

omit hmemo hspan hlt in
theorem below_walked : Walked listed (k + span.pages) ⟨limit, none, some lt⟩ older.raw older.next := by
  rw [readBelow] at holder
  by_cases hbudget : HEDERA_HISTORY_MAX_PAGES - span.pages = 0
  · simp only [if_pos hbudget] at holder
    cases holder
  · simp only [if_neg hbudget] at holder
    exact walkMirror_ok law hbudget holder

omit hmemo hspan hlt in
/-- The walk below ends at or below the memory's cursor. -/
theorem below_point {t : Int} (ht : (lt : Int) ≤ t) : above (linkOlderThan older.next) t := by
  intro u hu
  have := ((below_walked law holder).point hu).2 lt rfl
  omega

omit hlt in
theorem mem_all (r : Row) :
    r ∈ mergeMirrorRows (known memo span) older.raw ↔ (r ∈ span.raw ∨ r ∈ memo.raw) ∨ r ∈ older.raw := by
  have hspanned := span_walked law hspan
  have hknown : ∀ r ∈ known memo span, r ∈ ever listed := by
    intro r hr
    rcases mem_of_known law hmemo hspan hr with hr | hr
    · exact hspanned.slice.mem r hr
    · exact hmemo.slice.mem r hr
  rw [mem_merge law hknown (below_walked law holder).slice.mem, known,
    mem_merge law hspanned.slice.mem hmemo.slice.mem]

/-- Reading on below the memory is right if that ends at or below the rows of the span. -/
theorem below_fine (hnext : span.next = none) (hgood : ∀ r ∈ span.raw, above (linkOlderThan older.next) r.time) :
    Fine listed k (.ok ⟨mergeMirrorRows (known memo span) older.raw, older.next⟩,
      rememberHederaRead (mergeMirrorRows (known memo span) older.raw) span.servedAt (linkOlderThan older.next)
        older.budgetSpent (some memo.top)) := by
  have hwalked := below_walked law holder
  have hbelow := hwalked.slice.mono (T := listed k) fun r hr _ => law.listed_le (Nat.le_add_right k span.pages) hr
  have hslice : Slice Row.time (ever listed) (listed k) (above (linkOlderThan older.next))
      (mergeMirrorRows (known memo span) older.raw) := by
    refine (merge_slice law (known_slice law hmemo hspan hnext) hbelow (U := listed k) ?_).change ?_ ?_
    · rintro r hr (ht | ht)
      · exact Or.inl ⟨ht, hr⟩
      · exact Or.inr ⟨ht, hr⟩
    · intro r hr
      rcases (mem_all law hmemo hspan holder r).1 hr with (hr | hr) | hr
      · exact hgood r hr
      · exact below_point law holder (hmemo.slice.range r hr lt hlt)
      · exact (hwalked.slice.range r hr).2
    · intro r _ hr
      by_cases hle : (lt : Int) ≤ r.time
      · refine Or.inl (Or.inr ?_)
        intro u hu
        obtain rfl := Option.some.inj (hlt.symm.trans hu)
        exact hle
      · refine Or.inr ⟨⟨?_, ?_⟩, hr⟩
        · rintro g ⟨⟩
        · intro u hu
          obtain rfl := Option.some.inj hu
          omega
  refine ⟨?_, ?_⟩
  · rintro read ⟨⟩
    exact hslice
  · intro m hm
    exact remembers_of_slice hslice (servedAt_settled law hspan) (top_settled hmemo) hm

omit hlt in
theorem of_below_right (hright : Right listed k ⟨mergeMirrorRows (known memo span) older.raw, older.next⟩) :
    ∀ r ∈ span.raw, above (linkOlderThan older.next) r.time :=
  fun r hr => hright.range r ((mem_all law hmemo hspan holder r).2 (Or.inl (Or.inl hr)))

end

/-! ## A read from the memory -/

section

variable {k limit : Nat} {memo : HederaHistoryMemo} (hmemo : Remembers listed k memo) {span : MirrorWalk}
  (hspan : readSpan mirror k memo limit = .ok span) (hnext : span.next = none)
include hmemo hspan hnext

theorem join_fine (hgood : Good mirror k (some memo) limit) :
    Fine listed k (joinRemembered mirror k memo limit span) := by
  rw [joinRemembered]
  cases hlt : memo.olderThan with
  | none =>
    refine stopThere_fine law hmemo hspan hnext ?_ _
    rw [hlt]
    rintro r - lt ⟨⟩
  | some lt =>
    have hcases := hgood memo rfl lt hlt span hspan hnext
    have hstop (spent : Bool) (h : ∀ r ∈ span.raw, lt ≤ r.consensusTimestamp) :
        Fine listed k (stopThere memo limit span spent) := by
      refine stopThere_fine law hmemo hspan hnext ?_ spent
      intro r hr u hu
      obtain rfl := Option.some.inj (hlt.symm.trans hu)
      exact Int.ofNat_le.2 (h r hr)
    cases henough : enough memo limit span with
    | true =>
      simp only [if_true]
      rcases hcases with h | ⟨hnot, -⟩
      · exact hstop _ h
      · rw [henough] at hnot
        cases hnot
    | false =>
      simp only [Bool.false_eq_true, if_false]
      cases holder : readBelow mirror k memo limit span lt with
      | error e =>
        simp only
        by_cases hknown : known memo span = []
        · rw [if_pos hknown]
          refine ⟨?_, ?_⟩
          · rintro read ⟨⟩
          · intro m hm
            obtain rfl := Option.some.inj hm
            exact hmemo
        · rw [if_neg hknown]
          rcases hcases with h | ⟨-, older, hok, -⟩
          · exact hstop _ h
          · rw [holder] at hok
            cases hok
      | ok older =>
        refine below_fine law hmemo hspan hlt holder hnext ?_
        rcases hcases with h | ⟨-, older', hok, h⟩
        · intro r hr
          exact below_point law holder (Int.ofNat_le.2 (h r hr))
        · obtain rfl := Except.ok.inj (holder.symm.trans hok)
          exact h

omit hnext in
theorem good_of_join (lt : Nat) (hlt : memo.olderThan = some lt)
    (h : ∀ read, (joinRemembered mirror k memo limit span).1 = .ok read → Right listed k read) :
    (∀ r ∈ span.raw, lt ≤ r.consensusTimestamp) ∨
      enough memo limit span = false ∧ ∃ older, readBelow mirror k memo limit span lt = .ok older ∧
        ∀ r ∈ span.raw, above (linkOlderThan older.next) r.time := by
  have hstop {spent : Bool} (hright : ∀ read, (stopThere memo limit span spent).1 = .ok read → Right listed k read) :
      ∀ r ∈ span.raw, lt ≤ r.consensusTimestamp := by
    intro r hr
    exact Int.ofNat_le.1 (of_stopThere_right law hmemo hspan spent rfl (hright _ rfl) r hr lt hlt)
  rw [joinRemembered, hlt] at h
  cases henough : enough memo limit span with
  | true =>
    simp only [henough, if_true] at h
    exact Or.inl (hstop h)
  | false =>
    simp only [henough, Bool.false_eq_true, if_false] at h
    cases holder : readBelow mirror k memo limit span lt with
    | error e =>
      simp only [holder] at h
      left
      by_cases hknown : known memo span = []
      · intro r hr
        have hmem := mem_known law hmemo hspan hr
        rw [hknown] at hmem
        cases hmem
      · rw [if_neg hknown] at h
        exact hstop h
    | ok older =>
      simp only [holder] at h
      exact Or.inr ⟨rfl, older, rfl, of_below_right law hmemo hspan holder (h _ rfl)⟩

end

theorem readRecent_fine {k limit : Nat} {memo : Option HederaHistoryMemo} (hmemo : ∀ m ∈ memo, Remembers listed k m)
    (hgood : Good mirror k memo limit) : Fine listed k (readRecentHedera mirror k memo limit) := by
  cases memo with
  | none => exact readNewest_fine law k limit
  | some m =>
    rw [readRecentHedera]
    cases hspan : readSpan mirror k m limit with
    | error e =>
      refine ⟨?_, hmemo⟩
      rintro read ⟨⟩
    | ok span =>
      simp only
      by_cases hnext : span.next ≠ none
      · rw [if_pos hnext]
        exact restart_fine law hspan hnext
      · rw [if_neg hnext]
        exact join_fine law (hmemo m rfl) hspan (Classical.not_not.1 hnext) hgood

/-- A read is right exactly if it is good. -/
theorem readRecent_right_iff {k limit : Nat} {memo : Option HederaHistoryMemo}
    (hmemo : ∀ m ∈ memo, Remembers listed k m) :
    (∀ read memo', readRecentHedera mirror k memo limit = (.ok read, memo') → Right listed k read) ↔
      Good mirror k memo limit := by
  constructor
  · intro h m hm lt hlt span hspan hnext
    have heq : memo = some m := hm
    subst heq
    refine good_of_join law (hmemo m rfl) hspan lt hlt fun read hread => ?_
    have hjoin : readRecentHedera mirror k (some m) limit = joinRemembered mirror k m limit span := by
      simp [readRecentHedera, hspan, hnext]
    exact h read _ (hjoin.trans (Prod.ext hread rfl))
  · intro hgood read memo' hread
    have hfine := readRecent_fine law hmemo hgood
    rw [hread] at hfine
    exact hfine.right read rfl

theorem Runs.remembers {j : Nat} {memo : Option HederaHistoryMemo} (h : Runs mirror j memo) :
    ∀ m ∈ memo, Remembers listed j m := by
  induction h with
  | start k =>
    rintro m ⟨⟩
  | read _ hle hgood ih =>
    intro m hm
    have hfine := readRecent_fine law (fun m hm => (ih m hm).later law hle) hgood
    exact (hfine.remembers m hm).later law (Nat.le_add_right _ _)

/-! ## Pages and cursors -/

omit law in
/-- The rows that are shown are a slice down to the page's cursor, which is in the range of the rows. -/
theorem cutAt_slice {S : Set Row} {p : Int → Prop} {limit : Nat} (read : Read) (hlimit : limit ≠ 0)
    (h : Slice Row.time (ever listed) S (fun t => p t ∧ above (linkOlderThan read.next) t) read.raw) :
    Slice Row.time (ever listed) S (fun t => p t ∧ above (cutAt limit read).cursor t) (cutAt limit read).items := by
  rw [cutAt]
  by_cases hcut : (read.raw.take limit).length < read.raw.length
  · simp only [if_pos hcut]
    have hne : read.raw.take limit ≠ [] := by
      intro hnil
      rcases List.take_eq_nil_iff.1 hnil with hzero | hempty
      · exact hlimit hzero
      · rw [hempty, List.take_nil] at hcut
        exact absurd hcut (Nat.lt_irrefl 0)
    obtain ⟨last, hlast⟩ := Option.ne_none_iff_exists'.1 (mt List.getLast?_eq_none_iff.1 hne)
    rw [hlast]
    refine (h.take hlast).congr ?_
    intro t
    constructor
    · rintro ⟨⟨hp, -⟩, hle⟩
      refine ⟨hp, ?_⟩
      intro u hu
      obtain rfl := Option.some.inj hu
      exact hle
    · rintro ⟨hp, habove⟩
      have hle : last.time ≤ t := habove last.consensusTimestamp rfl
      refine ⟨⟨hp, ?_⟩, hle⟩
      intro u hu
      have := (h.range last (List.mem_of_mem_take (List.mem_of_getLast? hlast))).2 u hu
      omega
  · simp only [if_neg hcut]
    have hall : read.raw.take limit = read.raw := List.take_of_length_le (by
      rw [List.length_take] at hcut
      omega)
    rw [hall]
    exact h

omit law in
/-- A cursor is a row's time or the link's point. -/
theorem mem_cursor {limit u : Nat} {read : Read} (hu : u ∈ (cutAt limit read).cursor) :
    (∃ r ∈ read.raw, r.consensusTimestamp = u) ∨ u ∈ linkOlderThan read.next := by
  rw [cutAt] at hu
  by_cases hcut : (read.raw.take limit).length < read.raw.length
  · simp only [if_pos hcut] at hu
    obtain ⟨last, hlast, rfl⟩ := Option.map_eq_some_iff.1 hu
    exact Or.inl ⟨last, List.mem_of_mem_take (List.mem_of_getLast? hlast), rfl⟩
  · simp only [if_neg hcut] at hu
    exact Or.inr hu

theorem first_slice {k : Nat} {memo memo' : Option HederaHistoryMemo} {limit : Option Nat} {page : TxHistoryPage}
    (hmemo : ∀ m ∈ memo, Remembers listed k m) (hgood : Good mirror k memo (limit.getD 25)) (hlimit : limit ≠ some 0)
    (hpage : getTransactionHistory mirror k memo limit none = (.ok page, memo')) :
    Slice Row.time (ever listed) (listed k) (above page.cursor) page.items := by
  rw [getTransactionHistory] at hpage
  cases hread : readRecentHedera mirror k memo (limit.getD 25) with
  | mk answer left =>
    simp only [hread, Prod.mk.injEq] at hpage
    obtain ⟨read, rfl, rfl⟩ : ∃ read, answer = .ok read ∧ cutAt (limit.getD 25) read = page := by
      cases answer with
      | error e => cases hpage.1
      | ok read => exact ⟨read, rfl, Except.ok.inj hpage.1⟩
    have hright := (readRecent_right_iff law hmemo).2 hgood read left hread
    have hne : limit.getD 25 ≠ 0 := by
      cases limit with
      | none => decide
      | some n => exact fun hzero => hlimit (congrArg some hzero)
    have hslice := cutAt_slice (p := fun _ => True) read hne (hright.congr fun t => (true_and _).symm.to_iff)
    exact hslice.congr fun t => (true_and _).to_iff

theorem older_slice {i lt : Nat} {memo memo' : Option HederaHistoryMemo} {limit : Option Nat} {page : TxHistoryPage}
    (hlimit : limit ≠ some 0) (hpage : getTransactionHistory mirror i memo limit (some lt) = (.ok page, memo')) :
    Slice Row.time (ever listed) (listed i) (fun t => t < (lt : Int) ∧ above page.cursor t) page.items ∧
      ∀ u ∈ page.cursor, u ≤ lt := by
  rw [getTransactionHistory] at hpage
  simp only [Prod.mk.injEq] at hpage
  cases hw : walkMirror mirror i ⟨limit.getD 25, none, some lt⟩ (limit.getD 25) HEDERA_HISTORY_MAX_PAGES with
  | error e =>
    rw [hw] at hpage
    cases hpage.1
  | ok w =>
    rw [hw] at hpage
    obtain rfl := Except.ok.inj hpage.1
    have hwalked := walkMirror_ok law (by decide) hw
    have hne : limit.getD 25 ≠ 0 := by
      cases limit with
      | none => decide
      | some n => exact fun hzero => hlimit (congrArg some hzero)
    have hcovers : ∀ t, (⟨limit.getD 25, none, some lt⟩ : Query).covers t ↔ t < (lt : Int) := by
      intro t
      constructor
      · exact fun ht => ht.2 lt rfl
      · intro ht
        refine ⟨?_, ?_⟩
        · rintro g ⟨⟩
        · intro u hu
          obtain rfl := Option.some.inj hu
          exact ht
    have hslice : Slice Row.time (ever listed) (listed i)
        (fun t => t < (lt : Int) ∧ above (linkOlderThan w.next) t) w.raw :=
      hwalked.slice.congr fun t => and_congr_left' (hcovers t)
    refine ⟨cutAt_slice ⟨w.raw, w.next⟩ hne hslice, ?_⟩
    intro u hu
    rcases mem_cursor hu with ⟨r, hr, rfl⟩ | hu
    · exact Int.ofNat_le.1 (Int.le_of_lt (hslice.range r hr).1)
    · exact (hwalked.point hu).2 lt rfl

omit law in
theorem Visited.le {k j : Nat} {rows : List Row} {cursor : Option Nat} (h : Visited mirror k j rows cursor) :
    k ≤ j := by
  induction h with
  | first _ _ _ _ _ => exact Nat.le_add_right _ _
  | older _ hle _ _ ih => exact ih.trans (hle.trans (Nat.le_add_right _ _))

/-- The rows of a first page and of the pages after it. -/
theorem Visited.slice {k j : Nat} {rows : List Row} {cursor : Option Nat} (h : Visited mirror k j rows cursor) :
    Slice Row.time (ever listed) (listed k) (above cursor) rows := by
  induction h with
  | first hruns hle hgood hlimit hpage =>
    exact first_slice law (fun m hm => (hruns.remembers law m hm).later law hle) hgood hlimit hpage
  | @older i j lt rows memo memo' limit page hvisited hle hlimit hpage ih =>
    obtain ⟨hpageSlice, hpoint⟩ := older_slice law hlimit hpage
    have hki : k ≤ i := hvisited.le.trans hle
    have hrest := hpageSlice.mono (T := listed k) fun r hr _ => law.listed_le hki hr
    refine (ih.append hrest ?_).congr ?_
    · intro t ht u hu
      have := ht lt rfl
      have := hu.1
      omega
    · intro t
      constructor
      · rintro (habove | ht)
        · intro u hu
          have := habove lt rfl
          have := hpoint u hu
          omega
        · exact ht.2
      · intro habove
        by_cases hlt : t < (lt : Int)
        · exact Or.inr ⟨hlt, habove⟩
        · refine Or.inl ?_
          intro u hu
          obtain rfl := Option.some.inj hu
          omega

end

/-- From a memory that good reads left, a read is right exactly if it is good; and the pages of the cursors after a
good first page hold each transaction once, down to the last page's cursor. -/
theorem hedera_history {mirror : Mirror} {listed : Nat → Set Row} (law : MirrorLaw mirror listed) :
    (∀ j memo, Runs mirror j memo → ∀ k, j ≤ k → ∀ limit,
      ((∀ read memo', readRecentHedera mirror k memo limit = (.ok read, memo') → Right listed k read) ↔
        Good mirror k memo limit)) ∧
    ∀ k j rows cursor, Visited mirror k j rows cursor →
      Slice Row.time (ever listed) (listed k) (above cursor) rows := by
  constructor
  · intro j memo hruns k hle limit
    exact readRecent_right_iff law fun m hm => (hruns.remembers law m hm).later law hle
  · intro k j rows cursor hvisited
    exact hvisited.slice law

/-! ### A failed page -/

def Query.admits (q : Query) (r : Row) : Bool :=
  (q.gt.all fun g => g < r.time) && q.lt.all fun lt => r.time < (lt : Int)

theorem admits_iff (q : Query) (r : Row) : q.admits r = true ↔ q.covers r.time := by
  obtain ⟨limit, gt, lt⟩ := q
  cases gt <;> cases lt <;> simp [Query.admits, Query.covers]

/-- A mirror that has these rows all along, and fails at one request. -/
def sampleMirror (rows : List Row) (date : Int) (fails : Nat) : Mirror := fun k q =>
  let found := rows.filter q.admits
  let page := found.take (max 1 q.limit)
  if k = fails then .error "HTTP 502"
  else if page.length < found.length then
    .ok ⟨page, page.getLast?.map fun r => { q with lt := some r.consensusTimestamp }, some date⟩
  else .ok ⟨page, none, some date⟩

theorem sampleMirror_law {rows : List Row} (hfalls : rows.Pairwise fun a b => b.time < a.time) (date : Int)
    (fails : Nat) : MirrorLaw (sampleMirror rows date fails) fun _ => {r | r ∈ rows} := by
  have hfound (q : Query) : Slice Row.time {r | r ∈ rows} {r | r ∈ rows} q.covers (rows.filter q.admits) := by
    refine ⟨hfalls.sublist List.filter_sublist, ?_, ?_, ?_⟩
    · exact fun r hr => (List.mem_filter.1 hr).1
    · exact fun r hr => (admits_iff q r).1 (List.mem_filter.1 hr).2
    · exact fun r hr hq => List.mem_filter.2 ⟨hr, (admits_iff q r).2 hq⟩
  refine ⟨fun _ _ hr => hr, ?_, ?_, ?_, ?_⟩
  · intro i j r hr s hs heq
    have hinj := List.inj_on_of_nodup_map (f := Row.time) (List.pairwise_map.2 (hfalls.imp fun hlt => by omega)) hr hs
    exact hinj (congrArg Int.ofNat heq)
  · intro k q data hanswer hnext
    rw [sampleMirror] at hanswer
    by_cases hfail : k = fails
    · simp only [if_pos hfail] at hanswer
      cases hanswer
    · simp only [if_neg hfail] at hanswer
      by_cases hmore : ((rows.filter q.admits).take (max 1 q.limit)).length < (rows.filter q.admits).length
      · rw [if_pos hmore] at hanswer
        obtain rfl := Except.ok.inj hanswer
        have hnil : (rows.filter q.admits).take (max 1 q.limit) = [] :=
          List.getLast?_eq_none_iff.1 (Option.map_eq_none_iff.1 hnext)
        rcases List.take_eq_nil_iff.1 hnil with hzero | hempty
        · omega
        · rw [hempty, List.take_nil] at hmore
          exact absurd hmore (Nat.lt_irrefl 0)
      · rw [if_neg hmore] at hanswer
        obtain rfl := Except.ok.inj hanswer
        have hall : (rows.filter q.admits).take (max 1 q.limit) = rows.filter q.admits :=
          List.take_of_length_le (by
            rw [List.length_take] at hmore
            omega)
        rw [hall]
        exact hfound q
  · intro k q data q' hanswer hnext
    rw [sampleMirror] at hanswer
    by_cases hfail : k = fails
    · simp only [if_pos hfail] at hanswer
      cases hanswer
    · simp only [if_neg hfail] at hanswer
      by_cases hmore : ((rows.filter q.admits).take (max 1 q.limit)).length < (rows.filter q.admits).length
      · rw [if_pos hmore] at hanswer
        obtain rfl := Except.ok.inj hanswer
        obtain ⟨last, hlast, rfl⟩ := Option.map_eq_some_iff.1 hnext
        have hcovers : q.covers last.time :=
          (hfound q).range last (List.mem_of_mem_take (List.mem_of_getLast? hlast))
        refine ⟨last.consensusTimestamp, rfl, ?_, ?_, (hfound q).take hlast⟩
        · intro g hg
          exact hcovers.1 g hg
        · intro u hu
          exact Int.ofNat_le.1 (Int.le_of_lt (hcovers.2 u hu))
      · rw [if_neg hmore] at hanswer
        obtain rfl := Except.ok.inj hanswer
        cases hnext
  · rintro k q data ms - - r ⟨i, hr⟩ -
    exact hr

def sampleRows : List Row := [⟨9999000000000, "c", none⟩, ⟨9998000000000, "b", none⟩, ⟨9997000000000, "a", none⟩]

/-- The third request fails. -/
def sampleHedera : Mirror := sampleMirror sampleRows 10000000 6

theorem sampleHedera_law : MirrorLaw sampleHedera fun _ => {r | r ∈ sampleRows} :=
  sampleMirror_law (by decide) _ _

theorem hedera_history_sample :
    (∀ j memo, Runs sampleHedera j memo → ∀ k, j ≤ k → ∀ limit,
      ((∀ read memo', readRecentHedera sampleHedera k memo limit = (.ok read, memo') →
        Right (fun _ => {r | r ∈ sampleRows}) k read) ↔ Good sampleHedera k memo limit)) ∧
    ∀ k j rows cursor, Visited sampleHedera k j rows cursor →
      Slice Row.time (ever fun _ => {r | r ∈ sampleRows}) {r | r ∈ sampleRows} (above cursor) rows :=
  hedera_history sampleHedera_law

def sampleMemo : HederaHistoryMemo where
  raw := [⟨9999000000000, "c", none⟩]
  top := 6400000000000
  olderThan := some 9999000000000
  budgetSpent := false

/-- A first read of one row, the second of five: its walk below the remembered row fails. -/
theorem sampleHedera_first : (readRecentHedera sampleHedera 0 none 1).2 = some sampleMemo := rfl

theorem sampleHedera_second : (readRecentHedera sampleHedera 5 (some sampleMemo) 5).1 =
    .ok ⟨sampleRows, some ⟨5, none, some 9999000000000⟩⟩ := rfl

theorem sampleHedera_not_right :
    ¬ Right (fun _ => {r | r ∈ sampleRows}) 5 ⟨sampleRows, some ⟨5, none, some 9999000000000⟩⟩ := by
  intro hright
  have habove := hright.range ⟨9998000000000, "b", none⟩ (by decide) 9999000000000 rfl
  exact absurd habove (by decide)

theorem not_always_right : ¬ ∀ (mirror : Mirror) (listed : Nat → Set Row), MirrorLaw mirror listed →
    ∀ k₁ limit₁ k₂ limit₂, k₁ + HEDERA_HISTORY_MAX_PAGES ≤ k₂ → ∀ read memo,
      readRecentHedera mirror k₂ (readRecentHedera mirror k₁ none limit₁).2 limit₂ = (.ok read, memo) →
        Right listed k₂ read := by
  intro h
  have hsecond : readRecentHedera sampleHedera 5 (readRecentHedera sampleHedera 0 none 1).2 5 =
      (.ok ⟨sampleRows, some ⟨5, none, some 9999000000000⟩⟩,
        (readRecentHedera sampleHedera 5 (some sampleMemo) 5).2) := by
    rw [sampleHedera_first]
    exact Prod.ext sampleHedera_second rfl
  exact sampleHedera_not_right (h sampleHedera _ sampleHedera_law 0 1 5 5 (Nat.le_refl 5) _ _ hsecond)

end Hedera
