import Mathlib.Data.List.Nodup
import Mathlib.Data.List.Count
import PwndaWallet.Convert.Pipeline

/-!
# One second hop for each conversion

The effect recomputes the stage from whatever object the tracker holds, also after the conversion was
handed on. In every run in which it does not settle or unwind such a conversion again, a payout
seeds one second hop and the log has one row for each conversion, whose end stands.
-/

namespace Convert

open BidStates

/-! ## What is claimed -/

/-- The swap node gives a new bid an id of its own. -/
def NewBids (s : St) : Move → Prop
  | .adoptHop1 handle _ => handle.bidId ≠ "" ∧ handle.bidId ∉ s.bids
  | .effect => ∀ b bidId, s.followed = some b → s.next b = .follow bidId → bidId ≠ "" ∧ bidId ∉ s.bids
  | _ => True

/-- The step ends the first hop, with a payout or without. -/
def Hop1Step.Ends : Hop1Step → Prop
  | .settled _ => True
  | .unwound => True
  | _ => False

/-- The effect does not read the end of a first hop whose conversion has left the pipeline. -/
def Untouched (s : St) : Move → Prop
  | .effect => ∀ b c, s.enabled = true → s.followed = some b → c ∈ s.runs → b ∈ c.bids → c.past = true →
      ¬ (s.next b).Ends
  | _ => True

def Conversion.paid (c : Conversion) (d : Seed) : Bool := d.payout.any (c.bids.contains ·)

def Conversion.owns (c : Conversion) (r : ConversionRecord) : Bool := c.bids.contains r.id

structure OneHop (s : St) : Prop where
  /-- The pipeline is not ready for the second hop of a conversion that has left it. -/
  ready : s.stage = .hop2Ready → ∃ b, s.hop1BidId = some b ∧ ∀ c ∈ s.runs, b ∈ c.bids → c.past = false
  seeded : ∀ c ∈ s.runs, (s.seeded.filter c.paid).length ≤ 1
  /-- The conversion that is followed is the newest, so the log does not drop its row. -/
  newest : ∀ b, s.hop1BidId = some b → ∃ c cs, s.runs = c :: cs ∧ c.bid = b
  row : ∀ i c, i < MAX_ENTRIES → s.runs[i]? = some c → ∃ r, r.id = c.bid ∧ s.log.filter c.owns = [r]

/-- The reading of the followed bid is settled, with the leg known where it depends on the leg. -/
def ReadsSettled (s : St) : Prop :=
  ∃ b sidecar swap, s.hop1BidId = some b ∧ s.sidecar = some sidecar ∧ swap ∈ sidecar.swaps ∧ swap.bidId = b ∧
    HOP1_STAGE_READING swap.stage.stage = .settled ∧
    (swap.stage.leg = .unknown → ∀ state ∈ swap.stage.state, readingDependsOnLeg state = false)

/-- A row that says how a conversion ended still says it, as long as the log has a row for it. -/
def StatusStands (s s' : St) : Prop :=
  ∀ r ∈ s.log, r.status ≠ .running → ∀ c ∈ s'.runs, c.owns r = true → ∀ r' ∈ s'.log, c.owns r' = true → r'.status = r.status

/-! ## The log -/

theorem patchFirst_head {r : ConversionRecord} {rows : List ConversionRecord} {id : String} {p : Patch}
    (hid : r.id = id) : patchFirst id p (r :: rows) = p.apply r :: rows := by
  simp [patchFirst, hid]

theorem updateConversion_head {r : ConversionRecord} {rows : List ConversionRecord} {id : String} {p : Patch}
    (hid : r.id = id) (hlen : (r :: rows).length ≤ MAX_ENTRIES) :
    updateConversion id p (r :: rows) = p.apply r :: rows := by
  unfold updateConversion write
  rw [patchFirst_head hid, List.take_of_length_le (by simpa using hlen)]
  simp [hid]

theorem followConversionRebid_head {r : ConversionRecord} {rows : List ConversionRecord} {fromId toId : String}
    {p : Patch} (hid : r.id = fromId) (hto : toId ≠ "") (hnew : toId ∉ (r :: rows).map (·.id))
    (hold : fromId ∉ rows.map (·.id)) (hlen : (r :: rows).length ≤ MAX_ENTRIES) :
    followConversionRebid fromId toId p (r :: rows) = { p.apply r with id := toId } :: rows := by
  have hne : fromId ≠ toId := by
    intro h
    apply hnew
    simp [hid, h]
  have hkept : (r :: rows).filter (·.id != toId) = r :: rows := by
    apply List.filter_eq_self.2
    intro x hx
    have hxid : x.id ∈ (r :: rows).map (·.id) := List.mem_map_of_mem hx
    simpa using fun h : x.id = toId => hnew (h ▸ hxid)
  have hrest : rows.map (fun x => if x.id = fromId then { p.apply x with id := toId } else x) = rows := by
    refine (List.map_congr_left ?_).trans (List.map_id rows)
    intro x hx
    have hxid : x.id ∈ rows.map (·.id) := List.mem_map_of_mem hx
    exact if_neg fun h : x.id = fromId => hold (h ▸ hxid)
  unfold followConversionRebid write
  rw [hkept, List.map_cons, hrest, if_neg hto, if_neg hne, if_pos hid,
    List.take_of_length_le (by simpa using hlen)]
  simp [hid]

theorem recordConversionStarted_new {rec : ConversionRecord} {rows : List ConversionRecord}
    (hnew : rec.id ∉ rows.map (·.id)) : recordConversionStarted rec rows = write (rec :: rows) := by
  unfold recordConversionStarted
  apply if_neg
  intro h
  obtain ⟨r, hr, hid⟩ := List.any_eq_true.1 h
  apply hnew
  rw [← beq_iff_eq.1 hid]
  exact List.mem_map_of_mem hr

/-! ## The conversions of a run -/

theorem mem_bids {s : St} {c : Conversion} {b : String} (hc : c ∈ s.runs) (hb : b ∈ c.bids) : b ∈ s.bids :=
  List.mem_flatMap.2 ⟨c, hc, hb⟩

theorem bid_mem (c : Conversion) : c.bid ∈ c.bids := List.mem_cons_self

theorem bids_sublist (runs : List Conversion) : (runs.map Conversion.bid).Sublist (runs.flatMap Conversion.bids) := by
  induction runs with
  | nil => simp
  | cons c cs ih =>
    rw [List.map_cons, List.flatMap_cons]
    simp only [Conversion.bids, List.cons_append]
    exact (ih.trans (List.sublist_append_right _ _)).cons_cons _

/-- A bid is of one conversion. -/
theorem eq_of_shared {runs : List Conversion} (hnd : (runs.flatMap Conversion.bids).Nodup) {c c' : Conversion}
    {b : String} (hc : c ∈ runs) (hc' : c' ∈ runs) (hb : b ∈ c.bids) (hb' : b ∈ c'.bids) : c = c' := by
  induction runs with
  | nil => cases hc
  | cons d ds ih =>
    rw [List.flatMap_cons] at hnd
    have hdisjoint : ∀ d' ∈ ds, b ∈ d.bids → b ∉ d'.bids := by
      intro d' hd' hd hb''
      exact List.disjoint_of_nodup_append hnd hd (List.mem_flatMap.2 ⟨d', hd', hb''⟩)
    rcases List.mem_cons.1 hc with heq | hin
    · rcases List.mem_cons.1 hc' with heq' | hin'
      · rw [heq, heq']
      · exact absurd hb' (hdisjoint c' hin' (heq ▸ hb))
    · rcases List.mem_cons.1 hc' with heq' | hin'
      · exact absurd hb (hdisjoint c hin (heq' ▸ hb'))
      · exact ih hnd.of_append_right hin hin'

theorem closeRun_head {c : Conversion} {cs : List Conversion} (hnd : ((c :: cs).flatMap Conversion.bids).Nodup) :
    closeRun (some c.bid) (c :: cs) = { c with past := true } :: cs := by
  have hrest : ∀ d ∈ cs, c.bid ∉ d.bids := by
    intro d hd hb
    rw [List.flatMap_cons] at hnd
    exact List.disjoint_of_nodup_append hnd (bid_mem c) (List.mem_flatMap.2 ⟨d, hd, hb⟩)
  unfold closeRun
  rw [List.map_cons]
  congr 1
  · simp [Conversion.bids]
  · refine (List.map_congr_left ?_).trans (List.map_id cs)
    intro d hd
    simp [hrest d hd]

/-! ## The invariant -/

/-- The rows of the log are the newest conversions', each under the bid that it is followed under. -/
structure Filed (s : St) : Prop where
  rows : s.log.map (·.id) = (s.runs.map Conversion.bid).take MAX_ENTRIES
  nodup : s.bids.Nodup

/-- The bid is the newest conversion's, whose row says whether it has left the pipeline. -/
structure Current (s : St) (b : String) (c : Conversion) (r : ConversionRecord) (cs : List Conversion)
    (rows : List ConversionRecord) : Prop where
  runs : s.runs = c :: cs
  bid : c.bid = b
  log : s.log = r :: rows
  status : r.status = if c.past then .done else .running

structure Inv (s : St) : Prop extends Filed s where
  stored : s.storedHop1 = s.hop1BidId
  current : ∀ b, s.hop1BidId = some b → b ≠ "" ∧ ∃ c r cs rows, Current s b c r cs rows
  ready : s.stage = .hop2Ready → ∃ b, s.hop1BidId = some b ∧ s.payout = some b ∧ ∀ c ∈ s.runs.head?, c.past = false
  known : ∀ d ∈ s.seeded, ∃ b ∈ s.bids, d.payout = some b
  once : ∀ c ∈ s.runs, (s.seeded.filter c.paid).length ≤ if c.past then 1 else 0

theorem inv_fresh : Inv fresh where
  rows := rfl
  nodup := List.nodup_nil
  stored := rfl
  current b hb := by cases hb
  ready h := by cases h
  known d hd := by cases hd
  once c hc := by cases hc

theorem owns_iff {c : Conversion} {r : ConversionRecord} : c.owns r = true ↔ r.id ∈ c.bids := by
  simp [Conversion.owns]

theorem paid_iff {c : Conversion} {d : Seed} {b : String} (hd : d.payout = some b) : c.paid d = true ↔ b ∈ c.bids := by
  simp [Conversion.paid, hd]

theorem Filed.length_le {s : St} (h : Filed s) : s.log.length ≤ MAX_ENTRIES := by
  have hlen := congrArg List.length h.rows
  rw [List.length_map, List.length_take] at hlen
  omega

theorem Filed.mem {s : St} (h : Filed s) {r : ConversionRecord} (hr : r ∈ s.log) : ∃ c ∈ s.runs, c.bid = r.id := by
  have hid : r.id ∈ s.log.map (·.id) := List.mem_map_of_mem hr
  rw [h.rows] at hid
  exact List.mem_map.1 (List.mem_of_mem_take hid)

theorem Filed.mem_bids {s : St} (h : Filed s) {r : ConversionRecord} (hr : r ∈ s.log) : r.id ∈ s.bids := by
  obtain ⟨c, hc, hid⟩ := h.mem hr
  rw [← hid]
  exact Convert.mem_bids hc (bid_mem c)

section
variable {s s' : St} {b : String} {c : Conversion} {r : ConversionRecord} {cs : List Conversion}
  {rows : List ConversionRecord}

theorem Current.filed (hf : Filed s) (hc : Current s b c r cs rows) :
    r.id = c.bid ∧ rows.map (·.id) = (cs.map Conversion.bid).take (MAX_ENTRIES - 1) := by
  have hrows := hf.rows
  rw [hc.runs, hc.log] at hrows
  exact List.cons.inj hrows

theorem Current.mem (hc : Current s b c r cs rows) : c ∈ s.runs := by
  rw [hc.runs]
  exact List.mem_cons_self

theorem Current.id (hf : Filed s) (hc : Current s b c r cs rows) : r.id = b := by
  rw [(hc.filed hf).1, hc.bid]

theorem Current.not_rest (hf : Filed s) (hc : Current s b c r cs rows) : b ∉ rows.map (·.id) := by
  intro hb
  have hnd := (bids_sublist s.runs).nodup hf.nodup
  rw [(hc.filed hf).2] at hb
  rw [hc.runs, List.map_cons, hc.bid] at hnd
  exact (List.nodup_cons.1 hnd).1 (List.mem_of_mem_take hb)

theorem Current.length_le (hf : Filed s) (hc : Current s b c r cs rows) : (r :: rows).length ≤ MAX_ENTRIES := by
  rw [← hc.log]
  exact hf.length_le

end

/-! ## What a move does to the log -/

/-- A row's part that the pipeline depends on. -/
def key (r : ConversionRecord) : String × Status := (r.id, r.status)

inductive Turn (s s' : St) : Prop
  | still (hrows : s'.log.map key = s.log.map key) (hruns : s'.runs = s.runs)
  | moved {b b' : String} {c : Conversion} {r r' : ConversionRecord} {cs : List Conversion}
      {rows : List ConversionRecord} (hc : Current s b c r cs rows) (hnew : b' ∉ s.bids) (hid : r'.id = b')
      (hstatus : r'.status = r.status) (hlog : s'.log = r' :: rows) (hruns : s'.runs = ⟨b', c.bids, c.past⟩ :: cs)
  | ended {b : String} {c c' : Conversion} {r r' : ConversionRecord} {cs : List Conversion}
      {rows : List ConversionRecord} (hc : Current s b c r cs rows) (hopen : c.past = false) (hid : r'.id = b)
      (hlog : s'.log = r' :: rows) (hruns : s'.runs = c' :: cs) (hbids : c'.bids = c.bids)
  | begun {rec : ConversionRecord} (hnew : rec.id ∉ s.bids) (hlog : s'.log = write (rec :: s.log))
      (hruns : s'.runs = ⟨rec.id, [], false⟩ :: s.runs)

theorem ids_of_keys {log log' : List ConversionRecord} (h : log'.map key = log.map key) :
    log'.map (·.id) = log.map (·.id) := by
  have hfst := congrArg (List.map Prod.fst) h
  rwa [List.map_map, List.map_map] at hfst

theorem Turn.filed {s s' : St} (ht : Turn s s') (hf : Filed s) : Filed s' := by
  cases ht with
  | still hrows hruns =>
    constructor
    · rw [ids_of_keys hrows, hruns]
      exact hf.rows
    · unfold St.bids
      rw [hruns]
      exact hf.nodup
  | moved hc hnew hid hstatus hlog hruns =>
    have hnd := hf.nodup
    constructor
    · rw [hlog, hruns, List.map_cons, List.map_cons, hid, (hc.filed hf).2]
      rfl
    · unfold St.bids at hnd hnew ⊢
      rw [hc.runs] at hnd hnew
      rw [hruns]
      exact List.nodup_cons.2 ⟨hnew, hnd⟩
  | ended hc hopen hid hlog hruns hbids =>
    have hbid := (List.cons.inj hbids).1
    have hnd := hf.nodup
    constructor
    · rw [hlog, hruns, List.map_cons, List.map_cons, hid, hbid, hc.bid, (hc.filed hf).2]
      rfl
    · unfold St.bids at hnd ⊢
      rw [hc.runs, List.flatMap_cons] at hnd
      rw [hruns, List.flatMap_cons, hbids]
      exact hnd
  | @begun rec hnew hlog hruns =>
    constructor
    · have hrest : (s.log.map (·.id)).take (MAX_ENTRIES - 1) = (s.runs.map Conversion.bid).take (MAX_ENTRIES - 1) := by
        rw [hf.rows, List.take_take]
        rfl
      rw [hlog, hruns]
      unfold write
      rw [List.map_take, List.map_cons, List.map_cons]
      exact congrArg (List.cons rec.id) hrest
    · unfold St.bids
      rw [hruns]
      exact List.nodup_cons.2 ⟨hnew, hf.nodup⟩

/-! ## How a conversion ended stands -/

/-- The log says of the conversion with the bid that it ended so. -/
structure Ended (b : String) (st : Status) (s : St) : Prop where
  known : b ∈ s.bids
  rows : ∀ c ∈ s.runs, b ∈ c.bids → ∀ r ∈ s.log, r.id ∈ c.bids → r.status = st

theorem Turn.ended_stands {s s' : St} (ht : Turn s s') (hf : Filed s) {b : String} {st : Status}
    (hst : st ≠ .running) (he : Ended b st s) : Ended b st s' := by
  have hknown := he.known
  cases ht with
  | still hrows hruns =>
    constructor
    · unfold St.bids
      rw [hruns]
      exact hknown
    · intro c hc hb r' hr' hid
      have hkey : key r' ∈ s.log.map key := hrows ▸ List.mem_map_of_mem hr'
      obtain ⟨r, hr, heq⟩ := List.mem_map.1 hkey
      obtain ⟨hideq, hstatus⟩ := Prod.mk.inj heq
      rw [← hstatus]
      exact he.rows c (hruns ▸ hc) hb r hr (hideq ▸ hid)
  | @moved bid b' c r r' cs rows hcur hnew hid hstatus hlog hruns =>
    have hmem := hcur.mem
    have hold : ∀ x ∈ s.bids, x ≠ b' := fun x hx heq => hnew (heq ▸ hx)
    have hrid : r.id ∈ c.bids := by
      rw [(hcur.filed hf).1]
      exact bid_mem c
    have hrin : r ∈ s.log := by
      rw [hcur.log]
      exact List.mem_cons_self
    constructor
    · unfold St.bids
      rw [hruns, List.flatMap_cons]
      unfold St.bids at hknown
      rw [hcur.runs, List.flatMap_cons] at hknown
      exact List.mem_cons_of_mem _ hknown
    · intro d hd hb x hx hxid
      rw [hruns] at hd
      rw [hlog] at hx
      rcases List.mem_cons.1 hd with rfl | hd
      · have hbc : b ∈ c.bids := (List.mem_cons.1 hb).resolve_left (hold b hknown)
        rcases List.mem_cons.1 hx with rfl | hx
        · rw [hstatus]
          exact he.rows c hmem hbc r hrin hrid
        · have hxin : x ∈ s.log := by
            rw [hcur.log]
            exact List.mem_cons_of_mem _ hx
          have hxc : x.id ∈ c.bids := (List.mem_cons.1 hxid).resolve_left (hold _ (hf.mem_bids hxin))
          exact he.rows c hmem hbc x hxin hxc
      · have hds : d ∈ s.runs := by
          rw [hcur.runs]
          exact List.mem_cons_of_mem _ hd
        rcases List.mem_cons.1 hx with rfl | hx
        · exact absurd (hid ▸ mem_bids hds hxid) hnew
        · apply he.rows d hds hb x _ hxid
          rw [hcur.log]
          exact List.mem_cons_of_mem _ hx
  | @ended bid c c' r r' cs rows hcur hopen hid hlog hruns hbids =>
    have hrin : r ∈ s.log := by
      rw [hcur.log]
      exact List.mem_cons_self
    have hopenrow : r.status = .running := by simp [hcur.status, hopen]
    -- the row that changes says that its conversion runs, so it is none of the ended one's
    have hother : ∀ d ∈ s.runs, b ∈ d.bids → r.id ∉ d.bids := by
      intro d hd hb hrd
      exact hst (by rw [← he.rows d hd hb r hrin hrd, hopenrow])
    have hsame : ∀ d ∈ s'.runs, ∃ d' ∈ s.runs, d'.bids = d.bids := by
      intro d hd
      rw [hruns] at hd
      rcases List.mem_cons.1 hd with rfl | hd
      · exact ⟨c, hcur.mem, hbids.symm⟩
      · refine ⟨d, ?_, rfl⟩
        rw [hcur.runs]
        exact List.mem_cons_of_mem _ hd
    constructor
    · unfold St.bids at hknown ⊢
      rw [hcur.runs, List.flatMap_cons] at hknown
      rw [hruns, List.flatMap_cons, hbids]
      exact hknown
    · intro d hd hb x hx hxid
      obtain ⟨d', hd', hbids'⟩ := hsame d hd
      rw [← hbids'] at hb hxid
      rw [hlog] at hx
      rcases List.mem_cons.1 hx with rfl | hx
      · rw [hid, ← hcur.id hf] at hxid
        exact absurd hxid (hother d' hd' hb)
      · apply he.rows d' hd' hb x _ hxid
        rw [hcur.log]
        exact List.mem_cons_of_mem _ hx
  | @begun rec hnew hlog hruns =>
    constructor
    · unfold St.bids
      rw [hruns, List.flatMap_cons]
      exact List.mem_append_right _ hknown
    · intro d hd hb x hx hxid
      rw [hruns] at hd
      rw [hlog] at hx
      have hx := List.mem_of_mem_take hx
      rcases List.mem_cons.1 hd with rfl | hold
      · rw [List.mem_singleton.1 hb] at hknown
        exact absurd hknown hnew
      · rcases List.mem_cons.1 hx with rfl | hx
        · exact absurd (mem_bids hold hxid) hnew
        · exact he.rows d hold hb x hx hxid

/-! ## Every move keeps the invariant -/

section
variable {env : Env} {s s' : St} {b : String}

theorem followed_iff (h : Inv s) : s.followed = some b ↔ s.hop1BidId = some b := by
  unfold St.followed
  rw [Option.filter_eq_some_iff]
  constructor
  · intro hb
    exact hb.1
  · intro hb
    have hne := (h.current b hb).1
    exact ⟨hb, by simpa using hne⟩

/-- Nothing changes that the invariant is about, or the stage is left. -/
theorem Inv.frame (h : Inv s) (hlog : s'.log = s.log) (hruns : s'.runs = s.runs)
    (hstored : s'.storedHop1 = s.storedHop1) (hbid : s'.hop1BidId = s.hop1BidId) (hseeded : s'.seeded = s.seeded)
    (hready : s'.stage = .hop2Ready → s.stage = .hop2Ready ∧ s'.payout = s.payout) : Inv s' ∧ Turn s s' := by
  have ht : Turn s s' := .still (by rw [hlog]) hruns
  refine ⟨{ ht.filed h.toFiled with stored := ?_, current := ?_, ready := ?_, known := ?_, once := ?_ }, ht⟩
  · rw [hstored, hbid]
    exact h.stored
  · intro b hb
    rw [hbid] at hb
    obtain ⟨hne, c, r, cs, rows, hc⟩ := h.current b hb
    exact ⟨hne, c, r, cs, rows, by rw [hruns]; exact hc.runs, hc.bid, by rw [hlog]; exact hc.log, hc.status⟩
  · intro hst
    obtain ⟨hst, hpayout⟩ := hready hst
    rw [hbid, hpayout, hruns]
    exact h.ready hst
  · unfold St.bids
    rw [hseeded, hruns]
    exact h.known
  · rw [hseeded, hruns]
    exact h.once

theorem settled_keeps (h : Inv s) (hb : s.hop1BidId = some b) (viaAmount : String)
    (hopen : ∀ c ∈ s.runs, b ∈ c.bids → c.past = false) :
    Inv (takeSettled env b viaAmount s) ∧ Turn s (takeSettled env b viaAmount s) := by
  obtain ⟨hne, c, r, cs, rows, hc⟩ := h.current b hb
  have hf := h.toFiled
  have hlog : updateConversion b { viaAmount := some viaAmount } s.log =
      Patch.apply { viaAmount := some viaAmount } r :: rows := by
    rw [hc.log]
    exact updateConversion_head (hc.id hf) (hc.length_le hf)
  have ht : Turn s (takeSettled env b viaAmount s) := by
    refine .still ?_ rfl
    unfold takeSettled
    dsimp only
    rw [hlog, hc.log]
    rfl
  refine ⟨{ ht.filed hf with stored := h.stored, current := ?_, ready := ?_, known := h.known, once := h.once }, ht⟩
  · intro b' hb'
    obtain rfl : b = b' := Option.some.inj (hb.symm.trans hb')
    exact ⟨hne, c, _, cs, rows, hc.runs, hc.bid, hlog, hc.status⟩
  · intro _
    refine ⟨b, hb, rfl, ?_⟩
    intro d hd
    have hd : s.runs.head? = some d := hd
    rw [hc.runs] at hd
    obtain rfl := Option.some.inj hd
    apply hopen c hc.mem
    rw [← hc.bid]
    exact bid_mem c

theorem follow_keeps (h : Inv s) (hb : s.hop1BidId = some b) {bidId : String} (hne : bidId ≠ "")
    (hnew : bidId ∉ s.bids) : Inv (takeFollow b bidId s) ∧ Turn s (takeFollow b bidId s) := by
  obtain ⟨-, c, r, cs, rows, hc⟩ := h.current b hb
  have hf := h.toFiled
  have hlog : followConversionRebid b bidId (rebidPatch s bidId) s.log =
      { (rebidPatch s bidId).apply r with id := bidId } :: rows := by
    rw [hc.log]
    refine followConversionRebid_head (hc.id hf) hne ?_ (hc.not_rest hf) (hc.length_le hf)
    intro hin
    obtain ⟨x, hx, hid⟩ := List.mem_map.1 hin
    apply hnew
    rw [← hid]
    apply hf.mem_bids
    rwa [hc.log]
  have hruns : moveRun bidId s.runs = ⟨bidId, c.bids, c.past⟩ :: cs := by
    rw [hc.runs]
    rfl
  have ht : Turn s (takeFollow b bidId s) := by
    refine .moved hc hnew ?_ ?_ hlog hruns
    · rfl
    · rfl
  have hseeds : s.seeded.filter (Conversion.paid ⟨bidId, c.bids, c.past⟩) = s.seeded.filter c.paid := by
    apply List.filter_congr
    intro d hd
    obtain ⟨b', hb', hpayout⟩ := h.known d hd
    have hother : b' ≠ bidId := fun heq => hnew (heq ▸ hb')
    simp [Conversion.paid, Conversion.bids, hpayout, hother]
  refine ⟨{ ht.filed hf with stored := rfl, current := ?_, ready := ?_, known := ?_, once := ?_ }, ht⟩
  · intro b' hb'
    obtain rfl := Option.some.inj hb'
    exact ⟨hne, _, _, cs, rows, hruns, rfl, hlog, hc.status⟩
  · intro hst
    cases hst
  · intro d hd
    obtain ⟨b', hb', hpayout⟩ := h.known d hd
    refine ⟨b', ?_, hpayout⟩
    unfold St.bids at hb' ⊢
    unfold takeFollow
    dsimp only
    rw [hc.runs, List.flatMap_cons] at hb'
    rw [hruns, List.flatMap_cons]
    exact List.mem_cons_of_mem _ hb'
  · intro d hd
    have hd : d ∈ moveRun bidId s.runs := hd
    rw [hruns] at hd
    rcases List.mem_cons.1 hd with rfl | hd
    · have hone := h.once c hc.mem
      rw [← hseeds] at hone
      exact hone
    · apply h.once d
      rw [hc.runs]
      exact List.mem_cons_of_mem _ hd

theorem unwound_keeps (h : Inv s) (hb : s.hop1BidId = some b) (hopen : ∀ c ∈ s.runs, b ∈ c.bids → c.past = false) :
    Inv (takeUnwound b s) ∧ Turn s (takeUnwound b s) := by
  obtain ⟨-, c, r, cs, rows, hc⟩ := h.current b hb
  have hf := h.toFiled
  have hlog : updateConversion b { status := some .unwound } s.log =
      Patch.apply { status := some .unwound } r :: rows := by
    rw [hc.log]
    exact updateConversion_head (hc.id hf) (hc.length_le hf)
  have hover : c.past = false := by
    apply hopen c hc.mem
    rw [← hc.bid]
    exact bid_mem c
  have ht : Turn s (takeUnwound b s) := by
    have hrow := hc.id hf
    have hid : (Patch.apply { status := some .unwound } r).id = b := hrow
    exact .ended hc hover hid hlog hc.runs rfl
  refine ⟨{ ht.filed hf with stored := rfl, current := ?_, ready := ?_, known := h.known, once := h.once }, ht⟩
  · intro b' hb'
    cases hb'
  · intro hst
    cases hst


/-- The newest conversion leaves the pipeline. -/
theorem closed_keeps (h : Inv s) (hready : s.stage = .hop2Ready) (hstored : s'.storedHop1 = s'.hop1BidId)
    (hruns : s'.runs = closeRun s.hop1BidId s.runs) (hstage : s'.stage ≠ .hop2Ready) {p : Patch}
    (hdone : p.status = some .done)
    (hlog : s'.log = match s.followed with
      | some b => updateConversion b p s.log
      | none => s.log)
    (hbid : s'.hop1BidId = none ∨ s'.hop1BidId = s.hop1BidId)
    (hseeded : s'.seeded = s.seeded ∨ ∃ amount target, s'.seeded = ⟨s.payout, amount, target⟩ :: s.seeded) :
    Inv s' ∧ Turn s s' := by
  obtain ⟨b, hb, hpayout, hopen⟩ := h.ready hready
  obtain ⟨hne, c, r, cs, rows, hc⟩ := h.current b hb
  have hf := h.toFiled
  have hover : c.past = false := by
    apply hopen
    rw [hc.runs]
    rfl
  have hlog' : s'.log = p.apply r :: rows := by
    rw [hlog, (followed_iff h).2 hb, hc.log]
    exact updateConversion_head (hc.id hf) (hc.length_le hf)
  have hruns' : s'.runs = { c with past := true } :: cs := by
    have hnd := hf.nodup
    unfold St.bids at hnd
    rw [hc.runs] at hnd
    rw [hruns, hb, hc.runs, ← hc.bid]
    exact closeRun_head hnd
  have ht : Turn s s' := by
    have hrow := hc.id hf
    have hid : (p.apply r).id = b := hrow
    exact .ended hc hover hid hlog' hruns' rfl
  have hbids : s'.bids = s.bids := by
    unfold St.bids
    rw [hruns', hc.runs]
    rfl
  have hbc : b ∈ c.bids := by
    rw [← hc.bid]
    exact bid_mem c
  have hnone : s.seeded.filter c.paid = [] := by
    have hone := h.once c hc.mem
    rw [hover] at hone
    exact List.length_eq_zero_iff.1 (Nat.le_zero.1 hone)
  refine ⟨{ ht.filed hf with stored := hstored, current := ?_, ready := ?_, known := ?_, once := ?_ }, ht⟩
  · intro b' hb'
    rcases hbid with hnull | hsame
    · rw [hnull] at hb'
      cases hb'
    · rw [hsame, hb] at hb'
      obtain rfl := Option.some.inj hb'
      refine ⟨hne, _, _, cs, rows, hruns', hc.bid, hlog', ?_⟩
      simp [Patch.apply, hdone]
  · intro hst
    exact absurd hst hstage
  · rw [hbids]
    rcases hseeded with hsame | ⟨amount, target, hnew⟩
    · rw [hsame]
      exact h.known
    · rw [hnew]
      intro d hd
      rcases List.mem_cons.1 hd with rfl | hd
      · exact ⟨b, mem_bids hc.mem hbc, hpayout⟩
      · exact h.known d hd
  · intro d hd
    rw [hruns'] at hd
    rcases List.mem_cons.1 hd with rfl | hd
    · have hpaid : (s.seeded.filter (Conversion.paid { c with past := true })) = [] := hnone
      rcases hseeded with hsame | ⟨amount, target, hnew⟩
      · rw [hsame, hpaid]
        exact Nat.zero_le _
      · have hpos : Conversion.paid { c with past := true } ⟨s.payout, amount, target⟩ = true := by
          have hin : b ∈ Conversion.bids { c with past := true } := hbc
          simpa [Conversion.paid, hpayout] using hin
        rw [hnew, List.filter_cons_of_pos hpos, hpaid]
        exact Nat.le_refl _
    · have hds : d ∈ s.runs := by
        rw [hc.runs]
        exact List.mem_cons_of_mem _ hd
      have hone := h.once d hds
      rcases hseeded with hsame | ⟨amount, target, hnew⟩
      · rw [hsame]
        exact hone
      · have hother : d.paid ⟨s.payout, amount, target⟩ ≠ true := by
          intro hpaid
          have hbd : b ∈ d.bids := by simpa [Conversion.paid, hpayout] using hpaid
          have hnd := hf.nodup
          unfold St.bids at hnd
          rw [hc.runs, List.flatMap_cons] at hnd
          exact List.disjoint_of_nodup_append hnd hbc (List.mem_flatMap.2 ⟨d, hd, hbd⟩)
        rw [hnew, List.filter_cons_of_neg hother]
        exact hone

theorem clear_keeps (h : Inv s) : Inv (clear s) ∧ Turn s (clear s) := by
  have ht : Turn s (clear s) := .still rfl rfl
  refine ⟨{ ht.filed h.toFiled with stored := rfl, current := ?_, ready := ?_, known := h.known, once := h.once }, ht⟩
  · intro b hb
    cases hb
  · intro hst
    cases hst

theorem adopt_keeps (h : Inv s) {handle : SidecarSwapHandle} {now : Nat} (hne : handle.bidId ≠ "")
    (hnew : handle.bidId ∉ s.bids) :
    Inv (adoptHop1 env handle now s) ∧ Turn s (adoptHop1 env handle now s) := by
  have hf := h.toFiled
  have hlog : recordConversionStarted (hop1ConversionRecord env handle s.targetCoin now) s.log =
      write (hop1ConversionRecord env handle s.targetCoin now :: s.log) := by
    apply recordConversionStarted_new
    intro hin
    obtain ⟨x, hx, hid⟩ := List.mem_map.1 hin
    apply hnew
    have hmem := hf.mem_bids hx
    rwa [hid] at hmem
  have ht : Turn s (adoptHop1 env handle now s) := .begun hnew hlog rfl
  refine ⟨{ ht.filed hf with stored := rfl, current := ?_, ready := ?_, known := ?_, once := ?_ }, ht⟩
  · intro b hb
    obtain rfl := Option.some.inj hb
    exact ⟨hne, _, _, s.runs, _, rfl, rfl, hlog, rfl⟩
  · intro hst
    cases hst
  · intro d hd
    obtain ⟨b, hb, hpayout⟩ := h.known d hd
    exact ⟨b, List.mem_cons_of_mem _ hb, hpayout⟩
  · intro d hd
    rcases List.mem_cons.1 hd with rfl | hd
    · have hnone : s.seeded.filter (Conversion.paid ⟨handle.bidId, [], false⟩) = [] := by
        apply List.filter_eq_nil_iff.2
        intro x hx hpaid
        obtain ⟨b, hb, hpayout⟩ := h.known x hx
        have hin := (paid_iff hpayout).1 hpaid
        rw [List.mem_singleton.1 hin] at hb
        exact hnew hb
      exact Nat.le_of_eq (congrArg List.length hnone)
    · exact h.once d hd

theorem Turn.of_ran {ran : Option Deps} (h : Turn { s with ran := ran } s') : Turn s s' := by
  cases h with
  | still hrows hruns => exact .still hrows hruns
  | moved hc hnew hid hstatus hlog hruns =>
    exact .moved ⟨hc.runs, hc.bid, hc.log, hc.status⟩ hnew hid hstatus hlog hruns
  | ended hc hopen hid hlog hruns hbids =>
    exact .ended ⟨hc.runs, hc.bid, hc.log, hc.status⟩ hopen hid hlog hruns hbids
  | begun hnew hlog hruns => exact .begun hnew hlog hruns

theorem effect_keeps (h : Inv s)
    (hnew : ∀ b bidId, s.followed = some b → s.next b = .follow bidId → bidId ≠ "" ∧ bidId ∉ s.bids)
    (hok : ∀ b c, s.enabled = true → s.followed = some b → c ∈ s.runs → b ∈ c.bids → c.past = true →
      ¬ (s.next b).Ends) : Inv (effectBody env s) ∧ Turn s (effectBody env s) := by
  have hsame : Inv s ∧ Turn s s := ⟨h, .still rfl rfl⟩
  unfold effectBody
  cases hb : s.followed with
  | none => exact hsame
  | some b =>
    have hbid := (followed_iff h).1 hb
    dsimp only
    by_cases hen : s.enabled = true
    · rw [if_pos hen]
      have hopen : (s.next b).Ends → ∀ c ∈ s.runs, b ∈ c.bids → c.past = false := by
        intro hends c hc hbc
        by_cases hover : c.past = true
        · exact absurd hends (hok b c hen hb hc hbc hover)
        · simpa using hover
      cases hstep : s.next b with
      | unknown => exact hsame
      | running => exact h.frame rfl rfl rfl rfl rfl fun hst => by cases hst
      | settled viaAmount => exact settled_keeps h hbid viaAmount (hopen (hstep ▸ trivial))
      | follow bidId =>
        obtain ⟨hne, hfresh⟩ := hnew b bidId hb hstep
        exact follow_keeps h hbid hne hfresh
      | unwound => exact unwound_keeps h hbid (hopen (hstep ▸ trivial))
    · rw [if_neg hen]
      exact hsame

theorem beginHop2_keeps (h : Inv s) (hready : s.stage = .hop2Ready) :
    Inv (beginHop2 env s) ∧ Turn s (beginHop2 env s) := by
  have hsame : Inv s ∧ Turn s s := ⟨h, .still rfl rfl⟩
  unfold beginHop2
  cases s.hop2InputAmount.filter (· ≠ "") with
  | none => exact hsame
  | some amount =>
    dsimp only
    by_cases hnext : afterHop1 s.hop2PaidTo s.routeHopShared = .hop2
    · rw [if_pos hnext]
      refine closed_keeps h hready h.stored rfl ?_ rfl rfl (.inr rfl) (.inr ⟨_, _, rfl⟩)
      intro hst
      cases hst
    · rw [if_neg hnext]
      exact hsame

theorem finish_keeps (h : Inv s) (hready : s.stage = .hop2Ready) :
    Inv (finishAtRouteHop s) ∧ Turn s (finishAtRouteHop s) := by
  refine closed_keeps h hready rfl rfl ?_ rfl rfl (.inl rfl) (.inl rfl)
  intro hst
  cases hst

theorem step_keeps (h : Inv s) {m : Move} (hbids : NewBids s m) (hok : Untouched s m)
    (hs : (pipeline env).step s m = some s') : Inv s' ∧ Turn s s' := by
  cases m with
  | props enabled sidecar routeHopShared =>
    obtain rfl := Option.some.inj hs
    exact h.frame rfl rfl rfl rfl rfl fun hst => ⟨hst, rfl⟩
  | effect =>
    obtain ⟨-, hs⟩ := Option.ite_none_left_eq_some.1 hs
    obtain rfl := Option.some.inj hs
    have hmid : Inv { s with ran := some s.deps } ∧ Turn s { s with ran := some s.deps } :=
      h.frame rfl rfl rfl rfl rfl fun hst => ⟨hst, rfl⟩
    obtain ⟨hinv, hturn⟩ := @effect_keeps env _ hmid.1 hbids hok
    exact ⟨hinv, hturn.of_ran⟩
  | beginHop1 =>
    obtain rfl := Option.some.inj hs
    exact h.frame rfl rfl rfl rfl rfl fun hst => ⟨hst, rfl⟩
  | beginHop2 =>
    obtain ⟨hready, hs⟩ := Option.ite_none_right_eq_some.1 hs
    obtain rfl := Option.some.inj hs
    exact beginHop2_keeps h hready
  | finishAtRouteHop =>
    obtain ⟨hready, hs⟩ := Option.ite_none_right_eq_some.1 hs
    obtain rfl := Option.some.inj hs
    exact finish_keeps h hready
  | reset =>
    obtain rfl := Option.some.inj hs
    exact clear_keeps h
  | adoptHop1 handle now =>
    obtain ⟨-, hs⟩ := Option.ite_none_right_eq_some.1 hs
    obtain rfl := Option.some.inj hs
    exact adopt_keeps h hbids.1 hbids.2
  | setTargetCoin ticker =>
    obtain rfl := Option.some.inj hs
    exact h.frame rfl rfl rfl rfl rfl fun hst => ⟨hst, rfl⟩
  | restart =>
    obtain rfl := Option.some.inj hs
    exact h.frame rfl rfl rfl h.stored rfl fun hst => by cases hst

end

/-! ## The claims -/

theorem Filed.ids_nodup {s : St} (hf : Filed s) : (s.log.map (·.id)).Nodup := by
  rw [hf.rows]
  exact ((List.take_sublist _ _).trans (bids_sublist _)).nodup hf.nodup

/-- A row of a conversion is filed under the bid that it is followed under. -/
theorem Filed.id_of_owns {s : St} (hf : Filed s) {c : Conversion} {r : ConversionRecord} (hc : c ∈ s.runs)
    (hr : r ∈ s.log) (hown : c.owns r = true) : r.id = c.bid := by
  obtain ⟨d, hd, hid⟩ := hf.mem hr
  have hin : d.bid ∈ c.bids := hid ▸ owns_iff.1 hown
  rw [← hid, eq_of_shared hf.nodup hd hc (bid_mem d) hin]

theorem Filed.eq_of_owns {s : St} (hf : Filed s) {c : Conversion} {r r' : ConversionRecord} (hc : c ∈ s.runs)
    (hr : r ∈ s.log) (hr' : r' ∈ s.log) (hown : c.owns r = true) (hown' : c.owns r' = true) : r = r' := by
  apply List.inj_on_of_nodup_map hf.ids_nodup hr hr'
  rw [hf.id_of_owns hc hr hown, hf.id_of_owns hc hr' hown']

/-- The newest conversions have a row each, under the bid that they are followed under. -/
theorem Filed.row {s : St} (hf : Filed s) {i : Nat} {c : Conversion} (hi : i < MAX_ENTRIES)
    (hc : s.runs[i]? = some c) : ∃ r, r.id = c.bid ∧ s.log.filter c.owns = [r] := by
  have hcm : c ∈ s.runs := List.mem_of_getElem? hc
  have hat : (s.log.map (·.id))[i]? = some c.bid := by
    rw [hf.rows, List.getElem?_take_of_lt hi, List.getElem?_map, hc]
    rfl
  rw [List.getElem?_map] at hat
  obtain ⟨r, hr, hid⟩ := Option.map_eq_some_iff.1 hat
  have hrm : r ∈ s.log := List.mem_of_getElem? hr
  have hrc : c.owns r = true := by
    rw [owns_iff, hid]
    exact bid_mem c
  have howns : ∀ x ∈ s.log, c.owns x = decide (x = r) := by
    intro x hx
    by_cases hxr : x = r
    · rw [hxr, hrc]
      simp
    · have hxc : c.owns x ≠ true := fun hown => hxr (hf.eq_of_owns hcm hx hrm hown hrc)
      simp [hxc, hxr]
  refine ⟨r, hid, ?_⟩
  rw [List.filter_congr howns, List.filter_eq, List.count_eq_one_of_mem hf.ids_nodup.of_map hrm]
  rfl

theorem Inv.oneHop {s : St} (h : Inv s) : OneHop s where
  ready hst := by
    obtain ⟨b, hb, -, hopen⟩ := h.ready hst
    obtain ⟨-, c, r, cs, rows, hc⟩ := h.current b hb
    refine ⟨b, hb, fun d hd hbd => ?_⟩
    have hbc : b ∈ c.bids := by
      rw [← hc.bid]
      exact bid_mem c
    rw [eq_of_shared h.nodup hd hc.mem hbd hbc]
    apply hopen
    rw [hc.runs]
    rfl
  seeded c hc := by
    have hone := h.once c hc
    by_cases hover : c.past = true
    · rwa [if_pos hover] at hone
    · rw [if_neg hover] at hone
      omega
  newest b hb := by
    obtain ⟨-, c, r, cs, rows, hc⟩ := h.current b hb
    exact ⟨c, cs, hc.runs, hc.bid⟩
  row i c hi hc := h.toFiled.row hi hc

theorem rebidStep_not_settled {b viaAmount : String} {held : Bool} {rebid : Option AutoRebidOutcome} :
    rebidStep b held rebid ≠ .settled viaAmount := by
  unfold rebidStep
  cases rebid with
  | none => cases held <;> simp
  | some outcome =>
    cases outcome with
    | trying => simp
    | placed bidId => by_cases h : bidId = b <;> simp [h]
    | none => simp

theorem nextHop1Step_settled {b viaAmount : String} {hop1 : Option TrackedSwap} {rebid : Option AutoRebidOutcome}
    (h : nextHop1Step b hop1 rebid = .settled viaAmount) :
    ∃ swap, hop1 = some swap ∧ HOP1_STAGE_READING swap.stage.stage = .settled ∧ awaitsLeg swap.stage = false := by
  cases hop1 with
  | none => exact absurd h rebidStep_not_settled
  | some swap =>
    refine ⟨swap, rfl, ?_⟩
    unfold nextHop1Step at h
    cases hreading : HOP1_STAGE_READING swap.stage.stage with
    | running => simp [hreading] at h
    | settled =>
      by_cases hleg : awaitsLeg swap.stage = true
      · simp [hreading, hleg] at h
      · exact ⟨rfl, by simpa using hleg⟩
    | unwound =>
      by_cases hleg : awaitsLeg swap.stage = true
      · simp [hreading, hleg] at h
      · simp [hreading, hleg] at h
    | unanswered =>
      simp only [hreading] at h
      exact absurd h rebidStep_not_settled

theorem hop1_spec {s : St} {swap : TrackedSwap} (h : s.hop1 = some swap) :
    ∃ sidecar, s.sidecar = some sidecar ∧ swap ∈ sidecar.swaps ∧ s.hop1BidId = some swap.bidId := by
  unfold St.hop1 at h
  obtain ⟨b, hb, hrest⟩ := Option.bind_eq_some_iff.1 h
  obtain ⟨sidecar, hsidecar, hfind⟩ := Option.bind_eq_some_iff.1 hrest
  have hid : swap.bidId = b := by simpa using List.find?_some hfind
  refine ⟨sidecar, hsidecar, List.mem_of_find?_eq_some hfind, ?_⟩
  unfold St.followed at hb
  rw [hid]
  exact (Option.filter_eq_some_iff.1 hb).1

theorem readsSettled_of_next {s : St} {b viaAmount : String} (h : s.next b = .settled viaAmount) : ReadsSettled s := by
  obtain ⟨swap, hswap, hreading, hleg⟩ := nextHop1Step_settled h
  obtain ⟨sidecar, hsidecar, hmem, hbid⟩ := hop1_spec hswap
  refine ⟨swap.bidId, sidecar, swap, hbid, hsidecar, hmem, rfl, hreading, ?_⟩
  intro hunknown state hstate
  unfold awaitsLeg at hleg
  rw [hunknown, Option.mem_def.1 hstate] at hleg
  simpa using hleg

theorem readsSettled_of_body {env : Env} {s : St} (hready : (effectBody env s).stage = .hop2Ready)
    (hnot : s.stage ≠ .hop2Ready) : ReadsSettled s := by
  unfold effectBody at hready
  cases hb : s.followed with
  | none =>
    rw [hb] at hready
    exact absurd hready hnot
  | some b =>
    rw [hb] at hready
    dsimp only at hready
    by_cases hen : s.enabled = true
    · rw [if_pos hen] at hready
      cases hstep : s.next b with
      | settled viaAmount => exact readsSettled_of_next hstep
      | unknown =>
        rw [hstep] at hready
        exact absurd hready hnot
      | running =>
        rw [hstep] at hready
        cases hready
      | follow bidId =>
        rw [hstep] at hready
        cases hready
      | unwound =>
        rw [hstep] at hready
        cases hready
    · rw [if_neg hen] at hready
      exact absurd hready hnot

/-- Only a settled reading makes the pipeline ready for the second hop. -/
theorem ready_of_reading {env : Env} {s s' : St} {m : Move} (hs : (pipeline env).step s m = some s')
    (hready : s'.stage = .hop2Ready) (hnot : s.stage ≠ .hop2Ready) : ReadsSettled s := by
  cases m with
  | effect =>
    obtain ⟨-, hs⟩ := Option.ite_none_left_eq_some.1 hs
    obtain rfl := Option.some.inj hs
    have hbody : ReadsSettled { s with ran := some s.deps } := readsSettled_of_body hready hnot
    exact hbody
  | beginHop2 =>
    obtain ⟨hready, -⟩ := Option.ite_none_right_eq_some.1 hs
    exact absurd hready hnot
  | finishAtRouteHop =>
    obtain ⟨hready, -⟩ := Option.ite_none_right_eq_some.1 hs
    exact absurd hready hnot
  | adoptHop1 handle now =>
    obtain ⟨-, hs⟩ := Option.ite_none_right_eq_some.1 hs
    obtain rfl := Option.some.inj hs
    cases hready
  | reset =>
    obtain rfl := Option.some.inj hs
    cases hready
  | restart =>
    obtain rfl := Option.some.inj hs
    cases hready
  | props enabled sidecar routeHopShared =>
    obtain rfl := Option.some.inj hs
    exact absurd hready hnot
  | beginHop1 =>
    obtain rfl := Option.some.inj hs
    exact absurd hready hnot
  | setTargetCoin ticker =>
    obtain rfl := Option.some.inj hs
    exact absurd hready hnot

/-- The moves of the runs: the node's bids are new, and no conversion that left is read to its end again. -/
def Held (s : St) (m : Move) : Prop := NewBids s m ∧ Untouched s m

theorem inv_reach {env : Env} {s : St} (hs : (pipeline env).ReachOn Held fresh s) : Inv s :=
  hs.inv inv_fresh fun _ _ _ hinv hok hstep => (step_keeps hinv hok.1 hok.2 hstep).1

theorem stands_reach {env : Env} {s s' : St} (hinv : Inv s) (hs : (pipeline env).ReachOn Held s s') :
    StatusStands s s' := by
  intro r hr hst c hc hown r' hr' hown'
  have hstart : Inv s ∧ Ended r.id r.status s := by
    refine ⟨hinv, hinv.toFiled.mem_bids hr, ?_⟩
    intro d hd hrd x hx hxd
    rw [hinv.toFiled.eq_of_owns hd hx hr (owns_iff.2 hxd) (owns_iff.2 hrd)]
  have hend : Inv s' ∧ Ended r.id r.status s' := by
    refine hs.inv (P := fun x => Inv x ∧ Ended r.id r.status x) hstart fun _ _ _ hi hok hstep => ?_
    obtain ⟨hinv', hturn⟩ := step_keeps hi.1 hok.1 hok.2 hstep
    exact ⟨hinv', hturn.ended_stands hi.1.toFiled hst hi.2⟩
  exact hend.2.rows c hc (owns_iff.1 hown) r' hr' (owns_iff.1 hown')

def sampleEnv : Env := ⟨true, id, fun amount _ => amount, id⟩

/-- The tracker holds the settled first hop under an object of the stamp. -/
def sampleSidecar (stamp : Nat) : Sidecar :=
  ⟨[⟨stamp, "b", "1", "2", some .address, classifyBidState (some .swapCompleted) .scriptless⟩], []⟩

def sampleMoves : List Move :=
  [.adoptHop1 ⟨"b", "Monero", "Litecoin", "1", "2"⟩ 0, .props true (some (sampleSidecar 0)) true, .effect, .beginHop2,
    .props true (some (sampleSidecar 1)) true, .effect]

/-- Where the first moves of the sample lead. -/
def sampleAt (n : Nat) : St := ((pipeline sampleEnv).play fresh (sampleMoves.take n)).getD fresh

theorem sample_settles (n : Nat) (h : (sampleAt n).followed = some "b") (h' : (sampleAt n).next "b" = .settled "2") :
    NewBids (sampleAt n) .effect := by
  intro b bidId hb hnext
  rw [h] at hb
  obtain rfl := Option.some.inj hb
  rw [h'] at hnext
  cases hnext

theorem sample_handed : (pipeline sampleEnv).ReachOn Held fresh (sampleAt 4) := by
  have hadopted : (pipeline sampleEnv).ReachOn Held fresh (sampleAt 1) :=
    .step (.adoptHop1 ⟨"b", "Monero", "Litecoin", "1", "2"⟩ 0) .refl ⟨⟨by decide, by decide⟩, trivial⟩ (by decide +kernel)
  have hlisted : (pipeline sampleEnv).ReachOn Held fresh (sampleAt 2) :=
    hadopted.step (.props true (some (sampleSidecar 0)) true) ⟨trivial, trivial⟩ (by decide +kernel)
  have hopen : ∀ c ∈ (sampleAt 2).runs, c.past = false := by decide +kernel
  have hread : (pipeline sampleEnv).ReachOn Held fresh (sampleAt 3) := by
    refine hlisted.step .effect ⟨sample_settles 2 (by decide +kernel) (by decide +kernel), ?_⟩ (by decide +kernel)
    intro b c _ _ hc _ hover
    rw [hopen c hc] at hover
    cases hover
  exact hread.step .beginHop2 ⟨trivial, trivial⟩ (by decide +kernel)

end Convert
