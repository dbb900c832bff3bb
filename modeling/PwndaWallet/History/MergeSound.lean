import Mathlib.Data.List.Forall2
import Mathlib.Data.List.Nodup
import Mathlib.Data.List.Perm.Subperm
import Mathlib.Logic.Function.Basic
import PwndaWallet.History.Merge

/-!
# One row and one story for each bid

Reports of any kind in any order leave at most one row for a bid, which only goes forward: its end,
its transactions and its side stay, its hashes are filled once with what its transactions are called
then, and its coins are the record's unless the row already had others when the record was read.
-/

namespace History

open BidStates

/-! ## What is claimed -/

/-- The observations that the wallet makes of reports. -/
inductive Observed (env : Env) : P2PObservation → Prop
  | placed (now : String) (h : SidecarSwapHandle) : Observed env (observePlaced env now h)
  | active {o : P2PObservation} (now : String) (r : BasicSwapBidRow) (h : observeActive env now r = some o) : Observed env o
  | sent {o : P2PObservation} (now : String) (b : BasicSwapBidRow) (h : observeSentBid env now b = some o) : Observed env o
  | received {o : P2PObservation} (now : String) (b : BasicSwapBidRow) (h : observeReceivedBid env now b = some o) :
      Observed env o
  | handle (now : String) (h : SidecarSwapHandle) : Observed env (handleObservation env now h)
  | asked (bidId : String) : Observed env { bidId := bidId, mayCreate := false }
  | detail {o : P2PObservation} (now : String) (d : BasicSwapBidDetail) (h : Observed env o) :
      Observed env (withBidDetail env now o d)

/-- The side and the coins that a bid's own record stated last. `met` tells that the row had these coins
then, or was turned to them. -/
structure Said where
  role : Side
  frame : P2PFrame
  met : Bool

/-- What is remembered of a bid's row. `relabelled` tells that what its transactions are read with
changed after a hash was filled. -/
structure Story where
  said : Option Said
  relabelled : Bool

def hashed (r : SwapHistoryEntry) : Bool := r.sourceTxHash ≠ "" || (Js.truthy r.destTxHash).isSome

/-- The observation turns the row to the coins of the record. -/
def turning (prior : Option SwapHistoryEntry) (o : P2PObservation) : Bool :=
  match o.role, o.recordFrame with
  | some role, some rf => turns prior role rf
  | _, _ => false

/-- What is remembered after the observation, of the row it met and the row it left. -/
def tell (env : Env) (prior : Option SwapHistoryEntry) (o : P2PObservation) (row row' : SwapHistoryEntry) (st : Story) :
    Story where
  said := match o.role, o.recordFrame with
    | some role, some rf =>
      let filled := fillBlanks o row
      some ⟨role, rf, turns prior role rf || (filled.fromAsset = rf.fromAsset && filled.toAsset = rf.toAsset)⟩
    | _, _ => if prior.isSome then st.said else none
  relabelled := prior.any fun p =>
    !turning prior o && (st.relabelled || (hashed p && readingOf env p ≠ readingOf env row'))

def tellOne (env : Env) (nowIso : String) (rows : Rows) (o : P2PObservation) (st : String → Story) : String → Story :=
  let prior := rowOf (p2pHistoryId o.bidId) rows
  match rowFor prior o with
  | none => st
  | some row => Function.update st o.bidId (tell env prior o row (merged env nowIso prior o row) (st o.bidId))

def tellAll (env : Env) (nowIso : String) : List P2PObservation → Merging → (String → Story) → String → Story
  | [], _, st => st
  | o :: os, m, st => tellAll env nowIso os (mergeOne env nowIso m o) (tellOne env nowIso m.rows o st)

structure St where
  rows : Rows
  story : String → Story

/-- The rows of bids that a write of another kind leaves are as they were. -/
structure Foreign (rows rows' : Rows) : Prop where
  bids (bidId : String) : (rows'.filter (·.id = p2pHistoryId bidId)).Sublist (rows.filter (·.id = p2pHistoryId bidId))
  cap : rows.length ≤ MAX_ROWS → rows'.length ≤ MAX_ROWS

/-- The writes for the other kinds of swaps. -/
inductive OtherWrite (rows : Rows) : Rows → Prop
  | append (entry : SwapHistoryEntry) (h : ∀ bidId, entry.id ≠ p2pHistoryId bidId) :
      OtherWrite rows (appendSwapHistory entry rows)
  | update (id : String) (patch : SwapHistoryEntry → SwapHistoryEntry) (h : ∀ bidId, id ≠ p2pHistoryId bidId) :
      OtherWrite rows (updateSwapHistoryEntry id patch rows)
  | upsert (entry : SwapHistoryEntry) (merge : SwapHistoryEntry → SwapHistoryEntry)
      (h : ∀ bidId, entry.id ≠ p2pHistoryId bidId) : OtherWrite rows (upsertSwapHistoryEntry entry merge rows)
  | modify (fn : Rows → Option Rows) (h : Foreign rows (modifySwapHistory fn rows)) :
      OtherWrite rows (modifySwapHistory fn rows)

inductive Step (env : Env) (s : St) : St → Prop
  | observe (list : List P2PObservation) (nowIso : String) (h : ∀ o ∈ list, Observed env o) :
      Step env s ⟨writeP2PObservations env list nowIso s.rows, tellAll env nowIso list ⟨s.rows, false, false⟩ s.story⟩
  | other (rows' : Rows) (h : OtherWrite s.rows rows') : Step env s ⟨rows', s.story⟩

inductive Reach (env : Env) (start : St) : St → Prop
  | refl : Reach env start start
  | step {s s' : St} (hs : Reach env start s) (h : Step env s s') : Reach env start s'

/-- The hashes are what the row's own transactions are called. -/
structure Labelled (env : Env) (r : SwapHistoryEntry) : Prop where
  source : r.sourceTxHash ≠ "" → ∃ leg ∈ p2pLegTransactions env r, leg.role = .youLocked ∧ leg.txid = r.sourceTxHash
  dest : ∀ h, Js.truthy r.destTxHash = some h → ∃ leg ∈ p2pLegTransactions env r, leg.role = .youClaimed ∧ leg.txid = h

/-- A bid's row agrees with what is remembered of it. -/
structure Fits (env : Env) (r : SwapHistoryEntry) (st : Story) : Prop where
  txns : (r.bidTxns.map (·.txid)).Nodup
  said : ∀ s, st.said = some s → r.bidRole = some s.role ∧ s.frame.fromAsset ≠ "" ∧ s.frame.toAsset ≠ "" ∧
    (s.met = true → r.fromAsset = s.frame.fromAsset ∧ r.toAsset = s.frame.toAsset)
  hashes : st.relabelled = false → Labelled env r

structure OneStory (env : Env) (s : St) : Prop where
  one (bidId : String) : (s.rows.filter (·.id = p2pHistoryId bidId)).length ≤ 1
  fits (bidId : String) (r : SwapHistoryEntry) : r ∈ s.rows → r.id = p2pHistoryId bidId → Fits env r (s.story bidId)
  cap : s.rows.length ≤ MAX_ROWS

/-- What a write of reports leaves of a row. -/
structure Keeps (list : List P2PObservation) (r r' : SwapHistoryEntry) : Prop where
  id : r'.id = r.id
  createdAt : r'.createdAt = r.createdAt
  other : (∀ o ∈ list, r.id ≠ p2pHistoryId o.bidId) → r' = r
  finished : r.status ≠ .pending → r'.status ≠ .pending
  txns : r.bidTxns <+: r'.bidTxns
  side : r.bidRole ≠ none → r'.bidRole ≠ none
  role : (∀ o ∈ list, r.id = p2pHistoryId o.bidId → o.recordFrame = none) → ∀ x, r.bidRole = some x → r'.bidRole = some x
  source : r.bidRole ≠ none → r.sourceTxHash ≠ "" → r'.sourceTxHash = r.sourceTxHash
  dest : r.bidRole ≠ none → ∀ h, Js.truthy r.destTxHash = some h → r'.destTxHash = some h

/-- Every row is kept, new rows are of the bids that were reported, and only the oldest fall off the end. -/
structure Written (list : List P2PObservation) (rows rows' : Rows) (news olds : Rows) : Prop where
  kept : List.Forall₂ (Keeps list) rows olds
  new : ∀ n ∈ news, (∃ o ∈ list, n.id = p2pHistoryId o.bidId) ∧ ∀ r ∈ rows, r.id ≠ n.id
  rows : rows'.Subperm (news ++ olds)
  dropped : rows'.Perm (news ++ olds) ∨
    rows'.length = MAX_ROWS ∧ ∀ d ∈ news ++ olds, d ∉ rows' → ∀ k ∈ rows', d.createdAt ≤ k.createdAt

/-! ## One observation on one row -/

theorem p2pHistoryId_inj {a b : String} (h : p2pHistoryId a = p2pHistoryId b) : a = b := (String.append_right_inj _).1 h

theorem mergeTxns_nodup {prior more : List P2PBidTx} (h : (prior.map (·.txid)).Nodup) :
    ((mergeTxns prior more).map (·.txid)).Nodup := by
  unfold mergeTxns
  induction more generalizing prior with
  | nil => exact h
  | cons t ts ih =>
    rw [List.foldl_cons]
    by_cases hin : prior.any (·.txid == t.txid) = true
    · rw [if_pos hin]
      exact ih h
    · rw [if_neg hin]
      apply ih
      rw [List.map_append, List.nodup_append']
      refine ⟨h, by simp, ?_⟩
      intro x hx hx'
      rw [List.map_cons, List.map_nil, List.mem_singleton] at hx'
      obtain ⟨p, hp, hid⟩ := List.mem_map.1 hx
      apply hin
      exact List.any_eq_true.2 ⟨p, hp, by simp [hid, hx']⟩

theorem mergeTxns_isPrefix_old (prior more : List P2PBidTx) : prior <+: mergeTxns prior more := by
  unfold mergeTxns
  induction more generalizing prior with
  | nil => exact List.prefix_rfl
  | cons t ts ih =>
    rw [List.foldl_cons]
    by_cases hin : prior.any (·.txid == t.txid) = true
    · rw [if_pos hin]
      exact ih prior
    · rw [if_neg hin]
      exact (List.prefix_append prior [t]).trans (ih _)

/-- The stages between the side and the transactions leave the rest of the row, and its end stands. -/
structure Same (r r' : SwapHistoryEntry) : Prop where
  id : r'.id = r.id
  createdAt : r'.createdAt = r.createdAt
  fromAsset : r'.fromAsset = r.fromAsset
  toAsset : r'.toAsset = r.toAsset
  bidRole : r'.bidRole = r.bidRole
  sourceTxHash : r'.sourceTxHash = r.sourceTxHash
  destTxHash : r'.destTxHash = r.destTxHash
  finished : r.status ≠ .pending → r'.status ≠ .pending

theorem Same.refl (r : SwapHistoryEntry) : Same r r := ⟨rfl, rfl, rfl, rfl, rfl, rfl, rfl, fun h => h⟩

theorem Same.trans {r r' r'' : SwapHistoryEntry} (h : Same r r') (h' : Same r' r'') : Same r r'' where
  id := h'.id.trans h.id
  createdAt := h'.createdAt.trans h.createdAt
  fromAsset := h'.fromAsset.trans h.fromAsset
  toAsset := h'.toAsset.trans h.toAsset
  bidRole := h'.bidRole.trans h.bidRole
  sourceTxHash := h'.sourceTxHash.trans h.sourceTxHash
  destTxHash := h'.destTxHash.trans h.destTxHash
  finished hr := h'.finished (h.finished hr)

theorem takePayout_same (o : P2PObservation) (r : SwapHistoryEntry) : Same r (takePayout o r) := by
  unfold takePayout
  cases o.payout with
  | none => exact .refl r
  | some payout =>
    cases r.payoutTo with
    | none => exact ⟨rfl, rfl, rfl, rfl, rfl, rfl, rfl, fun h => h⟩
    | some _ => exact .refl r

theorem takeState_same (env : Env) (o : P2PObservation) (r : SwapHistoryEntry) : Same r (takeState env o r) := by
  unfold takeState
  cases present (o.bidState.or r.bidState) with
  | none => exact .refl r
  | some candidate =>
    dsimp only
    by_cases hback : r.status ≠ .pending ∧ p2pBidStateToHistoryStatus env candidate r.bidLeg = .pending
    · rw [if_pos hback]
      exact .refl r
    · rw [if_neg hback]
      refine ⟨rfl, rfl, rfl, rfl, rfl, rfl, rfl, ?_⟩
      intro hdone hnext
      exact hback ⟨hdone, hnext⟩

theorem dated_same (o : P2PObservation) (nowIso : String) (r : SwapHistoryEntry) : Same r (dated o nowIso r) := by
  unfold dated
  by_cases h : r.status ≠ .pending ∧ (Js.truthy r.completedAt).isNone
  · rw [if_pos h]
    exact ⟨rfl, rfl, rfl, rfl, rfl, rfl, rfl, fun h => h⟩
  · rw [if_neg h]
    exact .refl r

/-- The row before its side is taken, which has the id, the end, the side and the hashes of the stored one. -/
structure Filled (r r' : SwapHistoryEntry) : Prop where
  id : r'.id = r.id
  createdAt : r'.createdAt = r.createdAt
  fromAsset : r.fromAsset ≠ "" → r'.fromAsset = r.fromAsset
  toAsset : r.toAsset ≠ "" → r'.toAsset = r.toAsset
  bidRole : r'.bidRole = r.bidRole
  sourceTxHash : r'.sourceTxHash = r.sourceTxHash
  destTxHash : r'.destTxHash = r.destTxHash
  status : r'.status = r.status

theorem fillBlanks_filled (o : P2PObservation) (r : SwapHistoryEntry) : Filled r (fillBlanks o r) := by
  unfold fillBlanks
  cases o.base with
  | none => exact ⟨rfl, rfl, fun _ => rfl, fun _ => rfl, rfl, rfl, rfl, rfl⟩
  | some base => exact ⟨rfl, rfl, fun h => if_neg h, fun h => if_neg h, rfl, rfl, rfl, rfl⟩

/-- What taking the side does: a record sets it and may turn the row, anything else fills a blank. -/
inductive Takes (prior : Option SwapHistoryEntry) (o : P2PObservation) (r r' : SwapHistoryEntry) : Prop
  | record {role : Side} {rf : P2PFrame} (hrole : o.role = some role) (hrf : o.recordFrame = some rf)
      (hturn : turns prior role rf = false) (h : r' = { r with bidRole := some role })
  | turned {role : Side} {rf : P2PFrame} (hrole : o.role = some role) (hrf : o.recordFrame = some rf)
      (hturn : turns prior role rf = true) (h : r' = { turned rf r with bidRole := some role })
  | list (ho : o.role = none ∨ o.recordFrame = none) (x : Option Side) (h : r' = { r with bidRole := r.bidRole.or x })

theorem takeRole_takes (prior : Option SwapHistoryEntry) (o : P2PObservation) (r : SwapHistoryEntry) :
    Takes prior o r (takeRole prior o r) := by
  unfold takeRole
  cases hrole : o.role with
  | none => exact .list (.inl hrole) none (by simp)
  | some role =>
    cases hrf : o.recordFrame with
    | none => exact .list (.inr hrf) (some role) rfl
    | some rf =>
      cases hturn : turns prior role rf with
      | true => exact .turned hrole hrf hturn (by simp [hturn])
      | false => exact .record hrole hrf hturn (by simp [hturn])

theorem turning_eq {prior : Option SwapHistoryEntry} {o : P2PObservation} {role : Side} {rf : P2PFrame}
    (hrole : o.role = some role) (hrf : o.recordFrame = some rf) : turning prior o = turns prior role rf := by
  simp [turning, hrole, hrf]

/-- The row that the hashes are filled in. -/
def unhashed (env : Env) (nowIso : String) (prior : Option SwapHistoryEntry) (o : P2PObservation)
    (row : SwapHistoryEntry) : SwapHistoryEntry :=
  takeTxns o (dated o nowIso (takeState env o (takePayout o (takeRole prior o (fillBlanks o row)))))

section
variable (env : Env) (nowIso : String) (prior : Option SwapHistoryEntry) (o : P2PObservation) (r : SwapHistoryEntry)

@[simp] theorem fillBlanks_bidTxns : (fillBlanks o r).bidTxns = r.bidTxns := by
  unfold fillBlanks
  cases o.base <;> rfl

@[simp] theorem takeRole_bidTxns : (takeRole prior o r).bidTxns = r.bidTxns := by
  cases takeRole_takes prior o r with
  | record _ _ _ h => rw [h]
  | turned _ _ _ h => rw [h]; rfl
  | list _ _ h => rw [h]

@[simp] theorem takePayout_bidTxns : (takePayout o r).bidTxns = r.bidTxns := by
  unfold takePayout
  split <;> rfl

@[simp] theorem takeState_bidTxns : (takeState env o r).bidTxns = r.bidTxns := by
  unfold takeState
  cases present (o.bidState.or r.bidState) with
  | none => rfl
  | some candidate =>
    dsimp only
    split <;> rfl

@[simp] theorem dated_bidTxns : (dated o nowIso r).bidTxns = r.bidTxns := by
  unfold dated
  split <;> rfl

theorem unhashed_bidTxns : (unhashed env nowIso prior o r).bidTxns = mergeTxns r.bidTxns o.txns := by
  simp [unhashed, takeTxns]

theorem unhashed_same : Same (takeRole prior o (fillBlanks o r)) (unhashed env nowIso prior o r) := by
  have htxns : ∀ q, Same q (takeTxns o q) := fun q => ⟨rfl, rfl, rfl, rfl, rfl, rfl, rfl, fun h => h⟩
  exact (((takePayout_same o _).trans (takeState_same env o _)).trans (dated_same o nowIso _)).trans (htxns _)

end

/-! ## The hashes -/

theorem legOf_txid (env : Env) (r : Reading) (t : P2PBidTx) : (legOf env r t).txid = t.txid := rfl

theorem mem_legs {env : Env} {row row' : SwapHistoryEntry} (hread : readingOf env row' = readingOf env row)
    (htxns : row.bidTxns ⊆ row'.bidTxns) {leg : P2PLegTx} (h : leg ∈ p2pLegTransactions env row) :
    leg ∈ p2pLegTransactions env row' := by
  obtain ⟨t, ht, hleg⟩ := List.mem_map.1 h
  refine List.mem_map.2 ⟨t, htxns ht, ?_⟩
  rw [hread]
  exact hleg

/-- A row whose hashes are cut off from what the transactions are read with. -/
structure SameTxns (r r' : SwapHistoryEntry) : Prop where
  fromAsset : r'.fromAsset = r.fromAsset
  toAsset : r'.toAsset = r.toAsset
  bidLeg : r'.bidLeg = r.bidLeg
  status : r'.status = r.status
  bidTxns : r'.bidTxns = r.bidTxns
  id : r'.id = r.id
  createdAt : r'.createdAt = r.createdAt
  bidRole : r'.bidRole = r.bidRole

theorem SameTxns.reading {env : Env} {r r' : SwapHistoryEntry} (h : SameTxns r r') : readingOf env r' = readingOf env r := by
  unfold readingOf
  rw [h.fromAsset, h.toAsset, h.bidLeg, h.status, h.bidTxns]

theorem SameTxns.legs {env : Env} {r r' : SwapHistoryEntry} (h : SameTxns r r') :
    p2pLegTransactions env r' = p2pLegTransactions env r := by
  unfold p2pLegTransactions
  rw [h.reading, h.bidTxns]

theorem SameTxns.trans {r r' r'' : SwapHistoryEntry} (h : SameTxns r r') (h' : SameTxns r' r'') : SameTxns r r'' where
  fromAsset := h'.fromAsset.trans h.fromAsset
  toAsset := h'.toAsset.trans h.toAsset
  bidLeg := h'.bidLeg.trans h.bidLeg
  status := h'.status.trans h.status
  bidTxns := h'.bidTxns.trans h.bidTxns
  id := h'.id.trans h.id
  createdAt := h'.createdAt.trans h.createdAt
  bidRole := h'.bidRole.trans h.bidRole

/-- What filling a hash does to the row. -/
structure FilledSource (legs : List P2PLegTx) (r r' : SwapHistoryEntry) : Prop where
  same : SameTxns r r'
  dest : r'.destTxHash = r.destTxHash
  kept : r.sourceTxHash ≠ "" → r'.sourceTxHash = r.sourceTxHash
  filled : r.sourceTxHash = "" → r'.sourceTxHash = "" ∨
    ∃ leg ∈ legs, leg.role = .youLocked ∧ leg.txid = r'.sourceTxHash

theorem fillSource_filled (legs : List P2PLegTx) (r : SwapHistoryEntry) : FilledSource legs r (fillSource legs r) := by
  unfold fillSource
  cases hleg : legs.find? (·.role = .youLocked) with
  | none => exact ⟨⟨rfl, rfl, rfl, rfl, rfl, rfl, rfl, rfl⟩, rfl, fun _ => rfl, .inl⟩
  | some sent =>
    have hrole : sent.role = .youLocked := by simpa using List.find?_some hleg
    dsimp only
    by_cases hempty : r.sourceTxHash = ""
    · rw [if_pos hempty]
      refine ⟨⟨rfl, rfl, rfl, rfl, rfl, rfl, rfl, rfl⟩, rfl, fun hne => absurd hempty hne, fun _ => .inr ?_⟩
      exact ⟨sent, List.mem_of_find?_eq_some hleg, hrole, rfl⟩
    · rw [if_neg hempty]
      exact ⟨⟨rfl, rfl, rfl, rfl, rfl, rfl, rfl, rfl⟩, rfl, fun _ => rfl, .inl⟩

structure FilledDest (legs : List P2PLegTx) (r r' : SwapHistoryEntry) : Prop where
  same : SameTxns r r'
  source : r'.sourceTxHash = r.sourceTxHash
  kept : ∀ h, Js.truthy r.destTxHash = some h → r'.destTxHash = some h
  filled : Js.truthy r.destTxHash = none → ∀ h, Js.truthy r'.destTxHash = some h →
    ∃ leg ∈ legs, leg.role = .youClaimed ∧ leg.txid = h

theorem fillDest_filled (legs : List P2PLegTx) (r : SwapHistoryEntry) : FilledDest legs r (fillDest legs r) := by
  have hkeep : FilledDest legs r r := by
    refine ⟨⟨rfl, rfl, rfl, rfl, rfl, rfl, rfl, rfl⟩, rfl, fun h hd => (Js.truthy_eq_some.1 hd).1, ?_⟩
    intro hnone h hd
    rw [hnone] at hd
    cases hd
  unfold fillDest
  cases hleg : legs.find? (·.role = .youClaimed) with
  | none => exact hkeep
  | some got =>
    have hrole : got.role = .youClaimed := by simpa using List.find?_some hleg
    dsimp only
    by_cases hempty : (Js.truthy r.destTxHash).isNone = true
    · rw [if_pos hempty]
      refine ⟨⟨rfl, rfl, rfl, rfl, rfl, rfl, rfl, rfl⟩, rfl, ?_, ?_⟩
      · intro h hd
        rw [hd] at hempty
        cases hempty
      · intro _ h hd
        obtain ⟨hsome, -⟩ := Js.truthy_eq_some.1 hd
        exact ⟨got, List.mem_of_find?_eq_some hleg, hrole, Option.some.inj hsome⟩
    · rw [if_neg hempty]
      exact hkeep

/-- The hashes of the row are names of its own transactions if those that it had already are. -/
theorem fillHashes_labelled {env : Env} {r : SwapHistoryEntry} (h : Labelled env r) : Labelled env (fillHashes env r) := by
  have hs := fillSource_filled (p2pLegTransactions env r) r
  have hd := fillDest_filled (p2pLegTransactions env r) (fillSource (p2pLegTransactions env r) r)
  have hlegs : p2pLegTransactions env (fillHashes env r) = p2pLegTransactions env r := (hs.same.trans hd.same).legs
  have hsource : (fillHashes env r).sourceTxHash = (fillSource (p2pLegTransactions env r) r).sourceTxHash := hd.source
  constructor
  · rw [hlegs, hsource]
    intro hne
    by_cases hempty : r.sourceTxHash = ""
    · exact (hs.filled hempty).resolve_left hne
    · rw [hs.kept hempty]
      exact h.source hempty
  · rw [hlegs]
    intro x hx
    cases hold : Js.truthy r.destTxHash with
    | none =>
      have hnone : Js.truthy (fillSource (p2pLegTransactions env r) r).destTxHash = none := by rw [hs.dest, hold]
      exact hd.filled hnone x hx
    | some y =>
      have hsome : Js.truthy (fillSource (p2pLegTransactions env r) r).destTxHash = some y := by rw [hs.dest, hold]
      have hkept : (fillHashes env r).destTxHash = some y := hd.kept y hsome
      rw [(Js.truthy_eq_some.1 hx).1] at hkept
      obtain rfl := Option.some.inj hkept
      exact h.dest _ hold

/-! ## What an observation leaves of the row -/

theorem recordFrameOf_nonblank {env : Env} {d : BasicSwapBidDetail} {role : Side} {rf : P2PFrame}
    (h : recordFrameOf env d role = some rf) : rf.fromAsset ≠ "" ∧ rf.toAsset ≠ "" := by
  unfold recordFrameOf at h
  dsimp only at h
  by_cases hblank : env.tickerOf d.coinFrom = "" ∨ env.tickerOf d.coinTo = ""
  · rw [if_pos hblank] at h
    cases h
  · rw [if_neg hblank] at h
    obtain ⟨hsrc, hdst⟩ := not_or.1 hblank
    cases role with
    | taker =>
      obtain rfl := Option.some.inj h
      exact ⟨hdst, hsrc⟩
    | maker =>
      obtain rfl := Option.some.inj h
      exact ⟨hsrc, hdst⟩

theorem observed_frame {env : Env} {o : P2PObservation} (h : Observed env o) {rf : P2PFrame}
    (hrf : o.recordFrame = some rf) : rf.fromAsset ≠ "" ∧ rf.toAsset ≠ "" := by
  induction h with
  | placed now h => cases hrf
  | active now r h =>
    obtain ⟨bidId, -, rfl⟩ := Option.map_eq_some_iff.1 h
    cases hrf
  | sent now b h =>
    obtain ⟨bidId, -, rfl⟩ := Option.map_eq_some_iff.1 h
    cases hrf
  | received now b h =>
    obtain ⟨bidId, -, rfl⟩ := Option.map_eq_some_iff.1 h
    cases hrf
  | handle now h => cases hrf
  | asked bidId => cases hrf
  | @detail o now d ho ih =>
    have hor : ((recordRole d).bind (recordFrameOf env d)).or o.recordFrame = some rf := hrf
    cases hframe : (recordRole d).bind (recordFrameOf env d) with
    | none =>
      rw [hframe, Option.none_or] at hor
      exact ih hor
    | some frame =>
      rw [hframe, Option.some_or] at hor
      obtain rfl := Option.some.inj hor
      obtain ⟨role, -, hof⟩ := Option.bind_eq_some_iff.1 hframe
      exact recordFrameOf_nonblank hof

section
variable {env : Env} {nowIso : String} {o : P2PObservation} {p row : SwapHistoryEntry}
  {prior : Option SwapHistoryEntry} {st : Story}

theorem turns_side {role : Side} {rf : P2PFrame} (h : turns (some p) role rf = true) : p.bidRole = none := by
  have hand : p.bidRole.isNone = true := by
    simp only [turns, Option.any_some, Bool.and_eq_true] at h
    exact h.1.1.1
  exact Option.isNone_iff_eq_none.1 hand

/-- The side and the hashes before the hashes are filled. -/
theorem unhashed_takes : ∃ q, Filled row q ∧ Takes prior o q (takeRole prior o q) ∧
    Same (takeRole prior o q) (unhashed env nowIso prior o row) :=
  ⟨fillBlanks o row, fillBlanks_filled o row, takeRole_takes prior o _, unhashed_same env nowIso prior o row⟩

theorem merged_same : SameTxns (unhashed env nowIso prior o row) (merged env nowIso prior o row) :=
  (fillSource_filled _ _).same.trans (fillDest_filled _ _).same

theorem merged_keeps (hid : p.id = p2pHistoryId o.bidId) : Keeps [o] p (merged env nowIso (some p) o p) := by
  have hm := @merged_same env nowIso o p (some p)
  have hs := fillSource_filled (p2pLegTransactions env (unhashed env nowIso (some p) o p)) (unhashed env nowIso (some p) o p)
  have hd := fillDest_filled (p2pLegTransactions env (unhashed env nowIso (some p) o p))
    (fillSource (p2pLegTransactions env (unhashed env nowIso (some p) o p)) (unhashed env nowIso (some p) o p))
  obtain ⟨q, hq, ht, hu⟩ := @unhashed_takes env nowIso o p (some p)
  have htaken : (takeRole (some p) o q).id = q.id ∧ (takeRole (some p) o q).createdAt = q.createdAt ∧
      (takeRole (some p) o q).status = q.status ∧ (q.bidRole ≠ none → (takeRole (some p) o q).bidRole ≠ none) ∧
      (p.bidRole ≠ none → (takeRole (some p) o q).sourceTxHash = q.sourceTxHash ∧
        (takeRole (some p) o q).destTxHash = q.destTxHash) := by
    cases ht with
    | record hrole hrf hturn h =>
      rw [h]
      exact ⟨rfl, rfl, rfl, fun _ => by simp, fun _ => ⟨rfl, rfl⟩⟩
    | turned hrole hrf hturn h =>
      rw [h]
      exact ⟨rfl, rfl, rfl, fun _ => by simp, fun hne => absurd (turns_side hturn) hne⟩
    | list ho x h =>
      rw [h]
      refine ⟨rfl, rfl, rfl, fun hne => ?_, fun _ => ⟨rfl, rfl⟩⟩
      simp [hne]
  obtain ⟨htid, htcreated, htstatus, htside, hthash⟩ := htaken
  constructor
  · rw [hm.id, hu.id, htid, hq.id]
  · rw [hm.createdAt, hu.createdAt, htcreated, hq.createdAt]
  · intro hother
    exact absurd hid (hother o List.mem_cons_self)
  · intro hdone
    rw [hm.status]
    apply hu.finished
    rw [htstatus, hq.status]
    exact hdone
  · rw [hm.bidTxns, unhashed_bidTxns]
    exact mergeTxns_isPrefix_old _ _
  · intro hside
    rw [hm.bidRole, hu.bidRole]
    apply htside
    rwa [hq.bidRole]
  · intro hlist x hx
    rw [hm.bidRole, hu.bidRole]
    have hnone := hlist o List.mem_cons_self hid
    cases ht with
    | record hrole hrf hturn h =>
      rw [hnone] at hrf
      cases hrf
    | turned hrole hrf hturn h =>
      rw [hnone] at hrf
      cases hrf
    | list ho y h =>
      rw [h]
      dsimp only
      rw [hq.bidRole, hx, Option.some_or]
  · intro hside hne
    have hsame : (unhashed env nowIso (some p) o p).sourceTxHash = p.sourceTxHash := by
      rw [hu.sourceTxHash, (hthash hside).1, hq.sourceTxHash]
    have hkept := hs.kept (hsame ▸ hne)
    exact (hd.source.trans hkept).trans hsame
  · intro hside x hx
    have hsame : (unhashed env nowIso (some p) o p).destTxHash = p.destTxHash := by
      rw [hu.destTxHash, (hthash hside).2, hq.destTxHash]
    apply hd.kept
    rw [hs.dest, hsame]
    exact hx


/-- A record sets the side, and the coins are the record's if the row has them or is turned. -/
theorem merged_record {role : Side} {rf : P2PFrame} (hrole : o.role = some role) (hrf : o.recordFrame = some rf) :
    (merged env nowIso prior o row).bidRole = some role ∧
      ((turns prior role rf || ((fillBlanks o row).fromAsset = rf.fromAsset && (fillBlanks o row).toAsset = rf.toAsset)) = true →
        (merged env nowIso prior o row).fromAsset = rf.fromAsset ∧ (merged env nowIso prior o row).toAsset = rf.toAsset) := by
  have hm := @merged_same env nowIso o row prior
  have hu := unhashed_same env nowIso prior o row
  rw [hm.bidRole, hm.fromAsset, hm.toAsset, hu.bidRole, hu.fromAsset, hu.toAsset]
  cases takeRole_takes prior o (fillBlanks o row) with
  | record hrole' hrf' hturn h =>
    rw [hrole] at hrole'
    rw [hrf] at hrf'
    obtain rfl := Option.some.inj hrole'
    obtain rfl := Option.some.inj hrf'
    rw [h]
    refine ⟨rfl, fun hmet => ?_⟩
    simpa [hturn] using hmet
  | turned hrole' hrf' hturn h =>
    rw [hrole] at hrole'
    rw [hrf] at hrf'
    obtain rfl := Option.some.inj hrole'
    obtain rfl := Option.some.inj hrf'
    rw [h]
    exact ⟨rfl, fun _ => ⟨rfl, rfl⟩⟩
  | list ho x h =>
    rcases ho with ho | ho
    · rw [hrole] at ho
      cases ho
    · rw [hrf] at ho
      cases ho

/-- What is not a record's leaves a side that is set and coins that are there. -/
theorem merged_list (ho : o.role = none ∨ o.recordFrame = none) {x : Side} (hx : row.bidRole = some x) :
    (merged env nowIso prior o row).bidRole = some x ∧
      (row.fromAsset ≠ "" → (merged env nowIso prior o row).fromAsset = row.fromAsset) ∧
      (row.toAsset ≠ "" → (merged env nowIso prior o row).toAsset = row.toAsset) := by
  have hm := @merged_same env nowIso o row prior
  have hu := unhashed_same env nowIso prior o row
  have hf := fillBlanks_filled o row
  rw [hm.bidRole, hm.fromAsset, hm.toAsset, hu.bidRole, hu.fromAsset, hu.toAsset]
  cases takeRole_takes prior o (fillBlanks o row) with
  | record hrole hrf hturn h =>
    rcases ho with ho | ho
    · rw [hrole] at ho
      cases ho
    · rw [hrf] at ho
      cases ho
  | turned hrole hrf hturn h =>
    rcases ho with ho | ho
    · rw [hrole] at ho
      cases ho
    · rw [hrf] at ho
      cases ho
  | list _ y h =>
    rw [h]
    dsimp only
    rw [hf.bidRole, hx, Option.some_or]
    exact ⟨rfl, hf.fromAsset, hf.toAsset⟩

theorem labelled_blank {r : SwapHistoryEntry} (hsource : r.sourceTxHash = "") (hdest : Js.truthy r.destTxHash = none) :
    Labelled env r where
  source hne := absurd hsource hne
  dest h hd := by
    rw [hdest] at hd
    cases hd

/-- The hashes of the row without one, or of a row that is turned, are not there before they are filled. -/
theorem unhashed_blank (h : (row.sourceTxHash = "" ∧ Js.truthy row.destTxHash = none) ∨ turning prior o = true) :
    Labelled env (unhashed env nowIso prior o row) := by
  have hu := unhashed_same env nowIso prior o row
  have hf := fillBlanks_filled o row
  have hlist : turning prior o = false → row.sourceTxHash = "" ∧ Js.truthy row.destTxHash = none := by
    intro hno
    rcases h with h | h
    · exact h
    · rw [hno] at h
      cases h
  cases takeRole_takes prior o (fillBlanks o row) with
  | record hrole hrf hturn hrow =>
    obtain ⟨hs, hd⟩ := hlist (by rw [turning_eq hrole hrf, hturn])
    refine labelled_blank ?_ ?_
    · rw [hu.sourceTxHash, hrow]
      exact hf.sourceTxHash.trans hs
    · rw [hu.destTxHash, hrow]
      exact (congrArg Js.truthy hf.destTxHash).trans hd
  | turned hrole hrf hturn hrow =>
    refine labelled_blank ?_ ?_
    · rw [hu.sourceTxHash, hrow]
      rfl
    · rw [hu.destTxHash, hrow]
      rfl
  | list ho x hrow =>
    have hno : turning prior o = false := by
      unfold turning
      rcases ho with ho | ho
      · rw [ho]
      · rw [ho]
        cases o.role <;> rfl
    obtain ⟨hs, hd⟩ := hlist hno
    refine labelled_blank ?_ ?_
    · rw [hu.sourceTxHash, hrow]
      exact hf.sourceTxHash.trans hs
    · rw [hu.destTxHash, hrow]
      exact (congrArg Js.truthy hf.destTxHash).trans hd

/-- The hashes of a stored row are names of its transactions as long as these are read in the same way. -/
theorem unhashed_carried (hl : Labelled env p) (hno : turning (some p) o = false)
    (hread : readingOf env (merged env nowIso (some p) o p) = readingOf env p) :
    Labelled env (unhashed env nowIso (some p) o p) := by
  have hu := unhashed_same env nowIso (some p) o p
  have hf := fillBlanks_filled o p
  have hm := @merged_same env nowIso o p (some p)
  have hread' : readingOf env (unhashed env nowIso (some p) o p) = readingOf env p := by
    rw [← hread]
    exact hm.reading.symm
  have hsub : p.bidTxns ⊆ (unhashed env nowIso (some p) o p).bidTxns := by
    rw [unhashed_bidTxns]
    exact (mergeTxns_isPrefix_old _ _).subset
  have hhash : (takeRole (some p) o (fillBlanks o p)).sourceTxHash = p.sourceTxHash ∧
      (takeRole (some p) o (fillBlanks o p)).destTxHash = p.destTxHash := by
    cases takeRole_takes (some p) o (fillBlanks o p) with
    | record hrole hrf hturn h =>
      rw [h]
      exact ⟨hf.sourceTxHash, hf.destTxHash⟩
    | turned hrole hrf hturn h =>
      rw [turning_eq hrole hrf, hturn] at hno
      cases hno
    | list ho x h =>
      rw [h]
      exact ⟨hf.sourceTxHash, hf.destTxHash⟩
  constructor
  · rw [hu.sourceTxHash, hhash.1]
    intro hne
    obtain ⟨leg, hleg, hrest⟩ := hl.source hne
    exact ⟨leg, mem_legs hread' hsub hleg, hrest⟩
  · rw [hu.destTxHash, hhash.2]
    intro x hx
    obtain ⟨leg, hleg, hrest⟩ := hl.dest x hx
    exact ⟨leg, mem_legs hread' hsub hleg, hrest⟩

theorem said_fits (ho : Observed env o) (hst : ∀ s, prior.isSome = true → st.said = some s → row.bidRole = some s.role ∧
      s.frame.fromAsset ≠ "" ∧ s.frame.toAsset ≠ "" ∧
      (s.met = true → row.fromAsset = s.frame.fromAsset ∧ row.toAsset = s.frame.toAsset)) (s : Said)
    (hs : (tell env prior o row (merged env nowIso prior o row) st).said = some s) :
    (merged env nowIso prior o row).bidRole = some s.role ∧ s.frame.fromAsset ≠ "" ∧ s.frame.toAsset ≠ "" ∧
      (s.met = true → (merged env nowIso prior o row).fromAsset = s.frame.fromAsset ∧
        (merged env nowIso prior o row).toAsset = s.frame.toAsset) := by
  have hlist : o.role = none ∨ o.recordFrame = none → prior.isSome = true → st.said = some s →
      (merged env nowIso prior o row).bidRole = some s.role ∧ s.frame.fromAsset ≠ "" ∧ s.frame.toAsset ≠ "" ∧
        (s.met = true → (merged env nowIso prior o row).fromAsset = s.frame.fromAsset ∧
          (merged env nowIso prior o row).toAsset = s.frame.toAsset) := by
    intro hnot hsome hsaid
    obtain ⟨hrole, hsrc, hdst, hmet⟩ := hst s hsome hsaid
    obtain ⟨hrole', hsrc', hdst'⟩ := @merged_list env nowIso o row prior hnot _ hrole
    refine ⟨hrole', hsrc, hdst, fun hm => ?_⟩
    obtain ⟨hsame, hsame'⟩ := hmet hm
    rw [hsrc' (hsame ▸ hsrc), hdst' (hsame' ▸ hdst)]
    exact ⟨hsame, hsame'⟩
  have hkept : o.role = none ∨ o.recordFrame = none → (if prior.isSome then st.said else none) = some s →
      prior.isSome = true ∧ st.said = some s := by
    intro _ hif
    by_cases hsome : prior.isSome = true
    · rw [if_pos hsome] at hif
      exact ⟨hsome, hif⟩
    · rw [if_neg hsome] at hif
      cases hif
  unfold tell at hs
  cases hrole : o.role with
  | none =>
    rw [hrole] at hs
    obtain ⟨hsome, hsaid⟩ := hkept (.inl hrole) hs
    exact hlist (.inl hrole) hsome hsaid
  | some role =>
    cases hrf : o.recordFrame with
    | none =>
      rw [hrole, hrf] at hs
      obtain ⟨hsome, hsaid⟩ := hkept (.inr hrf) hs
      exact hlist (.inr hrf) hsome hsaid
    | some rf =>
      rw [hrole, hrf] at hs
      obtain rfl := Option.some.inj hs
      obtain ⟨hside, hcoins⟩ := @merged_record env nowIso o row prior _ _ hrole hrf
      obtain ⟨hsrc, hdst⟩ := observed_frame ho hrf
      exact ⟨hside, hsrc, hdst, hcoins⟩

theorem hashed_false {r : SwapHistoryEntry} (h : hashed r = false) :
    r.sourceTxHash = "" ∧ Js.truthy r.destTxHash = none := by
  unfold hashed at h
  obtain ⟨hs, hd⟩ := Bool.or_eq_false_iff.1 h
  exact ⟨by simpa using hs, by simpa using hd⟩

/-- A new row fits what is remembered of it. -/
theorem fits_new (ho : Observed env o) (hrow : rowFor none o = some row) :
    Fits env (merged env nowIso none o row) (tell env none o row (merged env nowIso none o row) st) := by
  have hm := @merged_same env nowIso o row none
  have hnew : row.bidTxns = [] ∧ row.sourceTxHash = "" ∧ Js.truthy row.destTxHash = none := by
    unfold rowFor at hrow
    obtain ⟨-, hrow⟩ := Option.ite_none_right_eq_some.1 hrow
    obtain ⟨base, -, rfl⟩ := Option.map_eq_some_iff.1 hrow
    exact ⟨rfl, rfl, rfl⟩
  constructor
  · rw [hm.bidTxns, unhashed_bidTxns, hnew.1]
    exact mergeTxns_nodup List.nodup_nil
  · refine said_fits ho fun s hsome => ?_
    cases hsome
  · intro _
    exact fillHashes_labelled (unhashed_blank (.inl hnew.2))

/-- A stored row that fits still does. -/
theorem fits_merged (ho : Observed env o) (hp : Fits env p st) :
    Fits env (merged env nowIso (some p) o p) (tell env (some p) o p (merged env nowIso (some p) o p) st) := by
  have hm := @merged_same env nowIso o p (some p)
  constructor
  · rw [hm.bidTxns, unhashed_bidTxns]
    exact mergeTxns_nodup hp.txns
  · exact said_fits ho fun s _ hs => hp.said s hs
  · intro hlabel
    apply fillHashes_labelled
    by_cases hturn : turning (some p) o = true
    · exact unhashed_blank (.inr hturn)
    · have hno : turning (some p) o = false := by simpa using hturn
      simp only [tell, Option.any_some, hno, Bool.not_false, Bool.true_and, Bool.or_eq_false_iff] at hlabel
      obtain ⟨hbefore, hread⟩ := hlabel
      cases hhash : hashed p with
      | false => exact unhashed_blank (.inl (hashed_false hhash))
      | true =>
        rw [hhash, Bool.true_and] at hread
        refine unhashed_carried (hp.hashes hbefore) hno ?_
        have heq : readingOf env p = readingOf env (merged env nowIso (some p) o p) := by simpa using hread
        exact heq.symm

end

/-! ## The rows of a write -/

theorem Keeps.refl (list : List P2PObservation) (r : SwapHistoryEntry) : Keeps list r r :=
  ⟨rfl, rfl, fun _ => rfl, fun h => h, List.prefix_rfl, fun h => h, fun _ _ hx => hx, fun _ _ => rfl, fun _ _ hx => (Js.truthy_eq_some.1 hx).1⟩

theorem Keeps.trans {list : List P2PObservation} {r r' r'' : SwapHistoryEntry} (h : Keeps list r r')
    (h' : Keeps list r' r'') : Keeps list r r'' where
  id := h'.id.trans h.id
  createdAt := h'.createdAt.trans h.createdAt
  other hother := by
    have hsame := h.other hother
    rw [h'.other fun o ho => by rw [hsame]; exact hother o ho, hsame]
  finished hdone := h'.finished (h.finished hdone)
  txns := h.txns.trans h'.txns
  side hside := h'.side (h.side hside)
  role hlist x hx := by
    refine h'.role (fun o ho hid => ?_) x (h.role hlist x hx)
    rw [h.id] at hid
    exact hlist o ho hid
  source hside hne := by
    have hsame := h.source hside hne
    rw [h'.source (h.side hside) (hsame ▸ hne), hsame]
  dest hside x hx := by
    apply h'.dest (h.side hside) x
    rw [h.dest hside x hx]
    exact Js.truthy_of_ne (Js.truthy_eq_some.1 hx).2

theorem Keeps.mono {list list' : List P2PObservation} (hsub : list ⊆ list') {r r' : SwapHistoryEntry}
    (h : Keeps list r r') : Keeps list' r r' where
  id := h.id
  createdAt := h.createdAt
  other hother := h.other fun o ho => hother o (hsub ho)
  finished := h.finished
  txns := h.txns
  side := h.side
  role hlist := h.role fun o ho => hlist o (hsub ho)
  source := h.source
  dest := h.dest

theorem rowOf_some {id : String} {rows : Rows} {p : SwapHistoryEntry} (h : rowOf id rows = some p) : p ∈ rows ∧ p.id = id :=
  ⟨List.mem_of_find?_eq_some h, by simpa using List.find?_some h⟩

theorem rowOf_none {id : String} {rows : Rows} (h : rowOf id rows = none) : ∀ r ∈ rows, r.id ≠ id := by
  intro r hr
  simpa using List.find?_eq_none.1 h r hr

theorem putRow_forall₂ {R : SwapHistoryEntry → SwapHistoryEntry → Prop} (hrefl : ∀ r, R r r) {rows : Rows}
    {p next : SwapHistoryEntry} (h : rowOf next.id rows = some p) (hp : R p next) :
    List.Forall₂ R rows (putRow next rows) := by
  induction rows with
  | nil => cases h
  | cons r rows ih =>
    unfold rowOf at h
    unfold putRow
    by_cases hid : r.id = next.id
    · rw [List.find?_cons_of_pos (by simpa using hid)] at h
      obtain rfl := Option.some.inj h
      rw [if_pos hid]
      exact .cons hp (List.forall₂_same.2 fun x _ => hrefl x)
    · rw [List.find?_cons_of_neg (by simpa using hid)] at h
      rw [if_neg hid]
      exact .cons (hrefl r) (ih h)

theorem putRow_self {rows : Rows} {p : SwapHistoryEntry} (h : rowOf p.id rows = some p) : putRow p rows = rows := by
  induction rows with
  | nil => rfl
  | cons r rows ih =>
    unfold rowOf at h
    unfold putRow
    by_cases hid : r.id = p.id
    · rw [List.find?_cons_of_pos (by simpa using hid)] at h
      rw [if_pos hid, Option.some.inj h]
    · rw [List.find?_cons_of_neg (by simpa using hid)] at h
      rw [if_neg hid, ih h]

theorem putRow_mem {rows : Rows} {next p : SwapHistoryEntry} (h : rowOf next.id rows = some p) : next ∈ putRow next rows := by
  obtain ⟨hp, hid⟩ := rowOf_some h
  induction rows with
  | nil => cases hp
  | cons r rows ih =>
    unfold rowOf at h
    unfold putRow
    by_cases hr : r.id = next.id
    · rw [if_pos hr]
      exact List.mem_cons_self
    · rw [List.find?_cons_of_neg (by simpa using hr)] at h
      rw [if_neg hr]
      exact List.mem_cons_of_mem _ (ih h (rowOf_some h).1)

theorem mem_putRow {rows : Rows} {next r : SwapHistoryEntry} (h : r ∈ putRow next rows) : r = next ∨ r ∈ rows := by
  induction rows with
  | nil => cases h
  | cons x rows ih =>
    unfold putRow at h
    by_cases hid : x.id = next.id
    · rw [if_pos hid] at h
      rcases List.mem_cons.1 h with h | h
      · exact .inl h
      · exact .inr (List.mem_cons_of_mem _ h)
    · rw [if_neg hid] at h
      rcases List.mem_cons.1 h with h | h
      · exact .inr (h ▸ List.mem_cons_self)
      · rcases ih h with h | h
        · exact .inl h
        · exact .inr (List.mem_cons_of_mem _ h)

section
variable {env : Env} {nowIso : String} {o : P2PObservation} {m : Merging}

theorem merged_id {prior : Option SwapHistoryEntry} {row : SwapHistoryEntry} :
    (merged env nowIso prior o row).id = row.id := by
  have hu := unhashed_same env nowIso prior o row
  have ht : (takeRole prior o (fillBlanks o row)).id = (fillBlanks o row).id := by
    cases takeRole_takes prior o (fillBlanks o row) with
    | record _ _ _ h => rw [h]
    | turned _ _ _ h => rw [h]; rfl
    | list _ _ h => rw [h]
  rw [(@merged_same env nowIso o row prior).id, hu.id, ht, (fillBlanks_filled o row).id]

theorem mergeOne_stored {p : SwapHistoryEntry} (h : rowOf (p2pHistoryId o.bidId) m.rows = some p) :
    (mergeOne env nowIso m o).rows = putRow (merged env nowIso (some p) o p) m.rows ∧
      (mergeOne env nowIso m o).inserted = m.inserted ∧
      ((mergeOne env nowIso m o).changed = false → (mergeOne env nowIso m o).rows = m.rows ∧ m.changed = false) := by
  unfold mergeOne applyP2PObservation
  rw [h]
  simp only [rowFor, Option.map_some]
  by_cases hsame : p = merged env nowIso (some p) o p
  · have hself : putRow (merged env nowIso (some p) o p) m.rows = m.rows := by
      rw [← hsame]
      apply putRow_self
      rw [(rowOf_some h).2]
      exact h
    rw [if_pos (congrArg some hsame)]
    exact ⟨hself.symm, rfl, fun hc => ⟨rfl, hc⟩⟩
  · rw [if_neg fun heq => hsame (Option.some.inj heq)]
    refine ⟨rfl, rfl, fun hc => ?_⟩
    cases hc

theorem mergeOne_none (h : rowOf (p2pHistoryId o.bidId) m.rows = none) (hrow : rowFor none o = none) :
    mergeOne env nowIso m o = m := by
  unfold mergeOne applyP2PObservation
  rw [h]
  dsimp only
  rw [hrow]
  rfl

theorem mergeOne_new (h : rowOf (p2pHistoryId o.bidId) m.rows = none) {row : SwapHistoryEntry}
    (hrow : rowFor none o = some row) : mergeOne env nowIso m o = ⟨merged env nowIso none o row :: m.rows, true, true⟩ := by
  unfold mergeOne applyP2PObservation
  rw [h]
  dsimp only
  rw [hrow]
  rfl

theorem rowFor_none_id {row : SwapHistoryEntry} (hrow : rowFor none o = some row) : row.id = p2pHistoryId o.bidId := by
  obtain ⟨-, hrow⟩ := Option.ite_none_right_eq_some.1 hrow
  obtain ⟨base, -, rfl⟩ := Option.map_eq_some_iff.1 hrow
  rfl

end

/-! ## One row for each bid -/

/-- The part of the claim that does not depend on the cap. -/
structure Sound (env : Env) (rows : Rows) (story : String → Story) : Prop where
  one (bidId : String) : (rows.filter (·.id = p2pHistoryId bidId)).length ≤ 1
  fits (bidId : String) (r : SwapHistoryEntry) : r ∈ rows → r.id = p2pHistoryId bidId → Fits env r (story bidId)

theorem length_filter_id (rows : Rows) (i : String) :
    (rows.filter (·.id = i)).length = (rows.map (·.id)).count i := by
  rw [List.count_eq_countP, List.countP_map, List.countP_eq_length_filter]
  congr 1

theorem eq_of_one {rows : Rows} {i : String} (h : (rows.filter (·.id = i)).length ≤ 1) {r r' : SwapHistoryEntry}
    (hr : r ∈ rows) (hr' : r' ∈ rows) (hid : r.id = i) (hid' : r'.id = i) : r = r' := by
  have hin : r ∈ rows.filter (·.id = i) := List.mem_filter.2 ⟨hr, by simpa using hid⟩
  have hin' : r' ∈ rows.filter (·.id = i) := List.mem_filter.2 ⟨hr', by simpa using hid'⟩
  cases hl : rows.filter (·.id = i) with
  | nil =>
    rw [hl] at hin
    cases hin
  | cons x xs =>
    rw [hl] at h hin hin'
    have hnil : xs = [] := List.length_eq_zero_iff.1 (by simpa using h)
    rw [hnil] at hin hin'
    rw [List.mem_singleton.1 hin, List.mem_singleton.1 hin']

theorem Sound.subperm {env : Env} {rows rows' : Rows} {story : String → Story} (h : Sound env rows story)
    (hsub : rows'.Subperm rows) : Sound env rows' story where
  one b := by
    have hle := hsub.countP_le (fun r => r.id = p2pHistoryId b)
    rw [List.countP_eq_length_filter, List.countP_eq_length_filter] at hle
    exact hle.trans (h.one b)
  fits b r hr hid := h.fits b r (hsub.subset hr) hid

theorem ids_of_forall₂ {list : List P2PObservation} {rows olds : Rows} (h : List.Forall₂ (Keeps list) rows olds) :
    olds.map (·.id) = rows.map (·.id) := by
  induction h with
  | nil => rfl
  | cons hkeep _ ih => rw [List.map_cons, List.map_cons, hkeep.id, ih]

/-- What the observations so far did to the rows that they started from. -/
structure Merged (list : List P2PObservation) (m m' : Merging) (news olds : Rows) : Prop where
  rows : m'.rows = news ++ olds
  kept : List.Forall₂ (Keeps list) m.rows olds
  new : ∀ n ∈ news, (∃ o ∈ list, n.id = p2pHistoryId o.bidId) ∧ ∀ r ∈ m.rows, r.id ≠ n.id
  unchanged : m'.changed = false → m'.rows = m.rows ∧ m.changed = false
  noNews : m'.inserted = false → news = [] ∧ m.inserted = false

theorem Merged.same (list : List P2PObservation) (m : Merging) : Merged list m m [] m.rows where
  rows := rfl
  kept := List.forall₂_same.2 fun r _ => .refl list r
  new n hn := by cases hn
  unchanged h := ⟨rfl, h⟩
  noNews h := ⟨rfl, h⟩

theorem mergeOne_merged (env : Env) (nowIso : String) (m : Merging) (o : P2PObservation) :
    ∃ news olds, Merged [o] m (mergeOne env nowIso m o) news olds := by
  cases hprior : rowOf (p2pHistoryId o.bidId) m.rows with
  | some p =>
    obtain ⟨hrows, hinserted, hchanged⟩ := @mergeOne_stored env nowIso o m p hprior
    have hid := (rowOf_some hprior).2
    refine ⟨[], _, hrows, ?_, fun n hn => (by cases hn), hchanged, fun h => ⟨rfl, hinserted ▸ h⟩⟩
    refine putRow_forall₂ (Keeps.refl [o]) ?_ (merged_keeps hid)
    rw [merged_id, hid]
    exact hprior
  | none =>
    cases hrow : rowFor none o with
    | none =>
      rw [mergeOne_none hprior hrow]
      exact ⟨[], m.rows, .same [o] m⟩
    | some row =>
      rw [mergeOne_new hprior hrow]
      have hid : (merged env nowIso none o row).id = p2pHistoryId o.bidId := by rw [merged_id, rowFor_none_id hrow]
      refine ⟨[merged env nowIso none o row], m.rows, rfl, List.forall₂_same.2 fun r _ => .refl [o] r, ?_,
        fun h => (by cases h), fun h => (by cases h)⟩
      intro n hn
      obtain rfl := List.mem_singleton.1 hn
      refine ⟨⟨o, List.mem_cons_self, hid⟩, fun r hr => ?_⟩
      rw [hid]
      exact rowOf_none hprior r hr

theorem forall₂_split {R : SwapHistoryEntry → SwapHistoryEntry → Prop} {a b c : Rows} (h : List.Forall₂ R (a ++ b) c) :
    ∃ a' b', c = a' ++ b' ∧ List.Forall₂ R a a' ∧ List.Forall₂ R b b' := by
  induction a generalizing c with
  | nil => exact ⟨[], c, rfl, .nil, h⟩
  | cons x a ih =>
    cases h with
    | cons hx hrest =>
      obtain ⟨a', b', rfl, ha, hb⟩ := ih hrest
      exact ⟨_ :: a', b', rfl, .cons hx ha, hb⟩

theorem keeps_trans {list : List P2PObservation} {a b c : Rows} (h : List.Forall₂ (Keeps list) a b)
    (h' : List.Forall₂ (Keeps list) b c) : List.Forall₂ (Keeps list) a c := by
  induction h generalizing c with
  | nil => exact h'
  | cons hx _ ih =>
    cases h' with
    | cons hx' hrest => exact .cons (hx.trans hx') (ih hrest)

theorem keeps_mono {list list' : List P2PObservation} (hsub : list ⊆ list') {a b : Rows}
    (h : List.Forall₂ (Keeps list) a b) : List.Forall₂ (Keeps list') a b :=
  h.imp fun _ _ hk => hk.mono hsub

theorem mem_id_of_forall₂ {list : List P2PObservation} {a b : Rows} (h : List.Forall₂ (Keeps list) a b)
    {r' : SwapHistoryEntry} (hr : r' ∈ b) : ∃ r ∈ a, r'.id = r.id := by
  have hin : r'.id ∈ b.map (·.id) := List.mem_map_of_mem hr
  rw [ids_of_forall₂ h] at hin
  obtain ⟨r, hr, hid⟩ := List.mem_map.1 hin
  exact ⟨r, hr, hid.symm⟩

theorem Merged.trans {os os' : List P2PObservation} {m m' m'' : Merging} {news olds news' olds' : Rows}
    (h : Merged os m m' news olds) (h' : Merged os' m' m'' news' olds') :
    ∃ news'' olds'', Merged (os ++ os') m m'' news'' olds'' := by
  have hkept := h'.kept
  rw [h.rows] at hkept
  obtain ⟨news₁, olds₁, hsplit, hnews, holds⟩ := forall₂_split hkept
  have hleft : os ⊆ os ++ os' := List.subset_append_left os os'
  have hright : os' ⊆ os ++ os' := List.subset_append_right os os'
  refine ⟨news' ++ news₁, olds₁, ?_, ?_, ?_, ?_, ?_⟩
  · rw [List.append_assoc, ← hsplit, h'.rows]
  · exact keeps_trans (keeps_mono hleft h.kept) (keeps_mono hright holds)
  · intro n hn
    rcases List.mem_append.1 hn with hn | hn
    · obtain ⟨⟨o, ho, hid⟩, hother⟩ := h'.new n hn
      refine ⟨⟨o, hright ho, hid⟩, fun r hr hrid => ?_⟩
      have hin : r.id ∈ olds.map (·.id) := by
        rw [ids_of_forall₂ h.kept]
        exact List.mem_map_of_mem hr
      obtain ⟨r', hr', hid'⟩ := List.mem_map.1 hin
      apply hother r'
      · rw [h.rows]
        exact List.mem_append_right _ hr'
      · exact hid'.trans hrid
    · obtain ⟨n', hn', hid'⟩ := mem_id_of_forall₂ hnews hn
      obtain ⟨⟨o, ho, hid⟩, hother⟩ := h.new n' hn'
      exact ⟨⟨o, hleft ho, hid'.trans hid⟩, fun r hr => by rw [hid']; exact hother r hr⟩
  · intro hc
    obtain ⟨hrows', hc'⟩ := h'.unchanged hc
    obtain ⟨hrows, hc⟩ := h.unchanged hc'
    exact ⟨hrows'.trans hrows, hc⟩
  · intro hi
    obtain ⟨hnil', hi'⟩ := h'.noNews hi
    obtain ⟨hnil, hi⟩ := h.noNews hi'
    rw [hnil] at hnews
    rw [hnil', List.forall₂_nil_left_iff.1 hnews]
    exact ⟨rfl, hi⟩

/-- What an observation leaves fits what is remembered after it. -/
theorem mergeOne_sound {env : Env} {nowIso : String} {m : Merging} {o : P2PObservation} {story : String → Story}
    (h : Sound env m.rows story) (ho : Observed env o) :
    Sound env (mergeOne env nowIso m o).rows (tellOne env nowIso m.rows o story) := by
  unfold tellOne
  cases hprior : rowOf (p2pHistoryId o.bidId) m.rows with
  | some p =>
    obtain ⟨hp, hid⟩ := rowOf_some hprior
    obtain ⟨hrows, -, -⟩ := @mergeOne_stored env nowIso o m p hprior
    have hput : rowOf (merged env nowIso (some p) o p).id m.rows = some p := by
      rw [merged_id, hid]
      exact hprior
    have hids := ids_of_forall₂ (putRow_forall₂ (Keeps.refl [o]) hput (merged_keeps hid))
    have hone : ∀ b, ((putRow (merged env nowIso (some p) o p) m.rows).filter (·.id = p2pHistoryId b)).length ≤ 1 := by
      intro b
      rw [length_filter_id, hids, ← length_filter_id]
      exact h.one b
    rw [hrows]
    refine ⟨hone, fun b r hr hrid => ?_⟩
    simp only [rowFor]
    by_cases hb : b = o.bidId
    · have hnext := putRow_mem hput
      have heq : r = merged env nowIso (some p) o p := by
        refine eq_of_one (hone b) hr hnext hrid ?_
        rw [merged_id, hid, hb]
      rw [heq, hb, Function.update_self]
      exact fits_merged ho (h.fits o.bidId p hp hid)
    · rw [Function.update_of_ne hb]
      rcases mem_putRow hr with heq | hold
      · rw [heq, merged_id, hid] at hrid
        exact absurd (p2pHistoryId_inj hrid).symm hb
      · exact h.fits b r hold hrid
  | none =>
    cases hrow : rowFor none o with
    | none =>
      rw [mergeOne_none hprior hrow]
      dsimp only
      rw [hrow]
      exact h
    | some row =>
      rw [mergeOne_new hprior hrow]
      dsimp only
      rw [hrow]
      dsimp only
      have hid : (merged env nowIso none o row).id = p2pHistoryId o.bidId := by rw [merged_id, rowFor_none_id hrow]
      have hnone := rowOf_none hprior
      constructor
      · intro b
        by_cases hb : b = o.bidId
        · have hempty : m.rows.filter (·.id = p2pHistoryId b) = [] := by
            apply List.filter_eq_nil_iff.2
            intro r hr
            simpa [hb] using hnone r hr
          rw [List.filter_cons_of_pos (by simpa [hb] using hid), hempty]
          exact Nat.le_refl 1
        · have hne : (merged env nowIso none o row).id ≠ p2pHistoryId b := by
            rw [hid]
            exact fun heq => hb (p2pHistoryId_inj heq).symm
          rw [List.filter_cons_of_neg (by simpa using hne)]
          exact h.one b
      · intro b r hr hrid
        rcases List.mem_cons.1 hr with rfl | hr
        · rw [hid] at hrid
          rw [← p2pHistoryId_inj hrid, Function.update_self]
          exact fits_new ho hrow
        · have hb : b ≠ o.bidId := fun heq => hnone r hr (heq ▸ hrid)
          rw [Function.update_of_ne hb]
          exact h.fits b r hr hrid

theorem mergeAll_spec {env : Env} {nowIso : String} (os : List P2PObservation) {m : Merging} {story : String → Story}
    (h : Sound env m.rows story) (hos : ∀ o ∈ os, Observed env o) :
    Sound env (os.foldl (mergeOne env nowIso) m).rows (tellAll env nowIso os m story) ∧
      ∃ news olds, Merged os m (os.foldl (mergeOne env nowIso) m) news olds := by
  induction os generalizing m story with
  | nil => exact ⟨h, [], m.rows, .same [] m⟩
  | cons o os ih =>
    have hsound := @mergeOne_sound env nowIso m o story h (hos o List.mem_cons_self)
    obtain ⟨news, olds, hone⟩ := mergeOne_merged env nowIso m o
    obtain ⟨hrest, news', olds', hmerged⟩ := ih hsound fun o' ho' => hos o' (List.mem_cons_of_mem _ ho')
    exact ⟨hrest, hone.trans hmerged⟩

theorem newestFirst_total (a b : SwapHistoryEntry) : newestFirst a b = true ∨ newestFirst b a = true := by
  simpa [newestFirst] using String.le_total b.createdAt a.createdAt

theorem newestFirst_trans (a b c : SwapHistoryEntry) :
    newestFirst a b = true → newestFirst b c = true → newestFirst a c = true := by
  simp only [newestFirst, decide_eq_true_eq]
  intro hab hbc
  exact String.le_trans hbc hab

/-- The cap leaves out the oldest rows. -/
theorem dropped_oldest {rows : Rows} : ((Js.sort newestFirst rows).take MAX_ROWS).Perm rows ∨
    ((Js.sort newestFirst rows).take MAX_ROWS).length = MAX_ROWS ∧
      ∀ d ∈ rows, d ∉ (Js.sort newestFirst rows).take MAX_ROWS →
        ∀ k ∈ (Js.sort newestFirst rows).take MAX_ROWS, d.createdAt ≤ k.createdAt := by
  have hperm := Js.perm_sort newestFirst rows
  by_cases hlen : rows.length ≤ MAX_ROWS
  · left
    rw [List.take_of_length_le (hperm.length_eq.trans_le hlen)]
    exact hperm
  · right
    refine ⟨?_, fun d hd hout k hk => ?_⟩
    · rw [List.length_take, hperm.length_eq]
      omega
    · have hsorted := Js.pairwise_sort newestFirst_total newestFirst_trans rows
      rw [← List.take_append_drop MAX_ROWS (Js.sort newestFirst rows)] at hsorted
      have hin : d ∈ (Js.sort newestFirst rows).take MAX_ROWS ++ (Js.sort newestFirst rows).drop MAX_ROWS := by
        rw [List.take_append_drop]
        exact hperm.mem_iff.2 hd
      have hdrop := (List.mem_append.1 hin).resolve_left hout
      have hle := (List.pairwise_append.1 hsorted).2.2 k hk d hdrop
      simpa [newestFirst] using hle

theorem write_spec {env : Env} {list : List P2PObservation} {nowIso : String} {rows : Rows} {story : String → Story}
    (h : Sound env rows story) (hcap : rows.length ≤ MAX_ROWS) (hlist : ∀ o ∈ list, Observed env o) :
    Sound env (writeP2PObservations env list nowIso rows) (tellAll env nowIso list ⟨rows, false, false⟩ story) ∧
      (writeP2PObservations env list nowIso rows).length ≤ MAX_ROWS ∧
      ∃ news olds, Written list rows (writeP2PObservations env list nowIso rows) news olds := by
  obtain ⟨hsound, news, olds, hm⟩ := @mergeAll_spec env nowIso list ⟨rows, false, false⟩ story h hlist
  have hall : list.foldl (mergeOne env nowIso) ⟨rows, false, false⟩ = mergeAll env nowIso list rows := rfl
  rw [hall] at hsound hm
  have hrows := hm.rows
  unfold writeP2PObservations modifySwapHistory
  dsimp only
  cases hc : (mergeAll env nowIso list rows).changed with
  | false =>
    have hsame := (hm.unchanged hc).1
    rw [hsame] at hsound
    refine ⟨hsound, hcap, [], rows, List.forall₂_same.2 fun r _ => .refl list r, fun n hn => (by cases hn), ?_, .inl ?_⟩
    · exact List.Subperm.refl rows
    · exact List.Perm.refl rows
  | true =>
    cases hi : (mergeAll env nowIso list rows).inserted with
    | true =>
      have hperm := Js.perm_sort newestFirst (mergeAll env nowIso list rows).rows
      have hsub := (List.take_sublist MAX_ROWS _).subperm.trans hperm.subperm
      refine ⟨hsound.subperm hsub, ?_, news, olds, hm.kept, hm.new, ?_, ?_⟩
      · exact List.length_take_le _ _
      · rw [← hrows]
        exact hsub
      · rw [← hrows]
        exact dropped_oldest
    | false =>
      obtain ⟨hnil, -⟩ := hm.noNews hi
      have hlen : (mergeAll env nowIso list rows).rows.length ≤ MAX_ROWS := by
        rw [hrows, hnil, List.nil_append, ← hm.kept.length_eq]
        exact hcap
      have hall : (mergeAll env nowIso list rows).rows.take MAX_ROWS = (mergeAll env nowIso list rows).rows :=
        List.take_of_length_le hlen
      simp only [Bool.not_true, Bool.false_eq_true, if_false, hall]
      refine ⟨hsound, hlen, news, olds, hm.kept, hm.new, ?_, .inl ?_⟩
      · rw [← hrows]
      · rw [← hrows]

/-! ## Other writers -/

theorem update_filter {rows : Rows} (id : String) (patch : SwapHistoryEntry → SwapHistoryEntry) {i : String} (h : id ≠ i) :
    (updateSwapHistoryEntry id patch rows).filter (·.id = i) = rows.filter (·.id = i) := by
  induction rows with
  | nil => rfl
  | cons e rows ih =>
    unfold updateSwapHistoryEntry at ih ⊢
    rw [List.map_cons]
    by_cases hid : e.id = id
    · have hne : e.id ≠ i := hid ▸ h
      rw [if_pos hid, List.filter_cons_of_neg (by simpa using hne), List.filter_cons_of_neg (by simpa using hne), ih]
    · rw [if_neg hid, List.filter_cons, List.filter_cons, ih]

theorem foreign_of_other {rows rows' : Rows} (h : OtherWrite rows rows') : Foreign rows rows' := by
  have hkept : ∀ (entry e : SwapHistoryEntry), entry.id = e.id → (∀ bidId, e.id ≠ p2pHistoryId bidId) → ∀ bidId,
      (((entry :: rows.filter (·.id ≠ e.id)).take MAX_ROWS).filter (·.id = p2pHistoryId bidId)).Sublist
        (rows.filter (·.id = p2pHistoryId bidId)) := by
    intro entry e hid hne bidId
    refine ((List.take_sublist _ _).filter _).trans ?_
    rw [List.filter_cons_of_neg (by simpa [hid] using hne bidId)]
    exact List.filter_sublist.filter _
  cases h with
  | append entry h => exact ⟨hkept entry entry rfl h, fun _ => List.length_take_le _ _⟩
  | update id patch h =>
    constructor
    · intro bidId
      rw [update_filter id patch (h bidId)]
    · unfold updateSwapHistoryEntry
      rw [List.length_map]
      exact fun hcap => hcap
  | upsert entry merge h =>
    unfold upsertSwapHistoryEntry
    cases rows.find? (·.id = entry.id) with
    | none => exact ⟨hkept entry entry rfl h, fun _ => List.length_take_le _ _⟩
    | some prior => exact ⟨hkept _ entry rfl h, fun _ => List.length_take_le _ _⟩
  | modify fn h => exact h

theorem Sound.foreign {env : Env} {rows rows' : Rows} {story : String → Story} (h : Sound env rows story)
    (hf : Foreign rows rows') : Sound env rows' story where
  one b := (hf.bids b).length_le.trans (h.one b)
  fits b r hr hid := by
    have hin : r ∈ rows'.filter (·.id = p2pHistoryId b) := List.mem_filter.2 ⟨hr, by simpa using hid⟩
    exact h.fits b r (List.mem_filter.1 ((hf.bids b).subset hin)).1 hid

theorem step_sound {env : Env} {s s' : St} (h : OneStory env s) (hs : Step env s s') : OneStory env s' := by
  have hsound : Sound env s.rows s.story := ⟨h.one, h.fits⟩
  cases hs with
  | observe list nowIso hlist =>
    obtain ⟨hnew, hcap, -⟩ := @write_spec env list nowIso _ _ hsound h.cap hlist
    exact ⟨hnew.one, hnew.fits, hcap⟩
  | other rows' hother =>
    have hf := foreign_of_other hother
    have hnew := hsound.foreign hf
    exact ⟨hnew.one, hnew.fits, hf.cap h.cap⟩

def noStory : String → Story := fun _ => ⟨none, false⟩

theorem oneStory_empty (env : Env) : OneStory env ⟨[], noStory⟩ := ⟨fun _ => Nat.zero_le 1, fun _ _ hr => (by cases hr), Nat.zero_le _⟩

def sampleEnv : Env where
  bidStateNameOf state := if state = .int 17 then some .xmrSwapFailedRefunded else if state = .text "BID_SENT" then some .bidSent else none
  tickerOf coin := coin.getD ""
  iso n := some s!"1970-01-01T00:00:0{n}Z"
  toUpperCase := id
  toLowerCase := Rust.toAsciiLowercase
  destinationExplorerUrl _ _ := none

def sampleTxid : String := "00112233445566778899aabbccddeeff00112233445566778899aabbccddeeff"

/-- A bid that sells LTC for XMR. -/
def samplePlaced : P2PObservation :=
  observePlaced sampleEnv "" ⟨"b", none, some "LTC", some "XMR", some "1", some "2", some 1, none, none⟩

def sampleDetail (state : Option RawState) (txns : List DetailTx) : BasicSwapBidDetail :=
  ⟨none, some "XMR", some "LTC", some "2", some "1", none, state, none, some true, none, some true, txns, none, none⟩

def sampleRead (state : Option RawState) (txns : List DetailTx) : P2PObservation :=
  withBidDetail sampleEnv "" { bidId := "b", mayCreate := false } (sampleDetail state txns)

def sampleReports : List P2PObservation :=
  [samplePlaced, sampleRead none [⟨some "Chain B Lock Spend", some sampleTxid⟩], sampleRead (some (.int 17)) []]

def sampleRows : Rows := writeP2PObservations sampleEnv sampleReports "" []

end History
