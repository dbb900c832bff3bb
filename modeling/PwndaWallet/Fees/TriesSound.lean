import PwndaWallet.Fees.AmountSound
import PwndaWallet.Fees.OnceSound
import PwndaWallet.Fees.Tries
import PwndaWallet.Lib.Result

/-!
# A fee is put off a bounded number of times

While its record is open, the tries in it count how often a bid was put off, and there were no more
withdraws than that. `act` compares the tries with their bound when the gate puts a bid off, and not
when the node refuses the withdraw; a patient run never refuses one at the bound.
-/

namespace Fees

open Rust Tasks Tasks.Fs Bridge

variable {h : Host} {t t' : Tally} {m : Mode} {b : Int} {tr : List (Ev FeeOp.Ans)} {rec : FeeRecord}

/-! ## The counts of a bid -/

structure Budget (h : Host) (t : Tally) (bid : String) : Prop where
  unseen : t.dir (recordName bid) = none → t.deferred bid = 0 ∧ t.withdrawn bid = 0
  waiting : ∀ rec, record h t.dir bid = some rec → rec.isOpen = true →
    t.deferred bid = triesOf rec ∧ t.withdrawn bid ≤ triesOf rec
  deferred : t.deferred bid < maxDeferTries
  withdrawn : t.withdrawn bid ≤ maxDeferTries

structure Tallied (h : Host) (t : Tally) : Prop where
  named : Named h t.dir
  budget : ∀ bid, Budget h t bid

theorem Tallied.sound (ht : Tallied h t) : Sound h False t.world :=
  ⟨ht.named, fun hf => hf.elim, fun hf => hf.elim⟩

theorem Counted.Initial.tallied {c : Counted} (hi : c.Initial h) : Tallied h c.tally := by
  refine ⟨hi.named, fun bid => ⟨fun hnone => ⟨?_, hi.withdrawn bid⟩, fun rec hr _ => ⟨?_, ?_⟩,
    hi.bounded bid, ?_⟩⟩
  · rw [hi.deferred bid]
    simp [record, hnone]
  · rw [hi.deferred bid, hr]
    rfl
  · rw [hi.withdrawn bid]
    exact Nat.zero_le _
  · rw [hi.withdrawn bid]
    exact Nat.zero_le _

theorem countOne_none (n : String → Nat) : countOne n none = n := by
  funext b
  simp [countOne]

theorem countOne_self (n : String → Nat) (bid : String) : countOne n (some bid) bid = n bid + 1 := by
  simp [countOne]

theorem countOne_ne (n : String → Nat) {bid bid' : String} (hne : bid' ≠ bid) :
    countOne n (some bid) bid' = n bid' := by
  simp [countOne, hne.symm]

theorem withdrawn_congr (hi : t'.world.issued = t.world.issued) (bid : String) :
    t'.withdrawn bid = t.withdrawn bid := by
  unfold Tally.withdrawn
  rw [hi]

/-- What is so of a bid depends on its record and its counts. -/
theorem Budget.congr {bid : String} (hb : Budget h t bid)
    (hdir : t'.dir (recordName bid) = t.dir (recordName bid)) (hd : t'.deferred bid = t.deferred bid)
    (hw : t'.withdrawn bid = t.withdrawn bid) : Budget h t' bid := by
  refine ⟨fun hn => ?_, fun rec hr ho => ?_, ?_, ?_⟩
  · rw [hd, hw]
    exact hb.unseen (hdir ▸ hn)
  · rw [hd, hw]
    exact hb.waiting rec ((record_congr hdir).symm.trans hr) ho
  · rw [hd]
    exact hb.deferred
  · rw [hw]
    exact hb.withdrawn

/-! ## What an operation does -/

abbrev Counts (h : Host) := Logic.solo (FeeOp.tallies h True) fun _ _ => True

theorem reads_tallies {o : FeeOp} {r : o.Ans} (ho : Reads o) (hd : FeeOp.tallies h True o r t t') : t' = t := by
  obtain ⟨hdoes, _, hcount, _⟩ := hd
  have hw : t'.world = t.world := reads_does ho hdoes
  have hnone : deferredBy h t.dir o = none := by
    cases o with
    | fs o =>
      cases o with
      | rename source target => exact absurd ho id
      | _ => rfl
    | _ => rfl
  rw [hnone, countOne_none] at hcount
  cases t
  cases t'
  cases hw
  cases hcount
  rfl

theorem reads_counts {α : Type} {p : FeeProg α} (hp : Uses Reads p) :
    Safe (Counts h) p (fun _ w' => w'.1 = t) (t, tr) :=
  safe_solo_of_uses hp (fun _ _ _ _ ho hd => reads_tallies ho hd) fun _ _ _ _ => trivial

/-- A part that reads only, and what comes after it. -/
theorem reads_bind_counts {α β : Type} {p : FeeProg α} {k : α → FeeProg β}
    {R : Except String β → Tally × List (Ev FeeOp.Ans) → Prop} (hp : Uses Reads p)
    (he : ∀ e tr', R (.error e) (t, tr')) (hk : ∀ a tr', Safe (Counts h) (k a) R (t, tr')) :
    Safe (Counts h) (p.bind k) R (t, tr) := by
  refine Safe.bind ((reads_counts hp).mono fun r w' hw => ?_)
  obtain ⟨w', tr'⟩ := w'
  obtain rfl : w' = t := hw
  cases r with
  | ok a => exact hk a tr'
  | error e => exact he e tr'

/-- The records that are loaded are in their files, and no two are of one bid. -/
theorem loadAll_counts (ht : Tallied h t) : Safe (Counts h) (loadAll h) (OnEnd (fun _ => False)
    fun out w' => w'.1 = t ∧ (out.1.map FeeRecord.bidId).Nodup ∧ ∀ rec ∈ out.1,
      record h t.dir rec.bidId = some rec ∧ safeId rec.bidId = .ok rec.bidId) (t, tr) := by
  have hload := @loadAll_spec _ _ _ _ .off 0 tr ht.sound (.refl t.world)
  refine (safe_solo_view Tally.world (fun _ _ _ _ hd => hd.1) hload (reads_counts uses_loadAll)).mono fun r w' hw => ?_
  obtain ⟨hsame, hrest⟩ := hw
  cases r with
  | error e => exact hrest
  | ok out =>
    obtain ⟨_, hnodup, hread⟩ := hrest
    exact ⟨hsame, hnodup, fun rec hrec => ⟨(hread rec hrec).stored, (hread rec hrec).named⟩⟩

/-! ## A write -/

/-- The bid that a record puts off. -/
def putsOff (rec : FeeRecord) : Option String := if rec.isDeferred then some rec.bidId else none

/-- What a write of `rec` leaves. -/
structure Put (h : Host) (rec : FeeRecord) (t : Tally) (r : Except String Unit) (t' : Tally) : Prop where
  issued : t'.world.issued = t.world.issued
  beside : Beside rec.bidId t.dir t'.dir
  done : r = .ok () → record h t'.dir rec.bidId = some rec ∧ t'.deferred = countOne t.deferred (putsOff rec)
  failed : ∀ e, r = .error e → t' = t

theorem tallies_fs {o : FsOp String} {r : o.Ans} (hd : FeeOp.tallies h True (.fs o) r t t') :
    o.does True r t.dir t'.dir ∧ Works (.fs o) r ∧ t'.world.issued = t.world.issued ∧
      t'.deferred = countOne t.deferred (deferredBy h t.dir (.fs o)) :=
  ⟨hd.1.1.1, hd.2.1, hd.1.1.2, hd.2.2.1⟩

theorem write_counts (hid : safeId rec.bidId = .ok rec.bidId) :
    Safe (Counts h) (write h rec) (fun r w' => Put h rec t r w'.1) (t, tr) := by
  simp only [write, writeFile, hid, Prog.bind_eq, Prog.bind_assoc, Prog.ofExcept_ok_bind]
  refine Safe.ofExcept_bind (fun e _ => ⟨rfl, .refl _ _, (by rintro ⟨⟩), fun _ _ => rfl⟩) fun text htext => ?_
  have ht : h.fromPretty text = .ok rec := by
    cases hp : h.toPretty rec with
    | ok text' =>
      rw [hp] at htext
      obtain rfl := Except.ok.inj htext
      exact h.fromPretty_toPretty hp
    | error e =>
      rw [hp] at htext
      cases htext
  have hne := recordName_ne_tmpName rec.bidId rec.bidId
  -- the temporary file is made and written
  refine safe_request_solo (fun r t₁ e hd hj => ?_) fun r t₁ _ hd _ => ⟨trivial, ?_⟩
  · obtain ⟨_, hworks, _, _⟩ := tallies_fs hd
    obtain rfl : r = .ok () := hworks
    cases hj
  obtain ⟨hdir₁, hworks, hi₁, hc₁⟩ := tallies_fs hd
  obtain rfl : r = .ok () := hworks
  obtain ⟨_, empty, hdir₁⟩ := hdir₁
  refine safe_request_solo (fun r t₂ e hd hj => ?_) fun r t₂ _ hd _ => ⟨trivial, ?_⟩
  · obtain ⟨_, hworks, _, _⟩ := tallies_fs hd
    obtain rfl : r = .ok () := hworks
    cases hj
  obtain ⟨hdir₂, hworks, hi₂, hc₂⟩ := tallies_fs hd
  obtain rfl : r = .ok () := hworks
  have htmp₂ : t₂.dir (tmpName rec.bidId) = some (.file text) := by rw [hdir₂, Dir.put_self]
  have hbeside₂ : Beside rec.bidId t.dir t₂.dir := by
    rw [hdir₂, hdir₁]
    exact (Beside.put_tmp _ _ _).trans (.put_tmp _ _ _)
  -- the old record is taken away, if there is one
  refine safe_request_solo (fun r t₃ e _ hj => by cases hj) fun r t₃ _ hd _ => ⟨trivial, ?_⟩
  obtain ⟨hdir₃, hworks, hi₃, hc₃⟩ := tallies_fs hd
  have hremoved : t₃.dir (tmpName rec.bidId) = some (.file text) ∧ Beside rec.bidId t.dir t₃.dir := by
    cases r with
    | ok u =>
      obtain ⟨_, hdir₃⟩ := hdir₃
      rw [hdir₃]
      exact ⟨by rw [Dir.erase_ne _ hne.symm, htmp₂], hbeside₂.trans (.erase_record _ _)⟩
    | error e =>
      obtain ⟨_, hdir₃⟩ := hdir₃
      rw [hdir₃]
      exact ⟨htmp₂, hbeside₂⟩
  obtain ⟨htmp₃, hbeside₃⟩ := hremoved
  -- the new one is put in its place
  refine safe_call_solo.2 fun r t₄ hd => ⟨trivial, ?_⟩
  obtain ⟨hdir₄, hworks, hi₄, hc₄⟩ := tallies_fs hd
  obtain rfl : r = .ok () := hworks
  obtain ⟨content, hcontent, _, hdir₄⟩ := hdir₄
  obtain rfl := Entry.file.inj (Option.some.inj (hcontent.symm.trans htmp₃))
  have hput : deferredBy h t₃.dir (.fs (.rename (tmpName rec.bidId) (recordName rec.bidId))) = putsOff rec := by
    simp only [deferredBy, htmp₃, ht, putsOff]
  refine safe_ret.2 ⟨?_, ?_, fun _ => ⟨?_, ?_⟩, by rintro _ ⟨⟩⟩
  · rw [hi₄, hi₃, hi₂, hi₁]
  · rw [hdir₄]
    exact hbeside₃.trans (.renamed _ _ _)
  · exact record_put (by rw [hdir₄, Dir.put_self]) ht
  · rw [hc₄, hput, hc₃, hc₂, hc₁]
    simp only [deferredBy, countOne_none]

/-- What a part that is about one bid leaves. -/
structure Attended (h : Host) (bid : String) (t t' : Tally) : Prop where
  tallied : Tallied h t'
  beside : Beside bid t.dir t'.dir

theorem Tallied.put {r : Except String Unit} (ht : Tallied h t) (hid : safeId rec.bidId = .ok rec.bidId)
    (hp : Put h rec t r t') (hlt : countOne t.deferred (putsOff rec) rec.bidId < maxDeferTries)
    (ho : rec.isOpen = true → countOne t.deferred (putsOff rec) rec.bidId = triesOf rec ∧
      t.withdrawn rec.bidId ≤ triesOf rec) : Attended h rec.bidId t t' := by
  cases r with
  | error e =>
    obtain rfl := hp.failed e rfl
    exact ⟨ht, hp.beside⟩
  | ok u =>
    obtain ⟨hr, hcount⟩ := hp.done rfl
    obtain ⟨text, hfile, htext⟩ := of_record hr
    refine ⟨⟨ht.named.beside hp.beside hid rfl (.inr (.inr ⟨text, hfile, htext⟩)), fun bid => ?_⟩, hp.beside⟩
    have hw := withdrawn_congr hp.issued bid
    by_cases hbid : bid = rec.bidId
    · subst hbid
      refine ⟨fun hn => ?_, fun rec' hr' ho' => ?_, ?_, ?_⟩
      · rw [hfile] at hn
        cases hn
      · obtain rfl := Option.some.inj (hr.symm.trans hr')
        rw [hcount, hw]
        exact ho ho'
      · rw [hcount]
        exact hlt
      · rw [hw]
        exact (ht.budget _).withdrawn
    · refine (ht.budget bid).congr (hp.beside _ (recordName_ne hbid) (recordName_ne_tmpName _ _)) ?_ hw
      rw [hcount]
      unfold putsOff
      split
      · exact countOne_ne _ hbid
      · rw [countOne_none]

/-- A record that is not open is written. -/
theorem write_closed {bid detail : String} {state : FeeState} (ht : Tallied h t) (hid : safeId bid = .ok bid)
    (hc : FeeRecord.isOpen ⟨bid, state, detail⟩ = false) :
    Safe (Counts h) (write h ⟨bid, state, detail⟩) (fun r w' => Attended h bid t w'.1 ∧
      w'.1.world.issued = t.world.issued ∧ w'.1.deferred = t.deferred ∧
      (r = .ok () → record h w'.1.dir bid = some ⟨bid, state, detail⟩)) (t, tr) := by
  have hnone : putsOff ⟨bid, state, detail⟩ = none := by
    unfold FeeRecord.isOpen at hc
    unfold putsOff FeeRecord.isDeferred
    split at hc <;> simp_all
  refine (@write_counts _ _ _ ⟨bid, state, detail⟩ hid).mono fun r w' hp => ⟨?_, hp.issued, ?_, fun hr => ?_⟩
  · refine @Tallied.put _ _ _ ⟨bid, state, detail⟩ _ ht hid hp ?_ fun ho => ?_
    · rw [hnone, countOne_none]
      exact (ht.budget _).deferred
    · rw [hc] at ho
      cases ho
  · cases r with
    | error e => rw [hp.failed e rfl]
    | ok u => rw [(hp.done rfl).2, hnone, countOne_none]
  · exact (hp.done hr).1

/-- A record is put off once more. -/
theorem write_deferred {bid ticker until_ detail : String} {amount tries : Nat} (ht : Tallied h t)
    (hid : safeId bid = .ok bid) (hd : t.deferred bid = tries) (hlt : tries + 1 < maxDeferTries)
    (hw : t.withdrawn bid ≤ tries + 1) :
    Safe (Counts h) (write h ⟨bid, .deferred ticker amount until_ (tries + 1), detail⟩)
      (fun _ w' => Attended h bid t w'.1) (t, tr) := by
  have hput : putsOff ⟨bid, .deferred ticker amount until_ (tries + 1), detail⟩ = some bid := rfl
  refine (@write_counts _ _ _ ⟨bid, _, _⟩ hid).mono fun r w' hp => ?_
  refine @Tallied.put _ _ _ ⟨bid, _, _⟩ _ ht hid hp ?_ fun _ => ?_
  · rw [hput, countOne_self, hd]
    exact hlt
  · rw [hput, countOne_self, hd]
    exact ⟨rfl, hw⟩

/-! ## The withdraw -/

/-- What a bid is charged. -/
structure Payable (ticker : String) (amount : Nat) : Prop where
  pos : 0 < amount
  fits : amount < 2 ^ 64
  row : ∃ row ∈ feeCoins, row.ticker = ticker

theorem payable_of_charge {bid : SettledBid} {ticker address : String} {amount notional : Nat}
    (hd : decide bid = .charge ticker amount address notional) : Payable ticker amount := by
  obtain ⟨leg, row, _, hleg, rfl, hrow, _, _, _, rfl⟩ := decide_charge_iff.1 hd
  obtain ⟨hmem, hticker⟩ := rowFor_mem hrow
  have hpos := CoinFee.flat_pos hmem
  have hflat : row.flat < 2 ^ 64 := by
    simp only [feeCoins, List.mem_cons, List.not_mem_nil, or_false] at hmem
    rcases hmem with rfl | rfl | rfl <;> decide
  have hpct : pctOf notional < 2 ^ 64 := by
    unfold pctOf saturatingMul
    omega
  exact ⟨by omega, by omega, row, hmem, hticker.trans (norm_scripted hleg)⟩

/-- The numbers that the ledger prints are decimal numbers. -/
def ReadsAmounts (h : Host) : Prop := ∀ n, 0 < n → n < 2 ^ 64 → h.parsedF64 (formatAmount n) = some true

/-- A price that is settled comes to the node. -/
theorem settleWith_eq (hf : ReadsAmounts h) {ticker bid : String} {amount : Nat} (hp : Payable ticker amount) :
    ∃ path body, settleWith h bid ticker amount = (Prog.request (.post bid path body)
      fun r => r.result h.parseJson).bind fun v => .ofExcept (extractTxid h.printJson v) := by
  have hread := hf amount hp.pos hp.fits
  have hne : amount ≠ 0 := Nat.pos_iff_ne_zero.1 hp.pos
  obtain ⟨row, hmem, rfl⟩ := hp.row
  have hcoin : feeAddressFor row.ticker = some row.address ∧ trim row.address ≠ "" ∧
      (privilegedWalletPath row.ticker "withdraw").isOk = true ∧
      (assertPrivilegedPath s!"wallets/{row.ticker}/withdraw").isOk = true := by
    simp only [feeCoins, List.mem_cons, List.not_mem_nil, or_false] at hmem
    rcases hmem with rfl | rfl | rfl <;> decide +kernel
  obtain ⟨haddr, hsome, hpath, hassert⟩ := hcoin
  obtain ⟨path, hpath⟩ := exists_of_isOk hpath
  obtain rfl := privilegedWalletPath_ok hpath
  obtain ⟨_, hassert⟩ := exists_of_isOk hassert
  refine ⟨s!"wallets/{row.ticker}/withdraw", .obj [("address", .str (trim row.address)),
    ("value", .str (formatAmount amount)), ("subfee", .bool false)], ?_⟩
  have hbody : sharedWithdrawBody h.parsedF64 row.address (formatAmount amount) =
      .ok (.obj [("address", .str (trim row.address)), ("value", .str (formatAmount amount)),
        ("subfee", .bool false)]) := by
    unfold sharedWithdrawBody
    rw [if_neg hsome, trim_formatAmount, hread]
  have hensure : (Prog.ensure (amount != 0) "refusing to send a zero-value fee" : FeeProg Unit) = .ret () := by
    simp [Prog.ensure, hne]
  unfold settleWith executeSharedWithdrawWith apiPostPrivileged
  simp only [hensure, haddr, Prog.orFail, Prog.bind_eq, Prog.ret_bind, hbody, hpath, hassert,
    Prog.ofExcept_ok_bind]

/-- What the withdraw of a bid leaves, when it ends in `s`. -/
structure Asked (h : Host) (bid : String) (t : Tally) (s : Except String String) (t' : Tally) : Prop where
  dir : t'.dir = t.dir
  deferred : t'.deferred = t.deferred
  withdrawn : t'.withdrawn bid = t.withdrawn bid + 1
  other : ∀ bid', bid' ≠ bid → t'.withdrawn bid' = t.withdrawn bid'
  patient : ∀ e, s = .error e → isTransportFailure e = false → t.deferred bid + 1 < maxDeferTries

theorem settleWith_counts (hf : ReadsAmounts h) {ticker bid : String} {amount : Nat}
    (hp : Payable ticker amount) : Safe (Counts h) (settleWith h bid ticker amount)
      (fun s w' => Asked h bid t s w'.1) (t, tr) := by
  obtain ⟨path, body, heq⟩ := @settleWith_eq _ hf _ bid _ hp
  have hasked : ∀ {r : PostReply} {t' : Tally} {s : Except String String},
      FeeOp.tallies h True (.post bid path body) r t t' →
      s = (r.result h.parseJson).bind (extractTxid h.printJson) → Asked h bid t s t' := by
    rintro r t' s ⟨⟨hw, _⟩, _, hd, hpatient⟩ rfl
    have hi : t'.world.issued = t.world.issued ++ [⟨bid, path, body, r⟩] := by rw [hw]
    have hw : t'.world = _ := hw
    refine ⟨by rw [Tally.dir, hw], hd.trans (countOne_none _), ?_, fun bid' hne => ?_, fun e he htrans => ?_⟩
    · simp [Tally.withdrawn, hi]
    · simp [Tally.withdrawn, hi, hne.symm]
    · refine hpatient trivial ?_
      unfold isRefusal
      rw [he]
      simp [htrans]
  rw [heq]
  refine safe_request_solo (fun r t' e hd hj => ⟨trivial, hasked hd ?_⟩) fun r t' v hd hj => ⟨trivial, ?_⟩
  · rw [hj]
    rfl
  · refine Safe.ofExcept (hasked hd ?_)
    rw [hj]
    rfl

/-! ## One bid -/

/-- A record that is open, and kept in its file. -/
structure Waits (h : Host) (t : Tally) (rec : FeeRecord) : Prop where
  tallied : Tallied h t
  stored : record h t.dir rec.bidId = some rec
  named : safeId rec.bidId = .ok rec.bidId
  isOpen : rec.isOpen = true

theorem Waits.budget (hw : Waits h t rec) : t.deferred rec.bidId = triesOf rec ∧
    t.withdrawn rec.bidId ≤ triesOf rec := (hw.tallied.budget _).waiting rec hw.stored hw.isOpen

theorem Waits.same (hw : Waits h t rec) : Attended h rec.bidId t t := ⟨hw.tallied, .refl _ _⟩

theorem close_counts {state : FeeState} {detail : String} (hw : Waits h t rec)
    (hc : FeeRecord.isOpen ⟨rec.bidId, state, detail⟩ = false) :
    Safe (Counts h) (write h ⟨rec.bidId, state, detail⟩) (fun _ w' => Attended h rec.bidId t w'.1) (t, tr) :=
  (write_closed hw.tallied hw.named hc).mono fun _ _ hw => hw.1

theorem closeOrDefer_counts {ticker why : String} {amount backoff : Nat} (hw : Waits h t rec) :
    Safe (Counts h) (closeOrDefer h rec ticker amount (triesOf rec) why backoff)
      (fun _ w' => Attended h rec.bidId t w'.1) (t, tr) := by
  obtain ⟨hdef, hwith⟩ := hw.budget
  unfold closeOrDefer
  by_cases hlast : triesOf rec + 1 ≥ maxDeferTries
  · rw [if_pos hlast]
    exact close_counts hw rfl
  · rw [if_neg hlast]
    refine reads_bind_counts (uses_deferUntil _) (fun _ _ => hw.same) fun until_ tr' => ?_
    exact write_deferred hw.tallied hw.named hdef (Nat.lt_of_not_le hlast) (Nat.le_succ_of_le hwith)

/-- A withdraw was asked for the bid of an attempt marker. -/
theorem Asked.tallied {bid : String} {s : Except String String} (ha : Asked h bid t s t')
    (ht : Tallied h t) (hr : record h t.dir bid = some rec) (ho : rec.isOpen = false)
    (hlt : t.withdrawn bid < maxDeferTries) : Tallied h t' := by
  refine ⟨by rw [ha.dir]; exact ht.named, fun bid' => ?_⟩
  by_cases hbid : bid' = bid
  · subst hbid
    refine ⟨fun hn => ?_, fun rec' hr' ho' => ?_, ?_, ?_⟩
    · rw [ha.dir] at hn
      simp [record, hn] at hr
    · rw [ha.dir, hr] at hr'
      obtain rfl := Option.some.inj hr'
      rw [ho] at ho'
      cases ho'
    · rw [ha.deferred]
      exact (ht.budget _).deferred
    · rw [ha.withdrawn]
      exact hlt
  · refine (ht.budget bid').congr (by rw [ha.dir]) ?_ (ha.other bid' hbid)
    rw [ha.deferred]

/-- The last write of a withdraw. A refusal is written as a deferral without a look at the bound. -/
theorem settled_counts {bid ticker detail at_ : String} {amount tries : Nat} {s : Except String String}
    (ht : Tallied h t) (hid : safeId bid = .ok bid) (hd : t.deferred bid = tries)
    (hw : t.withdrawn bid ≤ tries + 1)
    (hlt : ∀ e, s = .error e → isTransportFailure e = false → tries + 1 < maxDeferTries) :
    Safe (Counts h) ((outcomeOf h ⟨bid, .attempting ticker amount at_, detail⟩ ticker amount tries s).bind
      fun closed => write h closed) (fun _ w' => Attended h bid t w'.1) (t, tr) := by
  have hsame : Attended h bid t t := ⟨ht, .refl _ _⟩
  cases s with
  | ok txid =>
    simp only [outcomeOf, Prog.bind_eq, Prog.bind_assoc, Prog.pure_eq, Prog.ret_bind]
    refine reads_bind_counts uses_nowText (fun _ _ => hsame) fun at' tr' => ?_
    exact (write_closed ht hid rfl).mono fun _ _ hw => hw.1
  | error e =>
    by_cases htrans : isTransportFailure e = true
    · simp only [outcomeOf, htrans, if_true, Prog.pure_eq, Prog.ret_bind]
      exact (write_closed ht hid rfl).mono fun _ _ hw => hw.1
    · have hfalse : isTransportFailure e = false := by simpa using htrans
      simp only [outcomeOf, hfalse, Bool.false_eq_true, if_false, Prog.bind_eq, Prog.bind_assoc, Prog.pure_eq,
        Prog.ret_bind]
      refine reads_bind_counts (uses_deferUntil _) (fun _ _ => hsame) fun until_ tr' => ?_
      exact write_deferred ht hid hd (hlt e rfl hfalse) hw

theorem collect_counts (hf : ReadsAmounts h) {ticker : String} {amount : Nat} (hw : Waits h t rec)
    (hp : Payable ticker amount) : Safe (Counts h) (collect h rec ticker amount (triesOf rec))
      (fun _ w' => Attended h rec.bidId t w'.1) (t, tr) := by
  obtain ⟨hdef, hwith⟩ := hw.budget
  have hlt := (hw.tallied.budget rec.bidId).deferred
  unfold collect
  refine reads_bind_counts uses_nowText (fun _ _ => hw.same) fun at_ tr₁ => ?_
  -- the attempt marker
  refine Safe.bind ((write_closed hw.tallied hw.named rfl).mono fun r w₁ hput => ?_)
  obtain ⟨t₁, tr₂⟩ := w₁
  obtain ⟨hatt, hissued, hcount, hmarked⟩ := hput
  have hissued : t₁.withdrawn rec.bidId = t.withdrawn rec.bidId := withdrawn_congr hissued _
  have hcount : t₁.deferred = t.deferred := hcount
  cases r with
  | error e => exact hatt
  | ok u =>
    -- the withdraw
    refine Safe.bind (Safe.attempt ((settleWith_counts hf hp).mono fun s w₂ hasked => ?_))
    obtain ⟨t₂, tr₃⟩ := w₂
    have ht₂ : Tallied h t₂ := hasked.tallied hatt.tallied (hmarked rfl) rfl (by omega)
    have hbeside₂ : Beside rec.bidId t.dir t₂.dir := by
      rw [hasked.dir]
      exact hatt.beside
    have hdef₂ : t₂.deferred rec.bidId = triesOf rec := by rw [hasked.deferred, hcount, hdef]
    have hwith₂ : t₂.withdrawn rec.bidId ≤ triesOf rec + 1 := by
      have := hasked.withdrawn
      dsimp only at this
      omega
    -- its outcome
    refine (settled_counts ht₂ hw.named hdef₂ hwith₂ fun e he htrans => ?_).mono fun _ _ ha =>
      ⟨ha.tallied, hbeside₂.trans ha.beside⟩
    have hpatient := hasked.patient e he htrans
    rwa [hcount, hdef] at hpatient

theorem act_counts (hf : ReadsAmounts h) {bid : SettledBid} {createdAt : Option Int} (hw : Waits h t rec) :
    Safe (Counts h) (act h m rec bid createdAt b) (fun _ w' => Attended h rec.bidId t w'.1) (t, tr) := by
  unfold act
  cases classifyAge createdAt b with
  | preexisting => exact close_counts hw rfl
  | unknown => exact close_counts hw rfl
  | fresh =>
    cases hd : decide bid with
    | skip reason =>
      cases reason with
      | notSettled => exact safe_ret.2 hw.same
      | _ => exact close_counts hw rfl
    | charge ticker amount address notional =>
      cases m with
      | dark =>
        refine reads_bind_counts uses_nowText (fun _ _ => hw.same) fun at_ tr' => ?_
        exact close_counts hw rfl
      | _ =>
        refine reads_bind_counts (uses_availableBalance ticker) (fun _ _ => hw.same) fun balance tr₁ => ?_
        refine reads_bind_counts (uses_activeSwapReserve ticker) (fun _ _ => hw.same) fun reserve tr₂ => ?_
        split
        · exact closeOrDefer_counts hw
        · exact collect_counts hf hw (payable_of_charge hd)

theorem resolve_counts (hf : ReadsAmounts h) {now : Int} (hw : Waits h t rec) :
    Safe (Counts h) (resolve h m b now rec) (fun _ w' => Attended h rec.bidId t w'.1) (t, tr) := by
  unfold resolve
  dsimp only
  refine Safe.ite (fun _ => safe_ret.2 hw.same) fun _ => ?_
  refine reads_bind_counts (Uses.request trivial) (fun _ _ => hw.same) fun detail tr' => ?_
  split
  · exact safe_ret.2 hw.same
  · split
    · exact safe_ret.2 hw.same
    · exact act_counts hf hw

/-! ## A whole pass -/

theorem resolveEach_counts (hf : ReadsAmounts h) {now : Int} {recs : List FeeRecord} (ht : Tallied h t)
    (hnodup : (recs.map FeeRecord.bidId).Nodup) (hw : ∀ rec ∈ recs, Waits h t rec) :
    Safe (Counts h) (resolveEach h m b now recs) (fun _ w' => Tallied h w'.1) (t, tr) := by
  induction recs generalizing t tr with
  | nil => exact safe_ret.2 ht
  | cons rec recs ih =>
    obtain ⟨hnew, hnodup⟩ := List.nodup_cons.1 hnodup
    refine Safe.bind ((resolve_counts hf (hw rec (List.mem_cons_self ..))).mono fun r w₁ ha => ?_)
    obtain ⟨t₁, tr₁⟩ := w₁
    cases r with
    | error e => exact ha.tallied
    | ok u =>
      refine ih ha.tallied hnodup fun rec' hrec' => ?_
      have hw' := hw rec' (List.mem_cons_of_mem _ hrec')
      have hne : rec'.bidId ≠ rec.bidId := fun heq => hnew (heq ▸ List.mem_map_of_mem hrec')
      exact ⟨ha.tallied, (ha.beside.other hne).trans hw'.stored, hw'.named, hw'.isOpen⟩

/-- A record that is not there is made. -/
theorem write_watching {bid : String} (ht : Tallied h t) (hid : safeId bid = .ok bid)
    (hn : t.dir (recordName bid) = none) :
    Safe (Counts h) (write h (.watching bid)) (fun _ w' => Tallied h w'.1) (t, tr) := by
  obtain ⟨hdef, hwith⟩ := (ht.budget bid).unseen hn
  have hnone : putsOff (.watching bid) = none := rfl
  refine (@write_counts _ _ _ (.watching bid) hid).mono fun r w' hp =>
    (@Tallied.put _ _ _ (.watching bid) _ ht hid hp ?_ fun _ => ?_).tallied
  · rw [hnone, countOne_none]
    exact (ht.budget _).deferred
  · rw [hnone, countOne_none]
    exact ⟨hdef, Nat.le_of_eq hwith⟩

theorem sweepRows_counts {rows : List Json} (ht : Tallied h t) :
    Safe (Counts h) (sweepRows h rows) (fun _ w' => Tallied h w'.1) (t, tr) := by
  induction rows generalizing t tr with
  | nil => exact safe_ret.2 ht
  | cons row rows ih =>
    unfold sweepRows
    cases hid : sweepBidId row with
    | none => exact ih ht
    | some id =>
      have hsafe : safeId id = .ok id := by
        obtain ⟨raw, _, hraw⟩ := Option.bind_eq_some_iff.1 hid
        cases hr : safeId raw with
        | ok id' =>
          rw [hr] at hraw
          obtain rfl := Option.some.inj hraw
          exact safeId_idem hr
        | error e =>
          rw [hr] at hraw
          cases hraw
      simp only [read, hsafe, Prog.bind_eq, Prog.ofExcept_ok_bind]
      refine safe_request_solo (fun r w' e hd _ => ?_) fun r w' found hd hj => ?_
      · obtain rfl := reads_tallies (o := .fs (.read (recordName id))) trivial hd
        exact ⟨trivial, ht⟩
      obtain rfl := reads_tallies (o := .fs (.read (recordName id))) trivial hd
      refine ⟨trivial, ?_⟩
      cases found with
      | some rec => exact ih ht
      | none =>
        have hnone : w'.dir (recordName id) = none := by
          obtain ⟨hdir, _, _, _⟩ := tallies_fs hd
          cases r with
          | ok text =>
            dsimp only at hj
            split at hj <;> cases hj
          | error e =>
            cases e with
            | notFound => exact hdir.1
            | other e => cases hj
        refine Safe.bind ((write_watching ht hsafe hnone).mono fun r w₁ ht₁ => ?_)
        cases r with
        | error e => exact ht₁
        | ok u => exact ih ht₁

theorem sweep_counts {endpoints : List String} (ht : Tallied h t) :
    Safe (Counts h) (sweep h endpoints) (fun _ w' => Tallied h w'.1) (t, tr) := by
  induction endpoints generalizing t tr with
  | nil => exact safe_ret.2 ht
  | cons endpoint endpoints ih =>
    unfold sweep
    refine reads_bind_counts (Uses.request trivial) (fun _ _ => ht) fun body tr' => ?_
    split
    · exact Safe.ite (fun _ => safe_ret.2 ht) fun _ => ih ht
    · refine Safe.bind ((sweepRows_counts ht).mono fun r w₁ ht₁ => ?_)
      cases r with
      | error e => exact ht₁
      | ok u => exact ih ht₁

theorem tick_counts (hf : ReadsAmounts h) (ht : Tallied h t) :
    Safe (Counts h) (tick h m b) (fun _ w' => Tallied h w'.1) (t, tr) := by
  unfold tick
  refine reads_bind_counts (Uses.ask trivial) (fun _ _ => ht) fun up tr₁ => ?_
  refine Safe.ite (fun _ => safe_ret.2 ht) fun _ => ?_
  refine Safe.bind ((sweep_counts ht).mono fun r w₁ ht₁ => ?_)
  obtain ⟨t₁, tr₂⟩ := w₁
  cases r with
  | error e => exact ht₁
  | ok locked =>
    refine Safe.ite (fun _ => safe_ret.2 ht₁) fun _ => ?_
    refine Safe.bind ((loadAll_counts ht₁).mono fun r w₂ hload => ?_)
    obtain ⟨t₂, tr₃⟩ := w₂
    cases r with
    | error e => exact absurd hload id
    | ok out =>
      obtain ⟨hsame, hnodup, hread⟩ := hload
      obtain rfl : t₁ = t₂ := hsame.symm
      refine Safe.ensure_bind (fun _ => ht₁) fun _ => ?_
      refine reads_bind_counts (Uses.ask trivial) (fun _ _ => ht₁) fun now tr₄ => ?_
      refine Safe.bind ((resolveEach_counts hf ht₁ (hnodup.sublist (List.filter_sublist.map _))
        fun rec hrec => ?_).mono fun r w₃ ht₃ => ?_)
      · obtain ⟨hmem, ho⟩ := List.mem_filter.1 hrec
        exact ⟨ht₁, (hread rec hmem).1, (hread rec hmem).2, ho⟩
      · cases r with
        | error e => exact ht₃
        | ok u =>
          refine reads_bind_counts uses_loadAll (fun _ _ => ht₃) fun after tr₅ => ?_
          exact reads_bind_counts (Uses.ask trivial) (fun _ _ => ht₃) fun now' tr₆ => safe_ret.2 ht₃

/-! ## The start -/

theorem reconcileEach_counts {recs : List FeeRecord} (ht : Tallied h t)
    (hid : ∀ rec ∈ recs, safeId rec.bidId = .ok rec.bidId) :
    Safe (Counts h) (reconcileEach h recs) (fun _ w' => Tallied h w'.1) (t, tr) := by
  induction recs generalizing t tr with
  | nil => exact safe_ret.2 ht
  | cons rec recs ih =>
    have hrest : ∀ rec ∈ recs, safeId rec.bidId = .ok rec.bidId :=
      fun rec hrec => hid rec (List.mem_cons_of_mem _ hrec)
    unfold reconcileEach
    cases hrec : interrupted rec with
    | none => exact ih ht hrest
    | some rec' =>
      unfold interrupted at hrec
      split at hrec
      · obtain rfl := Option.some.inj hrec
        refine Safe.bind ((write_closed ht (hid rec (List.mem_cons_self ..)) rfl).mono fun r w₁ hw => ?_)
        cases r with
        | error e => exact hw.1.tallied
        | ok u => exact ih hw.1.tallied hrest
      · cases hrec

theorem writeMarker_counts {text : String} (ht : Tallied h t) :
    Safe (Counts h) (writeFile baselineFile text) (fun _ w' => Tallied h w'.1) (t, tr) := by
  have hput : ∀ {t₁ t₂ : Tally} {e : Entry String}, Tallied h t₁ → t₂.dir = t₁.dir.put baselineFile e →
      t₂.world.issued = t₁.world.issued → t₂.deferred = t₁.deferred → Tallied h t₂ := by
    intro t₁ t₂ e ht₁ hdir hi hd
    refine ⟨fun name stem text rec hfile hsplit htext => ?_, fun bid => ?_⟩
    · by_cases hname : name = baselineFile
      · subst hname
        exact absurd hsplit (splitExtension_baselineFile stem)
      · rw [hdir, Dir.put_ne _ _ hname] at hfile
        exact ht₁.named name stem text rec hfile hsplit htext
    · refine (ht₁.budget bid).congr ?_ (by rw [hd]) (withdrawn_congr hi bid)
      rw [hdir, Dir.put_ne _ _ (baselineFile_ne_recordName bid).symm]
  have hcreated : ∀ {r : Except FsError Unit} {t₁ : Tally},
      FeeOp.tallies h True (.fs (.create baselineFile)) r t t₁ → Tallied h t₁ := by
    intro r t₁ hd
    obtain ⟨hdir, hworks, hi, hcount⟩ := tallies_fs hd
    obtain rfl : r = .ok () := hworks
    obtain ⟨_, empty, hdir⟩ := hdir
    exact hput ht hdir hi (hcount.trans (countOne_none _))
  unfold writeFile
  refine safe_request_solo (fun r t₁ e hd _ => ⟨trivial, hcreated hd⟩) fun r t₁ _ hd _ => ⟨trivial, ?_⟩
  have ht₁ := hcreated hd
  refine safe_call_solo.2 fun r t₂ hd => ⟨trivial, ?_⟩
  obtain ⟨hdir, hworks, hi, hcount⟩ := tallies_fs hd
  obtain rfl : r = .ok () := hworks
  exact safe_ret.2 (hput ht₁ hdir hi (hcount.trans (countOne_none _)))

theorem startup_counts (ht : Tallied h t) :
    Safe (Counts h) (startup h) (fun _ w' => Tallied h w'.1) (t, tr) := by
  unfold startup reconcileOnStart
  simp only [Prog.bind_eq, Prog.bind_assoc]
  refine Safe.bind ((loadAll_counts ht).mono fun r w₁ hload => ?_)
  obtain ⟨t₁, tr₁⟩ := w₁
  cases r with
  | error e => exact absurd hload id
  | ok out =>
    obtain ⟨hsame, _, hread⟩ := hload
    obtain rfl : t = t₁ := hsame.symm
    refine Safe.ensure_bind (fun _ => ht) fun _ => ?_
    refine Safe.bind ((reconcileEach_counts ht fun rec hrec => (hread rec hrec).2).mono fun r w₂ ht₂ => ?_)
    obtain ⟨t₂, tr₂⟩ := w₂
    cases r with
    | error e => exact ht₂
    | ok u =>
      unfold readOrCreateBaseline
      refine reads_bind_counts (Uses.request trivial) (fun _ _ => ht₂) fun found tr₃ => ?_
      cases found with
      | some baseline => exact safe_ret.2 ht₂
      | none =>
        refine reads_bind_counts (Uses.ask trivial) (fun _ _ => ht₂) fun now tr₄ => ?_
        refine Safe.bind ((writeMarker_counts ht₂).mono fun r w₃ ht₃ => ?_)
        cases r with
        | error e => exact ht₃
        | ok u => exact safe_ret.2 ht₃

/-! ## A run -/

theorem CountStep.tallied (hf : ReadsAmounts h) {c c' : Counted} (hs : CountStep h True c c')
    (hc : Tallied h c.tally) : Tallied h c'.tally := by
  cases hs with
  | started _ he => exact ended_exec (startup_counts hc) trivial he rfl
  | refused he => exact ended_exec (startup_counts hc) trivial he rfl
  | passed he hr => exact ended_exec (tick_counts hf hc) trivial he hr
  | stopped => exact hc

theorem CountRun.tallied (hf : ReadsAmounts h) {c c' : Counted} (hr : CountRun h True c c')
    (hc : Tallied h c.tally) : Tallied h c'.tally := by
  induction hr with
  | refl => exact hc
  | step _ hs ih => exact hs.tallied hf ih

theorem triesOf_lt (ht : Tallied h t) {bid : String} (hr : record h t.dir bid = some rec) :
    triesOf rec < maxDeferTries := by
  by_cases ho : rec.isOpen = true
  · have hb := ht.budget bid
    exact (hb.waiting rec hr ho).1 ▸ hb.deferred
  · have hzero : triesOf rec = 0 := by
      unfold FeeRecord.isOpen at ho
      unfold triesOf
      split <;> simp_all
    rw [hzero]
    decide +kernel

/-- In a patient run a record is put off a bounded number of times, a bid has a bounded number of
withdraws, and the tries fit in a `u32`. -/
theorem put_off_bounded (hf : ReadsAmounts h) {c₀ c : Counted} (hi : c₀.Initial h)
    (hr : CountRun h True c₀ c) (bid : String) : c.tally.deferred bid ≤ maxDeferTries ∧
      c.tally.withdrawn bid ≤ maxDeferTries ∧
      ∀ rec, record h c.tally.dir bid = some rec → triesOf rec < 2 ^ 32 := by
  have ht := hr.tallied hf hi.tallied
  refine ⟨Nat.le_of_lt (ht.budget bid).deferred, (ht.budget bid).withdrawn, fun rec hrec => ?_⟩
  exact Nat.lt_trans (triesOf_lt ht hrec) (by decide +kernel)

/-! ## A record that was put off 95 times -/

/-- A time as its number of nanoseconds. -/
def printTime (t : Int) : String :=
  if t < 0 then "-" ++ String.ofList (Nat.toDigits 10 t.natAbs) else String.ofList (Nat.toDigits 10 t.natAbs)

def readTime : List Char → Except String Int
  | '-' :: cs => .ok (-(digitsValue cs : Int))
  | cs => .ok (digitsValue cs)

def refusedText : String := "swap node HTTP 500: "

/-- The record of the bid `b1`, put off `tries` times, and until when. -/
def deferredRecord (until_ : String) (tries : Nat) (detail : String) : FeeRecord :=
  ⟨"b1", .deferred "LTC" 1250000 until_ tries, detail⟩

def refusedDetail (until_ : String) : String :=
  s!"withdraw refused: {refusedText} — next check after {until_}"

def benchRecords : List FeeRecord :=
  [deferredRecord "0" 95 "", ⟨"b1", .attempting "LTC" 1250000 "0", ""⟩,
    deferredRecord "300000000000" 96 (refusedDetail "300000000000"),
    ⟨"b1", .attempting "LTC" 1250000 "300000000000", refusedDetail "300000000000"⟩,
    deferredRecord "600000000000" 97 (refusedDetail "600000000000"),
    ⟨"b1", .paid "LTC" 1250000 "t1" "0", ""⟩]

def benchPretty (rec : FeeRecord) : String :=
  let state := match rec.state with
    | .attempting ticker amount at_ =>
      s!"\"state\": \"attempting\",\n  \"ticker\": \"{ticker}\",\n  \"amount\": {amount},\n  \"at\": \"{at_}\""
    | .paid ticker amount txid at_ =>
      s!"\"state\": \"paid\",\n  \"ticker\": \"{ticker}\",\n  \"amount\": {amount},\n  " ++
        s!"\"txid\": \"{txid}\",\n  \"at\": \"{at_}\""
    | .deferred ticker amount until_ tries =>
      s!"\"state\": \"deferred\",\n  \"ticker\": \"{ticker}\",\n  \"amount\": {amount},\n  " ++
        s!"\"until\": \"{until_}\",\n  \"tries\": {tries}"
    | _ => "\"state\": \"watching\""
  s!"\x7b\n  \"bid_id\": \"{rec.bidId}\",\n  {state},\n  \"detail\": \"{rec.detail}\"\n\x7d"

def benchFromPretty (text : String) : Except String FeeRecord :=
  match benchRecords.find? fun rec => benchPretty rec == text with
  | some rec => .ok rec
  | none => .error "expected value at line 1 column 1"

theorem head_toDigits_ne {n : Nat} : (Nat.toDigits 10 n).head? ≠ some '-' := by
  intro hhead
  have hdigit := isDigit_of_mem_toDigits (List.mem_of_head? hhead)
  exact absurd hdigit (by decide)

theorem readTime_printTime (t : Int) : readTime (printTime t).toList = .ok t := by
  unfold printTime
  by_cases ht : t < 0
  · simp only [if_pos ht, String.toList_append, String.toList_ofList]
    show (.ok (-(digitsValue (Nat.toDigits 10 t.natAbs) : Int)) : Except String Int) = _
    rw [digitsValue_toDigits]
    congr 1
    omega
  · simp only [if_neg ht, String.toList_ofList]
    unfold readTime
    split
    · rename_i cs hcs
      exact absurd (congrArg List.head? hcs) head_toDigits_ne
    · rw [digitsValue_toDigits]
      congr 1
      omega

theorem trim_printTime (t : Int) : trim (printTime t) = printTime t := by
  refine trim_of_all fun c hc => ?_
  unfold printTime at hc
  split at hc
  · rw [String.toList_append, String.toList_ofList] at hc
    rcases List.mem_append.1 hc with hc | hc
    · obtain rfl := List.mem_singleton.1 hc
      decide
    · rw [String.toList_ofList] at hc
      exact isWhitespace_of_isDigit (isDigit_of_mem_toDigits hc)
  · rw [String.toList_ofList] at hc
    exact isWhitespace_of_isDigit (isDigit_of_mem_toDigits hc)

def benchHost : Host where
  toPretty rec := if rec ∈ benchRecords then .ok (benchPretty rec) else .error "unknown record"
  fromPretty := benchFromPretty
  fromPretty_toPretty := by
    intro rec text ht
    have hall : ∀ rec ∈ benchRecords, (benchRecords.find? fun rec' => benchPretty rec' == benchPretty rec) =
        some rec := by decide +kernel
    split at ht
    · rename_i hrec
      obtain rfl := Except.ok.inj ht
      unfold benchFromPretty
      rw [hall rec hrec]
    · cases ht
  toRfc3339 := printTime
  parseRfc3339 text := readTime text.toList
  parse_toRfc3339 t := by rw [trim_printTime, readTime_printTime]
  parseJson text := if text = "\x7b\"txid\":\"t1\"\x7d" then .ok (.obj [("txid", .str "t1")]) else .error "expected value"
  printJson _ := ""
  parsedF64 text :=
    match parseAmount text with
    | .ok n => some (Decidable.decide (0 < n))
    | .error _ => none
  below100 _ := false
  balanceF64 _ := none

theorem benchHost_reads : ReadsAmounts benchHost := by
  intro n hpos hfits
  simp [benchHost, parseAmount_formatAmount hfits, hpos]

/-- The files, the withdraws, the deferrals of each bid, and the clock. -/
structure Bench where
  files : Files String
  issued : List Issue
  deferred : String → Nat
  clock : Int

def Bench.view (s : Bench) : Tally := ⟨⟨s.files.dir, s.issued⟩, s.deferred⟩

/-- Every file step works, and every withdraw is answered with `reply`. -/
def Bench.answer (reply : PostReply) (s : Bench) : (o : FeeOp) → Option (o.Ans × Bench)
  | .fs o => (o.perform s.files).map fun (r, files) =>
    (r, { s with
      files
      deferred := countOne s.deferred (deferredBy benchHost s.files.dir (.fs o)) })
  | .now => some (s.clock, s)
  | .apiContext => some (true, s)
  | .api path _ => some (sampleReply path, s)
  | .post bid path body => some (reply, { s with issued := s.issued ++ [⟨bid, path, body, reply⟩] })

theorem tallies_answer {strict : Prop} {reply : PostReply} (hp : strict → isRefusal benchHost reply = false)
    (s : Bench) (o : FeeOp) (r : o.Ans) (s' : Bench) (hr : s.answer reply o = some (r, s')) :
    FeeOp.tallies benchHost strict o r s.view s'.view := by
  have hnone : ∀ {o : FeeOp}, deferredBy benchHost s.files.dir o = none →
      s.deferred = countOne s.deferred (deferredBy benchHost s.files.dir o) := by
    intro o hd
    rw [hd, countOne_none]
  cases o with
  | fs o =>
    obtain ⟨⟨r', files⟩, hperf, heq⟩ := Option.map_eq_some_iff.1 hr
    obtain ⟨rfl, rfl⟩ := Prod.mk.inj heq
    refine ⟨⟨⟨does_perform hperf, rfl⟩, fun hf => hf.elim⟩, ?_, rfl, fun _ => trivial⟩
    cases o with
    | create name => exact (Prod.mk.inj (Option.some.inj hperf)).1.symm
    | write name content => exact (Prod.mk.inj (Option.some.inj hperf)).1.symm
    | rename source target =>
      obtain ⟨content, _, heq⟩ := Option.map_eq_some_iff.1 hperf
      exact (Prod.mk.inj heq).1.symm
    | remove name =>
      dsimp only [FsOp.perform] at hperf
      split at hperf
      · exact .inl (Prod.mk.inj (Option.some.inj hperf)).1.symm
      · exact .inr (Prod.mk.inj (Option.some.inj hperf)).1.symm
    | sync name => exact trivial
    | read name => exact trivial
    | readDir => exact trivial
  | now =>
    obtain ⟨_, rfl⟩ := Prod.mk.inj (Option.some.inj hr)
    exact ⟨⟨rfl, fun hf => hf.elim⟩, trivial, hnone rfl, fun _ => trivial⟩
  | apiContext =>
    obtain ⟨_, rfl⟩ := Prod.mk.inj (Option.some.inj hr)
    exact ⟨⟨rfl, fun hf => hf.elim⟩, trivial, hnone rfl, fun _ => trivial⟩
  | api path post =>
    obtain ⟨_, rfl⟩ := Prod.mk.inj (Option.some.inj hr)
    exact ⟨⟨rfl, fun hf => hf.elim⟩, trivial, hnone rfl, fun _ => trivial⟩
  | post bid path body =>
    obtain ⟨rfl, rfl⟩ := Prod.mk.inj (Option.some.inj hr)
    refine ⟨⟨rfl, fun hf => hf.elim⟩, trivial, hnone rfl, fun hst href => ?_⟩
    rw [hp hst] at href
    cases href

/-- The bid `b1` was put off 95 times, and waits. -/
def Bench.late : Bench :=
  ⟨[("b1.json", benchPretty (deferredRecord "0" 95 ""))], [], fun bid => if bid = "b1" then 95 else 0, 0⟩

theorem late_record : record benchHost Bench.late.view.dir "b1" = some (deferredRecord "0" 95 "") := by
  refine @record_put _ _ _ (benchPretty (deferredRecord "0" 95 "")) _ rfl ?_
  have hmem : deferredRecord "0" 95 "" ∈ benchRecords := by decide +kernel
  refine @Host.fromPretty_toPretty benchHost (deferredRecord "0" 95 "") _ ?_
  dsimp only [benchHost]
  rw [if_pos hmem]

theorem late_other {name : String} (hname : name ≠ "b1.json") : Bench.late.view.dir name = none := by
  show (List.lookup name [("b1.json", _)]).map Entry.file = none
  rw [Files.lookup_cons_ne _ _ hname]
  rfl

theorem safeId_b1 : safeId "b1" = .ok "b1" := by
  have hid : (safeId "b1").toOption = some "b1" := by decide +kernel
  cases hs : safeId "b1" with
  | ok id =>
    rw [hs] at hid
    rw [Option.some.inj hid]
  | error e =>
    rw [hs] at hid
    cases hid

theorem initial_late : Counted.Initial benchHost ⟨Bench.late.view, none⟩ := by
  refine ⟨rfl, fun name stem text rec hname _ htext => ?_, fun _ => rfl, fun bid => ?_, fun bid => ?_⟩
  · by_cases hb : name = "b1.json"
    · subst hb
      obtain ⟨text', hfile', htext'⟩ := of_record late_record
      obtain rfl := Entry.file.inj (Option.some.inj (hname.symm.trans hfile'))
      obtain rfl := Except.ok.inj (htext'.symm.trans htext)
      exact ⟨rfl, safeId_b1⟩
    · exact absurd (hname.symm.trans (late_other hb)) nofun
  · by_cases hb : bid = "b1"
    · subst hb
      show 95 = ((record benchHost Bench.late.view.dir "b1").map triesOf).getD 0
      rw [late_record]
      rfl
    · have hname : recordName bid ≠ "b1.json" := recordName_ne hb
      have hnone : record benchHost Bench.late.view.dir bid = none := by
        unfold record
        rw [late_other hname]
      show (if bid = "b1" then 95 else 0) = ((record benchHost Bench.late.view.dir bid).map triesOf).getD 0
      rw [hnone, if_neg hb]
      rfl
  · show (if bid = "b1" then 95 else 0) < maxDeferTries
    split <;> decide +kernel

section
variable (reply : PostReply)

def Bench.start (s : Bench) : Bench := (Prog.drive (Bench.answer reply) 20 (startup benchHost) s).2.2

/-- A live pass at a time. -/
def Bench.pass (s : Bench) (clock : Int) : Bench :=
  (Prog.drive (Bench.answer reply) 40 (tick benchHost .live 0) { s with clock }).2.2

end

theorem Bench.started {strict : Prop} {reply : PostReply} {s : Bench}
    (hp : strict → isRefusal benchHost reply = false)
    (hv : (Prog.drive (Bench.answer reply) 20 (startup benchHost) s).2.1.value = some 0) :
    CountStep benchHost strict ⟨s.view, none⟩ ⟨(s.start reply).view, some (.live, 0)⟩ := by
  have he := @exec_drive _ _ _ _ _ _ _ _ Bench.view (tallies_answer hp) 20 (startup benchHost) s
  rw [eq_ret_of_value hv] at he
  exact .started (fun h => nomatch h) he

theorem Bench.passed {strict : Prop} {reply : PostReply} {s : Bench} {clock : Int}
    (hp : strict → isRefusal benchHost reply = false)
    (hv : (Prog.drive (Bench.answer reply) 40 (tick benchHost .live 0) { s with clock }).2.1.value.isSome =
      true) :
    CountStep benchHost strict ⟨s.view, some (.live, 0)⟩ ⟨(s.pass reply clock).view, some (.live, 0)⟩ := by
  have he := @exec_drive _ _ _ _ _ _ _ _ Bench.view (tallies_answer hp) 40 (tick benchHost .live 0) { s with clock }
  obtain ⟨a, ha⟩ := ended_of_value hv
  exact .passed he ha

/-- The withdraw is made at last. -/
def accepted : PostReply := .answered 200 "\x7b\"txid\":\"t1\"\x7d"

/-- The node refuses. -/
def refusing : PostReply := .answered 500 ""

theorem put_off_bounded_sample :
    (((Bench.late.start accepted).pass accepted 0).view.deferred "b1" ≤ maxDeferTries ∧
      ((Bench.late.start accepted).pass accepted 0).view.withdrawn "b1" ≤ maxDeferTries ∧
      ∀ rec, record benchHost ((Bench.late.start accepted).pass accepted 0).view.dir "b1" = some rec →
        triesOf rec < 2 ^ 32) ∧
      ((Bench.late.start accepted).pass accepted 0).view.withdrawn "b1" = 1 := by
  have hp : True → isRefusal benchHost accepted = false := fun _ => by decide +kernel
  refine ⟨put_off_bounded benchHost_reads initial_late
    (.step (.step .refl (Bench.started hp ?_)) (Bench.passed hp ?_)) "b1", ?_⟩
  · decide +kernel
  · decide +kernel
  · decide +kernel

/-- Two passes in which the node refuses the withdraw put the bid off for the 97th time. -/
theorem not_always_bounded : ¬ ∀ (h : Host), ReadsAmounts h → ∀ c₀ c : Counted, c₀.Initial h →
    CountRun h False c₀ c → ∀ bid, c.tally.deferred bid ≤ maxDeferTries ∧
      c.tally.withdrawn bid ≤ maxDeferTries ∧
      ∀ rec, record h c.tally.dir bid = some rec → triesOf rec < 2 ^ 32 := by
  intro hall
  have hp : False → isRefusal benchHost refusing = false := False.elim
  have hrun : CountRun benchHost False ⟨Bench.late.view, none⟩
      ⟨(((Bench.late.start refusing).pass refusing 0).pass refusing 300000000000).view, some (.live, 0)⟩ := by
    refine .step (.step (.step .refl (Bench.started hp ?_)) (Bench.passed hp ?_)) (Bench.passed hp ?_)
    · decide +kernel
    · decide +kernel
    · decide +kernel
  have hmore : (((Bench.late.start refusing).pass refusing 0).pass refusing 300000000000).view.deferred "b1" =
      97 := by decide +kernel
  have hle := (hall benchHost benchHost_reads _ _ initial_late hrun "b1").1
  exact absurd (hmore ▸ hle) (by decide +kernel)

end Fees
