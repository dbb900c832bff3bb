import PwndaWallet.Fees.LedgerSound
import PwndaWallet.Lib.Result

/-!
# What a pass does

Each function of the watcher keeps the ledger sound, and asks for a withdraw only where it is owed.
-/

namespace Fees

open Rust Tasks Tasks.Fs Bridge

variable {h : Host} {strict : Prop} {w w₀ : World} {m : Mode} {b : Int} {tr : List (Ev FeeOp.Ans)}

/-! ## Reading -/

/-- An operation that leaves the world as it is. -/
def Reads : FeeOp → Prop
  | .fs (.read _) => True
  | .fs .readDir => True
  | .fs _ => False
  | .post _ _ _ => False
  | _ => True

theorem Reads.quiet {o : FeeOp} (ho : Reads o) : Quiet o := by
  cases o <;> first | trivial | exact ho

theorem reads_does {o : FeeOp} {r : o.Ans} {w' : World} (ho : Reads o) (hd : FeeOp.does h strict o r w w') :
    w' = w := by
  obtain ⟨hp, _⟩ := hd
  cases o with
  | fs o =>
    obtain ⟨hdir, hi⟩ := hp
    have hdir : w'.dir = w.dir := by
      cases o with
      | read name =>
        cases r with
        | ok text => exact hdir.2
        | error e =>
          cases e with
          | notFound => exact hdir.2
          | other e => exact hdir.2
      | readDir =>
        cases r with
        | ok names => exact hdir.2
        | error e => exact hdir.2
      | create name => exact absurd ho id
      | write name content => exact absurd ho id
      | sync name => exact absurd ho id
      | rename source target => exact absurd ho id
      | remove name => exact absurd ho id
    cases w
    cases w'
    cases hdir
    cases hi
    rfl
  | now => exact hp
  | apiContext => exact hp
  | api path post => exact hp
  | post bid path body => exact absurd ho id

theorem reads_spec {α : Type} {p : FeeProg α} (hp : Uses Reads p) (hs : Sound h strict w)
    (hl : Later h w₀ w) : Safe (Steps h strict w₀ m b) p (fun _ w' => w'.1 = w) (w, tr) :=
  safe_solo_of_uses hp (fun _ _ _ _ ho hd => reads_does ho hd) fun _ _ _ ho => .quiet hs.kept hl ho.quiet

/-- A part that reads only, and what comes after it. -/
theorem reads_bind {α β : Type} {p : FeeProg α} {k : α → FeeProg β}
    {R : Except String β → World × List (Ev FeeOp.Ans) → Prop} (hp : Uses Reads p) (hs : Sound h strict w)
    (hl : Later h w₀ w) (he : ∀ e tr', R (.error e) (w, tr'))
    (hk : ∀ a tr', tr <+: tr' → Safe (Steps h strict w₀ m b) (k a) R (w, tr')) :
    Safe (Steps h strict w₀ m b) (p.bind k) R (w, tr) := by
  refine Safe.bind ((safe_solo_grows (reads_spec hp hs hl)).mono fun r w' hr => ?_)
  obtain ⟨w', tr'⟩ := w'
  obtain ⟨hw, hpre⟩ := hr
  subst hw
  cases r with
  | ok a => exact hk a tr' hpre
  | error e => exact he e tr'

theorem uses_nowText : Uses Reads (nowText h) := (Uses.ask trivial).bind fun _ => trivial

theorem uses_deferUntil (backoff : Nat) : Uses Reads (deferUntil h backoff) :=
  (Uses.ask trivial).bind fun _ => trivial

theorem uses_availableBalance (ticker : String) : Uses Reads (availableBalance h ticker) :=
  Uses.request trivial

theorem uses_activeSwapReserve (ticker : String) : Uses Reads (activeSwapReserve ticker) := by
  unfold activeSwapReserve
  split
  · exact Uses.request trivial
  · exact trivial

/-! ## Loading the records -/

/-- The record is in its file, and was read there. -/
structure Read (h : Host) (tr : List (Ev FeeOp.Ans)) (d : Dir String) (rec : FeeRecord) : Prop where
  stored : record h d rec.bidId = some rec
  named : safeId rec.bidId = .ok rec.bidId
  seen : ∃ text, ⟨.fs (.read (recordName rec.bidId)), .ok text⟩ ∈ tr ∧ h.fromPretty text = .ok rec

theorem Read.mono {tr' : List (Ev FeeOp.Ans)} {d : Dir String} {rec : FeeRecord} (hr : Read h tr d rec)
    (ht : tr <+: tr') : Read h tr' d rec := by
  obtain ⟨text, hmem, htext⟩ := hr.seen
  exact ⟨hr.stored, hr.named, text, ht.subset hmem, htext⟩

theorem loadEntry_spec {name : String} (hs : Sound h strict w) (hl : Later h w₀ w) :
    Safe (Steps h strict w₀ m b) (loadEntry h name) (OnEnd (fun _ => False) fun entry w' => w'.1 = w ∧
      ∀ rec, entry = some (.ok rec) → name = recordName rec.bidId ∧ Read h w'.2 w.dir rec) (w, tr) := by
  unfold loadEntry
  split
  · rename_i stem hsplit
    refine safe_call_solo.2 fun r w' hd => ?_
    obtain rfl := reads_does (o := .fs (.read name)) trivial hd
    refine ⟨.quiet hs.kept hl trivial, ?_⟩
    cases r with
    | ok text =>
      refine safe_ret.2 ⟨rfl, fun rec hrec => ?_⟩
      have htext : h.fromPretty text = .ok rec := by
        cases ht : h.fromPretty text with
        | ok rec' =>
          rw [ht] at hrec
          obtain rfl := Except.ok.inj (Option.some.inj hrec)
          rfl
        | error e =>
          rw [ht] at hrec
          cases hrec
      obtain ⟨⟨⟨hfile, _⟩, _⟩, _⟩ := hd
      obtain ⟨hname, hid⟩ := hs.named name stem text rec hfile hsplit htext
      subst hname
      exact ⟨rfl, record_put hfile htext, hid, text, by simp, htext⟩
    | error e => exact safe_ret.2 ⟨rfl, fun rec hrec => nomatch hrec⟩
  · exact safe_ret.2 ⟨rfl, fun rec hrec => nomatch hrec⟩

theorem loadEntries_spec {names : List String} (hs : Sound h strict w) (hl : Later h w₀ w) :
    Safe (Steps h strict w₀ m b) (loadEntries h names) (OnEnd (fun _ => False) fun out w' => w'.1 = w ∧
      (out.1.map fun rec => recordName rec.bidId).Sublist names ∧
      ∀ rec ∈ out.1, Read h w'.2 w.dir rec) (w, tr) := by
  induction names generalizing tr with
  | nil => exact safe_ret.2 ⟨rfl, List.Sublist.slnil, fun rec hrec => nomatch hrec⟩
  | cons name names ih =>
    unfold loadEntries
    refine Safe.bind_end (loadEntry_spec hs hl) ?_
    rintro entry ⟨w', tr₁⟩ ⟨hw, hentry⟩
    obtain rfl : w = w' := hw.symm
    refine Safe.bind_end (safe_solo_grows_end ih) ?_
    rintro ⟨out, bad⟩ ⟨w', tr₂⟩ ⟨⟨hw, hsub, hout⟩, hpre⟩
    obtain rfl : w = w' := hw.symm
    cases entry with
    | none => exact safe_ret.2 ⟨rfl, hsub.cons _, hout⟩
    | some found =>
      cases found with
      | error e => exact safe_ret.2 ⟨rfl, hsub.cons _, hout⟩
      | ok rec =>
        obtain ⟨hname, hread⟩ := hentry rec rfl
        refine safe_ret.2 ⟨rfl, ?_, fun rec' hrec' => ?_⟩
        · rw [List.map_cons, ← hname]
          exact hsub.cons_cons _
        · rcases List.mem_cons.1 hrec' with rfl | hrec'
          · exact hread.mono hpre
          · exact hout rec' hrec'

/-- The records that are loaded: each is in its file, and no two are of one bid. -/
theorem loadAll_spec (hs : Sound h strict w) (hl : Later h w₀ w) :
    Safe (Steps h strict w₀ m b) (loadAll h) (OnEnd (fun _ => False) fun out w' => w'.1 = w ∧
      (out.1.map FeeRecord.bidId).Nodup ∧ ∀ rec ∈ out.1, Read h w'.2 w.dir rec) (w, tr) := by
  unfold loadAll
  refine safe_request_solo (fun r w' e _ hj => nomatch hj) fun r w' names hd hj => ?_
  obtain rfl := reads_does (o := .fs .readDir) trivial hd
  refine ⟨.quiet hs.kept hl trivial, ?_⟩
  obtain rfl := Except.ok.inj hj
  cases r with
  | error e => exact safe_ret.2 ⟨rfl, List.nodup_nil, fun rec hrec => nomatch hrec⟩
  | ok names =>
    obtain ⟨⟨⟨⟨hnodup, _⟩, _⟩, _⟩, _⟩ := hd
    refine Safe.bind_end (loadEntries_spec hs hl) ?_
    rintro ⟨out, bad⟩ ⟨w₁, tr'⟩ ⟨hw, hsub, hout⟩
    subst hw
    have hperm : (sortRecords out).Perm out := List.mergeSort_perm _ _
    refine safe_ret.2 ⟨rfl, ?_, fun rec hrec => hout rec (hperm.mem_iff.1 hrec)⟩
    refine (hperm.map _).nodup_iff.2 ?_
    have hn : (out.map fun rec => recordName rec.bidId).Nodup := hsub.nodup hnodup
    exact List.pairwise_map.2 ((List.pairwise_map.1 hn).imp fun hne heq => hne (by rw [heq]))

/-! ## The withdraw -/

theorem decide_charge {bid : SettledBid} {ticker address : String} {amount notional : Nat}
    (hd : decide bid = .charge ticker amount address notional) :
    bid.state = swapCompleted ∧ feeAddressFor ticker = some address := by
  unfold decide at hd
  split at hd
  · cases hd
  · rename_i hstate
    refine ⟨Decidable.not_not.1 hstate, ?_⟩
    split at hd
    · cases hd
    · split at hd
      · rename_i haddr _
        dsimp only at hd
        split at hd
        · cases hd
        · split at hd
          · cases hd
          · split at hd
            · cases hd
            · rename_i leg _ _ _ addr flat _ _ notional' _ _ _
              have hlast : ∀ amt, (if amt = 0 then Decision.skip .dust
                  else .charge leg.scripted amt addr notional') = .charge ticker amount address notional →
                  feeAddressFor ticker = some address := by
                intro amt hamt
                split at hamt
                · cases hamt
                · obtain ⟨hleg, _, hto, _⟩ := Decision.charge.inj hamt
                  rw [← hleg, ← hto, haddr]
              exact hlast _ hd
      · cases hd

/-- The end of a withdraw that closes the record. -/
def Closes : Except String String → Prop
  | .ok _ => True
  | .error e => isTransportFailure e = true

theorem closes_of_mayHaveBroadcast {r : PostReply} (hb : mayHaveBroadcast h r = true)
    (hm : misread h r = false) : Closes ((r.result h.parseJson).bind (extractTxid h.printJson)) := by
  cases r with
  | unbuilt e => cases hb
  | unreachable e => cases hb
  | lost e =>
    show transportFailurePrefix.toList.isPrefixOf (transportFailurePrefix ++ ": " ++ e).toList = true
    rw [List.isPrefixOf_iff_prefix, String.append_assoc, String.toList_append]
    exact List.prefix_append _ _
  | cutOff status e => cases hm
  | answered status text =>
    unfold mayHaveBroadcast at hb
    by_cases hstatus : 200 ≤ status ∧ status < 300
    · cases hj : h.parseJson text with
      | ok v =>
        simp only [hstatus, hj] at hb
        simp only [PostReply.result, decodeJson, hstatus, hj, mapError_ok]
        cases he : extractTxid h.printJson v with
        | ok txid => simp [Except.bind, he, Closes]
        | error e =>
          rw [he] at hb
          cases hb
      | error e => simp [misread, hj, hstatus, Except.isOk, Except.toBool] at hm
    · simp only [hstatus] at hb
      cases hb

theorem no_broadcast_of_open {rec : FeeRecord} {bid : String} (hs : Sound h strict w)
    (hr : record h w.dir bid = some rec) (ho : rec.isOpen = true) : strict → ¬ Broadcast h w bid := by
  intro hst hb
  obtain ⟨rec', hr', ho'⟩ := hs.held hst bid hb
  obtain rfl := Option.some.inj (hr.symm.trans hr')
  rw [ho] at ho'
  cases ho'

/-- One more withdraw, of a bid that had none and whose record is not open. -/
theorem Sound.issue {i : Issue} (hs : Sound h strict w) (hb : strict → ¬ Broadcast h w i.bid)
    (hh : Held h w.dir i.bid) : Sound h strict { w with issued := w.issued ++ [i] } := by
  refine ⟨hs.named, fun hst bid => ?_, fun hst bid hbr => ?_⟩
  · rw [List.filter_append, List.length_append]
    by_cases hbid : i.bid = bid
    · have hnone : w.issued.filter (fun j => j.bid == bid && mayHaveBroadcast h j.reply) = [] := by
        refine List.filter_eq_nil_iff.2 fun j hj hcond => hb hst ⟨j, hj, ?_⟩
        rw [Bool.and_eq_true, beq_iff_eq] at hcond
        exact ⟨hcond.1.trans hbid.symm, hcond.2⟩
      rw [hnone, List.length_nil, Nat.zero_add]
      exact List.length_filter_le _ _
    · simpa [hbid] using hs.once hst bid
  · obtain ⟨j, hj, hjb, hjm⟩ := hbr
    rcases List.mem_append.1 hj with hj | hj
    · exact hs.held hst bid ⟨j, hj, hjb, hjm⟩
    · obtain rfl := List.mem_singleton.1 hj
      exact hjb ▸ hh

theorem settleWith_spec {bid ticker address : String} {amount : Nat} (hs : Sound h strict w)
    (hl : Later h w₀ w) (hh : Held h w.dir bid) (hb : strict → ¬ Broadcast h w bid)
    (haddr : feeAddressFor ticker = some address)
    (howed : ∀ body, sharedWithdrawBody h.parsedF64 address (formatAmount amount) = .ok body →
      Owed h m b tr w.dir bid s!"wallets/{ticker}/withdraw" body) :
    Safe (Steps h strict w₀ m b) (settleWith h bid ticker amount) (fun r w' => Sound h strict w'.1 ∧
      w'.1.dir = w.dir ∧ (strict → Broadcast h w'.1 bid → Closes r)) (w, tr) := by
  have hfail : ∀ e, Sound h strict w ∧ w.dir = w.dir ∧ (strict → Broadcast h w bid → Closes (.error e)) :=
    fun e => ⟨hs, rfl, fun hst hbr => absurd hbr (hb hst)⟩
  unfold settleWith
  refine Safe.ensure_bind (fun _ => hfail _) fun _ => ?_
  refine Safe.orFail_bind (fun _ => hfail _) fun address' haddr' => ?_
  obtain rfl := Option.some.inj (haddr'.symm.trans haddr)
  unfold executeSharedWithdrawWith
  refine Safe.ofExcept_bind (fun e _ => hfail e) fun body hbody => ?_
  refine Safe.ofExcept_bind (fun e _ => hfail e) fun path hpath => ?_
  obtain rfl := privilegedWalletPath_ok hpath
  unfold apiPostPrivileged
  simp only [Prog.bind_eq, Prog.bind_assoc]
  refine Safe.ofExcept_bind (fun e _ => hfail e) fun _ _ => ?_
  have hposted : ∀ {r : PostReply} {w' : World},
      FeeOp.does h strict (.post bid s!"wallets/{ticker}/withdraw" body) r w w' →
      Sound h strict w' ∧ w'.dir = w.dir ∧ (strict → misread h r = false) ∧
        (strict → Broadcast h w' bid → mayHaveBroadcast h r = true) ∧
        Going h strict w₀ m b w' (tr ++ [⟨.post bid s!"wallets/{ticker}/withdraw" body, r⟩]) := by
    intro r w' hd
    obtain ⟨hplay, hharmless⟩ := hd
    subst hplay
    have hs' := hs.issue (i := ⟨bid, s!"wallets/{ticker}/withdraw", body, r⟩) hb hh
    refine ⟨hs', rfl, hharmless, fun hst hbr => ?_, hs'.kept, ?_, ?_⟩
    · obtain ⟨j, hj, hjb, hjm⟩ := hbr
      rcases List.mem_append.1 hj with hj | hj
      · exact absurd ⟨j, hj, hjb, hjm⟩ (hb hst)
      · obtain rfl := List.mem_singleton.1 hj
        exact hjm
    · exact hl.trans ⟨fun _ _ _ _ => rfl, fun _ he => he⟩
    · intro pre bid' path' body' r' heq
      obtain ⟨rfl, he⟩ := List.append_inj' heq rfl
      obtain ⟨ho, _⟩ := Ev.mk.inj (List.singleton_inj.1 he)
      obtain ⟨rfl, rfl, rfl⟩ := FeeOp.post.inj ho
      exact howed body hbody
  refine safe_request_solo (fun r w' e hd hj => ?_) fun r w' v hd hj => ?_
  · obtain ⟨hs', hdir, hm, hbr, hgoing⟩ := hposted hd
    refine ⟨hgoing, hs', hdir, fun hst hbw => ?_⟩
    have hcl := closes_of_mayHaveBroadcast (hbr hst hbw) (hm hst)
    rw [hj] at hcl
    exact hcl
  · obtain ⟨hs', hdir, hm, hbr, hgoing⟩ := hposted hd
    refine ⟨hgoing, Safe.ofExcept ⟨hs', hdir, fun hst hbw => ?_⟩⟩
    have hcl := closes_of_mayHaveBroadcast (hbr hst hbw) (hm hst)
    rw [hj] at hcl
    exact hcl

/-! ## One bid -/

/-- What a part that is about one bid leaves. -/
structure Acted (h : Host) (strict : Prop) (w₀ : World) (bid : String) (w w' : World) : Prop where
  sound : Sound h strict w'
  later : Later h w₀ w'
  beside : Beside bid w.dir w'.dir

theorem Wrote.acted {rec : FeeRecord} {r : Except String Unit} {w' : World}
    (hw : Wrote h strict w₀ rec w r w') : Acted h strict w₀ rec.bidId w w' :=
  ⟨hw.sound, hw.later, hw.writing.beside⟩

theorem outcomeOf_spec {rec : FeeRecord} {ticker : String} {amount tries : Nat} {s : Except String String}
    (hs : Sound h strict w) (hl : Later h w₀ w) : Safe (Steps h strict w₀ m b)
      (outcomeOf h rec ticker amount tries s) (fun r w' => w'.1 = w ∧ ∀ rec', r = .ok rec' →
        rec'.bidId = rec.bidId ∧ (Closes s → rec'.isClosing = true)) (w, tr) := by
  unfold outcomeOf
  split
  · exact reads_bind uses_nowText hs hl (fun e _ => ⟨rfl, fun _ h => nomatch h⟩)
      fun _ _ _ => safe_ret.2 ⟨rfl, fun rec' hr => by obtain rfl := Except.ok.inj hr; exact ⟨rfl, fun _ => rfl⟩⟩
  · split
    · exact safe_ret.2 ⟨rfl, fun rec' hr => by obtain rfl := Except.ok.inj hr; exact ⟨rfl, fun _ => rfl⟩⟩
    · rename_i htransport
      exact reads_bind (uses_deferUntil _) hs hl (fun e _ => ⟨rfl, fun _ h => nomatch h⟩)
        fun _ _ _ => safe_ret.2 ⟨rfl, fun rec' hr => by
          obtain rfl := Except.ok.inj hr
          exact ⟨rfl, fun hc => absurd hc htransport⟩⟩

theorem Priced.mono {bid ticker address : String} {amount : Nat} {tr' : List (Ev FeeOp.Ans)}
    (hp : Priced b tr bid ticker amount address) (ht : tr <+: tr') :
    Priced b tr' bid ticker amount address := by
  obtain ⟨detail, src, settled, created, notional, hmem, hrest⟩ := hp
  exact ⟨detail, src, settled, created, notional, ht.subset hmem, hrest⟩

section
variable {rec : FeeRecord}

/-- A record that was open is written again. -/
theorem rewrite_spec {state : FeeState} {detail : String} (hs : Sound h strict w) (hl : Later h w₀ w)
    (hr : Read h tr w.dir rec) (ho : rec.isOpen = true) {tr' : List (Ev FeeOp.Ans)} :
    Safe (Steps h strict w₀ m b) (write h ⟨rec.bidId, state, detail⟩)
      (fun r w' => Wrote h strict w₀ ⟨rec.bidId, state, detail⟩ w r w'.1) (w, tr') := by
  refine write_spec hs hl hr.named (fun old hold => ?_) fun hst hbr => ?_
  · obtain rfl := Option.some.inj (hr.stored.symm.trans hold)
    exact FeeRecord.not_settled_of_open ho
  · exact absurd hbr (no_broadcast_of_open hs hr.stored ho hst)

theorem rewrite_acted {state : FeeState} {detail : String} (hs : Sound h strict w) (hl : Later h w₀ w)
    (hr : Read h tr w.dir rec) (ho : rec.isOpen = true) {tr' : List (Ev FeeOp.Ans)} :
    Safe (Steps h strict w₀ m b) (write h ⟨rec.bidId, state, detail⟩)
      (fun _ w' => Acted h strict w₀ rec.bidId w w'.1) (w, tr') :=
  (rewrite_spec hs hl hr ho).mono fun _ _ hw => hw.acted

theorem collect_spec {ticker address : String} {amount tries : Nat} (hs : Sound h strict w)
    (hl : Later h w₀ w) (hr : Read h tr w.dir rec) (ho : rec.isOpen = true) (hm : m = .live)
    (hp : Priced b tr rec.bidId ticker amount address) (haddr : feeAddressFor ticker = some address) :
    Safe (Steps h strict w₀ m b) (collect h rec ticker amount tries)
      (fun _ w' => Acted h strict w₀ rec.bidId w w'.1) (w, tr) := by
  unfold collect
  refine reads_bind uses_nowText hs hl (fun _ _ => ⟨hs, hl, .refl _ _⟩) fun at_ tr₁ hpre => ?_
  -- the attempt marker
  refine Safe.bind ((safe_solo_grows (rewrite_spec hs hl hr ho)).mono fun r w₁ hw => ?_)
  obtain ⟨w₁, tr₂⟩ := w₁
  obtain ⟨hwrote, hpre₂⟩ := hw
  cases r with
  | error e => exact hwrote.acted
  | ok u =>
    have hmarked := hwrote.done rfl
    have hheld : Held h w₁.dir rec.bidId := ⟨_, hmarked, rfl⟩
    have hbr₁ : strict → ¬ Broadcast h w₁ rec.bidId := fun hst hbr =>
      no_broadcast_of_open hs hr.stored ho hst ((broadcast_congr hwrote.writing.issued).1 hbr)
    have hlong := hpre.trans hpre₂
    -- the withdraw
    refine Safe.bind (Safe.attempt ((settleWith_spec hwrote.sound hwrote.later hheld hbr₁ haddr
      fun body hbody => ?_).mono fun s w₂ hsettled => ?_))
    · obtain ⟨text, hmem, htext⟩ := hr.seen
      exact ⟨hm, text, rec, ticker, amount, address, _, hlong.subset hmem, htext, rfl, ho, hp.mono hlong,
        hmarked, rfl, hbody⟩
    obtain ⟨w₂, tr₃⟩ := w₂
    obtain ⟨hs₂, hdir, hcl⟩ := hsettled
    have hl₂ : Later h w₀ w₂ := hwrote.later.trans ⟨fun _ _ _ _ => by rw [hdir], fun _ he => by rw [hdir, he]⟩
    have hbeside₂ : Beside rec.bidId w.dir w₂.dir := by
      rw [hdir]
      exact hwrote.writing.beside
    -- its outcome
    refine Safe.bind ((outcomeOf_spec hs₂ hl₂).mono fun r w₃ hout => ?_)
    obtain ⟨w₃, tr₄⟩ := w₃
    obtain ⟨hw₃, hrec'⟩ := hout
    subst hw₃
    cases r with
    | error e => exact ⟨hs₂, hl₂, hbeside₂⟩
    | ok rec' =>
      obtain ⟨hb, hclosing⟩ := hrec' rec' rfl
      have hb : rec'.bidId = rec.bidId := hb
      refine (write_spec hs₂ hl₂ (hb ▸ hr.named) (fun old hold => ?_) fun hst hbr => ?_).mono
        fun r w₄ hwrote' => ?_
      · rw [hb, record_congr (by rw [hdir]), hmarked] at hold
        obtain rfl := Option.some.inj hold
        rfl
      · exact hclosing (hcl hst (hb ▸ hbr))
      · have hacted := hwrote'.acted
        rw [hb] at hacted
        exact ⟨hacted.sound, hacted.later, hbeside₂.trans hacted.beside⟩

theorem closeOrDefer_spec {ticker why : String} {amount tries backoff : Nat} (hs : Sound h strict w)
    (hl : Later h w₀ w) (hr : Read h tr w.dir rec) (ho : rec.isOpen = true) {tr' : List (Ev FeeOp.Ans)} :
    Safe (Steps h strict w₀ m b) (closeOrDefer h rec ticker amount tries why backoff)
      (fun _ w' => Acted h strict w₀ rec.bidId w w'.1) (w, tr') := by
  unfold closeOrDefer
  split
  · exact rewrite_acted hs hl hr ho
  · refine reads_bind (uses_deferUntil _) hs hl (fun _ _ => ⟨hs, hl, .refl _ _⟩) fun until_ tr₁ _ => ?_
    exact rewrite_acted hs hl hr ho

theorem act_spec {bid : SettledBid} {createdAt : Option Int} (hs : Sound h strict w) (hl : Later h w₀ w)
    (hr : Read h tr w.dir rec) (ho : rec.isOpen = true) (hm : m ≠ .off)
    (hp : ∀ created ticker amount address notional, createdAt = some created → b ≤ created →
      decide bid = .charge ticker amount address notional → Priced b tr rec.bidId ticker amount address) :
    Safe (Steps h strict w₀ m b) (act h m rec bid createdAt b)
      (fun _ w' => Acted h strict w₀ rec.bidId w w'.1) (w, tr) := by
  have hsame : Acted h strict w₀ rec.bidId w w := ⟨hs, hl, .refl _ _⟩
  unfold act
  cases hage : classifyAge createdAt b with
  | preexisting => exact rewrite_acted hs hl hr ho
  | unknown => exact rewrite_acted hs hl hr ho
  | fresh =>
    cases hd : decide bid with
    | skip reason =>
      cases reason with
      | notSettled => exact safe_ret.2 hsame
      | _ => exact rewrite_acted hs hl hr ho
    | charge ticker amount address notional =>
      cases m with
      | off => exact absurd rfl hm
      | dark =>
        refine reads_bind uses_nowText hs hl (fun _ _ => hsame) fun at_ tr₁ _ => ?_
        exact rewrite_acted hs hl hr ho
      | live =>
        obtain ⟨created, hcreated, hfresh⟩ : ∃ created, createdAt = some created ∧ b ≤ created := by
          unfold classifyAge at hage
          split at hage
          · rename_i created
            split at hage
            · exact ⟨created, rfl, ‹_›⟩
            · cases hage
          · cases hage
        have hpriced := hp created ticker amount address notional hcreated hfresh hd
        refine reads_bind (uses_availableBalance ticker) hs hl (fun _ _ => hsame) fun balance tr₁ hpre₁ => ?_
        refine reads_bind (uses_activeSwapReserve ticker) hs hl (fun _ _ => hsame) fun reserve tr₂ hpre₂ => ?_
        have hlong := hpre₁.trans hpre₂
        split
        · exact closeOrDefer_spec hs hl hr ho
        · exact collect_spec hs hl (hr.mono hlong) ho rfl (hpriced.mono hlong) (decide_charge hd).2

theorem resolve_spec {now : Int} (hs : Sound h strict w) (hl : Later h w₀ w) (hr : Read h tr w.dir rec)
    (ho : rec.isOpen = true) (hm : m ≠ .off) : Safe (Steps h strict w₀ m b) (resolve h m b now rec)
      (fun _ w' => Acted h strict w₀ rec.bidId w w'.1) (w, tr) := by
  have hsame : Acted h strict w₀ rec.bidId w w := ⟨hs, hl, .refl _ _⟩
  unfold resolve
  dsimp only
  refine Safe.ite (fun _ => safe_ret.2 hsame) fun _ => ?_
  refine safe_request_solo (fun r w' e _ hj => nomatch hj) fun r w' detail hd hj => ?_
  obtain rfl := reads_does (o := .api (bidPath rec.bidId) false) trivial hd
  refine ⟨.quiet hs.kept hl trivial, ?_⟩
  obtain rfl := Except.ok.inj hj
  split
  · exact safe_ret.2 hsame
  · rename_i src hsrc
    split
    · exact safe_ret.2 hsame
    · rename_i settled hsettled
      refine act_spec hs hl (hr.mono (List.prefix_append _ _)) ho hm ?_
      intro created ticker amount address notional hcreated hfresh hdec
      obtain ⟨detail, hdetail, hcarrier⟩ := Option.bind_eq_some_iff.1 hsrc
      have hok : r = .ok detail := by
        cases r with
        | ok v => rw [Option.some.inj hdetail]
        | error e => cases hdetail
      subst hok
      refine ⟨detail, src, settled, created, notional, by simp, ?_, hsettled, (decide_charge hdec).1,
        hcreated, hfresh, hdec⟩
      unfold carrier at hcarrier
      split at hcarrier
      · exact .inl (Option.some.inj hcarrier).symm
      · exact .inr (Option.filter_eq_some_iff.1 hcarrier).1

end

/-! ## A whole pass -/

/-- The world at the end of a part, however it ends. -/
structure Settled (h : Host) (strict : Prop) (w₀ w' : World) : Prop where
  sound : Sound h strict w'
  later : Later h w₀ w'

theorem resolveEach_spec {now : Int} {recs : List FeeRecord} (hs : Sound h strict w) (hl : Later h w₀ w)
    (hm : m ≠ .off) (hnodup : (recs.map FeeRecord.bidId).Nodup)
    (hr : ∀ rec ∈ recs, Read h tr w.dir rec ∧ rec.isOpen = true) :
    Safe (Steps h strict w₀ m b) (resolveEach h m b now recs) (fun _ w' => Settled h strict w₀ w'.1) (w, tr) := by
  induction recs generalizing w tr with
  | nil => exact safe_ret.2 ⟨hs, hl⟩
  | cons rec recs ih =>
    obtain ⟨hread, ho⟩ := hr rec (List.mem_cons_self ..)
    obtain ⟨hnew, hnodup⟩ := List.nodup_cons.1 hnodup
    refine Safe.bind ((safe_solo_grows (resolve_spec hs hl hread ho hm)).mono fun r w' hw => ?_)
    obtain ⟨w', tr'⟩ := w'
    obtain ⟨hacted, hpre⟩ := hw
    cases r with
    | error e => exact ⟨hacted.sound, hacted.later⟩
    | ok u =>
      refine ih hacted.sound hacted.later hnodup fun rec' hrec' => ?_
      obtain ⟨hread', ho'⟩ := hr rec' (List.mem_cons_of_mem _ hrec')
      have hne : rec'.bidId ≠ rec.bidId := fun heq => hnew (heq ▸ List.mem_map_of_mem hrec')
      have hread' := hread'.mono hpre
      exact ⟨⟨(hacted.beside.other hne).trans hread'.stored, hread'.named, hread'.seen⟩, ho'⟩

theorem sweepRows_spec {rows : List Json} (hs : Sound h strict w) (hl : Later h w₀ w) :
    Safe (Steps h strict w₀ m b) (sweepRows h rows) (fun _ w' => Settled h strict w₀ w'.1) (w, tr) := by
  induction rows generalizing w tr with
  | nil => exact safe_ret.2 ⟨hs, hl⟩
  | cons row rows ih =>
    unfold sweepRows
    split
    · exact ih hs hl
    · rename_i id hid
      have hsafe : safeId id = .ok id := by
        obtain ⟨raw, _, hraw⟩ := Option.bind_eq_some_iff.1 hid
        cases hr : safeId raw with
        | ok id' =>
          rw [hr] at hraw
          obtain rfl := Option.some.inj hraw
          exact safeId_idem hr
        | error e =>
          rw [hr] at hraw
          cases hraw
      simp only [read, hsafe, Prog.bind_eq, Prog.ofExcept_ok_bind]
      refine safe_request_solo (fun r w' e hd _ => ?_) fun r w' found hd hj => ?_
      · obtain rfl := reads_does (o := .fs (.read (recordName id))) trivial hd
        exact ⟨.quiet hs.kept hl trivial, hs, hl⟩
      obtain rfl := reads_does (o := .fs (.read (recordName id))) trivial hd
      refine ⟨.quiet hs.kept hl trivial, ?_⟩
      cases found with
      | some rec => exact ih hs hl
      | none =>
        -- there is no file, so nothing was broadcast for the bid
        have hnone : w'.dir (recordName id) = none := by
          cases r with
          | ok text =>
            dsimp only at hj
            split at hj <;> cases hj
          | error e =>
            cases e with
            | notFound => exact hd.1.1.1
            | other e => cases hj
        have hrecord : record h w'.dir id = none := by simp [record, hnone]
        have hsafe' : safeId (FeeRecord.watching id).bidId = .ok (FeeRecord.watching id).bidId := hsafe
        refine Safe.bind ((write_spec hs hl hsafe' (fun old hold => ?_) fun hst hbr => ?_).mono
          fun r w₁ hwrote => ?_)
        · exact absurd (hrecord.symm.trans hold) (by simp)
        · obtain ⟨rec, hrec, _⟩ := hs.held hst id hbr
          exact absurd (hrecord.symm.trans hrec) (by simp)
        · cases r with
          | error e => exact ⟨hwrote.sound, hwrote.later⟩
          | ok u => exact ih hwrote.sound hwrote.later

theorem sweep_spec {endpoints : List String} (hs : Sound h strict w) (hl : Later h w₀ w) :
    Safe (Steps h strict w₀ m b) (sweep h endpoints) (fun _ w' => Settled h strict w₀ w'.1) (w, tr) := by
  induction endpoints generalizing w tr with
  | nil => exact safe_ret.2 ⟨hs, hl⟩
  | cons endpoint endpoints ih =>
    unfold sweep
    refine safe_request_solo (fun r w' e hd _ => ?_) fun r w' body hd _ => ?_
    · obtain rfl := reads_does (o := .api endpoint true) trivial hd
      exact ⟨.quiet hs.kept hl trivial, hs, hl⟩
    obtain rfl := reads_does (o := .api endpoint true) trivial hd
    refine ⟨.quiet hs.kept hl trivial, ?_⟩
    split
    · exact Safe.ite (fun _ => safe_ret.2 ⟨hs, hl⟩) fun _ => ih hs hl
    · refine Safe.bind ((sweepRows_spec hs hl).mono fun r w₁ hw => ?_)
      cases r with
      | error e => exact hw
      | ok u => exact ih hw.sound hw.later

theorem uses_loadEntries (names : List String) : Uses Reads (loadEntries h names) := by
  induction names with
  | nil => exact trivial
  | cons name names ih =>
    refine Uses.bind ?_ fun entry => ih.bind fun out => ?_
    · unfold loadEntry
      split
      · exact Uses.request trivial
      · exact trivial
    · obtain ⟨out, bad⟩ := out
      dsimp only
      split <;> exact trivial

theorem uses_loadAll : Uses Reads (loadAll h) := by
  refine Uses.bind (Uses.request trivial) fun names => ?_
  split
  · exact trivial
  · exact (uses_loadEntries _).bind fun _ => trivial

theorem tick_spec (hs : Sound h strict w) (hl : Later h w₀ w) (hm : m ≠ .off) :
    Safe (Steps h strict w₀ m b) (tick h m b) (fun _ w' => Settled h strict w₀ w'.1) (w, tr) := by
  have hsame : Settled h strict w₀ w := ⟨hs, hl⟩
  unfold tick
  refine reads_bind (Uses.ask trivial) hs hl (fun _ _ => hsame) fun up tr₁ _ => ?_
  refine Safe.ite (fun _ => safe_ret.2 hsame) fun _ => ?_
  refine Safe.bind ((sweep_spec hs hl).mono fun r w₁ hw => ?_)
  obtain ⟨w₁, tr₂⟩ := w₁
  cases r with
  | error e => exact hw
  | ok locked =>
    refine Safe.ite (fun _ => safe_ret.2 hw) fun _ => ?_
    refine Safe.bind ((loadAll_spec hw.sound hw.later).mono fun r w₂ hload => ?_)
    obtain ⟨w₂, tr₃⟩ := w₂
    cases r with
    | error e => exact absurd hload id
    | ok out =>
      obtain ⟨hw₂, hnodup, hread⟩ := hload
      obtain rfl : w₁ = w₂ := hw₂.symm
      refine Safe.ensure_bind (fun _ => hw) fun _ => ?_
      refine reads_bind (Uses.ask trivial) hw.sound hw.later (fun _ _ => hw) fun now tr₄ hpre => ?_
      refine Safe.bind ((resolveEach_spec hw.sound hw.later hm ?_ fun rec hrec => ?_).mono fun r w₃ hw₃ => ?_)
      · exact hnodup.sublist (List.filter_sublist.map _)
      · obtain ⟨hmem, ho⟩ := List.mem_filter.1 hrec
        exact ⟨(hread rec hmem).mono hpre, ho⟩
      · cases r with
        | error e => exact hw₃
        | ok u =>
          refine reads_bind uses_loadAll hw₃.sound hw₃.later (fun _ _ => hw₃) fun after tr₅ _ => ?_
          exact reads_bind (Uses.ask trivial) hw₃.sound hw₃.later (fun _ _ => hw₃) fun now' tr₆ _ =>
            safe_ret.2 hw₃

/-! ## The start -/

theorem reconcileEach_spec {recs : List FeeRecord} (hs : Sound h strict w) (hl : Later h w₀ w)
    (hnodup : (recs.map FeeRecord.bidId).Nodup) (hr : ∀ rec ∈ recs, Read h tr w.dir rec) :
    Safe (Steps h strict w₀ m b) (reconcileEach h recs) (fun _ w' => Settled h strict w₀ w'.1) (w, tr) := by
  induction recs generalizing w tr with
  | nil => exact safe_ret.2 ⟨hs, hl⟩
  | cons rec recs ih =>
    have hread := hr rec (List.mem_cons_self ..)
    obtain ⟨hnew, hnodup⟩ := List.nodup_cons.1 hnodup
    unfold reconcileEach
    split
    · rename_i rec' hrec'
      obtain ⟨hb, hopen, hclosing⟩ : rec'.bidId = rec.bidId ∧ rec.isSettledForever = false ∧
          rec'.isClosing = true := by
        unfold interrupted at hrec'
        split at hrec'
        · rename_i hstate
          obtain rfl := Option.some.inj hrec'
          exact ⟨rfl, by simp [FeeRecord.isSettledForever, hstate], rfl⟩
        · cases hrec'
      refine Safe.bind ((safe_solo_grows (write_spec hs hl (hb ▸ hread.named) (fun old hold => ?_)
        fun _ _ => hclosing)).mono fun r w₁ hwrote => ?_)
      · rw [hb] at hold
        obtain rfl := Option.some.inj (hread.stored.symm.trans hold)
        exact hopen
      · obtain ⟨w₁, tr₁⟩ := w₁
        obtain ⟨hwrote, hpre⟩ := hwrote
        cases r with
        | error e => exact ⟨hwrote.sound, hwrote.later⟩
        | ok u =>
          refine ih hwrote.sound hwrote.later hnodup fun other hother => ?_
          have hother' := (hr other (List.mem_cons_of_mem _ hother)).mono hpre
          have hne : other.bidId ≠ rec'.bidId := fun heq =>
            hnew ((heq.trans hb) ▸ List.mem_map_of_mem hother)
          exact ⟨(hwrote.writing.beside.other hne).trans hother'.stored, hother'.named, hother'.seen⟩
    · exact ih hs hl hnodup fun other hother => hr other (List.mem_cons_of_mem _ hother)

theorem reconcileOnStart_spec (hs : Sound h strict w) (hl : Later h w₀ w) :
    Safe (Steps h strict w₀ m b) (reconcileOnStart h) (fun _ w' => Settled h strict w₀ w'.1) (w, tr) := by
  unfold reconcileOnStart
  refine Safe.bind ((loadAll_spec hs hl).mono fun r w₁ hload => ?_)
  obtain ⟨w₁, tr₁⟩ := w₁
  cases r with
  | error e => exact absurd hload id
  | ok out =>
    obtain ⟨hw₁, hnodup, hread⟩ := hload
    obtain rfl : w = w₁ := hw₁.symm
    exact Safe.ensure_bind (fun _ => ⟨hs, hl⟩) fun _ => reconcileEach_spec hs hl hnodup hread

/-- Nothing but the marker changed, which was not there in `w`. -/
structure Marking (w w' : World) : Prop where
  issued : w'.issued = w.issued
  dir : ∀ name, name ≠ baselineFile → w'.dir name = w.dir name
  fresh : w.dir baselineFile = none

theorem Marking.sound {w' : World} (hk : Marking w w') (hs : Sound h strict w) : Sound h strict w' := by
  have hrec : ∀ bid, record h w'.dir bid = record h w.dir bid := fun bid =>
    record_congr (hk.dir _ (baselineFile_ne_recordName bid).symm)
  refine ⟨fun name stem text rec hfile hsplit htext => ?_, fun hst => ?_, fun hst bid hb => ?_⟩
  · by_cases hname : name = baselineFile
    · subst hname
      exact absurd hsplit (splitExtension_baselineFile stem)
    · rw [hk.dir name hname] at hfile
      exact hs.named name stem text rec hfile hsplit htext
  · exact (atMostOnce_congr hk.issued).2 (hs.once hst)
  · obtain ⟨rec, hr, ho⟩ := hs.held hst bid ((broadcast_congr hk.issued).1 hb)
    exact ⟨rec, (hrec bid).trans hr, ho⟩

theorem Marking.later {w' : World} (hk : Marking w w') (hl : Later h w₀ w) : Later h w₀ w' := by
  refine hl.trans ⟨fun bid _ _ _ => hk.dir _ (baselineFile_ne_recordName bid).symm, fun e he => ?_⟩
  rw [hk.fresh] at he
  cases he

theorem Marking.put {w₁ w₂ : World} {entry : Entry String} (hk : Marking w w₁)
    (hi : w₂.issued = w₁.issued) (hdir : w₂.dir = w₁.dir.put baselineFile entry) : Marking w w₂ := by
  refine ⟨hi.trans hk.issued, fun name hname => ?_, hk.fresh⟩
  rw [hdir, Dir.put_ne _ _ hname, hk.dir name hname]

theorem Marking.going {w' : World} (hk : Marking w w') (hs : Sound h strict w) (hl : Later h w₀ w) {o : FeeOp}
    {r : o.Ans} (hq : Quiet o) : Going h strict w₀ m b w' (tr ++ [⟨o, r⟩]) :=
  .quiet (hk.sound hs).kept (hk.later hl) hq

theorem writeMarker_spec {text : String} (hs : Sound h strict w) (hl : Later h w₀ w)
    (hfresh : w.dir baselineFile = none) : Safe (Steps h strict w₀ m b) (writeFile baselineFile text)
      (fun r w' => Marking w w'.1 ∧ (r = .ok () → w'.1.dir baselineFile = some (.file text))) (w, tr) := by
  have hstart : Marking w w := ⟨rfl, fun _ _ => rfl, hfresh⟩
  have hcreated : ∀ {r : Except FsError Unit} {w₁ : World},
      FeeOp.does h strict (.fs (.create baselineFile)) r w w₁ → Marking w w₁ := by
    intro r w₁ hd
    obtain ⟨⟨hdir, hi⟩, _⟩ := hd
    cases r with
    | ok u =>
      obtain ⟨_, empty, hdir⟩ := hdir
      exact hstart.put hi hdir
    | error e => exact ⟨hi, fun name _ => by rw [hdir], hfresh⟩
  unfold writeFile
  refine safe_request_solo (fun r w₁ e hd _ => ?_) fun r w₁ _ hd _ => ?_
  · exact ⟨(hcreated hd).going hs hl trivial, hcreated hd, fun h => nomatch h⟩
  have hk₁ := hcreated hd
  refine ⟨hk₁.going hs hl trivial, safe_call_solo.2 fun r w₂ hd => ?_⟩
  obtain ⟨⟨hdir, hi⟩, _⟩ := hd
  cases r with
  | ok u =>
    have hk₂ := hk₁.put hi hdir
    exact ⟨hk₂.going hs hl trivial, safe_ret.2 ⟨hk₂, fun _ => by rw [hdir, Dir.put_self]⟩⟩
  | error e =>
    obtain ⟨part, hdir⟩ := hdir
    have hk₂ := hk₁.put hi hdir
    exact ⟨hk₂.going hs hl trivial, safe_fail.2 ⟨hk₂, fun h => nomatch h⟩⟩

theorem readOrCreateBaseline_spec (hs : Sound h strict w) (hl : Later h w₀ w) :
    Safe (Steps h strict w₀ m b) (readOrCreateBaseline h) (fun r w' => Settled h strict w₀ w'.1 ∧
      ∀ b, r = .ok b → StoredBaseline h w'.1.dir b) (w, tr) := by
  unfold readOrCreateBaseline
  have hfail : ∀ {w' : World} {e : String}, Settled h strict w₀ w' → Settled h strict w₀ w' ∧
      ∀ b, (.error e : Except String Int) = .ok b → StoredBaseline h w'.dir b :=
    fun hw => ⟨hw, fun _ h => nomatch h⟩
  refine safe_request_solo (fun r w' e hd _ => ?_) fun r w' found hd hj => ?_
  · obtain rfl := reads_does (o := .fs (.read baselineFile)) trivial hd
    exact ⟨.quiet hs.kept hl trivial, hfail ⟨hs, hl⟩⟩
  obtain rfl := reads_does (o := .fs (.read baselineFile)) trivial hd
  refine ⟨.quiet hs.kept hl trivial, ?_⟩
  cases r with
  | ok text =>
    dsimp only at hj
    split at hj
    · rename_i t ht
      obtain rfl := Except.ok.inj hj
      refine safe_ret.2 ⟨⟨hs, hl⟩, fun b hb => ?_⟩
      obtain rfl := Except.ok.inj hb
      exact ⟨text, t, hd.1.1.1, ht, rfl⟩
    · cases hj
  | error e =>
    cases e with
    | other e => cases hj
    | notFound =>
      obtain rfl := Except.ok.inj hj
      refine reads_bind (Uses.ask trivial) hs hl (fun _ _ => hfail ⟨hs, hl⟩) fun now tr₁ _ => ?_
      refine Safe.bind ((writeMarker_spec hs hl hd.1.1.1).mono fun r w₁ hw => ?_)
      obtain ⟨hk, htext⟩ := hw
      have hsettled : Settled h strict w₀ w₁.1 := ⟨hk.sound hs, hk.later hl⟩
      cases r with
      | error e => exact hfail hsettled
      | ok u =>
        refine safe_ret.2 ⟨hsettled, fun b hb => ?_⟩
        obtain rfl := Except.ok.inj hb
        exact ⟨_, now, htext rfl, h.parse_toRfc3339 now, rfl⟩

theorem startup_spec (hs : Sound h strict w) (hl : Later h w₀ w) :
    Safe (Steps h strict w₀ m b) (startup h) (fun r w' => Settled h strict w₀ w'.1 ∧
      ∀ b, r = .ok b → StoredBaseline h w'.1.dir b) (w, tr) := by
  unfold startup
  refine Safe.bind ((reconcileOnStart_spec hs hl).mono fun r w₁ hw => ?_)
  cases r with
  | error e => exact ⟨hw, fun _ h => nomatch h⟩
  | ok u => exact readOrCreateBaseline_spec hw.sound hw.later

end Fees
