import PwndaWallet.Fees.Runs

/-!
# What the ledger keeps

A write of a record goes through its temporary file, and takes the old record away before the new
one is in its place. What is true of the directory at each of these steps is one lemma (`write_spec`);
the rest of the watcher reads.
-/

namespace Fees

open Rust Tasks Tasks.Fs

/-! ## Names -/

theorem recordName_inj {a b : String} (hab : recordName a = recordName b) : a = b := by
  have hl := congrArg String.toList hab
  simp only [recordName, String.toList_append] at hl
  exact String.toList_inj.1 (List.append_cancel_right hl)

theorem recordName_ne {a b : String} (hab : a ≠ b) : recordName a ≠ recordName b :=
  fun h => hab (recordName_inj h)

theorem tmpName_inj {a b : String} (hab : tmpName a = tmpName b) : a = b := by
  have hl := congrArg String.toList hab
  simp only [tmpName, String.toList_append] at hl
  exact String.toList_inj.1 (List.append_cancel_right hl)

theorem recordName_ne_tmpName (a b : String) : recordName a ≠ tmpName b := by
  intro h
  have hl := congrArg (fun s => s.toList.getLast?) h
  simp [recordName, tmpName, List.getLast?_append] at hl

theorem baselineFile_ne_recordName (a : String) : baselineFile ≠ recordName a := by
  intro h
  have hl := congrArg (fun s => s.toList.getLast?) h
  simp [recordName, baselineFile, List.getLast?_append] at hl

theorem baselineFile_ne_tmpName (a : String) : baselineFile ≠ tmpName a := by
  intro h
  have hl := congrArg (fun s => s.toList.getLast?) h
  simp [tmpName, baselineFile, List.getLast?_append] at hl

theorem splitExtension_tmpName (a stem : String) : splitExtension (tmpName a) ≠ some (stem, "json") := by
  intro h
  have hl := congrArg (fun s => s.toList.getLast?) (of_splitExtension h)
  simp [tmpName, List.getLast?_append] at hl

theorem splitExtension_baselineFile (stem : String) : splitExtension baselineFile ≠ some (stem, "json") := by
  intro h
  have hl := congrArg (fun s => s.toList.getLast?) (of_splitExtension h)
  simp [baselineFile, List.getLast?_append] at hl

theorem safeId_idem {raw id : String} (hs : safeId raw = .ok id) : safeId id = .ok id := by
  have hid : id = trim raw := by
    unfold safeId at hs
    dsimp only at hs
    split at hs
    · cases hs
    · split at hs
      · cases hs
      · exact (Except.ok.inj hs).symm
  unfold safeId at hs ⊢
  dsimp only at hs ⊢
  rw [hid, trim_trim]
  split at hs
  · cases hs
  · rename_i hlen
    split at hs
    · cases hs
    · rename_i hall
      rw [if_neg hlen, if_neg hall]

theorem FeeRecord.not_settled_of_open {rec : FeeRecord} (ho : rec.isOpen = true) :
    rec.isSettledForever = false := by
  unfold FeeRecord.isOpen at ho
  unfold FeeRecord.isSettledForever
  split at ho <;> simp_all

theorem FeeRecord.not_open_of_closing {rec : FeeRecord} (hc : rec.isClosing = true) :
    rec.isOpen = false := by
  unfold FeeRecord.isClosing at hc
  unfold FeeRecord.isOpen
  split at hc <;> simp_all

variable (h : Host) (strict : Prop)

/-! ## What is true between two steps -/

/-- The record of the bid is not open. -/
def Held (d : Dir String) (bid : String) : Prop := ∃ rec, record h d bid = some rec ∧ rec.isOpen = false

/-- Between two writes: in a strict run the withdraws that may have been broadcast have a record that
is not open. -/
structure Sound (w : World) : Prop where
  named : Named h w.dir
  once : strict → AtMostOnce h w
  held : strict → ∀ bid, Broadcast h w bid → Held h w.dir bid

/-- At every step: or that record is in its temporary file. -/
structure Kept (w : World) : Prop where
  named : Named h w.dir
  once : strict → AtMostOnce h w
  held : strict → ∀ bid, Broadcast h w bid → Held h w.dir bid ∨ StrandedAt h w.dir bid

/-- What stays from one moment to every later one: the settled records, and the marker. -/
structure Later (w w' : World) : Prop where
  settled : ∀ bid rec, record h w.dir bid = some rec → rec.isSettledForever = true →
    w'.dir (recordName bid) = w.dir (recordName bid)
  marker : ∀ e, w.dir baselineFile = some e → w'.dir baselineFile = some e

/-- Nothing but the two files of the bid changed. -/
def Beside (bid : String) (d d' : Dir String) : Prop :=
  ∀ name, name ≠ recordName bid → name ≠ tmpName bid → d' name = d name

variable {h strict} {w w₀ w' : World} {d d' : Dir String} {bid : String}

theorem Sound.kept (hs : Sound h strict w) : Kept h strict w :=
  ⟨hs.named, hs.once, fun hst bid hb => .inl (hs.held hst bid hb)⟩

theorem Kept.sound (hk : Kept h strict w) (hn : strict → ¬ Stranded h w) : Sound h strict w :=
  ⟨hk.named, hk.once, fun hst bid hb => (hk.held hst bid hb).resolve_right fun hsa => hn hst ⟨bid, hb, hsa⟩⟩

theorem record_congr (hd : d' (recordName bid) = d (recordName bid)) : record h d' bid = record h d bid := by
  unfold record
  rw [hd]

theorem record_put {text : String} {rec : FeeRecord} (hd : d (recordName bid) = some (.file text))
    (ht : h.fromPretty text = .ok rec) : record h d bid = some rec := by
  simp [record, hd, ht, Except.toOption]

theorem of_record {rec : FeeRecord} (hr : record h d bid = some rec) :
    ∃ text, d (recordName bid) = some (.file text) ∧ h.fromPretty text = .ok rec := by
  unfold record at hr
  split at hr
  · rename_i text hd
    refine ⟨text, hd, ?_⟩
    cases ht : h.fromPretty text with
    | ok rec' =>
      rw [ht] at hr
      obtain rfl := Option.some.inj hr
      rfl
    | error e =>
      rw [ht] at hr
      cases hr
  · cases hr

theorem Later.refl (w : World) : Later h w w := ⟨fun _ _ _ _ => rfl, fun _ he => he⟩

theorem Later.trans {w₁ w₂ w₃ : World} (h₁ : Later h w₁ w₂) (h₂ : Later h w₂ w₃) : Later h w₁ w₃ := by
  refine ⟨fun bid rec hr hs => ?_, fun e he => h₂.marker e (h₁.marker e he)⟩
  have hd := h₁.settled bid rec hr hs
  exact (h₂.settled bid rec ((record_congr hd).trans hr) hs).trans hd

theorem Beside.refl (bid : String) (d : Dir String) : Beside bid d d := fun _ _ _ => rfl

theorem Beside.trans {d₁ d₂ d₃ : Dir String} (h₁ : Beside bid d₁ d₂) (h₂ : Beside bid d₂ d₃) :
    Beside bid d₁ d₃ := fun name hr ht => (h₂ name hr ht).trans (h₁ name hr ht)

theorem Beside.put_tmp (bid : String) (d : Dir String) (e : Entry String) :
    Beside bid d (d.put (tmpName bid) e) := fun _ _ ht => d.put_ne e ht

theorem Beside.erase_record (bid : String) (d : Dir String) : Beside bid d (d.erase (recordName bid)) :=
  fun _ hr _ => d.erase_ne hr

theorem Beside.renamed (bid : String) (d : Dir String) (e : Entry String) :
    Beside bid d ((d.erase (tmpName bid)).put (recordName bid) e) := by
  intro name hr ht
  rw [Dir.put_ne _ _ hr, Dir.erase_ne _ ht]

theorem Beside.other {bid' : String} (hb : Beside bid d d') (hne : bid' ≠ bid) :
    record h d' bid' = record h d bid' :=
  record_congr (hb _ (recordName_ne hne) (recordName_ne_tmpName _ _))

/-- What stays while the two files of a bid whose record is not settled change. -/
theorem Later.beside (hl : Later h w₀ w) (hb : Beside bid w.dir w'.dir)
    (ho : ∀ rec, record h w.dir bid = some rec → rec.isSettledForever = false) : Later h w₀ w' := by
  refine hl.trans ⟨fun bid' rec hr hs => ?_, fun e he => ?_⟩
  · by_cases hbid : bid' = bid
    · subst hbid
      rw [ho rec hr] at hs
      cases hs
    · exact hb _ (recordName_ne hbid) (recordName_ne_tmpName _ _)
  · rw [hb _ (baselineFile_ne_recordName _) (baselineFile_ne_tmpName _)]
    exact he

/-- A new record is named by its bid, if that is one. -/
theorem Named.beside {rec : FeeRecord} (hn : Named h d) (hb : Beside bid d d')
    (hid : safeId bid = .ok bid) (hrec : rec.bidId = bid)
    (hd : d' (recordName bid) = d (recordName bid) ∨ d' (recordName bid) = none ∨
      ∃ text, d' (recordName bid) = some (.file text) ∧ h.fromPretty text = .ok rec) : Named h d' := by
  intro name stem text rec' hfile hsplit htext
  by_cases hname : name = recordName bid
  · subst hname
    rcases hd with hd | hd | ⟨text', hd, ht'⟩
    · exact hn _ stem text rec' (hd ▸ hfile) hsplit htext
    · rw [hd] at hfile
      cases hfile
    · rw [hd] at hfile
      obtain rfl := Entry.file.inj (Option.some.inj hfile)
      obtain rfl := Except.ok.inj (ht'.symm.trans htext)
      rw [hrec]
      exact ⟨rfl, hid⟩
  · by_cases htmp : name = tmpName bid
    · subst htmp
      exact absurd hsplit (splitExtension_tmpName _ _)
    · exact hn name stem text rec' ((hb name hname htmp) ▸ hfile) hsplit htext

theorem broadcast_congr (hi : w'.issued = w.issued) : Broadcast h w' bid ↔ Broadcast h w bid := by
  unfold Broadcast
  rw [hi]

theorem atMostOnce_congr (hi : w'.issued = w.issued) : AtMostOnce h w' ↔ AtMostOnce h w := by
  unfold AtMostOnce
  rw [hi]

/-- The state of a write of `rec`, which began in `w`. -/
structure Writing (h : Host) (rec : FeeRecord) (w w' : World) : Prop where
  issued : w'.issued = w.issued
  beside : Beside rec.bidId w.dir w'.dir

section
variable {rec : FeeRecord} {text : String}

/-- The old record is in its place. -/
theorem Writing.before (hw : Writing h rec w w') (hs : Sound h strict w)
    (hid : safeId rec.bidId = .ok rec.bidId)
    (hd : w'.dir (recordName rec.bidId) = w.dir (recordName rec.bidId)) : Sound h strict w' := by
  refine ⟨hs.named.beside hw.beside hid rfl (.inl hd), fun hst => ?_, fun hst bid hb => ?_⟩
  · exact (atMostOnce_congr hw.issued).2 (hs.once hst)
  · obtain ⟨rec', hr, ho⟩ := hs.held hst bid ((broadcast_congr hw.issued).1 hb)
    refine ⟨rec', ?_, ho⟩
    by_cases hbid : bid = rec.bidId
    · subst hbid
      exact (record_congr hd).trans hr
    · exact (hw.beside.other hbid).trans hr

/-- It is taken away. -/
theorem Writing.between (hw : Writing h rec w w') (hs : Sound h strict w)
    (hid : safeId rec.bidId = .ok rec.bidId) (hd : w'.dir (recordName rec.bidId) = none)
    (htmp : w'.dir (tmpName rec.bidId) = some (.file text)) (ht : h.fromPretty text = .ok rec)
    (hc : strict → Broadcast h w rec.bidId → rec.isClosing = true) : Kept h strict w' := by
  refine ⟨hs.named.beside hw.beside hid rfl (.inr (.inl hd)), fun hst => ?_, fun hst bid hb => ?_⟩
  · exact (atMostOnce_congr hw.issued).2 (hs.once hst)
  · have hb' := (broadcast_congr hw.issued).1 hb
    by_cases hbid : bid = rec.bidId
    · subst hbid
      exact .inr ⟨hd, text, rec, htmp, ht, hc hst hb'⟩
    · obtain ⟨rec', hr, ho⟩ := hs.held hst bid hb'
      exact .inl ⟨rec', (hw.beside.other hbid).trans hr, ho⟩

/-- The new record is in its place. -/
theorem Writing.after (hw : Writing h rec w w') (hs : Sound h strict w)
    (hid : safeId rec.bidId = .ok rec.bidId)
    (hd : w'.dir (recordName rec.bidId) = some (.file text)) (ht : h.fromPretty text = .ok rec)
    (hc : strict → Broadcast h w rec.bidId → rec.isClosing = true) : Sound h strict w' := by
  refine ⟨hs.named.beside hw.beside hid rfl (.inr (.inr ⟨text, hd, ht⟩)), fun hst => ?_,
    fun hst bid hb => ?_⟩
  · exact (atMostOnce_congr hw.issued).2 (hs.once hst)
  · have hb' := (broadcast_congr hw.issued).1 hb
    by_cases hbid : bid = rec.bidId
    · subst hbid
      exact ⟨rec, record_put hd ht, FeeRecord.not_open_of_closing (hc hst hb')⟩
    · obtain ⟨rec', hr, ho⟩ := hs.held hst bid hb'
      exact ⟨rec', (hw.beside.other hbid).trans hr, ho⟩

end

/-! ## The logic of a step -/

/-- Not a withdraw. -/
def Quiet : FeeOp → Prop
  | .post _ _ _ => False
  | _ => True

/-- What holds after every answer in a pass that began in `w₀`. -/
structure Going (h : Host) (strict : Prop) (w₀ : World) (m : Mode) (b : Int) (w : World)
    (tr : List (Ev FeeOp.Ans)) : Prop where
  kept : Kept h strict w
  later : Later h w₀ w
  owed : ∀ pre bid path body r, tr = pre ++ [⟨.post bid path body, r⟩] → Owed h m b pre w.dir bid path body

theorem Going.quiet {m : Mode} {b : Int} {tr : List (Ev FeeOp.Ans)} {o : FeeOp} {r : o.Ans}
    (hk : Kept h strict w) (hl : Later h w₀ w) (hq : Quiet o) : Going h strict w₀ m b w (tr ++ [⟨o, r⟩]) := by
  refine ⟨hk, hl, fun pre bid path body r' heq => ?_⟩
  obtain ⟨_, he⟩ := List.append_inj' heq rfl
  obtain ⟨ho, _⟩ := Ev.mk.inj (List.singleton_inj.1 he)
  subst ho
  exact absurd hq id

abbrev Steps (h : Host) (strict : Prop) (w₀ : World) (m : Mode) (b : Int) :=
  Logic.solo (FeeOp.does h strict) (Going h strict w₀ m b)

/-- What a write of `rec` leaves. -/
structure Wrote (h : Host) (strict : Prop) (w₀ : World) (rec : FeeRecord) (w : World) (r : Except String Unit)
    (w' : World) : Prop where
  sound : Sound h strict w'
  later : Later h w₀ w'
  writing : Writing h rec w w'
  done : r = .ok () → record h w'.dir rec.bidId = some rec

section
variable {m : Mode} {b : Int} {tr : List (Ev FeeOp.Ans)}

theorem write_spec {rec : FeeRecord} (hs : Sound h strict w) (hl : Later h w₀ w)
    (hid : safeId rec.bidId = .ok rec.bidId)
    (ho : ∀ rec', record h w.dir rec.bidId = some rec' → rec'.isSettledForever = false)
    (hc : strict → Broadcast h w rec.bidId → rec.isClosing = true) :
    Safe (Steps h strict w₀ m b) (write h rec) (fun r w' => Wrote h strict w₀ rec w r w'.1) (w, tr) := by
  have hstart : Writing h rec w w := ⟨rfl, .refl _ _⟩
  -- a failure before the old record is taken away
  have hfail : ∀ {w' : World} {e : String}, Writing h rec w w' →
      w'.dir (recordName rec.bidId) = w.dir (recordName rec.bidId) → Wrote h strict w₀ rec w (.error e) w' :=
    fun hw hd => ⟨hw.before hs hid hd, hl.beside hw.beside ho, hw, fun h => nomatch h⟩
  have hgoing : ∀ {w' : World} {o : FeeOp} {r : o.Ans} {tr' : List (Ev FeeOp.Ans)}, Writing h rec w w' →
      Kept h strict w' → Quiet o → Going h strict w₀ m b w' (tr' ++ [⟨o, r⟩]) :=
    fun hw hk hq => .quiet hk (hl.beside hw.beside ho) hq
  simp only [write, writeFile, hid, Prog.bind_eq, Prog.bind_assoc, Prog.ofExcept_ok_bind]
  refine Safe.ofExcept_bind (fun e _ => hfail hstart rfl) fun text htext => ?_
  have ht : h.fromPretty text = .ok rec := by
    cases hp : h.toPretty rec with
    | ok text' =>
      rw [hp] at htext
      obtain rfl := Except.ok.inj htext
      exact h.fromPretty_toPretty hp
    | error e =>
      rw [hp] at htext
      cases htext
  have hne := recordName_ne_tmpName rec.bidId rec.bidId
  -- the temporary file is made
  have htmp : ∀ {w₁ w' : World} {e : Entry String}, Writing h rec w w₁ →
      w₁.dir (recordName rec.bidId) = w.dir (recordName rec.bidId) →
      w'.dir = w₁.dir.put (tmpName rec.bidId) e → w'.issued = w₁.issued →
      Writing h rec w w' ∧ w'.dir (recordName rec.bidId) = w.dir (recordName rec.bidId) := by
    intro w₁ w' e hw hd hdir hi
    refine ⟨⟨hi.trans hw.issued, hw.beside.trans ?_⟩, ?_⟩
    · rw [hdir]
      exact .put_tmp _ _ _
    · rw [hdir, Dir.put_ne _ _ hne, hd]
  have hmade : ∀ {r : Except FsError Unit} {w₁ : World},
      FeeOp.does h strict (.fs (.create (tmpName rec.bidId))) r w w₁ →
      Writing h rec w w₁ ∧ w₁.dir (recordName rec.bidId) = w.dir (recordName rec.bidId) := by
    intro r w₁ hdoes
    obtain ⟨⟨hdir, hi⟩, _⟩ := hdoes
    cases r with
    | ok u =>
      obtain ⟨_, empty, hdir⟩ := hdir
      exact htmp hstart rfl hdir hi
    | error e => exact ⟨⟨hi, by rw [hdir]; exact .refl _ _⟩, by rw [hdir]⟩
  refine safe_request_solo (fun r w₁ e hdoes _ => ?_) fun r w₁ _ hdoes _ => ?_
  · obtain ⟨hw, hd⟩ := hmade hdoes
    exact ⟨hgoing hw (hw.before hs hid hd).kept trivial, hfail hw hd⟩
  obtain ⟨hw₁, hd₁⟩ := hmade hdoes
  refine ⟨hgoing hw₁ (hw₁.before hs hid hd₁).kept trivial, ?_⟩
  -- it is written
  have hwritten : ∀ {r : Except FsError Unit} {w₂ : World},
      FeeOp.does h strict (.fs (.write (tmpName rec.bidId) text)) r w₁ w₂ →
      Writing h rec w w₂ ∧ w₂.dir (recordName rec.bidId) = w.dir (recordName rec.bidId) ∧
        (r = .ok () → w₂.dir (tmpName rec.bidId) = some (.file text)) := by
    intro r w₂ hdoes
    obtain ⟨⟨hdir, hi⟩, _⟩ := hdoes
    cases r with
    | ok u =>
      obtain ⟨hw, hd⟩ := htmp hw₁ hd₁ hdir hi
      exact ⟨hw, hd, fun _ => by rw [hdir, Dir.put_self]⟩
    | error e =>
      obtain ⟨part, hdir⟩ := hdir
      obtain ⟨hw, hd⟩ := htmp hw₁ hd₁ hdir hi
      exact ⟨hw, hd, fun h => nomatch h⟩
  refine safe_request_solo (fun r w₂ e hdoes _ => ?_) fun r w₂ _ hdoes hr => ?_
  · obtain ⟨hw, hd, _⟩ := hwritten hdoes
    exact ⟨hgoing hw (hw.before hs hid hd).kept trivial, hfail hw hd⟩
  obtain ⟨hw₂, hd₂, hfile₂⟩ := hwritten hdoes
  have hfile₂ : w₂.dir (tmpName rec.bidId) = some (.file text) := by
    cases r with
    | ok u => exact hfile₂ rfl
    | error e => cases hr
  refine ⟨hgoing hw₂ (hw₂.before hs hid hd₂).kept trivial, ?_⟩
  -- the old record is taken away, or stays if that fails
  refine safe_request_solo (fun r w₃ e _ hr => nomatch hr) fun r w₃ _ hdoes _ => ?_
  have hremoved : Writing h rec w w₃ ∧ w₃.dir (tmpName rec.bidId) = some (.file text) ∧
      (w₃.dir (recordName rec.bidId) = w.dir (recordName rec.bidId) ∨
        w₃.dir (recordName rec.bidId) = none) := by
    obtain ⟨⟨hdir, hi⟩, _⟩ := hdoes
    cases r with
    | ok u =>
      obtain ⟨_, hdir⟩ := hdir
      refine ⟨⟨hi.trans hw₂.issued, hw₂.beside.trans ?_⟩, ?_, .inr ?_⟩
      · rw [hdir]
        exact .erase_record _ _
      · rw [hdir, Dir.erase_ne _ hne.symm, hfile₂]
      · rw [hdir, Dir.erase_self]
    | error e =>
      obtain ⟨_, hdir⟩ := hdir
      refine ⟨⟨hi.trans hw₂.issued, ?_⟩, ?_, .inl ?_⟩
      · rw [hdir]
        exact hw₂.beside
      · rw [hdir, hfile₂]
      · rw [hdir, hd₂]
  obtain ⟨hw₃, hfile₃, hd₃⟩ := hremoved
  have hkept₃ : Kept h strict w₃ := by
    rcases hd₃ with hd₃ | hd₃
    · exact (hw₃.before hs hid hd₃).kept
    · exact hw₃.between hs hid hd₃ hfile₃ ht hc
  refine ⟨hgoing hw₃ hkept₃ trivial, ?_⟩
  -- the new one is put in its place
  refine safe_call_solo.2 fun r w₄ hdoes => ?_
  obtain ⟨⟨hdir, hi⟩, hharmless⟩ := hdoes
  cases r with
  | ok u =>
    obtain ⟨content, hcontent, _, hdir⟩ := hdir
    obtain rfl := Entry.file.inj (Option.some.inj (hcontent.symm.trans hfile₃))
    have hw₄ : Writing h rec w w₄ := by
      refine ⟨hi.trans hw₃.issued, hw₃.beside.trans ?_⟩
      rw [hdir]
      exact .renamed _ _ _
    have hfile₄ : w₄.dir (recordName rec.bidId) = some (.file content) := by rw [hdir, Dir.put_self]
    have hs₄ := hw₄.after hs hid hfile₄ ht hc
    exact ⟨hgoing hw₄ hs₄.kept trivial,
      safe_ret.2 ⟨hs₄, hl.beside hw₄.beside ho, hw₄, fun _ => record_put hfile₄ ht⟩⟩
  | error e =>
    have hw₄ : Writing h rec w w₄ := by
      refine ⟨hi.trans hw₃.issued, ?_⟩
      rw [hdir]
      exact hw₃.beside
    have hkept₄ : Kept h strict w₄ := by
      rcases hd₃ with hd₃ | hd₃
      · exact (hw₄.before hs hid (by rw [hdir, hd₃])).kept
      · exact hw₄.between hs hid (by rw [hdir, hd₃]) (by rw [hdir, hfile₃]) ht hc
    have hs₄ : Sound h strict w₄ := hkept₄.sound fun hst hsa => hharmless hst (by
      obtain ⟨bid, hb, hat⟩ := hsa
      refine ⟨bid, (broadcast_congr hi).1 hb, ?_⟩
      rw [← hdir]
      exact hat)
    exact ⟨hgoing hw₄ hkept₄ trivial,
      safe_fail.2 ⟨hs₄, hl.beside hw₄.beside ho, hw₄, fun h => nomatch h⟩⟩

end

end Fees
