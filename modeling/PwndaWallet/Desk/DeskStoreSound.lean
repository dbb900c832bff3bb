import PwndaWallet.Desk.DeskStore
import PwndaWallet.Lib.Result

/-!
# The desk store is a map

`store_refines`: over every run, with crashes and foreign files, a load answers what the last
effective save of its id left, and `loadAll` answers all of that, each record once. A save that a
crash cuts off is effective if its rename was made.
-/

namespace DeskStore

open Desk Rust Tasks Tasks.Fs

/-! ## Names -/

theorem validId_ne_nil {id : String} (h : validId id = true) : id.toList ≠ [] := by
  simp only [validId, Bool.and_eq_true, bne_iff_ne] at h
  intro hnil
  exact h.1.1 (String.toList_inj.1 (by simpa using hnil))

theorem validateId_ok {id id' : String} (h : validateId id = .ok id') : validId id = true ∧ id = id' := by
  unfold validateId at h
  split at h
  · rename_i hv
    exact ⟨hv, Except.ok.inj h⟩
  · cases h

theorem encPath_inj {id id' : String} (h : encPath id = encPath id') : id = id' := by
  have := congrArg String.toList h
  simp only [encPath, String.toList_append, List.append_cancel_right_eq] at this
  exact String.toList_inj.1 this

theorem tmpPath_ne_encPath (id id' : String) : tmpPath id ≠ encPath id' := by
  intro h
  have := congrArg (fun s => s.toList.reverse.head?) h
  simp [tmpPath, encPath] at this

theorem encPath_eq (id : String) : encPath id = id ++ "." ++ "enc" := by
  rw [encPath, String.append_assoc]
  rfl

theorem entryId_encPath {id : String} (h : validId id = true) : entryId (encPath id) = some id := by
  simp [entryId, encPath_eq, splitExtension_append (validId_ne_nil h) (by decide : '.' ∉ "enc".toList), h]

theorem of_entryId {name id : String} (h : entryId name = some id) :
    name = encPath id ∧ validId id = true := by
  unfold entryId at h
  split at h
  · rename_i stem hs
    split at h
    · rename_i hv
      obtain rfl := Option.some.inj h
      refine ⟨?_, hv⟩
      rw [of_splitExtension hs, encPath_eq]
    · cases h
  · cases h

/-! ## What the directory holds -/

/-- Every record is under its own id. -/
def Owned (m : String → Option StoredSwap) : Prop := ∀ id rec, m id = some rec → rec.swapId = id

section
variable (A : Aead) (C : Codec)

/-- The record that the directory holds for `id`. -/
def held (d : Dir (List UInt8)) (id : String) : Option StoredSwap :=
  if validId id then
    match d (encPath id) with
    | some (.file blob) => (openBlob A C id blob).toOption
    | _ => none
  else none

end

section
variable {A : Aead} {C : Codec} {d d' : Dir (List UInt8)} {id : String}

/-- What is held depends on the files with the names of records only. -/
theorem held_congr (h : ∀ id, d' (encPath id) = d (encPath id)) : held A C d' = held A C d := by
  funext id
  simp only [held, h id]

theorem held_put_tmp (e : Entry (List UInt8)) (id' : String) :
    held A C (d.put (tmpPath id') e) = held A C d :=
  held_congr fun id => d.put_ne e (tmpPath_ne_encPath id' id).symm

/-- A blob that was sealed for `id` opens for it. -/
theorem openBlob_sealed {nonce bytes ct : List UInt8} {rec : StoredSwap} (hn : nonce.length = 12)
    (hv : C.toVec rec = .ok bytes) (he : A.encrypt nonce id bytes = .ok ct) :
    openBlob A C id (nonce ++ ct) = .ok rec := by
  have hlen : ¬ (nonce ++ ct).length < 12 + 16 := by
    have := A.tagged he
    simp only [List.length_append]
    omega
  have htake : (nonce ++ ct).take 12 = nonce := by rw [← hn]; exact List.take_left
  have hdrop : (nonce ++ ct).drop 12 = ct := by rw [← hn]; exact List.drop_left
  simp only [openBlob, decrypt, if_neg hlen, htake, hdrop, A.opens he, decode, C.fromSlice_toVec hv]

theorem openBlob_foreign {blob : List UInt8} (h : Foreign A id blob) :
    (openBlob A C id blob).toOption = none := by
  have hnone : A.decrypt (blob.take 12) id (blob.drop 12) = none := by
    rcases h with h | ⟨other, hne, hsome⟩
    · exact h id
    · obtain ⟨msg, hmsg⟩ := Option.ne_none_iff_exists'.1 hsome
      cases hid : A.decrypt (blob.take 12) id (blob.drop 12) with
      | none => rfl
      | some msg' => exact absurd (A.bound hmsg hid) hne
  unfold openBlob decrypt
  split
  · rename_i hd
    split at hd
    · cases hd
    · rw [hnone] at hd
      cases hd
  · rfl

theorem held_foreign (h : ∀ blob, d (encPath id) = some (.file blob) → Foreign A id blob) :
    held A C d id = none := by
  unfold held
  split
  · split
    · rename_i blob hd
      exact openBlob_foreign (h blob hd)
    · rfl
  · rfl

/-! ## The operations, step by step -/

/-- The rename of a save was made. -/
def renamed (tr : List (Ev StoreOp.Ans)) : Bool :=
  tr.any fun
    | ⟨.fs (.rename _ _), .ok _⟩ => true
    | _ => false

/-- The file of a removal is gone. -/
def removed (tr : List (Ev StoreOp.Ans)) : Bool :=
  tr.any fun
    | ⟨.fs (.remove _), .ok _⟩ => true
    | ⟨.fs (.remove _), .error .notFound⟩ => true
    | _ => false

/-- `m` with a record, or without one. -/
def update (m : String → Option StoredSwap) (id : String) (v : Option StoredSwap) :
    String → Option StoredSwap := fun i => if i = id then v else m i

theorem renamed_snoc (tr : List (Ev StoreOp.Ans)) (e : Ev StoreOp.Ans) :
    renamed (tr ++ [e]) = (renamed tr || renamed [e]) := by
  simp [renamed, List.any_append]

theorem rename_made (tr : List (Ev StoreOp.Ans)) (source target : String) (u : Unit) :
    renamed (tr ++ [⟨.fs (.rename source target), .ok u⟩]) = true := by
  rw [renamed_snoc]
  exact Bool.or_true _

theorem rename_failed {tr : List (Ev StoreOp.Ans)} (source target : String) (e : FsError)
    (h : renamed tr = false) : renamed (tr ++ [⟨.fs (.rename source target), .error e⟩]) = false := by
  rw [renamed_snoc, h]
  rfl

/-- What a save has done to the records, wherever it is cut off. -/
def SaveInv (A : Aead) (C : Codec) (rec : StoredSwap) (d d' : Dir (List UInt8))
    (tr : List (Ev StoreOp.Ans)) : Prop :=
  held A C d' = if renamed tr then update (held A C d) rec.swapId (some rec) else held A C d

theorem saveInv_before {rec : StoredSwap} {tr : List (Ev StoreOp.Ans)} (hr : renamed tr = false)
    (hd : ∀ id, d' (encPath id) = d (encPath id)) : SaveInv A C rec d d' tr := by
  unfold SaveInv
  rw [hr]
  exact held_congr hd

/-- The rename makes the record the one that is held for its id. -/
theorem held_rename {rec : StoredSwap} {nonce bytes ct : List UInt8}
    (hid : validId rec.swapId = true) (hn : nonce.length = 12) (hv : C.toVec rec = .ok bytes)
    (he : A.encrypt nonce rec.swapId bytes = .ok ct)
    (hframe : ∀ id, id ≠ rec.swapId → d' (encPath id) = d (encPath id))
    (hnew : d' (encPath rec.swapId) = some (.file (nonce ++ ct))) :
    held A C d' = update (held A C d) rec.swapId (some rec) := by
  funext id
  unfold update
  by_cases hi : id = rec.swapId
  · subst hi
    simp only [held, hid, hnew, openBlob_sealed hn hv he, if_true]
    rfl
  · simp only [held, hframe id hi, if_neg hi]

/-- A step of a save before its rename: whatever it is answered, no record is touched. -/
theorem safe_step_before {rec : StoredSwap} {w : Dir (List UInt8)} {tr : List (Ev StoreOp.Ans)}
    {β γ : Type} {o : StoreOp} {judge : o.Ans → Except StoreError γ} {k : γ → StoreProg β}
    {R : Except StoreError β → Dir (List UInt8) × List (Ev StoreOp.Ans) → Prop}
    (htr : renamed tr = false) (hw : ∀ id, w (encPath id) = d (encPath id))
    (hstep : ∀ r w', StoreOp.does o r w w' →
      renamed [⟨o, r⟩] = false ∧ ∀ id, w' (encPath id) = w (encPath id))
    (hfail : ∀ e w tr, renamed tr = false → R (.error e) (w, tr))
    (hk : ∀ r w' a, StoreOp.does o r w w' → judge r = .ok a → renamed (tr ++ [⟨o, r⟩]) = false →
      (∀ id, w' (encPath id) = d (encPath id)) →
      Safe (.solo StoreOp.does (SaveInv A C rec d)) (k a) R (w', tr ++ [⟨o, r⟩])) :
    Safe (.solo StoreOp.does (SaveInv A C rec d)) ((Prog.request o judge).bind k) R (w, tr) := by
  have hafter : ∀ r w', StoreOp.does o r w w' →
      renamed (tr ++ [⟨o, r⟩]) = false ∧ ∀ id, w' (encPath id) = d (encPath id) := by
    intro r w' hd
    obtain ⟨hr, hframe⟩ := hstep r w' hd
    exact ⟨by rw [renamed_snoc, htr, hr]; rfl, fun id => (hframe id).trans (hw id)⟩
  refine safe_request_solo (fun r w' e hd _ => ?_) fun r w' a hd hj => ?_
  · obtain ⟨hr, hframe⟩ := hafter r w' hd
    exact ⟨saveInv_before hr hframe, hfail e w' _ hr⟩
  · obtain ⟨hr, hframe⟩ := hafter r w' hd
    exact ⟨saveInv_before hr hframe, hk r w' a hd hj hr hframe⟩

theorem put_tmp_frame (w : Dir (List UInt8)) (id : String) (e : Entry (List UInt8)) (i : String) :
    (w.put (tmpPath id) e) (encPath i) = w (encPath i) := w.put_ne e (tmpPath_ne_encPath id i).symm

theorem encrypt_spec {rec : StoredSwap} {bytes : List UInt8}
    {Q : Except StoreError (List UInt8) → Dir (List UInt8) × List (Ev StoreOp.Ans) → Prop}
    (hfail : ∀ e w tr, renamed tr = false → Q (.error e) (w, tr))
    (hok : ∀ nonce ct tr, nonce.length = 12 → A.encrypt nonce rec.swapId bytes = .ok ct →
      renamed tr = false → Q (.ok (nonce ++ ct)) (d, tr)) :
    Safe (.solo StoreOp.does (SaveInv A C rec d)) (encrypt A rec.swapId bytes) Q (d, []) := by
  unfold encrypt
  simp only [Prog.bind_eq, Prog.pure_eq]
  refine safe_step_before rfl (fun _ => rfl) (fun r w' hd => ?_) hfail fun r w' nonce hd hj hr _ => ?_
  · cases r with
    | ok nonce => obtain ⟨_, rfl⟩ := hd; exact ⟨rfl, fun _ => rfl⟩
    | error e => obtain rfl := hd; exact ⟨rfl, fun _ => rfl⟩
  · obtain rfl := ok_of_mapError hj
    obtain ⟨hlen, rfl⟩ : nonce.length = 12 ∧ w' = d := hd
    refine Safe.ofExcept_bind (fun e _ => hfail e _ _ hr) fun ct hct => ?_
    exact safe_ret.2 (hok nonce ct _ hlen (ok_of_mapError hct) hr)

theorem save_spec (A : Aead) (C : Codec) (rec : StoredSwap) (d : Dir (List UInt8)) :
    Safe (.solo StoreOp.does (SaveInv A C rec d)) (save A C rec)
      (fun r w => renamed w.2 = r.isOk) (d, []) := by
  unfold save
  simp only [Prog.bind_eq]
  refine Safe.ofExcept_bind (fun e _ => rfl) fun id hid => ?_
  obtain ⟨hvalid, rfl⟩ := validateId_ok hid
  refine Safe.ofExcept_bind (fun e _ => rfl) fun bytes hbytes => ?_
  refine Safe.bind (encrypt_spec (fun e w tr hr => hr) fun nonce ct tr hlen hseal htr => ?_)
  -- the file is made, written and synced under its temporary name
  refine safe_step_before htr (fun _ => rfl) (fun r w hd => ?_) (fun e w tr hr => hr)
    fun r w₁ _ _ _ hr₁ hw₁ => ?_
  · cases r with
    | ok u => obtain ⟨_, _, rfl⟩ := hd; exact ⟨rfl, put_tmp_frame _ _ _⟩
    | error e => obtain rfl := hd; exact ⟨rfl, fun _ => rfl⟩
  refine safe_step_before hr₁ hw₁ (fun r w hd => ?_) (fun e w tr hr => hr)
    fun r w₂ _ hd₂ hj₂ hr₂ hw₂ => ?_
  · cases r with
    | ok u => obtain rfl := hd; exact ⟨rfl, put_tmp_frame _ _ _⟩
    | error e => obtain ⟨_, rfl⟩ := hd; exact ⟨rfl, put_tmp_frame _ _ _⟩
  obtain rfl := ok_of_mapError hj₂
  obtain rfl : w₂ = w₁.put (tmpPath rec.swapId) (.file (nonce ++ ct)) := hd₂
  refine safe_step_before hr₂ hw₂ (fun r w hd => ?_) (fun e w tr hr => hr)
    fun r w₃ _ hd₃ hj₃ hr₃ hw₃ => ?_
  · obtain rfl := hd
    exact ⟨rfl, fun _ => rfl⟩
  obtain rfl : w₃ = w₁.put (tmpPath rec.swapId) (.file (nonce ++ ct)) := hd₃
  refine safe_call_solo.2 fun r w₄ hd₄ => ?_
  cases r with
  | error e =>
    obtain rfl := hd₄
    have hr₄ := rename_failed (tmpPath rec.swapId) (encPath rec.swapId) e hr₃
    exact ⟨saveInv_before hr₄ hw₃, safe_fail.2 hr₄⟩
  | ok u =>
    obtain ⟨blob, hblob, _, rfl⟩ := hd₄
    obtain rfl : nonce ++ ct = blob := by simpa using hblob
    refine ⟨?_, safe_ret.2 (rename_made _ _ _ u)⟩
    unfold SaveInv
    rw [rename_made, if_pos rfl]
    refine held_rename hvalid hlen (ok_of_mapError hbytes) hseal (fun id hid => ?_) ?_
    · rw [Dir.put_ne _ _ (fun h => hid (encPath_inj h)), Dir.erase_ne _ (tmpPath_ne_encPath _ _).symm]
      exact hw₃ id
    · rw [Dir.put_self]

/-- What a removal has done to the records, wherever it is cut off. -/
def RemoveInv (A : Aead) (C : Codec) (id : String) (d d' : Dir (List UInt8))
    (tr : List (Ev StoreOp.Ans)) : Prop :=
  held A C d' = if removed tr then update (held A C d) id none else held A C d

/-- Without its file, the record is not held any more. -/
theorem held_without {d₁ : Dir (List UInt8)} (hgone : ∀ blob, d₁ (encPath id) ≠ some (.file blob))
    (hframe : ∀ i, i ≠ id → d₁ (encPath i) = d (encPath i)) :
    held A C d₁ = update (held A C d) id none := by
  funext i
  unfold update
  by_cases hi : i = id
  · subst hi
    rw [if_pos rfl]
    exact held_foreign fun blob hb => absurd hb (hgone blob)
  · simp only [held, hframe i hi, if_neg hi]

theorem remove_spec (A : Aead) (C : Codec) (id : String) (d : Dir (List UInt8)) :
    Safe (.solo StoreOp.does (RemoveInv A C id d)) (remove id)
      (fun r w => removed w.2 = r.isOk) (d, []) := by
  unfold remove
  simp only [Prog.bind_eq]
  refine Safe.ofExcept_bind (fun e _ => rfl) fun id' hid => ?_
  obtain ⟨_, rfl⟩ := validateId_ok hid
  refine safe_call_solo.2 fun r w hd => ?_
  cases r with
  | ok u =>
    obtain ⟨_, rfl⟩ := hd
    refine ⟨held_without (fun blob => by simp) fun i hi => ?_, safe_ret.2 rfl⟩
    exact d.erase_ne fun h => hi (encPath_inj h)
  | error e =>
    obtain ⟨hnone, rfl⟩ := hd
    cases e with
    | notFound =>
      refine ⟨held_without (fun blob => ?_) fun _ _ => rfl, safe_ret.2 rfl⟩
      rw [hnone rfl]
      exact fun h => nomatch h
    | other e => exact ⟨rfl, safe_fail.2 rfl⟩

/-- What is asked in between by a task that only looks. -/
def Looks (d d' : Dir (List UInt8)) (_ : List (Ev StoreOp.Ans)) : Prop := d' = d

theorem held_file {blob : List UInt8} (hv : validId id = true) (hd : d (encPath id) = some (.file blob)) :
    held A C d id = (openBlob A C id blob).toOption := by
  simp [held, hv, hd]

/-- A file that cannot be read does not hold a record. -/
theorem held_unread {e : FsError} (h : FsOp.does False (.read (encPath id)) (.error e) d d') :
    d' = d ∧ held A C d id = none := by
  cases e with
  | notFound =>
    obtain ⟨hnone, rfl⟩ := h
    exact ⟨rfl, held_foreign fun blob hb => by rw [hnone] at hb; cases hb⟩
  | other e =>
    obtain ⟨hfolder, rfl⟩ := h
    refine ⟨rfl, held_foreign fun blob hb => ?_⟩
    rw [hfolder.resolve_left not_false] at hb
    cases hb

theorem load_spec (A : Aead) (C : Codec) (id : String) (d : Dir (List UInt8)) :
    Safe (.solo StoreOp.does (Looks d)) (load A C id)
      (fun r _ => match r with
        | .ok rec => held A C d id = some rec
        | .error _ => held A C d id = none) (d, []) := by
  unfold load
  simp only [Prog.bind_eq]
  refine Safe.ofExcept_bind (fun e he => ?_) fun id' hid => ?_
  · have hv : validId id ≠ true := by
      intro hv
      simp [validateId, hv] at he
    simp [held, hv]
  obtain ⟨hv, rfl⟩ := validateId_ok hid
  refine safe_request_solo (fun r w e hd hj => ?_) fun r w blob hd hj => ?_
  · cases r with
    | ok b => cases hj
    | error e => exact held_unread hd
  · obtain rfl := ok_of_mapError hj
    obtain ⟨hblob, rfl⟩ := hd
    refine ⟨rfl, Safe.ofExcept ?_⟩
    rw [held_file hv hblob]
    cases openBlob A C id blob with
    | ok rec => rfl
    | error e => rfl

/-- The record that a directory entry stands for. -/
def entryRecord (A : Aead) (C : Codec) (d : Dir (List UInt8)) (name : String) : Option StoredSwap :=
  (entryId name).bind (held A C d)

theorem loadEntry_spec (A : Aead) (C : Codec) (d : Dir (List UInt8)) (name : String)
    (tr : List (Ev StoreOp.Ans)) :
    Safe (.solo StoreOp.does (Looks d)) (loadEntry A C name)
      (fun r w => r = .ok (entryRecord A C d name) ∧ w.1 = d) (d, tr) := by
  unfold loadEntry entryRecord
  cases he : entryId name with
  | none => exact safe_ret.2 ⟨rfl, rfl⟩
  | some id =>
    obtain ⟨rfl, hv⟩ := of_entryId he
    refine safe_call_solo.2 fun r w hd => ?_
    cases r with
    | ok blob =>
      obtain ⟨hblob, rfl⟩ := hd
      refine ⟨rfl, safe_ret.2 ⟨?_, rfl⟩⟩
      rw [Option.bind_some, held_file hv hblob]
    | error e =>
      obtain ⟨rfl, hnone⟩ := held_unread (A := A) (C := C) hd
      refine ⟨rfl, safe_ret.2 ⟨?_, rfl⟩⟩
      rw [Option.bind_some, hnone]

theorem loadEntries_spec (A : Aead) (C : Codec) (d : Dir (List UInt8)) (names : List String)
    (tr : List (Ev StoreOp.Ans)) :
    Safe (.solo StoreOp.does (Looks d)) (loadEntries A C names)
      (fun r w => r = .ok (names.filterMap (entryRecord A C d)) ∧ w.1 = d) (d, tr) := by
  induction names generalizing tr with
  | nil => exact safe_ret.2 ⟨rfl, rfl⟩
  | cons name names ih =>
    unfold loadEntries
    simp only [Prog.bind_eq, Prog.pure_eq]
    refine Safe.bind ((loadEntry_spec A C d name tr).mono ?_)
    rintro r ⟨w, tr'⟩ ⟨rfl, rfl⟩
    refine Safe.bind ((ih tr').mono ?_)
    rintro r ⟨w, tr''⟩ ⟨rfl, rfl⟩
    refine safe_ret.2 ⟨congrArg Except.ok ?_, rfl⟩
    cases hrec : entryRecord A C w name with
    | none => simp [hrec]
    | some rec => simp [hrec]

theorem loadAll_spec (A : Aead) (C : Codec) (d : Dir (List UInt8)) :
    Safe (.solo StoreOp.does (Looks d)) (loadAll A C)
      (fun r _ => ∃ names, d.Lists names ∧ r = .ok (names.filterMap (entryRecord A C d))) (d, []) := by
  unfold loadAll
  simp only [Prog.bind_eq]
  refine safe_request_solo (fun r w e hd hj => ?_) fun r w names hd hj => ?_
  · cases r with
    | ok b => cases hj
    | error e => exact hd.1.elim
  · obtain rfl := ok_of_mapError hj
    obtain ⟨hlist, rfl⟩ := hd
    exact ⟨rfl, (loadEntries_spec A C w names _).mono fun r w' hr => ⟨names, hlist, hr.1⟩⟩

theorem listIds_spec (d : Dir (List UInt8)) :
    Safe (.solo StoreOp.does (Looks d)) listIds
      (fun r _ => ∃ names, d.Lists names ∧ r = .ok (names.filterMap entryId)) (d, []) := by
  unfold listIds
  simp only [Prog.bind_eq]
  refine safe_request_solo (fun r w e hd hj => ?_) fun r w names hd hj => ?_
  · cases r with
    | ok b => cases hj
    | error e => exact hd.1.elim
  · obtain rfl := ok_of_mapError hj
    obtain ⟨hlist, rfl⟩ := hd
    exact ⟨rfl, safe_ret.2 ⟨names, hlist, rfl⟩⟩

end

/-! ## Listings -/

section
variable {A : Aead} {C : Codec} {d : Dir (List UInt8)} {names : List String}

theorem entryRecord_eq_some {name : String} {rec : StoredSwap} (hb : Owned (held A C d)) :
    entryRecord A C d name = some rec ↔ name = encPath rec.swapId ∧ held A C d rec.swapId = some rec := by
  unfold entryRecord
  rw [Option.bind_eq_some_iff]
  constructor
  · rintro ⟨id, hid, hrec⟩
    obtain rfl := hb id rec hrec
    exact ⟨(of_entryId hid).1, hrec⟩
  · rintro ⟨rfl, hrec⟩
    refine ⟨rec.swapId, entryId_encPath ?_, hrec⟩
    unfold held at hrec
    split at hrec
    · assumption
    · cases hrec

/-- A file is there for every record that is held. -/
theorem listed_of_held (hlist : d.Lists names) {id : String} (h : held A C d id ≠ none) :
    encPath id ∈ names ∧ validId id = true := by
  unfold held at h
  split at h
  · rename_i hv
    refine ⟨(hlist.2 _).2 fun hnone => ?_, hv⟩
    rw [hnone] at h
    exact h rfl
  · exact absurd rfl h

theorem mem_records (hlist : d.Lists names) (hb : Owned (held A C d)) (rec : StoredSwap) :
    rec ∈ names.filterMap (entryRecord A C d) ↔ held A C d rec.swapId = some rec := by
  rw [List.mem_filterMap]
  constructor
  · rintro ⟨name, _, hrec⟩
    exact ((entryRecord_eq_some hb).1 hrec).2
  · intro hrec
    have hmem := (listed_of_held hlist (by rw [hrec]; exact Option.some_ne_none _)).1
    exact ⟨encPath rec.swapId, hmem, (entryRecord_eq_some hb).2 ⟨rfl, hrec⟩⟩

theorem nodup_records (hlist : d.Lists names) (hb : Owned (held A C d)) :
    ((names.filterMap (entryRecord A C d)).map (·.swapId)).Nodup := by
  refine List.pairwise_map.2 (List.pairwise_filterMap.2 (hlist.1.imp fun hne rec hrec rec' hrec' h => ?_))
  have hname := ((entryRecord_eq_some hb).1 hrec).1
  have hname' := ((entryRecord_eq_some hb).1 hrec').1
  exact hne (by rw [hname, hname', h])

theorem nodup_ids (hlist : d.Lists names) : (names.filterMap entryId).Nodup := by
  refine List.pairwise_filterMap.2 (hlist.1.imp fun hne id hid id' hid' h => ?_)
  exact hne (by rw [(of_entryId hid).1, (of_entryId hid').1, h])

end

/-! ## Runs -/

/-- What an event makes of the records. A save or a removal that is cut off counts if its last step
was made. -/
def StoreEvent.apply (m : String → Option StoredSwap) : StoreEvent → String → Option StoredSwap
  | .ended (.save rec) (.ok _) => update m rec.swapId (some rec)
  | .ended (.remove id) (.ok _) => update m id none
  | .crashed (.save rec) tr => if renamed tr then update m rec.swapId (some rec) else m
  | .crashed (.remove id) tr => if removed tr then update m id none else m
  | .foreign name => fun id => if encPath id = name then none else m id
  | _ => m

/-- The record of each id that the events left. -/
def lastStored (h : List StoreEvent) : String → Option StoredSwap :=
  h.foldl StoreEvent.apply fun _ => none

/-- What a call has to answer, given the records there are. -/
def Answers (m : String → Option StoredSwap) : StoreCall → Except StoreError StoreReply → Prop
  | .load id, r =>
    match m id with
    | some rec => r = .ok (.record rec)
    | none => ∃ e, r = .error e
  | .loadAll, r => ∃ recs, r = .ok (.records recs) ∧ (∀ rec, rec ∈ recs ↔ m rec.swapId = some rec) ∧
    (recs.map (·.swapId)).Nodup
  | .listIds, r => ∃ ids, r = .ok (.ids ids) ∧ ids.Nodup ∧ ∀ id, m id ≠ none → id ∈ ids
  | _, _ => True

section
variable {A : Aead} {C : Codec} {d d' : Dir (List UInt8)}

theorem lastStored_snoc (h : List StoreEvent) (e : StoreEvent) :
    lastStored (h ++ [e]) = e.apply (lastStored h) := List.foldl_append ..

/-- What a call has done, and what it answers when it ends. -/
theorem run_spec (A : Aead) (C : Codec) (call : StoreCall) (hb : Owned (held A C d)) :
    Safe (.solo StoreOp.does fun d' tr => held A C d' = (StoreEvent.crashed call tr).apply (held A C d))
      (call.run A C)
      (fun r w => (StoreEvent.crashed call w.2).apply (held A C d) =
        (StoreEvent.ended call r).apply (held A C d) ∧ Answers (held A C d) call r) (d, []) := by
  cases call with
  | save rec =>
    refine Safe.bind ((save_spec A C rec d).mono fun r w hr => ?_)
    cases r with
    | ok u => exact safe_ret.2 ⟨by simp [StoreEvent.apply, hr, Except.isOk, Except.toBool], trivial⟩
    | error e => exact ⟨by simp [StoreEvent.apply, hr, Except.isOk, Except.toBool], trivial⟩
  | remove id =>
    refine Safe.bind ((remove_spec A C id d).mono fun r w hr => ?_)
    cases r with
    | ok u => exact safe_ret.2 ⟨by simp [StoreEvent.apply, hr, Except.isOk, Except.toBool], trivial⟩
    | error e => exact ⟨by simp [StoreEvent.apply, hr, Except.isOk, Except.toBool], trivial⟩
  | load id =>
    refine safe_solo_mono (fun d' tr h => congrArg (held A C) h) ?_
    refine Safe.bind ((load_spec A C id d).mono fun r w hr => ?_)
    cases r with
    | ok rec => exact safe_ret.2 ⟨rfl, by simp only [Answers, hr]⟩
    | error e => exact ⟨rfl, by simp only [Answers, hr]; exact ⟨e, rfl⟩⟩
  | loadAll =>
    refine safe_solo_mono (fun d' tr h => congrArg (held A C) h) ?_
    refine Safe.bind ((loadAll_spec A C d).mono fun r w hr => ?_)
    obtain ⟨names, hlist, rfl⟩ := hr
    exact safe_ret.2 ⟨rfl, _, rfl, mem_records hlist hb, nodup_records hlist hb⟩
  | listIds =>
    refine safe_solo_mono (fun d' tr h => congrArg (held A C) h) ?_
    refine Safe.bind ((listIds_spec d).mono fun r w hr => ?_)
    obtain ⟨names, hlist, rfl⟩ := hr
    refine safe_ret.2 ⟨rfl, _, rfl, nodup_ids hlist, fun id hid => ?_⟩
    obtain ⟨hmem, hv⟩ := listed_of_held hlist hid
    exact List.mem_filterMap.2 ⟨_, hmem, entryId_encPath hv⟩

theorem owned_update {m : String → Option StoredSwap} (h : Owned m) {id : String} {v : Option StoredSwap}
    (hv : ∀ rec, v = some rec → rec.swapId = id) : Owned (update m id v) := by
  intro i rec hi
  unfold update at hi
  split at hi
  · rename_i he
    exact (hv rec hi).trans he.symm
  · exact h i rec hi

theorem owned_apply {m : String → Option StoredSwap} (h : Owned m) (e : StoreEvent) : Owned (e.apply m) := by
  have hsave : ∀ rec : StoredSwap, Owned (update m rec.swapId (some rec)) := fun rec =>
    owned_update h fun rec' he => by rw [Option.some.inj he]
  have hremove : ∀ id, Owned (update m id none) := fun id => owned_update h fun _ he => nomatch he
  unfold StoreEvent.apply
  split
  · exact hsave _
  · exact hremove _
  · split
    · exact hsave _
    · exact h
  · split
    · exact hremove _
    · exact h
  · intro id rec hi
    dsimp only at hi
    split at hi
    · cases hi
    · exact h id rec hi
  · exact h

/-- The directory holds what the events left. -/
theorem held_run {h : List StoreEvent} (hr : StoreRun A C h d) :
    held A C d = lastStored h ∧ Owned (lastStored h) := by
  induction hr with
  | start hd => exact ⟨funext fun id => held_foreign (hd id), fun id rec he => nomatch he⟩
  | @ended h d d' call tr q r _ he hq ih =>
    obtain ⟨ih, hown⟩ := ih
    rw [← ih] at hown
    have hs := run_spec A C call hown
    rw [lastStored_snoc, ← ih]
    refine ⟨?_, owned_apply hown _⟩
    exact (safe_exec hs (by cases call <;> rfl) he).1.trans (ended_exec hs (by cases call <;> rfl) he hq).1
  | @crashed h d d' call tr q _ he ih =>
    obtain ⟨ih, hown⟩ := ih
    rw [← ih] at hown
    rw [lastStored_snoc, ← ih]
    exact ⟨(safe_exec (run_spec A C call hown) (by cases call <;> rfl) he).1, owned_apply hown _⟩
  | @foreign h d d' name _ hframe hforeign ih =>
    obtain ⟨ih, hown⟩ := ih
    rw [lastStored_snoc]
    refine ⟨funext fun id => ?_, owned_apply hown _⟩
    rw [← ih]
    by_cases hn : encPath id = name
    · subst hn
      exact (held_foreign (hforeign id · rfl)).trans (by simp [StoreEvent.apply])
    · simp only [StoreEvent.apply, if_neg hn, held, hframe _ hn]

theorem snoc_split {α : Type} {h pre post : List α} {e x : α} (heq : h ++ [e] = pre ++ x :: post) :
    (h = pre ∧ e = x) ∨ ∃ post', h = pre ++ x :: post' := by
  rcases List.eq_nil_or_concat post with rfl | ⟨post', e', rfl⟩
  · obtain ⟨hh, he⟩ := List.append_inj' heq rfl
    exact .inl ⟨hh, by simpa using he⟩
  · rw [List.concat_eq_append, ← List.cons_append, ← List.append_assoc] at heq
    exact .inr ⟨post', (List.append_inj' heq rfl).1⟩

theorem answers_run {h : List StoreEvent} (hr : StoreRun A C h d) {pre post : List StoreEvent}
    {call : StoreCall} {r : Except StoreError StoreReply} (heq : h = pre ++ .ended call r :: post) :
    Answers (lastStored pre) call r := by
  induction hr generalizing post with
  | start _ => simp at heq
  | @ended h d d' call' tr q r' hr he hq ih =>
    rcases snoc_split heq with ⟨rfl, hev⟩ | ⟨post', hpre⟩
    · obtain ⟨rfl, rfl⟩ := StoreEvent.ended.inj hev
      obtain ⟨hheld, hown⟩ := held_run hr
      rw [← hheld] at hown ⊢
      exact (ended_exec (run_spec A C call' hown) (by cases call' <;> rfl) he hq).2
    · exact ih hpre
  | crashed _ _ ih =>
    rcases snoc_split heq with ⟨_, hev⟩ | ⟨post', hpre⟩
    · cases hev
    · exact ih hpre
  | foreign _ _ _ ih =>
    rcases snoc_split heq with ⟨_, hev⟩ | ⟨post', hpre⟩
    · cases hev
    · exact ih hpre

/-- What is held can be loaded. -/
theorem load_held {id : String} {rec : StoredSwap} (h : held A C d id = some rec) :
    ∃ tr, Exec StoreOp.does (load A C id) d tr (.ret rec) d := by
  unfold held at h
  split at h
  · rename_i hv
    split at h
    · rename_i blob hblob
      refine ⟨[⟨.fs (.read (encPath id)), .ok blob⟩], ?_⟩
      simp only [load, validateId, hv, if_true, Prog.bind_eq, Prog.ofExcept_ok_bind]
      refine .request ⟨hblob, rfl⟩ rfl ?_
      cases ho : openBlob A C id blob with
      | ok rec' =>
        rw [ho] at h
        obtain rfl := Option.some.inj h
        exact .refl
      | error e =>
        rw [ho] at h
        cases h
    · cases h
  · cases h

/-- What the store owes over a run that ends in the directory `d`. -/
structure Refines (A : Aead) (C : Codec) (h : List StoreEvent) (d : Dir (List UInt8)) : Prop where
  /-- every call that returned answered what the events before it left -/
  answers : ∀ pre call r post, h = pre ++ .ended call r :: post → Answers (lastStored pre) call r
  /-- no record is under another id -/
  own : Owned (lastStored h)
  /-- what the events left can be loaded -/
  readable : ∀ id rec, lastStored h id = some rec → ∃ tr, Exec StoreOp.does (load A C id) d tr (.ret rec) d

/-- The store is a map from ids to records, over every run. -/
theorem store_refines {h : List StoreEvent} (hr : StoreRun A C h d) : Refines A C h d := by
  obtain ⟨hheld, hown⟩ := held_run hr
  refine ⟨fun _ _ _ _ heq => answers_run hr heq, hown, fun id rec hrec => ?_⟩
  rw [← hheld] at hrec
  exact load_held hrec

/-- A save in which nothing fails replaces the record. -/
theorem save_succeeds (rec : StoredSwap) (nonce bytes ct : List UInt8) (hid : validId rec.swapId = true)
    (hv : C.toVec rec = .ok bytes) (hn : nonce.length = 12) (he : A.encrypt nonce rec.swapId bytes = .ok ct)
    (hd : ∀ n, d n ≠ some .folder) : ∃ tr d', (∀ n, d' n ≠ some .folder) ∧ renamed tr = true ∧
      Exec StoreOp.does ((StoreCall.save rec).run A C) d tr (.ret .done) d' := by
  let tmp := tmpPath rec.swapId
  let path := encPath rec.swapId
  let d₁ := d.put tmp (.file [])
  let d₂ := d₁.put tmp (.file (nonce ++ ct))
  have hput : ∀ (d : Dir (List UInt8)) m b, (∀ n, d n ≠ some .folder) →
      ∀ n, (d.put m (.file b)) n ≠ some .folder := by
    intro d m b hd n
    unfold Dir.put
    split
    · exact fun h => nomatch h
    · exact hd n
  have hd₂ : ∀ n, d₂ n ≠ some .folder := hput _ _ _ (hput _ _ _ hd)
  refine ⟨[⟨.getrandom, .ok nonce⟩, ⟨.fs (.create tmp), .ok ()⟩, ⟨.fs (.write tmp (nonce ++ ct)), .ok ()⟩,
    ⟨.fs (.sync tmp), .ok ()⟩, ⟨.fs (.rename tmp path), .ok ()⟩],
    (d₂.erase tmp).put path (.file (nonce ++ ct)), hput _ _ _ fun n => ?_, rfl, ?_⟩
  · unfold Dir.erase
    split
    · exact fun h => nomatch h
    · exact hd₂ n
  simp only [StoreCall.run, save, encrypt, validateId, hid, hv, if_true, Prog.bind_eq, Prog.bind_assoc,
    mapError_ok, Prog.ofExcept_ok_bind, Prog.pure_eq]
  refine .request (a := nonce) ⟨hn, rfl⟩ rfl ?_
  simp only [he, Prog.ofExcept_ok_bind, Prog.ret_bind]
  have hcreate : FsOp.does False (.create tmp) (.ok ()) d d₁ := ⟨hd _, [], rfl⟩
  have hwrite : FsOp.does False (.write tmp (nonce ++ ct)) (.ok ()) d₁ d₂ := rfl
  refine .request hcreate rfl (.request hwrite rfl (.request rfl rfl ?_))
  exact .request ⟨nonce ++ ct, d₁.put_self _ _, hd₂ _, rfl⟩ rfl .refl

end

/-! ## A save that is cut off after its rename -/

/-- What the saves that returned left, if a crash undoes the save that it cuts off. -/
def StoreEvent.applyReturned (m : String → Option StoredSwap) : StoreEvent → String → Option StoredSwap
  | .crashed (.save _) _ => m
  | e => e.apply m

def lastSaved (h : List StoreEvent) : String → Option StoredSwap :=
  h.foldl StoreEvent.applyReturned fun _ => none

def accepted : StoredSwap := { (default : StoredSwap) with swapId := "a", state := "ACCEPTED" }

def locked : StoredSwap := { (default : StoredSwap) with swapId := "a", state := "A_LOCKED" }

def sampleAead : Aead where
  encrypt _ aad msg := if aad = "a" then .ok (List.replicate 16 0 ++ msg) else .error ()
  decrypt _ aad ct := if aad = "a" then some (ct.drop 16) else none
  tagged h := by
    split at h
    · obtain rfl := Except.ok.inj h
      simp
    · cases h
  opens h := by
    split at h
    · rename_i ha
      obtain rfl := Except.ok.inj h
      simp [ha]
    · cases h
  bound h h' := by
    split at h
    · split at h'
      · rename_i ha ha'
        rw [ha, ha']
      · cases h'
    · cases h

open Classical in
noncomputable def sampleCodec : Codec where
  toVec rec := if rec = accepted then .ok [0] else if rec = locked then .ok [1] else .error "too long"
  fromSlice bytes := if bytes = [0] then some accepted else if bytes = [1] then some locked else none
  fromSlice_toVec h := by
    split at h
    · rename_i hr
      obtain rfl := Except.ok.inj h
      simp [hr]
    · split at h
      · rename_i hr
        obtain rfl := Except.ok.inj h
        simp [hr]
      · cases h

theorem locked_ne_accepted : locked ≠ accepted := fun h => by
  have := congrArg StoredSwap.state h
  revert this
  decide

/-- The first state of the swap is saved, and a crash comes after the rename of the second one. -/
theorem crashed_after_rename : ∃ d tr, renamed tr = true ∧ StoreRun sampleAead sampleCodec
    [.ended (.save accepted) (.ok .done), .crashed (.save locked) tr] d := by
  have hstart : StoreRun sampleAead sampleCodec [] fun _ => none := .start fun _ _ h => nomatch h
  obtain ⟨tr₁, d₁, hd₁, _, h₁⟩ := save_succeeds (A := sampleAead) (C := sampleCodec) (d := fun _ => none)
    accepted (List.replicate 12 0) [0] (List.replicate 16 0 ++ [0])
    (by decide) (if_pos rfl) rfl rfl (fun _ h => nomatch h)
  obtain ⟨tr₂, d₂, _, hr₂, h₂⟩ := save_succeeds (A := sampleAead) (C := sampleCodec) (d := d₁)
    locked (List.replicate 12 0) [1] (List.replicate 16 0 ++ [1])
    (by decide) ((if_neg locked_ne_accepted).trans (if_pos rfl)) rfl rfl hd₁
  exact ⟨d₂, tr₂, hr₂, (hstart.ended h₁ rfl).crashed h₂⟩

/-- The record that is loaded then is the one of the save that never returned. -/
theorem load_not_last_saved : ¬ ∀ (A : Aead) (C : Codec) h d, StoreRun A C h d →
    ∀ pre call r post, h = pre ++ .ended call r :: post → Answers (lastSaved pre) call r := by
  intro hall
  obtain ⟨d, tr, hr, hrun⟩ := crashed_after_rename
  have hlast : ∀ tr, lastSaved [.ended (.save accepted) (.ok .done), .crashed (.save locked) tr] "a" =
      some accepted := fun _ => rfl
  have hheld : held sampleAead sampleCodec d "a" = some locked := by
    rw [(held_run hrun).1]
    simp [lastStored, StoreEvent.apply, hr, update, locked]
  obtain ⟨tr', hload⟩ := load_held hheld
  have hend : Exec StoreOp.does ((StoreCall.load "a").run sampleAead sampleCodec) d tr'
      (.ret (.record locked)) d := hload.bind (k := fun rec => .ret (StoreReply.record rec))
  have hans := hall _ _ _ d (hrun.ended hend rfl) _ (.load "a") _ [] rfl
  simp only [Answers, hlast] at hans
  exact locked_ne_accepted (StoreReply.record.inj (Except.ok.inj hans))

/-- What is loaded after the crash is what the store owes. -/
theorem refines_crashed : ∃ d tr, renamed tr = true ∧ Refines sampleAead sampleCodec
    [.ended (.save accepted) (.ok .done), .crashed (.save locked) tr] d := by
  obtain ⟨d, tr, hr, hrun⟩ := crashed_after_rename
  exact ⟨d, tr, hr, store_refines hrun⟩

end DeskStore
