import PwndaWallet.Desk.DriveSound

/-!
# What a task can do next

`acts_of_allows` says once what a task can ask with what it has in hand, `after_plain` and its like what
the answer changes. Every invariant of a swap is then a relation between the hand of each task and the
world, looked at act by act (`holds_of_hand`).
-/

namespace Desk

open Tasks

inductive Acts : Hand → Op → Prop
  | idle {s : Hand} {o : Op} : Idle o → Acts s o
  | load {last : Option StoredSwap} (id_ : String) : Acts (.free last) (.store (.load id_))
  | refund {rec : StoredSwap} {at_ : String} {req : RefundRequest} (id_ : String) :
      refundRequest at_ rec = .ok (some req) → Acts (.free (some rec)) (.crypto (.refund id_))
  | reclaim {rec : StoredSwap} {at_ : String} (id_ : String) (h : Option Int) :
      reclaimGuard at_ rec = .ok none → Acts (.free (some rec)) (.crypto (.reclaim id_ h))
  | swipe {rec : StoredSwap} {now : Int} (id_ : String) :
      deepAbortOpen rec now = true → Acts (.free (some rec)) (.crypto (.swipe id_))
  | register {last : Option StoredSwap} (id_ : String) : Acts (.free last) (.watchers (.register id_))
  | unregister {last : Option StoredSwap} (id_ : String) : Acts (.free last) (.watchers (.clear id_))
  | flag {last : Option StoredSwap} (b : Bool) : Acts (.free last) (.flag (.new b))
  | record {rec : StoredSwap} : Acts (.owes rec) (.store (.save rec))
  | poll (id_ : String) : Acts .polls (.client (.status id_))
  | raise {st : StatusResponse} (id_ : String) :
      (DeskSwapState.parse st.state).isTerminal = true → Acts (.polled st) (.watchers (.raise id_))
  | remove {st : StatusResponse} (id_ : String) :
      (DeskSwapState.parse st.state).isTerminal = true → Acts (.polled st) (.store (.remove id_))
  | read {st : StatusResponse} (id_ : String) : Acts (.polled st) (.store (.load id_))
  | mirror {st : StatusResponse} {rec : StoredSwap} :
      Acts (.mirrors st rec) (.store (.save (mirror st rec)))
  | begin (id_ : String) : Acts .starts (.store (.load id_))
  | status {d : Drive} (id_ : String) : Acts (.drives d) (.client (.status id_))
  | lock {d : Drive} (id_ : String) :
      d.role = .follower → d.phase = .armed → Acts (.drives d) (.crypto (.lock id_))
  | submitLock {d : Drive} (id_ : String) :
      d.role = .leader → d.phase = .armed → Acts (.drives d) (.crypto (.submitLock id_))
  | claim {d : Drive} (id_ : String) : d.phase = .locked → Acts (.drives d) (.crypto (.claim id_))
  | persist {d : Drive} {rec : StoredSwap} : d.MaySave rec → Acts (.drives d) (.store (.save rec))
  | judge {d : Drive} (id_ : String) : d.phase ≠ .sent → Acts (.drives d) (.store (.load id_))
  | join {d : Drive} (id_ : String) : Acts (.drives d) (.watchers (.register id_))
  | own {d : Drive} (b : Bool) : Acts (.drives d) (.flag (.new b))
  | ownStore {d : Drive} {f : FlagRef} (b : Bool) : d.own = some f → Acts (.drives d) (.flag (.store f b))
  | ownSwap {d : Drive} {f : FlagRef} (b : Bool) : d.own = some f → Acts (.drives d) (.flag (.swap f b))
  | standDown {d : Drive} {rec : StoredSwap} {f : FlagRef} :
      d.stop = some f → standsDown d.role rec = true → Acts (.judges d rec) (.flag (.store f true))
  | leave {d : Drive} {rec : StoredSwap} (id_ : String) :
      standsDown d.role rec = true → Acts (.judges d rec) (.watchers (.clear id_))

theorem acts_of_allows {s : Hand} {o : Op} (h : s.Allows o) : Acts s o := by
  cases s with
  | free last => cases o with
    | store c => cases c with
      | load id_ => exact .load id_
      | _ => exact .idle h
    | crypto c => cases c with
      | refund id_ => obtain ⟨rec, at_, req, rfl, hreq⟩ := h; exact .refund id_ hreq
      | reclaim id_ ht => obtain ⟨rec, at_, rfl, hg⟩ := h; exact .reclaim id_ ht hg
      | swipe id_ => obtain ⟨rec, now, rfl, hopen⟩ := h; exact .swipe id_ hopen
      | _ => exact .idle h
    | watchers c => cases c with
      | register id_ => exact .register id_
      | clear id_ => exact .unregister id_
      | raise id_ => exact .idle h
    | flag c => cases c with
      | new b => exact .flag b
      | _ => exact .idle h
    | _ => exact .idle h
  | owes rec => cases o with
    | store c => cases c with
      | save rec' => obtain rfl : rec' = rec := h; exact .record
      | _ => exact .idle h
    | _ => exact .idle h
  | polls => cases o with
    | client c => cases c with
      | status id_ => exact .poll id_
      | _ => exact .idle h
    | _ => exact .idle h
  | polled st => cases o with
    | store c => cases c with
      | load id_ => exact .read id_
      | remove id_ => exact .remove id_ h
      | _ => exact .idle h
    | watchers c => cases c with
      | raise id_ => exact .raise id_ h
      | _ => exact .idle h
    | _ => exact .idle h
  | mirrors st rec => cases o with
    | store c => cases c with
      | save rec' => obtain rfl : rec' = _ := h; exact .mirror
      | _ => exact .idle h
    | _ => exact .idle h
  | starts => cases o with
    | store c => cases c with
      | load id_ => exact .begin id_
      | _ => exact .idle h
    | _ => exact .idle h
  | drives d => cases o with
    | client c => cases c with
      | status id_ => exact .status id_
      | _ => exact .idle h
    | crypto c => cases c with
      | lock id_ => exact .lock id_ h.1 h.2
      | submitLock id_ => exact .submitLock id_ h.1 h.2
      | claim id_ => exact .claim id_ h
      | _ => exact .idle h
    | store c => cases c with
      | save rec => exact .persist h
      | load id_ => exact .judge id_ h
      | _ => exact .idle h
    | watchers c => cases c with
      | register id_ => exact .join id_
      | _ => exact .idle h
    | flag c => cases c with
      | new b => exact .own b
      | store f b => exact .ownStore b h
      | swap f b => exact .ownSwap b h
      | load f => exact .idle h
    | _ => exact .idle h
  | ends => exact .idle h
  | judges d rec => cases o with
    | watchers c => cases c with
      | clear id_ => exact .leave id_ h
      | _ => exact .idle h
    | flag c => cases c with
      | store f b => obtain ⟨rfl, hs, hd⟩ := h; exact .standDown hs hd
      | _ => exact .idle h
    | _ => exact .idle h

/-! ## What the answer changes -/

section
variable {w : World} {i : Nat} {o : Op} {r : o.Ans} {out : Out}

theorem noPut_of_noTx (h : txOf o = none) (published : Bool) : World.putBy o r published = none := by
  unfold World.putBy
  rw [h]
  split <;> rfl

theorem chain_of_noTx (h : txOf o = none) : (w.after i o r out).chain = w.chain := by
  show ((World.putBy o r out.published).map (i, ·)).toList ++ w.chain = w.chain
  rw [noPut_of_noTx h]
  rfl

theorem unsaved_of_noTx (h : txOf o = none) (hs : savedBy o r = none) :
    (w.after i o r out).unsaved = w.unsaved := by
  show w.unsavedAfter i o r out.published = w.unsaved
  simp [World.unsavedAfter, World.recoveredBy, noPut_of_noTx h, hs]

/-- A plain answer changes the flags and their registry at most. -/
theorem after_plain (h : Plain o) : w.after i o r out =
    { w with
      settled := w.settled || out.settled
      flags := w.flagsAfter o
      watcher := w.watcherAfter o } := by
  have hbase : (fun j => if j = i then (savedBy o r).or ((loadedBy o r).or (w.base i)) else w.base j) =
      w.base := by
    funext j
    rw [plain_noSave h, plain_noLoad h]
    split
    · rename_i hj; subst hj; rfl
    · rfl
  have hheard : (fun j => if j = i then (repliedBy o r).or (w.heard i) else w.heard j) = w.heard := by
    funext j
    rw [plain_noReply h]
    split
    · rename_i hj; subst hj; rfl
    · rfl
  have hnamed : (fun j tx => if j = i ∧ txOf o = some tx then txidBy o r else w.named j tx) = w.named := by
    funext j tx
    rw [plain_noTx h]
    simp
  unfold World.after
  rw [hbase, hheard, hnamed]
  simp [World.unsavedAfter, World.keepsLock, World.recoveredBy, plain_noSave h, plain_noRemove h,
    noPut_of_noTx (plain_noTx h)]

theorem flagsAfter_idle (h : Idle o) : w.flagsAfter o = w.flags := by
  cases o with
  | watchers c => exact h.elim
  | flag c => cases c <;> first | rfl | exact h.elim
  | _ => rfl

theorem watcherAfter_idle (h : Idle o) : w.watcherAfter o = w.watcher := by
  cases o with
  | watchers c => exact h.elim
  | _ => rfl

theorem after_idle (h : Idle o) :
    w.after i o r out = { w with settled := w.settled || out.settled } := by
  rw [after_plain (plain_of_idle h), flagsAfter_idle h, watcherAfter_idle h]

/-- What is answered with its txid is on its chain. -/
theorem mem_chain_of_txid {tx : Tx} {t : String} (htx : txOf o = some tx) (ht : txidBy o r = some t) :
    (i, tx) ∈ (w.after i o r out).chain := by
  refine List.mem_append_left _ ?_
  unfold World.putBy
  rw [ht, htx]
  simp

theorem ne_empty_of_txidIn {r : Except CryptoError (Option String)} {t : String}
    (h : txidIn r = some t) : t ≠ "" := by
  cases r with
  | error e => cases h
  | ok x =>
    cases x with
    | none => cases h
    | some s =>
      simp only [txidIn, nonEmpty, Option.filter_eq_some_iff, Option.some.injEq] at h
      obtain ⟨rfl, hne⟩ := h
      simpa [Rust.isEmpty] using hne

/-- A txid is still there after a reply that has none or the same. -/
theorem nonEmpty_mirrored {old : Option String} {s t : String} (h : nonEmpty old = some t)
    (hs : s = "" ∨ s = t) : nonEmpty (if Rust.isEmpty s then old else some s) = some t := by
  split
  · exact h
  · rename_i hne
    rcases hs with rfl | rfl
    · exact absurd rfl hne
    · simp [nonEmpty, hne]

/-- A record that is read is the one in the file. -/
theorem slot_of_read {id_ : String} {a : StoreCall.Ans (.load id_)} {rec : StoredSwap}
    (h : w.reply (.store (.load id_)) a = .ok rec) : w.slot = some rec := by
  cases a with
  | error e => cases h
  | ok _ =>
    simp only [World.reply] at h
    split at h
    · rename_i hslot
      cases h
      exact hslot
    · cases h

end

/-! ## The rule -/

section
variable {env : Env} {law : Law Op Op.Ans World Entry}

/-- A relation between each task's hand and the world that every act keeps. -/
structure Follows (M : Method (desk env) law) (I : Nat → Entry → Hand → World → Prop) : Prop where
  start : ∀ i e w, M.fit i e w → M.inv w → I i e e.hand w
  rely : ∀ i e s w w', I i e s w → M.inv w' → M.rely i e w w' → I i e s w'
  ask : ∀ i e s o w, I i e s w → M.inv w → Acts s o → law.ask i e o w → M.must i e o w
  answer : ∀ i e s o (out : Out) r w, I i e s w → M.inv w → Acts s o → r = w.reply o (out.ans o) →
    law.answer i e o r w (w.after i o r out) →
    M.inv (w.after i o r out) ∧
    (∀ j e', j ≠ i → ¬ M.apart e e' → M.rely j e' w (w.after i o r out)) ∧
    M.guar i e o r w (w.after i o r out) ∧ I i e (s.next o r) (w.after i o r out)

theorem holds_of_follows {M : Method (desk env) law} {I : Nat → Entry → Hand → World → Prop}
    (h : Follows M I) {w₀ : World} {c : Cfg Op Op.Ans World Entry} (h₀ : M.inv w₀)
    (hr : Reach (desk env) law ⟨w₀, []⟩ c) : M.Holds c := by
  refine Method.holds_reach (fun i e w hfit hinv => ?_) (Method.holds_nil h₀) hr
  refine Method.goes_of_admits (m := conduct) (I := I i e) (h.rely i e) ?_ ?_ (admits_body env e)
    (h.start i e w hfit hinv) hinv
  · intro s o w hI hinv ha hl
    exact h.ask i e s o w hI hinv (acts_of_allows ha) hl
  · intro s o out r w w' hI hinv ha hr hl
    obtain ⟨rfl, rfl⟩ := Prod.mk.inj hr
    exact h.answer i e s o out _ w hI hinv (acts_of_allows ha) rfl hl

end

end Desk
