import PwndaWallet.Lib.Machine
import PwndaWallet.Vault.MergeSound
import PwndaWallet.Vault.RepairSound

/-!
# One wallet file per wallet

In a vault that was made or migrated and then only written by the app, an entry is on the legacy name
of its kind, on the name of its own id, or (Zano) on the name of its group. Only `pwnda.zan` is ever
shared, and the repair gives every entry a file of its own again.
-/

namespace Vault

open Js

/-! ## Runs -/

inductive VaultMove where
  | flat (payload : VaultPayload) (opts : SchemaOpts) (activeWalletId : Option String)
  | add (spec : NewWalletSpec) (opts : SchemaOpts)
  | addXelis (seed : String) (opts : SchemaOpts) (activeWalletId : Option String)
  | remove (id : String)
  | rename (id name : String)

def VaultMove.apply (loc : Intl) (v : VaultPayloadV3) : VaultMove → VaultPayloadV3
  | .flat payload opts a => mergeFlatIntoV3 payload (some v) opts a
  | .add spec opts => (addWalletEntry v spec opts).1
  | .addXelis seed opts a =>
    match addXelisWalletToContext loc v seed opts a with
    | .ok (next, _, _) => next
    | .error _ => v
  | .remove id => (removeWalletEntry v id).v3
  | .rename id name => renameWalletEntry v id name

/-- Ids as `crypto.randomUUID` gives them: fresh, and never the word that the legacy names end in. -/
def Supply (opts : SchemaOpts) (v : VaultPayloadV3) : Prop := Fresh opts v ∧ ∀ n, opts.genId n ≠ "active"

/-- The ids are fresh, and an added wallet joins a group that is there, if any. -/
def VaultMove.Ok (v : VaultPayloadV3) : VaultMove → Prop
  | .flat _ opts _ => Supply opts v
  | .add spec opts => Supply opts v ∧ ∀ g, spec.groupId = some g → ∃ w ∈ v.wallets, groupKey w = g
  | .addXelis _ opts _ => Supply opts v
  | _ => True

def vaultMoves (loc : Intl) : Tasks.Machine VaultPayloadV3 VaultMove where
  step v m := some (m.apply loc v)

/-- A vault that was just made or migrated. -/
def Initial (v : VaultPayloadV3) : Prop :=
  ∃ p opts a, Supply opts { wallets := [] } ∧ (v = mergeFlatIntoV3 p none opts a ∨ v = migrateV2ToV3 p opts)

def VaultReached (loc : Intl) (v : VaultPayloadV3) : Prop :=
  ∃ v₀, Initial v₀ ∧ (vaultMoves loc).ReachOn (fun v m => m.Ok v) v₀ v

/-! ## The names -/

def OnLegacy (w : WalletEntry) : Prop := w.sidecarFile.isSome ∧ w.sidecarFile = legacySidecarFile w.kind

def OnOwn (w : WalletEntry) : Prop := w.sidecarFile = newSidecarFile w.kind w.id

/-- A Zano entry that a flat save made, while no vault-wide seed was stored. -/
def OnGroup (w : WalletEntry) : Prop := w.kind = .zano ∧ w.sidecarFile = newSidecarFile .zano (groupKey w)

def Named (w : WalletEntry) : Prop :=
  if w.kind.isSidecar then OnLegacy w ∨ OnOwn w ∨ OnGroup w else w.sidecarFile = none

theorem newSidecarFile_isSome {kind : WalletKind} (h : kind.isSidecar) (id : String) :
    (newSidecarFile kind id).isSome := by
  cases kind <;> first | rfl | cases h

theorem Named.isSome {w : WalletEntry} (h : Named w) (hk : w.kind.isSidecar) : w.sidecarFile.isSome := by
  rw [Named, if_pos hk] at h
  rcases h with h | h | h
  · exact h.1
  · rw [h]
    exact newSidecarFile_isSome hk _
  · rw [h.2]
    rfl

theorem Named.file {w : WalletEntry} (h : Named w) : sidecarFileForEntry w = w.sidecarFile := by
  unfold sidecarFileForEntry
  split
  · rename_i hk
    obtain ⟨f, hf⟩ := Option.isSome_iff_exists.1 (h.isSome hk)
    simp [hf]
  · rename_i hk
    rw [Named, if_neg hk] at h
    exact h.symm

/-- No id but the word `active` gives a legacy name. -/
theorem newSidecarFile_ne_legacy {kind : WalletKind} {id : String} (hid : kind = .zano ∨ id ≠ "active")
    {f : String} (h : newSidecarFile kind id = some f) : legacySidecarFile kind ≠ some f := by
  intro hl
  cases kind with
  | xmr =>
    have heq : "pwnda-xmr-" ++ id = "pwnda-active" := Option.some.inj (h.trans hl.symm)
    have hchars := congrArg (fun s : String => s.toList.take 7) heq
    revert hchars
    simp [String.toList_append]
  | zph =>
    have heq : "pwnda-zph-" ++ id = "pwnda-zph-" ++ "active" := Option.some.inj (h.trans hl.symm)
    exact hid.resolve_left nofun ((String.append_right_inj _).1 heq)
  | zano =>
    have heq : "pwnda-zano-" ++ id ++ ".zan" = "pwnda.zan" := Option.some.inj (h.trans hl.symm)
    have hchars := congrArg (fun s : String => s.toList.take 6) heq
    revert hchars
    simp [String.toList_append]
  | bip39 | xelis | privateKey | watch => cases hl

theorem Named.sidecar {w : WalletEntry} (h : Named w) {f : String} (hf : w.sidecarFile = some f) :
    w.kind.isSidecar ∧ (OnLegacy w ∨ OnOwn w ∨ OnGroup w) := by
  by_cases hk : w.kind.isSidecar
  · rw [Named, if_pos hk] at h
    exact ⟨hk, h⟩
  · rw [Named, if_neg hk, hf] at h
    cases h

/-! ## What the writes keep -/

structure Filed (v : VaultPayloadV3) : Prop where
  unique : UniqueIds v
  grouped : ∀ w ∈ v.wallets, w.groupId.isSome
  apart : ∀ w ∈ v.wallets, ∀ w' ∈ v.wallets, w.id ≠ groupKey w'
  named : ∀ w ∈ v.wallets, w.id ≠ "active" ∧ Named w
  legacy : ∀ w ∈ v.wallets, ∀ w' ∈ v.wallets, w.kind = w'.kind → w.kind ≠ .zano → OnLegacy w → OnLegacy w' → w = w'
  byGroup : ∀ w ∈ v.wallets, ∀ w' ∈ v.wallets, groupKey w = groupKey w' → OnGroup w → OnGroup w' → w = w'

/-- The entry `e` of the new vault is the entry `w` of the old one, with its file. -/
structure Stands (w e : WalletEntry) : Prop where
  id : e.id = w.id
  kind : e.kind = w.kind
  group : groupKey e = groupKey w
  file : e.sidecarFile = w.sidecarFile

/-- A new entry, on a file that no other has. -/
structure Added (v : VaultPayloadV3) (e : WalletEntry) : Prop where
  fresh : ∀ w ∈ v.wallets, w.id ≠ e.id
  named : e.id ≠ "active" ∧ Named e
  legacy : e.kind ≠ .zano → OnLegacy e → ∀ w ∈ v.wallets, w.kind = e.kind → ¬ OnLegacy w
  byGroup : OnGroup e → ∀ w ∈ v.wallets, groupKey w = groupKey e → ¬ OnGroup w

/-- What a write does to the entries. -/
structure Stepped (v v' : VaultPayloadV3) : Prop where
  unique : UniqueIds v'
  grouped : ∀ e ∈ v'.wallets, e.groupId.isSome
  apart : ∀ e ∈ v'.wallets, ∀ e' ∈ v'.wallets, e.id ≠ groupKey e'
  entry : ∀ e ∈ v'.wallets, (∃ w ∈ v.wallets, Stands w e) ∨ Added v e
  once : ∀ e ∈ v'.wallets, ∀ e' ∈ v'.wallets, Added v e → Added v e' → e.kind = e'.kind → e = e'

namespace Stands
variable {w e : WalletEntry}

theorem refl (w : WalletEntry) : Stands w w := ⟨rfl, rfl, rfl, rfl⟩

theorem onLegacy (h : Stands w e) : OnLegacy e ↔ OnLegacy w := by
  rw [OnLegacy, OnLegacy, h.file, h.kind]

theorem onGroup (h : Stands w e) : OnGroup e ↔ OnGroup w := by
  rw [OnGroup, OnGroup, h.file, h.kind, h.group]

theorem named (h : Stands w e) : Named e ↔ Named w := by
  rw [Named, Named, h.onLegacy, h.onGroup, OnOwn, OnOwn, h.file, h.kind, h.id]

theorem resolved (h : Stands w e) : sidecarFileForEntry e = sidecarFileForEntry w := by
  rw [sidecarFileForEntry, sidecarFileForEntry, h.file, h.kind, h.id]

end Stands

variable {v v' : VaultPayloadV3}

theorem filed_of_stepped (hv : Filed v) (h : Stepped v v') : Filed v' where
  unique := h.unique
  grouped := h.grouped
  apart := h.apart
  named e he := by
    rcases h.entry e he with ⟨w, hw, hstands⟩ | hadded
    · rw [hstands.id, hstands.named]
      exact hv.named w hw
    · exact hadded.named
  legacy e he e' he' hkind hzano hl hl' := by
    rcases h.entry e he with ⟨w, hw, hs⟩ | hadded <;> rcases h.entry e' he' with ⟨w', hw', hs'⟩ | hadded'
    · have heq : w = w' := by
        refine hv.legacy w hw w' hw' ?_ ?_ (hs.onLegacy.1 hl) (hs'.onLegacy.1 hl')
        · rw [← hs.kind, ← hs'.kind, hkind]
        · rwa [← hs.kind]
      exact h.unique.eq he he' (by rw [hs.id, hs'.id, heq])
    · exact absurd (hs.onLegacy.1 hl) (hadded'.legacy (hkind ▸ hzano) hl' w hw (hs.kind.symm.trans hkind))
    · exact absurd (hs'.onLegacy.1 hl') (hadded.legacy hzano hl w' hw' (hs'.kind.symm.trans hkind.symm))
    · exact h.once e he e' he' hadded hadded' hkind
  byGroup e he e' he' hgroup hg hg' := by
    rcases h.entry e he with ⟨w, hw, hs⟩ | hadded <;> rcases h.entry e' he' with ⟨w', hw', hs'⟩ | hadded'
    · have heq : w = w' := by
        refine hv.byGroup w hw w' hw' ?_ (hs.onGroup.1 hg) (hs'.onGroup.1 hg')
        rw [← hs.group, ← hs'.group, hgroup]
      exact h.unique.eq he he' (by rw [hs.id, hs'.id, heq])
    · exact absurd (hs.onGroup.1 hg) (hadded'.byGroup hg' w hw (hs.group.symm.trans hgroup))
    · exact absurd (hs'.onGroup.1 hg') (hadded.byGroup hg w' hw' (hs'.group.symm.trans hgroup.symm))
    · exact h.once e he e' he' hadded hadded' (hg.1.trans hg'.1.symm)

/-- An entry that is still there is on the file it was on. -/
theorem file_kept (hv : Filed v) (h : Stepped v v') {w e : WalletEntry} (hw : w ∈ v.wallets)
    (he : e ∈ v'.wallets) (hid : e.id = w.id) : sidecarFileForEntry e = sidecarFileForEntry w := by
  rcases h.entry e he with ⟨x, hx, hs⟩ | hadded
  · obtain rfl : x = w := hv.unique.eq hx hw (hs.id.symm.trans hid)
    exact hs.resolved
  · exact absurd hid.symm (hadded.fresh w hw)

/-! ## A flat save -/

section
variable {flat : VaultPayload} {opts : SchemaOpts} {a : Option String}

theorem slot_file {kind : WalletKind} {e : WalletEntry} (h : slot flat v opts a kind = some e) :
    e.sidecarFile = slotFile (some v) (firstOf v.wallets (targetGid v opts a) kind) (targetGid v opts a) e.id kind := by
  cases kind with
  | bip39 =>
    obtain rfl := Option.some.inj h
    rfl
  | xmr | zph | zano =>
    obtain ⟨seed, -, rfl⟩ := Option.map_eq_some_iff.1 h
    rfl
  | xelis | privateKey | watch => cases h

/-- The file that is stored stays. -/
theorem slotFile_of_some {w : WalletEntry} (h : Named w) (gid id : String) :
    slotFile (some v) (some w) gid id w.kind = if w.kind = .xelis then none else w.sidecarFile := by
  cases hk : w.kind with
  | xmr | zph | zano =>
    obtain ⟨f, hf⟩ := Option.isSome_iff_exists.1 (h.isSome (by rw [hk]; rfl))
    simp [slotFile, hf]
  | bip39 | privateKey | watch =>
    have hnone : w.sidecarFile = none := by
      rw [Named, if_neg (by simp [hk, WalletKind.isSidecar])] at h
      exact h
    simp [slotFile, hnone]
  | xelis => simp [slotFile]

/-- The group that a save writes into is one of the vault's, or new in an empty vault. -/
theorem targetGid_cases : (∃ w ∈ v.wallets, groupKey w = targetGid v opts a) ∨
    (v.wallets = [] ∧ groupIdForWallet v a = none ∧ targetGid v opts a = opts.genId 0) := by
  cases hg : groupIdForWallet v a with
  | some g =>
    rw [targetGid_eq hg]
    exact .inl (exists_of_groupIdForWallet hg)
  | none => exact .inr ⟨groupIdForWallet_eq_none.1 hg, rfl, by simp [targetGid, hg, SchemaOpts.orGen]⟩

theorem targetGid_ne_id (hv : Filed v) {w : WalletEntry} (hw : w ∈ v.wallets) : w.id ≠ targetGid v opts a := by
  rcases targetGid_cases (v := v) (a := a) with ⟨w', hw', hg⟩ | ⟨hnil, -, -⟩
  · rw [← hg]
    exact hv.apart w hw w' hw'
  · rw [hnil] at hw
    cases hw

/-- An id that a save draws is not the one of the group. -/
theorem slot_id_drawn (hf : Fresh opts v) {kind : WalletKind} {e : WalletEntry}
    (h : slot flat v opts a kind = some e) (hfirst : firstOf v.wallets (targetGid v opts a) kind = none) :
    ∃ n, e.id = opts.genId n ∧ e.id ≠ targetGid v opts a := by
  obtain ⟨n, hn, hid⟩ := @slotIds_of_none opts flat _ (opts.orGen (groupIdForWallet v a) 0).2 _ _
    (slot_kind h).1 hfirst
  have hid : e.id = opts.genId n := (slot_spec h).2.2.trans hid
  refine ⟨n, hid, fun heq => ?_⟩
  rcases targetGid_cases (v := v) (a := a) with ⟨w, hw, hg⟩ | ⟨-, hnone, hg⟩
  · exact hf.group n w hw (by rw [← hid, heq, hg])
  · simp only [hnone, SchemaOpts.orGen] at hn
    have := hf.inj (hid.symm.trans (heq.trans hg))
    omega

theorem slot_id_ne_gid (hv : Filed v) (hf : Fresh opts v) {kind : WalletKind} {e : WalletEntry}
    (h : slot flat v opts a kind = some e) : e.id ≠ targetGid v opts a := by
  cases hfirst : firstOf v.wallets (targetGid v opts a) kind with
  | some w =>
    rw [slot_id_of_some h hfirst]
    exact targetGid_ne_id hv (mem_of_firstOf hfirst).1
  | none => exact (slot_id_drawn hf h hfirst).choose_spec.2

theorem slot_file_of_some (hv : Filed v) {kind : WalletKind} {e w : WalletEntry}
    (h : slot flat v opts a kind = some e) (hfirst : firstOf v.wallets (targetGid v opts a) kind = some w) :
    e.sidecarFile = w.sidecarFile := by
  obtain ⟨hw, hkind, -⟩ := mem_of_firstOf hfirst
  have hne : w.kind ≠ .xelis := by
    rintro hx
    have hflat := (slot_kind h).1
    rw [← hkind, hx] at hflat
    exact absurd hflat (by decide)
  rw [slot_file h, hfirst, ← hkind, slotFile_of_some (hv.named w hw).2, if_neg hne]

theorem slot_stands (hv : Filed v) {kind : WalletKind} {e w : WalletEntry}
    (h : slot flat v opts a kind = some e) (hfirst : firstOf v.wallets (targetGid v opts a) kind = some w) :
    Stands w e where
  id := slot_id_of_some h hfirst
  kind := (slot_spec h).1.trans (mem_of_firstOf hfirst).2.1.symm
  group := (groupKey_slot h).trans (mem_of_firstOf hfirst).2.2.symm
  file := slot_file_of_some hv h hfirst

/-- A rebuilt `xmr` or `zph` entry takes the legacy name only from nobody. -/
theorem flatSidecarFileFor_cases {kind : WalletKind} {id : String} (hkind : kind = .xmr ∨ kind = .zph) :
    flatSidecarFileFor kind id v.wallets = newSidecarFile kind id ∨
      (flatSidecarFileFor kind id v.wallets = legacySidecarFile kind ∧
        ∀ w ∈ v.wallets, w.kind = kind → sidecarFileForEntry w ≠ legacySidecarFile kind) := by
  have hlegacy : legacySidecarFile kind =
      some (if kind = .xmr then LEGACY_XMR_SIDECAR_FILE else LEGACY_ZPH_SIDECAR_FILE) := by
    rcases hkind with rfl | rfl <;> rfl
  simp only [flatSidecarFileFor, hlegacy]
  generalize (if kind = .xmr then LEGACY_XMR_SIDECAR_FILE else LEGACY_ZPH_SIDECAR_FILE) = legacy
  split
  · exact .inl rfl
  · rename_i hno
    refine .inr ⟨rfl, fun w hw hk hfile => hno ?_⟩
    exact List.any_eq_true.2 ⟨w, hw, by simp [hk, hfile]⟩

theorem slot_added (hv : Filed v) (hs : Supply opts v) {kind : WalletKind} {e : WalletEntry}
    (h : slot flat v opts a kind = some e) (hfirst : firstOf v.wallets (targetGid v opts a) kind = none) :
    Added v e := by
  obtain ⟨n, hid, -⟩ := slot_id_drawn hs.1 h hfirst
  obtain ⟨hkind, -, -⟩ := slot_spec h
  have hactive : e.id ≠ "active" := hid ▸ hs.2 n
  have hfile := slot_file h
  rw [hfirst] at hfile
  have hfresh : ∀ w ∈ v.wallets, w.id ≠ e.id := fun w hw heq => hs.1.id n w hw (hid ▸ heq.symm)
  have hgroup : OnGroup e → ∀ w ∈ v.wallets, groupKey w = groupKey e → ¬ OnGroup w := by
    intro hg w hw hkey hwg
    rw [groupKey_slot h] at hkey
    have hno := List.find?_eq_none.1 hfirst w hw
    simp [hwg.1, hkey, ← hkind, hg.1] at hno
  have hnamed : Named e ∧ (e.kind ≠ .zano → OnLegacy e → ∀ w ∈ v.wallets, w.kind = e.kind → ¬ OnLegacy w) := by
    cases kind with
    | bip39 =>
      refine ⟨by simp [Named, hkind, WalletKind.isSidecar, hfile, slotFile], fun _ hl => ?_⟩
      simp [OnLegacy, hfile, slotFile] at hl
    | xmr | zph =>
      rcases @flatSidecarFileFor_cases v _ e.id (by first | exact .inl hkind | exact .inr hkind) with hown | ⟨hlegacy, hno⟩
      all_goals rw [Named, if_pos (by rw [hkind]; rfl)]
      · have hon : e.sidecarFile = newSidecarFile e.kind e.id := by rw [hfile, ← hown, hkind]; rfl
        refine ⟨.inr (.inl hon), fun _ hl => ?_⟩
        obtain ⟨f, hf⟩ := Option.isSome_iff_exists.1 hl.1
        exact absurd (hl.2.symm.trans hf) (newSidecarFile_ne_legacy (.inr hactive) (hon.symm.trans hf))
      · have hon : e.sidecarFile = legacySidecarFile e.kind := by rw [hfile, ← hlegacy, hkind]; rfl
        refine ⟨.inl ⟨?_, hon⟩, fun _ _ w hw hk hwl => hno w hw hk ?_⟩
        · rw [hon, hkind]
          rfl
        · rw [(hv.named w hw).2.file, hwl.2, hk]
    | zano =>
      refine ⟨?_, fun hne => absurd hkind hne⟩
      rw [Named, if_pos (by rw [hkind]; rfl)]
      simp only [slotFile, Option.bind_none, Option.map_none, Option.getD_none] at hfile
      split at hfile
      · exact .inl ⟨by rw [hfile]; rfl, by rw [hfile, hkind]; rfl⟩
      · exact .inr (.inr ⟨hkind, by rw [hfile, groupKey_slot h]; rfl⟩)
    | xelis | privateKey | watch => cases h
  exact ⟨hfresh, ⟨hactive, hnamed.1⟩, hnamed.2, hgroup⟩

/-- Every entry of the merged vault is a rebuilt one, new or not, or one that was left alone. -/
theorem merge_entry (hv : Filed v) (hs : Supply opts v) {e : WalletEntry}
    (he : e ∈ (mergeFlatIntoV3 flat (some v) opts a).wallets) :
    (∃ w ∈ v.wallets, Stands w e) ∨ (∃ kind, slot flat v opts a kind = some e) ∧ Added v e := by
  rcases mem_merge.1 he with ⟨kind, h⟩ | ⟨hmem, -⟩
  · cases hfirst : firstOf v.wallets (targetGid v opts a) kind with
    | some w => exact .inl ⟨w, (mem_of_firstOf hfirst).1, slot_stands hv h hfirst⟩
    | none => exact .inr ⟨⟨kind, h⟩, slot_added hv hs h hfirst⟩
  · exact .inl ⟨e, hmem, .refl e⟩

theorem stepped_flat (hv : Filed v) (hs : Supply opts v) : Stepped v (mergeFlatIntoV3 flat (some v) opts a) where
  unique := uniqueIds_merge hv.unique hs.1
  grouped e he := by
    rcases mem_merge.1 he with ⟨kind, h⟩ | ⟨hmem, -⟩
    · rw [(slot_spec h).2.1]
      rfl
    · exact hv.grouped e hmem
  apart e he e' he' := by
    rcases mem_merge.1 he' with ⟨kind', h'⟩ | ⟨hmem', -⟩
    · rw [groupKey_slot h']
      rcases mem_merge.1 he with ⟨kind, h⟩ | ⟨hmem, -⟩
      · exact slot_id_ne_gid hv hs.1 h
      · exact targetGid_ne_id hv hmem
    · rcases merge_entry hv hs he with ⟨w, hw, hstands⟩ | ⟨⟨kind, h⟩, hadded⟩
      · rw [hstands.id]
        exact hv.apart w hw e' hmem'
      · cases hfirst : firstOf v.wallets (targetGid v opts a) kind with
        | some w => exact absurd (slot_id_of_some h hfirst).symm (hadded.fresh w (mem_of_firstOf hfirst).1)
        | none =>
          obtain ⟨n, hid, -⟩ := slot_id_drawn hs.1 h hfirst
          rw [hid]
          exact hs.1.group n e' hmem'
  entry e he := (merge_entry hv hs he).imp_right (·.2)
  once e he e' he' hadded hadded' hkind := by
    have hslot : ∀ x ∈ (mergeFlatIntoV3 flat (some v) opts a).wallets, Added v x →
        slot flat v opts a x.kind = some x := by
      intro x hx hnew
      rcases merge_entry hv hs hx with ⟨w, hw, hstands⟩ | ⟨⟨kind, h⟩, -⟩
      · exact absurd hstands.id.symm (hnew.fresh w hw)
      · rwa [(slot_spec h).1]
    exact Option.some.inj ((hslot e he hadded).symm.trans (hkind ▸ hslot e' he' hadded'))

end

/-! ## The other writes -/

theorem stepped_sub (hv : Filed v) (hu : UniqueIds v')
    (h : ∀ e ∈ v'.wallets, ∃ w ∈ v.wallets, Stands w e ∧ e.groupId = w.groupId) : Stepped v v' where
  unique := hu
  grouped e he := by
    obtain ⟨w, hw, -, hgroup⟩ := h e he
    rw [hgroup]
    exact hv.grouped w hw
  apart e he e' he' := by
    obtain ⟨w, hw, hs, -⟩ := h e he
    obtain ⟨w', hw', hs', -⟩ := h e' he'
    rw [hs.id, hs'.group]
    exact hv.apart w hw w' hw'
  entry e he := by
    obtain ⟨w, hw, hs, -⟩ := h e he
    exact .inl ⟨w, hw, hs⟩
  once e he _ _ hadded _ _ := by
    obtain ⟨w, hw, hs, -⟩ := h e he
    exact absurd hs.id.symm (hadded.fresh w hw)

theorem stepped_remove (hv : Filed v) (id : String) : Stepped v (removeWalletEntry v id).v3 := by
  refine stepped_sub hv (List.Nodup.sublist (List.filter_sublist.map _) hv.unique) fun e he => ?_
  exact ⟨e, (List.mem_filter.1 he).1, .refl e, rfl⟩

theorem stepped_rename (hv : Filed v) (id name : String) : Stepped v (renameWalletEntry v id name) := by
  have hsame : ∀ w : WalletEntry, Stands w (if w.id = id then { w with name } else w) ∧
      (if w.id = id then { w with name } else w).groupId = w.groupId := fun w => by
    split <;> exact ⟨⟨rfl, rfl, rfl, rfl⟩, rfl⟩
  refine stepped_sub hv ?_ fun e he => ?_
  · have hids : (renameWalletEntry v id name).wallets.map (·.id) = v.wallets.map (·.id) := by
      rw [renameWalletEntry, List.map_map]
      exact List.map_congr_left fun w _ => (hsame w).1.id
    rw [UniqueIds, hids]
    exact hv.unique
  · obtain ⟨w, hw, rfl⟩ := List.mem_map.1 he
    exact ⟨w, hw, hsame w⟩

theorem newEntry_spec (spec : NewWalletSpec) (opts : SchemaOpts) :
    (newEntry spec opts).id = opts.genId 0 ∧ (newEntry spec opts).kind = spec.kind ∧
      (newEntry spec opts).groupId = some (opts.orGen spec.groupId 1).1 ∧
      (newEntry spec opts).sidecarFile = newSidecarFile spec.kind (opts.genId 0) := by
  unfold newEntry
  cases spec.kind <;> exact ⟨rfl, rfl, rfl, rfl⟩

theorem stepped_add (hv : Filed v) {opts : SchemaOpts} (hs : Supply opts v) {spec : NewWalletSpec}
    (hgroup : ∀ g, spec.groupId = some g → ∃ w ∈ v.wallets, groupKey w = g) :
    Stepped v (addWalletEntry v spec opts).1 := by
  obtain ⟨hid, hkind, hgid, hfile⟩ := newEntry_spec spec opts
  generalize hnew : newEntry spec opts = new at *
  have hwallets : (addWalletEntry v spec opts).1.wallets = v.wallets ++ [new] := by rw [← hnew]; rfl
  have hmem : ∀ e, e ∈ (addWalletEntry v spec opts).1.wallets ↔ e ∈ v.wallets ∨ e = new := fun e => by
    rw [hwallets, List.mem_append, List.mem_singleton]
  have hkey : groupKey new = (opts.orGen spec.groupId 1).1 := by simp [groupKey, hgid]
  have hfresh : ∀ w ∈ v.wallets, w.id ≠ new.id := fun w hw heq => hs.1.id 0 w hw (hid ▸ heq.symm)
  have hapart : new.id ≠ groupKey new ∧ ∀ w ∈ v.wallets, w.id ≠ groupKey new := by
    rw [hkey, hid]
    cases hg : spec.groupId with
    | some g =>
      obtain ⟨w, hw, rfl⟩ := hgroup g hg
      exact ⟨hs.1.group 0 w hw, fun w' hw' => hv.apart w' hw' w hw⟩
    | none => exact ⟨fun heq => absurd (hs.1.inj heq) (by decide), fun w hw => (hs.1.id 1 w hw).symm⟩
  have hown : OnOwn new := by rw [OnOwn, hfile, hkind, hid]
  have hactive : new.id ≠ "active" := hid ▸ hs.2 0
  have hadded : Added v new := by
    refine ⟨hfresh, ⟨hactive, ?_⟩, fun _ hl => ?_, fun hg => ?_⟩
    · by_cases hk : new.kind.isSidecar
      · rw [Named, if_pos hk]
        exact .inr (.inl hown)
      · rw [Named, if_neg hk, hfile]
        cases hn : newSidecarFile spec.kind (opts.genId 0) with
        | none => rfl
        | some f => exact absurd (isSidecar_of_newSidecarFile hn) (hkind ▸ hk)
    · obtain ⟨f, hf⟩ := Option.isSome_iff_exists.1 hl.1
      exact absurd (hl.2.symm.trans hf) (newSidecarFile_ne_legacy (.inr hactive) (hown.symm.trans hf))
    · have heq : newSidecarFile .zano new.id = newSidecarFile .zano (groupKey new) := by
        rw [← hg.2, hown, hg.1]
      exact absurd (newSidecarFile_inj heq rfl) hapart.1
  refine ⟨?_, fun e he => ?_, fun e he e' he' => ?_, fun e he => ?_, fun e he e' he' h h' _ => ?_⟩
  · rw [UniqueIds, hwallets, List.map_append, List.nodup_append]
    refine ⟨hv.unique, List.nodup_singleton _, ?_⟩
    rintro i hi j hj rfl
    obtain ⟨w, hw, hwi⟩ := List.mem_map.1 hi
    exact hfresh w hw (hwi.trans (by simpa using hj))
  · rcases (hmem e).1 he with he | rfl
    · exact hv.grouped e he
    · rw [hgid]
      rfl
  · rcases (hmem e).1 he with he | rfl <;> rcases (hmem e').1 he' with he' | rfl
    · exact hv.apart e he e' he'
    · exact hapart.2 e he
    · rw [hid]
      exact hs.1.group 0 e' he'
    · exact hapart.1
  · rcases (hmem e).1 he with he | rfl
    · exact .inl ⟨e, he, .refl e⟩
    · exact .inr hadded
  · rcases (hmem e).1 he with he | rfl
    · exact absurd rfl (h.fresh e he)
    · rcases (hmem e').1 he' with he' | rfl
      · exact absurd rfl (h'.fresh e' he')
      · rfl

theorem stepped_apply {loc : Intl} (hv : Filed v) {m : VaultMove} (hok : m.Ok v) : Stepped v (m.apply loc v) := by
  cases m with
  | flat payload opts a => exact stepped_flat hv hok
  | add spec opts => exact stepped_add hv hok.1 hok.2
  | addXelis seed opts a =>
    have hself : Stepped v v := stepped_sub hv hv.unique fun e he => ⟨e, he, .refl e, rfl⟩
    simp only [VaultMove.apply, addXelisWalletToContext]
    split
    · rename_i next _ _ heq
      split at heq
      · split at heq
        · cases heq
          exact hself
        · cases heq
      · split at heq
        · cases heq
        · cases heq
          exact stepped_add hv hok fun g hg => exists_of_groupIdForWallet hg
    · exact hself
  | remove id => exact stepped_remove hv id
  | rename id name => exact stepped_rename hv id name

/-! ## Every reached vault -/

theorem filed_congr (h : v.wallets = v'.wallets) (hv : Filed v) : Filed v' := by
  obtain ⟨hu, h₁, h₂, h₃, h₄, h₅⟩ := hv
  rw [UniqueIds] at hu
  rw [h] at hu h₁ h₂ h₃ h₄ h₅
  exact ⟨hu, h₁, h₂, h₃, h₄, h₅⟩

/-- Where there is no vault, a merge makes the entries of a migration. -/
theorem merge_none (p : VaultPayload) (opts : SchemaOpts) (a : Option String) :
    (mergeFlatIntoV3 p none opts a).wallets = (migrateV2ToV3 p opts).wallets := by
  have hfirst : ∀ gid, firstOf [] gid = fun _ => none := fun _ => rfl
  have hfile : ∀ gid id kind, slotFile none none gid id kind = legacySidecarFile kind := by
    intro gid id kind
    cases kind <;> simp [slotFile, flatSidecarFileFor, legacySidecarFile]
  simp [mergeFlatIntoV3, migrateV2ToV3, SchemaOpts.orGen, hfirst, hfile]

theorem filed_initial (h : Initial v) : Filed v := by
  obtain ⟨p, opts, a, hs, hv⟩ := h
  -- a first save is one into an empty vault that already has the legacy Zano name
  obtain ⟨v₀, hv₀, hzano⟩ : ∃ v₀ : VaultPayloadV3, v₀.wallets = [] ∧ (truthy v₀.zanoSeed).isSome :=
    ⟨{ wallets := [], zanoSeed := some "words" }, rfl, by decide⟩
  have hempty : Filed v₀ := by
    refine ⟨?_, ?_, ?_, ?_, ?_, ?_⟩ <;> simp [UniqueIds, hv₀]
  have hfresh : Supply opts v₀ := by
    refine ⟨⟨hs.1.inj, ?_, ?_⟩, hs.2⟩ <;> simp [hv₀]
  have hgid : groupIdForWallet v₀ a = none := groupIdForWallet_eq_none.2 hv₀
  have hfirst : ∀ gid, firstOf [] gid = fun _ => none := fun _ => rfl
  have hfile : ∀ gid id kind, slotFile (some v₀) none gid id kind = legacySidecarFile kind := by
    intro gid id kind
    cases kind <;> simp [slotFile, hzano, hv₀, flatSidecarFileFor, legacySidecarFile]
  have hmerge : (mergeFlatIntoV3 p (some v₀) opts a).wallets = (migrateV2ToV3 p opts).wallets := by
    have hsorted : (mergedParts p v₀ opts a).Pairwise fun w w' =>
        decide (orderOf v₀.wallets w.id ≤ orderOf v₀.wallets w'.id) = true :=
      List.pairwise_of_forall fun w w' => by simp [orderOf, hv₀]
    rw [merge_wallets, sortOn, sort, hsorted.insertionSort_eq]
    simp only [mergedParts, hv₀, List.filter_nil, List.append_nil, migrateV2ToV3]
    refine List.filterMap_congr fun kind _ => ?_
    simp [slot, targetIds, targetGid, hgid, SchemaOpts.orGen, hv₀, hfirst, hfile]
  have hnone : (mergeFlatIntoV3 p none opts a).wallets = (migrateV2ToV3 p opts).wallets := merge_none p opts a
  have hfiled := filed_of_stepped hempty (@stepped_flat v₀ p _ a hempty hfresh)
  rcases hv with rfl | rfl
  · exact filed_congr (hmerge.trans hnone.symm) hfiled
  · exact filed_congr hmerge hfiled

theorem filed_of_reached {loc : Intl} (h : VaultReached loc v) : Filed v := by
  obtain ⟨v₀, h₀, hrun⟩ := h
  refine hrun.inv (filed_initial h₀) fun s m s' hs hok hstep => ?_
  obtain rfl := Option.some.inj hstep
  exact filed_of_stepped hs (stepped_apply hs hok)

/-! ## One file per wallet -/

theorem Filed.one_file (hv : Filed v) {w w' : WalletEntry} (hw : w ∈ v.wallets) (hw' : w' ∈ v.wallets)
    (hkind : w.kind = w'.kind) {f : String} (h : sidecarFileForEntry w = some f)
    (h' : sidecarFileForEntry w' = some f) : w = w' ∨ (w.kind = .zano ∧ f = LEGACY_ZANO_SIDECAR_FILE) := by
  obtain ⟨hactive, hnamed⟩ := hv.named w hw
  obtain ⟨hactive', hnamed'⟩ := hv.named w' hw'
  rw [hnamed.file] at h
  rw [hnamed'.file] at h'
  obtain ⟨hside, hl | ho | hg⟩ := hnamed.sidecar h <;> obtain ⟨-, hl' | ho' | hg'⟩ := hnamed'.sidecar h'
  · by_cases hzano : w.kind = .zano
    · refine .inr ⟨hzano, ?_⟩
      have hf := hl.2.symm.trans h
      rw [hzano] at hf
      exact (Option.some.inj hf).symm
    · exact .inl (hv.legacy w hw w' hw' hkind hzano hl hl')
  · exact absurd (hkind ▸ hl.2.symm.trans h) (newSidecarFile_ne_legacy (.inr hactive') (ho'.symm.trans h'))
  · exact absurd ((hkind.trans hg'.1) ▸ hl.2.symm.trans h) (newSidecarFile_ne_legacy (.inl rfl) (hg'.2.symm.trans h'))
  · exact absurd (hkind ▸ hl'.2.symm.trans h') (newSidecarFile_ne_legacy (.inr hactive) (ho.symm.trans h))
  · rw [OnOwn, ← hkind] at ho'
    have heq : newSidecarFile w.kind w.id = newSidecarFile w.kind w'.id := by rw [← ho, ← ho', h, h']
    exact .inl (hv.unique.eq hw hw' (newSidecarFile_inj heq hside))
  · have heq : newSidecarFile .zano w.id = newSidecarFile .zano (groupKey w') := by
      rw [← hg'.2, ← hg'.1, ← hkind, ← ho, h, h']
    exact absurd (newSidecarFile_inj heq rfl) (hv.apart w hw w' hw')
  · exact absurd (hg.1 ▸ hkind ▸ hl'.2.symm.trans h') (newSidecarFile_ne_legacy (.inl rfl) (hg.2.symm.trans h))
  · have heq : newSidecarFile .zano w'.id = newSidecarFile .zano (groupKey w) := by
      rw [← hg.2, ← hg.1, hkind, ← ho', h, h']
    exact absurd (newSidecarFile_inj heq rfl) (hv.apart w' hw' w hw)
  · have heq : newSidecarFile .zano (groupKey w) = newSidecarFile .zano (groupKey w') := by
      rw [← hg.2, ← hg'.2, h, h']
    exact .inl (hv.byGroup w hw w' hw' (newSidecarFile_inj heq rfl) hg hg')

/-- In a reached vault no entry is on the name of another's id, so a repair leaves none that share. -/
theorem Filed.ownNames (hv : Filed v) : OwnNames v := by
  intro w hw w' hw' own hown hfile
  obtain ⟨f, hf, rfl⟩ := Option.map_eq_some_iff.1 hown
  obtain ⟨hactive, -⟩ := hv.named w hw
  obtain ⟨-, hnamed'⟩ := hv.named w' hw'
  obtain ⟨hkind, hres⟩ : w'.kind = w.kind ∧ w'.sidecarFile = some f := by
    unfold fileKey at hfile
    split at hfile
    · cases hfile
    · rename_i file heq
      obtain ⟨hk, rfl⟩ := Prod.mk.inj (Option.some.inj hfile)
      exact ⟨hk, hnamed'.file ▸ (truthy_eq_some.1 heq).1⟩
  obtain ⟨-, hl | ho | hg⟩ := hnamed'.sidecar hres
  · exact absurd (hkind ▸ hl.2.symm.trans hres) (newSidecarFile_ne_legacy (.inr hactive) hf)
  · have heq : newSidecarFile w.kind w'.id = newSidecarFile w.kind w.id := by
      rw [hf, ← hres, ho, hkind]
    exact hv.unique.eq hw' hw (newSidecarFile_inj heq (isSidecar_of_newSidecarFile hf))
  · have heq : newSidecarFile .zano (groupKey w') = newSidecarFile .zano w.id := by
      rw [← hg.2, hres, ← hf, ← hkind, hg.1]
    exact absurd (newSidecarFile_inj heq rfl).symm (hv.apart w hw w' hw')

/-- What a repair does to a vault with unique ids. -/
structure RepairLaws (loc : Intl) (u : VaultPayloadV3) : Prop where
  /-- Nothing but entries changes. -/
  entries : (repairSharedSidecarFiles loc u).1 = { u with wallets := u.wallets.map (repaired loc u) }
  /-- An entry that changes gets the file of its own id, and was on a file that another one keeps. -/
  only : ∀ w ∈ u.wallets, repaired loc u w = w ∨
    repaired loc u w = { w with sidecarFile := newSidecarFile w.kind w.id } ∧
      ∃ k ∈ u.wallets, k ≠ w ∧ repaired loc u k = k ∧ fileKey w = fileKey k ∧ (fileKey k).isSome
  /-- The primary group keeps the files that it is on. -/
  primary : ∀ w ∈ u.wallets, ∀ key, fileKey w = some key → some (groupKey w) = primaryGroupId u →
    ∃ k ∈ u.wallets, fileKey k = some key ∧ some (groupKey k) = primaryGroupId u ∧ repaired loc u k = k
  /-- Files are shared afterwards only if an entry was on the name of another's id. -/
  separate : OwnNames u → NoSharing (repairSharedSidecarFiles loc u).1
  idempotent : repairSharedSidecarFiles loc (repairSharedSidecarFiles loc u).1 =
    ((repairSharedSidecarFiles loc u).1, [])

theorem repairLaws (loc : Intl) {u : VaultPayloadV3} (hu : UniqueIds u) : RepairLaws loc u where
  entries := rfl
  only w hw := by
    by_cases hm : Moves loc u w
    · refine .inr ⟨repaired_of_moves hu hm, ?_⟩
      obtain ⟨key, hkey, hkeeper⟩ := hm.2.1
      obtain ⟨k, hk⟩ := @exists_keeper loc u _ _ hw hkey
      obtain ⟨hin, hkk⟩ := keeper_mem hk
      refine ⟨k, hin, fun heq => hkeeper (heq ▸ hk), repaired_of_not hu hin (keeper_stays hk), ?_, ?_⟩
      · rw [hkey, hkk]
      · rw [hkk]
        rfl
    · exact .inl (repaired_of_not hu hw hm)
  primary w hw key hkey hp := by
    obtain ⟨k, hk⟩ := @exists_keeper loc u _ _ hw hkey
    obtain ⟨hin, hkk⟩ := keeper_mem hk
    exact ⟨k, hin, hkk, keeper_primary hk hw hkey hp, repaired_of_not hu hin (keeper_stays hk)⟩
  separate := noSharing_repair hu
  idempotent := repair_idempotent hu

/-- In every reached vault two entries of one kind are on different files, but for Zano entries on
`pwnda.zan`, no write moves an entry to another file, and a repair separates those that share; and for
every vault with unique ids the repair has its laws. -/
theorem one_file_per_wallet (loc : Intl) {v u : VaultPayloadV3} (h : VaultReached loc v) (hu : UniqueIds u) :
    (∀ w ∈ v.wallets, ∀ w' ∈ v.wallets, w.kind = w'.kind → ∀ f, sidecarFileForEntry w = some f →
      sidecarFileForEntry w' = some f → w = w' ∨ (w.kind = .zano ∧ f = LEGACY_ZANO_SIDECAR_FILE)) ∧
    (∀ m : VaultMove, m.Ok v → ∀ w ∈ v.wallets, ∀ e ∈ (m.apply loc v).wallets, e.id = w.id →
      sidecarFileForEntry e = sidecarFileForEntry w) ∧
    NoSharing (repairSharedSidecarFiles loc v).1 ∧
    RepairLaws loc u := by
  have hv := filed_of_reached h
  refine ⟨fun w hw w' hw' hkind f => hv.one_file hw hw' hkind, fun m hok w hw e he hid => ?_, ?_, repairLaws loc hu⟩
  · exact file_kept hv (stepped_apply hv hok) hw he hid
  · exact noSharing_repair hv.unique hv.ownNames

/-! ## Three contexts with a Zano wallet each -/

/-- Ids that start with a letter of their own. -/
def tagged (tag : Char) : SchemaOpts where
  now := 1
  genId n := String.ofList (tag :: List.replicate n 'i')

theorem supply_tagged {tag : Char} {v : VaultPayloadV3} (htag : tag ≠ 'a')
    (h : ∀ w ∈ v.wallets, w.id.toList.head? ≠ some tag ∧ (groupKey w).toList.head? ≠ some tag) :
    Supply (tagged tag) v := by
  have hhead : ∀ n, ((tagged tag).genId n).toList.head? = some tag := fun n => by simp [tagged]
  refine ⟨⟨fun {m n} heq => ?_, fun n w hw heq => ?_, fun n w hw heq => ?_⟩, fun n heq => ?_⟩
  · have hlen := congrArg String.length heq
    simpa [tagged] using hlen
  · exact (h w hw).1 (heq ▸ hhead n)
  · exact (h w hw).2 (heq ▸ hhead n)
  · have hactive := hhead n
    rw [heq] at hactive
    exact htag (Option.some.inj hactive).symm

def zanoMain : VaultPayloadV3 := migrateV2ToV3 { bip39 := "abandon ability able" } (tagged 'm')

def zanoSecond : VaultPayloadV3 :=
  (addWalletEntry zanoMain { kind := .bip39, seed := "about above absent", name := "Second" } (tagged 'n')).1

def zanoThird : VaultPayloadV3 :=
  (addWalletEntry zanoSecond { kind := .bip39, seed := "absorb abstract absurd", name := "Third" } (tagged 'o')).1

/-- The flat save of a Zano seed into the context of `a`. -/
def zanoSave (v : VaultPayloadV3) (a seed : String) (tag : Char) : VaultMove :=
  .flat { projectV3ToV2 v (some a) with zanoSeed := some seed } (tagged tag) (some a)

def zanoSaved : VaultPayloadV3 :=
  let v₁ := (zanoSave zanoThird "all" "deep" 'p').apply .ascii zanoThird
  let v₂ := (zanoSave v₁ "n" "deer" 'q').apply .ascii v₁
  (zanoSave v₂ "o" "dear" 'r').apply .ascii v₂

theorem initial_zanoMain : Initial zanoMain :=
  ⟨{ bip39 := "abandon ability able" }, tagged 'm', none,
    supply_tagged (by decide) fun w hw => absurd hw List.not_mem_nil, .inr rfl⟩

theorem reached_zanoSaved : VaultReached .ascii zanoSaved := by
  refine ⟨zanoMain, initial_zanoMain, ?_⟩
  have hadd : ∀ {v spec tag}, (tagged tag).now = 1 → spec.groupId = none → Supply (tagged tag) v →
      VaultMove.Ok v (.add spec (tagged tag)) := fun _ hno hs =>
    ⟨hs, fun g hg => by rw [hno] at hg; cases hg⟩
  refine .step (zanoSave _ "o" "dear" 'r') (.step (zanoSave _ "n" "deer" 'q') (.step (zanoSave _ "all" "deep" 'p')
    (.step (.add _ (tagged 'o')) (.step (.add _ (tagged 'n')) .refl ?_ rfl) ?_ rfl) ?_ rfl) ?_ rfl) ?_ rfl
  · exact hadd rfl rfl (supply_tagged (by decide) (by decide +kernel))
  · exact hadd rfl rfl (supply_tagged (by decide) (by decide +kernel))
  · exact supply_tagged (by decide) (by decide +kernel)
  · exact supply_tagged (by decide) (by decide +kernel)
  · exact supply_tagged (by decide) (by decide +kernel)

theorem one_file_per_wallet_sample : NoSharing (repairSharedSidecarFiles .ascii zanoSaved).1 :=
  (one_file_per_wallet .ascii reached_zanoSaved (filed_of_reached reached_zanoSaved).unique).2.2.1

def xmrOn (id file : String) : WalletEntry where
  id := id
  name := id
  kind := .xmr
  seed := id
  createdAt := 1
  groupId := some "g"
  sidecarFile := some file

/-- Two contexts' Zano wallets on `pwnda.zan` after three saves; and a vault in which the name of an
entry's id is taken, so that the repair leaves it where it is. -/
theorem not_one_file :
    (∃ v, VaultReached .ascii v ∧ ∃ w ∈ v.wallets, ∃ w' ∈ v.wallets, w.id ≠ w'.id ∧ w.kind = .zano ∧
      w'.kind = .zano ∧ sidecarFileForEntry w = some "pwnda.zan" ∧ sidecarFileForEntry w' = some "pwnda.zan") ∧
    ∃ u, UniqueIds u ∧ ¬ NoSharing (repairSharedSidecarFiles .ascii u).1 := by
  refine ⟨⟨zanoSaved, reached_zanoSaved, by decide +kernel⟩, ?_⟩
  refine ⟨{ wallets := [xmrOn "one" "shared", xmrOn "two" "shared", xmrOn "three" "pwnda-xmr-two"] },
    by unfold UniqueIds; decide, fun h => ?_⟩
  have hone := h (xmrOn "one" "shared") (by decide +kernel) (xmrOn "two" "shared") (by decide +kernel) (.xmr, "shared")
    (by decide +kernel) (by decide +kernel)
  revert hone
  decide

end Vault
