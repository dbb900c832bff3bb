import PwndaWallet.Vault.Entries
import PwndaWallet.Vault.Schema

/-!
# Giving every wallet its own file again

Of the entries that share a file one keeps it, the primary group's if it is among them, and each other
one moves to the name of its own id, unless that name is in use.
-/

namespace Vault

open Js

/-! ## The keeper of a file -/

def priority (p : Option String) (w : WalletEntry) : Nat := if some (groupKey w) == p then 0 else 1

theorem keeperLe_iff {loc : Intl} {p : Option String} {a b : WalletEntry} : keeperLe loc p a b ↔
    priority p a < priority p b ∨ (priority p a = priority p b ∧
      (a.createdAt < b.createdAt ∨ (a.createdAt = b.createdAt ∧ loc.localeLe a.id b.id))) := by
  unfold keeperLe priority
  cases ha : some (groupKey a) == p <;> cases hb : some (groupKey b) == p <;>
    by_cases hc : a.createdAt = b.createdAt <;> simp [bne, ha, hb, hc]

theorem keeperLe_total (loc : Intl) (p : Option String) (a b : WalletEntry) :
    keeperLe loc p a b ∨ keeperLe loc p b a := by
  rw [keeperLe_iff, keeperLe_iff]
  rcases loc.localeLe_total a.id b.id with h | h <;> simp only [h, and_true] <;> omega

theorem keeperLe_trans (loc : Intl) (p : Option String) (a b c : WalletEntry) :
    keeperLe loc p a b → keeperLe loc p b c → keeperLe loc p a c := by
  rw [keeperLe_iff, keeperLe_iff, keeperLe_iff]
  rintro (h | ⟨h, hc | ⟨hc, hl⟩⟩) (h' | ⟨h', hc' | ⟨hc', hl'⟩⟩) <;>
    first
    | (left; omega)
    | (right; exact ⟨by omega, by left; omega⟩)
    | exact .inr ⟨h.trans h', .inr ⟨hc.trans hc', loc.localeLe_trans _ _ _ hl hl'⟩⟩

variable {loc : Intl} {v : VaultPayloadV3}

/-- The entries on one file. -/
def sharers (v : VaultPayloadV3) (key : WalletKind × String) : List WalletEntry :=
  v.wallets.filter fun w => fileKey w = some key

/-- The one of them that keeps it. -/
def keeper (loc : Intl) (v : VaultPayloadV3) (key : WalletKind × String) : Option WalletEntry :=
  (sort (keeperLe loc (primaryGroupId v)) (sharers v key)).head?

theorem mem_sharers {key : WalletKind × String} {w : WalletEntry} :
    w ∈ sharers v key ↔ w ∈ v.wallets ∧ fileKey w = some key := by
  simp [sharers]

theorem keeper_mem {key : WalletKind × String} {w : WalletEntry} (h : keeper loc v key = some w) :
    w ∈ v.wallets ∧ fileKey w = some key :=
  mem_sharers.1 (mem_sort.1 (List.mem_of_head? h))

theorem exists_keeper {key : WalletKind × String} {w : WalletEntry} (hw : w ∈ v.wallets)
    (hk : fileKey w = some key) : ∃ k, keeper loc v key = some k := by
  have hmem : w ∈ sort (keeperLe loc (primaryGroupId v)) (sharers v key) :=
    mem_sort.2 (mem_sharers.2 ⟨hw, hk⟩)
  obtain ⟨k, rest, hcons⟩ := List.exists_cons_of_ne_nil (List.ne_nil_of_mem hmem)
  exact ⟨k, by rw [keeper, hcons]; rfl⟩

theorem keeper_le {key : WalletKind × String} {k w : WalletEntry} (h : keeper loc v key = some k)
    (hw : w ∈ v.wallets) (hk : fileKey w = some key) : w = k ∨ keeperLe loc (primaryGroupId v) k w := by
  have hsorted := pairwise_sort (keeperLe_total loc (primaryGroupId v)) (keeperLe_trans loc _) (sharers v key)
  have hmem : w ∈ sort (keeperLe loc (primaryGroupId v)) (sharers v key) :=
    mem_sort.2 (mem_sharers.2 ⟨hw, hk⟩)
  unfold keeper at h
  cases hs : sort (keeperLe loc (primaryGroupId v)) (sharers v key) with
  | nil => simp [hs] at h
  | cons k' rest =>
    obtain rfl : k' = k := by simpa [hs] using h
    rw [hs] at hsorted hmem
    rcases List.mem_cons.1 hmem with rfl | hin
    · exact .inl rfl
    · exact .inr ((List.pairwise_cons.1 hsorted).1 w hin)

/-- The primary group's entry keeps the file if it is among those that share it. -/
theorem keeper_primary {key : WalletKind × String} {k w : WalletEntry} (h : keeper loc v key = some k)
    (hw : w ∈ v.wallets) (hk : fileKey w = some key) (hp : some (groupKey w) = primaryGroupId v) :
    some (groupKey k) = primaryGroupId v := by
  rcases keeper_le h hw hk with rfl | hle
  · exact hp
  · by_contra hne
    simp [keeperLe, hne, hp] at hle

/-! ## Which entries move -/

/-- The name that an entry moves to. -/
def ownKey (w : WalletEntry) : Option (WalletKind × String) := (newSidecarFile w.kind w.id).map (w.kind, ·)

/-- The entry is on a file that another keeps, and the name of its own id is free. -/
def Moves (loc : Intl) (v : VaultPayloadV3) (w : WalletEntry) : Prop :=
  w ∈ v.wallets ∧ (∃ key, fileKey w = some key ∧ keeper loc v key ≠ some w) ∧
    ∃ own, ownKey w = some own ∧ ∀ x ∈ v.wallets, fileKey x ≠ some own

theorem newSidecarFile_inj {kind : WalletKind} {i j : String} (h : newSidecarFile kind i = newSidecarFile kind j)
    (hk : kind.isSidecar) : i = j := by
  cases kind with
  | xmr | zph | xelis => exact (String.append_right_inj _).1 (Option.some.inj h)
  | zano => exact (String.append_right_inj _).1 ((String.append_left_inj _).1 (Option.some.inj h))
  | bip39 | privateKey | watch => cases hk

theorem isSidecar_of_newSidecarFile {kind : WalletKind} {i f : String} (h : newSidecarFile kind i = some f) :
    kind.isSidecar := by
  cases kind <;> first | rfl | cases h

theorem ownKey_inj {w w' : WalletEntry} {own : WalletKind × String} (h : ownKey w = some own)
    (h' : ownKey w' = some own) : w.id = w'.id := by
  obtain ⟨f, hf, rfl⟩ := Option.map_eq_some_iff.1 h
  obtain ⟨f', hf', hown⟩ := Option.map_eq_some_iff.1 h'
  obtain ⟨hkind, rfl⟩ := Prod.mk.inj hown
  rw [hkind] at hf'
  exact newSidecarFile_inj (hf.trans hf'.symm) (isSidecar_of_newSidecarFile hf)

/-! ## The fold -/

/-- What the moves so far are, and which names are in use. -/
structure Going (loc : Intl) (v : VaultPayloadV3) (r : Repairing) : Prop where
  used (key : WalletKind × String) : key ∈ r.used ↔
    (∃ x ∈ v.wallets, fileKey x = some key) ∨ ∃ m ∈ r.repairs, key = (m.kind, m.target)
  repairs (m : SidecarFileRepair) : m ∈ r.repairs →
    ∃ w, Moves loc v w ∧ m.id = w.id ∧ m.kind = w.kind ∧ newSidecarFile w.kind w.id = some m.target

/-- The entry has moved, or the name of its own id was in use. -/
def Done (v : VaultPayloadV3) (r : Repairing) (w : WalletEntry) : Prop :=
  (∃ m ∈ r.repairs, m.id = w.id) ∨ ∀ own, ownKey w = some own → ∃ x ∈ v.wallets, fileKey x = some own

theorem done_mono {r r' : Repairing} {w : WalletEntry} (h : Done v r w)
    (hsub : ∀ m ∈ r.repairs, m ∈ r'.repairs) : Done v r' w := by
  rcases h with ⟨m, hm, hid⟩ | hused
  · exact .inl ⟨m, hsub m hm, hid⟩
  · exact .inr hused

theorem repairs_moveOne (source : String) (r : Repairing) (w : WalletEntry) :
    ∀ m ∈ r.repairs, m ∈ (moveOne source r w).repairs := by
  intro m hm
  unfold moveOne
  split
  · exact hm
  · split
    · exact hm
    · exact List.mem_append_left _ hm

theorem moveOne_going {source : String} {r : Repairing} {w : WalletEntry} (h : Going loc v r)
    (hw : w ∈ v.wallets) (hk : ∃ key, fileKey w = some key ∧ keeper loc v key ≠ some w) :
    Going loc v (moveOne source r w) ∧ Done v (moveOne source r w) w := by
  unfold moveOne
  split
  · rename_i hnone
    exact ⟨h, .inr fun own hown => by simp [ownKey, hnone] at hown⟩
  rename_i target htarget
  have hown : ownKey w = some (w.kind, target) := by simp [ownKey, htarget]
  split
  · rename_i hused
    refine ⟨h, ?_⟩
    rcases (h.used _).1 hused with ⟨x, hx, hxk⟩ | ⟨m, hm, heq⟩
    · exact .inr fun own ho => ⟨x, hx, by rw [hxk, ← hown, ho]⟩
    · obtain ⟨w', -, hid, hkind, htarget'⟩ := h.repairs m hm
      obtain ⟨hwk, rfl⟩ := Prod.mk.inj heq
      rw [← hkind, ← hwk] at htarget'
      have hsame := newSidecarFile_inj (htarget'.trans htarget.symm) (isSidecar_of_newSidecarFile htarget)
      exact .inl ⟨m, hm, hid.trans hsame⟩
  · rename_i hfree
    have hno : ∀ x ∈ v.wallets, fileKey x ≠ some (w.kind, target) := fun x hx hxk =>
      hfree ((h.used _).2 (.inl ⟨x, hx, hxk⟩))
    refine ⟨⟨fun key => ?_, fun m hm => ?_⟩, .inl ⟨_, List.mem_append_right _ List.mem_cons_self, rfl⟩⟩
    · simp only [List.mem_append, h.used key, List.mem_singleton, or_and_right, exists_or, exists_eq_left]
      rw [or_assoc]
    · rcases List.mem_append.1 hm with hm | hm
      · exact h.repairs m hm
      · obtain rfl := List.mem_singleton.1 hm
        exact ⟨w, ⟨hw, hk, _, hown, hno⟩, rfl, rfl, htarget⟩

theorem foldl_moveOne {source : String} {others : List WalletEntry} {r : Repairing} (h : Going loc v r)
    (hothers : ∀ w ∈ others, w ∈ v.wallets ∧ ∃ key, fileKey w = some key ∧ keeper loc v key ≠ some w) :
    Going loc v (others.foldl (moveOne source) r) ∧
      (∀ w ∈ others, Done v (others.foldl (moveOne source) r) w) ∧
      ∀ m ∈ r.repairs, m ∈ (others.foldl (moveOne source) r).repairs := by
  induction others generalizing r with
  | nil => exact ⟨h, fun w hw => absurd hw List.not_mem_nil, fun _ hm => hm⟩
  | cons w others ih =>
    obtain ⟨hw, hk⟩ := hothers w List.mem_cons_self
    obtain ⟨hgoing, hdone⟩ := @moveOne_going loc v source _ _ h hw hk
    obtain ⟨hg, hall, hsub⟩ := ih hgoing fun x hx => hothers x (List.mem_cons_of_mem _ hx)
    refine ⟨hg, fun x hx => ?_, fun m hm => hsub m (repairs_moveOne source r w m hm)⟩
    rcases List.mem_cons.1 hx with rfl | hx
    · exact done_mono hdone hsub
    · exact hall x hx

/-- One group: all but the keeper are done. -/
theorem repairGroup_going {r : Repairing} {key : WalletKind × String} (h : Going loc v r)
    (hu : UniqueIds v) :
    Going loc v (repairGroup loc (primaryGroupId v) r (key, sharers v key)) ∧
      (∀ w ∈ sharers v key, keeper loc v key ≠ some w →
        Done v (repairGroup loc (primaryGroupId v) r (key, sharers v key)) w) ∧
      ∀ m ∈ r.repairs, m ∈ (repairGroup loc (primaryGroupId v) r (key, sharers v key)).repairs := by
  have hnodup : (sort (keeperLe loc (primaryGroupId v)) (sharers v key)).Nodup :=
    (perm_sort _ _).nodup_iff.2 ((List.Nodup.of_map _ hu).filter _)
  have hmem : ∀ w, w ∈ sort (keeperLe loc (primaryGroupId v)) (sharers v key) ↔ w ∈ sharers v key :=
    fun w => mem_sort
  unfold repairGroup keeper
  cases hs : sort (keeperLe loc (primaryGroupId v)) (sharers v key) with
  | nil => exact ⟨h, fun w hw => absurd ((hmem w).2 hw) (by simp [hs]), fun _ hm => hm⟩
  | cons k others =>
    rw [hs] at hnodup hmem
    have hkeeper : keeper loc v key = some k := by simp [keeper, hs]
    have hothers : ∀ w ∈ others, w ∈ v.wallets ∧ ∃ key, fileKey w = some key ∧ keeper loc v key ≠ some w := by
      intro w hw
      obtain ⟨hin, hkey⟩ := mem_sharers.1 ((hmem w).1 (List.mem_cons_of_mem _ hw))
      refine ⟨hin, key, hkey, ?_⟩
      rw [hkeeper]
      rintro heq
      obtain rfl := Option.some.inj heq
      exact (List.nodup_cons.1 hnodup).1 hw
    obtain ⟨hg, hdone, hsub⟩ := @foldl_moveOne loc v key.2 _ _ h hothers
    refine ⟨hg, fun w hw hne => hdone w ?_, hsub⟩
    rcases List.mem_cons.1 ((hmem w).2 hw) with rfl | hin
    · exact absurd rfl hne
    · exact hin

/-- The entries that have a file, with it. -/
def keyed (wallets : List WalletEntry) : List ((WalletKind × String) × WalletEntry) :=
  wallets.filterMap fun w => (fileKey w).map fun key => (key, w)

theorem filter_keyed (key : WalletKind × String) (wallets : List WalletEntry) :
    ((keyed wallets).filter (·.1 = key)).map (·.2) = wallets.filter fun w => fileKey w = some key := by
  induction wallets with
  | nil => rfl
  | cons w wallets ih =>
    unfold keyed at ih ⊢
    cases hk : fileKey w with
    | none => simpa [hk] using ih
    | some key' => by_cases hkey : key' = key <;> simpa [hk, hkey] using ih

/-- The map of the entries by their file. -/
def sharing (wallets : List WalletEntry) : List ((WalletKind × String) × List WalletEntry) :=
  (group (·.1) (keyed wallets)).map fun e => (e.1, e.2.map (·.2))

theorem sharing_eq {e : (WalletKind × String) × List WalletEntry} (h : e ∈ sharing v.wallets) :
    e = (e.1, sharers v e.1) := by
  obtain ⟨g, hg, rfl⟩ := List.mem_map.1 h
  rw [(mem_group.1 hg).2, filter_keyed]
  rfl

theorem exists_sharing {w : WalletEntry} {key : WalletKind × String} (hw : w ∈ v.wallets)
    (hk : fileKey w = some key) : (key, sharers v key) ∈ sharing v.wallets := by
  have hin : (key, w) ∈ keyed v.wallets := List.mem_filterMap.2 ⟨w, hw, by simp [hk]⟩
  have hg : (key, (keyed v.wallets).filter (·.1 = key)) ∈ group (·.1) (keyed v.wallets) :=
    mem_group.2 ⟨List.mem_map.2 ⟨_, hin, rfl⟩, rfl⟩
  exact List.mem_map.2 ⟨_, hg, by rw [filter_keyed]; rfl⟩

theorem foldl_repairGroup (hu : UniqueIds v) {groups : List ((WalletKind × String) × List WalletEntry)}
    {r : Repairing} (h : Going loc v r) (hgroups : ∀ e ∈ groups, e = (e.1, sharers v e.1)) :
    Going loc v (groups.foldl (repairGroup loc (primaryGroupId v)) r) ∧
      (∀ e ∈ groups, ∀ w ∈ sharers v e.1, keeper loc v e.1 ≠ some w →
        Done v (groups.foldl (repairGroup loc (primaryGroupId v)) r) w) ∧
      ∀ m ∈ r.repairs, m ∈ (groups.foldl (repairGroup loc (primaryGroupId v)) r).repairs := by
  induction groups generalizing r with
  | nil => exact ⟨h, fun e he => absurd he List.not_mem_nil, fun _ hm => hm⟩
  | cons e groups ih =>
    have he := hgroups e List.mem_cons_self
    obtain ⟨hgoing, hdone, hkeep⟩ := @repairGroup_going loc v _ e.1 h hu
    rw [← he] at hgoing hdone hkeep
    obtain ⟨hg, hall, hsub⟩ := ih hgoing fun x hx => hgroups x (List.mem_cons_of_mem _ hx)
    refine ⟨hg, fun x hx w hw hne => ?_, fun m hm => hsub m (hkeep m hm)⟩
    rcases List.mem_cons.1 hx with rfl | hx
    · exact done_mono (hdone w hw hne) hsub
    · exact hall x hx w hw hne

/-! ## What the repair does -/

/-- The moves of the repair are those of the entries that move, to the name of their id. -/
theorem repairs_spec (hu : UniqueIds v) :
    (∀ m ∈ (repairSharedSidecarFiles loc v).2, ∃ w, Moves loc v w ∧ m.id = w.id ∧
      newSidecarFile w.kind w.id = some m.target) ∧
    ∀ w, Moves loc v w → ∃ m ∈ (repairSharedSidecarFiles loc v).2, m.id = w.id := by
  have hstart : Going loc v { used := (keyed v.wallets).map (·.1), repairs := [] } := by
    refine ⟨fun key => ?_, nofun⟩
    simp only [keyed, List.map_filterMap, List.mem_filterMap, List.not_mem_nil, false_and, exists_false, or_false]
    refine exists_congr fun w => and_congr_right fun _ => ?_
    cases fileKey w <;> simp
  obtain ⟨hgoing, hdone, -⟩ := foldl_repairGroup hu hstart fun e (he : e ∈ sharing v.wallets) => sharing_eq he
  refine ⟨fun m hm => ?_, fun w hw => ?_⟩
  · obtain ⟨w, hmoves, hid, -, htarget⟩ := hgoing.repairs m hm
    exact ⟨w, hmoves, hid, htarget⟩
  · obtain ⟨hin, ⟨key, hk, hkeeper⟩, own, hown, hfree⟩ := hw
    rcases hdone _ (exists_sharing hin hk) w (mem_sharers.2 ⟨hin, hk⟩) hkeeper with hm | hused
    · exact hm
    · obtain ⟨x, hx, hxk⟩ := hused own hown
      exact absurd hxk (hfree x hx)

theorem movedTo_spec (hu : UniqueIds v) {w : WalletEntry} (hw : w ∈ v.wallets) {target : String} :
    movedTo (repairSharedSidecarFiles loc v).2 w.id = some target ↔
      Moves loc v w ∧ newSidecarFile w.kind w.id = some target := by
  obtain ⟨hsound, hcomplete⟩ := @repairs_spec loc v hu
  unfold movedTo
  constructor
  · intro h
    obtain ⟨m, hm, rfl⟩ := Option.map_eq_some_iff.1 h
    have hid : m.id = w.id := by simpa using List.find?_some hm
    obtain ⟨w', hmoves, hid', htarget⟩ := hsound m (List.mem_reverse.1 (List.mem_of_find?_eq_some hm))
    obtain rfl := hu.eq hmoves.1 hw (hid'.symm.trans hid)
    exact ⟨hmoves, htarget⟩
  · rintro ⟨hmoves, htarget⟩
    obtain ⟨m, hm, hid⟩ := hcomplete w hmoves
    cases hf : (repairSharedSidecarFiles loc v).2.reverse.find? (·.id == w.id) with
    | none => exact absurd (List.find?_eq_none.1 hf m (List.mem_reverse.2 hm)) (by simp [hid])
    | some m' =>
      have hid' : m'.id = w.id := by simpa using List.find?_some hf
      obtain ⟨w', hmoves', hid'', htarget'⟩ := hsound m' (List.mem_reverse.1 (List.mem_of_find?_eq_some hf))
      obtain rfl := hu.eq hmoves'.1 hw (hid''.symm.trans hid')
      simp [Option.some.inj (htarget'.symm.trans htarget)]

/-- What the repair makes of an entry. -/
def repaired (loc : Intl) (v : VaultPayloadV3) (w : WalletEntry) : WalletEntry :=
  match movedTo (repairSharedSidecarFiles loc v).2 w.id with
  | some target => { w with sidecarFile := some target }
  | none => w

theorem repair_wallets (loc : Intl) (v : VaultPayloadV3) :
    (repairSharedSidecarFiles loc v).1.wallets = v.wallets.map (repaired loc v) := rfl

theorem repaired_of_moves (hu : UniqueIds v) {w : WalletEntry} (h : Moves loc v w) :
    repaired loc v w = { w with sidecarFile := newSidecarFile w.kind w.id } := by
  obtain ⟨own, hown, -⟩ := h.2.2
  obtain ⟨target, htarget, -⟩ := Option.map_eq_some_iff.1 hown
  rw [repaired, (movedTo_spec hu h.1).2 ⟨h, htarget⟩, htarget]

theorem repaired_of_not (hu : UniqueIds v) {w : WalletEntry} (hw : w ∈ v.wallets) (h : ¬ Moves loc v w) :
    repaired loc v w = w := by
  cases hm : movedTo (repairSharedSidecarFiles loc v).2 w.id with
  | none => simp [repaired, hm]
  | some target => exact absurd ((movedTo_spec hu hw).1 hm).1 h

theorem repaired_same (loc : Intl) (v : VaultPayloadV3) (w : WalletEntry) :
    (repaired loc v w).id = w.id ∧ (repaired loc v w).kind = w.kind ∧ groupKey (repaired loc v w) = groupKey w := by
  unfold repaired
  split <;> exact ⟨rfl, rfl, rfl⟩

theorem fileKey_own {w : WalletEntry} {own : WalletKind × String} (h : ownKey w = some own) :
    fileKey { w with sidecarFile := newSidecarFile w.kind w.id } = some own := by
  obtain ⟨target, htarget, rfl⟩ := Option.map_eq_some_iff.1 h
  have hne : target ≠ "" := by
    rintro rfl
    revert htarget
    cases w.kind <;> simp [newSidecarFile, String.append_eq_empty_iff]
  simp [fileKey, sidecarFileForEntry, htarget, isSidecar_of_newSidecarFile htarget, truthy_of_ne hne]

theorem fileKey_of_moves (hu : UniqueIds v) {w : WalletEntry} (h : Moves loc v w) :
    fileKey (repaired loc v w) = ownKey w := by
  obtain ⟨own, hown, -⟩ := h.2.2
  rw [repaired_of_moves hu h, fileKey_own hown, hown]

theorem uniqueIds_repair (hu : UniqueIds v) : UniqueIds (repairSharedSidecarFiles loc v).1 := by
  unfold UniqueIds
  rw [repair_wallets, List.map_map]
  have hid : (fun w : WalletEntry => w.id) ∘ repaired loc v = fun w => w.id :=
    funext fun w => (repaired_same loc v w).1
  rwa [hid]

theorem primary_repair (loc : Intl) (v : VaultPayloadV3) :
    primaryGroupId (repairSharedSidecarFiles loc v).1 = primaryGroupId v := by
  have hkind : (fun w : WalletEntry => w.kind == .bip39) ∘ repaired loc v = fun w => w.kind == .bip39 :=
    funext fun w => by simp [(repaired_same loc v w).2.1]
  have hgroup : groupKey ∘ repaired loc v = groupKey := funext fun w => (repaired_same loc v w).2.2
  simp only [primaryGroupId, repair_wallets, List.find?_map, hkind, List.head?_map]
  cases v.wallets.find? fun w => w.kind == .bip39 <;> cases v.wallets.head? <;>
    simp [(repaired_same loc v _).2.2]

/-- A keeper does not move. -/
theorem keeper_stays {key : WalletKind × String} {k : WalletEntry} (h : keeper loc v key = some k) :
    ¬ Moves loc v k := by
  rintro ⟨_, ⟨key', hk, hne⟩, _⟩
  obtain rfl : key = key' := Option.some.inj ((keeper_mem h).2.symm.trans hk)
  exact hne h

/-! ## The laws -/

/-- No two entries are on one file. -/
def NoSharing (v : VaultPayloadV3) : Prop :=
  ∀ w ∈ v.wallets, ∀ w' ∈ v.wallets, ∀ key, fileKey w = some key → fileKey w' = some key → w = w'

/-- No entry is on the name of another's id. -/
def OwnNames (v : VaultPayloadV3) : Prop :=
  ∀ w ∈ v.wallets, ∀ w' ∈ v.wallets, ∀ own, ownKey w = some own → fileKey w' = some own → w' = w

theorem noSharing_repair (hu : UniqueIds v) (ho : OwnNames v) : NoSharing (repairSharedSidecarFiles loc v).1 := by
  have hstay : ∀ w ∈ v.wallets, ∀ key, fileKey w = some key → ¬ Moves loc v w → keeper loc v key = some w := by
    intro w hw key hk hnot
    by_contra hkeeper
    obtain ⟨k, hkeep⟩ := @exists_keeper loc v _ _ hw hk
    have hsidecar : w.kind.isSidecar := by
      by_contra hno
      simp [fileKey, sidecarFileForEntry, hno] at hk
    obtain ⟨own, hown⟩ : ∃ own, ownKey w = some own := by
      revert hsidecar
      cases hkind : w.kind <;> simp [WalletKind.isSidecar, ownKey, newSidecarFile, hkind]
    refine hnot ⟨hw, ⟨key, hk, hkeeper⟩, own, hown, fun x hx hxk => ?_⟩
    obtain rfl := ho w hw x hx own hown hxk
    obtain rfl : key = own := Option.some.inj (hk.symm.trans hxk)
    have := ho x hw k (keeper_mem hkeep).1 key hown (keeper_mem hkeep).2
    exact hkeeper (this ▸ hkeep)
  intro e he e' he' key hkey hkey'
  rw [repair_wallets] at he he'
  obtain ⟨w, hw, rfl⟩ := List.mem_map.1 he
  obtain ⟨w', hw', rfl⟩ := List.mem_map.1 he'
  suffices h : w = w' by rw [h]
  by_cases hm : Moves loc v w
  · rw [fileKey_of_moves hu hm] at hkey
    by_cases hm' : Moves loc v w'
    · rw [fileKey_of_moves hu hm'] at hkey'
      exact hu.eq hw hw' (ownKey_inj hkey hkey')
    · rw [repaired_of_not hu hw' hm'] at hkey'
      obtain ⟨own, hown, hfree⟩ := hm.2.2
      obtain rfl := Option.some.inj (hown.symm.trans hkey)
      exact absurd hkey' (hfree w' hw')
  · rw [repaired_of_not hu hw hm] at hkey
    by_cases hm' : Moves loc v w'
    · rw [fileKey_of_moves hu hm'] at hkey'
      obtain ⟨own, hown, hfree⟩ := hm'.2.2
      obtain rfl := Option.some.inj (hown.symm.trans hkey')
      exact absurd hkey (hfree w hw)
    · rw [repaired_of_not hu hw' hm'] at hkey'
      have h := hstay w hw key hkey hm
      rw [hstay w' hw' key hkey' hm'] at h
      exact (Option.some.inj h).symm

/-- The entries on a file after the repair are those that did not move off it. -/
theorem sharers_repair (hu : UniqueIds v) {w : WalletEntry} {key : WalletKind × String} (hw : w ∈ v.wallets)
    (hk : fileKey w = some key) [DecidablePred (Moves loc v)] :
    sharers (repairSharedSidecarFiles loc v).1 key = (sharers v key).filter fun x => ¬ Moves loc v x := by
  rw [sharers, repair_wallets, List.filter_map, sharers, List.filter_filter]
  have hsame : v.wallets.filter ((fun w => decide (fileKey w = some key)) ∘ repaired loc v) =
      v.wallets.filter fun x => decide (¬ Moves loc v x) && decide (fileKey x = some key) := by
    refine List.filter_congr fun x hx => ?_
    by_cases hm : Moves loc v x
    · obtain ⟨own, hown, hfree⟩ := hm.2.2
      have hne : ownKey x ≠ some key := fun h => by
        obtain rfl := Option.some.inj (hown.symm.trans h)
        exact hfree w hw hk
      simp [fileKey_of_moves hu hm, hne, hm]
    · simp [repaired_of_not hu hx hm, hm]
  rw [hsame]
  refine (List.map_congr_left fun x hx => ?_).trans (List.map_id _)
  obtain ⟨hin, hx⟩ := List.mem_filter.1 hx
  exact repaired_of_not hu hin (by simpa using (Bool.and_eq_true_iff.1 hx).1)

/-- After a repair no entry moves. -/
theorem no_moves_after (hu : UniqueIds v) (e : WalletEntry) : ¬ Moves loc (repairSharedSidecarFiles loc v).1 e := by
  classical
  rintro ⟨he, ⟨key, hk, hkeeper⟩, own, hown, hfree⟩
  obtain ⟨w, hw, rfl⟩ := List.mem_map.1 (repair_wallets loc v ▸ he)
  obtain ⟨hid, hkind, -⟩ := repaired_same loc v w
  have hownw : ownKey w = some own := by rw [← hown, ownKey, ownKey, hid, hkind]
  by_cases hm : Moves loc v w
  · -- it is alone on the name of its id
    obtain rfl : own = key := Option.some.inj (hownw.symm.trans ((fileKey_of_moves hu hm).symm.trans hk))
    exact hfree _ he hk
  rw [repaired_of_not hu hw hm] at hk hkeeper
  by_cases hkeep : keeper loc v key = some w
  · -- it was the keeper, and still is
    refine hkeeper ?_
    unfold keeper at hkeep ⊢
    rw [primary_repair, sharers_repair hu hw hk, ← filter_sort (keeperLe_total loc _) (keeperLe_trans loc _)]
    cases hs : sort (keeperLe loc (primaryGroupId v)) (sharers v key) with
    | nil => simp [hs] at hkeep
    | cons k rest =>
      obtain rfl : k = w := by simpa [hs] using hkeep
      simp [hm]
  · -- its own name was in use, and the keeper of that name still has it
    have hused : ∃ x ∈ v.wallets, fileKey x = some own := by
      by_contra hno
      exact hm ⟨hw, ⟨key, hk, hkeep⟩, own, hownw, fun x hx hxk => hno ⟨x, hx, hxk⟩⟩
    obtain ⟨x, hx, hxk⟩ := hused
    obtain ⟨k, hkk⟩ := @exists_keeper loc v _ _ hx hxk
    obtain ⟨hkin, hkkey⟩ := keeper_mem hkk
    have hmem : k ∈ (repairSharedSidecarFiles loc v).1.wallets :=
      List.mem_map.2 ⟨k, hkin, repaired_of_not hu hkin (keeper_stays hkk)⟩
    exact hfree k hmem hkkey

theorem repair_idempotent (hu : UniqueIds v) :
    repairSharedSidecarFiles loc (repairSharedSidecarFiles loc v).1 = ((repairSharedSidecarFiles loc v).1, []) := by
  have hu' := @uniqueIds_repair loc v hu
  have hnil : (repairSharedSidecarFiles loc (repairSharedSidecarFiles loc v).1).2 = [] := by
    refine List.eq_nil_iff_forall_not_mem.2 fun m hm => ?_
    obtain ⟨w, hw, -⟩ := (repairs_spec hu').1 m hm
    exact no_moves_after hu w hw
  have hwallets : (repairSharedSidecarFiles loc (repairSharedSidecarFiles loc v).1).1 =
      (repairSharedSidecarFiles loc v).1 := by
    have hmap : (repairSharedSidecarFiles loc v).1.wallets.map (repaired loc (repairSharedSidecarFiles loc v).1) =
        (repairSharedSidecarFiles loc v).1.wallets :=
      (List.map_congr_left fun w hw => repaired_of_not hu' hw (no_moves_after hu w)).trans (List.map_id _)
    calc (repairSharedSidecarFiles loc (repairSharedSidecarFiles loc v).1).1
        = { (repairSharedSidecarFiles loc v).1 with
            wallets := (repairSharedSidecarFiles loc v).1.wallets.map
              (repaired loc (repairSharedSidecarFiles loc v).1) } := rfl
      _ = (repairSharedSidecarFiles loc v).1 := by rw [hmap]
  exact Prod.ext hwallets hnil

end Vault
