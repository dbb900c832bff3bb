import PwndaWallet.Vault.MergeSound

/-!
# The flat shape as a lens on one context

Merging the unedited projection gives the vault back, projecting what was merged gives the payload
back, and other contexts do not notice.
-/

namespace Vault

open Js

/-! ## What the flat shape can say -/

/-- A payload as the flat shape means it: an empty seed is none, and a height, a format or a passphrase
counts only beside its seed. `ack` is the vault's dev-fee acknowledgement. -/
def VaultPayload.normal (p : VaultPayload) (ack : Option Nat) : VaultPayload where
  bip39 := p.bip39
  xmrSeed := truthy p.xmrSeed
  xmrSeedFormat := (truthy p.xmrSeed).bind fun _ => p.xmrSeedFormat
  xmrRestoreHeight := (truthy p.xmrSeed).bind fun _ => p.xmrRestoreHeight
  zphSeed := truthy p.zphSeed
  zphRestoreHeight := (truthy p.zphSeed).bind fun _ => p.zphRestoreHeight
  zanoSeed := truthy p.zanoSeed
  zanoSeedPassphrase := (truthy p.zanoSeed).bind fun _ => truthy p.zanoSeedPassphrase
  derivationChoice := p.derivationChoice
  devFeeAcknowledgedAt := p.devFeeAcknowledgedAt <|> ack

/-- An entry with the fields of its kind and no others. -/
structure Plain (w : WalletEntry) : Prop where
  seed : w.kind ≠ .bip39 → w.seed ≠ ""
  derivationChoice : w.kind ≠ .bip39 → w.derivationChoice = none
  xmrSeedFormat : w.kind ≠ .xmr → w.xmrSeedFormat = none
  restoreHeight : w.kind ≠ .xmr → w.kind ≠ .zph → w.restoreHeight = none
  sidecarFile : w.sidecarFile.isSome = w.kind.isSidecar
  passphrase : w.zanoSeedPassphrase ≠ some "" ∧ (w.kind ≠ .zano → w.zanoSeedPassphrase = none)
  chain : w.chain = none
  address : w.address = none

/-- A context that the flat shape describes: plain entries, one of a kind, and Xelis ones. -/
def FlatContext (v : VaultPayloadV3) (a : Option String) : Prop :=
  ∀ w ∈ v.wallets, groupIdForWallet v a = some (groupKey w) → w.kind ≠ .xelis →
    w.kind ∈ flatKinds ∧ firstOf v.wallets (groupKey w) w.kind = some w ∧ Plain w

/-- The entry with its group written down. -/
def inGroup (g : String) (w : WalletEntry) : WalletEntry :=
  if groupKey w = g ∧ w.kind ≠ .xelis then { w with groupId := some g } else w

/-- `v'` is `v` with the group `g` written down in its entries. New are at most an empty bip39 entry
for a context without one and an entry for the legacy Zano seed of the context. -/
structure GivesBack (v v' : VaultPayloadV3) (a : Option String) (g : String) : Prop where
  wallets : ∃ added, v'.wallets = v.wallets.map (inGroup g) ++ added ∧
    ∀ e ∈ added, groupKey e = g ∧ firstOf v.wallets g e.kind = none ∧
      ((e.kind = .bip39 ∧ e.seed = "") ∨
        (e.kind = .zano ∧ (legacyZanoSeedFor v (groupIdForWallet v a)).map (·.1) = some e.seed))
  primary : (∃ w ∈ v.wallets, w.kind = .bip39) → primaryGroupId v' = primaryGroupId v
  lastActiveWalletId : v'.lastActiveWalletId = some (v.lastActiveWalletId.getD "all")
  legacyDevFeeAcknowledgedAt : v'.legacyDevFeeAcknowledgedAt = v.legacyDevFeeAcknowledgedAt
  balanceCache : v'.balanceCache = v.balanceCache

theorem groupKey_inGroup (g : String) (w : WalletEntry) : groupKey (inGroup g w) = groupKey w := by
  unfold inGroup
  split
  · rename_i h
    exact h.1.symm
  · rfl

variable {flat : VaultPayload} {v : VaultPayloadV3} {opts : SchemaOpts} {a : Option String}

/-! ## Merging what was projected -/

theorem truthy_eq_self {s : Option String} (h : s ≠ some "") : truthy s = s := by
  cases s with
  | none => rfl
  | some t => exact truthy_of_ne fun ht => h (by rw [ht])

/-- A plain entry is rebuilt as it was. -/
theorem slot_project {w : WalletEntry} {g : String} (hg : groupIdForWallet v a = some g) (hp : Plain w)
    (hk : w.kind ∈ flatKinds) (hfirst : firstOf v.wallets g w.kind = some w) :
    slot (projectV3ToV2 v a) v opts a w.kind = some { w with groupId := some g } := by
  have htarget : targetGid v opts a = g := targetGid_eq hg
  have hid : targetIds (projectV3ToV2 v a) v opts a w.kind = w.id :=
    slotIds_of_some hk (by rw [htarget, hfirst])
  have hfile : ∀ f : Option String, w.kind.isSidecar → (w.sidecarFile <|> f) = w.sidecarFile := by
    intro f hs
    obtain ⟨file, hf⟩ := Option.isSome_iff_exists.1 (hp.sidecarFile.trans hs)
    simp [hf]
  have hnofile : ¬ w.kind.isSidecar → w.sidecarFile = none := fun hs => by
    have := hp.sidecarFile
    simpa [hs] using this
  rw [slot, hid, htarget, hfirst, project_eq hg]
  obtain ⟨hseed, hder, hfmt, hh, -, ⟨hpass, hpass'⟩, hch, had⟩ := hp
  obtain ⟨i, n, kind, seed, c, gr, d, f, r, file, pass, ch, ad⟩ := w
  dsimp only at *
  subst hch had
  cases kind with
  | bip39 =>
    simp [flatEntry, projectGroup, hfirst, hfmt (by rintro ⟨⟩), hh (by rintro ⟨⟩) (by rintro ⟨⟩), hpass' (by rintro ⟨⟩), hnofile (by decide)]
  | xmr =>
    simp [flatEntry, projectGroup, hfirst, truthy_of_ne (hseed (by rintro ⟨⟩)), hder (by rintro ⟨⟩), hpass' (by rintro ⟨⟩), slotFile,
      hfile _ rfl]
  | zph =>
    simp [flatEntry, projectGroup, hfirst, truthy_of_ne (hseed (by rintro ⟨⟩)), hder (by rintro ⟨⟩), hfmt (by rintro ⟨⟩), hpass' (by rintro ⟨⟩),
      slotFile, hfile _ rfl]
  | zano =>
    simp [flatEntry, projectGroup, hfirst, truthy_of_ne (hseed (by rintro ⟨⟩)), hder (by rintro ⟨⟩), hfmt (by rintro ⟨⟩), hh (by rintro ⟨⟩) (by rintro ⟨⟩),
      slotFile, hfile _ rfl, truthy_eq_self hpass]
  | xelis | privateKey | watch => simp [flatKinds] at hk

/-- What the projection shows of a kind that the context does not have. -/
theorem project_of_none (k : WalletKind) (h : firstOf v.wallets (targetGid v opts a) k = none) :
    match k with
    | .bip39 => (projectV3ToV2 v a).bip39 = ""
    | .xmr => (projectV3ToV2 v a).xmrSeed = none
    | .zph => (projectV3ToV2 v a).zphSeed = none
    | .zano => (projectV3ToV2 v a).zanoSeed = (legacyZanoSeedFor v (groupIdForWallet v a)).map (·.1)
    | _ => True := by
  cases hg : groupIdForWallet v a with
  | none =>
    rw [project_nil (groupIdForWallet_eq_none.1 hg)]
    cases k with
    | bip39 | xmr | zph => rfl
    | zano =>
      simp only [legacyZanoSeedFor]
      cases truthy v.zanoSeed <;> simp
    | xelis | privateKey | watch => trivial
  | some g =>
    rw [targetGid_eq hg] at h
    rw [project_eq hg]
    cases k <;> simp [projectGroup, h]

theorem gives_back (hu : UniqueIds v) (hf : Fresh opts v) (h : FlatContext v a) :
    GivesBack v (mergeFlatIntoV3 (projectV3ToV2 v a) (some v) opts a) a (targetGid v opts a) where
  wallets := by
    have hcarry : ∀ w ∈ v.wallets,
        carry (projectV3ToV2 v a) v opts a w = some (inGroup (targetGid v opts a) w) := by
      intro w hw
      have hgid := @targetGid_of_mem v opts a _ hw
      unfold carry inGroup
      split
      · rename_i hin
        obtain ⟨hk, hfirst, hplain⟩ := h w hw (by rw [hgid, hin.1]) hin.2
        rw [hin.1] at hfirst
        rw [if_pos hfirst]
        exact slot_project hgid hplain hk hfirst
      · rfl
    have holds : v.wallets.filterMap (carry (projectV3ToV2 v a) v opts a) =
        v.wallets.map (inGroup (targetGid v opts a)) := by
      rw [List.filterMap_congr hcarry]
      exact congrFun List.filterMap_eq_map _
    refine ⟨_, by rw [merge_eq hu hf, holds], ?_⟩
    intro e he
    obtain ⟨k, -, hnew⟩ := List.mem_filterMap.1 he
    obtain ⟨hnone, hslot⟩ := newSlot_spec hnew
    have hk := (slot_spec hslot).1
    refine ⟨groupKey_newSlot he, by rw [hk, hnone], ?_⟩
    have hproject := project_of_none k hnone
    cases k with
    | bip39 => exact .inl ⟨hk, (slot_bip39 hslot).1.trans hproject⟩
    | xmr =>
      have := (slot_xmr hslot).1
      rw [hproject] at this
      cases this
    | zph =>
      have := (slot_zph hslot).1
      rw [hproject] at this
      cases this
    | zano => exact .inr ⟨hk, hproject ▸ (truthy_eq_some.1 (slot_zano hslot).1).1⟩
    | xelis | privateKey | watch => cases hslot
  primary := primary_merge hu hf
  lastActiveWalletId := rfl
  legacyDevFeeAcknowledgedAt := by
    have hp : (projectV3ToV2 v a).devFeeAcknowledgedAt = v.legacyDevFeeAcknowledgedAt := rfl
    simp [mergeFlatIntoV3, hp]
  balanceCache := rfl

/-! ## Projecting what was merged -/

theorem groupId_merge (hu : UniqueIds v) (hf : Fresh opts v)
    (ha : (∃ w, Names (mergeFlatIntoV3 flat (some v) opts a) a w) ∨ ∀ w, ¬ Names v a w) :
    groupIdForWallet (mergeFlatIntoV3 flat (some v) opts a) a = some (targetGid v opts a) := by
  by_cases hnames : ∃ w, Names (mergeFlatIntoV3 flat (some v) opts a) a w
  · obtain ⟨w, hw⟩ := hnames
    rw [groupIdForWallet_of_names (uniqueIds_merge hu hf) hw]
    rcases mem_merge.1 hw.1 with ⟨k, hk⟩ | ⟨hold, _⟩
    · rw [groupKey_slot hk]
    · rw [targetGid_eq (groupIdForWallet_of_names hu ⟨hold, hw.2⟩)]
  · have hno := ha.resolve_left hnames
    rw [groupIdForWallet_of_not fun w hw => hnames ⟨w, hw⟩]
    by_cases hb : ∃ w ∈ v.wallets, w.kind = .bip39
    · obtain ⟨w, hw, -⟩ := id hb
      rw [primary_merge hu hf hb, ← groupIdForWallet_of_not hno, targetGid_of_mem hw]
    · exact primary_merge_of_none hu hf fun w hw hk => hb ⟨w, hw, hk⟩

theorem project_slots {v' : VaultPayloadV3} {g : String} (hz : v'.zanoSeed = truthy flat.zanoSeed)
    (hack : v'.legacyDevFeeAcknowledgedAt = (flat.devFeeAcknowledgedAt <|> v.legacyDevFeeAcknowledgedAt))
    (hfirst : ∀ k, k ∈ flatKinds → firstOf v'.wallets g k = slot flat v opts a k) :
    projectGroup v' g = flat.normal v.legacyDevFeeAcknowledgedAt := by
  have hb := hfirst .bip39 (by decide)
  have hx := hfirst .xmr (by decide)
  have hp := hfirst .zph (by decide)
  have hn := hfirst .zano (by decide)
  simp only [projectGroup, VaultPayload.normal, hb, hx, hp, hn, hack, slot, flatEntry]
  cases truthy flat.xmrSeed <;> cases truthy flat.zphSeed <;> cases hzano : truthy flat.zanoSeed <;>
    simp [legacyZanoSeedFor, hz, hzano]

theorem project_merge (hu : UniqueIds v) (hf : Fresh opts v)
    (ha : (∃ w, Names (mergeFlatIntoV3 flat (some v) opts a) a w) ∨ ∀ w, ¬ Names v a w) :
    projectV3ToV2 (mergeFlatIntoV3 flat (some v) opts a) a = flat.normal v.legacyDevFeeAcknowledgedAt := by
  rw [project_eq (groupId_merge hu hf ha)]
  refine project_slots rfl rfl fun k hk => firstOf_merge ?_
  rintro rfl
  exact absurd hk (by decide)

/-! ## Other contexts -/

/-- A wallet id that the merge does not give a new meaning: it names an entry, or it names none, before
as after, in a vault with a bip39 wallet. -/
def Settled (v : VaultPayloadV3) (opts : SchemaOpts) (b : Option String) : Prop :=
  (∃ w, Names v b w) ∨ ((∃ w ∈ v.wallets, w.kind = .bip39) ∧ ∀ n, truthy b ≠ some (opts.genId n))

/-- The vault-wide Zano seed has no part in the projection of the group `g`. -/
def ZanoApart (v : VaultPayloadV3) (flat : VaultPayload) (g : String) : Prop :=
  some g ≠ primaryGroupId v ∨ (firstOf v.wallets g .zano).isSome ∨
    (truthy v.zanoSeed = none ∧ truthy flat.zanoSeed = none)

theorem groupId_merge_of_ne (hu : UniqueIds v) (hf : Fresh opts v) {b : Option String} {g : String}
    (hb : groupIdForWallet v b = some g) (hg : g ≠ targetGid v opts a) (hs : Settled v opts b) :
    groupIdForWallet (mergeFlatIntoV3 flat (some v) opts a) b = some g := by
  by_cases hnames : ∃ w, Names v b w
  · obtain ⟨w, hw, hid, hall⟩ := hnames
    have hkey : groupKey w = g := by
      rw [groupIdForWallet_of_names hu ⟨hw, hid, hall⟩] at hb
      exact Option.some.inj hb
    have hmem : w ∈ (mergeFlatIntoV3 flat (some v) opts a).wallets :=
      mem_merge.2 (.inr ⟨hw, fun h => absurd (hkey.symm.trans h) hg⟩)
    rw [groupIdForWallet_of_names (uniqueIds_merge hu hf) ⟨hmem, hid, hall⟩, hkey]
  · obtain ⟨hbip, hgen⟩ := hs.resolve_left hnames
    have hno : ∀ w, ¬ Names (mergeFlatIntoV3 flat (some v) opts a) b w := by
      rintro w ⟨hw, hid, hall⟩
      rcases mem_merge.1 hw with ⟨k, hk⟩ | ⟨hold, _⟩
      · cases hfirst : firstOf v.wallets (targetGid v opts a) k with
        | some w' =>
          rw [slot_id_of_some hk hfirst] at hid hall
          exact hnames ⟨w', (mem_of_firstOf hfirst).1, hid, hall⟩
        | none =>
          obtain ⟨n, hn⟩ := slot_id_of_none hk hfirst
          exact hgen n (hn ▸ hid)
      · exact hnames ⟨w, hold, hid, hall⟩
    rw [groupIdForWallet_of_not hno, primary_merge hu hf hbip, ← groupIdForWallet_of_not fun w hw => hnames ⟨w, hw⟩,
      hb]

/-- Another context's projection is the same before and after, but for the acknowledgement that all of
them share and, in the primary context, for the vault-wide Zano seed. -/
theorem project_merge_of_ne (hu : UniqueIds v) (hf : Fresh opts v) {b : Option String} {g : String}
    (hb : groupIdForWallet v b = some g) (hg : g ≠ targetGid v opts a) (hs : Settled v opts b) :
    let before := projectV3ToV2 v b
    let after := projectV3ToV2 (mergeFlatIntoV3 flat (some v) opts a) b
    let ack := flat.devFeeAcknowledgedAt <|> v.legacyDevFeeAcknowledgedAt
    after = { before with
      devFeeAcknowledgedAt := ack, zanoSeed := after.zanoSeed, zanoSeedPassphrase := after.zanoSeedPassphrase } ∧
    (ZanoApart v flat g → after = { before with devFeeAcknowledgedAt := ack }) := by
  intro before after ack
  have hafter : after = projectGroup (mergeFlatIntoV3 flat (some v) opts a) g :=
    project_eq (groupId_merge_of_ne hu hf hb hg hs)
  have hbefore : before = projectGroup v g := project_eq hb
  have hfirst : ∀ k, firstOf (mergeFlatIntoV3 flat (some v) opts a).wallets g k = firstOf v.wallets g k :=
    fun k => firstOf_merge_of_ne hu hf hg
  have hack : (mergeFlatIntoV3 flat (some v) opts a).legacyDevFeeAcknowledgedAt = ack := rfl
  rw [hafter, hbefore]
  refine ⟨by simp [projectGroup, hfirst, hack], fun hz => ?_⟩
  have hlegacy : (firstOf v.wallets g .zano).isSome ∨
      (legacyZanoSeedFor v (some g) = none ∧
        legacyZanoSeedFor (mergeFlatIntoV3 flat (some v) opts a) (some g) = none) := by
    rcases hz with hne | hsome | ⟨hnone, hflat⟩
    · refine .inr ⟨?_, ?_⟩
      · unfold legacyZanoSeedFor
        split
        · rfl
        · rw [if_pos ⟨(by rintro ⟨⟩), hne⟩]
      · have hne' : some g ≠ primaryGroupId (mergeFlatIntoV3 flat (some v) opts a) := by
          rcases @primary_merge_cases flat _ _ a hu hf with h | h <;> rw [h]
          · exact hne
          · exact fun heq => hg (Option.some.inj heq)
        unfold legacyZanoSeedFor
        split
        · rfl
        · rw [if_pos ⟨(by rintro ⟨⟩), hne'⟩]
    · exact .inl hsome
    · exact .inr ⟨by simp [legacyZanoSeedFor, hnone], by simp [legacyZanoSeedFor, mergeFlatIntoV3, hflat]⟩
  rcases hlegacy with hsome | ⟨hl, hl'⟩
  · simp [projectGroup, hfirst, hsome, hack]
  · simp [projectGroup, hfirst, hl, hl', hack]

/-! ## Migration -/

theorem firstOf_filterMap {f : WalletKind → Option WalletEntry} {g : String}
    (hf : ∀ k e, f k = some e → e.kind = k ∧ groupKey e = g) (kinds : List WalletKind) {k : WalletKind}
    (hk : k ∈ kinds) : firstOf (kinds.filterMap f) g k = f k := by
  unfold firstOf
  induction kinds with
  | nil => cases hk
  | cons k' kinds ih =>
    by_cases hkk : k' = k
    · subst hkk
      cases hfk : f k' with
      | some e => simp [List.filterMap_cons_some hfk, hf k' e hfk]
      | none =>
        rw [List.filterMap_cons_none hfk]
        by_cases hin : k' ∈ kinds
        · rw [ih hin, hfk]
        · refine List.find?_eq_none.2 fun e he => ?_
          obtain ⟨k, hk, hke⟩ := List.mem_filterMap.1 he
          have hne : k ≠ k' := fun h => hin (h ▸ hk)
          simp [(hf k e hke).1, hne]
    · have hrest := ih ((List.mem_cons.1 hk).resolve_left (Ne.symm hkk))
      cases hfk : f k' with
      | some e => rw [List.filterMap_cons_some hfk, List.find?_cons_of_neg (by simp [(hf k' e hfk).1, hkk]), hrest]
      | none => rw [List.filterMap_cons_none hfk, hrest]

theorem project_migrate (p : VaultPayload) (opts : SchemaOpts) (a : Option String) :
    projectV3ToV2 (migrateV2ToV3 p opts) a = p.normal none := by
  have hentry : ∀ k e, flatEntry p opts.now (opts.genId 0) (slotIds opts p (fun _ => none) 1 flatKinds k) none
      (legacySidecarFile k) k = some e → e.kind = k ∧ groupKey e = opts.genId 0 := by
    intro k e hk
    cases k with
    | bip39 =>
      obtain rfl := Option.some.inj hk
      exact ⟨rfl, rfl⟩
    | xmr | zph | zano =>
      obtain ⟨_, _, rfl⟩ := Option.map_eq_some_iff.1 hk
      exact ⟨rfl, rfl⟩
    | xelis | privateKey | watch => cases hk
  have hg : groupIdForWallet (migrateV2ToV3 p opts) a = some (opts.genId 0) := by
    cases h : groupIdForWallet (migrateV2ToV3 p opts) a with
    | none =>
      have hnil := groupIdForWallet_eq_none.1 h
      simp [migrateV2ToV3, flatKinds, flatEntry] at hnil
    | some g =>
      obtain ⟨w, hw, rfl⟩ := exists_of_groupIdForWallet h
      obtain ⟨k, -, hk⟩ := List.mem_filterMap.1 hw
      rw [(hentry k w hk).2]
  have hfirst : ∀ k ∈ flatKinds, firstOf (migrateV2ToV3 p opts).wallets (opts.genId 0) k = _ :=
    fun k hk => firstOf_filterMap hentry flatKinds hk
  have hlegacy : ∀ g, legacyZanoSeedFor (migrateV2ToV3 p opts) g = none := fun _ => rfl
  have hack : (migrateV2ToV3 p opts).legacyDevFeeAcknowledgedAt = p.devFeeAcknowledgedAt := rfl
  rw [project_eq hg]
  simp only [projectGroup, VaultPayload.normal, hfirst .bip39 (by decide), hfirst .xmr (by decide),
    hfirst .zph (by decide), hfirst .zano (by decide), hlegacy, hack, ite_self]
  simp only [flatEntry]
  cases truthy p.xmrSeed <;> cases truthy p.zphSeed <;> cases truthy p.zanoSeed <;> simp

/-! ## The lens laws -/

theorem flat_lens (v : VaultPayloadV3) (opts : SchemaOpts) (a : Option String) (hu : UniqueIds v)
    (hf : Fresh opts v) :
    (FlatContext v a →
      GivesBack v (mergeFlatIntoV3 (projectV3ToV2 v a) (some v) opts a) a (targetGid v opts a)) ∧
    (∀ flat, (∃ w, Names (mergeFlatIntoV3 flat (some v) opts a) a w) ∨ (∀ w, ¬ Names v a w) →
      projectV3ToV2 (mergeFlatIntoV3 flat (some v) opts a) a = flat.normal v.legacyDevFeeAcknowledgedAt) ∧
    (∀ flat b g, groupIdForWallet v b = some g → g ≠ targetGid v opts a → Settled v opts b →
      let before := projectV3ToV2 v b
      let after := projectV3ToV2 (mergeFlatIntoV3 flat (some v) opts a) b
      let ack := flat.devFeeAcknowledgedAt <|> v.legacyDevFeeAcknowledgedAt
      after = { before with
        devFeeAcknowledgedAt := ack, zanoSeed := after.zanoSeed
        zanoSeedPassphrase := after.zanoSeedPassphrase } ∧
      (ZanoApart v flat g → after = { before with devFeeAcknowledgedAt := ack })) ∧
    ∀ p opts' b, projectV3ToV2 (migrateV2ToV3 p opts') b = p.normal none :=
  ⟨gives_back hu hf, fun _ ha => project_merge hu hf ha,
    fun _ _ _ hb hg hs => project_merge_of_ne hu hf hb hg hs, project_migrate⟩

def lensOpts : SchemaOpts where
  now := 7
  genId n := "new-" ++ String.ofList (List.replicate n 'i')

def lensMain : WalletEntry where
  id := "main"
  name := "Main"
  kind := .bip39
  seed := "abandon ability able"
  createdAt := 1

def lensMonero : WalletEntry where
  id := "cold"
  name := "Cold XMR"
  kind := .xmr
  seed := "abbey abducts ability"
  createdAt := 2
  groupId := some "g"
  sidecarFile := some "pwnda-xmr-cold"

def lensVault : VaultPayloadV3 where
  wallets := [lensMain, lensMonero]

theorem lensOpts_fresh : Fresh lensOpts lensVault := by
  have hlen : ∀ n, (lensOpts.genId n).length = n + 4 := fun n => by
    have hnew : "new-".length = 4 := rfl
    simp only [lensOpts, String.length_append, hnew, String.length_ofList, List.length_replicate]
    omega
  have hhead : ∀ n, (lensOpts.genId n).toList.take 4 = "new-".toList := fun n => by simp [lensOpts]
  have hold : ∀ w ∈ lensVault.wallets,
      w.id.toList.take 4 ≠ "new-".toList ∧ (groupKey w).toList.take 4 ≠ "new-".toList := by decide +kernel
  refine ⟨fun {m n} h => ?_, fun n w hw heq => ?_, fun n w hw heq => ?_⟩
  · have hm := hlen m
    rw [h, hlen n] at hm
    omega
  · exact (hold w hw).1 (heq ▸ hhead n)
  · exact (hold w hw).2 (heq ▸ hhead n)

theorem flat_lens_sample : projectV3ToV2 (mergeFlatIntoV3 { bip39 := "abandon", zphSeed := some "acid" }
    (some lensVault) lensOpts (some "all")) (some "all") = { bip39 := "abandon", zphSeed := some "acid" } := by
  have hu : UniqueIds lensVault := by
    unfold UniqueIds
    decide
  have hno : ∀ w, ¬ Names lensVault (some "all") w := fun w ⟨_, hid, hall⟩ => by
    rw [truthy_of_ne (by decide)] at hid
    exact hall (Option.some.inj hid).symm
  exact (flat_lens lensVault lensOpts (some "all") hu lensOpts_fresh).2.1 _ (.inr hno)

/-- The laws as they stand fail: a height without its seed is not kept, by a merge or by a migration, and
merging the unedited projection of a context without a bip39 wallet adds an entry. -/
theorem not_a_lens :
    (¬ ∀ flat, projectV3ToV2 (mergeFlatIntoV3 flat (some lensVault) lensOpts none) none = flat) ∧
      (¬ ∀ p, projectV3ToV2 (migrateV2ToV3 p lensOpts) none = p) ∧
      (mergeFlatIntoV3 (projectV3ToV2 lensVault (some "cold")) (some lensVault) lensOpts (some "cold")).wallets ≠
        lensVault.wallets := by
  refine ⟨fun h => ?_, fun h => ?_, by decide +kernel⟩
  · have hheight := congrArg VaultPayload.xmrRestoreHeight (h { bip39 := "abandon", xmrRestoreHeight := some 5 })
    revert hheight
    decide +kernel
  · have hheight := congrArg VaultPayload.xmrRestoreHeight (h { bip39 := "abandon", xmrRestoreHeight := some 5 })
    revert hheight
    decide +kernel

end Vault
