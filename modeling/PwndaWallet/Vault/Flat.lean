import PwndaWallet.Vault.Schema

/-!
# The flat shape

`vault-schema.ts`: the migration of a v2 payload, the projection of one context to the flat shape and
the merge of a flat payload into the group it was read from; and the guard in front of the flat saves.
-/

namespace Vault

open Js

/-! ## v2 to v3 -/

/-- The entry that a flat payload describes for a kind, if it does, in the group `gid`. `prev` is the
entry that stood there, `id` its id or a new one and `file` its wallet file. -/
def flatEntry (flat : VaultPayload) (now : Nat) (gid id : String) (prev : Option WalletEntry)
    (file : Option String) (kind : WalletKind) : Option WalletEntry :=
  let createdAt := (prev.map (·.createdAt)).getD now
  let name := fun standard => (prev.map (·.name)).getD standard
  match kind with
  | .bip39 =>
    some { id, name := name "Main", kind := .bip39, seed := flat.bip39, createdAt, groupId := some gid
           derivationChoice := flat.derivationChoice }
  | .xmr =>
    (truthy flat.xmrSeed).map fun seed =>
      { id, name := name "Main · Monero", kind := .xmr, seed, createdAt, groupId := some gid
        xmrSeedFormat := flat.xmrSeedFormat, restoreHeight := flat.xmrRestoreHeight, sidecarFile := file }
  | .zph =>
    (truthy flat.zphSeed).map fun seed =>
      { id, name := name "Main · Zephyr", kind := .zph, seed, createdAt, groupId := some gid
        restoreHeight := flat.zphRestoreHeight, sidecarFile := file }
  | .zano =>
    (truthy flat.zanoSeed).map fun seed =>
      { id, name := name "Main · Zano", kind := .zano, seed, createdAt, groupId := some gid
        sidecarFile := file, zanoSeedPassphrase := truthy flat.zanoSeedPassphrase }
  | _ => none

/-- The kinds that the flat shape has a field for, in the order their entries are made. -/
def flatKinds : List WalletKind := [.bip39, .xmr, .zph, .zano]

/-- Whether a flat payload has an entry of a kind. -/
def VaultPayload.describes (flat : VaultPayload) : WalletKind → Bool
  | .bip39 => true
  | .xmr => (truthy flat.xmrSeed).isSome
  | .zph => (truthy flat.zphSeed).isSome
  | .zano => (truthy flat.zanoSeed).isSome
  | _ => false

/-- `have ?? genId()`, with the number of calls made before it and after it. -/
def SchemaOpts.orGen (opts : SchemaOpts) (known : Option String) (calls : Nat) : String × Nat :=
  match known with
  | some id => (id, calls)
  | none => (opts.genId calls, calls + 1)

/-- The ids of the entries of a flat payload: each kind it describes keeps the one it has or draws one,
in the order of `flatKinds`. -/
def slotIds (opts : SchemaOpts) (flat : VaultPayload) (prev : WalletKind → Option WalletEntry) (calls : Nat) :
    List WalletKind → WalletKind → String
  | [], _ => ""
  | kind :: kinds, k =>
    let drawn := opts.orGen ((prev kind).map (·.id)) calls
    if k = kind then drawn.1
    else slotIds opts flat prev (if flat.describes kind then drawn.2 else calls) kinds k

def legacySidecarFile : WalletKind → Option String
  | .xmr => some LEGACY_XMR_SIDECAR_FILE
  | .zph => some LEGACY_ZPH_SIDECAR_FILE
  | .zano => some LEGACY_ZANO_SIDECAR_FILE
  | _ => none

def migrateV2ToV3 (v2 : VaultPayload) (opts : SchemaOpts) : VaultPayloadV3 :=
  let groupId := opts.genId 0
  let ids := slotIds opts v2 (fun _ => none) 1 flatKinds
  { wallets := flatKinds.filterMap fun kind =>
      flatEntry v2 opts.now groupId (ids kind) none (legacySidecarFile kind) kind
    lastActiveWalletId := some "all"
    legacyDevFeeAcknowledgedAt := v2.devFeeAcknowledgedAt }

/-! ## v3 to v2 -/

def projectV3ToV2 (v3 : VaultPayloadV3) (activeWalletId : Option String) : VaultPayload :=
  let gid := groupIdForWallet v3 activeWalletId
  let first := fun kind => v3.wallets.find? fun w => w.kind == kind && (gid.isNone || some (groupKey w) == gid)
  let bip39 := first .bip39
  let xmr := first .xmr
  let zph := first .zph
  let zano := first .zano
  let legacyZano := if zano.isSome then none else legacyZanoSeedFor v3 gid
  { bip39 := (bip39.map (·.seed)).getD ""
    xmrSeed := xmr.map (·.seed)
    xmrSeedFormat := xmr.bind (·.xmrSeedFormat)
    xmrRestoreHeight := xmr.bind (·.restoreHeight)
    zphSeed := zph.map (·.seed)
    zphRestoreHeight := zph.bind (·.restoreHeight)
    derivationChoice := bip39.bind (·.derivationChoice)
    zanoSeed := zano.map (·.seed) <|> legacyZano.map (·.1)
    zanoSeedPassphrase := zano.bind (·.zanoSeedPassphrase) <|> legacyZano.bind (·.2)
    devFeeAcknowledgedAt := v3.legacyDevFeeAcknowledgedAt }

/-! ## Flat to v3 -/

/-- The wallet file of the entry of a kind: what the entry there stores, whatever that is, else the
file a new entry gets. -/
def slotFile (existing : Option VaultPayloadV3) (prev : Option WalletEntry) (gid id : String)
    (kind : WalletKind) : Option String :=
  let wallets := (existing.map (·.wallets)).getD []
  match kind with
  | .xmr | .zph =>
    match prev with
    | some prev => prev.sidecarFile <|> legacySidecarFile kind
    | none => flatSidecarFileFor kind id wallets
  | .zano =>
    prev.bind (·.sidecarFile) <|>
      -- the vault-wide field, of whichever context, decides about the legacy name
      (if (truthy (existing.bind (·.zanoSeed))).isSome || existing.isNone then some LEGACY_ZANO_SIDECAR_FILE
       else newSidecarFile .zano ((prev.map (·.id)).getD gid))
  | _ => none

/-- The place of an id in the stored order; those that are not there come after all others, as with
`Number.MAX_SAFE_INTEGER`. -/
def orderOf (wallets : List WalletEntry) (id : String) : Nat :=
  match wallets.reverse.findIdx? (·.id == id) with
  | some i => wallets.length - 1 - i
  | none => wallets.length

def mergeFlatIntoV3 (flat : VaultPayload) (existing : Option VaultPayloadV3) (opts : SchemaOpts)
    (activeWalletId : Option String) : VaultPayloadV3 :=
  let (gid, calls) := opts.orGen (existing.bind (groupIdForWallet · activeWalletId)) 0
  let old := (existing.map (·.wallets)).getD []
  let prev := firstOf old gid
  let ids := slotIds opts flat prev calls flatKinds
  let wallets := flatKinds.filterMap fun kind =>
    flatEntry flat opts.now gid (ids kind) (prev kind) (slotFile existing (prev kind) gid (ids kind) kind) kind
  let carried := old.filter fun w => groupKey w == gid && w.kind == .xelis
  let others := old.filter fun w => groupKey w != gid
  let merged := wallets ++ carried ++ others
  { wallets := if existing.isSome then sortOn (fun w => orderOf old w.id) merged else merged
    lastActiveWalletId := some ((existing.bind (·.lastActiveWalletId)).getD "all")
    legacyDevFeeAcknowledgedAt :=
      flat.devFeeAcknowledgedAt <|> existing.bind (·.legacyDevFeeAcknowledgedAt)
    balanceCache := existing.bind (·.balanceCache)
    zanoSeed := truthy flat.zanoSeed
    zanoSeedPassphrase := (truthy flat.zanoSeed).bind fun _ => truthy flat.zanoSeedPassphrase }

/-! ## The guard of the flat saves -/

inductive FlatSeedRefusal where
  | differentSeed | differentPassphrase
deriving DecidableEq, Repr

def normalizeSeed (loc : Intl) (seed : String) : String :=
  loc.toLowerCase (String.ofList (collapse false (trim seed.toList)))

/-- Why a flat save must not go ahead: it would replace another seed. -/
def flatSeedRefusal (loc : Intl) (current : VaultPayload) (kind : WalletKind) (seed : String)
    (zanoPassphrase : String) : Option FlatSeedRefusal :=
  let stored :=
    match kind with
    | .xmr => current.xmrSeed
    | .zph => current.zphSeed
    | _ => current.zanoSeed
  match truthy stored with
  | none => none
  | some stored =>
    if normalizeSeed loc stored = "" then none
    else if normalizeSeed loc stored ≠ normalizeSeed loc seed then some .differentSeed
    else if kind = .zano ∧ current.zanoSeedPassphrase.getD "" ≠ zanoPassphrase then
      some .differentPassphrase
    else none

/-!
## What the merge makes of a vault

The merge rebuilds one group from the flat payload: an entry for each kind that the payload describes,
the group's Xelis entries and every entry of another group.
-/

/-! ## The slots of the target group -/

section
variable (flat : VaultPayload) (v : VaultPayloadV3) (opts : SchemaOpts) (a : Option String)

/-- The group that a merge writes into. -/
def targetGid : String := (opts.orGen (groupIdForWallet v a) 0).1

def targetIds : WalletKind → String :=
  slotIds opts flat (firstOf v.wallets (targetGid v opts a)) (opts.orGen (groupIdForWallet v a) 0).2 flatKinds

/-- The rebuilt entry of a kind. -/
def slot (kind : WalletKind) : Option WalletEntry :=
  flatEntry flat opts.now (targetGid v opts a) (targetIds flat v opts a kind)
    (firstOf v.wallets (targetGid v opts a) kind)
    (slotFile (some v) (firstOf v.wallets (targetGid v opts a) kind) (targetGid v opts a)
      (targetIds flat v opts a kind) kind) kind

/-- The three parts of the merged list, before it is sorted. -/
def mergedParts : List WalletEntry :=
  flatKinds.filterMap (slot flat v opts a) ++
    v.wallets.filter (fun w => groupKey w == targetGid v opts a && w.kind == .xelis) ++
    v.wallets.filter (fun w => groupKey w != targetGid v opts a)

theorem merge_wallets : (mergeFlatIntoV3 flat (some v) opts a).wallets =
    sortOn (fun w => orderOf v.wallets w.id) (mergedParts flat v opts a) := rfl

end

variable {flat : VaultPayload} {v : VaultPayloadV3} {opts : SchemaOpts} {a : Option String}

theorem targetGid_eq {g : String} (h : groupIdForWallet v a = some g) : targetGid v opts a = g := by
  simp [targetGid, h, SchemaOpts.orGen]

theorem targetGid_of_mem {w : WalletEntry} (hw : w ∈ v.wallets) :
    groupIdForWallet v a = some (targetGid v opts a) := by
  cases hg : groupIdForWallet v a with
  | none => exact absurd (groupIdForWallet_eq_none.1 hg) (List.ne_nil_of_mem hw)
  | some g => rw [targetGid_eq hg]

theorem mem_merge {e : WalletEntry} : e ∈ (mergeFlatIntoV3 flat (some v) opts a).wallets ↔
    (∃ kind, slot flat v opts a kind = some e) ∨
      (e ∈ v.wallets ∧ (groupKey e = targetGid v opts a → e.kind = .xelis)) := by
  rw [merge_wallets, sortOn, mem_sort]
  simp only [mergedParts, List.mem_append, List.mem_filterMap, List.mem_filter, Bool.and_eq_true,
    beq_iff_eq, bne_iff_ne]
  have hslot : (∃ kind, kind ∈ flatKinds ∧ slot flat v opts a kind = some e) ↔
      ∃ kind, slot flat v opts a kind = some e := by
    constructor
    · rintro ⟨k, _, h⟩
      exact ⟨k, h⟩
    · rintro ⟨k, h⟩
      refine ⟨k, ?_, h⟩
      cases k with
      | bip39 | xmr | zph | zano => simp [flatKinds]
      | xelis | privateKey | watch => cases h
  rw [hslot]
  by_cases hg : groupKey e = targetGid v opts a <;> simp [hg]

/-- What every rebuilt entry has: its kind, its group, and the id of its slot. -/
theorem slot_spec {kind : WalletKind} {e : WalletEntry} (h : slot flat v opts a kind = some e) :
    e.kind = kind ∧ e.groupId = some (targetGid v opts a) ∧ e.id = targetIds flat v opts a kind := by
  cases kind with
  | bip39 =>
    obtain rfl := Option.some.inj h
    exact ⟨rfl, rfl, rfl⟩
  | xmr | zph | zano =>
    obtain ⟨seed, -, rfl⟩ := Option.map_eq_some_iff.1 h
    exact ⟨rfl, rfl, rfl⟩
  | xelis | privateKey | watch => cases h

theorem groupKey_slot {kind : WalletKind} {e : WalletEntry} (h : slot flat v opts a kind = some e) :
    groupKey e = targetGid v opts a := by
  simp [groupKey, (slot_spec h).2.1]

theorem slot_isSome (kind : WalletKind) : (slot flat v opts a kind).isSome = flat.describes kind := by
  cases kind <;> simp [slot, flatEntry, VaultPayload.describes]

theorem slot_bip39 {e : WalletEntry} (h : slot flat v opts a .bip39 = some e) :
    e.seed = flat.bip39 ∧ e.derivationChoice = flat.derivationChoice := by
  obtain rfl := Option.some.inj h
  exact ⟨rfl, rfl⟩

theorem slot_xmr {e : WalletEntry} (h : slot flat v opts a .xmr = some e) :
    truthy flat.xmrSeed = some e.seed ∧ e.xmrSeedFormat = flat.xmrSeedFormat ∧
      e.restoreHeight = flat.xmrRestoreHeight := by
  obtain ⟨seed, hs, rfl⟩ := Option.map_eq_some_iff.1 h
  exact ⟨hs, rfl, rfl⟩

theorem slot_zph {e : WalletEntry} (h : slot flat v opts a .zph = some e) :
    truthy flat.zphSeed = some e.seed ∧ e.restoreHeight = flat.zphRestoreHeight := by
  obtain ⟨seed, hs, rfl⟩ := Option.map_eq_some_iff.1 h
  exact ⟨hs, rfl⟩

theorem slot_zano {e : WalletEntry} (h : slot flat v opts a .zano = some e) :
    truthy flat.zanoSeed = some e.seed ∧ e.zanoSeedPassphrase = truthy flat.zanoSeedPassphrase := by
  obtain ⟨seed, hs, rfl⟩ := Option.map_eq_some_iff.1 h
  exact ⟨hs, rfl⟩

/-! ## The projection -/

/-- What the flat shape shows of a group. -/
def projectGroup (v : VaultPayloadV3) (g : String) : VaultPayload :=
  let first := firstOf v.wallets g
  let legacyZano := if (first .zano).isSome then none else legacyZanoSeedFor v (some g)
  { bip39 := ((first .bip39).map (·.seed)).getD ""
    xmrSeed := (first .xmr).map (·.seed)
    xmrSeedFormat := (first .xmr).bind (·.xmrSeedFormat)
    xmrRestoreHeight := (first .xmr).bind (·.restoreHeight)
    zphSeed := (first .zph).map (·.seed)
    zphRestoreHeight := (first .zph).bind (·.restoreHeight)
    derivationChoice := (first .bip39).bind (·.derivationChoice)
    zanoSeed := (first .zano).map (·.seed) <|> legacyZano.map (·.1)
    zanoSeedPassphrase := (first .zano).bind (·.zanoSeedPassphrase) <|> legacyZano.bind (·.2)
    devFeeAcknowledgedAt := v.legacyDevFeeAcknowledgedAt }

theorem project_eq {g : String} (h : groupIdForWallet v a = some g) :
    projectV3ToV2 v a = projectGroup v g := by
  have hfirst : ∀ kind, (v.wallets.find? fun w =>
      w.kind == kind && ((some g : Option String).isNone || some (groupKey w) == some g)) =
      firstOf v.wallets g kind := fun kind => by simp [firstOf]
  simp only [projectV3ToV2, h, hfirst]
  rfl

theorem project_nil (h : v.wallets = []) : projectV3ToV2 v a =
    { bip39 := "", zanoSeed := truthy v.zanoSeed
      zanoSeedPassphrase := (truthy v.zanoSeed).bind fun _ => truthy v.zanoSeedPassphrase
      devFeeAcknowledgedAt := v.legacyDevFeeAcknowledgedAt } := by
  have hg : groupIdForWallet v a = none := groupIdForWallet_eq_none.2 h
  simp only [projectV3ToV2, hg, h, legacyZanoSeedFor]
  cases truthy v.zanoSeed <;> simp

/-- The vault-wide seed shows in the primary context, as long as that has no Zano entry. -/
theorem project_legacy {seed : String} (hg : groupIdForWallet v a = primaryGroupId v)
    (hno : ∀ w ∈ v.wallets, groupIdForWallet v a = some (groupKey w) → w.kind ≠ .zano)
    (hs : truthy v.zanoSeed = some seed) :
    (projectV3ToV2 v a).zanoSeed = some seed ∧
      (projectV3ToV2 v a).zanoSeedPassphrase = truthy v.zanoSeedPassphrase := by
  cases hgid : groupIdForWallet v a with
  | none =>
    rw [project_nil (groupIdForWallet_eq_none.1 hgid)]
    simp [hs]
  | some g =>
    have hfirst : firstOf v.wallets g .zano = none := by
      cases hf : firstOf v.wallets g .zano with
      | none => rfl
      | some w =>
        obtain ⟨hw, hk, hkey⟩ := mem_of_firstOf hf
        exact absurd hk (hno w hw (by rw [hgid, hkey]))
    have hp : some g = primaryGroupId v := hgid ▸ hg
    rw [project_eq hgid]
    simp [projectGroup, hfirst, legacyZanoSeedFor, hs, hp]

end Vault
