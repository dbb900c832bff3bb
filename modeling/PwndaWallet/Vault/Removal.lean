import PwndaWallet.Vault.FilesSound
import PwndaWallet.Vault.Writes

/-!
# Removing a wallet

What a removal should leave behind (`removeWalletEntry`, `vault-schema.ts`), and the vaults that the app
writes: the saves, additions and renames, the switch of the open wallet and the repair of shared files,
and the removals, of which `useVault.ts` refuses the primary bip39 wallet.
-/

namespace Vault

open Js

/-! ## The vaults of the app -/

/-- Ids as `crypto.randomUUID` gives them: fresh, and neither empty nor one of the vault's own words. -/
def Uuids (opts : SchemaOpts) (v : VaultPayloadV3) : Prop :=
  Supply opts v ∧ ∀ n, opts.genId n ≠ "all" ∧ opts.genId n ≠ ""

inductive AppMove where
  | move (m : VaultMove)
  | switch (walletId : String)
  | repair

/-- The clock and the ids that a write uses. -/
def VaultMove.mints : VaultMove → Option SchemaOpts
  | .flat _ opts _ => some opts
  | .add _ opts => some opts
  | .addXelis _ opts _ => some opts
  | _ => none

def VaultMove.removes : VaultMove → Option String
  | .remove id => some id
  | _ => none

def AppMove.apply (loc : Intl) (v : VaultPayloadV3) : AppMove → VaultPayloadV3
  | .move m => m.apply loc v
  | .switch walletId => switchWallet loc v walletId
  | .repair => (repairSharedSidecarFiles loc v).1

def AppMove.Ok (v : VaultPayloadV3) : AppMove → Prop
  | .move m =>
    (∀ opts, m.mints = some opts → Uuids opts v) ∧ ∀ id, m.removes = some id → isPrimaryBip39 v id = false
  | _ => True

def appMoves (loc : Intl) : Tasks.Machine VaultPayloadV3 AppMove where
  step v m := some (m.apply loc v)

/-- A vault that was just made or migrated. -/
def Made (v : VaultPayloadV3) : Prop :=
  ∃ p opts a, Uuids opts { wallets := [] } ∧ (v = mergeFlatIntoV3 p none opts a ∨ v = migrateV2ToV3 p opts)

def AppReached (loc : Intl) (v : VaultPayloadV3) : Prop :=
  ∃ v₀, Made v₀ ∧ (appMoves loc).ReachOn (fun v m => m.Ok v) v₀ v

/-! ## What a removal should leave -/

/-- The seeds that a projection shows. -/
def VaultPayload.seeds (p : VaultPayload) : List String :=
  [some p.bip39, p.xmrSeed, p.zphSeed, p.zanoSeed].filterMap truthy

/-- The wallet that was open last is stored, or it is all of them. -/
def LastActive (v : VaultPayloadV3) : Prop :=
  ∀ a, v.lastActiveWalletId = some a → a = "all" ∨ ∃ w ∈ v.wallets, w.id = a

/-- `next` is `v` without the entry `w`: its seed is nowhere, and the rest is as it was. -/
structure RemovedFrom (v next : VaultPayloadV3) (w : WalletEntry) : Prop where
  projections : (∀ e ∈ next.wallets, e.seed ≠ w.seed) → ∀ a, w.seed ∉ (projectV3ToV2 next a).seeds
  legacy : (∀ e ∈ next.wallets, e.seed ≠ w.seed) → ∀ g, (legacyZanoSeedFor next g).map (·.1) ≠ some w.seed
  others : ∃ before after, v.wallets = before ++ w :: after ∧ next.wallets = before ++ after
  contexts : ∀ a, groupIdForWallet v a ≠ some (groupKey w) → projectV3ToV2 next a = projectV3ToV2 v a
  primary : isPrimaryBip39 v w.id = false → primaryGroupId next = primaryGroupId v
  lastActive : LastActive v → LastActive next

/-! ## When it does -/

/-- The group that is the primary one among the entries other than `id`. -/
def heir (v : VaultPayloadV3) (id : String) : Option String :=
  ((v.wallets.find? fun w => w.id != id && w.kind == .bip39) <|> v.wallets.find? (·.id != id)).map groupKey

/-- The vault-wide Zano seed is not the entry's, or another entry stores it too; and if the entry is the
primary bip39 wallet and there is a vault-wide Zano seed, the primary group stays, or the next one has a
Zano wallet of its own. -/
def clears (v : VaultPayloadV3) (w : WalletEntry) : Bool :=
  (truthy v.zanoSeed != some w.seed || v.wallets.any fun e => e.id != w.id && e.seed == w.seed) &&
    (!isPrimaryBip39 v w.id || (truthy v.zanoSeed).isNone ||
      (heir v w.id).all fun g => g == groupKey w || (firstOf v.wallets g .zano).isSome)

/-!
## What a removal leaves behind

Removing an entry leaves the others, their order and every other context as they were. The seed of a
Zano entry does not go with it: a flat save has copied it to the vault-wide field, and with its entry gone
the primary context shows it again (`not_always_removed`).
-/

variable {loc : Intl} {v : VaultPayloadV3}

/-! ## What every vault of the app is -/

structure AppVault (v : VaultPayloadV3) : Prop where
  unique : UniqueIds v
  bip39 : ∃ w ∈ v.wallets, w.kind = .bip39
  ids : ∀ w ∈ v.wallets, w.id ≠ "all" ∧ w.id ≠ ""

theorem appVault_congr {v' : VaultPayloadV3} (h : AppVault v) (hw : v'.wallets = v.wallets) : AppVault v' := by
  refine ⟨?_, ?_, ?_⟩
  · unfold UniqueIds
    rw [hw]
    exact h.unique
  · rw [hw]
    exact h.bip39
  · rw [hw]
    exact h.ids

/-- Entries that differ in neither id nor kind make no difference. -/
theorem appVault_map {v' : VaultPayloadV3} {f : WalletEntry → WalletEntry} (h : AppVault v)
    (hw : v'.wallets = v.wallets.map f) (hf : ∀ w, (f w).id = w.id ∧ (f w).kind = w.kind) : AppVault v' := by
  refine ⟨?_, ?_, ?_⟩
  · unfold UniqueIds
    have hids : v'.wallets.map (·.id) = v.wallets.map (·.id) := by
      rw [hw, List.map_map]
      exact List.map_congr_left fun w _ => (hf w).1
    rw [hids]
    exact h.unique
  · obtain ⟨w, hmem, hk⟩ := h.bip39
    rw [hw]
    exact ⟨f w, List.mem_map_of_mem hmem, (hf w).2.trans hk⟩
  · intro e he
    rw [hw] at he
    obtain ⟨w, hmem, rfl⟩ := List.mem_map.1 he
    rw [(hf w).1]
    exact h.ids w hmem

theorem appVault_add {opts : SchemaOpts} (h : AppVault v) (hs : Uuids opts v) (spec : NewWalletSpec) :
    AppVault (addWalletEntry v spec opts).1 := by
  have hid : (newEntry spec opts).id = opts.genId 0 := by
    unfold newEntry
    cases spec.kind <;> rfl
  have hwallets : (addWalletEntry v spec opts).1.wallets = v.wallets ++ [newEntry spec opts] := rfl
  refine ⟨?_, ?_, ?_⟩
  · unfold UniqueIds
    rw [hwallets, List.map_append, List.nodup_append]
    refine ⟨h.unique, List.nodup_singleton _, fun i hi j hj => ?_⟩
    obtain ⟨w, hw, rfl⟩ := List.mem_map.1 hi
    obtain rfl := List.mem_singleton.1 hj
    exact fun heq => hs.1.1.id 0 w hw (hid.symm.trans heq.symm)
  · obtain ⟨w, hw, hk⟩ := h.bip39
    exact ⟨w, List.mem_append_left _ hw, hk⟩
  · intro e he
    rcases List.mem_append.1 he with he | he
    · exact h.ids e he
    · obtain rfl := List.mem_singleton.1 he
      rw [hid]
      exact hs.2 0

theorem appVault_flat {flat : VaultPayload} {opts : SchemaOpts} {a : Option String} (h : AppVault v)
    (hs : Uuids opts v) : AppVault (mergeFlatIntoV3 flat (some v) opts a) := by
  refine ⟨uniqueIds_merge h.unique hs.1.1, ?_, ?_⟩
  · obtain ⟨e, he⟩ := Option.isSome_iff_exists.1 (@slot_isSome flat v opts a .bip39)
    exact ⟨e, mem_merge.2 (.inl ⟨.bip39, he⟩), (slot_spec he).1⟩
  · intro e he
    rcases mem_merge.1 he with ⟨k, hk⟩ | ⟨hmem, -⟩
    · cases hfirst : firstOf v.wallets (targetGid v opts a) k with
      | some w =>
        rw [slot_id_of_some hk hfirst]
        exact h.ids w (mem_of_firstOf hfirst).1
      | none =>
        obtain ⟨n, hn⟩ := slot_id_of_none hk hfirst
        rw [hn]
        exact hs.2 n
    · exact h.ids e hmem

theorem appVault_made (h : Made v) : AppVault v := by
  obtain ⟨p, opts, a, hs, hv⟩ := h
  have hwallets : v.wallets = (migrateV2ToV3 p opts).wallets := by
    rcases hv with rfl | rfl
    · exact merge_none p opts a
    · rfl
  refine ⟨(filed_initial ⟨p, opts, a, hs.1, hv⟩).unique, ?_, ?_⟩
  · rw [hwallets]
    exact ⟨_, List.mem_filterMap.2 ⟨.bip39, List.mem_cons_self, rfl⟩, rfl⟩
  · intro e he
    rw [hwallets] at he
    obtain ⟨k, hk, hentry⟩ := List.mem_filterMap.1 he
    obtain ⟨n, -, hn⟩ := @slotIds_of_none opts p (fun _ => none) 1 _ _ hk rfl
    have hid : e.id = opts.genId n := by
      rw [← hn]
      cases k with
      | bip39 =>
        obtain rfl := Option.some.inj hentry
        rfl
      | xmr | zph | zano =>
        obtain ⟨_, _, rfl⟩ := Option.map_eq_some_iff.1 hentry
        rfl
      | _ => cases hentry
    rw [hid]
    exact hs.2 n

/-! ## The entries that stay -/

def without (v : VaultPayloadV3) (id : String) : VaultPayloadV3 := (removeWalletEntry v id).v3

theorem mem_without {id : String} {e : WalletEntry} :
    e ∈ (without v id).wallets ↔ e ∈ v.wallets ∧ e.id ≠ id := by
  show e ∈ v.wallets.filter (·.id != id) ↔ _
  simp

theorem find?_without {id : String} {q : WalletEntry → Bool} {r : WalletEntry}
    (h : v.wallets.find? q = some r) (hr : r.id ≠ id) : (without v id).wallets.find? q = some r := by
  show (v.wallets.filter (·.id != id)).find? q = some r
  rw [List.find?_filter]
  refine find?_of_imp h (fun y hy => ?_) ?_
  · exact (of_decide_eq_true hy).2
  · simp [hr, List.find?_some h]

theorem AppVault.primary (hv : AppVault v) : ∃ r, v.wallets.find? (·.kind == .bip39) = some r := by
  obtain ⟨w, hw, hk⟩ := hv.bip39
  exact Option.isSome_iff_exists.1 (List.find?_isSome.2 ⟨w, hw, by simp [hk]⟩)

theorem isPrimaryBip39_eq {id : String} {r : WalletEntry} (hr : v.wallets.find? (·.kind == .bip39) = some r) :
    isPrimaryBip39 v id = (r.id == id) := by
  simp [isPrimaryBip39, hr]

/-- Whoever is not the primary bip39 wallet leaves the primary group as it is. -/
theorem primary_without {id : String} (hv : AppVault v) (h : isPrimaryBip39 v id = false) :
    primaryGroupId (without v id) = primaryGroupId v := by
  obtain ⟨r, hr⟩ := hv.primary
  rw [isPrimaryBip39_eq hr, beq_eq_false_iff_ne] at h
  rw [primaryGroupId, primaryGroupId, hr, find?_without hr h]
  rfl

theorem appVault_without {id : String} (hv : AppVault v) (h : isPrimaryBip39 v id = false) :
    AppVault (without v id) := by
  refine ⟨hv.unique.sublist (List.filter_sublist.map _), ?_, fun e he => hv.ids e (mem_without.1 he).1⟩
  obtain ⟨r, hr⟩ := hv.primary
  rw [isPrimaryBip39_eq hr, beq_eq_false_iff_ne] at h
  exact ⟨r, mem_without.2 ⟨List.mem_of_find?_eq_some hr, h⟩, by simpa using List.find?_some hr⟩

theorem appVault_apply {m : AppMove} (hv : AppVault v) (hok : m.Ok v) : AppVault (m.apply loc v) := by
  have hrepair : AppVault (repairSharedSidecarFiles loc v).1 := by
    refine appVault_map hv rfl fun w => ?_
    split <;> exact ⟨rfl, rfl⟩
  cases m with
  | move m =>
    cases m with
    | flat payload opts a => exact appVault_flat hv (hok.1 opts rfl)
    | add spec opts => exact appVault_add hv (hok.1 opts rfl) spec
    | addXelis seed opts a =>
      simp only [AppMove.apply, VaultMove.apply, addXelisWalletToContext]
      split
      · rename_i next _ _ hadd
        split at hadd
        · split at hadd
          · obtain ⟨rfl, -⟩ := Prod.mk.inj (Except.ok.inj hadd)
            exact hv
          · cases hadd
        · split at hadd
          · cases hadd
          · obtain ⟨rfl, -⟩ := Prod.mk.inj (Except.ok.inj hadd)
            exact appVault_add hv (hok.1 opts rfl) _
      · exact hv
    | remove id => exact appVault_without hv (hok.2 id rfl)
    | rename id name =>
      refine appVault_map hv rfl fun w => ?_
      split <;> exact ⟨rfl, rfl⟩
  | switch walletId =>
    simp only [AppMove.apply, switchWallet]
    split
    · exact hv
    · exact appVault_congr hrepair rfl
  | repair => exact hrepair

theorem appVault_of_reached (h : AppReached loc v) : AppVault v := by
  obtain ⟨v₀, h₀, hrun⟩ := h
  refine hrun.inv (appVault_made h₀) fun s m s' hs hok hstep => ?_
  obtain rfl := Option.some.inj hstep
  exact appVault_apply hs hok

/-! ## The other contexts -/

variable {w : WalletEntry}

/-- An entry of another group is not the one that goes. -/
theorem id_ne_of_group (hv : AppVault v) (hw : w ∈ v.wallets) {e : WalletEntry} (he : e ∈ v.wallets)
    (hg : groupKey e ≠ groupKey w) : e.id ≠ w.id :=
  fun hid => hg (congrArg groupKey (hv.unique.eq he hw hid))

theorem firstOf_without (hv : AppVault v) (hw : w ∈ v.wallets) {g : String} (hg : g ≠ groupKey w)
    (k : WalletKind) : firstOf (without v w.id).wallets g k = firstOf v.wallets g k := by
  cases hfirst : firstOf v.wallets g k with
  | some r =>
    obtain ⟨hr, -, hrg⟩ := mem_of_firstOf hfirst
    exact find?_without hfirst (id_ne_of_group hv hw hr (hrg ▸ hg))
  | none =>
    have hnone := List.find?_eq_none.1 hfirst
    exact List.find?_eq_none.2 fun e he => hnone e (mem_without.1 he).1

/-- The group of the primary bip39 wallet is the primary one. -/
theorem primary_of_isPrimary (hv : AppVault v) (hw : w ∈ v.wallets) (h : isPrimaryBip39 v w.id = true) :
    primaryGroupId v = some (groupKey w) := by
  obtain ⟨r, hr⟩ := hv.primary
  rw [isPrimaryBip39_eq hr, beq_iff_eq] at h
  have hrw := hv.unique.eq (List.mem_of_find?_eq_some hr) hw h
  rw [primaryGroupId, hr, hrw]
  rfl

theorem groupId_without (hv : AppVault v) (hw : w ∈ v.wallets) {a : Option String}
    (ha : groupIdForWallet v a ≠ some (groupKey w)) :
    groupIdForWallet (without v w.id) a = groupIdForWallet v a := by
  have hunique : UniqueIds (without v w.id) := hv.unique.sublist (List.filter_sublist.map _)
  rcases groupIdForWallet_cases v a with ⟨e, hnames, hg⟩ | ⟨hno, hg⟩
  · rw [hg] at ha ⊢
    have hne := id_ne_of_group hv hw hnames.1 fun heq => ha (congrArg some heq)
    exact groupIdForWallet_of_names hunique ⟨mem_without.2 ⟨hnames.1, hne⟩, hnames.2⟩
  · have hprimary : isPrimaryBip39 v w.id = false := by
      refine Bool.eq_false_iff.2 fun h => ha ?_
      rw [hg, primary_of_isPrimary hv hw h]
    rw [groupIdForWallet_of_not fun e he => hno e ⟨(mem_without.1 he.1).1, he.2⟩, hg,
      primary_without hv hprimary]

theorem primary_heir (v : VaultPayloadV3) (id : String) : primaryGroupId (without v id) = heir v id := by
  have hwallets : (without v id).wallets = v.wallets.filter (·.id != id) := rfl
  have hpred : (fun w : WalletEntry => decide ((w.id != id) = true ∧ (w.kind == .bip39) = true)) =
      fun w => w.id != id && w.kind == .bip39 := by
    funext w
    simp only [Bool.decide_and, Bool.decide_eq_true]
  rw [primaryGroupId, heir, hwallets, List.find?_filter, List.head?_filter, hpred]

theorem legacy_eq_some {g : Option String} {seed : String} :
    (legacyZanoSeedFor v g).map (·.1) = some seed ↔
      truthy v.zanoSeed = some seed ∧ (g = none ∨ g = primaryGroupId v) := by
  unfold legacyZanoSeedFor
  cases truthy v.zanoSeed with
  | none => simp
  | some t =>
    by_cases hg : g ≠ none ∧ g ≠ primaryGroupId v
    · simp [hg]
    · have : g = none ∨ g = primaryGroupId v := by
        by_contra hno
        exact hg (not_or.1 hno)
      simp [hg, this]

theorem legacy_eq_none {g : Option String} : legacyZanoSeedFor v g = none ↔
    truthy v.zanoSeed = none ∨ (g ≠ none ∧ g ≠ primaryGroupId v) := by
  unfold legacyZanoSeedFor
  cases truthy v.zanoSeed with
  | none => simp
  | some t => simp

/-- The vault-wide seed does not change hands, or whoever gets it does not show it. -/
theorem project_without (hv : AppVault v) (hw : w ∈ v.wallets) (h : clears v w = true) {a : Option String}
    (ha : groupIdForWallet v a ≠ some (groupKey w)) :
    projectV3ToV2 (without v w.id) a = projectV3ToV2 v a := by
  have hga := groupId_without hv hw ha
  cases hg : groupIdForWallet v a with
  | none => exact absurd (groupIdForWallet_eq_none.1 hg) (List.ne_nil_of_mem hw)
  | some g =>
    rw [hg] at ha hga
    have hne : g ≠ groupKey w := fun heq => ha (congrArg some heq)
    rw [project_eq hg, project_eq hga]
    have hlegacy : (firstOf v.wallets g .zano).isSome = false →
        legacyZanoSeedFor (without v w.id) (some g) = legacyZanoSeedFor v (some g) := by
      intro hzano
      cases hprimary : isPrimaryBip39 v w.id with
      | false =>
        unfold legacyZanoSeedFor
        rw [primary_without hv hprimary]
        rfl
      | true =>
        cases hseed : truthy v.zanoSeed with
        | none =>
          have hnone : legacyZanoSeedFor (without v w.id) (some g) = none := legacy_eq_none.2 (.inl hseed)
          rw [hnone, legacy_eq_none.2 (.inl hseed)]
        | some seed =>
          have hheir : some g ≠ heir v w.id := by
            intro heq
            have hclears := (Bool.and_eq_true_iff.1 h).2
            simp [hprimary, hseed, ← heq, hne, hzano] at hclears
          rw [legacy_eq_none.2 (.inr ⟨Option.some_ne_none g, by rwa [primary_heir]⟩),
            legacy_eq_none.2 (.inr ⟨Option.some_ne_none g, by rwa [primary_of_isPrimary hv hw hprimary]⟩)]
    simp only [projectGroup, firstOf_without hv hw hne]
    cases hzano : (firstOf v.wallets g .zano).isSome with
    | true => rfl
    | false =>
      rw [hlegacy hzano]
      rfl

/-! ## The seed -/

/-- A projection shows seeds of entries, and the vault-wide one. -/
theorem mem_seeds {a : Option String} {seed : String} (h : seed ∈ (projectV3ToV2 v a).seeds) :
    (∃ e ∈ v.wallets, e.seed = seed) ∨ truthy v.zanoSeed = some seed := by
  have hentry : ∀ {q : WalletEntry → Bool}, (v.wallets.find? q).map (·.seed) = some seed →
      ∃ e ∈ v.wallets, e.seed = seed := fun hq => by
    obtain ⟨e, he, hs⟩ := Option.map_eq_some_iff.1 hq
    exact ⟨e, List.mem_of_find?_eq_some he, hs⟩
  obtain ⟨o, ho, hseed⟩ := List.mem_filterMap.1 h
  obtain ⟨rfl, hne⟩ := truthy_eq_some.1 hseed
  simp only [List.mem_cons, List.not_mem_nil, or_false] at ho
  rcases ho with ho | ho | ho | ho
  · cases hfirst : v.wallets.find? fun w =>
        w.kind == .bip39 && ((groupIdForWallet v a).isNone || some (groupKey w) == groupIdForWallet v a) with
    | none =>
      simp only [projectV3ToV2, hfirst, Option.map_none, Option.getD_none, Option.some.injEq] at ho
      exact absurd ho hne
    | some e =>
      simp only [projectV3ToV2, hfirst, Option.map_some, Option.getD_some, Option.some.injEq] at ho
      exact .inl ⟨e, List.mem_of_find?_eq_some hfirst, ho.symm⟩
  · exact .inl (hentry ho.symm)
  · exact .inl (hentry ho.symm)
  · simp only [projectV3ToV2, Option.orElse_eq_orElse, Option.orElse_eq_or] at ho
    rcases Option.or_eq_some_iff.1 ho.symm with hzano | ⟨-, hlegacy⟩
    · exact .inl (hentry hzano)
    · right
      split at hlegacy
      · cases hlegacy
      · exact (legacy_eq_some.1 hlegacy).1

/-! ## The removal -/

theorem removed_without (hv : AppVault v) (hw : w ∈ v.wallets) : (removeWalletEntry v w.id).removed = some w := by
  cases hfind : v.wallets.find? (·.id == w.id) with
  | none => exact absurd (List.find?_eq_none.1 hfind w hw) (by simp)
  | some e =>
    have hid : e.id = w.id := by simpa using List.find?_some hfind
    exact hfind.trans (congrArg some (hv.unique.eq (List.mem_of_find?_eq_some hfind) hw hid))

theorem others_without (hv : AppVault v) (hw : w ∈ v.wallets) :
    ∃ before after, v.wallets = before ++ w :: after ∧ (without v w.id).wallets = before ++ after := by
  obtain ⟨before, after, hsplit⟩ := List.append_of_mem hw
  have hunique := hv.unique
  rw [UniqueIds, hsplit, List.map_append, List.map_cons, List.nodup_middle, List.nodup_cons,
    ← List.map_append] at hunique
  have hother : ∀ e ∈ before ++ after, (e.id != w.id) = true := fun e he =>
    bne_iff_ne.2 fun hid => hunique.1 (hid ▸ List.mem_map_of_mem he)
  refine ⟨before, after, hsplit, ?_⟩
  show v.wallets.filter (·.id != w.id) = before ++ after
  rw [hsplit, List.filter_append, List.filter_cons_of_neg (by simp), ← List.filter_append]
  exact List.filter_eq_self.2 hother

theorem lastActive_without {id : String} (h : LastActive v) : LastActive (without v id) := by
  intro a ha
  by_cases heq : v.lastActiveWalletId = some id
  · rw [without, removeWalletEntry, if_pos heq] at ha
    exact .inl (Option.some.inj ha).symm
  · rw [without, removeWalletEntry, if_neg heq] at ha
    rcases h a ha with hall | ⟨e, he, rfl⟩
    · exact .inl hall
    · exact .inr ⟨e, mem_without.2 ⟨he, fun hid => heq (hid ▸ ha)⟩, rfl⟩

theorem shows_of_clears (h : clears v w = true) (hno : ∀ e ∈ (without v w.id).wallets, e.seed ≠ w.seed) :
    truthy v.zanoSeed ≠ some w.seed := by
  intro hseed
  have hany := (Bool.and_eq_true_iff.1 h).1
  simp only [hseed, bne_self_eq_false, Bool.false_or, List.any_eq_true, Bool.and_eq_true, bne_iff_ne,
    beq_iff_eq] at hany
  obtain ⟨e, he, hid, hs⟩ := hany
  exact hno e (mem_without.2 ⟨he, hid⟩) hs

theorem removedFrom_of_clears (hv : AppVault v) (hw : w ∈ v.wallets) (h : clears v w = true) :
    RemovedFrom v (without v w.id) w where
  projections hno a hmem := by
    rcases mem_seeds hmem with ⟨e, he, hs⟩ | hlegacy
    · exact hno e he hs
    · exact shows_of_clears h hno hlegacy
  legacy hno g hg := shows_of_clears h hno (legacy_eq_some.1 hg).1
  others := others_without hv hw
  contexts _ ha := project_without hv hw h ha
  primary := primary_without hv
  lastActive := lastActive_without

/-- Where the vault-wide seed would change hands, the context that gets it is shown another seed. -/
theorem shown_to_heir (hv : AppVault v) (hw : w ∈ v.wallets) (hprimary : isPrimaryBip39 v w.id = true)
    {seed g : String} (hseed : truthy v.zanoSeed = some seed) (hheir : heir v w.id = some g)
    (hne : g ≠ groupKey w) (hzano : firstOf v.wallets g .zano = none) :
    ∃ a, groupIdForWallet v a ≠ some (groupKey w) ∧ projectV3ToV2 (without v w.id) a ≠ projectV3ToV2 v a := by
  have hnext := (primary_heir v w.id).trans hheir
  have hnil : (without v w.id).wallets ≠ [] := fun hnil => by
    rw [primaryGroupId_eq_none.2 hnil] at hnext
    cases hnext
  obtain ⟨e, he, hkey⟩ := exists_primary hnil
  have heg : groupKey e = g := Option.some.inj (hkey.symm.trans hnext)
  obtain ⟨hmem, -⟩ := mem_without.1 he
  have hga : groupIdForWallet v (some e.id) = some g := by
    rw [← heg]
    exact groupIdForWallet_of_names hv.unique ⟨hmem, truthy_of_ne (hv.ids e hmem).2, (hv.ids e hmem).1⟩
  have ha : groupIdForWallet v (some e.id) ≠ some (groupKey w) := fun heq => hne (Option.some.inj (hga.symm.trans heq))
  refine ⟨some e.id, ha, fun heq => ?_⟩
  have hbefore : (projectV3ToV2 v (some e.id)).zanoSeed = none := by
    rw [project_eq hga]
    have : legacyZanoSeedFor v (some g) = none :=
      legacy_eq_none.2 (.inr ⟨Option.some_ne_none g, by
        rw [primary_of_isPrimary hv hw hprimary]
        exact fun h => hne (Option.some.inj h)⟩)
    simp [projectGroup, hzano, this]
  have hafter : (projectV3ToV2 (without v w.id) (some e.id)).zanoSeed = some seed := by
    rw [project_eq ((groupId_without hv hw ha).trans hga)]
    have : (legacyZanoSeedFor (without v w.id) (some g)).map (·.1) = some seed :=
      legacy_eq_some.2 ⟨hseed, .inr hnext.symm⟩
    simp [projectGroup, firstOf_without hv hw hne, hzano, this]
  rw [heq, hbefore] at hafter
  cases hafter

theorem clears_of_removedFrom (hv : AppVault v) (hw : w ∈ v.wallets) (h : RemovedFrom v (without v w.id) w) :
    clears v w = true := by
  refine Bool.and_eq_true_iff.2 ⟨?_, ?_⟩
  · by_contra hno
    simp only [Bool.or_eq_true, bne_iff_ne, not_or, not_not, List.any_eq_true, Bool.and_eq_true, beq_iff_eq,
      not_exists, not_and] at hno
    obtain ⟨hseed, hother⟩ := hno
    refine h.legacy (fun e he => ?_) none (legacy_eq_some.2 ⟨hseed, .inl rfl⟩)
    obtain ⟨hmem, hid⟩ := mem_without.1 he
    exact hother e hmem hid
  · by_contra hno
    cases hheir : heir v w.id with
    | none => simp [hheir] at hno
    | some g =>
      simp only [hheir, Option.all_some, Bool.or_eq_true, Bool.not_eq_true', not_or, beq_iff_eq,
        Bool.not_eq_false, Option.isNone_iff_eq_none, Option.isSome_iff_ne_none, not_not] at hno
      obtain ⟨⟨hprimary, hseed⟩, hne, hzano⟩ := hno
      obtain ⟨seed, hseed⟩ := Option.ne_none_iff_exists'.1 hseed
      obtain ⟨a, ha, hdiff⟩ := shown_to_heir hv hw hprimary hseed hheir hne hzano
      exact hdiff (h.contexts a ha)

/-- In every vault of the app a removal takes the entry out, and leaves what it should exactly when the
vault-wide Zano seed is no copy of it and does not change hands. -/
theorem removal_iff {loc : Intl} {v : VaultPayloadV3} (h : AppReached loc v) {w : WalletEntry}
    (hw : w ∈ v.wallets) :
    (removeWalletEntry v w.id).removed = some w ∧
      (RemovedFrom v (removeWalletEntry v w.id).v3 w ↔ clears v w = true) := by
  have hv := appVault_of_reached h
  exact ⟨removed_without hv hw, clears_of_removedFrom hv hw, removedFrom_of_clears hv hw⟩

theorem uuids_tagged {tag : Char} {v : VaultPayloadV3} (htag : tag ≠ 'a')
    (h : ∀ w ∈ v.wallets, w.id.toList.head? ≠ some tag ∧ (groupKey w).toList.head? ≠ some tag) :
    Uuids (tagged tag) v := by
  have hhead : ∀ n, ((tagged tag).genId n).toList.head? = some tag := fun n => by simp [tagged]
  refine ⟨supply_tagged htag h, fun n => ⟨fun heq => ?_, fun heq => ?_⟩⟩
  · have hall := hhead n
    rw [heq] at hall
    exact htag (Option.some.inj hall).symm
  · have hempty := hhead n
    rw [heq] at hempty
    cases hempty

/-- One context, and a Zano wallet saved into it. -/
def oneZano : VaultPayloadV3 := (zanoSave zanoMain "all" "deep" 'p').apply .ascii zanoMain

/-- A second context beside it. -/
def besideZano : VaultPayloadV3 :=
  (addWalletEntry oneZano { kind := .bip39, seed := "about above absent", name := "Second" } (tagged 'n')).1

theorem reached_oneZano : AppReached .ascii oneZano := by
  have hmade : Made zanoMain :=
    ⟨{ bip39 := "abandon ability able" }, tagged 'm', none,
      uuids_tagged (by decide) fun w hw => absurd hw List.not_mem_nil, .inr rfl⟩
  refine ⟨zanoMain, hmade, .step (.move (zanoSave zanoMain "all" "deep" 'p')) .refl ⟨fun opts ho => ?_, nofun⟩ rfl⟩
  obtain rfl := Option.some.inj ho
  exact uuids_tagged (by decide) (by decide +kernel)

theorem reached_besideZano : AppReached .ascii besideZano := by
  obtain ⟨v₀, h₀, hrun⟩ := reached_oneZano
  refine ⟨v₀, h₀, .step (.move (.add _ (tagged 'n'))) hrun ⟨fun opts ho => ?_, nofun⟩ rfl⟩
  obtain rfl := Option.some.inj ho
  exact uuids_tagged (by decide) (by decide +kernel)

theorem removal_iff_beside :
    ∃ w ∈ besideZano.wallets, w.name = "Second" ∧ RemovedFrom besideZano (removeWalletEntry besideZano w.id).v3 w := by
  obtain ⟨w, hw, hname, hclears⟩ : ∃ w ∈ besideZano.wallets, w.name = "Second" ∧ clears besideZano w = true := by
    decide +kernel
  exact ⟨w, hw, hname, (removal_iff reached_besideZano hw).2.2 hclears⟩

/-- The Zano wallet that was saved and removed: the open context shows its seed as before. -/
theorem not_always_removed : ¬ ∀ (loc : Intl) (v : VaultPayloadV3), AppReached loc v →
    ∀ w ∈ v.wallets, RemovedFrom v (removeWalletEntry v w.id).v3 w := by
  intro h
  obtain ⟨w, hw, hgone, hshown⟩ : ∃ w ∈ oneZano.wallets,
      (∀ e ∈ (removeWalletEntry oneZano w.id).v3.wallets, e.seed ≠ w.seed) ∧
        w.seed ∈ (projectV3ToV2 (removeWalletEntry oneZano w.id).v3 (some "all")).seeds := by
    decide +kernel
  exact (h .ascii oneZano reached_oneZano w hw).projections hgone (some "all") hshown

end Vault
