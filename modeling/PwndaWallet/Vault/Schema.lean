import PwndaWallet.Lib.Js

/-!
# The vault

`vault-schema.ts`: the two shapes of the vault, the groups its entries form and the contexts the user
switches between, and the wallet file of an entry. A field that is `undefined` or `null` is `none`.
-/

namespace Vault

open Js

/-! ## The shapes -/

inductive XmrSeedFormat where
  | polyseed | legacy
deriving DecidableEq, Repr

/-- The per-chain derivation-path choice of the import wizard. -/
structure DerivationChoice where
  bitcoin : String
  solana : String
  cardano : String
  algorand : Option String := none
  litecoin : Option String := none
  xrp : Option String := none
  tron : Option String := none
  ravencoin : Option String := none
  dash : Option String := none
deriving DecidableEq, Repr

/-- The flat working shape: one context's seeds. -/
structure VaultPayload where
  bip39 : String
  xmrSeed : Option String := none
  xmrSeedFormat : Option XmrSeedFormat := none
  xmrRestoreHeight : Option Nat := none
  zphSeed : Option String := none
  zphRestoreHeight : Option Nat := none
  zanoSeed : Option String := none
  zanoSeedPassphrase : Option String := none
  derivationChoice : Option DerivationChoice := none
  devFeeAcknowledgedAt : Option Nat := none
deriving DecidableEq, Repr

inductive WalletKind where
  | bip39 | xmr | zph | zano | xelis | privateKey | watch
deriving DecidableEq, Repr

inductive ChainType where
  | ethereum | avalanche | usdtAvax | usdtEth | usdtOp | usdtBsc | usdcEth | usdcArb | usdcBase | usdcOp
  | usdcPol | usdcAvax | usdcBsc | usdt0Arb | usdt0Pol | usdcMonad | usdt0Monad | usdt0Op | usdtNear
  | usdcNear | usdtAptos | usdcAptos | usdcSol | usdtSol | usdtTron | polygon | flare | bitcoin | solana
  | xrp | tron | cardano | monero | dogecoin | ravencoin | conflux | hedera | algorand | zephyr | litecoin
  | bitcoinCash | arbitrum | base | optimism | bsc | monad | dash | stellar | sui | ergo | near | zano
  | aptos | xelis
deriving DecidableEq, Repr

/-- One wallet: a seed phrase, a raw key (`privateKey`) or an address (`watch`). -/
structure WalletEntry where
  id : String
  name : String
  kind : WalletKind
  seed : String
  createdAt : Nat
  groupId : Option String := none
  derivationChoice : Option DerivationChoice := none
  xmrSeedFormat : Option XmrSeedFormat := none
  restoreHeight : Option Nat := none
  sidecarFile : Option String := none
  zanoSeedPassphrase : Option String := none
  chain : Option ChainType := none
  address : Option String := none
deriving DecidableEq, Repr

/-- A balance and its price, as the number's text. -/
structure CachedBalance where
  balance : String
  usdAtSync : Option String := none
deriving DecidableEq, Repr

structure BalanceSnapshot where
  byChain : List (String × CachedBalance)
  syncedAt : Nat
deriving DecidableEq, Repr

/-- The shape on disk. -/
structure VaultPayloadV3 where
  wallets : List WalletEntry
  lastActiveWalletId : Option String := none
  legacyDevFeeAcknowledgedAt : Option Nat := none
  balanceCache : Option (List (String × BalanceSnapshot)) := none
  zanoSeed : Option String := none
  zanoSeedPassphrase : Option String := none
deriving DecidableEq, Repr

/-- The clock of an operation and its id generator: `genId n` is what the call after `n` others
returns. -/
structure SchemaOpts where
  now : Nat
  genId : Nat → String

/-! ## Wallet files -/

def LEGACY_XMR_SIDECAR_FILE : String := "pwnda-active"
def LEGACY_ZPH_SIDECAR_FILE : String := "pwnda-zph-active"
def LEGACY_ZANO_SIDECAR_FILE : String := "pwnda.zan"

def newSidecarFile (kind : WalletKind) (id : String) : Option String :=
  match kind with
  | .xmr => some ("pwnda-xmr-" ++ id)
  | .zph => some ("pwnda-zph-" ++ id)
  | .zano => some ("pwnda-zano-" ++ id ++ ".zan")
  | .xelis => some ("pwnda-xelis-" ++ id)
  | _ => none

/-- The kinds that keep a wallet file. -/
def WalletKind.isSidecar : WalletKind → Bool
  | .xmr | .zph | .zano | .xelis => true
  | _ => false

def sidecarFileForEntry (entry : WalletEntry) : Option String :=
  if entry.kind.isSidecar then entry.sidecarFile <|> newSidecarFile entry.kind entry.id else none

/-- The name a new `xmr` or `zph` entry gets through the flat save: the legacy one while nobody holds
it. -/
def flatSidecarFileFor (kind : WalletKind) (id : String) (wallets : List WalletEntry) : Option String :=
  let legacy := if kind = .xmr then LEGACY_XMR_SIDECAR_FILE else LEGACY_ZPH_SIDECAR_FILE
  if wallets.any fun w => w.kind == kind && sidecarFileForEntry w == some legacy then newSidecarFile kind id
  else some legacy

/-! ## Groups -/

/-- The key an entry groups under: a wallet without a group is a context of its own. -/
def groupKey (w : WalletEntry) : String := w.groupId.getD w.id

def primaryGroupId (v3 : VaultPayloadV3) : Option String :=
  ((v3.wallets.find? (·.kind == .bip39)) <|> v3.wallets.head?).map groupKey

/-- The first entry of a kind in a group, which is the one the flat shape stands for. -/
def firstOf (wallets : List WalletEntry) (gid : String) (kind : WalletKind) : Option WalletEntry :=
  wallets.find? fun w => w.kind == kind && groupKey w == gid

/-! ## Contexts -/

structure WalletContext where
  id : String
  groupId : String
  name : String
  members : List WalletEntry

def memberLe (a b : WalletEntry) : Bool :=
  if a.kind == .bip39 && b.kind != .bip39 then true
  else if b.kind == .bip39 && a.kind != .bip39 then false
  else a.createdAt ≤ b.createdAt

def contextOf (group : String × List WalletEntry) : Option WalletContext :=
  match sort memberLe group.2 with
  | [] => none
  | rep :: rest => some { id := rep.id, groupId := group.1, name := rep.name, members := rep :: rest }

def WalletContext.earliest (c : WalletContext) : Nat := ((c.members.map (·.createdAt)).min?).getD 0

def contextLe (primaryGid : Option String) (a b : WalletContext) : Bool :=
  let ap := if some a.groupId == primaryGid then 0 else 1
  let bp := if some b.groupId == primaryGid then 0 else 1
  if ap != bp then ap ≤ bp else a.earliest ≤ b.earliest

def listContexts (v3 : VaultPayloadV3) : List WalletContext :=
  sort (contextLe (primaryGroupId v3)) ((group groupKey v3.wallets).filterMap contextOf)

def contextForWallet (v3 : VaultPayloadV3) (activeWalletId : String) : Option WalletContext :=
  let contexts := listContexts v3
  if activeWalletId = "all" then contexts.head?
  else (contexts.find? fun c => c.members.any (·.id == activeWalletId)) <|> contexts.head?

def memberOfKind (ctx : Option WalletContext) (kind : WalletKind) : Option WalletEntry :=
  ctx.bind fun c => c.members.find? (·.kind == kind)

/-- The group a given active wallet belongs to. -/
def groupIdForWallet (v3 : VaultPayloadV3) (activeWalletId : Option String) : Option String :=
  match truthy activeWalletId with
  | none => primaryGroupId v3
  | some a =>
    if a = "all" then primaryGroupId v3
    else (contextForWallet v3 a).map (·.groupId) <|> primaryGroupId v3

/-! ## The vault-wide Zano seed -/

/-- The legacy vault-wide Zano seed and its passphrase, but only for the context it belongs to. -/
def legacyZanoSeedFor (v3 : VaultPayloadV3) (groupId : Option String) : Option (String × Option String) :=
  match truthy v3.zanoSeed with
  | none => none
  | some seed =>
    if groupId ≠ none ∧ groupId ≠ primaryGroupId v3 then none
    else some (seed, truthy v3.zanoSeedPassphrase)

/-- The primary group's id when that group has no wallet of `kind`: the slot an added wallet fills. -/
def primaryGroupSlotFor (v3 : VaultPayloadV3) (kind : WalletKind) : Option String :=
  if kind.isSidecar then
    match primaryGroupId v3 with
    | none => none
    | some gid =>
      if (firstOf v3.wallets gid kind).isSome then none
      else if kind = .zano ∧ (legacyZanoSeedFor v3 (some gid)).isSome then none
      else some gid
  else none

/-!
## Contexts and the group of an active wallet

The contexts are the groups of the vault's entries, the primary one first. An active wallet id that
names an entry stands for that entry's group and every other one for the primary group.
-/

/-! ## The primary group -/

def UniqueIds (v3 : VaultPayloadV3) : Prop := (v3.wallets.map (·.id)).Nodup

theorem UniqueIds.eq {v3 : VaultPayloadV3} (hu : UniqueIds v3) {w w' : WalletEntry} (hw : w ∈ v3.wallets)
    (hw' : w' ∈ v3.wallets) (h : w.id = w'.id) : w = w' := List.inj_on_of_nodup_map hu hw hw' h

theorem primaryGroupId_eq_none {v3 : VaultPayloadV3} : primaryGroupId v3 = none ↔ v3.wallets = [] := by
  unfold primaryGroupId
  cases h : v3.wallets with
  | nil => simp
  | cons w ws => cases hf : (w :: ws).find? (·.kind == .bip39) <;> simp

theorem exists_primary {v3 : VaultPayloadV3} (h : v3.wallets ≠ []) :
    ∃ w ∈ v3.wallets, primaryGroupId v3 = some (groupKey w) := by
  unfold primaryGroupId
  cases hf : v3.wallets.find? (·.kind == .bip39) with
  | some w => exact ⟨w, List.mem_of_find?_eq_some hf, by simp⟩
  | none =>
    obtain ⟨w, ws, hws⟩ := List.exists_cons_of_ne_nil h
    exact ⟨w, by simp [hws], by simp [hws]⟩

/-! ## Contexts -/

theorem mem_contextOf {g : String × List WalletEntry} {c : WalletContext} (h : contextOf g = some c) :
    c.groupId = g.1 ∧ ∀ m, m ∈ c.members ↔ m ∈ g.2 := by
  unfold contextOf at h
  split at h
  · cases h
  · rename_i rep rest hsort
    obtain rfl := Option.some.inj h
    refine ⟨rfl, fun m => ?_⟩
    rw [← @mem_sort _ memberLe g.2, hsort]

theorem contextOf_isSome {g : String × List WalletEntry} (h : g.2 ≠ []) : ∃ c, contextOf g = some c := by
  unfold contextOf
  split
  · rename_i hsort
    have hlen := (perm_sort memberLe g.2).length_eq
    rw [hsort] at hlen
    exact absurd (List.length_eq_zero_iff.1 hlen.symm) h
  · exact ⟨_, rfl⟩

theorem mem_listContexts {v3 : VaultPayloadV3} {c : WalletContext} (h : c ∈ listContexts v3) :
    ∀ m, m ∈ c.members ↔ m ∈ v3.wallets ∧ groupKey m = c.groupId := by
  obtain ⟨g, hg, hc⟩ := List.mem_filterMap.1 (mem_sort.1 h)
  obtain ⟨hgid, hmem⟩ := mem_contextOf hc
  intro m
  rw [hmem m, (mem_group.1 hg).2, hgid]
  simp

theorem exists_context {v3 : VaultPayloadV3} {w : WalletEntry} (h : w ∈ v3.wallets) :
    ∃ c ∈ listContexts v3, c.groupId = groupKey w := by
  have hg : (groupKey w, v3.wallets.filter (groupKey · = groupKey w)) ∈ group groupKey v3.wallets :=
    mem_group.2 ⟨List.mem_map_of_mem h, rfl⟩
  have hw : w ∈ v3.wallets.filter (groupKey · = groupKey w) := List.mem_filter.2 ⟨h, by simp⟩
  obtain ⟨c, hc⟩ := contextOf_isSome (g := (groupKey w, _)) (List.ne_nil_of_mem hw)
  exact ⟨c, mem_sort.2 (List.mem_filterMap.2 ⟨_, hg, hc⟩), (mem_contextOf hc).1⟩

theorem contextLe_total (p : Option String) (a b : WalletContext) : contextLe p a b ∨ contextLe p b a := by
  unfold contextLe
  by_cases ha : some a.groupId = p <;> by_cases hb : some b.groupId = p <;> simp [ha, hb] <;> omega

theorem contextLe_trans (p : Option String) (a b c : WalletContext) :
    contextLe p a b → contextLe p b c → contextLe p a c := by
  unfold contextLe
  by_cases ha : some a.groupId = p <;> by_cases hb : some b.groupId = p <;>
    by_cases hc : some c.groupId = p <;> simp [ha, hb, hc] <;> omega

theorem head_listContexts {v3 : VaultPayloadV3} (h : v3.wallets ≠ []) :
    ∃ c, (listContexts v3).head? = some c ∧ some c.groupId = primaryGroupId v3 := by
  obtain ⟨w, hw, hp⟩ := exists_primary h
  obtain ⟨d, hd, hdg⟩ := exists_context hw
  obtain ⟨c, cs, hcs⟩ := List.exists_cons_of_ne_nil (List.ne_nil_of_mem hd)
  refine ⟨c, by rw [hcs]; rfl, ?_⟩
  have hsorted : (c :: cs).Pairwise fun a b => contextLe (primaryGroupId v3) a b := by
    rw [← hcs]
    exact pairwise_sort (contextLe_total _) (contextLe_trans _) _
  rcases List.mem_cons.1 (hcs ▸ hd) with rfl | hin
  · rw [hp, hdg]
  · have hle := (List.pairwise_cons.1 hsorted).1 d hin
    by_contra hne
    have hdp : some d.groupId = primaryGroupId v3 := by rw [hp, hdg]
    simp [contextLe, hne, hdp] at hle

/-! ## The group of an active wallet -/

/-- The active wallet id `a` names the entry `w`. -/
def Names (v3 : VaultPayloadV3) (a : Option String) (w : WalletEntry) : Prop :=
  w ∈ v3.wallets ∧ truthy a = some w.id ∧ w.id ≠ "all"

theorem groupIdForWallet_cases (v3 : VaultPayloadV3) (a : Option String) :
    (∃ w, Names v3 a w ∧ groupIdForWallet v3 a = some (groupKey w)) ∨
      ((∀ w, ¬ Names v3 a w) ∧ groupIdForWallet v3 a = primaryGroupId v3) := by
  unfold groupIdForWallet
  cases ha : truthy a with
  | none => exact .inr ⟨fun w hw => by simp [Names, ha] at hw, rfl⟩
  | some i =>
    by_cases hall : i = "all"
    · subst hall
      exact .inr ⟨fun w ⟨_, hi, hne⟩ => hne (Option.some.inj (ha ▸ hi)).symm, by simp⟩
    · simp only [hall, if_false, contextForWallet]
      cases hf : (listContexts v3).find? fun c => c.members.any (·.id == i) with
      | some c =>
        have hany : (c.members.any fun m => m.id == i) = true := by
          have h := List.find?_some hf
          exact h
        obtain ⟨w, hw, hid⟩ := List.any_eq_true.1 hany
        obtain ⟨hmem, hkey⟩ := (mem_listContexts (List.mem_of_find?_eq_some hf) w).1 hw
        have hid : w.id = i := by simpa using hid
        exact .inl ⟨w, ⟨hmem, by rw [ha, hid], by rwa [hid]⟩, by simp [hkey]⟩
      | none =>
        refine .inr ⟨fun w ⟨hw, hi, _⟩ => ?_, ?_⟩
        · obtain ⟨c, hc, hcg⟩ := exists_context hw
          have hno := List.find?_eq_none.1 hf c hc
          have hwc := (mem_listContexts hc w).2 ⟨hw, hcg.symm⟩
          have hid : i = w.id := Option.some.inj (ha ▸ hi)
          exact hno (List.any_eq_true.2 ⟨w, hwc, by simp [hid]⟩)
        · by_cases hw : v3.wallets = []
          · simp [listContexts, hw, primaryGroupId, group, sort]
          · obtain ⟨c, hc, hp⟩ := head_listContexts hw
            simp [hc, hp]

theorem groupIdForWallet_of_names {v3 : VaultPayloadV3} (hu : UniqueIds v3) {a : Option String}
    {w : WalletEntry} (h : Names v3 a w) : groupIdForWallet v3 a = some (groupKey w) := by
  rcases groupIdForWallet_cases v3 a with ⟨w', ⟨hw', ha', _⟩, hg⟩ | ⟨hno, _⟩
  · have hid : w'.id = w.id := Option.some.inj (ha'.symm.trans h.2.1)
    rw [hg, hu.eq hw' h.1 hid]
  · exact absurd h (hno w)

theorem groupIdForWallet_of_not {v3 : VaultPayloadV3} {a : Option String} (h : ∀ w, ¬ Names v3 a w) :
    groupIdForWallet v3 a = primaryGroupId v3 := by
  rcases groupIdForWallet_cases v3 a with ⟨w, hw, _⟩ | ⟨_, hg⟩
  · exact absurd hw (h w)
  · exact hg

theorem groupIdForWallet_eq_none {v3 : VaultPayloadV3} {a : Option String} :
    groupIdForWallet v3 a = none ↔ v3.wallets = [] := by
  rcases groupIdForWallet_cases v3 a with ⟨w, ⟨hw, _⟩, hg⟩ | ⟨_, hg⟩
  · simp [hg, List.ne_nil_of_mem hw]
  · rw [hg, primaryGroupId_eq_none]

/-- The group of an active wallet is the one of some entry. -/
theorem exists_of_groupIdForWallet {v3 : VaultPayloadV3} {a : Option String} {g : String}
    (h : groupIdForWallet v3 a = some g) : ∃ w ∈ v3.wallets, groupKey w = g := by
  rcases groupIdForWallet_cases v3 a with ⟨w, ⟨hw, _⟩, hg⟩ | ⟨_, hg⟩
  · exact ⟨w, hw, Option.some.inj (hg.symm.trans h)⟩
  · have hne : v3.wallets ≠ [] := fun hnil => by
      rw [groupIdForWallet_eq_none.2 hnil] at h
      cases h
    obtain ⟨w, hw, hp⟩ := exists_primary hne
    exact ⟨w, hw, Option.some.inj (hp.symm.trans (hg.symm.trans h))⟩

/-! ## The first of a kind -/

theorem mem_of_firstOf {wallets : List WalletEntry} {gid : String} {kind : WalletKind} {w : WalletEntry}
    (h : firstOf wallets gid kind = some w) : w ∈ wallets ∧ w.kind = kind ∧ groupKey w = gid := by
  have hp := List.find?_some h
  simp only [Bool.and_eq_true, beq_iff_eq] at hp
  exact ⟨List.mem_of_find?_eq_some h, hp.1, hp.2⟩

theorem firstOf_isSome {wallets : List WalletEntry} {w : WalletEntry} (h : w ∈ wallets) :
    ∃ w', firstOf wallets (groupKey w) w.kind = some w' := by
  cases hf : firstOf wallets (groupKey w) w.kind with
  | some w' => exact ⟨w', rfl⟩
  | none => exact absurd (List.find?_eq_none.1 hf w h) (by simp)

end Vault
