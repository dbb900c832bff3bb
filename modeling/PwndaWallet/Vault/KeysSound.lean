import PwndaWallet.Vault.Flat
import PwndaWallet.Vault.Writes

/-!
# No key is lost

A flat save into a context that the flat shape can describe leaves every seed and key of the vault
where it was or rebuilds it with the same words; the v3 edits leave all of them.
-/

namespace Vault

open Js

variable {loc : Intl}

/-! ## Keeping a secret -/

theorem SameKey.refl (s : Secret) : SameKey loc s s := ⟨rfl, rfl, rfl, rfl, rfl⟩

theorem SameKey.trans {s s' s'' : Secret} (h : SameKey loc s s') (h' : SameKey loc s' s'') :
    SameKey loc s s'' :=
  ⟨h'.kind.trans h.kind, h'.seed.trans h.seed, h'.passphrase.trans h.passphrase, h'.chain.trans h.chain,
    h'.address.trans h.address⟩

theorem Kept.refl (w : Write) (s : Secret) : Kept loc w s s :=
  ⟨.refl s, fun _ => rfl, fun _ => rfl, fun _ => rfl⟩

theorem normalizeSeed_empty : normalizeSeed loc "" = "" := loc.toLowerCase_empty

theorem ne_empty_of_normalizeSeed {seed : String} (h : normalizeSeed loc seed ≠ "") : seed ≠ "" := by
  rintro rfl
  exact h normalizeSeed_empty

theorem mem_secrets {v : VaultPayloadV3} {s : Secret} : s ∈ secrets loc v ↔
    (∃ w ∈ v.wallets, w.holdsKey loc ∧ w.secret = s) ∨ legacySecret loc v = some s := by
  simp [secrets, and_assoc]

theorem legacySecret_eq_some {v : VaultPayloadV3} {s : Secret} : legacySecret loc v = some s ↔
    ∃ seed, truthy v.zanoSeed = some seed ∧ normalizeSeed loc seed ≠ "" ∧
      s = zanoSecret seed ((truthy v.zanoSeedPassphrase).getD "") := by
  unfold legacySecret
  cases truthy v.zanoSeed with
  | none => simp
  | some seed =>
    by_cases h : normalizeSeed loc seed = ""
    · simp [h]
    · simp only [h, if_false, Option.some.injEq]
      exact ⟨fun hs => ⟨seed, rfl, h, hs.symm⟩, fun ⟨_, hs, _, hz⟩ => hs ▸ hz.symm⟩

theorem holdsKey_iff {w w' : WalletEntry} (hk : w'.kind = w.kind)
    (hs : normalizeSeed loc w'.seed = normalizeSeed loc w.seed) : w'.holdsKey loc = w.holdsKey loc := by
  simp [WalletEntry.holdsKey, hk, hs]

/-- Entries that differ in what a secret does not show hold the same keys. -/
theorem secrets_map {v v' : VaultPayloadV3} {f : WalletEntry → WalletEntry}
    (hw : v'.wallets = v.wallets.map f) (hf : ∀ w, (f w).secret = w.secret)
    (hl : legacySecret loc v' = legacySecret loc v) : secrets loc v' = secrets loc v := by
  have hkey : ∀ w, (f w).holdsKey loc = w.holdsKey loc := fun w => by
    have hk : (f w).kind = w.kind := congrArg Secret.kind (hf w)
    have hs : (f w).seed = w.seed := congrArg Secret.seed (hf w)
    exact holdsKey_iff hk (by rw [hs])
  simp [secrets, hw, hl, List.filter_map, Function.comp_def, hkey, hf]

/-! ## The edits -/

def VaultPayload.seedOf (p : VaultPayload) : WalletKind → Option String
  | .xmr => p.xmrSeed
  | .zph => p.zphSeed
  | .zano => p.zanoSeed
  | _ => none

def VaultPayload.heightOf (p : VaultPayload) : WalletKind → Option Nat
  | .xmr => p.xmrRestoreHeight
  | .zph => p.zphRestoreHeight
  | _ => none

/-- A save that the guard lets through has the words that are stored. -/
theorem same_of_not_refused {p : VaultPayload} {kind : WalletKind} {seed pass t : String}
    (hkind : kind = .xmr ∨ kind = .zph ∨ kind = .zano)
    (h : ¬ (flatSeedRefusal loc p kind seed pass).isSome) (hs : p.seedOf kind = some t)
    (ht : normalizeSeed loc t ≠ "") :
    normalizeSeed loc seed = normalizeSeed loc t ∧ (kind = .zano → p.zanoSeedPassphrase.getD "" = pass) := by
  have htruthy : truthy (some t) = some t := truthy_of_ne (ne_empty_of_normalizeSeed ht)
  rcases hkind with rfl | rfl | rfl <;>
  · simp only [VaultPayload.seedOf] at hs
    simp only [flatSeedRefusal, hs, htruthy, ht, if_false] at h
    split at h
    · simp at h
    · rename_i hne
      split at h
      · simp at h
      · rename_i hpass
        exact ⟨(not_ne_iff.1 hne).symm, fun hz => by simpa [hz] using hpass⟩

structure EditKeeps (loc : Intl) (w : Write) (p p' : VaultPayload) : Prop where
  bip39 : p'.bip39 = p.bip39
  derivationChoice : w.changesDerivation = false → p'.derivationChoice = p.derivationChoice
  seed (kind : WalletKind) (t : String) : p.seedOf kind = some t → normalizeSeed loc t ≠ "" →
    ∃ t', p'.seedOf kind = some t' ∧ normalizeSeed loc t' = normalizeSeed loc t ∧
      (w.saves ≠ some kind → t' = t ∧ p'.heightOf kind = p.heightOf kind) ∧
      (kind = .zano → p'.zanoSeedPassphrase.getD "" = p.zanoSeedPassphrase.getD "")

theorem getD_truthy (s : Option String) : (truthy s).getD "" = s.getD "" := by
  cases s with
  | none => rfl
  | some t => by_cases h : t = "" <;> simp [truthy, Option.filter, h]

theorem edit_keeps {edit : FlatEdit} {opts : SchemaOpts} {a : Option String} {p p' : VaultPayload}
    (h : edit.apply loc p = some p') : EditKeeps loc (.flat edit opts a) p p' := by
  cases edit with
  | xmr seed height =>
    simp only [FlatEdit.apply] at h
    split at h
    · cases h
    rename_i hr
    obtain rfl := Option.some.inj h
    refine ⟨rfl, fun _ => rfl, fun kind t ht hn => ?_⟩
    cases kind with
    | xmr => exact ⟨seed, rfl, (same_of_not_refused (.inl rfl) hr ht hn).1, fun h => absurd rfl h, nofun⟩
    | zph | zano => exact ⟨t, ht, rfl, fun _ => ⟨rfl, rfl⟩, fun _ => rfl⟩
    | bip39 | xelis | privateKey | watch => cases ht
  | zph seed height =>
    simp only [FlatEdit.apply] at h
    split at h
    · cases h
    rename_i hr
    obtain rfl := Option.some.inj h
    refine ⟨rfl, fun _ => rfl, fun kind t ht hn => ?_⟩
    cases kind with
    | zph =>
      exact ⟨seed, rfl, (same_of_not_refused (.inr (.inl rfl)) hr ht hn).1, fun h => absurd rfl h, nofun⟩
    | xmr | zano => exact ⟨t, ht, rfl, fun _ => ⟨rfl, rfl⟩, fun _ => rfl⟩
    | bip39 | xelis | privateKey | watch => cases ht
  | zano seed passphrase =>
    simp only [FlatEdit.apply] at h
    split at h
    · cases h
    rename_i hr
    obtain rfl := Option.some.inj h
    refine ⟨rfl, fun _ => rfl, fun kind t ht hn => ?_⟩
    cases kind with
    | zano =>
      obtain ⟨hsame, hpass⟩ := same_of_not_refused (.inr (.inr rfl)) hr ht hn
      exact ⟨seed, rfl, hsame, fun h => absurd rfl h, fun _ => by rw [getD_truthy, hpass rfl]; rfl⟩
    | xmr | zph => exact ⟨t, ht, rfl, fun _ => ⟨rfl, rfl⟩, nofun⟩
    | bip39 | xelis | privateKey | watch => cases ht
  | coin c value =>
    obtain rfl := Option.some.inj h
    exact ⟨rfl, nofun, fun kind t ht _ => ⟨t, by cases kind <;> exact ht, rfl,
      fun _ => ⟨rfl, by cases kind <;> rfl⟩, fun _ => rfl⟩⟩
  | profile choice =>
    obtain rfl := Option.some.inj h
    exact ⟨rfl, nofun, fun kind t ht _ => ⟨t, by cases kind <;> exact ht, rfl,
      fun _ => ⟨rfl, by cases kind <;> rfl⟩, fun _ => rfl⟩⟩

/-! ## A flat save -/

section
variable {v : VaultPayloadV3} {opts : SchemaOpts} {a : Option String} {w : Write} {p : VaultPayload}

/-- The entry of a kind that the projection showed is rebuilt with what the payload says of it. -/
theorem slot_keeps {x : WalletEntry} {g : String} (hg : groupIdForWallet v a = some g)
    (hp : EditKeeps loc w (projectV3ToV2 v a) p) (hx : firstOf v.wallets g x.kind = some x)
    (hkind : x.kind ∈ flatKinds) (hkey : x.holdsKey loc) :
    ∃ e, slot p v opts a x.kind = some e ∧ e.holdsKey loc ∧ Kept loc w x.secret e.secret := by
  rw [project_eq hg] at hp
  have hnorm : x.kind ≠ .watch → normalizeSeed loc x.seed ≠ "" := fun hk => by
    simpa [WalletEntry.holdsKey, hk] using hkey
  suffices h : ∃ e, slot p v opts a x.kind = some e ∧ e.kind = x.kind ∧ Kept loc w x.secret e.secret by
    obtain ⟨e, he, hk, hkept⟩ := h
    exact ⟨e, he, by rw [holdsKey_iff hk hkept.seed, hkey], hkept⟩
  cases hk : x.kind with
  | bip39 =>
    rw [hk] at hx
    obtain ⟨e, he⟩ := Option.isSome_iff_exists.1 (@slot_isSome p v opts a .bip39)
    obtain ⟨hseed, hd⟩ := slot_bip39 he
    have hke := (slot_spec he).1
    have hb : p.bip39 = x.seed := by simpa [projectGroup, hx] using hp.bip39
    refine ⟨e, he, hke, ⟨?_, ?_, ?_, ?_, ?_⟩, ?_, ?_, ?_⟩ <;>
      simp [WalletEntry.secret, hk, hke, hseed, hb, hd]
    intro hch
    simpa [projectGroup, hx] using hp.derivationChoice hch
  | xmr =>
    rw [hk] at hx hnorm
    obtain ⟨t, ht, hsame, hkeep, -⟩ :=
      hp.seed .xmr x.seed (by simp [VaultPayload.seedOf, projectGroup, hx]) (hnorm (by rintro ⟨⟩))
    have htruthy : truthy p.xmrSeed = some t :=
      truthy_eq_some.2 ⟨ht, ne_empty_of_normalizeSeed (hsame ▸ hnorm (by rintro ⟨⟩))⟩
    obtain ⟨e, he⟩ := Option.isSome_iff_exists.1
      ((@slot_isSome p v opts a .xmr).trans (by simp [VaultPayload.describes, htruthy]))
    obtain ⟨hseed, -, hheight⟩ := slot_xmr he
    obtain rfl : t = e.seed := Option.some.inj (htruthy.symm.trans hseed)
    have hke := (slot_spec he).1
    refine ⟨e, he, hke, ⟨?_, ?_, ?_, ?_, ?_⟩, ?_, ?_, ?_⟩ <;>
      simp [WalletEntry.secret, hk, hke, hsame, hheight]
    · exact fun hs => (hkeep hs).1
    · exact fun hs => by simpa [projectGroup, hx, VaultPayload.heightOf] using (hkeep hs).2
  | zph =>
    rw [hk] at hx hnorm
    obtain ⟨t, ht, hsame, hkeep, -⟩ :=
      hp.seed .zph x.seed (by simp [VaultPayload.seedOf, projectGroup, hx]) (hnorm (by rintro ⟨⟩))
    have htruthy : truthy p.zphSeed = some t :=
      truthy_eq_some.2 ⟨ht, ne_empty_of_normalizeSeed (hsame ▸ hnorm (by rintro ⟨⟩))⟩
    obtain ⟨e, he⟩ := Option.isSome_iff_exists.1
      ((@slot_isSome p v opts a .zph).trans (by simp [VaultPayload.describes, htruthy]))
    obtain ⟨hseed, hheight⟩ := slot_zph he
    obtain rfl : t = e.seed := Option.some.inj (htruthy.symm.trans hseed)
    have hke := (slot_spec he).1
    refine ⟨e, he, hke, ⟨?_, ?_, ?_, ?_, ?_⟩, ?_, ?_, ?_⟩ <;>
      simp [WalletEntry.secret, hk, hke, hsame, hheight]
    · exact fun hs => (hkeep hs).1
    · exact fun hs => by simpa [projectGroup, hx, VaultPayload.heightOf] using (hkeep hs).2
  | zano =>
    rw [hk] at hx hnorm
    obtain ⟨t, ht, hsame, hkeep, hpass⟩ :=
      hp.seed .zano x.seed (by simp [VaultPayload.seedOf, projectGroup, hx]) (hnorm (by rintro ⟨⟩))
    have htruthy : truthy p.zanoSeed = some t :=
      truthy_eq_some.2 ⟨ht, ne_empty_of_normalizeSeed (hsame ▸ hnorm (by rintro ⟨⟩))⟩
    obtain ⟨e, he⟩ := Option.isSome_iff_exists.1
      ((@slot_isSome p v opts a .zano).trans (by simp [VaultPayload.describes, htruthy]))
    obtain ⟨hseed, hpe⟩ := slot_zano he
    obtain rfl : t = e.seed := Option.some.inj (htruthy.symm.trans hseed)
    have hke := (slot_spec he).1
    have hpx : p.zanoSeedPassphrase.getD "" = x.zanoSeedPassphrase.getD "" := by
      simpa [projectGroup, hx] using hpass rfl
    refine ⟨e, he, hke, ⟨?_, ?_, ?_, ?_, ?_⟩, ?_, ?_, ?_⟩ <;>
      simp [WalletEntry.secret, hk, hke, hsame, hpe, getD_truthy, hpx]
    exact fun hs => (hkeep hs).1
  | xelis | privateKey | watch => simp [hk, flatKinds] at hkind

/-- A flat save into a context that the flat shape can describe keeps what is stored. -/
theorem flat_keeps {edit : FlatEdit} (h : edit.apply loc (projectV3ToV2 v a) = some p)
    (hd : Described loc v a) (hl : LegacyKept loc v edit a) {s : Secret} (hs : s ∈ secrets loc v) :
    ∃ s' ∈ secrets loc (mergeFlatIntoV3 p (some v) opts a), Kept loc (.flat edit opts a) s s' := by
  have hedit : EditKeeps loc (.flat edit opts a) (projectV3ToV2 v a) p := edit_keeps h
  have hentry : ∀ x ∈ v.wallets, x.holdsKey loc →
      ∃ s' ∈ secrets loc (mergeFlatIntoV3 p (some v) opts a), Kept loc (.flat edit opts a) x.secret s' := by
    intro x hx hkey
    have hgid := @targetGid_of_mem v opts a _ hx
    by_cases hin : groupKey x = targetGid v opts a → x.kind = .xelis
    · exact ⟨_, mem_secrets.2 (.inl ⟨x, mem_merge.2 (.inr ⟨hx, hin⟩), hkey, rfl⟩), .refl _ _⟩
    · obtain ⟨hg, hxelis⟩ := Classical.not_imp.1 hin
      obtain ⟨hkind, hfirst⟩ := (hd x hx (by rw [hgid, hg]) hkey).resolve_left hxelis
      obtain ⟨e, he, hke, hkept⟩ := @slot_keeps loc v opts a _ _ _ _ hgid hedit (hg ▸ hfirst) hkind hkey
      exact ⟨_, mem_secrets.2 (.inl ⟨e, mem_merge.2 (.inl ⟨_, he⟩), hke, rfl⟩), hkept⟩
  rcases mem_secrets.1 hs with ⟨x, hx, hkey, rfl⟩ | hlegacy
  · exact hentry x hx hkey
  obtain ⟨seed, hseed, hnorm, rfl⟩ := legacySecret_eq_some.1 hlegacy
  rcases hl _ hlegacy with ⟨hprimary, hno⟩ | ⟨x, hx, hsecret⟩ | ⟨seed', pass', rfl, hsame⟩
  · -- the projection shows it, and the merge writes it back
    obtain ⟨hz, hpass⟩ := project_legacy hprimary hno hseed
    obtain ⟨t, ht, htn, hkeep, hpt⟩ := hedit.seed .zano seed hz hnorm
    have htruthy : truthy p.zanoSeed = some t :=
      truthy_eq_some.2 ⟨ht, ne_empty_of_normalizeSeed (htn ▸ hnorm)⟩
    have hself : truthy (some t) = some t := ht ▸ htruthy
    have hnew : legacySecret loc (mergeFlatIntoV3 p (some v) opts a) =
        some (zanoSecret t ((truthy v.zanoSeedPassphrase).getD "")) := by
      refine legacySecret_eq_some.2 ⟨t, by simp [mergeFlatIntoV3, htruthy, hself], htn ▸ hnorm, ?_⟩
      have hp : p.zanoSeedPassphrase.getD "" = (truthy v.zanoSeedPassphrase).getD "" := by
        rw [hpt rfl, hpass]
      simp [mergeFlatIntoV3, htruthy, getD_truthy, hp]
    exact ⟨_, mem_secrets.2 (.inr hnew), ⟨rfl, htn, rfl, rfl, rfl⟩, fun h => (hkeep h).1, fun _ => rfl,
      fun _ => rfl⟩
  · have hkey : x.holdsKey loc := by
      have hs : x.seed = seed := congrArg Secret.seed hsecret
      simp [WalletEntry.holdsKey, hs, hnorm]
    exact hsecret ▸ hentry x hx hkey
  · -- it is what is being saved
    simp only [FlatEdit.apply] at h
    split at h
    · cases h
    obtain rfl := Option.some.inj h
    have hne : normalizeSeed loc seed' ≠ "" := fun h => hnorm (hsame.seed.symm.trans h)
    have htruthy : truthy (some seed') = some seed' := truthy_of_ne (ne_empty_of_normalizeSeed hne)
    refine ⟨zanoSecret seed' pass', mem_secrets.2 (.inr ?_), hsame, fun h => absurd rfl h, fun _ => rfl,
      fun _ => rfl⟩
    refine legacySecret_eq_some.2 ⟨seed', by simp [mergeFlatIntoV3, htruthy], hne, ?_⟩
    simp [mergeFlatIntoV3, htruthy, getD_truthy]

end

/-! ## The other writes -/

theorem add_keeps {v : VaultPayloadV3} {spec : NewWalletSpec} {opts : SchemaOpts} {s : Secret}
    (hs : s ∈ secrets loc v) : s ∈ secrets loc (addWalletEntry v spec opts).1 := by
  rcases mem_secrets.1 hs with ⟨x, hx, hkey, rfl⟩ | hl
  · exact mem_secrets.2 (.inl ⟨x, List.mem_append_left _ hx, hkey, rfl⟩)
  · exact mem_secrets.2 (.inr hl)

theorem rename_keeps (v : VaultPayloadV3) (id name : String) :
    secrets loc (renameWalletEntry v id name) = secrets loc v := by
  refine secrets_map rfl (fun w => ?_) rfl
  split <;> rfl

theorem repair_keeps (v : VaultPayloadV3) : secrets loc (repairSharedSidecarFiles loc v).1 = secrets loc v := by
  refine secrets_map rfl (fun w => ?_) rfl
  split <;> rfl

theorem write_keeps {v : VaultPayloadV3} {w : Write} (h : w.Safe loc v) {s : Secret}
    (hs : s ∈ secrets loc v) : ∃ s' ∈ secrets loc (w.apply loc v), Kept loc w s s' := by
  cases w with
  | flat edit opts a =>
    simp only [Write.apply, saveFlat]
    cases hp : edit.apply loc (projectV3ToV2 v a) with
    | none => exact ⟨s, hs, .refl _ _⟩
    | some p =>
      obtain ⟨hd, hl⟩ := h (by rw [hp]; rfl)
      exact flat_keeps hp hd hl hs
  | add spec opts => exact ⟨s, add_keeps hs, .refl _ _⟩
  | addXelis seed opts a =>
    refine ⟨s, ?_, .refl _ _⟩
    simp only [Write.apply, addXelisWalletToContext]
    split
    · rename_i heq
      split at heq
      · split at heq
        · obtain rfl := (Prod.mk.inj (Except.ok.inj heq)).1
          exact hs
        · cases heq
      · split at heq
        · cases heq
        · obtain rfl := (Prod.mk.inj (Except.ok.inj heq)).1
          exact add_keeps hs
    · exact hs
  | rename id name => exact ⟨s, (rename_keeps v id name).symm ▸ hs, .refl _ _⟩
  | switch walletId =>
    refine ⟨s, ?_, .refl _ _⟩
    simp only [Write.apply, switchWallet]
    split
    · exact hs
    · rw [← @repair_keeps loc v] at hs
      exact hs
  | repair => exact ⟨s, (repair_keeps v).symm ▸ hs, .refl _ _⟩

/-! ## Runs -/

/-- Along every run of writes whose flat saves go into contexts that the flat shape can describe, every
seed and key stays stored, and the next write keeps it with all that belongs to it. -/
theorem keys_stay_stored (loc : Intl) {v₀ v : VaultPayloadV3}
    (h : (writes loc).ReachOn (fun v w => w.Safe loc v) v₀ v) :
    (∀ s ∈ secrets loc v₀, ∃ s' ∈ secrets loc v, SameKey loc s s') ∧
      ∀ w : Write, w.Safe loc v → ∀ s ∈ secrets loc v, ∃ s' ∈ secrets loc (w.apply loc v), Kept loc w s s' := by
  refine ⟨fun s hs => ?_, fun w hw s hs => write_keeps hw hs⟩
  induction h with
  | refl => exact ⟨s, hs, .refl s⟩
  | step w _ hok hstep ih =>
    obtain rfl := Option.some.inj hstep
    obtain ⟨s', hs', hsame⟩ := ih
    obtain ⟨s'', hs'', hkept⟩ := write_keeps hok hs'
    exact ⟨s'', hs'', hsame.trans hkept.toSameKey⟩

def sampleOpts : SchemaOpts where
  now := 7
  genId n := "new-" ++ String.ofList (List.replicate n 'i')

def mainEntry : WalletEntry where
  id := "main"
  name := "Main"
  kind := .bip39
  seed := "abandon ability able"
  createdAt := 1
  groupId := some "g"

def keyEntry : WalletEntry where
  id := "key"
  name := "Trading"
  kind := .privateKey
  seed := "b5d4045c3f466fa91fe2cc6abe79232a"
  createdAt := 2
  groupId := some "h"
  chain := some .ethereum
  address := some "0x52908400098527886e0f7030069857d2e4169ee7"

def sampleVault : VaultPayloadV3 where
  wallets := [mainEntry, keyEntry]

/-- The Solana derivation changed in the main context, beside an imported key. -/
theorem keys_stay_stored_sample : ∃ s' ∈ secrets .ascii
    (Write.apply .ascii sampleVault (.flat (.coin .solana "cli") sampleOpts (some "main"))),
    SameKey .ascii keyEntry.secret s' := by
  have hsafe : (Write.flat (.coin .solana "cli") sampleOpts (some "main")).Safe .ascii sampleVault := by
    refine fun _ => ⟨?_, fun s hs => ?_⟩
    · unfold Described
      decide +kernel
    · simp [legacySecret, sampleVault] at hs
  have hmem : keyEntry.secret ∈ secrets .ascii sampleVault := by decide +kernel
  exact (keys_stay_stored .ascii (.step _ .refl hsafe rfl)).1 _ hmem

/-- The same change while the imported key's own wallet is open: its group is rebuilt without it. -/
theorem not_always_stored : ¬ ∀ (loc : Intl) (v : VaultPayloadV3) (w : Write), ∀ s ∈ secrets loc v,
    ∃ s' ∈ secrets loc (w.apply loc v), Kept loc w s s' := by
  intro h
  obtain ⟨s', hs', hkept⟩ := h .ascii sampleVault (.flat (.coin .solana "cli") sampleOpts (some "key"))
    keyEntry.secret (by decide +kernel)
  have hnone : ∀ s' ∈ secrets .ascii
      (Write.apply .ascii sampleVault (.flat (.coin .solana "cli") sampleOpts (some "key"))),
      s'.kind ≠ .privateKey := by decide +kernel
  exact hnone s' hs' hkept.kind

end Vault
