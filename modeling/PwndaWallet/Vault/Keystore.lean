import PwndaWallet.Lib.Json
import PwndaWallet.Vault.Flat
import PwndaWallet.Vault.LensSound

/-!
# The keystore's reading of the vault

`keystore.rs`: which recovery phrase the swap engine takes out of a decrypted vault. It reads the JSON
that `JSON.stringify` made of the vault, flat or with entries.
-/

namespace Keystore

open Rust Vault

inductive VaultError where
  | badJson
deriving DecidableEq, Repr

/-! ## The flat shape -/

/-- The plaintext shape, as far as it is decoded. -/
structure VaultPayload where
  v : Nat
  bip39 : String
  xmrSeed : Option String
  xmrSeedFormat : Option String
  xmrRestoreHeight : Option Nat
  zphSeed : Option String
  zphRestoreHeight : Option Nat

def asU32 (value : Json) : Option Nat := value.asU64.filter (· < 2 ^ 32)

/-- A field of type `Option<_>` with a default: absent and `null` are `None`. -/
def optional {α : Type} (read : Json → Option α) : Option Json → Option (Option α)
  | none => some none
  | some .null => some none
  | some value => (read value).map some

/-- The members of an object; an array is read by position. -/
def members : Json → Option (List (String × Json))
  | .obj fields => some fields
  | .arr xs =>
    let names := ["v", "bip39", "xmr_seed", "xmrSeedFormat", "xmrRestoreHeight", "zphSeed", "zphRestoreHeight"]
    if xs.length ≤ names.length then some (names.zip xs) else none
  | _ => none

/-- `serde_json::from_value::<VaultPayload>`. -/
def VaultPayload.fromValue (value : Json) : Option VaultPayload := do
  let fields ← members value
  let v ← (fields.lookup "v").bind asU32
  let bip39 ← (fields.lookup "bip39").bind Json.asStr
  let xmrSeed ← optional Json.asStr (fields.lookup "xmr_seed")
  let xmrSeedFormat ← optional Json.asStr (fields.lookup "xmrSeedFormat")
  let xmrRestoreHeight ← optional Json.asU64 (fields.lookup "xmrRestoreHeight")
  let zphSeed ← optional Json.asStr (fields.lookup "zphSeed")
  let zphRestoreHeight ← optional Json.asU64 (fields.lookup "zphRestoreHeight")
  some { v, bip39, xmrSeed, xmrSeedFormat, xmrRestoreHeight, zphSeed, zphRestoreHeight }

/-! ## Entries -/

def stringOf (w : Json) (key : String) : Option String := (w.get key).bind Json.asStr

/-- `groupKey(w) = w.groupId ?? w.id` -/
def groupKeyOf (w : Json) : Option String := stringOf w "groupId" <|> stringOf w "id"

def isBip39 (w : Json) : Bool := stringOf w "kind" == some "bip39"

/-- The group whose phrase is wanted: that of `lastActiveWalletId`, else the primary one. -/
def wantedGroup (value : Json) (wallets : List Json) : Option String :=
  let primaryGroup := (wallets.find? isBip39 <|> wallets.head?).bind groupKeyOf
  let activeId := (stringOf value "lastActiveWalletId").filter (· ≠ "all")
  (activeId.bind fun id => (wallets.find? fun w => stringOf w "id" == some id).bind groupKeyOf) <|> primaryGroup

def chosenSeed (value : Json) (wallets : List Json) : String :=
  let wanted := wantedGroup value wallets
  let chosen := (wallets.filter isBip39).find? (fun w => wanted.isNone || groupKeyOf w == wanted) <|>
    -- the wanted group has no phrase: another group's is taken
    wallets.find? isBip39
  (chosen.bind (stringOf · "seed")).getD ""

/-- `parse` is `serde_json::from_str`. -/
def bip39FromPayload (parse : String → Option Json) (plaintext : String) : Except VaultError String :=
  match parse plaintext with
  | none => .error .badJson
  | some value =>
    -- without `v` it is the oldest flat shape
    let version := ((value.get "v").bind Json.asU64).getD 2
    if version < 3 then
      match VaultPayload.fromValue value with
      | none => .error .badJson
      | some parsed => .ok parsed.bip39
    else
      match (value.get "wallets").bind Json.asArray with
      | none => .error .badJson
      | some wallets => .ok (chosenSeed value wallets)

/-!
## The keystore and the UI on one vault

What the keystore takes out of a stored vault is the phrase that the UI projects for the last active
wallet, as long as that wallet's context has one. A context without one gets another context's.
-/

open Js

/-! ## Stored vaults -/

/-- A field that `JSON.stringify` leaves out when it is `undefined`. -/
def StoredString (field : Option Json) : Option String → Prop
  | some s => field = some (.str s)
  | none => field = none ∨ field = some .null

/-- Within 64 bits the number is an integer for the reader, beyond them a float. -/
def StoredNumber (field : Option Json) : Option Nat → Prop
  | some n => if n < 2 ^ 64 then field = some (.int n) else ∃ text, field = some (.float text)
  | none => field = none ∨ field = some .null

def kindTag : WalletKind → String
  | .bip39 => "bip39"
  | .xmr => "xmr"
  | .zph => "zph"
  | .zano => "zano"
  | .xelis => "xelis"
  | .privateKey => "privateKey"
  | .watch => "watch"

def formatTag : XmrSeedFormat → String
  | .polyseed => "polyseed"
  | .legacy => "legacy"

structure EntryStored (j : Json) (w : WalletEntry) : Prop where
  id : j.get "id" = some (.str w.id)
  kind : j.get "kind" = some (.str (kindTag w.kind))
  seed : j.get "seed" = some (.str w.seed)
  group : StoredString (j.get "groupId") w.groupId

/-- The JSON of a vault with entries. -/
structure VaultStored (j : Json) (v : VaultPayloadV3) : Prop where
  version : j.get "v" = some (.int 3)
  wallets : ∃ ws, j.get "wallets" = some (.arr ws) ∧ List.Forall₂ EntryStored ws v.wallets
  active : StoredString (j.get "lastActiveWalletId") v.lastActiveWalletId

/-- The JSON of a flat vault. -/
structure FlatStored (j : Json) (p : Vault.VaultPayload) : Prop where
  object : ∃ fields, j = .obj fields
  version : j.get "v" = some (.int 2)
  bip39 : j.get "bip39" = some (.str p.bip39)
  snakeCase : j.get "xmr_seed" = none
  xmrSeedFormat : StoredString (j.get "xmrSeedFormat") (p.xmrSeedFormat.map formatTag)
  xmrRestoreHeight : StoredNumber (j.get "xmrRestoreHeight") p.xmrRestoreHeight
  zphSeed : StoredString (j.get "zphSeed") p.zphSeed
  zphRestoreHeight : StoredNumber (j.get "zphRestoreHeight") p.zphRestoreHeight

/-! ## The flat shape -/

theorem optional_some {α : Type} {read : Json → Option α} {j : Json} (h : j ≠ .null) :
    optional read (some j) = (read j).map some := by
  cases j <;> first | rfl | exact absurd rfl h

theorem optional_string {field : Option Json} {s : Option String} (h : StoredString field s) :
    optional Json.asStr field = some s := by
  cases s with
  | some s =>
    rw [show field = some (.str s) from h]
    rfl
  | none => rcases h with rfl | rfl <;> rfl

theorem optional_number {field : Option Json} {n : Option Nat} (h : StoredNumber field n)
    (hn : ∀ m, n = some m → m < 2 ^ 64) : optional Json.asU64 field = some n := by
  cases n with
  | some n =>
    have hlt := hn n rfl
    simp only [StoredNumber, if_pos hlt] at h
    have hread : Json.asU64 (.int n) = some n := by
      rw [Json.asU64, if_pos (by omega), Int.toNat_natCast]
    have hne : Json.int n ≠ .null := nofun
    rw [h, optional_some hne, hread, Option.map_some]
  | none => rcases h with rfl | rfl <;> rfl

theorem bip39FromPayload_flat {parse : String → Option Json} {plaintext : String} {j : Json}
    {p : Vault.VaultPayload} (hparse : parse plaintext = some j) (h : FlatStored j p)
    (hxmr : ∀ n, p.xmrRestoreHeight = some n → n < 2 ^ 64) (hzph : ∀ n, p.zphRestoreHeight = some n → n < 2 ^ 64) :
    bip39FromPayload parse plaintext = .ok p.bip39 := by
  obtain ⟨⟨fields, rfl⟩, hv, hbip39, hsnake, hformat, hxmrHeight, hzphSeed, hzphHeight⟩ := h
  have hfrom : ∃ q, VaultPayload.fromValue (.obj fields) = some q ∧ q.bip39 = p.bip39 := by
    simp only [Json.get] at hv hbip39 hsnake hformat hxmrHeight hzphSeed hzphHeight
    refine ⟨⟨2, p.bip39, none, p.xmrSeedFormat.map formatTag, p.xmrRestoreHeight, p.zphSeed,
      p.zphRestoreHeight⟩, ?_, rfl⟩
    have htwo : (some (.int 2)).bind asU32 = some 2 := by decide
    have hnone : optional Json.asStr none = some none := rfl
    simp [VaultPayload.fromValue, members, hv, hbip39, hsnake, htwo, hnone, Json.asStr, optional_string hformat,
      optional_number hxmrHeight hxmr, optional_string hzphSeed, optional_number hzphHeight hzph]
  obtain ⟨q, hq, hq39⟩ := hfrom
  simp [bip39FromPayload, hparse, hv, Json.asU64, hq, hq39]

/-! ## Entries -/

section
variable {js : List Json} {ws : List WalletEntry}

theorem groupKeyOf_stored {j : Json} {w : WalletEntry} (h : EntryStored j w) : groupKeyOf j = some (groupKey w) := by
  have hgroup := h.group
  unfold groupKeyOf stringOf groupKey
  cases hg : w.groupId with
  | some g =>
    rw [hg] at hgroup
    rw [show j.get "groupId" = some (.str g) from hgroup]
    rfl
  | none =>
    rw [hg] at hgroup
    rcases hgroup with hnone | hnull
    · simp [hnone, h.id, Json.asStr]
    · simp [hnull, h.id, Json.asStr]

theorem isBip39_stored {j : Json} {w : WalletEntry} (h : EntryStored j w) : isBip39 j = (w.kind == .bip39) := by
  simp only [isBip39, stringOf, h.kind, Option.bind_some, Json.asStr]
  cases w.kind <;> decide

theorem find?_stored (h : List.Forall₂ EntryStored js ws) {p : Json → Bool} {q : WalletEntry → Bool}
    (hpq : ∀ j w, EntryStored j w → p j = q w) : Option.Rel EntryStored (js.find? p) (ws.find? q) := by
  induction h with
  | nil => exact .none
  | cons hjw _ ih =>
    rw [List.find?_cons, List.find?_cons, hpq _ _ hjw]
    split
    · exact .some hjw
    · exact ih

theorem orElse_stored {j j' : Option Json} {w w' : Option WalletEntry} (h : Option.Rel EntryStored j w)
    (h' : Option.Rel EntryStored j' w') : Option.Rel EntryStored (j <|> j') (w <|> w') := by
  cases h with
  | some hjw => exact .some hjw
  | none => exact h'

theorem bind_stored {α : Type} {j : Option Json} {w : Option WalletEntry} (h : Option.Rel EntryStored j w)
    {f : Json → Option α} {g : WalletEntry → α} (hfg : ∀ j w, EntryStored j w → f j = some (g w)) :
    j.bind f = w.map g := by
  cases h with
  | some hjw => exact hfg _ _ hjw
  | none => rfl

theorem head?_stored (h : List.Forall₂ EntryStored js ws) : Option.Rel EntryStored js.head? ws.head? := by
  cases h with
  | nil => exact .none
  | cons hjw _ => exact .some hjw

end

/-- The group that the keystore wants, in terms of the entries. -/
def wantedOf (v : VaultPayloadV3) : Option String :=
  ((v.lastActiveWalletId.filter (· ≠ "all")).bind fun id => (v.wallets.find? (·.id == id)).map groupKey) <|>
    primaryGroupId v

def chosenOf (v : VaultPayloadV3) : Option WalletEntry :=
  v.wallets.find? (fun w => w.kind == .bip39 && (wantedOf v == none || some (groupKey w) == wantedOf v)) <|>
    v.wallets.find? (·.kind == .bip39)

theorem stringOf_stored {j : Json} {key : String} {s : Option String} (h : StoredString (j.get key) s) :
    stringOf j key = s := by
  unfold stringOf
  cases s with
  | some s =>
    rw [show j.get key = some (.str s) from h]
    rfl
  | none => rcases h with h | h <;> rw [h] <;> rfl

theorem wantedGroup_stored {j : Json} {v : VaultPayloadV3} {js : List Json} (h : VaultStored j v)
    (hjs : List.Forall₂ EntryStored js v.wallets) : wantedGroup j js = wantedOf v := by
  have hprimary : (js.find? isBip39 <|> js.head?).bind groupKeyOf = primaryGroupId v :=
    bind_stored (orElse_stored (find?_stored hjs fun _ _ => isBip39_stored) (head?_stored hjs))
      fun _ _ => groupKeyOf_stored
  have hid : ∀ id, (js.find? fun w => stringOf w "id" == some id).bind groupKeyOf =
      (v.wallets.find? (·.id == id)).map groupKey := fun id =>
    bind_stored (find?_stored hjs fun j w hjw => by simp [stringOf, hjw.id, Json.asStr])
      fun _ _ => groupKeyOf_stored
  simp only [wantedGroup, wantedOf, stringOf_stored h.active, hprimary, hid]

theorem bip39FromPayload_entries {parse : String → Option Json} {plaintext : String} {j : Json}
    {v : VaultPayloadV3} (hparse : parse plaintext = some j) (h : VaultStored j v) :
    bip39FromPayload parse plaintext = .ok (((chosenOf v).map (·.seed)).getD "") := by
  obtain ⟨js, hwallets, hjs⟩ := h.wallets
  have hchosen : chosenSeed j js = ((chosenOf v).map (·.seed)).getD "" := by
    unfold chosenSeed chosenOf
    simp only [wantedGroup_stored h hjs, List.find?_filter]
    congr 1
    refine bind_stored (orElse_stored (find?_stored hjs fun j w hjw => ?_)
      (find?_stored hjs fun _ _ => isBip39_stored)) fun j w hjw => ?_
    · rw [isBip39_stored hjw, groupKeyOf_stored hjw]
      cases wantedOf v <;> simp [beq_eq_decide]
    · simp [stringOf, hjw.seed, Json.asStr]
  simp [bip39FromPayload, hparse, h.version, Json.asU64, hwallets, Json.asArray, hchosen]

/-! ## The same seed -/

/-- The last active wallet's id stands for one context: it is not empty where an entry has the empty id,
and the entries that have it are in one group. -/
structure Unambiguous (v : VaultPayloadV3) : Prop where
  nonempty : v.lastActiveWalletId = some "" → ∀ w ∈ v.wallets, w.id ≠ ""
  one : ∀ w ∈ v.wallets, ∀ w' ∈ v.wallets, v.lastActiveWalletId = some w.id → w'.id = w.id →
    groupKey w = groupKey w'

theorem wantedOf_eq {v : VaultPayloadV3} (h : Unambiguous v) :
    wantedOf v = groupIdForWallet v v.lastActiveWalletId := by
  unfold wantedOf
  rcases groupIdForWallet_cases v v.lastActiveWalletId with ⟨w, ⟨hw, ha, hall⟩, hg⟩ | ⟨hno, hg⟩
  · have ha := (truthy_eq_some.1 ha).1
    rw [hg, ha, Option.filter_some, if_pos (by simpa using hall), Option.bind_some]
    cases hf : v.wallets.find? (·.id == w.id) with
    | none => exact absurd (List.find?_eq_none.1 hf w hw) (by simp)
    | some w' =>
      have hid : w'.id = w.id := by simpa using List.find?_some hf
      rw [h.one w hw w' (List.mem_of_find?_eq_some hf) ha hid]
      rfl
  · rw [hg]
    cases ha : v.lastActiveWalletId with
    | none => rfl
    | some i =>
      by_cases hall : i = "all"
      · subst hall
        rfl
      rw [Option.filter_some, if_pos (by simpa using hall), Option.bind_some]
      cases hf : v.wallets.find? (·.id == i) with
      | none => rfl
      | some w =>
        have hw := List.mem_of_find?_eq_some hf
        have hid : w.id = i := by simpa using List.find?_some hf
        have hne : i ≠ "" := fun hnil => by
          rw [hnil] at ha hid
          exact h.nonempty ha w hw hid
        exact absurd ⟨hw, by rw [ha, truthy_of_ne hne, hid], hid ▸ hall⟩ (hno w)

/-- The entries of the last active wallet's context. -/
def InContext (v : VaultPayloadV3) (w : WalletEntry) : Prop :=
  w ∈ v.wallets ∧ groupIdForWallet v v.lastActiveWalletId = some (groupKey w)

/-- What the keystore takes out of a stored vault: of a flat one the phrase that the UI shows after the
migration; of one with entries the phrase that the UI shows if the context has one, and the vault's
first one if not. -/
theorem keystore_seed (parse : String → Option Json) {plaintext : String} {j : Json}
    (hparse : parse plaintext = some j) :
    (∀ (p : Vault.VaultPayload) (opts : SchemaOpts) (a : Option String), FlatStored j p →
      (∀ n, p.xmrRestoreHeight = some n → n < 2 ^ 64) → (∀ n, p.zphRestoreHeight = some n → n < 2 ^ 64) →
      bip39FromPayload parse plaintext = .ok (projectV3ToV2 (migrateV2ToV3 p opts) a).bip39) ∧
    ∀ v : VaultPayloadV3, VaultStored j v → Unambiguous v →
      ((∃ w, InContext v w ∧ w.kind = .bip39) →
        bip39FromPayload parse plaintext = .ok (projectV3ToV2 v v.lastActiveWalletId).bip39) ∧
      ((∀ w, InContext v w → w.kind ≠ .bip39) →
        bip39FromPayload parse plaintext =
          .ok (((v.wallets.find? (·.kind == .bip39)).map (·.seed)).getD "")) := by
  refine ⟨fun p opts a h hxmr hzph => ?_, fun v h hone => ?_⟩
  · rw [bip39FromPayload_flat hparse h hxmr hzph, project_migrate]
    rfl
  rw [bip39FromPayload_entries hparse h]
  have hwanted := wantedOf_eq hone
  cases hg : groupIdForWallet v v.lastActiveWalletId with
  | none =>
    have hnil := groupIdForWallet_eq_none.1 hg
    refine ⟨fun ⟨w, hw, _⟩ => ?_, fun _ => ?_⟩
    · rw [InContext, hnil] at hw
      exact absurd hw.1 List.not_mem_nil
    · simp [chosenOf, hnil]
  | some g =>
    rw [hg] at hwanted
    have hfirst : v.wallets.find? (fun w => w.kind == .bip39 &&
        (wantedOf v == none || some (groupKey w) == wantedOf v)) = firstOf v.wallets g .bip39 := by
      simp [hwanted, firstOf]
    constructor
    · rintro ⟨w, ⟨hw, hgw⟩, hk⟩
      obtain rfl : g = groupKey w := Option.some.inj (hg.symm.trans hgw)
      obtain ⟨w', hw'⟩ := firstOf_isSome hw
      rw [hk] at hw'
      rw [chosenOf, hfirst, hw', project_eq hg]
      simp [projectGroup, hw']
    · intro hno
      have hnone : firstOf v.wallets g .bip39 = none := by
        cases hf : firstOf v.wallets g .bip39 with
        | none => rfl
        | some w =>
          obtain ⟨hw, hk, hgw⟩ := mem_of_firstOf hf
          exact absurd hk (hno w ⟨hw, by rw [hg, hgw]⟩)
      rw [chosenOf, hfirst, hnone]
      rfl

/-! ## Samples -/

def entryJson (w : WalletEntry) : Json :=
  .obj ([("id", .str w.id), ("kind", .str (kindTag w.kind)), ("seed", .str w.seed)] ++
    match w.groupId with
    | some g => [("groupId", .str g)]
    | none => [])

def vaultJson (v : VaultPayloadV3) : Json :=
  .obj ([("v", .int 3), ("wallets", .arr (v.wallets.map entryJson))] ++
    match v.lastActiveWalletId with
    | some a => [("lastActiveWalletId", .str a)]
    | none => [])

theorem entryStored_json (w : WalletEntry) : EntryStored (entryJson w) w := by
  refine ⟨rfl, rfl, rfl, ?_⟩
  unfold entryJson
  cases w.groupId with
  | some g => rfl
  | none => exact .inl rfl

theorem vaultStored_json (v : VaultPayloadV3) : VaultStored (vaultJson v) v := by
  refine ⟨rfl, ⟨_, rfl, ?_⟩, ?_⟩
  · rw [List.forall₂_map_left_iff]
    exact List.forall₂_same.2 fun w _ => entryStored_json w
  · unfold vaultJson
    cases v.lastActiveWalletId with
    | some a => rfl
    | none => exact .inl rfl

def phraseIn (id group seed : String) : WalletEntry where
  id := id
  name := "Main"
  kind := .bip39
  seed := seed
  createdAt := 1
  groupId := some group

def moneroIn (id group : String) : WalletEntry where
  id := id
  name := "Cold"
  kind := .xmr
  seed := "abbey abducts"
  createdAt := 2
  groupId := some group

/-- A second context, with a phrase of its own, is the active one. -/
def secondActive : VaultPayloadV3 where
  wallets := [phraseIn "a" "g" "abandon ability", phraseIn "b" "h" "able about", moneroIn "c" "h"]
  lastActiveWalletId := some "c"

theorem keystore_seed_sample : bip39FromPayload (fun _ => some (vaultJson secondActive)) "{}" =
    .ok (projectV3ToV2 secondActive (some "c")).bip39 :=
  ((keystore_seed (fun _ => some (vaultJson secondActive)) rfl).2 secondActive (vaultStored_json _)
    ⟨by decide, by decide⟩).1 ⟨phraseIn "b" "h" "able about", ⟨by decide, by decide +kernel⟩, rfl⟩

/-- A Monero wallet on its own is the active one. -/
def moneroActive : VaultPayloadV3 where
  wallets := [phraseIn "a" "g" "abandon ability", moneroIn "c" "h"]
  lastActiveWalletId := some "c"

/-- Two entries have the id of the active wallet; the context of the later one is listed first. -/
def twiceActive : VaultPayloadV3 where
  wallets := [moneroIn "c" "h", phraseIn "a" "g" "abandon ability", moneroIn "c" "g", phraseIn "b" "h" "able about"]
  lastActiveWalletId := some "c"

/-- Where the active context has no phrase the UI has none and the keystore takes another context's; and
with a repeated id they can read different contexts. -/
theorem seeds_differ :
    ((projectV3ToV2 moneroActive (some "c")).bip39 = "" ∧
      bip39FromPayload (fun _ => some (vaultJson moneroActive)) "{}" = .ok "abandon ability") ∧
    (projectV3ToV2 twiceActive (some "c")).bip39 = "abandon ability" ∧
      bip39FromPayload (fun _ => some (vaultJson twiceActive)) "{}" = .ok "able about" := by
  refine ⟨⟨by decide +kernel, ?_⟩, by decide +kernel, ?_⟩ <;> rfl

end Keystore
