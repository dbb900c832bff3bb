import PwndaWallet.Lib.Books
import PwndaWallet.Vault.Concurrent
import PwndaWallet.Vault.Flat
import PwndaWallet.Vault.MergeSound
import PwndaWallet.Vault.RepairSound

/-!
# What the vault's operations leave out

An operation that writes over the vault that it read leaves out no entry but the one that it removes.
In an orderly run an entry that was saved is therefore there until it is removed.
-/

namespace Vault

open Tasks Tasks.Books Js

variable {loc : Intl}

/-! ## What an operation may ask -/

/-- A write leaves out nothing but what its operation removes, and a report has nothing else to own up
to. -/
def allowed (loc : Intl) (e : VaultEntry) (b : Book) : VaultOp → Prop
  | .set next => (b.blind = false ∨ b.ids = []) → e.1.fits loc b →
      ∀ x ∈ b.ids, x ∉ next.wallets.map (·.id) → e.1 = .remove x
  | .delete => ∀ x ∈ b.ids, e.1 = .remove x
  | .report .saved => b.dropped = []
  | .report (.removed id) => ∀ x ∈ b.dropped, x = id
  | _ => True

abbrev vaultBooks (loc : Intl) : Books VaultOp VaultOp.Ans VaultEntry where
  Book := Book
  blank := .blank
  allows := allowed loc
  expects := expected loc
  note := Book.note
  done _ b := b.dropped = []

variable {e : VaultEntry} {b : Book} {α β : Type}

/-! ## Reading and writing -/

theorem finds_get {call : VaultCall} {stored : Option Stored} (h : finds loc call b .get (some stored)) :
    b.known = none ∨ b.known = some stored := by
  simpa [finds] using h

theorem finds_set {call : VaultCall} {next : VaultPayloadV3} (h : finds loc call b (.set next) true) :
    (b.blind = false ∨ b.ids = []) ∧ call.fits loc b := by
  simpa [finds] using h

/-- The operation knows the vault `v`, and has nothing to report yet. -/
structure Loaded (v : VaultPayloadV3) (b : Book) : Prop where
  known : b.known = some (some (.v3 v))
  blind : b.blind = false
  dropped : b.dropped = []

theorem Loaded.ids {v : VaultPayloadV3} (h : Loaded v b) : b.ids = v.wallets.map (·.id) := by
  rw [Book.ids, h.known]
  rfl

/-- What a read leaves: the vault that it found, which is the one that was known if any was. -/
def AfterRead (opts : SchemaOpts) (b : Book) : Except VaultError (Option RawVault) → Book → Prop
  | .error _, b' => b'.dropped = [] ∧ b'.blind = true ∧ ∀ x, b.known = some x → b'.known = some x
  | .ok raw, b' => b'.dropped = [] ∧ b'.blind = false ∧ ∃ stored, b'.known = some stored ∧
      raw = stored.map (.ofStored opts) ∧ ∀ x, b.known = some x → stored = x

theorem keeps_readVaultRaw {opts : SchemaOpts} (hd : b.dropped = []) :
    (vaultBooks loc).Keeps e (readVaultRaw opts) (AfterRead opts b) b := by
  refine keeps_await trivial (fun r x _ hr => ?_) (fun r _ _ hr => ?_)
  · cases r with
    | false => exact ⟨hd, rfl, fun _ h => h⟩
    | true => cases hr
  cases r with
  | false => cases hr
  | true =>
    refine keeps_await trivial (fun r x _ hr => ?_) (fun r stored hexp hr => ?_)
    · cases r with
      | none => exact ⟨hd, rfl, fun _ h => h⟩
      | some _ => cases hr
    cases r with
    | none => cases hr
    | some found =>
      obtain rfl : found = stored := Except.ok.inj hr
      have hknown : b.known = none ∨ b.known = some found := finds_get hexp.2
      have hsame : ∀ x, b.known = some x → found = x := fun x hx => by
        rcases hknown with h | h
        · rw [h] at hx
          cases hx
        · exact Option.some.inj (h.symm.trans hx)
      have hnote : (b.note .getStore true).note .get (some found) =
          { b with known := some found, blind := false } := by
        rcases hknown with h | h <;> simp [Book.note, h]
      simp only [hnote]
      cases found with
      | none => exact safe_ret.2 ⟨hd, rfl, none, rfl, rfl, hsame⟩
      | some encrypted =>
        refine keeps_await trivial (fun r x _ hr => ?_) (fun r _ _ hr => ?_)
        · cases r with
          | false => exact ⟨hd, rfl, fun x hx => congrArg some (hsame x hx)⟩
          | true => cases hr
        cases r with
        | false => cases hr
        | true => exact safe_ret.2 ⟨hd, rfl, some encrypted, rfl, rfl, hsame⟩

/-- An await whose answer the book does not note, but for a rejection. -/
theorem keeps_quiet {o : VaultOp} {judge : o.Ans → Except VaultError α} {k : α → VaultProg β}
    {Q : Except VaultError β → Book → Prop} (ha : allowed loc e b o) (hd : b.dropped = [])
    (hnote : ∀ r, (b.note o r).dropped = b.dropped) (hsame : ∀ r a, judge r = .ok a → b.note o r = b)
    (he : ∀ x b', b'.dropped = [] → Q (.error x) b') (hk : ∀ a, (vaultBooks loc).Keeps e (k a) Q b) :
    (vaultBooks loc).Keeps e ((Prog.request o judge).bind k) Q b := by
  refine keeps_await ha (fun r x _ _ => he x _ ((hnote r).trans hd)) (fun r a _ hr => ?_)
  have hb : (vaultBooks loc).note b o r = b := hsame r a hr
  rw [hb]
  exact hk a

theorem fulfilled_ok {r : Bool} {u : Unit} (h : fulfilled r = .ok u) : r = true := by
  cases r with
  | true => rfl
  | false => cases h

theorem keeps_backup {raw : RawVault} (hd : b.dropped = []) :
    (vaultBooks loc).Keeps e (backupPreV3Once raw) (OnEnd (fun b' => b'.dropped = []) fun _ b' => b' = b) b := by
  unfold backupPreV3Once
  split
  · exact safe_ret.2 rfl
  refine keeps_quiet trivial hd (fun r => by cases r <;> rfl) (fun r _ hr => by rw [fulfilled_ok hr]; rfl)
    (fun _ _ h => h) fun _ => ?_
  refine keeps_quiet trivial hd (fun r => rfl) (fun r _ _ => rfl) (fun _ _ h => h) fun has => ?_
  cases has with
  | true => exact safe_ret.2 rfl
  | false =>
    refine keeps_request trivial fun r _ => ?_
    cases r with
    | true => rfl
    | false => exact hd

/-- What a write leaves: the new vault is known, and what it left out is the entry that is removed. -/
def AfterWrite (e : VaultEntry) (b : Book) (next : VaultPayloadV3) : Unit → Book → Prop := fun _ b' =>
  b'.known = some (some (.v3 next)) ∧ b'.blind = false ∧ ∀ x ∈ b'.dropped, x ∈ b.ids ∧ e.1 = .remove x

theorem keeps_saveVaultV3 {next : VaultPayloadV3} (hd : b.dropped = []) (ha : allowed loc e b (.set next)) :
    (vaultBooks loc).Keeps e (saveVaultV3 next) (OnEnd (fun b' => b'.dropped = []) (AfterWrite e b next)) b := by
  refine keeps_quiet trivial hd (fun r => by cases r <;> rfl) (fun r _ hr => by rw [fulfilled_ok hr]; rfl)
    (fun _ _ h => h) fun _ => ?_
  refine keeps_quiet trivial hd (fun r => by cases r <;> rfl) (fun r _ hr => by rw [fulfilled_ok hr]; rfl)
    (fun _ _ h => h) fun _ => ?_
  refine keeps_await ha (fun r x _ hr => ?_) (fun r _ hexp hr => ?_)
  · cases r with
    | false => exact hd
    | true => cases hr
  obtain rfl := fulfilled_ok hr
  obtain ⟨hsee, hfits⟩ := finds_set hexp.2
  have hgone : ∀ x ∈ (b.note (.set next) true).dropped, x ∈ b.ids ∧ e.1 = .remove x := by
    intro x hx
    simp only [Book.note, hd, List.nil_append, List.mem_filter, decide_eq_true_eq] at hx
    exact ⟨hx.1, ha hsee hfits x hx.1 hx.2⟩
  refine keeps_request trivial fun r hexp => ?_
  cases r with
  | true => exact ⟨rfl, rfl, hgone⟩
  | false => exact hexp.1 rfl

theorem keeps_persistMigration {raw : RawVault} (hd : b.dropped = []) (hids : b.ids = []) :
    (vaultBooks loc).Keeps e (persistMigration raw) (OnEnd (fun b' => b'.dropped = []) fun _ => Loaded raw.v3) b := by
  have hnone : ∀ x, x ∉ b.ids := fun x hx => by
    rw [hids] at hx
    cases hx
  refine Safe.bind_end (P := fun _ b' => b' = b) (keeps_backup hd) fun _ b' hb' => ?_
  subst hb'
  refine (keeps_saveVaultV3 hd fun _ _ x hx => absurd hx (hnone x)).mono fun r b'' hr => ?_
  cases r with
  | error x => exact hr
  | ok u =>
    obtain ⟨hknown, hblind, hgone⟩ := hr
    exact ⟨hknown, hblind, List.eq_nil_iff_forall_not_mem.2 fun x hx => hnone x (hgone x hx).1⟩

theorem keeps_loadVaultV3 {opts : SchemaOpts} (hd : b.dropped = []) :
    (vaultBooks loc).Keeps e (loadVaultV3 opts) (OnEnd (fun b' => b'.dropped = []) Loaded) b := by
  refine Safe.bind ((keeps_readVaultRaw hd).mono fun r b' hr => ?_)
  cases r with
  | error x => exact hr.1
  | ok raw =>
    obtain ⟨hd', hblind, stored, hknown, rfl, -⟩ := hr
    cases stored with
    | none => exact safe_fail.2 hd'
    | some encrypted =>
      cases encrypted with
      | v3 v => exact safe_ret.2 ⟨hknown, hblind, hd'⟩
      | phrase _ | flat _ =>
        have hids : b'.ids = [] := by rw [Book.ids, hknown]; rfl
        exact Safe.bind_end (keeps_persistMigration hd' hids) fun _ _ h => safe_ret.2 h

/-! ## The operations -/

/-- An operation ends, well or not, with no entry left out that it has not reported. -/
abbrev Ended : Except VaultError Unit → Book → Prop := OnEnd (fun b => b.dropped = []) fun _ b => b.dropped = []

theorem AfterWrite.clean {next : VaultPayloadV3} {b' : Book} (h : AfterWrite e b next () b')
    (he : ∀ id, e.1 ≠ .remove id) : b'.dropped = [] :=
  List.eq_nil_iff_forall_not_mem.2 fun x hx => he x (h.2.2 x hx).2

/-- The vault is loaded, and then used. -/
theorem keeps_load {opts : SchemaOpts} {k : VaultPayloadV3 → VaultProg Unit} (hd : b.dropped = [])
    (hk : ∀ v b', Loaded v b' → (vaultBooks loc).Keeps e (k v) Ended b') :
    (vaultBooks loc).Keeps e ((loadVaultV3 opts).bind k) Ended b := Safe.bind_end (keeps_loadVaultV3 hd) hk

theorem keeps_reported {k : Unit → VaultProg Unit} (hd : b.dropped = [])
    (hk : ∀ b', b'.dropped = [] → (vaultBooks loc).Keeps e (k ()) Ended b') :
    (vaultBooks loc).Keeps e ((Prog.ask (VaultOp.report .saved)).bind k) Ended b :=
  keeps_ask hd fun _ _ => hk _ rfl

theorem keeps_report (hd : b.dropped = []) :
    (vaultBooks loc).Keeps e (.ask (VaultOp.report .saved) : VaultProg Unit) Ended b :=
  keeps_call.2 ⟨hd, fun _ _ => safe_ret.2 rfl⟩

/-- A save that leaves out no entry of the vault it was loaded from. -/
theorem keeps_saved {v next : VaultPayloadV3} {k : Unit → VaultProg Unit} (h : Loaded v b)
    (he : ∀ id, e.1 ≠ .remove id) (hids : ∀ x ∈ v.wallets.map (·.id), x ∈ next.wallets.map (·.id))
    (hk : ∀ b', b'.dropped = [] → (vaultBooks loc).Keeps e (k ()) Ended b') :
    (vaultBooks loc).Keeps e ((saveVaultV3 next).bind k) Ended b := by
  have hkept : allowed loc e b (.set next) := fun _ _ x hx hno => by
    rw [h.ids] at hx
    exact absurd (hids x hx) hno
  exact Safe.bind_end (keeps_saveVaultV3 h.dropped hkept) fun _ b' hb' => hk b' (hb'.clean he)

theorem ids_addWalletEntry (v : VaultPayloadV3) (spec : NewWalletSpec) (opts : SchemaOpts) :
    ∀ x ∈ v.wallets.map (·.id), x ∈ (addWalletEntry v spec opts).1.wallets.map (·.id) := fun x hx => by
  rw [addWalletEntry, List.map_append]
  exact List.mem_append_left _ hx

theorem ids_addXelis {v next : VaultPayloadV3} {seed : String} {opts : SchemaOpts} {a : Option String}
    {entry : WalletEntry} {created : Bool} (h : addXelisWalletToContext loc v seed opts a = .ok (next, entry, created)) :
    ∀ x ∈ v.wallets.map (·.id), x ∈ next.wallets.map (·.id) := by
  simp only [addXelisWalletToContext] at h
  split at h
  · split at h
    · cases h
      exact fun _ hx => hx
    · cases h
  · split at h
    · cases h
    · cases h
      exact ids_addWalletEntry _ _ _

theorem ids_rename (v : VaultPayloadV3) (id name : String) :
    (renameWalletEntry v id name).wallets.map (·.id) = v.wallets.map (·.id) := by
  rw [renameWalletEntry, List.map_map]
  refine List.map_congr_left fun w _ => ?_
  simp only [Function.comp_apply]
  split <;> rfl

theorem ids_repair (loc : Intl) (v : VaultPayloadV3) :
    (repairSharedSidecarFiles loc v).1.wallets.map (·.id) = v.wallets.map (·.id) := by
  rw [repair_wallets, List.map_map]
  exact List.map_congr_left fun w _ => (repaired_same loc v w).1

theorem ids_remove {v : VaultPayloadV3} {id x : String} (hx : x ∈ v.wallets.map (·.id))
    (hno : x ∉ (removeWalletEntry v id).v3.wallets.map (·.id)) : x = id := by
  obtain ⟨w, hw, rfl⟩ := List.mem_map.1 hx
  by_contra hne
  exact hno (List.mem_map_of_mem (List.mem_filter.2 ⟨hw, by simpa using hne⟩))

theorem ids_merge {v : VaultPayloadV3} {p : VaultPayload} {a : Option String} (opts : SchemaOpts)
    (h : describes p v a) :
    ∀ x ∈ v.wallets.map (·.id), x ∈ (mergeFlatIntoV3 p (some v) opts a).wallets.map (·.id) := by
  intro x hx
  obtain ⟨w, hw, rfl⟩ := List.mem_map.1 hx
  by_cases hg : groupKey w = targetGid v opts a
  · have hgid : groupIdForWallet v a = some (groupKey w) := by rw [hg, targetGid_of_mem hw]
    have hw' := List.all_eq_true.1 h w hw
    simp only [hgid, bne_self_eq_false, Bool.false_or, Bool.or_eq_true, Bool.and_eq_true, beq_iff_eq] at hw'
    rcases hw' with hxelis | ⟨hdescribes, hfirst⟩
    · exact List.mem_map_of_mem (mem_merge.2 (.inr ⟨hw, fun _ => hxelis⟩))
    · rw [← @slot_isSome p v opts a] at hdescribes
      obtain ⟨entry, hentry⟩ := Option.isSome_iff_exists.1 hdescribes
      rw [hg] at hfirst
      rw [← slot_id_of_some hentry hfirst]
      exact List.mem_map_of_mem (mem_merge.2 (.inl ⟨_, hentry⟩))
  · exact List.mem_map_of_mem (mem_merge.2 (.inr ⟨hw, fun h => absurd h hg⟩))

theorem keeps_restoreHeightFor {r : AddRequest} (hd : b.dropped = []) :
    (vaultBooks loc).Keeps e (restoreHeightFor r) (OnEnd (fun b' => b'.dropped = []) fun _ b' => b' = b) b := by
  refine Safe.ite (fun _ => safe_ret.2 rfl) fun _ => ?_
  refine Safe.bind_end (P := fun _ b' => b' = b) ?_ fun tip b' hb' => ?_
  · exact Safe.ite (fun _ => keeps_call.2 ⟨trivial, fun _ _ => safe_ret.2 rfl⟩) fun _ => safe_ret.2 rfl
  subst hb'
  refine Safe.ite (fun _ => ?_) fun _ => safe_ret.2 rfl
  exact keeps_quiet trivial hd (fun _ => rfl) (fun _ _ _ => rfl) (fun _ _ h => h) fun _ => safe_ret.2 rfl

theorem keeps_addWallet {mint : Nat → SchemaOpts} {r : AddRequest} (he : ∀ id, e.1 ≠ .remove id)
    (hd : b.dropped = []) : (vaultBooks loc).Keeps e (addWallet loc mint r) Ended b := by
  refine keeps_load hd fun v b' hb' => ?_
  refine Safe.ite (fun _ => ?_) fun _ => ?_
  · refine Safe.orFail_bind (fun _ => hb'.dropped) fun address _ => ?_
    refine Safe.ensure_bind (fun _ => hb'.dropped) fun _ => ?_
    exact keeps_saved hb' he (ids_addWalletEntry _ _ _) fun _ hd' => keeps_report hd'
  · refine Safe.ensure_bind (fun _ => hb'.dropped) fun _ => ?_
    refine Safe.bind_end (keeps_restoreHeightFor hb'.dropped) fun height b'' hb'' => ?_
    subst hb''
    exact keeps_saved hb' he (ids_addWalletEntry _ _ _) fun _ hd' => keeps_report hd'

theorem keeps_saveXelis {mint : Nat → SchemaOpts} {seed : String} {a : Option String}
    (he : ∀ id, e.1 ≠ .remove id) (hd : b.dropped = []) :
    (vaultBooks loc).Keeps e (saveXelisSeedToVault loc mint seed a) Ended b := by
  refine keeps_load hd fun v b' hb' => ?_
  split
  · exact safe_fail.2 hb'.dropped
  · rename_i next entry created hadd
    cases created with
    | true => exact keeps_saved hb' he (ids_addXelis hadd) fun _ hd' => keeps_report hd'
    | false => exact keeps_report hb'.dropped

theorem keeps_rename {mint : Nat → SchemaOpts} {id name : String} (he : ∀ id, e.1 ≠ .remove id)
    (hd : b.dropped = []) : (vaultBooks loc).Keeps e (renameWallet mint id name) Ended b := by
  refine keeps_load hd fun v b' hb' => ?_
  refine keeps_saved hb' he (fun x hx => ?_) fun _ hd' => keeps_report hd'
  rwa [ids_rename]

theorem keeps_switch {mint : Nat → SchemaOpts} {walletId : String} (he : ∀ id, e.1 ≠ .remove id)
    (hd : b.dropped = []) : (vaultBooks loc).Keeps e (switchWalletTo loc mint walletId) Ended b := by
  refine keeps_load hd fun v b' hb' => ?_
  refine Safe.ite (fun _ => ?_) fun _ => safe_ret.2 hb'.dropped
  refine keeps_saved hb' he (fun x hx => ?_) fun _ hd' => keeps_report hd'
  rwa [← ids_repair loc v] at hx

/-- A flat save merges what it loaded into the vault it reads again, or into nothing if that read fails. -/
theorem keeps_saveVault {v : VaultPayloadV3} {edit : FlatEdit} {p : VaultPayload} {a : Option String}
    {opts mergeOpts : SchemaOpts} (h : Loaded v b) (he : e.1 = .saveFlat edit a)
    (hp : edit.apply loc (projectV3ToV2 v a) = some p) :
    (vaultBooks loc).Keeps e (saveVault p a opts mergeOpts) Ended b := by
  have hnot : ∀ id, e.1 ≠ .remove id := fun id hid => by
    rw [he] at hid
    cases hid
  have hwrite : ∀ {b' : Book} {next}, b'.dropped = [] → allowed loc e b' (.set next) →
      (vaultBooks loc).Keeps e (saveVaultV3 next) Ended b' := fun hd' ha =>
    (keeps_saveVaultV3 hd' ha).mono fun r b'' hr => by
      cases r with
      | error x => exact hr
      | ok u => exact hr.clean hnot
  refine Safe.bind (Safe.handle ((keeps_readVaultRaw h.dropped).mono fun r b' hr => ?_))
  cases r with
  | error x =>
    -- nothing is known to be there, so the write has to find an empty vault
    obtain ⟨hd', hblind, -⟩ := hr
    refine safe_ret.2 (hwrite hd' fun hsee _ x hx => ?_)
    have hids := hsee.resolve_left (by rw [hblind]; decide)
    rw [hids] at hx
    cases hx
  | ok raw =>
    obtain ⟨hd', -, stored, hknown, rfl, hsame⟩ := hr
    obtain rfl := hsame _ h.known
    refine safe_ret.2 (Safe.bind_end (P := fun _ b'' => b'' = b') (keeps_backup hd') fun _ b'' hb'' => ?_)
    subst hb''
    refine hwrite hd' fun _ hfits x hx hno => absurd (ids_merge mergeOpts ?_ x ?_) hno
    · simp only [VaultCall.fits, he, hknown, hp, Option.all_some] at hfits
      exact hfits
    · rw [Book.ids, hknown] at hx
      exact hx

theorem keeps_saveFlatEdit {mint : Nat → SchemaOpts} {edit : FlatEdit} {a : Option String}
    (he : e.1 = .saveFlat edit a) (hd : b.dropped = []) :
    (vaultBooks loc).Keeps e (saveFlatEdit loc mint edit a) Ended b := by
  refine Safe.bind_end (P := fun p b' => ∃ v, Loaded v b' ∧ p = projectV3ToV2 v a)
    (Safe.bind_end (keeps_loadVaultV3 hd) fun v b' hb' => safe_ret.2 ⟨v, hb', rfl⟩) ?_
  rintro _ b' ⟨v, hb', rfl⟩
  refine Safe.orFail_bind (fun _ => hb'.dropped) fun p hp => ?_
  refine Safe.bind_end (keeps_saveVault hb' he hp) fun _ b'' hb'' => ?_
  refine keeps_reported hb'' fun b₃ hb₃ => ?_
  refine Safe.ite (fun _ => ?_) fun _ => safe_ret.2 hb₃
  exact keeps_load hb₃ fun _ _ h => safe_ret.2 h.dropped

theorem keeps_ensureHostFree {v : VaultPayloadV3} {id : String} (hd : b.dropped = []) :
    (vaultBooks loc).Keeps e (ensureHostFree v id) (OnEnd (fun b' => b'.dropped = []) fun _ b' => b' = b) b := by
  simp only [ensureHostFree]
  split
  · refine keeps_ask trivial fun r _ => ?_
    exact Safe.ensure (fun _ => rfl) fun _ => hd
  · exact safe_ret.2 rfl

/-- With its last entry the whole vault is deleted. -/
theorem keeps_deleteWallet {v : VaultPayloadV3} {id : String} (h : Loaded v b) (he : e.1 = .remove id)
    (hlast : (removeWalletEntry v id).wasLast = true) : (vaultBooks loc).Keeps e deleteWallet
      (OnEnd (fun b' => b'.dropped = []) fun _ b' => ∀ x ∈ b'.dropped, x = id) b := by
  have hall : ∀ x ∈ b.ids, x = id := by
    intro x hx
    rw [h.ids] at hx
    refine ids_remove hx ?_
    have hnil : (removeWalletEntry v id).v3.wallets = [] := by
      simpa [removeWalletEntry] using (Bool.and_eq_true_iff.1 hlast).2
    simp [hnil]
  refine keeps_quiet trivial h.dropped (fun r => by cases r <;> rfl) (fun r _ hr => by rw [fulfilled_ok hr]; rfl)
    (fun _ _ h => h) fun _ => ?_
  refine keeps_await (fun x hx => by rw [he, hall x hx]) (fun r _ _ hr => ?_) (fun r _ _ hr => ?_)
  · cases r with
    | false => exact h.dropped
    | true => cases hr
  obtain rfl := fulfilled_ok hr
  have hgone : ∀ x ∈ (b.note .delete true).dropped, x = id := by
    intro x hx
    simp only [Book.note, h.dropped, List.nil_append] at hx
    exact hall x hx
  refine keeps_await trivial (fun r _ hexp hr => ?_) (fun r _ _ hr => ?_)
  · cases r with
    | false => exact hexp.1 rfl
    | true => cases hr
  refine keeps_request trivial fun r hexp => ?_
  cases r with
  | true => exact hgone
  | false => exact hexp.1 rfl

theorem keeps_writeRemoval {v : VaultPayloadV3} {id : String} (h : Loaded v b) (he : e.1 = .remove id) :
    (vaultBooks loc).Keeps e (writeRemoval (removeWalletEntry v id))
      (OnEnd (fun b' => b'.dropped = []) fun _ b' => ∀ x ∈ b'.dropped, x = id) b := by
  refine Safe.ite (keeps_deleteWallet h he) fun _ => ?_
  refine (keeps_saveVaultV3 h.dropped fun _ _ x hx hno => ?_).mono fun r b' hr => ?_
  · rw [h.ids] at hx
    rw [he, ids_remove hx hno]
  · cases r with
    | error x => exact hr
    | ok u =>
      intro x hx
      have hrem := (hr.2.2 x hx).2
      rw [he] at hrem
      exact (VaultCall.remove.inj hrem).symm

theorem keeps_removeFrom {v : VaultPayloadV3} {id : String} (h : Loaded v b) (he : e.1 = .remove id) :
    (vaultBooks loc).Keeps e (removeFrom v id) Ended b := by
  refine Safe.ite (fun _ => safe_ret.2 h.dropped) fun _ => ?_
  refine Safe.bind_end (keeps_writeRemoval h he) fun _ b' hb' => ?_
  exact keeps_call.2 ⟨hb', fun _ _ => safe_ret.2 rfl⟩

theorem keeps_remove {mint : Nat → SchemaOpts} {id : String} (he : e.1 = .remove id) (hd : b.dropped = []) :
    (vaultBooks loc).Keeps e (removeWallet mint id) Ended b := by
  refine keeps_load hd fun v b' hb' => ?_
  refine Safe.ensure_bind (fun _ => hb'.dropped) fun _ => ?_
  refine Safe.bind_end (keeps_ensureHostFree hb'.dropped) fun _ b'' hb'' => ?_
  subst hb''
  exact keeps_removeFrom hb' he

/-- Every operation. -/
theorem keeps_body (e : VaultEntry) : (vaultBooks loc).Keeps e (e.1.body loc e.2) Ended .blank := by
  obtain ⟨call, mint⟩ := e
  cases call with
  | saveFlat edit a => exact keeps_saveFlatEdit rfl rfl
  | addWallet r => exact keeps_addWallet nofun rfl
  | saveXelis seed a => exact keeps_saveXelis nofun rfl
  | rename id name => exact keeps_rename nofun rfl
  | remove id => exact keeps_remove rfl rfl
  | switch walletId => exact keeps_switch nofun rfl

/-! ## Orderly runs -/

theorem follows (loc : Intl) : (vaultBooks loc).Follows (vaultSys loc) VaultWorld.books (Orderly loc) where
  kept := ⟨fun i o out w => Function.update_self .., fun i o out w j hj => Function.update_of_ne hj ..⟩
  body e := Safe.handle ((keeps_body e).mono fun r b hr => by
    cases r with
    | error x => exact safe_ret.2 hr
    | ok u => exact safe_ret.2 hr)
  answers c i out e o k hi hok := by
    simp only [Orderly, hi, orderlyAnswer] at hok
    exact hok.1
  spawns _ := rfl
  crash _ h := h

/-- What an answer does to the store and the reports of `w`, and to the book `b` of its operation. -/
inductive Answered (w w' : VaultWorld) (b b' : Book) (o : VaultOp) (r : o.Ans) : Prop
  | quiet : w'.stored = w.stored → w'.reported = w.reported → w'.removed = w.removed → b'.dropped = b.dropped →
      (∀ id ∈ b'.ids, id ∈ b.ids ∨ id ∈ idsOf w.stored) → Answered w w' b b' o r
  | write : isWrite o r → w'.reported = w.reported → w'.removed = w.removed → b'.ids = idsOf w'.stored →
      (∀ id, id ∈ b'.dropped ↔ id ∈ b.dropped ∨ (id ∈ b.ids ∧ id ∉ idsOf w'.stored)) → Answered w w' b b' o r
  | saved : o = .report .saved → w'.stored = w.stored → w'.reported = w.reported ++ b.ids →
      w'.removed = w.removed → b'.dropped = [] → b'.ids = [] → Answered w w' b b' o r
  | removed (id : String) : o = .report (.removed id) → w'.stored = w.stored → w'.reported = w.reported →
      w'.removed = w.removed ++ [id] → b'.dropped = [] → b'.ids = [] → Answered w w' b b' o r

theorem answered (w : VaultWorld) (i : Nat) (o : VaultOp) (out : Outcome) :
    Answered w (w.effect i o (w.answer o out)) (w.books i) ((w.books i).note o (w.answer o out)) o
      (w.answer o out) := by
  have hsame : ∀ {o : VaultOp} {r : o.Ans} {b' : Book}, b'.dropped = (w.books i).dropped →
      b'.known = (w.books i).known → Answered w w (w.books i) b' o r := fun hd hk =>
    .quiet rfl rfl rfl hd fun id hid => .inl (by rwa [Book.ids, hk] at hid)
  cases o with
  | get =>
    by_cases hout : out = .rejected
    · simp only [VaultWorld.answer, if_pos hout]
      exact hsame rfl rfl
    · simp only [VaultWorld.answer, if_neg hout]
      refine .quiet rfl rfl rfl rfl fun id hid => ?_
      cases hk : (w.books i).known with
      | none =>
        simp only [Book.ids, Book.note, hk] at hid
        exact .inr hid
      | some x =>
        simp only [Book.ids, Book.note, hk] at hid ⊢
        exact .inl hid
  | set next =>
    by_cases hout : out = .rejected
    · simp only [VaultWorld.answer, hout]
      exact hsame rfl rfl
    · have hr : w.answer (.set next) out = true := by simp [VaultWorld.answer, hout]
      rw [hr]
      refine .write rfl rfl rfl rfl fun id => ?_
      simp [Book.note, VaultWorld.effect]
  | delete =>
    by_cases hout : out = .rejected
    · simp only [VaultWorld.answer, hout]
      exact hsame rfl rfl
    · have hr : w.answer .delete out = true := by simp [VaultWorld.answer, hout]
      rw [hr]
      refine .write rfl rfl rfl rfl fun id => ?_
      simp [Book.note, VaultWorld.effect, idsOf]
  | setBackup encrypted =>
    generalize w.answer (.setBackup encrypted) out = r
    cases r <;> exact .quiet rfl rfl rfl rfl fun id hid => .inl hid
  | deleteBackup =>
    generalize w.answer .deleteBackup out = r
    cases r <;> exact .quiet rfl rfl rfl rfl fun id hid => .inl hid
  | report r =>
    cases r with
    | saved => exact .saved rfl rfl rfl rfl rfl rfl
    | removed id => exact .removed id rfl rfl rfl rfl rfl rfl
  | getStore =>
    generalize w.answer .getStore out = r
    cases r <;> exact hsame rfl rfl
  | decrypt =>
    generalize w.answer .decrypt out = r
    cases r <;> exact hsame rfl rfl
  | hasBackup | encrypt | save | tip _ | polyseedRestoreHeight _ | hostWalletInUse _ => exact hsame rfl rfl

/-- The entry is in the store, or was removed, or its removal is under way. -/
def Accounted (w : VaultWorld) (id : String) : Prop :=
  id ∈ idsOf w.stored ∨ id ∈ w.removed ∨ ∃ i, id ∈ (w.books i).dropped

/-- What an orderly run keeps: whatever was reported as saved, or is known to an operation, is accounted
for, and only a removal drops an entry. -/
structure Accounts (c : VaultCfg) : Prop where
  reported : ∀ id ∈ c.world.reported, Accounted c.world id
  known : ∀ i, ∀ id ∈ (c.world.books i).ids, Accounted c.world id
  dropped : ∀ i t, c.tasks[i]? = some t → ∀ id ∈ (c.world.books i).dropped, t.entry.1 = .remove id

/-- What an expected write leaves out is what its operation removes. -/
theorem only_removal {w : VaultWorld} {i : Nat} {o : VaultOp} {r : o.Ans} (hw : isWrite o r)
    (ha : allowed loc e b o) (hexp : expected loc e b o r) :
    ∀ id ∈ b.ids, id ∉ idsOf (w.effect i o r).stored → e.1 = .remove id := by
  intro id hid hno
  cases o with
  | set next =>
    cases r with
    | true => exact ha (finds_set hexp.2).1 (finds_set hexp.2).2 id hid hno
    | false => cases hw
  | delete => exact ha id hid
  | _ => cases hw

/-- The entries stay accounted for if the store, the removals and the books are. -/
theorem Accounted.mono {w w' : VaultWorld} {id : String} (h : Accounted w id)
    (hs : id ∈ idsOf w.stored → Accounted w' id) (hr : ∀ x ∈ w.removed, x ∈ w'.removed)
    (hd : ∀ i, id ∈ (w.books i).dropped → Accounted w' id) : Accounted w' id := by
  rcases h with h | h | ⟨i, h⟩
  · exact hs h
  · exact .inr (.inl (hr _ h))
  · exact hd i h

theorem accounts_answer {c : VaultCfg} {i : Nat} {out : Outcome} {e : VaultEntry} {o : VaultOp}
    {k : o.Ans → Prog VaultOp VaultOp.Ans Unit Unit} (h : Accounts c)
    (hi : c.tasks[i]? = some ⟨e, .call o k, true⟩) (hok : Orderly loc c (.answer i out))
    (ha : allowed loc e (c.world.books i) o) (t' : Task VaultOp VaultOp.Ans VaultEntry) (ht' : t'.entry = e) :
    Accounts ⟨((vaultSys loc).respond i o out c.world).2, c.tasks.set i t'⟩ := by
  simp only [Orderly, hi, orderlyAnswer] at hok
  obtain ⟨hexp, hwrite⟩ := hok
  have hans := answered c.world i o out
  generalize hw₁ : c.world.effect i o (c.world.answer o out) = w₁ at hans
  generalize hb' : (c.world.books i).note o (c.world.answer o out) = b' at hans
  have hrespond : ((vaultSys loc).respond i o out c.world).2 =
      { w₁ with books := Function.update c.world.books i b' } := by rw [← hw₁, ← hb']; rfl
  rw [hrespond]
  have hself : Function.update c.world.books i b' i = b' := Function.update_self ..
  have hother : ∀ j, j ≠ i → Function.update c.world.books i b' j = c.world.books j := fun j hj =>
    Function.update_of_ne hj ..
  -- what is to be shown once it is known what stays accounted for
  have hfinish : (∀ id, Accounted c.world id → Accounted { w₁ with books := Function.update c.world.books i b' } id) →
      (∀ id ∈ w₁.reported, id ∈ c.world.reported ∨ id ∈ (c.world.books i).ids) →
      (∀ id ∈ b'.ids, id ∈ (c.world.books i).ids ∨ id ∈ idsOf c.world.stored ∨ id ∈ idsOf w₁.stored) →
      (∀ id ∈ b'.dropped, id ∈ (c.world.books i).dropped ∨ e.1 = .remove id) →
      Accounts ⟨{ w₁ with books := Function.update c.world.books i b' }, c.tasks.set i t'⟩ := by
    intro hacc hrep hids hdrop
    refine ⟨fun id hid => ?_, fun j id hid => ?_, fun j t hj id hid => ?_⟩
    · rcases hrep id hid with hid | hid
      · exact hacc id (h.reported id hid)
      · exact hacc id (h.known i id hid)
    · by_cases hji : j = i
      · subst hji
        simp only [hself] at hid
        rcases hids id hid with hid | hid | hid
        · exact hacc id (h.known j id hid)
        · exact hacc id (.inl hid)
        · exact .inl hid
      · simp only [hother j hji] at hid
        exact hacc id (h.known j id hid)
    · by_cases hji : j = i
      · subst hji
        obtain rfl := Method.set_self hj
        simp only [hself] at hid
        rcases hdrop id hid with hid | hid
        · rw [ht']
          exact h.dropped j _ hi id hid
        · rw [ht', hid]
      · rw [List.getElem?_set_ne (Ne.symm hji)] at hj
        simp only [hother j hji] at hid
        exact h.dropped j t hj id hid
  have hdropped : ∀ {id j}, (j = i → id ∈ b'.dropped) → id ∈ (c.world.books j).dropped →
      Accounted { w₁ with books := Function.update c.world.books i b' } id := by
    intro id j hown hid
    refine .inr (.inr ⟨j, ?_⟩)
    by_cases hji : j = i
    · subst hji
      simpa only [hself] using hown rfl
    · simpa only [hother j hji] using hid
  cases hans with
  | quiet hs hrep hrem hd hids =>
    refine hfinish (fun id hid => hid.mono (fun h => .inl (hs ▸ h)) (fun x hx => hrem ▸ hx) fun j hj => ?_)
      (fun id hid => .inl (hrep ▸ hid)) (fun id hid => (hids id hid).imp_right .inl) fun id hid => .inl (hd ▸ hid)
    exact hdropped (fun hji => by rw [hd, ← hji]; exact hj) hj
  | write hwr hrep hrem hids hd =>
    have hknown : (c.world.books i).ids = idsOf c.world.stored := by
      rw [Book.ids, hwrite hwr]
      rfl
    refine hfinish (fun id hid => hid.mono (fun h => ?_) (fun x hx => hrem ▸ hx) fun j hj => ?_)
      (fun id hid => .inl (hrep ▸ hid)) (fun id hid => .inr (.inr (hids ▸ hid))) fun id hid => ?_
    · by_cases hin : id ∈ idsOf w₁.stored
      · exact .inl hin
      · refine .inr (.inr ⟨i, ?_⟩)
        simp only [hself]
        exact (hd id).2 (.inr ⟨hknown ▸ h, hin⟩)
    · exact hdropped (fun hji => (hd id).2 (.inl (hji ▸ hj))) hj
    · rcases (hd id).1 hid with hid | ⟨hid, hno⟩
      · exact .inl hid
      · rw [← hw₁] at hno
        exact .inr (only_removal hwr ha hexp id hid hno)
  | saved ho hs hrep hrem hd hids =>
    have hnone : (c.world.books i).dropped = [] := by
      subst ho
      exact ha
    refine hfinish (fun id hid => hid.mono (fun h => .inl (hs ▸ h)) (fun x hx => hrem ▸ hx) fun j hj => ?_)
      (fun id hid => List.mem_append.1 (hrep ▸ hid)) (fun id hid => by rw [hids] at hid; cases hid)
      fun id hid => by rw [hd] at hid; cases hid
    refine hdropped (fun hji => ?_) hj
    rw [hji, hnone] at hj
    cases hj
  | removed x ho hs hrep hrem hd hids =>
    have hall : ∀ y ∈ (c.world.books i).dropped, y = x := by
      subst ho
      exact ha
    refine hfinish (fun id hid => hid.mono (fun h => .inl (hs ▸ h))
      (fun y hy => hrem ▸ List.mem_append_left _ hy) fun j hj => ?_) (fun id hid => .inl (hrep ▸ hid))
      (fun id hid => by rw [hids] at hid; cases hid) fun id hid => by rw [hd] at hid; cases hid
    by_cases hji : j = i
    · rw [hall id (hji ▸ hj)]
      exact .inr (.inl (by simp [hrem]))
    · exact hdropped (fun h => absurd h hji) hj

theorem accounts_reach {stored backup : Option Stored} {c : VaultCfg}
    (h : ReachOn (vaultSys loc) (Orderly loc) (opened stored backup) c) : Accounts c := by
  refine h.inv (P := Accounts) ?_ fun c m c' hr hc hok hm => ?_
  · exact ⟨fun id hid => .inl hid, fun i id hid => absurd hid List.not_mem_nil, fun i t _ id hid =>
      absurd hid List.not_mem_nil⟩
  have hplaced := (hr.placed (follows loc) fun _ => rfl).1
  cases m with
  | start e =>
    obtain rfl := Option.some.inj hm
    refine ⟨hc.reported, hc.known, fun i t hi id hid => ?_⟩
    rcases Method.old_or_new hi with hi | ⟨rfl, rfl⟩
    · exact hc.dropped i t hi id hid
    · have hblank : c.world.books c.tasks.length = .blank :=
        (hr.placed (follows loc) fun _ => rfl).2 _ (Nat.le_refl _)
      simp only [hblank] at hid
      cases hid
  | ask i =>
    simp only [Sys.move] at hm
    split at hm
    · rename_i e o k hi
      obtain rfl := Option.some.inj hm
      refine ⟨hc.reported, hc.known, fun j t hj id hid => ?_⟩
      by_cases hij : i = j
      · subst hij
        obtain rfl := Method.set_self hj
        exact hc.dropped i _ hi id hid
      · rw [List.getElem?_set_ne hij] at hj
        exact hc.dropped j t hj id hid
    · cases hm
  | answer i out =>
    simp only [Sys.move] at hm
    split at hm
    · rename_i e o k hi
      obtain rfl := Option.some.inj hm
      have ha := (hplaced i _ hi).1
      simp only [Sys.spawns, (follows loc).spawns, Option.toList_none, List.map_nil, List.append_nil]
      exact accounts_answer hc hi hok ha _ rfl
    · cases hm
  | crash => exact hok.elim

/-- A removal of the entry has not ended. -/
def BeingRemoved (c : VaultCfg) (id : String) : Prop :=
  ∃ (i : Nat) (t : Task VaultOp VaultOp.Ans VaultEntry),
    c.tasks[i]? = some t ∧ t.entry.1 = .remove id ∧ t.prog.ended = none

/-- An entry that is gone was removed, or its removal has not ended. -/
theorem accounted_for {stored backup : Option Stored} {c : VaultCfg}
    (h : ReachOn (vaultSys loc) (Orderly loc) (opened stored backup) c) {id : String}
    (hid : Accounted c.world id) :
    id ∈ idsOf c.world.stored ∨ id ∈ c.world.removed ∨ BeingRemoved c id := by
  refine hid.imp_right (Or.imp_right fun ⟨i, hi⟩ => ?_)
  obtain ⟨hplaced, hblank⟩ := h.placed (follows loc) fun _ => rfl
  cases ht : c.tasks[i]? with
  | none =>
    have hb : c.world.books i = .blank := hblank i (List.getElem?_eq_none_iff.1 ht)
    rw [hb] at hi
    cases hi
  | some t =>
    refine ⟨i, t, ht, (accounts_reach h).dropped i t ht id hi, ?_⟩
    cases hend : t.prog.ended with
    | none => rfl
    | some r =>
      have hdone : (c.world.books i).dropped = [] := (hplaced i t ht).done hend
      rw [hdone] at hi
      cases hi

/-- In an orderly run every entry that was reported as saved is in the store, or its removal was reported
or has not ended; and a move takes no entry out of the store but one of a removal of that entry. -/
theorem saved_until_removed (loc : Intl) {stored backup : Option Stored} {c : VaultCfg}
    (h : ReachOn (vaultSys loc) (Orderly loc) (opened stored backup) c) :
    (∀ id ∈ c.world.reported, id ∈ idsOf c.world.stored ∨ id ∈ c.world.removed ∨ BeingRemoved c id) ∧
    ∀ m c', Orderly loc c m → (vaultSys loc).move c m = some c' → ∀ id ∈ idsOf c.world.stored,
      id ∈ idsOf c'.world.stored ∨ BeingRemoved c id := by
  refine ⟨fun id hid => accounted_for h ((accounts_reach h).reported id hid), fun m c' hok hm id hid => ?_⟩
  cases m with
  | start e =>
    obtain rfl := Option.some.inj hm
    exact .inl hid
  | crash => exact hok.elim
  | ask i =>
    simp only [Sys.move] at hm
    split at hm
    · obtain rfl := Option.some.inj hm
      exact .inl hid
    · cases hm
  | answer i out =>
    simp only [Sys.move] at hm
    split at hm
    · rename_i e o k hi
      obtain rfl := Option.some.inj hm
      have ha : allowed loc e (c.world.books i) o := ((h.placed (follows loc) fun _ => rfl).1 i _ hi).1
      simp only [Orderly, hi, orderlyAnswer] at hok
      obtain ⟨hexp, hwrite⟩ := hok
      by_cases hin : id ∈ idsOf (c.world.effect i o (c.world.answer o out)).stored
      · exact .inl hin
      refine .inr ⟨i, _, hi, ?_, rfl⟩
      by_cases hwr : isWrite o (c.world.answer o out) = true
      · refine only_removal hwr ha hexp id ?_ hin
        rw [Book.ids, hwrite hwr]
        exact hid
      · have hsame : (c.world.effect i o (c.world.answer o out)).stored = c.world.stored := by
          cases answered c.world i o out with
          | quiet hs => exact hs
          | write hwr' => exact absurd hwr' hwr
          | saved _ hs => exact hs
          | removed _ _ hs => exact hs
        exact absurd (hsame ▸ hid) hin
    · cases hm

/-! ## Runs -/

def storedMain : WalletEntry where
  id := "main"
  name := "Main"
  kind := .bip39
  seed := "abandon ability able"
  createdAt := 1
  groupId := some "g"

def storedOther : WalletEntry where
  id := "other"
  name := "Other"
  kind := .bip39
  seed := "about above absent"
  createdAt := 2
  groupId := some "h"

def twoWallets : Option Stored := some (.v3 { wallets := [storedMain, storedOther] })

/-- The ids of one operation: `tag` and how many uses and ids came before. -/
def mintOf (tag : String) (n : Nat) : SchemaOpts where
  now := 9
  genId i := tag ++ String.ofList (List.replicate n 'x' ++ List.replicate i 'i')

def renameMain : List (Move Outcome VaultEntry) :=
  .start (.rename "main" "Savings", mintOf "r") :: turns 0 (List.replicate 8 .fulfilled)

theorem saved_until_removed_sample :
    "main" ∈ idsOf ((vaultSys .ascii).play (opened twoWallets none) renameMain).world.stored := by
  have hreach : ReachOn (vaultSys .ascii) (Orderly .ascii) (opened twoWallets none)
      ((vaultSys .ascii).play (opened twoWallets none) renameMain) := reachOn_play .refl (by decide +kernel)
  have hended : ((vaultSys .ascii).play (opened twoWallets none) renameMain).tasks.all
      (·.prog.ended.isSome) = true := by decide +kernel
  rcases (saved_until_removed .ascii hreach).1 "main" (by decide +kernel) with h | h | ⟨i, t, hi, -, hend⟩
  · exact h
  · revert h
    decide +kernel
  · have ht := List.all_eq_true.1 hended t (List.mem_of_getElem? hi)
    rw [hend] at ht
    cases ht

def coldMonero : AddRequest where
  kind := .xmr
  seed := "abbey abducts ability"
  name := "Cold"
  newlyCreated := true

def watched : AddRequest where
  kind := .watch
  seed := ""
  name := "Exchange"
  chain := some .bitcoin
  address := some "bc1q"

/-- While an added Monero wallet asks for the chain's height, a watched address is added. -/
def addDuringProbe : List (Move Outcome VaultEntry) :=
  .start (.addWallet coldMonero, mintOf "c") :: turns 0 (List.replicate 3 .fulfilled) ++
    .start (.addWallet watched, mintOf "w") :: turns 1 (List.replicate 8 .fulfilled) ++
    turns 0 (.height (some 3000000) :: List.replicate 5 .fulfilled)

/-- A derivation change whose second read of the vault cannot be decrypted. -/
def savedBlind : List (Move Outcome VaultEntry) :=
  .start (.saveFlat (.coin .solana "cli") (some "main"), mintOf "s") ::
    turns 0 (List.replicate 5 .fulfilled ++ .rejected :: List.replicate 5 .fulfilled)

/-- The added address was reported as saved and nothing was removed, but it is not in the store; and a
failed read makes a save replace the vault, of which nothing is left. -/
theorem saved_and_lost :
    (∃ c, Reach (vaultSys .ascii) .free (opened twoWallets none) c ∧ c.world.removed = [] ∧
      (∀ t ∈ c.tasks, ∀ id, t.entry.1 ≠ .remove id) ∧ ∃ id ∈ c.world.reported, id ∉ idsOf c.world.stored) ∧
    ∃ c, Reach (vaultSys .ascii) .free (opened twoWallets none) c ∧ c.world.removed = [] ∧
      (∀ t ∈ c.tasks, ∀ id, t.entry.1 ≠ .remove id) ∧ idsOf twoWallets = ["main", "other"] ∧
      ∀ id ∈ idsOf twoWallets, id ∉ idsOf c.world.stored := by
  have hno : ∀ {c : VaultCfg}, (c.tasks.all fun t => match t.entry.1 with | .remove _ => false | _ => true) = true →
      ∀ t ∈ c.tasks, ∀ id, t.entry.1 ≠ .remove id := fun h t ht id hid => by
    have hall := List.all_eq_true.1 h t ht
    rw [hid] at hall
    cases hall
  refine ⟨⟨_, reach_play (permitsAll_free _ _ addDuringProbe), ?_, hno ?_, ?_⟩,
    ⟨_, reach_play (permitsAll_free _ _ savedBlind), ?_, hno ?_, rfl, ?_⟩⟩ <;> decide +kernel

end Vault
