import PwndaWallet.Lib.Books
import PwndaWallet.Vault.Store

/-!
# The vault's operations

`useVault.ts`: each operation loads the vault, computes the next one and saves it, with awaits in
between, and nothing keeps two of them apart.
-/

namespace Vault

open Tasks Js

/-! ## Additions -/

/-- Two addresses but for case; absent and empty ones are never the same. -/
def sameAddress (loc : Intl) (a b : Option String) : Bool :=
  match truthy a, truthy b with
  | some a, some b =>
    loc.toLowerCase (String.ofList (trim a.toList)) == loc.toLowerCase (String.ofList (trim b.toList))
  | _, _ => false

def findDuplicateAddress (loc : Intl) (v3 : VaultPayloadV3) (chain : Option ChainType) (address : String) :
    Option WalletEntry :=
  v3.wallets.find? fun w => w.chain == chain && sameAddress loc w.address (some address)

/-- What the user adds, after the checks that need no vault: `seed` is the normalised key or words,
`address` what the adapter makes of a private key, or the watched one. -/
structure AddRequest where
  kind : WalletKind
  seed : String
  name : String
  chain : Option ChainType := none
  address : Option String := none
  zanoSeedPassphrase : Option String := none
  newlyCreated : Bool := false
  /-- the height of the date the user gave -/
  dateHeight : Option Nat := none

/-- The height at which a seed that was made here starts; a probe that fails is no height. -/
def probeTip (r : AddRequest) : VaultProg (Option Nat) :=
  if r.newlyCreated then Prog.ask (VaultOp.tip r.kind) else pure none

/-- The restore height of a new `xmr` or `zph` entry: the tip for a seed made here, else the birthday in
the seed, else the date's. -/
def restoreHeightFor (r : AddRequest) : VaultProg (Option Nat) :=
  if ¬ (r.kind = .xmr ∨ r.kind = .zph) then pure none
  else do
    let tip ← probeTip r
    let known := tip.filter (0 < ·)
    if known.isNone ∧ r.kind = .xmr ∧ detectXmrSeedFormat r.seed = some .polyseed then
      let birthday ← Prog.request (.polyseedRestoreHeight r.seed) value
      pure ((some birthday).filter (0 < ·) <|> r.dateHeight.filter (0 < ·))
    else pure (known <|> r.dateHeight.filter (0 < ·))

/-- The spec of a seed kind, in the primary group's empty slot if there is one. -/
def seedSpec (r : AddRequest) (v3 : VaultPayloadV3) (height : Option Nat) : NewWalletSpec where
  kind := r.kind
  seed := r.seed
  name := r.name
  derivationChoice := if r.kind = .bip39 then some DEFAULT_DERIVATION_CHOICE else none
  xmrSeedFormat := if r.kind = .xmr then detectXmrSeedFormat r.seed else none
  restoreHeight := height
  zanoSeedPassphrase := if r.kind = .zano then truthy r.zanoSeedPassphrase else none
  groupId := truthy (primaryGroupSlotFor v3 r.kind)

/-- `mint n` are the clock and the ids of an operation's `n`-th use of them. -/
def addWallet (loc : Intl) (mint : Nat → SchemaOpts) (r : AddRequest) : VaultProg Unit := do
  let v3 ← loadVaultV3 (mint 0)
  if r.kind = .privateKey ∨ r.kind = .watch then
    let address ← Prog.orFail r.address .rejected
    Prog.ensure (findDuplicateAddress loc v3 r.chain address).isNone .refused
    let spec : NewWalletSpec :=
      { kind := r.kind, seed := if r.kind = .watch then "" else r.seed, name := r.name, chain := r.chain
        address := some address }
    saveVaultV3 (addWalletEntry v3 spec (mint 1)).1
  else
    Prog.ensure (findDuplicateSeed loc v3 r.seed).isNone .refused
    let height ← restoreHeightFor r
    saveVaultV3 (addWalletEntry v3 (seedSpec r v3 height) (mint 1)).1
  Prog.ask (VaultOp.report .saved)

def saveXelisSeedToVault (loc : Intl) (mint : Nat → SchemaOpts) (seed : String)
    (activeWalletId : Option String) : VaultProg Unit := do
  let v3 ← loadVaultV3 (mint 0)
  match addXelisWalletToContext loc v3 seed (mint 1) activeWalletId with
  | .error _ => .fail .refused
  | .ok (next, _, created) =>
    Prog.when created (saveVaultV3 next)
    Prog.ask (VaultOp.report .saved)

/-! ## Flat saves -/

def FlatEdit.readsBack : FlatEdit → Bool
  | .xmr _ _ | .zph _ _ | .zano _ _ => true
  | _ => false

/-- The guarded saves of a seed and the derivation changes. A seed's save reads the vault once more, for
the file that the entry got. -/
def saveFlatEdit (loc : Intl) (mint : Nat → SchemaOpts) (edit : FlatEdit) (activeWalletId : Option String) :
    VaultProg Unit := do
  let payload ← loadVault (mint 0) activeWalletId
  let updated ← Prog.orFail (edit.apply loc payload) .refused
  saveVault updated activeWalletId (mint 1) (mint 2)
  Prog.ask (VaultOp.report .saved)
  if edit.readsBack then
    let _saved ← loadVaultV3 (mint 3)
    pure ()

/-! ## The other edits -/

def renameWallet (mint : Nat → SchemaOpts) (id name : String) : VaultProg Unit := do
  let v3 ← loadVaultV3 (mint 0)
  saveVaultV3 (renameWalletEntry v3 id name)
  Prog.ask (VaultOp.report .saved)

/-- The process that a swap may share with the open context's wallet of a kind. -/
def hostOf : WalletKind → Option HostWallet
  | .xmr => some .monero
  | .zph => some .zephyr
  | .zano => some .zano
  | _ => none

/-- Refuses while a swap uses the process that the wallet's session shares with it. A check that fails
does not refuse. -/
def ensureHostFree (v3 : VaultPayloadV3) (id : String) : VaultProg Unit :=
  let live := (v3.wallets.find? (·.id == id)).filter (isInActiveContext v3 ·)
  match live.bind fun target => hostOf target.kind with
  | some host => do
    let inUse ← Prog.ask (VaultOp.hostWalletInUse host)
    Prog.ensure (inUse != some true) .refused
  | none => pure ()

def writeRemoval (removal : Removal) : VaultProg Unit :=
  if removal.wasLast then deleteWallet else saveVaultV3 removal.v3

def removeFrom (v3 : VaultPayloadV3) (id : String) : VaultProg Unit :=
  let removal := removeWalletEntry v3 id
  if removal.removed.isNone then pure ()
  else do
    writeRemoval removal
    Prog.ask (VaultOp.report (.removed id))

def removeWallet (mint : Nat → SchemaOpts) (id : String) : VaultProg Unit := do
  let v3 ← loadVaultV3 (mint 0)
  Prog.ensure (!isPrimaryBip39 v3 id) .refused
  ensureHostFree v3 id
  removeFrom v3 id

def switchWalletTo (loc : Intl) (mint : Nat → SchemaOpts) (walletId : String) : VaultProg Unit := do
  let v3 ← loadVaultV3 (mint 0)
  let repaired := (repairSharedSidecarFiles loc v3).1
  if (contextForWallet repaired walletId).isSome then
    saveVaultV3 { repaired with lastActiveWalletId := some walletId }
    Prog.ask (VaultOp.report .saved)

inductive VaultCall where
  | saveFlat (edit : FlatEdit) (activeWalletId : Option String)
  | addWallet (r : AddRequest)
  | saveXelis (seed : String) (activeWalletId : Option String)
  | rename (id name : String)
  | remove (id : String)
  | switch (walletId : String)

def VaultCall.body (loc : Intl) (mint : Nat → SchemaOpts) : VaultCall → VaultProg Unit
  | .saveFlat edit a => saveFlatEdit loc mint edit a
  | .addWallet r => Vault.addWallet loc mint r
  | .saveXelis seed a => saveXelisSeedToVault loc mint seed a
  | .rename id name => renameWallet mint id name
  | .remove id => removeWallet mint id
  | .switch walletId => switchWalletTo loc mint walletId

end Vault
