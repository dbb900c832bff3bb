import PwndaWallet.Lib.Prog
import PwndaWallet.Vault.Entries
import PwndaWallet.Vault.Writes

/-!
# The vault in its store

`store.ts`: the encrypted vault under one key of the app's file store, read and written whole. Every
question is an await; between two of them other operations go on.
-/

namespace Vault

open Tasks

/-- What the store holds under the wallet's key, as `decrypt` and `JSON.parse` give it back. -/
inductive Stored where
  /-- before v2, a phrase alone -/
  | phrase (bip39 : String)
  | flat (payload : VaultPayload)
  | v3 (payload : VaultPayloadV3)
deriving DecidableEq, Repr

/-- The wallet processes that a swap can share. -/
inductive HostWallet where
  | monero | zephyr | zano
deriving DecidableEq, Repr

/-- What an operation reports to the user as done. -/
inductive Report where
  | saved
  | removed (id : String)
deriving DecidableEq, Repr

inductive VaultOp where
  | getStore
  | get
  | decrypt
  | hasBackup
  | setBackup (encrypted : Stored)
  | encrypt
  | set (v3 : VaultPayloadV3)
  | save
  | delete
  | deleteBackup
  /-- the chain's height now -/
  | tip (kind : WalletKind)
  | polyseedRestoreHeight (seed : String)
  | hostWalletInUse (host : HostWallet)
  | report (r : Report)

/-- `false` and `none` are rejections; a failed check of the host wallet is `none` too. -/
abbrev VaultOp.Ans : VaultOp → Type
  | .get => Option (Option Stored)
  | .hasBackup => Option Bool
  | .tip _ => Option Nat
  | .polyseedRestoreHeight _ => Option Nat
  | .hostWalletInUse _ => Option Bool
  | .report _ => Unit
  | _ => Bool

inductive VaultError where
  | rejected
  /-- `No saved wallet found` -/
  | noSavedWallet
  /-- a guard's message is on screen -/
  | refused
deriving DecidableEq, Repr

abbrev VaultProg := Prog VaultOp VaultOp.Ans VaultError

def fulfilled (r : Bool) : Except VaultError Unit := if r then .ok () else .error .rejected

def value {α : Type} : Option α → Except VaultError α
  | some a => .ok a
  | none => .error .rejected

/-! ## Reading -/

structure RawVault where
  onDiskVersion : Nat
  v3 : VaultPayloadV3
  rawEncrypted : Stored

/-- The vault in its v3 shape; `opts` are the clock and the ids of its migration. -/
def RawVault.ofStored (opts : SchemaOpts) (encrypted : Stored) : RawVault where
  onDiskVersion :=
    match encrypted with
    | .phrase _ => 1
    | .flat _ => 2
    | .v3 _ => 3
  v3 :=
    match encrypted with
    | .phrase bip39 => migrateV2ToV3 { bip39 } opts
    | .flat payload => migrateV2ToV3 payload opts
    | .v3 payload => payload
  rawEncrypted := encrypted

def readVaultRaw (opts : SchemaOpts) : VaultProg (Option RawVault) := do
  Prog.request .getStore fulfilled
  let encrypted ← Prog.request .get value
  match encrypted with
  | none => pure none
  | some encrypted =>
    Prog.request .decrypt fulfilled
    pure (some (.ofStored opts encrypted))

def backupPreV3Once (raw : RawVault) : VaultProg Unit :=
  if raw.onDiskVersion ≥ 3 then pure ()
  else do
    Prog.request .getStore fulfilled
    let has ← Prog.request .hasBackup value
    if has then pure () else Prog.request (.setBackup raw.rawEncrypted) fulfilled

/-! ## Writing -/

def saveVaultV3 (v3 : VaultPayloadV3) : VaultProg Unit := do
  Prog.request .encrypt fulfilled
  Prog.request .getStore fulfilled
  Prog.request (.set v3) fulfilled
  Prog.request .save fulfilled

def persistMigration (raw : RawVault) : VaultProg Unit := do
  backupPreV3Once raw
  saveVaultV3 raw.v3

def loadVaultV3 (opts : SchemaOpts) : VaultProg VaultPayloadV3 := do
  match ← readVaultRaw opts with
  | none => .fail .noSavedWallet
  | some raw =>
    if raw.onDiskVersion < 3 then persistMigration raw
    pure raw.v3

def loadVault (opts : SchemaOpts) (activeWalletId : Option String) : VaultProg VaultPayload := do
  let v3 ← loadVaultV3 opts
  pure (projectV3ToV2 v3 activeWalletId)

/-- `opts` are those of the migration on read, `mergeOpts` those of the merge. -/
def saveVault (payload : VaultPayload) (activeWalletId : Option String) (opts mergeOpts : SchemaOpts) :
    VaultProg Unit := do
  -- a read that fails counts as no vault
  let existing ← (readVaultRaw opts).handle fun
    | .ok existing => pure existing
    | .error _ => pure none
  match existing with
  | some raw => backupPreV3Once raw
  | none => pure ()
  saveVaultV3 (mergeFlatIntoV3 payload (existing.map (·.v3)) mergeOpts activeWalletId)

def deleteWallet : VaultProg Unit := do
  Prog.request .getStore fulfilled
  Prog.request .delete fulfilled
  Prog.request .deleteBackup fulfilled
  Prog.request .save fulfilled

end Vault
