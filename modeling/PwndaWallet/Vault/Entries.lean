import PwndaWallet.Vault.Flat

/-!
# Adding, renaming, removing and repairing entries

`vault-schema.ts`: the v3 edits of the vault, which never pass through the flat shape.
-/

namespace Vault

open Js

/-! ## The edits -/

def findDuplicateSeed (loc : Intl) (v3 : VaultPayloadV3) (seed : String) : Option WalletEntry :=
  let norm := normalizeSeed loc seed
  if norm = "" then none else v3.wallets.find? fun w => normalizeSeed loc w.seed == norm

structure NewWalletSpec where
  kind : WalletKind
  seed : String
  name : String
  derivationChoice : Option DerivationChoice := none
  xmrSeedFormat : Option XmrSeedFormat := none
  restoreHeight : Option Nat := none
  zanoSeedPassphrase : Option String := none
  chain : Option ChainType := none
  address : Option String := none
  groupId : Option String := none
deriving DecidableEq, Repr

/-- The entry that `addWalletEntry` makes: each kind takes its own fields of the spec. -/
def newEntry (spec : NewWalletSpec) (opts : SchemaOpts) : WalletEntry :=
  let id := opts.genId 0
  let entry : WalletEntry :=
    { id, name := spec.name, kind := spec.kind, seed := spec.seed, createdAt := opts.now
      groupId := some (opts.orGen spec.groupId 1).1 }
  match spec.kind with
  | .bip39 => { entry with derivationChoice := spec.derivationChoice }
  | .xmr =>
    { entry with
      restoreHeight := spec.restoreHeight, sidecarFile := newSidecarFile .xmr id
      xmrSeedFormat := spec.xmrSeedFormat }
  | .zph => { entry with restoreHeight := spec.restoreHeight, sidecarFile := newSidecarFile .zph id }
  | .zano =>
    { entry with
      sidecarFile := newSidecarFile .zano id, zanoSeedPassphrase := truthy spec.zanoSeedPassphrase }
  | .xelis => { entry with sidecarFile := newSidecarFile .xelis id }
  | .privateKey | .watch => { entry with chain := spec.chain, address := spec.address }

def addWalletEntry (v3 : VaultPayloadV3) (spec : NewWalletSpec) (opts : SchemaOpts) :
    VaultPayloadV3 × WalletEntry :=
  let entry := newEntry spec opts
  ({ v3 with wallets := v3.wallets ++ [entry] }, entry)

inductive XelisRefusal where
  /-- The context has a different Xelis wallet. -/
  | alreadyHasXelis
  /-- The words are saved as another wallet. -/
  | alreadySaved (name : String)
deriving DecidableEq, Repr

/-- Puts a Xelis wallet into the context of `activeWalletId`; the flag tells whether one was made. -/
def addXelisWalletToContext (loc : Intl) (v3 : VaultPayloadV3) (seed : String) (opts : SchemaOpts)
    (activeWalletId : Option String) : Except XelisRefusal (VaultPayloadV3 × WalletEntry × Bool) :=
  let gid := groupIdForWallet v3 activeWalletId
  match gid.bind fun g => firstOf v3.wallets g .xelis with
  | some present =>
    if normalizeSeed loc present.seed = normalizeSeed loc seed then .ok (v3, present, false)
    else .error .alreadyHasXelis
  | none =>
    match findDuplicateSeed loc v3 seed with
    | some duplicate => .error (.alreadySaved duplicate.name)
    | none =>
      let ctx := gid.bind fun g => (listContexts v3).find? (·.groupId == g)
      let name := match ctx with
        | some c => c.name ++ " · Xelis"
        | none => "Xelis wallet"
      let added := addWalletEntry v3 { kind := .xelis, seed, name, groupId := gid } opts
      .ok (added.1, added.2, true)

def renameWalletEntry (v3 : VaultPayloadV3) (id name : String) : VaultPayloadV3 :=
  { v3 with wallets := v3.wallets.map fun w => if w.id = id then { w with name } else w }

structure Removal where
  v3 : VaultPayloadV3
  removed : Option WalletEntry
  wasLast : Bool

def removeWalletEntry (v3 : VaultPayloadV3) (id : String) : Removal :=
  let removed := v3.wallets.find? (·.id == id)
  let wallets := v3.wallets.filter (·.id != id)
  { v3 :=
      { v3 with
        wallets
        lastActiveWalletId := if v3.lastActiveWalletId = some id then some "all" else v3.lastActiveWalletId }
    removed
    wasLast := removed.isSome && wallets.isEmpty }

def isPrimaryBip39 (v3 : VaultPayloadV3) (id : String) : Bool :=
  match v3.wallets.find? (·.kind == .bip39) with
  | some primary => primary.id == id
  | none => false

def isInActiveContext (v3 : VaultPayloadV3) (entry : WalletEntry) : Bool :=
  some (groupKey entry) == groupIdForWallet v3 (some (v3.lastActiveWalletId.getD "all"))

/-! ## Giving every wallet its own file again -/

/-- One entry that `repairSharedSidecarFiles` moved to a file of its own. -/
structure SidecarFileRepair where
  id : String
  name : String
  kind : WalletKind
  source : String
  target : String
deriving DecidableEq, Repr

/-- The directory and the name of an entry's wallet file, if it has one. -/
def fileKey (w : WalletEntry) : Option (WalletKind × String) :=
  match truthy (sidecarFileForEntry w) with
  | none => none
  | some file => some (w.kind, file)

/-- Who keeps a shared file: the primary group's entry, else the oldest. -/
def keeperLe (loc : Intl) (primaryGid : Option String) (a b : WalletEntry) : Bool :=
  let ap := some (groupKey a) != primaryGid
  let bp := some (groupKey b) != primaryGid
  if ap != bp then bp
  else if a.createdAt ≠ b.createdAt then a.createdAt < b.createdAt
  else loc.localeLe a.id b.id

/-- The names in use and the moves so far. -/
structure Repairing where
  used : List (WalletKind × String)
  repairs : List SidecarFileRepair

/-- Moves one entry to `newSidecarFile`, unless another has that name. -/
def moveOne (source : String) (r : Repairing) (w : WalletEntry) : Repairing :=
  match newSidecarFile w.kind w.id with
  | none => r
  | some target =>
    if (w.kind, target) ∈ r.used then r
    else
      { used := r.used ++ [(w.kind, target)]
        repairs := r.repairs ++ [{ id := w.id, name := w.name, kind := w.kind, source, target }] }

def repairGroup (loc : Intl) (primaryGid : Option String) (r : Repairing)
    (shared : (WalletKind × String) × List WalletEntry) : Repairing :=
  match sort (keeperLe loc primaryGid) shared.2 with
  | [] => r
  | _ :: others => others.foldl (moveOne shared.1.2) r

/-- Where an id is moved to: the last entry of the `moveTo` map for it. -/
def movedTo (repairs : List SidecarFileRepair) (id : String) : Option String :=
  (repairs.reverse.find? (·.id == id)).map (·.target)

def repairSharedSidecarFiles (loc : Intl) (v3 : VaultPayloadV3) :
    VaultPayloadV3 × List SidecarFileRepair :=
  let withFile := v3.wallets.filterMap fun w => (fileKey w).map fun key => (key, w)
  let sharing := (group (·.1) withFile).map fun e => (e.1, e.2.map (·.2))
  let r := sharing.foldl (repairGroup loc (primaryGroupId v3)) { used := withFile.map (·.1), repairs := [] }
  ({ v3 with
     wallets := v3.wallets.map fun w =>
       match movedTo r.repairs w.id with
       | some target => { w with sidecarFile := some target }
       | none => w },
   r.repairs)

end Vault
