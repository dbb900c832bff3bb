import PwndaWallet.Lib.Machine
import PwndaWallet.Vault.Entries

/-!
# The app's vault writes

`useVault.ts`: the guarded flat saves and derivation changes, which edit the flat projection of the
open context and merge it back, and the v3 edits. And what a vault holds that must not be lost.
-/

namespace Vault

open Js

/-! ## Flat saves -/

def detectXmrSeedFormat (seed : String) : Option XmrSeedFormat :=
  match (words seed.toList).length with
  | 16 => some .polyseed
  | 25 => some .legacy
  | _ => none

def DEFAULT_DERIVATION_CHOICE : DerivationChoice where
  bitcoin := "bip84"
  solana := "phantom"
  cardano := "cip1852"
  algorand := some "exodus"
  litecoin := some "bip84"

/-- The coins whose derivation a handler of its own changes. -/
inductive DerivationCoin where
  | solana | algorand | litecoin | cardano | xrp | tron | ravencoin | dash
deriving DecidableEq, Repr

def DerivationChoice.set (choice : DerivationChoice) (value : String) : DerivationCoin → DerivationChoice
  | .solana => { choice with solana := value }
  | .algorand => { choice with algorand := some value }
  | .litecoin => { choice with litecoin := some value }
  | .cardano => { choice with cardano := value }
  | .xrp => { choice with xrp := some value }
  | .tron => { choice with tron := some value }
  | .ravencoin => { choice with ravencoin := some value }
  | .dash => { choice with dash := some value }

/-- An edit of the flat projection: the three guarded saves, the change of one coin's derivation, and
a whole derivation profile. -/
inductive FlatEdit where
  | xmr (seed : String) (height : Option Nat)
  | zph (seed : String) (height : Option Nat)
  | zano (seed passphrase : String)
  | coin (c : DerivationCoin) (value : String)
  | profile (choice : DerivationChoice)
deriving DecidableEq, Repr

/-- The payload that an edit saves, if its guard lets it through. -/
def FlatEdit.apply (loc : Intl) (payload : VaultPayload) : FlatEdit → Option VaultPayload
  | .xmr seed height =>
    if (flatSeedRefusal loc payload .xmr seed "").isSome then none
    else
      some { payload with
        xmrSeed := some seed, xmrSeedFormat := detectXmrSeedFormat seed, xmrRestoreHeight := height }
  | .zph seed height =>
    if (flatSeedRefusal loc payload .zph seed "").isSome then none
    else some { payload with zphSeed := some seed, zphRestoreHeight := height }
  | .zano seed passphrase =>
    if (flatSeedRefusal loc payload .zano seed passphrase).isSome then none
    else some { payload with zanoSeed := some seed, zanoSeedPassphrase := truthy (some passphrase) }
  | .coin c value =>
    some { payload with
      derivationChoice := some ((payload.derivationChoice.getD DEFAULT_DERIVATION_CHOICE).set value c) }
  | .profile choice => some { payload with derivationChoice := some choice }

/-- Load the open context's projection, edit it, and save it into the same context. -/
def saveFlat (loc : Intl) (v3 : VaultPayloadV3) (edit : FlatEdit) (opts : SchemaOpts)
    (activeWalletId : Option String) : VaultPayloadV3 :=
  match edit.apply loc (projectV3ToV2 v3 activeWalletId) with
  | none => v3
  | some updated => mergeFlatIntoV3 updated (some v3) opts activeWalletId

def switchWallet (loc : Intl) (v3 : VaultPayloadV3) (walletId : String) : VaultPayloadV3 :=
  let repaired := (repairSharedSidecarFiles loc v3).1
  match contextForWallet repaired walletId with
  | none => v3
  | some _ => { repaired with lastActiveWalletId := some walletId }

/-! ## Writes -/

/-- The writes of the vault other than a removal. -/
inductive Write where
  | flat (edit : FlatEdit) (opts : SchemaOpts) (activeWalletId : Option String)
  | add (spec : NewWalletSpec) (opts : SchemaOpts)
  | addXelis (seed : String) (opts : SchemaOpts) (activeWalletId : Option String)
  | rename (id name : String)
  | switch (walletId : String)
  | repair

def Write.apply (loc : Intl) (v3 : VaultPayloadV3) : Write → VaultPayloadV3
  | .flat edit opts a => saveFlat loc v3 edit opts a
  | .add spec opts => (addWalletEntry v3 spec opts).1
  | .addXelis seed opts a =>
    match addXelisWalletToContext loc v3 seed opts a with
    | .ok (next, _, _) => next
    | .error _ => v3
  | .rename id name => renameWalletEntry v3 id name
  | .switch walletId => switchWallet loc v3 walletId
  | .repair => (repairSharedSidecarFiles loc v3).1

def writes (loc : Intl) : Tasks.Machine VaultPayloadV3 Write where
  step v3 w := some (w.apply loc v3)

/-! ## What is stored -/

/-- A seed, a key or a watched address with what belongs to it. -/
structure Secret where
  kind : WalletKind
  seed : String
  passphrase : String
  chain : Option ChainType
  address : Option String
  derivationChoice : Option DerivationChoice
  restoreHeight : Option Nat
deriving DecidableEq, Repr

/-- Each kind has its own fields: `bip39` a derivation choice, `xmr` and `zph` a restore height,
`zano` a passphrase, `privateKey` and `watch` a chain and an address. -/
def WalletEntry.secret (w : WalletEntry) : Secret where
  kind := w.kind
  seed := w.seed
  passphrase := if w.kind = .zano then w.zanoSeedPassphrase.getD "" else ""
  chain := if w.kind = .privateKey ∨ w.kind = .watch then w.chain else none
  address := if w.kind = .privateKey ∨ w.kind = .watch then w.address else none
  derivationChoice := if w.kind = .bip39 then w.derivationChoice else none
  restoreHeight := if w.kind = .xmr ∨ w.kind = .zph then w.restoreHeight else none

/-- An entry without words holds nothing, but for a watched address. -/
def WalletEntry.holdsKey (loc : Intl) (w : WalletEntry) : Bool :=
  w.kind = .watch || normalizeSeed loc w.seed ≠ ""

def zanoSecret (seed passphrase : String) : Secret where
  kind := .zano
  seed := seed
  passphrase := passphrase
  chain := none
  address := none
  derivationChoice := none
  restoreHeight := none

/-- The vault-wide Zano seed. -/
def legacySecret (loc : Intl) (v3 : VaultPayloadV3) : Option Secret :=
  match truthy v3.zanoSeed with
  | none => none
  | some seed =>
    if normalizeSeed loc seed = "" then none
    else some (zanoSecret seed ((truthy v3.zanoSeedPassphrase).getD ""))

def secrets (loc : Intl) (v3 : VaultPayloadV3) : List Secret :=
  (v3.wallets.filter (·.holdsKey loc)).map (·.secret) ++ (legacySecret loc v3).toList

/-- The kind whose seed and restore height a write saves. -/
def Write.saves : Write → Option WalletKind
  | .flat (.xmr _ _) _ _ => some .xmr
  | .flat (.zph _ _) _ _ => some .zph
  | .flat (.zano _ _) _ _ => some .zano
  | _ => none

def Write.changesDerivation : Write → Bool
  | .flat (.coin _ _) _ _ => true
  | .flat (.profile _) _ _ => true
  | _ => false

/-- The same words, passphrase, chain and address. -/
structure SameKey (loc : Intl) (s s' : Secret) : Prop where
  kind : s'.kind = s.kind
  seed : normalizeSeed loc s'.seed = normalizeSeed loc s.seed
  passphrase : s'.passphrase = s.passphrase
  chain : s'.chain = s.chain
  address : s'.address = s.address

/-- `s'` is what the write `w` has left of `s`. -/
structure Kept (loc : Intl) (w : Write) (s s' : Secret) : Prop extends SameKey loc s s' where
  text : w.saves ≠ some s.kind → s'.seed = s.seed
  derivationChoice : w.changesDerivation = false → s'.derivationChoice = s.derivationChoice
  restoreHeight : w.saves ≠ some s.kind → s'.restoreHeight = s.restoreHeight

/-! ## What a flat save can describe -/

/-- The wallets of the context that hold a key are Xelis ones or the first of a kind that the flat shape
has a field for. -/
def Described (loc : Intl) (v3 : VaultPayloadV3) (a : Option String) : Prop :=
  ∀ w ∈ v3.wallets, groupIdForWallet v3 a = some (groupKey w) → w.holdsKey loc →
    w.kind = .xelis ∨ (w.kind ∈ flatKinds ∧ firstOf v3.wallets (groupKey w) w.kind = some w)

/-- The save does not write over the vault-wide Zano seed: the context is the one it belongs to and has
no other, or it is stored as an entry too, or it is what is being saved. -/
def LegacyKept (loc : Intl) (v3 : VaultPayloadV3) (edit : FlatEdit) (a : Option String) : Prop :=
  ∀ s, legacySecret loc v3 = some s →
    (groupIdForWallet v3 a = primaryGroupId v3 ∧
      ∀ w ∈ v3.wallets, groupIdForWallet v3 a = some (groupKey w) → w.kind ≠ .zano) ∨
    (∃ w ∈ v3.wallets, w.secret = s) ∨
    ∃ seed passphrase, edit = .zano seed passphrase ∧ SameKey loc s (zanoSecret seed passphrase)

/-- A write that is not a flat save, or a flat save that its guard stops or that goes into a context it
can describe. -/
def Write.Safe (loc : Intl) (v3 : VaultPayloadV3) : Write → Prop
  | .flat edit _ a =>
    (edit.apply loc (projectV3ToV2 v3 a)).isSome → Described loc v3 a ∧ LegacyKept loc v3 edit a
  | _ => True

end Vault
