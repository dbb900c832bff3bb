import PwndaWallet.Lib.Js
import PwndaWallet.Vault.Schema

/-!
# The gap-limit scan

`wallets/utxo-account.ts`: the addresses of an account, the probe of a block of them (in batches with a
fallback per batch, or one by one by a few workers) and the walk of both chains. A key node is any `Key`.
-/

namespace Utxo

open Js

/-- `0` is the receive chain, `1` the change chain. -/
inductive UtxoChainIndex where
  | receive | change
deriving DecidableEq, Repr

def UtxoChainIndex.toNat : UtxoChainIndex → Nat
  | .receive => 0
  | .change => 1

def DEFAULT_GAP_LIMIT : Nat := 40
def SCAN_CONCURRENCY : Nat := 4
def DEFAULT_BATCH_SIZE : Nat := 50

structure UtxoAddressProbe where
  balanceSat : Int
  used : Bool
deriving DecidableEq, Repr

/-- `probeMany` tells whether the account has a batch source. -/
structure UtxoAccountSpec (Key : Type) where
  chain : Vault.ChainType
  accountPath : String
  label : String
  deriveAddress : Key → String
  probeMany : Bool
  batchSize : Option Nat

structure UtxoAddressEntry where
  path : String
  address : String
  chainIndex : UtxoChainIndex
  index : Nat
  balanceSat : Int
  used : Bool
deriving DecidableEq, Repr

structure MaxUsed where
  receive : Int
  change : Int
deriving DecidableEq, Repr

structure UtxoAccountScan where
  chain : Vault.ChainType
  accountPath : String
  label : String
  gapLimit : Nat
  scanned : Nat
  totalSat : Int
  entries : List UtxoAddressEntry
  complete : Bool
  maxUsed : MaxUsed
deriving DecidableEq, Repr

/-! ## Addresses -/

/-- The key nodes of a mnemonic, by account path, chain and index; a derivation can throw. -/
structure HdWallet (Key : Type) where
  child : String → UtxoChainIndex → Nat → Except String Key

def childPath (accountPath : String) (chainIndex : UtxoChainIndex) (index : Nat) : String :=
  accountPath ++ "/" ++ toString chainIndex.toNat ++ "/" ++ toString index

structure AccountAddress where
  path : String
  address : String
  chainIndex : UtxoChainIndex
  index : Nat
deriving DecidableEq, Repr

def deriveUtxoAddresses {Key : Type} (wallet : HdWallet Key) (spec : UtxoAccountSpec Key)
    (chainIndex : UtxoChainIndex) : Nat → Nat → Except String (List AccountAddress)
  | _, 0 => .ok []
  | i, count + 1 => do
    let node ← wallet.child spec.accountPath chainIndex i
    let rest ← deriveUtxoAddresses wallet spec chainIndex (i + 1) count
    pure ({ path := childPath spec.accountPath chainIndex i, address := spec.deriveAddress node,
            chainIndex, index := i } :: rest)

/-! ## Probing -/

/-- What the sources do: `none` is a call that throws. `settles` is the order in which the probes of a
block that is asked one by one come back: which of those in flight is the next. -/
structure Explorer where
  probe : AccountAddress → Option UtxoAddressProbe
  probeMany : List AccountAddress → Option (List UtxoAddressProbe)
  settles : List AccountAddress → List Nat

structure Probed where
  entries : List UtxoAddressEntry
  complete : Bool

def AccountAddress.entry (a : AccountAddress) (r : UtxoAddressProbe) : UtxoAddressEntry :=
  { path := a.path, address := a.address, chainIndex := a.chainIndex, index := a.index
    balanceSat := r.balanceSat, used := r.used }

/-- One probe comes back. -/
def Probed.settle (p : Probed) (a : AccountAddress) : Option UtxoAddressProbe → Probed
  | some r => { p with entries := p.entries ++ [a.entry r] }
  | none => { p with complete := false }

variable (x : Explorer)

/-- The workers, while `working` are in flight and `rest` is not taken: whichever comes back, its worker
takes the next. -/
def workers : Nat → List Nat → List AccountAddress → List AccountAddress → Probed → Probed
  | 0, _, _, _, p => p
  | n + 1, turns, working, rest, p =>
    let k := turns.headD 0 % working.length
    match working[k]? with
    | none => p
    | some a =>
      workers n turns.tail (working.eraseIdx k ++ rest.take 1) (rest.drop 1) (p.settle a (x.probe a))

def perAddress (concurrency : Nat) (block : List AccountAddress) (p : Probed) : Probed :=
  let width := max 1 (min concurrency block.length)
  workers x block.length (x.settles block) (block.take width) (block.drop width) p

/-- The slices of an array, `size` elements each; the number bounds how many there are. -/
def slices {α : Type} (size : Nat) : Nat → List α → List (List α)
  | 0, _ => []
  | _ + 1, [] => []
  | n + 1, a :: l => (a :: l).take size :: slices size n ((a :: l).drop size)

/-- The answer of the batch source, if it has one result for each address. -/
def batchResults (block : List AccountAddress) : Option (List UtxoAddressProbe) :=
  (x.probeMany block).filter fun r => r.length = block.length

def probeBlock (concurrency : Nat) (p : Probed) (block : List AccountAddress) : Probed :=
  match batchResults x block with
  | some results =>
    { p with entries := p.entries ++ List.zipWith AccountAddress.entry block results }
  | none => perAddress x concurrency block p

def entryLe (a b : UtxoAddressEntry) : Bool :=
  a.chainIndex.toNat < b.chainIndex.toNat || (a.chainIndex == b.chainIndex && a.index ≤ b.index)

variable {Key : Type}

def UtxoAccountSpec.batch (spec : UtxoAccountSpec Key) : Nat := max 1 (spec.batchSize.getD DEFAULT_BATCH_SIZE)

def probeAddresses (spec : UtxoAccountSpec Key) (addresses : List AccountAddress) (concurrency : Nat) :
    Probed :=
  let p :=
    if spec.probeMany then
      (slices spec.batch addresses.length addresses).foldl (probeBlock x concurrency) ⟨[], true⟩
    else perAddress x concurrency addresses ⟨[], true⟩
  { p with entries := sort entryLe p.entries }

/-! ## Walking -/

/-- It has history, or a balance. -/
def UtxoAddressEntry.touched (e : UtxoAddressEntry) : Bool := e.used || decide (e.balanceSat > 0)

structure Walk where
  entries : List UtxoAddressEntry := []
  scanned : Nat := 0
  trailingUnused : Nat := 0
  cursor : Nat := 0

structure Walked where
  entries : List UtxoAddressEntry
  scanned : Nat
  complete : Bool

def Walk.note (w : Walk) (e : UtxoAddressEntry) : Walk :=
  if e.touched then { w with entries := w.entries ++ [e], trailingUnused := 0 }
  else { w with trailingUnused := w.trailingUnused + 1 }

def blockSizeOf (spec : UtxoAccountSpec Key) (gapLimit concurrency : Nat) : Nat :=
  if spec.probeMany then max 10 (min (spec.batchSize.getD DEFAULT_BATCH_SIZE) gapLimit) else max concurrency 10

variable (wallet : HdWallet Key) (spec : UtxoAccountSpec Key) (chainIndex : UtxoChainIndex)
  (gapLimit concurrency : Nat)

/-- The loop of `walkChain`; `none` is a loop that has not ended. -/
def walkLoop : Nat → Walk → Option (Except String Walked)
  | 0, _ => none
  | fuel + 1, w =>
    if w.trailingUnused < gapLimit then
      match deriveUtxoAddresses wallet spec chainIndex w.cursor (blockSizeOf spec gapLimit concurrency) with
      | .error e => some (.error e)
      | .ok block =>
        let probed := probeAddresses x spec block concurrency
        let scanned := w.scanned + block.length
        if probed.complete = false then
          some (.ok ⟨w.entries ++ probed.entries.filter (·.touched), scanned, false⟩)
        else
          let noted := probed.entries.foldl Walk.note w
          let cursor := w.cursor + block.length
          if cursor > gapLimit * 25 then some (.ok ⟨noted.entries, scanned, false⟩)
          else walkLoop fuel { noted with scanned, cursor }
    else some (.ok ⟨w.entries, w.scanned, true⟩)

def walkChain (fuel : Nat) : Option (Except String Walked) :=
  walkLoop x wallet spec chainIndex gapLimit concurrency fuel {}

def maxUsedIndex (entries : List UtxoAddressEntry) : Int :=
  entries.foldl (fun m e => if e.used ∧ (e.index : Int) > m then e.index else m) (-1)

structure ScanOpts where
  gapLimit : Option Nat := none
  concurrency : Option Nat := none

def scanOf (gapLimit : Nat) (receive change : Walked) : UtxoAccountScan :=
  let entries := sort entryLe (receive.entries ++ change.entries)
  { chain := spec.chain
    accountPath := spec.accountPath
    label := spec.label
    gapLimit
    scanned := receive.scanned + change.scanned
    totalSat := entries.foldl (fun s e => s + e.balanceSat) 0
    entries
    complete := receive.complete && change.complete
    maxUsed := ⟨maxUsedIndex receive.entries, maxUsedIndex change.entries⟩ }

def scanUtxoAccount (opts : ScanOpts) (fuel : Nat) : Option (Except String UtxoAccountScan) :=
  let gapLimit := opts.gapLimit.getD DEFAULT_GAP_LIMIT
  let concurrency := opts.concurrency.getD SCAN_CONCURRENCY
  (walkChain x wallet spec .receive gapLimit concurrency fuel).bind fun
    | .error e => some (.error e)
    | .ok receive =>
      (walkChain x wallet spec .change gapLimit concurrency fuel).map (·.map (scanOf spec gapLimit receive))

end Utxo
