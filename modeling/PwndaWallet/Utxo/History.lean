import PwndaWallet.Lib.Double
import PwndaWallet.Lib.Js
import PwndaWallet.Utxo.Spend

/-!
# Account history

`wallets/utxo-account-history.ts`: the rows of one transaction, one for each address of the account, netted to
one row of the account. A row's `meta` has the entries that are read or written here.
-/

namespace Utxo

open Js

inductive TxDirection where
  | in' | out | self | failed | pending
deriving DecidableEq, Repr

structure RowMeta where
  netSat : Option Rat := none
  feeSat : Option Rat := none
  /-- `none` for an element that is no string -/
  inputs : Option (List (Option String)) := none
  outputs : Option (List (Option String)) := none
  netDirection : Option TxDirection := none
  externalOutputs : Option (List String) := none
  mergedAddresses : Option Nat := none
deriving DecidableEq, Repr

structure ChainTx where
  chain : String
  hash : String
  direction : TxDirection
  amount : String
  fee : Option String := none
  timestamp : Option Rat := none
  height : Option Rat := none
  confirmations : Option Rat := none
  counterparty : Option String := none
  rowMeta : RowMeta := {}
deriving DecidableEq, Repr

def DECIMALS : Nat := 8

/-! ## Amounts -/

/-- `decimalToAtomic` of `wallets/decimal-amount.ts`; `none` where it throws. -/
def decimalToAtomic (amount : String) (decimals : Nat) : Option Nat :=
  let t := trim amount.toList
  let whole := t.takeWhile (· ≠ '.')
  let rest := t.dropWhile (· ≠ '.')
  let frac := rest.tail
  if whole = [] ∨ ¬ whole.all Char.isDigit ∨ (rest ≠ [] ∧ (frac = [] ∨ ¬ frac.all Char.isDigit)) then none
  else if frac.length > decimals then none
  else some (Rust.digitsValue whole * 10 ^ decimals + Rust.digitsValue (frac ++ List.replicate (decimals - frac.length) '0'))

def formatSat (v : Int) : String :=
  let abs := v.natAbs
  let scale := 10 ^ DECIMALS
  toString (abs / scale) ++ "." ++ String.ofList (padZero DECIMALS (Nat.toDigits 10 (abs % scale)))

/-- `Number(v)` of a `bigint` -/
def toNumber (v : Int) : Rat := if v < 0 then -Double.nearest (-v : Int) else Double.nearest v

/-! ## One row -/

section

variable (intl : Intl) (chain : String)

def accountAddressKey (address : String) : String :=
  let a := String.ofList (trim address.toList)
  if chain = "bitcoin-cash" then
    let a := intl.toLowerCase a
    if a.startsWith "bitcoincash:" then (a.drop 12).toString else a
  else a

def signedNetSat (row : ChainTx) : Option Int :=
  match row.rowMeta.netSat.filter (fun n => isSafeInteger n) with
  | some n => some n.num
  | none =>
    match row.direction with
    | .in' => (decimalToAtomic row.amount DECIMALS).map fun units => (units : Int)
    | .out => (decimalToAtomic row.amount DECIMALS).map fun units => -(units : Int)
    | .self => (decimalToAtomic row.amount DECIMALS).map fun _ => 0
    | .failed | .pending => none

/-- The fee that one row tells. -/
def rowFeeSat (r : ChainTx) : Option Nat :=
  match r.rowMeta.feeSat.filter (fun f => isSafeInteger f && 0 ≤ f) with
  | some f => some f.num.toNat
  | none => r.fee.bind fun s => decimalToAtomic s DECIMALS

def feeSatOf (rows : List ChainTx) : Option Nat := rows.findSome? rowFeeSat

def addressList (rows : List ChainTx) (key : RowMeta → Option (List (Option String))) : Option (List String) :=
  (rows.findSome? fun r => key r.rowMeta).map fun v => v.map fun a => a.getD ""

variable (own : List String)

def isOwn (a : String) : Bool := a != "" && own.contains (accountAddressKey intl chain a)

/-- `some false` where the inputs are listed and not all the account's, `none` where they are not listed. -/
def soleFunder (inputs : Option (List String)) : Option Bool :=
  (inputs.filter (· ≠ [])).map fun inputs => inputs.all (isOwn intl chain own)

/-- The direction, the amount and the fee of the account's row. -/
structure Netted where
  direction : TxDirection
  amount : Int
  rowFee : Option Nat
deriving DecidableEq, Repr

/-- The fee is split out where the account paid it. -/
def split (net : Int) (fee : Option Nat) (soleFunder : Option Bool) : Netted :=
  match fee.filter fun (fee : Nat) => net < 0 ∧ (fee : Int) ≤ -net ∧ soleFunder ≠ some false with
  | some fee =>
    let amount := -net - fee
    ⟨if amount > 0 then .out else .self, amount, some fee⟩
  | none => ⟨if net > 0 then .in' else if net < 0 then .out else .self, if net < 0 then -net else net, none⟩

def netAccountTx (first : ChainTx) (others : List ChainTx) : ChainTx :=
  let rows := first :: others
  match rows.mapM signedNetSat with
  | none => first
  | some signed =>
    let net := signed.sum
    let netted := split net (feeSatOf rows) (soleFunder intl chain own (addressList rows RowMeta.inputs))
    let external := ((addressList rows RowMeta.outputs).getD []).filter fun a => a != "" && !isOwn intl chain own a
    let counterparty :=
      if netted.direction = .out then
        external.head?.or (rows.findSome? fun r => r.counterparty.filter fun c => c != "" && !isOwn intl chain own c)
      else none
    let pending := rows.any fun r => r.direction == .pending
    { first with
      direction := if pending then .pending else netted.direction
      amount := formatSat netted.amount
      fee := netted.rowFee.map fun fee => formatSat fee
      timestamp := rows.findSome? ChainTx.timestamp
      height := rows.findSome? ChainTx.height
      confirmations := if pending then some 0 else rows.findSome? ChainTx.confirmations
      counterparty := counterparty
      rowMeta := { first.rowMeta with
        netSat := some (toNumber net)
        feeSat := (netted.rowFee.map fun fee => toNumber fee).or first.rowMeta.feeSat
        netDirection := some netted.direction
        externalOutputs := if external ≠ [] then some external else first.rowMeta.externalOutputs
        mergedAddresses := some rows.length } }

end

/-! ## All rows -/

/-- The rows by `chain:address`; `none` for a key without a list. -/
abbrev TxByKey := List (String × Option (List ChainTx))

section

variable (intl : Intl) (chain : String)

/-- The address keys of the chain, with their rows. -/
def addressRows (txByKey : TxByKey) : List (String × List ChainTx) :=
  (txByKey.filter fun e => e.1.startsWith (chain ++ ":")).map fun e =>
    (accountAddressKey intl chain (e.1.drop (chain.length + 1)).toString, e.2.getD [])

/-- The keys of the set `own`; a key of two entries stands twice. -/
def ownKeys (txByKey : TxByKey) : List String := (addressRows intl chain txByKey).map (·.1)

structure SeenRow where
  h : String
  addr : String
  tx : ChainTx
deriving DecidableEq

/-- What the loops over the lists come by. -/
def seen (txByKey : TxByKey) : List SeenRow :=
  (addressRows intl chain txByKey).flatMap fun e => e.2.map fun tx => ⟨intl.toLowerCase tx.hash, e.1, tx⟩

/-- The first row of each address, in the order of the addresses' first rows. -/
def firstRows (rows : List SeenRow) : List ChainTx := (group SeenRow.addr rows).filterMap fun e => e.2.head?.map SeenRow.tx

/-- `b` does not come before `a`: `ts(b) - ts(a)` is not positive, or the difference of two infinities. -/
def newerLe (a b : ChainTx) : Bool :=
  match a.timestamp, b.timestamp with
  | none, _ => true
  | some _, none => false
  | some a, some b => b ≤ a

def accountTxHistory (txByKey : TxByKey) : List ChainTx :=
  let own := ownKeys intl chain txByKey
  let rows := (group SeenRow.h (seen intl chain txByKey)).filterMap fun e =>
    match firstRows e.2 with
    | [] => none
    | first :: others => some (netAccountTx intl chain own first others)
  sort newerLe rows

end

end Utxo
