import Mathlib.Data.Rat.Floor
import PwndaWallet.Utxo.Scan

/-!
# Spending from an account

`wallets/utxo-account.ts`: the choice of inputs for an amount, and the gathering that fetches the outputs
of one funded address after the other until the plan covers the send. Amounts and rates are exact numbers,
sizes whole vbytes.
-/

namespace Utxo

open Js

structure AccountSpendCandidate where
  path : String
  address : String
  txid : String
  vout : Nat
  valueSat : Rat
deriving DecidableEq, Repr

structure AccountSpendPlan where
  inputs : List AccountSpendCandidate
  feeSat : Rat
  changeSat : Rat
  covered : Bool
  shortfallSat : Rat
deriving DecidableEq, Repr

structure TxSizing where
  overheadVB : Nat
  inputVB : Nat
  outputVB : Nat

def P2WPKH_SIZING : TxSizing := ⟨11, 68, 31⟩
def P2SH_P2WPKH_SIZING : TxSizing := ⟨11, 91, 32⟩
def P2PKH_SIZING : TxSizing := ⟨10, 148, 34⟩

structure SpendArgs where
  sendSat : Rat
  feePerVB : Rat
  sizing : TxSizing
  dustSat : Nat
  recipientOutputVB : Option Nat := none

/-! ## The plan -/

namespace SpendArgs

variable (args : SpendArgs)

def recipientVB : Nat := args.recipientOutputVB.getD args.sizing.outputVB

/-- The size with `outputs` outputs: the recipient's, or that and the change. -/
def size (inputs outputs : Nat) : Nat :=
  args.sizing.overheadVB + inputs * args.sizing.inputVB + args.recipientVB + (outputs - 1) * args.sizing.outputVB

def feeFor (inputs outputs : Nat) : Rat := (⌈args.feePerVB * (args.size inputs outputs : Rat)⌉ : Int)

/-- What the loop returns once `inputs`, which are worth `total`, suffice. -/
def exit (inputs : List AccountSpendCandidate) (total : Rat) : Option AccountSpendPlan :=
  let feeWithChange := args.feeFor inputs.length 2
  if total ≥ args.sendSat + feeWithChange then
    let change := total - args.sendSat - feeWithChange
    if change > args.dustSat then some ⟨inputs, feeWithChange, change, true, 0⟩
    else some ⟨inputs, total - args.sendSat, 0, true, 0⟩
  else if total ≥ args.sendSat + args.feeFor inputs.length 1 then
    some ⟨inputs, total - args.sendSat, 0, true, 0⟩
  else none

/-- The loop over the pool. -/
def select : List AccountSpendCandidate → List AccountSpendCandidate → Rat → AccountSpendPlan
  | [], inputs, total =>
    let feeNoChange := args.feeFor (max inputs.length 1) 1
    ⟨inputs, feeNoChange, 0, false, args.sendSat + feeNoChange - total⟩
  | c :: pool, inputs, total =>
    match args.exit (inputs ++ [c]) (total + c.valueSat) with
    | some plan => plan
    | none => select pool (inputs ++ [c]) (total + c.valueSat)

end SpendArgs

def planAccountSpend (args : SpendArgs) (candidates : List AccountSpendCandidate) : AccountSpendPlan :=
  args.select (sort (fun a b => b.valueSat ≤ a.valueSat) candidates) [] 0

/-! ## Gathering -/

structure AccountSpendSource (Key : Type) where
  path : String
  address : String
  chainIndex : UtxoChainIndex
  index : Nat
  node : Key

/-- An output as the explorer lists it. -/
structure Unspent where
  txid : String
  vout : Nat
  valueSat : Rat

/-- `Number.isSafeInteger` -/
def isSafeInteger (q : Rat) : Bool := q.den == 1 && q.num.natAbs < 2 ^ 53

/-- The lowest index of the change chain that no entry takes. -/
def nextChangeIndex (entries : List UtxoAddressEntry) : Nat :=
  let taken := fun i => entries.any fun e => e.chainIndex == .change && e.touched && e.index == i
  ((List.range (entries.length + 1)).find? fun i => !taken i).getD 0

/-- `sources.set(address, source)` -/
def setSource {Key : Type} (sources : List (String × AccountSpendSource Key)) (s : AccountSpendSource Key) :
    List (String × AccountSpendSource Key) :=
  if sources.any (·.1 == s.address) then sources.map fun e => if e.1 == s.address then (s.address, s) else e
  else sources ++ [(s.address, s)]

def getSource {Key : Type} (sources : List (String × AccountSpendSource Key)) (address : String) :
    Option (AccountSpendSource Key) := (sources.find? (·.1 == address)).map (·.2)

structure Gathered (Key : Type) where
  plan : AccountSpendPlan
  sources : List (String × AccountSpendSource Key)
  change : AccountAddress
  scan : UtxoAccountScan

def UtxoAddressEntry.candidate (e : UtxoAddressEntry) (u : Unspent) : AccountSpendCandidate :=
  { path := e.path, address := e.address, txid := u.txid, vout := u.vout, valueSat := u.valueSat }

/-- The outputs of one address join the candidates; one that is too large ends it all. -/
def addOutputs (e : UtxoAddressEntry) :
    List Unspent → List AccountSpendCandidate → Except String (List AccountSpendCandidate)
  | [], candidates => .ok candidates
  | u :: us, candidates =>
    if isSafeInteger u.valueSat then addOutputs e us (candidates ++ [e.candidate u])
    else
      .error ("Output " ++ u.txid ++ ":" ++ toString u.vout ++ " is too large to select safely " ++
        "(exceeds 2^53 base units). Nothing was sent.")

section

variable {Key : Type} (wallet : HdWallet Key) (hasPrivateKey : Key → Bool) (spec : UtxoAccountSpec Key)
  (fetchUtxos : String → Except String (List Unspent)) (args : SpendArgs)

/-- The key node of a funded address, if it signs for it. -/
def sourceFor (e : UtxoAddressEntry) : Except String (AccountSpendSource Key) := do
  let node ← wallet.child spec.accountPath e.chainIndex e.index
  if ¬ hasPrivateKey node then .error ("No signing key for " ++ e.path ++ "; nothing was sent.")
  else if spec.deriveAddress node ≠ e.address then
    .error ("Derivation mismatch at " ++ e.path ++ ": expected " ++ e.address ++ ". Nothing was sent.")
  else .ok { path := e.path, address := e.address, chainIndex := e.chainIndex, index := e.index, node }

def gatherLoop : List UtxoAddressEntry → List (String × AccountSpendSource Key) → List AccountSpendCandidate →
    AccountSpendPlan → Except String (AccountSpendPlan × List (String × AccountSpendSource Key))
  | [], sources, _, plan => .ok (plan, sources)
  | e :: funded, sources, candidates, _ =>
    match sourceFor wallet hasPrivateKey spec e with
    | .error message => .error message
    | .ok source =>
      match (fetchUtxos e.address).bind fun us => addOutputs e us candidates with
      | .error message => .error message
      | .ok candidates =>
        let plan := planAccountSpend args candidates
        if plan.covered then .ok (plan, setSource sources source)
        else gatherLoop funded (setSource sources source) candidates plan

def fundedOf (scan : UtxoAccountScan) : List UtxoAddressEntry :=
  sort (fun a b => b.balanceSat ≤ a.balanceSat) (scan.entries.filter (·.balanceSat > 0))

/-- After the scan. -/
def gatherFrom (scan : UtxoAccountScan) : Except String (Gathered Key) :=
  if scan.complete = false then
    .error ("Could not see the whole account — a block explorer did not answer. " ++
      "Sending on a partial view could report a false shortfall, so nothing " ++
      "was sent. Try again in a moment.")
  else
    match deriveUtxoAddresses wallet spec .change (nextChangeIndex scan.entries) 1 with
    | .error message => .error message
    | .ok [] => .error "Could not derive a change address; nothing was sent."
    | .ok (change :: _) =>
      (gatherLoop wallet hasPrivateKey spec fetchUtxos args (fundedOf scan) [] [] (planAccountSpend args [])).map
        fun r => ⟨r.1, r.2, change, scan⟩

def gatherAccountSpend (x : Explorer) (gapLimit : Option Nat) (fuel : Nat) : Option (Except String (Gathered Key)) :=
  (scanUtxoAccount x wallet spec { gapLimit := some (gapLimit.getD DEFAULT_GAP_LIMIT) } fuel).map fun
    | .error message => .error message
    | .ok scan => gatherFrom wallet hasPrivateKey spec fetchUtxos args scan

end

end Utxo
