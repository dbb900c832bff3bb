import Mathlib.Data.Rat.Floor
import PwndaWallet.Btc.Transaction
import PwndaWallet.Lib.Js

/-!
# Replace by fee

`wallets/btc-rbf-policy.ts`, the rules of a replacement, and `wallets/btc-rbf.ts`, the speed-up of a
transaction that the wallet sent. Amounts, sizes and rates are exact numbers. What the explorers answer,
the wallet's keys, the library's signing and the broadcast are the world's.
-/

namespace Btc

open Wire

def BTC_RBF_SEQUENCE : Nat := 0xfffffffd
def MAX_BIP125_RBF_SEQUENCE : Nat := 0xfffffffd
def INCREMENTAL_RELAY_SAT_PER_VB : Nat := 1
def BTC_DUST_SAT : Nat := 546

/-! ## The rules -/

def signalsRbf (sequences : List Nat) : Bool := sequences.any (· ≤ MAX_BIP125_RBF_SEQUENCE)

inductive BtcSpendKind where
  | p2wpkh | p2sh_p2wpkh | p2pkh
deriving DecidableEq, Repr

def MAX_SIGNATURE_BYTES : Nat := 72
def COMPRESSED_PUBKEY_BYTES : Nat := 33
def P2SH_P2WPKH_SCRIPTSIG_BYTES : Nat := 23

namespace BtcSpendKind

def scriptSig : BtcSpendKind → Nat
  | p2wpkh => 0
  | p2sh_p2wpkh => P2SH_P2WPKH_SCRIPTSIG_BYTES
  | p2pkh => 1 + MAX_SIGNATURE_BYTES + 1 + COMPRESSED_PUBKEY_BYTES

def base (kind : BtcSpendKind) : Nat := 32 + 4 + varintBytes kind.scriptSig + kind.scriptSig + 4

def segwit (kind : BtcSpendKind) : Bool := kind != p2pkh

/-- One byte for an empty stack. -/
def witness (kind : BtcSpendKind) : Nat :=
  if kind = p2pkh then 1 else 1 + 1 + MAX_SIGNATURE_BYTES + 1 + COMPRESSED_PUBKEY_BYTES

end BtcSpendKind

def signedVsizeUpperBound (inputs : List BtcSpendKind) (outputScriptLengths : List Nat) : Nat :=
  let base := 4 + varintBytes inputs.length + varintBytes outputScriptLengths.length + 4 +
    (inputs.map BtcSpendKind.base).sum + (outputScriptLengths.map fun len => 8 + varintBytes len + len).sum
  let witness := (inputs.map BtcSpendKind.witness).sum
  let weight := base * 4 + if inputs.any BtcSpendKind.segwit then 2 + witness else 0
  (weight + 3) / 4

def minimumReplacementFeeSat (originalFeeSat originalVsize replacementVsize : Nat) : Nat :=
  let byRelay := originalFeeSat + INCREMENTAL_RELAY_SAT_PER_VB * replacementVsize
  let byRate := originalFeeSat * replacementVsize / originalVsize + 1
  max byRelay byRate

structure SignedSizes where
  originalFeeSat : Nat
  originalVsize : Nat
  replacementFeeSat : Nat
  replacementVsize : Nat

def replacementRuleViolation (a : SignedSizes) : Option String :=
  let relay := INCREMENTAL_RELAY_SAT_PER_VB * a.replacementVsize
  if ¬ a.originalFeeSat < a.replacementFeeSat then
    some (s!"pays {a.replacementFeeSat} sat, not more than the original's {a.originalFeeSat} sat " ++
      "(BIP125 rule 3)")
  else if a.replacementFeeSat - a.originalFeeSat < relay then
    some (s!"adds {a.replacementFeeSat - a.originalFeeSat} sat, less than the {relay} sat its own " ++
      s!"{a.replacementVsize} vB must pay to be relayed (BIP125 rule 4)")
  else if a.replacementFeeSat * a.originalVsize ≤ a.originalFeeSat * a.replacementVsize then
    some "pays a fee rate no higher than the original's (BIP125 rule 6)"
  else none

structure BtcFeeBumpPlan where
  minimumFeeSat : Nat
  newFeeSat : Nat
  extraFeeSat : Nat
  newChangeSat : Int
  atMinimum : Bool
deriving DecidableEq, Repr

inductive BtcFeeBumpResult where
  | ok (plan : BtcFeeBumpPlan)
  | dust (minimumFeeSat newFeeSat extraFeeSat changeSat : Nat)
deriving DecidableEq, Repr

/-- `Math.ceil(Number((rate * vsize).toFixed(6)))` -/
def feeAt (rate : Rat) (vsize : Nat) : Nat :=
  let micros : Int := ⌊rate * vsize * 1000000 + 1 / 2⌋
  ⌈(micros : Rat) / 1000000⌉.toNat

structure BumpArgs where
  originalFeeSat : Nat
  originalVsize : Nat
  replacementVsize : Nat
  changeValueSat : Nat
  /-- finite, if it is there -/
  targetRate : Option Rat
  dustSat : Nat

def isSafeInteger (n : Nat) : Bool := n < 2 ^ 53

/-- The first number that no plan is made with. -/
def BumpArgs.unusable (a : BumpArgs) : Option (String × Nat) :=
  [("originalFeeSat", a.originalFeeSat), ("originalVsize", a.originalVsize),
    ("replacementVsize", a.replacementVsize), ("changeValueSat", a.changeValueSat)].find? fun kv =>
      !isSafeInteger kv.2 || ((kv.1 == "originalVsize" || kv.1 == "replacementVsize") && kv.2 == 0)

def BumpArgs.targetFee (a : BumpArgs) : Nat :=
  match a.targetRate with
  | some rate => if 0 < rate then feeAt rate a.replacementVsize else 0
  | none => 0

def planBtcFeeBump (a : BumpArgs) : Except String BtcFeeBumpResult :=
  match a.unusable with
  | some (k, v) => .error s!"Cannot plan a fee bump: {k} is {v}. Nothing was sent."
  | none =>
    let minimumFeeSat := minimumReplacementFeeSat a.originalFeeSat a.originalVsize a.replacementVsize
    let newFeeSat := max minimumFeeSat a.targetFee
    let extraFeeSat := newFeeSat - a.originalFeeSat
    let newChangeSat : Int := a.changeValueSat - extraFeeSat
    if newChangeSat ≤ a.dustSat then .ok (.dust minimumFeeSat newFeeSat extraFeeSat a.changeValueSat)
    else .ok (.ok ⟨minimumFeeSat, newFeeSat, extraFeeSat, newChangeSat, a.targetFee ≤ minimumFeeSat⟩)

/-! ## What the network has -/

structure EsploraVin where
  txid : Option (List Char) := none
  vout : Option Rat := none
  /-- the script's bytes (`none` for a string that is not hex) and the value -/
  prevout : Option (Option Bytes × Rat) := none

structure EsploraTxJson where
  vin : List EsploraVin
  fee : Option Rat
  confirmed : Bool

structure Prevout where
  script : Bytes
  valueSat : Nat
  address : Option String
deriving DecidableEq, Repr

structure BtcTxOnChain where
  txid : String
  tx : Transaction
  prevouts : List Prevout
  confirmed : Bool
  feeSat : Nat
  vsize : Nat
deriving DecidableEq, Repr

structure OwnBtcKey where
  address : String
  scriptType : BtcSpendKind
  /-- 0 receive, 1 change; none for a single private key -/
  chainIndex : Option Nat
deriving DecidableEq, Repr

inductive BtcSpeedUpRefusalCode where
  | replaced | not_found | confirmed | not_rbf | not_own_tx | not_own_inputs | descendants | no_change
  | ambiguous_change | dust | busy
deriving DecidableEq, Repr

/-- Why a speed-up ended without a result. -/
inductive Stop where
  | refusal (code : BtcSpeedUpRefusalCode) (message : String)
  | error (message : String)
deriving DecidableEq, Repr

/-- What the psbt is built from. -/
structure Unsigned where
  version : Nat
  locktime : Nat
  coins : List (Bytes × Nat × Nat × String)
  outputs : List TxOut

structure World where
  normTxid : String → Except String String
  txidOfInput : Bytes → List Char
  lower : List Char → List Char
  addressOf : Bytes → Option String
  txReplacementOf : String → Option String
  /-- `none` where no explorer knows the transaction -/
  txJson : String → Except String (Option EsploraTxJson)
  fetchRawBtcTx : String → Except String (Option Transaction)
  /-- `none` where the answer is no list; per output, who spends it -/
  outspends : String → Except String (Option (List (Option String)))
  isOwnBtcTx : String → Except String Bool
  findOwnBtcKeys : List String → Except String (String → Option OwnBtcKey)
  /-- the previous transactions of legacy inputs, the signatures and their assembly -/
  signed : Unsigned → Except String Transaction
  broadcastBtc : Transaction → Except String String

namespace World

variable (w : World)

/-- What the explorer says input `i` spends. -/
def readPrevout (id : String) (i : Nat) (input : TxIn) (v : EsploraVin) : Except String Prevout :=
  if w.lower (v.txid.getD []) ≠ w.txidOfInput input.hash ∨ v.vout ≠ some (input.index : Rat) then
    .error s!"The explorer's input {i} of {id} is not the transaction's own."
  else
    match v.prevout with
    | none => .error s!"The explorer does not say what input {i} of {id} spends."
    | some (script, value) =>
      if value.den ≠ 1 ∨ value.num < 0 ∨ ¬ isSafeInteger value.num.toNat then
        .error s!"The explorer does not say what input {i} of {id} spends."
      else
        match script with
        | none => .error "not hex"
        | some script => .ok ⟨script, value.num.toNat, w.addressOf script⟩

def readPrevouts (id : String) : Nat → List TxIn → List EsploraVin → Except String (List Prevout)
  | i, input :: ins, v :: vin =>
    (w.readPrevout id i input v).bind fun p => (readPrevouts id (i + 1) ins vin).map (p :: ·)
  | _, _, _ => .ok []

/-- The fee is what the inputs have more than the outputs. -/
def viewOf (id : String) (json : EsploraTxJson) (tx : Transaction) : Except String BtcTxOnChain :=
  if json.vin.length ≠ tx.ins.length then
    .error s!"The explorer lists {json.vin.length} inputs for {id}; the transaction has {tx.ins.length}."
  else
    (w.readPrevouts id 0 tx.ins json.vin).bind fun prevouts =>
      let inSum := (prevouts.map Prevout.valueSat).sum
      let feeSat := inSum - tx.outSum
      if inSum < tx.outSum ∨ ¬ isSafeInteger feeSat then
        .error s!"The inputs the explorer lists for {id} do not cover its outputs."
      else if json.fee.any (· ≠ (feeSat : Rat)) then
        .error (s!"The explorer's fee for {id} is not what its inputs and outputs add up to " ++
          s!"({feeSat} sat).")
      else .ok ⟨id, tx, prevouts, json.confirmed, feeSat, tx.virtualSize⟩

def readBtcTx (txid : String) : Except String (Option BtcTxOnChain) :=
  (w.normTxid txid).bind fun id =>
    (w.txJson id).bind fun
      | none => .ok none
      | some json =>
        (w.fetchRawBtcTx id).bind fun
          | none => .ok none
          | some tx => (w.viewOf id json tx).map some

/-- The outputs that are spent already, and by what. -/
def readSpentOutputs (txid : String) (outputs : Nat) : Except String (List (Nat × String)) :=
  (w.outspends txid).bind fun
    | none => .error s!"The outspends of {txid} are no list."
    | some list =>
      if list.length ≠ outputs then
        .error s!"The explorer's outspends for {txid} do not cover its {outputs} outputs."
      else .ok (list.zipIdx.filterMap fun e => e.1.map fun byTx => (e.2, byTx))

end World

/-! ## Planning -/

structure Output where
  vout : Nat
  address : Option String
  valueSat : Nat
deriving DecidableEq, Repr

def noChange : Stop :=
  .refusal .no_change ("This transaction has no change output to take a higher fee from. Speeding it up would " ++
    "need another of your coins added as an input, which this wallet does not do yet.")

/-- Only an output that the wallet owns; of several, the one on a change chain. -/
def pickChange (outputs : List Output) (own : String → Option OwnBtcKey) : Except Stop Output :=
  if outputs.length < 2 then .error noChange
  else
    match outputs.filter fun o => (o.address.bind own).isSome with
    | [] => .error noChange
    | [o] => .ok o
    | mine =>
      match mine.filter fun o => (o.address.bind own).any fun key => key.chainIndex == some 1 with
      | [o] => .ok o
      | _ =>
        .error (.refusal .ambiguous_change ("Every output of this transaction is one of your addresses, so it " ++
          "cannot be told which one is the payment and which the change. Nothing was changed."))

structure Change where
  vout : Nat
  address : Option String
  beforeSat : Nat
  afterSat : Int
deriving DecidableEq, Repr

structure BtcSpeedUpQuote where
  txid : String
  originalFeeSat : Nat
  originalVsize : Nat
  currentRate : Rat
  replacementVsize : Nat
  minimumFeeSat : Nat
  minimumRate : Rat
  targetRate : Option Rat
  newFeeSat : Nat
  newRate : Rat
  extraFeeSat : Nat
  atMinimum : Bool
  change : Change
  recipients : List Output
deriving DecidableEq, Repr

structure Prepared where
  view : BtcTxOnChain
  keys : String → Option OwnBtcKey
  quote : BtcSpeedUpQuote

structure SpeedUpArgs where
  txid : String
  /-- finite, if it is there -/
  targetRate : Option Rat
  expectFeeSat : Rat

/-- `(sat / 1e8).toFixed(8)` -/
def btc (sat : Rat) : String :=
  let n := ⌊|sat| + 1 / 2⌋.natAbs
  let digits := toString (n % 100000000)
  (if sat < 0 then "-" else "") ++ toString (n / 100000000) ++ "." ++ "".pushn '0' (8 - digits.length) ++ digits

def quoteOf (view : BtcTxOnChain) (outputs : List Output) (change : Output) (replacementVsize : Nat)
    (targetRate : Option Rat) (p : BtcFeeBumpPlan) : BtcSpeedUpQuote where
  txid := view.txid
  originalFeeSat := view.feeSat
  originalVsize := view.vsize
  currentRate := (view.feeSat : Rat) / view.vsize
  replacementVsize := replacementVsize
  minimumFeeSat := p.minimumFeeSat
  minimumRate := (p.minimumFeeSat : Rat) / replacementVsize
  targetRate := targetRate
  newFeeSat := p.newFeeSat
  newRate := (p.newFeeSat : Rat) / replacementVsize
  extraFeeSat := p.extraFeeSat
  atMinimum := p.atMinimum
  change := ⟨change.vout, change.address, change.valueSat, p.newChangeSat⟩
  recipients := outputs.filter fun o => o.vout != change.vout

namespace World

variable (w : World)

/-- The part of `prepare` that prices the replacement. -/
def price (view : BtcTxOnChain) (keys : String → Option OwnBtcKey) (kinds : List BtcSpendKind)
    (targetRate : Option Rat) : Except Stop Prepared :=
  let outputs := view.tx.outs.zipIdx.map fun o => ⟨o.2, w.addressOf o.1.script, o.1.value⟩
  (pickChange outputs keys).bind fun change =>
    let replacementVsize := signedVsizeUpperBound kinds (view.tx.outs.map fun o => o.script.length)
    let targetRate := targetRate.filter (0 < ·)
    match planBtcFeeBump ⟨view.feeSat, view.vsize, replacementVsize, change.valueSat, targetRate, BTC_DUST_SAT⟩ with
    | .error e => .error (.error e)
    | .ok (.dust _ _ extraFeeSat _) =>
      .error (.refusal .dust (s!"Your change of {btc change.valueSat} BTC cannot pay the extra {btc extraFeeSat} " ++
        s!"BTC this needs and stay above the dust limit ({BTC_DUST_SAT} sat). Speeding it up would need " ++
        "another of your coins added as an input, which this wallet does not do yet."))
    | .ok (.ok p) => .ok ⟨view, keys, quoteOf view outputs change replacementVsize targetRate p⟩

/-- The inputs' kinds, if each is the wallet's own. -/
def kindsOf (keys : String → Option OwnBtcKey) (prevouts : List Prevout) : Option (List BtcSpendKind) :=
  prevouts.mapM fun p => (p.address.bind keys).map OwnBtcKey.scriptType

/-- The checks of `prepare` behind the reading. -/
def examine (args : SpeedUpArgs) (view : BtcTxOnChain) : Except Stop Prepared :=
  if view.confirmed then .error (.refusal .confirmed "It is confirmed already: there is nothing to speed up.")
  else if ¬ signalsRbf (view.tx.ins.map TxIn.sequence) then
    .error (.refusal .not_rbf ("It was sent without replace-by-fee (every send before 2026-10-01 was), so it cannot " ++
      "be re-sent with a higher fee. It confirms when a miner includes it."))
  else
    ((w.isOwnBtcTx view.txid).mapError .error).bind fun own =>
      if ¬ own then
        .error (.refusal .not_own_tx ("This app did not send it, so it does not offer to replace it: the swap node " ++
          "can spend the same keys, and replacing one of its transactions could break a swap."))
      else
        let addresses := view.prevouts.map Prevout.address ++ view.tx.outs.map fun o => w.addressOf o.script
        ((w.findOwnBtcKeys (addresses.filterMap id)).mapError .error).bind fun keys =>
          match kindsOf keys view.prevouts with
          | none =>
            .error (.refusal .not_own_inputs
              "Not every coin it spends is this wallet's, so the wallet cannot sign a replacement.")
          | some kinds =>
            ((w.readSpentOutputs view.txid view.tx.outs.length).mapError .error).bind fun
              | (vout, byTx) :: _ =>
                .error (.refusal .descendants (s!"Output {vout} of it is already spent by {byTx}. Replacing it " ++
                  "would cancel that transaction too, so the wallet will not."))
              | [] => w.price view keys kinds args.targetRate

def prepare (args : SpeedUpArgs) : Except Stop Prepared :=
  match w.txReplacementOf args.txid with
  | some earlier =>
    .error (.refusal .replaced s!"It was replaced already, by {earlier}. Open that transaction to speed it up again.")
  | none =>
    ((w.readBtcTx args.txid).mapError .error).bind fun
      | none =>
        .error (.refusal .not_found
          "The network does not show this transaction: it may have been dropped, or replaced already.")
      | some view => w.examine args view

def quoteBtcSpeedUp (args : SpeedUpArgs) : Except Stop BtcSpeedUpQuote := (w.prepare args).map Prepared.quote

/-! ## Building, checking, sending -/

def buildReplacement (p : Prepared) : Except String Transaction :=
  w.signed {
    version := p.view.tx.version
    locktime := p.view.tx.locktime
    coins := List.zipWith (fun i v => (i.hash, i.index, v.valueSat, v.address.getD "")) p.view.tx.ins p.view.prevouts
    outputs := p.view.tx.outs.zipIdx.map fun o =>
      if o.2 = p.quote.change.vout then { o.1 with value := p.quote.change.afterSat.toNat } else o.1 }

def checkInputs : Nat → List TxIn → List TxIn → Except String Unit
  | i, input :: ins, a :: as =>
    if w.txidOfInput input.hash ≠ w.txidOfInput a.hash ∨ input.index ≠ a.index then
      .error s!"spends a different coin as input {i}"
    else if input.sequence ≠ BTC_RBF_SEQUENCE then .error s!"input {i} does not signal replace-by-fee"
    else checkInputs (i + 1) ins as
  | _, _, _ => .ok ()

def checkOutputs (change : Change) : Nat → List TxOut → List TxOut → Except String Unit
  | vout, o :: outs, a :: as =>
    let want : Int := if vout = change.vout then change.afterSat else a.value
    if o.script ≠ a.script then .error s!"pays output {vout} to another script"
    else if (o.value : Int) ≠ want then .error s!"pays output {vout} {o.value} sat, not {want}"
    else checkOutputs change (vout + 1) outs as
  | _, _, _ => .ok ()

/-- The amounts and sizes of a replacement whose inputs and outputs are right. -/
def checkFee (originalFeeSat originalVsize originalOutSum : Nat) (replacement : Transaction) (quote : BtcSpeedUpQuote) :
    Except String Unit :=
  let feeSat : Int := originalFeeSat + (originalOutSum - replacement.outSum)
  let vsize := replacement.virtualSize
  if feeSat ≠ quote.newFeeSat then .error s!"pays {feeSat} sat in fees, not the {quote.newFeeSat} shown"
  else if vsize > quote.replacementVsize then
    .error s!"is {vsize} vB, more than the {quote.replacementVsize} it was priced at"
  else
    match replacementRuleViolation ⟨originalFeeSat, originalVsize, feeSat.toNat, vsize⟩ with
    | some broken => .error broken
    | none => .ok ()

/-- The errors without their frame, `The replacement … Nothing was sent.` -/
def assertReplacementOf (original : BtcTxOnChain) (replacement : Transaction) (quote : BtcSpeedUpQuote) :
    Except String Unit :=
  let a := original.tx
  if replacement.ins.length ≠ a.ins.length then .error "does not spend the same inputs"
  else
    (w.checkInputs 0 replacement.ins a.ins).bind fun _ =>
      if replacement.outs.length ≠ a.outs.length then .error "does not have the same outputs"
      else
        (checkOutputs quote.change 0 replacement.outs a.outs).bind fun _ =>
          checkFee original.feeSat original.vsize a.outSum replacement quote

/-- What a speed-up hands to the network, what it records, and how it ends. -/
structure Outcome where
  sent : List Transaction
  recorded : Option (String × String)
  result : Except Stop String

def Outcome.unsent (stop : Stop) : Outcome := ⟨[], none, .error stop⟩

/-- The signed replacement's way: checked once, sent once. -/
def send (p : Prepared) (tx : Transaction) : Outcome :=
  match w.assertReplacementOf p.view tx p.quote with
  | .error why => .unsent (.error s!"The replacement {why}. Nothing was sent.")
  | .ok () =>
    match w.broadcastBtc tx with
    | .error e => ⟨[tx], none, .error (.error e)⟩
    | .ok hash => ⟨[tx], some (p.view.txid, hash), .ok hash⟩

def speedUpBtcTransaction (inFlight : List String) (args : SpeedUpArgs) : Outcome :=
  match w.normTxid args.txid with
  | .error e => .unsent (.error e)
  | .ok id =>
    if id ∈ inFlight then .unsent (.refusal .busy "This transaction is already being sped up.")
    else
      match w.prepare args with
      | .error stop => .unsent stop
      | .ok p =>
        if (p.quote.newFeeSat : Rat) ≠ args.expectFeeSat then
          .unsent (.error (s!"The speed-up's fee is now {btc p.quote.newFeeSat} BTC, not the " ++
            s!"{btc args.expectFeeSat} BTC shown. Review it again. Nothing was sent."))
        else
          match w.buildReplacement p with
          | .error e => .unsent (.error e)
          | .ok tx => w.send p tx

end World

end Btc
