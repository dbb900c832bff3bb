import PwndaWallet.Cardano.Cbor
import PwndaWallet.Lib.Climb
import PwndaWallet.Lib.Js
import PwndaWallet.Utxo.History

/-!
# An ADA transfer

`wallets/cardano-tx.ts`: the body, its fee, the choice of inputs and the signed transaction. The hash of an
outpoint is held as its bytes, lovelace of an output as a bigint; what the node answers (parameters, tip,
outputs of the address) and the address codec are arguments.
-/

namespace Cardano

open Wire

def MIN_UTXO_VALUE : Int := 1000000

def TTL_OFFSET_SLOTS : Nat := 7200

/-- Lovelace as ADA with all six decimals. -/
def adaText (lovelace : Int) : String :=
  let l := lovelace.natAbs
  (if lovelace < 0 then "-" else "") ++ toString (l / 1000000) ++ "." ++
    String.ofList (Js.padZero 6 (Nat.toDigits 10 (l % 1000000)))

structure KoiosAsset where
  policy_id : String
  asset_name : String
  quantity : String
deriving DecidableEq, Repr

structure KoiosUtxo where
  tx_hash : Bytes
  tx_index : Nat
  value : Nat
  asset_list : Option (List KoiosAsset) := none
deriving DecidableEq, Repr

/-! ## The body -/

structure TxOutput where
  addressBytes : Bytes
  coin : Int
deriving DecidableEq, Repr

structure TxBodyInputs where
  inputs : List KoiosUtxo
  outputs : List TxOutput
  fee : Nat
  ttl : Nat

def inputCbor (u : KoiosUtxo) : CborValue := .array [.bytes u.tx_hash, .uint u.tx_index]

/-- The legacy form of an output. -/
def outputCbor (o : TxOutput) : CborValue := .array [.bytes o.addressBytes, .uint o.coin]

def buildTxBody (b : TxBodyInputs) : CborValue :=
  .map [
    (.uint 0, .array (b.inputs.map inputCbor)),
    (.uint 1, .array (b.outputs.map outputCbor)),
    (.uint 2, .uint b.fee),
    (.uint 3, .uint b.ttl)]

def buildWitnessSet (vkeys : List (Bytes × Bytes)) : CborValue :=
  .map [(.uint 0, .array (vkeys.map fun v => .array [.bytes v.1, .bytes v.2]))]

/-! ## The fee -/

/-- A one-key witness set and the outer wrapper, rounded up. -/
def WITNESS_BYTES : Nat := 110

/-- The bytes of one value's head at most. -/
theorem length_writeHead_le (mt : Nat) (v : Int) : (writeHead mt v).length ≤ 9 := by
  rw [writeHead]
  split_ifs <;> simp

theorem length_array_le (values : List CborValue) :
    (writeValue (.array values)).length ≤ 9 + (writeValues values).length := by
  have hhead := length_writeHead_le MT_ARRAY values.length
  rw [writeValue, List.length_append]
  omega

/-- Outputs for a fee, within some number of bytes whatever the fee is. -/
structure OutputsFor where
  outputs : Nat → List TxOutput
  room : Nat
  length_le : ∀ fee, (writeValue (.array ((outputs fee).map outputCbor))).length ≤ room

theorem length_body (b : TxBodyInputs) : (encodeCbor (buildTxBody b)).length =
    5 + (writeValue (.array (b.inputs.map inputCbor))).length + (writeValue (.array (b.outputs.map outputCbor))).length +
      (writeHead MT_UINT b.fee).length + (writeHead MT_UINT b.ttl).length := by
  simp only [encodeCbor, buildTxBody, writeValue, writeEntries, List.length_append, List.length_nil]
  simp [writeHead]
  omega

/-- The smallest fee that the ledger takes for a body of this length. -/
def requiredFee (minA minB length : Nat) : Nat := (length + WITNESS_BYTES) * minA + minB

/-- What the loop requires once the fee is written into the body. -/
def feeRequirement (inputs : List KoiosUtxo) (outputsFor : OutputsFor) (ttl minA minB : Nat) :
    Climb.Requirement where
  need fee := requiredFee minA minB (encodeCbor (buildTxBody ⟨inputs, outputsFor.outputs fee, fee, ttl⟩)).length
  bound := requiredFee minA minB
    (5 + (writeValue (.array (inputs.map inputCbor))).length + outputsFor.room + 9 + (writeHead MT_UINT ttl).length)
  need_le fee := by
    have hout := outputsFor.length_le fee
    have hfee := length_writeHead_le MT_UINT fee
    rw [requiredFee, requiredFee, length_body]
    refine Nat.add_le_add_right (Nat.mul_le_mul_right _ ?_) _
    simp only
    omega

structure Settled where
  fee : Nat
  body : Bytes
  outputs : List TxOutput

def settleFee (inputs : List KoiosUtxo) (outputsFor : OutputsFor) (ttl minA minB : Nat) : Settled :=
  let fee := (feeRequirement inputs outputsFor ttl minA minB).settle minB
  let outputs := outputsFor.outputs fee
  ⟨fee, encodeCbor (buildTxBody ⟨inputs, outputs, fee, ttl⟩), outputs⟩

/-! ## The plan -/

def assetFree (u : KoiosUtxo) : Bool := (u.asset_list.getD []).isEmpty

def spendableLargestFirst (utxos : List KoiosUtxo) : List KoiosUtxo :=
  Js.sort (fun a b => b.value ≤ a.value) (utxos.filter assetFree)

structure Plan where
  inputs : List KoiosUtxo
  outputs : List TxOutput
  fee : Nat
  body : Bytes
deriving DecidableEq, Repr

/-- The arguments of one planning that stay the same. -/
structure Transfer where
  toBytes : Bytes
  fromBytes : Bytes
  ttl : Nat
  minA : Nat
  minB : Nat

def outputRoom (addressBytes : Bytes) : Nat := 27 + addressBytes.length

theorem length_output_le (o : TxOutput) : (writeValue (outputCbor o)).length ≤ outputRoom o.addressBytes := by
  have harray := length_array_le [.bytes o.addressBytes, .uint o.coin]
  have haddress := length_writeHead_le MT_BYTES o.addressBytes.length
  have hcoin := length_writeHead_le MT_UINT o.coin
  simp only [writeValue, writeValues, List.length_append, List.length_nil] at harray
  rw [outputCbor, outputRoom, writeValue]
  simp only [writeValue, writeValues, List.length_append, List.length_nil]
  omega

namespace Transfer

variable (t : Transfer)

def exactOutputs (send : Int) : OutputsFor where
  outputs _ := [⟨t.toBytes, send⟩]
  room := 9 + outputRoom t.toBytes
  length_le _ := by
    have harray := length_array_le [outputCbor ⟨t.toBytes, send⟩]
    have hto : _ ≤ outputRoom t.toBytes := length_output_le ⟨t.toBytes, send⟩
    rw [writeValues, writeValues, List.length_append, List.length_nil] at harray
    rw [List.map_singleton]
    omega

def withChangeOutputs (send total : Int) : OutputsFor where
  outputs fee :=
    let change := total - send - fee
    [⟨t.toBytes, send⟩, ⟨t.fromBytes, if change > 0 then change else 0⟩]
  room := 9 + outputRoom t.toBytes + outputRoom t.fromBytes
  length_le fee := by
    let change : TxOutput := ⟨t.fromBytes, if total - send - fee > 0 then total - send - fee else 0⟩
    have harray := length_array_le [outputCbor ⟨t.toBytes, send⟩, outputCbor change]
    have hto : _ ≤ outputRoom t.toBytes := length_output_le ⟨t.toBytes, send⟩
    have hfrom : _ ≤ outputRoom t.fromBytes := length_output_le change
    rw [writeValues, writeValues, writeValues, List.length_append, List.length_append, List.length_nil] at harray
    refine Nat.le_trans harray ?_
    omega

def exactFor (inputs : List KoiosUtxo) (send : Int) : Settled :=
  settleFee inputs (t.exactOutputs send) t.ttl t.minA t.minB

def withChangeFor (inputs : List KoiosUtxo) (send total : Int) : Settled :=
  settleFee inputs (t.withChangeOutputs send total) t.ttl t.minA t.minB

/-- What the search remembers of the inputs it took last. -/
structure Short where
  total : Int
  rest : Int
  exactFee : Nat

/-- One input more, the largest of those left, until a plan fits. -/
def search (amount : Int) (taken : List KoiosUtxo) (s : Short) : List KoiosUtxo → Except Short Plan
  | [] => .error s
  | u :: left =>
    let inputs := taken ++ [u]
    let total := s.total + u.value
    let withChange := t.withChangeFor inputs amount total
    if total - amount - withChange.fee ≥ MIN_UTXO_VALUE then
      .ok ⟨inputs, withChange.outputs, withChange.fee, withChange.body⟩
    else
      let exact := t.exactFor inputs amount
      let rest := total - amount - exact.fee
      if rest = 0 then .ok ⟨inputs, exact.outputs, exact.fee, exact.body⟩
      else search amount inputs ⟨total, rest, exact.fee⟩ left

/-- `for (let i = 0; i < 4; i++)` with its `break`. -/
def settleAmount (next : Int → Int) : Nat → Int → Int
  | 0, amount => amount
  | n + 1, amount => if next amount = amount then amount else settleAmount next n (next amount)

/-- The same, given up at 0. -/
def settlePositive (next : Int → Int) : Nat → Int → Int
  | 0, amount => amount
  | n + 1, amount =>
    if amount > 0 then if next amount = amount then amount else settlePositive next n (next amount) else amount

/-- Everything: the amount that leaves nothing. -/
def sendAll (sorted : List KoiosUtxo) (s : Short) : Int :=
  settleAmount (fun amount => s.total - (t.exactFor sorted amount).fee) 4 (s.total - s.exactFee)

/-- The most that leaves a change output of the minimum. -/
def keep (sorted : List KoiosUtxo) (amount : Int) (s : Short) : Int :=
  let next := fun amount => s.total - (t.withChangeFor sorted amount s.total).fee - MIN_UTXO_VALUE
  settlePositive next 4 (next amount)

end Transfer

inductive Refusal
  | tokensOnly
  | insufficient (total amount : Int) (exactFee : Nat) (assetOnly : Bool)
  | dust (amount rest sendAll allFee keep : Int)
deriving DecidableEq, Repr

def Refusal.text : Refusal → String
  | .tokensOnly =>
    "All of this address's ADA is held together with tokens, which this wallet cannot send yet. Nothing was sent."
  | .insufficient total amount exactFee assetOnly =>
    "Insufficient funds: this address can send " ++ adaText total ++ " ADA, and this transfer needs " ++
      adaText (amount + exactFee) ++ " ADA including the " ++ adaText exactFee ++ " ADA network fee." ++
      if assetOnly then " (ADA held together with tokens cannot be sent from this wallet yet.)" else ""
  | .dust amount rest sendAll allFee keep =>
    "Sending " ++ adaText amount ++ " ADA would leave " ++ adaText rest ++ " ADA of change. A Cardano output " ++
      "must hold at least " ++ adaText MIN_UTXO_VALUE ++ " ADA, so that change could only be added to the " ++
      "network fee — and lost. Send " ++ adaText sendAll ++ " ADA instead (all of it, after the " ++
      adaText allFee ++ " ADA fee)" ++
      if keep ≥ MIN_UTXO_VALUE then ", or at most " ++ adaText keep ++ " ADA to keep change." else "."

def planTransfer (utxos : List KoiosUtxo) (amount : Int) (t : Transfer) : Except Refusal Plan :=
  let sorted := spendableLargestFirst utxos
  match t.search amount [] ⟨0, -1, 0⟩ sorted with
  | .ok plan => .ok plan
  | .error s =>
    if sorted.length = 0 then .error .tokensOnly
    else if s.rest < 0 then .error (.insufficient s.total amount s.exactFee (utxos.length > sorted.length))
    else
      let all := t.sendAll sorted s
      .error (.dust amount s.rest all (s.total - all) (t.keep sorted amount s))

/-! ## Addresses -/

def KEY_PAYMENT_TYPES : List Nat := [0, 2, 4, 6]
def SCRIPT_PAYMENT_TYPES : List Nat := [1, 3, 5, 7]
def NETWORK_MAINNET : Nat := 1

/-- One variable-length natural off the front: at most ten bytes, the last without its high bit. -/
def pointerNatural : Nat → Bytes → Option Bytes
  | 0, _ => none
  | _, [] => none
  | n + 1, b :: bs => if b.toNat &&& 0x80 = 0 then some bs else pointerNatural n bs

/-- Three variable-length naturals, nothing after. -/
def isPointerTail (b : Bytes) : Bool :=
  ((pointerNatural 10 b).bind fun b => (pointerNatural 10 b).bind fun b => pointerNatural 10 b) == some []

/-- What a bech32 text holds: the part before the separator and the bytes of its words. -/
structure Bech32 where
  hrp : String
  bytes : Bytes

/-- `bytes[0] >> 4`, or -1. -/
def headerType (bytes : Bytes) : Option Nat := bytes.head?.map fun b => b.toNat >>> 4

def network (bytes : Bytes) : Option Nat := bytes.head?.map fun b => b.toNat &&& 0x0f

def isKeyPayment (bytes : Bytes) : Bool := (headerType bytes).any (KEY_PAYMENT_TYPES.contains ·)

def lengthOk (bytes : Bytes) : Bool :=
  if headerType bytes = some 0 ∨ headerType bytes = some 2 then bytes.length = 57
  else if headerType bytes = some 6 then bytes.length = 29
  else if headerType bytes = some 4 then bytes.length > 29 && isPointerTail (bytes.drop 29)
  else false

/-- `/^(Ae2|DdzFF)[1-9A-HJ-NP-Za-km-z]+$/` -/
def isByron (a : List Char) : Bool :=
  let base58 := fun (rest : List Char) => rest ≠ [] && rest.all fun c =>
    c.isAlphanum && c ≠ '0' && c ≠ 'I' && c ≠ 'O' && c ≠ 'l'
  ("Ae2".toList.isPrefixOf a && base58 (a.drop 3)) || ("DdzFF".toList.isPrefixOf a && base58 (a.drop 5))

/-- `bech32` decodes with its checksum, up to 1023 characters. -/
def recipientAddressBytes (bech32 : String → Option Bech32) (address : String) : Except String Bytes :=
  let a := String.ofList (Js.trim address.toList)
  if isByron a.toList then
    .error ("\"" ++ a ++ "\" is a Byron-era Cardano address. This wallet sends only to Shelley addresses " ++
      "(addr1…) — ask the recipient for one; every current Cardano wallet shows it.")
  else match bech32 a with
  | none => .error ("\"" ++ a ++ "\" is not a Cardano address (expected addr1…).")
  | some decoded =>
    if decoded.hrp = "addr_test" then
      .error ("\"" ++ a ++ "\" is a Cardano TESTNET address. This wallet sends on mainnet only.")
    else if decoded.hrp = "stake" ∨ decoded.hrp = "stake_test" then
      .error ("\"" ++ a ++ "\" is a stake (reward) address. It cannot receive a payment — use the recipient's " ++
        "addr1… address.")
    else if decoded.hrp ≠ "addr" then .error ("\"" ++ a ++ "\" is not a Cardano address (expected addr1…).")
    else if (headerType decoded.bytes).any (SCRIPT_PAYMENT_TYPES.contains ·) then
      .error ("\"" ++ a ++ "\" is a Cardano script address — a smart contract or a multi-signature wallet. ADA " ++
        "sent to one without the datum its contract expects can be locked there for good, so this " ++
        "wallet does not send to script addresses. Send from the app that uses the contract.")
    else if isKeyPayment decoded.bytes = false ∨ network decoded.bytes ≠ some NETWORK_MAINNET ∨
        lengthOk decoded.bytes = false then
      .error ("\"" ++ a ++ "\" is not a valid Cardano payment address.")
    else .ok decoded.bytes

/-! ## The signed transaction -/

/-- A key of ed25519, as either of the two signers holds it. -/
structure CardanoSigner where
  publicKey : Bytes
  sign : Bytes → Bytes
  length_publicKey : publicKey.length = 32
  length_sign : ∀ message, (sign message).length = 64

structure BuiltTxResult where
  txCborBytes : Bytes
  txHash : Bytes
  feeLovelace : Nat
  ttl : Nat

/-- `assertSignerControls`: the key's hash is the payment credential of the address. -/
def signerControls (blake2b : Nat → Bytes → Bytes) (fromBytes : Bytes) (signer : CardanoSigner) : Bool :=
  let credential := blake2b 28 signer.publicKey
  isKeyPayment fromBytes && decide (29 ≤ fromBytes.length) && credential.isPrefixOf (fromBytes.drop 1)

/-- The end of `buildAndSignTx`: the body is signed by its hash and decoded again into the transaction. -/
def signPlan (blake2b : Nat → Bytes → Bytes) (signer : CardanoSigner) (ttl : Nat) (plan : Plan) :
    Option BuiltTxResult := do
  let bodyHash := blake2b 32 plan.body
  let witnessSet := buildWitnessSet [(signer.publicKey, signer.sign bodyHash)]
  let body ← decodeBodyForReuse plan.body
  return ⟨encodeCbor (.array [body, witnessSet, .bool true, .null]), bodyHash, plan.fee, ttl⟩

structure BuildTxArgs where
  fromAddress : String
  toAddress : String
  amountAda : Option String := none
  amountLovelace : Option Int := none
  signer : CardanoSigner

/-- The libraries, and what Koios answers. -/
structure Koios where
  bech32 : String → Option Bech32
  blake2b : Nat → Bytes → Bytes
  epochParams : Except String (Nat × Nat)
  tipSlot : Except String Nat
  addressUtxos : String → Except String (List KoiosUtxo)

def requestedLovelace (args : BuildTxArgs) : Except String Int :=
  match args.amountLovelace, args.amountAda.filter (· ≠ "") with
  | some lovelace, _ => .ok lovelace
  | none, some ada => match Utxo.decimalToAtomic ada 6 with
    | some lovelace => .ok lovelace
    | none => .error "Invalid ADA amount"
  | none, none => .error "Cardano amount missing — provide amountAda (decimal) or amountLovelace (atomic)."

def decodeAddressBytes (bech32 : String → Option Bech32) (address : String) : Except String Bytes :=
  match bech32 address with
  | some decoded => .ok decoded.bytes
  | none => .error "Invalid address"

def buildAndSignTx (env : Koios) (args : BuildTxArgs) : Except String BuiltTxResult := do
  let amountLovelace ← requestedLovelace args
  if amountLovelace < MIN_UTXO_VALUE then
    throw "Cardano output minimum is 1000000 lovelace (1 ADA). Send at least that much."
  else
    let toBytes ← recipientAddressBytes env.bech32 args.toAddress
    let fromBytes ← decodeAddressBytes env.bech32 args.fromAddress
    if signerControls env.blake2b fromBytes args.signer = false then
      throw ("Refusing to sign: this key does not control " ++ String.ofList (args.fromAddress.toList.take 20) ++
        "…, the address the transfer would spend from. Nothing was sent.")
    else
      let params ← env.epochParams
      let tipSlot ← env.tipSlot
      let utxos ← env.addressUtxos args.fromAddress
      if utxos = [] then throw "Source address has no UTXOs to spend"
      else
        let ttl := tipSlot + TTL_OFFSET_SLOTS
        let plan ← (planTransfer utxos amountLovelace ⟨toBytes, fromBytes, ttl, params.1, params.2⟩).mapError (·.text)
        match signPlan env.blake2b args.signer ttl plan with
        | some built => return built
        | none => throw "Unsupported CBOR at body re-decode"

end Cardano
