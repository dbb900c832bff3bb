import PwndaWallet.Bch.Transaction

/-!
# The Bitcoin Cash signer of the swap module

`swap/btc.rs` and `swap/derive.rs`: the same digest and the same address, in the machine integers of Rust. The
derivation of keys, the hashes and secp256k1 are parameters, shared with the model of `bch-wallet.ts`.
-/

namespace Bch.Signer

open Wire

/-! ## Transactions -/

/-- The bytes of a hash in the order of the wire. -/
abbrev Txid := { b : Bytes // b.length = 32 }

structure OutPoint where
  txid : Txid
  vout : UInt32
deriving DecidableEq

structure TxIn where
  previousOutput : OutPoint
  sequence : UInt32
deriving DecidableEq

structure TxOut where
  value : UInt64
  scriptPubkey : Bytes
deriving DecidableEq

structure Transaction where
  version : Int32
  lockTime : UInt32
  input : List TxIn
  output : List TxOut
deriving DecidableEq

/-! ## The preimage -/

def BCH_SIGHASH_TYPE : UInt32 := 0x41
def BCH_FORK_ID : UInt32 := 0

def compactSize (n : UInt64) : Bytes :=
  if n < 0xfd then [n.toUInt8]
  else if n ≤ 0xffff then 0xfd :: le 2 n.toUInt16.toNat
  else if n ≤ 0xffffffff then 0xfe :: le 4 n.toUInt32.toNat
  else 0xff :: le 8 n.toNat

def TxIn.outpointBytes (inp : TxIn) : Bytes := inp.previousOutput.txid.1 ++ le 4 inp.previousOutput.vout.toNat

def TxIn.sequenceBytes (inp : TxIn) : Bytes := le 4 inp.sequence.toNat

def TxOut.serialized (out : TxOut) : Bytes :=
  le 8 out.value.toNat ++ compactSize (UInt64.ofNat out.scriptPubkey.length) ++ out.scriptPubkey

/-- `none` where the index is out of bounds. -/
def bchForkidPreimage (h : Hashes) (unsignedTx : Transaction) (inputIdx : Nat) (scriptCode : Bytes)
    (amountSat : UInt64) : Option Bytes :=
  let hashPrevouts := h.dsha256 (unsignedTx.input.flatMap TxIn.outpointBytes)
  let hashSequence := h.dsha256 (unsignedTx.input.flatMap TxIn.sequenceBytes)
  let hashOutputs := h.dsha256 (unsignedTx.output.flatMap TxOut.serialized)
  let sighashWithFork := (BCH_FORK_ID <<< 8) ||| BCH_SIGHASH_TYPE
  (unsignedTx.input[inputIdx]?).map fun inp =>
    le 4 unsignedTx.version.toUInt32.toNat ++ hashPrevouts ++ hashSequence ++ inp.outpointBytes ++
      compactSize (UInt64.ofNat scriptCode.length) ++ scriptCode ++ le 8 amountSat.toNat ++ inp.sequenceBytes ++
      hashOutputs ++ le 4 unsignedTx.lockTime.toNat ++ le 4 sighashWithFork.toNat

/-! ## Addresses -/

/-- `while bits >= to_bits`; each turn takes `to_bits` bits, so `bits` turns are enough. -/
def takeBits (toBits : Nat) (acc : UInt32) : Nat → Nat → List UInt8 × Nat
  | 0, bits => ([], bits)
  | n + 1, bits =>
    if bits ≥ toBits then
      let maxv := (1 <<< UInt32.ofNat toBits) - 1
      let r := takeBits toBits acc n (bits - toBits)
      ((acc >>> UInt32.ofNat (bits - toBits) &&& maxv).toUInt8 :: r.1, r.2)
    else ([], bits)

/-- What the bytes from here on push, the accumulator and its bits. -/
def pushBits (fromBits toBits : Nat) : UInt32 → Nat → List UInt8 → List UInt8 × UInt32 × Nat
  | acc, bits, [] => ([], acc, bits)
  | acc, bits, v :: data =>
    let acc := acc <<< UInt32.ofNat fromBits ||| v.toUInt32
    let taken := takeBits toBits acc (bits + fromBits) (bits + fromBits)
    let r := pushBits fromBits toBits acc taken.2 data
    (taken.1 ++ r.1, r.2)

def convertBits (data : List UInt8) (fromBits toBits : Nat) (pad : Bool) : List UInt8 :=
  let maxv := (1 <<< UInt32.ofNat toBits) - 1
  let r := pushBits fromBits toBits 0 0 data
  if pad ∧ r.2.2 > 0 then r.1 ++ [(r.2.1 <<< UInt32.ofNat (toBits - r.2.2) &&& maxv).toUInt8] else r.1

def generators : List UInt64 := [0x98f2bc8e61, 0x79b76d99e2, 0xf33e5fb3c4, 0xae2eabe2a8, 0x1e4f43e470]

/-- `if (c0 >> i) & 1 == 1 { c ^= generators[i] }`, for each `i` from `i` on. -/
def addGenerators (c0 : UInt8) : Nat → List UInt64 → UInt64 → UInt64
  | _, [], c => c
  | i, g :: gs, c => addGenerators c0 (i + 1) gs (if (c0 >>> UInt8.ofNat i) &&& 1 = 1 then c ^^^ g else c)

def polymodTurn (c : UInt64) (v : UInt8) : UInt64 :=
  addGenerators (c >>> 35).toUInt8 0 generators (((c &&& 0x07ffffffff) <<< 5) ^^^ v.toUInt64)

def polymodCashaddr (values : List UInt8) : UInt64 := values.foldl polymodTurn 1 ^^^ 1

def buildCashaddrChecksumInput (pre : String) (payload5 : List UInt8) : List UInt8 :=
  (pre.toList.flatMap String.utf8EncodeChar).map (· &&& 0x1f) ++ 0 :: payload5 ++ List.replicate 8 0

def cashaddrP2pkhAddress (pre : String) (h160 : Bytes) : String :=
  let versionByte : UInt8 := 0x00
  let payload5 := convertBits (versionByte :: h160) 8 5 true
  let checksum := polymodCashaddr (buildCashaddrChecksumInput pre payload5)
  let checksumBytes := (List.range 8).map fun i => ((checksum >>> UInt64.ofNat (5 * (7 - i))) &&& 0x1f).toUInt8
  let charset := "qpzry9x8gf2tvdw0s3jn54khce6mua7l".toList
  pre ++ ":" ++ String.ofList ((payload5 ++ checksumBytes).map fun b => charset.getD b.toNat ' ')

/-! ## Keys -/

inductive BtcError where
  | unsupported
  | bip32 (e : String)
  | sign (e : String)
  | badPsbt (e : String)
  | missingPrevTx
deriving DecidableEq, Repr

def ADDR_GAP : Nat := 50

def purpose : Nat := 44
def slip44 : Nat := 145

section

variable (h : Hashes) (curve : Secp)

/-- The nodes of a seed's tree, by their paths. -/
abbrev Tree := String → Except String (HdNode curve)

/-- The wallet of `bch-wallet.ts` over the same tree. -/
def walletOf (tree : Tree curve) : Utxo.HdWallet (HdNode curve) where
  child := fun accountPath chainIndex index => tree (Utxo.childPath accountPath chainIndex index)

/-- `utxo_address` of Bitcoin Cash; `none` where the derivation fails. -/
def utxoAddress (tree : Tree curve) (account index : Nat) : Option String :=
  (tree s!"m/{purpose}'/{slip44}'/{account}'/0/{index}").toOption.bind fun node =>
    (curve.pointFromScalar node.privateKey).map fun pk => cashaddrP2pkhAddress "bitcoincash" (h.hash160 pk)

/-- The locking script, the secret key and the public key. -/
abbrev Derivation := Bytes × Bytes × Bytes

def derivationAt (tree : Tree curve) (change idx : Nat) : Except BtcError Derivation :=
  match tree s!"m/{purpose}'/{slip44}'/0'/{change}/{idx}" with
  | .error e => .error (.bip32 e)
  | .ok child => .ok (scriptP2PKH (h.hash160 child.publicKey), child.privateKey, child.publicKey)

/-- The places of the table, in the order of the two loops. -/
def places : List (Nat × Nat) := [0, 1].flatMap fun change => (List.range ADDR_GAP).map fun idx => (change, idx)

def derivationsAt (tree : Tree curve) : List (Nat × Nat) → Except BtcError (List Derivation)
  | [] => .ok []
  | p :: ps =>
    (derivationAt h curve tree p.1 p.2).bind fun d => (derivationsAt tree ps).map (d :: ·)

def derivations (tree : Tree curve) : Except BtcError (List Derivation) := derivationsAt h curve tree places

/-! ## Signing -/

def isP2pkh (script : Bytes) : Bool :=
  script.length == 25 && script.take 3 == [0x76, 0xa9, 0x14] && script.drop 23 == [0x88, 0xac]

def pushSlice (data : Bytes) : Bytes :=
  let n := data.length
  if n < 76 then UInt8.ofNat n :: data
  else if n < 0x100 then 0x4c :: UInt8.ofNat n :: data
  else if n < 0x10000 then 0x4d :: le 2 n ++ data
  else 0x4e :: le 4 n ++ data

def buildP2pkhScriptsig (sigWithType pubkeyBytes : Bytes) : Except BtcError Bytes :=
  if sigWithType.length ≥ 2 ^ 32 then .error (.sign "signature length out of push range")
  else if pubkeyBytes.length ≥ 2 ^ 32 then .error (.sign "pubkey length out of push range")
  else .ok (pushSlice sigWithType ++ pushSlice pubkeyBytes)

/-- An input with the transaction that the PSBT gives for it. -/
structure PsbtInput where
  nonWitnessUtxo : Option Transaction

structure Psbt where
  unsignedTx : Transaction
  inputs : List PsbtInput

/-- The output that input `i` spends, as the PSBT tells it. -/
def prevOut (psbt : Psbt) (i : Nat) : Except BtcError TxOut :=
  match psbt.inputs[i]?.bind PsbtInput.nonWitnessUtxo, psbt.unsignedTx.input[i]? with
  | some prevTx, some inp =>
    match prevTx.output[inp.previousOutput.vout.toNat]? with
    | some out => .ok out
    | none => .error (.badPsbt s!"input {i} prev_vout out of range")
  | _, _ => .error .missingPrevTx

/-- `sign_input_p2pkh_forkid`: the `final_script_sig`, or none where no key matches. -/
def signInputP2pkhForkid (psbt : Psbt) (i : Nat) (table : List Derivation) : Except BtcError (Option Bytes) :=
  (prevOut psbt i).bind fun coin =>
    if !isP2pkh coin.scriptPubkey then .error .unsupported
    else
      match table.find? (·.1 == coin.scriptPubkey), bchForkidPreimage h psbt.unsignedTx i coin.scriptPubkey coin.value with
      | some (_, sk, pk), some preimage =>
        match curve.sign (h.dsha256 preimage) sk with
        | .error e => .error (.sign e)
        | .ok der => (buildP2pkhScriptsig (der ++ [(BCH_SIGHASH_TYPE &&& 0xff).toUInt8]) pk).map some
      | _, _ => .ok none

end

end Bch.Signer
