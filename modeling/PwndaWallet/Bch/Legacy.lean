import PwndaWallet.Btc.Transaction
import PwndaWallet.Lib.Wire

/-!
# The network's side

What a node of Bitcoin Cash makes of the bytes of a transaction: the legacy format, and what an input's signature
signs by the replay-protected digest algorithm. Stated from the format and the algorithm, not from the wallet.
-/

namespace Bch

open Wire Reader Btc

/-! ## The format -/

def readTxIn : Reader TxIn := do
  let hash ← take 32
  let index ← leNum 4
  let script ← CompactSize.readBytes
  let sequence ← leNum 4
  return { hash, index, sequence, script }

def readTxOut : Reader TxOut := do
  let value ← leNum 8
  let script ← CompactSize.readBytes
  return { script, value }

def readTransaction : Reader Transaction := do
  let version ← leNum 4
  let ins ← CompactSize.readList readTxIn
  let outs ← CompactSize.readList readTxOut
  let locktime ← leNum 4
  return { version, ins, outs, locktime }

/-! ## The digest -/

/-- SHA-256 applied twice, and RIPEMD-160 of SHA-256. -/
structure Hashes where
  dsha256 : Bytes → Bytes
  length_dsha256 (b : Bytes) : (dsha256 b).length = 32
  hash160 : Bytes → Bytes
  length_hash160 (b : Bytes) : (hash160 b).length = 20

def writeOutpoint (i : TxIn) : Bytes := i.hash ++ le 4 i.index

def writeTxOut (o : TxOut) : Bytes := le 8 o.value ++ CompactSize.writeBytes o.script

def zeroHash : Bytes := List.replicate 32 0

section

variable (h : Hashes) (tx : Transaction) (hashType : Nat)

def anyoneCanPay : Bool := hashType &&& 0x80 != 0
def signsNone : Bool := hashType &&& 0x1f == 2
def signsSingle : Bool := hashType &&& 0x1f == 3

def hashPrevouts : Bytes :=
  if anyoneCanPay hashType then zeroHash else h.dsha256 (tx.ins.flatMap writeOutpoint)

def hashSequence : Bytes :=
  if anyoneCanPay hashType || signsNone hashType || signsSingle hashType then zeroHash
  else h.dsha256 (tx.ins.flatMap fun i => le 4 i.sequence)

def hashOutputs (i : Nat) : Bytes :=
  if signsNone hashType then zeroHash
  else if signsSingle hashType then (tx.outs[i]?).elim zeroHash fun o => h.dsha256 (writeTxOut o)
  else h.dsha256 (tx.outs.flatMap writeTxOut)

/-- What the signature of input `i` signs; `coin` is the output that the input spends. -/
def digestInput (i : Nat) (coin : TxOut) : Option Bytes :=
  (tx.ins[i]?).map fun input =>
    le 4 tx.version ++ hashPrevouts h tx hashType ++ hashSequence h tx hashType ++ writeOutpoint input ++
      CompactSize.writeBytes coin.script ++ le 8 coin.value ++ le 4 input.sequence ++ hashOutputs h tx hashType i ++
      le 4 tx.locktime ++ le 4 hashType

end

end Bch
