import PwndaWallet.Evm.SignedTx

/-!
# Signing an EVM transaction

`swap/evm.rs`: the RLP encoder, and `sign_tx` with its two kinds of transactions. The payload that is hashed and the
transaction that is sent are two streams. Keccak and secp256k1 are parameters; 64-bit sums wrap as in a release
build.
-/

namespace Evm

open Wire

/-! ## What is given -/

inductive EvmError where
  | badKey | badAddress | badFeeFields
deriving DecidableEq, Repr

def EvmError.message : EvmError → String
  | badKey => "invalid secret key"
  | badAddress => "invalid address (must be 20 bytes hex)"
  | badFeeFields =>
    "incompatible fee fields — provide either gasPrice (legacy) or maxFeePerGas+maxPriorityFeePerGas (1559)"

/-- A `u128`. -/
abbrev HexOrInt := BitVec 128

/-- A `Vec<u8>`, which is shorter than `isize::MAX`. -/
structure HexBytes where
  bytes : Bytes
  short : bytes.length < 2 ^ 63

/-- `recipient` is `to`. -/
structure UnsignedEvmTx where
  chainId : UInt64
  nonce : HexOrInt
  recipient : String
  value : HexOrInt
  data : HexBytes
  gas : HexOrInt
  gasPrice : Option HexOrInt
  maxFeePerGas : Option HexOrInt
  maxPriorityFeePerGas : Option HexOrInt

/-- A digit of `hex::decode`. -/
def hexValue (c : Char) : Option Nat :=
  let n := c.toNat
  if 0x30 ≤ n ∧ n ≤ 0x39 then some (n - 0x30)
  else if 0x41 ≤ n ∧ n ≤ 0x46 then some (n - 0x41 + 10)
  else if 0x61 ≤ n ∧ n ≤ 0x66 then some (n - 0x61 + 10)
  else none

/-- `hex::decode` -/
def hexDecode : List Char → Option Bytes
  | [] => some []
  | [_] => none
  | a :: b :: s =>
    match hexValue a, hexValue b with
    | some x, some y => (hexDecode s).map (UInt8.ofNat (16 * x + y) :: ·)
    | _, _ => none

/-- `s.strip_prefix("0x").unwrap_or(s)` -/
def stripHexPrefix : List Char → List Char
  | '0' :: 'x' :: s => s
  | s => s

/-- The source counts bytes; a body that is not ASCII is refused by the one check or the other. -/
def parseAddress (s : String) : Except EvmError Bytes :=
  let body := stripHexPrefix s.toList
  if body.length ≠ 40 then .error .badAddress
  else
    match hexDecode body with
    | none => .error .badAddress
    | some bytes => .ok bytes

/-! ## RLP -/

/-- `bytes.iter().position(|b| *b != 0)` -/
def firstNonZero (bytes : Bytes) : Option Nat := bytes.findIdx? (· != 0)

def beMin (v : Nat) : Bytes :=
  if v = 0 then []
  else
    let bytes := be 16 v
    bytes.drop ((firstNonZero bytes).getD (bytes.length - 1))

/-- The bytes of a length, without leading zeros. -/
def lenBytes (len : Nat) : Bytes :=
  let lenBe := be 8 len
  lenBe.drop ((firstNonZero lenBe).getD 0)

/-- What is appended to `out`. -/
def rlpBytes (b : Bytes) : Bytes :=
  if b.length = 1 ∧ (b.headD 0).toNat < 0x80 then [b.headD 0]
  else if b.length ≤ 55 then UInt8.ofNat (0x80 + b.length) :: b
  else UInt8.ofNat (0xb7 + (lenBytes b.length).length) :: lenBytes b.length ++ b

def rlpInt (v : Nat) : Bytes := rlpBytes (beMin v)

def rlpListPayload (payload : Bytes) : Bytes :=
  if payload.length ≤ 55 then UInt8.ofNat (0xc0 + payload.length) :: payload
  else UInt8.ofNat (0xf7 + (lenBytes payload.length).length) :: lenBytes payload.length ++ payload

def stripLeadingZeros (b : Bytes) : Bytes := b.drop ((firstNonZero b).getD b.length)

/-! ## Signing -/

/-- A recoverable signature: the parity of its point and two numbers of 32 bytes. The two other recovery ids need a
point whose coordinate is not below the order of the group. -/
structure Recoverable where
  recId : Nat
  recId_le : recId ≤ 1
  ser : Bytes
  length_ser : ser.length = 64

/-- Keccak-256 and secp256k1. -/
structure EvmCrypto where
  keccak : Bytes → Bytes
  secretKey : Bytes → Bool
  sign : Bytes → Bytes → Recoverable

section

variable (c : EvmCrypto)

/-- `SecretKey::from_slice` and `sign_ecdsa_recoverable` -/
def signHash (hash secret : Bytes) : Except EvmError Recoverable :=
  if c.secretKey secret then .ok (c.sign hash secret) else .error .badKey

/-- What is hashed for a legacy transaction. -/
def legacyPreimage (tx : UnsignedEvmTx) (addr : Bytes) (gp : HexOrInt) : Bytes :=
  rlpListPayload (rlpInt tx.nonce.toNat ++ rlpInt gp.toNat ++ rlpInt tx.gas.toNat ++ rlpBytes addr ++
    rlpInt tx.value.toNat ++ rlpBytes tx.data.bytes ++ rlpInt tx.chainId.toNat ++ rlpInt 0 ++ rlpInt 0)

def signLegacy (tx : UnsignedEvmTx) (addr : Bytes) (gp : HexOrInt) (secret : Bytes) : Except EvmError Bytes :=
  (signHash c (c.keccak (legacyPreimage tx addr gp)) secret).map fun sig =>
    let recInt := UInt64.ofNat sig.recId
    let v : UInt64 := tx.chainId * 2 + 35 + recInt
    let r := stripLeadingZeros (sig.ser.take 32)
    let s := stripLeadingZeros (sig.ser.drop 32)
    rlpListPayload (rlpInt tx.nonce.toNat ++ rlpInt gp.toNat ++ rlpInt tx.gas.toNat ++ rlpBytes addr ++
      rlpInt tx.value.toNat ++ rlpBytes tx.data.bytes ++ rlpInt v.toNat ++ rlpBytes r ++ rlpBytes s)

/-- What is hashed for a fee-market transaction. -/
def feeMarketPreimage (tx : UnsignedEvmTx) (addr : Bytes) (mp mf : HexOrInt) : Bytes :=
  0x02 :: rlpListPayload (rlpInt tx.chainId.toNat ++ rlpInt tx.nonce.toNat ++ rlpInt mp.toNat ++ rlpInt mf.toNat ++
    rlpInt tx.gas.toNat ++ rlpBytes addr ++ rlpInt tx.value.toNat ++ rlpBytes tx.data.bytes ++ rlpListPayload [])

def signEip1559 (tx : UnsignedEvmTx) (addr : Bytes) (mp mf : HexOrInt) (secret : Bytes) : Except EvmError Bytes :=
  (signHash c (c.keccak (feeMarketPreimage tx addr mp mf)) secret).map fun sig =>
    let yParity := UInt8.ofNat sig.recId
    let r := stripLeadingZeros (sig.ser.take 32)
    let s := stripLeadingZeros (sig.ser.drop 32)
    0x02 :: rlpListPayload (rlpInt tx.chainId.toNat ++ rlpInt tx.nonce.toNat ++ rlpInt mp.toNat ++ rlpInt mf.toNat ++
      rlpInt tx.gas.toNat ++ rlpBytes addr ++ rlpInt tx.value.toNat ++ rlpBytes tx.data.bytes ++ rlpListPayload [] ++
      rlpInt yParity.toNat ++ rlpBytes r ++ rlpBytes s)

def signTx (tx : UnsignedEvmTx) (secret : Bytes) : Except EvmError String :=
  (parseAddress tx.recipient).bind fun addr =>
    let raw :=
      match tx.maxFeePerGas, tx.maxPriorityFeePerGas, tx.gasPrice with
      | some mf, some mp, _ => signEip1559 c tx addr mp mf secret
      | _, _, some gp => signLegacy c tx addr gp secret
      | _, _, none => .error .badFeeFields
    raw.map fun raw => String.ofList ('0' :: 'x' :: bytesToHex raw)

end

end Evm
