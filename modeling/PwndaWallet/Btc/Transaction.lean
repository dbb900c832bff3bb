import PwndaWallet.Lib.Rlp

/-!
# Bitcoin transactions

What the program takes of the library's transactions: their parts, and their virtual size by BIP141. A
signature is a DER pair, `s` the lower of its two values, and a byte for the hash type.
-/

namespace Btc

open Wire

structure TxIn where
  hash : Bytes
  index : Nat
  sequence : Nat
  script : Bytes := []
  witness : List Bytes := []
deriving DecidableEq, Repr

structure TxOut where
  script : Bytes
  value : Nat
deriving DecidableEq, Repr

structure Transaction where
  version : Nat
  ins : List TxIn
  outs : List TxOut
  locktime : Nat
deriving DecidableEq, Repr

/-! ## Sizes -/

def varintBytes (n : Nat) : Nat :=
  if n < 0xfd then 1 else if n ≤ 0xffff then 3 else if n ≤ 0xffffffff then 5 else 9

theorem varintBytes_mono {m n : Nat} (h : m ≤ n) : varintBytes m ≤ varintBytes n := by
  unfold varintBytes
  by_cases hn : n < 0xfd
  · simp [hn, Nat.lt_of_le_of_lt h hn]
  · by_cases hn' : n ≤ 0xffff
    · simp only [hn, hn', if_true, if_false, Nat.le_trans h hn']
      split <;> omega
    · simp only [hn, hn', if_false]
      (repeat' split) <;> omega

/-- Bytes behind their length. -/
def varSlice (b : Bytes) : Nat := varintBytes b.length + b.length

theorem varSlice_le {b : Bytes} {n : Nat} (h : b.length ≤ n) : varSlice b ≤ varintBytes n + n := by
  have hcount := varintBytes_mono h
  rw [varSlice]
  omega

namespace TxIn

def baseSize (i : TxIn) : Nat := 32 + 4 + varSlice i.script + 4

def witnessSize (i : TxIn) : Nat := varintBytes i.witness.length + (i.witness.map varSlice).sum

end TxIn

namespace Transaction

variable (tx : Transaction)

def hasWitnesses : Bool := tx.ins.any fun i => i.witness != []

def baseSize : Nat :=
  4 + varintBytes tx.ins.length + varintBytes tx.outs.length + 4 + (tx.ins.map TxIn.baseSize).sum +
    (tx.outs.map fun o => 8 + varSlice o.script).sum

def weight : Nat := 4 * tx.baseSize + if tx.hasWitnesses then 2 + (tx.ins.map TxIn.witnessSize).sum else 0

/-- A quarter of the weight, rounded up. -/
def virtualSize : Nat := (tx.weight + 3) / 4

def outSum : Nat := (tx.outs.map TxOut.value).sum

theorem virtualSize_pos : 0 < tx.virtualSize := by
  have hbase : 0 < tx.baseSize := by
    unfold baseSize
    omega
  unfold virtualSize weight
  omega

end Transaction

/-! ## Signatures -/

/-- A positive integer of DER: no sign bit, so a zero before a high first byte. -/
def derInt (x : Nat) : Bytes :=
  let bytes := Rlp.scalar x
  if 0x80 ≤ (bytes.headD 0).toNat then 0 :: bytes else bytes

def derSequence (r s : Nat) : Bytes :=
  let body := 0x02 :: UInt8.ofNat (derInt r).length :: derInt r ++ 0x02 :: UInt8.ofNat (derInt s).length :: derInt s
  0x30 :: UInt8.ofNat body.length :: body

/-- A signature as it is pushed. -/
def IsSignature (sig : Bytes) : Prop :=
  ∃ r s hashType, r < 2 ^ 256 ∧ s < 2 ^ 255 ∧ sig = derSequence r s ++ [hashType]

theorem head_be (w n : Nat) : ((be (w + 1) n).headD 0).toNat = n / 256 ^ w % 256 := by
  induction w generalizing n with
  | zero => simp [be, le]
  | succ w ih =>
    have hhead : (be (w + 1 + 1) n).headD 0 = (be (w + 1) (n / 256)).headD 0 := by
      rw [be, le, List.reverse_cons, ← be]
      cases hbe : be (w + 1) (n / 256) with
      | nil => simp [be, le] at hbe
      | cons b bs => rfl
    rw [hhead, ih, Nat.div_div_eq_div_mul, Nat.pow_succ, Nat.mul_comm 256]

theorem length_derInt {x k : Nat} (h : x < 2 ^ (8 * k + 7)) : (derInt x).length ≤ k + 1 := by
  have hcount : Rlp.byteCount x ≤ k + 1 := by
    apply Rlp.byteCount_le_of_lt
    have hpow : 2 ^ (8 * k + 7) ≤ 2 ^ (8 * (k + 1)) := Nat.pow_le_pow_right (by decide) (by omega)
    rw [Nat.pow_mul 2 8] at hpow
    exact Nat.lt_of_lt_of_le h hpow
  have hlen : (Rlp.scalar x).length = Rlp.byteCount x := length_be _ _
  unfold derInt
  by_cases hhigh : 0x80 ≤ ((Rlp.scalar x).headD 0).toNat
  · rw [if_pos hhigh, List.length_cons, hlen]
    by_contra hlong
    have hfull : Rlp.byteCount x = k + 1 := by omega
    rw [Rlp.scalar, hfull, head_be] at hhigh
    have hdiv : x / 256 ^ k < 0x80 := by
      apply Nat.div_lt_of_lt_mul
      have hpow : 256 ^ k * 0x80 = 2 ^ (8 * k + 7) := by
        rw [show (256 : Nat) = 2 ^ 8 by decide, show (0x80 : Nat) = 2 ^ 7 by decide, ← Nat.pow_mul, ← Nat.pow_add]
      omega
    have hmod := Nat.mod_le (x / 256 ^ k) 256
    omega
  · rw [if_neg hhigh, hlen]
    exact hcount

/-- 71 bytes and the hash type. -/
theorem IsSignature.length_le {sig : Bytes} (h : IsSignature sig) : sig.length ≤ 72 := by
  obtain ⟨r, s, hashType, hr, hs, rfl⟩ := h
  have hrlen : (derInt r).length ≤ 33 := by
    apply length_derInt
    exact Nat.lt_of_lt_of_le hr (Nat.pow_le_pow_right (by decide) (by omega))
  have hslen : (derInt s).length ≤ 32 := length_derInt hs
  simp only [derSequence, List.length_append, List.length_cons, List.length_nil]
  omega

end Btc
