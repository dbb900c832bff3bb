import Mathlib.Data.List.TakeWhile
import PwndaWallet.Evm.Signer
import PwndaWallet.Evm.SignedTxSound

/-!
# What is signed is what is sent

The two streams of the signer are canonical RLP, and so are told apart by their fields. The payload that a node
rebuilds from the transaction is the one that was hashed, as long as `v` did not wrap.
-/

namespace Evm

open Wire Rlp

/-! ## The encoder -/

theorem drop_firstNonZero {bs : Bytes} {d : Nat} (hd : firstNonZero bs = none → bs.length ≤ d) :
    bs.drop ((firstNonZero bs).getD d) = scalar (beValue bs) := by
  rw [← dropWhile_zeros]
  induction bs generalizing d with
  | nil => simp [firstNonZero]
  | cons b bs ih =>
    by_cases hb : b = 0
    · subst hb
      rw [List.dropWhile_cons_of_pos rfl, ← @ih (d - 1)]
      · rw [firstNonZero, List.findIdx?_cons, if_neg (by decide), firstNonZero]
        cases hfind : bs.findIdx? (· != 0) with
        | none =>
          have hlong := hd (by rw [firstNonZero, List.findIdx?_cons, if_neg (by decide), hfind]; rfl)
          rw [List.length_cons] at hlong
          rw [Option.map_none, Option.getD_none, Option.getD_none, List.drop_eq_nil_of_le (by simpa using hlong),
            List.drop_eq_nil_of_le (by omega)]
        | some i => rfl
      · intro hnone
        have hlong := hd (by
          rw [firstNonZero] at hnone
          rw [firstNonZero, List.findIdx?_cons, if_neg (by decide), hnone]
          rfl)
        rw [List.length_cons] at hlong
        omega
    · rw [List.dropWhile_cons_of_neg (by simpa using hb), firstNonZero, List.findIdx?_cons, if_pos (by simpa using hb)]
      rfl

theorem firstNonZero_of_pos {bs : Bytes} (h : 0 < beValue bs) : firstNonZero bs ≠ none := by
  intro hnone
  have hzero : bs.dropWhile (· == 0) = [] := by
    rw [firstNonZero, List.findIdx?_eq_none_iff] at hnone
    rw [List.dropWhile_eq_nil_iff]
    intro b hb
    simpa using hnone b hb
  rw [dropWhile_zeros] at hzero
  have hval := beValue_scalar (beValue bs)
  rw [hzero] at hval
  rw [← hval] at h
  exact absurd h (by decide)

theorem drop_be {w v d : Nat} (hpos : 0 < v) (hv : v < 256 ^ w) :
    (be w v).drop ((firstNonZero (be w v)).getD d) = scalar v := by
  have hval : beValue (be w v) = v := by rw [beValue_be, Nat.mod_eq_of_lt hv]
  rw [drop_firstNonZero, hval]
  intro hnone
  exact absurd hnone (firstNonZero_of_pos (by rwa [hval]))

theorem beMin_eq {v : Nat} (hv : v < 2 ^ 128) : beMin v = scalar v := by
  rw [beMin]
  by_cases hzero : v = 0
  · rw [if_pos hzero, hzero]
    rfl
  · rw [if_neg hzero]
    exact drop_be (Nat.pos_of_ne_zero hzero) (by simpa using hv)

theorem lenBytes_eq {n : Nat} (hpos : 0 < n) (hn : n < 2 ^ 64) : lenBytes n = scalar n :=
  drop_be hpos (by simpa using hn)

theorem stripLeadingZeros_eq (b : Bytes) : stripLeadingZeros b = scalar (beValue b) :=
  drop_firstNonZero fun _ => Nat.le_refl _

theorem head_eq {base n : Nat} (hn : n < 2 ^ 64) : head base n =
    if n ≤ 55 then [UInt8.ofNat (base + n)] else UInt8.ofNat (base + 55 + (lenBytes n).length) :: lenBytes n := by
  rw [head]
  by_cases hsmall : n ≤ 55
  · rw [if_pos hsmall, if_pos (by omega)]
  · rw [if_neg hsmall, if_neg (by omega), lenBytes_eq (by omega) hn, scalar, length_be]

theorem rlpBytes_eq {b : Bytes} (hb : b.length < 2 ^ 64) : rlpBytes b = Rlp.encode (.bytes b) := by
  rw [rlpBytes, encode_bytes]
  by_cases hone : b.length = 1 ∧ (b.headD 0).toNat < 0x80
  · rw [if_pos hone, if_pos hone]
    obtain ⟨x, rfl⟩ := List.length_eq_one_iff.1 hone.1
    rfl
  · rw [if_neg hone, if_neg hone, head_eq hb]
    by_cases hsmall : b.length ≤ 55
    · rw [if_pos hsmall, if_pos hsmall]
      rfl
    · rw [if_neg hsmall, if_neg hsmall]

theorem rlpInt_eq {v : Nat} (hv : v < 2 ^ 128) : rlpInt v = Rlp.encode (SignedTx.num v) := by
  have hlen : (scalar v).length < 2 ^ 64 := by
    have hcount : byteCount v ≤ 16 := byteCount_le_of_lt (by simpa using hv)
    rw [scalar, length_be]
    omega
  rw [rlpInt, beMin_eq hv, rlpBytes_eq hlen, SignedTx.num]

theorem rlpListPayload_eq {l : List Item} (hl : (encodeAll l).length < 2 ^ 64) :
    rlpListPayload (encodeAll l) = Rlp.encode (.list l) := by
  rw [rlpListPayload, Rlp.encode, head_eq hl]
  by_cases hsmall : (encodeAll l).length ≤ 55
  · rw [if_pos hsmall, if_pos hsmall]
    rfl
  · rw [if_neg hsmall, if_neg hsmall]

/-! ## Lengths -/

theorem length_head_le {base n : Nat} (hn : n < 2 ^ 64) : (head base n).length ≤ 9 := by
  have hcount := byteCount_le hn
  unfold head
  split
  · simp
  · rw [List.length_cons, scalar, length_be]
    omega

theorem length_encode_bytes_le {b : Bytes} (hb : b.length < 2 ^ 64) : (Rlp.encode (.bytes b)).length ≤ b.length + 9 := by
  have hhead := @length_head_le 0x80 _ hb
  rw [encode_bytes]
  split
  · omega
  · rw [List.length_append]
    omega

theorem length_num_le {v k : Nat} (hk : k ≤ 32) (hv : v < 256 ^ k) : (Rlp.encode (SignedTx.num v)).length ≤ 41 := by
  have hcount : byteCount v ≤ k := byteCount_le_of_lt hv
  have hlen : (scalar v).length = byteCount v := length_be _ _
  have hbytes := @length_encode_bytes_le (scalar v) (by omega)
  rw [SignedTx.num]
  omega

/-! ## The transactions -/

def sigR (sig : Recoverable) : Nat := beValue (sig.ser.take 32)
def sigS (sig : Recoverable) : Nat := beValue (sig.ser.drop 32)

section

variable (tx : UnsignedEvmTx) (addr : Address) (sig : Recoverable)

/-- The legacy transaction with these fields and this `v`. -/
def legacyTx (gp : HexOrInt) (v : Nat) : SignedTx :=
  .legacy tx.nonce.toNat gp.toNat tx.gas.toNat (some addr) tx.value.toNat tx.data.bytes v (sigR sig) (sigS sig)

def feeMarketTx (mp mf : HexOrInt) : SignedTx :=
  .dynamicFee tx.chainId.toNat tx.nonce.toNat mp.toNat mf.toNat tx.gas.toNat (some addr) tx.value.toNat tx.data.bytes []
    sig.recId (sigR sig) (sigS sig)

end

/-- What a signature signs, of a transaction that has one: EIP-155 and, before it, the six fields alone; EIP-1559. -/
def SignedTx.signingPayload : SignedTx → Option Bytes
  | .legacy nonce gasPrice gasLimit recipient value data v _ _ =>
    let six := [num nonce, num gasPrice, num gasLimit, recipientItem recipient, num value, .bytes data]
    if 35 ≤ v then some (Rlp.encode (.list (six ++ [num ((v - 35) / 2), num 0, num 0])))
    else some (Rlp.encode (.list six))
  | .dynamicFee chainId nonce maxPriorityFee maxFee gasLimit recipient value data entries _ _ _ =>
    some (0x02 :: Rlp.encode (.list [num chainId, num nonce, num maxPriorityFee, num maxFee, num gasLimit,
      recipientItem recipient, num value, .bytes data, .list (entries.map entryItem)]))
  | _ => none

section

variable {tx : UnsignedEvmTx} {addr : Address} {sig : Recoverable}

theorem sig_lt (sig : Recoverable) : sigR sig < 256 ^ 32 ∧ sigS sig < 256 ^ 32 := by
  have hlen := sig.length_ser
  have hr := beValue_lt (sig.ser.take 32)
  have hs := beValue_lt (sig.ser.drop 32)
  rw [List.length_take, hlen] at hr
  rw [List.length_drop, hlen] at hs
  exact ⟨hr, hs⟩

theorem rlp_addr (addr : Address) : rlpBytes addr.bytes = Rlp.encode (SignedTx.recipientItem (some addr)) := by
  rw [rlpBytes_eq (by rw [addr.length]; decide)]
  rfl

theorem rlp_strip {b : Bytes} (hb : b.length ≤ 32) :
    rlpBytes (stripLeadingZeros b) = Rlp.encode (SignedTx.num (beValue b)) := by
  have hcount : byteCount (beValue b) ≤ b.length := byteCount_le_of_lt (beValue_lt b)
  have hlen : (scalar (beValue b)).length = byteCount (beValue b) := length_be _ _
  rw [stripLeadingZeros_eq, rlpBytes_eq (by omega), SignedTx.num]

/-- An integer of the wire format in the payload. -/
theorem rlp_num (v : HexOrInt) : rlpInt v.toNat = Rlp.encode (SignedTx.num v.toNat) := rlpInt_eq v.isLt

theorem rlp_word (v : UInt64) : rlpInt v.toNat = Rlp.encode (SignedTx.num v.toNat) :=
  rlpInt_eq (Nat.lt_trans v.toNat_lt (by decide))

theorem rlp_data (d : HexBytes) : rlpBytes d.bytes = Rlp.encode (.bytes d.bytes) :=
  rlpBytes_eq (Nat.lt_trans d.short (by decide))

theorem length_hexOrInt (v : HexOrInt) : (Rlp.encode (SignedTx.num v.toNat)).length ≤ 41 :=
  @length_num_le _ 16 (by decide) (by simpa using v.isLt)

theorem length_word (v : UInt64) : (Rlp.encode (SignedTx.num v.toNat)).length ≤ 41 :=
  @length_num_le _ 8 (by decide) (by simpa using v.toNat_lt)

theorem length_addr (addr : Address) : (Rlp.encode (SignedTx.recipientItem (some addr))).length ≤ 29 := by
  have hbytes := @length_encode_bytes_le addr.bytes (by rw [addr.length]; decide)
  rw [addr.length] at hbytes
  exact hbytes

theorem length_data (d : HexBytes) : (Rlp.encode (.bytes d.bytes)).length < 2 ^ 63 + 9 := by
  have hshort := d.short
  have hbytes := @length_encode_bytes_le d.bytes (Nat.lt_trans hshort (by decide))
  omega

theorem length_small {v : Nat} (hv : v < 256 ^ 32) : (Rlp.encode (SignedTx.num v)).length ≤ 41 :=
  @length_num_le _ 32 (by decide) hv

theorem fields_legacy (gp : HexOrInt) {v : Nat} (hv : v < 2 ^ 128) :
    (encodeAll (legacyTx tx addr sig gp v).fields).length + 10 < 2 ^ 64 := by
  have hnonce := length_hexOrInt tx.nonce
  have hgp := length_hexOrInt gp
  have hgas := length_hexOrInt tx.gas
  have haddr := length_addr addr
  have hvalue := length_hexOrInt tx.value
  have hdata := length_data tx.data
  have hv' : (Rlp.encode (SignedTx.num v)).length ≤ 41 := length_small (Nat.lt_trans hv (by decide))
  have hr := length_small (sig_lt sig).1
  have hs := length_small (sig_lt sig).2
  simp only [legacyTx, SignedTx.fields, encodeAll, List.length_append, List.length_nil]
  omega

theorem fields_feeMarket (mp mf : HexOrInt) : (encodeAll (feeMarketTx tx addr sig mp mf).fields).length + 10 < 2 ^ 64 := by
  have hchain := length_word tx.chainId
  have hnonce := length_hexOrInt tx.nonce
  have hmp := length_hexOrInt mp
  have hmf := length_hexOrInt mf
  have hgas := length_hexOrInt tx.gas
  have haddr := length_addr addr
  have hvalue := length_hexOrInt tx.value
  have hdata := length_data tx.data
  have hlist : (Rlp.encode (.list [])).length = 1 := rfl
  have hparity : (Rlp.encode (SignedTx.num sig.recId)).length ≤ 41 :=
    length_small (Nat.lt_of_le_of_lt sig.recId_le (by decide))
  have hr := length_small (sig_lt sig).1
  have hs := length_small (sig_lt sig).2
  simp only [feeMarketTx, SignedTx.fields, encodeAll, List.length_append, List.length_nil, List.map_nil, hlist]
  omega

/-! ### One encoding, one transaction -/

/-- Equal bytes have equal fields. -/
theorem fields_of_encode {t t' : SignedTx} (ht : (encodeAll t.fields).length + 10 < 2 ^ 64) (h : t'.encode = t.encode) :
    t'.envelope = t.envelope ∧ t'.fields = t.fields := by
  have hhead := @length_head_le 0xc0 (encodeAll t.fields).length (by omega)
  have hlen : t.encode.length < 2 ^ 64 := by
    rw [SignedTx.encode, List.length_append, Rlp.encode, List.length_append]
    cases t <;> (simp only [SignedTx.envelope, Option.toList, List.length_nil, List.length_singleton]; omega)
  have ht' : (encodeAll t'.fields).length < 2 ^ 64 := by
    rw [← h, SignedTx.encode, List.length_append, Rlp.encode, List.length_append] at hlen
    omega
  obtain ⟨henvelope, hpayload⟩ := envelope_encode t (by omega)
  obtain ⟨henvelope', hpayload'⟩ := envelope_encode t' ht'
  rw [h, henvelope] at henvelope'
  rw [h, hpayload] at hpayload'
  refine ⟨henvelope'.symm, ?_⟩
  have hlists {t : SignedTx} (ht : (encodeAll t.fields).length < 2 ^ 64) (hlen : t.encode.length < 2 ^ 64) :
      (Rlp.encode (.list t.fields)).length < 2 ^ 64 := by
    rw [SignedTx.encode, List.length_append] at hlen
    omega
  obtain ⟨hitems, -⟩ := encode_inj _ _ [] [] (hlists ht' (by rwa [h])) (hlists (by omega) hlen)
    (by rw [List.append_nil, List.append_nil]; exact hpayload'.symm)
  exact Item.list.inj hitems

theorem num_inj {m n : Nat} (h : SignedTx.num m = SignedTx.num n) : m = n := scalar_inj (Item.bytes.inj h)

theorem recipientItem_inj {r : Option Address} (h : SignedTx.recipientItem r = SignedTx.recipientItem (some addr)) :
    r = some addr := by
  have hbytes := Item.bytes.inj h
  cases r with
  | none =>
    have hlen := addr.length
    rw [show addr.bytes = [] from hbytes.symm] at hlen
    cases hlen
  | some a =>
    obtain ⟨b, hb⟩ := a
    obtain ⟨b', hb'⟩ := addr
    obtain rfl : b = b' := hbytes
    rfl

theorem eq_legacyTx {gp : HexOrInt} {v : Nat} (hv : v < 2 ^ 128) {t' : SignedTx}
    (h : t'.encode = (legacyTx tx addr sig gp v).encode) : t' = legacyTx tx addr sig gp v := by
  obtain ⟨henvelope, hfields⟩ := fields_of_encode (fields_legacy gp hv) h
  cases t' with
  | legacy nonce gasPrice gasLimit recipient value data v' r s =>
    simp only [legacyTx, SignedTx.fields, List.cons.injEq, and_true] at hfields
    obtain ⟨h₁, h₂, h₃, h₄, h₅, h₆, h₇, h₈, h₉⟩ := hfields
    rw [legacyTx, num_inj h₁, num_inj h₂, num_inj h₃, recipientItem_inj h₄, num_inj h₅, Item.bytes.inj h₆, num_inj h₇,
      num_inj h₈, num_inj h₉]
  | accessList => cases henvelope
  | dynamicFee => cases henvelope
  | blob => cases henvelope

theorem eq_feeMarketTx {mp mf : HexOrInt} {t' : SignedTx} (h : t'.encode = (feeMarketTx tx addr sig mp mf).encode) :
    t' = feeMarketTx tx addr sig mp mf := by
  obtain ⟨henvelope, hfields⟩ := fields_of_encode (fields_feeMarket mp mf) h
  cases t' with
  | dynamicFee chainId nonce maxPriorityFee maxFee gasLimit recipient value data entries yParity r s =>
    simp only [feeMarketTx, SignedTx.fields, List.map_nil, List.cons.injEq, and_true] at hfields
    obtain ⟨h₁, h₂, h₃, h₄, h₅, h₆, h₇, h₈, h₉, h₁₀, h₁₁, h₁₂⟩ := hfields
    obtain rfl := List.map_eq_nil_iff.1 (Item.list.inj h₉)
    rw [feeMarketTx, num_inj h₁, num_inj h₂, num_inj h₃, num_inj h₄, num_inj h₅, recipientItem_inj h₆, num_inj h₇,
      Item.bytes.inj h₈, num_inj h₁₀, num_inj h₁₁, num_inj h₁₂]
  | accessList => simp [SignedTx.envelope, feeMarketTx] at henvelope
  | legacy => simp [SignedTx.envelope, feeMarketTx] at henvelope
  | blob => simp [SignedTx.envelope, feeMarketTx] at henvelope

/-! ### The streams -/

theorem legacyPreimage_eq (gp : HexOrInt) : legacyPreimage tx addr.bytes gp = Rlp.encode (.list
    [SignedTx.num tx.nonce.toNat, SignedTx.num gp.toNat, SignedTx.num tx.gas.toNat, SignedTx.recipientItem (some addr),
      SignedTx.num tx.value.toNat, .bytes tx.data.bytes, SignedTx.num tx.chainId.toNat, SignedTx.num 0, SignedTx.num 0]) := by
  have hzero : rlpInt 0 = Rlp.encode (SignedTx.num 0) := rlpInt_eq (by decide)
  rw [← rlpListPayload_eq, legacyPreimage, rlp_num, rlp_num, rlp_num, rlp_addr, rlp_num, rlp_data, rlp_word, hzero]
  · simp only [encodeAll, List.append_assoc, List.append_nil]
  · have hfields := @fields_legacy tx addr ⟨0, by decide, List.replicate 64 0, rfl⟩ gp tx.chainId.toNat
      (Nat.lt_trans tx.chainId.toNat_lt (by decide))
    have hone : (Rlp.encode (SignedTx.num 0)).length = 1 := by decide +kernel
    simp only [legacyTx, SignedTx.fields, encodeAll, List.length_append, List.length_nil] at hfields ⊢
    omega

theorem legacy_stream (gp : HexOrInt) (v : UInt64) :
    rlpListPayload (rlpInt tx.nonce.toNat ++ rlpInt gp.toNat ++ rlpInt tx.gas.toNat ++ rlpBytes addr.bytes ++
      rlpInt tx.value.toNat ++ rlpBytes tx.data.bytes ++ rlpInt v.toNat ++
      rlpBytes (stripLeadingZeros (sig.ser.take 32)) ++ rlpBytes (stripLeadingZeros (sig.ser.drop 32))) =
      (legacyTx tx addr sig gp v.toNat).encode := by
  have hlen := sig.length_ser
  have hfields := @fields_legacy tx addr sig gp v.toNat (Nat.lt_trans v.toNat_lt (by decide))
  rw [rlp_num, rlp_num, rlp_num, rlp_addr, rlp_num, rlp_data, rlp_word, rlp_strip (by rw [List.length_take]; omega),
    rlp_strip (by rw [List.length_drop]; omega), SignedTx.encode]
  show _ = Rlp.encode (.list (legacyTx tx addr sig gp v.toNat).fields)
  rw [← rlpListPayload_eq (by omega)]
  simp only [legacyTx, SignedTx.fields, encodeAll, List.append_assoc, List.append_nil]
  rfl

theorem feeMarketPreimage_eq (mp mf : HexOrInt) : feeMarketPreimage tx addr.bytes mp mf = 0x02 :: Rlp.encode (.list
    [SignedTx.num tx.chainId.toNat, SignedTx.num tx.nonce.toNat, SignedTx.num mp.toNat, SignedTx.num mf.toNat,
      SignedTx.num tx.gas.toNat, SignedTx.recipientItem (some addr), SignedTx.num tx.value.toNat, .bytes tx.data.bytes,
      .list []]) := by
  have hempty : rlpListPayload [] = Rlp.encode (.list []) := rfl
  rw [← rlpListPayload_eq, feeMarketPreimage, rlp_num, rlp_num, rlp_num, rlp_num, rlp_addr, rlp_num, rlp_data, rlp_word,
    hempty]
  · simp only [encodeAll, List.append_assoc, List.append_nil]
  · have hfields := @fields_feeMarket tx addr ⟨0, by decide, List.replicate 64 0, rfl⟩ mp mf
    simp only [feeMarketTx, SignedTx.fields, encodeAll, List.length_append, List.length_nil, List.map_nil] at hfields ⊢
    omega

theorem feeMarket_stream (mp mf : HexOrInt) :
    0x02 :: rlpListPayload (rlpInt tx.chainId.toNat ++ rlpInt tx.nonce.toNat ++ rlpInt mp.toNat ++ rlpInt mf.toNat ++
      rlpInt tx.gas.toNat ++ rlpBytes addr.bytes ++ rlpInt tx.value.toNat ++ rlpBytes tx.data.bytes ++ rlpListPayload [] ++
      rlpInt (UInt8.ofNat sig.recId).toNat ++ rlpBytes (stripLeadingZeros (sig.ser.take 32)) ++
      rlpBytes (stripLeadingZeros (sig.ser.drop 32))) = (feeMarketTx tx addr sig mp mf).encode := by
  have hlen := sig.length_ser
  have hrec := sig.recId_le
  have hempty : rlpListPayload [] = Rlp.encode (.list []) := rfl
  have hparity : (UInt8.ofNat sig.recId).toNat = sig.recId := by
    rw [UInt8.toNat_ofNat']
    omega
  have hrecInt : rlpInt sig.recId = Rlp.encode (SignedTx.num sig.recId) := rlpInt_eq (by omega)
  have hfields := @fields_feeMarket tx addr sig mp mf
  rw [hparity, hrecInt, rlp_num, rlp_num, rlp_num, rlp_num, rlp_addr, rlp_num, rlp_data, rlp_word, hempty,
    rlp_strip (by rw [List.length_take]; omega), rlp_strip (by rw [List.length_drop]; omega), SignedTx.encode]
  show _ = 0x02 :: Rlp.encode (.list (feeMarketTx tx addr sig mp mf).fields)
  rw [← @rlpListPayload_eq (feeMarketTx tx addr sig mp mf).fields (by omega)]
  simp only [feeMarketTx, SignedTx.fields, encodeAll, List.append_assoc, List.append_nil, List.map_nil]
  rfl

/-! ## Text -/

theorem hex_table : ((List.range 256).all fun n =>
    bytesOfPairs ((hexByte (UInt8.ofNat n)).map fun c => UInt16.ofNat c.toNat) == [UInt8.ofNat n] &&
      !((hexByte (UInt8.ofNat n)).map fun c => UInt16.ofNat c.toNat).contains 0x78) = true := by
  decide +kernel

theorem units_hexByte (b : UInt8) : ∃ u v, (hexByte b).map (fun c => UInt16.ofNat c.toNat) = [u, v] ∧
    toUint8 (parseInt16 [u, v]) = b ∧ v ≠ 0x78 := by
  have hrow := List.all_eq_true.1 hex_table b.toNat (List.mem_range.2 b.toNat_lt)
  rw [UInt8.ofNat_toNat, Bool.and_eq_true, beq_iff_eq] at hrow
  obtain ⟨hpairs, hx⟩ := hrow
  refine ⟨UInt16.ofNat (hexChar (b.toNat / 16)).toNat, UInt16.ofNat (hexChar (b.toNat % 16)).toNat, rfl, ?_, ?_⟩
  · exact (List.cons.inj hpairs).1
  · intro hv
    simp [hexByte, hv] at hx

theorem bytes_of_hex (b : Bytes) :
    bytesOfPairs ((bytesToHex b).map fun c => UInt16.ofNat c.toNat) = b := by
  induction b with
  | nil => rfl
  | cons x b ih =>
    obtain ⟨u, v, huv, hval, -⟩ := units_hexByte x
    have hcons : bytesToHex (x :: b) = hexByte x ++ bytesToHex b := rfl
    rw [hcons, List.map_append, huv, List.cons_append, List.cons_append, List.nil_append, bytesOfPairs, hval, ih]

theorem strip_hex (b : Bytes) : strip0x ((bytesToHex b).map fun c => UInt16.ofNat c.toNat) =
    (bytesToHex b).map fun c => UInt16.ofNat c.toNat := by
  cases b with
  | nil => rfl
  | cons x b =>
    obtain ⟨u, v, huv, -, hne⟩ := units_hexByte x
    have hcons : bytesToHex (x :: b) = hexByte x ++ bytesToHex b := rfl
    rw [hcons, List.map_append, huv, List.cons_append, List.cons_append, List.nil_append]
    unfold strip0x
    split
    · rename_i heq
      rw [List.cons.injEq, List.cons.injEq] at heq
      exact absurd heq.2.1 hne
    · rfl

/-- The text of bytes is read as the bytes. -/
theorem bytesOf_text {b : Bytes} (hb : b ≠ []) : bytesOf (units (textOf b)) = some b := by
  have hunits : units (textOf b) = 0x30 :: 0x78 :: (bytesToHex b).map fun c => UInt16.ofNat c.toNat := by
    rw [units, textOf, String.toList_ofList]
    rfl
  have hlen : ((bytesToHex b).map fun c => UInt16.ofNat c.toNat).length = 2 * b.length := by
    rw [List.length_map, length_bytesToHex]
  have hpos := List.length_pos_iff.2 hb
  have hcleaned : strip0x (units (textOf b)) = (bytesToHex b).map fun c => UInt16.ofNat c.toNat := by
    rw [hunits]
    rfl
  rw [bytesOf, hcleaned, if_neg (by omega), hexToBytes, strip_hex, bytes_of_hex]

/-! ## The law -/

section Law

variable {c : EvmCrypto} {tx : UnsignedEvmTx} {secret : Bytes} {raw : String}

/-- What should be signed and sent: the transaction and the payload that its signature signs. -/
inductive Expected (c : EvmCrypto) (tx : UnsignedEvmTx) (secret : Bytes) (addr : Address) : SignedTx → Bytes → Prop
  | legacy (gp : HexOrInt) (sig : Recoverable) : tx.maxFeePerGas = none ∨ tx.maxPriorityFeePerGas = none →
      tx.gasPrice = some gp → sig = c.sign (c.keccak (legacyPreimage tx addr.bytes gp)) secret →
      Expected c tx secret addr (legacyTx tx addr sig gp (2 * tx.chainId.toNat + 35 + sig.recId))
        (legacyPreimage tx addr.bytes gp)
  | feeMarket (mf mp : HexOrInt) (sig : Recoverable) : tx.maxFeePerGas = some mf → tx.maxPriorityFeePerGas = some mp →
      sig = c.sign (c.keccak (feeMarketPreimage tx addr.bytes mp mf)) secret →
      Expected c tx secret addr (feeMarketTx tx addr sig mp mf) (feeMarketPreimage tx addr.bytes mp mf)

/-- The text is of the expected transaction; from its bytes the payload is rebuilt, and the reader reads it. -/
def SignsGiven (c : EvmCrypto) (tx : UnsignedEvmTx) (secret : Bytes) (raw : String) : Prop :=
  ∃ addr t preimage, parseAddress tx.recipient = .ok addr.bytes ∧ Expected c tx secret addr t preimage ∧
    raw = textOf t.encode ∧ (∀ t' : SignedTx, t'.encode = t.encode → t'.signingPayload = some preimage) ∧
    ((units raw).length < 2 ^ 30 →
      Returns (units raw) (.ok ⟨textOf addr.bytes, tx.value.toNat, textOf tx.data.bytes⟩))

/-- `v` does not fit 64 bits. -/
def Wraps (c : EvmCrypto) (tx : UnsignedEvmTx) (secret : Bytes) : Prop :=
  ∃ addr gp, parseAddress tx.recipient = .ok addr ∧ (tx.maxFeePerGas = none ∨ tx.maxPriorityFeePerGas = none) ∧
    tx.gasPrice = some gp ∧ c.secretKey secret = true ∧
    2 ^ 64 ≤ 2 * tx.chainId.toNat + 35 + (c.sign (c.keccak (legacyPreimage tx addr gp)) secret).recId

theorem length_of_hexDecode : ∀ {s : List Char} {b : Bytes}, hexDecode s = some b → s.length = 2 * b.length
  | [], b, h => by
    obtain rfl := Option.some.inj h
    rfl
  | [_], _, h => by cases h
  | x :: y :: s, b, h => by
    rw [hexDecode] at h
    cases hx : hexValue x with
    | none => simp [hx] at h
    | some m =>
      cases hy : hexValue y with
      | none => simp [hx, hy] at h
      | some n =>
        simp only [hx, hy] at h
        obtain ⟨b', hb', rfl⟩ := Option.map_eq_some_iff.1 h
        have ih := length_of_hexDecode hb'
        simp only [List.length_cons]
        omega

theorem length_of_parseAddress {s : String} {b : Bytes} (h : parseAddress s = .ok b) : b.length = 20 := by
  rw [parseAddress] at h
  by_cases hlen : (stripHexPrefix s.toList).length ≠ 40
  · simp only [if_pos hlen] at h
    cases h
  · simp only [if_neg hlen] at h
    cases hdecode : hexDecode (stripHexPrefix s.toList) with
    | none => simp [hdecode] at h
    | some bytes =>
      simp only [hdecode, Except.ok.injEq] at h
      have hbytes := length_of_hexDecode hdecode
      rw [← h]
      omega

theorem encode_ne (t : SignedTx) : t.encode ≠ [] := by
  intro h
  exact encode_ne_nil (.list t.fields) (List.append_eq_nil_iff.1 h).2

/-- An accepted transaction, as it comes out: the legacy one with the sum that is computed. -/
theorem signTx_ok (h : signTx c tx secret = .ok raw) : c.secretKey secret = true ∧ ∃ addr : Address,
    parseAddress tx.recipient = .ok addr.bytes ∧
    ((∃ gp sig, (tx.maxFeePerGas = none ∨ tx.maxPriorityFeePerGas = none) ∧ tx.gasPrice = some gp ∧
        sig = c.sign (c.keccak (legacyPreimage tx addr.bytes gp)) secret ∧
        raw = textOf (legacyTx tx addr sig gp (tx.chainId * 2 + 35 + UInt64.ofNat sig.recId).toNat).encode) ∨
      ∃ mf mp sig, tx.maxFeePerGas = some mf ∧ tx.maxPriorityFeePerGas = some mp ∧
        sig = c.sign (c.keccak (feeMarketPreimage tx addr.bytes mp mf)) secret ∧
        raw = textOf (feeMarketTx tx addr sig mp mf).encode) := by
  rw [signTx] at h
  cases hparse : parseAddress tx.recipient with
  | error e => simp [hparse, Except.bind] at h
  | ok b =>
    rw [hparse] at h
    simp only [Except.bind] at h
    have hlegacy {gp : HexOrInt} (h : (signLegacy c tx b gp secret).map (fun raw => String.ofList ('0' :: 'x' :: bytesToHex raw)) =
        .ok raw) : c.secretKey secret = true ∧ raw = textOf (legacyTx tx ⟨b, length_of_parseAddress hparse⟩
          (c.sign (c.keccak (legacyPreimage tx b gp)) secret) gp (tx.chainId * 2 + 35 +
            UInt64.ofNat (c.sign (c.keccak (legacyPreimage tx b gp)) secret).recId).toNat).encode := by
      rw [signLegacy, signHash] at h
      by_cases hkey : c.secretKey secret = true
      · simp only [if_pos hkey, Except.map, Except.ok.injEq] at h
        refine ⟨hkey, ?_⟩
        rw [← legacy_stream, ← h]
        rfl
      · simp [if_neg hkey, Except.map] at h
    cases hmf : tx.maxFeePerGas with
    | none =>
      cases hgp : tx.gasPrice with
      | none => simp [hmf, hgp, Except.map] at h
      | some gp =>
        simp only [hmf, hgp] at h
        obtain ⟨hkey, hraw⟩ := hlegacy h
        exact ⟨hkey, ⟨b, length_of_parseAddress hparse⟩, rfl, .inl ⟨gp, _, .inl rfl, rfl, rfl, hraw⟩⟩
    | some mf =>
      cases hmp : tx.maxPriorityFeePerGas with
      | none =>
        cases hgp : tx.gasPrice with
        | none => simp [hmf, hmp, hgp, Except.map] at h
        | some gp =>
          simp only [hmf, hmp, hgp] at h
          obtain ⟨hkey, hraw⟩ := hlegacy h
          exact ⟨hkey, ⟨b, length_of_parseAddress hparse⟩, rfl, .inl ⟨gp, _, .inr rfl, rfl, rfl, hraw⟩⟩
      | some mp =>
        simp only [hmf, hmp, signEip1559, signHash] at h
        by_cases hkey : c.secretKey secret = true
        · simp only [if_pos hkey, Except.map, Except.ok.injEq] at h
          refine ⟨hkey, ⟨b, length_of_parseAddress hparse⟩, rfl, .inr ⟨mf, mp, _, rfl, rfl, rfl, ?_⟩⟩
          rw [← feeMarket_stream, ← h]
          rfl
        · simp [if_neg hkey, Except.map] at h

/-- From the bytes of what is expected the payload comes back. -/
theorem payload_of_expected {addr : Address} {t t' : SignedTx} {preimage : Bytes} (h : Expected c tx secret addr t preimage)
    (heq : t'.encode = t.encode) : t'.signingPayload = some preimage := by
  cases h with
  | legacy gp sig _ _ hsig =>
    have hrec := sig.recId_le
    have hchain := tx.chainId.toNat_lt
    have hv : (2 * tx.chainId.toNat + 35 + sig.recId - 35) / 2 = tx.chainId.toNat := by omega
    rw [eq_legacyTx (by omega) heq, legacyTx, SignedTx.signingPayload, if_pos (by omega), hv, legacyPreimage_eq]
    rfl
  | feeMarket mf mp sig _ _ hsig =>
    rw [eq_feeMarketTx heq, feeMarketTx, SignedTx.signingPayload, feeMarketPreimage_eq]
    rfl

theorem returns_of_expected {addr : Address} {t : SignedTx} {preimage : Bytes} (h : Expected c tx secret addr t preimage)
    (hshort : (units (textOf t.encode)).length < 2 ^ 30) :
    Returns (units (textOf t.encode)) (.ok ⟨textOf addr.bytes, tx.value.toNat, textOf tx.data.bytes⟩) := by
  obtain ⟨hreturns, -, -⟩ := returns_of_tx hshort (bytesOf_text (encode_ne t))
  cases h with
  | legacy gp sig =>
    rw [← recipientText_eq addr.length]
    exact hreturns
  | feeMarket mf mp sig =>
    rw [← recipientText_eq addr.length]
    exact hreturns

theorem bytesToHex_inj {b b' : Bytes} (h : bytesToHex b = bytesToHex b') : b = b' := by
  rw [← bytes_of_hex b, h, bytes_of_hex]

theorem textOf_inj {b b' : Bytes} (h : textOf b = textOf b') : b = b' := by
  have hlist := congrArg String.toList h
  rw [textOf, textOf, String.toList_ofList, String.toList_ofList, List.cons.injEq, List.cons.injEq] at hlist
  exact bytesToHex_inj hlist.2.2

/-- `v` as it is computed. -/
theorem v_toNat (chainId : UInt64) (sig : Recoverable) :
    (chainId * 2 + 35 + UInt64.ofNat sig.recId).toNat = (2 * chainId.toNat + 35 + sig.recId) % 2 ^ 64 := by
  have hrec := sig.recId_le
  rw [UInt64.toNat_add, UInt64.toNat_add, UInt64.toNat_mul, UInt64.toNat_ofNat']
  have htwo : (2 : UInt64).toNat = 2 := rfl
  have hoffset : (35 : UInt64).toNat = 35 := rfl
  rw [htwo, hoffset]
  omega

/-- Each transaction that is accepted is the one that was asked for, exactly unless `v` wraps. -/
theorem signsGiven_iff (h : signTx c tx secret = .ok raw) : SignsGiven c tx secret raw ↔ ¬ Wraps c tx secret := by
  obtain ⟨hkey, addr, hparse, hcase⟩ := signTx_ok h
  constructor
  · rintro ⟨addr', t, preimage, hparse', hexpected, hraw, -, -⟩ ⟨b, gp, hb, hfee, hgp, -, hwrap⟩
    rw [hparse, Except.ok.injEq] at hparse' hb
    subst hb
    obtain rfl : addr = addr' := by
      obtain ⟨_, _⟩ := addr
      obtain ⟨_, _⟩ := addr'
      cases hparse'
      rfl
    rcases hcase with ⟨gp', sig, -, hgp', rfl, hraw'⟩ | ⟨mf, mp, sig, hmf, hmp, -, -⟩
    · obtain rfl : gp = gp' := Option.some.inj (hgp.symm.trans hgp')
      have htext := textOf_inj (hraw.symm.trans hraw')
      cases hexpected with
      | legacy gp' sig' _ hgp'' hsig' =>
        obtain rfl : gp = gp' := Option.some.inj (hgp.symm.trans hgp'')
        rw [v_toNat] at htext
        have hsame := eq_legacyTx (Nat.lt_trans (Nat.mod_lt _ (by decide)) (by decide)) htext
        rw [legacyTx, legacyTx, SignedTx.legacy.injEq] at hsame
        have hv := hsame.2.2.2.2.2.2.1
        have hmod := Nat.mod_lt (2 * tx.chainId.toNat + 35 +
          (c.sign (c.keccak (legacyPreimage tx addr.bytes gp)) secret).recId) (show 0 < 2 ^ 64 by decide)
        rw [← hv, hsig'] at hmod
        omega
      | feeMarket mf mp sig' hmf hmp =>
        rcases hfee with hnone | hnone
        · rw [hnone] at hmf
          cases hmf
        · rw [hnone] at hmp
          cases hmp
    · rcases hfee with hnone | hnone
      · rw [hnone] at hmf
        cases hmf
      · rw [hnone] at hmp
        cases hmp
  · intro hno
    rcases hcase with ⟨gp, sig, hfee, hgp, hsig, hraw⟩ | ⟨mf, mp, sig, hmf, hmp, hsig, hraw⟩
    · have hlt : 2 * tx.chainId.toNat + 35 + sig.recId < 2 ^ 64 := by
        apply Nat.lt_of_not_le
        intro hwrap
        exact hno ⟨addr.bytes, gp, hparse, hfee, hgp, hkey, by rwa [← hsig]⟩
      rw [v_toNat, Nat.mod_eq_of_lt hlt] at hraw
      have hexpected : Expected c tx secret addr _ _ := .legacy gp sig hfee hgp hsig
      refine ⟨addr, _, _, hparse, hexpected, hraw, fun t' ht' => payload_of_expected hexpected ht', fun hshort => ?_⟩
      rw [hraw] at hshort ⊢
      exact returns_of_expected hexpected hshort
    · have hexpected : Expected c tx secret addr _ _ := .feeMarket mf mp sig hmf hmp hsig
      refine ⟨addr, _, _, hparse, hexpected, hraw, fun t' ht' => payload_of_expected hexpected ht', fun hshort => ?_⟩
      rw [hraw] at hshort ⊢
      exact returns_of_expected hexpected hshort

end Law

end

/-- The signer signs what it was given. -/
def SignerExact (c : EvmCrypto) (tx : UnsignedEvmTx) (secret : Bytes) : Prop :=
  ∀ raw, signTx c tx secret = .ok raw → SignsGiven c tx secret raw

theorem accepted_of_wraps {c : EvmCrypto} {tx : UnsignedEvmTx} {secret : Bytes} (h : Wraps c tx secret) :
    ∃ raw, signTx c tx secret = .ok raw := by
  obtain ⟨addr, gp, hparse, hfee, hgp, hkey, -⟩ := h
  rw [signTx, hparse]
  simp only [Except.bind]
  rcases hfee with hmf | hmp
  · simp only [hmf, hgp, signLegacy, signHash, if_pos hkey, Except.map]
    exact ⟨_, rfl⟩
  · cases hmf : tx.maxFeePerGas <;>
    · simp only [hmp, hgp, signLegacy, signHash, if_pos hkey, Except.map]
      exact ⟨_, rfl⟩

/-- What is sent is what was asked for, read by a node or by the wallet's own reader, exactly unless `v` wraps. -/
theorem signer_exact_iff (c : EvmCrypto) (tx : UnsignedEvmTx) (secret : Bytes) :
    SignerExact c tx secret ↔ ¬ Wraps c tx secret := by
  constructor
  · intro hexact hwraps
    obtain ⟨raw, hraw⟩ := accepted_of_wraps hwraps
    exact (signsGiven_iff hraw).1 (hexact raw hraw) hwraps
  · intro hno raw hraw
    exact (signsGiven_iff hraw).2 hno

/-- A legacy transaction of the highest chain id. -/
def highestChain : UnsignedEvmTx where
  chainId := 18446744073709551615
  nonce := 0
  recipient := "0x3535353535353535353535353535353535353535"
  value := 1
  data := ⟨[], by decide⟩
  gas := 21000
  gasPrice := some 1
  maxFeePerGas := none
  maxPriorityFeePerGas := none

def sampleCrypto : EvmCrypto where
  keccak _ := List.replicate 32 0
  secretKey _ := true
  sign _ _ := ⟨0, by decide, List.replicate 64 1, rfl⟩

/-- Its `v` wraps to 33, which tells no chain. -/
theorem not_always_exact : ¬ ∀ (c : EvmCrypto) (tx : UnsignedEvmTx) (secret : Bytes), SignerExact c tx secret := by
  intro hall
  have hparse : parseAddress highestChain.recipient = .ok (List.replicate 20 0x35) := by decide +kernel
  have hwraps : Wraps sampleCrypto highestChain [] := ⟨_, 1, hparse, .inl rfl, rfl, rfl, by decide⟩
  obtain ⟨raw, hraw⟩ := accepted_of_wraps hwraps
  exact (signsGiven_iff hraw).1 (hall _ _ _ raw hraw) hwraps

end Evm
