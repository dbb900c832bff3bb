import PwndaWallet.Bch.Signer
import PwndaWallet.Bch.TransactionSound
import PwndaWallet.Evm.SignerSound

/-!
# The two implementations agree

The preimage and the address of the Rust signer are those of `bch-wallet.ts`, and the preimage is the one that the
digest algorithm asks for.
-/

namespace Bch.Signer

open Js Wire

/-! ## Compact sizes -/

theorem compactSize_eq {n : Nat} (h : n < 2 ^ 64) : compactSize (UInt64.ofNat n) = CompactSize.write n := by
  have hn : (UInt64.ofNat n).toNat = n := by
    rw [UInt64.toNat_ofNat']
    omega
  rw [compactSize, CompactSize.write]
  simp only [UInt64.lt_iff_toNat_lt, UInt64.le_iff_toNat_le, hn]
  have h8 : (UInt64.ofNat n).toUInt8 = UInt8.ofNat n := by
    apply UInt8.toNat_inj.1
    rw [UInt64.toNat_toUInt8, hn, UInt8.toNat_ofNat']
  have h16 : le 2 (UInt64.ofNat n).toUInt16.toNat = le 2 n := by
    rw [UInt64.toNat_toUInt16, hn]
    exact le_mod 2 n
  have h32 : le 4 (UInt64.ofNat n).toUInt32.toNat = le 4 n := by
    rw [UInt64.toNat_toUInt32, hn]
    exact le_mod 4 n
  rw [h8, h16, h32]
  rfl

/-! ## The same data -/

/-- The input of TypeScript that names this one: its id is the hash turned round, in digits of any case. -/
structure SameInput (r : TxIn) (t : BchInput) : Prop where
  isTxid : IsTxid t.txid
  txid : bytesToHex (reverseBytes r.previousOutput.txid.1) = String.ofList (t.txid.toList.map Char.toLower)
  vout : t.vout = r.previousOutput.vout.toNat
  sequence : t.sequence.getD 0xffffffff = r.sequence.toNat

structure SameOutput (r : TxOut) (t : BchOutput) : Prop where
  value : t.value = r.value.toNat
  script : t.scriptPubKey = r.scriptPubkey
  short : r.scriptPubkey.length < 2 ^ 32

structure SameData (tx : Transaction) (inputs : List BchInput) (outputs : List BchOutput) (version locktime : Nat) :
    Prop where
  inputs : List.Forall₂ SameInput tx.input inputs
  outputs : List.Forall₂ SameOutput tx.output outputs
  version : version = tx.version.toUInt32.toNat
  locktime : locktime = tx.lockTime.toNat

theorem bytesToHex_inj {b b' : Bytes} (h : bytesToHex b = bytesToHex b') : b = b' :=
  Evm.bytesToHex_inj (String.ofList_injective h)

theorem SameInput.hash {r : TxIn} {t : BchInput} (h : SameInput r t) :
    reverseBytes (hexToBytes t.txid) = r.previousOutput.txid.1 := by
  have hsame := h.txid.trans h.isTxid.bytes.2.symm
  rw [← bytesToHex_inj hsame, reverseBytes, reverseBytes, List.reverse_reverse]

theorem SameInput.outpoint {r : TxIn} {t : BchInput} (h : SameInput r t) : t.outpoint = r.outpointBytes := by
  rw [BchInput.outpoint, u32LE_eq, h.hash, h.vout, TxIn.outpointBytes]

theorem SameInput.sequenceBytes {r : TxIn} {t : BchInput} (h : SameInput r t) : t.sequenceBytes = r.sequenceBytes := by
  rw [BchInput.sequenceBytes, u32LE_eq, h.sequence, TxIn.sequenceBytes]

theorem SameOutput.inRange {r : TxOut} {t : BchOutput} (h : SameOutput r t) : t.InRange := by
  have hlt := r.value.toNat_lt
  have hshort := h.short
  refine ⟨?_, ?_, ?_⟩
  · rw [h.value]
    exact Int.natCast_nonneg _
  · rw [h.value]
    omega
  · rw [Short, h.script]
    omega

theorem SameOutput.serialized {r : TxOut} {t : BchOutput} (h : SameOutput r t) : t.serialized = r.serialized := by
  have hshort := h.short
  rw [BchOutput.serialized, u64LE_eq h.inRange.nonneg h.inRange.value, varInt_eq, TxOut.serialized, h.script, h.value,
    compactSize_eq (by omega), Int.toNat_natCast]

theorem flatMap_eq {α β : Type} {R : α → β → Prop} {f : α → Bytes} {g : β → Bytes} (hfg : ∀ a b, R a b → g b = f a)
    {as : List α} {bs : List β} (h : List.Forall₂ R as bs) : bs.flatMap g = as.flatMap f := by
  induction h with
  | nil => rfl
  | cons hab _ ih => rw [List.flatMap_cons, List.flatMap_cons, hfg _ _ hab, ih]

theorem getElem?_same {α β : Type} {R : α → β → Prop} {as : List α} {bs : List β} (h : List.Forall₂ R as bs) (i : Nat) :
    (as[i]? = none ∧ bs[i]? = none) ∨ ∃ a b, as[i]? = some a ∧ bs[i]? = some b ∧ R a b := by
  induction h generalizing i with
  | nil => exact .inl ⟨rfl, rfl⟩
  | cons hab _ ih =>
    cases i with
    | zero => exact .inr ⟨_, _, rfl, rfl, hab⟩
    | succ i => exact ih i

theorem SameData.short {tx : Transaction} {inputs : List BchInput} {outputs : List BchOutput} {version locktime : Nat}
    (h : SameData tx inputs outputs version locktime) : ∀ o ∈ tx.output, o.scriptPubkey.length < 2 ^ 32 := by
  have houtputs := h.outputs
  clear h
  generalize tx.output = os at houtputs
  induction houtputs with
  | nil => exact fun o ho => absurd ho List.not_mem_nil
  | cons hab _ ih => exact List.forall_mem_cons.2 ⟨hab.short, ih⟩

/-! ## One preimage -/

section

variable {h : Hashes} {tx : Transaction} {inputs : List BchInput} {outputs : List BchOutput} {version locktime : Nat}

/-- An input of the template has no script that unlocks it. -/
def TxIn.unsigned (i : TxIn) : Btc.TxIn where
  hash := i.previousOutput.txid.1
  index := i.previousOutput.vout.toNat
  sequence := i.sequence.toNat
  script := []

def TxOut.paid (o : TxOut) : Btc.TxOut := ⟨o.scriptPubkey, o.value.toNat⟩

def Transaction.unsigned (tx : Transaction) : Btc.Transaction where
  version := tx.version.toUInt32.toNat
  ins := tx.input.map TxIn.unsigned
  outs := tx.output.map TxOut.paid
  locktime := tx.lockTime.toNat

theorem preimage_same (hsame : SameData tx inputs outputs version locktime) (i : Nat) (script : Bytes)
    (hscript : script.length < 2 ^ 32) (amount : UInt64)
    (hamount : ∀ inp, inputs[i]? = some inp → inp.value = amount.toNat) :
    bchForkidPreimage h tx i script amount =
      (buildSighashPreimage h inputs outputs i script version locktime).toOption := by
  rw [bchForkidPreimage, buildSighashPreimage, flatMap_eq (fun _ _ h => SameInput.outpoint h) hsame.inputs,
    flatMap_eq (fun _ _ h => SameInput.sequenceBytes h) hsame.inputs,
    flatMap_eq (fun _ _ h => SameOutput.serialized h) hsame.outputs]
  rcases getElem?_same hsame.inputs i with ⟨hr, ht⟩ | ⟨r, t, hr, ht, hrt⟩
  · rw [hr, ht]
    rfl
  · have hvalue := hamount t ht
    have hlt := amount.toNat_lt
    have houtpoint := hrt.outpoint
    rw [BchInput.outpoint] at houtpoint
    rw [hr, ht]
    simp only [Option.map_some, Except.toOption, Option.some.injEq]
    rw [← houtpoint, hrt.sequenceBytes, hvalue, u64LE_eq (by omega) (by omega), Int.toNat_natCast, varInt_eq,
      compactSize_eq (by omega), u32LE_eq version, u32LE_eq locktime, hsame.version, hsame.locktime]
    simp only [List.append_assoc]
    rfl

theorem paid_serialized {o : TxOut} (ho : o.scriptPubkey.length < 2 ^ 32) : writeTxOut o.paid = o.serialized := by
  rw [writeTxOut, TxOut.paid, TxOut.serialized, compactSize_eq (by omega), CompactSize.writeBytes, List.append_assoc]

theorem preimage_spec (hout : ∀ o ∈ tx.output, o.scriptPubkey.length < 2 ^ 32) (i : Nat) (script : Bytes)
    (hscript : script.length < 2 ^ 32) (amount : UInt64) :
    bchForkidPreimage h tx i script amount = digestInput h tx.unsigned BCH_SIGHASH i ⟨script, amount.toNat⟩ := by
  obtain ⟨hanyone, hnone, hsingle⟩ := hash_flags
  have houts : (tx.output.map TxOut.paid).flatMap writeTxOut = tx.output.flatMap TxOut.serialized := by
    rw [List.flatMap_map, List.flatMap_def, List.flatMap_def,
      List.map_congr_left fun o ho => paid_serialized (hout o ho)]
  have hprevouts : (tx.input.map TxIn.unsigned).flatMap writeOutpoint = tx.input.flatMap TxIn.outpointBytes :=
    List.flatMap_map _ _ _
  have hsequences : ((tx.input.map TxIn.unsigned).flatMap fun i => le 4 i.sequence) =
      tx.input.flatMap TxIn.sequenceBytes := List.flatMap_map _ _ _
  rw [bchForkidPreimage, digestInput, Transaction.unsigned]
  simp only [hashPrevouts, hashSequence, hashOutputs, hanyone, hnone, hsingle, houts, hprevouts, hsequences,
    Bool.false_or, Bool.false_eq_true, if_false, List.getElem?_map, Option.map_map]
  congr 1
  funext inp
  rw [compactSize_eq (by omega), Function.comp, CompactSize.writeBytes]
  simp only [List.append_assoc]
  rfl

end

/-! ## One address -/

theorem toNat_shift {k : Nat} (hk : k < 32) (x : UInt32) :
    (x >>> UInt32.ofNat k).toNat = x.toNat >>> k ∧ (x <<< UInt32.ofNat k).toNat = x.toNat <<< k % 2 ^ 32 := by
  have hmod : (UInt32.ofNat k).toNat % 32 = k := by
    rw [UInt32.toNat_ofNat']
    omega
  rw [UInt32.toNat_shiftRight, UInt32.toNat_shiftLeft, hmod]
  exact ⟨rfl, rfl⟩

theorem toNat_mask {m : Nat} (hm : m ≤ 8) (x : UInt32) :
    (x &&& ((1 <<< UInt32.ofNat m) - 1)).toUInt8.toNat = x.toNat &&& (1 <<< m - 1) := by
  have hmasks : ∀ m : Fin 9, ((1 <<< UInt32.ofNat m.1) - 1 : UInt32).toNat = 1 <<< m.1 - 1 := by decide
  have hmask : ((1 <<< UInt32.ofNat m) - 1 : UInt32).toNat = 1 <<< m - 1 := hmasks ⟨m, by omega⟩
  have hlt : x.toNat &&& (1 <<< m - 1) < 2 ^ 8 :=
    Nat.lt_of_lt_of_le (mask_lt m x.toNat) (Nat.pow_le_pow_right (by decide) hm)
  rw [UInt32.toNat_toUInt8, UInt32.toNat_and, hmask, Nat.mod_eq_of_lt hlt]

theorem takeBits_eq {m : Nat} (hm : m ≤ 8) (acc : UInt32) {fuel bits : Nat} (hbits : bits < 32) :
    (takeBits m acc fuel bits).1.map UInt8.toNat = (drain m acc.toNat fuel bits).1 ∧
      (takeBits m acc fuel bits).2 = (drain m acc.toNat fuel bits).2 := by
  induction fuel generalizing bits with
  | zero => exact ⟨rfl, rfl⟩
  | succ fuel ih =>
    rw [takeBits, drain]
    by_cases hge : bits ≥ m
    · obtain ⟨ihlist, ihrest⟩ := @ih (bits - m) (by omega)
      rw [if_pos hge, if_pos hge, List.map_cons, toNat_mask hm, (toNat_shift (by omega) acc).1, ihlist]
      exact ⟨rfl, ihrest⟩
    · rw [if_neg hge, if_neg hge]
      exact ⟨rfl, rfl⟩

theorem pushBits_eq {m : Nat} (hm : 0 < m) (hm8 : m ≤ 8) {acc : UInt32} {bits : Nat} (hbits : bits < m) (data : Bytes) :
    ∃ r, regroup 8 m acc.toNat bits (data.map UInt8.toNat) = .ok r ∧
      (pushBits 8 m acc bits data).1.map UInt8.toNat = r.1 ∧ (pushBits 8 m acc bits data).2.1.toNat = r.2.1 ∧
      (pushBits 8 m acc bits data).2.2 = r.2.2 ∧ r.2.2 < m := by
  induction data generalizing acc bits with
  | nil => exact ⟨_, rfl, rfl, rfl, rfl, hbits⟩
  | cons v data ih =>
    have hv := v.toNat_lt
    have hand : v.toNat &&& 0xff = v.toNat := by
      rw [show (0xff : Nat) = 2 ^ 8 - 1 from rfl, Nat.and_two_pow_sub_one_eq_mod, Nat.mod_eq_of_lt hv]
    have hrange : ¬ v.toNat >>> 8 ≠ 0 := by
      rw [Nat.shiftRight_eq_div_pow, Nat.div_eq_of_lt hv]
      exact fun hne => hne rfl
    have hacc : (acc <<< UInt32.ofNat 8 ||| v.toUInt32).toNat = (acc.toNat <<< 8 ||| v.toNat) % 2 ^ 32 := by
      rw [UInt32.toNat_or, (toNat_shift (by decide) acc).2, UInt8.toNat_toUInt32, Nat.or_mod_two_pow,
        Nat.mod_eq_of_lt (Nat.lt_trans hv (by decide))]
    obtain ⟨hlist, hrest⟩ := @takeBits_eq m hm8 (acc <<< UInt32.ofNat 8 ||| v.toUInt32) (bits + 8) (bits + 8) (by omega)
    rw [hacc] at hlist hrest
    obtain ⟨-, hlt, -⟩ := @drain_spec m ((acc.toNat <<< 8 ||| v.toNat) % 2 ^ 32) (bits + 8) (bits + 8) hm (Nat.le_refl _)
    obtain ⟨r, hr, hpushed, hlast, hcount, hltr⟩ :=
      @ih (acc <<< UInt32.ofNat 8 ||| v.toUInt32) (drain m ((acc.toNat <<< 8 ||| v.toNat) % 2 ^ 32) (bits + 8) (bits + 8)).2
        hlt
    rw [hacc] at hr
    rw [List.map_cons, regroup, pushBits]
    simp only [hand, if_neg hrange, hr, hrest]
    refine ⟨_, rfl, ?_, hlast, hcount, hltr⟩
    rw [List.map_append, hlist, hpushed]

theorem convertBits_same (data : Bytes) :
    Bch.convertBits (data.map UInt8.toNat) 8 5 true = .ok ((convertBits data 8 5 true).map UInt8.toNat) := by
  obtain ⟨r, hr, hpushed, hlast, hcount, hlt⟩ := @pushBits_eq 5 (by decide) (by decide) 0 0 (by decide) data
  have hzero : regroup 8 5 0 0 (data.map UInt8.toNat) = .ok r := hr
  rw [Bch.convertBits, hzero, Except.bind, if_pos rfl, convertBits]
  by_cases hpos : r.2.2 > 0
  · have hpad : (true = true ∧ (pushBits 8 5 0 0 data).2.2 > 0) := ⟨rfl, by rw [hcount]; exact hpos⟩
    rw [if_pos hpos, if_pos hpad, List.map_append, hpushed, List.map_singleton, toNat_mask (by decide), hcount,
      (toNat_shift (by omega) _).2, hlast, Nat.one_shiftLeft, Nat.and_two_pow_sub_one_eq_mod,
      Nat.and_two_pow_sub_one_eq_mod, Nat.mod_mod_of_dvd _ (by decide)]
  · have hnone : ¬(true = true ∧ (pushBits 8 5 0 0 data).2.2 > 0) := fun hand => hpos (hcount ▸ hand.2)
    rw [if_neg hpos, if_neg hnone, hpushed]

theorem addGenerators_eq (c0 : UInt8) (gs : List UInt64) (i : Nat) (hlen : i + gs.length ≤ 8) (c : UInt64) :
    (addGenerators c0 i gs c).toNat = mixGenerators c0.toNat i (gs.map UInt64.toNat) c.toNat := by
  induction gs generalizing i c with
  | nil => rfl
  | cons g gs ih =>
    rw [List.length_cons] at hlen
    have hi : (UInt8.ofNat i).toNat % 8 = i := by
      rw [UInt8.toNat_ofNat']
      omega
    have hbit : ((c0 >>> UInt8.ofNat i) &&& 1 = 1) ↔ ((c0.toNat >>> i) &&& 1 = 1) := by
      rw [← UInt8.toNat_inj, UInt8.toNat_and, UInt8.toNat_shiftRight, hi]
      rfl
    rw [addGenerators, List.map_cons, mixGenerators, ih (i + 1) (by omega)]
    by_cases hone : (c0.toNat >>> i) &&& 1 = 1
    · rw [if_pos hone, if_pos (hbit.2 hone), UInt64.toNat_xor]
    · rw [if_neg hone, if_neg fun h => hone (hbit.1 h)]

theorem polymodTurn_eq {c : UInt64} (hc : c.toNat < 2 ^ 40) (v : UInt8) :
    (polymodTurn c v).toNat = polymodStep c.toNat v.toNat := by
  have htop : (c >>> 35).toUInt8.toNat = c.toNat >>> 35 := by
    have hlt : c.toNat >>> 35 < 2 ^ 8 := Nat.lt_trans (top_lt hc) (by decide)
    rw [UInt64.toNat_toUInt8, UInt64.toNat_shiftRight]
    exact Nat.mod_eq_of_lt hlt
  have hmask : c.toNat &&& 0x07ffffffff < 2 ^ 35 :=
    Nat.lt_of_le_of_lt Nat.and_le_right (by decide)
  have hshift : ((c &&& 0x07ffffffff) <<< 5).toNat = (c.toNat &&& 0x07ffffffff) <<< 5 := by
    rw [UInt64.toNat_shiftLeft, UInt64.toNat_and]
    apply Nat.mod_eq_of_lt
    rw [show (0x07ffffffff : UInt64).toNat = 0x07ffffffff from rfl, show (5 : UInt64).toNat % 64 = 5 from rfl,
      Nat.shiftLeft_eq]
    omega
  have hv : v.toNat &&& 0xff = v.toNat := by
    rw [show (0xff : Nat) = 2 ^ 8 - 1 from rfl, Nat.and_two_pow_sub_one_eq_mod, Nat.mod_eq_of_lt v.toNat_lt]
  rw [polymodTurn, addGenerators_eq _ _ 0 (by decide), htop, UInt64.toNat_xor, hshift, UInt8.toNat_toUInt64, polymodStep, hv]
  rfl

theorem foldl_polymodTurn (values : Bytes) {c : UInt64} (hc : c.toNat < 2 ^ 40) :
    (values.foldl polymodTurn c).toNat = (values.map UInt8.toNat).foldl polymodStep c.toNat := by
  induction values generalizing c with
  | nil => rfl
  | cons v values ih =>
    have hstep := polymodTurn_eq hc v
    have hlt : (polymodTurn c v).toNat < 2 ^ 40 := hstep ▸ polymodStep_lt hc v.toNat
    rw [List.foldl_cons, ih hlt, hstep, List.map_cons, List.foldl_cons]

theorem polymod_same (values : Bytes) : (polymodCashaddr values).toNat = cashaddrPolymod (values.map UInt8.toNat) := by
  rw [polymodCashaddr, cashaddrPolymod, UInt64.toNat_xor, foldl_polymodTurn values (by decide)]
  rfl

theorem checksumInput_same (payload5 : Bytes) : (buildCashaddrChecksumInput "bitcoincash" payload5).map UInt8.toNat =
    prefix5 CASHADDR_PREFIX ++ 0 :: payload5.map UInt8.toNat ++ [0, 0, 0, 0, 0, 0, 0, 0] := by
  have hprefix : (("bitcoincash".toList.flatMap String.utf8EncodeChar).map (· &&& 0x1f)).map UInt8.toNat =
      prefix5 CASHADDR_PREFIX := by decide +kernel
  rw [buildCashaddrChecksumInput, List.map_append, List.map_append, hprefix, List.map_cons]
  rfl

theorem checksum_same (poly : UInt64) :
    ((List.range 8).map fun i => ((poly >>> UInt64.ofNat (5 * (7 - i))) &&& 0x1f).toUInt8).map UInt8.toNat =
      checksum5 poly.toNat := by
  rw [List.map_map, checksum5]
  apply List.map_congr_left
  intro i hi
  have hi' := List.mem_range.1 hi
  have hshift : (UInt64.ofNat (5 * (7 - i))).toNat % 64 = 5 * (7 - i) := by
    rw [UInt64.toNat_ofNat']
    omega
  have hlt : poly.toNat >>> (5 * (7 - i)) &&& 0x1f < 2 ^ 8 := Nat.lt_of_le_of_lt Nat.and_le_right (by decide)
  rw [Function.comp, UInt64.toNat_toUInt8, UInt64.toNat_and, UInt64.toNat_shiftRight, hshift]
  exact Nat.mod_eq_of_lt hlt

/-- The address of the Rust signer is the one that the wallet shows. -/
theorem address_same {hash : Bytes} (hlen : hash.length = 20) :
    encodeCashAddr hash .p2pkh = .ok (cashaddrP2pkhAddress "bitcoincash" hash).toList := by
  have hconvert := convertBits_same (0x00 :: hash)
  rw [List.map_cons, show (0x00 : UInt8).toNat = 0x00 from rfl] at hconvert
  rw [encodeCashAddr, hlen, show versionByteFor .p2pkh 20 = .ok 0x00 from rfl, Except.bind, hconvert, Except.map,
    ← checksumInput_same, ← polymod_same]
  have htext (body : List Char) : ("bitcoincash" ++ ":" ++ String.ofList body).toList = CASHADDR_PREFIX ++ ':' :: body := by
    rw [String.toList_append, String.toList_append, @String.toList_ofList body, List.append_assoc]
    rfl
  dsimp only
  rw [← checksum_same, ← List.map_append, List.map_map, cashaddrP2pkhAddress, htext]
  rfl

/-! ## One tree of keys -/

section

variable {h : Hashes} {curve : Secp} {tree : Tree curve}

/-- The key of a place of the account, as `bch-wallet.ts` derives it. -/
def nodeAt (h : Hashes) (tree : Tree curve) (chainIndex : Utxo.UtxoChainIndex) (index : Nat) :
    Except String (HdNode curve) :=
  (walletOf curve tree).child (bchUtxoAccount h curve).accountPath chainIndex index

theorem nodeAt_eq (chainIndex : Utxo.UtxoChainIndex) (index : Nat) :
    nodeAt h tree chainIndex index = tree s!"m/{purpose}'/{slip44}'/0'/{chainIndex.toNat}/{index}" := by
  have hhead : "m/" ++ toString purpose ++ "'/" ++ toString slip44 ++ "'/0'/" = "m/44'/145'/0'" ++ "/" := by decide
  have hpath : Utxo.childPath "m/44'/145'/0'" chainIndex index =
      s!"m/{purpose}'/{slip44}'/0'/{chainIndex.toNat}/{index}" := by
    rw [Utxo.childPath, ← hhead]
    rfl
  exact congrArg tree hpath

theorem deriveAddress_same (node : HdNode curve) :
    deriveAddress h curve node = cashaddrP2pkhAddress "bitcoincash" (h.hash160 node.publicKey) := by
  rw [deriveAddress, getAddress, address_same (h.length_hash160 _)]
  exact String.ofList_toList

theorem utxoAddress_same (index : Nat) :
    utxoAddress h curve tree 0 index = (nodeAt h tree .receive index).toOption.map (deriveAddress h curve) := by
  rw [nodeAt_eq, utxoAddress]
  cases hnode : tree s!"m/{purpose}'/{slip44}'/0'/{Utxo.UtxoChainIndex.receive.toNat}/{index}" with
  | error e =>
    have herr : tree s!"m/{purpose}'/{slip44}'/{0}'/0/{index}" = .error e := hnode
    rw [herr]
    rfl
  | ok node =>
    have hok : tree s!"m/{purpose}'/{slip44}'/{0}'/0/{index}" = .ok node := hnode
    rw [hok]
    simp only [Except.toOption, Option.bind_some, node.pair, Option.map_some, deriveAddress_same]

theorem scanned_same {c : Utxo.UtxoChainIndex} {i n : Nat} {rows : List Utxo.AccountAddress}
    (hrows : Utxo.deriveUtxoAddresses (walletOf curve tree) (bchUtxoAccount h curve) c i n = .ok rows) :
    ∀ row ∈ rows, ∃ node, nodeAt h tree c row.index = .ok node ∧ row.address = deriveAddress h curve node := by
  induction n generalizing i rows with
  | zero =>
    obtain rfl := Except.ok.inj hrows
    exact fun row hrow => absurd hrow List.not_mem_nil
  | succ n ih =>
    rw [Utxo.deriveUtxoAddresses] at hrows
    cases hnode : (walletOf curve tree).child (bchUtxoAccount h curve).accountPath c i with
    | error e =>
      rw [hnode] at hrows
      cases hrows
    | ok node =>
      cases hrest : Utxo.deriveUtxoAddresses (walletOf curve tree) (bchUtxoAccount h curve) c (i + 1) n with
      | error e =>
        rw [hnode, hrest] at hrows
        cases hrows
      | ok rest =>
        rw [hnode, hrest] at hrows
        obtain rfl := Except.ok.inj hrows
        exact List.forall_mem_cons.2 ⟨⟨node, hnode, rfl⟩, ih hrest⟩

/-! ### The table -/

theorem mem_places {p : Nat × Nat} : p ∈ places ↔ ∃ c : Utxo.UtxoChainIndex, p.1 = c.toNat ∧ p.2 < ADDR_GAP := by
  obtain ⟨change, idx⟩ := p
  simp only [places, List.mem_flatMap, List.mem_map, List.mem_range, Prod.mk.injEq]
  refine ⟨fun ⟨c, hc, i, hi, hcc, hii⟩ => ?_, fun ⟨c, hc, hlt⟩ => ?_⟩
  · have hcase : c = 0 ∨ c = 1 := by simpa using hc
    subst hcc hii
    cases hcase with
    | inl hzero => exact ⟨.receive, hzero, hi⟩
    | inr hone => exact ⟨.change, hone, hi⟩
  · refine ⟨change, ?_, idx, hlt, rfl, rfl⟩
    cases c <;> simp [hc, Utxo.UtxoChainIndex.toNat]

/-- A row of the table is a key of the account with the script that locks to it. -/
theorem derivationAt_ok {c : Utxo.UtxoChainIndex} {idx : Nat} {d : Derivation}
    (hd : derivationAt h curve tree c.toNat idx = .ok d) : ∃ node, nodeAt h tree c idx = .ok node ∧
      d = (scriptP2PKH (h.hash160 node.publicKey), node.privateKey, node.publicKey) := by
  rw [derivationAt] at hd
  cases hnode : tree s!"m/{purpose}'/{slip44}'/0'/{c.toNat}/{idx}" with
  | error e =>
    rw [hnode] at hd
    cases hd
  | ok node =>
    rw [hnode] at hd
    exact ⟨node, (nodeAt_eq c idx).trans hnode, (Except.ok.inj hd).symm⟩

theorem mem_derivationsAt {ps : List (Nat × Nat)} {table : List Derivation}
    (hok : derivationsAt h curve tree ps = .ok table) :
    (∀ d ∈ table, ∃ p ∈ ps, derivationAt h curve tree p.1 p.2 = .ok d) ∧
      ∀ p ∈ ps, ∃ d ∈ table, derivationAt h curve tree p.1 p.2 = .ok d := by
  induction ps generalizing table with
  | nil =>
    obtain rfl := Except.ok.inj hok
    exact ⟨fun d hd => absurd hd List.not_mem_nil, fun p hp => absurd hp List.not_mem_nil⟩
  | cons p ps ih =>
    rw [derivationsAt] at hok
    cases hd : derivationAt h curve tree p.1 p.2 with
    | error e =>
      rw [hd] at hok
      cases hok
    | ok d =>
      cases hrest : derivationsAt h curve tree ps with
      | error e =>
        rw [hd, hrest] at hok
        cases hok
      | ok rest =>
        rw [hd, hrest] at hok
        obtain rfl := Except.ok.inj hok
        obtain ⟨ihrow, ihplace⟩ := ih hrest
        refine ⟨List.forall_mem_cons.2 ⟨⟨p, List.mem_cons_self, hd⟩, fun d' hd' => ?_⟩,
          List.forall_mem_cons.2 ⟨⟨d, List.mem_cons_self, hd⟩, fun p' hp' => ?_⟩⟩
        · obtain ⟨p', hp', hat⟩ := ihrow d' hd'
          exact ⟨p', List.mem_cons_of_mem _ hp', hat⟩
        · obtain ⟨d', hd', hat⟩ := ihplace p' hp'
          exact ⟨d', List.mem_cons_of_mem _ hd', hat⟩

/-- The row of a key: the script that locks to it, and the key. -/
def rowOf (h : Hashes) (node : HdNode curve) : Derivation :=
  (scriptP2PKH (h.hash160 node.publicKey), node.privateKey, node.publicKey)

theorem derivationAt_eq_ok {c : Utxo.UtxoChainIndex} {idx : Nat} {d : Derivation} :
    derivationAt h curve tree c.toNat idx = .ok d ↔ ∃ node, nodeAt h tree c idx = .ok node ∧ d = rowOf h node := by
  rw [derivationAt, nodeAt_eq]
  cases tree s!"m/{purpose}'/{slip44}'/0'/{c.toNat}/{idx}" with
  | error e => simp
  | ok node => simp [rowOf, eq_comm]

theorem mem_derivations {table : List Derivation} (hok : derivations h curve tree = .ok table) {d : Derivation} :
    d ∈ table ↔ ∃ c idx node, idx < ADDR_GAP ∧ nodeAt h tree c idx = .ok node ∧ d = rowOf h node := by
  obtain ⟨hrows, hplaces⟩ := mem_derivationsAt hok
  constructor
  · intro hd
    obtain ⟨p, hp, hat⟩ := hrows d hd
    obtain ⟨c, hc, hidx⟩ := mem_places.1 hp
    rw [hc] at hat
    obtain ⟨node, hnode, hrow⟩ := derivationAt_eq_ok.1 hat
    exact ⟨c, p.2, node, hidx, hnode, hrow⟩
  · intro ⟨c, idx, node, hidx, hnode, hrow⟩
    obtain ⟨d', hd', hat⟩ := hplaces (c.toNat, idx) (mem_places.2 ⟨c, rfl, hidx⟩)
    rw [derivationAt_eq_ok.2 ⟨node, hnode, hrow⟩] at hat
    rwa [Except.ok.inj hat]

/-! ### The input that is signed -/

/-- What signing an input with a key of the account comes to. -/
structure SignedWith (h : Hashes) (curve : Secp) (k : Casing) (psbt : Psbt) (i : Nat) (node : HdNode curve)
    (scriptSig : Bytes) : Prop where
  coin : ∃ coin, prevOut psbt i = .ok coin ∧ scriptOf k (deriveAddress h curve node) = .ok coin.scriptPubkey ∧
    ∃ preimage der, bchForkidPreimage h psbt.unsignedTx i coin.scriptPubkey coin.value = some preimage ∧
      curve.sign (h.dsha256 preimage) node.privateKey = .ok der ∧
      scriptSig = pushSlice (der ++ u8 BCH_SIGHASH) ++ pushSlice node.publicKey

theorem buildP2pkhScriptsig_cases (sig pub : Bytes) :
    buildP2pkhScriptsig sig pub = .ok (pushSlice sig ++ pushSlice pub) ∨ ∃ e, buildP2pkhScriptsig sig pub = .error (.sign e) := by
  rw [buildP2pkhScriptsig]
  by_cases hsig : sig.length ≥ 2 ^ 32
  · rw [if_pos hsig]
    exact .inr ⟨_, rfl⟩
  · by_cases hpub : pub.length ≥ 2 ^ 32
    · rw [if_neg hsig, if_pos hpub]
      exact .inr ⟨_, rfl⟩
    · rw [if_neg hsig, if_neg hpub]
      exact .inl rfl

section

variable {psbt : Psbt} {i : Nat} {table : List Derivation} {coin : TxOut} {node : HdNode curve} {preimage : Bytes}

/-- Signing with the row that is found. -/
theorem signInput_cases (hcoin : prevOut psbt i = .ok coin) (hp2pkh : isP2pkh coin.scriptPubkey = true)
    (hfind : table.find? (·.1 == coin.scriptPubkey) = some (rowOf h node))
    (hpre : bchForkidPreimage h psbt.unsignedTx i coin.scriptPubkey coin.value = some preimage) :
    (∃ der, curve.sign (h.dsha256 preimage) node.privateKey = .ok der ∧ signInputP2pkhForkid h curve psbt i table =
      .ok (some (pushSlice (der ++ u8 BCH_SIGHASH) ++ pushSlice node.publicKey))) ∨
    ∃ e, signInputP2pkhForkid h curve psbt i table = .error (.sign e) := by
  rw [signInputP2pkhForkid, hcoin, Except.bind, hp2pkh, hfind, hpre]
  cases hsign : curve.sign (h.dsha256 preimage) node.privateKey with
  | error e => exact .inr ⟨e, by simp [rowOf, hsign]⟩
  | ok der =>
    rcases buildP2pkhScriptsig_cases (der ++ u8 BCH_SIGHASH) node.publicKey with hsig | ⟨e, hsig⟩
    · refine .inl ⟨der, rfl, ?_⟩
      simp only [rowOf, hsign, Bool.not_true, Bool.false_eq_true, if_false]
      exact congrArg (Except.map some) hsig
    · refine .inr ⟨e, ?_⟩
      simp only [rowOf, hsign, Bool.not_true, Bool.false_eq_true, if_false]
      exact congrArg (Except.map some) hsig

theorem signInput_ok {k : Casing} (htable : derivations h curve tree = .ok table) {scriptSig : Bytes}
    (hok : signInputP2pkhForkid h curve psbt i table = .ok (some scriptSig)) :
    ∃ c idx node, idx < ADDR_GAP ∧ nodeAt h tree c idx = .ok node ∧ SignedWith h curve k psbt i node scriptSig := by
  cases hcoin : prevOut psbt i with
  | error e =>
    rw [signInputP2pkhForkid, hcoin] at hok
    cases hok
  | ok coin =>
    cases hp2pkh : isP2pkh coin.scriptPubkey with
    | false =>
      rw [signInputP2pkhForkid, hcoin, Except.bind, hp2pkh] at hok
      cases hok
    | true =>
      cases hfind : table.find? (·.1 == coin.scriptPubkey) with
      | none =>
        rw [signInputP2pkhForkid, hcoin, Except.bind, hp2pkh, hfind] at hok
        cases hok
      | some d =>
        obtain ⟨c, idx, node, hidx, hnode, rfl⟩ := (mem_derivations htable).1 (List.mem_of_find?_eq_some hfind)
        have hscript : scriptP2PKH (h.hash160 node.publicKey) = coin.scriptPubkey := by
          simpa [rowOf] using List.find?_some hfind
        cases hpre : bchForkidPreimage h psbt.unsignedTx i coin.scriptPubkey coin.value with
        | none =>
          rw [signInputP2pkhForkid, hcoin, Except.bind, hp2pkh, hfind, hpre] at hok
          cases hok
        | some preimage =>
          rcases signInput_cases hcoin hp2pkh hfind hpre with ⟨der, hsign, hsigned⟩ | ⟨e, herror⟩
          · rw [hsigned, Except.ok.injEq, Option.some.injEq] at hok
            exact ⟨c, idx, node, hidx, hnode, coin, hcoin, (scriptOf_derived k node).trans (congrArg _ hscript), preimage,
              der, hpre, hsign, hok.symm⟩
          · rw [herror] at hok
            cases hok

theorem isP2pkh_script {hash : Bytes} (hlen : hash.length = 20) : isP2pkh (scriptP2PKH hash) = true := by
  have hscript : scriptP2PKH hash = [0x76, 0xa9, 0x14] ++ (hash ++ [0x88, 0xac]) := by
    simp [scriptP2PKH, u8]
  have hdrop : ([0x76, 0xa9, 0x14] ++ (hash ++ [0x88, 0xac]) : Bytes).drop 23 = [0x88, 0xac] := by
    rw [← List.append_assoc]
    exact List.drop_left' (by simp [hlen])
  rw [isP2pkh, hscript, hdrop]
  simp [hlen]

/-- A coin of an address that the table reaches is not passed over. -/
theorem signInput_reaches (htable : derivations h curve tree = .ok table) (hi : i < psbt.unsignedTx.input.length)
    (hcoin : prevOut psbt i = .ok coin) {c : Utxo.UtxoChainIndex} {idx : Nat} (hidx : idx < ADDR_GAP)
    (hnode : nodeAt h tree c idx = .ok node) (hscript : coin.scriptPubkey = scriptP2PKH (h.hash160 node.publicKey)) :
    (∃ scriptSig, signInputP2pkhForkid h curve psbt i table = .ok (some scriptSig)) ∨
      ∃ e, signInputP2pkhForkid h curve psbt i table = .error (.sign e) := by
  have hmem := (mem_derivations htable).2 ⟨c, idx, node, hidx, hnode, rfl⟩
  have hp2pkh : isP2pkh coin.scriptPubkey = true := hscript ▸ isP2pkh_script (h.length_hash160 _)
  obtain ⟨preimage, hpre⟩ : ∃ preimage, bchForkidPreimage h psbt.unsignedTx i coin.scriptPubkey coin.value = some preimage := by
    rw [bchForkidPreimage, List.getElem?_eq_getElem hi]
    exact ⟨_, rfl⟩
  have hsome : (table.find? (·.1 == coin.scriptPubkey)).isSome = true := by
    rw [List.find?_isSome]
    exact ⟨_, hmem, by simp [rowOf, hscript]⟩
  obtain ⟨d, hfind⟩ := Option.isSome_iff_exists.1 hsome
  obtain ⟨-, -, node', -, -, rfl⟩ := (mem_derivations htable).1 (List.mem_of_find?_eq_some hfind)
  rcases signInput_cases hcoin hp2pkh hfind hpre with ⟨der, -, hsigned⟩ | herror
  · exact .inl ⟨_, hsigned⟩
  · exact .inr herror

end

end

/-! ## The law -/

/-- What is promised of the two implementations. -/
structure AgreeLaw (h : Hashes) (curve : Secp) (k : Casing) : Prop where
  preimages (tx : Transaction) (inputs : List BchInput) (outputs : List BchOutput) (version locktime i : Nat)
    (script : Bytes) (amount : UInt64) : SameData tx inputs outputs version locktime → script.length < 2 ^ 32 →
      (∀ inp, inputs[i]? = some inp → inp.value = amount.toNat) →
      bchForkidPreimage h tx i script amount =
        (buildSighashPreimage h inputs outputs i script version locktime).toOption ∧
      bchForkidPreimage h tx i script amount = digestInput h tx.unsigned BCH_SIGHASH i ⟨script, amount.toNat⟩
  addresses (hash : Bytes) : hash.length = 20 →
    encodeCashAddr hash .p2pkh = .ok (cashaddrP2pkhAddress "bitcoincash" hash).toList
  shown (tree : Tree curve) (index : Nat) :
    utxoAddress h curve tree 0 index = (nodeAt h tree .receive index).toOption.map (deriveAddress h curve)
  scanned (tree : Tree curve) (c : Utxo.UtxoChainIndex) (i n : Nat) (rows : List Utxo.AccountAddress) :
    Utxo.deriveUtxoAddresses (walletOf curve tree) (bchUtxoAccount h curve) c i n = .ok rows → ∀ row ∈ rows,
      ∃ node, nodeAt h tree c row.index = .ok node ∧ row.address = deriveAddress h curve node ∧
        scriptOf k row.address = .ok (scriptP2PKH (h.hash160 node.publicKey))
  signs (tree : Tree curve) (table : List Derivation) (psbt : Psbt) (i : Nat) (scriptSig : Bytes) :
    derivations h curve tree = .ok table → signInputP2pkhForkid h curve psbt i table = .ok (some scriptSig) →
      ∃ c idx node, idx < ADDR_GAP ∧ nodeAt h tree c idx = .ok node ∧ SignedWith h curve k psbt i node scriptSig
  reaches (tree : Tree curve) (table : List Derivation) (psbt : Psbt) (i : Nat) (coin : TxOut)
    (c : Utxo.UtxoChainIndex) (idx : Nat) (node : HdNode curve) : derivations h curve tree = .ok table →
      i < psbt.unsignedTx.input.length → prevOut psbt i = .ok coin → idx < ADDR_GAP → nodeAt h tree c idx = .ok node →
      scriptOf k (deriveAddress h curve node) = .ok coin.scriptPubkey →
      (∃ scriptSig, signInputP2pkhForkid h curve psbt i table = .ok (some scriptSig)) ∨
        ∃ e, signInputP2pkhForkid h curve psbt i table = .error (.sign e)

/-- The preimages and the addresses of the two languages are the same, and an address is signed for with its key. -/
theorem bch_signers_agree (h : Hashes) (curve : Secp) (k : Casing) : AgreeLaw h curve k where
  preimages _ _ _ _ _ i script amount hsame hscript hamount := ⟨preimage_same hsame i script hscript amount hamount,
    preimage_spec hsame.short i script hscript amount⟩
  addresses _ hlen := address_same hlen
  shown _ index := utxoAddress_same index
  scanned tree c i n rows hrows row hrow := by
    obtain ⟨node, hnode, haddress⟩ := scanned_same hrows row hrow
    exact ⟨node, hnode, haddress, haddress ▸ scriptOf_derived k node⟩
  signs _ _ _ _ _ htable hok := signInput_ok htable hok
  reaches _ _ _ _ _ _ _ node htable hi hcoin hidx hnode hscript := by
    rw [scriptOf_derived, Except.ok.injEq] at hscript
    exact signInput_reaches htable hi hcoin hidx hnode hscript.symm

end Bch.Signer
