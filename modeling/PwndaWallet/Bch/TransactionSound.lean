import PwndaWallet.Bch.CashAddrSound
import PwndaWallet.Bch.Transaction
import PwndaWallet.Utxo.SpendSound

/-!
# The transaction that is signed is the one that is sent

The serializer and the preimage are compared with what a node reads and checks.
-/

namespace Bch

open Js Wire Reader Btc

/-! ## Primitives -/

theorem u8_eq (n : Nat) : u8 n = [UInt8.ofNat n] := by
  rw [u8, show (0xff : Nat) = 2 ^ 8 - 1 from rfl, Nat.and_two_pow_sub_one_eq_mod, List.cons.injEq, and_iff_left rfl]
  apply UInt8.toNat_inj.1
  simp

theorem u32LE_eq (n : Nat) : u32LE n = le 4 n := le_mod 4 n

theorem u64LE_eq {n : Int} (hlow : 0 ≤ n) (hhigh : n < 2 ^ 64) : u64LE n = le 8 n.toNat := by
  rw [u64LE, Int.emod_eq_of_lt hlow hhigh]

theorem varInt_eq (n : Nat) : varInt n = CompactSize.write n := by
  rw [varInt, CompactSize.write, u8_eq]

/-! ## Ids -/

def hexDigits : List Char := "0123456789abcdefABCDEF".toList

/-- A transaction id: 64 hexadecimal digits. -/
def IsTxid (txid : String) : Prop := txid.toList.length = 64 ∧ ∀ c ∈ txid.toList, c ∈ hexDigits

theorem digits_table : (hexDigits.all fun a => (unitsOf a).length == 1 && hexDigits.all fun b =>
    Evm.hexByte (Evm.toUint8 (Evm.parseInt16 (unitsOf a ++ unitsOf b))) == [a.toLower, b.toLower] &&
      (unitsOf a).headD 0 != 0x78) = true := by
  decide +kernel

theorem units_of_digit {a : Char} (ha : a ∈ hexDigits) : ∃ u, unitsOf a = [u] := by
  have hrow := List.all_eq_true.1 digits_table a ha
  rw [Bool.and_eq_true, beq_iff_eq] at hrow
  exact List.length_eq_one_iff.1 hrow.1

theorem pair_of_digits {a b : Char} (ha : a ∈ hexDigits) (hb : b ∈ hexDigits) {u v : UInt16} (hu : unitsOf a = [u])
    (hv : unitsOf b = [v]) : Evm.hexByte (Evm.toUint8 (Evm.parseInt16 [u, v])) = [a.toLower, b.toLower] ∧ u ≠ 0x78 := by
  have hrow := List.all_eq_true.1 digits_table a ha
  rw [Bool.and_eq_true] at hrow
  have hcell := List.all_eq_true.1 hrow.2 b hb
  rw [Bool.and_eq_true, beq_iff_eq, hu, hv] at hcell
  exact ⟨hcell.1, by simpa using hcell.2⟩

/-- Digits come back in lower case. -/
theorem hex_of_pairs {l : List Char} (n : Nat) (hlen : l.length = 2 * n) (h : ∀ c ∈ l, c ∈ hexDigits) :
    Evm.bytesToHex (Evm.bytesOfPairs (l.flatMap unitsOf)) = l.map Char.toLower ∧
      (Evm.bytesOfPairs (l.flatMap unitsOf)).length = n := by
  induction n generalizing l with
  | zero =>
    obtain rfl := List.eq_nil_of_length_eq_zero hlen
    exact ⟨rfl, rfl⟩
  | succ n ih =>
    match l, hlen with
    | a :: b :: l, hlen =>
      have ha := h a List.mem_cons_self
      have hb := h b (List.mem_cons_of_mem _ List.mem_cons_self)
      obtain ⟨u, hu⟩ := units_of_digit ha
      obtain ⟨v, hv⟩ := units_of_digit hb
      have hl : l.length = 2 * n := by
        simp only [List.length_cons] at hlen
        omega
      obtain ⟨ihhex, ihlen⟩ := ih hl fun c hc => h c (List.mem_cons_of_mem _ (List.mem_cons_of_mem _ hc))
      have hunits : (a :: b :: l).flatMap unitsOf = u :: v :: l.flatMap unitsOf := by
        simp [hu, hv]
      rw [hunits, Evm.bytesOfPairs]
      refine ⟨?_, by rw [List.length_cons, ihlen]⟩
      have hcons (x : UInt8) (b : Bytes) : Evm.bytesToHex (x :: b) = Evm.hexByte x ++ Evm.bytesToHex b := rfl
      rw [hcons, (pair_of_digits ha hb hu hv).1, ihhex]
      rfl

/-- No digits begin with `0x`. -/
theorem strip_of_digits {l : List Char} (h : ∀ c ∈ l, c ∈ hexDigits) :
    Evm.strip0x (l.flatMap unitsOf) = l.flatMap unitsOf := by
  match l with
  | [] => rfl
  | [a] =>
    obtain ⟨u, hu⟩ := units_of_digit (h a List.mem_cons_self)
    simp [hu, Evm.strip0x]
  | a :: b :: l =>
    have ha := h a List.mem_cons_self
    have hb := h b (List.mem_cons_of_mem _ List.mem_cons_self)
    obtain ⟨u, hu⟩ := units_of_digit ha
    obtain ⟨v, hv⟩ := units_of_digit hb
    have hne : v ≠ 0x78 := (pair_of_digits hb ha hv hu).2
    have hunits : (a :: b :: l).flatMap unitsOf = u :: v :: l.flatMap unitsOf := by
      simp [hu, hv]
    rw [hunits]
    unfold Evm.strip0x
    split
    · rename_i heq
      rw [List.cons.injEq, List.cons.injEq] at heq
      exact absurd heq.2.1 hne
    · rfl

theorem IsTxid.bytes {txid : String} (h : IsTxid txid) : (hexToBytes txid).length = 32 ∧
    bytesToHex (hexToBytes txid) = String.ofList (txid.toList.map Char.toLower) := by
  have hpairs := hex_of_pairs 32 h.1 h.2
  rw [bytesToHex, hexToBytes, Evm.hexToBytes, strip_of_digits h.2]
  exact ⟨hpairs.2, by rw [hpairs.1]⟩

/-! ## What is read back -/

/-- The engine's arrays are shorter than this. -/
def Short {α : Type} (l : List α) : Prop := l.length < 2 ^ 64

structure BchInput.InRange (i : BchInput) : Prop where
  txid : IsTxid i.txid
  vout : i.vout < 2 ^ 32
  nonneg : 0 ≤ i.value
  value : i.value < 2 ^ 64
  sequence : i.sequence.getD 0xffffffff < 2 ^ 32

structure BchOutput.InRange (o : BchOutput) : Prop where
  nonneg : 0 ≤ o.value
  value : o.value < 2 ^ 64
  script : Short o.scriptPubKey

/-- The input that a node sees. -/
def BchInput.seen (i : BchInput) (script : Bytes) : TxIn where
  hash := reverseBytes (hexToBytes i.txid)
  index := i.vout
  sequence := i.sequence.getD 0xffffffff
  script := script

def BchOutput.seen (o : BchOutput) : TxOut := ⟨o.scriptPubKey, o.value.toNat⟩

/-- The transaction of these parts. -/
def transactionOf (inputs : List BchInput) (outputs : List BchOutput) (scriptSigs : List Bytes) (version locktime : Nat) :
    Transaction where
  version := version
  ins := List.zipWith BchInput.seen inputs scriptSigs
  outs := outputs.map BchOutput.seen
  locktime := locktime

def writeTxIn (i : TxIn) : Bytes :=
  i.hash ++ (le 4 i.index ++ (CompactSize.writeBytes i.script ++ le 4 i.sequence))

theorem reads_txIn {i : TxIn} (hhash : i.hash.length = 32) (hindex : i.index < 2 ^ 32) (hscript : Short i.script)
    (hsequence : i.sequence < 2 ^ 32) (hwitness : i.witness = []) : Reader.Reads readTxIn (writeTxIn i) i := by
  obtain ⟨hash, index, sequence, script, witness⟩ := i
  obtain rfl : witness = [] := hwitness
  refine Reader.Reads.bind (Reader.Reads.take hhash) ?_
  refine Reader.Reads.bind (Reader.Reads.leNum (w := 4) hindex) ?_
  refine Reader.Reads.bind (CompactSize.reads_bytes hscript) ?_
  exact (Reader.Reads.leNum (w := 4) hsequence).bind_pure fun sequence =>
    ({ hash, index, sequence, script } : TxIn)

theorem reads_txOut {o : TxOut} (hvalue : o.value < 2 ^ 64) (hscript : Short o.script) :
    Reader.Reads readTxOut (writeTxOut o) o :=
  (Reader.Reads.leNum (w := 8) hvalue).bind ((CompactSize.reads_bytes hscript).bind_pure fun script =>
    ({ script, value := o.value } : TxOut))

def writeTransaction (tx : Transaction) : Bytes :=
  le 4 tx.version ++ (CompactSize.writeList writeTxIn tx.ins ++ (CompactSize.writeList writeTxOut tx.outs ++
    le 4 tx.locktime))

theorem reads_transaction {tx : Transaction} (hversion : tx.version < 2 ^ 32) (hlocktime : tx.locktime < 2 ^ 32)
    (hins : Short tx.ins) (houts : Short tx.outs) (hin : ∀ i ∈ tx.ins, Reader.Reads readTxIn (writeTxIn i) i)
    (hout : ∀ o ∈ tx.outs, Reader.Reads readTxOut (writeTxOut o) o) : Reader.Reads readTransaction (writeTransaction tx) tx :=
  (Reader.Reads.leNum (w := 4) hversion).bind ((CompactSize.reads_list hins hin).bind ((CompactSize.reads_list houts hout).bind
    ((Reader.Reads.leNum (w := 4) hlocktime).bind_pure fun locktime =>
      ({ version := tx.version, ins := tx.ins, outs := tx.outs, locktime } : Transaction))))

/-! ## What is written -/

section

variable {inputs : List BchInput} {outputs : List BchOutput} {scriptSigs : List Bytes} {version locktime : Nat}

theorem BchOutput.serialized_eq {o : BchOutput} (h : o.InRange) : o.serialized = writeTxOut o.seen := by
  rw [BchOutput.serialized, u64LE_eq h.nonneg h.value, varInt_eq, writeTxOut, List.append_assoc]
  rfl

theorem serializedOutputs (h : ∀ o ∈ outputs, o.InRange) :
    outputs.flatMap BchOutput.serialized = (outputs.map BchOutput.seen).flatMap writeTxOut := by
  rw [List.flatMap_map, List.flatMap_def, List.flatMap_def,
    List.map_congr_left fun o ho => BchOutput.serialized_eq (h o ho)]

theorem serializedInputs_eq (hlen : scriptSigs.length = inputs.length) :
    serializedInputs inputs scriptSigs = .ok ((List.zipWith BchInput.seen inputs scriptSigs).flatMap writeTxIn) := by
  induction inputs generalizing scriptSigs with
  | nil => rfl
  | cons inp inputs ih =>
    cases scriptSigs with
    | nil => cases hlen
    | cons s scriptSigs =>
      rw [serializedInputs, ih (by simpa using hlen), Except.map, List.zipWith_cons_cons, List.flatMap_cons, writeTxIn,
        CompactSize.writeBytes, u32LE_eq, varInt_eq, BchInput.sequenceBytes, u32LE_eq]
      simp only [List.append_assoc]
      rfl

theorem serializeSignedTx_eq (hout : ∀ o ∈ outputs, o.InRange) (hlen : scriptSigs.length = inputs.length) :
    serializeSignedTx inputs outputs scriptSigs version locktime =
      .ok (bytesToHex (writeTransaction (transactionOf inputs outputs scriptSigs version locktime))) := by
  have hins : (List.zipWith BchInput.seen inputs scriptSigs).length = inputs.length := by
    rw [List.length_zipWith, hlen, Nat.min_self]
  rw [serializeSignedTx, serializedInputs_eq hlen, Except.map, serializedOutputs hout, u32LE_eq, u32LE_eq, varInt_eq,
    varInt_eq, writeTransaction, CompactSize.writeList, CompactSize.writeList, transactionOf]
  simp only [hins, List.length_map, List.append_assoc]

theorem seen_of_mem {i : TxIn} (h : i ∈ List.zipWith BchInput.seen inputs scriptSigs) :
    ∃ inp ∈ inputs, ∃ s ∈ scriptSigs, i = inp.seen s := by
  induction inputs generalizing scriptSigs with
  | nil => cases h
  | cons inp inputs ih =>
    cases scriptSigs with
    | nil => cases h
    | cons s scriptSigs =>
      rcases List.mem_cons.1 h with rfl | h
      · exact ⟨inp, List.mem_cons_self, s, List.mem_cons_self, rfl⟩
      · obtain ⟨inp', hinp, s', hs, rfl⟩ := ih h
        exact ⟨inp', List.mem_cons_of_mem _ hinp, s', List.mem_cons_of_mem _ hs, rfl⟩

/-- Ids of 32 bytes, indices and sequence numbers of 32 bits, values of 64. -/
structure Ranges (inputs : List BchInput) (outputs : List BchOutput) (scriptSigs : List Bytes) : Prop where
  input : ∀ i ∈ inputs, i.InRange
  output : ∀ o ∈ outputs, o.InRange
  script : ∀ s ∈ scriptSigs, Short s
  ins : Short inputs
  outs : Short outputs

/-- The parts of a transaction that has a serialization of its own. -/
structure Parts (inputs : List BchInput) (outputs : List BchOutput) (scriptSigs : List Bytes) (version locktime : Nat) : Prop
    extends Ranges inputs outputs scriptSigs where
  count : scriptSigs.length = inputs.length
  version : version < 2 ^ 32
  locktime : locktime < 2 ^ 32

/-- What is sent is read as it was put together, with nothing left over. -/
theorem Parts.parses (h : Parts inputs outputs scriptSigs version locktime) :
    ∃ bytes, serializeSignedTx inputs outputs scriptSigs version locktime = .ok (bytesToHex bytes) ∧
      whole readTransaction bytes = some (transactionOf inputs outputs scriptSigs version locktime) := by
  refine ⟨_, serializeSignedTx_eq h.output h.count, Reader.Reads.whole ?_⟩
  refine reads_transaction h.version h.locktime ?_ ?_ (fun i hi => ?_) fun o ho => ?_
  · have hins := h.ins
    rw [transactionOf, Short, List.length_zipWith, h.count, Nat.min_self]
    exact hins
  · have houts := h.outs
    rw [transactionOf, Short, List.length_map]
    exact houts
  · obtain ⟨inp, hinp, s, hs, rfl⟩ := seen_of_mem hi
    have hrange := h.input inp hinp
    refine reads_txIn ?_ hrange.vout (h.script s hs) hrange.sequence rfl
    rw [BchInput.seen, reverseBytes, List.length_reverse]
    exact hrange.txid.bytes.1
  · obtain ⟨o', ho', rfl⟩ := List.mem_map.1 ho
    have hrange := h.output o' ho'
    have hnonneg := hrange.nonneg
    have hvalue := hrange.value
    refine reads_txOut ?_ hrange.script
    show o'.value.toNat < 2 ^ 64
    omega

/-! ## Preimages -/

variable {h : Hashes} {i : Nat} {script : Bytes}

theorem flatMap_seen {f : TxIn → Bytes} {g : BchInput → Bytes} (hlen : scriptSigs.length = inputs.length)
    (hfg : ∀ inp s, f (BchInput.seen inp s) = g inp) :
    (List.zipWith BchInput.seen inputs scriptSigs).flatMap f = inputs.flatMap g := by
  induction inputs generalizing scriptSigs with
  | nil => rfl
  | cons inp inputs ih =>
    cases scriptSigs with
    | nil => cases hlen
    | cons s scriptSigs => rw [List.zipWith_cons_cons, List.flatMap_cons, List.flatMap_cons, hfg, ih (by simpa using hlen)]

theorem hash_flags : anyoneCanPay BCH_SIGHASH = false ∧ signsNone BCH_SIGHASH = false ∧ signsSingle BCH_SIGHASH = false := by
  decide

/-- The preimage is what the digest algorithm asks for, with the value of the input's own entry. -/
theorem preimage_eq (hout : ∀ o ∈ outputs, o.InRange) (hlen : scriptSigs.length = inputs.length) {inp : BchInput}
    (hi : inputs[i]? = some inp) (hinp : inp.InRange) :
    (buildSighashPreimage h inputs outputs i script version locktime).toOption =
      digestInput h (transactionOf inputs outputs scriptSigs version locktime) BCH_SIGHASH i ⟨script, inp.value.toNat⟩ := by
  obtain ⟨hanyone, hnone, hsingle⟩ := hash_flags
  obtain ⟨s, hs⟩ : ∃ s, scriptSigs[i]? = some s := by
    obtain ⟨hlt, -⟩ := List.getElem?_eq_some_iff.1 hi
    exact ⟨_, List.getElem?_eq_getElem (hlen ▸ hlt)⟩
  have hins : (List.zipWith BchInput.seen inputs scriptSigs)[i]? = some (inp.seen s) := by
    rw [List.getElem?_zipWith, hi, hs]
  have hprevouts : (List.zipWith BchInput.seen inputs scriptSigs).flatMap writeOutpoint = inputs.flatMap BchInput.outpoint :=
    flatMap_seen hlen fun inp s => by rw [writeOutpoint, BchInput.outpoint, u32LE_eq]; rfl
  have hsequences : ((List.zipWith BchInput.seen inputs scriptSigs).flatMap fun i => le 4 i.sequence) =
      inputs.flatMap BchInput.sequenceBytes :=
    flatMap_seen hlen fun inp s => by rw [BchInput.sequenceBytes, u32LE_eq]; rfl
  rw [buildSighashPreimage, hi, digestInput, transactionOf]
  simp only [hins, Option.map_some, Except.toOption, Option.some.injEq, hashPrevouts, hashSequence, hashOutputs, hanyone,
    hnone, hsingle, hprevouts, hsequences, Bool.false_or, Bool.false_eq_true, if_false, serializedOutputs hout]
  rw [u32LE_eq, u32LE_eq, u32LE_eq, u32LE_eq, varInt_eq, u64LE_eq hinp.nonneg hinp.value, BchInput.sequenceBytes,
    u32LE_eq, CompactSize.writeBytes, writeOutpoint]
  simp only [BchInput.seen, List.append_assoc]

end

/-! ## One preimage, one transaction -/

/-- The fields of a preimage. -/
structure Preimage where
  version : Nat
  prevouts : Bytes
  sequences : Bytes
  outpoint : Bytes × Nat
  script : Bytes
  value : Nat
  sequence : Nat
  outputs : Bytes
  locktime : Nat
  hashType : Nat
deriving DecidableEq

def readOutpoint : Reader (Bytes × Nat) := do
  let hash ← take 32
  let index ← leNum 4
  return (hash, index)

def readPreimage : Reader Preimage := do
  let version ← leNum 4
  let prevouts ← take 32
  let sequences ← take 32
  let outpoint ← readOutpoint
  let script ← CompactSize.readBytes
  let value ← leNum 8
  let sequence ← leNum 4
  let outputs ← take 32
  let locktime ← leNum 4
  let hashType ← leNum 4
  return { version, prevouts, sequences, outpoint, script, value, sequence, outputs, locktime, hashType }

theorem reads_outpoint {hash : Bytes} {index : Nat} (hhash : hash.length = 32) (hindex : index < 2 ^ 32) :
    Reader.Reads readOutpoint (hash ++ le 4 index) (hash, index) := by
  refine Reader.Reads.bind (Reader.Reads.take hhash) ?_
  exact (Reader.Reads.leNum (w := 4) hindex).bind_pure fun index => (hash, index)

/-- Lists of encodings that a reader undoes are told apart. -/
theorem flatMap_inj {α : Type} {r : Reader α} {enc : α → Bytes} {l l' : List α} (hl : ∀ a ∈ l, Reader.Reads r (enc a) a)
    (hl' : ∀ a ∈ l', Reader.Reads r (enc a) a) (hne : ∀ a, enc a ≠ []) (h : l.flatMap enc = l'.flatMap enc) : l = l' := by
  induction l generalizing l' with
  | nil =>
    cases l' with
    | nil => rfl
    | cons a' l' =>
      rw [List.flatMap_nil, List.flatMap_cons] at h
      exact absurd (List.append_eq_nil_iff.1 h.symm).1 (hne a')
  | cons a l ih =>
    cases l' with
    | nil =>
      rw [List.flatMap_nil, List.flatMap_cons] at h
      exact absurd (List.append_eq_nil_iff.1 h).1 (hne a)
    | cons a' l' =>
      rw [List.flatMap_cons, List.flatMap_cons] at h
      obtain ⟨rfl, hrest⟩ := Reader.Reads.inj (hl a List.mem_cons_self) (hl' a' List.mem_cons_self) h
      rw [ih (fun b hb => hl b (List.mem_cons_of_mem _ hb)) (fun b hb => hl' b (List.mem_cons_of_mem _ hb)) hrest]

section

variable {inputs inputs' : List BchInput} {outputs outputs' : List BchOutput}

/-- What a preimage tells of an input beside its own: where its coin is. -/
def BchInput.place (i : BchInput) : Bytes × Nat := (reverseBytes (hexToBytes i.txid), i.vout)

/-- `nSequence`, which is the highest if it is not given. -/
def BchInput.nSequence (i : BchInput) : Nat := i.sequence.getD 0xffffffff

theorem length_place {i : BchInput} (h : i.InRange) : i.place.1.length = 32 := by
  rw [BchInput.place, reverseBytes, List.length_reverse]
  exact h.txid.bytes.1

theorem outpoints_inj (h : ∀ i ∈ inputs, i.InRange) (h' : ∀ i ∈ inputs', i.InRange)
    (heq : inputs.flatMap BchInput.outpoint = inputs'.flatMap BchInput.outpoint) :
    inputs.map BchInput.place = inputs'.map BchInput.place := by
  have hplaces (l : List BchInput) : l.flatMap BchInput.outpoint =
      (l.map BchInput.place).flatMap fun p => p.1 ++ le 4 p.2 := by
    rw [List.flatMap_map, List.flatMap_def, List.flatMap_def]
    exact congrArg List.flatten (List.map_congr_left fun i _ => by rw [BchInput.outpoint, u32LE_eq]; rfl)
  have hreads (l : List BchInput) (hl : ∀ i ∈ l, i.InRange) :
      ∀ p ∈ l.map BchInput.place, Reader.Reads readOutpoint (p.1 ++ le 4 p.2) p := by
    intro p hp
    obtain ⟨i, hi, rfl⟩ := List.mem_map.1 hp
    exact reads_outpoint (length_place (hl i hi)) (hl i hi).vout
  rw [hplaces, hplaces] at heq
  exact flatMap_inj (hreads _ h) (hreads _ h') (fun p => by simp [le]) heq

theorem sequences_inj (h : ∀ i ∈ inputs, i.InRange) (h' : ∀ i ∈ inputs', i.InRange)
    (heq : inputs.flatMap BchInput.sequenceBytes = inputs'.flatMap BchInput.sequenceBytes) :
    inputs.map BchInput.nSequence = inputs'.map BchInput.nSequence := by
  have hnumbers (l : List BchInput) : l.flatMap BchInput.sequenceBytes = (l.map BchInput.nSequence).flatMap (le 4) := by
    rw [List.flatMap_map, List.flatMap_def, List.flatMap_def]
    exact congrArg List.flatten (List.map_congr_left fun i _ => by rw [BchInput.sequenceBytes, u32LE_eq]; rfl)
  have hreads (l : List BchInput) (hl : ∀ i ∈ l, i.InRange) :
      ∀ n ∈ l.map BchInput.nSequence, Reader.Reads (leNum 4) (le 4 n) n := by
    intro n hn
    obtain ⟨i, hi, rfl⟩ := List.mem_map.1 hn
    exact Reader.Reads.leNum (hl i hi).sequence
  rw [hnumbers, hnumbers] at heq
  exact flatMap_inj (hreads _ h) (hreads _ h') (fun n => by simp [le]) heq

theorem seen_inj {o o' : BchOutput} (h : o.InRange) (h' : o'.InRange) (heq : o.seen = o'.seen) : o = o' := by
  obtain ⟨value, script⟩ := o
  obtain ⟨value', script'⟩ := o'
  have hnonneg := h.nonneg
  have hnonneg' := h'.nonneg
  rw [BchOutput.seen, BchOutput.seen, TxOut.mk.injEq] at heq
  obtain ⟨rfl, hvalue⟩ := heq
  dsimp only at hnonneg hnonneg' hvalue
  rw [show value = value' by omega]

theorem outputs_inj (h : ∀ o ∈ outputs, o.InRange) (h' : ∀ o ∈ outputs', o.InRange)
    (heq : outputs.flatMap BchOutput.serialized = outputs'.flatMap BchOutput.serialized) : outputs = outputs' := by
  have hreads (l : List BchOutput) (hl : ∀ o ∈ l, o.InRange) :
      ∀ o ∈ l.map BchOutput.seen, Reader.Reads readTxOut (writeTxOut o) o := by
    intro o ho
    obtain ⟨o', ho', rfl⟩ := List.mem_map.1 ho
    have hrange := hl o' ho'
    have hnonneg := hrange.nonneg
    have hvalue := hrange.value
    refine reads_txOut ?_ hrange.script
    show o'.value.toNat < 2 ^ 64
    omega
  rw [serializedOutputs h, serializedOutputs h'] at heq
  have hseen := flatMap_inj (hreads _ h) (hreads _ h') (fun o => by simp [writeTxOut, le]) heq
  clear heq hreads
  induction outputs generalizing outputs' with
  | nil =>
    cases outputs' with
    | nil => rfl
    | cons o' outputs' => cases hseen
  | cons o outputs ih =>
    cases outputs' with
    | nil => cases hseen
    | cons o' outputs' =>
      rw [List.map_cons, List.map_cons, List.cons.injEq] at hseen
      rw [seen_inj (h o List.mem_cons_self) (h' o' List.mem_cons_self) hseen.1,
        ih (fun b hb => h b (List.mem_cons_of_mem _ hb)) (fun b hb => h' b (List.mem_cons_of_mem _ hb)) hseen.2]

/-! ### The preimage as it is read -/

variable {h : Hashes} {i : Nat} {script script' preimage : Bytes} {version version' locktime locktime' : Nat}

/-- What the preimage of an input tells. -/
def preimageOf (h : Hashes) (inputs : List BchInput) (outputs : List BchOutput) (inp : BchInput) (script : Bytes)
    (version locktime : Nat) : Preimage where
  version := version
  prevouts := h.dsha256 (inputs.flatMap BchInput.outpoint)
  sequences := h.dsha256 (inputs.flatMap BchInput.sequenceBytes)
  outpoint := inp.place
  script := script
  value := inp.value.toNat
  sequence := inp.nSequence
  outputs := h.dsha256 (outputs.flatMap BchOutput.serialized)
  locktime := locktime
  hashType := BCH_SIGHASH

theorem reads_preimage {inp : BchInput} (hi : inputs[i]? = some inp) (hinp : inp.InRange) (hscript : Short script)
    (hversion : version < 2 ^ 32) (hlocktime : locktime < 2 ^ 32)
    (hpre : buildSighashPreimage h inputs outputs i script version locktime = .ok preimage) :
    Reader.Reads readPreimage preimage (preimageOf h inputs outputs inp script version locktime) := by
  have hnonneg := hinp.nonneg
  have hvalue := hinp.value
  rw [buildSighashPreimage, hi] at hpre
  simp only [Except.ok.injEq] at hpre
  rw [← hpre, u32LE_eq, u32LE_eq, u32LE_eq, u32LE_eq, varInt_eq, u64LE_eq hnonneg hvalue, BchInput.sequenceBytes,
    u32LE_eq]
  simp only [List.append_assoc]
  refine Reader.Reads.bind (Reader.Reads.leNum (w := 4) hversion) ?_
  refine Reader.Reads.bind (Reader.Reads.take (h.length_dsha256 _)) ?_
  refine Reader.Reads.bind (Reader.Reads.take (h.length_dsha256 _)) ?_
  rw [← List.append_assoc]
  refine Reader.Reads.bind (reads_outpoint (length_place hinp) hinp.vout) ?_
  rw [← List.append_assoc]
  refine Reader.Reads.bind (CompactSize.reads_bytes hscript) ?_
  refine Reader.Reads.bind (Reader.Reads.leNum (w := 8) (n := inp.value.toNat) (by omega)) ?_
  refine Reader.Reads.bind (Reader.Reads.leNum (w := 4) hinp.sequence) ?_
  refine Reader.Reads.bind (Reader.Reads.take (h.length_dsha256 _)) ?_
  refine Reader.Reads.bind (Reader.Reads.leNum (w := 4) hlocktime) ?_
  exact (Reader.Reads.leNum (w := 4) (by decide)).bind_pure fun hashType =>
    ({ preimageOf h inputs outputs inp script version locktime with hashType } : Preimage)

/-- Two messages of the hash come to the same. -/
def Collision (h : Hashes) : Prop := ∃ x y, x ≠ y ∧ h.dsha256 x = h.dsha256 y

theorem eq_or_collision {x y : Bytes} (heq : h.dsha256 x = h.dsha256 y) : x = y ∨ Collision h := by
  by_cases hxy : x = y
  · exact .inl hxy
  · exact .inr ⟨x, y, hxy, heq⟩

/-- What two signings with one preimage have in common. -/
structure Agree (inputs inputs' : List BchInput) (outputs outputs' : List BchOutput) (i : Nat) (script script' : Bytes)
    (version version' locktime locktime' : Nat) : Prop where
  places : inputs.map BchInput.place = inputs'.map BchInput.place
  sequences : inputs.map BchInput.nSequence = inputs'.map BchInput.nSequence
  outputs : outputs = outputs'
  value : (inputs[i]?).map BchInput.value = (inputs'[i]?).map BchInput.value
  script : script = script'
  version : version = version'
  locktime : locktime = locktime'

theorem agree_or_collision (hin : ∀ i ∈ inputs, i.InRange) (hin' : ∀ i ∈ inputs', i.InRange)
    (hout : ∀ o ∈ outputs, o.InRange) (hout' : ∀ o ∈ outputs', o.InRange) (hscript : Short script)
    (hscript' : Short script') (hversion : version < 2 ^ 32) (hversion' : version' < 2 ^ 32)
    (hlocktime : locktime < 2 ^ 32) (hlocktime' : locktime' < 2 ^ 32)
    (hpre : buildSighashPreimage h inputs outputs i script version locktime = .ok preimage)
    (hpre' : buildSighashPreimage h inputs' outputs' i script' version' locktime' = .ok preimage) :
    Agree inputs inputs' outputs outputs' i script script' version version' locktime locktime' ∨ Collision h := by
  have hsome {inputs : List BchInput} {outputs : List BchOutput} {script : Bytes} {version locktime : Nat}
      (hpre : buildSighashPreimage h inputs outputs i script version locktime = .ok preimage) :
      ∃ inp, inputs[i]? = some inp := by
    cases hi : inputs[i]? with
    | none =>
      rw [buildSighashPreimage, hi] at hpre
      cases hpre
    | some inp => exact ⟨inp, rfl⟩
  obtain ⟨inp, hi⟩ := hsome hpre
  obtain ⟨inp', hi'⟩ := hsome hpre'
  have hinp := hin inp (List.mem_of_getElem? hi)
  have hinp' := hin' inp' (List.mem_of_getElem? hi')
  have hsame := (reads_preimage hi hinp hscript hversion hlocktime hpre).eq_of_eq
    (reads_preimage hi' hinp' hscript' hversion' hlocktime' hpre')
  simp only [preimageOf, Preimage.mk.injEq, and_true] at hsame
  obtain ⟨rfl, hprevouts, hsequences, -, rfl, hvalue, -, houtputs, rfl⟩ := hsame
  rcases eq_or_collision hprevouts with hprevouts | hcollision
  · rcases eq_or_collision hsequences with hsequences | hcollision
    · rcases eq_or_collision houtputs with houtputs | hcollision
      · have hnonneg := hinp.nonneg
        have hnonneg' := hinp'.nonneg
        refine .inl ⟨outpoints_inj hin hin' hprevouts, sequences_inj hin hin' hsequences,
          outputs_inj hout hout' houtputs, ?_, rfl, rfl, rfl⟩
        rw [hi, hi', Option.map_some, Option.map_some, show inp.value = inp'.value by omega]
      · exact .inr hcollision
    · exact .inr hcollision
  · exact .inr hcollision

end

/-! ## Signing -/

section Signing

variable {h : Hashes} {curve : Secp} {k : Casing} {base58 : List Char → Option Bytes}
  {sources : List (String × Utxo.AccountSpendSource (HdNode curve))}

/-- The key is that of the source of its address. -/
structure KeyFor (h : Hashes) (sources : List (String × Utxo.AccountSpendSource (HdNode curve))) (address : String)
    (key : SigningKey) : Prop where
  source : ∃ src, Utxo.getSource sources address = some src ∧ key.priv = src.node.privateKey
  pub : curve.pointFromScalar key.priv = some key.pub
  script : key.script = scriptP2PKH (h.hash160 key.pub)

theorem addKey_ok {keys keys' : KeyMap} {c : Utxo.AccountSpendCandidate} (hok : addKey h curve sources keys c = .ok keys')
    (hkeys : ∀ e ∈ keys, KeyFor h sources e.1 e.2) : ∀ e ∈ keys', KeyFor h sources e.1 e.2 := by
  rw [addKey] at hok
  by_cases hhas : (keyAt keys c.address).isSome = true
  · rw [if_pos hhas, Except.ok.injEq] at hok
    rwa [← hok]
  · rw [if_neg hhas] at hok
    cases hsrc : Utxo.getSource sources c.address with
    | none => simp [hsrc] at hok
    | some src =>
      simp only [hsrc, pubkeyFromPriv] at hok
      cases hpub : curve.pointFromScalar src.node.privateKey with
      | none => simp [hpub, Except.map] at hok
      | some pub =>
        simp only [hpub, Except.map, Except.ok.injEq] at hok
        subst hok
        intro e he
        rcases List.mem_append.1 he with he | he
        · exact hkeys e he
        · rw [List.mem_singleton.1 he]
          exact ⟨⟨src, hsrc, rfl⟩, hpub, rfl⟩

theorem keysFor_ok {cs : List Utxo.AccountSpendCandidate} {keys keys' : KeyMap}
    (hok : keysFor h curve sources cs keys = .ok keys') (hkeys : ∀ e ∈ keys, KeyFor h sources e.1 e.2) :
    ∀ e ∈ keys', KeyFor h sources e.1 e.2 := by
  induction cs generalizing keys with
  | nil =>
    rw [keysFor, Except.ok.injEq] at hok
    rwa [← hok]
  | cons c cs ih =>
    rw [keysFor] at hok
    cases hadd : addKey h curve sources keys c with
    | error e => simp [hadd, Except.bind] at hok
    | ok keys₁ =>
      rw [hadd] at hok
      exact ih hok (addKey_ok hadd hkeys)

theorem keyAt_mem {keys : KeyMap} {address : String} {key : SigningKey} (hat : keyAt keys address = some key) :
    (address, key) ∈ keys := by
  obtain ⟨e, he, rfl⟩ := Option.map_eq_some_iff.1 hat
  have hkey : e.1 = address := by simpa using List.find?_some he
  rw [← hkey]
  exact List.mem_of_find?_eq_some he

/-- The rows of two loops over the same list, side by side. -/
theorem bchInputs_ok {cs : List Utxo.AccountSpendCandidate} {inputs : List BchInput} (hok : bchInputs cs = .ok inputs) :
    List.Forall₂ (fun (c : Utxo.AccountSpendCandidate) (inp : BchInput) => inp.txid = c.txid ∧ inp.vout = c.vout ∧
      inp.sequence = none ∧ (inp.value : Rat) = c.valueSat) cs inputs := by
  induction cs generalizing inputs with
  | nil =>
    rw [bchInputs, Except.ok.injEq] at hok
    rw [← hok]
    exact .nil
  | cons c cs ih =>
    rw [bchInputs, bigInt] at hok
    by_cases hden : c.valueSat.den = 1
    · simp only [if_pos hden, Except.bind] at hok
      cases hrest : bchInputs cs with
      | error e => simp [hrest, Except.map] at hok
      | ok rest =>
        rw [hrest, Except.map, Except.ok.injEq] at hok
        rw [← hok]
        exact .cons ⟨rfl, rfl, rfl, Rat.den_eq_one_iff _ |>.1 hden⟩ (ih hrest)
    · simp [if_neg hden, Except.bind] at hok

theorem scriptSigsFrom_ok {keys : KeyMap} {inputs : List BchInput} {outputs : List BchOutput}
    {cs : List Utxo.AccountSpendCandidate} {i : Nat} {sigs : List Bytes}
    (hok : scriptSigsFrom h curve keys inputs outputs i cs = .ok sigs) : sigs.length = cs.length ∧
      ∀ j c, cs[j]? = some c → ∃ s, sigs[j]? = some s ∧
        scriptSigFor h curve keys inputs outputs c.address (i + j) = .ok s := by
  induction cs generalizing i sigs with
  | nil =>
    rw [scriptSigsFrom, Except.ok.injEq] at hok
    rw [← hok]
    exact ⟨rfl, fun j c hc => by simp at hc⟩
  | cons c cs ih =>
    rw [scriptSigsFrom] at hok
    cases hsig : scriptSigFor h curve keys inputs outputs c.address i with
    | error e => simp [hsig, Except.bind] at hok
    | ok s =>
      simp only [hsig, Except.bind] at hok
      cases hrest : scriptSigsFrom h curve keys inputs outputs (i + 1) cs with
      | error e => simp [hrest, Except.map] at hok
      | ok rest =>
        rw [hrest, Except.map, Except.ok.injEq] at hok
        subst hok
        obtain ⟨hlen, hall⟩ := ih hrest
        refine ⟨by rw [List.length_cons, hlen, List.length_cons], fun j c' hc' => ?_⟩
        cases j with
        | zero =>
          obtain rfl : c = c' := by simpa using hc'
          exact ⟨s, rfl, hsig⟩
        | succ j =>
          obtain ⟨s', hs', hfor⟩ := hall j c' (by simpa using hc')
          exact ⟨s', by simpa using hs', by rwa [Nat.add_right_comm] at hfor⟩

/-- The script of the outputs that an address gets. -/
def scriptOf (k : Casing) (address : String) : Except String Bytes :=
  (decodeCashAddr k address.toList).bind outputScriptForRecipient

/-- An address of the account is the one of its key. -/
theorem scriptOf_derived (k : Casing) (node : HdNode curve) :
    scriptOf k (deriveAddress h curve node) = .ok (scriptP2PKH (h.hash160 node.publicKey)) := by
  have hlen := h.length_hash160 node.publicKey
  obtain ⟨data, hencode, hholds⟩ := encodeCashAddr_spec hlen .p2pkh
  have hdecode : decodeCashAddr k (CASHADDR_PREFIX ++ ':' :: bodyOf data) = .ok (.p2pkh, h.hash160 node.publicKey) := by
    apply decode_of_canonical hlen
    rw [canonical_self hholds.lt, hencode]
  rw [scriptOf, deriveAddress, getAddress, hencode]
  simp only [String.toList_ofList, hdecode, Except.bind, outputScriptForRecipient, hlen]
  rfl

/-- The input's own script and value are signed, with the key that the script asks for. -/
def InputSigned (h : Hashes) (curve : Secp) (k : Casing) (tx : Transaction) (scriptSigs : List Bytes) (i : Nat)
    (c : Utxo.AccountSpendCandidate) : Prop :=
  ∃ script value preimage priv pub der, scriptOf k c.address = .ok script ∧ ((value : Nat) : Rat) = c.valueSat ∧
    digestInput h tx BCH_SIGHASH i ⟨script, value⟩ = some preimage ∧ script = scriptP2PKH (h.hash160 pub) ∧
    curve.pointFromScalar priv = some pub ∧ curve.sign (h.dsha256 preimage) priv = .ok der ∧
    scriptSigs[i]? = some (u8 (der.length + 1) ++ (der ++ u8 BCH_SIGHASH) ++ u8 pub.length ++ pub)

theorem scriptSigFor_ok {keys : KeyMap} {inputs : List BchInput} {outputs : List BchOutput} {address : String} {i : Nat}
    {s : Bytes} (hok : scriptSigFor h curve keys inputs outputs address i = .ok s) : ∃ key preimage der,
      keyAt keys address = some key ∧
      buildSighashPreimage h inputs outputs i key.script VERSION LOCKTIME = .ok preimage ∧
      curve.sign (h.dsha256 preimage) key.priv = .ok der ∧
      s = u8 (der.length + 1) ++ (der ++ u8 BCH_SIGHASH) ++ u8 key.pub.length ++ key.pub := by
  rw [scriptSigFor] at hok
  cases hkey : keyAt keys address with
  | none => simp [hkey] at hok
  | some key =>
    simp only [hkey] at hok
    cases hpre : buildSighashPreimage h inputs outputs i key.script VERSION LOCKTIME with
    | error e => simp [hpre, Except.bind] at hok
    | ok preimage =>
      simp only [hpre, Except.bind, signSighash] at hok
      cases hsign : curve.sign (h.dsha256 preimage) key.priv with
      | error e => simp [hsign, Except.map] at hok
      | ok der =>
        simp only [hsign, Except.map, Except.ok.injEq] at hok
        refine ⟨key, preimage, der, rfl, hpre, hsign, hok.symm.trans ?_⟩
        rw [List.length_append]
        rfl

/-- What a spend from the account hands to the broadcast. -/
structure SpendSigned (h : Hashes) (curve : Secp) (k : Casing) (plan : Utxo.AccountSpendPlan) (signed : Signed) : Prop where
  parses : ∃ bytes, signed.rawHex = bytesToHex bytes ∧ whole readTransaction bytes =
    some (transactionOf signed.inputs signed.outputs signed.scriptSigs VERSION LOCKTIME)
  inputs : List.Forall₂ (fun (c : Utxo.AccountSpendCandidate) (inp : BchInput) => inp.txid = c.txid ∧ inp.vout = c.vout ∧
    inp.sequence = none ∧ (inp.value : Rat) = c.valueSat) plan.inputs signed.inputs
  signed (i : Nat) (c : Utxo.AccountSpendCandidate) : plan.inputs[i]? = some c →
    InputSigned h curve k (transactionOf signed.inputs signed.outputs signed.scriptSigs VERSION LOCKTIME)
      signed.scriptSigs i c

theorem signAccountSpend_ok {wallet : Utxo.HdWallet (HdNode curve)} {hasPrivateKey : HdNode curve → Bool}
    {fetchUtxos : String → Except String (List Utxo.Unspent)} {args : Utxo.SpendArgs} {scan : Utxo.UtxoAccountScan}
    {g : Utxo.Gathered (HdNode curve)} {sendSat : Rat} {recipientScript : Bytes} {signed : Signed}
    (hg : Utxo.gatherFrom wallet hasPrivateKey (bchUtxoAccount h curve) fetchUtxos args scan = .ok g)
    (hok : signAccountSpend h curve k base58 g sendSat recipientScript = .ok signed)
    (hranges : Ranges signed.inputs signed.outputs signed.scriptSigs) : SpendSigned h curve k g.plan signed := by
  rw [signAccountSpend] at hok
  cases hkeys : keysFor h curve g.sources g.plan.inputs [] with
  | error e => simp [hkeys, Except.bind] at hok
  | ok keys =>
    simp only [hkeys, Except.bind] at hok
    cases hins : bchInputs g.plan.inputs with
    | error e => simp [hins] at hok
    | ok inputs =>
      simp only [hins] at hok
      cases houts : bchOutputs k base58 sendSat g.plan.changeSat recipientScript g.change.address with
      | error e => simp [houts] at hok
      | ok outputs =>
        simp only [houts] at hok
        cases hsigs : scriptSigsFrom h curve keys inputs outputs 0 g.plan.inputs with
        | error e => simp [hsigs] at hok
        | ok scriptSigs =>
          simp only [hsigs] at hok
          have hrows := bchInputs_ok hins
          obtain ⟨hlen, hall⟩ := scriptSigsFrom_ok hsigs
          have hcount : scriptSigs.length = inputs.length := hlen.trans hrows.length_eq
          cases hraw : serializeSignedTx inputs outputs scriptSigs VERSION LOCKTIME with
          | error e => simp [hraw, Except.map] at hok
          | ok rawHex =>
            rw [hraw, Except.map, Except.ok.injEq] at hok
            subst hok
            have hparts : Parts inputs outputs scriptSigs VERSION LOCKTIME := ⟨hranges, hcount, by decide, by decide⟩
            refine ⟨?_, hrows, fun i c hc => ?_⟩
            · obtain ⟨bytes, hser, hread⟩ := hparts.parses
              rw [hraw, Except.ok.injEq] at hser
              exact ⟨bytes, hser, hread⟩
            · obtain ⟨s, hs, hfor⟩ := hall i c hc
              rw [Nat.zero_add] at hfor
              obtain ⟨key, preimage, der, hkey, hpre, hsign, rfl⟩ := scriptSigFor_ok hfor
              obtain ⟨⟨src, hsrc, hpriv⟩, hpub, hscript⟩ :=
                keysFor_ok hkeys (fun e he => absurd he List.not_mem_nil) _ (keyAt_mem hkey)
              obtain ⟨src', hsrc', hsigns⟩ := Utxo.gatherFrom_sources hg c (List.mem_of_getElem? hc)
              obtain rfl : src = src' := Option.some.inj (hsrc.symm.trans hsrc')
              have hpubkey : key.pub = src.node.publicKey := by
                rw [hpriv, src.node.pair] at hpub
                exact (Option.some.inj hpub).symm
              have haddress : scriptOf k c.address = .ok key.script := by
                rw [hscript, hpubkey, ← hsigns.derived]
                exact scriptOf_derived k src.node
              obtain ⟨hlt, hget⟩ := List.getElem?_eq_some_iff.1 hc
              have hlt' : i < inputs.length := hrows.length_eq ▸ hlt
              have hinp : inputs[i]? = some inputs[i] := List.getElem?_eq_getElem hlt'
              have hrow := (List.forall₂_iff_get.1 hrows).2 i hlt hlt'
              have hrange := hranges.input _ (List.getElem_mem hlt')
              have hvalue : ((inputs[i].value.toNat : Nat) : Rat) = c.valueSat := by
                have hcast : ((inputs[i].value.toNat : Nat) : Int) = inputs[i].value := Int.toNat_of_nonneg hrange.nonneg
                rw [← Int.cast_natCast, hcast, ← hget]
                exact hrow.2.2.2
              have hdigest := @preimage_eq _ _ scriptSigs VERSION LOCKTIME h _ key.script hranges.output hcount _ hinp
                hrange
              rw [hpre] at hdigest
              exact ⟨key.script, _, preimage, key.priv, key.pub, der, haddress, hvalue, hdigest.symm, hscript, hpub, hsign,
                hs⟩

end Signing

/-! ## The law -/

/-- What is promised of the transactions. -/
structure TransactionLaw (h : Hashes) (curve : Secp) (k : Casing) (base58 : List Char → Option Bytes) : Prop where
  parses (inputs : List BchInput) (outputs : List BchOutput) (scriptSigs : List Bytes) (version locktime : Nat) :
    Parts inputs outputs scriptSigs version locktime →
      ∃ bytes, serializeSignedTx inputs outputs scriptSigs version locktime = .ok (bytesToHex bytes) ∧
        whole readTransaction bytes = some (transactionOf inputs outputs scriptSigs version locktime)
  ids (i : BchInput) (s : Bytes) : i.InRange →
    bytesToHex (reverseBytes (i.seen s).hash) = String.ofList (i.txid.toList.map Char.toLower)
  preimages (inputs : List BchInput) (outputs : List BchOutput) (scriptSigs : List Bytes) (version locktime i : Nat)
    (inp : BchInput) (script : Bytes) : Parts inputs outputs scriptSigs version locktime → inputs[i]? = some inp →
      ∃ preimage, buildSighashPreimage h inputs outputs i script version locktime = .ok preimage ∧
        digestInput h (transactionOf inputs outputs scriptSigs version locktime) BCH_SIGHASH i
          ⟨script, inp.value.toNat⟩ = some preimage
  agrees (inputs inputs' : List BchInput) (outputs outputs' : List BchOutput) (scriptSigs scriptSigs' : List Bytes)
    (version version' locktime locktime' i : Nat) (script script' preimage : Bytes) :
    Parts inputs outputs scriptSigs version locktime → Parts inputs' outputs' scriptSigs' version' locktime' →
      Short script → Short script' →
      buildSighashPreimage h inputs outputs i script version locktime = .ok preimage →
      buildSighashPreimage h inputs' outputs' i script' version' locktime' = .ok preimage →
      Agree inputs inputs' outputs outputs' i script script' version version' locktime locktime' ∨ Collision h
  signs (wallet : Utxo.HdWallet (HdNode curve)) (hasPrivateKey : HdNode curve → Bool)
    (fetchUtxos : String → Except String (List Utxo.Unspent)) (args : Utxo.SpendArgs) (scan : Utxo.UtxoAccountScan)
    (g : Utxo.Gathered (HdNode curve)) (sendSat : Rat) (recipientScript : Bytes) (signed : Signed) :
    Utxo.gatherFrom wallet hasPrivateKey (bchUtxoAccount h curve) fetchUtxos args scan = .ok g →
      signAccountSpend h curve k base58 g sendSat recipientScript = .ok signed →
      Ranges signed.inputs signed.outputs signed.scriptSigs → SpendSigned h curve k g.plan signed

def sampleId : String := String.ofList (List.replicate 64 'a')

theorem sampleId_isTxid : IsTxid sampleId := by
  have hlist : sampleId.toList = List.replicate 64 'a' := String.toList_ofList
  have hdigit : 'a' ∈ hexDigits := by decide +kernel
  rw [IsTxid, hlist]
  refine ⟨List.length_replicate, fun c hc => ?_⟩
  rwa [List.eq_of_mem_replicate hc]

/-- An input, and another whose coin has this value. -/
def withOther (value : Int) (sequence : Option Nat) : List BchInput :=
  [{ txid := sampleId, vout := 0, value := 1000 }, { txid := sampleId, vout := 1, value, sequence }]

theorem withOther_inRange {value : Int} {sequence : Option Nat} (hlow : 0 ≤ value) (hhigh : value < 2 ^ 64)
    (hsequence : sequence.getD 0xffffffff < 2 ^ 32) : ∀ i ∈ withOther value sequence, i.InRange := by
  intro i hi
  rcases List.mem_cons.1 hi with rfl | hi
  · exact ⟨sampleId_isTxid, by decide, by decide, by decide, by decide⟩
  · rw [List.mem_singleton.1 hi]
    exact ⟨sampleId_isTxid, (by decide : 1 < 2 ^ 32), hlow, hhigh, hsequence⟩

/-- The values of the other inputs are not signed. -/
theorem preimage_withOther (h : Hashes) (value value' : Int) (outputs : List BchOutput) (script : Bytes) :
    buildSighashPreimage h (withOther value none) outputs 0 script 2 0 =
      buildSighashPreimage h (withOther value' (some 0xffffffff)) outputs 0 script 2 0 := by
  simp [buildSighashPreimage, withOther, BchInput.outpoint, BchInput.sequenceBytes]

end Bch
