import PwndaWallet.Lib.Wire
import PwndaWallet.Lib.Result
import PwndaWallet.Tron.Verify

/-!
# What the network reads of a checked transaction

The decoder of the wallet and a protobuf parser take the same bytes apart in the same places; they differ in the
number of a field whose key does not fit in 32 bits. Where there is no such key, what was compared is what the
network executes.
-/

namespace Tron

open Wire

/-! ## The same fields -/

theorem low_bits : ∀ b < 256, (b &&& 0x80 = 0 ↔ b < 128) ∧ b &&& 0x7f = b % 128 := by decide +kernel

theorem readVarint_eq {bs : Bytes} : ∀ {result k v : Nat} {rest : Bytes}, result < 2 ^ (7 * k) → k ≤ 10 →
    readVarint result (7 * k) bs = .ok (v, rest) →
      ∃ w, Protobuf.varint (10 - k) bs = some (w, rest) ∧ v = result + 2 ^ (7 * k) * w := by
  induction bs with
  | nil =>
    intro result k v rest _ _ h
    cases h
  | cons byte bs ih =>
    intro result k v rest hresult hk h
    rw [readVarint] at h
    by_cases hshift : 7 * k > 63
    · rw [if_pos hshift] at h
      cases h
    rw [if_neg hshift] at h
    obtain ⟨n, hn⟩ : ∃ n, 10 - k = n + 1 := ⟨9 - k, by omega⟩
    obtain ⟨hstop, hlow⟩ := low_bits byte.toNat byte.toNat_lt
    have hor : result ||| (byte.toNat &&& 0x7f) <<< (7 * k) = result + 2 ^ (7 * k) * (byte.toNat % 128) := by
      rw [hlow, Nat.or_comm, ← Nat.shiftLeft_add_eq_or_of_lt hresult, Nat.shiftLeft_eq, Nat.mul_comm, Nat.add_comm]
    simp only [hor] at h
    rw [hn, Protobuf.varint]
    by_cases hlast : byte.toNat < 128
    · rw [if_pos (hstop.2 hlast)] at h
      cases h
      exact ⟨byte.toNat, by rw [if_pos hlast], by rw [Nat.mod_eq_of_lt hlast]⟩
    · rw [if_neg fun hzero => hlast (hstop.1 hzero)] at h
      have hpow : 2 ^ (7 * (k + 1)) = 2 ^ (7 * k) * 128 := by rw [Nat.mul_succ, Nat.pow_add]
      have hnext : result + 2 ^ (7 * k) * (byte.toNat % 128) < 2 ^ (7 * (k + 1)) := by
        have hmod := Nat.mod_lt byte.toNat (show 128 > 0 by decide)
        have hmul : 2 ^ (7 * k) * (byte.toNat % 128 + 1) ≤ 2 ^ (7 * k) * 128 := Nat.mul_le_mul_left _ (by omega)
        rw [Nat.mul_succ] at hmul
        omega
      obtain ⟨w, hw, hv⟩ := ih hnext (by omega) h
      have hfuel : 10 - (k + 1) = n := by omega
      rw [hfuel] at hw
      refine ⟨byte.toNat % 128 + 128 * w, by rw [if_neg hlast, hw]; rfl, ?_⟩
      rw [hv, hpow, Nat.mul_add, Nat.mul_assoc, Nat.add_assoc]

theorem varint_of_readVarint {bs rest : Bytes} {v : Nat} (h : readVarint 0 0 bs = .ok (v, rest)) :
    Protobuf.varint 10 bs = some (v, rest) := by
  obtain ⟨w, hw, hv⟩ : ∃ w, Protobuf.varint (10 - 0) bs = some (w, rest) ∧ v = 0 + 2 ^ (7 * 0) * w :=
    readVarint_eq (by decide) (by decide) h
  have heq : v = w := by simpa using hv
  rw [heq]
  exact hw

/-- The field as the network numbers it. -/
def Field.reduce (f : Field) : Protobuf.Field :=
  ⟨f.no % 2 ^ 29, f.wire, f.int.getD 0 % 2 ^ 64, f.bytes.getD []⟩

/-- A field is of the wire type its value is kept for. -/
def Field.Kept (f : Field) : Prop :=
  (f.wire = VARINT → f.bytes = none ∧ f.int ≠ none) ∧ (f.wire = LENGTH_DELIMITED → f.int = none ∧ f.bytes ≠ none)

theorem field_of_readField {buf rest : Bytes} {f : Field} (h : readField buf = .ok (f, rest)) :
    Protobuf.field buf = some (f.reduce, rest) ∧ f.Kept := by
  obtain ⟨⟨key, buf'⟩, hkey, h⟩ := Rust.ok_of_bind h
  have hno : key % 2 ^ 32 / 8 = key >>> 3 % 2 ^ 29 := by
    rw [Nat.shiftRight_eq_div_pow]
    omega
  have hwire : key % 2 ^ 32 % 8 = key &&& 7 := by
    rw [show (7 : Nat) = 2 ^ 3 - 1 from rfl, Nat.and_two_pow_sub_one_eq_mod]
    omega
  rw [Protobuf.field, varint_of_readVarint hkey]
  simp only [Option.bind_eq_bind, Option.bind_some, hno, hwire]
  simp only at h
  by_cases h0 : key &&& 7 = 0
  · rw [if_pos h0] at h
    obtain ⟨⟨v, buf''⟩, hv, h⟩ := Rust.ok_of_bind h
    cases h
    rw [h0, varint_of_readVarint hv]
    exact ⟨rfl, fun _ => ⟨rfl, by simp⟩, fun hw => absurd hw (by simp [LENGTH_DELIMITED])⟩
  rw [if_neg h0] at h
  by_cases h2 : key &&& 7 = 2
  · rw [if_pos h2] at h
    obtain ⟨⟨len, buf''⟩, hlen, h⟩ := Rust.ok_of_bind h
    simp only at h
    split_ifs at h with hlong
    cases h
    refine ⟨?_, fun hw => absurd hw (by simp [h2, VARINT]), fun _ => ⟨rfl, by simp⟩⟩
    rw [h2, varint_of_readVarint hlen]
    simp only [Option.bind_some, if_pos (Nat.not_lt.1 hlong)]
    rfl
  rw [if_neg h2] at h
  by_cases h1 : key &&& 7 = 1
  · rw [if_pos h1] at h
    split_ifs at h with hlong
    cases h
    refine ⟨?_, fun hw => absurd hw (by simp [h1, VARINT]), fun hw => absurd hw (by simp [h1, LENGTH_DELIMITED])⟩
    rw [h1]
    simp only [if_pos (Nat.not_lt.1 hlong)]
    rfl
  rw [if_neg h1] at h
  by_cases h5 : key &&& 7 = 5
  · rw [if_pos h5] at h
    split_ifs at h with hlong
    cases h
    refine ⟨?_, fun hw => absurd hw (by simp [h5, VARINT]), fun hw => absurd hw (by simp [h5, LENGTH_DELIMITED])⟩
    rw [h5]
    simp only [if_pos (Nat.not_lt.1 hlong)]
    rfl
  rw [if_neg h5] at h
  cases h

theorem fields_of_fieldsFrom {fuel : Nat} : ∀ {buf : Bytes} {fs : List Field}, fieldsFrom fuel buf = .ok fs →
    Protobuf.fieldsFrom fuel buf = some (fs.map Field.reduce) ∧ ∀ f ∈ fs, f.Kept := by
  induction fuel with
  | zero =>
    intro buf fs h
    cases buf with
    | nil =>
      cases h
      exact ⟨rfl, by simp⟩
    | cons b buf => cases h
  | succ fuel ih =>
    intro buf fs h
    cases buf with
    | nil =>
      cases h
      exact ⟨rfl, by simp⟩
    | cons b buf =>
      obtain ⟨⟨f, rest⟩, hf, h⟩ := Rust.ok_of_bind h
      obtain ⟨out, hout, h⟩ := Rust.ok_of_bind h
      cases h
      obtain ⟨hfield, hkept⟩ := field_of_readField hf
      obtain ⟨hfields, hall⟩ := ih hout
      rw [Protobuf.fieldsFrom, hfield]
      simp only [Option.bind_eq_bind, Option.bind_some, hfields]
      exact ⟨rfl, List.forall_mem_cons.2 ⟨hkept, hall⟩⟩

theorem fields_of_fieldsOf {buf : Bytes} {fs : List Field} (h : fieldsOf buf = .ok fs) :
    Protobuf.fields buf = some (fs.map Field.reduce) ∧ ∀ f ∈ fs, f.Kept := fields_of_fieldsFrom h

/-! ## Singular fields -/

/-- Every key fits in 32 bits. -/
def Short (fs : List Field) : Prop := ∀ f ∈ fs, f.no < 2 ^ 29

theorem single_ok {fs : List Field} {no wire : Nat} {what : String} {o : Option Field}
    (h : single fs no wire what = .ok o) : copiesOf fs no = o.toList ∧ ∀ f ∈ o, f.wire = wire := by
  rw [single] at h
  split_ifs at h with hmany
  cases hhits : copiesOf fs no with
  | nil =>
    rw [hhits] at h
    cases h
    exact ⟨rfl, by simp⟩
  | cons f hits =>
    rw [hhits] at h hmany
    rw [List.head?_cons] at h
    simp only at h
    split_ifs at h with hwire
    cases h
    obtain rfl : hits = [] := by
      rw [List.length_cons] at hmany
      exact List.length_eq_zero_iff.1 (by omega)
    exact ⟨rfl, fun g hg => by
      cases hg
      exact Classical.not_not.1 hwire⟩

theorem copies_eq {fs : List Field} {no wire : Nat} {o : Option Field} (hshort : Short fs)
    (h : copiesOf fs no = o.toList) (hwire : ∀ f ∈ o, f.wire = wire) :
    Protobuf.copies no wire (fs.map Field.reduce) = o.toList.map Field.reduce := by
  have hfilter : ∀ f ∈ fs, (f.reduce.no = no ∧ f.reduce.wire = wire) ↔ (f.no = no ∧ f.wire = wire) := by
    intro f hf
    rw [Field.reduce, Nat.mod_eq_of_lt (hshort f hf)]
  rw [Protobuf.copies, List.filter_map, ← h, copiesOf]
  congr 1
  apply List.filter_congr
  intro f hf
  have hiff := hfilter f hf
  by_cases hno : f.no = no
  · have hmem : f ∈ o.toList := by
      rw [← h, copiesOf]
      exact List.mem_filter.2 ⟨hf, by simpa using hno⟩
    have hw := hwire f (by simpa using hmem)
    simp only [Function.comp_apply, hiff, hno, hw, and_self]
  · simp only [Function.comp_apply, hiff, hno, false_and]

theorem lastInt_eq {fs : List Field} {no : Nat} {what : String} {o : Option Field} (hshort : Short fs)
    (h : single fs no VARINT what = .ok o) :
    Protobuf.lastInt no (fs.map Field.reduce) = (o.bind (·.int)).getD 0 % 2 ^ 64 := by
  obtain ⟨hcopies, hwire⟩ := single_ok h
  have hcopied := copies_eq hshort hcopies hwire
  rw [VARINT] at hcopied
  rw [Protobuf.lastInt, hcopied]
  cases o with
  | none => rfl
  | some f => rfl

theorem lastBytes_eq {fs : List Field} {no : Nat} {what : String} {o : Option Field} (hshort : Short fs)
    (h : single fs no LENGTH_DELIMITED what = .ok o) :
    Protobuf.lastBytes no (fs.map Field.reduce) = (o.bind (·.bytes)).getD [] := by
  obtain ⟨hcopies, hwire⟩ := single_ok h
  have hcopied := copies_eq hshort hcopies hwire
  rw [LENGTH_DELIMITED] at hcopied
  rw [Protobuf.lastBytes, hcopied]
  cases o with
  | none => rfl
  | some f => rfl

/-! ## What the network executes -/

structure NetworkContract where
  type : Nat
  params : List Protobuf.Field

structure NetworkTransaction where
  contracts : List NetworkContract
  feeLimit : Nat

/-- An entry of `Transaction.raw.contract`, its parameter unpacked. -/
def contractOf (bytes : Bytes) : Option NetworkContract := do
  let fs ← Protobuf.fields bytes
  let any ← Protobuf.embedded 2 fs
  let params ← Protobuf.fields (Protobuf.lastBytes 2 any)
  return ⟨Protobuf.lastInt 1 fs, params⟩

def transactionOf (raw : Bytes) : Option NetworkTransaction := do
  let fs ← Protobuf.fields raw
  let contracts ← (Protobuf.copies 11 2 fs).mapM fun f => contractOf f.bytes
  return ⟨contracts, Protobuf.lastInt 18 fs⟩

def Layers.Short (l : Layers) : Prop := Tron.Short l.top ∧ Tron.Short l.contract ∧ Tron.Short l.any ∧ Tron.Short l.params

theorem oneContract_eq {fs : List Field} {b : Bytes} (h : oneContract fs = some b) :
    ∃ f, fs = [f] ∧ f.wire = 2 ∧ f.bytes = some b := by
  cases fs with
  | nil => cases h
  | cons f fs =>
    cases fs with
    | nil =>
      rw [oneContract] at h
      split_ifs at h with hwire
      exact ⟨f, rfl, hwire, h⟩
    | cons g fs => cases h

theorem layers_network {raw : Bytes} {name : String} {l : Layers} (h : layersOf raw name = .ok l) (hshort : l.Short) :
    transactionOf raw =
      some ⟨[⟨l.type % 2 ^ 64, l.params.map Field.reduce⟩], Protobuf.lastInt 18 (l.top.map Field.reduce)⟩ := by
  obtain ⟨top, htop, h⟩ := Rust.ok_of_bind h
  obtain ⟨_, _, h⟩ := Rust.ok_of_bind h
  cases hone : oneContract (copiesOf top 11) with
  | none =>
    rw [hone] at h
    cases h
  | some contractBytes =>
  rw [hone] at h
  obtain ⟨contract, hcontract, h⟩ := Rust.ok_of_bind h
  obtain ⟨_, _, h⟩ := Rust.ok_of_bind h
  obtain ⟨type, htype, h⟩ := Rust.ok_of_bind h
  obtain ⟨anyField, hanyField, h⟩ := Rust.ok_of_bind h
  cases hanyBytes : anyField.bind (·.bytes) with
  | none =>
    rw [hanyBytes] at h
    cases h
  | some anyBytes =>
  rw [hanyBytes] at h
  obtain ⟨any, hany, h⟩ := Rust.ok_of_bind h
  obtain ⟨_, _, h⟩ := Rust.ok_of_bind h
  obtain ⟨typeUrl, _, h⟩ := Rust.ok_of_bind h
  obtain ⟨valueField, hvalueField, h⟩ := Rust.ok_of_bind h
  cases hvalue : valueField.bind (·.bytes) with
  | none =>
    rw [hvalue] at h
    cases h
  | some value =>
  rw [hvalue] at h
  obtain ⟨params, hparams, h⟩ := Rust.ok_of_bind h
  obtain ⟨_, _, h⟩ := Rust.ok_of_bind h
  cases h
  obtain ⟨hshortTop, hshortContract, hshortAny, -⟩ := hshort
  obtain ⟨f, hcopiesOf, hwire, hbytes⟩ := oneContract_eq hone
  have hcopies := copies_eq (o := some f) hshortTop hcopiesOf fun g hg => by
    cases hg
    exact hwire
  have hcontractOf : contractOf contractBytes =
      some ⟨(type.bind (·.int)).getD 0 % 2 ^ 64, params.map Field.reduce⟩ := by
    have hembedded : Protobuf.embedded 2 (contract.map Field.reduce) = some (any.map Field.reduce) := by
      obtain ⟨hone, hwire⟩ := single_ok hanyField
      have hcopied := copies_eq hshortContract hone hwire
      obtain ⟨f, rfl, hf⟩ := Option.bind_eq_some_iff.1 hanyBytes
      rw [LENGTH_DELIMITED] at hcopied
      rw [Protobuf.embedded, hcopied]
      simp [Field.reduce, hf, (fields_of_fieldsOf hany).1]
    rw [contractOf, (fields_of_fieldsOf hcontract).1]
    simp only [Option.bind_eq_bind, Option.bind_some, hembedded, lastBytes_eq hshortAny hvalueField, hvalue,
      Option.getD_some, (fields_of_fieldsOf hparams).1, lastInt_eq hshortContract htype]
    rfl
  rw [transactionOf, (fields_of_fieldsOf htop).1]
  simp only [Option.bind_eq_bind, Option.bind_some, hcopies]
  simp [Field.reduce, hbytes, hcontractOf]

/-! ## What was asked -/

/-- The network executes one contract, the one that was asked for. -/
def AsAsked (tx : NetworkTransaction) : ExpectedTronTx → Prop
  | .trx ownerHex toHex amountSun => ∃ params, tx.contracts = [⟨TRANSFER_CONTRACT, params⟩] ∧
      hexOf (some (Protobuf.lastBytes 1 params)) = toLowerCase ownerHex ∧
      hexOf (some (Protobuf.lastBytes 2 params)) = toLowerCase toHex ∧
      Protobuf.lastInt 3 params = amountSun % 2 ^ 64
  | .trc20 ownerHex contractHex data maxFeeLimitSun => ∃ params,
      tx.contracts = [⟨TRIGGER_SMART_CONTRACT, params⟩] ∧
      hexOf (some (Protobuf.lastBytes 1 params)) = toLowerCase ownerHex ∧
      hexOf (some (Protobuf.lastBytes 2 params)) = toLowerCase contractHex ∧
      hexOf (some (Protobuf.lastBytes 4 params)) = toLowerCase data ∧
      Protobuf.lastInt 3 params = 0 ∧ Protobuf.lastInt 5 params = 0 ∧ Protobuf.lastInt 6 params = 0 ∧
      tx.feeLimit ≤ maxFeeLimitSun

theorem toLower_hexChar : ∀ n < 16, (Evm.hexChar n).toLower = Evm.hexChar n := by decide +kernel

theorem toLowerCase_hexOf (b : Option Bytes) : toLowerCase (hexOf b) = hexOf b := by
  rw [toLowerCase, Rust.toAsciiLowercase, hexOf, String.toList_ofList, Evm.bytesToHex, List.map_flatMap]
  congr 2
  funext x
  have hhigh := toLower_hexChar (x.toNat / 16) (by have := x.toNat_lt; omega)
  have hlow := toLower_hexChar (x.toNat % 16) (by omega)
  rw [Evm.hexByte, List.map_cons, List.map_cons, List.map_nil, hhigh, hlow]

theorem expect_ok {α : Type} [DecidableEq α] {actual wanted : α} {what : String} {u : Unit}
    (h : expect actual wanted what = .ok u) : actual = wanted := by
  rw [expect] at h
  split_ifs at h with heq
  exact heq

theorem bytesField_ok {l : Layers} {no : Nat} {what s : String} (hshort : l.Short)
    (h : l.bytesField no what = .ok s) : hexOf (some (Protobuf.lastBytes no (l.params.map Field.reduce))) = s := by
  rw [Layers.bytesField] at h
  cases hsingle : single l.params no LENGTH_DELIMITED what with
  | error e =>
    rw [hsingle] at h
    cases h
  | ok o =>
    rw [hsingle] at h
    rw [lastBytes_eq hshort.2.2.2 hsingle, ← toLowerCase_hexOf]
    exact Except.ok.inj h

theorem intField_ok {l : Layers} {no : Nat} {what : String} {v : Nat} (hshort : l.Short)
    (h : l.intField no what = .ok v) : Protobuf.lastInt no (l.params.map Field.reduce) = v % 2 ^ 64 := by
  rw [Layers.intField] at h
  cases hsingle : single l.params no VARINT what with
  | error e =>
    rw [hsingle] at h
    cases h
  | ok o =>
    rw [hsingle] at h
    cases h
    exact lastInt_eq hshort.2.2.2 hsingle

theorem asAsked_of_checked {l : Layers} {expected : ExpectedTronTx} (hshort : l.Short)
    (h : checkLayers l expected = .ok ()) :
    AsAsked ⟨[⟨l.type % 2 ^ 64, l.params.map Field.reduce⟩], Protobuf.lastInt 18 (l.top.map Field.reduce)⟩ expected := by
  cases expected with
  | trx ownerHex toHex amountSun =>
    obtain ⟨_, htype, h⟩ := Rust.ok_of_bind h
    obtain ⟨owner, howner, h⟩ := Rust.ok_of_bind h
    obtain ⟨_, hownerEq, h⟩ := Rust.ok_of_bind h
    obtain ⟨to', hto, h⟩ := Rust.ok_of_bind h
    obtain ⟨_, htoEq, h⟩ := Rust.ok_of_bind h
    obtain ⟨amount, hamount, h⟩ := Rust.ok_of_bind h
    have hkind : l.type = TRANSFER_CONTRACT := congrArg Prod.fst (expect_ok htype)
    refine ⟨_, by rw [hkind]; rfl, ?_, ?_, ?_⟩
    · rw [bytesField_ok hshort howner, expect_ok hownerEq]
    · rw [bytesField_ok hshort hto, expect_ok htoEq]
    · rw [intField_ok hshort hamount, expect_ok h]
  | trc20 ownerHex contractHex data maxFeeLimitSun =>
    obtain ⟨_, htype, h⟩ := Rust.ok_of_bind h
    obtain ⟨owner, howner, h⟩ := Rust.ok_of_bind h
    obtain ⟨_, hownerEq, h⟩ := Rust.ok_of_bind h
    obtain ⟨contract, hcontract, h⟩ := Rust.ok_of_bind h
    obtain ⟨_, hcontractEq, h⟩ := Rust.ok_of_bind h
    obtain ⟨value, hvalue, h⟩ := Rust.ok_of_bind h
    obtain ⟨_, hvalueEq, h⟩ := Rust.ok_of_bind h
    obtain ⟨call, hcall, h⟩ := Rust.ok_of_bind h
    obtain ⟨_, hcallEq, h⟩ := Rust.ok_of_bind h
    obtain ⟨tokenValue, htokenValue, h⟩ := Rust.ok_of_bind h
    by_cases hzero : tokenValue = 0
    · rw [if_neg (by simpa using hzero)] at h
      obtain ⟨tokenId, htokenId, h⟩ := Rust.ok_of_bind h
      obtain ⟨_, htokenIdEq, h⟩ := Rust.ok_of_bind h
      obtain ⟨feeLimit, hfeeLimit, h⟩ := Rust.ok_of_bind h
      have hkind : l.type = TRIGGER_SMART_CONTRACT := congrArg Prod.fst (expect_ok htype)
      refine ⟨_, by rw [hkind]; rfl, ?_, ?_, ?_, ?_, ?_, ?_, ?_⟩
      · rw [bytesField_ok hshort howner, expect_ok hownerEq]
      · rw [bytesField_ok hshort hcontract, expect_ok hcontractEq]
      · rw [bytesField_ok hshort hcall, expect_ok hcallEq]
      · rw [intField_ok hshort hvalue, expect_ok hvalueEq, Nat.zero_mod]
      · rw [intField_ok hshort htokenValue, hzero, Nat.zero_mod]
      · rw [intField_ok hshort htokenId, expect_ok htokenIdEq, Nat.zero_mod]
      · rw [lastInt_eq hshort.1 hfeeLimit]
        refine Nat.le_trans (Nat.mod_le _ _) ?_
        by_contra hlimit
        rw [if_pos (by omega)] at h
        cases h
    · rw [if_pos hzero] at h
      cases h

/-- A key of one of the four messages has bits above the 32 that the network looks at. -/
def LongKey (raw : Bytes) : Prop := ∃ name l, layersOf raw name = .ok l ∧ ¬ l.Short

/-- What is about to be signed is the hash of bytes that the network reads as the transfer asked for, or that hold
a key the network reads as another. -/
theorem verify_reads {sha256 : Bytes → String} {txID raw_data_hex : Option String} {expected : ExpectedTronTx}
    (h : verifyTronTransaction sha256 txID raw_data_hex expected = .ok ()) : ∃ id hex raw,
      txID = some id ∧ raw_data_hex = some hex ∧ bytesOfHex hex = .ok raw ∧ toLowerCase id = sha256 raw ∧
      ((∃ tx, transactionOf raw = some tx ∧ AsAsked tx expected) ∨ LongKey raw) := by
  cases txID with
  | none => cases h
  | some id =>
    cases raw_data_hex with
    | none => cases h
    | some hex =>
      obtain ⟨raw, hraw, h⟩ := Rust.ok_of_bind h
      by_cases hid : sha256 raw = toLowerCase id
      · rw [if_neg (Classical.not_not.2 hid)] at h
        obtain ⟨l, hl, h⟩ := Rust.ok_of_bind h
        refine ⟨id, hex, raw, rfl, rfl, hraw, hid.symm, ?_⟩
        by_cases hshort : l.Short
        · exact Or.inl ⟨_, layers_network hl hshort, asAsked_of_checked hshort h⟩
        · exact Or.inr ⟨_, l, hl, hshort⟩
      · rw [if_pos hid] at h
        cases h

/-! ## Two transactions -/

theorem hexChar_digit : ∀ n < 16, isHexDigit (Evm.hexChar n) = true ∧ hexValue (Evm.hexChar n) = n ∧ Evm.hexChar n ≠ 'x' := by
  decide

theorem hexToBytes_bytesToHex (bs : Bytes) : hexToBytes (Evm.bytesToHex bs) = bs := by
  induction bs with
  | nil => rfl
  | cons b bs ih =>
    have hhigh := hexChar_digit (b.toNat / 16) (by have := b.toNat_lt; omega)
    have hlow := hexChar_digit (b.toNat % 16) (Nat.mod_lt _ (by decide))
    simp only [Evm.bytesToHex, Evm.hexByte, List.flatMap_cons, List.cons_append, List.nil_append, hexToBytes] at ih ⊢
    rw [hhigh.2.1, hlow.2.1, Nat.div_add_mod, ih, UInt8.ofNat_toNat]

theorem bytesToHex_digits (bs : Bytes) :
    (Evm.bytesToHex bs).length = 2 * bs.length ∧ (Evm.bytesToHex bs).all isHexDigit = true := by
  induction bs with
  | nil => exact ⟨rfl, rfl⟩
  | cons b bs ih =>
    have hhigh := hexChar_digit (b.toNat / 16) (by have := b.toNat_lt; omega)
    have hlow := hexChar_digit (b.toNat % 16) (Nat.mod_lt _ (by decide))
    simp only [Evm.bytesToHex] at ih
    refine ⟨?_, ?_⟩
    · simp only [Evm.bytesToHex, Evm.hexByte, List.flatMap_cons, List.length_append, List.length_cons, List.length_nil, ih.1]
      omega
    · simp [Evm.bytesToHex, Evm.hexByte, hhigh.1, hlow.1, ih.2]

/-- The hex of bytes is read back. -/
theorem bytesOfHex_bytesToHex (bs : Bytes) : bytesOfHex (String.ofList (Evm.bytesToHex bs)) = .ok bs := by
  have hclean : "0x".toList.isPrefixOf (Evm.bytesToHex bs) = false := by
    cases bs with
    | nil => rfl
    | cons b bs =>
      have hlow := hexChar_digit (b.toNat % 16) (Nat.mod_lt _ (by decide))
      simp [Evm.bytesToHex, Evm.hexByte, List.isPrefixOf, hlow.2.2.symm]
  obtain ⟨hlength, hdigits⟩ := bytesToHex_digits bs
  have heven : (Evm.bytesToHex bs).length % 2 = 0 := by rw [hlength, Nat.mul_mod_right]
  have hbad : ¬ ((Evm.bytesToHex bs).length % 2 ≠ 0 ∨ ¬ (Evm.bytesToHex bs).all isHexDigit = true) := by
    simp [heven, hdigits]
  rw [bytesOfHex]
  simp only [String.toList_ofList, hclean, Bool.false_eq_true, if_false]
  rw [if_neg hbad, hexToBytes_bytesToHex]

/-- The URL of a transfer's parameters. -/
def transferUrl : Bytes := [
  116, 121, 112, 101, 46, 103, 111, 111, 103, 108, 101, 97, 112, 105, 115, 46, 99, 111, 109, 47, 112, 114, 111,
    116, 111, 99, 111, 108, 46, 84, 114, 97, 110, 115, 102, 101, 114, 67, 111, 110, 116, 114, 97, 99, 116]

/-- 5 sun from 4101 to 4102. -/
def plainRaw : Bytes :=
  [0x40, 0x63, 0x5a, 0x3f, 0x08, 0x01, 0x12, 0x3b, 0x0a, 0x2d] ++ transferUrl ++
    [0x12, 0x0a, 0x0a, 0x02, 0x41, 0x01, 0x12, 0x02, 0x41, 0x02, 0x18, 0x05]

/-- The same, with a second recipient 4103 under a key of 33 bits. -/
def longKeyRaw : Bytes :=
  [0x40, 0x63, 0x5a, 0x47, 0x08, 0x01, 0x12, 0x43, 0x0a, 0x2d] ++ transferUrl ++
    [0x12, 0x12, 0x0a, 0x02, 0x41, 0x01, 0x12, 0x02, 0x41, 0x02, 0x18, 0x05] ++
    [0x92, 0x80, 0x80, 0x80, 0x10, 0x02, 0x41, 0x03]

def plainHex : String := String.ofList (Evm.bytesToHex plainRaw)

def longKeyHex : String := String.ofList (Evm.bytesToHex longKeyRaw)

def plainId : String := "072e04796a002081c7a79d9a20d0434ed160b72a9cc866b283b8328454343cc4"

def longKeyId : String := "dbae04b0993983eb365dfa64f7b7c13a0cf807689dc7aeaba74e67bd1030084b"

/-- The digests of the two. -/
def sampleSha256 (raw : Bytes) : String :=
  if raw = plainRaw then plainId else if raw = longKeyRaw then longKeyId else ""

theorem verify_reads_plain : verifyTronTransaction sampleSha256 (some plainId) (some plainHex) (.trx "4101" "4102" 5) = .ok () ∧
    ∃ id hex raw, some plainId = some id ∧ some plainHex = some hex ∧ bytesOfHex hex = .ok raw ∧
      toLowerCase id = sampleSha256 raw ∧
      ((∃ tx, transactionOf raw = some tx ∧ AsAsked tx (.trx "4101" "4102" 5)) ∨ LongKey raw) := by
  have haccepted : verifyTronTransaction sampleSha256 (some plainId) (some plainHex) (.trx "4101" "4102" 5) = .ok () := by
    rw [verifyTronTransaction, plainHex, bytesOfHex_bytesToHex]
    decide +kernel
  exact ⟨haccepted, verify_reads haccepted⟩

/-- The check accepts the long key, and the network pays the other recipient. -/
theorem long_key_redirects :
    verifyTronTransaction sampleSha256 (some longKeyId) (some longKeyHex) (.trx "4101" "4102" 5) = .ok () ∧
      ((bytesOfHex longKeyHex).toOption.bind transactionOf).map
        (fun tx => tx.contracts.map fun c => (c.type, Protobuf.lastBytes 2 c.params)) = some [(1, [0x41, 0x03])] := by
  rw [verifyTronTransaction, longKeyHex, bytesOfHex_bytesToHex]
  decide +kernel

end Tron
