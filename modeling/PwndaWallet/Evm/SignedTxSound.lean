import PwndaWallet.Evm.SignedTx

/-!
# What the reader is fooled by

Where every item ends inside its list the reader gets the items that the bytes spell. Elsewhere it follows
lengths that are cut to signed 32-bit numbers, so that it can be led beyond the end, or back: `Walk` is the
way it goes. It is sound exactly if that way ends, and what it accepts is spelled out with a recipient of 20
bytes.
-/

namespace Evm

open Wire Rlp

/-! ## Transactions -/

structure Address where
  bytes : Bytes
  length : bytes.length = 20

structure AccessEntry where
  address : Address
  storageKeys : List Bytes

/-- A signed transaction of one of the four kinds; one without a recipient creates a contract. -/
inductive SignedTx where
  | legacy (nonce gasPrice gasLimit : Nat) (recipient : Option Address) (value : Nat) (data : Bytes) (v r s : Nat)
  | accessList (chainId nonce gasPrice gasLimit : Nat) (recipient : Option Address) (value : Nat) (data : Bytes)
      (entries : List AccessEntry) (yParity r s : Nat)
  | dynamicFee (chainId nonce maxPriorityFee maxFee gasLimit : Nat) (recipient : Option Address) (value : Nat)
      (data : Bytes) (entries : List AccessEntry) (yParity r s : Nat)
  | blob (chainId nonce maxPriorityFee maxFee gasLimit : Nat) (recipient : Address) (value : Nat) (data : Bytes)
      (entries : List AccessEntry) (maxFeePerBlobGas : Nat) (blobHashes : List Bytes) (yParity r s : Nat)

namespace SignedTx

def recipient : SignedTx → Option Address
  | legacy _ _ _ recipient .. => recipient
  | accessList _ _ _ _ recipient .. => recipient
  | dynamicFee _ _ _ _ _ recipient .. => recipient
  | blob _ _ _ _ _ recipient .. => some recipient

def value : SignedTx → Nat
  | legacy _ _ _ _ value .. => value
  | accessList _ _ _ _ _ value .. => value
  | dynamicFee _ _ _ _ _ _ value .. => value
  | blob _ _ _ _ _ _ value .. => value

def data : SignedTx → Bytes
  | legacy _ _ _ _ _ data .. => data
  | accessList _ _ _ _ _ _ data .. => data
  | dynamicFee _ _ _ _ _ _ _ data .. => data
  | blob _ _ _ _ _ _ _ data .. => data

def envelope : SignedTx → Option UInt8
  | legacy .. => none
  | accessList .. => some 0x01
  | dynamicFee .. => some 0x02
  | blob .. => some 0x03

def num (n : Nat) : Item := .bytes (scalar n)

def recipientItem (recipient : Option Address) : Item := .bytes (recipient.elim [] Address.bytes)

def entryItem (e : AccessEntry) : Item := .list [.bytes e.address.bytes, .list (e.storageKeys.map .bytes)]

def fields : SignedTx → List Item
  | legacy nonce gasPrice gasLimit recipient value data v r s =>
    [num nonce, num gasPrice, num gasLimit, recipientItem recipient, num value, .bytes data, num v, num r, num s]
  | accessList chainId nonce gasPrice gasLimit recipient value data entries yParity r s =>
    [num chainId, num nonce, num gasPrice, num gasLimit, recipientItem recipient, num value, .bytes data,
      .list (entries.map entryItem), num yParity, num r, num s]
  | dynamicFee chainId nonce maxPriorityFee maxFee gasLimit recipient value data entries yParity r s =>
    [num chainId, num nonce, num maxPriorityFee, num maxFee, num gasLimit, recipientItem recipient, num value,
      .bytes data, .list (entries.map entryItem), num yParity, num r, num s]
  | blob chainId nonce maxPriorityFee maxFee gasLimit recipient value data entries maxFeePerBlobGas blobHashes
      yParity r s =>
    [num chainId, num nonce, num maxPriorityFee, num maxFee, num gasLimit, recipientItem (some recipient), num value,
      .bytes data, .list (entries.map entryItem), num maxFeePerBlobGas, .list (blobHashes.map .bytes), num yParity,
      num r, num s]

/-- The bytes of the network; a strict decoder accepts nothing else. -/
def encode (tx : SignedTx) : Bytes := tx.envelope.toList ++ Rlp.encode (.list tx.fields)

end SignedTx

/-! ## Lengths -/

theorem shift_or (v : BitVec 32) {b : Nat} (hb : b < 256) :
    (v <<< 8) ||| BitVec.ofNat 32 b = BitVec.ofNat 32 (256 * v.toNat + b) := by
  apply BitVec.eq_of_toNat_eq
  have hor : v.toNat <<< 8 + b = v.toNat <<< 8 ||| b := Nat.shiftLeft_add_eq_or_of_lt (by omega) _
  rw [BitVec.toNat_or, BitVec.toNat_shiftLeft, BitVec.toNat_ofNat, BitVec.toNat_ofNat, ← Nat.or_mod_two_pow,
    ← hor, Nat.shiftLeft_eq, Nat.mul_comm]

theorem byteAt_append {pre post : Bytes} {b : UInt8} : byteAt (pre ++ b :: post) pre.length = some b := by
  rw [byteAt, if_neg (by omega)]
  simp

theorem fold_bytes (pre ln post : Bytes) :
    (List.range ln.length).foldl (fun (v : BitVec 32) (i : Nat) =>
      (v <<< 8) ||| BitVec.ofNat 32 ((byteAt (pre ++ ln ++ post) (pre.length + i)).elim 0 UInt8.toNat)) 0 =
      BitVec.ofNat 32 (beValue ln) := by
  induction ln using List.reverseRecOn generalizing post with
  | nil => rfl
  | append_singleton ln b ih =>
    have hbytes : pre ++ (ln ++ [b]) ++ post = pre ++ ln ++ b :: post := by simp
    have hlast : byteAt (pre ++ ln ++ b :: post) (pre.length + ln.length) = some b := by
      have h := @byteAt_append (pre ++ ln) post b
      rwa [List.length_append, Int.natCast_add] at h
    rw [List.length_append, List.length_singleton, List.range_succ, List.foldl_append, hbytes, ih, List.foldl_cons,
      List.foldl_nil, hlast, Option.elim_some, shift_or _ b.toNat_lt, beValue_snoc]
    apply BitVec.eq_of_toNat_eq
    simp only [BitVec.toNat_ofNat]
    omega

/-- A length below 2^31 is read as it is. -/
theorem readBigEndianUint_eq (pre ln post : Bytes) (h : beValue ln < 2 ^ 31) :
    readBigEndianUint (pre ++ ln ++ post) pre.length ln.length = beValue ln := by
  rw [readBigEndianUint, fold_bytes, BitVec.toInt_ofNat', Int.bmod_def]
  omega

theorem subarray_append (pre body post : Bytes) :
    subarray (pre ++ body ++ post) pre.length (pre.length + body.length) = body := by
  have hstart : relative (pre ++ body ++ post).length pre.length = pre.length := by
    simp only [relative, List.length_append]
    omega
  have hstop : relative (pre ++ body ++ post).length (pre.length + body.length) = pre.length + body.length := by
    simp only [relative, List.length_append]
    omega
  rw [subarray, hstart, hstop, ← List.length_append, List.take_left, List.drop_left]

/-! ## The way of the reader -/

/-- From an offset on the reader gets these items and is out. -/
inductive Walk : Bytes → Int → List Item → Prop
  | out (bytes : Bytes) (off : Int) : bytes.length ≤ off → Walk bytes off []
  | lost (bytes : Bytes) (off : Int) : off < bytes.length → byteAt bytes off = none → Walk bytes off [.list []]
  | string (bytes : Bytes) (off : Int) (first : UInt8) (l : List Item) : off < bytes.length →
      byteAt bytes off = some first → (spanOf bytes off first).isList = false →
      Walk bytes (spanOf bytes off first).stop l →
      Walk bytes off (.bytes (subarray bytes (spanOf bytes off first).start (spanOf bytes off first).stop) :: l)
  | list (bytes : Bytes) (off : Int) (first : UInt8) (inner l : List Item) : off < bytes.length →
      byteAt bytes off = some first → (spanOf bytes off first).isList = true →
      Walk (subarray bytes (spanOf bytes off first).start (spanOf bytes off first).stop) 0 inner →
      Walk bytes (spanOf bytes off first).stop l → Walk bytes off (.list inner :: l)

def baseOf : Bool → Nat
  | false => 0x80
  | true => 0xc0

/-- Where the head keeps its length, the content is what follows it. -/
theorem span_of_head {isList : Bool} {h body : Bytes} (pre post : Bytes) (hhead : Head (baseOf isList) h body.length)
    (hlen : body.length < 2 ^ 31) : ∃ first, byteAt (pre ++ (h ++ body) ++ post) pre.length = some first ∧
      spanOf (pre ++ (h ++ body) ++ post) pre.length first =
        ⟨isList, (pre ++ h).length, (pre ++ h).length + body.length⟩ := by
  generalize hn : body.length = n at hhead
  cases hhead with
  | short _ hsmall =>
    have hfirst : (UInt8.ofNat (baseOf isList + n)).toNat = baseOf isList + n := by
      rw [UInt8.toNat_ofNat']
      cases isList <;> simp only [baseOf] <;> omega
    refine ⟨UInt8.ofNat (baseOf isList + n), ?_, ?_⟩
    · simp only [List.append_assoc, List.cons_append]
      exact byteAt_append
    · rw [spanOf, hfirst]
      cases isList
      · have hbase : baseOf false = 0x80 := rfl
        simp only [hbase]
        rw [if_neg (by omega), if_pos (by omega), List.length_append, List.length_singleton]
        simp
      · have hbase : baseOf true = 0xc0 := rfl
        simp only [hbase]
        rw [if_neg (by omega), if_neg (by omega), if_neg (by omega), if_pos (by omega), List.length_append,
          List.length_singleton]
        simp
  | long ln hpos hle =>
    have hfirst : (UInt8.ofNat (baseOf isList + 55 + ln.length)).toNat = baseOf isList + 55 + ln.length := by
      rw [UInt8.toNat_ofNat']
      cases isList <;> simp only [baseOf] <;> omega
    have hread : ∀ b, readBigEndianUint (pre ++ (b :: ln ++ body) ++ post) (pre.length + 1) ln.length =
        beValue ln := by
      intro b
      have hln := readBigEndianUint_eq (pre ++ [b]) ln (body ++ post) (by omega)
      simpa using hln
    refine ⟨UInt8.ofNat (baseOf isList + 55 + ln.length), ?_, ?_⟩
    · simp only [List.append_assoc, List.cons_append]
      exact byteAt_append
    · rw [spanOf, hfirst]
      cases isList
      · have hbase : baseOf false = 0x80 := rfl
        simp only [hbase]
        rw [if_neg (by omega), if_neg (by omega), if_pos (by omega),
          show 0x80 + 55 + ln.length - 0xb7 = ln.length by omega, hread]
        simp
        omega
      · have hbase : baseOf true = 0xc0 := rfl
        simp only [hbase]
        rw [if_neg (by omega), if_neg (by omega), if_neg (by omega), if_neg (by omega),
          show 0xc0 + 55 + ln.length - 0xf7 = ln.length by omega, hread]
        simp
        omega

theorem lt_length_of_byteAt {bytes : Bytes} {off : Nat} {b : UInt8} (h : byteAt bytes off = some b) :
    (off : Int) < bytes.length := by
  rw [byteAt, if_neg (by omega)] at h
  have hlt := (List.getElem?_eq_some_iff.1 h).1
  omega

theorem subarray_of_span {h body : Bytes} (pre post : Bytes) :
    subarray (pre ++ (h ++ body) ++ post) (pre ++ h).length ((pre ++ h).length + body.length) = body := by
  have hsub := subarray_append (pre ++ h) body post
  rwa [List.append_assoc pre h body] at hsub

theorem length_content (pre h body : Bytes) :
    ((pre ++ (h ++ body)).length : Int) = (pre ++ h).length + body.length := by
  simp only [List.length_append]
  omega

/-- One item: where it is spelled out, the way goes on behind it. -/
theorem walk_string {first : UInt8} {bytes content : Bytes} {off stop : Int} {rest : List Item} {start : Int}
    (hlt : off < bytes.length) (hfirst : byteAt bytes off = some first)
    (hspan : spanOf bytes off first = ⟨false, start, stop⟩) (hcontent : subarray bytes start stop = content)
    (hrest : Walk bytes stop rest) : Walk bytes off (.bytes content :: rest) := by
  have hwalk := Walk.string bytes off first rest hlt hfirst (by rw [hspan]) (by rw [hspan]; exact hrest)
  rwa [hspan, hcontent] at hwalk

theorem walk_list {first : UInt8} {bytes content : Bytes} {off stop : Int} {inner rest : List Item} {start : Int}
    (hlt : off < bytes.length) (hfirst : byteAt bytes off = some first)
    (hspan : spanOf bytes off first = ⟨true, start, stop⟩) (hcontent : subarray bytes start stop = content)
    (hinner : Walk content 0 inner) (hrest : Walk bytes stop rest) : Walk bytes off (.list inner :: rest) := by
  refine Walk.list bytes off first inner rest hlt hfirst (by rw [hspan]) ?_ (by rw [hspan]; exact hrest)
  rwa [hspan, hcontent]

mutual

/-- Along bytes that spell an item the reader gets this item. -/
theorem walk_of_spells : ∀ (i : Item) (pre bs post : Bytes) (rest : List Item), Spells bs i →
    (pre ++ bs ++ post).length < 2 ^ 31 → Walk (pre ++ bs ++ post) (pre ++ bs).length rest →
    Walk (pre ++ bs ++ post) pre.length (i :: rest)
  | .bytes content, pre, _, post, rest, hspells, hlen, hrest => by
    cases hspells with
    | byte b hb =>
      have hfirst : byteAt (pre ++ [b] ++ post) pre.length = some b := by
        rw [List.append_assoc]
        exact byteAt_append
      have hspan : spanOf (pre ++ [b] ++ post) pre.length b = ⟨false, pre.length, pre.length + ([b] : Bytes).length⟩ := by
        rw [spanOf, if_pos (by omega), List.length_singleton]
        rfl
      refine walk_string (lt_length_of_byteAt hfirst) hfirst hspan (subarray_append pre [b] post) ?_
      rwa [List.length_append, Int.natCast_add] at hrest
    | string h _ hhead =>
      have hshort : content.length < 2 ^ 31 := by
        simp only [List.length_append] at hlen
        omega
      obtain ⟨first, hfirst, hspan⟩ := @span_of_head false _ _ pre post hhead hshort
      refine walk_string (lt_length_of_byteAt hfirst) hfirst hspan (subarray_of_span pre post) ?_
      rwa [length_content] at hrest
  | .list l, pre, _, post, rest, hspells, hlen, hrest => by
    cases hspells with
    | list h body _ hhead hall =>
      have hshort : body.length < 2 ^ 31 := by
        simp only [List.length_append] at hlen
        omega
      obtain ⟨first, hfirst, hspan⟩ := @span_of_head true _ _ pre post hhead hshort
      refine walk_list (lt_length_of_byteAt hfirst) hfirst hspan (subarray_of_span pre post) ?_ ?_
      · exact walk_of_spellsAll l [] body hall (by simpa using hshort)
      · rwa [length_content] at hrest

theorem walk_of_spellsAll : ∀ (l : List Item) (pre bs : Bytes), SpellsAll bs l → (pre ++ bs).length < 2 ^ 31 →
    Walk (pre ++ bs) pre.length l
  | [], pre, _, hall, _ => by
    cases hall
    exact .out _ _ (by simp)
  | i :: l, pre, _, hall, hlen => by
    cases hall with
    | cons b bs _ _ hspells hall =>
      rw [← List.append_assoc] at hlen ⊢
      exact walk_of_spells i pre b bs l hspells hlen (walk_of_spellsAll l (pre ++ b) bs hall hlen)

end

/-! ## The reader goes this way -/

theorem walk_of_rlpLoop {fuel : Nat} {bytes : Bytes} {off : Int} {r : Except Thrown (List Item)}
    (h : rlpLoop fuel bytes off = some r) : ∃ l, r = .ok l ∧ Walk bytes off l := by
  induction fuel using Nat.strongRecOn generalizing bytes off r with
  | ind fuel ih =>
    cases fuel with
    | zero => cases h
    | succ fuel =>
      rw [rlpLoop] at h
      by_cases hlt : off < bytes.length
      · rw [if_pos hlt] at h
        obtain ⟨x, hx, h⟩ := Option.bind_eq_some_iff.1 h
        cases fuel with
        | zero => cases hx
        | succ fuel =>
          rw [rlpDecodeItem, if_neg (by omega)] at hx
          cases hfirst : byteAt bytes off with
          | none =>
            rw [hfirst] at hx
            obtain rfl := Option.some.inj hx
            exact ⟨_, (Option.some.inj h).symm, .lost bytes off hlt hfirst⟩
          | some first =>
            rw [hfirst] at hx
            dsimp only at hx
            by_cases hlist : (spanOf bytes off first).isList = true
            · rw [if_pos hlist] at hx
              obtain ⟨y, hy, hx⟩ := Option.map_eq_some_iff.1 hx
              obtain ⟨inner, rfl, hinner⟩ := ih fuel (by omega) hy
              subst hx
              obtain ⟨z, hz, h⟩ := Option.map_eq_some_iff.1 h
              obtain ⟨l, rfl, hl⟩ := ih (fuel + 1) (by omega) hz
              exact ⟨_, h.symm, .list bytes off first inner l hlt hfirst hlist hinner hl⟩
            · rw [if_neg hlist] at hx
              obtain rfl := Option.some.inj hx
              obtain ⟨z, hz, h⟩ := Option.map_eq_some_iff.1 h
              obtain ⟨l, rfl, hl⟩ := ih (fuel + 1) (by omega) hz
              exact ⟨_, h.symm, .string bytes off first l hlt hfirst (by simpa using hlist) hl⟩
      · rw [if_neg hlt] at h
        exact ⟨[], (Option.some.inj h).symm, .out bytes off (by omega)⟩

theorem rlpLoop_of_walk {bytes : Bytes} {off : Int} {l : List Item} (h : Walk bytes off l) :
    ∃ n, ∀ fuel, n ≤ fuel → rlpLoop fuel bytes off = some (.ok l) := by
  induction h with
  | out bytes off hout =>
    refine ⟨1, fun fuel hfuel => ?_⟩
    obtain ⟨fuel, rfl⟩ := Nat.exists_eq_add_of_le' hfuel
    rw [rlpLoop, if_neg (by omega)]
  | lost bytes off hlt hfirst =>
    refine ⟨2, fun fuel hfuel => ?_⟩
    obtain ⟨fuel, rfl⟩ := Nat.exists_eq_add_of_le' hfuel
    rw [rlpLoop, if_pos hlt, rlpDecodeItem, if_neg (by omega), hfirst]
    rfl
  | string bytes off first l hlt hfirst hlist _ ih =>
    obtain ⟨n, hn⟩ := ih
    refine ⟨n + 2, fun fuel hfuel => ?_⟩
    obtain ⟨fuel, rfl⟩ := Nat.exists_eq_add_of_le' (show 2 ≤ fuel by omega)
    rw [rlpLoop, if_pos hlt, rlpDecodeItem, if_neg (by omega), hfirst]
    simp only [hlist, Bool.false_eq_true, if_false, Option.bind_some]
    rw [hn (fuel + 1) (by omega)]
    rfl
  | list bytes off first inner l hlt hfirst hlist _ _ ihinner ih =>
    obtain ⟨n, hn⟩ := ih
    obtain ⟨m, hm⟩ := ihinner
    refine ⟨n + m + 2, fun fuel hfuel => ?_⟩
    obtain ⟨fuel, rfl⟩ := Nat.exists_eq_add_of_le' (show 2 ≤ fuel by omega)
    rw [rlpLoop, if_pos hlt, rlpDecodeItem, if_neg (by omega), hfirst]
    simp only [hlist, if_true]
    rw [hm fuel (by omega)]
    simp only [Option.map_some, Except.map, Option.bind_some]
    rw [hn (fuel + 1) (by omega)]
    rfl

theorem Walk.unique {bytes : Bytes} {off : Int} {l l' : List Item} (h : Walk bytes off l) (h' : Walk bytes off l') :
    l = l' := by
  obtain ⟨n, hn⟩ := rlpLoop_of_walk h
  obtain ⟨m, hm⟩ := rlpLoop_of_walk h'
  have hl := (hn (n + m) (by omega)).symm.trans (hm (n + m) (by omega))
  exact Except.ok.inj (Option.some.inj hl)

/-- What the outer list has between its head and its end. -/
def outer (payload : Bytes) (first : UInt8) : Bytes :=
  subarray payload (spanOf payload 0 first).start (spanOf payload 0 first).stop

theorem byteAt_zero (first : UInt8) (rest : Bytes) : byteAt (first :: rest) 0 = some first := rfl

theorem allConsumed_ok {bytes : Bytes} {item i : Item} {stop : Int} :
    allConsumed bytes (item, some stop) = .ok i ↔ stop = bytes.length ∧ i = item := by
  unfold allConsumed
  by_cases hstop : stop = bytes.length
  · simp [hstop, eq_comm]
  · simp [hstop]

theorem rlpDecode_string {first : UInt8} {rest : Bytes} (h : (spanOf (first :: rest) 0 first).isList = false)
    {fuel : Nat} (hfuel : 1 ≤ fuel) : rlpDecode fuel (first :: rest) = some (allConsumed (first :: rest)
      (.bytes (outer (first :: rest) first), some (spanOf (first :: rest) 0 first).stop)) := by
  obtain ⟨fuel, rfl⟩ := Nat.exists_eq_add_of_le' hfuel
  rw [rlpDecode, rlpDecodeItem, if_neg (by simp), byteAt_zero]
  simp only [h, Bool.false_eq_true, if_false]
  rfl

/-- Of an outer list the reader gets the items on its way. -/
theorem rlpDecode_list {first : UInt8} {rest : Bytes} (h : (spanOf (first :: rest) 0 first).isList = true)
    {l : List Item} (hwalk : Walk (outer (first :: rest) first) 0 l) : ∃ n, ∀ fuel, n ≤ fuel →
      rlpDecode fuel (first :: rest) =
        some (allConsumed (first :: rest) (.list l, some (spanOf (first :: rest) 0 first).stop)) := by
  obtain ⟨n, hn⟩ := rlpLoop_of_walk hwalk
  refine ⟨n + 1, fun fuel hfuel => ?_⟩
  obtain ⟨fuel, rfl⟩ := Nat.exists_eq_add_of_le' (show 1 ≤ fuel by omega)
  have hloop := hn fuel (by omega)
  rw [outer] at hloop
  rw [rlpDecode, rlpDecodeItem, if_neg (by simp), byteAt_zero]
  simp only [h, if_true, hloop]
  rfl

theorem walk_of_rlpDecode {fuel : Nat} {first : UInt8} {rest : Bytes} {r : Except Thrown Item}
    (h : rlpDecode fuel (first :: rest) = some r) (hlist : (spanOf (first :: rest) 0 first).isList = true) :
    ∃ l, Walk (outer (first :: rest) first) 0 l := by
  obtain ⟨x, hx, -⟩ := Option.map_eq_some_iff.1 h
  cases fuel with
  | zero => cases hx
  | succ fuel =>
    rw [rlpDecodeItem, if_neg (by simp), byteAt_zero] at hx
    simp only [hlist, if_true] at hx
    obtain ⟨y, hy, -⟩ := Option.map_eq_some_iff.1 hx
    obtain ⟨l, -, hl⟩ := walk_of_rlpLoop hy
    exact ⟨l, hl⟩

/-! ## Soundness -/

/-- The bytes of a string. -/
def bytesOf (s : List UInt16) : Option Bytes :=
  let cleaned := strip0x s
  if cleaned.length = 0 ∨ cleaned.length % 2 ≠ 0 then none else some (hexToBytes cleaned)

def recipientAt (envelope : Option UInt8) (l : List Item) : Option Bytes :=
  match places envelope with
  | .ok (toIdx, _) => bytesAt l toIdx
  | .error _ => none

/-- From some fuel on, this is what comes out. -/
def Returns (s : List UInt16) (r : Except Thrown Decoded) : Prop :=
  ∃ n, ∀ fuel, n ≤ fuel → decodeEvmSignedTx fuel s = some r

def textOf (b : Bytes) : String := String.ofList ('0' :: 'x' :: bytesToHex b)

structure ReaderSound (s : List UInt16) : Prop where
  ends : ∃ r, Returns s r
  reads (tx : SignedTx) (a : Address) : bytesOf s = some tx.encode → tx.recipient = some a →
    Returns s (.ok ⟨textOf a.bytes, tx.value, textOf tx.data⟩)
  creates (tx : SignedTx) : bytesOf s = some tx.encode → tx.recipient = none → ∃ e, Returns s (.error e)
  refuses (d : Decoded) : Returns s (.ok d) → ∃ bs l a, bytesOf s = some bs ∧ Spells (payloadOf bs) (.list l) ∧
    recipientAt (envelopeOf bs) l = some a ∧ a.length = 20

/-- The way through the outer list ends; and if it does so at the end of the input, with the three fields as
byte strings, then the input spells the items on that way, and the recipient has 20 bytes. -/
def Straight (envelope : Option UInt8) : Bytes → Prop
  | [] => True
  | first :: rest => (spanOf (first :: rest) 0 first).isList = true →
    ∃ l, Walk (outer (first :: rest) first) 0 l ∧
      ((spanOf (first :: rest) 0 first).stop = (first :: rest).length →
        (fieldsOf envelope (.list l)).isOk = true → Spells (first :: rest) (.list l) ∧
          ∃ a, recipientAt envelope l = some a ∧ a.length = 20)

/-- The strings of the engine are shorter. -/
structure JsString where
  units : List UInt16
  short : units.length < 2 ^ 30

theorem length_bytesOfPairs : ∀ us : List UInt16, (bytesOfPairs us).length ≤ us.length
  | [] => by simp [bytesOfPairs]
  | [_] => by simp [bytesOfPairs]
  | _ :: _ :: us => by
    have ih := length_bytesOfPairs us
    simp only [bytesOfPairs, List.length_cons]
    omega

theorem length_strip0x (us : List UInt16) : (strip0x us).length ≤ us.length := by
  unfold strip0x
  split
  · simp only [List.length_cons]
    omega
  · exact Nat.le_refl _

theorem bytes_short {s : List UInt16} {bs : Bytes} (h : bytesOf s = some bs) (hs : s.length < 2 ^ 30) :
    bs.length < 2 ^ 31 := by
  unfold bytesOf at h
  obtain ⟨-, h⟩ := Option.ite_none_left_eq_some.1 h
  obtain rfl := Option.some.inj h
  have hcleaned := length_strip0x s
  have hagain := length_strip0x (strip0x s)
  have hpairs := length_bytesOfPairs (strip0x (strip0x s))
  unfold hexToBytes
  omega

theorem payload_short {s : List UInt16} {bs : Bytes} (h : bytesOf s = some bs) (hs : s.length < 2 ^ 30) :
    (payloadOf bs).length < 2 ^ 31 := by
  have hshort := bytes_short h hs
  unfold payloadOf
  split
  · rw [List.length_drop]
    omega
  · exact hshort

theorem decode_of_bytes {s : List UInt16} {bs : Bytes} (h : bytesOf s = some bs) (fuel : Nat) :
    decodeEvmSignedTx fuel s =
      (rlpDecode fuel (payloadOf bs)).map fun r => r.bind (fieldsOf (envelopeOf bs)) := by
  unfold bytesOf at h
  obtain ⟨hlen, h⟩ := Option.ite_none_left_eq_some.1 h
  obtain rfl := Option.some.inj h
  unfold decodeEvmSignedTx
  simp only [if_neg hlen]

theorem returns_of_noBytes {s : List UInt16} (h : bytesOf s = none) :
    Returns s (.error (badHex (strip0x s))) := by
  refine ⟨0, fun fuel _ => ?_⟩
  unfold bytesOf at h
  by_cases hlen : (strip0x s).length = 0 ∨ (strip0x s).length % 2 ≠ 0
  · rw [decodeEvmSignedTx]
    simp only [if_pos hlen]
  · simp only [if_neg hlen] at h
    cases h

theorem Returns.unique {s : List UInt16} {r r' : Except Thrown Decoded} (h : Returns s r) (h' : Returns s r') :
    r = r' := by
  obtain ⟨n, hn⟩ := h
  obtain ⟨m, hm⟩ := h'
  exact Option.some.inj ((hn (n + m) (by omega)).symm.trans (hm (n + m) (by omega)))

/-- What the outer item comes to makes what is returned. -/
theorem returns_of_rlpDecode {s : List UInt16} {bs : Bytes} (h : bytesOf s = some bs) {r : Except Thrown Item}
    (hr : ∃ n, ∀ fuel, n ≤ fuel → rlpDecode fuel (payloadOf bs) = some r) :
    Returns s (r.bind (fieldsOf (envelopeOf bs))) := by
  obtain ⟨n, hn⟩ := hr
  refine ⟨n, fun fuel hfuel => ?_⟩
  rw [decode_of_bytes h, hn fuel hfuel]
  rfl

theorem outer_of_spells {first : UInt8} {rest : Bytes} {l : List Item} (h : Spells (first :: rest) (.list l))
    (hlen : (first :: rest).length < 2 ^ 31) : (spanOf (first :: rest) 0 first).isList = true ∧
      (spanOf (first :: rest) 0 first).stop = (first :: rest).length ∧ Walk (outer (first :: rest) first) 0 l := by
  generalize hbytes : first :: rest = bytes at h hlen ⊢
  cases h with
  | list h body _ hhead hall =>
    have hshort : body.length < 2 ^ 31 := by
      rw [List.length_append] at hlen
      omega
    obtain ⟨first', hfirst, hspan⟩ := @span_of_head true _ _ [] [] hhead hshort
    simp only [List.nil_append, List.append_nil] at hfirst hspan
    change spanOf (h ++ body) 0 first' = _ at hspan
    have hsame : first' = first := by
      rw [← hbytes] at hfirst
      exact (Option.some.inj hfirst).symm
    subst hsame
    have hcontent := @subarray_of_span h body [] []
    simp only [List.nil_append, List.append_nil] at hcontent
    refine ⟨by rw [hspan], ?_, ?_⟩
    · rw [hspan, List.length_append]
      simp
    · rw [outer, hspan, hcontent]
      exact walk_of_spellsAll l [] body hall (by simpa using hshort)

theorem returns_of_spells {s : List UInt16} {bs : Bytes} {l : List Item} (hs : s.length < 2 ^ 30)
    (h : bytesOf s = some bs) (hspells : Spells (payloadOf bs) (.list l)) :
    Returns s (fieldsOf (envelopeOf bs) (.list l)) := by
  have hshort := payload_short h hs
  cases hpayload : payloadOf bs with
  | nil =>
    rw [hpayload] at hspells
    generalize hnil : ([] : Bytes) = bytes at hspells
    cases hspells with
    | list h body _ hhead => exact absurd (List.append_eq_nil_iff.1 hnil.symm).1 hhead.ne_nil
  | cons first rest =>
    rw [hpayload] at hspells hshort
    obtain ⟨hlist, hstop, hwalk⟩ := outer_of_spells hspells hshort
    obtain ⟨n, hn⟩ := rlpDecode_list hlist hwalk
    have hreturns := returns_of_rlpDecode h ⟨n, fun fuel hfuel => by rw [hpayload]; exact hn fuel hfuel⟩
    rwa [allConsumed_ok.2 ⟨hstop, rfl⟩] at hreturns

/-! ## What a strict decoder accepts -/

theorem encode_list_first (l : List Item) (h : (encodeAll l).length < 2 ^ 64) :
    ∃ b rest, Rlp.encode (.list l) = b :: rest ∧ 0xc0 ≤ b.toNat := by
  have hcount := byteCount_le h
  rw [Rlp.encode, head]
  split
  · refine ⟨_, _, rfl, ?_⟩
    rw [UInt8.toNat_ofNat']
    omega
  · refine ⟨_, _, rfl, ?_⟩
    rw [UInt8.toNat_ofNat']
    omega

theorem envelope_encode (tx : SignedTx) (h : (encodeAll tx.fields).length < 2 ^ 64) :
    envelopeOf tx.encode = tx.envelope ∧ payloadOf tx.encode = Rlp.encode (.list tx.fields) := by
  obtain ⟨b, rest, hfirst, hb⟩ := encode_list_first tx.fields h
  cases tx with
  | legacy =>
    have hnone : envelopeOf (b :: rest) = none := by
      rw [envelopeOf, if_neg (by omega)]
    simp [SignedTx.encode, SignedTx.envelope, hfirst, payloadOf, hnone]
  | accessList => exact ⟨rfl, rfl⟩
  | dynamicFee => exact ⟨rfl, rfl⟩
  | blob => exact ⟨rfl, rfl⟩

theorem foldl_scalar (n : Nat) : (scalar n).foldl (fun n b => 256 * n + b.toNat) 0 = n := by
  rw [foldl_beValue, beValue_scalar, Nat.mul_zero, Nat.zero_add]

theorem fieldsOf_tx (tx : SignedTx) : fieldsOf tx.envelope (.list tx.fields) =
    .ok ⟨recipientText (tx.recipient.elim [] Address.bytes), tx.value, textOf tx.data⟩ ∧
      recipientAt tx.envelope tx.fields = some (tx.recipient.elim [] Address.bytes) := by
  cases tx with
  | legacy nonce gasPrice gasLimit recipient value data v r s =>
    have hvalue := foldl_scalar value
    exact ⟨by simp [fieldsOf, SignedTx.envelope, places, SignedTx.fields, bytesAt, SignedTx.recipientItem, SignedTx.num,
      hvalue, SignedTx.recipient, SignedTx.value, SignedTx.data, textOf], rfl⟩
  | accessList chainId nonce gasPrice gasLimit recipient value data entries yParity r s =>
    have hvalue := foldl_scalar value
    exact ⟨by simp [fieldsOf, SignedTx.envelope, places, SignedTx.fields, bytesAt, SignedTx.recipientItem, SignedTx.num,
      hvalue, SignedTx.recipient, SignedTx.value, SignedTx.data, textOf], rfl⟩
  | dynamicFee chainId nonce maxPriorityFee maxFee gasLimit recipient value data entries yParity r s =>
    have hvalue := foldl_scalar value
    exact ⟨by simp [fieldsOf, SignedTx.envelope, places, SignedTx.fields, bytesAt, SignedTx.recipientItem, SignedTx.num,
      hvalue, SignedTx.recipient, SignedTx.value, SignedTx.data, textOf], rfl⟩
  | blob chainId nonce maxPriorityFee maxFee gasLimit recipient value data entries maxFeePerBlobGas blobHashes
      yParity r s =>
    have hvalue := foldl_scalar value
    exact ⟨by simp [fieldsOf, SignedTx.envelope, places, SignedTx.fields, bytesAt, SignedTx.recipientItem, SignedTx.num,
      hvalue, SignedTx.recipient, SignedTx.value, SignedTx.data, textOf], rfl⟩

theorem length_bytesToHex (b : Bytes) : (bytesToHex b).length = 2 * b.length := by
  induction b with
  | nil => rfl
  | cons x b ih =>
    have hcons : bytesToHex (x :: b) = hexByte x ++ bytesToHex b := rfl
    rw [hcons, List.length_append, ih, List.length_cons]
    simp only [hexByte, List.length_cons, List.length_nil]
    omega

theorem recipientText_eq {b : Bytes} (h : b.length = 20) : recipientText b = textOf b := by
  have hhex := length_bytesToHex b
  have hnone : 40 - (bytesToHex b).length = 0 := by omega
  have hall : (bytesToHex b).length - 40 = 0 := by omega
  simp only [recipientText, textOf, hnone, List.replicate_zero, List.nil_append, hall, List.drop_zero]

/-- The bytes of a transaction spell its fields, and that is what is read. -/
theorem returns_of_tx {s : List UInt16} {tx : SignedTx} (hs : s.length < 2 ^ 30) (h : bytesOf s = some tx.encode) :
    Returns s (.ok ⟨recipientText (tx.recipient.elim [] Address.bytes), tx.value, textOf tx.data⟩) ∧
      Spells (payloadOf tx.encode) (.list tx.fields) ∧ envelopeOf tx.encode = tx.envelope := by
  have hshort : (Rlp.encode (.list tx.fields)).length < 2 ^ 31 := by
    have hbytes := bytes_short h hs
    rw [SignedTx.encode, List.length_append] at hbytes
    omega
  have hall : (encodeAll tx.fields).length < 2 ^ 64 := by
    rw [Rlp.encode, List.length_append] at hshort
    omega
  obtain ⟨henvelope, hpayload⟩ := envelope_encode tx hall
  have hspells : Spells (payloadOf tx.encode) (.list tx.fields) := by
    rw [hpayload]
    exact spells_encode _ (by omega)
  have hreturns := returns_of_spells hs h hspells
  rw [henvelope, (fieldsOf_tx tx).1] at hreturns
  exact ⟨hreturns, hspells, henvelope⟩

/-! ## The law -/

theorem spells_unique {bs : Bytes} {i j : Item} (hi : Spells bs i) (hj : Spells bs j) (hlen : bs.length < 2 ^ 31) :
    i = j := by
  have hwalk : ∀ k, Spells bs k → Walk bs 0 [k] := by
    intro k hk
    have hway := walk_of_spells k [] bs [] [] hk (by simpa using hlen) (.out _ _ (by simp))
    simpa using hway
  exact List.singleton_inj.1 ((hwalk i hi).unique (hwalk j hj))

/-- What is accepted is spelled out, with a recipient of 20 bytes. -/
def GoodOutcome (s : List UInt16) (r : Except Thrown Decoded) : Prop :=
  ∀ d, r = .ok d → ∃ bs l a, bytesOf s = some bs ∧ Spells (payloadOf bs) (.list l) ∧
    recipientAt (envelopeOf bs) l = some a ∧ a.length = 20

theorem returns_of_straight {s : List UInt16}
    (hstraight : ∀ bs, bytesOf s = some bs → Straight (envelopeOf bs) (payloadOf bs)) :
    ∃ r, Returns s r ∧ GoodOutcome s r := by
  cases hbytes : bytesOf s with
  | none => exact ⟨_, returns_of_noBytes hbytes, fun d hd => by cases hd⟩
  | some bs =>
    have hway := hstraight bs hbytes
    cases hpayload : payloadOf bs with
    | nil =>
      have hreturns := returns_of_rlpDecode hbytes (r := .error (.error "RLP: unexpected end of input"))
        ⟨1, fun fuel hfuel => by
          obtain ⟨fuel, rfl⟩ := Nat.exists_eq_add_of_le' hfuel
          rw [hpayload]
          rfl⟩
      exact ⟨_, hreturns, fun d hd => by cases hd⟩
    | cons first rest =>
      rw [hpayload] at hway
      cases hlist : (spanOf (first :: rest) 0 first).isList with
      | false =>
        have hreturns := returns_of_rlpDecode hbytes ⟨1, fun fuel hfuel => by
          rw [hpayload]
          exact rlpDecode_string hlist hfuel⟩
        refine ⟨_, hreturns, fun d hd => ?_⟩
        -- a byte string is no transaction
        cases hitem : allConsumed (first :: rest)
            (.bytes (outer (first :: rest) first), some (spanOf (first :: rest) 0 first).stop) with
        | error e => rw [hitem] at hd; cases hd
        | ok i =>
          obtain ⟨-, rfl⟩ := allConsumed_ok.1 hitem
          rw [hitem] at hd
          cases hd
      | true =>
        obtain ⟨l, hwalk, hgood⟩ := hway hlist
        obtain ⟨n, hn⟩ := rlpDecode_list hlist hwalk
        have hreturns := returns_of_rlpDecode hbytes ⟨n, fun fuel hfuel => by
          rw [hpayload]
          exact hn fuel hfuel⟩
        refine ⟨_, hreturns, fun d hd => ?_⟩
        cases hitem : allConsumed (first :: rest) (.list l, some (spanOf (first :: rest) 0 first).stop) with
        | error e => rw [hitem] at hd; cases hd
        | ok i =>
          obtain ⟨hstop, rfl⟩ := allConsumed_ok.1 hitem
          rw [hitem] at hd
          change fieldsOf (envelopeOf bs) (.list l) = .ok d at hd
          obtain ⟨hspells, a, ha, hlen⟩ := hgood hstop (by rw [hd]; rfl)
          exact ⟨bs, l, a, hbytes, by rwa [hpayload], ha, hlen⟩

theorem sound_of_straight {s : List UInt16} (hs : s.length < 2 ^ 30)
    (hstraight : ∀ bs, bytesOf s = some bs → Straight (envelopeOf bs) (payloadOf bs)) : ReaderSound s := by
  obtain ⟨r, hreturns, hok⟩ := returns_of_straight hstraight
  refine ⟨⟨r, hreturns⟩, fun tx a hbytes ha => ?_, fun tx hbytes hnone => ?_, fun d hd => ?_⟩
  · obtain ⟨htx, -, -⟩ := returns_of_tx hs hbytes
    rwa [ha, Option.elim_some, recipientText_eq a.length] at htx
  · -- it would be returned, with an empty recipient
    obtain ⟨htx, hspells, henvelope⟩ := returns_of_tx hs hbytes
    obtain ⟨bs, l, a, hbs, hspells', ha, hlen⟩ := hok _ (hreturns.unique htx)
    rw [hbytes] at hbs
    obtain rfl := Option.some.inj hbs
    obtain rfl := Item.list.inj (spells_unique hspells' hspells (payload_short hbytes hs))
    rw [henvelope, (fieldsOf_tx tx).2, hnone] at ha
    obtain rfl := Option.some.inj ha
    cases hlen
  · exact hok d (hreturns.unique hd)

theorem straight_of_sound {s : List UInt16} (hs : s.length < 2 ^ 30) (h : ReaderSound s) (bs : Bytes)
    (hbytes : bytesOf s = some bs) : Straight (envelopeOf bs) (payloadOf bs) := by
  cases hpayload : payloadOf bs with
  | nil => trivial
  | cons first rest =>
    intro hlist
    obtain ⟨r, n, hn⟩ := h.ends
    have hrun := hn n (Nat.le_refl n)
    rw [decode_of_bytes hbytes, hpayload] at hrun
    obtain ⟨x, hx, -⟩ := Option.map_eq_some_iff.1 hrun
    obtain ⟨l, hwalk⟩ := walk_of_rlpDecode hx hlist
    refine ⟨l, hwalk, fun hstop hfields => ?_⟩
    obtain ⟨m, hm⟩ := rlpDecode_list hlist hwalk
    have hreturns := returns_of_rlpDecode hbytes ⟨m, fun fuel hfuel => by
      rw [hpayload]
      exact hm fuel hfuel⟩
    rw [allConsumed_ok.2 ⟨hstop, rfl⟩] at hreturns
    cases hd : fieldsOf (envelopeOf bs) (.list l) with
    | error e => rw [hd] at hfields; cases hfields
    | ok d =>
      change Returns s (fieldsOf (envelopeOf bs) (.list l)) at hreturns
      rw [hd] at hreturns
      obtain ⟨bs', l', a, hbs', hspells, ha, hlen⟩ := h.refuses d hreturns
      rw [hbytes] at hbs'
      obtain rfl := Option.some.inj hbs'
      have hshort := payload_short hbytes hs
      rw [hpayload] at hspells hshort
      obtain rfl := (outer_of_spells hspells hshort).2.2.unique hwalk
      exact ⟨hspells, a, ha, hlen⟩

/-- The reader cannot be fooled by a string exactly if the way through its bytes is straight. -/
theorem reader_sound_iff (s : JsString) : ReaderSound s.units ↔
    ∀ bs, bytesOf s.units = some bs → Straight (envelopeOf bs) (payloadOf bs) :=
  ⟨straight_of_sound s.short, sound_of_straight s.short⟩

/-! ## Two strings -/

def units (s : String) : List UInt16 := s.toList.map fun c => UInt16.ofNat c.toNat

/-- A legacy transaction that creates a contract. -/
def creation : SignedTx := .legacy 0 1 21000 none 0 [0x60] 37 1 1

def creationHex : JsString := ⟨units "0xcb8001825208808060250101", by decide +kernel⟩

/-- It is read as one to the address zero. -/
theorem not_always_sound : ¬ ∀ s : JsString, ReaderSound s.units := by
  intro hall
  have hbytes : bytesOf creationHex.units = some creation.encode := by decide +kernel
  obtain ⟨e, he⟩ := (hall creationHex).creates creation hbytes rfl
  obtain ⟨htx, -, -⟩ := returns_of_tx creationHex.short hbytes
  cases he.unique htx

/-- A list whose item has the length -5. -/
def circleHex : JsString := ⟨units "c5bbfffffffb", by decide +kernel⟩

theorem circle_loop (fuel : Nat) : rlpLoop fuel [0xbb, 0xff, 0xff, 0xff, 0xfb] 0 = none := by
  induction fuel using Nat.strongRecOn with
  | ind fuel ih =>
    match fuel with
    | 0 => rfl
    | 1 => rfl
    | fuel + 2 =>
      have hstop : spanOf [0xbb, 0xff, 0xff, 0xff, 0xfb] 0 0xbb = ⟨false, 5, 0⟩ := by decide +kernel
      have hitem : rlpDecodeItem (fuel + 1) [0xbb, 0xff, 0xff, 0xff, 0xfb] 0 =
          some (.ok (.bytes (subarray [0xbb, 0xff, 0xff, 0xff, 0xfb] 5 0), some 0)) := by
        rw [rlpDecodeItem, if_neg (by decide), byteAt_zero]
        simp only [hstop]
        rfl
      rw [rlpLoop, if_pos (by decide), hitem]
      simp only [Option.bind_some, ih (fuel + 1) (by omega), Option.map_none]

/-- On it the reader never ends. -/
theorem circle_never_ends : ¬ ∃ r, Returns circleHex.units r := by
  rintro ⟨r, n, hn⟩
  have hbytes : bytesOf circleHex.units = some [0xc5, 0xbb, 0xff, 0xff, 0xff, 0xfb] := by decide +kernel
  have hrun := hn n (Nat.le_refl n)
  rw [decode_of_bytes hbytes] at hrun
  obtain ⟨x, hx, -⟩ := Option.map_eq_some_iff.1 hrun
  obtain ⟨l, hwalk⟩ := walk_of_rlpDecode hx (by decide +kernel)
  obtain ⟨m, hm⟩ := rlpLoop_of_walk hwalk
  have hinner : outer (payloadOf [0xc5, 0xbb, 0xff, 0xff, 0xff, 0xfb]) 0xc5 = [0xbb, 0xff, 0xff, 0xff, 0xfb] := by
    decide +kernel
  have hloop := hm m (Nat.le_refl m)
  rw [show outer (0xc5 :: [0xbb, 0xff, 0xff, 0xff, 0xfb]) 0xc5 = _ from hinner, circle_loop] at hloop
  cases hloop

end Evm
