import PwndaWallet.Lib.Wire

/-!
# CBOR of a Cardano transaction

`wallets/cardano-cbor.ts`, and the small decoder of `wallets/cardano-tx.ts`, which gives the body back as a
value so that the encoder can put it inside the transaction. A bigint is an `Int`; a throw of the decoder is
`none`.
-/

namespace Cardano

open Wire Reader

def MT_UINT : Nat := 0
def MT_BYTES : Nat := 2
def MT_TEXT : Nat := 3
def MT_ARRAY : Nat := 4
def MT_MAP : Nat := 5
def MT_TAGGED : Nat := 6
def MT_OTHER : Nat := 7

inductive CborValue
  | uint (value : Int)
  | bytes (value : Bytes)
  | text (value : String)
  | array (values : List CborValue)
  | map (entries : List (CborValue × CborValue))
  | tagged (tag : Nat) (value : CborValue)
  | bool (value : Bool)
  | null

/-! ## The encoder -/

/-- The shortest of five forms. From 2^64 on the lowest eight bytes are all that is written, and a negative
value goes into the one byte as far as it fits: nothing is refused here. -/
def writeHead (mt : Nat) (v : Int) : Bytes :=
  let top := mt <<< 5
  if v < 24 then [UInt8.ofNat (top ||| (v % 256).toNat)]
  else if v < 256 then [UInt8.ofNat (top ||| 24), UInt8.ofNat v.toNat]
  else if v < 65536 then UInt8.ofNat (top ||| 25) :: be 2 v.toNat
  else if v < 4294967296 then UInt8.ofNat (top ||| 26) :: be 4 v.toNat
  else UInt8.ofNat (top ||| 27) :: be 8 v.toNat

mutual

def writeValue : CborValue → Bytes
  | .uint value => writeHead MT_UINT value
  | .bytes value => writeHead MT_BYTES value.length ++ value
  | .text value =>
    let utf8 := value.toUTF8.toList
    writeHead MT_TEXT utf8.length ++ utf8
  | .array values => writeHead MT_ARRAY values.length ++ writeValues values
  | .map entries => writeHead MT_MAP entries.length ++ writeEntries entries
  | .tagged tag value => writeHead MT_TAGGED tag ++ writeValue value
  | .bool value => [UInt8.ofNat (MT_OTHER <<< 5 ||| if value then 21 else 20)]
  | .null => [UInt8.ofNat (MT_OTHER <<< 5 ||| 22)]

def writeValues : List CborValue → Bytes
  | [] => []
  | v :: values => writeValue v ++ writeValues values

def writeEntries : List (CborValue × CborValue) → Bytes
  | [] => []
  | (k, x) :: entries => writeValue k ++ writeValue x ++ writeEntries entries

end

def encodeCbor (v : CborValue) : Bytes := writeValue v

/-! ## The decoder of the body -/

namespace MinimalCborDecoder

/-- Behind the last byte there is `undefined`, which the bit operations take for 0. -/
def readInitial : Reader UInt8
  | [] => some (0, [])
  | b :: bs => some (b, bs)

def readLength (ai : Nat) : Reader Nat :=
  if ai < 24 then pure ai
  else if ai = 24 then beNum 1
  else if ai = 25 then beNum 2
  else if ai = 26 then beNum 4
  else if ai = 27 then beNum 8
  else fail

/-- The major type and the length or value that goes with it. -/
def readHead : Reader (Nat × Nat) := do
  let initial ← readInitial
  let len ← readLength (initial.toNat &&& 0x1f)
  return (initial.toNat >>> 5, len)

/-- `buf.slice`, which ends with the buffer. -/
def slice (n : Nat) : Reader Bytes := fun bs => some (bs.take n, bs.drop n)

/-- `fuel` bounds the nesting: each level has read a byte of its own. -/
def readValue : Nat → Reader CborValue
  | 0 => fail
  | fuel + 1 => do
    let (mt, len) ← readHead
    if mt = MT_UINT then return .uint len
    else if mt = MT_BYTES then return .bytes (← slice len)
    else if mt = MT_ARRAY then return .array (← count (readValue fuel) len)
    else if mt = MT_MAP then
      return .map (← count (do
        let k ← readValue fuel
        let v ← readValue fuel
        return (k, v)) len)
    else fail

end MinimalCborDecoder

def decodeBodyForReuse (bytes : Bytes) : Option CborValue :=
  (MinimalCborDecoder.readValue (bytes.length + 1) bytes).map (·.1)

/-!
## The decoder undoes the encoder

Of what a body is made of, numbers, byte strings, arrays and maps below 2^64, the small decoder gives back the
value that was encoded, whatever follows it. So to encode what was decoded is to write the same bytes again.
-/

open MinimalCborDecoder

/-! ## Heads -/

def headSize (v : Int) : Nat :=
  if v < 24 then 1 else if v < 256 then 2 else if v < 65536 then 3 else if v < 4294967296 then 5 else 9

@[simp] theorem length_writeHead (mt : Nat) (v : Int) : (writeHead mt v).length = headSize v := by
  rw [writeHead, headSize]
  split_ifs <;> simp

theorem headSize_pos (v : Int) : 0 < headSize v := by
  rw [headSize]
  split_ifs <;> simp

theorem headSize_le (v : Int) : headSize v ≤ 9 := by
  rw [headSize]
  split_ifs <;> simp

theorem headSize_mono {v w : Int} (h : v ≤ w) : headSize v ≤ headSize w := by
  simp only [headSize]
  split_ifs <;> omega

/-- The type stands above the five bits of the length. -/
theorem initial_parts : ∀ mt < 8, ∀ k < 32, (UInt8.ofNat (mt <<< 5 ||| k)).toNat &&& 0x1f = k ∧
    (UInt8.ofNat (mt <<< 5 ||| k)).toNat >>> 5 = mt := by
  decide +kernel

theorem reads_initial (b : UInt8) : Reads readInitial [b] b := fun _ => rfl

theorem reads_head_of {mt k n : Nat} {bs : Bytes} (hmt : mt < 8) (hk : k < 32) (h : Reads (readLength k) bs n) :
    Reads readHead (UInt8.ofNat (mt <<< 5 ||| k) :: bs) (mt, n) := by
  obtain ⟨hlow, hhigh⟩ := initial_parts mt hmt k hk
  rw [readHead]
  apply (reads_initial _).bind
  rw [hlow, hhigh]
  exact h.bind_pure fun len => (mt, len)

theorem reads_head {mt : Nat} (hmt : mt < 8) {v : Int} (hpos : 0 ≤ v) (hv : v < 2 ^ 64) :
    Reads readHead (writeHead mt v) (mt, v.toNat) := by
  rw [writeHead]
  split_ifs with h1 h2 h3 h4
  · have hmod : v % 256 = v := Int.emod_eq_of_lt hpos (by omega)
    rw [hmod]
    apply reads_head_of hmt (by omega)
    rw [readLength, if_pos (by omega)]
    exact Reads.pure _
  · apply reads_head_of hmt (by decide)
    have hone : [UInt8.ofNat v.toNat] = be 1 v.toNat := rfl
    rw [hone]
    exact Reads.beNum (by omega)
  · apply reads_head_of hmt (by decide)
    exact Reads.beNum (by omega)
  · apply reads_head_of hmt (by decide)
    exact Reads.beNum (by omega)
  · apply reads_head_of hmt (by decide)
    exact Reads.beNum (by omega)

/-! ## Values -/

mutual

/-- What the decoder knows, with numbers and lengths of at most eight bytes. -/
def reusable : CborValue → Prop
  | .uint value => 0 ≤ value ∧ value < 2 ^ 64
  | .bytes value => value.length < 2 ^ 64
  | .array values => values.length < 2 ^ 64 ∧ reusableValues values
  | .map entries => entries.length < 2 ^ 64 ∧ reusableEntries entries
  | _ => False

def reusableValues : List CborValue → Prop
  | [] => True
  | v :: values => reusable v ∧ reusableValues values

def reusableEntries : List (CborValue × CborValue) → Prop
  | [] => True
  | (k, x) :: entries => reusable k ∧ reusable x ∧ reusableEntries entries

end

theorem writeValues_eq (values : List CborValue) : writeValues values = values.flatMap writeValue := by
  induction values with
  | nil => rfl
  | cons v values ih => rw [writeValues, ih, List.flatMap_cons]

theorem writeEntries_eq (entries : List (CborValue × CborValue)) :
    writeEntries entries = entries.flatMap fun e => writeValue e.1 ++ writeValue e.2 := by
  induction entries with
  | nil => rfl
  | cons e entries ih => rw [writeEntries, ih, List.flatMap_cons]

theorem reads_slice (bs : Bytes) : Reads (slice bs.length) bs bs := by
  intro rest
  rw [slice, List.take_left, List.drop_left]

theorem lt_length_head {mt : Nat} {v : Int} {bs : Bytes} {fuel : Nat} (h : (writeHead mt v ++ bs).length ≤ fuel + 1) :
    bs.length ≤ fuel := by
  have hpos := headSize_pos v
  rw [List.length_append, length_writeHead] at h
  omega

mutual

theorem reads_value : ∀ (v : CborValue), reusable v → ∀ fuel, (writeValue v).length ≤ fuel →
    Reads (readValue fuel) (writeValue v) v
  | .uint value, ⟨hpos, hlt⟩, fuel, hfuel => by
    obtain ⟨fuel, rfl⟩ : ∃ n, fuel = n + 1 := ⟨fuel - 1, by
      have := headSize_pos value
      rw [writeValue, length_writeHead] at hfuel
      omega⟩
    rw [writeValue, readValue]
    apply (reads_head (by decide) hpos hlt).bind_of
    have hvalue : ((value.toNat : Nat) : Int) = value := Int.toNat_of_nonneg hpos
    simp only [MT_UINT, if_true, hvalue]
    exact Reads.pure _
  | .bytes value, hlt, fuel, hfuel => by
    obtain ⟨fuel, rfl⟩ : ∃ n, fuel = n + 1 := ⟨fuel - 1, by
      have := headSize_pos value.length
      rw [writeValue, List.length_append, length_writeHead] at hfuel
      omega⟩
    rw [reusable] at hlt
    rw [writeValue, readValue]
    apply (reads_head (by decide) (by omega) (by omega)).bind
    simp only [MT_UINT, MT_BYTES, Int.toNat_natCast]
    exact (reads_slice value).bind_pure CborValue.bytes
  | .array values, ⟨hlt, hall⟩, fuel, hfuel => by
    obtain ⟨fuel, rfl⟩ : ∃ n, fuel = n + 1 := ⟨fuel - 1, by
      have := headSize_pos values.length
      rw [writeValue, List.length_append, length_writeHead] at hfuel
      omega⟩
    rw [writeValue] at hfuel
    have hvalues := reads_values values hall fuel (lt_length_head hfuel)
    rw [writeValue, readValue, writeValues_eq]
    apply (reads_head (by decide) (by omega) (by omega)).bind
    simp only [MT_UINT, MT_BYTES, MT_ARRAY, Int.toNat_natCast]
    exact (Reads.count hvalues).bind_pure CborValue.array
  | .map entries, ⟨hlt, hall⟩, fuel, hfuel => by
    obtain ⟨fuel, rfl⟩ : ∃ n, fuel = n + 1 := ⟨fuel - 1, by
      have := headSize_pos entries.length
      rw [writeValue, List.length_append, length_writeHead] at hfuel
      omega⟩
    rw [writeValue] at hfuel
    have hentries := reads_entries entries hall fuel (lt_length_head hfuel)
    rw [writeValue, readValue, writeEntries_eq]
    apply (reads_head (by decide) (by omega) (by omega)).bind
    simp only [MT_UINT, MT_BYTES, MT_ARRAY, MT_MAP, Int.toNat_natCast]
    refine (Reads.count fun e he => ?_).bind_pure CborValue.map
    obtain ⟨hkey, hvalue⟩ := hentries e he
    exact hkey.bind (hvalue.bind_pure fun v => (e.1, v))

theorem reads_values : ∀ (values : List CborValue), reusableValues values → ∀ fuel,
    (writeValues values).length ≤ fuel → ∀ v ∈ values, Reads (readValue fuel) (writeValue v) v
  | [], _, _, _, v, hv => absurd hv List.not_mem_nil
  | v :: values, ⟨hv, hall⟩, fuel, hfuel, w, hw => by
    rw [writeValues, List.length_append] at hfuel
    cases hw with
    | head => exact reads_value v hv fuel (by omega)
    | tail _ hw => exact reads_values values hall fuel (by omega) w hw

theorem reads_entries : ∀ (entries : List (CborValue × CborValue)), reusableEntries entries → ∀ fuel,
    (writeEntries entries).length ≤ fuel → ∀ e ∈ entries,
      Reads (readValue fuel) (writeValue e.1) e.1 ∧ Reads (readValue fuel) (writeValue e.2) e.2
  | [], _, _, _, e, he => absurd he List.not_mem_nil
  | (k, x) :: entries, ⟨hk, hx, hall⟩, fuel, hfuel, e, he => by
    rw [writeEntries, List.length_append, List.length_append] at hfuel
    cases he with
    | head => exact ⟨reads_value k hk fuel (by omega), reads_value x hx fuel (by omega)⟩
    | tail _ he => exact reads_entries entries hall fuel (by omega) e he

end

/-- The value comes back from its own bytes. -/
theorem decode_encode {v : CborValue} (h : reusable v) : decodeBodyForReuse (encodeCbor v) = some v := by
  have hread := reads_value v h ((writeValue v).length + 1) (Nat.le_succ _) []
  rw [List.append_nil] at hread
  rw [decodeBodyForReuse, encodeCbor]
  exact congrArg (Option.map (·.1)) hread

end Cardano
