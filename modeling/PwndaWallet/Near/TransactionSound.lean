import PwndaWallet.Near.Transaction
import PwndaWallet.Lib.Result

/-!
# What NEAR bytes say

Both encoders write one layout, and both decoders read it. The texts in it are UTF-8, but the decoders read
any bytes as a text and leave a first byte order mark out. So reading back gives what was written for texts
without the mark, and bytes that the checks let through are those of what was asked.
-/

namespace Near

open Wire Unicode

/-! ## Base58 -/

def letter (d : Nat) : UInt16 := ALPHABET.getD d 0

theorem length_ALPHABET : ALPHABET.length = 58 := by decide +kernel

theorem idxOf_letter {d : Nat} (h : d < 58) : ALPHABET.idxOf? (letter d) = some d := by
  have hall : ∀ d : Fin 58, ALPHABET.idxOf? (letter d) = some d.val := by decide +kernel
  exact hall ⟨d, h⟩

theorem letter_of_idxOf {u : UInt16} {d : Nat} (h : ALPHABET.idxOf? u = some d) : u = letter d ∧ d < 58 := by
  rw [List.idxOf?, List.findIdx?_eq_some_iff_getElem] at h
  obtain ⟨hlt, hu, -⟩ := h
  rw [length_ALPHABET] at hlt
  refine ⟨?_, hlt⟩
  rw [letter, List.getD_eq_getElem?_getD, List.getElem?_eq_getElem (by rwa [length_ALPHABET]), Option.getD_some]
  exact (beq_iff_eq.1 hu).symm

theorem letter_inj {d e : Nat} (hd : d < 58) (he : e < 58) (h : letter d = letter e) : d = e := by
  have h' := idxOf_letter hd
  rw [h, idxOf_letter he] at h'
  exact (Option.some.inj h').symm

theorem pushDigit_letter {bytes : List Nat} {d : Nat} (h : d < 58) :
    pushDigit bytes (letter d) = .ok (Numeral.mulAdd 256 58 d bytes) := by
  rw [pushDigit, idxOf_letter h]

theorem foldlM_pushDigit {rest : Units} {bytes out : List Nat} :
    rest.foldlM pushDigit bytes = .ok out ↔ ∃ ds : List Nat, (∀ d ∈ ds, d < 58) ∧ rest = ds.map letter ∧
      out = ds.foldl (fun l d => Numeral.mulAdd 256 58 d l) bytes := by
  induction rest generalizing bytes with
  | nil =>
    constructor
    · intro h
      exact ⟨[], by simp, rfl, (Except.ok.inj h).symm⟩
    · rintro ⟨ds, -, hds, rfl⟩
      rw [List.map_eq_nil_iff.1 hds.symm]
      rfl
  | cons u rest ih =>
    rw [List.foldlM_cons]
    constructor
    · intro h
      cases hi : ALPHABET.idxOf? u with
      | none => simp [pushDigit, hi, bind, Except.bind] at h
      | some d =>
        obtain ⟨rfl, hd⟩ := letter_of_idxOf hi
        rw [pushDigit_letter hd] at h
        obtain ⟨ds, hlt, rfl, rfl⟩ := ih.1 h
        exact ⟨d :: ds, by simpa [hd] using hlt, rfl, rfl⟩
    · rintro ⟨ds, hlt, hds, rfl⟩
      cases ds with
      | nil => cases hds
      | cons d ds =>
        obtain ⟨rfl, rfl⟩ := List.cons.inj hds
        rw [pushDigit_letter (hlt d List.mem_cons_self)]
        exact ih.2 ⟨ds, fun e he => hlt e (List.mem_cons_of_mem d he), rfl, rfl⟩

theorem letter_zero : letter 0 = one := by decide +kernel

theorem digits_lt {v d : Nat} (h : d ∈ (Nat.digits 58 v).reverse) : d < 58 :=
  Nat.digits_lt_base (by decide) (List.mem_reverse.1 h)

theorem leading_ones (s : Units) : ∃ zeros rest, s = List.replicate zeros one ++ rest ∧ rest.head? ≠ some one := by
  induction s with
  | nil => exact ⟨0, [], rfl, by simp⟩
  | cons u s ih =>
    by_cases hu : u = one
    · obtain ⟨zeros, rest, rfl, hrest⟩ := ih
      exact ⟨zeros + 1, rest, by rw [hu, List.replicate_succ, List.cons_append], hrest⟩
    · exact ⟨0, u :: s, rfl, by simpa using hu⟩

theorem spell_letters (zeros v : Nat) : (Numeral.spell 58 zeros v).map letter =
    List.replicate zeros one ++ (Nat.digits 58 v).reverse.map letter := by
  rw [Numeral.spell, List.map_append, List.map_replicate, letter_zero]

theorem head_letters (v : Nat) : ((Nat.digits 58 v).reverse.map letter).head? ≠ some one := by
  intro h
  rw [List.head?_map] at h
  obtain ⟨d, hd, hletter⟩ := Option.map_eq_some_iff.1 h
  rw [← letter_zero] at hletter
  exact Numeral.head_digits_reverse hd (letter_inj (digits_lt (List.mem_of_mem_head? hd)) (by decide) hletter)

/-- A string is decoded to the bytes of the same leading zeros and the same value. -/
theorem decodeBase58Variable_ok {s : Units} {b : Bytes} : decodeBase58Variable s = .ok b ↔
    ∃ zeros v, s = (Numeral.spell 58 zeros v).map letter ∧ b = (Numeral.spell 256 zeros v).map UInt8.ofNat := by
  have hvalue (ds : List Nat) : ds.foldl (fun l d => Numeral.mulAdd 256 58 d l) [] =
      Nat.digits 256 (Nat.ofDigits 58 ds.reverse) := by
    have h := Numeral.foldl_mulAdd (b := 256) (m := 58) (by decide) (by decide) ds 0
    rwa [Nat.digits_zero, Nat.mul_zero, Nat.add_zero] at h
  have hbytes (zeros v : Nat) : (Nat.digits 256 v ++ List.replicate zeros 0).reverse = Numeral.spell 256 zeros v := by
    rw [List.reverse_append, List.reverse_replicate, Numeral.spell]
  constructor
  · intro h
    obtain ⟨zeros, rest, rfl, hrest⟩ := leading_ones s
    simp only [decodeBase58Variable, Numeral.takeWhile_leading zeros hrest, List.length_replicate, List.drop_left'] at h
    cases hb : rest.foldlM pushDigit [] with
    | error e =>
      rw [hb] at h
      cases h
    | ok bytes =>
      rw [hb] at h
      obtain rfl := (Except.ok.inj h).symm
      obtain ⟨ds, hlt, rfl, rfl⟩ := foldlM_pushDigit.1 hb
      obtain ⟨z, v, rfl⟩ := Numeral.exists_spell (b := 58) (by decide) hlt
      cases z with
      | zero =>
        have hds : Numeral.spell 58 0 v = (Nat.digits 58 v).reverse := by simp [Numeral.spell]
        refine ⟨zeros, v, ?_, ?_⟩
        · rw [spell_letters zeros, hds]
        · rw [hvalue, hds, List.reverse_reverse, Nat.ofDigits_digits, hbytes]
      | succ z =>
        rw [Numeral.spell_succ, List.map_cons, letter_zero] at hrest
        exact absurd rfl hrest
  · rintro ⟨zeros, v, rfl, rfl⟩
    have hfold : ((Nat.digits 58 v).reverse.map letter).foldlM pushDigit [] = .ok (Nat.digits 256 v) := by
      refine foldlM_pushDigit.2 ⟨_, fun d => digits_lt, rfl, ?_⟩
      rw [hvalue, List.reverse_reverse, Nat.ofDigits_digits]
    simp only [decodeBase58Variable, spell_letters, Numeral.takeWhile_leading zeros (head_letters v), List.length_replicate,
      List.drop_left', hfold]
    change Except.ok _ = _
    rw [hbytes]

theorem decodeBase58_ok {s : Units} {n : Nat} {b : Bytes} :
    decodeBase58 s n = .ok b ↔ decodeBase58Variable s = .ok b ∧ b.length = n := by
  simp only [decodeBase58, decodeBase58Variable]
  cases (s.drop (s.takeWhile (· == one)).length).foldlM pushDigit [] with
  | error e => simp [bind, Except.bind]
  | ok bytes =>
    simp only [bind, Except.bind, pure, Except.pure]
    generalize ((bytes ++ List.replicate (s.takeWhile (· == one)).length 0).reverse).map UInt8.ofNat = out
    by_cases hlen : out.length = n
    · rw [if_neg (not_not.2 hlen)]
      constructor
      · intro hb
        exact ⟨hb, by rw [← Except.ok.inj hb, hlen]⟩
      · exact fun hb => hb.1
    · rw [if_pos hlen]
      constructor
      · intro hb
        cases hb
      · rintro ⟨hb, hb'⟩
        rw [← Except.ok.inj hb] at hb'
        exact absurd hb' hlen

theorem spell_lt {zeros v d : Nat} (h : d ∈ Numeral.spell 256 zeros v) : d < 256 := by
  rcases List.mem_append.1 h with h | h
  · rw [(List.mem_replicate.1 h).2]
    decide
  · exact Nat.digits_lt_base (by decide) (List.mem_reverse.1 h)

theorem decodeBase58_inj {s t : Units} {n : Nat} {b : Bytes} (hs : decodeBase58 s n = .ok b)
    (ht : decodeBase58 t n = .ok b) : s = t := by
  obtain ⟨zeros, v, rfl, hb⟩ := decodeBase58Variable_ok.1 (decodeBase58_ok.1 hs).1
  obtain ⟨zeros', v', rfl, hb'⟩ := decodeBase58Variable_ok.1 (decodeBase58_ok.1 ht).1
  have hsame : Numeral.spell 256 zeros v = Numeral.spell 256 zeros' v' := by
    have h := congrArg (List.map UInt8.toNat) (hb.symm.trans hb')
    have hback (zeros v : Nat) : ((Numeral.spell 256 zeros v).map UInt8.ofNat).map UInt8.toNat =
        Numeral.spell 256 zeros v := by
      rw [List.map_map]
      conv_rhs => rw [← List.map_id (Numeral.spell 256 zeros v)]
      apply List.map_congr_left
      intro d hd
      exact toNat_ofNat8 (spell_lt hd)
    rwa [hback, hback] at h
  obtain ⟨rfl, rfl⟩ := Numeral.spell_inj hsame
  rfl

theorem exists_decodeBase58 (b : Bytes) : ∃ s, decodeBase58 s b.length = .ok b := by
  have hlt : ∀ d ∈ b.map UInt8.toNat, d < 256 := by
    intro d hd
    obtain ⟨x, -, rfl⟩ := List.mem_map.1 hd
    exact x.toNat_lt
  obtain ⟨zeros, v, hspell⟩ := Numeral.exists_spell (by decide) hlt
  have hb : (Numeral.spell 256 zeros v).map UInt8.ofNat = b := by
    rw [← hspell, List.map_map]
    conv_rhs => rw [← List.map_id b]
    apply List.map_congr_left
    intro x _
    exact UInt8.ofNat_toNat
  exact ⟨_, decodeBase58_ok.2 ⟨decodeBase58Variable_ok.2 ⟨zeros, v, rfl, hb.symm⟩, rfl⟩⟩

/-! ## The layout -/

/-- An action as NEAR writes it, its texts as bytes. -/
inductive RawAction where
  | transfer (deposit : Nat)
  | call (methodName args : Bytes) (gas deposit : Nat)
deriving DecidableEq

/-- A transaction as NEAR writes it, of an ed25519 key. -/
structure Layout where
  signer : Bytes
  key : Bytes
  nonce : Nat
  receiver : Bytes
  hash : Bytes
  actions : List RawAction
deriving DecidableEq

/-- Bytes behind their length -/
def sized (b : Bytes) : Bytes := le 4 b.length ++ b

def RawAction.bytes : RawAction → Bytes
  | .transfer deposit => 3 :: le 16 deposit
  | .call methodName args gas deposit => 2 :: (sized methodName ++ (sized args ++ (le 8 gas ++ le 16 deposit)))

def Layout.bytes (l : Layout) : Bytes :=
  sized l.signer ++ 0 :: (l.key ++ (le 8 l.nonce ++ (sized l.receiver ++ (l.hash ++ (le 4 l.actions.length ++
    l.actions.flatMap RawAction.bytes)))))

def RawAction.Fits : RawAction → Prop
  | .transfer deposit => deposit < 2 ^ 128
  | .call methodName args gas deposit =>
    methodName.length < 2 ^ 32 ∧ args.length < 2 ^ 32 ∧ gas < 2 ^ 64 ∧ deposit < 2 ^ 128

/-- Every number fits its place. -/
structure Layout.Fits (l : Layout) : Prop where
  signer : l.signer.length < 2 ^ 32
  key : l.key.length = 32
  nonce : l.nonce < 2 ^ 64
  receiver : l.receiver.length < 2 ^ 32
  hash : l.hash.length = 32
  count : l.actions.length < 2 ^ 32
  actions : ∀ a ∈ l.actions, a.Fits

def RawAction.names : RawAction → List Bytes
  | .transfer _ => []
  | .call methodName _ _ _ => [methodName]

/-- The texts: the two accounts and the methods. -/
def Layout.names (l : Layout) : List Bytes := l.signer :: l.receiver :: l.actions.flatMap RawAction.names

/-- Borsh's rules for it, of the kinds of action that the wallet builds. -/
def readSized : Reader Bytes := do
  let n ← Reader.leNum 4
  Reader.take n

def readTransfer : Reader RawAction := do
  let deposit ← Reader.leNum 16
  return .transfer deposit

def readCall : Reader RawAction := do
  let methodName ← readSized
  let args ← readSized
  let gas ← Reader.leNum 8
  let deposit ← Reader.leNum 16
  return .call methodName args gas deposit

def afterTag (tag : Nat) : Reader RawAction :=
  if tag = 3 then readTransfer else if tag = 2 then readCall else Reader.fail

def readAction : Reader RawAction := do
  let tag ← Reader.leNum 1
  afterTag tag

def readLayout : Reader Layout := do
  let signer ← readSized
  let keyType ← Reader.leNum 1
  Reader.ensure (keyType == 0)
  let key ← Reader.take 32
  let nonce ← Reader.leNum 8
  let receiver ← readSized
  let hash ← Reader.take 32
  let count ← Reader.leNum 4
  let actions ← Reader.count readAction count
  return ⟨signer, key, nonce, receiver, hash, actions⟩

open Reader (Reads)

theorem reads_sized {b : Bytes} (h : b.length < 2 ^ 32) : Reads readSized (sized b) b :=
  (Reads.leNum (w := 4) h).bind (Reads.take rfl)

theorem reads_action {a : RawAction} (h : a.Fits) : Reads readAction a.bytes a := by
  cases a with
  | transfer deposit =>
    have htag : Reads (Reader.leNum 1) [3] 3 := Reads.leNum (w := 1) (n := 3) (by decide)
    exact htag.bind ((Reads.leNum (w := 16) h).bind_pure RawAction.transfer)
  | call methodName args gas deposit =>
    obtain ⟨hm, ha, hg, hd⟩ := h
    have htag : Reads (Reader.leNum 1) [2] 2 := Reads.leNum (w := 1) (n := 2) (by decide)
    refine htag.bind (b := RawAction.call methodName args gas deposit) ?_
    refine Reads.bind (reads_sized hm) ?_
    refine Reads.bind (reads_sized ha) ?_
    refine Reads.bind (Reads.leNum (w := 8) hg) ?_
    exact (Reads.leNum (w := 16) hd).bind_pure fun deposit => RawAction.call methodName args gas deposit

theorem reads_layout {l : Layout} (h : l.Fits) : Reads readLayout l.bytes l := by
  obtain ⟨signer, key, nonce, receiver, hash, actions⟩ := l
  have htype : Reads (Reader.leNum 1) [0] 0 := Reads.leNum (w := 1) (n := 0) (by decide)
  refine Reads.bind (reads_sized h.signer) ?_
  refine htype.bind ?_
  refine Reads.bind_nil (Reads.ensure rfl) ?_
  refine Reads.bind (Reads.take h.key) ?_
  refine Reads.bind (Reads.leNum (w := 8) h.nonce) ?_
  refine Reads.bind (reads_sized h.receiver) ?_
  refine Reads.bind (Reads.take h.hash) ?_
  refine Reads.bind (Reads.leNum (w := 4) h.count) ?_
  exact (Reads.count fun a ha => reads_action (h.actions a ha)).bind_pure fun actions =>
    (⟨signer, key, nonce, receiver, hash, actions⟩ : Layout)

/-! ### What was read -/

theorem of_bind {α β : Type} {r : Reader α} {f : α → Reader β} {bs rest : Bytes} {b : β}
    (h : (r >>= f) bs = some (b, rest)) : ∃ a mid, r bs = some (a, mid) ∧ f a mid = some (b, rest) := by
  rw [Reader.bind_apply] at h
  obtain ⟨⟨a, mid⟩, hr, hf⟩ := Option.bind_eq_some_iff.1 h
  exact ⟨a, mid, hr, hf⟩

theorem of_take {n : Nat} {bs b rest : Bytes} (h : Reader.take n bs = some (b, rest)) : b.length = n ∧ bs = b ++ rest := by
  unfold Reader.take at h
  split at h
  case isTrue hn =>
    obtain ⟨rfl, rfl⟩ := Prod.mk.inj (Option.some.inj h)
    exact ⟨by rw [List.length_take, Nat.min_eq_left hn], (List.take_append_drop n bs).symm⟩
  case isFalse => cases h

theorem of_leNum {w n : Nat} {bs rest : Bytes} (h : Reader.leNum w bs = some (n, rest)) :
    n < 256 ^ w ∧ bs = le w n ++ rest := by
  obtain ⟨b, mid, hb, hn⟩ := of_bind h
  obtain ⟨hlen, rfl⟩ := of_take hb
  obtain ⟨rfl, rfl⟩ := Prod.mk.inj (Option.some.inj hn)
  refine ⟨by rw [← hlen]; exact leValue_lt b, ?_⟩
  rw [← hlen, le_leValue]

theorem of_readSized {bs b rest : Bytes} (h : readSized bs = some (b, rest)) : b.length < 2 ^ 32 ∧ bs = sized b ++ rest := by
  obtain ⟨n, mid, hn, hb⟩ := of_bind h
  obtain ⟨hlt, rfl⟩ := of_leNum hn
  obtain ⟨rfl, rfl⟩ := of_take hb
  exact ⟨hlt, by rw [sized, List.append_assoc]⟩

theorem of_afterTag {tag : Nat} {bs rest : Bytes} {a : RawAction} (h : afterTag tag bs = some (a, rest)) :
    a.Fits ∧ le 1 tag ++ bs = a.bytes ++ rest := by
  unfold afterTag at h
  by_cases h3 : tag = 3
  · rw [if_pos h3] at h
    obtain ⟨deposit, mid, hd, hr⟩ := of_bind h
    obtain ⟨hlt, rfl⟩ := of_leNum hd
    obtain ⟨rfl, rfl⟩ := Prod.mk.inj (Option.some.inj hr)
    exact ⟨hlt, by rw [h3]; rfl⟩
  · rw [if_neg h3] at h
    by_cases h2 : tag = 2
    · rw [if_pos h2] at h
      obtain ⟨methodName, mid₁, hm, r₁⟩ := of_bind h
      obtain ⟨hmlt, rfl⟩ := of_readSized hm
      obtain ⟨args, mid₂, ha, r₂⟩ := of_bind r₁
      obtain ⟨halt, rfl⟩ := of_readSized ha
      obtain ⟨gas, mid₃, hg, r₃⟩ := of_bind r₂
      obtain ⟨hglt, rfl⟩ := of_leNum hg
      obtain ⟨deposit, mid₄, hd, r₄⟩ := of_bind r₃
      obtain ⟨hdlt, rfl⟩ := of_leNum hd
      obtain ⟨rfl, rfl⟩ := Prod.mk.inj (Option.some.inj r₄)
      refine ⟨⟨hmlt, halt, hglt, hdlt⟩, ?_⟩
      rw [h2]
      simp [RawAction.bytes, le]
    · rw [if_neg h2] at h
      cases h

theorem of_readAction {bs rest : Bytes} {a : RawAction} (h : readAction bs = some (a, rest)) :
    a.Fits ∧ bs = a.bytes ++ rest := by
  obtain ⟨tag, mid, htag, ha⟩ := of_bind h
  obtain ⟨-, rfl⟩ := of_leNum htag
  exact of_afterTag ha

theorem of_count {n : Nat} {bs rest : Bytes} {l : List RawAction} (h : Reader.count readAction n bs = some (l, rest)) :
    l.length = n ∧ (∀ a ∈ l, a.Fits) ∧ bs = l.flatMap RawAction.bytes ++ rest := by
  induction n generalizing bs l with
  | zero =>
    obtain ⟨rfl, rfl⟩ := Prod.mk.inj (Option.some.inj h)
    exact ⟨rfl, by simp, rfl⟩
  | succ n ih =>
    obtain ⟨a, mid, ha, r₁⟩ := of_bind h
    obtain ⟨hfits, rfl⟩ := of_readAction ha
    obtain ⟨l', mid', hl, r₂⟩ := of_bind r₁
    obtain ⟨rfl, rfl⟩ := Prod.mk.inj (Option.some.inj r₂)
    obtain ⟨hlen, hall, rfl⟩ := ih hl
    refine ⟨by rw [List.length_cons, hlen], ?_, by rw [List.flatMap_cons, List.append_assoc]⟩
    intro b hb
    rcases List.mem_cons.1 hb with rfl | hb
    · exact hfits
    · exact hall b hb

theorem of_ensure {c : Bool} {bs rest : Bytes} {u : Unit} (h : Reader.ensure c bs = some (u, rest)) :
    c = true ∧ bs = rest := by
  unfold Reader.ensure at h
  split at h
  case isTrue hc => exact ⟨hc, congrArg Prod.snd (Option.some.inj h)⟩
  case isFalse => cases h

theorem of_readLayout {bs rest : Bytes} {l : Layout} (h : readLayout bs = some (l, rest)) :
    l.Fits ∧ bs = l.bytes ++ rest := by
  obtain ⟨signer, mid₁, h₁, r₁⟩ := of_bind h
  obtain ⟨hsigner, rfl⟩ := of_readSized h₁
  obtain ⟨keyType, mid₂, h₂, r₂⟩ := of_bind r₁
  obtain ⟨-, rfl⟩ := of_leNum h₂
  obtain ⟨u, mid₃, h₃, r₃⟩ := of_bind r₂
  obtain ⟨htype, rfl⟩ := of_ensure h₃
  obtain rfl : keyType = 0 := by simpa using htype
  obtain ⟨key, mid₄, h₄, r₄⟩ := of_bind r₃
  obtain ⟨hkey, rfl⟩ := of_take h₄
  obtain ⟨nonce, mid₅, h₅, r₅⟩ := of_bind r₄
  obtain ⟨hnonce, rfl⟩ := of_leNum h₅
  obtain ⟨receiver, mid₆, h₆, r₆⟩ := of_bind r₅
  obtain ⟨hreceiver, rfl⟩ := of_readSized h₆
  obtain ⟨hash, mid₇, h₇, r₇⟩ := of_bind r₆
  obtain ⟨hhash, rfl⟩ := of_take h₇
  obtain ⟨count, mid₈, h₈, r₈⟩ := of_bind r₇
  obtain ⟨hcount, rfl⟩ := of_leNum h₈
  obtain ⟨actions, mid₉, h₉, r₉⟩ := of_bind r₈
  obtain ⟨rfl, hall, rfl⟩ := of_count h₉
  obtain ⟨rfl, rfl⟩ := Prod.mk.inj (Option.some.inj r₉)
  exact ⟨⟨hsigner, hkey, hnonce, hreceiver, hhash, hcount, hall⟩, by simp [Layout.bytes, le]⟩

theorem whole_readLayout {bs : Bytes} {l : Layout} :
    Reader.whole readLayout bs = some l ↔ l.Fits ∧ bs = l.bytes := by
  constructor
  · intro h
    unfold Reader.whole at h
    split at h
    case h_1 a ha =>
      obtain rfl := Option.some.inj h
      obtain ⟨hfits, hbs⟩ := of_readLayout ha
      exact ⟨hfits, by rw [hbs, List.append_nil]⟩
    case h_2 => cases h
  · rintro ⟨hfits, rfl⟩
    exact (reads_layout hfits).whole

/-! ## The decoder follows the layout -/

/-- The decoder succeeds where the reader does, and gets the reader's value as the wallet sees it. -/
def Follows {α β : Type} (d : Decode β) (r : Reader α) (f : α → β) : Prop :=
  ∀ bs, (d bs).toOption = (r bs).map fun p => (f p.1, p.2)

section
variable {α β γ δ : Type}

theorem Follows.pure {a : α} {b : β} {f : α → β} (h : f a = b) : Follows (Pure.pure b) (Pure.pure a) f := by
  subst h
  exact fun _ => rfl

theorem Follows.bind {d : Decode β} {r : Reader α} {f : α → β} {d' : β → Decode δ} {r' : α → Reader γ} {g : γ → δ}
    (h : Follows d r f) (h' : ∀ a, Follows (d' (f a)) (r' a) g) : Follows (d >>= d') (r >>= r') g := by
  intro bs
  have hb := h bs
  change ((d bs).bind fun p => d' p.1 p.2).toOption = ((r bs).bind fun p => r' p.1 p.2).map _
  cases hd : d bs with
  | error e =>
    rw [hd] at hb
    cases hr : r bs with
    | none => rfl
    | some p => rw [hr] at hb; cases hb
  | ok p =>
    rw [hd] at hb
    cases hr : r bs with
    | none => rw [hr] at hb; cases hb
    | some q =>
      rw [hr] at hb
      obtain rfl := Option.some.inj hb
      exact h' q.1 q.2

theorem Follows.throw {message : String} {f : α → β} : Follows (Decode.throw message) Reader.fail f := fun _ => rfl

end

theorem follows_raw (n : Nat) : Follows (Decode.raw n) (Reader.take n) id := by
  intro bs
  unfold Decode.raw Reader.take
  split <;> rfl

theorem follows_num (w : Nat) : Follows (Decode.num w) (Reader.leNum w) id :=
  (follows_raw w).bind fun _ => Follows.pure rfl

theorem follows_bytes : Follows Decode.bytes readSized id := (follows_num 4).bind fun n => follows_raw n

theorem follows_str : Follows Decode.str readSized decode := by
  intro bs
  have h := follows_bytes bs
  change ((Decode.bytes bs).bind fun p => Except.ok (decode p.1, p.2)).toOption = _
  cases hb : Decode.bytes bs with
  | error e =>
    rw [hb] at h
    cases hr : readSized bs with
    | none => rfl
    | some p => rw [hr] at h; cases h
  | ok p =>
    rw [hb] at h
    cases hr : readSized bs with
    | none => rw [hr] at h; cases h
    | some q =>
      rw [hr] at h
      obtain rfl := Option.some.inj h
      rfl

theorem leValue_append (a b : Bytes) : leValue (a ++ b) = leValue a + 256 ^ a.length * leValue b := by
  induction a with
  | nil => simp [leValue]
  | cons x a ih =>
    rw [List.cons_append, leValue, leValue, ih, List.length_cons, Nat.pow_succ]
    ring

theorem leValue_halves {b : Bytes} (h : b.length = 16) : leValue (b.drop 8) * 2 ^ 64 + leValue (b.take 8) = leValue b := by
  conv_rhs => rw [← List.take_append_drop 8 b, leValue_append]
  rw [List.length_take, h, Nat.add_comm, Nat.mul_comm]
  rfl

theorem follows_u128 : Follows Decode.u128 (Reader.leNum 16) id := by
  intro bs
  unfold Decode.u128 Reader.leNum
  change ((Decode.raw 16 bs).bind _).toOption = ((Reader.take 16 bs).bind _).map _
  unfold Decode.raw Reader.take
  split
  case isTrue h =>
    have hlen : (bs.take 16).length = 16 := by rw [List.length_take, Nat.min_eq_left h]
    simp only [Except.bind, Option.bind_some, bind, pure]
    rw [leValue_halves hlen]
    rfl
  case isFalse => rfl

def RawAction.decoded : RawAction → DecodedNearAction
  | .transfer deposit => ⟨3, none, none, none, deposit⟩
  | .call methodName args gas deposit => ⟨2, some (decode methodName), some args, some gas, deposit⟩

/-- What the wallet makes of the layout. -/
def Layout.decoded (l : Layout) : DecodedNear := ⟨decode l.signer, decode l.receiver, l.actions.map RawAction.decoded⟩

theorem follows_action : Follows decodeAction readAction RawAction.decoded := by
  refine (follows_num 1).bind fun tag => ?_
  unfold afterTag
  by_cases h3 : tag = 3
  · subst h3
    exact follows_u128.bind fun deposit => Follows.pure rfl
  · by_cases h2 : tag = 2
    · subst h2
      refine follows_str.bind fun methodName => follows_bytes.bind fun args => ?_
      exact (follows_num 8).bind fun gas => follows_u128.bind fun deposit => Follows.pure rfl
    · simp only [id, if_neg h3, if_neg h2]
      exact Follows.throw

theorem follows_actions (count : Nat) : Follows (decodeActions count) (Reader.count readAction count)
    (List.map RawAction.decoded) := by
  induction count with
  | zero => exact Follows.pure rfl
  | succ count ih => exact follows_action.bind fun a => ih.bind fun rest => Follows.pure rfl

theorem follows_keyType (keyType : Nat) : Follows (checkKeyType keyType) (Reader.ensure (keyType == 0)) id := by
  unfold checkKeyType Reader.ensure
  by_cases h : keyType = 0
  · subst h
    exact Follows.pure rfl
  · simp only [ne_eq, h, not_false_eq_true, if_true, beq_iff_eq, if_false]
    exact Follows.throw

theorem follows_layout : Follows decodeAll readLayout Layout.decoded := by
  refine follows_str.bind fun signer => (follows_num 1).bind fun keyType => (follows_keyType keyType).bind fun _ => ?_
  refine (follows_raw 32).bind fun key => (follows_num 8).bind fun nonce => follows_str.bind fun receiver => ?_
  refine (follows_raw 32).bind fun hash => (follows_num 4).bind fun count => (follows_actions count).bind fun actions => ?_
  exact Follows.pure rfl

/-- The decoder accepts what has the layout, and gives the layout as the wallet sees it. -/
theorem decodeNearTransaction_ok {bs : Bytes} {t : DecodedNear} :
    decodeNearTransaction bs = .ok t ↔ ∃ l, Reader.whole readLayout bs = some l ∧ t = l.decoded := by
  have h := follows_layout bs
  unfold decodeNearTransaction Reader.whole
  cases hd : decodeAll bs with
  | error e =>
    rw [hd] at h
    cases hr : readLayout bs with
    | none => simp
    | some p => rw [hr] at h; cases h
  | ok p =>
    rw [hd] at h
    cases hr : readLayout bs with
    | none => rw [hr] at h; cases h
    | some q =>
      rw [hr] at h
      obtain rfl := Option.some.inj h
      obtain ⟨l, rest⟩ := q
      cases rest with
      | nil =>
        simp only [Except.ok.injEq, Option.some.injEq]
        constructor
        · rintro rfl
          exact ⟨l, rfl, rfl⟩
        · rintro ⟨l', rfl, rfl⟩
          rfl
      | cons b rest => simp

/-! ## The encoders write the layout -/

theorem emod_square (n : Int) {m : Int} (hm : 0 < m) : n % (m * m) = n % m + m * (n / m % m) := by
  have hr := Int.emod_nonneg n (Int.ne_of_gt hm)
  have hr' := Int.emod_lt_of_pos n hm
  have hq := Int.emod_nonneg (n / m) (Int.ne_of_gt hm)
  have hq' := Int.emod_lt_of_pos (n / m) hm
  have hsum : n = n % m + m * (n / m % m) + m * m * (n / m / m) := by
    calc n = n % m + m * (n / m) := (Int.emod_add_mul_ediv n m).symm
      _ = n % m + m * (n / m % m + m * (n / m / m)) := by rw [Int.emod_add_mul_ediv (n / m) m]
      _ = n % m + m * (n / m % m) + m * m * (n / m / m) := by ring
  have hlow : 0 ≤ n % m + m * (n / m % m) := Int.add_nonneg hr (Int.mul_nonneg (Int.le_of_lt hm) hq)
  have hhigh : n % m + m * (n / m % m) < m * m := by
    have hle : m * (n / m % m) ≤ m * (m - 1) := Int.mul_le_mul_of_nonneg_left (by omega) (Int.le_of_lt hm)
    have hexp : m * (m - 1) = m * m - m := by ring
    omega
  conv_lhs => rw [hsum]
  rw [Int.add_mul_emod_self_left, Int.emod_eq_of_lt hlow hhigh]

theorem toNat_emod_lt (n : Int) {m : Nat} (hm : 0 < m) : (n % (m : Int)).toNat < m := by
  have h := Int.emod_lt_of_pos n (Int.natCast_pos.2 hm)
  have h' := Int.emod_nonneg n (Int.ne_of_gt (Int.natCast_pos.2 hm))
  omega

theorem u128_eq (n : Int) : u128 n = le 16 (n % 2 ^ 128).toNat := by
  have hlen : (u128 n).length = 16 := by simp [u128, u64]
  have hback := le_leValue (u128 n)
  rw [hlen] at hback
  rw [← hback, u128, u64, u64, leValue_append, length_le, leValue_le, leValue_le]
  congr 1
  have hlow := Int.emod_nonneg n (show (2 : Int) ^ 64 ≠ 0 by decide)
  have hlow' := Int.emod_lt_of_pos n (show (0 : Int) < 2 ^ 64 by decide)
  have hhigh := Int.emod_nonneg (n / 2 ^ 64) (show (2 : Int) ^ 64 ≠ 0 by decide)
  have hhigh' := Int.emod_lt_of_pos (n / 2 ^ 64) (show (0 : Int) < 2 ^ 64 by decide)
  have hsq := emod_square n (show (0 : Int) < 2 ^ 64 by decide)
  have hpow : (2 : Int) ^ 64 * 2 ^ 64 = 2 ^ 128 := by decide
  rw [hpow] at hsq
  rw [Int.emod_emod, hsq]
  generalize n % 2 ^ 64 = r at *
  generalize n / 2 ^ 64 % 2 ^ 64 = q at *
  have hr : r.toNat % 256 ^ 8 = r.toNat := Nat.mod_eq_of_lt (by change r.toNat < 2 ^ 64; omega)
  have hq : q.toNat % 256 ^ 8 = q.toNat := Nat.mod_eq_of_lt (by change q.toNat < 2 ^ 64; omega)
  rw [hr, hq]
  change r.toNat + 2 ^ 64 * q.toNat = _
  omega

namespace NearAction

def names : NearAction → List Units
  | .transfer _ => []
  | .functionCall methodName _ _ _ => [methodName]

def raw : NearAction → RawAction
  | .transfer deposit => .transfer (deposit % 2 ^ 128).toNat
  | .functionCall methodName args gas deposit =>
    .call (encode methodName) args (gas % 2 ^ 64).toNat (deposit % 2 ^ 128).toNat

/-- What reading it back should give. -/
def asked : NearAction → DecodedNearAction
  | .transfer deposit => ⟨3, none, none, none, deposit.toNat⟩
  | .functionCall methodName args gas deposit => ⟨2, some methodName, some args, some gas.toNat, deposit.toNat⟩

def args : NearAction → Bytes
  | .transfer _ => []
  | .functionCall _ args _ _ => args

/-- The numbers are those of their places. -/
def InRange : NearAction → Prop
  | .transfer deposit => 0 ≤ deposit ∧ deposit < 2 ^ 128
  | .functionCall _ _ gas deposit => (0 ≤ gas ∧ gas < 2 ^ 64) ∧ 0 ≤ deposit ∧ deposit < 2 ^ 128

end NearAction

namespace NearTransaction

def names (a : NearTransaction) : List Units := a.signerId :: a.receiverId :: a.actions.flatMap NearAction.names

def layout (a : NearTransaction) (key hash : Bytes) : Layout :=
  ⟨encode a.signerId, key, (a.nonce % 2 ^ 64).toNat, encode a.receiverId, hash, a.actions.map NearAction.raw⟩

def asked (a : NearTransaction) : DecodedNear := ⟨a.signerId, a.receiverId, a.actions.map NearAction.asked⟩

/-- The lengths are those of their places. -/
structure Sized (a : NearTransaction) : Prop where
  names : ∀ s ∈ a.names, (encode s).length < 2 ^ 32
  args : ∀ x ∈ a.actions, x.args.length < 2 ^ 32
  count : a.actions.length < 2 ^ 32

/-- An ed25519 key, a block hash, and numbers in range. -/
structure InRange (a : NearTransaction) : Prop extends a.Sized where
  key : ∃ key, decodeBase58 a.publicKeyEd25519Base58 32 = .ok key
  hash : ∃ hash, decodeBase58 a.blockHashB58 32 = .ok hash
  nonce : 0 ≤ a.nonce ∧ a.nonce < 2 ^ 64
  actions : ∀ x ∈ a.actions, x.InRange

end NearTransaction

theorem writeAction_eq (x : NearAction) : writeAction x = x.raw.bytes := by
  cases x with
  | transfer deposit => rw [writeAction, u128_eq]; rfl
  | functionCall methodName args gas deposit =>
    rw [writeAction, u128_eq]
    simp [NearAction.raw, RawAction.bytes, string, sized, u32, u64]

theorem encodeNearTransaction_ok {a : NearTransaction} {bs : Bytes} : encodeNearTransaction a = .ok bs ↔
    ∃ key hash, decodeBase58 a.publicKeyEd25519Base58 32 = .ok key ∧ decodeBase58 a.blockHashB58 32 = .ok hash ∧
      bs = (a.layout key hash).bytes := by
  unfold encodeNearTransaction
  cases hk : decodeBase58 a.publicKeyEd25519Base58 32 with
  | error e => simp [bind, Except.bind]
  | ok key =>
    cases hh : decodeBase58 a.blockHashB58 32 with
    | error e => simp [bind, Except.bind]
    | ok hash =>
      have hbytes : string a.signerId ++ 0 :: key ++ u64 a.nonce ++ string a.receiverId ++ hash ++
          u32 a.actions.length ++ a.actions.flatMap writeAction = (a.layout key hash).bytes := by
        have hactions : a.actions.flatMap writeAction = (a.actions.map NearAction.raw).flatMap RawAction.bytes := by
          rw [List.flatMap_map]
          exact congrArg (a.actions.flatMap ·) (funext writeAction_eq)
        rw [hactions]
        simp [Layout.bytes, NearTransaction.layout, string, sized, u32, u64]
      simp only [bind, Except.bind, pure, Except.pure, hbytes, Except.ok.injEq]
      constructor
      · rintro rfl
        exact ⟨key, hash, rfl, rfl, rfl⟩
      · rintro ⟨_, _, rfl, rfl, h⟩
        exact h.symm

theorem fits_layout {a : NearTransaction} (h : a.Sized) {key hash : Bytes}
    (hk : decodeBase58 a.publicKeyEd25519Base58 32 = .ok key) (hh : decodeBase58 a.blockHashB58 32 = .ok hash) :
    (a.layout key hash).Fits where
  signer := h.names a.signerId List.mem_cons_self
  key := (decodeBase58_ok.1 hk).2
  nonce := toNat_emod_lt a.nonce (m := 2 ^ 64) (by decide)
  receiver := h.names a.receiverId (List.mem_cons_of_mem _ List.mem_cons_self)
  hash := (decodeBase58_ok.1 hh).2
  count := by simpa [NearTransaction.layout] using h.count
  actions x hx := by
    obtain ⟨y, hy, rfl⟩ := List.mem_map.1 hx
    cases y with
    | transfer deposit => exact toNat_emod_lt deposit (m := 2 ^ 128) (by decide)
    | functionCall methodName args gas deposit =>
      have hname : methodName ∈ a.names :=
        List.mem_cons_of_mem _ (List.mem_cons_of_mem _ (List.mem_flatMap.2 ⟨_, hy, List.mem_singleton_self _⟩))
      exact ⟨h.names methodName hname, h.args _ hy, toNat_emod_lt gas (m := 2 ^ 64) (by decide),
        toNat_emod_lt deposit (m := 2 ^ 128) (by decide)⟩

/-- Bytes of the encoder are read by borsh's rules as what it wrote. -/
theorem whole_encode {a : NearTransaction} (h : a.Sized) {bs : Bytes} (hbs : encodeNearTransaction a = .ok bs) :
    ∃ key hash, decodeBase58 a.publicKeyEd25519Base58 32 = .ok key ∧ decodeBase58 a.blockHashB58 32 = .ok hash ∧
      Reader.whole readLayout bs = some (a.layout key hash) := by
  obtain ⟨key, hash, hk, hh, rfl⟩ := encodeNearTransaction_ok.1 hbs
  exact ⟨key, hash, hk, hh, whole_readLayout.2 ⟨fits_layout h hk hh, rfl⟩⟩

/-! ## Reading back -/

theorem decoded_raw_iff {x : NearAction} (h : x.InRange) : x.raw.decoded = x.asked ↔ ∀ s ∈ x.names, Plain s := by
  cases x with
  | transfer deposit =>
    rw [NearAction.raw, Int.emod_eq_of_lt h.1 h.2]
    simp [NearAction.names, RawAction.decoded, NearAction.asked]
  | functionCall methodName args gas deposit =>
    rw [NearAction.raw, Int.emod_eq_of_lt h.1.1 h.1.2, Int.emod_eq_of_lt h.2.1 h.2.2]
    simp [NearAction.names, RawAction.decoded, NearAction.asked, decode_encode_iff]

/-- Reading back gives what was asked if and only if no text has a lone surrogate or the mark first. -/
theorem reads_back_iff {a : NearTransaction} (h : a.InRange) :
    (∃ bs, encodeNearTransaction a = .ok bs ∧ decodeNearTransaction bs = .ok a.asked) ↔ ∀ s ∈ a.names, Plain s := by
  obtain ⟨key, hk⟩ := h.key
  obtain ⟨hash, hh⟩ := h.hash
  have hactions : a.actions.map (fun x => x.raw.decoded) = a.actions.map NearAction.asked ↔
      ∀ s ∈ a.actions.flatMap NearAction.names, Plain s := by
    rw [List.map_inj_left]
    constructor
    · intro hall s hs
      obtain ⟨x, hx, hsx⟩ := List.mem_flatMap.1 hs
      exact (decoded_raw_iff (h.actions x hx)).1 (hall x hx) s hsx
    · intro hall x hx
      exact (decoded_raw_iff (h.actions x hx)).2 fun s hs => hall s (List.mem_flatMap.2 ⟨x, hx, hs⟩)
  have hdecoded : (a.layout key hash).decoded = a.asked ↔ ∀ s ∈ a.names, Plain s := by
    simp only [Layout.decoded, NearTransaction.layout, NearTransaction.asked, DecodedNear.mk.injEq, decode_encode_iff,
      List.map_map, Function.comp_def, hactions, NearTransaction.names, List.forall_mem_cons]
  rw [← hdecoded]
  constructor
  · rintro ⟨bs, hbs, hd⟩
    obtain ⟨key', hash', hk', hh', hw⟩ := whole_encode h.toSized hbs
    obtain ⟨l, hl, hask⟩ := decodeNearTransaction_ok.1 hd
    obtain rfl := Except.ok.inj (hk.symm.trans hk')
    obtain rfl := Except.ok.inj (hh.symm.trans hh')
    rw [← Option.some.inj (hw.symm.trans hl)] at hask
    exact hask.symm
  · intro hd
    have hbs := encodeNearTransaction_ok.2 ⟨key, hash, hk, hh, rfl⟩
    refine ⟨_, hbs, decodeNearTransaction_ok.2 ⟨a.layout key hash, ?_, hd.symm⟩⟩
    exact whole_readLayout.2 ⟨fits_layout h.toSized hk hh, rfl⟩

/-! ## Equal bytes -/

namespace NearAction

def mapNames (f : Units → Units) : NearAction → NearAction
  | .transfer deposit => .transfer deposit
  | .functionCall methodName args gas deposit => .functionCall (f methodName) args gas deposit

theorem raw_mapNames {f : Units → Units} (hf : ∀ s, encode (f s) = encode s) (x : NearAction) :
    (x.mapNames f).raw = x.raw := by
  cases x <;> simp [mapNames, raw, hf]

theorem names_mapNames (f : Units → Units) (x : NearAction) : (x.mapNames f).names = x.names.map f := by
  cases x <;> simp [mapNames, names]

end NearAction

namespace NearTransaction

def mapNames (f : Units → Units) (a : NearTransaction) : NearTransaction :=
  { a with signerId := f a.signerId, receiverId := f a.receiverId, actions := a.actions.map (NearAction.mapNames f) }

theorem names_mapNames (f : Units → Units) (a : NearTransaction) : (a.mapNames f).names = a.names.map f := by
  simp [names, mapNames, List.flatMap_map, List.map_flatMap, NearAction.names_mapNames]

theorem layout_mapNames {f : Units → Units} (hf : ∀ s, encode (f s) = encode s) (a : NearTransaction)
    (key hash : Bytes) : (a.mapNames f).layout key hash = a.layout key hash := by
  have hactions : (a.actions.map (NearAction.mapNames f)).map NearAction.raw = a.actions.map NearAction.raw := by
    rw [List.map_map]
    exact List.map_congr_left fun x _ => NearAction.raw_mapNames hf x
  simp only [layout, mapNames, hf, hactions]

theorem inRange_mapNames {f : Units → Units} (hf : ∀ s, encode (f s) = encode s) {a : NearTransaction}
    (h : a.InRange) : (a.mapNames f).InRange where
  names s hs := by
    rw [names_mapNames] at hs
    obtain ⟨t, ht, rfl⟩ := List.mem_map.1 hs
    rw [hf]
    exact h.names t ht
  args x hx := by
    obtain ⟨y, hy, rfl⟩ := List.mem_map.1 hx
    have hargs := h.args y hy
    cases y <;> exact hargs
  count := by simpa [mapNames] using h.count
  key := h.key
  hash := h.hash
  nonce := h.nonce
  actions x hx := by
    obtain ⟨y, hy, rfl⟩ := List.mem_map.1 hx
    have hrange := h.actions y hy
    cases y <;> exact hrange

end NearTransaction

/-- Another action of the same bytes has another method name. -/
theorem action_eq_of_raw {x y : NearAction} (hx : x.InRange) (hy : y.InRange) (hd : ∀ s ∈ x.names, Distinct s)
    (h : y.raw = x.raw) : y = x := by
  cases x with
  | transfer deposit =>
    cases y with
    | functionCall => cases h
    | transfer deposit' =>
      have hdep := RawAction.transfer.inj h
      rw [Int.emod_eq_of_lt hx.1 hx.2, Int.emod_eq_of_lt hy.1 hy.2] at hdep
      have heq : deposit' = deposit := by
        have hx := hx.1
        have hy := hy.1
        omega
      rw [heq]
  | functionCall methodName args gas deposit =>
    cases y with
    | transfer => cases h
    | functionCall methodName' args' gas' deposit' =>
      obtain ⟨hm, rfl, hg, hdep⟩ := RawAction.call.inj h
      rw [Int.emod_eq_of_lt hx.1.1 hx.1.2, Int.emod_eq_of_lt hy.1.1 hy.1.2] at hg
      rw [Int.emod_eq_of_lt hx.2.1 hx.2.2, Int.emod_eq_of_lt hy.2.1 hy.2.2] at hdep
      have hname := (distinct_iff methodName).1 (hd methodName (List.mem_singleton_self _)) methodName' hm
      have hgas : gas' = gas := by
        have hx := hx.1.1
        have hy := hy.1.1
        omega
      have heq : deposit' = deposit := by
        have hx := hx.2.1
        have hy := hy.2.1
        omega
      rw [hname, hgas, heq]

theorem actions_eq_of_raw {l l' : List NearAction} (hl : ∀ x ∈ l, x.InRange) (hl' : ∀ x ∈ l', x.InRange)
    (hd : ∀ x ∈ l, ∀ s ∈ x.names, Distinct s) (h : l'.map NearAction.raw = l.map NearAction.raw) : l' = l := by
  induction l generalizing l' with
  | nil => exact List.map_eq_nil_iff.1 h
  | cons x l ih =>
    cases l' with
    | nil => cases h
    | cons y l' =>
      obtain ⟨hx, hrest⟩ := List.cons.inj h
      rw [action_eq_of_raw (hl x List.mem_cons_self) (hl' y List.mem_cons_self) (hd x List.mem_cons_self) hx,
        ih (fun z hz => hl z (List.mem_cons_of_mem x hz)) (fun z hz => hl' z (List.mem_cons_of_mem y hz))
          (fun z hz => hd z (List.mem_cons_of_mem x hz)) hrest]

/-- Only equal fields give the bytes if and only if no text has a lone surrogate or the replacement. -/
theorem unique_iff {a : NearTransaction} (h : a.InRange) :
    (∀ b : NearTransaction, b.InRange → encodeNearTransaction b = encodeNearTransaction a → b = a) ↔
      ∀ s ∈ a.names, Distinct s := by
  obtain ⟨key, hk⟩ := h.key
  obtain ⟨hash, hh⟩ := h.hash
  have ha : encodeNearTransaction a = .ok (a.layout key hash).bytes := encodeNearTransaction_ok.2 ⟨key, hash, hk, hh, rfl⟩
  constructor
  · intro hunique s hs
    rw [distinct_iff]
    intro t ht
    have hf : ∀ u, encode (if u = s then t else u) = encode u := by
      intro u
      split
      case isTrue hu => rw [hu, ht]
      case isFalse => rfl
    have hsame := hunique (a.mapNames fun u => if u = s then t else u) (NearTransaction.inRange_mapNames hf h)
      (by rw [ha, encodeNearTransaction_ok]; exact ⟨key, hash, hk, hh, by rw [NearTransaction.layout_mapNames hf]⟩)
    have hnames := congrArg NearTransaction.names hsame
    rw [NearTransaction.names_mapNames] at hnames
    have hfix := List.map_inj_left.1 (hnames.trans (List.map_id a.names).symm) s hs
    simpa using hfix
  · intro hd b hb heq
    rw [ha] at heq
    obtain ⟨key', hash', hk', hh', hw⟩ := whole_encode hb.toSized heq
    have hwa : Reader.whole readLayout (a.layout key hash).bytes = some (a.layout key hash) :=
      whole_readLayout.2 ⟨fits_layout h.toSized hk hh, rfl⟩
    have hl : b.layout key' hash' = a.layout key hash := Option.some.inj (hw.symm.trans hwa)
    simp only [NearTransaction.layout, Layout.mk.injEq] at hl
    obtain ⟨hsigner, rfl, hnonce, hreceiver, rfl, hactions⟩ := hl
    have hn : b.nonce = a.nonce := by
      rw [Int.emod_eq_of_lt hb.nonce.1 hb.nonce.2, Int.emod_eq_of_lt h.nonce.1 h.nonce.2] at hnonce
      have hbn := hb.nonce.1
      have han := h.nonce.1
      omega
    have hs : b.signerId = a.signerId := (distinct_iff _).1 (hd _ List.mem_cons_self) _ hsigner
    have hr : b.receiverId = a.receiverId :=
      (distinct_iff _).1 (hd _ (List.mem_cons_of_mem _ List.mem_cons_self)) _ hreceiver
    have hacts : b.actions = a.actions := actions_eq_of_raw h.actions hb.actions
      (fun x hx s hs => hd s (List.mem_cons_of_mem _ (List.mem_cons_of_mem _ (List.mem_flatMap.2 ⟨x, hx, hs⟩)))) hactions
    have hkey := decodeBase58_inj hk' hk
    have hhash := decodeBase58_inj hh' hh
    cases a
    cases b
    simp only at hn hs hr hacts hkey hhash
    rw [hn, hs, hr, hacts, hkey, hhash]

/-! ## Accepted bytes -/

/-- The string of UTF-8 bytes, the mark kept. -/
def text (b : Bytes) : Units := units (decodeFrom none b)

theorem encode_text {b : Bytes} (h : ∃ cs, b = utf8 cs) : encode (text b) = b := by
  obtain ⟨cs, rfl⟩ := h
  rw [text, encode_units, decodeFrom_utf8]

def RawAction.back : RawAction → NearAction
  | .transfer deposit => .transfer deposit
  | .call methodName args gas deposit => .functionCall (text methodName) args gas deposit

theorem toNat_emod_natCast {n m : Nat} (h : n < m) : ((n : Int) % (m : Int)).toNat = n := by
  rw [← Int.natCast_emod, Nat.mod_eq_of_lt h, Int.toNat_natCast]

theorem raw_back {x : RawAction} (h : x.Fits) (hn : ∀ n ∈ x.names, ∃ cs, n = utf8 cs) : x.back.raw = x := by
  cases x with
  | transfer deposit => exact congrArg RawAction.transfer (toNat_emod_natCast (m := 2 ^ 128) h)
  | call methodName args gas deposit =>
    obtain ⟨-, -, hg, hd⟩ := h
    simp only [RawAction.back, NearAction.raw, encode_text (hn methodName (List.mem_singleton_self _))]
    exact congrArg₂ (RawAction.call methodName args) (toNat_emod_natCast (m := 2 ^ 64) hg)
      (toNat_emod_natCast (m := 2 ^ 128) hd)

theorem inRange_back {x : RawAction} (h : x.Fits) : x.back.InRange := by
  have hcast {n m : Nat} (hn : n < m) : (0 : Int) ≤ (n : Int) ∧ (n : Int) < (m : Int) :=
    ⟨Int.natCast_nonneg n, Int.ofNat_lt.2 hn⟩
  cases x with
  | transfer deposit => exact hcast (m := 2 ^ 128) h
  | call methodName args gas deposit =>
    obtain ⟨-, -, hg, hd⟩ := h
    exact ⟨hcast (m := 2 ^ 64) hg, hcast (m := 2 ^ 128) hd⟩

/-- The encoder produces accepted bytes if and only if the texts in them are UTF-8. -/
theorem accepted_iff {bs : Bytes} {t : DecodedNear} (h : decodeNearTransaction bs = .ok t) :
    ∃ l, Reader.whole readLayout bs = some l ∧
      ((∃ a : NearTransaction, a.InRange ∧ encodeNearTransaction a = .ok bs) ↔ ∀ n ∈ l.names, ∃ cs, n = utf8 cs) := by
  obtain ⟨l, hl, -⟩ := decodeNearTransaction_ok.1 h
  refine ⟨l, hl, ?_⟩
  constructor
  · rintro ⟨a, ha, hbs⟩
    obtain ⟨key, hash, -, -, hw⟩ := whole_encode ha.toSized hbs
    obtain rfl := Option.some.inj (hl.symm.trans hw)
    intro n hn
    simp only [Layout.names, NearTransaction.layout, List.mem_cons, List.mem_flatMap, List.mem_map] at hn
    rcases hn with rfl | rfl | ⟨x, ⟨y, -, rfl⟩, hx⟩
    · exact ⟨_, rfl⟩
    · exact ⟨_, rfl⟩
    · cases y with
      | transfer => cases hx
      | functionCall methodName =>
        obtain rfl := List.mem_singleton.1 hx
        exact ⟨_, rfl⟩
  · intro hn
    obtain ⟨hfits, rfl⟩ := whole_readLayout.1 hl
    obtain ⟨signer, key, nonce, receiver, hash, actions⟩ := l
    obtain ⟨key58, hkey⟩ := exists_decodeBase58 key
    obtain ⟨hash58, hhash⟩ := exists_decodeBase58 hash
    have hklen : key.length = 32 := hfits.key
    have hhlen : hash.length = 32 := hfits.hash
    rw [hklen] at hkey
    rw [hhlen] at hhash
    have hnames : ∀ x ∈ actions, ∀ n ∈ x.names, ∃ cs, n = utf8 cs := fun x hx n hxn =>
      hn n (List.mem_cons_of_mem _ (List.mem_cons_of_mem _ (List.mem_flatMap.2 ⟨x, hx, hxn⟩)))
    have hsigner : encode (text signer) = signer := encode_text (hn signer List.mem_cons_self)
    have hreceiver : encode (text receiver) = receiver :=
      encode_text (hn receiver (List.mem_cons_of_mem _ List.mem_cons_self))
    have hactions : (actions.map RawAction.back).map NearAction.raw = actions := by
      rw [List.map_map]
      conv_rhs => rw [← List.map_id actions]
      exact List.map_congr_left fun x hx => raw_back (hfits.actions x hx) (hnames x hx)
    have hlayout : (⟨text signer, key58, nonce, text receiver, hash58, actions.map RawAction.back⟩ :
        NearTransaction).layout key hash = ⟨signer, key, nonce, receiver, hash, actions⟩ := by
      have hnonce : ((nonce : Int) % 2 ^ 64).toNat = nonce := toNat_emod_natCast (m := 2 ^ 64) hfits.nonce
      simp only [NearTransaction.layout, hsigner, hreceiver, hactions, hnonce]
    refine ⟨_, ?_, encodeNearTransaction_ok.2 ⟨key, hash, hkey, hhash, by rw [hlayout]⟩⟩
    refine ⟨⟨?_, ?_, ?_⟩, ⟨key, hkey⟩, ⟨hash, hhash⟩, ?_, ?_⟩
    · intro s hs
      simp only [NearTransaction.names, List.mem_cons, List.mem_flatMap, List.mem_map] at hs
      rcases hs with rfl | rfl | ⟨x, ⟨y, hy, rfl⟩, hx⟩
      · rw [hsigner]
        exact hfits.signer
      · rw [hreceiver]
        exact hfits.receiver
      · cases y with
        | transfer => cases hx
        | call methodName =>
          obtain rfl := List.mem_singleton.1 hx
          rw [encode_text (hnames _ hy methodName (List.mem_singleton_self _))]
          exact (hfits.actions _ hy).1
    · intro x hx
      obtain ⟨y, hy, rfl⟩ := List.mem_map.1 hx
      cases y with
      | transfer => exact Nat.two_pow_pos 32
      | call => exact (hfits.actions _ hy).2.1
    · simpa using hfits.count
    · exact ⟨Int.natCast_nonneg nonce, Int.ofNat_lt.2 hfits.nonce⟩
    · intro x hx
      obtain ⟨y, hy, rfl⟩ := List.mem_map.1 hx
      exact inRange_back (hfits.actions y hy)

/-! ## The transfer's encoder and decoder -/

/-- A transfer as a transaction of one action. -/
def NearTransfer.general (a : NearTransfer) : NearTransaction :=
  ⟨a.signerId, a.publicKeyEd25519Base58, a.nonce, a.receiverId, a.blockHashB58, [.transfer a.yoctoAmount]⟩

theorem encodeNearTransferTransaction_eq (a : NearTransfer) :
    encodeNearTransferTransaction a = encodeNearTransaction a.general := by
  simp [encodeNearTransferTransaction, encodeNearTransaction, NearTransfer.general, writeAction]

theorem numAt_append (front x back : Bytes) : numAt (front ++ (x ++ back)) front.length x.length = .ok (leValue x) := by
  unfold numAt
  rw [if_pos (by simp), List.drop_left, List.take_left]

theorem numAt_eq {bs u x v : Bytes} {off w : Nat} (hbs : bs = u ++ (x ++ v)) (hoff : off = u.length)
    (hw : w = x.length) : numAt bs off w = .ok (leValue x) := by
  rw [hbs, hoff, hw, numAt_append]

theorem stringAt_eq {bs u b v : Bytes} {off : Nat} (hbs : bs = u ++ (sized b ++ v))
    (hoff : off = u.length) (hb : b.length < 2 ^ 32) : stringAt bs off = .ok (decode b, off + 4 + b.length) := by
  have hlen : numAt bs off 4 = .ok (leValue (le 4 b.length)) :=
    numAt_eq (x := le 4 b.length) (v := b ++ v) (by rw [hbs, sized, List.append_assoc]) hoff (by simp)
  have hvalue : leValue (le 4 b.length) = b.length := by
    rw [leValue_le]
    exact Nat.mod_eq_of_lt hb
  have hslice : (bs.drop (off + 4)).take b.length = b := by
    have hsplit : bs = (u ++ le 4 b.length) ++ (b ++ v) := by
      rw [hbs, sized]
      simp only [List.append_assoc]
    have hoff' : off + 4 = (u ++ le 4 b.length).length := by simp [hoff]
    rw [hsplit, hoff', List.drop_left, List.take_left]
  unfold stringAt
  rw [hlen, hvalue]
  simp only [bind, Except.bind, pure, Except.pure, hslice]

theorem decodeNearTransferTransaction_layout {l : Layout} (h : l.Fits) {deposit : Nat}
    (hl : l.actions = [.transfer deposit]) :
    decodeNearTransferTransaction l.bytes = .ok ⟨decode l.receiver, deposit, some 3⟩ := by
  obtain ⟨signer, key, nonce, receiver, hash, actions⟩ := l
  obtain rfl : actions = [.transfer deposit] := hl
  have hkey : key.length = 32 := h.key
  have hhash : hash.length = 32 := h.hash
  have hdeposit : deposit < 2 ^ 128 := h.actions _ (List.mem_singleton_self _)
  have hbytes : Layout.bytes ⟨signer, key, nonce, receiver, hash, [.transfer deposit]⟩ = sized signer ++ 0 :: (key ++
      (le 8 nonce ++ (sized receiver ++ (hash ++ (le 4 1 ++ 3 :: le 16 deposit))))) := by
    simp [Layout.bytes, RawAction.bytes]
  generalize hbs : Layout.bytes ⟨signer, key, nonce, receiver, hash, [.transfer deposit]⟩ = bs at *
  have hhalves : le 16 deposit = (le 16 deposit).take 8 ++ (le 16 deposit).drop 8 := (List.take_append_drop 8 _).symm
  have hvalue : leValue ((le 16 deposit).drop 8) * 2 ^ 64 + leValue ((le 16 deposit).take 8) = deposit := by
    rw [leValue_halves (length_le 16 deposit), leValue_le]
    exact Nat.mod_eq_of_lt hdeposit
  have hsized (b : Bytes) : (sized b).length = 4 + b.length := by simp [sized]
  have hsigner : stringAt bs 0 = .ok (decode signer, 4 + signer.length) := by
    have hs : stringAt bs 0 = .ok (decode signer, 0 + 4 + signer.length) := by
      apply stringAt_eq (u := []) _ rfl h.signer
      · exact 0 :: (key ++ (le 8 nonce ++ (sized receiver ++ (hash ++ (le 4 1 ++ 3 :: le 16 deposit)))))
      · rw [hbytes]
        rfl
    rwa [Nat.zero_add] at hs
  have hnonce : numAt bs (4 + signer.length + 33) 8 = .ok (leValue (le 8 nonce)) := by
    refine numAt_eq (u := sized signer ++ 0 :: key)
      (v := sized receiver ++ (hash ++ (le 4 1 ++ 3 :: le 16 deposit))) ?_ ?_ (by simp)
    · rw [hbytes]
      simp
    · simp [hsized, hkey]
  have hreceiver : stringAt bs (4 + signer.length + 41) =
      .ok (decode receiver, 4 + signer.length + 41 + 4 + receiver.length) := by
    refine stringAt_eq (u := sized signer ++ 0 :: key ++ le 8 nonce)
      (v := hash ++ (le 4 1 ++ 3 :: le 16 deposit)) ?_ ?_ h.receiver
    · rw [hbytes]
      simp
    · simp [hsized, hkey]
  have hcount : numAt bs (4 + signer.length + 41 + 4 + receiver.length + 32) 4 = .ok (leValue (le 4 1)) := by
    refine numAt_eq (u := sized signer ++ 0 :: key ++ le 8 nonce ++ sized receiver ++ hash)
      (v := 3 :: le 16 deposit) ?_ ?_ (by simp)
    · rw [hbytes]
      simp
    · simp [hsized, hkey, hhash]
      omega
  have hlow : numAt bs (4 + signer.length + 41 + 4 + receiver.length + 37) 8 = .ok (leValue ((le 16 deposit).take 8)) := by
    refine numAt_eq (u := sized signer ++ 0 :: key ++ le 8 nonce ++ sized receiver ++ hash ++ le 4 1 ++ [3])
      (v := (le 16 deposit).drop 8) ?_ ?_ (by simp)
    · rw [hbytes, ← hhalves]
      simp
    · simp [hsized, hkey, hhash]
      omega
  have hhigh : numAt bs (4 + signer.length + 41 + 4 + receiver.length + 45) 8 = .ok (leValue ((le 16 deposit).drop 8)) := by
    refine numAt_eq (u := sized signer ++ 0 :: key ++ le 8 nonce ++ sized receiver ++ hash ++ le 4 1 ++ [3] ++
      (le 16 deposit).take 8) (v := []) ?_ ?_ (by simp)
    · rw [hbytes]
      conv_lhs => rw [hhalves]
      simp
    · simp [hsized, hkey, hhash]
      omega
  have htag : bs[4 + signer.length + 41 + 4 + receiver.length + 36]? = some 3 := by
    have hfront : bs = (sized signer ++ 0 :: key ++ le 8 nonce ++ sized receiver ++ hash ++ le 4 1) ++ 3 :: le 16 deposit := by
      rw [hbytes]
      simp
    have hlen : 4 + signer.length + 41 + 4 + receiver.length + 36 =
        (sized signer ++ 0 :: key ++ le 8 nonce ++ sized receiver ++ hash ++ le 4 1).length := by
      simp [hsized, hkey, hhash]
      omega
    rw [hfront, hlen, List.getElem?_append_right (Nat.le_refl _), Nat.sub_self]
    rfl
  have hone : leValue (le 4 1) = 1 := by decide
  unfold decodeNearTransferTransaction
  simp only [hsigner, hnonce, hreceiver, hcount, hlow, hhigh, htag, hone, bind, Except.bind, pure, Except.pure, ne_eq,
    not_true_eq_false, if_false, hvalue, Option.map_some]
  rfl

theorem of_plainly {α : Type} {x : Except String α} {a : α} (h : plainly x = .ok a) : x = .ok a := by
  cases x with
  | error e => cases h
  | ok b => rw [Except.ok.inj h]

theorem of_safely {α : Type} {x : Except SafetyInvariantError α} {a : α} (h : safely x = .ok a) : x = .ok a := by
  cases x with
  | error e => cases h
  | ok b => rw [Except.ok.inj h]

/-- Both decoders on the bytes of one transfer. -/
theorem decoders_agree {a : NearTransfer} (h : a.general.Sized) {bs : Bytes}
    (hbs : encodeNearTransferTransaction a = .ok bs) :
    ∃ t u, decodeNearTransaction bs = .ok t ∧ decodeNearTransferTransaction bs = .ok u ∧ u.receiverId = t.receiverId ∧
      u.actionTag = some 3 ∧ t.actions = [⟨3, none, none, none, u.yoctoAmount⟩] := by
  rw [encodeNearTransferTransaction_eq] at hbs
  obtain ⟨key, hash, hk, hh, hw⟩ := whole_encode h hbs
  obtain ⟨hfits, rfl⟩ := whole_readLayout.1 hw
  exact ⟨_, _, decodeNearTransaction_ok.2 ⟨_, hw, rfl⟩, decodeNearTransferTransaction_layout hfits rfl, rfl, rfl, rfl⟩

/-! ## What the checks let through -/

theorem assertNearTransferShape_ok {expected receiver : Units} {amount expectedAmount : Int} {tag : Option Nat}
    (h : assertNearTransferShape expected receiver amount expectedAmount tag = .ok ()) :
    receiver = expected ∧ amount = expectedAmount := by
  unfold assertNearTransferShape at h
  by_cases htag : tag = some 3
  · rw [if_neg (not_not.2 htag)] at h
    by_cases hreceiver : receiver = expected
    · rw [if_neg (not_not.2 hreceiver)] at h
      by_cases hamount : amount = expectedAmount
      · exact ⟨hreceiver, hamount⟩
      · rw [if_pos hamount] at h
        cases h
    · rw [if_pos hreceiver] at h
      cases h
  · rw [if_pos htag] at h
    cases h

/-- The bytes are, by borsh's rules, one transfer of the amount to the receiver, and nothing else. -/
def SaysTransfer (a : NearTransfer) (bs : Bytes) : Prop :=
  ∃ l cs deposit, Reader.whole readLayout bs = some l ∧ a.receiverId = units cs ∧ l.receiver = utf8 cs ∧
    l.actions = [.transfer deposit] ∧ (deposit : Int) = a.yoctoAmount

theorem says_transfer {a : NearTransfer} (h : a.general.Sized) {bs : Bytes} (hbs : buildNearTransfer a = .ok bs) :
    SaysTransfer a bs := by
  obtain ⟨bs', henc, h₁⟩ := Rust.ok_of_bind hbs
  obtain ⟨u, hdec, h₂⟩ := Rust.ok_of_bind h₁
  obtain ⟨⟨⟩, hassert, h₃⟩ := Rust.ok_of_bind h₂
  obtain rfl := Except.ok.inj h₃
  have henc := of_plainly henc
  rw [encodeNearTransferTransaction_eq] at henc
  obtain ⟨key, hash, hk, hh, hw⟩ := whole_encode h henc
  obtain ⟨hfits, rfl⟩ := whole_readLayout.1 hw
  have hu := decodeNearTransferTransaction_layout hfits rfl
  obtain rfl := Except.ok.inj (hu.symm.trans (of_plainly hdec))
  obtain ⟨hreceiver, hamount⟩ := assertNearTransferShape_ok (of_safely hassert)
  obtain ⟨cs, hcs, -⟩ := (decode_encode_iff a.receiverId).1 hreceiver
  refine ⟨_, cs, _, hw, hcs, ?_, rfl, hamount⟩
  change encode a.receiverId = utf8 cs
  rw [hcs, encode_units]

section
variable (parse : Units → Option JsValue)

theorem checkRegistration_ok {ticker : String} {receiverId : Units} {deposit : Int} {x : DecodedNearAction}
    (h : checkRegistration parse ticker receiverId deposit x = .ok ()) : (x.deposit : Int) = deposit := by
  unfold checkRegistration at h
  simp only at h
  split at h
  · cases h
  · split at h
    · cases h
    · split at h
      · cases h
      case isFalse hd => simpa using hd

theorem assertNearTokenTransferShape_ok {t : DecodedNear} {tokenContract receiverId : Units} {amount : Int}
    {storageDeposit : Option Int} {ticker : String}
    (h : assertNearTokenTransferShape parse t tokenContract receiverId amount storageDeposit ticker = .ok ()) :
    t.receiverId = tokenContract ∧
      ∀ deposit ∈ storageDeposit, ∃ x, t.actions.head? = some x ∧ (x.deposit : Int) = deposit := by
  unfold assertNearTokenTransferShape at h
  simp only at h
  by_cases hreceiver : t.receiverId = tokenContract
  · rw [if_neg (not_not.2 hreceiver)] at h
    by_cases hcount : t.actions.length = if storageDeposit.isNone then 1 else 2
    · rw [if_neg (not_not.2 hcount)] at h
      refine ⟨hreceiver, ?_⟩
      rintro deposit hd
      obtain ⟨⟨⟩, hfirst, -⟩ := Rust.ok_of_bind h
      have hd' : storageDeposit = some deposit := hd
      rw [hd', checkFirst] at hfirst
      cases hx : t.actions.head? with
      | none =>
        rw [hx] at hfirst
        cases hfirst
      | some x =>
        rw [hx] at hfirst
        exact ⟨x, rfl, checkRegistration_ok parse hfirst⟩
    · rw [if_pos hcount] at h
      cases h
  · rw [if_pos hreceiver] at h
    cases h

/-- The bytes are, by borsh's rules, the registration that was decided, with its deposit, and the transfer
with one yoctoNEAR, both to the token's contract with their JSON, and nothing else. -/
def SaysTokenTransfer (a : TokenTransfer) (bs : Bytes) : Prop :=
  ∃ l cs gas, Reader.whole readLayout bs = some l ∧ a.tokenContract = units cs ∧ l.receiver = utf8 cs ∧
    (∀ deposit ∈ a.storageDeposit, 0 ≤ deposit) ∧
    l.actions = (a.storageDeposit.toList.map fun deposit =>
      .call (utf8 "storage_deposit".toList) (encode (registrationArgs a.receiverId)) gas deposit.toNat) ++
      [.call (utf8 "ft_transfer".toList) (encode (transferArgs a.receiverId a.amount)) gas 1]

/-- The transaction that is built. -/
def TokenTransfer.transaction (a : TokenTransfer) : NearTransaction :=
  ⟨a.fromAccountId, a.publicKeyB58, a.nonce, a.tokenContract, a.blockHashB58, tokenActions a⟩

theorem says_tokenTransfer {a : TokenTransfer} (h : a.transaction.Sized) {bs : Bytes}
    (hbs : buildNearTokenTransfer parse a = .ok bs) : SaysTokenTransfer a bs := by
  obtain ⟨bs', henc, h₁⟩ := Rust.ok_of_bind hbs
  obtain ⟨t, hdec, h₂⟩ := Rust.ok_of_bind h₁
  obtain ⟨⟨⟩, hassert, h₃⟩ := Rust.ok_of_bind h₂
  obtain rfl := Except.ok.inj h₃
  obtain ⟨key, hash, hk, hh, hw⟩ := whole_encode (a := a.transaction) h (of_plainly henc)
  obtain ⟨l, hl, rfl⟩ := decodeNearTransaction_ok.1 (of_plainly hdec)
  obtain rfl := Option.some.inj (hw.symm.trans hl)
  obtain ⟨hreceiver, hreg⟩ := assertNearTokenTransferShape_ok parse (of_safely hassert)
  obtain ⟨cs, hcs, -⟩ := (decode_encode_iff a.tokenContract).1 hreceiver
  have hbytes : (a.transaction.layout key hash).receiver = utf8 cs := by
    change encode a.tokenContract = utf8 cs
    rw [hcs, encode_units]
  have hmethod (name : String) : encode (ofString name) = utf8 name.toList := encode_units name.toList
  have hactions : (a.transaction.layout key hash).actions = (tokenActions a).map NearAction.raw := rfl
  have hexact : ∀ deposit ∈ a.storageDeposit, ((deposit % 2 ^ 128).toNat : Int) = deposit := by
    intro deposit hd
    obtain ⟨x, hx, hdeposit⟩ := hreg deposit hd
    have hd' : a.storageDeposit = some deposit := hd
    rw [Layout.decoded, hactions, tokenActions, hd'] at hx
    rw [← Option.some.inj hx] at hdeposit
    exact hdeposit
  refine ⟨_, cs, (a.gas % 2 ^ 64).toNat, hw, hcs, hbytes, ?_, ?_⟩
  · intro deposit hd
    rw [← hexact deposit hd]
    exact Int.natCast_nonneg _
  · have hone : (FT_TRANSFER_DEPOSIT % 2 ^ 128).toNat = 1 := by decide
    rw [hactions, tokenActions, List.map_append, List.map_map]
    simp only [List.map_cons, List.map_nil, NearAction.raw, hmethod, hone]
    congr 1
    apply List.map_congr_left
    intro deposit hd
    have hd' := hexact deposit (Option.mem_toList.1 hd)
    simp only [Function.comp, NearAction.raw, hmethod]
    congr 1
    have h := congrArg Int.toNat hd'
    rwa [Int.toNat_natCast] at h

end

/-! ## NEAR bytes -/

/-- The two encoders and the two decoders go together, what the checks let through is what was asked, and
the general decoder gives the texts back exactly if they survive the text decoder. -/
theorem near_bytes (parse : Units → Option JsValue) :
    (∀ a : NearTransaction, a.InRange →
      ((∃ bs, encodeNearTransaction a = .ok bs ∧ decodeNearTransaction bs = .ok a.asked) ↔ ∀ s ∈ a.names, Plain s)) ∧
    (∀ a : NearTransaction, a.InRange →
      ((∀ b : NearTransaction, b.InRange → encodeNearTransaction b = encodeNearTransaction a → b = a) ↔
        ∀ s ∈ a.names, Distinct s)) ∧
    (∀ bs t, decodeNearTransaction bs = .ok t → ∃ l, Reader.whole readLayout bs = some l ∧
      ((∃ a : NearTransaction, a.InRange ∧ encodeNearTransaction a = .ok bs) ↔ ∀ n ∈ l.names, ∃ cs, n = utf8 cs)) ∧
    (∀ a : NearTransfer, encodeNearTransferTransaction a = encodeNearTransaction a.general) ∧
    (∀ a : NearTransfer, a.general.Sized → ∀ bs, encodeNearTransferTransaction a = .ok bs →
      ∃ t u, decodeNearTransaction bs = .ok t ∧ decodeNearTransferTransaction bs = .ok u ∧
        u.receiverId = t.receiverId ∧ u.actionTag = some 3 ∧ t.actions = [⟨3, none, none, none, u.yoctoAmount⟩]) ∧
    (∀ a : NearTransfer, a.general.Sized → ∀ bs, buildNearTransfer a = .ok bs → SaysTransfer a bs) ∧
    ∀ a : TokenTransfer, a.transaction.Sized → ∀ bs, buildNearTokenTransfer parse a = .ok bs → SaysTokenTransfer a bs :=
  ⟨fun _ h => reads_back_iff h, fun _ h => unique_iff h, fun _ _ h => accepted_iff h,
    encodeNearTransferTransaction_eq, fun _ h _ hbs => decoders_agree h hbs, fun _ h _ hbs => says_transfer h hbs,
    fun _ h _ hbs => says_tokenTransfer parse h hbs⟩

/-- A transaction without actions, from a signer whose name begins with the byte order mark. -/
def markedTransaction : NearTransaction where
  signerId := units [mark, 'a']
  publicKeyEd25519Base58 := List.replicate 32 one
  nonce := 1
  receiverId := ofString "b"
  blockHashB58 := List.replicate 32 one
  actions := []

/-- The bytes of a transaction whose signer is the byte `ff`. -/
def spoiltBytes : Bytes :=
  sized [0xff] ++ 0 :: (List.replicate 32 0 ++ (le 8 1 ++ (sized [98] ++ (List.replicate 32 0 ++ le 4 0))))

theorem markedTransaction_inRange : markedTransaction.InRange := by
  have hall : ∀ s ∈ markedTransaction.names, decide ((encode s).length < 2 ^ 32) = true :=
    List.all_eq_true.1 (by decide +kernel)
  refine ⟨⟨fun s hs => of_decide_eq_true (hall s hs), by simp [markedTransaction], by decide⟩,
    ⟨List.replicate 32 0, by decide +kernel⟩, ⟨List.replicate 32 0, by decide +kernel⟩, by decide, ?_⟩
  simp [markedTransaction]

theorem not_plain_marked : ¬ Plain (units [mark, 'a']) := by
  rintro ⟨cs, hcs, hhead⟩
  have h : [mark, 'a'] = cs := by rw [← scalars_units [mark, 'a'], hcs, scalars_units]
  rw [← h] at hhead
  exact hhead rfl

theorem spoilt_decoded : decodeNearTransaction spoiltBytes = .ok ⟨[0xfffd], ofString "b", []⟩ := by
  decide +kernel

theorem spoilt_not_utf8 : ¬ ∃ cs, ([0xff] : Bytes) = utf8 cs := by
  rintro ⟨cs, hcs⟩
  have hd := decodeFrom_utf8 cs
  rw [← hcs] at hd
  have hff : decodeFrom none [0xff] = [replacement] := by decide
  rw [← hd, hff] at hcs
  revert hcs
  decide

/-- The mark is left out, so the signer that is read back is another one; and bytes are accepted that are
no text. -/
theorem not_always_read_back :
    (∃ a : NearTransaction, a.InRange ∧
      ¬ ∃ bs, encodeNearTransaction a = .ok bs ∧ decodeNearTransaction bs = .ok a.asked) ∧
    ∃ bs t, decodeNearTransaction bs = .ok t ∧ ¬ ∃ a : NearTransaction, a.InRange ∧ encodeNearTransaction a = .ok bs := by
  refine ⟨⟨markedTransaction, markedTransaction_inRange, ?_⟩, spoiltBytes, _, spoilt_decoded, ?_⟩
  · rw [reads_back_iff markedTransaction_inRange]
    intro hplain
    exact not_plain_marked (hplain _ List.mem_cons_self)
  · obtain ⟨l, hl, haccepted⟩ := accepted_iff spoilt_decoded
    rw [haccepted]
    intro hutf8
    have hsigner : (Reader.whole readLayout spoiltBytes).map Layout.signer = some [0xff] := by decide +kernel
    rw [hl] at hsigner
    have hs : l.signer = [0xff] := Option.some.inj hsigner
    apply spoilt_not_utf8
    rw [← hs]
    exact hutf8 _ List.mem_cons_self

/-!
## Base58 both ways

The encoder and the decoder turn a numeral of one base into one of the other with the same leading zeros and
the same value, so they undo each other.
-/

theorem mem_ALPHABET {u : UInt16} : u ∈ ALPHABET ↔ ∃ d < 58, u = letter d := by
  constructor
  · intro h
    obtain ⟨d, hd, hu⟩ := List.getElem_of_mem h
    refine ⟨d, length_ALPHABET ▸ hd, ?_⟩
    rw [letter, List.getD_eq_getElem?_getD, List.getElem?_eq_getElem hd, Option.getD_some, hu]
  · rintro ⟨d, hd, rfl⟩
    have hlt : d < ALPHABET.length := length_ALPHABET.symm ▸ hd
    rw [letter, List.getD_eq_getElem?_getD, List.getElem?_eq_getElem hlt, Option.getD_some]
    exact List.getElem_mem hlt

theorem map_toNat_spell (zeros v : Nat) :
    ((Numeral.spell 256 zeros v).map UInt8.ofNat).map UInt8.toNat = Numeral.spell 256 zeros v := by
  rw [List.map_map]
  conv_rhs => rw [← List.map_id (Numeral.spell 256 zeros v)]
  apply List.map_congr_left
  intro d hd
  exact toNat_ofNat8 (spell_lt hd)

theorem exists_spell_bytes (b : Bytes) : ∃ zeros v, b = (Numeral.spell 256 zeros v).map UInt8.ofNat := by
  obtain ⟨s, hs⟩ := exists_decodeBase58 b
  obtain ⟨zeros, v, -, hb⟩ := decodeBase58Variable_ok.1 (decodeBase58_ok.1 hs).1
  exact ⟨zeros, v, hb⟩

theorem spell_bytes (zeros v : Nat) : (Numeral.spell 256 zeros v).map UInt8.ofNat =
    List.replicate zeros 0 ++ (Nat.digits 256 v).reverse.map UInt8.ofNat := by
  rw [Numeral.spell, List.map_append, List.map_replicate]
  rfl

theorem head_bytes (v : Nat) : ((Nat.digits 256 v).reverse.map UInt8.ofNat).head? ≠ some 0 := by
  intro h
  rw [List.head?_map] at h
  obtain ⟨d, hd, hzero⟩ := Option.map_eq_some_iff.1 h
  have hlt : d < 256 := Nat.digits_lt_base (by decide) (List.mem_reverse.1 (List.mem_of_mem_head? hd))
  have hd0 : d = 0 := by
    have h0 := congrArg UInt8.toNat hzero
    rwa [toNat_ofNat8 hlt] at h0
  exact Numeral.head_digits_reverse hd hd0

/-- What the encoder's loops come to. -/
theorem encodeBase58_spell (zeros v : Nat) :
    encodeBase58 ((Numeral.spell 256 zeros v).map UInt8.ofNat) = (Numeral.spell 58 zeros v).map letter := by
  have hfold : ((Nat.digits 256 v).reverse.map UInt8.ofNat).foldl
      (fun digits b => Numeral.mulAdd 58 256 b.toNat digits) [] = Nat.digits 58 v := by
    have hbytes := map_toNat_spell 0 v
    have hspell : Numeral.spell 256 0 v = (Nat.digits 256 v).reverse := by simp [Numeral.spell]
    rw [hspell] at hbytes
    have h := Numeral.foldl_mulAdd (b := 58) (m := 256) (by decide) (by decide) (Nat.digits 256 v).reverse 0
    rw [Nat.digits_zero, Nat.mul_zero, Nat.add_zero, List.reverse_reverse, Nat.ofDigits_digits, ← hbytes,
      List.foldl_map] at h
    exact h
  rw [encodeBase58, spell_bytes, Numeral.takeWhile_leading zeros (head_bytes v), List.length_replicate,
    List.drop_left' List.length_replicate, hfold, spell_letters]
  rfl

/-- The codecs are inverse, reject every other character, and agree on the strings of a given length. -/
theorem base58_inverse :
    (∀ b : Bytes, decodeBase58Variable (encodeBase58 b) = .ok b) ∧
    (∀ s : Units, (∀ u ∈ s, u ∈ ALPHABET) → ∃ b, decodeBase58Variable s = .ok b ∧ encodeBase58 b = s) ∧
    (∀ s : Units, (∃ u ∈ s, u ∉ ALPHABET) → ∃ e, decodeBase58Variable s = .error e) ∧
    ∀ (s : Units) (expectedLen : Nat) (b : Bytes),
      decodeBase58 s expectedLen = .ok b ↔ decodeBase58Variable s = .ok b ∧ b.length = expectedLen := by
  refine ⟨?_, ?_, ?_, fun s n b => decodeBase58_ok⟩
  · intro b
    obtain ⟨zeros, v, rfl⟩ := exists_spell_bytes b
    exact decodeBase58Variable_ok.2 ⟨zeros, v, encodeBase58_spell zeros v, rfl⟩
  · intro s hs
    have hletters : ∃ ds : List Nat, (∀ d ∈ ds, d < 58) ∧ s = ds.map letter := by
      induction s with
      | nil => exact ⟨[], by simp, rfl⟩
      | cons u s ih =>
        obtain ⟨d, hd, rfl⟩ := mem_ALPHABET.1 (hs u List.mem_cons_self)
        obtain ⟨ds, hds, rfl⟩ := ih fun v hv => hs v (List.mem_cons_of_mem _ hv)
        refine ⟨d :: ds, ?_, rfl⟩
        intro e he
        rcases List.mem_cons.1 he with rfl | he
        · exact hd
        · exact hds e he
    obtain ⟨ds, hds, rfl⟩ := hletters
    obtain ⟨zeros, v, rfl⟩ := Numeral.exists_spell (by decide) hds
    exact ⟨_, decodeBase58Variable_ok.2 ⟨zeros, v, rfl, rfl⟩, encodeBase58_spell zeros v⟩
  · rintro s ⟨u, hu, hout⟩
    cases h : decodeBase58Variable s with
    | error e => exact ⟨e, rfl⟩
    | ok b =>
      obtain ⟨zeros, v, rfl, -⟩ := decodeBase58Variable_ok.1 h
      obtain ⟨d, hd, rfl⟩ := List.mem_map.1 hu
      have hlt : d < 58 := by
        rcases List.mem_append.1 hd with hd | hd
        · rw [(List.mem_replicate.1 hd).2]
          decide
        · exact digits_lt hd
      exact absurd (mem_ALPHABET.2 ⟨d, hlt, rfl⟩) hout

end Near
