import PwndaWallet.Bridge.Sweep
import PwndaWallet.Lib.Result

/-!
# What sweep tickets promise

A ticket is taken out of the slot before its request is posted, and no prepare fills the slot twice.
So each request is that of one ticket, in time and confirmed, and no ticket has two.
-/

namespace Bridge

open Rust Tasks

/-! ## Tokens -/

theorem foldl_or_eq_zero (l : List (UInt8 × UInt8)) (d : UInt8) :
    l.foldl (fun diff xy => diff ||| (xy.1 ^^^ xy.2)) d = 0 ↔ d = 0 ∧ ∀ xy ∈ l, xy.1 = xy.2 := by
  induction l generalizing d with
  | nil => simp
  | cons xy l ih =>
    rw [List.foldl_cons, ih]
    have hor : d ||| (xy.1 ^^^ xy.2) = 0 ↔ d = 0 ∧ xy.1 = xy.2 := by
      rw [UInt8.or_eq_zero_iff, UInt8.xor_eq_zero_iff]
    rw [hor]
    simp [and_assoc]

theorem eq_of_zip {l l' : List UInt8} (hlen : l.length = l'.length) (h : ∀ xy ∈ l.zip l', xy.1 = xy.2) :
    l = l' := by
  induction l generalizing l' with
  | nil =>
    cases l' with
    | nil => rfl
    | cons _ _ => cases hlen
  | cons a l ih =>
    cases l' with
    | nil => cases hlen
    | cons b l' =>
      have hab := h (a, b) (by simp)
      have hrest := ih (by simpa using hlen) fun xy hxy => h xy (by simp [hxy])
      rw [hrest]
      exact congrArg (· :: l') hab

theorem eq_of_mem_zip_self (l : List UInt8) : ∀ xy ∈ l.zip l, xy.1 = xy.2 := by
  induction l with
  | nil => simp
  | cons a l ih =>
    intro xy hxy
    rcases List.mem_cons.1 hxy with rfl | hxy
    · rfl
    · exact ih xy hxy

/-- The token comparison is equality. -/
theorem ctEq_iff {a b : String} : ctEq a b = true ↔ a = b := by
  unfold ctEq
  dsimp only
  constructor
  · intro h
    split at h
    · cases h
    · rename_i hlen
      have hzero := (foldl_or_eq_zero _ _).1 (beq_iff_eq.1 h)
      have hlist := eq_of_zip (Decidable.not_not.1 hlen) hzero.2
      exact String.toByteArray_inj.1 (ByteArray.ext (Array.toList_inj.1 hlist))
  · rintro rfl
    rw [if_neg (by simp), beq_iff_eq, foldl_or_eq_zero]
    exact ⟨rfl, eq_of_mem_zip_self _⟩

/-- Everything a successful consume says. -/
theorem consumeTicket_ok {slot slot' : Option SweepTicket} {token phrase : String} {now : Int}
    {t : SweepTicket} (h : consumeTicket slot token phrase now = (.ok t, slot')) :
    slot = some t ∧ slot' = none ∧ t.token = token ∧ now < t.expiresAt ∧
      trim phrase = confirmPhraseFor t.destination ∧ confirmPhraseFor t.destination ≠ "" := by
  unfold consumeTicket at h
  split at h
  · cases h
  · rename_i ticket
    split at h
    · cases h
    · rename_i htoken
      split at h
      · cases h
      · rename_i htime
        dsimp only at h
        split at h
        · cases h
        · rename_i hphrase
          obtain ⟨ht, rfl⟩ := Prod.mk.inj h
          obtain rfl := Except.ok.inj ht
          rw [not_or, Decidable.not_not] at hphrase
          exact ⟨rfl, rfl, ctEq_iff.1 (by simpa using htoken), Int.not_le.1 htime, hphrase.2, hphrase.1⟩

/-- A refusal leaves the slot as it is, or empties it. -/
theorem consumeTicket_error {slot slot' : Option SweepTicket} {token phrase e : String} {now : Int}
    (h : consumeTicket slot token phrase now = (.error e, slot')) : slot' = slot ∨ slot' = none := by
  unfold consumeTicket at h
  split at h
  · exact .inl (Prod.mk.inj h).2.symm
  · split at h
    · exact .inl (Prod.mk.inj h).2.symm
    · split at h
      · exact .inr (Prod.mk.inj h).2.symm
      · dsimp only at h
        split at h
        · exact .inl (Prod.mk.inj h).2.symm
        · cases h

/-! ## What a ticket says -/

/-- The ticket pins what the prepare found: the ticker of the coin, the wallet's own address, and the
balance, if the coin is not swept as a whole. -/
structure Pins (o : Outside) (coin : String) (a : Answers) (t : SweepTicket) : Prop where
  coin : coinKeyFrom coin = some t.coin
  ticker : t.ticker = tickerFor t.coin
  expires : t.expiresAt = a.now + sweepTokenTtl
  whole : t.sweepall = !isUtxoFamily t.coin
  destination :
    (∃ mnemonic seed, a.session = some mnemonic ∧ o.mnemonicToSeed mnemonic = .ok seed ∧
      pinnedDestination o seed t.coin = .ok t.destination) ∨
    (t.coin = "monero" ∧ a.xmrAddress = .ok t.destination)
  amount : if t.sweepall then t.amount = none else ∃ v, walletBalance o a.balance = .ok v ∧ t.amount = some v

/-- A destination is the wallet's own address, from the vault's seed or from the Monero wallet. -/
theorem destinationFor_ok {o : Outside} {key destination : String} {a : Answers}
    (h : destinationFor o key a = .ok destination) :
    (∃ mnemonic seed, a.session = some mnemonic ∧ o.mnemonicToSeed mnemonic = .ok seed ∧
      pinnedDestination o seed key = .ok destination) ∨ (key = "monero" ∧ a.xmrAddress = .ok destination) := by
  unfold destinationFor at h
  split at h
  · split at h
    · cases h
    · rename_i mnemonic hm
      obtain ⟨seed, hseed, h⟩ := ok_of_bind h
      exact .inl ⟨mnemonic, seed, hm, hseed, h⟩
  · split at h
    · rename_i hkey
      exact .inr ⟨hkey, ok_of_mapError h⟩
    · cases h

theorem prepareSweep_ok {o : Outside} {coin : String} {a : Answers} {t : SweepTicket}
    (h : prepareSweep o coin a = .ok t) : Pins o coin a t := by
  unfold prepareSweep at h
  split at h
  · cases h
  rename_i key hkey
  obtain ⟨_, _, h⟩ := ok_of_bind h
  obtain ⟨_, _, h⟩ := ok_of_bind h
  obtain ⟨destination, hdest, h⟩ := ok_of_bind h
  obtain ⟨balance, hbalance, h⟩ := ok_of_bind h
  obtain ⟨_, _, h⟩ := ok_of_bind h
  obtain ⟨token, _, h⟩ := ok_of_bind h
  obtain rfl := Except.ok.inj h
  refine ⟨hkey, rfl, rfl, rfl, destinationFor_ok hdest, ?_⟩
  cases hk : isUtxoFamily key with
  | true => simp [newTicket, hbalance]
  | false => simp [newTicket]

theorem requestOf_ok {t : SweepTicket} {path : String} {body : Json}
    (h : Desk.requestOf t = .ok (path, body)) :
    path = s!"wallets/{t.ticker}/withdraw" ∧ withdrawBody t = .ok body := by
  unfold Desk.requestOf at h
  obtain ⟨body', hbody, h⟩ := ok_of_bind h
  obtain ⟨path', hpath, h⟩ := ok_of_bind h
  obtain ⟨_, _, h⟩ := ok_of_bind h
  obtain ⟨rfl, rfl⟩ := Prod.mk.inj (Except.ok.inj h)
  exact ⟨privilegedWalletPath_ok hpath, hbody⟩

/-! ## Every run -/

/-- The execute holds a ticket of the prepare, which it took in time, with the token and the phrase. -/
def Holds (d : Desk) (x : Execute) (i : Nat) (t : SweepTicket) : Prop :=
  x.taken = some (i, t) ∧ ∃ p, d.prepares[i]? = some p ∧ p.stashed = true ∧ p.ticket = t ∧
    x.token = t.token ∧ trim x.confirmPhrase = confirmPhraseFor t.destination ∧ x.now < t.expiresAt

/-- Nobody has taken the ticket of the prepare. -/
def Untaken (d : Desk) (i : Nat) : Prop :=
  ∀ (j : Nat) (x : Execute) (t : SweepTicket), d.executes[j]? = some x → x.taken ≠ some (i, t)

/-- The request is that of the execute's ticket, and the execute has ended. -/
def Posted (d : Desk) (q : Request) : Prop :=
  ∃ x t r, d.executes[q.execute]? = some x ∧ x.taken = some (q.prepare, t) ∧ x.stage = .answered r ∧
    Desk.requestOf t = .ok (q.path, q.body)

structure Desk.Sound (o : Outside) (d : Desk) : Prop where
  minted : ∀ (i : Nat) (p : Prepare), d.prepares[i]? = some p → Pins o p.coin p.answers p.ticket
  slot : ∀ t, d.slot = some t → Untaken d d.last ∧
    ∃ p, d.prepares[d.last]? = some p ∧ p.stashed = true ∧ p.ticket = t
  holds : ∀ (j : Nat) (x : Execute) i t, d.executes[j]? = some x → x.taken = some (i, t) → Holds d x i t
  once : ∀ (j j' : Nat) (x x' : Execute) i t t', d.executes[j]? = some x → d.executes[j']? = some x' →
    x.taken = some (i, t) → x'.taken = some (i, t') → j = j'
  posted : ∀ q ∈ d.requests, Posted d q
  nodup : (d.requests.map Request.execute).Nodup

variable {o : Outside} {d d' : Desk}

theorem Desk.sound_init : Desk.init.Sound o := by
  refine ⟨fun i p hp => ?_, fun t ht => ?_, fun j x i t hx _ => ?_, fun j j' x x' i t t' hx _ _ _ => ?_,
    fun q hq => ?_, List.nodup_nil⟩
  · cases hp
  · cases ht
  · cases hx
  · cases hx
  · cases hq

theorem getElem?_snoc {α : Type} {l : List α} {a b : α} {i : Nat} (h : (l ++ [b])[i]? = some a) :
    l[i]? = some a ∨ i = l.length ∧ a = b := by
  have hlen := (List.getElem?_eq_some_iff.1 h).1
  rw [List.length_append, List.length_singleton] at hlen
  by_cases hi : i < l.length
  · rw [List.getElem?_append_left hi] at h
    exact .inl h
  · obtain rfl : i = l.length := by omega
    rw [List.getElem?_concat_length] at h
    exact .inr ⟨rfl, (Option.some.inj h).symm⟩

theorem getElem?_snoc_of_some {α : Type} {l : List α} {a b : α} {i : Nat} (h : l[i]? = some a) :
    (l ++ [b])[i]? = some a := by
  rw [List.getElem?_append_left (List.getElem?_eq_some_iff.1 h).1, h]

/-- What is in a list after one place of it was set. -/
theorem getElem?_set_cases {α : Type} {l : List α} {a b c : α} {i j : Nat} (hj : l[j]? = some c)
    (h : (l.set j b)[i]? = some a) : (i = j ∧ a = b) ∨ (i ≠ j ∧ l[i]? = some a) := by
  by_cases hij : i = j
  · subst hij
    rw [List.getElem?_set_self (List.getElem?_eq_some_iff.1 hj).1] at h
    exact .inl ⟨rfl, (Option.some.inj h).symm⟩
  · rw [List.getElem?_set_ne (Ne.symm hij)] at h
    exact .inr ⟨hij, h⟩

/-- More prepares, or prepares that were stashed: what an execute holds stays. -/
theorem Holds.mono {x : Execute} {i : Nat} {t : SweepTicket} (h : Holds d x i t)
    (hp : ∀ p, d.prepares[i]? = some p → p.stashed = true → d'.prepares[i]? = some p) : Holds d' x i t := by
  obtain ⟨ht, p, hget, hs, hrest⟩ := h
  exact ⟨ht, p, hp p hget hs, hs, hrest⟩

/-- A prepare has minted a ticket. -/
theorem Desk.Sound.prepare {coin : String} {a : Answers} {t : SweepTicket} (hd : d.Sound o)
    (ht : prepareSweep o coin a = .ok t) :
    ({ d with prepares := d.prepares ++ [⟨coin, a, t, false⟩] } : Desk).Sound o := by
  refine ⟨fun i p hp => ?_, fun t' ht' => ?_, fun j x i t' hx hxt => ?_, hd.once, hd.posted, hd.nodup⟩
  · rcases getElem?_snoc hp with hp | ⟨_, rfl⟩
    · exact hd.minted i p hp
    · exact prepareSweep_ok ht
  · obtain ⟨hun, p, hp, hs, hpt⟩ := hd.slot t' ht'
    exact ⟨hun, p, getElem?_snoc_of_some hp, hs, hpt⟩
  · exact (hd.holds j x i t' hx hxt).mono fun p hp _ => getElem?_snoc_of_some hp

/-- Its ticket goes into the slot. -/
theorem Desk.Sound.stash {i : Nat} {p : Prepare} (hd : d.Sound o) (hp : d.prepares[i]? = some p)
    (hs : p.stashed = false) : ({ d with
      slot := (stashTicket o p.ticket).1
      last := i
      prepares := d.prepares.set i { p with stashed := true } } : Desk).Sound o := by
  have hlt := (List.getElem?_eq_some_iff.1 hp).1
  refine ⟨fun k p' hp' => ?_, fun t ht => ?_, fun j x k t hx hxt => ?_, hd.once, hd.posted, hd.nodup⟩
  · rcases getElem?_set_cases hp hp' with ⟨_, rfl⟩ | ⟨_, hp'⟩
    · exact hd.minted i p hp
    · exact hd.minted k p' hp'
  · obtain rfl := Option.some.inj ht
    refine ⟨fun j x t hx hxt => ?_, _, List.getElem?_set_self hlt, rfl, rfl⟩
    -- what is taken was stashed before
    obtain ⟨_, p', hp', hs', _⟩ := hd.holds j x i t hx hxt
    obtain rfl := Option.some.inj (hp.symm.trans hp')
    rw [hs] at hs'
    cases hs'
  · refine (hd.holds j x k t hx hxt).mono fun p' hp' hs' => ?_
    have hne : i ≠ k := by
      rintro rfl
      obtain rfl := Option.some.inj (hp.symm.trans hp')
      rw [hs] at hs'
      cases hs'
    rw [List.getElem?_set_ne hne]
    exact hp'

/-- An execute begins. -/
theorem Desk.Sound.execute {x : Execute} (hd : d.Sound o) (hx : x.taken = none) :
    ({ d with executes := d.executes ++ [x] } : Desk).Sound o := by
  have hold : ∀ {k : Nat} {y : Execute} {i : Nat} {t : SweepTicket}, (d.executes ++ [x])[k]? = some y →
      y.taken = some (i, t) → d.executes[k]? = some y := by
    intro k y i t hy hyt
    rcases getElem?_snoc hy with hy | ⟨_, rfl⟩
    · exact hy
    · rw [hx] at hyt
      cases hyt
  refine ⟨hd.minted, fun t ht => ?_, fun k y i t hy hyt => hd.holds k y i t (hold hy hyt) hyt,
    fun k k' y y' i t t' hy hy' hyt hyt' => hd.once k k' y y' i t t' (hold hy hyt) (hold hy' hyt') hyt hyt',
    fun q hq => ?_, hd.nodup⟩
  · obtain ⟨hun, hp⟩ := hd.slot t ht
    exact ⟨fun k y t' hy hyt => hun k y t' (hold hy hyt) hyt, hp⟩
  · obtain ⟨y, t, r, hy, hrest⟩ := hd.posted q hq
    exact ⟨y, t, r, getElem?_snoc_of_some hy, hrest⟩

/-- One execute changes, and what it had taken stays taken. -/
structure Desk.Changes (d d' : Desk) (j : Nat) (x x' : Execute) : Prop where
  before : d.executes[j]? = some x
  executes : d'.executes = d.executes.set j x'
  prepares : d'.prepares = d.prepares
  same : x'.token = x.token ∧ x'.confirmPhrase = x.confirmPhrase ∧ x'.now = x.now
  pending : ∀ r, x.stage ≠ .answered r

section
variable {j : Nat} {x x' : Execute}

theorem Desk.Changes.cases {k : Nat} {y : Execute} (hc : Desk.Changes d d' j x x')
    (hy : d'.executes[k]? = some y) : (k = j ∧ y = x') ∨ (k ≠ j ∧ d.executes[k]? = some y) := by
  rw [hc.executes] at hy
  exact getElem?_set_cases hc.before hy

theorem Desk.Changes.posted {q : Request} (hc : Desk.Changes d d' j x x') (hq : Posted d q) :
    Posted d' q := by
  obtain ⟨y, t, r, hy, hyt, hyr, hreq⟩ := hq
  have hne : j ≠ q.execute := by
    rintro rfl
    obtain rfl := Option.some.inj (hc.before.symm.trans hy)
    exact hc.pending r hyr
  refine ⟨y, t, r, ?_, hyt, hyr, hreq⟩
  rw [hc.executes, List.getElem?_set_ne hne]
  exact hy

/-- An execute that takes nothing. -/
theorem Desk.Sound.settle (hd : d.Sound o) (hc : Desk.Changes d d' j x x') (ht : x'.taken = x.taken)
    (hslot : (d'.slot = d.slot ∧ d'.last = d.last) ∨ d'.slot = none) (hq : ∀ q ∈ d'.requests, Posted d' q)
    (hn : (d'.requests.map Request.execute).Nodup) : d'.Sound o := by
  have hback : ∀ {k : Nat} {y : Execute}, d'.executes[k]? = some y → ∃ y₀, d.executes[k]? = some y₀ ∧
      y.taken = y₀.taken ∧ y.token = y₀.token ∧ y.confirmPhrase = y₀.confirmPhrase ∧ y.now = y₀.now := by
    intro k y hy
    rcases hc.cases hy with ⟨rfl, rfl⟩ | ⟨_, hy⟩
    · exact ⟨x, hc.before, ht, hc.same⟩
    · exact ⟨y, hy, rfl, rfl, rfl, rfl⟩
  refine ⟨?_, fun t hslot' => ?_, fun k y i t hy hyt => ?_, fun k k' y y' i t t' hy hy' hyt hyt' => ?_, hq, hn⟩
  · rw [hc.prepares]
    exact hd.minted
  · rcases hslot with ⟨hsame, hlast⟩ | hnone
    · rw [hsame] at hslot'
      obtain ⟨hun, hp⟩ := hd.slot t hslot'
      rw [hlast, hc.prepares]
      refine ⟨fun k y t' hy hyt => ?_, hp⟩
      obtain ⟨y₀, hy₀, htaken, _⟩ := hback hy
      exact hun k y₀ t' hy₀ (htaken ▸ hyt)
    · rw [hnone] at hslot'
      cases hslot'
  · obtain ⟨y₀, hy₀, htaken, htoken, hphrase, hnow⟩ := hback hy
    obtain ⟨_, p, hp, hs, hpt, h₁, h₂, h₃⟩ := hd.holds k y₀ i t hy₀ (htaken ▸ hyt)
    refine ⟨hyt, p, by rw [hc.prepares, hp], hs, hpt, htoken.trans h₁, ?_, ?_⟩
    · rw [hphrase, h₂]
    · rw [hnow]
      exact h₃
  · obtain ⟨y₀, hy₀, htaken, _⟩ := hback hy
    obtain ⟨y₁, hy₁, htaken', _⟩ := hback hy'
    exact hd.once k k' y₀ y₁ i t t' hy₀ hy₁ (htaken ▸ hyt) (htaken' ▸ hyt')

/-- An execute that takes the ticket of the slot. -/
theorem Desk.Sound.take {t : SweepTicket} {slot : Option SweepTicket} (hd : d.Sound o)
    (hx : d.executes[j]? = some x) (hpending : ∀ r, x.stage ≠ .answered r)
    (hconsume : consumeTicket d.slot x.token x.confirmPhrase x.now = (.ok t, slot)) :
    ({ d with slot, executes := d.executes.set j { x with stage := .spending, taken := some (d.last, t) } } :
      Desk).Sound o := by
  obtain ⟨hslot, rfl, htoken, hnow, hphrase, _⟩ := consumeTicket_ok hconsume
  obtain ⟨hun, p, hp, hs, hpt⟩ := hd.slot t hslot
  have hc : Desk.Changes d { d with
      slot := none
      executes := d.executes.set j { x with stage := .spending, taken := some (d.last, t) } } j x
      { x with stage := .spending, taken := some (d.last, t) } := ⟨hx, rfl, rfl, ⟨rfl, rfl, rfl⟩, hpending⟩
  refine ⟨hd.minted, fun t' ht' => ?_, fun k y i t' hy hyt => ?_,
    fun k k' y y' i t₁ t₂ hy hy' hyt hyt' => ?_, fun q hq => hc.posted (hd.posted q hq), hd.nodup⟩
  · cases ht'
  · rcases hc.cases hy with ⟨rfl, rfl⟩ | ⟨_, hy⟩
    · obtain ⟨rfl, rfl⟩ := Prod.mk.inj (Option.some.inj hyt)
      exact ⟨rfl, p, hp, hs, hpt, htoken.symm, hphrase, hnow⟩
    · exact hd.holds k y i t' hy hyt
  · rcases hc.cases hy with ⟨hk, hyx⟩ | ⟨_, hy₁⟩
    · rcases hc.cases hy' with ⟨hk', _⟩ | ⟨_, hy₂⟩
      · rw [hk, hk']
      · subst hyx
        obtain ⟨rfl, _⟩ := Prod.mk.inj (Option.some.inj hyt)
        exact absurd hyt' (hun k' y' t₂ hy₂)
    · rcases hc.cases hy' with ⟨_, hyx⟩ | ⟨_, hy₂⟩
      · subst hyx
        obtain ⟨rfl, _⟩ := Prod.mk.inj (Option.some.inj hyt')
        exact absurd hyt (hun k y t₁ hy₁)
      · exact hd.once k k' y y' i t₁ t₂ hy₁ hy₂ hyt hyt'

end

/-- An execute posts the request of its ticket. -/
theorem Desk.Sound.post {j i : Nat} {x : Execute} {t : SweepTicket} {path : String} {body : Json}
    {r : Except String String} (hd : d.Sound o) (hx : d.executes[j]? = some x)
    (hpending : ∀ r, x.stage ≠ .answered r) (ht : x.taken = some (i, t))
    (hreq : Desk.requestOf t = .ok (path, body)) : ({ d with
      executes := d.executes.set j { x with stage := .answered r }
      requests := d.requests ++ [⟨j, i, path, body⟩] } : Desk).Sound o := by
  have hc : Desk.Changes d { d with
      executes := d.executes.set j { x with stage := .answered r }
      requests := d.requests ++ [⟨j, i, path, body⟩] } j x { x with stage := .answered r } :=
    ⟨hx, rfl, rfl, ⟨rfl, rfl, rfl⟩, hpending⟩
  refine hd.settle hc rfl (.inl ⟨rfl, rfl⟩) (fun q hq => ?_) ?_
  · rcases List.mem_append.1 hq with hq | hq
    · exact hc.posted (hd.posted q hq)
    · obtain rfl := List.mem_singleton.1 hq
      exact ⟨_, t, r, List.getElem?_set_self (List.getElem?_eq_some_iff.1 hx).1, ht, rfl, hreq⟩
  · rw [List.map_append, List.map_singleton]
    refine List.nodup_append.2 ⟨hd.nodup, by simp, fun k hk k' hk' heq => ?_⟩
    obtain ⟨q, hq, hqk⟩ := List.mem_map.1 hk
    obtain ⟨y, _, r', hy, _, hyr, _⟩ := hd.posted q hq
    obtain rfl := List.mem_singleton.1 hk'
    rw [hqk, heq, hx] at hy
    obtain rfl := Option.some.inj hy
    exact hpending r' hyr

theorem Desk.Sound.step {m : Move} (hd : d.Sound o) (hstep : Desk.step o d m = some d') : d'.Sound o := by
  cases m with
  | prepare coin a =>
    dsimp only [Desk.step] at hstep
    split at hstep
    · rename_i t ht
      obtain rfl := Option.some.inj hstep
      exact hd.prepare ht
    · obtain rfl := Option.some.inj hstep
      exact hd
  | stash i =>
    obtain ⟨p, hp, hstep⟩ := Option.bind_eq_some_iff.1 hstep
    split at hstep
    · cases hstep
    · rename_i hs
      obtain rfl := Option.some.inj hstep
      exact hd.stash hp (by simpa using hs)
  | execute context token phrase now =>
    obtain rfl := Option.some.inj hstep
    exact hd.execute rfl
  | consume j =>
    obtain ⟨x, hx, hstep⟩ := Option.bind_eq_some_iff.1 hstep
    split at hstep
    · rename_i hwaiting
      obtain rfl := Option.some.inj hstep
      have hpending : ∀ r, x.stage ≠ .answered r := by
        rw [hwaiting]
        exact fun _ h => nomatch h
      unfold Desk.consume
      split
      · rename_i t slot hconsume
        exact hd.take hx hpending hconsume
      · rename_i e slot hconsume
        have hc : Desk.Changes d { d with slot, executes := d.executes.set j { x with stage := .refused e } }
            j x { x with stage := .refused e } := ⟨hx, rfl, rfl, ⟨rfl, rfl, rfl⟩, hpending⟩
        refine hd.settle hc rfl ?_ (fun q hq => hc.posted (hd.posted q hq)) hd.nodup
        exact (consumeTicket_error hconsume).imp (fun h => ⟨h, rfl⟩) id
    · cases hstep
  | post j reply =>
    obtain ⟨x, hx, hstep⟩ := Option.bind_eq_some_iff.1 hstep
    split at hstep
    · rename_i hspending
      have hpending : ∀ r, x.stage ≠ .answered r := by
        rw [hspending]
        exact fun _ h => nomatch h
      unfold Desk.post at hstep
      split at hstep
      · cases hstep
      · rename_i i t htaken
        split at hstep
        · rename_i e _
          obtain rfl := Option.some.inj hstep
          have hc : Desk.Changes d { d with executes := d.executes.set j { x with stage := .refused e } }
              j x { x with stage := .refused e } := ⟨hx, rfl, rfl, ⟨rfl, rfl, rfl⟩, hpending⟩
          exact hd.settle hc rfl (.inl ⟨rfl, rfl⟩) (fun q hq => hc.posted (hd.posted q hq)) hd.nodup
        · rename_i path body hreq
          obtain rfl := Option.some.inj hstep
          exact hd.post hx hpending htaken hreq
    · cases hstep

theorem sound_reach (h : (sweeps o).Reach .init d) : d.Sound o :=
  h.inv Desk.sound_init fun _ _ _ hd _ hs => hd.step hs

/-! ## What sweeps promise -/

/-- The request is the withdraw of a ticket that a prepare minted less than the ticket's time before
the execute was called, and the execute named the token and the phrase. -/
def Request.Authorised (o : Outside) (d : Desk) (q : Request) : Prop :=
  ∃ p x, d.prepares[q.prepare]? = some p ∧ d.executes[q.execute]? = some x ∧
    Pins o p.coin p.answers p.ticket ∧ x.now < p.answers.now + sweepTokenTtl ∧ x.token = p.ticket.token ∧
    trim x.confirmPhrase = confirmPhraseFor p.ticket.destination ∧
    q.path = s!"wallets/{p.ticket.ticker}/withdraw" ∧ withdrawBody p.ticket = .ok q.body

/-- A refused execute, at whichever exit. -/
def Stage.isRefused : Stage → Bool
  | .refused _ => true
  | _ => false

structure Swept (o : Outside) (d : Desk) : Prop where
  /-- every request is authorised -/
  authorised : ∀ q ∈ d.requests, q.Authorised o d
  /-- a ticket has at most one request, and so has an execute -/
  tickets : (d.requests.map Request.prepare).Nodup
  executes : (d.requests.map Request.execute).Nodup
  /-- a refused execute has none -/
  refused : ∀ (j : Nat) (x : Execute), d.executes[j]? = some x → x.stage.isRefused = true →
    ∀ q ∈ d.requests, q.execute ≠ j
  /-- no move but a stash lets an execute take what it could not have taken before -/
  kept : ∀ m d', Desk.step o d m = some d' → (∀ i, m ≠ .stash i) → ∀ token phrase now t,
    (consumeTicket d'.slot token phrase now).1 = .ok t → (consumeTicket d.slot token phrase now).1 = .ok t

theorem Desk.Sound.authorised {q : Request} (hd : d.Sound o) (hq : q ∈ d.requests) : q.Authorised o d := by
  obtain ⟨x, t, r, hx, hxt, _, hreq⟩ := hd.posted q hq
  obtain ⟨_, p, hp, _, hpt, htoken, hphrase, hnow⟩ := hd.holds q.execute x q.prepare t hx hxt
  subst hpt
  have hpins := hd.minted q.prepare p hp
  obtain ⟨hpath, hbody⟩ := requestOf_ok hreq
  exact ⟨p, x, hp, hx, hpins, hpins.expires ▸ hnow, htoken, hphrase, hpath, hbody⟩

theorem Desk.Sound.tickets (hd : d.Sound o) : (d.requests.map Request.prepare).Nodup := by
  refine List.pairwise_map.2 ((List.pairwise_map.1 hd.nodup).imp_of_mem fun {q q'} hq hq' hne heq => ?_)
  obtain ⟨x, t, _, hx, hxt, _⟩ := hd.posted q hq
  obtain ⟨x', t', _, hx', hxt', _⟩ := hd.posted q' hq'
  exact hne (hd.once _ _ x x' q.prepare t t' hx hx' hxt (heq ▸ hxt'))

/-- No move but a stash puts a ticket into the slot. -/
theorem slot_step {m : Move} (hstep : Desk.step o d m = some d') (hm : ∀ i, m ≠ .stash i) :
    d'.slot = d.slot ∨ d'.slot = none := by
  cases m with
  | prepare coin a =>
    dsimp only [Desk.step] at hstep
    split at hstep <;> (obtain rfl := Option.some.inj hstep; exact .inl rfl)
  | stash i => exact absurd rfl (hm i)
  | execute context token phrase now =>
    obtain rfl := Option.some.inj hstep
    exact .inl rfl
  | consume j =>
    obtain ⟨x, _, hstep⟩ := Option.bind_eq_some_iff.1 hstep
    split at hstep
    · obtain rfl := Option.some.inj hstep
      unfold Desk.consume
      split
      · rename_i hconsume
        exact .inr (consumeTicket_ok hconsume).2.1
      · rename_i hconsume
        exact consumeTicket_error hconsume
    · cases hstep
  | post j reply =>
    obtain ⟨x, _, hstep⟩ := Option.bind_eq_some_iff.1 hstep
    split at hstep
    · unfold Desk.post at hstep
      split at hstep
      · cases hstep
      · split at hstep <;> (obtain rfl := Option.some.inj hstep; exact .inl rfl)
    · cases hstep

/-- What sweeps promise holds in every run of prepares and executes. -/
theorem sweeps_swept (h : (sweeps o).Reach .init d) : Swept o d := by
  have hd := sound_reach h
  refine ⟨fun q hq => hd.authorised hq, hd.tickets, hd.nodup, fun j x hx hr q hq heq => ?_,
    fun m d' hstep hm token phrase now t ht => ?_⟩
  · obtain ⟨y, _, r, hy, _, hyr, _⟩ := hd.posted q hq
    rw [heq, hx] at hy
    obtain rfl := Option.some.inj hy
    rw [hyr] at hr
    cases hr
  · rcases slot_step hstep hm with hslot | hslot
    · rw [← hslot]
      exact ht
    · rw [hslot] at ht
      cases ht

/-! ## A sweep -/

/-- The Monero wallet has an address, and the node's wallet holds 1.5 XMR. -/
def sampleOutside : Outside where
  mnemonicToSeed _ := .error "the mnemonic is invalid"
  utxoAddress _ _ := .error "the seed is invalid"
  parseJson text :=
    if text = "\x7b\"balance\": \"1.5\"\x7d" then .ok (.obj [("balance", .str "1.5")])
    else if text = "\x7b\"txid\": \"t1\"\x7d" then .ok (.obj [("txid", .str "t1")])
    else .error "expected value"
  printJson _ := ""
  toRfc3339 _ := "1970-01-01T00:02:00+00:00"
  parsedF64 text := if text = "1.5" then some true else none

def sampleAnswers : Answers :=
  ⟨.ok (), some 0, none, .ok "4AdUndXHHZ", .answered 200 "\x7b\"balance\": \"1.5\"\x7d",
    .ok (List.replicate 32 7), 0⟩

/-- A sweep of Monero, confirmed 119 seconds after it was prepared. -/
def sampleMoves : List Move :=
  [.prepare "xmr" sampleAnswers, .stash 0,
    .execute (.ok ()) (hexEncode (List.replicate 32 7)) " dXHHZ"  (119 * 1000000000), .consume 0,
    .execute (.ok ()) (hexEncode (List.replicate 32 7)) "ndXHHZ " (119 * 1000000000), .consume 1,
    .post 1 (.answered 200 "\x7b\"txid\": \"t1\"\x7d")]

theorem sweeps_swept_sample : ∃ d, d.requests.length = 1 ∧ Swept sampleOutside d := by
  have hplay : (((sweeps sampleOutside).play .init sampleMoves).map fun d => d.requests.length) = some 1 := by
    decide +kernel
  obtain ⟨d, hd, hlen⟩ := Option.map_eq_some_iff.1 hplay
  exact ⟨d, hlen, sweeps_swept (Machine.reach_play hd)⟩

end Bridge
