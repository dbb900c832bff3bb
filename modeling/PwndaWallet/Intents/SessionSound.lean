import PwndaWallet.Intents.AttemptsSound

/-!
# The record of a session

Over all interleavings of a session's trades, the record of deposits and the books of the calls agree. So
one call at most gets past the claim of a deposit, and the record of a deposit that was sent, or may have
been, stays as its call left it.
-/

namespace Intents

open Tasks Tasks.Books

variable {env : Env} {w w' : TradeWorld} {i : Nat} {o : TradeOp} {out : Outside}

/-! ## Records -/

theorem recorded_cases {attempts : Attempts} {k k' : String} {r r' : Attempt}
    (h : Function.update attempts k (some r) k' = some r') : k' = k ∧ r' = r ∨ k' ≠ k ∧ attempts k' = some r' := by
  by_cases hk : k' = k
  · subst hk
    rw [Function.update_self] at h
    exact .inl ⟨rfl, (Option.some.inj h).symm⟩
  · rw [Function.update_of_ne hk] at h
    exact .inr ⟨hk, h⟩

theorem recorded_update {attempts : Attempts} {k k' : String} {r : Attempt} (h : attempts k' ≠ none) :
    Function.update attempts k (some r) k' ≠ none := by
  by_cases hk : k' = k
  · rw [hk, Function.update_self]
    nofun
  · rw [Function.update_of_ne hk]
    exact h

theorem patched_hash (prior : Option Attempt) (deposit : DepositRef) (patch : Patch) (now : Int) :
    (Attempt.patched prior deposit patch now).txHash = patch.txHash.or (prior.bind (·.txHash)) :=
  Option.orElse_eq_or

theorem patched_sent {prior : Option Attempt} {deposit : DepositRef} {patch : Patch} {now : Int}
    (hs : patch.state.isSent = true) : (Attempt.patched prior deposit patch now).state = patch.state := by
  obtain ⟨state, txHash⟩ := patch
  cases state with
  | claimed => cases hs
  | retired => cases hs
  | broadcast => rfl
  | unknown => rfl

/-- A retirement takes nothing from an attempt that was sent. -/
theorem patched_retired {r : Attempt} {deposit : DepositRef} {now : Int} (hs : r.state.isSent = true) :
    (Attempt.patched (some r) deposit { state := .retired, txHash := none } now).state = r.state := by
  have hne : r.state ≠ .claimed ∧ r.state ≠ .retired := by
    constructor
    all_goals
      intro h
      rw [h] at hs
      cases hs
  simp only [Attempt.patched]
  rw [if_pos hne]

/-- Nor does it make one that was sent. -/
theorem sent_of_retired {prior : Option Attempt} {deposit : DepositRef} {now : Int}
    (h : let r := Attempt.patched prior deposit { state := .retired, txHash := none } now
      r.state.isSent = true ∨ r.txHash ≠ none) :
    ∃ r, prior = some r ∧ (r.state.isSent = true ∨ r.txHash ≠ none) := by
  cases prior with
  | none =>
    rcases h with h | h
    · cases h
    · exact absurd rfl h
  | some r =>
    refine ⟨r, rfl, h.imp_left fun h => ?_⟩
    simp only [Attempt.patched] at h
    split at h
    · exact h
    · cases h

/-! ## What an answer does -/

/-- What an answer does to the record and to the books. -/
inductive Answered (w : TradeWorld) (i : Nat) : TradeOp → TradeWorld → Prop
  | quiet {o : TradeOp} : Answered w i o w
  | claimed {d : DepositRef} {r : Attempt} : w.attempts (intentsDepositKey d) = none → r.state = .claimed →
      r.txHash = none → Answered w i (.claim d)
        { attempts := Function.update w.attempts (intentsDepositKey d) (some r)
          books := Function.update w.books i { w.books i with claimed := some d } }
  | sent {d : DepositRef} {patch : Patch} (now : Int) : patch.state.isSent = true → Answered w i (.record d patch)
      { attempts := recordIntentsDeposit w.attempts d patch now
        books := Function.update w.books i { w.books i with recorded := some patch } }
  | retired {d : DepositRef} {patch : Patch} (now : Int) : patch.state.isSent = false → Answered w i (.record d patch)
      { w with attempts := recordIntentsDeposit w.attempts d patch now }
  | threw {p : Phase} : Answered w i (.phase p)
      { w with books := Function.update w.books i { w.books i with threw := true } }
  | settled {result : Except TradeError IntentsTrade} : Answered w i (.settled result)
      { w with books := Function.update w.books i { w.books i with settled := some result } }

theorem answered (w : TradeWorld) (i : Nat) (o : TradeOp) (out : Outside) :
    Answered w i o ((tradeSys env).respond i o out w).2 := by
  have hquiet : w.effect out o = w.attempts → (w.books i).note o (w.answer out o) = w.books i →
      Answered w i o ((tradeSys env).respond i o out w).2 := by
    intro he hn
    have hsame : ((tradeSys env).respond i o out w).2 = w := by
      simp only [tradeSys]
      rw [he, hn, Function.update_eq_self]
    rw [hsame]
    exact .quiet
  cases o with
  | claim d =>
    cases hprior : w.attempts (intentsDepositKey d) with
    | some prior =>
      have hrefused : claimIntentsDeposit w.attempts d (out .now) = .error prior := by
        simp only [claimIntentsDeposit, hprior]
      refine hquiet ?_ ?_
      · simp only [TradeWorld.effect, hrefused]
      · simp only [TradeWorld.answer, hrefused]
        rfl
    | none =>
      simp only [tradeSys, TradeWorld.effect, TradeWorld.answer, claimIntentsDeposit, hprior]
      exact .claimed hprior rfl rfl
  | record d patch =>
    cases hs : patch.state.isSent with
    | true =>
      simp only [tradeSys, Book.note, hs, if_true]
      exact .sent _ hs
    | false =>
      simp only [tradeSys, Book.note, hs, if_neg Bool.false_ne_true, Function.update_eq_self]
      exact .retired _ hs
  | phase p =>
    cases p with
    | pending =>
      cases hr : w.answer out (.phase .pending) with
      | ok _ => exact hquiet rfl (by rw [hr]; rfl)
      | error m =>
        simp only [tradeSys, hr, Book.note]
        exact .threw
    | _ => exact hquiet rfl rfl
  | settled result => exact .settled
  | _ => exact hquiet rfl rfl

/-! ## The record and the books agree -/

structure Consistent (w : TradeWorld) : Prop where
  claims : ∀ i d, (w.books i).claimed = some d → w.attempts (intentsDepositKey d) ≠ none
  once : ∀ i j d d', (w.books i).claimed = some d → (w.books j).claimed = some d' →
    intentsDepositKey d = intentsDepositKey d' → i = j
  held : ∀ i p, (w.books i).recorded = some p → p.state.isSent = true ∧ ∃ d r, (w.books i).claimed = some d ∧
    w.attempts (intentsDepositKey d) = some r ∧ r.state = p.state ∧ r.txHash = p.txHash
  owned : ∀ k r, w.attempts k = some r → (r.state.isSent = true ∨ r.txHash ≠ none) →
    ∃ i d, (w.books i).claimed = some d ∧ intentsDepositKey d = k ∧ (w.books i).recorded ≠ none
  settles : ∀ i r, (w.books i).settled = some r → Accounts (w.books i) r

theorem consistent_session : Consistent session.world where
  claims := nofun
  once := nofun
  held := nofun
  owned := nofun
  settles := nofun

theorem book_cases {books : Nat → Book} {b : Book} {j : Nat} (P : Book → Prop)
    (h : P (Function.update books i b j)) : j = i ∧ P b ∨ j ≠ i ∧ P (books j) := by
  by_cases hj : j = i
  · subst hj
    rw [Function.update_self] at h
    exact .inl ⟨rfl, h⟩
  · rw [Function.update_of_ne hj] at h
    exact .inr ⟨hj, h⟩

/-- A part of the books that the answer leaves as it is. -/
theorem part_update {β : Type} {books : Nat → Book} {b : Book} (f : Book → β) (h : f b = f (books i)) (j : Nat) :
    f (Function.update books i b j) = f (books j) := by
  by_cases hj : j = i
  · subst hj
    rw [Function.update_self, h]
  · rw [Function.update_of_ne hj]

theorem Accounts.congr {b b' : Book} {r : Except TradeError IntentsTrade} (h : Accounts b r)
    (hclaimed : b'.claimed = b.claimed) (hrecorded : b'.recorded = b.recorded) (hthrew : b.threw = true → b'.threw = true) :
    Accounts b' r := by
  cases r with
  | ok trade => exact ⟨hclaimed.trans h.1, hrecorded.trans h.2⟩
  | error e =>
    refine ⟨fun m x he => hrecorded.trans (h.1 m x he), fun x hx => hthrew (h.2 x ?_)⟩
    rw [← hrecorded, hx]

namespace Consistent

theorem sent (h : Consistent w) {k : String} {r : Attempt} (hr : w.attempts k = some r)
    (hs : r.state.isSent = true ∨ r.txHash ≠ none) : r.state.isSent = true := by
  obtain ⟨j, d, hd, rfl, hrec⟩ := h.owned k r hr hs
  obtain ⟨p, hp⟩ := Option.ne_none_iff_exists'.1 hrec
  obtain ⟨hps, d', r', hd', hr', hstate, _⟩ := h.held j p hp
  rw [hd] at hd'
  cases hd'
  rw [hr] at hr'
  cases hr'
  rw [hstate]
  exact hps

/-- The attempt that a call records as sent is its own, and it records one thing of it. -/
theorem own_record (h : Consistent w) {d : DepositRef} {patch : Patch} (hrec : Recordable (w.books i) d patch)
    {r : Attempt} (hr : w.attempts (intentsDepositKey d) = some r) (hs : r.state.isSent = true ∨ r.txHash ≠ none) :
    r.state = patch.state ∧ r.txHash = patch.txHash := by
  obtain ⟨d₀, hd₀, hkey, hcase⟩ := hrec
  obtain ⟨j, d', hd', hk', hj⟩ := h.owned _ r hr hs
  obtain rfl : j = i := h.once j i d' d₀ hd' hd₀ (hk'.trans hkey.symm)
  rcases hcase with ⟨hnone, _⟩ | hp
  · exact absurd hnone hj
  · obtain ⟨_, d₁, r₁, hd₁, hr₁, hstate, hhash⟩ := h.held j patch hp
    rw [hd₀] at hd₁
    cases hd₁
    rw [hkey, hr] at hr₁
    cases hr₁
    exact ⟨hstate, hhash⟩

theorem hash_of_sent (h : Consistent w) {d : DepositRef} {patch : Patch} (hrec : Recordable (w.books i) d patch)
    (now : Int) : (Attempt.patched (w.attempts (intentsDepositKey d)) d patch now).txHash = patch.txHash := by
  rw [patched_hash]
  cases hr : w.attempts (intentsDepositKey d) with
  | none => exact Option.or_none
  | some r =>
    cases hhash : r.txHash with
    | none => rw [Option.bind_some, hhash, Option.or_none]
    | some x => rw [Option.bind_some, (h.own_record hrec hr (.inr (by rw [hhash]; nofun))).2, Option.or_self]

theorem on_claimed (h : Consistent w) {d : DepositRef} {r : Attempt} (hblank : w.books i = .blank)
    (hnone : w.attempts (intentsDepositKey d) = none) (hstate : r.state = .claimed) (hhash : r.txHash = none) :
    Consistent { attempts := Function.update w.attempts (intentsDepositKey d) (some r)
                 books := Function.update w.books i { w.books i with claimed := some d } } where
  claims := by
    intro j d' hj
    rcases book_cases (·.claimed = some d') hj with ⟨_, hd⟩ | ⟨_, hd⟩
    · cases hd
      dsimp only
      rw [Function.update_self]
      nofun
    · exact recorded_update (h.claims j d' hd)
  once := by
    intro j j' d₁ d₂ h₁ h₂ hkey
    rcases book_cases (·.claimed = some d₁) h₁ with ⟨rfl, hd₁⟩ | ⟨_, hd₁⟩
    · rcases book_cases (·.claimed = some d₂) h₂ with ⟨rfl, _⟩ | ⟨_, hd₂⟩
      · rfl
      · cases hd₁
        rw [hkey] at hnone
        exact absurd hnone (h.claims j' d₂ hd₂)
    · rcases book_cases (·.claimed = some d₂) h₂ with ⟨rfl, hd₂⟩ | ⟨_, hd₂⟩
      · cases hd₂
        rw [← hkey] at hnone
        exact absurd hnone (h.claims j d₁ hd₁)
      · exact h.once j j' d₁ d₂ hd₁ hd₂ hkey
  held := by
    intro j p hj
    rcases book_cases (·.recorded = some p) hj with ⟨_, hp⟩ | ⟨hne, hp⟩
    · rw [hblank] at hp
      cases hp
    · obtain ⟨hs, d', r', hd', hr', heq⟩ := h.held j p hp
      have hkey : intentsDepositKey d' ≠ intentsDepositKey d := fun hk => by
        rw [hk, hnone] at hr'
        cases hr'
      refine ⟨hs, d', r', ?_, ?_, heq⟩
      · simp only [Function.update_of_ne hne, hd']
      · simp only [Function.update_of_ne hkey, hr']
  owned := by
    intro k r' hk hs
    rcases recorded_cases hk with ⟨_, rfl⟩ | ⟨_, hk⟩
    · rcases hs with hs | hs
      · rw [hstate] at hs
        cases hs
      · exact absurd hhash hs
    · obtain ⟨j, d', hd', hkey, hrec⟩ := h.owned k r' hk hs
      have hji : j ≠ i := by
        rintro rfl
        rw [hblank] at hd'
        cases hd'
      refine ⟨j, d', ?_, hkey, ?_⟩
      · simp only [Function.update_of_ne hji, hd']
      · simpa only [Function.update_of_ne hji] using hrec
  settles := by
    intro j r' hj
    rcases book_cases (·.settled = some r') hj with ⟨_, hr⟩ | ⟨hne, hr⟩
    · rw [hblank] at hr
      cases hr
    · simp only [Function.update_of_ne hne]
      exact h.settles j r' hr

theorem on_sent (h : Consistent w) {d : DepositRef} {patch : Patch} {now : Int} (hs : patch.state.isSent = true)
    (hrec : Recordable (w.books i) d patch) :
    Consistent { attempts := recordIntentsDeposit w.attempts d patch now
                 books := Function.update w.books i { w.books i with recorded := some patch } } := by
  obtain ⟨d₀, hd₀, hkey₀, hcase⟩ := id hrec
  have hclaimed : ∀ j, (Function.update w.books i { w.books i with recorded := some patch } j).claimed =
      (w.books j).claimed := part_update (·.claimed) rfl
  refine ⟨fun j d' hj => ?_, fun j j' d₁ d₂ h₁ h₂ => ?_, fun j p hj => ?_, fun k r' hk hsent => ?_, fun j r' hj => ?_⟩
  · exact recorded_update (h.claims j d' ((hclaimed j).symm.trans hj))
  · exact h.once j j' d₁ d₂ ((hclaimed j).symm.trans h₁) ((hclaimed j').symm.trans h₂)
  · rcases book_cases (·.recorded = some p) hj with ⟨rfl, hp⟩ | ⟨hne, hp⟩
    · cases hp
      refine ⟨hs, d₀, _, (hclaimed j).trans hd₀, ?_, patched_sent hs, h.hash_of_sent hrec now⟩
      simp only [hkey₀, recordIntentsDeposit, Function.update_self]
    · obtain ⟨hps, d', r', hd', hr', heq⟩ := h.held j p hp
      have hkey : intentsDepositKey d' ≠ intentsDepositKey d := fun hk =>
        hne (h.once j i d' d₀ hd' hd₀ (hk.trans hkey₀.symm))
      refine ⟨hps, d', r', (hclaimed j).trans hd', ?_, heq⟩
      simp only [recordIntentsDeposit, Function.update_of_ne hkey, hr']
  · rcases recorded_cases hk with ⟨rfl, _⟩ | ⟨_, hk⟩
    · refine ⟨i, d₀, (hclaimed i).trans hd₀, hkey₀, ?_⟩
      dsimp only
      rw [Function.update_self]
      nofun
    · obtain ⟨j, d', hd', hkey, hj⟩ := h.owned k r' hk hsent
      refine ⟨j, d', (hclaimed j).trans hd', hkey, fun hno => ?_⟩
      rcases book_cases (·.recorded = none) hno with ⟨_, hp⟩ | ⟨_, hp⟩
      · cases hp
      · exact hj hp
  · rcases book_cases (·.settled = some r') hj with ⟨rfl, hr⟩ | ⟨hne, hr⟩
    · rcases hcase with ⟨_, hnone⟩ | hp
      · exact absurd (hnone.symm.trans hr) nofun
      · simp only [Function.update_self]
        exact (h.settles j r' hr).congr rfl hp.symm id
    · simp only [Function.update_of_ne hne]
      exact h.settles j r' hr

theorem on_retired (h : Consistent w) {d : DepositRef} {now : Int} :
    Consistent { w with attempts := recordIntentsDeposit w.attempts d { state := .retired, txHash := none } now } where
  claims := fun j d' hj => recorded_update (h.claims j d' hj)
  once := h.once
  held := by
    intro j p hp
    obtain ⟨hps, d', r', hd', hr', hstate, hhash⟩ := h.held j p hp
    by_cases hkey : intentsDepositKey d' = intentsDepositKey d
    · refine ⟨hps, d', Attempt.patched (some r') d { state := .retired, txHash := none } now, hd', ?_, ?_, hhash⟩
      · simp only [recordIntentsDeposit, hkey, Function.update_self]
        rw [← hkey, hr']
      · rw [patched_retired (by rw [hstate, hps]), hstate]
    · refine ⟨hps, d', r', hd', ?_, hstate, hhash⟩
      simp only [recordIntentsDeposit, Function.update_of_ne hkey, hr']
  owned := by
    intro k r' hk hs
    rcases recorded_cases hk with ⟨rfl, rfl⟩ | ⟨_, hk⟩
    · obtain ⟨r, hr, hs⟩ := sent_of_retired hs
      exact h.owned _ r hr hs
    · exact h.owned k r' hk hs
  settles := h.settles

/-- The rest of a book may change as long as it accounts for the deposit. -/
theorem on_rest (h : Consistent w) {b : Book} (hclaimed : b.claimed = (w.books i).claimed)
    (hrecorded : b.recorded = (w.books i).recorded) (hsettled : ∀ r, b.settled = some r → Accounts b r) :
    Consistent { w with books := Function.update w.books i b } := by
  have hc : ∀ j, (Function.update w.books i b j).claimed = (w.books j).claimed := part_update (·.claimed) hclaimed
  have hr : ∀ j, (Function.update w.books i b j).recorded = (w.books j).recorded := part_update (·.recorded) hrecorded
  refine ⟨fun j d' hj => ?_, fun j j' d₁ d₂ h₁ h₂ => ?_, fun j p hj => ?_, fun k r' hk hsent => ?_, fun j r' hj => ?_⟩
  · exact h.claims j d' ((hc j).symm.trans hj)
  · exact h.once j j' d₁ d₂ ((hc j).symm.trans h₁) ((hc j').symm.trans h₂)
  · obtain ⟨hps, d', r', hd', hrest⟩ := h.held j p ((hr j).symm.trans hj)
    exact ⟨hps, d', r', (hc j).trans hd', hrest⟩
  · obtain ⟨j, d', hd', hkey, hj⟩ := h.owned k r' hk hsent
    exact ⟨j, d', (hc j).trans hd', hkey, fun hno => hj ((hr j).symm.trans hno)⟩
  · rcases book_cases (·.settled = some r') hj with ⟨rfl, hb⟩ | ⟨hne, hb⟩
    · simp only [Function.update_self]
      exact hsettled r' hb
    · simp only [Function.update_of_ne hne]
      exact h.settles j r' hb

/-- An answer that the books allow keeps the record and the books in agreement. -/
theorem answered {e : TradeEntry} (h : Consistent w) (ha : allowed e (w.books i) o) (hw : Answered w i o w') :
    Consistent w' := by
  cases hw with
  | quiet => exact h
  | claimed hnone hstate hhash => exact h.on_claimed ha.1 hnone hstate hhash
  | sent now hs => exact h.on_sent hs (recordable_of_allowed ha hs)
  | retired now hs =>
    obtain rfl := retired_of_allowed ha hs
    exact h.on_retired
  | threw => exact h.on_rest rfl rfl fun r hr => (h.settles i r hr).congr rfl rfl fun _ => rfl
  | settled =>
    refine h.on_rest rfl rfl fun r hr => ?_
    cases hr
    exact ha.2.congr rfl rfl id

end Consistent

/-! ## What a session never takes back -/

/-- From `w` on a claim stays, a recorded pair is claimed by no other call, and an attempt that was sent
stays as it is. -/
structure Later (w w' : TradeWorld) : Prop where
  claims : ∀ i d, (w.books i).claimed = some d → (w'.books i).claimed = some d
  recorded : ∀ k, w.attempts k ≠ none → w'.attempts k ≠ none
  closed : ∀ k, w.attempts k ≠ none → ∀ i d, (w'.books i).claimed = some d → intentsDepositKey d = k →
    (w.books i).claimed = some d
  kept : ∀ k r, w.attempts k = some r → (r.state.isSent = true ∨ r.txHash ≠ none) →
    ∃ r', w'.attempts k = some r' ∧ r'.state = r.state ∧ r'.txHash = r.txHash

namespace Later

theorem refl (w : TradeWorld) : Later w w where
  claims := fun _ _ => id
  recorded := fun _ => id
  closed := fun _ _ _ _ hd _ => hd
  kept := fun _ r hr _ => ⟨r, hr, rfl, rfl⟩

theorem trans {w₁ w₂ w₃ : TradeWorld} (h : Later w₁ w₂) (h' : Later w₂ w₃) : Later w₁ w₃ where
  claims := fun i d hd => h'.claims i d (h.claims i d hd)
  recorded := fun k hk => h'.recorded k (h.recorded k hk)
  closed := fun k hk i d hd hkey => h.closed k hk i d (h'.closed k (h.recorded k hk) i d hd hkey) hkey
  kept := by
    intro k r hr hs
    obtain ⟨r₂, hr₂, hstate₂, hhash₂⟩ := h.kept k r hr hs
    obtain ⟨r₃, hr₃, hstate₃, hhash₃⟩ := h'.kept k r₂ hr₂ (by rw [hstate₂, hhash₂]; exact hs)
    exact ⟨r₃, hr₃, hstate₃.trans hstate₂, hhash₃.trans hhash₂⟩

/-- The record stays, and what an answer makes of the attempts that were sent is said by `hkept`. -/
theorem of_record {d : DepositRef} {r : Attempt} {b : Book} (hclaimed : b.claimed = (w.books i).claimed)
    (hkept : ∀ r₀, w.attempts (intentsDepositKey d) = some r₀ → (r₀.state.isSent = true ∨ r₀.txHash ≠ none) →
      r.state = r₀.state ∧ r.txHash = r₀.txHash) :
    Later w { attempts := Function.update w.attempts (intentsDepositKey d) (some r)
              books := Function.update w.books i b } where
  claims := fun j d' hj => (part_update (·.claimed) hclaimed j).trans hj
  recorded := fun k hk => recorded_update hk
  closed := fun k _ j d' hj _ => (part_update (·.claimed) hclaimed j).symm.trans hj
  kept := by
    intro k r₀ hr₀ hs
    by_cases hk : k = intentsDepositKey d
    · subst hk
      exact ⟨r, Function.update_self .., hkept r₀ hr₀ hs⟩
    · exact ⟨r₀, (Function.update_of_ne hk ..).trans hr₀, rfl, rfl⟩

theorem of_book {b : Book} (hclaimed : b.claimed = (w.books i).claimed) :
    Later w { w with books := Function.update w.books i b } where
  claims := fun j d' hj => (part_update (·.claimed) hclaimed j).trans hj
  recorded := fun _ => id
  closed := fun k _ j d' hj _ => (part_update (·.claimed) hclaimed j).symm.trans hj
  kept := fun _ r hr _ => ⟨r, hr, rfl, rfl⟩

theorem on_claimed {d : DepositRef} {r : Attempt} (hblank : w.books i = .blank)
    (hnone : w.attempts (intentsDepositKey d) = none) :
    Later w { attempts := Function.update w.attempts (intentsDepositKey d) (some r)
              books := Function.update w.books i { w.books i with claimed := some d } } where
  claims := by
    intro j d' hj
    have hji : j ≠ i := by
      rintro rfl
      rw [hblank] at hj
      cases hj
    simp only [Function.update_of_ne hji, hj]
  recorded := fun k hk => recorded_update hk
  closed := by
    intro k hk j d' hj hkey
    rcases book_cases (·.claimed = some d') hj with ⟨_, hd⟩ | ⟨_, hd⟩
    · cases hd
      exact absurd (hkey ▸ hnone) hk
    · exact hd
  kept := by
    intro k r₀ hr₀ _
    have hne : k ≠ intentsDepositKey d := by
      rintro rfl
      rw [hnone] at hr₀
      cases hr₀
    exact ⟨r₀, (Function.update_of_ne hne ..).trans hr₀, rfl, rfl⟩

theorem answered {e : TradeEntry} (h : Consistent w) (ha : allowed e (w.books i) o) (hw : Answered w i o w') :
    Later w w' := by
  cases hw with
  | quiet => exact .refl w
  | claimed hnone _ _ => exact .on_claimed ha.1 hnone
  | sent now hs =>
    have hrec := recordable_of_allowed ha hs
    refine .of_record rfl fun r₀ hr₀ hsent => ?_
    obtain ⟨hstate, hhash⟩ := h.own_record hrec hr₀ hsent
    exact ⟨(patched_sent hs).trans hstate.symm, (h.hash_of_sent hrec now).trans hhash.symm⟩
  | @retired d patch now hs =>
    obtain rfl := retired_of_allowed ha hs
    have hsame : Later w
        { attempts := recordIntentsDeposit w.attempts d { state := .retired, txHash := none } now
          books := Function.update w.books i (w.books i) } := by
      refine .of_record rfl fun r₀ hr₀ hsent => ?_
      rw [hr₀]
      exact ⟨patched_retired (h.sent hr₀ hsent), rfl⟩
    rwa [Function.update_eq_self] at hsame
  | threw => exact .of_book rfl
  | settled => exact .of_book rfl

end Later

end Intents
