import PwndaWallet.Send.Quotes

/-!
# What the send form shows

Whatever the order of the turns, a price on the form is the wallet's answer to a call for the inputs on the form, made
since the last discard; there is one call at a time; what is pending comes; and an on-request controller calls the
wallet at most once for each time it is asked, and not again for inputs whose build it still has.
-/

namespace SendQuotes

open Tasks

/-! ## The record -/

def Note.isCall (n : Nat) : Note → Bool
  | .called m _ => m == n
  | _ => false

def Note.isAsked : Note → Bool
  | .asked => true
  | _ => false

/-- The notes on which nothing depends. -/
def Note.plain : Note → Bool
  | .asked | .shown _ | .disposed => true
  | _ => false

/-- What is on record after call `n`. -/
def after (n : Nat) (log : List Note) : List Note := log.takeWhile fun x => !x.isCall n

def asked (log : List Note) : Nat := log.countP Note.isAsked

/-- Since call `n` the inputs stand and nothing was discarded. -/
structure Still (n : Nat) (log : List Note) : Prop where
  kept : .discarded ∉ after n log
  same : ∀ next, .changed next ∉ after n log

/-- Call `n` was for these inputs and answered with this quote, and nothing was discarded since. -/
structure Built (log : List Note) (n : Nat) (i : QuoteInputs) (q : SendQuote) : Prop where
  called : .called n i ∈ log
  answered : .answered n i (.ok q) ∈ after n log
  kept : .discarded ∉ after n log

structure Failed (log : List Note) (n : Nat) (i : QuoteInputs) (e : QuoteError) : Prop where
  called : .called n i ∈ log
  answered : .answered n i (.error e) ∈ after n log
  still : Still n log

/-- Since call `n` something else was built. -/
def Replaced (log : List Note) (n : Nat) (i : QuoteInputs) : Prop :=
  ∃ m j q, j ≠ i ∧ .answered m j (.ok q) ∈ after n log

/-- No call was for inputs with a build that was neither discarded nor replaced. -/
def Spared (log : List Note) : Prop :=
  ∀ m i l, .called m i :: l <:+ log → ∀ n q, Built l n i q → Replaced l n i

/-- After the end nothing is shown and nothing is called. -/
def Silent (log : List Note) : Prop :=
  ∀ x l, x :: l <:+ log → .disposed ∈ l → (∀ s, x ≠ .shown s) ∧ ∀ n i, x ≠ .called n i

variable {mode : QuoteMode} {c : Controller} {log : List Note} {x : Note} {n : Nat} {i : QuoteInputs} {q : SendQuote}
  {e : QuoteError}

theorem after_cons (h : x.isCall n = false) : after n (x :: log) = x :: after n log := by
  rw [after, List.takeWhile_cons, h]
  rfl

theorem after_cons_call (h : x.isCall n = true) : after n (x :: log) = [] := by
  rw [after, List.takeWhile_cons, h]
  rfl

theorem Still.cons (h : Still n log) (hcall : x.isCall n = false) (hdiscard : x ≠ .discarded)
    (hchange : ∀ next, x ≠ .changed next) : Still n (x :: log) := by
  refine ⟨?_, fun next => ?_⟩ <;> rw [after_cons hcall, List.mem_cons, not_or]
  · exact ⟨hdiscard.symm, h.kept⟩
  · exact ⟨(hchange next).symm, h.same next⟩

theorem Built.cons (h : Built log n i q) (hcall : x.isCall n = false) (hdiscard : x ≠ .discarded) :
    Built (x :: log) n i q := by
  refine ⟨List.mem_cons_of_mem _ h.called, ?_, ?_⟩ <;> rw [after_cons hcall]
  · exact List.mem_cons_of_mem _ h.answered
  · rw [List.mem_cons, not_or]
    exact ⟨hdiscard.symm, h.kept⟩

theorem Failed.cons (h : Failed log n i e) (hcall : x.isCall n = false) (hdiscard : x ≠ .discarded)
    (hchange : ∀ next, x ≠ .changed next) : Failed (x :: log) n i e := by
  refine ⟨List.mem_cons_of_mem _ h.called, ?_, h.still.cons hcall hdiscard hchange⟩
  rw [after_cons hcall]
  exact List.mem_cons_of_mem _ h.answered

theorem Replaced.cons (h : Replaced log n i) (hcall : x.isCall n = false) : Replaced (x :: log) n i := by
  obtain ⟨m, j, q, hj, ha⟩ := h
  refine ⟨m, j, q, hj, ?_⟩
  rw [after_cons hcall]
  exact List.mem_cons_of_mem _ ha

/-- A build on record was there before the last note, or the last note is its answer. -/
theorem Built.of_cons (h : Built (x :: log) n i q) :
    x.isCall n = false ∧ x ≠ .discarded ∧
      (Built log n i q ∨ x = .answered n i (.ok q) ∧ .called n i ∈ log ∧ .discarded ∉ after n log) := by
  cases hcall : x.isCall n with
  | true =>
    have ha := h.answered
    rw [after_cons_call hcall] at ha
    cases ha
  | false =>
    have ha := h.answered
    have hk := h.kept
    rw [after_cons hcall, List.mem_cons] at ha hk
    rw [not_or] at hk
    have hc : .called n i ∈ log := by
      rcases List.mem_cons.1 h.called with hx | hc
      · rw [← hx] at hcall
        simp [Note.isCall] at hcall
      · exact hc
    refine ⟨rfl, fun hx => hk.1 hx.symm, ?_⟩
    rcases ha with hx | ha
    · exact .inr ⟨hx.symm, hc, hk.2⟩
    · exact .inl ⟨hc, ha, hk.2⟩

theorem Spared.cons (h : Spared log) (hx : ∀ m i, x = .called m i → ∀ n q, Built log n i q → Replaced log n i) :
    Spared (x :: log) := by
  intro m i l hl
  rcases List.suffix_cons_iff.1 hl with heq | hl
  · obtain ⟨rfl, rfl⟩ := List.cons.inj heq
    exact hx m i rfl
  · exact h m i l hl

theorem Silent.cons (h : Silent log) (hx : .disposed ∈ log → (∀ s, x ≠ .shown s) ∧ ∀ n i, x ≠ .called n i) :
    Silent (x :: log) := by
  intro y l hl hd
  rcases List.suffix_cons_iff.1 hl with heq | hl
  · obtain ⟨rfl, rfl⟩ := List.cons.inj heq
    exact hx hd
  · exact h y l hl hd

/-! ## What is so at every time -/

/-- What a snapshot says is so. -/
structure Shows (mode : QuoteMode) (log : List Note) (s : QuoteSnapshot) : Prop where
  quote : ∀ q, s.quote = some q → ∃ i n, s.inputs = some i ∧ Built log n i q ∧ (mode = .auto → Still n log)
  failure : ∀ f, s.failure = some f → ∃ i n e, s.inputs = some i ∧ Failed log n i e ∧ f = describeQuoteFailure e

/-- A call that is waited for. -/
structure Open (c : Controller) (call : Running) : Prop where
  called : .called call.id call.inputs ∈ c.log
  gen : call.gen ≤ c.generation
  forgets : call.forgets ≤ c.forgetCount
  kept : .discarded ∉ after call.id c.log ↔ call.forgets = c.forgetCount
  current : call.gen = c.generation → c.snap.inputs = some call.inputs ∧ Still call.id c.log

/-- The last build is remembered, unless it was discarded or another one came. -/
def Remembers (last : Option (QuoteInputs × SendQuote)) (log : List Note) : Prop :=
  ∀ n i q, Built log n i q → (∃ q', last = some (i, q')) ∨ Replaced log n i

structure Inv (mode : QuoteMode) (c : Controller) : Prop where
  flight : (c.inFlight = false ∧ c.running = [] ∧ c.inFlightInputs = none) ∨
    (c.inFlight = true ∧ ∃ call, c.running = [call] ∧ c.inFlightInputs = some call.inputs)
  older : ∀ n i, .called n i ∈ c.log → n < c.calls
  opened : ∀ call ∈ c.running, Open c call
  shows : Shows mode c.log c.snap
  last : ∀ i q, c.lastBuild = some (i, q) → ∃ n, Built c.log n i q
  timer : mode = .onRequest → c.timer = none
  room : mode = .onRequest → c.calls + (if c.rerun then 1 else 0) ≤ asked c.log
  remembers : mode = .onRequest → Remembers c.lastBuild c.log
  spared : mode = .onRequest → Spared c.log
  live : c.disposed = false → .disposed ∉ c.log
  silent : Silent c.log

end SendQuotes
