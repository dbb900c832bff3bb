import PwndaWallet.Lib.Trace
import PwndaWallet.Send.OutcomeSound
import PwndaWallet.Xrp.Send

/-!
# What an XRP send says

What a send comes to is compared with what became of its payment in the validated ledgers.
-/

namespace Xrp

open Rust SessionSend Tasks

abbrev History := List (Ev XrpOp.Ans)

/-! ## The ledger and its servers -/

/-- What becomes of the payment with this hash: the validated ledger that it is in, and its result there. -/
abbrev Fate := String → Option (Nat × String)

/-- The ledgers of a window. -/
def Within (minLedger : Option Nat) (maxLedger n : Nat) : Prop := (∀ m ∈ minLedger, m ≤ n) ∧ n ≤ maxLedger

/-- A server answered a lookup of the hash so. -/
inductive Shown (h : History) (hash : String) (r : Json) : Prop
  | tx (url : String) (he : ⟨.tx url hash, .ok r⟩ ∈ h)
  | window (url : String) (minLedger : Option Nat) (maxLedger : Nat)
      (he : ⟨.window url hash minLedger maxLedger, .ok r⟩ ∈ h)

/-- The `result` of an answer. -/
def found (r : Json) : Option Json := prop (some r) "result"

def IsSigned (h : History) (s : Signed) : Prop := ∃ p, (⟨.sign p, .ok s⟩ : Ev XrpOp.Ans) ∈ h

def Submitted (h : History) : Prop := ∃ url blob r, (⟨.submit url blob, r⟩ : Ev XrpOp.Ans) ∈ h

/-- The submit of these bytes was answered by a `tem` result. -/
def Malformed (h : History) (blob : String) : Prop :=
  ∃ url r prelim, (⟨.submit url blob, .ok r⟩ : Ev XrpOp.Ans) ∈ h ∧ engineResult r = .ok prelim ∧
    startsWith prelim "tem" = true

section

variable (env : Library)

/-- What the servers state is true; a payment can only be in the ledgers that are searched for it, and one that is
malformed is in none. -/
structure Truthful (fate : Fate) (h : History) : Prop where
  validated (hash : String) (r : Json) : Shown h hash r → isValidated env (found r) = true →
    ∃ n result, fate hash = some (n, result) ∧
      ∀ s, prop (prop (found r) "meta") "TransactionResult" = some (.str s) → s = result
  searched (url hash : String) (minLedger : Option Nat) (maxLedger : Nat) (e : RequestError) :
    ⟨.window url hash minLedger maxLedger, .error e⟩ ∈ h → isNotFound e = true → searchedAll e = true →
      ∀ n result, fate hash = some (n, result) → ¬ Within minLedger maxLedger n
  bound (url hash : String) (minLedger : Option Nat) (maxLedger n : Nat) (result : String)
    (r : Except RequestError Json) : ⟨.window url hash minLedger maxLedger, r⟩ ∈ h →
      fate hash = some (n, result) → Within minLedger maxLedger n
  malformed (s : Signed) : IsSigned h s → Malformed h s.blob → fate s.hash = none

/-- What the send ends with is as it says. -/
def Ends (fate : Fate) (h : History) : Except SendError String → Prop
  | .ok hash => ∃ s n, IsSigned h s ∧ s.hash = hash ∧ fate hash = some (n, "tesSUCCESS")
  | .error (.refused result hash) =>
    ∃ s n, IsSigned h s ∧ s.hash = hash ∧ fate hash = some (n, result) ∧ result ≠ "tesSUCCESS"
  | .error (.stopped (.malformed _ _)) | .error (.stopped (.expired _ _)) => ∃ s, IsSigned h s ∧ fate s.hash = none
  | .error (.stopped (.outcomeUnknown _ hash)) => Submitted h ∧ ∃ s, IsSigned h s ∧ s.hash = hash
  | .error (.stopped (.plain _)) | .error (.stopped (.final _)) => ¬ Submitted h

def isSigning : Ev XrpOp.Ans → Bool
  | ⟨.sign _, .ok _⟩ => true
  | _ => false

/-- One payment is signed, its bytes only are submitted, and what is said in the end is so. -/
structure Honest (fate : Fate) (h : History) (q : XrpM SendError String) : Prop where
  once : (h.filter isSigning).length ≤ 1
  own (url blob : String) (r : Except RequestError Json) : ⟨.submit url blob, r⟩ ∈ h →
    ∃ s, IsSigned h s ∧ s.blob = blob
  ends (r : Except SendError String) : q = .ofExcept r → Ends fate h r

/-- What is answered is read right: after the signing, the connection is closed without an error; a validated payment
comes with its result; and what the search of the window finds is validated. -/
structure ReadRight (h : History) : Prop where
  closed (pre post : History) (p : Prepared) (s : Signed) (url : String) (e : RequestError) :
    h ≠ pre ++ ⟨.sign p, .ok s⟩ :: ⟨.disconnect url, .error e⟩ :: post
  named (hash : String) (r : Json) : Shown h hash r → isValidated env (found r) = true →
    ∃ s, prop (prop (found r) "meta") "TransactionResult" = some (.str s)
  validated (url hash : String) (minLedger : Option Nat) (maxLedger : Nat) (r : Json) :
    ⟨.window url hash minLedger maxLedger, .ok r⟩ ∈ h → isValidated env (found r) = true

end

/-! ## What is known of a history -/

theorem Shown.append {h : History} {hash : String} {r : Json} (hs : Shown h hash r) (l : History) :
    Shown (h ++ l) hash r := by
  cases hs with
  | tx url he => exact .tx url (List.mem_append_left l he)
  | window url minLedger maxLedger he => exact .window url minLedger maxLedger (List.mem_append_left l he)

theorem IsSigned.append {h : History} {s : Signed} (hs : IsSigned h s) (l : History) : IsSigned (h ++ l) s := by
  obtain ⟨p, he⟩ := hs
  exact ⟨p, List.mem_append_left l he⟩

theorem Submitted.append {h : History} (hs : Submitted h) (l : History) : Submitted (h ++ l) := by
  obtain ⟨url, blob, r, he⟩ := hs
  exact ⟨url, blob, r, List.mem_append_left l he⟩

/-- Every signing was followed at once by a connection that failed to close. -/
def Abandoned (h : History) : Prop :=
  ∀ pre p s post, h = pre ++ ⟨.sign p, .ok s⟩ :: post →
    ∃ url e post', post = ⟨.disconnect url, .error e⟩ :: post'

theorem abandoned_nil : Abandoned [] := by
  intro pre p s post h
  simp at h

theorem Abandoned.snoc {h : History} {e : Ev XrpOp.Ans} (ha : Abandoned h) (he : isSigning e = false) :
    Abandoned (h ++ [e]) := by
  intro pre p s post heq
  rcases List.eq_nil_or_concat post with rfl | ⟨post', last, rfl⟩
  · obtain ⟨-, rfl⟩ := List.append_singleton_inj.1 heq
    cases he
  · rw [List.concat_eq_append, ← List.cons_append, ← List.append_assoc] at heq
    obtain ⟨rfl, rfl⟩ := List.append_singleton_inj.1 heq
    obtain ⟨url, x, post, rfl⟩ := ha pre p s post' rfl
    exact ⟨url, x, post ++ [e], by simp⟩

theorem Abandoned.signed {h : History} (ha : Abandoned h) (p : Prepared) (s : Signed) (url : String)
    (x : RequestError) :
    Abandoned (h ++ [⟨.sign p, .ok s⟩] ++ [⟨.disconnect url, .error x⟩]) := by
  intro pre p' s' post heq
  rcases List.eq_nil_or_concat post with rfl | ⟨post', last, rfl⟩
  · obtain ⟨-, hlast⟩ := List.append_singleton_inj.1 heq
    cases hlast
  · rw [List.concat_eq_append, ← List.cons_append, ← List.append_assoc] at heq
    obtain ⟨hbefore, rfl⟩ := List.append_singleton_inj.1 heq
    rcases List.eq_nil_or_concat post' with rfl | ⟨post'', last', rfl⟩
    · exact ⟨url, x, [], by simp⟩
    · rw [List.concat_eq_append, ← List.cons_append, ← List.append_assoc] at hbefore
      obtain ⟨rfl, rfl⟩ := List.append_singleton_inj.1 hbefore
      obtain ⟨url', x', post, rfl⟩ := ha pre p' s' post'' rfl
      exact ⟨url', x', post ++ [⟨.sign p, .ok s⟩] ++ [⟨.disconnect url, .error x⟩], by simp⟩

def isSubmit : Ev XrpOp.Ans → Bool
  | ⟨.submit _ _, _⟩ => true
  | _ => false

theorem not_submitted_nil : ¬ Submitted [] := by
  rintro ⟨url, blob, r, he⟩
  exact absurd he List.not_mem_nil

theorem not_submitted_snoc {h : History} {e : Ev XrpOp.Ans} (hs : ¬ Submitted h) (he : isSubmit e = false) :
    ¬ Submitted (h ++ [e]) := by
  rintro ⟨url, blob, r, hmem⟩
  rcases List.mem_append.1 hmem with hmem | hmem
  · exact hs ⟨url, blob, r, hmem⟩
  · rw [List.mem_singleton] at hmem
    subst hmem
    cases he

/-- Nothing was submitted, and no payment that was signed is in force. -/
structure Fresh (h : History) : Prop where
  abandoned : Abandoned h
  unsent : ¬ Submitted h

theorem Fresh.snoc {h : History} (hf : Fresh h) {e : Ev XrpOp.Ans} (hsign : isSigning e = false)
    (hsubmit : isSubmit e = false) : Fresh (h ++ [e]) :=
  ⟨hf.abandoned.snoc hsign, not_submitted_snoc hf.unsent hsubmit⟩

theorem Fresh.signed {h : History} (hf : Fresh h) (p : Prepared) (s : Signed) (url : String) (x : RequestError) :
    Fresh (h ++ [⟨.sign p, .ok s⟩] ++ [⟨.disconnect url, .error x⟩]) :=
  ⟨hf.abandoned.signed p s url x, not_submitted_snoc (not_submitted_snoc hf.unsent rfl) rfl⟩

/-- What may be asked, and when: a payment is signed while none is in force, and the bytes of a signed one are
submitted. -/
def May : XrpOp → History → Prop
  | .sign _, h => Abandoned h
  | .submit _ blob, h => ∃ s, IsSigned h s ∧ s.blob = blob
  | _, _ => True

/-! ## One server after the other -/

section

variable {α : Type} {fn : String → XrpM ClientError α} {J : Bool → History → Prop}
    {Q : Except ClientError α → History → Prop}
  {R : Except (ClientError × Bool) α → History → Prop}

/-- `withClient` ends as `fn` does on one of the servers, or with the last error. -/
theorem safe_withClient (hconnect : ∀ b url x h, J b h → J b (h ++ [⟨.connect url, x⟩]))
    (hfn : ∀ b url h, J b h → Safe (.hist May) (fn url) Q h)
    (hfailed : ∀ url x r h, Q r h → J true (h ++ [⟨.disconnect url, .error x⟩]))
    (hnext : ∀ url e h, e.isFinal = false → Q (.error e) h → J true (h ++ [⟨.disconnect url, .ok ()⟩]))
    (hdone : ∀ url a h, Q (.ok a) h → R (.ok a) (h ++ [⟨.disconnect url, .ok ()⟩]))
    (hfinal : ∀ url e h, e.isFinal = true → Q (.error e) h → R (.error (e, true)) (h ++ [⟨.disconnect url, .ok ()⟩]))
    (hend : ∀ e b h, e.isFinal = false → J b h → R (.error (e, b)) h) (urls : List String) (e : ClientError)
    (b : Bool)
    (he : e.isFinal = false) {h : History} (hj : J b h) : Safe (.hist May) (withClient fn urls e b) R h := by
  induction urls generalizing e b h with
  | nil => exact safe_fail.2 (hend e b h he hj)
  | cons url rest ih =>
    rw [withClient]
    refine safe_call_hist.2 ⟨trivial, fun x => ?_⟩
    cases x with
    | error x => exact ih (.plain x.text) b rfl (hconnect b url (.error x) h hj)
    | ok _ =>
      refine Safe.handle ((hfn b url _ (hconnect b url (.ok ()) h hj)).mono fun r h' hr => ?_)
      refine safe_call_hist.2 ⟨trivial, fun x => ?_⟩
      cases x with
      | error x => exact ih (.plain x.text) true rfl (hfailed url x r h' hr)
      | ok _ =>
        cases r with
        | ok a => exact safe_ret.2 (hdone url a h' hr)
        | error e' =>
          by_cases hf : e'.isFinal = true
          · simp only [hf, if_true]
            exact safe_fail.2 (hfinal url e' h' hf hr)
          · simp only [hf]
            have hplain : e'.isFinal = false := Bool.not_eq_true _ ▸ hf
            exact ih e' true hplain (hnext url e' h' hplain hr)

end

/-! ## Preparing and signing -/

/-- The errors from before the submit. -/
def Early : ClientError → Prop
  | .plain _ | .final _ => True
  | .malformed _ _ | .expired _ _ | .outcomeUnknown _ _ => False

/-- Where this fails, it fails with an error from before the submit. -/
def StopsEarly {β : Type} (x : Except ClientError β) : Prop := ∀ e, x = .error e → Early e

section

variable {β γ : Type}

theorem stopsEarly_ok (b : β) : StopsEarly (.ok b) := by
  intro e he
  cases he

theorem stopsEarly_error {e : ClientError} (h : Early e) : StopsEarly (.error e : Except ClientError β) := by
  intro e' he
  exact Except.error.inj he ▸ h

theorem StopsEarly.bind {x : Except ClientError β} {f : β → Except ClientError γ} (hx : StopsEarly x)
    (hf : ∀ b, StopsEarly (f b)) : StopsEarly (x >>= f) := by
  cases x with
  | ok b => exact hf b
  | error e => exact stopsEarly_error (hx e rfl)

theorem StopsEarly.ite {c : Prop} [Decidable c] {x y : Except ClientError β} (hx : StopsEarly x) (hy : StopsEarly y) :
    StopsEarly (if c then x else y) := by
  split
  · exact hx
  · exact hy

theorem stopsEarly_mapError {ε : Type} {x : Except ε β} {f : ε → ClientError} (hf : ∀ e, Early (f e)) :
    StopsEarly (x.mapError f) := by
  cases x with
  | ok b => exact stopsEarly_ok b
  | error e => exact stopsEarly_error (hf e)

end

theorem stopsEarly_plainly {β : Type} (r : Except RequestError β) : StopsEarly (plainly r) :=
  stopsEarly_mapError fun _ => trivial

theorem stopsEarly_checkPrepared (order : Order) (costs : XrpLedgerCosts) (sender : XrpAccount)
    (recipient : Option XrpAccount) (prepared : Prepared) :
    StopsEarly (checkPrepared order costs sender recipient prepared) := by
  unfold checkPrepared
  refine .bind ?_ fun fee => ?_
  · unfold feeOf
    cases Js.bigInt (prepared.fee.getD "0") with
    | some fee => exact stopsEarly_ok fee
    | none => exact stopsEarly_error trivial
  refine .ite (stopsEarly_error trivial) (.ite (stopsEarly_error trivial) (.ite (stopsEarly_error trivial) ?_))
  cases prepared.lastLedgerSequence with
  | some lastLedger => exact stopsEarly_ok lastLedger
  | none => exact stopsEarly_error trivial

/-- What a server is left with: a payment that was signed last, or nothing. -/
def Drafted : Except ClientError (Signed × Option Nat × Nat) → History → Prop
  | .ok (s, _, _), h => ∃ pre p, h = pre ++ [⟨.sign p, .ok s⟩] ∧ Fresh pre
  | .error e, h => Early e ∧ Fresh h

theorem safe_prepareOn (order : Order) (url : String) {h : History} (hf : Fresh h) :
    Safe (.hist May) (prepareOn order url) Drafted h := by
  unfold prepareOn
  refine safe_next_hist trivial (fun r e he => ⟨stopsEarly_plainly r e he, hf.snoc rfl rfl⟩)
    fun accounts found _ => ?_
  have h₁ : Fresh (h ++ [⟨.accounts url order.account order.destination, accounts⟩]) := hf.snoc rfl rfl
  refine Safe.orFail_bind (fun _ => ⟨trivial, h₁⟩) fun sender _ => ?_
  refine safe_next_hist trivial (fun r e he => ⟨stopsEarly_plainly r e he, h₁.snoc rfl rfl⟩)
    fun ledger firstLedger _ => ?_
  have h₂ := h₁.snoc (e := ⟨.ledgerIndex url, ledger⟩) rfl rfl
  refine safe_next_hist trivial (fun r e he => ⟨stopsEarly_plainly r e he, h₂.snoc rfl rfl⟩)
    fun filled prepared _ => ?_
  have h₃ := h₂.snoc (e := ⟨.autofill url (paymentOf order found.costs), filled⟩) rfl rfl
  refine Safe.ofExcept_bind (fun e he => ⟨stopsEarly_checkPrepared _ _ _ _ _ e he, h₃⟩) fun lastLedger _ => ?_
  refine safe_next_hist h₃.abandoned (fun r e he => ⟨stopsEarly_plainly r e he, ?_⟩) fun signed s hs => ?_
  · cases r with
    | ok s => cases he
    | error x => exact h₃.snoc rfl rfl
  · cases signed with
    | error x => cases hs
    | ok s' =>
      obtain rfl := Except.ok.inj hs
      exact safe_ret.2 ⟨_, prepared, rfl, h₃⟩

/-- The preparation ends with a signed payment and nothing submitted. -/
def Ready : Except (ClientError × Bool) (Signed × Option Nat × Nat) → History → Prop
  | .ok (s, _, _), h => IsSigned h s ∧ ¬ Submitted h
  | .error (e, _), h => Early e ∧ ¬ Submitted h

theorem early_of_not_final {e : ClientError} (h : e.isFinal = false) : Early e := by
  cases e with
  | plain text => trivial
  | _ => cases h

theorem safe_prepare (order : Order) {h : History} (hf : Fresh h) :
    Safe (.hist May) (withClient (prepareOn order) XRP_RPC_URLS (.plain "undefined") false) Ready h := by
  refine safe_withClient (J := fun _ => Fresh) (Q := Drafted) (fun _ _ _ _ hf => hf.snoc rfl rfl)
    (fun _ url _ hf => safe_prepareOn order url hf) ?_ (fun _ _ _ _ hq => hq.2.snoc rfl rfl) ?_
    (fun _ _ _ _ hq => ⟨hq.1, (hq.2.snoc rfl rfl).unsent⟩) (fun _ _ _ he hf => ⟨early_of_not_final he, hf.unsent⟩)
    XRP_RPC_URLS (.plain "undefined") false rfl hf
  · intro url x r h hq
    cases r with
    | error e => exact hq.2.snoc rfl rfl
    | ok a =>
      obtain ⟨pre, p, rfl, hpre⟩ := hq
      exact hpre.signed p a.1 url x
  · rintro url ⟨s, window⟩ h ⟨pre, p, rfl, hpre⟩
    refine ⟨⟨p, by simp⟩, not_submitted_snoc (not_submitted_snoc hpre.unsent rfl) rfl⟩

/-! ## Submitting and waiting -/

section

variable (env : Library) (signed : Signed)

/-- The search of the window found no validated payment: the server looked everywhere, or it found the payment. -/
def Unfound (h : History) : Prop :=
  ∃ url minLedger maxLedger r, (⟨.window url signed.hash minLedger maxLedger, r⟩ : Ev XrpOp.Ans) ∈ h ∧
    ((∃ e, r = .error e ∧ isNotFound e = true ∧ searchedAll e = true) ∨
      ∃ j, r = .ok j ∧ isValidated env (found j) = false)

/-- What the end of `confirmOn` goes back to. -/
def Confirmed : Except ClientError String → History → Prop
  | .ok result, h => ∃ r, Shown h signed.hash r ∧ isValidated env (found r) = true ∧ resultOf env (found r) = result
  | .error (.malformed _ _), h => Malformed h signed.blob
  | .error (.expired _ _), h => Unfound env signed h
  | .error (.outcomeUnknown _ hash), _ => hash = signed.hash
  | .error (.plain _), _ => True
  | .error (.final _), _ => False

/-- The payment is signed, and a submit was sent. -/
structure Sent (h : History) : Prop where
  isSigned : IsSigned h signed
  submitted : Submitted h

/-- `confirmOn` has ended, in this way. -/
structure Sending (r : Except ClientError String) (h : History) : Prop where
  sent : Sent signed h
  confirmed : Confirmed env signed r h

end

section

variable {env : Library} {signed : Signed} {h : History}

theorem Sent.append (hs : Sent signed h) (l : History) : Sent signed (h ++ l) :=
  ⟨hs.isSigned.append l, hs.submitted.append l⟩

theorem isValidated_none : isValidated env none = false := rfl

theorem readLookup_ok {r : Except RequestError Json} {x : Option Json} (hr : readLookup r = .ok x)
    (hv : isValidated env x = true) : ∃ j, r = .ok j ∧ found j = x := by
  cases r with
  | ok j => exact ⟨j, rfl, Except.ok.inj hr⟩
  | error e =>
    rw [readLookup] at hr
    split at hr
    · rw [← Except.ok.inj hr, isValidated_none] at hv
      cases hv
    · cases hr

theorem readLookup_plain {r : Except RequestError Json} {e : ClientError} (hr : readLookup r = .error e) :
    ∃ text, e = .plain text := by
  cases r with
  | ok j => cases hr
  | error x =>
    rw [readLookup] at hr
    split at hr
    · cases hr
    · exact ⟨x.text, (Except.error.inj hr).symm⟩

theorem readWindow_plain {r : Except RequestError Json} {e : ClientError} (hr : readWindow r = .error e) :
    ∃ text, e = .plain text := by
  cases r with
  | ok j => cases hr
  | error x =>
    rw [readWindow] at hr
    split at hr
    · cases hr
    · exact ⟨x.text, (Except.error.inj hr).symm⟩

theorem plainly_plain {β : Type} {r : Except RequestError β} {e : ClientError} (hr : plainly r = .error e) :
    ∃ text, e = .plain text := by
  cases r with
  | ok a => cases hr
  | error x => exact ⟨x.text, (Except.error.inj hr).symm⟩

/-- What the search of the window is read as. -/
theorem readWindow_ok {r : Except RequestError Json} {last : Option Json × Bool} (hr : readWindow r = .ok last) :
    (∃ j, r = .ok j ∧ last = (found j, true)) ∨
      ∃ e, r = .error e ∧ isNotFound e = true ∧ last = (none, searchedAll e) := by
  cases r with
  | ok j => exact .inl ⟨j, rfl, (Except.ok.inj hr).symm⟩
  | error e =>
    rw [readWindow] at hr
    by_cases hnot : isNotFound e = true
    · rw [if_pos hnot] at hr
      exact .inr ⟨e, rfl, hnot, (Except.ok.inj hr).symm⟩
    · rw [if_neg hnot] at hr
      cases hr

theorem confirmed_plain {e : ClientError} (he : ∃ text, e = .plain text) : Confirmed env signed (.error e) h := by
  obtain ⟨text, rfl⟩ := he
  trivial

theorem safe_pollRounds (url : String) (firstLedger : Option Nat) (lastLedger : Nat) (prelim : String)
    (deadline : Int)
    (rounds : Nat) (hs : Sent signed h) :
    Safe (.hist May) (pollRounds env url signed.hash firstLedger lastLedger prelim deadline rounds)
      (Sending env signed) h := by
  induction rounds generalizing h with
  | zero => exact safe_cut.2 trivial
  | succ rounds ih =>
    rw [pollRounds]
    refine safe_next_hist trivial (fun r e he => ⟨hs.append _, confirmed_plain (readLookup_plain he)⟩)
      fun looked x hx => ?_
    have h₁ := hs.append [⟨.tx url signed.hash, looked⟩]
    by_cases hv : isValidated env x = true
    · rw [if_pos hv]
      obtain ⟨j, rfl, rfl⟩ := readLookup_ok hx hv
      exact safe_ret.2 ⟨h₁, j, .tx url (by simp), hv, rfl⟩
    rw [if_neg hv]
    refine safe_next_hist trivial (fun r e he => ⟨h₁.append _, confirmed_plain (plainly_plain he)⟩)
      fun ledger latest _ => ?_
    have h₂ := h₁.append [⟨.ledgerIndex url, ledger⟩]
    by_cases hpast : latest.any (lastLedger < ·) = true
    · rw [if_pos hpast]
      refine safe_next_hist trivial (fun r e he => ⟨h₂.append _, confirmed_plain (readWindow_plain he)⟩)
        fun searched last hlast => ?_
      have h₃ := h₂.append [⟨.window url signed.hash firstLedger lastLedger, searched⟩]
      by_cases hv' : isValidated env last.1 = true
      · rw [if_pos hv']
        rcases readWindow_ok hlast with ⟨j, rfl, rfl⟩ | ⟨e, rfl, -, rfl⟩
        · exact safe_ret.2 ⟨h₃, j, .window url firstLedger lastLedger (by simp), hv', rfl⟩
        · cases hv'
      rw [if_neg hv']
      by_cases hall : (!last.2) = true
      · rw [if_pos hall]
        exact safe_fail.2 ⟨h₃, rfl⟩
      rw [if_neg hall]
      refine safe_fail.2 ⟨h₃, url, firstLedger, lastLedger, searched, by simp, ?_⟩
      rcases readWindow_ok hlast with ⟨j, rfl, rfl⟩ | ⟨e, rfl, hnot, rfl⟩
      · exact .inr ⟨j, rfl, Bool.not_eq_true _ ▸ hv'⟩
      · exact .inl ⟨e, rfl, hnot, by simpa using hall⟩
    rw [if_neg hpast]
    refine safe_ask_hist trivial fun now => ?_
    by_cases hlate : now > deadline
    · rw [if_pos hlate]
      exact safe_fail.2 ⟨h₂.append _, rfl⟩
    · rw [if_neg hlate]
      exact ih (h₂.append _)

theorem engineResult_plain {sub : Json} {e : ClientError} (h : engineResult sub = .error e) :
    ∃ text, e = .plain text := by
  rw [engineResult] at h
  split at h
  · cases h
  · cases h
  · exact ⟨_, (Except.error.inj h).symm⟩

theorem sent_snoc (hsigned : IsSigned h signed) (url blob : String) (r : Except RequestError Json) :
    Sent signed (h ++ [⟨.submit url blob, r⟩]) :=
  ⟨hsigned.append _, url, blob, r, by simp⟩

theorem safe_confirmOn (firstLedger : Option Nat) (lastLedger rounds : Nat) (url : String)
    (hsigned : IsSigned h signed) :
    Safe (.hist May) (confirmOn env signed firstLedger lastLedger rounds url) (Sending env signed) h := by
  unfold confirmOn
  refine safe_next_hist ⟨signed, hsigned, rfl⟩
    (fun r e he => ⟨sent_snoc hsigned url _ r, confirmed_plain (plainly_plain he)⟩) fun answer sub hsub => ?_
  have hsent : Sent signed (h ++ [⟨.submit url signed.blob, answer⟩]) := sent_snoc hsigned url _ answer
  refine Safe.ofExcept_bind (fun e he => ⟨hsent, confirmed_plain (engineResult_plain he)⟩) fun prelim hprelim => ?_
  by_cases htem : startsWith prelim "tem" = true
  · rw [if_pos htem]
    cases answer with
    | error x => cases hsub
    | ok sub' =>
      obtain rfl := Except.ok.inj hsub
      exact safe_fail.2 ⟨hsent, url, sub', prelim, by simp, hprelim, htem⟩
  · rw [if_neg htem]
    refine safe_ask_hist trivial fun now => ?_
    exact safe_pollRounds url firstLedger lastLedger prelim (now + 120000) rounds (hsent.append _)

/-- Before a server is connected to, nothing was submitted. -/
structure Trying (signed : Signed) (begun : Bool) (h : History) : Prop where
  isSigned : IsSigned h signed
  submitted : Submitted h ↔ begun = true

theorem Trying.snoc {begun : Bool} (ht : Trying signed begun h) {e : Ev XrpOp.Ans} (he : isSubmit e = false) :
    Trying signed begun (h ++ [e]) := by
  refine ⟨ht.isSigned.append _, fun hs => ?_, fun hb => (ht.submitted.2 hb).append _⟩
  by_cases hb : Submitted h
  · exact ht.submitted.1 hb
  · exact absurd hs (not_submitted_snoc hb he)

theorem Sent.trying (hs : Sent signed h) : Trying signed true h := ⟨hs.isSigned, fun _ => rfl, fun _ => hs.submitted⟩

theorem Confirmed.append {r : Except ClientError String} (hc : Confirmed env signed r h) (l : History) :
    Confirmed env signed r (h ++ l) := by
  cases r with
  | ok result =>
    obtain ⟨j, hshown, hj⟩ := hc
    exact ⟨j, hshown.append l, hj⟩
  | error e =>
    cases e with
    | plain text => trivial
    | final text => exact hc
    | malformed prelim message =>
      obtain ⟨url, r, prelim', he, hr⟩ := hc
      exact ⟨url, r, prelim', List.mem_append_left l he, hr⟩
    | expired lastLedger prelim =>
      obtain ⟨url, first, last, r, he, hr⟩ := hc
      exact ⟨url, first, last, r, List.mem_append_left l he, hr⟩
    | outcomeUnknown message hash => exact hc

/-- What `submitAndConfirm` ends with: where it is an ordinary error, nothing was submitted. -/
def Settled (env : Library) (signed : Signed) : Except ClientError String → History → Prop
  | .error (.plain _), h => ¬ Submitted h
  | r, h => Sent signed h ∧ Confirmed env signed r h

theorem safe_submitAndConfirm (firstLedger : Option Nat) (lastLedger rounds : Nat) (hsigned : IsSigned h signed)
    (hunsent : ¬ Submitted h) :
    Safe (.hist May) (submitAndConfirm env signed firstLedger lastLedger rounds) (Settled env signed) h := by
  refine Safe.mapErr (safe_withClient (J := Trying signed) (Q := Sending env signed) (fun _ _ _ _ ht => ht.snoc rfl)
    (fun _ url _ ht => safe_confirmOn firstLedger lastLedger rounds url ht.isSigned)
    (fun _ _ _ _ hq => (hq.sent.append _).trying) (fun _ _ _ _ hq => (hq.sent.append _).trying)
    (fun _ _ _ hq => ⟨hq.sent.append _, hq.confirmed.append _⟩) ?_ ?_ XRP_RPC_URLS (.plain "undefined") false rfl
    ⟨hsigned, fun hs => absurd hs hunsent, fun hb => by cases hb⟩)
  · intro url e h hf hq
    have hsent := hq.sent.append [⟨.disconnect url, .ok ()⟩]
    have hc := hq.confirmed.append [⟨.disconnect url, .ok ()⟩]
    cases e with
    | plain text => cases hf
    | _ => exact ⟨hsent, hc⟩
  · intro e b h hf ht
    cases e with
    | plain text =>
      cases b with
      | true => exact ⟨⟨ht.isSigned, ht.submitted.2 rfl⟩, rfl⟩
      | false => exact fun hs => by cases ht.submitted.1 hs
    | _ => cases hf

end

/-! ## The send -/

section

variable {env : Library} {h : History}

theorem stopsEarly_checkTag (t : Option Rat) : StopsEarly (checkTag t) := by
  cases t with
  | none => exact stopsEarly_ok none
  | some t => exact .ite (stopsEarly_ok _) (stopsEarly_error trivial)

theorem stopsEarly_parseXrpRecipient (to_ : String) (tag : Option Nat) :
    StopsEarly (parseXrpRecipient env to_ tag) := by
  unfold parseXrpRecipient
  refine .ite ?_ (.ite (stopsEarly_error trivial) (stopsEarly_ok _))
  cases env.xAddressToClassicAddress (String.ofList (Js.trim to_.toList)) with
  | error e => exact stopsEarly_error trivial
  | ok x =>
    obtain ⟨classicAddress, embedded, test⟩ := x
    refine .ite (stopsEarly_error trivial) ?_
    cases embedded with
    | none => exact stopsEarly_ok _
    | some carried =>
      cases tag with
      | none => exact stopsEarly_ok _
      | some typed => exact .ite (stopsEarly_error trivial) (stopsEarly_ok _)

theorem stopsEarly_dropsOf (amount : String) : StopsEarly (dropsOf env amount) := by
  simp only [dropsOf]
  split
  · exact stopsEarly_error trivial
  · exact .ite (stopsEarly_error trivial) (stopsEarly_ok _)

theorem stopsEarly_checkOrder (privateKey to_ amount : String) (tag : Option Rat) :
    StopsEarly (checkOrder env privateKey to_ amount tag) := by
  unfold checkOrder
  refine .bind (stopsEarly_mapError fun _ => trivial) fun account => ?_
  refine .bind (stopsEarly_checkTag tag) fun typed => ?_
  refine .bind (stopsEarly_parseXrpRecipient to_ typed) fun p => ?_
  refine .ite (stopsEarly_error trivial) ?_
  exact .bind (stopsEarly_dropsOf amount) fun drops => stopsEarly_ok _

/-- What a send goes back to. -/
def Finished (env : Library) : Except SendError String → History → Prop
  | .ok hash, h => ∃ s, IsSigned h s ∧ s.hash = hash ∧ Confirmed env s (.ok "tesSUCCESS") h
  | .error (.refused result hash), h =>
    ∃ s, IsSigned h s ∧ s.hash = hash ∧ Confirmed env s (.ok result) h ∧ result ≠ "tesSUCCESS"
  | .error (.stopped e), h =>
    (Early e ∧ ¬ Submitted h) ∨ (¬ Early e ∧ ∃ s, Sent s h ∧ Confirmed env s (.error e) h)

theorem finished_of_settled {s : Signed} {e : ClientError} (hs : Settled env s (.error e) h) :
    Finished env (.error (.stopped e)) h := by
  cases e with
  | plain text => exact .inl ⟨trivial, hs⟩
  | final text => exact hs.2.elim
  | _ => exact .inr ⟨id, s, hs⟩

theorem safe_sendTransaction (privateKey to_ amount : String) (tag : Option Rat) (rounds : Nat) :
    Safe (.hist May) (sendTransaction env privateKey to_ amount tag rounds) (Finished env) [] := by
  unfold sendTransaction
  refine Safe.ofExcept_bind (fun e he => ?_) fun order _ => ?_
  · cases hcheck : checkOrder env privateKey to_ amount tag with
    | ok order =>
      rw [hcheck] at he
      cases he
    | error x =>
      rw [hcheck] at he
      obtain rfl := Except.error.inj he
      exact .inl ⟨stopsEarly_checkOrder privateKey to_ amount tag x hcheck, not_submitted_nil⟩
  refine Safe.bind (Safe.mapErr ((safe_prepare order ⟨abandoned_nil, not_submitted_nil⟩).mono fun r h hr => ?_))
  cases r with
  | error e => exact .inl hr
  | ok p =>
    obtain ⟨s, firstLedger, lastLedger⟩ := p
    refine Safe.bind (Safe.mapErr ((safe_submitAndConfirm firstLedger lastLedger rounds hr.1 hr.2).mono
      fun r h hr => ?_))
    cases r with
    | error e => exact finished_of_settled hr
    | ok result =>
      obtain ⟨hsent, hc⟩ := hr
      refine Safe.ite (fun hresult => safe_fail.2 ⟨s, hsent.isSigned, rfl, hc, hresult⟩) fun hresult => ?_
      obtain rfl := Classical.not_not.1 hresult
      exact safe_ret.2 ⟨s, hsent.isSigned, rfl, hc⟩

/-- What was confirmed is so, with answers that are read right. -/
theorem Confirmed.fate {fate : Fate} {s : Signed} {result : String} (hc : Confirmed env s (.ok result) h)
    (hworld : Truthful env fate h) (hread : ReadRight env h) : ∃ n, fate s.hash = some (n, result) := by
  obtain ⟨r, hshown, hv, rfl⟩ := hc
  obtain ⟨n, result, hfate, hsame⟩ := hworld.validated s.hash r hshown hv
  obtain ⟨text, hnamed⟩ := hread.named s.hash r hshown hv
  refine ⟨n, ?_⟩
  rw [hfate, resultOf, hnamed, textOf, hsame text hnamed]

theorem Unfound.fate {fate : Fate} {s : Signed} (hu : Unfound env s h) (hworld : Truthful env fate h)
    (hread : ReadRight env h) : fate s.hash = none := by
  obtain ⟨url, minLedger, maxLedger, r, he, ⟨x, rfl, hnot, hall⟩ | ⟨j, rfl, hv⟩⟩ := hu
  · cases hfate : fate s.hash with
    | none => rfl
    | some p =>
      obtain ⟨n, result⟩ := p
      exact absurd (hworld.bound url s.hash minLedger maxLedger n result _ he hfate)
        (hworld.searched url s.hash minLedger maxLedger x he hnot hall n result hfate)
  · rw [hread.validated url s.hash minLedger maxLedger j he] at hv
    cases hv

theorem Finished.ends {fate : Fate} {r : Except SendError String} (hf : Finished env r h)
    (hworld : Truthful env fate h) (hread : ReadRight env h) : Ends fate h r := by
  cases r with
  | ok hash =>
    obtain ⟨s, hsigned, rfl, hc⟩ := hf
    obtain ⟨n, hfate⟩ := hc.fate hworld hread
    exact ⟨s, n, hsigned, rfl, hfate⟩
  | error e =>
    cases e with
    | refused result hash =>
      obtain ⟨s, hsigned, rfl, hc, hne⟩ := hf
      obtain ⟨n, hfate⟩ := hc.fate hworld hread
      exact ⟨s, n, hsigned, rfl, hfate, hne⟩
    | stopped e =>
      rcases hf with ⟨hearly, hunsent⟩ | ⟨hlate, s, hsent, hc⟩
      · cases e with
        | plain text => exact hunsent
        | final text => exact hunsent
        | _ => exact hearly.elim
      · cases e with
        | plain text => exact absurd trivial hlate
        | final text => exact absurd trivial hlate
        | malformed prelim message => exact ⟨s, hsent.isSigned, hworld.malformed s hsent.isSigned hc⟩
        | expired lastLedger prelim => exact ⟨s, hsent.isSigned, Unfound.fate hc hworld hread⟩
        | outcomeUnknown message hash => exact ⟨hsent.submitted, s, hsent.isSigned, hc.symm⟩

/-- Two signings are one too many: the first is followed at once by a connection that failed to close. -/
theorem one_signing {p q : XrpM SendError String} {Q : Except SendError String → History → Prop}
    (hsafe : Safe (.hist May) p Q []) (hrun : p.Run h q) (hread : ReadRight env h) :
    (h.filter isSigning).length ≤ 1 := by
  rcases hsigned : h.filter isSigning with - | ⟨a, - | ⟨b, rest⟩⟩
  · exact Nat.zero_le 1
  · exact Nat.le_refl 1
  · obtain ⟨pre, mid, rfl, -, ha, hrest⟩ := List.filter_eq_cons_iff.1 hsigned
    obtain ⟨mid, post, rfl, -, hb, -⟩ := List.filter_eq_cons_iff.1 hrest
    have hsplit : pre ++ a :: (mid ++ b :: post) = (pre ++ a :: mid) ++ b :: post := by simp
    have hmust : May b.op (pre ++ a :: mid) := must_of_mem hsafe hrun hsplit
    obtain ⟨p₁, s₁, rfl⟩ : ∃ p s, a = ⟨.sign p, .ok s⟩ := by
      unfold isSigning at ha
      split at ha
      · exact ⟨_, _, rfl⟩
      · cases ha
    obtain ⟨p₂, s₂, rfl⟩ : ∃ p s, b = ⟨.sign p, .ok s⟩ := by
      unfold isSigning at hb
      split at hb
      · exact ⟨_, _, rfl⟩
      · cases hb
    obtain ⟨url, e, mid', rfl⟩ := hmust pre p₁ s₁ mid rfl
    exact absurd (by simp) (hread.closed pre (mid' ++ ⟨.sign p₂, .ok s₂⟩ :: post) p₁ s₁ url e)

/-- In every run whose answers are read right, one payment is signed, only its bytes are submitted, and what the send
ends with is so. -/
theorem xrp_send_honest (env : Library) (privateKey to_ amount : String) (tag : Option Rat) (rounds : Nat)
    (fate : Fate)
    {h : History} {q : XrpM SendError String} (hrun : (sendTransaction env privateKey to_ amount tag rounds).Run h q)
    (hworld : Truthful env fate h) (hread : ReadRight env h) : Honest fate h q := by
  have hsafe := @safe_sendTransaction env privateKey to_ amount tag rounds
  refine ⟨one_signing hsafe hrun hread, fun url blob r he => ?_, fun r hr => ?_⟩
  · obtain ⟨pre, post, rfl⟩ := List.append_of_mem he
    obtain ⟨s, hsigned, hblob⟩ : May (.submit url blob) pre := must_of_mem hsafe hrun rfl
    exact ⟨s, hsigned.append _, hblob⟩
  · subst hr
    have hend := safe_of_run hsafe hrun
    rw [List.nil_append] at hend
    have hfinished : Finished env r h := by
      cases r with
      | ok hash => exact safe_ret.1 hend
      | error e => exact safe_fail.1 hend
    exact hfinished.ends hworld hread

/-! ### A payment that is found without its ledger -/

def sampleLibrary : Library where
  toEnv := SessionSend.sampleEnv
  classicAddressOf _ := .ok "rSender"
  isValidXAddress _ := false
  xAddressToClassicAddress _ := .error "not an X-address"
  isValidClassicAddress _ := true
  xrpToDrops _ := .ok "1000000"

def notFound : RequestError := ⟨"Transaction not found.", some (.obj [("error", .str "txnNotFound")])⟩

/-- The payment, as a lookup shows it once it is validated. -/
def validatedPayment : Json :=
  .obj [("result", .obj [("validated", .bool true), ("meta", .obj [("TransactionResult", .str "tesSUCCESS")])])]

/-- The payment as a server shows it that leaves out whether it is validated. -/
def bareResult : Json := .obj [("result", .obj [])]

/-- The ledger goes past the payment's last one while the send waits. -/
def sampleAnswers (looked : Except RequestError Json) (n : Nat) : (o : XrpOp) → o.Ans
  | .connect _ => .ok ()
  | .disconnect _ => .ok ()
  | .accounts _ _ _ => .ok ⟨⟨1000000, 200000, 12⟩, some ⟨50000000, 0, 0⟩, some ⟨50000000, 0, 0⟩⟩
  | .ledgerIndex _ => .ok (some (if n < 6 then 100 else 121))
  | .autofill _ payment => .ok ⟨payment, some "12", some 120⟩
  | .sign _ => .ok ⟨"blob", "HASH"⟩
  | .submit _ _ => .ok (.obj [])
  | .tx _ _ => looked
  | .window _ _ _ _ => .ok bareResult
  | .now => 0

def sampleSend : XrpM SendError String := sendTransaction sampleLibrary "key" "rReceiver" "1" none 1

def sampleHistory (looked : Except RequestError Json) (n : Nat) : History :=
  Prog.fed (sampleAnswers looked) sampleSend n

/-- What is asked and answered in the sample, as far as it matters. -/
def AsSample (looked : Except RequestError Json) : Ev XrpOp.Ans → Prop
  | ⟨.disconnect _, r⟩ => r = .ok ()
  | ⟨.submit _ _, r⟩ => r = .ok (.obj [])
  | ⟨.tx _ _, r⟩ => r = looked
  | ⟨.window _ _ minLedger maxLedger, r⟩ =>
    looked = .error notFound ∧ minLedger = some 100 ∧ maxLedger = 120 ∧ r = .ok bareResult
  | _ => True

theorem sampleHistory_succeeds :
    ∀ e ∈ sampleHistory (.ok validatedPayment) 11, AsSample (.ok validatedPayment) e := by
  refine List.forall_mem_cons.2 ⟨trivial, List.forall_mem_cons.2 ⟨trivial, List.forall_mem_cons.2 ⟨trivial,
    List.forall_mem_cons.2 ⟨trivial, List.forall_mem_cons.2 ⟨trivial, List.forall_mem_cons.2 ⟨rfl,
    List.forall_mem_cons.2 ⟨trivial, List.forall_mem_cons.2 ⟨rfl, List.forall_mem_cons.2 ⟨trivial,
    List.forall_mem_cons.2 ⟨rfl, List.forall_mem_cons.2 ⟨rfl, ?_⟩⟩⟩⟩⟩⟩⟩⟩⟩⟩⟩
  exact List.forall_mem_nil _

theorem sampleHistory_expires :
    ∀ e ∈ sampleHistory (.error notFound) 13, AsSample (.error notFound) e := by
  refine List.forall_mem_cons.2 ⟨trivial, List.forall_mem_cons.2 ⟨trivial, List.forall_mem_cons.2 ⟨trivial,
    List.forall_mem_cons.2 ⟨trivial, List.forall_mem_cons.2 ⟨trivial, List.forall_mem_cons.2 ⟨rfl,
    List.forall_mem_cons.2 ⟨trivial, List.forall_mem_cons.2 ⟨rfl, List.forall_mem_cons.2 ⟨trivial,
    List.forall_mem_cons.2 ⟨rfl, List.forall_mem_cons.2 ⟨trivial, List.forall_mem_cons.2 ⟨⟨rfl, rfl, rfl, rfl⟩,
    List.forall_mem_cons.2 ⟨rfl, ?_⟩⟩⟩⟩⟩⟩⟩⟩⟩⟩⟩⟩⟩
  exact List.forall_mem_nil _

/-- The payment is in ledger 110, whatever the servers say. -/
def sampleFate : Fate := fun _ => some (110, "tesSUCCESS")

theorem truthful_sample {looked : Except RequestError Json} {h : History} (hh : ∀ e ∈ h, AsSample looked e)
    (hlooked : looked = .ok validatedPayment ∨ looked = .error notFound) : Truthful sampleLibrary sampleFate h where
  validated hash r hshown hv := by
    refine ⟨110, "tesSUCCESS", rfl, fun s hs => ?_⟩
    cases hshown with
    | tx url he =>
      have hr : Except.ok r = looked := hh _ he
      rcases hlooked with rfl | rfl
      · obtain rfl := Except.ok.inj hr
        exact (Json.str.inj (Option.some.inj hs)).symm
      · cases hr
    | window url minLedger maxLedger he =>
      obtain ⟨-, -, -, hr⟩ := hh _ he
      obtain rfl := Except.ok.inj hr
      cases hs
  searched url hash minLedger maxLedger e he _ _ := by
    obtain ⟨-, -, -, hr⟩ := hh _ he
    cases hr
  bound url hash minLedger maxLedger n result r he hfate := by
    obtain ⟨-, rfl, rfl, -⟩ := hh _ he
    obtain ⟨rfl, -⟩ := Prod.mk.inj (Option.some.inj hfate)
    exact ⟨fun m hm => by cases hm; decide, by decide⟩
  malformed s _ hm := by
    obtain ⟨url, r, prelim, he, hprelim, htem⟩ := hm
    obtain rfl : r = .obj [] := Except.ok.inj (hh _ he)
    obtain rfl : "" = prelim := Except.ok.inj hprelim
    exact absurd htem (by decide)

theorem readRight_sample {h : History} (hh : ∀ e ∈ h, AsSample (.ok validatedPayment) e) :
    ReadRight sampleLibrary h where
  closed pre post p s url e heq := by
    have hr : Except.error e = .ok () := hh ⟨.disconnect url, .error e⟩ (by simp [heq])
    cases hr
  named hash r hshown _ := by
    cases hshown with
    | tx url he =>
      obtain rfl := Except.ok.inj (hh _ he)
      exact ⟨"tesSUCCESS", rfl⟩
    | window url minLedger maxLedger he =>
      obtain ⟨hlooked, -⟩ := hh _ he
      cases hlooked
  validated url hash minLedger maxLedger r he := by
    obtain ⟨hlooked, -⟩ := hh _ he
    cases hlooked

/-- A payment that is found on the first lookup. -/
theorem xrp_send_honest_sample :
    Honest sampleFate (sampleHistory (.ok validatedPayment) 11)
      (Prog.feed (sampleAnswers (.ok validatedPayment)) sampleSend 11) :=
  xrp_send_honest sampleLibrary "key" "rReceiver" "1" none 1 sampleFate (Prog.run_feed _ sampleSend 11)
    (truthful_sample sampleHistory_succeeds (.inl rfl)) (readRight_sample sampleHistory_succeeds)

/-- The payment is in a validated ledger, the search of the window finds it, and the send says that nothing
was sent. -/
theorem not_always_confirmed : ¬ ∀ (env : Library) (privateKey to_ amount : String) (tag : Option Rat) (rounds : Nat)
    (fate : Fate) (h : History) (q : XrpM SendError String),
    (sendTransaction env privateKey to_ amount tag rounds).Run h q → Truthful env fate h → Honest fate h q := by
  intro hall
  have hhonest := hall sampleLibrary "key" "rReceiver" "1" none 1 sampleFate _ _
    (Prog.run_feed (sampleAnswers (.error notFound)) sampleSend 13)
    (truthful_sample sampleHistory_expires (.inr rfl))
  obtain ⟨s, -, hnone⟩ := hhonest.ends (.error (.stopped (.expired 120 ""))) rfl
  cases hnone

end

end Xrp
