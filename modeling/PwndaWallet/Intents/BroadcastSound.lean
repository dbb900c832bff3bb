import PwndaWallet.Intents.Broadcast
import PwndaWallet.Lib.Trace

/-!
# What a broadcast is reported as

`deposit_outcome_honest`: an ordinary failure is reported for a deposit that every node refused, except where
the trail of the attempts is misread; and each answer that can be misread is of one of a few kinds.
-/

namespace Broadcast

open Js Tasks
open Rust (Json)

variable {env : Env}

/-! ## What the nodes said -/

/-- The text neither says that the transaction, or one with its nonce, is known, nor reads as a failure of the
transport. -/
def Clear (text : String) : Prop := test mayBeOnNetwork text.toList = false ∧ test transport text.toList = false

/-- A node refused the bytes: with an error that is not null, or as an HTTP client error. -/
inductive Refuses (env : Env) : Reply → Prop
  | rpc {status : Nat} {text : String} {v err : Json} (hs : isSuccess status = true) (hv : env.fromStr text = .ok v)
      (herr : v.get "error" = some err) (hne : isNull err = false) (hclear : Clear s!"RPC error: {env.display err}") :
      Refuses env (.http status text)
  | client {status : Nat} {text : String} (hlow : 400 ≤ status) (hhigh : status < 500)
      (hclear : Clear s!"RPC returned {status}: {text}") : Refuses env (.http status text)

/-- A node shows the transaction with the hash. -/
def ShowsTx (env : Env) (hash : String) (e : Ev EvmOp.Ans) : Prop :=
  (∃ url r, e = ⟨.verify url hash, r⟩ ∧ readShown env r = .ok true) ∨
    ∃ url r, e = ⟨.lookup url hash, r⟩ ∧ replyKnows env r = true

def SameHash (env : Env) (hash hash' : String) : Prop := env.loc.toLowerCase hash = env.loc.toLowerCase hash'

/-- A node answered the submission with the hash, or shows the transaction. -/
def Vouches (env : Env) (hash : String) (e : Ev EvmOp.Ans) : Prop :=
  (∃ url raw r hash', e = ⟨.submit url raw, r⟩ ∧ readHash env r = .ok hash' ∧ SameHash env hash' hash) ∨
    ShowsTx env hash e

/-- What a broadcast that ends with `r` promises. -/
structure Honest (env : Env) (rpcUrls : List String) (rawTx : String) (tr : List (Ev EvmOp.Ans))
    (r : Except SendError String) : Prop where
  /-- nothing but the signed bytes is submitted -/
  submits : ∀ url raw reply, ⟨.submit url raw, reply⟩ ∈ tr → raw = with0x rawTx
  resolves : ∀ hash, r = .ok hash → SameHash env hash (env.evmTxHash rawTx) ∧
    ∃ e ∈ tr, Vouches env (env.evmTxHash rawTx) e
  /-- an ordinary failure: every URL was asked, every answer is a refusal, and no node shows the transaction -/
  unsent : ∀ msg, r = .error (.plain msg) →
    (∀ url ∈ rpcUrls, ∃ reply, ⟨.submit url (with0x rawTx), reply⟩ ∈ tr) ∧
    (∀ url raw reply, ⟨.submit url raw, reply⟩ ∈ tr → Refuses env reply) ∧
    ∀ e ∈ tr, ∀ hash, ¬ ShowsTx env hash e
  unknown : ∀ e, r = .error e → (∃ msg, e = .plain msg) ∨ ∃ msg, e = .outcomeUnknown msg (env.evmTxHash rawTx)

/-! ## What the trail says -/

/-- The line that an answer leaves in the trail. -/
def attemptOf (env : Env) : Ev EvmOp.Ans → Option BroadcastAttempt
  | ⟨.submit url _, r⟩ =>
    match readHash env r with
    | .error e => some ⟨url, .broadcast, e.toString⟩
    | .ok _ => none
  | ⟨.verify url hash, r⟩ =>
    match readShown env r with
    | .ok true => none
    | .ok false => some ⟨url, .verify, notShown hash⟩
    | .error e => some ⟨url, .verify, s!"verification call failed: {e.toString}"⟩
  | ⟨.lookup _ _, _⟩ => none

def BroadcastAttempt.reads (a : BroadcastAttempt) : List (Stage × List Char) := readAttempts a.line.toList

/-- The attempt is read out of its line with the whole text of its error. -/
def BroadcastAttempt.ReadWhole (a : BroadcastAttempt) : Prop := a.reads = [(a.stage, a.error.toList)]

/-- The answers to a submission that are no refusal and may be read as one. -/
inductive Slip (env : Env) (tr : List (Ev EvmOp.Ans)) (url raw : String) : Reply → Prop
  /-- a member `error` that is null -/
  | nullError {status : Nat} {text : String} {v err : Json} (hs : isSuccess status = true)
      (hv : env.fromStr text = .ok v) (herr : v.get "error" = some err) (hnull : isNull err = true) :
      Slip env tr url raw (.http status text)
  /-- a status that is neither a success nor an error -/
  | status {status : Nat} {text : String} (hs : isSuccess status = false) (hodd : status < 400 ∨ 600 ≤ status) :
      Slip env tr url raw (.http status text)
  /-- a part of the text is read, or none, and the whole says more -/
  | cut {r : Reply} {a : BroadcastAttempt} (ha : attemptOf env ⟨.submit url raw, r⟩ = some a)
      (hread : ¬ a.ReadWhole) (hclear : ¬ Clear a.error) : Slip env tr url raw r
  /-- the node took the bytes, and the line that says it does not show them is not read as it stands -/
  | unseen {r r' : Reply} {hash : String} {a : BroadcastAttempt} (hhash : readHash env r = .ok hash)
      (hverify : ⟨.verify url hash, r'⟩ ∈ tr) (ha : attemptOf env ⟨.verify url hash, r'⟩ = some a)
      (hread : ¬ a.ReadWhole) : Slip env tr url raw r

/-- No node shows the transaction, all that is read of the trail are refusals, and one answer slips through. -/
structure Misread (env : Env) (tr : List (Ev EvmOp.Ans)) : Prop where
  unshown : ∀ e ∈ tr, ∀ hash, ¬ ShowsTx env hash e
  some_read : ∃ a ∈ tr.filterMap (attemptOf env), a.reads ≠ []
  all_refused : ∀ a ∈ tr.filterMap (attemptOf env), ∀ m ∈ a.reads, isRefused m = true
  slips : ∃ url raw r, ⟨.submit url raw, r⟩ ∈ tr ∧ Slip env tr url raw r

/-! ## Reading the trail -/

theorem readAttempts_append (a b : List Char) :
    readAttempts (a ++ '\n' :: b) = readAttempts a ++ readAttempts b := by
  unfold readAttempts
  rw [trimmedLines_append, List.filterMap_append]

theorem trim_of_ends {a b : Char} {l : List Char} (ha : isSpace a = false) (hb : isSpace b = false) :
    trim (a :: (l ++ [b])) = a :: (l ++ [b]) := by
  simp [trim, ha, hb]

theorem trim_cons_space {c : Char} {l : List Char} (hc : isSpace c = true) : trim (c :: l) = trim l := by
  simp [trim, hc]

theorem newline_not_digit {n : Nat} : ∀ c ∈ (toString n).toList, c ≠ '\n' := by
  intro c hc
  rw [Nat.toString_eq_repr, Nat.repr_eq_ofList_toDigits, String.toList_ofList] at hc
  have hd : c.isDigit := Nat.isDigit_of_mem_toDigits (by decide) (by decide) hc
  rintro rfl
  exact absurd hd (by decide)

theorem toList_headline (n : Nat) : (headline n).toList =
    "RPC returned 0: All ".toList ++ (toString n).toList ++ " EVM RPCs failed broadcast or verification".toList := by
  unfold headline BroadcastError.toString
  simp only [String.toList_append, toString]
  have hzero : (Nat.repr 0).toList = ['0'] := by decide
  rw [hzero]
  simp only [List.append_assoc]
  rfl

/-- The headline is not read as an attempt. -/
theorem readAttempts_headline (n : Nat) : readAttempts (headline n).toList = [] := by
  have hnl : ∀ c ∈ (headline n).toList, c ≠ '\n' := by
    have hfront : ∀ c ∈ "RPC returned 0: All ".toList, c ≠ '\n' := by simp
    have hback : ∀ c ∈ " EVM RPCs failed broadcast or verification".toList, c ≠ '\n' := by simp
    rw [toList_headline]
    intro c hc
    rcases List.mem_append.1 hc with hc | hc
    · rcases List.mem_append.1 hc with hc | hc
      · exact hfront c hc
      · exact newline_not_digit c hc
    · exact hback c hc
  have hends : (headline n).toList = 'R' :: (("PC returned 0: All ".toList ++ ((toString n).toList ++
      " EVM RPCs failed broadcast or verificatio".toList)) ++ ['n']) := by
    rw [toList_headline, List.append_assoc, List.append_assoc, List.append_assoc]
    rfl
  unfold readAttempts trimmedLines
  rw [splitLines_of_one hnl, hends]
  simp only [List.map_cons, List.map_nil]
  rw [trim_of_ends (by decide) (by decide)]
  rfl

theorem readAttempts_nil : readAttempts [] = [] := rfl

theorem readAttempts_joinLines (attempts : List BroadcastAttempt) :
    readAttempts (joinLines (attempts.map BroadcastAttempt.line)).toList = attempts.flatMap BroadcastAttempt.reads := by
  induction attempts with
  | nil => rfl
  | cons a attempts ih =>
    cases attempts with
    | nil => simp [joinLines, BroadcastAttempt.reads]
    | cons b attempts =>
      have hsplit : (joinLines ((a :: b :: attempts).map BroadcastAttempt.line)).toList =
          a.line.toList ++ '\n' :: (joinLines ((b :: attempts).map BroadcastAttempt.line)).toList := by
        simp [joinLines, String.toList_append]
      rw [hsplit, readAttempts_append, ih, List.flatMap_cons]
      rfl

theorem after_append (pre text : List Char) : after pre (pre ++ text) = some text := by
  simp [after, List.isPrefixOf_iff_prefix]

/-- The two stages are told apart. -/
theorem readStage {stage : Stage} {text : List Char} (hline : text.any isLineEnd = false) :
    (match after " (broadcast): ".toList ((" (" ++ stage.toString ++ "): ").toList ++ text),
        after " (verify): ".toList ((" (" ++ stage.toString ++ "): ").toList ++ text) with
      | some text, _ => if text.any isLineEnd then none else some (Stage.broadcast, text)
      | none, some text => if text.any isLineEnd then none else some (.verify, text)
      | none, none => none) = some (stage, text) := by
  cases stage with
  | broadcast =>
    have hafter : after " (broadcast): ".toList ((" (" ++ Stage.broadcast.toString ++ "): ").toList ++ text) = some text :=
      after_append _ _
    rw [hafter]
    simp only [hline]
    rfl
  | verify =>
    have hnone : after " (broadcast): ".toList ((" (" ++ Stage.verify.toString ++ "): ").toList ++ text) = none := rfl
    have hafter : after " (verify): ".toList ((" (" ++ Stage.verify.toString ++ "): ").toList ++ text) = some text :=
      after_append _ _
    rw [hnone, hafter]
    simp only [hline]
    rfl

/-- An attempt is read with its whole error, if its URL has no blanks and the error is one line without a blank
at its end. -/
theorem readWhole {a : BroadcastAttempt} {u c : Char} {url text : List Char} (hurl : a.url.toList = u :: url)
    (hblank : ∀ x ∈ a.url.toList, isSpace x = false) (hline : ∀ x ∈ a.error.toList, isLineEnd x = false)
    (herr : a.error.toList = text ++ [c]) (hend : isSpace c = false) : a.ReadWhole := by
  have hspace : ∀ x, isSpace x = false → x ≠ '\n' := by
    rintro x hx rfl
    cases hx
  have hbroken : ∀ x, isLineEnd x = false → x ≠ '\n' := by
    rintro x hx rfl
    cases hx
  let stage := (" (" ++ a.stage.toString ++ "): ").toList
  let front := a.url.toList ++ (stage ++ a.error.toList)
  have hwhole : a.line.toList = ' ' :: ' ' :: front := by
    unfold BroadcastAttempt.line front stage
    simp [toString]
  have hlines : ∀ x ∈ a.line.toList, x ≠ '\n' := by
    intro x hx
    rw [hwhole] at hx
    simp only [List.mem_cons, List.mem_append, front] at hx
    rcases hx with rfl | rfl | hx | hx | hx
    · decide
    · decide
    · exact hspace x (hblank x hx)
    · have hstage : ∀ x ∈ stage, x ≠ '\n' := by
        unfold stage
        cases a.stage <;> simp [Stage.toString]
      exact hstage x hx
    · exact hbroken x (hline x hx)
  have htrim : trim (' ' :: ' ' :: front) = front := by
    have hback : front = u :: ((url ++ (stage ++ text)) ++ [c]) := by simp [front, hurl, herr]
    have hu : isSpace u = false := hblank u (by simp [hurl])
    rw [hback, trim_cons_space (by decide), trim_cons_space (by decide), trim_of_ends hu hend]
  have hread : readAttempt front = some (a.stage, a.error.toList) := by
    obtain ⟨rest, hrest⟩ : ∃ rest, stage = ' ' :: rest := by
      unfold stage
      cases a.stage <;> exact ⟨_, rfl⟩
    have htake : front.takeWhile (!isSpace ·) = a.url.toList := by
      rw [List.takeWhile_append_of_pos (by simpa using hblank), hrest]
      simp [show isSpace ' ' = true from rfl]
    have hdrop : front.dropWhile (!isSpace ·) = stage ++ a.error.toList := by
      rw [List.dropWhile_append_of_pos (by simpa using hblank), hrest]
      simp [show isSpace ' ' = true from rfl]
    have hany : a.error.toList.any isLineEnd = false := by simpa using hline
    have hne : a.url.toList.isEmpty = false := by rw [hurl]; rfl
    unfold readAttempt
    rw [htake, hdrop, hne]
    exact readStage hany
  unfold BroadcastAttempt.ReadWhole BroadcastAttempt.reads readAttempts trimmedLines
  have hne : front ≠ [] := by simp [front, hurl]
  rw [splitLines_of_one hlines, hwhole, List.map_cons, List.map_nil, htrim]
  simp [hne, hread]

/-- What is read out of the whole text is what is read out of its lines. -/
theorem readAttempts_trailText (n : Nat) (attempts : List BroadcastAttempt) :
    readAttempts (trailText n attempts).toList = attempts.flatMap BroadcastAttempt.reads := by
  have hsplit : (trailText n attempts).toList =
      (headline n).toList ++ '\n' :: (joinLines (attempts.map BroadcastAttempt.line)).toList := by
    simp [trailText, String.toList_append]
  rw [hsplit, readAttempts_append, readAttempts_headline, readAttempts_joinLines, List.nil_append]

theorem refusedEverywhere_iff (n : Nat) (attempts : List BroadcastAttempt) :
    evmBroadcastRefusedEverywhere (trailText n attempts) = true ↔
      (∃ a ∈ attempts, a.reads ≠ []) ∧ ∀ a ∈ attempts, ∀ m ∈ a.reads, isRefused m = true := by
  unfold evmBroadcastRefusedEverywhere
  rw [readAttempts_trailText]
  simp only [Bool.and_eq_true, Bool.not_eq_true', List.isEmpty_eq_false_iff, List.all_eq_true, ne_eq,
    List.flatMap_eq_nil_iff, List.mem_flatMap]
  refine and_congr (by simp) ?_
  constructor
  · exact fun h a ha m hm => h m ⟨a, ha, hm⟩
  · rintro h m ⟨a, ha, hm⟩
    exact h a ha m hm

/-! ## One broadcast -/

/-- Only the signed bytes are submitted. -/
def SubmitsOnly (rawTx : String) (o : EvmOp) (_ : List (Ev EvmOp.Ans)) : Prop :=
  ∀ url raw, o = .submit url raw → raw = with0x rawTx

/-- No node has shown the transaction, `attempts` is the trail, and the URLs have been asked. -/
structure Tried (env : Env) (rawTx : String) (urls : List String) (attempts : List BroadcastAttempt)
    (h : List (Ev EvmOp.Ans)) : Prop where
  trail : h.filterMap (attemptOf env) = attempts
  shown : ∀ e ∈ h, ∀ hash, ¬ ShowsTx env hash e
  asked : ∀ url ∈ urls, ∃ reply, ⟨.submit url (with0x rawTx), reply⟩ ∈ h
  checked : ∀ url raw r hash, ⟨.submit url raw, r⟩ ∈ h → readHash env r = .ok hash → ∃ r', ⟨.verify url hash, r'⟩ ∈ h

/-- A node answered the submission with the hash, and shows it. -/
def Accepted (env : Env) (hash : String) (h : List (Ev EvmOp.Ans)) : Prop :=
  (∃ url raw r, ⟨.submit url raw, r⟩ ∈ h ∧ readHash env r = .ok hash) ∧ ∃ e ∈ h, ShowsTx env hash e

section
variable {rawTx : String} {urls : List String} {attempts : List BroadcastAttempt} {h : List (Ev EvmOp.Ans)}
  {e : Ev EvmOp.Ans}

theorem Tried.append (ht : Tried env rawTx urls attempts h) (es : List (Ev EvmOp.Ans))
    (hs : ∀ e ∈ es, ∀ hash, ¬ ShowsTx env hash e)
    (hc : ∀ url raw r hash, ⟨.submit url raw, r⟩ ∈ es → readHash env r = .ok hash → ∃ r', ⟨.verify url hash, r'⟩ ∈ es) :
    Tried env rawTx urls (attempts ++ es.filterMap (attemptOf env)) (h ++ es) where
  trail := by rw [List.filterMap_append, ht.trail]
  shown e he := by
    rcases List.mem_append.1 he with he | he
    · exact ht.shown e he
    · exact hs e he
  asked url hurl := by
    obtain ⟨reply, hreply⟩ := ht.asked url hurl
    exact ⟨reply, List.mem_append_left _ hreply⟩
  checked url raw r hash he hhash := by
    rcases List.mem_append.1 he with he | he
    · obtain ⟨r', hr'⟩ := ht.checked url raw r hash he hhash
      exact ⟨r', List.mem_append_left _ hr'⟩
    · obtain ⟨r', hr'⟩ := hc url raw r hash he hhash
      exact ⟨r', List.mem_append_right _ hr'⟩

theorem Tried.one_more (ht : Tried env rawTx urls attempts h) (url : String)
    (hsubmit : ∃ reply, ⟨.submit url (with0x rawTx), reply⟩ ∈ h) : Tried env rawTx (urls ++ [url]) attempts h where
  trail := ht.trail
  shown := ht.shown
  asked u hu := by
    rcases List.mem_append.1 hu with hu | hu
    · exact ht.asked u hu
    · rw [List.mem_singleton.1 hu]
      exact hsubmit
  checked := ht.checked

theorem submit_not_shows {url raw hash : String} {r : Reply} : ¬ ShowsTx env hash ⟨.submit url raw, r⟩ := by
  rintro (⟨_, _, he, _⟩ | ⟨_, _, he, _⟩) <;> cases he

theorem verify_not_shows {url hash hash' : String} {r : Reply} (hr : readShown env r ≠ .ok true) :
    ¬ ShowsTx env hash' ⟨.verify url hash, r⟩ := by
  rintro (⟨_, _, he, hs⟩ | ⟨_, _, he, _⟩)
  · cases he
    exact hr hs
  · cases he

theorem lookup_not_shows {url hash hash' : String} {r : Reply} (hr : ¬ replyKnows env r = true) :
    ¬ ShowsTx env hash' ⟨.lookup url hash, r⟩ := by
  rintro (⟨_, _, he, _⟩ | ⟨_, _, he, hs⟩)
  · cases he
  · cases he
    exact hr hs

/-- The Rust core's outcome: a hash that its node showed, or the trail of the whole list. -/
def VerifiedAs (env : Env) (rawTx : String) (urls : List String) :
    Except (List BroadcastAttempt) String → List (Ev EvmOp.Ans) → Prop
  | .ok hash, h => Accepted env hash h
  | .error attempts, h => Tried env rawTx urls attempts h

theorem verifies (rest : List String) (ht : Tried env rawTx urls attempts h) :
    Safe (.hist (SubmitsOnly rawTx)) (evmBroadcastVerified env rawTx rest attempts)
      (VerifiedAs env rawTx (urls ++ rest)) h := by
  induction rest generalizing urls attempts h with
  | nil =>
    rw [List.append_nil]
    exact safe_fail.2 ht
  | cons url rest ih =>
    have hlist : urls ++ url :: rest = (urls ++ [url]) ++ rest := by simp
    unfold evmBroadcastVerified
    simp only [Prog.bind_eq, Prog.pure_eq]
    refine admits_attempt (fun _ _ ho => by cases ho; rfl) fun r => ?_
    cases hr : readHash env r with
    | error x =>
      have hone := ht.append [⟨.submit url (with0x rawTx), r⟩] (by simp [submit_not_shows]) (by
        intro _ _ r' hash he hhash
        cases List.mem_singleton.1 he
        rw [hr] at hhash
        cases hhash)
      have hasked := hone.one_more url ⟨r, by simp⟩
      simp only [List.filterMap_cons, List.filterMap_nil, attemptOf, hr] at hasked
      rw [hlist]
      exact ih hasked
    | ok hash =>
      refine admits_attempt (fun _ _ ho => by cases ho) fun r' => ?_
      by_cases hshown : readShown env r' = .ok true
      · simp only [hshown]
        refine safe_ret.2 ⟨⟨url, with0x rawTx, r, by simp [Monitor.hist], hr⟩, ⟨.verify url hash, r'⟩, ?_, ?_⟩
        · simp [Monitor.hist]
        · exact .inl ⟨url, r', rfl, hshown⟩
      · have htwo := ht.append [⟨.submit url (with0x rawTx), r⟩, ⟨.verify url hash, r'⟩]
          (by simp [submit_not_shows, verify_not_shows hshown]) (by
            intro url' _ _ hash' he hhash
            rcases List.mem_cons.1 he with he | he
            · cases he
              rw [hr] at hhash
              cases hhash
              exact ⟨r', by simp⟩
            · cases List.mem_singleton.1 he)
        have hasked := htwo.one_more url ⟨r, by simp⟩
        rw [hlist]
        have hwhole : h ++ [⟨.submit url (with0x rawTx), r⟩, ⟨.verify url hash, r'⟩] =
            (h ++ [⟨.submit url (with0x rawTx), r⟩]) ++ [⟨.verify url hash, r'⟩] := by simp
        rw [hwhole] at hasked
        cases hr' : readShown env r' with
        | error x =>
          simp only [List.filterMap_cons, List.filterMap_nil, attemptOf, hr, hr'] at hasked
          exact ih hasked
        | ok shown =>
          cases shown with
          | true => exact absurd hr' hshown
          | false =>
            simp only [List.filterMap_cons, List.filterMap_nil, attemptOf, hr, hr'] at hasked
            exact ih hasked

/-- What the lookups find. -/
theorem knows (hash : String) (rest : List String) (ht : Tried env rawTx urls attempts h) :
    Safe (.hist (SubmitsOnly rawTx)) (evmTransactionKnown env hash rest : EvmProg SendError Bool)
      (fun r h' => (r = .ok true ∧ ∃ e ∈ h', ShowsTx env hash e) ∨
        (r = .ok false ∧ Tried env rawTx urls attempts h')) h := by
  induction rest generalizing h with
  | nil => exact safe_ret.2 (.inr ⟨rfl, ht⟩)
  | cons url rest ih =>
    refine safe_call_hist.2 ⟨nofun, fun r => Safe.ite (fun hr => ?_) fun hr => ?_⟩
    · exact safe_ret.2 (.inl ⟨rfl, ⟨.lookup url hash, r⟩, by simp, .inr ⟨url, r, rfl, hr⟩⟩)
    · have hlookup := ht.append [⟨.lookup url hash, r⟩] (by simp [lookup_not_shows hr]) (by
        intro _ _ _ _ he
        cases List.mem_singleton.1 he)
      simp only [List.filterMap_cons, List.filterMap_nil, attemptOf, List.append_nil] at hlookup
      exact ih hlookup

/-- How a broadcast ends. -/
inductive EndsAs (env : Env) (urls : List String) (rawTx : String) :
    Except SendError String → List (Ev EvmOp.Ans) → Prop
  | sent {hash : String} {h : List (Ev EvmOp.Ans)} (hsame : SameHash env hash (env.evmTxHash rawTx))
      (hvouch : ∃ e ∈ h, Vouches env (env.evmTxHash rawTx) e) (hshow : ∃ e ∈ h, ∃ hash', ShowsTx env hash' e) :
      EndsAs env urls rawTx (.ok hash) h
  | otherHash {msg : String} {h : List (Ev EvmOp.Ans)} (hshow : ∃ e ∈ h, ∃ hash', ShowsTx env hash' e) :
      EndsAs env urls rawTx (.error (.outcomeUnknown msg (env.evmTxHash rawTx))) h
  | refused {msg : String} {attempts : List BroadcastAttempt} {h : List (Ev EvmOp.Ans)}
      (ht : Tried env rawTx urls attempts h)
      (href : evmBroadcastRefusedEverywhere (trailText urls.length attempts) = true) :
      EndsAs env urls rawTx (.error (.plain msg)) h
  | unknown {msg : String} {attempts : List BroadcastAttempt} {h : List (Ev EvmOp.Ans)}
      (ht : Tried env rawTx urls attempts h)
      (href : ¬ evmBroadcastRefusedEverywhere (trailText urls.length attempts) = true) :
      EndsAs env urls rawTx (.error (.outcomeUnknown msg (env.evmTxHash rawTx))) h

theorem ends (ticker : String) (rpcUrls : List String) (rawTx : String) :
    Safe (.hist (SubmitsOnly rawTx)) (broadcastEvmDepositOnce env ticker rpcUrls rawTx)
      (EndsAs env rpcUrls rawTx) [] := by
  unfold broadcastEvmDepositOnce swapEvmBroadcastVerified
  simp only [Prog.bind_eq, Prog.pure_eq]
  have hnone : Tried env rawTx [] [] [] := ⟨rfl, by simp, by simp, by simp⟩
  refine Safe.bind (Safe.attempt (Safe.mapErr ((verifies rpcUrls hnone).mono fun r h hr => ?_)))
  cases r with
  | ok hash =>
    obtain ⟨⟨url, raw, reply, hsubmit, hhash⟩, e, he, hshows⟩ : Accepted env hash h := hr
    refine Safe.ite (fun hsame => safe_ret.2 ?_) fun _ => safe_fail.2 (.otherHash ⟨e, he, hash, hshows⟩)
    have hsame : SameHash env hash (env.evmTxHash rawTx) := beq_iff_eq.1 hsame
    exact .sent hsame ⟨_, hsubmit, .inl ⟨url, raw, reply, hash, rfl, hhash, hsame⟩⟩ ⟨e, he, hash, hshows⟩
  | error attempts =>
    have ht : Tried env rawTx rpcUrls attempts h := hr
    refine Safe.bind ((knows (env.evmTxHash rawTx) rpcUrls ht).mono ?_)
    rintro _ h' (⟨rfl, e, he, hshows⟩ | ⟨rfl, ht'⟩)
    · exact safe_ret.2 (.sent rfl ⟨e, he, .inr hshows⟩ ⟨e, he, _, hshows⟩)
    · refine Safe.ite (fun hf => by cases hf) fun _ =>
        Safe.ite (fun href => safe_fail.2 ?_) fun href => safe_fail.2 ?_
      · exact .refused ht' href
      · exact .unknown ht' href

end

/-! ## Reading one answer -/

/-- A failure of the transport reads as one. -/
theorem not_clear_of_transport {p : Pattern} {text : String} (hp : p ∈ transport)
    (h : matchesAt p none text.toList = true) : ¬ Clear text := by
  rintro ⟨_, hclear⟩
  rw [test_of_mem hp h] at hclear
  cases hclear

theorem not_clear_network (e : String) : ¬ Clear (BroadcastError.network e).toString := by
  have hp : lit "network error" ∈ transport := by
    unfold transport
    rw [List.mem_append, List.mem_append]
    exact .inl (.inl (List.mem_map.2 ⟨"network error", by simp, rfl⟩))
  have htext : (BroadcastError.network e).toString.toList = "network error".toList ++ (": ".toList ++ e.toList) := by
    unfold BroadcastError.toString
    simp [toString]
  refine not_clear_of_transport hp ?_
  rw [htext]
  exact matchesAt_lit _ _ _

theorem not_clear_parse (e : String) : ¬ Clear (BroadcastError.parse e).toString := by
  have hp : lit "response parse error" ∈ transport := by
    unfold transport
    rw [List.mem_append]
    exact .inr (List.mem_map.2 ⟨"response parse error", by simp, rfl⟩)
  have htext : (BroadcastError.parse e).toString.toList =
      "response parse error".toList ++ (": ".toList ++ e.toList) := by
    unfold BroadcastError.toString
    simp [toString]
  refine not_clear_of_transport hp ?_
  rw [htext]
  exact matchesAt_lit _ _ _

/-- A status from 500 to 599 is written with a 5 and two more digits. -/
theorem repr_server_error : ∀ i : Fin 100,
    (Nat.repr (500 + i)).toList = ['5', Nat.digitChar (i / 10), Nat.digitChar (i % 10)] := by
  decide +kernel

theorem not_clear_server {status : Nat} {text : String} (hlow : 500 ≤ status) (hhigh : status < 600) :
    ¬ Clear (BroadcastError.rpc status text).toString := by
  have hp : lit "RPC returned 5" ++ digit ++ digit ∈ transport := by
    unfold transport
    rw [List.mem_append, List.mem_append]
    exact .inl (.inr List.mem_cons_self)
  have hdigit : ∀ i < 10, (Nat.digitChar i).isDigit = true := by decide
  have ha : (Nat.digitChar ((status - 500) / 10)).isDigit = true := hdigit _ (by omega)
  have hb : (Nat.digitChar ((status - 500) % 10)).isDigit = true := hdigit _ (by omega)
  have htext : (BroadcastError.rpc status text).toString.toList = "RPC returned 5".toList ++
      (Nat.digitChar ((status - 500) / 10) :: Nat.digitChar ((status - 500) % 10) :: (": ".toList ++ text.toList)) := by
    have hrepr := repr_server_error ⟨status - 500, by omega⟩
    rw [show 500 + (status - 500) = status by omega] at hrepr
    unfold BroadcastError.toString
    simp [toString, hrepr]
  refine not_clear_of_transport hp ?_
  rw [htext, List.append_assoc]
  refine matchesAt_lit_append (fun before => ?_) none
  simp [digit, matchesAt, ha, hb]

theorem not_success_of_client {status : Nat} (hlow : 400 ≤ status) : isSuccess status = false := by
  unfold isSuccess
  rw [Bool.and_eq_false_iff]
  exact .inr (by simp; omega)

/-- A refusal is an error whose text is clear. -/
theorem Refuses.error {r : Reply} (hr : Refuses env r) : ∃ x, readHash env r = .error x ∧ Clear x.toString := by
  cases hr with
  | rpc hs hv herr hne hclear =>
    refine ⟨.rpcLogical _, ?_, hclear⟩
    simp [readHash, readReply, hs, hv, herr, bind, Except.bind]
  | client hlow hhigh hclear =>
    refine ⟨.rpc _ _, ?_, hclear⟩
    simp [readHash, readReply, not_success_of_client hlow, bind, Except.bind]

/-- An error whose text is clear is a refusal, or slips through. -/
theorem refuses_of_clear {tr : List (Ev EvmOp.Ans)} {url raw : String} {r : Reply} {x : BroadcastError}
    (hr : readHash env r = .error x) (hclear : Clear x.toString) : Refuses env r ∨ Slip env tr url raw r := by
  cases r with
  | network e =>
    cases hr
    exact absurd hclear (not_clear_network e)
  | http status text =>
    cases hs : isSuccess status with
    | false =>
      simp [readHash, readReply, hs, bind, Except.bind] at hr
      subst hr
      by_cases hodd : status < 400 ∨ 600 ≤ status
      · exact .inr (.status hs hodd)
      · by_cases hclient : status < 500
        · exact .inl (.client (by omega) hclient hclear)
        · exact absurd hclear (not_clear_server (by omega) (by omega))
    | true =>
      cases hv : env.fromStr text with
      | error e =>
        simp [readHash, readReply, hs, hv, bind, Except.bind] at hr
        subst hr
        exact absurd hclear (not_clear_parse e)
      | ok v =>
        cases herr : v.get "error" with
        | some err =>
          simp [readHash, readReply, hs, hv, herr, bind, Except.bind] at hr
          subst hr
          cases hnull : isNull err with
          | true => exact .inr (.nullError hs hv herr hnull)
          | false => exact .inl (.rpc hs hv herr hnull hclear)
        | none =>
          cases hres : (v.get "result").bind Json.asStr with
          | some hash => simp [readHash, readReply, hs, hv, herr, hres, bind, Except.bind] at hr
          | none =>
            simp [readHash, readReply, hs, hv, herr, hres, bind, Except.bind] at hr
            subst hr
            exact absurd hclear (not_clear_parse _)

/-- What is read as a refusal is clear. -/
theorem clear_of_refused {text : String} (h : isRefused (.broadcast, text.toList) = true) : Clear text := by
  simp only [isRefused, isDefinitiveBroadcastRefusal, beq_self_eq_true, Bool.true_and, Bool.and_eq_true,
    Bool.not_eq_true'] at h
  exact ⟨h.1.1.2, h.1.2⟩

section
variable {rawTx : String} {urls : List String} {attempts : List BroadcastAttempt} {h : List (Ev EvmOp.Ans)}

/-- Where all that is read are refusals, every submission was refused or its answer slipped through. -/
theorem Tried.refused_or_slips (ht : Tried env rawTx urls attempts h)
    (hall : ∀ a ∈ attempts, ∀ m ∈ a.reads, isRefused m = true) {url raw : String} {r : Reply}
    (he : ⟨.submit url raw, r⟩ ∈ h) : Refuses env r ∨ Slip env h url raw r := by
  have hmem : ∀ {e a}, e ∈ h → attemptOf env e = some a → a ∈ attempts := fun he ha => by
    rw [← ht.trail]
    exact List.mem_filterMap.2 ⟨_, he, ha⟩
  cases hr : readHash env r with
  | error x =>
    have ha : attemptOf env ⟨.submit url raw, r⟩ = some ⟨url, .broadcast, x.toString⟩ := by simp only [attemptOf, hr]
    by_cases hclear : Clear x.toString
    · exact refuses_of_clear hr hclear
    · refine .inr (.cut ha (fun hwhole => hclear ?_) hclear)
      exact clear_of_refused (hall _ (hmem he ha) _ (by rw [hwhole]; exact List.mem_cons_self))
  | ok hash =>
    obtain ⟨r', he'⟩ := ht.checked url raw r hash he hr
    obtain ⟨a, ha, hstage⟩ : ∃ a, attemptOf env ⟨.verify url hash, r'⟩ = some a ∧ a.stage = .verify := by
      cases hr' : readShown env r' with
      | error x =>
        exact ⟨⟨url, .verify, s!"verification call failed: {x.toString}"⟩, by simp only [attemptOf, hr'], rfl⟩
      | ok shown =>
        cases shown with
        | true => exact absurd (.inl ⟨url, r', rfl, hr'⟩) (ht.shown _ he' hash)
        | false => exact ⟨⟨url, .verify, notShown hash⟩, by simp only [attemptOf, hr'], rfl⟩
    refine .inr (.unseen hr he' ha fun hwhole => ?_)
    have href := hall a (hmem he' ha) (a.stage, a.error.toList) (by rw [hwhole]; exact List.mem_cons_self)
    rw [hstage] at href
    cases href

end

theorem Slip.not_refuses {tr : List (Ev EvmOp.Ans)} {url raw : String} {r : Reply} (hs : Slip env tr url raw r) :
    ¬ Refuses env r := by
  intro hr
  cases hs with
  | nullError hs hv herr hnull =>
    cases hr with
    | rpc _ hv' herr' hne =>
      rw [hv] at hv'
      cases hv'
      rw [herr] at herr'
      cases herr'
      rw [hnull] at hne
      cases hne
    | client hlow =>
      rw [not_success_of_client hlow] at hs
      cases hs
  | status hs hodd =>
    cases hr with
    | rpc hs' =>
      rw [hs] at hs'
      cases hs'
    | client hlow hhigh => omega
  | cut ha _ hclear =>
    obtain ⟨x, hx, hc⟩ := hr.error
    simp only [attemptOf, hx, Option.some.injEq] at ha
    subst ha
    exact hclear hc
  | unseen hhash =>
    obtain ⟨x, hx, _⟩ := hr.error
    rw [hhash] at hx
    cases hx

/-! ## The outcome -/

theorem ends_of_run {ticker : String} {rpcUrls : List String} {rawTx : String} {tr : List (Ev EvmOp.Ans)}
    {r : Except SendError String} (hr : (broadcastEvmDepositOnce env ticker rpcUrls rawTx).Run tr (.ofExcept r)) :
    EndsAs env rpcUrls rawTx r tr := by
  have hsafe := safe_of_run (ends ticker rpcUrls rawTx) hr
  rw [List.nil_append] at hsafe
  cases r with
  | ok hash => exact safe_ret.1 hsafe
  | error x => exact safe_fail.1 hsafe

theorem submits_of_run {ticker : String} {rpcUrls : List String} {rawTx : String} {tr : List (Ev EvmOp.Ans)}
    {q : EvmProg SendError String} (hr : (broadcastEvmDepositOnce env ticker rpcUrls rawTx).Run tr q) {url raw : String}
    {reply : Reply} (he : ⟨.submit url raw, reply⟩ ∈ tr) : raw = with0x rawTx := by
  obtain ⟨pre, post, rfl⟩ := List.append_of_mem he
  exact must_of_mem (ends ticker rpcUrls rawTx) hr rfl url raw rfl

/-- A broadcast is reported honestly, unless the trail is misread. -/
theorem deposit_outcome_honest {ticker : String} {rpcUrls : List String} {rawTx : String} {tr : List (Ev EvmOp.Ans)}
    {r : Except SendError String} (hr : (broadcastEvmDepositOnce env ticker rpcUrls rawTx).Run tr (.ofExcept r)) :
    Honest env rpcUrls rawTx tr r ↔ ¬ Misread env tr := by
  have hends := ends_of_run hr
  constructor
  · intro hhonest hmis
    cases hends with
    | sent _ _ hshow =>
      obtain ⟨e, he, hash', hs⟩ := hshow
      exact hmis.unshown e he hash' hs
    | otherHash hshow =>
      obtain ⟨e, he, hash', hs⟩ := hshow
      exact hmis.unshown e he hash' hs
    | refused =>
      obtain ⟨url, raw, reply, he, hslip⟩ := hmis.slips
      exact hslip.not_refuses ((hhonest.unsent _ rfl).2.1 url raw reply he)
    | unknown ht href =>
      refine href ((refusedEverywhere_iff _ _).2 ?_)
      rw [← ht.trail]
      exact ⟨hmis.some_read, hmis.all_refused⟩
  · intro hmis
    have hsubmits : ∀ url raw reply, ⟨.submit url raw, reply⟩ ∈ tr → raw = with0x rawTx :=
      fun url raw reply he => submits_of_run hr he
    cases hends with
    | sent hsame hvouch _ =>
      exact ⟨hsubmits, fun _ h => by cases h; exact ⟨hsame, hvouch⟩, fun _ h => (by cases h), fun _ h => (by cases h)⟩
    | otherHash _ =>
      exact ⟨hsubmits, fun _ h => (by cases h), fun _ h => (by cases h), fun _ h => by cases h; exact .inr ⟨_, rfl⟩⟩
    | unknown _ _ =>
      exact ⟨hsubmits, fun _ h => (by cases h), fun _ h => (by cases h), fun _ h => by cases h; exact .inr ⟨_, rfl⟩⟩
    | refused ht href =>
      obtain ⟨hsome, hall⟩ := (refusedEverywhere_iff _ _).1 href
      refine ⟨hsubmits, fun _ h => (by cases h), fun _ _ => ⟨ht.asked, ?_, ht.shown⟩, fun _ h => by
        cases h; exact .inl ⟨_, rfl⟩⟩
      intro url raw reply he
      rcases ht.refused_or_slips hall he with hrefuses | hslip
      · exact hrefuses
      · refine absurd ⟨ht.shown, ?_, ?_, url, raw, reply, he, hslip⟩ hmis
        · rw [ht.trail]
          exact hsome
        · rw [ht.trail]
          exact hall

/-! ## Two broadcasts -/

def noResult : String := "\x7b\"result\":null\x7d"

/-- The node took the bytes. -/
def nullError : String := "\x7b\"result\":\"0xab\",\"error\":null\x7d"

def noFunds : String := "\x7b\"error\":\x7b\"message\":\"insufficient funds\"\x7d\x7d"

def sampleEnv : Env where
  fromStr text :=
    if text == nullError then .ok (.obj [("result", .str "0xab"), ("error", .null)])
    else if text == noFunds then .ok (.obj [("error", .obj [("message", .str "insufficient funds")])])
    else .ok (.obj [("result", .null)])
  display v := if isNull v then "null" else "\x7b\"message\":\"insufficient funds\"\x7d"
  jsonParse _ := some (.obj [("result", .null)])
  evmTxHash _ := "0xab"
  loc := .ascii
  isZero _ := false

def sampleTrace (text : String) : List (Ev EvmOp.Ans) :=
  [⟨.submit "https://rpc" "0x02", .http 200 text⟩, ⟨.lookup "https://rpc" "0xab", .http 200 noResult⟩]

def sampleTrail (x : BroadcastError) : String := trailText ["https://rpc"].length [⟨"https://rpc", .broadcast, x.toString⟩]

theorem sample_run {text : String} {x : BroadcastError} (hx : readHash sampleEnv (.http 200 text) = .error x)
    (href : evmBroadcastRefusedEverywhere (sampleTrail x) = true) :
    (broadcastEvmDepositOnce sampleEnv "ETH" ["https://rpc"] "0x02").Run (sampleTrace text)
      (.ofExcept (.error (refusedEverywhere "ETH" (sampleTrail x)))) := by
  have hlost : replyKnows sampleEnv (.http 200 noResult) = false := rfl
  unfold sampleTrail at href ⊢
  refine .cons ?_
  dsimp only
  rw [hx]
  refine .cons ?_
  dsimp only
  rw [hlost]
  simp only [Bool.false_eq_true, if_false, evmTransactionKnown, Prog.handle, List.nil_append, href, if_true]
  exact .refl

theorem deposit_outcome_honest_noFunds :
    Honest sampleEnv ["https://rpc"] "0x02" (sampleTrace noFunds)
      (.error (refusedEverywhere "ETH" (sampleTrail (.rpcLogical "\x7b\"message\":\"insufficient funds\"\x7d")))) ↔
      ¬ Misread sampleEnv (sampleTrace noFunds) :=
  deposit_outcome_honest (sample_run rfl (by decide +kernel))

/-- A node that takes the bytes and answers with `"error": null` is read as one that refused them. -/
theorem not_always_honest : ¬ ∀ (env : Env) (ticker : String) (rpcUrls : List String) (rawTx : String)
    (tr : List (Ev EvmOp.Ans)) (r : Except SendError String),
    (broadcastEvmDepositOnce env ticker rpcUrls rawTx).Run tr (.ofExcept r) → Honest env rpcUrls rawTx tr r := by
  intro h
  have hrun := @sample_run nullError (.rpcLogical "null") rfl (by decide +kernel)
  have hrefuses := ((h _ _ _ _ _ _ hrun).unsent _ rfl).2.1 _ _ _ List.mem_cons_self
  have hslip : Slip sampleEnv (sampleTrace nullError) "https://rpc" "0x02" (.http 200 nullError) :=
    .nullError rfl rfl rfl rfl
  exact hslip.not_refuses hrefuses

end Broadcast
