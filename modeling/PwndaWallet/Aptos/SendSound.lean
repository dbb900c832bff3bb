import PwndaWallet.Aptos.Send
import PwndaWallet.Send.OutcomeSound
import PwndaWallet.Tron.BroadcastSound

/-!
# What an Aptos send says

What a send comes to is compared with what the node did with the transaction and what the chain made of it; together
with the TRON broadcast.
-/

namespace Aptos

open Rust SessionSend

/-- What becomes of a transaction: the time it is committed at, and whether it succeeds. -/
abbrev Fate := Option (Int × Bool)

section

variable (env : Engine) {Tx Auth : Type}

/-- The API and the chain, for a transaction that is submitted. It is not committed after its expiry; where the
ledger's clock is past the expiry by more than the margin, the lookup knows what was committed before; a transaction
is shown as it was committed; a node that refuses it with a 4xx did not take it, and one that accepts it did. -/
structure AptosWorld (net : Net Tx Auth) (tx : Tx) (auth : Auth) (hash : String) (took : Prop) (fate : Fate) :
    Prop where
  bound (t : Int) (ok : Bool) : fate = some (t, ok) → t ≤ expireSecs net
  complete (n : Nat) (secs t : Int) (ok : Bool) : aptosLedgerSecs env (net.ledger n) = some secs →
    expireSecs net + LEDGER_MARGIN_SECS < secs → fate = some (t, ok) → t ≤ expireSecs net →
      lookupAptosTx env (net.lookup n hash) ≠ .missing
  shows (n : Nat) (success : Bool) (vmStatus : String) :
    lookupAptosTx env (net.lookup n hash) = .committed success vmStatus → ∃ t, fate = some (t, success)
  refuses (status : Nat) (detail : String) : net.submit tx auth = .failed (some status) detail →
    isRefusal status = true → ¬ took
  accepts : net.submit tx auth = .accepted → took

/-- What is promised of a send. -/
structure AptosPromise (sdk : Sdk Tx Auth) (refusalText : String → String) (net : Net Tx Auth) (took : Prop)
    (fate : Fate) : Prop where
  once (rounds : Nat) (s : Sent Tx Auth) : aptosSubmitEntryFunction env sdk refusalText net rounds = some s →
    s.signed.length ≤ 1 ∧ (s.submitted = [] ∨ ∃ tx auth, s.signed = [tx] ∧ sdk.sign tx = .ok auth ∧
      s.submitted = [(tx, auth)])
  early (rounds : Nat) (s : Sent Tx Auth) (text : String) :
    aptosSubmitEntryFunction env sdk refusalText net rounds = some s → s.outcome = .error (.early text) →
      s.submitted = []
  refused (rounds : Nat) (s : Sent Tx Auth) (detail : String) :
    aptosSubmitEntryFunction env sdk refusalText net rounds = some s → s.outcome = .error (.refused detail) → ¬ took
  failed (rounds : Nat) (s : Sent Tx Auth) (vmStatus hash : String) :
    aptosSubmitEntryFunction env sdk refusalText net rounds = some s → s.outcome = .error (.failed vmStatus hash) →
      ∃ t, fate = some (t, false)
  expired (rounds : Nat) (s : Sent Tx Auth) (hash : String) :
    aptosSubmitEntryFunction env sdk refusalText net rounds = some s → s.outcome = .error (.expired hash) →
      fate = none
  unknown (rounds : Nat) (s : Sent Tx Auth) (message hash : String) :
    aptosSubmitEntryFunction env sdk refusalText net rounds = some s →
      s.outcome = .error (.outcomeUnknown message hash) →
        ∃ tx auth, s.submitted = [(tx, auth)] ∧ sdk.hashOf tx auth = .ok hash
  result (rounds : Nat) (s : Sent Tx Auth) (r : TxResult) :
    aptosSubmitEntryFunction env sdk refusalText net rounds = some s → s.outcome = .ok r →
      (∃ tx auth, s.submitted = [(tx, auth)] ∧ sdk.hashOf tx auth = .ok r.hash) ∧
        if r.pending then took else ∃ t, fate = some (t, true)
  ends (n : Nat) : deadline net (expireSecs net) ≤ net.now n →
    (aptosSubmitEntryFunction env sdk refusalText net (n + 1)).isSome = true

end

section

variable {env : Engine} {Tx Auth : Type} {net : Net Tx Auth} {hash submitProblem : String} {expireSecs : Int}
  {accepted : Bool} {n : Nat} {outcome : Except AptosError TxResult}

/-! ## A round -/

theorem stillOpen_cases (h : stillOpen env net hash expireSecs accepted submitProblem n = some outcome) :
    (accepted = true ∧ outcome = .ok ⟨hash, true⟩) ∨ ∃ message, outcome = .error (.outcomeUnknown message hash) := by
  rw [stillOpen] at h
  by_cases hlate : net.now n ≥ deadline net expireSecs
  · rw [if_pos hlate, Option.some.injEq, unsettled] at h
    cases accepted with
    | true => exact .inl ⟨rfl, h.symm⟩
    | false => exact .inr ⟨_, h.symm⟩
  · rw [if_neg hlate] at h
    cases h

/-- A round decides by what the lookup shows, by the ledger's clock, or at the deadline. -/
theorem settleAptosRound_cases
    (h : settleAptosRound env net hash expireSecs accepted submitProblem n = some outcome) :
    (∃ vmStatus, lookupAptosTx env (net.lookup n hash) = .committed true vmStatus ∧ outcome = .ok ⟨hash, false⟩) ∨
    (∃ vmStatus, lookupAptosTx env (net.lookup n hash) = .committed false vmStatus ∧
      outcome = .error (.failed vmStatus hash)) ∨
    (lookupAptosTx env (net.lookup n hash) = .missing ∧
      isPast (aptosLedgerSecs env (net.ledger n)) expireSecs = true ∧ outcome = .error (.expired hash)) ∨
    (accepted = true ∧ outcome = .ok ⟨hash, true⟩) ∨ ∃ message, outcome = .error (.outcomeUnknown message hash) := by
  rw [settleAptosRound] at h
  cases hfound : lookupAptosTx env (net.lookup n hash) with
  | committed success vmStatus =>
    simp only [hfound] at h
    cases success with
    | true => exact .inl ⟨vmStatus, rfl, (Option.some.inj h).symm⟩
    | false => exact .inr (.inl ⟨vmStatus, rfl, (Option.some.inj h).symm⟩)
  | missing =>
    simp only [hfound] at h
    by_cases hpast : isPast (aptosLedgerSecs env (net.ledger n)) expireSecs = true
    · rw [if_pos hpast] at h
      exact .inr (.inr (.inl ⟨rfl, hpast, (Option.some.inj h).symm⟩))
    · rw [if_neg hpast] at h
      exact .inr (.inr (.inr (stillOpen_cases h)))
  | pending =>
    simp only [hfound] at h
    exact .inr (.inr (.inr (stillOpen_cases h)))
  | error detail =>
    simp only [hfound] at h
    exact .inr (.inr (.inr (stillOpen_cases h)))

theorem settleAptosRound_ends (h : deadline net expireSecs ≤ net.now n) :
    (settleAptosRound env net hash expireSecs accepted submitProblem n).isSome = true := by
  have hopen : (stillOpen env net hash expireSecs accepted submitProblem n).isSome = true := by
    rw [stillOpen, if_pos (show net.now n ≥ deadline net expireSecs from h)]
    rfl
  rw [settleAptosRound]
  cases lookupAptosTx env (net.lookup n hash) with
  | committed success vmStatus => cases success <;> rfl
  | missing =>
    simp only
    split
    · rfl
    · exact hopen
  | pending => exact hopen
  | error detail => exact hopen

end

/-! ## A send -/

section

variable {env : Engine} {Tx Auth : Type} {sdk : Sdk Tx Auth} {refusalText : String → String} {net : Net Tx Auth}
  {took : Prop} {fate : Fate} {rounds : Nat} {s : Sent Tx Auth}

theorem signTransaction_ok {tx : Tx} {auth : Auth} {hash : String} (h : signTransaction sdk tx = .ok (auth, hash)) :
    sdk.sign tx = .ok auth ∧ sdk.hashOf tx auth = .ok hash := by
  rw [signTransaction] at h
  cases hsign : sdk.sign tx with
  | error e =>
    rw [hsign] at h
    cases h
  | ok auth' =>
    rw [hsign] at h
    cases hhash : sdk.hashOf tx auth' with
    | error e => simp [Except.bind, Except.map, hhash] at h
    | ok hash' =>
      simp only [Except.bind, Except.map, hhash, Except.ok.injEq, Prod.mk.injEq] at h
      obtain ⟨rfl, rfl⟩ := h
      exact ⟨rfl, hhash⟩

theorem judgeSubmit_refused {submitted : Submitted} {detail : String} (h : judgeSubmit submitted = .refused detail) :
    ∃ status, submitted = .failed (some status) detail ∧ isRefusal status = true := by
  cases submitted with
  | accepted => cases h
  | failed status text =>
    cases status with
    | none => cases h
    | some status =>
      rw [judgeSubmit] at h
      by_cases hrefusal : isRefusal status = true
      · rw [if_pos hrefusal, Judged.refused.injEq] at h
        exact ⟨status, h ▸ rfl, hrefusal⟩
      · rw [if_neg hrefusal] at h
        cases h

theorem judgeSubmit_accepted {submitted : Submitted} {problem : String}
    (h : judgeSubmit submitted = .settle true problem) :
    submitted = .accepted := by
  cases submitted with
  | accepted => rfl
  | failed status text =>
    cases status with
    | none => cases h
    | some status =>
      rw [judgeSubmit] at h
      split at h <;> cases h

/-- How far a send gets: to an error before the submit, a refusal, or a round that settles it. -/
theorem submit_cases (h : aptosSubmitEntryFunction env sdk refusalText net rounds = some s) :
    (s.signed.length ≤ 1 ∧ s.submitted = [] ∧ ∃ text, s.outcome = .error (.early text)) ∨
    ∃ tx auth hash, buildTransaction sdk refusalText net = .ok tx ∧ signTransaction sdk tx = .ok (auth, hash) ∧
      s.signed = [tx] ∧ s.submitted = [(tx, auth)] ∧
      ((∃ detail, judgeSubmit (net.submit tx auth) = .refused detail ∧ s.outcome = .error (.refused detail)) ∨
        ∃ accepted problem n, judgeSubmit (net.submit tx auth) = .settle accepted problem ∧
          settleAptosRound env net hash (expireSecs net) accepted problem n = some s.outcome) := by
  rw [aptosSubmitEntryFunction] at h
  cases hbuild : buildTransaction sdk refusalText net with
  | error text =>
    simp only [hbuild, Option.some.injEq] at h
    subst h
    exact .inl ⟨Nat.zero_le 1, rfl, text, rfl⟩
  | ok tx =>
    simp only [hbuild] at h
    cases hsign : signTransaction sdk tx with
    | error text =>
      simp only [hsign, Option.some.injEq] at h
      subst h
      exact .inl ⟨Nat.le_refl 1, rfl, text, rfl⟩
    | ok p =>
      obtain ⟨auth, hash⟩ := p
      simp only [hsign] at h
      cases hjudge : judgeSubmit (net.submit tx auth) with
      | refused detail =>
        simp only [hjudge, Option.some.injEq] at h
        subst h
        exact .inr ⟨tx, auth, hash, rfl, hsign, rfl, rfl, .inl ⟨detail, hjudge, rfl⟩⟩
      | settle accepted problem =>
        simp only [hjudge] at h
        obtain ⟨⟨n, outcome⟩, hrun, rfl⟩ := Option.map_eq_some_iff.1 h
        exact .inr ⟨tx, auth, hash, rfl, hsign, rfl, rfl, .inr ⟨accepted, problem, n, hjudge, Poll.step_of_run hrun⟩⟩

/-- What an outcome has to be true of. -/
def Says (took : Prop) (fate : Fate) (s : Sent Tx Auth) (hash : String) : Except AptosError TxResult → Prop
  | .ok r => r.hash = hash ∧ if r.pending then took else ∃ t, fate = some (t, true)
  | .error (.early _) => s.submitted = []
  | .error (.refused _) => ¬ took
  | .error (.failed _ _) => ∃ t, fate = some (t, false)
  | .error (.expired _) => fate = none
  | .error (.outcomeUnknown _ known) => known = hash

theorem AptosWorld.never {tx : Tx} {auth : Auth} {hash : String} {n : Nat}
    (hworld : AptosWorld env net tx auth hash took fate)
    (hmissing : lookupAptosTx env (net.lookup n hash) = .missing)
    (hpast : isPast (aptosLedgerSecs env (net.ledger n)) (expireSecs net) = true) : fate = none := by
  rw [isPast, Option.any_eq_true] at hpast
  obtain ⟨secs, hledger, hsecs⟩ := hpast
  cases hfate : fate with
  | none => rfl
  | some f =>
    obtain ⟨t, ok⟩ := f
    exact absurd hmissing
      (hworld.complete n secs t ok hledger (of_decide_eq_true hsecs) hfate (hworld.bound t ok hfate))

/-- A round settles a send as it is. -/
theorem round_truthful {tx : Tx} {auth : Auth} {hash problem : String} {accepted : Bool} {n : Nat}
    {outcome : Except AptosError TxResult} (hworld : AptosWorld env net tx auth hash took fate)
    (hjudge : judgeSubmit (net.submit tx auth) = .settle accepted problem)
    (h : settleAptosRound env net hash (expireSecs net) accepted problem n = some outcome) :
    Says took fate s hash outcome := by
  rcases settleAptosRound_cases h with ⟨vmStatus, hfound, rfl⟩ | ⟨vmStatus, hfound, rfl⟩ | ⟨hmissing, hpast, rfl⟩ |
    ⟨rfl, rfl⟩ | ⟨message, rfl⟩
  · exact ⟨rfl, hworld.shows n true vmStatus hfound⟩
  · exact hworld.shows n false vmStatus hfound
  · exact hworld.never hmissing hpast
  · exact ⟨rfl, hworld.accepts (judgeSubmit_accepted hjudge)⟩
  · exact rfl

/-- What a send comes to says what became of it, whatever was answered. -/
theorem submit_truthful (hworld : ∀ tx auth hash, buildTransaction sdk refusalText net = .ok tx →
      signTransaction sdk tx = .ok (auth, hash) → AptosWorld env net tx auth hash took fate)
    (h : aptosSubmitEntryFunction env sdk refusalText net rounds = some s) :
    (s.submitted = [] ∧ ∃ text, s.outcome = .error (.early text)) ∨
      ∃ tx auth hash, s.submitted = [(tx, auth)] ∧ sdk.hashOf tx auth = .ok hash ∧
        (∀ text, s.outcome ≠ .error (.early text)) ∧ Says took fate s hash s.outcome := by
  rcases submit_cases h with ⟨-, hnone, hearly⟩ | ⟨tx, auth, hash, hbuild, hsign, -, hsubmitted, hout⟩
  · exact .inl ⟨hnone, hearly⟩
  · refine .inr ⟨tx, auth, hash, hsubmitted, (signTransaction_ok hsign).2, ?_⟩
    rcases hout with ⟨detail, hjudge, hout⟩ | ⟨accepted, problem, n, hjudge, hround⟩
    · obtain ⟨status, hreply, hrefusal⟩ := judgeSubmit_refused hjudge
      rw [hout]
      exact ⟨fun text => by simp, (hworld tx auth hash hbuild hsign).refuses status detail hreply hrefusal⟩
    · refine ⟨fun text hearly => ?_, round_truthful (hworld tx auth hash hbuild hsign) hjudge hround⟩
      rw [hearly] at hround
      rcases settleAptosRound_cases hround with ⟨_, _, hout⟩ | ⟨_, _, hout⟩ | ⟨_, _, hout⟩ | ⟨_, hout⟩ | ⟨_, hout⟩ <;>
        cases hout

/-- Where the send does not stop early, what it comes to is so. -/
theorem submit_says (hworld : ∀ tx auth hash, buildTransaction sdk refusalText net = .ok tx →
      signTransaction sdk tx = .ok (auth, hash) → AptosWorld env net tx auth hash took fate)
    (h : aptosSubmitEntryFunction env sdk refusalText net rounds = some s) {outcome : Except AptosError TxResult}
    (hout : s.outcome = outcome) (hlate : ∀ text, outcome ≠ .error (.early text)) :
    ∃ tx auth hash, s.submitted = [(tx, auth)] ∧ sdk.hashOf tx auth = .ok hash ∧ Says took fate s hash outcome := by
  subst hout
  rcases submit_truthful hworld h with ⟨-, text, hearly⟩ | ⟨tx, auth, hash, hsubmitted, hhash, -, htruth⟩
  · exact absurd hearly (hlate text)
  · exact ⟨tx, auth, hash, hsubmitted, hhash, htruth⟩

theorem aptos_promise (hworld : ∀ tx auth hash, buildTransaction sdk refusalText net = .ok tx →
      signTransaction sdk tx = .ok (auth, hash) → AptosWorld env net tx auth hash took fate) :
    AptosPromise env sdk refusalText net took fate where
  once rounds s h := by
    rcases submit_cases h with ⟨hsigned, hnone, -⟩ | ⟨tx, auth, hash, -, hsign, hsigned, hsubmitted, -⟩
    · exact ⟨hsigned, .inl hnone⟩
    · exact ⟨by rw [hsigned]; exact Nat.le_refl 1, .inr ⟨tx, auth, hsigned, (signTransaction_ok hsign).1, hsubmitted⟩⟩
  early rounds s text h he := by
    rcases submit_truthful hworld h with ⟨hnone, -⟩ | ⟨_, _, _, -, -, hnot, -⟩
    · exact hnone
    · exact absurd he (hnot text)
  refused rounds s detail h he := by
    obtain ⟨_, _, _, -, -, htruth⟩ := submit_says hworld h he (by simp)
    exact htruth
  failed rounds s vmStatus hash h he := by
    obtain ⟨_, _, _, -, -, htruth⟩ := submit_says hworld h he (by simp)
    exact htruth
  expired rounds s hash h he := by
    obtain ⟨_, _, _, -, -, htruth⟩ := submit_says hworld h he (by simp)
    exact htruth
  unknown rounds s message hash h he := by
    obtain ⟨tx, auth, known, hsubmitted, hhash, htruth⟩ := submit_says hworld h he (by simp)
    exact ⟨tx, auth, hsubmitted, hhash.trans (congrArg Except.ok htruth.symm)⟩
  result rounds s r h he := by
    obtain ⟨tx, auth, known, hsubmitted, hhash, hknown, hresult⟩ := submit_says hworld h he (by simp)
    exact ⟨⟨tx, auth, hsubmitted, hhash.trans (congrArg Except.ok hknown.symm)⟩, hresult⟩
  ends n h := by
    rw [aptosSubmitEntryFunction]
    cases buildTransaction sdk refusalText net with
    | error text => rfl
    | ok tx =>
      simp only
      cases signTransaction sdk tx with
      | error text => rfl
      | ok p =>
        obtain ⟨auth, hash⟩ := p
        simp only
        cases judgeSubmit (net.submit tx auth) with
        | refused detail => rfl
        | settle accepted problem =>
          simp only [Option.isSome_map]
          exact Poll.run_isSome (m := n) (by rw [Nat.zero_add]; exact settleAptosRound_ends h) (Nat.lt_succ_self n)

end

/-! ## Both sends -/

section

open Tron (HostsTook TronPromise ShowsRun Misread asked)

/-- Both sends keep their promises exactly if the TRON broadcast takes no answer for a refusal that a host which took
the transaction could have given. -/
theorem tron_aptos_sends_iff (env : Tron.Engine) (net : Tron.Net) (body txID label : String) (ran : Option Bool)
    (aptosEnv : Engine) {Tx Auth : Type} (sdk : Sdk Tx Auth) (refusalText : String → String) (aptosNet : Net Tx Auth)
    (took : Prop) (fate : Fate) (hshows : ShowsRun env net ran)
    (hworld : ∀ tx auth hash, buildTransaction sdk refusalText aptosNet = .ok tx →
      signTransaction sdk tx = .ok (auth, hash) → AptosWorld aptosEnv aptosNet tx auth hash took fate) :
    (∀ hostTook, HostsTook env net txID (asked env net txID) hostTook →
        TronPromise env net body txID label hostTook ran) ∧ AptosPromise aptosEnv sdk refusalText aptosNet took fate ↔
      ¬ Misread env net txID := by
  rw [Tron.tron_promise_iff hshows]
  exact and_iff_left (aptos_promise hworld)

/-! ### An answer without a code -/

def sampleEnv : Tron.Engine where
  toEnv := SessionSend.sampleEnv
  toLowerCase := id

/-- Both hosts answer the broadcast with this; nothing shows the transaction. -/
def sampleNet (answer : Tron.Answer) : Tron.Net where
  broadcast _ := answer
  lookup _ _ := .error "unreachable"
  entered := 0
  now n := 3000 * n

theorem sampleNet_shows (answer : Tron.Answer) : ShowsRun sampleEnv (sampleNet answer) none :=
  fun _ _ hincluded => nomatch hincluded

def sampleSdk : Sdk String String where
  draft := .ok "draft"
  sequenceNumber _ := 0
  simulate _ := .ok (some ⟨true, some "Executed successfully", "10", "100"⟩)
  build _ := .ok "transaction"
  sign _ := .ok "signature"
  hashOf _ _ := .ok "0xc0ffee"

/-- The submit times out, and the API is out of reach afterwards. -/
def sampleAptosNet : Net String String where
  submit _ _ := .failed none "timeout"
  ledger _ := .error "unreachable"
  lookup _ _ := .error "unreachable"
  built := 0
  entered := 0
  now n := 1000 * n

def sampleAptosEnv : Engine where
  jsonParse _ := .error "Unexpected end of JSON input"
  toText := SessionSend.sampleEnv.toText

theorem sampleAptosNet_world (tx auth hash : String) :
    AptosWorld sampleAptosEnv sampleAptosNet tx auth hash False none where
  bound _ _ hfate := nomatch hfate
  complete _ _ _ _ hledger := nomatch hledger
  shows _ _ _ hfound := nomatch hfound
  refuses _ _ hsubmit := nomatch hsubmit
  accepts hsubmit := nomatch hsubmit

theorem tron_aptos_sends_iff_sample :
    (∀ hostTook, HostsTook sampleEnv (sampleNet (.error "timeout")) "c0ffee"
        (asked sampleEnv (sampleNet (.error "timeout")) "c0ffee") hostTook →
        TronPromise sampleEnv (sampleNet (.error "timeout")) "\x7b\x7d" "c0ffee" "TRX" hostTook none) ∧
      AptosPromise sampleAptosEnv sampleSdk id sampleAptosNet False none ↔
      ¬ Misread sampleEnv (sampleNet (.error "timeout")) "c0ffee" :=
  tron_aptos_sends_iff sampleEnv (sampleNet (.error "timeout")) "\x7b\x7d" "c0ffee" "TRX" none sampleAptosEnv
    sampleSdk id sampleAptosNet False none (sampleNet_shows _)
    fun tx auth hash _ _ => sampleAptosNet_world tx auth hash

/-- TronGrid answers 200 with an empty object. -/
theorem sampleNet_misread : Misread sampleEnv (sampleNet (.ok (200, "\x7b\x7d"))) "c0ffee" := by
  refine .inl ⟨?_, by decide, fun _ result code hparse hcode => ?_⟩
  · have hparse : sampleEnv.jsonParse "\x7b\x7d" = some (.obj []) := rfl
    have hok : Tron.isOk 200 = true := by decide
    simp [sampleNet, Tron.readAttempt, hok, hparse, Tron.readBroadcastAnswer, Tron.saysTrue, Tron.textField, Json.get,
      Tron.NODE_LOCAL_CODES, Tron.Reading.Refuses]
  · obtain rfl := Option.some.inj hparse
    cases hcode

theorem not_always_truthful : ¬ ∀ (env : Tron.Engine) (net : Tron.Net) (body txID label : String) (ran : Option Bool)
    (aptosEnv : Engine) (sdk : Sdk String String) (refusalText : String → String) (aptosNet : Net String String)
    (took : Prop) (fate : Fate), ShowsRun env net ran →
      (∀ tx auth hash, buildTransaction sdk refusalText aptosNet = .ok tx →
        signTransaction sdk tx = .ok (auth, hash) → AptosWorld aptosEnv aptosNet tx auth hash took fate) →
      (∀ hostTook, HostsTook env net txID (asked env net txID) hostTook →
        TronPromise env net body txID label hostTook ran) ∧
        AptosPromise aptosEnv sdk refusalText aptosNet took fate := by
  intro h
  obtain ⟨hostTook, htook, hnot⟩ := Tron.not_tron_promise "\x7b\x7d" "TRX" none sampleNet_misread
  exact hnot ((h sampleEnv (sampleNet (.ok (200, "\x7b\x7d"))) "\x7b\x7d" "c0ffee" "TRX" none sampleAptosEnv
    sampleSdk id sampleAptosNet False none (sampleNet_shows _)
    fun tx auth hash _ _ => sampleAptosNet_world tx auth hash).1 hostTook htook)

end

end Aptos
