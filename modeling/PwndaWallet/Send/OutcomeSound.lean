import PwndaWallet.Send.Outcome

/-!
# A send says what became of it

What a Stellar or a Sui send reports is compared with what the service reported to it, and with what can still become
of the transaction.
-/

namespace SessionSend

open Rust

/-! ## What an error says -/

/-- Errors that say, or by coming before the submit imply, that nothing was sent. -/
def SendError.SaysNothingSent : SendError → Prop
  | .early _ | .keyMismatch _ _ _ | .badSignature | .stellarRejected _ | .stellarExpired _ => True
  | .stellarFailed _ _ | .suiFailed _ _ | .outcomeUnknown _ _ => False

/-- Errors that say that only the fee was spent. -/
def SendError.SaysFeeSpent : SendError → Prop
  | .stellarFailed _ _ | .suiFailed _ _ => True
  | .early _ | .keyMismatch _ _ _ | .badSignature | .stellarRejected _ | .stellarExpired _ | .outcomeUnknown _ _ => False

/-- What an error may be thrown after: nothing that can apply, a transaction that failed, or anything, under its hash. -/
structure Honest (e : SendError) (never failed : Prop) (hash : String) : Prop where
  nothingSent : e.SaysNothingSent → never
  feeSpent : e.SaysFeeSpent → failed
  otherwise : ¬ e.SaysNothingSent → ¬ e.SaysFeeSpent → ∃ message, e = .outcomeUnknown message hash

theorem Honest.unknown {never failed : Prop} (message hash : String) :
    Honest (.outcomeUnknown message hash) never failed hash :=
  ⟨fun h => h.elim, fun h => h.elim, fun _ _ => ⟨message, rfl⟩⟩

theorem Honest.of_never {e : SendError} {never failed : Prop} {hash : String} (he : e.SaysNothingSent)
    (hfee : ¬ e.SaysFeeSpent) (h : never) : Honest e never failed hash :=
  ⟨fun _ => h, fun hspent => absurd hspent hfee, fun hnot => absurd he hnot⟩

theorem Honest.of_failed {e : SendError} {never failed : Prop} {hash : String} (he : e.SaysFeeSpent)
    (hsent : ¬ e.SaysNothingSent) (h : failed) : Honest e never failed hash :=
  ⟨fun hnothing => absurd hnothing hsent, fun _ => h, fun _ hnot => absurd he hnot⟩

/-- The errors before the submit. -/
def SendError.Early : SendError → Prop
  | .early _ | .keyMismatch _ _ _ | .badSignature => True
  | .stellarRejected _ | .stellarExpired _ | .stellarFailed _ _ | .suiFailed _ _ | .outcomeUnknown _ _ => False

theorem SendError.Early.honest {e : SendError} (h : e.Early) {never failed : Prop} (hnever : never) (hash : String) :
    Honest e never failed hash := by
  cases e with
  | early _ => exact .of_never trivial id hnever
  | keyMismatch _ _ _ => exact .of_never trivial id hnever
  | badSignature => exact .of_never trivial id hnever
  | _ => exact h.elim

/-! ## The ledger -/

/-- What becomes of a transaction that is submitted: the close time of the ledger that includes it, and whether it
succeeds there. -/
abbrev Fate := Option (Int × Bool)

section

variable (env : Env)

/-- Horizon and the ledger: a transaction is not included after its time bound; a read of a ledger that closed at `c`
is followed by lookups that know every transaction included up to `c` less the margin; what is reported as failed
was included and failed; and an answer 400 to the submit is a refusal, or with `tx_failed` such a report. -/
structure StellarWorld (hz : Horizon) (tx : Prepared) (fate : Fate) : Prop where
  bound (t : Int) (ok : Bool) : 0 < tx.maxTime → fate = some (t, ok) → t ≤ tx.maxTime
  complete (n : Nat) (c t : Int) (ok : Bool) : closedAtMs env (hz.ledger n) = some c → fate = some (t, ok) →
    t * 1000 ≤ c - STELLAR_LEDGER_MARGIN_SECS * 1000 → lookupStellarTx env (hz.lookup n) ≠ .missing
  failed (n : Nat) : lookupStellarTx env (hz.lookup n) = .failed → ∃ t, fate = some (t, false)
  rejects (envelope : String) (r : Response) (body : Json) : hz.submit envelope = .ok r → r.status = 400 →
    readJsonBody env r = some body → if isTxFailed body then ∃ t, fate = some (t, false) else fate = none

/-- The answer to the submit says that the transaction was applied. -/
def SubmitReports (hz : Horizon) (envelope : String) : Prop :=
  ∃ r body, hz.submit envelope = .ok r ∧ r.ok = true ∧ readJsonBody env r = some body ∧
    body.get "successful" = some (.bool true)

/-- The answer to the submit is well, has a JSON body, and does not say whether the transaction was applied. -/
def SubmitNamesNothing (hz : Horizon) (envelope : String) : Prop :=
  ∃ r body, hz.submit envelope = .ok r ∧ r.ok = true ∧ readJsonBody env r = some body ∧
    ∀ b, body.get "successful" ≠ some (.bool b)

/-! ## The laws -/

/-- What is promised of a Stellar send. -/
structure StellarLaw (signer : StellarSigner) (hz : Horizon) (shown : String) (fate : Fate) : Prop where
  once (rounds : Nat) (s : Sent String) : executeStellarTransfer env signer hz shown rounds = some s →
    s.signings ≤ 1 ∧ (s.submitted = [] ∨ ∃ tx signed envelope, signer.prepare = .ok tx ∧
      signer.sign tx.txXdr = .ok signed ∧ signer.accountOf signed = .ok shown ∧
      signer.verifies signed tx.hash = .ok true ∧ signer.envelope tx.txXdr signed = .ok envelope ∧
      s.submitted = [envelope])
  applied (rounds : Nat) (s : Sent String) (hash : String) : executeStellarTransfer env signer hz shown rounds = some s →
    s.outcome = .ok hash → ∃ tx envelope, sealStellar signer shown = .ok (tx, envelope) ∧ hash = tx.hash ∧
      (SubmitReports env hz envelope ∨ ∃ n < s.polls, lookupStellarTx env (hz.lookup n) = .success)
  errors (rounds : Nat) (s : Sent String) (e : SendError) (tx : Prepared) :
    executeStellarTransfer env signer hz shown rounds = some s → s.outcome = .error e → signer.prepare = .ok tx →
      Honest e (s.submitted = [] ∨ fate = none) (s.submitted ≠ [] ∧ ∃ t, fate = some (t, false)) tx.hash
  ends (n : Nat) : (∀ tx envelope, sealStellar signer shown = .ok (tx, envelope) →
    stellarDeadline hz tx.maxTime ≤ hz.now n) → (executeStellarTransfer env signer hz shown (n + 1)).isSome = true

/-- What is promised of a Sui send. -/
structure SuiLaw (signer : SuiSigner) (net : SuiNet) (shown : String) (fate : Option Bool) : Prop where
  once (rounds : Nat) (s : Sent (String × String)) : executeSuiTransfer env signer net shown rounds = some s →
    s.signings ≤ 1 ∧ ∀ b ∈ s.submitted, ∃ tx signed, signer.prepare = .ok tx ∧ signer.sign tx.1 = .ok signed ∧
      b = (tx.1, signed.signature)
  applied (rounds : Nat) (s : Sent (String × String)) (digest : String) :
    executeSuiTransfer env signer net shown rounds = some s → s.outcome = .ok digest →
      ∃ bytes, sealSui signer shown = .ok (bytes, digest) ∧
        ((∃ effects, (executeSuiTransaction env net).2 = .ok effects ∧ suiStatus effects = some .success) ∨
          ∃ n < s.polls, ∃ error, suiTransactionStatus env net n = .ok (some (.success, error)))
  errors (rounds : Nat) (s : Sent (String × String)) (e : SendError) (tx : String × String) :
    executeSuiTransfer env signer net shown rounds = some s → s.outcome = .error e → signer.prepare = .ok tx →
      Honest e (s.submitted = [] ∨ fate = none) (fate = some false) tx.2
  ends (n : Nat) : net.entered + SUI_LOOKUP_MS ≤ net.now n →
    (executeSuiTransfer env signer net shown (n + 1)).isSome = true

/-- Sui reports a failure only of a transaction that ran and failed. -/
structure SuiWorld (net : SuiNet) (fate : Option Bool) : Prop where
  submit (effects : Option Json) : (executeSuiTransaction env net).2 = .ok effects → suiStatus effects = some .failure →
    fate = some false
  failed (n : Nat) (error : Option String) : suiTransactionStatus env net n = .ok (some (.failure, error)) →
    fate = some false

end

/-! ## Polling -/

section

variable {env : Env} {judged : Except String (Except SendError String)}
  {round : String → Nat → Option (Except SendError String)}

theorem settled_cases {rounds polls : Nat} {outcome : Except SendError String}
    (h : settled judged round rounds = some (polls, outcome)) :
    judged = .ok outcome ∨ ∃ why n, judged = .error why ∧ n < polls ∧ round why n = some outcome := by
  cases judged with
  | ok decided =>
    rw [settled, Option.some.injEq, Prod.mk.injEq] at h
    exact .inl (congrArg _ h.2)
  | error why =>
    rw [settled] at h
    obtain ⟨⟨n, outcome'⟩, hrun, heq⟩ := Option.map_eq_some_iff.1 h
    rw [Prod.mk.injEq] at heq
    obtain ⟨rfl, rfl⟩ := heq
    exact .inr ⟨why, n, rfl, Nat.lt_succ_self n, Poll.step_of_run hrun⟩

theorem settled_isSome {n : Nat} (h : ∀ why, (round why n).isSome = true) : (settled judged round (n + 1)).isSome = true := by
  cases judged with
  | ok decided => rfl
  | error why =>
    rw [settled, Option.isSome_map]
    exact Poll.run_isSome (m := n) (by rw [Nat.zero_add]; exact h why) (Nat.lt_succ_self n)

end

/-! ## Before the submit -/

section

variable {α β : Type} {x : Except String α} {f : α → Except SendError β}

theorem early_ok {b : β} (h : (x.mapError SendError.early).bind f = .ok b) : ∃ a, x = .ok a ∧ f a = .ok b := by
  cases x with
  | error t => cases h
  | ok a => exact ⟨a, rfl, h⟩

theorem early_error {e : SendError} (h : (x.mapError SendError.early).bind f = .error e) :
    e.Early ∨ ∃ a, x = .ok a ∧ f a = .error e := by
  cases x with
  | error t =>
    obtain rfl := Except.error.inj h
    exact .inl trivial
  | ok a => exact .inr ⟨a, rfl, h⟩

end

/-! ## Stellar -/

section

variable {env : Env} {signer : StellarSigner} {hz : Horizon} {shown : String} {fate : Fate}

theorem sealStellar_ok {tx : Prepared} {envelope : String} (h : sealStellar signer shown = .ok (tx, envelope)) :
    signer.prepare = .ok tx ∧ ∃ signed, signer.sign tx.txXdr = .ok signed ∧ signer.accountOf signed = .ok shown ∧
      signer.verifies signed tx.hash = .ok true ∧ signer.envelope tx.txXdr signed = .ok envelope := by
  rw [sealStellar] at h
  obtain ⟨tx', hprepare, h⟩ := early_ok h
  obtain ⟨signed, hsign, h⟩ := early_ok h
  obtain ⟨account, haccount, h⟩ := early_ok h
  by_cases hne : account ≠ shown
  · rw [if_pos hne] at h
    cases h
  · rw [if_neg hne] at h
    obtain ⟨good, hgood, h⟩ := early_ok h
    cases good with
    | false => cases h
    | true =>
      cases henvelope : signer.envelope tx'.txXdr signed with
      | error t =>
        rw [henvelope] at h
        cases h
      | ok envelope' =>
        rw [henvelope] at h
        obtain ⟨rfl, rfl⟩ := Prod.mk.inj (Except.ok.inj h)
        obtain rfl := Classical.not_not.1 hne
        exact ⟨hprepare, signed, hsign, haccount, hgood, henvelope⟩

theorem sealStellar_error {e : SendError} (h : sealStellar signer shown = .error e) : e.Early := by
  rw [sealStellar] at h
  rcases early_error h with he | ⟨tx, -, h⟩
  · exact he
  rcases early_error h with he | ⟨signed, -, h⟩
  · exact he
  rcases early_error h with he | ⟨account, -, h⟩
  · exact he
  by_cases hne : account ≠ shown
  · rw [if_pos hne] at h
    obtain rfl := Except.error.inj h
    trivial
  · rw [if_neg hne] at h
    rcases early_error h with he | ⟨good, -, h⟩
    · exact he
    cases good with
    | false =>
      obtain rfl := Except.error.inj h
      trivial
    | true =>
      cases henvelope : signer.envelope tx.txXdr signed with
      | error t =>
        rw [henvelope] at h
        obtain rfl := Except.error.inj h
        trivial
      | ok envelope =>
        rw [henvelope] at h
        cases h

theorem stillOpen_cases {missing late : Bool} {closedAt : Option Int} {hash why : String} {maxTime : Nat}
    {outcome : Except SendError String} (h : stillOpen missing closedAt hash maxTime why late = some outcome) :
    (outcome = .error (.stellarExpired hash) ∧ missing = true ∧ isPast closedAt maxTime = true) ∨
      ∃ message, outcome = .error (.outcomeUnknown message hash) := by
  rw [stillOpen] at h
  by_cases hpast : (missing && isPast closedAt maxTime) = true
  · rw [if_pos hpast] at h
    exact .inl ⟨(Option.some.inj h).symm, (Bool.and_eq_true _ _).mp hpast⟩
  · rw [if_neg hpast] at h
    cases late with
    | false => cases h
    | true => exact .inr ⟨_, (Option.some.inj h).symm⟩

/-- A round decides by a report, after the time bound, or at the deadline. -/
theorem settleStellarRound_cases {hash why : String} {maxTime n : Nat} {outcome : Except SendError String}
    (h : settleStellarRound env hz hash maxTime why n = some outcome) :
    (outcome = .ok hash ∧ lookupStellarTx env (hz.lookup n) = .success) ∨
    (outcome = .error (.stellarFailed none hash) ∧ lookupStellarTx env (hz.lookup n) = .failed) ∨
    (outcome = .error (.stellarExpired hash) ∧ lookupStellarTx env (hz.lookup n) = .missing ∧
      isPast (horizonLatestLedgerSecs env (hz.ledger n)) maxTime = true) ∨
    ∃ message, outcome = .error (.outcomeUnknown message hash) := by
  rw [settleStellarRound] at h
  cases hfound : lookupStellarTx env (hz.lookup n) with
  | success =>
    rw [hfound] at h
    exact .inl ⟨(Option.some.inj h).symm, rfl⟩
  | failed =>
    rw [hfound] at h
    exact .inr (.inl ⟨(Option.some.inj h).symm, rfl⟩)
  | missing =>
    rw [hfound] at h
    rcases stillOpen_cases h with ⟨houtcome, -, hpast⟩ | hunknown
    · exact .inr (.inr (.inl ⟨houtcome, rfl, hpast⟩))
    · exact .inr (.inr (.inr hunknown))
  | error e =>
    rw [hfound] at h
    rcases stillOpen_cases h with ⟨-, hmissing, -⟩ | hunknown
    · cases hmissing
    · exact .inr (.inr (.inr hunknown))

theorem stillOpen_late {missing : Bool} {closedAt : Option Int} {hash why : String} {maxTime : Nat} :
    (stillOpen missing closedAt hash maxTime why true).isSome = true := by
  rw [stillOpen]
  by_cases hpast : (missing && isPast closedAt maxTime) = true
  · rw [if_pos hpast]
    rfl
  · rw [if_neg hpast]
    rfl

theorem settleStellarRound_ends {hash why : String} {maxTime n : Nat} (h : stellarDeadline hz maxTime ≤ hz.now n) :
    (settleStellarRound env hz hash maxTime why n).isSome = true := by
  have hlate : decide (hz.now n ≥ stellarDeadline hz maxTime) = true := decide_eq_true h
  rw [settleStellarRound, hlate]
  cases lookupStellarTx env (hz.lookup n) with
  | success => rfl
  | failed => rfl
  | missing => exact stillOpen_late
  | error e => exact stillOpen_late

/-- A transaction that a lookup misses after a ledger past its time bound is not included any more. -/
theorem StellarWorld.never {tx : Prepared} (hworld : StellarWorld env hz tx fate) {n : Nat}
    (hmissing : lookupStellarTx env (hz.lookup n) = .missing)
    (hpast : isPast (horizonLatestLedgerSecs env (hz.ledger n)) tx.maxTime = true) : fate = none := by
  rw [isPast, Bool.and_eq_true, decide_eq_true_eq] at hpast
  obtain ⟨hpos, hpast⟩ := hpast
  cases hclosed : closedAtMs env (hz.ledger n) with
  | none =>
    rw [horizonLatestLedgerSecs, hclosed] at hpast
    cases hpast
  | some c =>
    rw [horizonLatestLedgerSecs, hclosed, Option.map_some, Option.any_some, decide_eq_true_eq] at hpast
    cases hfate : fate with
    | none => rfl
    | some f =>
      obtain ⟨t, ok⟩ := f
      have hbound := hworld.bound t ok hpos hfate
      refine absurd hmissing (hworld.complete n c t ok hclosed hfate ?_)
      -- the close time in whole seconds is past the bound by more than the margin
      simp only [STELLAR_LEDGER_MARGIN_SECS] at hpast ⊢
      omega

/-- What the answer to the submit decides. -/
theorem judgeSubmit_ok {hash : String} {reply : Reply} {outcome : Except SendError String}
    (h : judgeSubmit env hash reply = .ok outcome) : ∃ r body, reply = .ok r ∧ readJsonBody env r = some body ∧
      ((outcome = .ok hash ∧ r.ok = true ∧ saysUnsuccessful body = false) ∨
        (outcome = .error (stellarRejection env body hash) ∧ r.status = 400)) := by
  cases reply with
  | error e => cases h
  | ok r =>
    cases hbody : readJsonBody env r with
    | none =>
      simp only [judgeSubmit, hbody] at h
      cases h
    | some body =>
      simp only [judgeSubmit, hbody] at h
      refine ⟨r, body, rfl, hbody, ?_⟩
      by_cases hok : (r.ok && !saysUnsuccessful body) = true
      · rw [if_pos hok] at h
        rw [Bool.and_eq_true, Bool.not_eq_true'] at hok
        exact .inl ⟨(Except.ok.inj h).symm, hok⟩
      · rw [if_neg hok] at h
        by_cases hstatus : r.status = 400
        · rw [if_pos hstatus] at h
          exact .inr ⟨(Except.ok.inj h).symm, hstatus⟩
        · rw [if_neg hstatus] at h
          cases h

theorem judgeSubmit_of_ok {hash : String} {r : Response} {body : Json} (hok : r.ok = true)
    (hbody : readJsonBody env r = some body) (hnot : saysUnsuccessful body = false) :
    judgeSubmit env hash (.ok r) = .ok (.ok hash) := by
  simp [judgeSubmit, hbody, hok, hnot]

theorem saysUnsuccessful_iff {body : Json} : saysUnsuccessful body = true ↔ body.get "successful" = some (.bool false) := by
  rw [saysUnsuccessful]
  split
  · rename_i heq
    simp [heq]
  · rename_i hne
    simpa using hne

/-! ### The law -/

/-- A run that gets to the submit. -/
theorem execute_cases {rounds : Nat} {s : Sent String} (h : executeStellarTransfer env signer hz shown rounds = some s) :
    (∃ e, sealStellar signer shown = .error e ∧ s = ⟨[], stellarSignings signer, 0, .error e⟩) ∨
    ∃ tx envelope, sealStellar signer shown = .ok (tx, envelope) ∧ s.submitted = [envelope] ∧
      s.signings = stellarSignings signer ∧
      submitStellar env hz envelope tx.hash tx.maxTime rounds = some (s.polls, s.outcome) := by
  rw [executeStellarTransfer] at h
  cases hseal : sealStellar signer shown with
  | error e =>
    rw [hseal] at h
    exact .inl ⟨e, rfl, (Option.some.inj h).symm⟩
  | ok p =>
    obtain ⟨tx, envelope⟩ := p
    rw [hseal] at h
    obtain ⟨r, hsubmit, rfl⟩ := Option.map_eq_some_iff.1 h
    exact .inr ⟨tx, envelope, rfl, rfl, rfl, hsubmit⟩

theorem stellarSignings_le : stellarSignings signer ≤ 1 := by
  rw [stellarSignings]
  split <;> decide

theorem stellar_errors (hworld : ∀ tx, signer.prepare = .ok tx → StellarWorld env hz tx fate) {rounds : Nat} {s : Sent String}
    {e : SendError} {tx : Prepared} (h : executeStellarTransfer env signer hz shown rounds = some s)
    (he : s.outcome = .error e) (htx : signer.prepare = .ok tx) :
    Honest e (s.submitted = [] ∨ fate = none) (s.submitted ≠ [] ∧ ∃ t, fate = some (t, false)) tx.hash := by
  have hworld := hworld tx htx
  rcases execute_cases h with ⟨e', hseal, rfl⟩ | ⟨tx', envelope, hseal, hsubmitted, -, hsubmit⟩
  · obtain rfl := Except.error.inj he
    exact (sealStellar_error hseal).honest (.inl rfl) _
  · obtain rfl := Except.ok.inj (htx.symm.trans (sealStellar_ok hseal).1)
    have hne : s.submitted ≠ [] := by simp [hsubmitted]
    rw [submitStellar, he] at hsubmit
    rcases settled_cases hsubmit with hjudge | ⟨why, n, -, -, hround⟩
    · obtain ⟨r, body, hreply, hbody, ⟨hok, -⟩ | ⟨herror, hstatus⟩⟩ := judgeSubmit_ok hjudge
      · cases hok
      · obtain rfl := Except.error.inj herror
        have hrejects := hworld.rejects envelope r body hreply hstatus hbody
        rw [stellarRejection]
        cases hfailed : isTxFailed body with
        | true =>
          rw [hfailed, if_pos rfl] at hrejects
          exact .of_failed trivial id ⟨hne, hrejects⟩
        | false =>
          rw [hfailed] at hrejects
          exact .of_never trivial id (.inr hrejects)
    · rcases settleStellarRound_cases hround with ⟨hok, -⟩ | ⟨herror, hfailed⟩ | ⟨herror, hmissing, hpast⟩ | ⟨message, herror⟩
      · cases hok
      · obtain rfl := Except.error.inj herror
        exact .of_failed trivial id ⟨hne, hworld.failed n hfailed⟩
      · obtain rfl := Except.error.inj herror
        exact .of_never trivial id (.inr (hworld.never hmissing hpast))
      · obtain rfl := Except.error.inj herror
        exact .unknown message tx.hash

theorem stellar_law (hworld : ∀ tx, signer.prepare = .ok tx → StellarWorld env hz tx fate)
    (hnames : ∀ tx envelope, sealStellar signer shown = .ok (tx, envelope) → ¬ SubmitNamesNothing env hz envelope) :
    StellarLaw env signer hz shown fate where
  once rounds s h := by
    rcases execute_cases h with ⟨e, -, rfl⟩ | ⟨tx, envelope, hseal, hsubmitted, hsignings, -⟩
    · exact ⟨stellarSignings_le, .inl rfl⟩
    · obtain ⟨hprepare, signed, hsign, haccount, hverifies, henvelope⟩ := sealStellar_ok hseal
      exact ⟨hsignings ▸ stellarSignings_le, .inr ⟨tx, signed, envelope, hprepare, hsign, haccount, hverifies, henvelope,
        hsubmitted⟩⟩
  applied rounds s hash h hok := by
    rcases execute_cases h with ⟨e, -, rfl⟩ | ⟨tx, envelope, hseal, -, -, hsubmit⟩
    · cases hok
    · rw [submitStellar, hok] at hsubmit
      rcases settled_cases hsubmit with hjudge | ⟨why, n, -, hn, hround⟩
      · obtain ⟨r, body, hreply, hbody, ⟨hhash, hgood, hnot⟩ | ⟨herror, -⟩⟩ := judgeSubmit_ok hjudge
        · refine ⟨tx, envelope, hseal, Except.ok.inj hhash, .inl ⟨r, body, hreply, hgood, hbody, ?_⟩⟩
          apply Classical.byContradiction
          intro hne
          refine hnames tx envelope hseal ⟨r, body, hreply, hgood, hbody, fun b hb => ?_⟩
          cases b with
          | true => exact hne hb
          | false =>
            rw [saysUnsuccessful_iff.2 hb] at hnot
            cases hnot
        · cases herror
      · rcases settleStellarRound_cases hround with ⟨hhash, hfound⟩ | ⟨herror, -⟩ | ⟨herror, -⟩ | ⟨message, herror⟩
        · exact ⟨tx, envelope, hseal, Except.ok.inj hhash, .inr ⟨n, hn, hfound⟩⟩
        · cases herror
        · cases herror
        · cases herror
  errors _ _ _ _ h he htx := stellar_errors hworld h he htx
  ends n h := by
    rw [executeStellarTransfer]
    cases hseal : sealStellar signer shown with
    | error e => rfl
    | ok p =>
      obtain ⟨tx, envelope⟩ := p
      show ((submitStellar env hz envelope tx.hash tx.maxTime (n + 1)).map _).isSome = true
      rw [Option.isSome_map]
      exact settled_isSome fun why => settleStellarRound_ends (h tx envelope hseal)

/-- An answer that names nothing is taken for a report. -/
theorem not_stellar_law {tx : Prepared} {envelope : String} (hseal : sealStellar signer shown = .ok (tx, envelope))
    (hnames : SubmitNamesNothing env hz envelope) : ¬ StellarLaw env signer hz shown fate := by
  intro hlaw
  obtain ⟨r, body, hreply, hgood, hbody, hnone⟩ := hnames
  have hnot : saysUnsuccessful body = false := by
    rw [← Bool.not_eq_true, saysUnsuccessful_iff]
    exact hnone false
  have hrun : executeStellarTransfer env signer hz shown 0 =
      some ⟨[envelope], stellarSignings signer, 0, .ok tx.hash⟩ := by
    rw [executeStellarTransfer, hseal]
    show ((submitStellar env hz envelope tx.hash tx.maxTime 0).map _) = _
    rw [submitStellar, hreply, judgeSubmit_of_ok hgood hbody hnot]
    rfl
  obtain ⟨tx', envelope', hseal', -, ⟨r', body', hreply', -, hbody', hreport⟩ | ⟨n, hn, -⟩⟩ := hlaw.applied 0 _ _ hrun rfl
  · obtain ⟨-, rfl⟩ := Prod.mk.inj (Except.ok.inj (hseal.symm.trans hseal'))
    obtain rfl := Except.ok.inj (hreply.symm.trans hreply')
    obtain rfl := Option.some.inj (hbody.symm.trans hbody')
    exact hnone true hreport
  · exact absurd hn (Nat.not_lt_zero n)

end

/-! ## Sui -/

section

variable {env : Env} {signer : SuiSigner} {net : SuiNet} {shown : String} {fate : Option Bool}

theorem sealSui_ok {bytes : String × String} {digest : String} (h : sealSui signer shown = .ok (bytes, digest)) :
    ∃ tx signed, signer.prepare = .ok tx ∧ signer.sign tx.1 = .ok signed ∧ bytes = (tx.1, signed.signature) ∧
      digest = tx.2 := by
  rw [sealSui] at h
  obtain ⟨tx, hprepare, h⟩ := early_ok h
  obtain ⟨signed, hsign, h⟩ := early_ok h
  obtain ⟨address, -, h⟩ := early_ok h
  by_cases hne : Rust.toAsciiLowercase address ≠ shown
  · rw [if_pos hne] at h
    cases h
  · rw [if_neg hne] at h
    obtain ⟨rfl, rfl⟩ := Prod.mk.inj (Except.ok.inj h)
    exact ⟨tx, signed, hprepare, hsign, rfl, rfl⟩

theorem sealSui_error {e : SendError} (h : sealSui signer shown = .error e) : e.Early := by
  rw [sealSui] at h
  rcases early_error h with he | ⟨tx, -, h⟩
  · exact he
  rcases early_error h with he | ⟨signed, -, h⟩
  · exact he
  rcases early_error h with he | ⟨address, -, h⟩
  · exact he
  by_cases hne : Rust.toAsciiLowercase address ≠ shown
  · rw [if_pos hne] at h
    obtain rfl := Except.error.inj h
    trivial
  · rw [if_neg hne] at h
    cases h

theorem judgeSuiSubmit_ok {digest : String} {answer : Except String (Option Json)} {outcome : Except SendError String}
    (h : judgeSuiSubmit digest answer = .ok outcome) : ∃ effects, answer = .ok effects ∧
      ((outcome = .ok digest ∧ suiStatus effects = some .success) ∨
        ((∃ detail, outcome = .error (.suiFailed detail digest)) ∧ suiStatus effects = some .failure)) := by
  cases answer with
  | error e => cases h
  | ok effects =>
    cases hstatus : suiStatus effects with
    | none =>
      simp only [judgeSuiSubmit, hstatus] at h
      cases h
    | some status =>
      simp only [judgeSuiSubmit, hstatus] at h
      cases status with
      | success => exact ⟨effects, rfl, .inl ⟨(Except.ok.inj h).symm, hstatus⟩⟩
      | failure => exact ⟨effects, rfl, .inr ⟨⟨_, (Except.ok.inj h).symm⟩, hstatus⟩⟩

/-- A round decides by a report, or at the deadline. -/
theorem settleSuiRound_cases {digest why : String} {n : Nat} {outcome : Except SendError String}
    (h : settleSuiRound env net digest why n = some outcome) :
    (outcome = .ok digest ∧ ∃ error, suiTransactionStatus env net n = .ok (some (.success, error))) ∨
    ((∃ detail, outcome = .error (.suiFailed detail digest)) ∧
      ∃ error, suiTransactionStatus env net n = .ok (some (.failure, error))) ∨
    ∃ message, outcome = .error (.outcomeUnknown message digest) := by
  have hlate (h : (if net.now n ≥ net.entered + SUI_LOOKUP_MS then
      some (Except.error (SendError.outcomeUnknown
        s!"Sui has not confirmed the transaction (the node answered: {why})." digest)) else none) = some outcome) :
      ∃ message, outcome = .error (.outcomeUnknown message digest) := by
    by_cases hdeadline : net.now n ≥ net.entered + SUI_LOOKUP_MS
    · rw [if_pos hdeadline] at h
      exact ⟨_, (Option.some.inj h).symm⟩
    · rw [if_neg hdeadline] at h
      cases h
  rw [settleSuiRound] at h
  cases hstatus : suiTransactionStatus env net n with
  | error e =>
    rw [hstatus] at h
    exact .inr (.inr (hlate h))
  | ok found =>
    rw [hstatus] at h
    match found, h with
    | none, h => exact .inr (.inr (hlate h))
    | some (.success, error), h => exact .inl ⟨(Option.some.inj h).symm, error, rfl⟩
    | some (.failure, error), h => exact .inr (.inl ⟨⟨_, (Option.some.inj h).symm⟩, error, rfl⟩)

theorem settleSuiRound_ends {digest why : String} {n : Nat} (h : net.entered + SUI_LOOKUP_MS ≤ net.now n) :
    (settleSuiRound env net digest why n).isSome = true := by
  rw [settleSuiRound, if_pos (show net.now n ≥ net.entered + SUI_LOOKUP_MS from h)]
  split <;> rfl

theorem executeSui_cases {rounds : Nat} {s : Sent (String × String)}
    (h : executeSuiTransfer env signer net shown rounds = some s) :
    (∃ e, sealSui signer shown = .error e ∧ s = ⟨[], suiSignings signer, 0, .error e⟩) ∨
    ∃ bytes digest, sealSui signer shown = .ok (bytes, digest) ∧ (∀ b ∈ s.submitted, b = bytes) ∧
      s.signings = suiSignings signer ∧ settled (judgeSuiSubmit digest (executeSuiTransaction env net).2)
        (settleSuiRound env net digest) rounds = some (s.polls, s.outcome) := by
  rw [executeSuiTransfer] at h
  cases hseal : sealSui signer shown with
  | error e =>
    rw [hseal] at h
    exact .inl ⟨e, rfl, (Option.some.inj h).symm⟩
  | ok p =>
    obtain ⟨bytes, digest⟩ := p
    rw [hseal] at h
    obtain ⟨r, hsettled, rfl⟩ := Option.map_eq_some_iff.1 h
    refine .inr ⟨bytes, digest, rfl, fun b hb => ?_, rfl, hsettled⟩
    obtain ⟨url, -, rfl⟩ := List.mem_map.1 hb
    rfl

theorem suiSignings_le : suiSignings signer ≤ 1 := by
  rw [suiSignings]
  split <;> decide

/-- The Sui send keeps its promises with every answer. -/
theorem sui_law (hworld : SuiWorld env net fate) : SuiLaw env signer net shown fate where
  once rounds s h := by
    rcases executeSui_cases h with ⟨e, -, rfl⟩ | ⟨bytes, digest, hseal, hbytes, hsignings, -⟩
    · exact ⟨suiSignings_le, fun b hb => absurd hb List.not_mem_nil⟩
    · refine ⟨hsignings ▸ suiSignings_le, fun b hb => ?_⟩
      obtain ⟨tx, signed, hprepare, hsign, hpair, -⟩ := sealSui_ok hseal
      exact ⟨tx, signed, hprepare, hsign, (hbytes b hb).trans hpair⟩
  applied rounds s digest h hok := by
    rcases executeSui_cases h with ⟨e, -, rfl⟩ | ⟨bytes, digest', hseal, -, -, hsettled⟩
    · cases hok
    · rw [hok] at hsettled
      rcases settled_cases hsettled with hjudge | ⟨why, n, -, hn, hround⟩
      · obtain ⟨effects, hanswer, ⟨heq, hstatus⟩ | ⟨⟨detail, herror⟩, -⟩⟩ := judgeSuiSubmit_ok hjudge
        · obtain rfl := Except.ok.inj heq
          exact ⟨bytes, hseal, .inl ⟨effects, hanswer, hstatus⟩⟩
        · cases herror
      · rcases settleSuiRound_cases hround with ⟨heq, error, hfound⟩ | ⟨⟨detail, herror⟩, -⟩ | ⟨message, herror⟩
        · obtain rfl := Except.ok.inj heq
          exact ⟨bytes, hseal, .inr ⟨n, hn, error, hfound⟩⟩
        · cases herror
        · cases herror
  errors rounds s e tx h he htx := by
    rcases executeSui_cases h with ⟨e', hseal, rfl⟩ | ⟨bytes, digest, hseal, -, -, hsettled⟩
    · obtain rfl := Except.error.inj he
      exact (sealSui_error hseal).honest (.inl rfl) _
    · obtain ⟨tx', signed, hprepare, -, -, rfl⟩ := sealSui_ok hseal
      obtain rfl := Except.ok.inj (htx.symm.trans hprepare)
      rw [he] at hsettled
      rcases settled_cases hsettled with hjudge | ⟨why, n, -, -, hround⟩
      · obtain ⟨effects, hanswer, ⟨heq, -⟩ | ⟨⟨detail, herror⟩, hstatus⟩⟩ := judgeSuiSubmit_ok hjudge
        · cases heq
        · obtain rfl := Except.error.inj herror
          exact .of_failed trivial id (hworld.submit effects hanswer hstatus)
      · rcases settleSuiRound_cases hround with ⟨heq, -⟩ | ⟨⟨detail, herror⟩, error, hfound⟩ | ⟨message, herror⟩
        · cases heq
        · obtain rfl := Except.error.inj herror
          exact .of_failed trivial id (hworld.failed n error hfound)
        · obtain rfl := Except.error.inj herror
          exact .unknown message _
  ends n h := by
    rw [executeSuiTransfer]
    cases hseal : sealSui signer shown with
    | error e => rfl
    | ok p =>
      obtain ⟨bytes, digest⟩ := p
      show ((settled _ _ (n + 1)).map _).isSome = true
      rw [Option.isSome_map]
      exact settled_isSome fun why => settleSuiRound_ends h

end

/-! ## Both sends -/

/-- Both sends keep their promises exactly if Horizon's answer to the submit, when it is well and has a JSON body,
says whether the transaction was applied. -/
theorem session_sends_iff (env : Env) (signer : StellarSigner) (hz : Horizon) (shown : String) (fate : Fate)
    (suiSigner : SuiSigner) (net : SuiNet) (suiShown : String) (suiFate : Option Bool)
    (hworld : ∀ tx, signer.prepare = .ok tx → StellarWorld env hz tx fate) (hsui : SuiWorld env net suiFate) :
    StellarLaw env signer hz shown fate ∧ SuiLaw env suiSigner net suiShown suiFate ↔
      ∀ tx envelope, sealStellar signer shown = .ok (tx, envelope) → ¬ SubmitNamesNothing env hz envelope :=
  ⟨fun h _ _ hseal hnames => not_stellar_law hseal hnames h.1, fun h => ⟨stellar_law hworld h, sui_law hsui⟩⟩

/-! ### Two sends -/

def sampleEnv : Env where
  jsonParse text := if text = "\x7b\x7d" then some (.obj []) else none
  toText
    | .str s => s
    | .bool true => "true"
    | .bool false => "false"
    | .null => "null"
    | .int n => toString n
    | .float text => text
    | .arr _ => ""
    | .obj _ => "[object Object]"
  isZero _ := false
  dateParse _ := none

def sampleSigner : StellarSigner where
  prepare := .ok ⟨"AAAA", "c0ffee", 1000⟩
  sign _ := .ok ⟨"key", "hint", "signature"⟩
  accountOf _ := .ok "GA"
  verifies _ _ := .ok true
  envelope xdr _ := .ok (xdr ++ "+signature")

/-- The submit has this answer; Horizon is out of reach afterwards. -/
def sampleHorizon (submit : Reply) : Horizon where
  submit _ := submit
  ledger _ := .error "unreachable"
  lookup _ := .error "unreachable"
  entered := 0
  now n := 3000 * n

theorem sampleHorizon_world (submit : Reply) (h : ∀ r, submit = .ok r → r.status ≠ 400) (tx : Prepared) :
    StellarWorld sampleEnv (sampleHorizon submit) tx none where
  bound _ _ _ hfate := nomatch hfate
  complete _ _ _ _ _ hfate := nomatch hfate
  failed _ hfailed := nomatch hfailed
  rejects _ r _ hreply hstatus := absurd hstatus (h r hreply)

def sampleNet : SuiNet where
  endpoints := []
  submit _ := .failed "unreachable"
  effects _ _ := .failed "unreachable"
  entered := 0
  now n := 3000 * n

def sampleSuiSigner : SuiSigner where
  prepare := .ok ("AAAA", "digest")
  sign _ := .ok ⟨"signature", "key"⟩
  addressOf _ := .ok "0xaa"

theorem sampleNet_world : SuiWorld sampleEnv sampleNet none where
  submit _ hanswer := nomatch hanswer
  failed _ _ hfound := nomatch hfound

theorem session_sends_iff_sample :
    StellarLaw sampleEnv sampleSigner (sampleHorizon (.error "timeout")) "GA" none ∧
        SuiLaw sampleEnv sampleSuiSigner sampleNet "0xaa" none ↔
      ∀ tx envelope, sealStellar sampleSigner "GA" = .ok (tx, envelope) →
        ¬ SubmitNamesNothing sampleEnv (sampleHorizon (.error "timeout")) envelope :=
  session_sends_iff sampleEnv sampleSigner (sampleHorizon (.error "timeout")) "GA" none sampleSuiSigner sampleNet "0xaa" none
    (fun tx _ => sampleHorizon_world _ (fun r hr => by cases hr) tx) sampleNet_world

/-- An answer 200 with an empty object. -/
def emptyAnswer : Response := ⟨200, some "application/json", "\x7b\x7d"⟩

theorem not_always_reported : ¬ ∀ (env : Env) (signer : StellarSigner) (hz : Horizon) (shown : String) (fate : Fate)
    (suiSigner : SuiSigner) (net : SuiNet) (suiShown : String) (suiFate : Option Bool),
    (∀ tx, signer.prepare = .ok tx → StellarWorld env hz tx fate) → SuiWorld env net suiFate →
      StellarLaw env signer hz shown fate ∧ SuiLaw env suiSigner net suiShown suiFate := by
  intro h
  have hlaw := (h sampleEnv sampleSigner (sampleHorizon (.ok emptyAnswer)) "GA" none sampleSuiSigner sampleNet "0xaa" none
    (fun tx _ => sampleHorizon_world _ (fun r hr => Except.ok.inj hr ▸ by decide) tx) sampleNet_world).1
  have hbody : readJsonBody sampleEnv emptyAnswer = some (.obj []) := by
    have hjson : saysJson "application/json" = true := by decide +kernel
    rw [readJsonBody, emptyAnswer, Option.getD_some, if_pos hjson]
    rfl
  exact not_stellar_law rfl ⟨emptyAnswer, .obj [], rfl, by decide, hbody, fun b => by simp [Json.get]⟩ hlaw

end SessionSend
