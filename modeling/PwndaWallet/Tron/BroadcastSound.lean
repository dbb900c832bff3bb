import PwndaWallet.Tron.Broadcast

/-!
# What a TRON broadcast says

What a broadcast comes to is compared with what the hosts did with the transaction and what became of it in a block.
-/

namespace Tron

open Rust SessionSend

section

variable (env : Engine)

/-! ## What a host's answer can mean -/

/-- A host that took the transaction may answer so: with no 4xx, and with no code but `SUCCESS` and
`DUP_TRANSACTION_ERROR`. -/
def CouldHaveTaken : Answer → Prop
  | .error _ => True
  | .ok (status, text) => ¬ (400 ≤ status ∧ status < 500) ∧
    (isOk status = true → ∀ result code, env.jsonParse text = some result → result.get "code" = some (.str code) →
      code = "" ∨ code = "SUCCESS" ∨ code = "DUP_TRANSACTION_ERROR")

/-- An answer by which a host says that it has the transaction. -/
def SaysTaken (txID : String) : Answer → Prop
  | .error _ => False
  | .ok (status, text) => isOk status = true ∧ ∃ result, env.jsonParse text = some result ∧
    (result.get "result" = some (.bool true) ∨ (textField result "code" = "DUP_TRANSACTION_ERROR" ∧
      (env.toLowerCase (textField result "txid") = "" ∨
        env.toLowerCase (textField result "txid") = env.toLowerCase txID)))

/-- What the hosts that were asked did with the transaction, as far as their answers tell. -/
structure HostsTook (net : Net) (txID : String) (asked : List Host) (took : Host → Prop) : Prop where
  answers (host : Host) : host ∈ asked → took host → CouldHaveTaken env (net.broadcast host)
  accepts (host : Host) : host ∈ asked → SaysTaken env txID (net.broadcast host) → took host

/-- A lookup shows the transaction only once it ran, and as it ran. -/
def ShowsRun (net : Net) (ran : Option Bool) : Prop :=
  ∀ n info, included env net n = some info → ran = some (!failedOnChain env info)

/-- What is promised of a broadcast. -/
structure TronPromise (net : Net) (body txID label : String) (took : Host → Prop) (ran : Option Bool) : Prop where
  once (rounds : Nat) (s : Outcome) : broadcastTronTransaction env net body txID label rounds = some s →
    (∀ p ∈ s.sent, p.2 = body) ∧ (s.sent.map (·.1)).Nodup
  refused (rounds : Nat) (s : Outcome) (message : String) :
    broadcastTronTransaction env net body txID label rounds = some s → s.outcome = .error (.refused message) →
      ∀ p ∈ s.sent, ¬ took p.1
  failed (rounds : Nat) (s : Outcome) (why hash : String) :
    broadcastTronTransaction env net body txID label rounds = some s → s.outcome = .error (.failedOnChain why hash) →
      ran = some false
  unknown (rounds : Nat) (s : Outcome) (message hash : String) :
    broadcastTronTransaction env net body txID label rounds = some s →
      s.outcome = .error (.outcomeUnknown message hash) → hash = txID
  accepted (rounds : Nat) (s : Outcome) : broadcastTronTransaction env net body txID label rounds = some s →
    s.outcome = .ok .accepted → ∃ p ∈ s.sent, took p.1
  confirmed (rounds : Nat) (s : Outcome) : broadcastTronTransaction env net body txID label rounds = some s →
    s.outcome = .ok .confirmed → ran = some true
  ends (n : Nat) : net.entered + EXECUTION_TIMEOUT_MS ≤ net.now n →
    (broadcastTronTransaction env net body txID label (n + 1)).isSome = true

/-! ## What the code reads into it -/

/-- A reading after which the next host is asked, and nothing is in doubt. -/
def Reading.PassesOn : Reading → Prop
  | .status _ | .busy _ => True
  | .accepted | .uncertain _ | .refused _ => False

/-- A reading as a refusal. -/
def Reading.SaysNo : Reading → Prop
  | .status _ | .busy _ | .refused _ => True
  | .accepted | .uncertain _ => False

/-- TronGrid refuses the transaction. -/
def Reading.Refuses : Reading → Prop
  | .refused _ => True
  | .accepted | .uncertain _ | .status _ | .busy _ => False

/-- All answers are read as refusals, and a host that took the transaction could have given one of them. -/
def Misread (net : Net) (txID : String) : Prop :=
  let answer := net.broadcast
  let read := fun host => readAttempt env txID (answer host)
  ((read .trongrid).Refuses ∧ CouldHaveTaken env (answer .trongrid)) ∨
    ((read .trongrid).PassesOn ∧ (read .tronstack).SaysNo ∧
      (CouldHaveTaken env (answer .trongrid) ∨ CouldHaveTaken env (answer .tronstack)))

end

/-! ## The attempts -/

section

variable {env : Engine} {net : Net} {txID : String}

theorem readBroadcastAnswer_accepted {result : Json} (h : readBroadcastAnswer env result txID = .accepted) :
    result.get "result" = some (.bool true) ∨ (textField result "code" = "DUP_TRANSACTION_ERROR" ∧
      (env.toLowerCase (textField result "txid") = "" ∨
        env.toLowerCase (textField result "txid") = env.toLowerCase txID)) := by
  rw [readBroadcastAnswer] at h
  by_cases htrue : saysTrue result "result" = true
  · rw [saysTrue] at htrue
    split at htrue
    · next b hget =>
      subst htrue
      exact .inl hget
    · cases htrue
  · rw [if_neg htrue] at h
    by_cases hdup : textField result "code" = "DUP_TRANSACTION_ERROR"
    · simp only [hdup, if_true] at h
      by_cases hid : env.toLowerCase (textField result "txid") = "" ∨
          env.toLowerCase (textField result "txid") = env.toLowerCase txID
      · exact .inr ⟨hdup, hid⟩
      · rw [if_neg hid] at h
        cases h
    · simp only [hdup, if_false] at h
      split at h <;> cases h

theorem readAttempt_accepted {answer : Answer} (h : readAttempt env txID answer = .accepted) :
    SaysTaken env txID answer := by
  cases answer with
  | error e => cases h
  | ok r =>
    obtain ⟨status, text⟩ := r
    simp only [readAttempt] at h
    by_cases hok : isOk status = true
    · simp only [hok, Bool.not_true, Bool.false_eq_true, if_false] at h
      cases hparse : env.jsonParse text with
      | none =>
        simp only [hparse] at h
        cases h
      | some result =>
        simp only [hparse] at h
        cases hread : readBroadcastAnswer env result txID with
        | accepted => exact ⟨hok, result, hparse, readBroadcastAnswer_accepted hread⟩
        | _ => simp [hread] at h
    · simp only [hok, Bool.not_false, if_true] at h
      split at h <;> cases h

theorem readBroadcastAnswer_of_taken {result : Json} (h : result.get "result" = some (.bool true) ∨
    (textField result "code" = "DUP_TRANSACTION_ERROR" ∧ (env.toLowerCase (textField result "txid") = "" ∨
      env.toLowerCase (textField result "txid") = env.toLowerCase txID))) :
    readBroadcastAnswer env result txID = .accepted := by
  rw [readBroadcastAnswer]
  rcases h with htrue | ⟨hdup, hid⟩
  · have htruth : saysTrue result "result" = true := by rw [saysTrue, htrue]
    rw [if_pos htruth]
  · by_cases htruth : saysTrue result "result" = true
    · rw [if_pos htruth]
    · rw [if_neg htruth]
      simp only [hdup, if_true, if_pos hid]

theorem readAttempt_of_taken {answer : Answer} (h : SaysTaken env txID answer) :
    readAttempt env txID answer = .accepted := by
  cases answer with
  | error e => exact h.elim
  | ok r =>
    obtain ⟨status, text⟩ := r
    obtain ⟨hok, result, hparse, htruth⟩ := h
    simp only [readAttempt, hok, hparse, readBroadcastAnswer_of_taken htruth]
    rfl

theorem attempts_start (hosts : List Host) (uncertain refusal : Option String) :
    (attempts env net txID hosts uncertain refusal).1 <+: hosts := by
  induction hosts generalizing uncertain refusal with
  | nil => exact List.prefix_rfl
  | cons host rest ih =>
    rw [attempts]
    cases readAttempt env txID (net.broadcast host) with
    | accepted => exact List.prefix_append [host] rest
    | refused message => exact List.prefix_append [host] rest
    | uncertain why => exact List.cons_prefix_cons.2 ⟨rfl, ih _ _⟩
    | status why => exact List.cons_prefix_cons.2 ⟨rfl, ih _ _⟩
    | busy message => exact List.cons_prefix_cons.2 ⟨rfl, ih _ _⟩

theorem attempts_accepted {hosts : List Host} {uncertain refusal : Option String}
    (h : (attempts env net txID hosts uncertain refusal).2 = .accepted) :
    ∃ host ∈ (attempts env net txID hosts uncertain refusal).1, SaysTaken env txID (net.broadcast host) := by
  induction hosts generalizing uncertain refusal with
  | nil => cases h
  | cons host rest ih =>
    rw [attempts] at h ⊢
    cases hread : readAttempt env txID (net.broadcast host) with
    | accepted => exact ⟨host, List.mem_cons_self, readAttempt_accepted hread⟩
    | refused message =>
      rw [hread] at h
      cases h
    | uncertain why =>
      rw [hread] at h
      obtain ⟨found, hmem, htaken⟩ := ih h
      exact ⟨found, List.mem_cons_of_mem host hmem, htaken⟩
    | status why =>
      rw [hread] at h
      obtain ⟨found, hmem, htaken⟩ := ih h
      exact ⟨found, List.mem_cons_of_mem host hmem, htaken⟩
    | busy message =>
      rw [hread] at h
      obtain ⟨found, hmem, htaken⟩ := ih h
      exact ⟨found, List.mem_cons_of_mem host hmem, htaken⟩

/-- The attempts end in a refusal without a doubt exactly if TronGrid refuses, or passes on and TronStack says no. -/
theorem attempts_refused_iff {asked : List Host} :
    (∃ refusal, attempts env net txID [.trongrid, .tronstack] none none = (asked, .exhausted none refusal)) ↔
      ((readAttempt env txID (net.broadcast .trongrid)).Refuses ∧ asked = [.trongrid]) ∨
        ((readAttempt env txID (net.broadcast .trongrid)).PassesOn ∧
          (readAttempt env txID (net.broadcast .tronstack)).SaysNo ∧ asked = [.trongrid, .tronstack]) := by
  simp only [attempts]
  cases readAttempt env txID (net.broadcast .trongrid) with
  | accepted => simp [Reading.Refuses, Reading.PassesOn]
  | refused message => simp [Reading.Refuses, Reading.PassesOn, eq_comm]
  | uncertain why =>
    cases readAttempt env txID (net.broadcast .tronstack) <;> simp [Reading.Refuses, Reading.PassesOn]
  | status why =>
    cases readAttempt env txID (net.broadcast .tronstack) <;>
      simp [Reading.Refuses, Reading.PassesOn, Reading.SaysNo, eq_comm]
  | busy message =>
    cases readAttempt env txID (net.broadcast .tronstack) <;>
      simp [Reading.Refuses, Reading.PassesOn, Reading.SaysNo, eq_comm]

/-! ## The broadcast -/

/-- The hosts that are asked to take the transaction. -/
def asked (env : Engine) (net : Net) (txID : String) : List Host :=
  (attempts env net txID [.trongrid, .tronstack] none none).1

variable {body label : String}

theorem broadcast_cases {rounds : Nat} {s : Outcome}
    (h : broadcastTronTransaction env net body txID label rounds = some s) :
    s.sent = (asked env net txID).map (fun host => (host, body)) ∧
      ((attempts env net txID [.trongrid, .tronstack] none none = (asked env net txID, .accepted) ∧
          s.outcome = .ok .accepted) ∨
        (∃ refusal message, attempts env net txID [.trongrid, .tronstack] none none =
            (asked env net txID, .exhausted none refusal) ∧ s.outcome = .error (.refused message)) ∨
        ∃ why n w, executionRound env net n = some w ∧ s.outcome = afterWaiting txID label why w) := by
  rw [broadcastTronTransaction] at h
  rw [asked]
  cases hattempts : attempts env net txID [.trongrid, .tronstack] none none with
  | mk hosts ended =>
    rw [hattempts] at h
    cases ended with
    | accepted =>
      obtain rfl := Option.some.inj h
      exact ⟨rfl, .inl ⟨rfl, rfl⟩⟩
    | exhausted uncertain refusal =>
      cases uncertain with
      | none =>
        obtain rfl := Option.some.inj h
        exact ⟨rfl, .inr (.inl ⟨refusal, _, rfl, rfl⟩)⟩
      | some why =>
        obtain ⟨⟨n, w⟩, hrun, rfl⟩ := Option.map_eq_some_iff.1 h
        exact ⟨rfl, .inr (.inr ⟨why, n, w, Poll.step_of_run hrun, rfl⟩)⟩

/-- A round that decides shows the transaction, or is the last. -/
theorem executionRound_cases {n : Nat} {w : Waited} (h : executionRound env net n = some w) :
    (∃ info why, included env net n = some info ∧ failedOnChain env info = true ∧ w = .failed why) ∨
      (∃ info, included env net n = some info ∧ failedOnChain env info = false ∧ w = .confirmed) ∨ w = .pending := by
  rw [executionRound] at h
  cases hincluded : included env net n with
  | none =>
    simp only [hincluded] at h
    split at h
    · exact .inr (.inr (Option.some.inj h).symm)
    · cases h
  | some info =>
    simp only [hincluded] at h
    by_cases hfailed : failedOnChain env info = true
    · rw [if_pos hfailed] at h
      exact .inl ⟨info, _, rfl, hfailed, (Option.some.inj h).symm⟩
    · rw [if_neg hfailed] at h
      exact .inr (.inl ⟨info, rfl, Bool.not_eq_true _ ▸ hfailed, (Option.some.inj h).symm⟩)

theorem executionRound_ends {n : Nat} (h : net.entered + EXECUTION_TIMEOUT_MS ≤ net.now n) :
    (executionRound env net n).isSome = true := by
  rw [executionRound]
  cases included env net n with
  | none => simp only [if_pos (show net.now n ≥ net.entered + EXECUTION_TIMEOUT_MS from h), Option.isSome_some]
  | some info =>
    simp only
    split <;> rfl

/-- A host that took the transaction and is asked, and yet all answers are read as refusals. -/
theorem misread_of_took {refusal : Option String} {host : Host}
    (hattempts : attempts env net txID [.trongrid, .tronstack] none none =
      (asked env net txID, .exhausted none refusal))
    (hmem : host ∈ asked env net txID) (htaken : CouldHaveTaken env (net.broadcast host)) : Misread env net txID := by
  rcases attempts_refused_iff.1 ⟨refusal, hattempts⟩ with ⟨hrefuses, hasked⟩ | ⟨hpasses, hno, hasked⟩
  · rw [hasked, List.mem_singleton] at hmem
    exact .inl ⟨hrefuses, hmem ▸ htaken⟩
  · refine .inr ⟨hpasses, hno, ?_⟩
    cases host with
    | trongrid => exact .inl htaken
    | tronstack => exact .inr htaken

theorem exists_of_misread (h : Misread env net txID) :
    ∃ refusal, attempts env net txID [.trongrid, .tronstack] none none =
      (asked env net txID, .exhausted none refusal) ∧
      ∃ host ∈ asked env net txID, CouldHaveTaken env (net.broadcast host) := by
  rcases h with ⟨hrefuses, htaken⟩ | ⟨hpasses, hno, htaken⟩
  · obtain ⟨refusal, hattempts⟩ := attempts_refused_iff.2 (.inl ⟨hrefuses, rfl⟩)
    have hasked : asked env net txID = [.trongrid] := congrArg Prod.fst hattempts
    exact ⟨refusal, by rw [hattempts, hasked], .trongrid, by simp [hasked], htaken⟩
  · obtain ⟨refusal, hattempts⟩ := attempts_refused_iff.2 (.inr ⟨hpasses, hno, rfl⟩)
    have hasked : asked env net txID = [.trongrid, .tronstack] := congrArg Prod.fst hattempts
    refine ⟨refusal, by rw [hattempts, hasked], ?_⟩
    rcases htaken with htaken | htaken
    · exact ⟨.trongrid, by simp [hasked], htaken⟩
    · exact ⟨.tronstack, by simp [hasked], htaken⟩

theorem Reading.PassesOn.saysNo {r : Reading} (h : r.PassesOn) : r.SaysNo := by
  cases r with
  | status why => trivial
  | busy message => trivial
  | _ => exact h.elim

theorem Reading.Refuses.saysNo {r : Reading} (h : r.Refuses) : r.SaysNo := by
  cases r with
  | refused message => trivial
  | _ => exact h.elim

theorem saysNo_of_refused {refusal : Option String} {host : Host}
    (hattempts : attempts env net txID [.trongrid, .tronstack] none none =
      (asked env net txID, .exhausted none refusal))
    (hmem : host ∈ asked env net txID) : (readAttempt env txID (net.broadcast host)).SaysNo := by
  rcases attempts_refused_iff.1 ⟨refusal, hattempts⟩ with ⟨hrefuses, hasked⟩ | ⟨hpasses, hno, hasked⟩
  · rw [hasked, List.mem_singleton] at hmem
    exact hmem ▸ hrefuses.saysNo
  · cases host with
    | trongrid => exact hpasses.saysNo
    | tronstack => exact hno

/-- What an outcome goes back to. -/
def Grounds (env : Engine) (net : Net) (txID : String) : Except TronError TronResult → Prop
  | .ok .accepted => ∃ host ∈ asked env net txID, SaysTaken env txID (net.broadcast host)
  | .ok .confirmed => ∃ n info, included env net n = some info ∧ failedOnChain env info = false
  | .error (.refused _) =>
    ∃ refusal, attempts env net txID [.trongrid, .tronstack] none none = (asked env net txID, .exhausted none refusal)
  | .error (.failedOnChain _ _) => ∃ n info, included env net n = some info ∧ failedOnChain env info = true
  | .error (.outcomeUnknown _ hash) => hash = txID

theorem broadcast_grounds {rounds : Nat} {s : Outcome}
    (h : broadcastTronTransaction env net body txID label rounds = some s) : Grounds env net txID s.outcome := by
  obtain ⟨-, ⟨hattempts, hout⟩ | ⟨refusal, message, hattempts, hout⟩ | ⟨why, n, w, hround, hout⟩⟩ := broadcast_cases h
  · rw [hout]
    exact attempts_accepted (congrArg Prod.snd hattempts)
  · rw [hout]
    exact ⟨refusal, hattempts⟩
  · rw [hout]
    rcases executionRound_cases hround with ⟨info, reason, hinfo, hchain, rfl⟩ | ⟨info, hinfo, hchain, rfl⟩ | rfl
    · exact ⟨n, info, hinfo, hchain⟩
    · exact ⟨n, info, hinfo, hchain⟩
    · rfl

theorem tron_promise {took : Host → Prop} {ran : Option Bool}
    (htook : HostsTook env net txID (asked env net txID) took) (hshows : ShowsRun env net ran)
    (hread : ¬ Misread env net txID) : TronPromise env net body txID label took ran where
  once rounds s h := by
    obtain ⟨hsent, -⟩ := broadcast_cases h
    constructor
    · intro p hp
      rw [hsent] at hp
      obtain ⟨host, -, rfl⟩ := List.mem_map.1 hp
      rfl
    · have hhosts : s.sent.map (·.1) = asked env net txID := by simp [hsent, Function.comp_def]
      rw [hhosts]
      exact (attempts_start _ none none).sublist.nodup (by decide)
  refused rounds s message h hrefused p hp htaken := by
    have hgrounds := broadcast_grounds h
    rw [hrefused] at hgrounds
    obtain ⟨refusal, hattempts⟩ := hgrounds
    rw [(broadcast_cases h).1] at hp
    obtain ⟨host, hmem, rfl⟩ := List.mem_map.1 hp
    exact hread (misread_of_took hattempts hmem (htook.answers host hmem htaken))
  failed rounds s why hash h hfailed := by
    have hgrounds := broadcast_grounds h
    rw [hfailed] at hgrounds
    obtain ⟨n, info, hinfo, hchain⟩ := hgrounds
    simpa [hchain] using hshows n info hinfo
  unknown rounds s message hash h hunknown := by
    have hgrounds := broadcast_grounds h
    rw [hunknown] at hgrounds
    exact hgrounds
  accepted rounds s h haccepted := by
    have hgrounds := broadcast_grounds h
    rw [haccepted] at hgrounds
    obtain ⟨host, hmem, htaken⟩ := hgrounds
    have hsent : (host, body) ∈ s.sent := by
      rw [(broadcast_cases h).1]
      exact List.mem_map.2 ⟨host, hmem, rfl⟩
    exact ⟨(host, body), hsent, htook.accepts host hmem htaken⟩
  confirmed rounds s h hconfirmed := by
    have hgrounds := broadcast_grounds h
    rw [hconfirmed] at hgrounds
    obtain ⟨n, info, hinfo, hchain⟩ := hgrounds
    simpa [hchain] using hshows n info hinfo
  ends n h := by
    rw [broadcastTronTransaction]
    cases attempts env net txID [.trongrid, .tronstack] none none with
    | mk hosts ended =>
      cases ended with
      | accepted => rfl
      | exhausted uncertain refusal =>
        cases uncertain with
        | none => rfl
        | some why =>
          show ((Poll.run (executionRound env net) (n + 1) 0).map _).isSome = true
          rw [Option.isSome_map]
          exact Poll.run_isSome (m := n) (by rw [Nat.zero_add]; exact executionRound_ends h) (Nat.lt_succ_self n)

/-- The host whose answer is misread took the transaction, for all that is known, and the send says that none did. -/
theorem not_tron_promise (body label : String) (ran : Option Bool) (h : Misread env net txID) :
    ∃ took, HostsTook env net txID (asked env net txID) took ∧ ¬ TronPromise env net body txID label took ran := by
  obtain ⟨refusal, hattempts, host, hmem, htaken⟩ := exists_of_misread h
  refine ⟨(· = host), ⟨fun found hfound hwas => hwas ▸ htaken, fun found hfound htruth => ?_⟩, fun hpromise => ?_⟩
  · have hno := saysNo_of_refused hattempts hfound
    rw [readAttempt_of_taken htruth] at hno
    exact hno.elim
  · have hrun : broadcastTronTransaction env net body txID label 0 =
        some ⟨(asked env net txID).map fun host => (host, body),
          .error (.refused (refusal.getD s!"{label} broadcast failed"))⟩ := by
      rw [broadcastTronTransaction, hattempts]
    exact hpromise.refused 0 _ _ hrun rfl (host, body) (List.mem_map.2 ⟨host, hmem, rfl⟩) rfl

/-- With what the lookups show as it is, a broadcast keeps its promise exactly if it misreads no answer. -/
theorem tron_promise_iff {ran : Option Bool} (hshows : ShowsRun env net ran) :
    (∀ took, HostsTook env net txID (asked env net txID) took → TronPromise env net body txID label took ran) ↔
      ¬ Misread env net txID := by
  constructor
  · intro hall hmisread
    obtain ⟨took, htook, hnot⟩ := not_tron_promise body label ran hmisread
    exact hnot (hall took htook)
  · intro hread took htook
    exact tron_promise htook hshows hread

end

end Tron
