import PwndaWallet.Evm.Send
import PwndaWallet.Lib.Result
import PwndaWallet.Lib.Trace
import PwndaWallet.Send.OutcomeSound

/-!
# What an EVM send says

In every run one transaction is signed at most, its bytes alone are handed out, and the end says no more than the
answers allow: nothing was sent only if every node that was handed the bytes declined them.
-/

namespace EvmSend

open Rust SessionSend Tasks

abbrev History := List (Ev EvmOp.Ans)

section

variable (env : Library) (timing : Timing)

/-! ## What is known of a history -/

def isSign : EvmOp → Bool
  | .sign _ _ => true
  | _ => false

def isReads : EvmOp → Bool
  | .reads _ _ _ => true
  | _ => false

def isSend : EvmOp → Bool
  | .send _ _ => true
  | _ => false

def IsSigned (h : History) (raw : String) : Prop := ∃ tx p, (⟨.sign tx p, .ok raw⟩ : Ev EvmOp.Ans) ∈ h

def Unsigned (h : History) : Prop := ∀ e ∈ h, isSign e.op = false

/-- The answer is one that the node gives when it did not take the bytes. -/
def Refusing (answer : Except Failure Json) : Prop := ∃ e, answer = .error e ∧ isDefinitive (verdictOf env e) = true

def answerOf (url : String) (r : Fetched) : Except Failure Json := rpcCall env url timing.requestTimeoutMs r

/-- Every node that was handed the bytes declined them. -/
def Declined (h : History) : Prop :=
  ∀ url raw r, (⟨.send url raw, r⟩ : Ev EvmOp.Ans) ∈ h → Refusing env (answerOf env timing url r)

/-- A node took the bytes, or showed the transaction when it was asked for it. -/
inductive Reported (h : History) (raw : String) : Prop
  | accepted (url : String) (r : Fetched) (he : ⟨.send url raw, r⟩ ∈ h)
      (ha : accepts env (env.keccak256 raw) (answerOf env timing url r) = true)
  | shown (url : String) (r : Fetched) (he : ⟨.lookup url (env.keccak256 raw), r⟩ ∈ h)
      (hs : showsTransaction env (env.keccak256 raw) (answerOf env timing url r) = true)

/-- A node gave a receipt of the transaction, in a block and with this status. -/
def Receipted (h : History) (hash : String) (status : Int) : Prop :=
  ∃ url timeoutMs r receipt, (⟨.receipt url hash timeoutMs, r⟩ : Ev EvmOp.Ans) ∈ h ∧
    rpcCall env url timeoutMs r = .ok receipt ∧ namesOther env hash receipt = false ∧
    (prop (some receipt) "blockNumber").isSome = true ∧ statusOf env receipt = .ok (some status)

/-- What is assumed of the nodes: an answer that refuses the bytes comes from a node that did not take them, and the
status of a receipt is no fraction. -/
structure Truthful (took : Ev EvmOp.Ans → Prop) (h : History) : Prop where
  refusal (url raw : String) (r : Fetched) : ⟨.send url raw, r⟩ ∈ h → took ⟨.send url raw, r⟩ →
    ¬ Refusing env (answerOf env timing url r)
  integral (url hash : String) (timeoutMs : Int) (r : Fetched) (receipt : Json) : ⟨.receipt url hash timeoutMs, r⟩ ∈ h →
    rpcCall env url timeoutMs r = .ok receipt → ∃ status, statusOf env receipt = .ok status

/-- What the send ends with is as it says. -/
def Ends (took : Ev EvmOp.Ans → Prop) (h : History) : Except SendError TxResult → Prop
  | .ok result => ∃ raw, IsSigned h raw ∧ env.keccak256 raw = result.hash ∧ Reported env timing h raw ∧
      (result.pending = false → Receipted env h result.hash 1)
  | .error (.plain _) => ∀ e ∈ h, isSend e.op = true → ¬ took e
  | .error (.reverted hash _) => ∃ raw, IsSigned h raw ∧ env.keccak256 raw = hash ∧ Receipted env h hash 0
  | .error (.thrown _) => False
  | .error (.outcomeUnknown _ hash) => ∃ raw, IsSigned h raw ∧ env.keccak256 raw = hash

/-- The transaction is the transfer that was typed, as one node prepared it for its sender. -/
def IsAsked (args : EvmTransferArgs) (tx : Transfer) (p : Prepared) (h : History) : Prop :=
  ∃ sender url reads, checkArgs env args = .ok (sender, tx) ∧ (⟨.reads url sender tx, reads⟩ : Ev EvmOp.Ans) ∈ h ∧
    prepareOn env args timing url reads = .ok p

/-- What is signed is what was typed, for the chain that was meant; after the signing nothing is read for another
transaction and nothing else is signed; the signed bytes are all that is handed out; and what is said in the end is
so. -/
structure Honest (args : EvmTransferArgs) (took : Ev EvmOp.Ans → Prop) (h : History) (q : EvmM TxResult) : Prop where
  asked (tx : Transfer) (p : Prepared) (r : Except String String) : ⟨.sign tx p, r⟩ ∈ h →
    IsAsked env timing args tx p h ∧ ∀ n ∈ args.chainId, p.chainId = n
  once (pre post : History) (o : EvmOp) (r : o.Ans) : h = pre ++ ⟨o, r⟩ :: post → isSign o = true →
    ∀ e' ∈ post, isSign e'.op = false ∧ isReads e'.op = false
  own (url raw : String) (r : Fetched) : ⟨.send url raw, r⟩ ∈ h → IsSigned h raw
  ends (r : Except SendError TxResult) : q = .ofExcept r → Ends env timing took h r

/-- What may be asked, and when. -/
def May (args : EvmTransferArgs) : EvmOp → History → Prop
  | .reads _ _ _, h => Unsigned h
  | .sign tx p, h => Unsigned h ∧ IsAsked env timing args tx p h
  | .send _ raw, h => IsSigned h raw
  | _, _ => True

end

section

variable {env : Library} {timing : Timing} {args : EvmTransferArgs} {h : History} {raw : String}

theorem IsSigned.append (hs : IsSigned h raw) (l : History) : IsSigned (h ++ l) raw := by
  obtain ⟨tx, p, he⟩ := hs
  exact ⟨tx, p, List.mem_append_left l he⟩

theorem Reported.append (hr : Reported env timing h raw) (l : History) : Reported env timing (h ++ l) raw := by
  cases hr with
  | accepted url r he ha => exact .accepted url r (List.mem_append_left l he) ha
  | shown url r he hs => exact .shown url r (List.mem_append_left l he) hs

theorem Unsigned.snoc (hu : Unsigned h) {e : Ev EvmOp.Ans} (he : isSign e.op = false) : Unsigned (h ++ [e]) := by
  intro e' he'
  cases List.mem_append.1 he' with
  | inl hmem => exact hu e' hmem
  | inr hmem =>
    rw [List.mem_singleton] at hmem
    subst hmem
    exact he

/-- What is answered to another question does not change what the nodes said of the bytes. -/
theorem Declined.snoc (hd : Declined env timing h) {e : Ev EvmOp.Ans} (he : isSend e.op = false) :
    Declined env timing (h ++ [e]) := by
  intro url raw r hmem
  cases List.mem_append.1 hmem with
  | inl hmem => exact hd url raw r hmem
  | inr hmem =>
    rw [List.mem_singleton] at hmem
    subst hmem
    cases he

theorem Declined.send (hd : Declined env timing h) {url : String} {r : Fetched}
    (hr : Refusing env (answerOf env timing url r)) : Declined env timing (h ++ [⟨.send url raw, r⟩]) := by
  intro url' raw' r' hmem
  cases List.mem_append.1 hmem with
  | inl hmem => exact hd url' raw' r' hmem
  | inr hmem =>
    rw [List.mem_singleton] at hmem
    cases hmem
    exact hr

theorem declined_of_unsent (hu : ∀ e ∈ h, isSend e.op = false) : Declined env timing h := by
  intro url raw r hmem
  cases hu _ hmem

/-! ## Preparing -/

/-- Only reads so far. -/
def Reading (h : History) : Prop := ∀ e ∈ h, isReads e.op = true

theorem Reading.unsigned (hr : Reading h) : Unsigned h := by
  intro e he
  have hreads := hr e he
  cases hop : e.op with
  | reads url sender transfer => rfl
  | _ =>
    rw [hop] at hreads
    cases hreads

theorem Reading.unsent (hr : Reading h) : ∀ e ∈ h, isSend e.op = false := by
  intro e he
  have hreads := hr e he
  cases hop : e.op with
  | reads url sender transfer => rfl
  | _ =>
    rw [hop] at hreads
    cases hreads

theorem Reading.snoc (hr : Reading h) {url sender : String} {transfer : Transfer} (r : Reads) :
    Reading (h ++ [⟨.reads url sender transfer, r⟩]) := by
  intro e he
  cases List.mem_append.1 he with
  | inl hmem => exact hr e hmem
  | inr hmem =>
    rw [List.mem_singleton] at hmem
    subst hmem
    rfl

/-- A transaction that one node prepared, or an error from before the signing. -/
def IsPrepared (env : Library) (timing : Timing) (args : EvmTransferArgs) (sender : String) (tx : Transfer) :
    Except SendError Prepared → History → Prop
  | .ok p, h => Reading h ∧ ∃ url reads, (⟨.reads url sender tx, reads⟩ : Ev EvmOp.Ans) ∈ h ∧
      prepareOn env args timing url reads = .ok p
  | .error (.plain _), h => Reading h
  | .error _, _ => False

theorem safe_prepare (sender : String) (tx : Transfer) (urls failures : List String) (hr : Reading h) :
    Safe (.hist (May env timing args)) (prepare env args timing sender tx urls failures)
      (IsPrepared env timing args sender tx) h := by
  induction urls generalizing failures h with
  | nil => exact safe_fail.2 hr
  | cons url urls ih =>
    rw [prepare]
    refine safe_call_hist.2 ⟨hr.unsigned, fun r => ?_⟩
    cases hprepared : prepareOn env args timing url r with
    | ok prepared => exact safe_ret.2 ⟨hr.snoc r, url, r, by simp, hprepared⟩
    | error e =>
      cases e with
      | refused text => exact safe_fail.2 (hr.snoc r)
      | failed text => exact ih _ (hr.snoc r)

/-! ## Handing the bytes out -/

/-- A node that shows the transaction, if one does; the bytes are not handed out meanwhile. -/
theorem safe_findTransaction (urls : List String) (hs : IsSigned h raw) :
    Safe (.hist (May env timing args)) (findTransaction env timing (env.keccak256 raw) urls) (fun r h' => IsSigned h' raw ∧
      (Declined env timing h → Declined env timing h') ∧
        ∃ found, r = .ok found ∧ (found.isSome = true → Reported env timing h' raw)) h := by
  induction urls generalizing h with
  | nil => exact safe_ret.2 ⟨hs, id, none, rfl, fun hnone => by cases hnone⟩
  | cons url urls ih =>
    rw [findTransaction]
    refine safe_call_hist.2 ⟨trivial, fun r => ?_⟩
    by_cases hshown : showsTransaction env (env.keccak256 raw) (rpcCall env url timing.requestTimeoutMs r) = true
    · rw [if_pos hshown]
      refine safe_ret.2 ⟨hs.append _, fun hd => hd.snoc rfl, some url, rfl, fun _ => ?_⟩
      exact .shown url r (by simp) hshown
    · rw [if_neg hshown]
      refine (ih (hs.append _)).mono fun r' h' hr => ?_
      obtain ⟨hs', hd', hfound⟩ := hr
      exact ⟨hs', fun hd => hd' (hd.snoc rfl), hfound⟩

/-- What handing the bytes out comes to. -/
def Handed (env : Library) (timing : Timing) (raw : String) : Except SendError String → History → Prop
  | .ok _, h => IsSigned h raw ∧ Reported env timing h raw
  | .error (.plain _), h => Declined env timing h
  | .error (.outcomeUnknown _ hash), h => IsSigned h raw ∧ hash = env.keccak256 raw
  | .error _, _ => False

/-- So far every attempt that counts as declined was. -/
structure Tried (env : Library) (timing : Timing) (raw : String) (attempts : List Attempt) (h : History) : Prop where
  isSigned : IsSigned h raw
  declined : attempts.all (isDefinitive ·.verdict) = true → Declined env timing h

theorem safe_broadcastEnd {attempts : List Attempt} (ht : Tried env timing raw attempts h) :
    Safe (.hist (May env timing args)) (broadcastEnd env args timing (env.keccak256 raw) attempts) (Handed env timing raw) h := by
  rw [broadcastEnd]
  refine Safe.ite (fun hall => ?_) fun _ => ?_
  · cases (attempts.find? (·.verdict = .rejected)).or attempts.head? with
    | some first => exact safe_fail.2 (ht.declined hall)
    | none => exact safe_fail.2 (ht.declined hall)
  · refine Safe.bind ((safe_findTransaction args.urls ht.isSigned).mono fun r h' hr => ?_)
    obtain ⟨hs, -, found, rfl, hfound⟩ := hr
    cases found with
    | some via => exact safe_ret.2 ⟨hs, hfound rfl⟩
    | none => exact safe_fail.2 ⟨hs, rfl⟩

theorem Tried.send {attempts : List Attempt} (ht : Tried env timing raw attempts h) (url : String) (r : Fetched) :
    Tried env timing raw (attempts ++ [attemptOf env url (answerOf env timing url r)]) (h ++ [⟨.send url raw, r⟩]) where
  isSigned := ht.isSigned.append _
  declined hall := by
    rw [List.all_append, Bool.and_eq_true] at hall
    obtain ⟨hbefore, hlast⟩ := hall
    rw [List.all_cons, List.all_nil, Bool.and_true] at hlast
    apply (ht.declined hbefore).send
    cases hanswer : answerOf env timing url r with
    | ok result =>
      rw [hanswer] at hlast
      cases hlast
    | error e =>
      rw [hanswer] at hlast
      exact ⟨e, rfl, hlast⟩

theorem safe_broadcast (urls : List String) {attempts : List Attempt}
    (ht : Tried env timing raw attempts h) :
    Safe (.hist (May env timing args)) (broadcast env args timing raw (env.keccak256 raw) urls attempts) (Handed env timing raw) h := by
  induction urls generalizing attempts h with
  | nil =>
    rw [broadcast]
    exact safe_broadcastEnd ht
  | cons url urls ih =>
    rw [broadcast]
    refine safe_call_hist.2 ⟨ht.isSigned, fun r => ?_⟩
    have hsent := ht.send url r
    refine Safe.ite (fun haccepts => ?_) fun _ => ?_
    · exact safe_ret.2 ⟨hsent.isSigned, .accepted url r (by simp) haccepts⟩
    · refine Safe.bind (Safe.mono (Q := fun r' h' => Tried env timing raw
        (attempts ++ [attemptOf env url (answerOf env timing url r)]) h' ∧
          ∃ found, r' = .ok found ∧ (found.isSome = true → Reported env timing h' raw)) (fun r' h' hr => ?_) ?_)
      · obtain ⟨htried, found, rfl, hfound⟩ := hr
        refine Safe.ite (fun hsome => safe_ret.2 ⟨htried.isSigned, hfound hsome⟩) fun _ => ?_
        refine Safe.ite (fun hrejected => safe_fail.2 (htried.declined hrejected.2)) fun _ => ?_
        exact ih htried
      · refine Safe.ite (fun _ => ?_) fun _ => safe_ret.2 ⟨hsent, none, rfl, fun hnone => by cases hnone⟩
        refine (safe_findTransaction [url] hsent.isSigned).mono fun r' h' hr => ?_
        obtain ⟨hs, hd, hfound⟩ := hr
        exact ⟨⟨hs, fun hall => hd (hsent.declined hall)⟩, hfound⟩

/-! ## Waiting for the receipt -/

/-- The signed bytes are out, as far as a node's word goes. -/
structure Out (env : Library) (timing : Timing) (raw : String) (h : History) : Prop where
  isSigned : IsSigned h raw
  reported : Reported env timing h raw

theorem Out.append (ho : Out env timing raw h) (l : History) : Out env timing raw (h ++ l) :=
  ⟨ho.isSigned.append l, ho.reported.append l⟩

/-- A receipt was given whose status is a fraction. -/
def Unreadable (env : Library) (h : History) : Prop :=
  ∃ url hash timeoutMs r receipt text, (⟨.receipt url hash timeoutMs, r⟩ : Ev EvmOp.Ans) ∈ h ∧
    rpcCall env url timeoutMs r = .ok receipt ∧ statusOf env receipt = .error text

/-- What the wait for the receipt comes to. -/
def Awaited (env : Library) (hash : String) (h : History) : Except SendError TxResult → Prop
  | .ok result => result.hash = hash ∧ (result.pending = false → Receipted env h hash 1)
  | .error (.reverted named _) => named = hash ∧ Receipted env h hash 0
  | .error (.thrown _) => Unreadable env h
  | .error (.plain _) | .error (.outcomeUnknown _ _) => False

/-- What one answer comes to, if it comes to anything. -/
def Settled (env : Library) (hash : String) (h : History) : Except SendError (Option TxResult) → Prop
  | .ok none => True
  | .ok (some result) => Awaited env hash h (.ok result)
  | .error e => Awaited env hash h (.error e)

theorem settled_settleReceipt {url hash : String} {timeoutMs : Int} {r : Fetched}
    {receipt : Json} (he : ⟨.receipt url hash timeoutMs, r⟩ ∈ h) (hr : rpcCall env url timeoutMs r = .ok receipt) :
    Settled env hash h (settleReceipt env args hash receipt) := by
  cases receipt with
  | obj fields =>
    rw [settleReceipt]
    by_cases hother : namesOther env hash (.obj fields) = true
    · rw [if_pos hother]
      trivial
    rw [if_neg hother]
    by_cases hblock : (prop (some (.obj fields)) "blockNumber").isNone = true
    · rw [if_pos hblock]
      trivial
    rw [if_neg hblock]
    cases hstatus : statusOf env (.obj fields) with
    | error text => exact ⟨url, hash, timeoutMs, r, .obj fields, text, he, hr, hstatus⟩
    | ok status =>
      have hin (n : Int) (hn : status = some n) : Receipted env h hash n := by
        refine ⟨url, timeoutMs, r, .obj fields, he, hr, by simpa using hother, ?_, by rw [hstatus, hn]⟩
        simpa [Option.isSome_iff_ne_none] using hblock
      by_cases hone : status = some 1
      · simp only [hone, if_true]
        exact ⟨rfl, fun _ => hin 1 hone⟩
      by_cases hzero : status = some 0
      · simp only [hzero, if_true]
        exact ⟨rfl, hin 0 hzero⟩
      simp only [hone, hzero, if_false]
      exact ⟨rfl, fun hpending => by cases hpending⟩
  | _ => trivial

theorem safe_pollNodes (deadline : Int) (urls : List String) (ho : Out env timing raw h) :
    Safe (.hist (May env timing args)) (pollNodes env args timing (env.keccak256 raw) deadline urls)
      (fun r h' => Out env timing raw h' ∧ Settled env (env.keccak256 raw) h' r) h := by
  induction urls generalizing h with
  | nil => exact safe_ret.2 ⟨ho, trivial⟩
  | cons url urls ih =>
    rw [pollNodes]
    refine safe_call_hist.2 ⟨trivial, fun now => ?_⟩
    refine Safe.ite (fun _ => ?_) fun _ => ?_
    · exact safe_ret.2 ⟨ho.append _, rfl, fun hpending => by cases hpending⟩
    · refine safe_call_hist.2 ⟨trivial, fun r => ?_⟩
      cases hr : rpcCall env url (min timing.requestTimeoutMs (deadline - now)) r with
      | error e => exact ih ((ho.append _).append _)
      | ok receipt =>
        exact Safe.ofExcept ⟨(ho.append _).append _, settled_settleReceipt (by simp) hr⟩

theorem safe_pollRounds (order : List String) (deadline : Int) (rounds round : Nat)
    (ho : Out env timing raw h) :
    Safe (.hist (May env timing args)) (pollRounds env args timing (env.keccak256 raw) order deadline rounds round)
      (fun r h' => Out env timing raw h' ∧ Awaited env (env.keccak256 raw) h' r) h := by
  induction rounds generalizing round h with
  | zero => exact safe_cut.2 trivial
  | succ rounds ih =>
    rw [pollRounds]
    refine Safe.bind ((safe_pollNodes deadline (rotated order round) ho).mono fun r h' hr => ?_)
    obtain ⟨ho', hsettled⟩ := hr
    cases r with
    | error e => exact ⟨ho', hsettled⟩
    | ok found =>
      cases found with
      | some result => exact safe_ret.2 ⟨ho', hsettled⟩
      | none =>
        refine safe_call_hist.2 ⟨trivial, fun now => ?_⟩
        refine Safe.ite (fun _ => ?_) fun _ => ?_
        · exact safe_ret.2 ⟨ho'.append _, rfl, fun hpending => by cases hpending⟩
        · exact safe_call_hist.2 ⟨trivial, fun _ => ih (round + 1) ((ho'.append _).append _)⟩

/-! ## The whole send -/

/-- What a send leaves behind. -/
def Told (env : Library) (timing : Timing) : Except SendError TxResult → History → Prop
  | .error (.plain _), h => Declined env timing h
  | .error (.outcomeUnknown _ hash), h => ∃ raw, IsSigned h raw ∧ hash = env.keccak256 raw
  | r, h => ∃ raw, Out env timing raw h ∧ Awaited env (env.keccak256 raw) h r

theorem told_of_awaited {r : Except SendError TxResult} (ho : Out env timing raw h)
    (ha : Awaited env (env.keccak256 raw) h r) : Told env timing r h := by
  cases r with
  | ok result => exact ⟨raw, ho, ha⟩
  | error e =>
    cases e with
    | plain text => exact ha.elim
    | outcomeUnknown message hash => exact ha.elim
    | reverted hash text => exact ⟨raw, ho, ha⟩
    | thrown text => exact ⟨raw, ho, ha⟩

theorem safe_awaitReceipt (via : String) (rounds : Nat) (ho : Out env timing raw h) :
    Safe (.hist (May env timing args)) (awaitReceipt env args timing (env.keccak256 raw) via rounds) (Told env timing) h := by
  rw [awaitReceipt]
  refine safe_call_hist.2 ⟨trivial, fun now => ?_⟩
  refine (safe_pollRounds _ _ rounds 0 (ho.append _)).mono fun r h' hr => ?_
  exact told_of_awaited hr.1 hr.2

theorem checkArgs_plain {e : SendError}
    (he : (checkArgs env args).mapError SendError.plain = .error e) : ∃ text, e = .plain text := by
  cases hc : checkArgs env args with
  | ok checked =>
    rw [hc] at he
    cases he
  | error text =>
    rw [hc] at he
    exact ⟨text, (Except.error.inj he).symm⟩

theorem safe_sendEvmTransfer (rounds : Nat) :
    Safe (.hist (May env timing args)) (sendEvmTransfer env args timing rounds) (Told env timing) [] := by
  unfold sendEvmTransfer
  have hnil : Reading [] := fun e he => absurd he List.not_mem_nil
  refine Safe.ofExcept_bind (fun e he => ?_) fun checked hchecked => ?_
  · obtain ⟨text, rfl⟩ := checkArgs_plain he
    exact declined_of_unsent hnil.unsent
  refine Safe.bind ((safe_prepare checked.1 checked.2 args.urls [] hnil).mono fun r h hr => ?_)
  cases r with
  | error e =>
    cases e with
    | plain text => exact declined_of_unsent (Reading.unsent hr)
    | _ => exact hr.elim
  | ok prepared =>
    obtain ⟨hreading, url, reads, hreads, hprepared⟩ := hr
    have hdeclined : Declined env timing h := declined_of_unsent hreading.unsent
    have hasked : IsAsked env timing args checked.2 prepared h :=
      ⟨checked.1, url, reads, Rust.ok_of_mapError hchecked, hreads, hprepared⟩
    refine safe_next_hist ⟨hreading.unsigned, hasked⟩ (fun r e he => ?_) fun r raw hraw => ?_
    · cases r with
      | ok raw => cases he
      | error text =>
        cases he
        exact hdeclined.snoc rfl
    · have hsigned : IsSigned (h ++ [⟨.sign checked.2 prepared, r⟩]) raw := by
        refine ⟨checked.2, prepared, ?_⟩
        cases r with
        | error text => cases hraw
        | ok raw' =>
          cases hraw
          simp
      have htried : Tried env timing raw [] (h ++ [⟨.sign checked.2 prepared, r⟩]) :=
        ⟨hsigned, fun _ => hdeclined.snoc rfl⟩
      refine Safe.bind ((safe_broadcast args.urls htried).mono fun r' h' hr' => ?_)
      cases r' with
      | ok via => exact safe_awaitReceipt via rounds ⟨hr'.1, hr'.2⟩
      | error e =>
        cases e with
        | plain text => exact hr'
        | outcomeUnknown message hash => exact ⟨raw, hr'⟩
        | _ => exact hr'.elim

theorem IsAsked.append {tx : Transfer} {p : Prepared} (ha : IsAsked env timing args tx p h) (l : History) :
    IsAsked env timing args tx p (h ++ l) := by
  obtain ⟨sender, url, reads, hchecked, hreads, hprepared⟩ := ha
  exact ⟨sender, url, reads, hchecked, List.mem_append_left l hreads, hprepared⟩

/-- No transaction is prepared for another chain than the one that was meant. -/
theorem prepareOn_chainId {url : String} {reads : Reads} {p : Prepared}
    (hp : prepareOn env args timing url reads = .ok p) : ∀ n ∈ args.chainId, p.chainId = n := by
  intro n hn
  rw [prepareOn] at hp
  obtain ⟨chainId, -, hp⟩ := ok_of_bind hp
  by_cases hother : args.chainId.any (chainId ≠ ·) = true
  · rw [if_pos hother] at hp
    cases hp
  rw [if_neg hother] at hp
  have hsame : chainId = n := by
    rw [Option.mem_def.1 hn] at hother
    simpa using hother
  cases hestimate : rpcCall env url timing.requestTimeoutMs reads.estimate with
  | error e =>
    rw [hestimate] at hp
    dsimp only at hp
    cases hrefusal : estimateRefusal env args e with
    | some text =>
      rw [hrefusal] at hp
      cases hp
    | none =>
      rw [hrefusal] at hp
      cases hp
  | ok estimate =>
    rw [hestimate] at hp
    obtain ⟨gas, -, hp⟩ := ok_of_bind hp
    obtain ⟨nonce, -, hp⟩ := ok_of_bind hp
    cases hblock : rpcCall env url timing.requestTimeoutMs reads.block with
    | error e =>
      rw [hblock] at hp
      cases hp
    | ok block =>
      rw [hblock] at hp
      obtain ⟨baseFee, -, hp⟩ := ok_of_bind hp
      obtain ⟨fee, -, hp⟩ := ok_of_bind hp
      cases hp
      exact hsame

/-- What was told of the end is so. -/
theorem ends_of_told {took : Ev EvmOp.Ans → Prop} (ht : Truthful env timing took h) {r : Except SendError TxResult}
    (hr : Told env timing r h) : Ends env timing took h r := by
  cases r with
  | ok result =>
    obtain ⟨raw, hout, hhash, hreceipted⟩ := hr
    refine ⟨raw, hout.isSigned, hhash.symm, hout.reported, fun hpending => ?_⟩
    rw [hhash]
    exact hreceipted hpending
  | error e =>
    cases e with
    | plain text =>
      intro e he hsend htook
      obtain ⟨o, answer⟩ := e
      cases o with
      | send url raw => exact ht.refusal url raw answer he htook (hr url raw answer he)
      | _ => cases hsend
    | reverted hash text =>
      obtain ⟨raw, hout, hhash, hreceipted⟩ := hr
      exact ⟨raw, hout.isSigned, hhash.symm, hhash ▸ hreceipted⟩
    | thrown text =>
      obtain ⟨raw, -, url, hash, timeoutMs, r, receipt, text, he, hcall, hstatus⟩ := hr
      obtain ⟨status, hok⟩ := ht.integral url hash timeoutMs r receipt he hcall
      rw [hstatus] at hok
      cases hok
    | outcomeUnknown message hash =>
      obtain ⟨raw, hsigned, rfl⟩ := hr
      exact ⟨raw, hsigned, rfl⟩

end

def sampleBodies : List (String × Json) := [
  ("quantity", .obj [("result", .str "0x1")]),
  ("block", .obj [("result", .obj [])]),
  ("taken", .obj [("result", .str "0xabc")]),
  ("receipt", .obj [("result", .obj [("status", .str "0x1"), ("blockNumber", .str "0x2")])])]

def sampleLibrary : Library where
  toEnv := { SessionSend.sampleEnv with jsonParse := fun text => sampleBodies.lookup text }
  toLowerCase s := s
  stringify _ := ""
  integer _ := none
  getAddress s := some s
  zeroAddress := "0x0"
  addressOf _ := .ok "0x2222222222222222222222222222222222222222"
  transferData _ _ := "0x"
  keccak256 _ := "0xabc"
  hostOf url := url
  revertReason _ _ := none
  tokens := []

def sampleArgs : EvmTransferArgs where
  privateKey := "key"
  toText := "0x1111111111111111111111111111111111111111"
  amount := "1"
  urls := ["node"]
  chainId := some 1
  chainName := "Ethereum"
  ticker := "ETH"
  gasTicker := "ETH"
  tokenContract := none
  decimals := 18

def sampleAnswer : (o : EvmOp) → o.Ans
  | .reads _ _ _ =>
    let quantity := .body 200 "quantity"
    ⟨quantity, quantity, .body 200 "block", quantity, quantity, quantity⟩
  | .sign _ _ => .ok "0xraw"
  | .send _ _ => .body 200 "taken"
  | .lookup _ _ => .failed false ""
  | .receipt _ _ _ => .body 200 "receipt"
  | .now => 0
  | .sleep _ => ()

def sampleSend : EvmM TxResult := sendEvmTransfer sampleLibrary sampleArgs {} 1

def sampleHistory (n : Nat) : History := Prog.fed (fun _ => sampleAnswer) sampleSend n

theorem sampleHistory_answer {n : Nat} {o : EvmOp} {r : o.Ans} (he : ⟨o, r⟩ ∈ sampleHistory n) : r = sampleAnswer o := by
  obtain ⟨m, he⟩ := Prog.mem_fed he
  exact eq_of_heq (Ev.mk.inj he).2

theorem truthful_sampleHistory (n : Nat) : Truthful sampleLibrary {} (fun _ => True) (sampleHistory n) where
  refusal url raw r he _ := by
    obtain rfl := sampleHistory_answer he
    intro hrefusing
    obtain ⟨e, hanswer, -⟩ := hrefusing
    cases hanswer
  integral url hash timeoutMs r receipt he hr := by
    obtain rfl := sampleHistory_answer he
    cases hr
    exact ⟨some 1, rfl⟩

end EvmSend
