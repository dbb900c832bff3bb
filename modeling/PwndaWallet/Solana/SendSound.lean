import PwndaWallet.Lib.Trace
import PwndaWallet.Send.OutcomeSound
import PwndaWallet.Solana.Send

/-!
# What a Solana send says

A send is compared with what became of its transaction on the finalized chain. One transaction is signed, its bytes are
all that is broadcast, and what is said in the end is so.
-/

namespace Solana

open Rust SessionSend Tasks

abbrev History := List (Ev SolOp.Ans)

/-- The slot that holds the transaction with this signature, and the error it has there. -/
abbrev Fate := String → Option (Nat × Option Json)

/-! ## What is known of a history -/

def isSign : SolOp → Bool
  | .sign _ _ => true
  | _ => false

def isBlockhash : SolOp → Bool
  | .latestBlockhash => true
  | _ => false

def isBroadcast : SolOp → Bool
  | .broadcast _ _ => true
  | _ => false

def Unsigned (h : History) : Prop := ∀ e ∈ h, isSign e.op = false

def IsSigned (h : History) (tx : SignedSolanaTransaction) (lastValid : Nat) : Prop :=
  ∃ blockhash, (⟨.sign blockhash lastValid, .ok tx⟩ : Ev SolOp.Ans) ∈ h

/-- A node gave this status. -/
def Reported (h : History) (signature : String) (s : SignatureStatus) : Prop :=
  ∃ url searched slot, (⟨.statuses url signature searched, .ok ⟨slot, some s⟩⟩ : Ev SolOp.Ans) ∈ h

section

variable (env : Library)

/-- The endpoint did not forward the bytes, by its own words. -/
def Refused (r : Except String Response) : Prop :=
  ∃ reason, outcomeOf env r = .rejected reason ∨ outcomeOf env r = .unavailable reason

/-- Every endpoint that was given the bytes refused them. -/
def Declined (h : History) : Prop := ∀ url wire r, (⟨.broadcast url wire, r⟩ : Ev SolOp.Ans) ∈ h → Refused env r

/-- A node took the bytes, or had them already. -/
def Taken (tx : SignedSolanaTransaction) (h : History) : Prop :=
  ∃ url r, (⟨.broadcast url tx.wire, r⟩ : Ev SolOp.Ans) ∈ h ∧ isTaken (outcomeOf env r) = true

/-- A node has it in a block. -/
def Seen (tx : SignedSolanaTransaction) (h : History) : Prop :=
  ∃ s, Reported h tx.signature s ∧ statusVerdict s = .inBlock

end

/-- The finalized chain was past the last block that could hold the transaction, and right after that a node that was
not behind did not have it. -/
inductive Absent (signature : String) (lastValid : Nat) (h : History) : Prop
  | searched (pre post : History) (url : String) (finalized height slot : Nat)
      (hh : h = pre ++ ⟨.epochInfo url, .ok ⟨finalized, some height⟩⟩ ::
        ⟨.statuses url signature true, .ok ⟨slot, none⟩⟩ :: post)
      (hpast : lastValid < height) (hslot : finalized ≤ slot)
  | cached (pre post : History) (url e : String) (finalized height slot : Nat)
      (hh : h = pre ++ ⟨.epochInfo url, .ok ⟨finalized, some height⟩⟩ :: ⟨.statuses url signature true, .error e⟩ ::
        ⟨.statuses url signature false, .ok ⟨slot, none⟩⟩ :: post)
      (hpast : lastValid < height) (hclose : height - lastValid ≤ STATUS_CACHE_TRUSTED_BLOCKS) (hslot : finalized ≤ slot)

/-- What is assumed of the nodes: a refusal comes from a node that did not forward the bytes; a settled status is the
transaction's fate; a transaction is in no block past the last valid height; and what a node does not have, though it
has seen the finalized slot, is in no block up to there. The status cache covers a hundred blocks. -/
structure Truthful (env : Library) (fate : Fate) (forwarded : Ev SolOp.Ans → Prop) (h : History) : Prop where
  refusal (url wire : String) (r : Except String Response) : ⟨.broadcast url wire, r⟩ ∈ h →
    forwarded ⟨.broadcast url wire, r⟩ → ¬ Refused env r
  settled (signature : String) (s : SignatureStatus) (err : Option Json) : Reported h signature s →
    statusVerdict s = .settled err → ∃ slot, fate signature = some (slot, err)
  bound (tx : SignedSolanaTransaction) (lastValid : Nat) (url : String) (finalized height slot : Nat)
    (err : Option Json) : IsSigned h tx lastValid → ⟨.epochInfo url, .ok ⟨finalized, some height⟩⟩ ∈ h →
      lastValid < height → fate tx.signature = some (slot, err) → slot ≤ finalized
  searched (pre post : History) (url signature : String) (finalized height slot landed : Nat) (err : Option Json) :
    h = pre ++ ⟨.epochInfo url, .ok ⟨finalized, some height⟩⟩ ::
      ⟨.statuses url signature true, .ok ⟨slot, none⟩⟩ :: post →
      finalized ≤ slot → fate signature = some (landed, err) → finalized < landed
  cached (pre post : History) (tx : SignedSolanaTransaction) (url e : String)
    (finalized height slot landed lastValid : Nat) (err : Option Json) : IsSigned h tx lastValid →
      h = pre ++ ⟨.epochInfo url, .ok ⟨finalized, some height⟩⟩ :: ⟨.statuses url tx.signature true, .error e⟩ ::
        ⟨.statuses url tx.signature false, .ok ⟨slot, none⟩⟩ :: post →
      height - lastValid ≤ STATUS_CACHE_TRUSTED_BLOCKS → finalized ≤ slot →
      fate tx.signature = some (landed, err) → finalized < landed

/-- What the send ends with is as it says. -/
def Ends (env : Library) (fate : Fate) (forwarded : Ev SolOp.Ans → Prop) (h : History) :
    Except SendError TxResult → Prop
  | .ok result => ∃ tx lastValid, IsSigned h tx lastValid ∧ result.hash = tx.signature ∧
      (result.pending = true → Taken env tx h ∨ Seen tx h) ∧
      (result.pending = false → ∃ slot err, fate tx.signature = some (slot, err) ∧ err.all (!isTruthy env.toEnv ·) = true)
  | .error (.plain _) => ∀ e ∈ h, isBroadcast e.op = true → ¬ forwarded e
  | .error (.failedOnChain _ signature) => ∃ tx lastValid slot err, IsSigned h tx lastValid ∧
      signature = tx.signature ∧ fate signature = some (slot, some err) ∧ isTruthy env.toEnv err = true
  | .error (.expired _ signature) => ∃ tx lastValid, IsSigned h tx lastValid ∧ signature = tx.signature ∧
      fate signature = none
  | .error (.outcomeUnknown _ signature) => ∃ tx lastValid, IsSigned h tx lastValid ∧ signature = tx.signature

/-- After the signing no blockhash is read and nothing else is signed, the signed bytes are all that is broadcast, and
what is said in the end is so. -/
structure Honest (env : Library) (fate : Fate) (forwarded : Ev SolOp.Ans → Prop) (h : History)
    (q : SolM SendError TxResult) : Prop where
  once (pre post : History) (o : SolOp) (r : o.Ans) : h = pre ++ ⟨o, r⟩ :: post → isSign o = true →
    ∀ e' ∈ post, isSign e'.op = false ∧ isBlockhash e'.op = false
  own (url wire : String) (r : Except String Response) : ⟨.broadcast url wire, r⟩ ∈ h →
    ∃ tx lastValid, IsSigned h tx lastValid ∧ tx.wire = wire
  ends (r : Except SendError TxResult) : q = .ofExcept r → Ends env fate forwarded h r

/-- What may be asked, and when. -/
def May : SolOp → History → Prop
  | .latestBlockhash, h => Unsigned h
  | .sign _ _, h => Unsigned h
  | .broadcast _ wire, h => ∃ tx lastValid, IsSigned h tx lastValid ∧ tx.wire = wire
  | _, _ => True

section

variable {env : Library} {tx : SignedSolanaTransaction} {lastValid : Nat} {h h' : History}

theorem prefix_snoc (hg : h <+: h') (e : Ev SolOp.Ans) : h <+: h' ++ [e] := hg.trans (List.prefix_append _ _)

theorem IsSigned.grow (hs : IsSigned h tx lastValid) (hg : h <+: h') : IsSigned h' tx lastValid := by
  obtain ⟨blockhash, he⟩ := hs
  exact ⟨blockhash, hg.subset he⟩

theorem Reported.grow {signature : String} {s : SignatureStatus} (hr : Reported h signature s) (hg : h <+: h') :
    Reported h' signature s := by
  obtain ⟨url, searched, slot, he⟩ := hr
  exact ⟨url, searched, slot, hg.subset he⟩

theorem Taken.grow (ht : Taken env tx h) (hg : h <+: h') : Taken env tx h' := by
  obtain ⟨url, r, he, hr⟩ := ht
  exact ⟨url, r, hg.subset he, hr⟩

theorem Seen.grow (hs : Seen tx h) (hg : h <+: h') : Seen tx h' := by
  obtain ⟨s, hr, hv⟩ := hs
  exact ⟨s, hr.grow hg, hv⟩

theorem Declined.snoc (hd : Declined env h) {e : Ev SolOp.Ans} (he : isBroadcast e.op = false) :
    Declined env (h ++ [e]) := by
  intro url wire r hmem
  cases List.mem_append.1 hmem with
  | inl hmem => exact hd url wire r hmem
  | inr hmem =>
    rw [List.mem_singleton] at hmem
    subst hmem
    cases he

theorem Declined.broadcast (hd : Declined env h) {url wire : String} {r : Except String Response}
    (hr : Refused env r) : Declined env (h ++ [⟨.broadcast url wire, r⟩]) := by
  intro url' wire' r' hmem
  cases List.mem_append.1 hmem with
  | inl hmem => exact hd url' wire' r' hmem
  | inr hmem =>
    rw [List.mem_singleton] at hmem
    cases hmem
    exact hr

/-! ## One look -/

/-- What a look comes to. -/
def Looked (signature : String) (lastValid : Nat) (h : History) : Except String Verdict → Prop
  | .ok (.settled err) => ∃ s, Reported h signature s ∧ statusVerdict s = .settled err
  | .ok .inBlock => ∃ s, Reported h signature s ∧ statusVerdict s = .inBlock
  | .ok .expired => Absent signature lastValid h
  | _ => True

theorem statusVerdict_cases (s : SignatureStatus) :
    statusVerdict s = .settled s.err ∨ statusVerdict s = .inBlock := by
  rw [statusVerdict]
  by_cases hs : s.confirmationStatus = some "confirmed" ∨ s.confirmationStatus = some "finalized" ∨
      s.confirmations = none
  · exact .inl (if_pos hs)
  · exact .inr (if_neg hs)

theorem looked_statusVerdict {signature : String} {s : SignatureStatus} (hr : Reported h signature s) :
    Looked signature lastValid h (.ok (statusVerdict s)) := by
  cases statusVerdict_cases s with
  | inl hv =>
    rw [hv]
    exact ⟨s, hr, hv⟩
  | inr hv =>
    rw [hv]
    exact ⟨s, hr, hv⟩

theorem looked_decideAbsent {signature : String} (url : String) (searched : Bool) {finalized : Nat} {r : StatusAnswer}
    (he : ⟨.statuses url signature searched, .ok r⟩ ∈ h)
    (habsent : ∀ slot, r = ⟨slot, none⟩ → finalized ≤ slot → Absent signature lastValid h) :
    Looked signature lastValid h (.ok (decideAbsent finalized r)) := by
  obtain ⟨slot, status⟩ := r
  cases status with
  | some s => exact looked_statusVerdict ⟨url, searched, slot, he⟩
  | none =>
    simp only [decideAbsent]
    by_cases hslot : slot ≥ finalized
    · rw [if_pos hslot]
      exact habsent slot rfl hslot
    · rw [if_neg hslot]
      trivial

theorem safe_proveAbsent {url signature : String} {finalized height : Nat} (hpast : lastValid < height) :
    Safe (.hist May) (proveAbsent url signature finalized (height - lastValid))
      (fun r h' => h ++ [⟨.epochInfo url, .ok ⟨finalized, some height⟩⟩] <+: h' ∧ Looked signature lastValid h' r)
      (h ++ [⟨.epochInfo url, .ok ⟨finalized, some height⟩⟩]) := by
  rw [proveAbsent]
  refine safe_call_hist.2 ⟨trivial, fun r => ?_⟩
  cases r with
  | ok r =>
    refine safe_ret.2 ⟨List.prefix_append _ _, looked_decideAbsent url true (by simp) fun slot hr hslot => ?_⟩
    subst hr
    exact .searched h [] url finalized height slot (by simp) hpast hslot
  | error e =>
    refine Safe.ite (fun _ => safe_ret.2 ⟨List.prefix_append _ _, trivial⟩) fun hclose => ?_
    refine safe_call_hist.2 ⟨trivial, fun r => ?_⟩
    have hgrown := prefix_snoc (List.prefix_append (h ++ [⟨.epochInfo url, .ok ⟨finalized, some height⟩⟩])
      [⟨.statuses url signature true, .error e⟩]) ⟨.statuses url signature false, r⟩
    cases r with
    | error e' => exact safe_fail.2 ⟨hgrown, trivial⟩
    | ok r =>
      refine safe_ret.2 ⟨hgrown, looked_decideAbsent url false (by simp) fun slot hr hslot => ?_⟩
      subst hr
      exact .cached h [] url e finalized height slot (by simp) hpast (by omega) hslot

theorem safe_checkOnce (url signature : String) (lastValid : Nat) :
    Safe (.hist May) (checkOnce url signature lastValid) (fun r h' => h <+: h' ∧ Looked signature lastValid h' r) h := by
  rw [checkOnce]
  refine safe_call_hist.2 ⟨trivial, fun r => ?_⟩
  cases r with
  | error e => exact safe_fail.2 ⟨List.prefix_append _ _, trivial⟩
  | ok r =>
    obtain ⟨slot, status⟩ := r
    cases status with
    | some s => exact safe_ret.2 ⟨List.prefix_append _ _, looked_statusVerdict ⟨url, false, slot, by simp⟩⟩
    | none =>
      refine safe_call_hist.2 ⟨trivial, fun r => ?_⟩
      have hgrown := prefix_snoc (List.prefix_append h [⟨.statuses url signature false, .ok ⟨slot, none⟩⟩])
        ⟨.epochInfo url, r⟩
      cases r with
      | error e => exact safe_fail.2 ⟨hgrown, trivial⟩
      | ok epoch =>
        obtain ⟨finalized, blockHeight⟩ := epoch
        cases blockHeight with
        | none => exact safe_fail.2 ⟨hgrown, trivial⟩
        | some height =>
          refine Safe.ite (fun _ => safe_ret.2 ⟨hgrown, trivial⟩) fun hpast => ?_
          refine (safe_proveAbsent (Nat.lt_of_not_le hpast)).mono fun r h' hr => ?_
          exact ⟨(List.prefix_append _ _).trans ((List.prefix_append _ _).trans hr.1), hr.2⟩

/-! ## The first broadcasts -/

/-- What the first broadcasts come to. -/
def Delivered (env : Library) (tx : SignedSolanaTransaction) (lastValid : Nat) :
    Except SendError Delivery → History → Prop
  | .ok first, h => IsSigned h tx lastValid ∧ (first.accepted = true → Taken env tx h) ∧
      (first.accepted = false → first.maybeSent = false → Declined env h)
  | .error (.plain _), h => Declined env h
  | .error _, _ => False

theorem refused_of_rejected {r : Except String Response} {reason : String} (h : outcomeOf env r = .rejected reason) :
    Refused env r := ⟨reason, .inl h⟩

theorem refused_of_unavailable {r : Except String Response} {reason : String}
    (h : outcomeOf env r = .unavailable reason) : Refused env r := ⟨reason, .inr h⟩

theorem safe_firstDelivery (deadline : Int) (urls : List String) (i : Nat) (maybeSent : Bool) (unavailable : List String)
    (hs : IsSigned h tx lastValid) (hd : maybeSent = false → Declined env h) :
    Safe (.hist May) (firstDelivery env tx.wire deadline urls i maybeSent unavailable) (Delivered env tx lastValid) h := by
  induction urls generalizing i maybeSent unavailable h with
  | nil => exact safe_ret.2 ⟨hs, (fun hno => by cases hno), fun _ hno => hd hno⟩
  | cons url urls ih =>
    rw [firstDelivery]
    refine safe_call_hist.2 ⟨trivial, fun now => ?_⟩
    have hs := hs.grow (List.prefix_append h [⟨.now, now⟩])
    have hd (hno : maybeSent = false) : Declined env (h ++ [⟨.now, now⟩]) := (hd hno).snoc rfl
    refine Safe.ite (fun _ => safe_ret.2 ⟨hs, (fun hno => by cases hno), fun _ hno => hd hno⟩) fun _ => ?_
    refine safe_call_hist.2 ⟨⟨tx, lastValid, hs, rfl⟩, fun r => ?_⟩
    have hs := hs.grow (List.prefix_append _ [⟨.broadcast url tx.wire, r⟩])
    have htaken (ht : isTaken (outcomeOf env r) = true) (h₀ : History) :
        Taken env tx (h₀ ++ [⟨.broadcast url tx.wire, r⟩]) := ⟨url, r, by simp, ht⟩
    cases hr : outcomeOf env r with
    | accepted =>
      refine safe_ret.2 ⟨hs, fun _ => htaken (by rw [hr]; rfl) _, fun hno => by cases hno⟩
    | alreadyProcessed =>
      refine safe_ret.2 ⟨hs, fun _ => htaken (by rw [hr]; rfl) _, fun hno => by cases hno⟩
    | rejected reason =>
      refine Safe.ite (fun hmaybe => ?_) fun hmaybe => ?_
      · exact safe_ret.2 ⟨hs, (fun hno => by cases hno), fun _ hno => by rw [hmaybe] at hno; cases hno⟩
      · exact safe_fail.2 ((hd (by simpa using hmaybe)).broadcast (refused_of_rejected hr))
    | unavailable reason =>
      exact ih (i + 1) maybeSent _ hs fun hno => (hd hno).broadcast (refused_of_unavailable hr)
    | ambiguous reason => exact ih (i + 1) true unavailable hs fun hno => by cases hno

/-! ## Waiting -/

/-- What a send comes to once its bytes may be out. -/
def Settled (env : Library) (tx : SignedSolanaTransaction) (lastValid : Nat) :
    Except SendError TxResult → History → Prop
  | .ok result, h => IsSigned h tx lastValid ∧ result.hash = tx.signature ∧
      (result.pending = true → Taken env tx h ∨ Seen tx h) ∧
      (result.pending = false → ∃ s err, Reported h tx.signature s ∧ statusVerdict s = .settled err ∧
        err.all (!isTruthy env.toEnv ·) = true)
  | .error (.failedOnChain _ signature), h => IsSigned h tx lastValid ∧ signature = tx.signature ∧
      ∃ s err, Reported h tx.signature s ∧ statusVerdict s = .settled (some err) ∧ isTruthy env.toEnv err = true
  | .error (.expired _ signature), h => IsSigned h tx lastValid ∧ signature = tx.signature ∧
      Absent tx.signature lastValid h
  | .error (.outcomeUnknown _ signature), h => IsSigned h tx lastValid ∧ signature = tx.signature
  | .error (.plain _), _ => False

/-- What is remembered while waiting is so. -/
structure Waits (env : Library) (tx : SignedSolanaTransaction) (lastValid : Nat) (s : Waiting) (h : History) : Prop where
  isSigned : IsSigned h tx lastValid
  accepted : s.accepted = true → Taken env tx h
  seen : s.seen = true → Seen tx h

theorem Waits.grow {s : Waiting} (hw : Waits env tx lastValid s h) (hg : h <+: h') : Waits env tx lastValid s h' :=
  ⟨hw.isSigned.grow hg, fun ha => (hw.accepted ha).grow hg, fun hs => (hw.seen hs).grow hg⟩

theorem Waits.moved {s : Waiting} (hw : Waits env tx lastValid s h) (cursor : Nat) :
    Waits env tx lastValid { s with cursor } h := ⟨hw.isSigned, hw.accepted, hw.seen⟩

theorem safe_giveUp {s : Waiting} (hw : Waits env tx lastValid s h) :
    Safe (.hist May) (giveUp tx.signature s) (Settled env tx lastValid) h := by
  rw [giveUp]
  refine Safe.ite (fun hany => ?_) fun _ => safe_fail.2 ⟨hw.isSigned, rfl⟩
  refine safe_ret.2 ⟨hw.isSigned, rfl, fun _ => ?_, fun hno => by cases hno⟩
  cases haccepted : s.accepted with
  | true => exact .inl (hw.accepted haccepted)
  | false =>
    rw [haccepted, Bool.false_or] at hany
    exact .inr (hw.seen hany)

theorem safe_awaitOutcome (timing : Timing) (order : List String) (deadline : Int) (lateRefusal : Option String)
    (looks : Nat) {s : Waiting} (hw : Waits env tx lastValid s h) :
    Safe (.hist May) (awaitOutcome env timing order tx lastValid deadline lateRefusal looks s)
      (Settled env tx lastValid) h := by
  induction looks generalizing s h with
  | zero => exact safe_cut.2 trivial
  | succ looks ih =>
    rw [awaitOutcome]
    refine safe_call_hist.2 ⟨trivial, fun now => ?_⟩
    refine Safe.ite (fun _ => safe_giveUp (hw.grow (List.prefix_append _ _))) fun _ => ?_
    refine safe_call_hist.2 ⟨trivial, fun now' => safe_call_hist.2 ⟨trivial, fun _ => ?_⟩⟩
    refine Safe.handle ((safe_checkOnce _ tx.signature lastValid).mono fun r h' hr => ?_)
    obtain ⟨hgrown, hlooked⟩ := hr
    have hw := hw.grow (((List.prefix_append h _).trans (List.prefix_append _ _)).trans
      ((List.prefix_append _ _).trans hgrown))
    cases r with
    | error e => exact ih (hw.moved (s.cursor + 1))
    | ok v =>
      cases v with
      | settled err =>
        obtain ⟨status, hreported, hv⟩ := hlooked
        cases hfailed : err.filter (isTruthy env.toEnv) with
        | some e =>
          obtain ⟨herr, htruthy⟩ := Option.filter_eq_some_iff.1 hfailed
          subst herr
          simp only [hfailed]
          exact safe_fail.2 ⟨hw.isSigned, rfl, status, e, hreported, hv, htruthy⟩
        | none =>
          simp only [hfailed]
          refine safe_ret.2 ⟨hw.isSigned, rfl, (fun hno => by cases hno), fun _ => ⟨status, err, hreported, hv, ?_⟩⟩
          cases err with
          | none => rfl
          | some e => simpa using hfailed
      | expired => exact safe_fail.2 ⟨hw.isSigned, rfl, hlooked⟩
      | inBlock => exact ih ⟨hw.isSigned, hw.accepted, fun _ => hlooked⟩
      | inconclusive => exact ih (hw.moved (s.cursor + 1))
      | pending =>
        refine Safe.ite (fun _ => ih hw) fun _ => ?_
        refine safe_call_hist.2 ⟨trivial, fun now'' => ?_⟩
        have hw := hw.grow (List.prefix_append h' [⟨.now, now''⟩])
        refine Safe.ite (fun _ => ?_) fun _ => ih hw
        refine safe_call_hist.2 ⟨⟨tx, lastValid, hw.isSigned, rfl⟩, fun r => safe_call_hist.2 ⟨trivial, fun later => ?_⟩⟩
        have hg := (List.prefix_append (h' ++ [⟨.now, now''⟩])
          [⟨.broadcast (order.getD (s.resendCursor % order.length) "") tx.wire, r⟩]).trans
          (List.prefix_append _ [⟨.now, later⟩])
        refine ih ⟨hw.isSigned.grow hg, fun haccepted => ?_, fun hs => (hw.seen hs).grow hg⟩
        cases hbefore : s.accepted with
        | true => exact (hw.accepted hbefore).grow hg
        | false =>
          simp only [hbefore, Bool.false_or] at haccepted
          exact ⟨_, r, by simp, haccepted⟩

/-! ## The whole send -/

/-- What a send leaves behind. -/
def Told (env : Library) : Except SendError TxResult → History → Prop
  | .error (.plain _), h => Declined env h
  | r, h => ∃ tx lastValid, Settled env tx lastValid r h

theorem told_of_settled {r : Except SendError TxResult} (hr : Settled env tx lastValid r h) : Told env r h := by
  cases r with
  | ok result => exact ⟨tx, lastValid, hr⟩
  | error e =>
    cases e with
    | plain text => exact hr.elim
    | failedOnChain text signature => exact ⟨tx, lastValid, hr⟩
    | expired text signature => exact ⟨tx, lastValid, hr⟩
    | outcomeUnknown message signature => exact ⟨tx, lastValid, hr⟩

theorem safe_deliverSignedTransaction (timing : Timing) (order : List String) (looks : Nat)
    (hs : IsSigned h tx lastValid) (hd : Declined env h) :
    Safe (.hist May) (deliverSignedTransaction env timing order tx lastValid looks) (Told env) h := by
  rw [deliverSignedTransaction]
  refine safe_call_hist.2 ⟨trivial, fun now => ?_⟩
  refine Safe.bind ((safe_firstDelivery _ order 0 false [] (hs.grow (List.prefix_append _ _))
    fun _ => hd.snoc rfl).mono fun r h' hr => ?_)
  cases r with
  | error e =>
    cases e with
    | plain text => exact hr
    | _ => exact hr.elim
  | ok first =>
    obtain ⟨hs, htaken, hdeclined⟩ := hr
    refine Safe.ite (fun hnone => safe_fail.2 (hdeclined hnone.1 hnone.2)) fun _ => ?_
    refine safe_call_hist.2 ⟨trivial, fun now' => ?_⟩
    have hg := List.prefix_append h' [⟨SolOp.now, now'⟩]
    refine (safe_awaitOutcome timing order _ first.lateRefusal looks ?_).mono fun r h'' hr => told_of_settled hr
    exact ⟨hs.grow hg, fun haccepted => (htaken haccepted).grow hg, fun hno => by cases hno⟩

theorem safe_submitSolanaTransaction (timing : Timing) (order : List String) (looks : Nat) :
    Safe (.hist May) (submitSolanaTransaction env timing order looks) (Told env) [] := by
  have hnone : Declined env [] := fun _ _ _ hmem => absurd hmem List.not_mem_nil
  have hunsigned : Unsigned [] := fun e he => absurd he List.not_mem_nil
  rw [submitSolanaTransaction]
  refine safe_call_hist.2 ⟨hunsigned, fun r => ?_⟩
  have hread : Declined env ([] ++ [⟨.latestBlockhash, r⟩]) := hnone.snoc rfl
  cases r with
  | error e => exact safe_fail.2 hread
  | ok found =>
    obtain ⟨blockhash, lastValid⟩ := found
    refine safe_call_hist.2 ⟨fun e he => ?_, fun r => ?_⟩
    · rw [List.nil_append, List.mem_singleton] at he
      subst he
      rfl
    · cases r with
      | error e => exact safe_fail.2 (hread.snoc rfl)
      | ok tx => exact safe_deliverSignedTransaction timing order looks ⟨blockhash, by simp⟩ (hread.snoc rfl)

/-- A transaction that is provably absent lands nowhere. -/
theorem fate_of_absent {fate : Fate} {forwarded : Ev SolOp.Ans → Prop} (ht : Truthful env fate forwarded h)
    (hs : IsSigned h tx lastValid) (ha : Absent tx.signature lastValid h) : fate tx.signature = none := by
  cases hfate : fate tx.signature with
  | none => rfl
  | some found =>
    obtain ⟨landed, err⟩ := found
    cases ha with
    | searched pre post url finalized height slot hh hpast hslot =>
      have hbound := ht.bound tx lastValid url finalized height landed err hs (by simp [hh]) hpast hfate
      have hlater := ht.searched pre post url tx.signature finalized height slot landed err hh hslot hfate
      omega
    | cached pre post url e finalized height slot hh hpast hclose hslot =>
      have hbound := ht.bound tx lastValid url finalized height landed err hs (by simp [hh]) hpast hfate
      have hlater := ht.cached pre post tx url e finalized height slot landed lastValid err hs hh hclose hslot hfate
      omega

theorem ends_of_told {fate : Fate} {forwarded : Ev SolOp.Ans → Prop} (ht : Truthful env fate forwarded h)
    {r : Except SendError TxResult} (hr : Told env r h) : Ends env fate forwarded h r := by
  cases r with
  | ok result =>
    obtain ⟨tx, lastValid, hs, hhash, hpending, hdone⟩ := hr
    refine ⟨tx, lastValid, hs, hhash, hpending, fun hno => ?_⟩
    obtain ⟨s, err, hreported, hv, herr⟩ := hdone hno
    obtain ⟨slot, hfate⟩ := ht.settled _ s err hreported hv
    exact ⟨slot, err, hfate, herr⟩
  | error e =>
    cases e with
    | plain text =>
      intro e he hbroadcast hforwarded
      obtain ⟨o, answer⟩ := e
      cases o with
      | broadcast url wire => exact ht.refusal url wire answer he hforwarded (hr url wire answer he)
      | _ => cases hbroadcast
    | failedOnChain text signature =>
      obtain ⟨tx, lastValid, hs, rfl, s, err, hreported, hv, htruthy⟩ := hr
      obtain ⟨slot, hfate⟩ := ht.settled _ s (some err) hreported hv
      exact ⟨tx, lastValid, slot, err, hs, rfl, hfate, htruthy⟩
    | expired text signature =>
      obtain ⟨tx, lastValid, hs, rfl, habsent⟩ := hr
      exact ⟨tx, lastValid, hs, rfl, fate_of_absent ht hs habsent⟩
    | outcomeUnknown message signature =>
      obtain ⟨tx, lastValid, hs, rfl⟩ := hr
      exact ⟨tx, lastValid, hs, rfl⟩

end

/-- Every run of a send is honest, as far as it has come. -/
theorem solana_send_honest (env : Library) (timing : Timing) (order : List String) (looks : Nat) (fate : Fate)
    (forwarded : Ev SolOp.Ans → Prop) {h : History} {q : SolM SendError TxResult}
    (hrun : (submitSolanaTransaction env timing order looks).Run h q) (ht : Truthful env fate forwarded h) :
    Honest env fate forwarded h q := by
  have hsafe : Safe (.hist May) (submitSolanaTransaction env timing order looks) (Told env) [] :=
    safe_submitSolanaTransaction timing order looks
  refine ⟨fun pre post o r heq ho e' he' => ?_, fun url wire r hmem => ?_, fun r hq => ?_⟩
  · obtain ⟨mid, last, rfl⟩ := List.append_of_mem he'
    have hmust : May e'.op (pre ++ ⟨o, r⟩ :: mid) := must_of_mem hsafe hrun (by simpa using heq)
    have hsigned (hu : Unsigned (pre ++ ⟨o, r⟩ :: mid)) : False := by
      have hnot := hu ⟨o, r⟩ (by simp)
      rw [ho] at hnot
      cases hnot
    cases hop : e'.op with
    | latestBlockhash =>
      rw [hop] at hmust
      exact (hsigned hmust).elim
    | sign blockhash lastValid =>
      rw [hop] at hmust
      exact (hsigned hmust).elim
    | _ => exact ⟨rfl, rfl⟩
  · obtain ⟨pre, post, rfl⟩ := List.append_of_mem hmem
    obtain ⟨tx, lastValid, hs, hwire⟩ := must_of_mem hsafe hrun rfl
    exact ⟨tx, lastValid, hs.grow (List.prefix_append _ _), hwire⟩
  · have hend := safe_of_run hsafe hrun
    rw [hq, List.nil_append] at hend
    apply ends_of_told ht
    cases r with
    | ok result => exact safe_ret.1 hend
    | error e => exact safe_fail.1 hend

/-! ## A send that comes to nothing -/

def sampleLibrary : Library where
  toEnv := SessionSend.sampleEnv
  toNumber _ := none
  stringify _ := ""
  errorText e := e

/-- No answer to the broadcast, and the chain is past the last valid height. -/
def sampleAnswer : (o : SolOp) → o.Ans
  | .latestBlockhash => .ok ("blockhash", 100)
  | .sign _ _ => .ok ⟨"wire", "signature"⟩
  | .broadcast _ _ => .error "timeout"
  | .statuses _ _ _ => .ok ⟨500, none⟩
  | .epochInfo _ => .ok ⟨400, some 200⟩
  | .now => 0
  | .sleep _ => ()

def sampleSend : SolM SendError TxResult := submitSolanaTransaction sampleLibrary {} ["endpoint"] 1

def sampleHistory : History := Prog.fed (fun _ => sampleAnswer) sampleSend 12

theorem sampleHistory_answer {o : SolOp} {r : o.Ans} (he : ⟨o, r⟩ ∈ sampleHistory) : r = sampleAnswer o := by
  obtain ⟨m, he⟩ := Prog.mem_fed he
  exact eq_of_heq (Ev.mk.inj he).2

theorem truthful_sampleHistory : Truthful sampleLibrary (fun _ => none) (fun _ => True) sampleHistory where
  refusal url wire r he _ := by
    obtain rfl := sampleHistory_answer he
    intro hrefused
    obtain ⟨reason, hreason⟩ := hrefused
    cases hreason with
    | inl h => cases h
    | inr h => cases h
  settled signature s err hreported _ := by
    obtain ⟨url, searched, slot, he⟩ := hreported
    have hnone := sampleHistory_answer he
    cases hnone
  bound tx lastValid url finalized height slot err _ _ _ hfate := by cases hfate
  searched pre post url signature finalized height slot landed err _ _ hfate := by cases hfate
  cached pre post tx url e finalized height slot landed lastValid err _ _ _ _ hfate := by cases hfate

/-- The send ends by saying that the transaction can no longer land. -/
theorem solana_send_honest_sample :
    Prog.feed (fun _ => sampleAnswer) sampleSend 12 = .fail (.expired (expiredText "signature" none) "signature") ∧
      Honest sampleLibrary (fun _ => none) (fun _ => True) sampleHistory
        (.fail (.expired (expiredText "signature" none) "signature")) :=
  ⟨rfl, solana_send_honest sampleLibrary {} ["endpoint"] 1 (fun _ => none) (fun _ => True)
    (Prog.run_feed (fun _ => sampleAnswer) sampleSend 12) truthful_sampleHistory⟩

end Solana
