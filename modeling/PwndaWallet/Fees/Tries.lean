import PwndaWallet.Fees.Runs

/-!
# How often a fee is put off

Runs of the watcher in which every write to the directory works, with a count for every bid of how
often its record was put off. A run is patient if no withdraw is refused once the bid has been put
off as often as `act` lets the gate do it.
-/

namespace Fees

open Rust Tasks Tasks.Fs Bridge

structure Tally where
  world : World
  deferred : String → Nat

abbrev Tally.dir (t : Tally) : Dir String := t.world.dir

/-- How many withdraws were asked for a bid. -/
def Tally.withdrawn (t : Tally) (bid : String) : Nat := t.world.issued.countP fun i => i.bid == bid

def FeeRecord.isDeferred (rec : FeeRecord) : Bool :=
  match rec.state with
  | .deferred _ _ _ _ => true
  | _ => false

section
variable (h : Host)

/-- The bid that an operation puts off: it moves a deferred record to its place. -/
def deferredBy (d : Dir String) : FeeOp → Option String
  | .fs (.rename source _) =>
    match d source with
    | some (.file text) =>
      match h.fromPretty text with
      | .ok rec => if rec.isDeferred then some rec.bidId else none
      | .error _ => none
    | _ => none
  | _ => none

def countOne (n : String → Nat) (bid : Option String) : String → Nat :=
  fun b => if bid = some b then n b + 1 else n b

/-- The answer of a write that works. -/
def Works : (o : FeeOp) → o.Ans → Prop
  | .fs (.create _), r => r = .ok ()
  | .fs (.write _ _), r => r = .ok ()
  | .fs (.rename _ _), r => r = .ok ()
  | .fs (.remove _), r => r = .ok () ∨ r = .error .notFound
  | _, _ => True

/-- The withdraw was not made, and the record will be put off. -/
def isRefusal (r : PostReply) : Bool :=
  match (r.result h.parseJson).bind (extractTxid h.printJson) with
  | .ok _ => false
  | .error e => !isTransportFailure e

/-- The condition on one answer: a withdraw is refused only while its bid may be put off once more. -/
def Patient : (o : FeeOp) → o.Ans → Tally → Prop
  | .post bid _ _, r, t => isRefusal h r = true → t.deferred bid + 1 < maxDeferTries
  | _, _, _ => True

def FeeOp.tallies (strict : Prop) : Does FeeOp FeeOp.Ans Tally :=
  fun o r t t' => FeeOp.does h False o r t.world t'.world ∧ Works o r ∧
    t'.deferred = countOne t.deferred (deferredBy h t.dir o) ∧ (strict → Patient h o r t)

/-- The counts, and the mode and the baseline of the watcher that runs, if one does. -/
structure Counted where
  tally : Tally
  running : Option (Mode × Int)

/-- One start, one pass, or the end of the wallet between two passes. -/
inductive CountStep (strict : Prop) : Counted → Counted → Prop
  | started {t t' : Tally} {m : Mode} {tr : List (Ev FeeOp.Ans)} {b : Int} :
      m ≠ .off → Exec (FeeOp.tallies h strict) (startup h) t tr (.ret b) t' →
      CountStep strict ⟨t, none⟩ ⟨t', some (m, b)⟩
  | refused {t t' : Tally} {tr : List (Ev FeeOp.Ans)} {e : String} :
      Exec (FeeOp.tallies h strict) (startup h) t tr (.fail e) t' → CountStep strict ⟨t, none⟩ ⟨t', none⟩
  | passed {t t' : Tally} {m : Mode} {b : Int} {tr : List (Ev FeeOp.Ans)} {q : FeeProg Pass}
      {r : Except String Pass} :
      Exec (FeeOp.tallies h strict) (tick h m b) t tr q t' → q.ended = some r →
      CountStep strict ⟨t, some (m, b)⟩ ⟨t', some (m, b)⟩
  | stopped {t : Tally} {m : Mode} {b : Int} : CountStep strict ⟨t, some (m, b)⟩ ⟨t, none⟩

inductive CountRun (strict : Prop) (c : Counted) : Counted → Prop
  | refl : CountRun strict c c
  | step {c' c'' : Counted} : CountRun strict c c' → CountStep h strict c' c'' → CountRun strict c c''

/-- Where a run begins: the counts are those of the records that are kept. -/
structure Counted.Initial (c : Counted) : Prop where
  stopped : c.running = none
  named : Named h c.tally.dir
  withdrawn : ∀ bid, c.tally.withdrawn bid = 0
  deferred : ∀ bid, c.tally.deferred bid = ((record h c.tally.dir bid).map triesOf).getD 0
  bounded : ∀ bid, c.tally.deferred bid < maxDeferTries

end

end Fees
