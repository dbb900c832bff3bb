import PwndaWallet.Fees.Watcher

/-!
# Runs of the fee watcher

The world of the watcher is its directory and the withdraws it has issued. A run is made of starts
and passes, and a crash can cut off each of them anywhere. A run is strict if its steps keep to the
condition under which a fee is collected once.
-/

namespace Fees

open Rust Tasks Tasks.Fs Bridge

/-- A withdraw that was issued, and what became of it. -/
structure Issue where
  bid : String
  path : String
  body : Json
  reply : PostReply

structure World where
  dir : Dir String
  issued : List Issue

section
variable (h : Host)

/-- The node may have broadcast the withdraw: it says so, or nobody can know. An HTTP status other
than success, a JSON error, a missing txid and a refused connection prove that it did not. -/
def mayHaveBroadcast : PostReply → Bool
  | .unbuilt _ => false
  | .unreachable _ => false
  | .lost _ => true
  | .cutOff _ _ => true
  | .answered status text =>
    if 200 ≤ status ∧ status < 300 then
      match h.parseJson text with
      | .ok v => (extractTxid h.printJson v).isOk
      | .error _ => true
    else false

/-- A reply that says nothing of the withdraw, and is not taken for a lost one: it ended while its
body was read, or it is a success that is not JSON. -/
def misread : PostReply → Bool
  | .cutOff _ _ => true
  | .answered status text => 200 ≤ status && status < 300 && !(h.parseJson text).isOk
  | _ => false

/-- The record of a bid, as its file has it. -/
def record (d : Dir String) (bid : String) : Option FeeRecord :=
  match d (recordName bid) with
  | some (.file text) => (h.fromPretty text).toOption
  | _ => none

/-- The record says that a withdraw was made, or may have been. -/
def FeeRecord.isClosing (rec : FeeRecord) : Bool :=
  match rec.state with
  | .paid _ _ _ _ => true
  | .indeterminate _ _ _ => true
  | _ => false

/-- A withdraw was issued for the bid, and may have been broadcast. -/
def Broadcast (w : World) (bid : String) : Prop :=
  ∃ i ∈ w.issued, i.bid = bid ∧ mayHaveBroadcast h i.reply = true

/-- The closing record of a bid is in its temporary file only. -/
def StrandedAt (d : Dir String) (bid : String) : Prop :=
  d (recordName bid) = none ∧
    ∃ text rec, d (tmpName bid) = some (.file text) ∧ h.fromPretty text = .ok rec ∧ rec.isClosing = true

/-- That is so of a bid whose withdraw may have been broadcast. -/
def Stranded (w : World) : Prop := ∃ bid, Broadcast h w bid ∧ StrandedAt h w.dir bid

/-- The condition on one answer: no rename fails while a closing record is stranded, and no reply to
a withdraw is misread. -/
def Harmless : (o : FeeOp) → o.Ans → World → Prop
  | .fs (.rename _ _), .error _, w => ¬ Stranded h w
  | .post _ _ _, r, _ => misread h r = false
  | _, _, _ => True

/-- What an operation can be answered, and what it does: files can fail at every step, and the node
answers what it wants. -/
def FeeOp.plays : Does FeeOp FeeOp.Ans World
  | .fs o, r, w, w' => o.does True r w.dir w'.dir ∧ w'.issued = w.issued
  | .post bid path body, r, w, w' => w' = { w with issued := w.issued ++ [⟨bid, path, body, r⟩] }
  | .now, _, w, w' => w' = w
  | .apiContext, _, w, w' => w' = w
  | .api _ _, _, w, w' => w' = w

def FeeOp.does (strict : Prop) : Does FeeOp FeeOp.Ans World :=
  fun o r w w' => FeeOp.plays o r w w' ∧ (strict → Harmless h o r w)

/-- The world, and the mode and the baseline of the watcher that runs in it, if one does. -/
structure Cfg where
  world : World
  running : Option (Mode × Int)

/-- One start or one pass of the watcher, to its end or to a crash. A strict run crashes only where
no closing record is stranded. -/
inductive FeeStep (strict : Prop) : Cfg → List (Ev FeeOp.Ans) → Cfg → Prop
  | started {w w' : World} {m : Mode} {tr : List (Ev FeeOp.Ans)} {b : Int} :
      m ≠ .off → Exec (FeeOp.does h strict) (startup h) w tr (.ret b) w' →
      FeeStep strict ⟨w, none⟩ tr ⟨w', some (m, b)⟩
  | refused {w w' : World} {tr : List (Ev FeeOp.Ans)} {e : String} :
      Exec (FeeOp.does h strict) (startup h) w tr (.fail e) w' → FeeStep strict ⟨w, none⟩ tr ⟨w', none⟩
  | startCrashed {w w' : World} {tr : List (Ev FeeOp.Ans)} {q : FeeProg Int} :
      Exec (FeeOp.does h strict) (startup h) w tr q w' → (strict → ¬ Stranded h w') →
      FeeStep strict ⟨w, none⟩ tr ⟨w', none⟩
  | passed {w w' : World} {m : Mode} {b : Int} {tr : List (Ev FeeOp.Ans)} {q : FeeProg Pass}
      {r : Except String Pass} :
      Exec (FeeOp.does h strict) (tick h m b) w tr q w' → q.ended = some r →
      FeeStep strict ⟨w, some (m, b)⟩ tr ⟨w', some (m, b)⟩
  | crashed {w w' : World} {m : Mode} {b : Int} {tr : List (Ev FeeOp.Ans)} {q : FeeProg Pass} :
      Exec (FeeOp.does h strict) (tick h m b) w tr q w' → (strict → ¬ Stranded h w') →
      FeeStep strict ⟨w, some (m, b)⟩ tr ⟨w', none⟩

/-- The configurations that a run comes to. -/
inductive FeeRun (strict : Prop) (c : Cfg) : Cfg → Prop
  | refl : FeeRun strict c c
  | step {c' c'' : Cfg} {tr : List (Ev FeeOp.Ans)} :
      FeeRun strict c c' → FeeStep h strict c' tr c'' → FeeRun strict c c''

/-- Every file with the name of a record that holds one holds that bid's. -/
def Named (d : Dir String) : Prop :=
  ∀ name stem text rec, d name = some (.file text) → splitExtension name = some (stem, "json") →
    h.fromPretty text = .ok rec → name = recordName rec.bidId ∧ safeId rec.bidId = .ok rec.bidId

/-- Where a run begins: a directory in which only the ledger has kept records, before the first
withdraw. -/
def Cfg.Initial (c : Cfg) : Prop := c.running = none ∧ c.world.issued = [] ∧ Named h c.world.dir

/-- At most one withdraw of a bid may have been broadcast. -/
def AtMostOnce (w : World) : Prop :=
  ∀ bid, (w.issued.filter fun i => i.bid == bid && mayHaveBroadcast h i.reply).length ≤ 1

/-- The marker holds the baseline. -/
def StoredBaseline (d : Dir String) (b : Int) : Prop :=
  ∃ text t, d baselineFile = some (.file text) ∧ h.parseRfc3339 (trim text) = .ok t ∧ timestamp t = b

/-- The pass has read the bid's detail, and an object in it says that the bid is completed and when it
was created, which is not before the baseline; and this is what `decide` makes of that object. -/
def Priced (b : Int) (tr : List (Ev FeeOp.Ans)) (bid ticker : String) (amount : Nat) (address : String) :
    Prop :=
  ∃ detail src settled created notional, ⟨.api (bidPath bid) false, .ok detail⟩ ∈ tr ∧
    (src = detail ∨ detail.get "bid" = some src) ∧ parseBidFor src bid = some settled ∧
    settled.state = swapCompleted ∧ parseCreatedAt src = some created ∧ b ≤ created ∧
    decide settled = .charge ticker amount address notional

/-- What is so when a withdraw is issued, after the answers `tr` of the pass: it has read the bid's
record, open, and has priced the bid; the record is now the attempt marker for that price, and the
withdraw is of that amount. -/
def Owed (m : Mode) (b : Int) (tr : List (Ev FeeOp.Ans)) (d : Dir String) (bid path : String)
    (body : Json) : Prop :=
  m = .live ∧ ∃ text rec ticker amount address at_,
    ⟨.fs (.read (recordName bid)), .ok text⟩ ∈ tr ∧ h.fromPretty text = .ok rec ∧ rec.bidId = bid ∧
    rec.isOpen = true ∧ Priced b tr bid ticker amount address ∧
    record h d bid = some { rec with state := .attempting ticker amount at_ } ∧
    path = s!"wallets/{ticker}/withdraw" ∧
    sharedWithdrawBody h.parsedF64 address (formatAmount amount) = .ok body

end

end Fees
