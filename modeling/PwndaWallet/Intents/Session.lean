import PwndaWallet.Intents.Execute
import PwndaWallet.Lib.Books

/-!
# The trades of a session

Any number of trades, submissions of the confirm modal and retirements over one record of deposits,
interleaved at their awaits. What the outside answers is free. Each has a book of what became of its
claim.
-/

namespace Intents

open Tasks

/-! ## Books -/

structure Book where
  /-- the deposit that its claim went through for -/
  claimed : Option DepositRef
  /-- what it recorded of a deposit that was sent, or may have been -/
  recorded : Option Patch
  /-- the callback that shows the trade as pending threw -/
  threw : Bool
  settled : Option (Except TradeError IntentsTrade)

def Book.blank : Book := { claimed := none, recorded := none, threw := false, settled := none }

/-- The deposit was sent, or may have been. -/
def AttemptState.isSent : AttemptState → Bool
  | .broadcast => true
  | .unknown => true
  | _ => false

def Book.note (b : Book) : (o : TradeOp) → o.Ans → Book
  | .claim deposit, .ok _ => { b with claimed := some deposit }
  | .record _ patch, _ => if patch.state.isSent then { b with recorded := some patch } else b
  | .phase .pending, .error _ => { b with threw := true }
  | .settled result, _ => { b with settled := some result }
  | _, _ => b

/-! ## The system -/

structure TradeWorld where
  attempts : Attempts
  books : Nat → Book

/-- What the outside says to each operation. -/
abbrev Outside := (o : TradeOp) → o.Ans

def TradeWorld.answer (w : TradeWorld) (out : Outside) : (o : TradeOp) → o.Ans
  | .attempt deposit => intentsDepositAttempt w.attempts deposit
  | .claim deposit => (claimIntentsDeposit w.attempts deposit (out .now)).map fun _ => ()
  | o => out o

def TradeWorld.effect (w : TradeWorld) (out : Outside) : TradeOp → Attempts
  | .claim deposit =>
    match claimIntentsDeposit w.attempts deposit (out .now) with
    | .ok attempts => attempts
    | .error _ => w.attempts
  | .record deposit patch => recordIntentsDeposit w.attempts deposit patch (out .now)
  | _ => w.attempts

inductive TradeEntry where
  | trade (input : ExecuteIntentsInput)
  | submit (submission : Submission)
  /-- a retirement of its own -/
  | retire (deposit : DepositRef)

def TradeEntry.body (env : Env) : TradeEntry → Prog TradeOp TradeOp.Ans Unit Unit
  | .trade input => (callTrade env input).detach
  | .submit submission => (submitPassword env submission).detach
  | .retire deposit => .ask (TradeOp.record deposit { state := .retired, txHash := none })

def tradeSys (env : Env) : Sys TradeOp TradeOp.Ans TradeWorld Outside TradeEntry where
  respond i o out w :=
    let r := w.answer out o
    (r, { attempts := w.effect out o, books := Function.update w.books i ((w.books i).note o r) })
  body e := e.body env
  spawned _ := none
  restart w := w

abbrev TradeCfg := Cfg TradeOp TradeOp.Ans TradeWorld TradeEntry

/-- The start of a session: the record is in memory, and empty. -/
def session : TradeCfg := ⟨{ attempts := fun _ => none, books := fun _ => .blank }, []⟩

/-- One session: it does not crash. -/
def InSession (_ : TradeCfg) : Move Outside TradeEntry → Prop
  | .crash => False
  | _ => True

/-- A step of the deposit itself: it builds, signs or broadcasts. -/
def TradeOp.deposits : TradeOp → Bool
  | .attempt _ | .claim _ | .record .. | .phase _ | .onBroadcast _ | .notify .. | .settled _ | .now => false
  | .checkXrpPayout | .unlockSwap _ | .writeIntentsRow .. => false
  | _ => true

end Intents
