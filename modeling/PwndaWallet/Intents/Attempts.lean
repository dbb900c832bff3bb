import Mathlib.Logic.Function.Basic
import PwndaWallet.Lib.Js

/-!
# One quote, one deposit

`intents-attempts.ts`: the deposits that a session has claimed, sent or retired. A deposit is told by
the quote's address, and by its memo where it has one.
-/

namespace Intents

open Js

structure DepositRef where
  depositAddress : String
  depositMemo : Option String
deriving DecidableEq

inductive AttemptState where
  | claimed
  | broadcast
  | unknown
  | retired
deriving DecidableEq

structure Attempt where
  depositAddress : String
  depositMemo : Option String
  /-- when it was claimed or retired -/
  atMs : Int
  txHash : Option String
  state : AttemptState
deriving DecidableEq

structure Patch where
  state : AttemptState
  txHash : Option String
deriving DecidableEq

def isHexDigit (c : Char) : Bool := c.isDigit || ('a' ≤ c && c ≤ 'f') || ('A' ≤ c && c ≤ 'F')

/-- `/^0x[0-9a-fA-F]+$/` -/
def isHexAddress : List Char → Bool
  | '0' :: 'x' :: digits => digits != [] && digits.all isHexDigit
  | _ => false

/-- An address without blanks around it, and in lower case where its casing is display only. -/
def normalAddress (depositAddress : String) : String :=
  let a := trim depositAddress.toList
  if isHexAddress a then String.ofList (a.map Char.toLower) else String.ofList a

/-- A memo that is present: not `undefined`, `null` or `""`. -/
def memoOf (depositMemo : Option String) : Option String := truthy depositMemo

def intentsDepositKey (deposit : DepositRef) : String :=
  match memoOf deposit.depositMemo with
  | none => normalAddress deposit.depositAddress
  | some memo => normalAddress deposit.depositAddress ++ "\x00memo\x00" ++ memo

/-- What a quote's deposit is told by. -/
def DepositRef.pair (deposit : DepositRef) : String × Option String :=
  (normalAddress deposit.depositAddress, memoOf deposit.depositMemo)

abbrev Attempts := String → Option Attempt

/-- The recorded attempt for this deposit, if any. -/
def intentsDepositAttempt (attempts : Attempts) (deposit : DepositRef) : Option Attempt :=
  if deposit.depositAddress = "" then none else attempts (intentsDepositKey deposit)

def claimIntentsDeposit (attempts : Attempts) (deposit : DepositRef) (now : Int) : Except Attempt Attempts :=
  match attempts (intentsDepositKey deposit) with
  | some prior => .error prior
  | none => .ok (Function.update attempts (intentsDepositKey deposit) (some {
      depositAddress := deposit.depositAddress
      depositMemo := memoOf deposit.depositMemo
      atMs := now
      txHash := none
      state := .claimed }))

/-- What a patch makes of the attempt that was there. -/
def Attempt.patched (prior : Option Attempt) (deposit : DepositRef) (patch : Patch) (now : Int) : Attempt where
  depositAddress := (prior.map (·.depositAddress)).getD deposit.depositAddress
  depositMemo := prior.bind (·.depositMemo) <|> memoOf deposit.depositMemo
  atMs := (prior.map (·.atMs)).getD now
  txHash := patch.txHash <|> prior.bind (·.txHash)
  state :=
    match patch.state, prior with
    -- a quote that broadcast, or may have, is never labelled as retired again
    | .retired, some p => if p.state ≠ .claimed ∧ p.state ≠ .retired then p.state else .retired
    | state, _ => state

def recordIntentsDeposit (attempts : Attempts) (deposit : DepositRef) (patch : Patch) (now : Int) : Attempts :=
  Function.update attempts (intentsDepositKey deposit)
    (some (.patched (attempts (intentsDepositKey deposit)) deposit patch now))

end Intents
