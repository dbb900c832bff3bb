import PwndaWallet.Bridge.Privileged
import PwndaWallet.Lib.Machine

/-!
# Sweep tickets

A prepare mints a ticket and puts it in the one slot there is; an execute takes it out again and
posts the withdraw (`swap_bridge.rs`). Addresses, seeds and floating point numbers come from given
functions. Times are in nanoseconds.
-/

namespace Bridge

open Rust

/-- `SWEEP_TOKEN_TTL` -/
def sweepTokenTtl : Int := 120 * 1000000000

/-- `SWEEP_CONFIRM_LEN` -/
def sweepConfirmLen : Nat := 6

structure SweepTicket where
  token : String
  coin : String
  ticker : String
  destination : String
  amount : Option String
  sweepall : Bool
  expiresAt : Int

structure SweepPlan where
  token : String
  coin : String
  destination : String
  amount : Option String
  sweepall : Bool
  expiresAt : String

inductive UtxoChain where
  | btc
  | ltc
  | doge
  | dash
  | bch

/-- What the bridge has from its libraries and from the rest of the wallet. -/
structure Outside where
  mnemonicToSeed : String → Except String (List UInt8)
  /-- the address of account 0, index 0 -/
  utxoAddress : List UInt8 → UtxoChain → Except String String
  parseJson : String → Except String Json
  printJson : Json → String
  toRfc3339 : Int → String
  /-- whether a decimal number parses, and if so whether it is finite and positive -/
  parsedF64 : String → Option Bool

/-! ## The destination -/

def utxoChainFor (coin : String) : Option UtxoChain :=
  (coinKeyFrom coin).bind fun
    | "bitcoin" => some .btc
    | "litecoin" => some .ltc
    | "dogecoin" => some .doge
    | "dash" => some .dash
    | "bitcoincash" => some .bch
    | _ => none

def isUtxoFamily (coin : String) : Bool := (utxoChainFor coin).isSome

def pinnedDestination (o : Outside) (seed : List UInt8) (coin : String) : Except String String :=
  match coinKeyFrom coin with
  | none => .error (s!"{debugStr coin} is not a coin the swap node can hold — no destination can be " ++
      "derived for it, and guessing one would send the funds into another chain's address space")
  | some key =>
    match utxoChainFor key with
    | none => .error (s!"no vault-derived destination exists for {key} — " ++
        if key = "monero" then "Monero's sweep destination is read from the wallet's own " ++
          "monero-wallet-rpc, not derived here"
        else "the wallet holds no account for this coin")
    | some chain => (o.utxoAddress seed chain).mapError fun e =>
        s!"could not derive the wallet's own {tickerFor key} address: {e}"

def confirmPhraseFor (destination : String) : String :=
  let cs := destination.toList
  String.ofList (cs.drop (cs.length - sweepConfirmLen))

def ctEq (a b : String) : Bool :=
  let a := a.toUTF8.data.toList
  let b := b.toUTF8.data.toList
  if a.length ≠ b.length then false
  else (a.zip b).foldl (fun diff xy => diff ||| (xy.1 ^^^ xy.2)) 0 == 0

/-! ## The gates -/

def reservedBalanceGate : Option Nat → Except String Unit
  | none => .error ("the swap node's in-flight swaps could not be read, so a sweep is refused — " ++
      "draining the wallet while the engine needs it to fund a lock would abort that swap")
  | some 0 => .ok ()
  | some n => .error (s!"the swap node has {n} swap(s) in flight for this coin and needs this wallet " ++
      "to fund them — finish or abandon them before sweeping")

def balanceString (v : Json) : Except String String :=
  match v.get "balance" with
  | some (.str s) => .ok (trim s)
  | some (.int n) => .ok (toString n)
  | some (.float text) => .ok text
  | _ => .error "the swap node's wallet reply carried no balance"

/-- What `wallet_balance` makes of the reply to its read. -/
def walletBalance (o : Outside) (reply : PostReply) : Except String String := do
  let v ← match reply with
    | .unbuilt e => .error s!"http client build failed: {e}"
    | .unreachable e => .error s!"swap node request failed: {e}"
    | .lost e => .error s!"swap node request failed: {e}"
    | .cutOff _ e => .error s!"could not read the swap node's reply: {e}"
    | .answered status text => decodeJson o.parseJson status text
  match v.get "error" with
  | some e => .error s!"the swap node could not read that wallet: {o.printJson e}"
  | none => balanceString v

def isSweepableAmount (o : Outside) (amount : String) : Except String Unit :=
  match o.parsedF64 (trim amount) with
  | none => .error s!"the swap node reported an unreadable balance: {debugStr amount}"
  | some false => .error "that wallet's balance is zero — there is nothing to sweep"
  | some true => .ok ()

/-! ## Tickets -/

def hexDigit (n : UInt8) : Char := Char.ofNat (if n < 10 then 48 + n.toNat else 87 + n.toNat)

/-- `hex::encode` -/
def hexEncode (bytes : List UInt8) : String :=
  String.ofList (bytes.flatMap fun b => [hexDigit (b / 16), hexDigit (b % 16)])

def mintToken (entropy : Except String (List UInt8)) : Except String String :=
  match entropy with
  | .ok buf => .ok (hexEncode buf)
  | .error e => .error s!"OS entropy syscall failed while minting a sweep token: {e}"

def newTicket (token coin ticker destination : String) (amount : Option String) (sweepall : Bool)
    (mintedAt : Int) : SweepTicket :=
  ⟨token, coin, ticker, destination, amount, sweepall, mintedAt + sweepTokenTtl⟩

/-- The slot after it, and the renderer's view. -/
def stashTicket (o : Outside) (ticket : SweepTicket) : Option SweepTicket × SweepPlan :=
  (some ticket, ⟨ticket.token, ticket.coin, ticket.destination, ticket.amount, ticket.sweepall,
    o.toRfc3339 ticket.expiresAt⟩)

/-- The answer, and the slot after it. -/
def consumeTicket (slot : Option SweepTicket) (token confirmPhrase : String) (now : Int) :
    Except String SweepTicket × Option SweepTicket :=
  match slot with
  | none => (.error "no sweep is prepared — prepare one first", slot)
  | some ticket =>
    if !ctEq ticket.token token then (.error "that sweep token is not the prepared one", slot)
    else if ticket.expiresAt ≤ now then
      (.error s!"this sweep expired after {sweepTokenTtl / 1000000000} seconds — prepare a new one", none)
    else
      let want := confirmPhraseFor ticket.destination
      if want = "" ∨ trim confirmPhrase ≠ want then
        (.error (s!"the confirmation does not match — type the last {sweepConfirmLen} characters of the " ++
          "destination shown on the plan"), slot)
      else (.ok ticket, none)

def withdrawBody (ticket : SweepTicket) : Except String Json :=
  if ticket.sweepall then .ok (.obj [("address", .str ticket.destination), ("sweepall", .bool true)])
  else
    match ticket.amount with
    | none => .error "a bitcoin-family sweep needs an amount"
    | some value =>
      .ok (.obj [("address", .str ticket.destination), ("value", .str value), ("subfee", .bool true)])

/-! ## Prepare -/

/-- What a prepare is answered: the node's port, its swaps in flight for the coin, the mnemonic of
the session, the Monero wallet's address, the balance, the entropy and the time. -/
structure Answers where
  context : Except String Unit
  inFlight : Option Nat
  session : Option String
  xmrAddress : Except String String
  balance : PostReply
  entropy : Except String (List UInt8)
  now : Int

/-- Where a sweep of the coin goes. -/
def destinationFor (o : Outside) (key : String) (a : Answers) : Except String String :=
  if isUtxoFamily key then
    match a.session with
    | none => .error "the vault must be unlocked to prepare a sweep"
    | some mnemonic => do
      let seed ← o.mnemonicToSeed mnemonic
      pinnedDestination o seed key
  else if key = "monero" then
    a.xmrAddress.mapError fun e =>
      s!"the Monero wallet is not reachable, so the sweep destination cannot be established: {e}"
  else .error s!"no sweep destination exists for {key} — the wallet holds no account for it"

/-- `swap_bridge_prepare_sweep`, up to the ticket. -/
def prepareSweep (o : Outside) (coin : String) (a : Answers) : Except String SweepTicket :=
  match coinKeyFrom coin with
  | none => .error (s!"{debugStr coin} is not a coin the swap node can run — expected one of: " ++
      ", ".intercalate walletSidecarCoins)
  | some key => do
    a.context
    reservedBalanceGate a.inFlight
    let destination ← destinationFor o key a
    let balance ← walletBalance o a.balance
    isSweepableAmount o balance
    let sweepall := !isUtxoFamily key
    let token ← mintToken a.entropy
    return newTicket token key (tickerFor key) destination (if sweepall then none else some balance) sweepall
      a.now

/-! ## The bridge -/

/-- A prepare that has minted its ticket. -/
structure Prepare where
  coin : String
  answers : Answers
  ticket : SweepTicket
  stashed : Bool

inductive Stage where
  /-- the slot was not looked at yet -/
  | waiting
  /-- it has taken a ticket -/
  | spending
  | refused (e : String)
  /-- it has posted its request, and this is what it returned -/
  | answered (r : Except String String)

structure Execute where
  token : String
  confirmPhrase : String
  /-- the time when it was called -/
  now : Int
  stage : Stage
  /-- the ticket it took, and the prepare that minted it -/
  taken : Option (Nat × SweepTicket)

/-- A withdraw request, of an execute, for the ticket of a prepare. -/
structure Request where
  execute : Nat
  prepare : Nat
  path : String
  body : Json

structure Desk where
  slot : Option SweepTicket
  /-- the prepare that filled the slot last -/
  last : Nat
  prepares : List Prepare
  executes : List Execute
  requests : List Request

inductive Move where
  /-- a prepare runs up to its ticket -/
  | prepare (coin : String) (a : Answers)
  /-- it puts the ticket in the slot -/
  | stash (i : Nat)
  /-- an execute begins, if the node is up -/
  | execute (context : Except String Unit) (token confirmPhrase : String) (now : Int)
  | consume (j : Nat)
  /-- it posts its request, and is answered -/
  | post (j : Nat) (reply : PostReply)

namespace Desk

def init : Desk := ⟨none, 0, [], [], []⟩

/-- The request that a ticket comes to. -/
def requestOf (ticket : SweepTicket) : Except String (String × Json) := do
  let body ← withdrawBody ticket
  let path ← privilegedWalletPath ticket.ticker "withdraw"
  assertPrivilegedPath path
  return (path, body)

def consume (d : Desk) (j : Nat) (x : Execute) : Desk :=
  match consumeTicket d.slot x.token x.confirmPhrase x.now with
  | (.ok ticket, slot) =>
    { d with slot, executes := d.executes.set j { x with stage := .spending, taken := some (d.last, ticket) } }
  | (.error e, slot) => { d with slot, executes := d.executes.set j { x with stage := .refused e } }

def post (o : Outside) (d : Desk) (j : Nat) (x : Execute) (reply : PostReply) : Option Desk :=
  match x.taken with
  | none => none
  | some (i, ticket) =>
    match requestOf ticket with
    | .error e => some { d with executes := d.executes.set j { x with stage := .refused e } }
    | .ok (path, body) =>
      let r := (reply.result o.parseJson).bind (extractTxid o.printJson)
      some { d with
        executes := d.executes.set j { x with stage := .answered r }
        requests := d.requests ++ [⟨j, i, path, body⟩] }

def step (o : Outside) (d : Desk) : Move → Option Desk
  | .prepare coin a =>
    match prepareSweep o coin a with
    | .ok ticket => some { d with prepares := d.prepares ++ [⟨coin, a, ticket, false⟩] }
    | .error _ => some d
  | .stash i => do
    let p ← d.prepares[i]?
    if p.stashed then none
    else some { d with
      slot := (stashTicket o p.ticket).1
      last := i
      prepares := d.prepares.set i { p with stashed := true } }
  | .execute context token confirmPhrase now =>
    let stage := match context with
      | .ok _ => Stage.waiting
      | .error e => Stage.refused e
    some { d with executes := d.executes ++ [⟨token, confirmPhrase, now, stage, none⟩] }
  | .consume j => do
    let x ← d.executes[j]?
    match x.stage with
    | .waiting => some (d.consume j x)
    | _ => none
  | .post j reply => do
    let x ← d.executes[j]?
    match x.stage with
    | .spending => post o d j x reply
    | _ => none

end Desk

def sweeps (o : Outside) : Tasks.Machine Desk Move := ⟨Desk.step o⟩

end Bridge
