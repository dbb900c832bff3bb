import PwndaWallet.Lib.Js

/-!
# What a session remembers of a Hedera account's history

The mirror node lists an account's transactions newest first, in pages that each name the next one by the
consensus time below which it goes on. The wallet walks these pages up to a budget, remembers what it read for
the session, and reads only what is newer the next time.

A time is its nanoseconds, which the mirror writes as seconds and nine digits. The mirror's answer depends on the
number of the request, so it may grow and fail between any two of them.
-/

namespace Hedera

/-- A transaction as the mirror lists it. -/
structure Row where
  consensusTimestamp : Nat
  transactionId : String
  nonce : Option Nat
deriving DecidableEq

/-- `/api/v1/transactions?account.id=…&order=desc&limit=…` with `timestamp=gt:` and `timestamp=lt:`. -/
structure Query where
  limit : Nat
  gt : Option Int
  lt : Option Nat
deriving DecidableEq

/-- An answer: its rows, its `links.next` where that is a link of the mirror's own list, and its `Date` in
milliseconds. -/
structure Page where
  transactions : List Row
  next : Option Query
  date : Option Int

/-- What the request of that number is answered. -/
abbrev Mirror := Nat → Query → Except String Page

def HEDERA_HISTORY_MAX_PAGES : Nat := 5

def HEDERA_MEMO_MARGIN_S : Int := 3600

def HEDERA_MEMO_MAX_ROWS : Nat := 100

structure HederaHistoryMemo where
  raw : List Row
  top : Int
  olderThan : Option Nat
  budgetSpent : Bool

def linkOlderThan (link : Option Query) : Option Nat := link.bind (·.lt)

/-! ## Merging -/

/-- The parts that a row's key joins. -/
def rowKey (t : Row) : Nat × String × Nat := (t.consensusTimestamp, t.transactionId, t.nonce.getD 0)

/-- The rows whose key was not seen before. -/
def firsts (seen : List (Nat × String × Nat)) : List Row → List Row
  | [] => []
  | t :: rest => if rowKey t ∈ seen then firsts seen rest else t :: firsts (rowKey t :: seen) rest

/-- A row's time, as a key to sort by. -/
def Row.time (t : Row) : Int := t.consensusTimestamp

def mergeMirrorRows (newer older : List Row) : List Row :=
  Js.sort (fun a b => b.time ≤ a.time) (firsts [] (newer ++ older))

/-! ## Walking the pages -/

structure MirrorWalk where
  raw : List Row
  next : Option Query
  pages : Nat
  budgetSpent : Bool
  servedAt : Option Int
deriving DecidableEq

def nsOfMs (ms : Int) : Int := ms * 1000000

/-- The loop of `walkMirror`: the pages still allowed, the number of the request, its path, and what was read. -/
def walkFrom (mirror : Mirror) (want : Nat) : Nat → Nat → Query → MirrorWalk → Except String MirrorWalk
  | 0, _, _, w => .ok { w with budgetSpent := w.raw.length < want }
  | fuel + 1, k, p, w =>
    match mirror k p with
    | .error e => if w.raw = [] then .error e else .ok { w with next := some p, pages := w.pages + 1 }
    | .ok data =>
      let w' : MirrorWalk :=
        { w with
          raw := w.raw ++ data.transactions, next := data.next, pages := w.pages + 1,
          servedAt := if w.pages = 0 then data.date.map nsOfMs else w.servedAt }
      match data.next with
      | none => .ok w'
      | some q => if want ≤ w'.raw.length then .ok w' else walkFrom mirror want fuel (k + 1) q w'

/-- The walk's requests are numbered from `k` on. -/
def walkMirror (mirror : Mirror) (k : Nat) (path : Query) (want maxPages : Nat) : Except String MirrorWalk :=
  walkFrom mirror want maxPages k path ⟨[], none, 0, false, none⟩

/-! ## The memory -/

/-- The time before which the mirror had everything. -/
def settledBefore (servedAt : Int) : Int := servedAt - HEDERA_MEMO_MARGIN_S * 1000000000

def topAfter (top : Int) (previousTop : Option Int) : Int :=
  match previousTop with
  | some previous => if top < previous then previous else top
  | none => top

/-- What is remembered of the account after a read; an answer without a `Date` forgets it. -/
def rememberHederaRead (raw : List Row) (servedAt : Option Int) (olderThan : Option Nat) (budgetSpent : Bool)
    (previousTop : Option Int) : Option HederaHistoryMemo :=
  match servedAt with
  | none => none
  | some served =>
    let top := topAfter (settledBefore served) previousTop
    if HEDERA_MEMO_MAX_ROWS < raw.length then
      let rows := raw.take HEDERA_MEMO_MAX_ROWS
      some ⟨rows, top, rows.getLast?.map (·.consensusTimestamp), false⟩
    else some ⟨raw, top, olderThan, budgetSpent⟩

/-- What a read gives: rows, and the link where it stopped. -/
structure Read where
  raw : List Row
  next : Option Query
deriving DecidableEq

/-- No memory: the pages from the newest on. -/
def readNewest (mirror : Mirror) (k limit : Nat) : Except String Read × Option HederaHistoryMemo :=
  match walkMirror mirror k ⟨limit, none, none⟩ limit HEDERA_HISTORY_MAX_PAGES with
  | .error e => (.error e, none)
  | .ok w => (.ok ⟨w.raw, w.next⟩, rememberHederaRead w.raw w.servedAt (linkOlderThan w.next) w.budgetSpent none)

/-- Only what is newer than the remembered read and its margin. -/
def readSpan (mirror : Mirror) (k : Nat) (memo : HederaHistoryMemo) (limit : Nat) : Except String MirrorWalk :=
  walkMirror mirror k ⟨limit, some memo.top, none⟩ limit HEDERA_HISTORY_MAX_PAGES

def known (memo : HederaHistoryMemo) (span : MirrorWalk) : List Row := mergeMirrorRows span.raw memo.raw

/-- What is known, with the link below what is remembered. -/
def stopThere (memo : HederaHistoryMemo) (limit : Nat) (span : MirrorWalk) (budgetSpent : Bool) :
    Except String Read × Option HederaHistoryMemo :=
  (.ok ⟨known memo span, memo.olderThan.map fun lt => ⟨limit, none, some lt⟩⟩,
    rememberHederaRead (known memo span) span.servedAt memo.olderThan budgetSpent (some memo.top))

/-- The remembered read stopped for having enough for a smaller page: on below it, with what is left of this
read's budget. -/
def readBelow (mirror : Mirror) (k : Nat) (memo : HederaHistoryMemo) (limit : Nat) (span : MirrorWalk) (lt : Nat) :
    Except String MirrorWalk :=
  let budget := HEDERA_HISTORY_MAX_PAGES - span.pages
  if budget = 0 then .error "no window budget left"
  else walkMirror mirror (k + span.pages) ⟨limit, none, some lt⟩ (limit - (known memo span).length) budget

/-- There is enough already, or the remembered read was not to go further. -/
def enough (memo : HederaHistoryMemo) (limit : Nat) (span : MirrorWalk) : Bool :=
  limit ≤ (known memo span).length || memo.budgetSpent

def joinRemembered (mirror : Mirror) (k : Nat) (memo : HederaHistoryMemo) (limit : Nat) (span : MirrorWalk) :
    Except String Read × Option HederaHistoryMemo :=
  match memo.olderThan with
  | none => stopThere memo limit span memo.budgetSpent
  | some lt =>
    if enough memo limit span then stopThere memo limit span memo.budgetSpent
    else
      match readBelow mirror k memo limit span lt with
      | .error e => if known memo span = [] then (.error e, some memo) else stopThere memo limit span false
      | .ok older =>
        let all := mergeMirrorRows (known memo span) older.raw
        (.ok ⟨all, older.next⟩,
          rememberHederaRead all span.servedAt (linkOlderThan older.next) older.budgetSpent (some memo.top))

/-- A read whose first request is number `k`, from the memory that it finds, with the memory that it leaves. -/
def readRecentHedera (mirror : Mirror) (k : Nat) (memo : Option HederaHistoryMemo) (limit : Nat) :
    Except String Read × Option HederaHistoryMemo :=
  match memo with
  | none => readNewest mirror k limit
  | some memo =>
    match readSpan mirror k memo limit with
    | .error e => (.error e, some memo)
    | .ok span =>
      -- More new rows than one read holds, or a page of them failed: below them may lie rows not read.
      if span.next ≠ none then
        (.ok ⟨span.raw, span.next⟩,
          rememberHederaRead span.raw span.servedAt (linkOlderThan span.next) span.budgetSpent none)
      else joinRemembered mirror k memo limit span

/-! ## Pages of the history -/

structure TxHistoryPage where
  items : List Row
  cursor : Option Nat
deriving DecidableEq

/-- The rows that are shown and the cursor of the next page. -/
def cutAt (limit : Nat) (read : Read) : TxHistoryPage :=
  let kept := read.raw.take limit
  ⟨kept, if kept.length < read.raw.length then kept.getLast?.map (·.consensusTimestamp) else linkOlderThan read.next⟩

/-- The page of an account's history, with the memory after it. -/
def getTransactionHistory (mirror : Mirror) (k : Nat) (memo : Option HederaHistoryMemo) (limit : Option Nat)
    (cursor : Option Nat) : Except String TxHistoryPage × Option HederaHistoryMemo :=
  let limit := limit.getD 25
  match cursor with
  | some lt =>
    let read := (walkMirror mirror k ⟨limit, none, some lt⟩ limit HEDERA_HISTORY_MAX_PAGES).map
      fun w => cutAt limit ⟨w.raw, w.next⟩
    (read, memo)
  | none =>
    let (read, memo') := readRecentHedera mirror k memo limit
    (read.map (cutAt limit), memo')

end Hedera
