import PwndaWallet.Desk.Store
import PwndaWallet.Lib.Fs

/-!
# The desk store

The encrypted files in which the swap records are kept (`DeskStore` in `desk/store.rs`), step by
step over a directory that may hold anything else. The cipher and the JSON of a record are given
with what is known of them.
-/

namespace DeskStore

open Desk Tasks Tasks.Fs

/-- An ideal AEAD, under the key of the store. -/
structure Aead where
  encrypt (nonce : List UInt8) (aad : String) (msg : List UInt8) : Except Unit (List UInt8)
  decrypt (nonce : List UInt8) (aad : String) (ct : List UInt8) : Option (List UInt8)
  tagged : ∀ {nonce aad msg ct}, encrypt nonce aad msg = .ok ct → 16 ≤ ct.length
  opens : ∀ {nonce aad msg ct}, encrypt nonce aad msg = .ok ct → decrypt nonce aad ct = some msg
  /-- what was sealed for one id opens for no other -/
  bound : ∀ {nonce aad aad' ct msg msg'}, decrypt nonce aad ct = some msg →
    decrypt nonce aad' ct = some msg' → aad = aad'

/-- A record as JSON: `serde_json::to_vec` and `serde_json::from_slice`. -/
structure Codec where
  toVec : StoredSwap → Except String (List UInt8)
  fromSlice : List UInt8 → Option StoredSwap
  fromSlice_toVec : ∀ {rec bytes}, toVec rec = .ok bytes → fromSlice bytes = some rec

inductive StoreOp where
  | fs (o : FsOp (List UInt8))
  | getrandom

abbrev StoreOp.Ans : StoreOp → Type
  | .fs o => o.Ans
  | .getrandom => Except String (List UInt8)

/-- Files that are there can be read. -/
def StoreOp.does : Does StoreOp StoreOp.Ans (Dir (List UInt8))
  | .fs o, r, d, d' => o.does False r d d'
  | .getrandom, .ok nonce, d, d' => nonce.length = 12 ∧ d' = d
  | .getrandom, .error _, d, d' => d' = d

abbrev StoreProg := Prog StoreOp StoreOp.Ans StoreError

def ioErr {α : Type} (r : Except FsError α) : Except StoreError α := r.mapError fun e => .io e.toString

/-! ## Names -/

def isIdByte (c : Char) : Bool := c.isAlphanum || c == '_' || c == '-'

def validId (id : String) : Bool := id != "" && decide (id.utf8ByteSize ≤ 128) && id.toList.all isIdByte

def validateId (id : String) : Except StoreError String :=
  if validId id then .ok id else .error .invalidId

def encPath (id : String) : String := id ++ ".enc"

def tmpPath (id : String) : String := id ++ ".enc.tmp"

/-- The id whose record a file name stands for. -/
def entryId (name : String) : Option String :=
  match splitExtension name with
  | some (stem, "enc") => if validId stem then some stem else none
  | _ => none

/-! ## Sealed records -/

section
variable (A : Aead) (C : Codec)

def encrypt (aadId : String) (plaintext : List UInt8) : StoreProg (List UInt8) := do
  let nonce ← .request .getrandom fun r => r.mapError .key
  let ct ← .ofExcept ((A.encrypt nonce aadId plaintext).mapError fun _ => .encrypt)
  return nonce ++ ct

def decrypt (aadId : String) (blob : List UInt8) : Except StoreError (List UInt8) :=
  if blob.length < 12 + 16 then .error (.corrupt aadId "blob too short")
  else
    match A.decrypt (blob.take 12) aadId (blob.drop 12) with
    | some plaintext => .ok plaintext
    | none => .error (.decrypt aadId)

def decode (id : String) (plaintext : List UInt8) : Except StoreError StoredSwap :=
  match C.fromSlice plaintext with
  | some rec => .ok rec
  | none => .error (.corrupt id "record is not valid JSON")

/-- The record that a file holds for `id`. -/
def openBlob (id : String) (blob : List UInt8) : Except StoreError StoredSwap :=
  match decrypt A id blob with
  | .ok plaintext => decode C id plaintext
  | .error e => .error e

/-! ## The operations -/

def save (rec : StoredSwap) : StoreProg Unit := do
  let id ← .ofExcept (validateId rec.swapId)
  let plaintext ← .ofExcept ((C.toVec rec).mapError .serde)
  let blob ← encrypt A id plaintext
  .request (.fs (.create (tmpPath id))) ioErr
  .request (.fs (.write (tmpPath id) blob)) ioErr
  .request (.fs (.sync (tmpPath id))) ioErr
  .request (.fs (.rename (tmpPath id) (encPath id))) ioErr

def load (swapId : String) : StoreProg StoredSwap := do
  let id ← .ofExcept (validateId swapId)
  let blob ← .request (.fs (.read (encPath id))) ioErr
  .ofExcept (openBlob A C id blob)

/-- One entry of the directory: a file that cannot be read or decoded is skipped. -/
def loadEntry (name : String) : StoreProg (Option StoredSwap) :=
  match entryId name with
  | none => .ret none
  | some id => .request (.fs (.read name)) fun
    | .error _ => .ok none
    | .ok blob => .ok (openBlob A C id blob).toOption

def loadEntries : List String → StoreProg (List StoredSwap)
  | [] => .ret []
  | name :: rest => do
    let out ← loadEntry A C name
    let more ← loadEntries rest
    return out.toList ++ more

def loadAll : StoreProg (List StoredSwap) := do
  let names ← .request (.fs .readDir) ioErr
  loadEntries A C names

def listIds : StoreProg (List String) := do
  let names ← .request (.fs .readDir) ioErr
  return names.filterMap entryId

def remove (swapId : String) : StoreProg Unit := do
  let id ← .ofExcept (validateId swapId)
  .request (.fs (.remove (encPath id))) fun
    | .ok () => .ok ()
    | .error .notFound => .ok ()
    | .error (.other e) => .error (.io e)

end

/-! ## Runs -/

inductive StoreCall where
  | save (rec : StoredSwap)
  | load (id : String)
  | loadAll
  | listIds
  | remove (id : String)

inductive StoreReply where
  | done
  | record (rec : StoredSwap)
  | records (recs : List StoredSwap)
  | ids (ids : List String)

def StoreCall.run (A : Aead) (C : Codec) : StoreCall → StoreProg StoreReply
  | .save rec => do DeskStore.save A C rec; return .done
  | .load id => return .record (← DeskStore.load A C id)
  | .loadAll => return .records (← DeskStore.loadAll A C)
  | .listIds => return .ids (← DeskStore.listIds)
  | .remove id => do DeskStore.remove id; return .done

/-- What happened to the directory. -/
inductive StoreEvent where
  | ended (call : StoreCall) (reply : Except StoreError StoreReply)
  /-- the process ended after these answers -/
  | crashed (call : StoreCall) (answers : List (Ev StoreOp.Ans))
  /-- something else made, changed or took away a file of that name -/
  | foreign (name : String)

/-- A blob that the store has not sealed for `id`: nobody can make one that opens, and one that was
sealed for another id is a copy. -/
def Foreign (A : Aead) (id : String) (blob : List UInt8) : Prop :=
  (∀ aad, A.decrypt (blob.take 12) aad (blob.drop 12) = none) ∨
    ∃ other, other ≠ id ∧ A.decrypt (blob.take 12) other (blob.drop 12) ≠ none

/-- Every file of `d` with the name of a record is foreign. -/
def ForeignDir (A : Aead) (d : Dir (List UInt8)) : Prop :=
  ∀ id blob, d (encPath id) = some (.file blob) → Foreign A id blob

/-- What the store and the others do, one call at a time, in a directory that holds no record at
first. -/
inductive StoreRun (A : Aead) (C : Codec) : List StoreEvent → Dir (List UInt8) → Prop
  | start {d : Dir (List UInt8)} : ForeignDir A d → StoreRun A C [] d
  | ended {h : List StoreEvent} {d d' : Dir (List UInt8)} {call : StoreCall}
      {tr : List (Ev StoreOp.Ans)} {q : StoreProg StoreReply} {r : Except StoreError StoreReply} :
      StoreRun A C h d → Exec StoreOp.does (call.run A C) d tr q d' → q.ended = some r →
      StoreRun A C (h ++ [.ended call r]) d'
  | crashed {h : List StoreEvent} {d d' : Dir (List UInt8)} {call : StoreCall}
      {tr : List (Ev StoreOp.Ans)} {q : StoreProg StoreReply} :
      StoreRun A C h d → Exec StoreOp.does (call.run A C) d tr q d' →
      StoreRun A C (h ++ [.crashed call tr]) d'
  | foreign {h : List StoreEvent} {d d' : Dir (List UInt8)} {name : String} :
      StoreRun A C h d → (∀ n, n ≠ name → d' n = d n) →
      (∀ id blob, name = encPath id → d' name = some (.file blob) → Foreign A id blob) →
      StoreRun A C (h ++ [.foreign name]) d'

end DeskStore
