import PwndaWallet.Lib.Books
import PwndaWallet.Lib.Json

/-!
# The swap session

The one session slot of the Rust core (`swap/state.rs`), the commands that open, use and lock it
(`swap/commands.rs`), and the two calls of `closeSendSession` (`session-send.ts`): tasks over one world, which
keeps a log of what was answered.
-/

namespace SwapSession

open Rust Tasks

/-! ## The slot -/

def SESSION_TTL_SECS : Nat := 300

/-- `Duration::from_secs`, in nanoseconds -/
def fromSecs (secs : Nat) : Nat := secs * 1000000000

structure UnlockedSession where
  mnemonic : String
  sessionId : String
  expiresAt : Nat
deriving DecidableEq

/-- The answer of `with_session`, and what it leaves in the slot. -/
def withSession {R : Type} (slot : Option UnlockedSession) (now : Nat) (sessionId : String) (f : String → R) :
    Option R × Option UnlockedSession :=
  match slot with
  | none => (none, none)
  | some s =>
    if s.sessionId != sessionId then (none, some s)
    -- locked again
    else if s.expiresAt < now then (none, none)
    else (some (f s.mnemonic), some s)

/-! ## The vault -/

structure EncryptedVault where
  salt : String
  iv : String
  ciphertext : String
deriving DecidableEq

def EncryptedVault.fromValue : Json → Option EncryptedVault
  | .arr [.str salt, .str iv, .str ciphertext] => some { salt, iv, ciphertext }
  | .obj fields => do
    let salt ← (fields.lookup "salt").bind Json.asStr
    let iv ← (fields.lookup "iv").bind Json.asStr
    let ciphertext ← (fields.lookup "ciphertext").bind Json.asStr
    some { salt, iv, ciphertext }
  | _ => none

def vaultsMatch (onDisk supplied : EncryptedVault) : Bool :=
  onDisk.salt == supplied.salt && onDisk.iv == supplied.iv && onDisk.ciphertext == supplied.ciphertext

/-- What other code computes. -/
structure Env where
  /-- `keystore::decrypt_vault` -/
  decryptVault : EncryptedVault → String → Except String String
  /-- what `serde_json` says of a value that is no vault -/
  notAVault : Json → String
  /-- the Sui address of the mnemonic's seed -/
  suiAddress : String → Except String String

/-! ## The commands -/

inductive SessionOp where
  /-- the vault's value in the store -/
  | storeGet
  | storeSet (value : Option Json)
  /-- `new_session_id()` and `Instant::now()` -/
  | newSession
  /-- the slot is filled -/
  | put (s : UnlockedSession)
  | withSession (sessionId : String) (f : String → Except String String)
  | lock

def SessionOp.Ans : SessionOp → Type
  | .storeGet => Except String (Option Json)
  | .storeSet _ => Unit
  | .newSession => String × Nat
  | .put _ => Unit
  | .withSession _ _ => Option (Except String String)
  | .lock => Except String Unit

abbrev SessionProg (α : Type) := Prog SessionOp SessionOp.Ans String α

variable (env : Env)

def assertVaultMatchesDisk (supplied : EncryptedVault) : SessionProg Unit :=
  .call .storeGet fun
    | .error e => .fail s!"the wallet store could not be opened: {e}"
    | .ok none => .fail "this installation has no wallet vault, so no swap session can be opened"
    | .ok (some raw) =>
      match EncryptedVault.fromValue raw with
      | none => .fail s!"the stored wallet vault could not be read: {env.notAVault raw}"
      | some onDisk =>
        if vaultsMatch onDisk supplied then .ret ()
        else .fail "the supplied vault is not this installation's wallet — refusing to open a swap session"

def unlock (mnemonic : String) : SessionProg String :=
  .call .newSession fun (sessionId, now) =>
    .call (.put { mnemonic, sessionId, expiresAt := now + fromSecs SESSION_TTL_SECS }) fun _ => .ret sessionId

def swapUnlock (encrypted : EncryptedVault) (password : String) : SessionProg String := do
  assertVaultMatchesDisk env encrypted
  let mnemonic ← .ofExcept (env.decryptVault encrypted password)
  unlock mnemonic

def swapLock : SessionProg Unit := .request .lock id

/-- The commands that derive or sign: `f` is run with the session's mnemonic. -/
def gated (sessionId : String) (f : String → Except String String) : SessionProg String :=
  .request (.withSession sessionId f) fun
    | some r => r
    | none => .error "session expired or invalid"

def swapGetSuiAddress (sessionId : String) : SessionProg String := gated sessionId env.suiAddress

def closeSendSession (sessionId : String) : SessionProg Unit := do
  match ← (swapGetSuiAddress env sessionId).attempt with
  -- expired, or no longer ours to close
  | .error _ => return
  | .ok _ => swapLock

/-! ## The system -/

inductive SessionCall where
  /-- `swap_unlock`, which is also what `openSendSession` calls -/
  | unlock (encrypted : EncryptedVault) (password : String)
  | lock
  | sign (sessionId : String) (f : String → Except String String)
  | close (sessionId : String)
  /-- another part of the app writes the vault -/
  | storeSet (value : Option Json)

def SessionCall.body : SessionCall → Prog SessionOp SessionOp.Ans Unit Unit
  | .unlock encrypted password => (swapUnlock env encrypted password).detach
  | .lock => swapLock.detach
  | .sign sessionId f => (gated sessionId f).detach
  | .close sessionId => (closeSendSession env sessionId).detach
  | .storeSet value => (Prog.call (.storeSet value) .ret : SessionProg Unit).detach

/-- An answered call, with what the world was like. -/
structure Logged where
  task : Nat
  now : Nat
  stored : Option Json
  /-- the slot before and after -/
  session : Option UnlockedSession
  left : Option UnlockedSession
  ev : Ev SessionOp.Ans

structure SessionWorld where
  stored : Option Json
  now : Nat
  session : Option UnlockedSession
  log : List Logged

/-- How long an answer takes, whether the call comes to nothing (the store cannot be opened, the slot's mutex is
poisoned, there is no Tauri), and the random id. -/
structure Outcome where
  elapsed : Nat
  fails : Option String
  id : String

/-- The answer, and the vault and the slot after it. -/
def SessionWorld.answer (w : SessionWorld) (out : Outcome) : (o : SessionOp) →
    o.Ans × Option Json × Option UnlockedSession
  | .storeGet =>
    match out.fails with
    | some e => (.error e, w.stored, w.session)
    | none => (.ok w.stored, w.stored, w.session)
  | .storeSet value => ((), value, w.session)
  | .newSession => ((out.id, w.now), w.stored, w.session)
  | .put s => ((), w.stored, if out.fails.isSome then w.session else some s)
  | .withSession sessionId f =>
    if out.fails.isSome then (none, w.stored, w.session)
    else
      let (r, left) := withSession w.session w.now sessionId f
      (r, w.stored, left)
  | .lock =>
    match out.fails with
    | some e => (.error e, w.stored, w.session)
    | none => (.ok (), w.stored, none)

def swapSys : Sys SessionOp SessionOp.Ans SessionWorld Outcome SessionCall where
  respond i o out w₀ :=
    let w : SessionWorld := { w₀ with now := w₀.now + out.elapsed }
    let (r, stored, left) := w.answer out o
    let entry : Logged := { task := i, now := w.now, stored := w.stored, session := w.session, left, ev := ⟨o, r⟩ }
    (r, { w with stored, session := left, log := w.log ++ [entry] })
  body := SessionCall.body env
  spawned _ := none
  -- the slot is gone with the process
  restart w := { w with session := none }

abbrev SessionCfg := Cfg SessionOp SessionOp.Ans SessionWorld SessionCall

/-- The app over a stored vault. -/
def launched (stored : Option Json) (now : Nat) : SessionCfg := ⟨{ stored, now, session := none, log := [] }, []⟩

/-! ## What the log says -/

/-- Task `j` found the vault in the store that it was given, decrypted it with the password and filled the slot
with the session. -/
def UnlockedBy (call : SessionCall) (j : Nat) (log : List Logged) (s : UnlockedSession) : Prop :=
  ∃ encrypted password raw now checked since opened,
    call = .unlock encrypted password ∧ env.decryptVault encrypted password = .ok s.mnemonic ∧
    EncryptedVault.fromValue raw = some encrypted ∧ s.expiresAt = now + fromSecs SESSION_TTL_SECS ∧
    [checked, since, opened].Sublist log ∧ (∀ e ∈ [checked, since, opened], e.task = j) ∧
    checked.stored = some raw ∧ checked.ev = ⟨.storeGet, .ok (some raw)⟩ ∧
    since.now = now ∧ since.ev = ⟨.newSession, (s.sessionId, now)⟩ ∧ opened.ev = ⟨.put s, ()⟩

/-- The log has the answer after the answers `pre`. -/
def After (log pre : List Logged) (e : Logged) : Prop := ∃ post, log = pre ++ e :: post

/-- Every signature is one of an unlock's mnemonic, made in the slot that the unlock filled, under the unlock's id
and in its time. -/
def SignsOwn (c : SessionCfg) : Prop :=
  ∀ pre e sessionId f signature, After c.world.log pre e → e.ev = ⟨.withSession sessionId f, some (.ok signature)⟩ →
    ∃ s j call, e.session = some s ∧ s.sessionId = sessionId ∧ e.now ≤ s.expiresAt ∧ f s.mnemonic = .ok signature ∧
      c.entryAt j = some call ∧ UnlockedBy env call j pre s

/-- A `closeSendSession` ends no session but its own. -/
def ClosesOwn (c : SessionCfg) : Prop :=
  ∀ pre e sessionId s, After c.world.log pre e → c.entryAt e.task = some (.close sessionId) → e.session = some s → e.left ≠ some s →
    s.sessionId = sessionId

/-- Where a `closeSendSession` locks, no session of another id was opened since its read. -/
def Orderly (c : SessionCfg) : Prop :=
  ∀ pre e sessionId s read opened, After c.world.log pre e → c.entryAt e.task = some (.close sessionId) → e.ev.op = .lock →
    read.task = e.task → [read, opened].Sublist pre → opened.ev = ⟨.put s, ()⟩ → s.sessionId = sessionId

end SwapSession
