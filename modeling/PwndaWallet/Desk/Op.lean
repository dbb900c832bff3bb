import PwndaWallet.Lib.Prog
import PwndaWallet.Desk.Crypto
import PwndaWallet.Desk.Store

/-!
# The operations of the desk tasks

Everything a task awaits or shares: requests to the desk (`desk/client.rs`), calls of the engine
(`desk/crypto.rs`), the store, the watcher registry, the stop flags, the observer's cells, the clock.
A call that can move value answers with the engine's own reply, the `txid` field `none` where it is
absent; `txidCall`, `refund` and `reclaim` are the code that judges it.
-/

namespace Desk

open Tasks

/-- An `Arc<AtomicBool>`. -/
abbrev FlagRef := Nat

inductive ClientCall where
  | accept (req : AcceptRequest)
  | keys (id : String) (req : KeysRequest)
  | refundSigs (id : String) (req : RefundSigsRequest)
  | lock (id : String) (req : LockRequest)
  | readyAck (id : String) (req : ReadyAckRequest)
  | status (id : String)
  | effectiveConfig

inductive CryptoCall where
  | generateSwapKeys (ctx : SwapInitContext)
  | ingestCounterparty (id : String) (cp : CounterpartyKeys)
  | setLockUtxo (id txid : String) (index : Int) (amount : String)
  | exchangeRefundSigs (id : String) (counterparty : Option AdaptorPresig)
      (counterpartyLegSigs : Option LegSigs)
  | claimDest (id : String)
  | refundDest (id : String)
  | prepareLock (id : String)
  | submitLock (id : String)
  | lock (id : String)
  | claim (id : String)
  | swipe (id : String)
  | refund (id : String)
  | reclaim (id : String) (restoreHeight : Option Int)
  | extractSecret (id witnessTxid : String)
  | watchLock (id : String) (chain : Chain)
  | watchScriptSpend (id : String)
  | setLockBTxid (id txid : String)
  | ingestClaimPresig (id : String) (presig : AdaptorPresig)
  | releaseClaimSig (id : String) (chainBConfirmed : Bool)

inductive StoreCall where
  | dataDir
  | openStore (dir : String)
  | save (rec : StoredSwap)
  | load (id : String)
  | loadAll
  | remove (id : String)

inductive WatchersCall where
  | register (id : String)
  | raise (id : String)
  | clear (id : String)

inductive FlagCall where
  | new (b : Bool)
  | load (f : FlagRef)
  | store (f : FlagRef) (b : Bool)
  | swap (f : FlagRef) (b : Bool)

/-- The tasks that run detached. -/
inductive Spawn where
  | choreography (id : String)
  | reclaimWatch (id : String) (stop : FlagRef)
  | refundWatcher (id : String) (t1 : Nat) (stop : FlagRef)
  | rehydratedRefundWatcher (id : String) (t1 : Nat) (stop : FlagRef)
  | swipeWatch (id : String) (stop : FlagRef)
  | pollLoop (id : String) (stop watchB : FlagRef)

inductive Op where
  | client (c : ClientCall)
  | crypto (c : CryptoCall)
  | store (c : StoreCall)
  | watchers (c : WatchersCall)
  | flag (c : FlagCall)
  /-- read the observer's cell, with the time of the reading -/
  | observe (chain : Chain)
  | plant (chain : Chain) (cell : Dated)
  | now
  | unixNow
  | sleep (secs : Nat)
  | spawn (t : Spawn)

@[reducible] def ClientCall.Ans : ClientCall → Type
  | .accept _ => Except ProxyError AcceptResponse
  | .keys _ _ => Except ProxyError KeysResponse
  | .refundSigs _ _ => Except ProxyError RefundSigsResponse
  | .lock _ _ => Except ProxyError LockResponse
  | .readyAck _ _ => Except ProxyError ReadyAckResponse
  | .status _ => Except ProxyError StatusResponse
  | .effectiveConfig => Except ProxyError EffectiveConfig

@[reducible] def CryptoCall.Ans : CryptoCall → Type
  | .generateSwapKeys _ => Except CryptoError SwapKeyMaterial
  | .ingestCounterparty _ _ => Except CryptoError JointKeys
  | .setLockUtxo _ _ _ _ => Except CryptoError Unit
  | .exchangeRefundSigs _ _ _ => Except CryptoError RefundSigExchange
  | .claimDest _ => Except CryptoError String
  | .refundDest _ => Except CryptoError (String × String)
  | .prepareLock _ => Except CryptoError LockUtxo
  | .submitLock _ => Except CryptoError (Option String)
  | .lock _ => Except CryptoError (Option String)
  | .claim _ => Except CryptoError (Option String)
  | .swipe _ => Except CryptoError (Option String)
  | .refund _ => Except CryptoError (Option String)
  | .reclaim _ _ => Except CryptoError (Option String)
  | .extractSecret _ _ => Except CryptoError SecretExtraction
  | .watchLock _ _ => Except CryptoError WatchLock
  | .watchScriptSpend _ => Except CryptoError WatchSpend
  | .setLockBTxid _ _ => Except CryptoError Unit
  | .ingestClaimPresig _ _ => Except CryptoError Unit
  | .releaseClaimSig _ _ => Except CryptoError AdaptorPresig

@[reducible] def StoreCall.Ans : StoreCall → Type
  | .dataDir => Option String
  | .openStore _ => Except StoreError Unit
  | .save _ => Except StoreError Unit
  | .load _ => Except StoreError StoredSwap
  | .loadAll => Except StoreError (List StoredSwap)
  | .remove _ => Except StoreError Unit

@[reducible] def WatchersCall.Ans : WatchersCall → Type
  | .register _ => FlagRef
  | .raise _ => Unit
  | .clear _ => Unit

@[reducible] def FlagCall.Ans : FlagCall → Type
  | .new _ => FlagRef
  | .load _ => Bool
  | .store _ _ => Unit
  | .swap _ _ => Bool

@[reducible] def Op.Ans : Op → Type
  | .client c => c.Ans
  | .crypto c => c.Ans
  | .store c => c.Ans
  | .watchers c => c.Ans
  | .flag c => c.Ans
  | .observe _ => Dated × Nat
  | .plant _ _ => Unit
  | .now => Nat
  | .unixNow => Nat
  | .sleep _ => Unit
  | .spawn _ => Unit

/-- An answer of every operation: what is asked works, and nothing is there yet. -/
def Op.easyAns : (o : Op) → o.Ans
  | .client (.accept _) => .ok default
  | .client (.keys _ _) => .ok default
  | .client (.refundSigs _ _) => .ok default
  | .client (.lock _ _) => .ok default
  | .client (.readyAck _ _) => .ok default
  | .client (.status _) => .ok default
  | .client .effectiveConfig => .ok default
  | .crypto (.generateSwapKeys _) => .ok default
  | .crypto (.ingestCounterparty _ _) => .ok default
  | .crypto (.setLockUtxo _ _ _ _) => .ok ()
  | .crypto (.exchangeRefundSigs _ _ _) => .ok default
  | .crypto (.claimDest _) => .ok ""
  | .crypto (.refundDest _) => .ok ("", "")
  | .crypto (.prepareLock _) => .ok default
  | .crypto (.submitLock _) => .ok none
  | .crypto (.lock _) => .ok none
  | .crypto (.claim _) => .ok none
  | .crypto (.swipe _) => .ok none
  | .crypto (.refund _) => .ok none
  | .crypto (.reclaim _ _) => .ok none
  | .crypto (.extractSecret _ _) => .ok default
  | .crypto (.watchLock _ _) => .ok default
  | .crypto (.watchScriptSpend _) => .ok default
  | .crypto (.setLockBTxid _ _) => .ok ()
  | .crypto (.ingestClaimPresig _ _) => .ok ()
  | .crypto (.releaseClaimSig _ _) => .ok default
  | .store .dataDir => some ""
  | .store (.openStore _) => .ok ()
  | .store (.save _) => .ok ()
  | .store (.load _) => .ok default
  | .store .loadAll => .ok []
  | .store (.remove _) => .ok ()
  | .watchers (.register _) => 0
  | .watchers (.raise _) => ()
  | .watchers (.clear _) => ()
  | .flag (.new _) => 0
  | .flag (.load _) => false
  | .flag (.store _ _) => ()
  | .flag (.swap _ _) => false
  | .observe _ => (default, 0)
  | .plant _ _ => ()
  | .now => 0
  | .unixNow => 0
  | .sleep _ => ()
  | .spawn _ => ()

/-- A desk task. -/
abbrev DeskM (ε α : Type) := Prog Op Op.Ans ε α

/-! ## The calls as the tasks make them -/

namespace client

def accept (req : AcceptRequest) : DeskM ProxyError AcceptResponse :=
  .request (.client (.accept req)) fun r => r

def keys (id_ : String) (req : KeysRequest) : DeskM ProxyError KeysResponse :=
  .request (.client (.keys id_ req)) fun r => r

def refundSigs (id_ : String) (req : RefundSigsRequest) : DeskM ProxyError RefundSigsResponse :=
  .request (.client (.refundSigs id_ req)) fun r => r

def lock (id_ : String) (req : LockRequest) : DeskM ProxyError LockResponse :=
  .request (.client (.lock id_ req)) fun r => r

def readyAck (id_ : String) (req : ReadyAckRequest) : DeskM ProxyError ReadyAckResponse :=
  .request (.client (.readyAck id_ req)) fun r => r

def status (id_ : String) : DeskM ProxyError StatusResponse :=
  .request (.client (.status id_)) fun r => r

def effectiveConfig : DeskM ProxyError EffectiveConfig :=
  .request (.client .effectiveConfig) fun r => r

end client

/-- `v.get("txid")` is taken for the transaction only when it is there and not empty. -/
def txidOr (lost : CryptoError) : Except CryptoError (Option String) → Except CryptoError String
  | .error e => .error e
  | .ok (some t) => if Rust.isEmpty t then .error lost else .ok t
  | .ok none => .error lost

theorem txidOr_eq_ok {lost : CryptoError} {r : Except CryptoError (Option String)} {t : String} :
    txidOr lost r = .ok t ↔ r = .ok (some t) ∧ t ≠ "" := by
  rcases r with e | _ | s
  · simp [txidOr]
  · simp [txidOr]
  · simp only [txidOr, Rust.isEmpty, beq_iff_eq]
    split
    · rename_i h; simp [h]
    · rename_i h
      simp only [Except.ok.injEq, Option.some.injEq]
      exact ⟨fun e => ⟨e, e ▸ h⟩, fun e => e.1⟩

namespace crypto

def generateSwapKeys (ctx : SwapInitContext) : DeskM CryptoError SwapKeyMaterial :=
  .request (.crypto (.generateSwapKeys ctx)) fun r => r

def ingestCounterparty (id_ : String) (cp : CounterpartyKeys) : DeskM CryptoError JointKeys :=
  .request (.crypto (.ingestCounterparty id_ cp)) fun r => r

def setLockUtxo (id_ txid : String) (index : Int) (amount : String) : DeskM CryptoError Unit :=
  .request (.crypto (.setLockUtxo id_ txid index amount)) fun r => r

def exchangeRefundSigs (id_ : String) (counterparty : Option AdaptorPresig)
    (counterpartyLegSigs : Option LegSigs) : DeskM CryptoError RefundSigExchange :=
  .request (.crypto (.exchangeRefundSigs id_ counterparty counterpartyLegSigs)) fun r => r

def claimDest (id_ : String) : DeskM CryptoError String := .request (.crypto (.claimDest id_)) fun r => r

def refundDest (id_ : String) : DeskM CryptoError (String × String) :=
  .request (.crypto (.refundDest id_)) fun r => r

def prepareLock (id_ : String) : DeskM CryptoError LockUtxo := .request (.crypto (.prepareLock id_)) fun r => r

def extractSecret (id_ witnessTxid : String) : DeskM CryptoError SecretExtraction :=
  .request (.crypto (.extractSecret id_ witnessTxid)) fun r => r

def watchLock (id_ : String) (chain : Chain) : DeskM CryptoError WatchLock :=
  .request (.crypto (.watchLock id_ chain)) fun r => r

def watchScriptSpend (id_ : String) : DeskM CryptoError SpendSighting :=
  .request (.crypto (.watchScriptSpend id_)) (·.map SpendSighting.fromEngine)

def setLockBTxid (id_ txid : String) : DeskM CryptoError Unit :=
  .request (.crypto (.setLockBTxid id_ txid)) fun r => r

def ingestClaimPresig (id_ : String) (presig : AdaptorPresig) : DeskM CryptoError Unit :=
  .request (.crypto (.ingestClaimPresig id_ presig)) fun r => r

def releaseClaimSig (id_ : String) (chainBConfirmed : Bool) : DeskM CryptoError AdaptorPresig :=
  .request (.crypto (.releaseClaimSig id_ chainBConfirmed)) fun r => r

/-- The error of a reply without a transaction. -/
def noTxid (method id_ not_ : String) : CryptoError :=
  .broadcast (s!"the engine accepted {method} for swap {id_} but returned no txid, so " ++
    s!"there is nothing to confirm on chain - treating this as NOT {not_}")

/-- `txid_call` -/
def txidCall (method id_ : String) (c : CryptoCall) (judge : c.Ans → Except CryptoError (Option String)) :
    DeskM CryptoError String :=
  .request (.crypto c) fun r => txidOr (noTxid method id_ "submitted") (judge r)

def submitLock (id_ : String) : DeskM CryptoError String :=
  txidCall "submit_lock" id_ (.submitLock id_) fun r => r

def lock (id_ : String) : DeskM CryptoError String := txidCall "lock" id_ (.lock id_) fun r => r

def claim (id_ : String) : DeskM CryptoError String := txidCall "claim" id_ (.claim id_) fun r => r

def swipe (id_ : String) : DeskM CryptoError String := txidCall "swipe" id_ (.swipe id_) fun r => r

def refund (id_ : String) : DeskM CryptoError String :=
  .request (.crypto (.refund id_)) fun r => txidOr (noTxid "refund" id_ "broadcast") r

def reclaim (id_ : String) (restoreHeight : Option Int) : DeskM CryptoError String :=
  .request (.crypto (.reclaim id_ restoreHeight)) fun r => txidOr (noTxid "reclaim" id_ "reclaimed") r

end crypto

namespace store

def dataDir {ε : Type} : DeskM ε (Option String) := .ask (Op.store .dataDir)

def openStore (dir : String) : DeskM StoreError Unit := .request (.store (.openStore dir)) fun r => r

def save (rec : StoredSwap) : DeskM StoreError Unit := .request (.store (.save rec)) fun r => r

def load (id_ : String) : DeskM StoreError StoredSwap := .request (.store (.load id_)) fun r => r

def loadAll : DeskM StoreError (List StoredSwap) := .request (.store .loadAll) fun r => r

def remove (id_ : String) : DeskM StoreError Unit := .request (.store (.remove id_)) fun r => r

end store

section
variable {ε : Type}

namespace watchers

def register (id_ : String) : DeskM ε FlagRef := .ask (Op.watchers (.register id_))

def raise (id_ : String) : DeskM ε Unit := .ask (Op.watchers (.raise id_))

def clear (id_ : String) : DeskM ε Unit := .ask (Op.watchers (.clear id_))

end watchers

namespace flag

def new (b : Bool) : DeskM ε FlagRef := .ask (Op.flag (.new b))

def load (f : FlagRef) : DeskM ε Bool := .ask (Op.flag (.load f))

def store (f : FlagRef) (b : Bool) : DeskM ε Unit := .ask (Op.flag (.store f b))

def swap (f : FlagRef) (b : Bool) : DeskM ε Bool := .ask (Op.flag (.swap f b))

end flag

def observe (chain : Chain) : DeskM ε (Dated × Nat) := .ask (Op.observe chain)

def plant (chain : Chain) (cell : Dated) : DeskM ε Unit := .ask (Op.plant chain cell)

def instantNow : DeskM ε Nat := .ask Op.now

def unixNow : DeskM ε Nat := .ask Op.unixNow

def sleep (secs : Nat) : DeskM ε Unit := .ask (Op.sleep secs)

def spawn (t : Spawn) : DeskM ε Unit := .ask (Op.spawn t)

end

end Desk
