import PwndaWallet.Desk.Engine

/-!
# What goes to the engine and comes back

The data of the key and signature seam (`desk/crypto.rs`). The engine itself is outside: its replies
are answers of the operations in `Op`.
-/

namespace Desk

inductive CryptoError where
  | unavailable (e : String)
  | invalidMaterial (e : String)
  | broadcast (e : String)
  | mockMaterialRefused
  | engineRejected (method errorType message : String)
  | configFault (e : String)
  | engineBusy (method : String) (seconds : Nat)
deriving Inhabited

def CryptoError.toString : CryptoError → String
  | .unavailable e => s!"desk crypto unavailable: {e}"
  | .invalidMaterial e => s!"invalid key material: {e}"
  | .broadcast e => s!"refund broadcast failed: {e}"
  | .mockMaterialRefused => "refusing to act on MOCK key material — this swap's keys were " ++
    "generated by the Stage-A placeholder provider, not the real engine. Acting on them cannot " ++
    "recover funds."
  | .engineRejected method errorType message =>
    s!"engine rejected {method}: {errorType}: {message}"
  | .configFault e => s!"engine sidecar configuration fault: {e}"
  | .engineBusy method seconds =>
    s!"engine busy: {method} yielded after {seconds}s without reaching the child"

def CryptoError.isTransientBusy : CryptoError → Bool
  | .engineBusy _ _ => true
  | _ => false

inductive KeyProvenance where
  | mock
  | vendored
deriving Inhabited, DecidableEq

def KeyProvenance.asStr : KeyProvenance → String
  | .mock => "mock"
  | .vendored => "vendored"

def KeyProvenance.parse (s : String) : KeyProvenance :=
  match s with
  | "vendored" => .vendored
  | _ => .mock

def KeyProvenance.isReal (p : KeyProvenance) : Bool := p == .vendored

theorem parse_asStr (p : KeyProvenance) : KeyProvenance.parse p.asStr = p := by
  cases p <;> rfl

structure SwapInitContext where
  swapId : String
  role : ClientRole
  pair : String
  amountA : String
  amountB : String
  t0 : Int
  t1 : Int
  t2 : Int
  t1Slot : Option Int
  t2Slot : Option Int
  leaderProof : Bool
  payoutAddress : String
  refundAddress : String

structure SwapKeyMaterial where
  clientKeySharePoint : String
  clientChainAPubkey : String
  adaptorPoint : Option String
  dleqProof : Option String
  viewKey : Option String
  engineRef : String
  t1Slot : Option Int
  t2Slot : Option Int
  provenance : KeyProvenance
deriving Inhabited

def SwapKeyMaterial.keysRequest (m : SwapKeyMaterial) : KeysRequest where
  clientKeySharePoint := m.clientKeySharePoint
  clientChainAPubkey := m.clientChainAPubkey
  adaptorPoint := m.adaptorPoint
  viewKey := m.viewKey
  dleqProof := m.dleqProof
  t1Slot := m.t1Slot
  t2Slot := m.t2Slot

structure CounterpartyKeys where
  keySharePoint : String
  chainAPubkey : String
  adaptorPoint : Option String
  viewKey : Option String
  dleqProof : Option String
  t1Slot : Option Int
  t2Slot : Option Int
  claimDest : Option String
  refundDest : Option String

structure JointKeys where
  chainALockAddr : String
  chainBJointKey : String
  chainBJointAddr : String
deriving Inhabited

/-- What `exchange_refund_sigs` answers: our half, and whether theirs verified. -/
structure RefundSigExchange where
  ours : Option AdaptorPresig
  oursLegSigs : Option LegSigs
  verified : Bool
  ourRefundTxid : String
deriving Inhabited

structure RefundRequest where
  swapId : String
  pair : String
  direction : String
  refundAddress : String
  refundPresig : AdaptorPresig
  chain : Chain
  lockTxid : String
  provenance : KeyProvenance

/-! ## What a spend of the chain-A lock reveals -/

inductive SpendSighting where
  | spent (txid : String)
  | notSpent
  | couldNotLook (error : String)
deriving Inhabited, DecidableEq

/-- The fields of a `watch_script_spend` reply, `none` where a field is absent or of another
type. -/
structure WatchSpend where
  error : Option String
  spent : Option Bool
  txid : Option String
deriving Inhabited

def SpendSighting.fromEngine (v : WatchSpend) : SpendSighting :=
  let err := Rust.trim (v.error.getD "")
  let spent := v.spent.getD false
  let txid := Rust.trim (v.txid.getD "")
  if !Rust.isEmpty err && !spent then .couldNotLook err
  else if spent then
    if Rust.isEmpty txid then
      .couldNotLook "the engine reported the lock spent but named no spending tx"
    else .spent txid
  else .notSpent

structure SecretExtraction where
  secretHeld : Bool
  reason : String
deriving Inhabited

inductive ExtractionOutlook where
  | held
  | retryLater
  | wrongTxid
  | impossible
  | swiped
deriving DecidableEq

def SecretExtraction.outlook (e : SecretExtraction) : ExtractionOutlook :=
  if e.secretHeld then .held
  else if Rust.startsWith e.reason "unsupported-backend" then .impossible
  else if Rust.contains e.reason "SWIPED (B3" then .swiped
  else if Rust.contains e.reason "does not carry the swap's secret" then .wrongTxid
  else .retryLater

end Desk
