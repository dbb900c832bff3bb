import PwndaWallet.Desk.Wire

/-!
# The swap record

`StoredSwap` (`desk/store.rs`), the record a swap is recovered from, and what it is made of at M1.
-/

namespace Desk

inductive StoreError where
  | key (e : String)
  | io (e : String)
  | encrypt
  | decrypt (id : String)
  | corrupt (id why : String)
  | serde (e : String)
  | invalidId
deriving Inhabited

def StoreError.toString : StoreError → String
  | .key e => s!"desk-store key error: {e}"
  | .io e => s!"io: {e}"
  | .encrypt => "encryption failed"
  | .decrypt id =>
    s!"decryption/authentication failed for swap {id} (wrong key, tampered, or wrong id)"
  | .corrupt id why => s!"corrupt record for swap {id}: {why}"
  | .serde e => s!"serialization: {e}"
  | .invalidId => "invalid swap id (must be non-empty, <=128 chars, [A-Za-z0-9_-])"

structure StoredSwap where
  swapId : String
  pair : String
  direction : String
  deskRole : String
  amountA : String
  amountB : String
  state : String
  payoutAddress : String
  refundAddress : String
  scriptAddress : String
  chainALockAddr : Option String
  chainBJointAddr : Option String
  chainBJointKey : Option String
  deskKeySharePoint : String
  deskChainAPubkey : String
  adaptorPoint : Option String
  viewKey : Option String
  dleqProof : Option String
  leaderProof : Bool
  clientKeySharePoint : Option String
  engineRef : Option String
  refundPresigREnc : Option String
  refundPresigSp : Option String
  claimPresigREnc : Option String
  claimPresigSp : Option String
  lockATxid : Option String
  lockBTxid : Option String
  refundTxid : Option String
  reclaimTxid : Option String
  t0 : Int
  t1 : Int
  t2 : Int
  t1Slot : Option Int
  t2Slot : Option Int
  t2EngineSlot : Option Int
  t2EngineUnix : Option Int
  createdAt : Int
  keyProvenance : String
deriving Inhabited

def StoredSwap.fromAccept (m1 : AcceptResponse) (payoutAddress refundAddress : String)
    (createdAt : Int) : StoredSwap where
  leaderProof := m1.leaderProof
  swapId := m1.swapId
  pair := m1.pair
  direction := m1.direction
  deskRole := m1.deskRole
  amountA := m1.amountA
  amountB := m1.amountB
  state := "ACCEPTED"
  payoutAddress := payoutAddress
  refundAddress := refundAddress
  scriptAddress := m1.scriptAddress
  chainALockAddr := none
  chainBJointAddr := none
  chainBJointKey := none
  deskKeySharePoint := m1.deskKeySharePoint
  deskChainAPubkey := m1.deskChainAPubkey
  adaptorPoint := m1.adaptorPoint
  viewKey := m1.viewKey
  dleqProof := m1.dleqProof
  clientKeySharePoint := none
  engineRef := none
  refundPresigREnc := none
  refundPresigSp := none
  claimPresigREnc := none
  claimPresigSp := none
  lockATxid := none
  lockBTxid := none
  refundTxid := none
  reclaimTxid := none
  t0 := m1.t0
  t1 := m1.t1
  t2 := m1.t2
  t1Slot := m1.t1Slot
  t2Slot := m1.t2Slot
  t2EngineSlot := none
  t2EngineUnix := none
  createdAt := createdAt
  keyProvenance := ""

/-! ## The fields the tasks write -/

namespace StoredSwap

def setState (rec : StoredSwap) (s : String) : StoredSwap := { rec with state := s }

def setRefundPresig (rec : StoredSwap) (p : AdaptorPresig) : StoredSwap :=
  { rec with refundPresigREnc := some p.rEnc, refundPresigSp := some p.sp }

def setClaimPresig (rec : StoredSwap) (p : Option AdaptorPresig) : StoredSwap :=
  match p with
  | some p => { rec with claimPresigREnc := some p.rEnc, claimPresigSp := some p.sp }
  | none => rec

def setLockA (rec : StoredSwap) (txid : String) : StoredSwap := { rec with lockATxid := some txid }

def setLockB (rec : StoredSwap) (txid : String) : StoredSwap := { rec with lockBTxid := some txid }

def setRefunded (rec : StoredSwap) (txid : String) : StoredSwap :=
  { rec with refundTxid := some txid, state := "A_REFUNDED" }

def setReclaimed (rec : StoredSwap) (txid : String) : StoredSwap :=
  { rec with reclaimTxid := some txid, state := "A_REFUNDED" }

/-- The claim pre-signature leaves the refund's alone. -/
theorem refundPresig_setClaimPresig (rec : StoredSwap) (ours : AdaptorPresig)
    (p : Option AdaptorPresig) :
    ((rec.setRefundPresig ours).setClaimPresig p).refundPresigREnc = some ours.rEnc ∧
      ((rec.setRefundPresig ours).setClaimPresig p).refundPresigSp = some ours.sp := by
  cases p <;> exact ⟨rfl, rfl⟩

end StoredSwap

end Desk
