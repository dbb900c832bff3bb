/-!
# The desk's wire types

The requests and replies of the desk, message by message (`desk/wire.rs`), and the errors of the
transport they travel on (`swap/proxy.rs`). `i64` is `Int`.
-/

namespace Desk

inductive ProxyError where
  | noUrl
  | network (e : String)
  | http (code : Nat) (body : String)
  | parse (e : String)
  | authRequired
  | authUnknownPubkey
  | authClockSkew (serverTime : Option Nat)
  | authNonceReplay
  | authBadSig
  | authBanned
  | rateLimitMinute
  | rateLimitDay
  | enrollRateLimit
  | deskQuoteExpired
  | deskInventoryUnavailable (retryAfterSecs : Option Nat)
  | deskSwapStateConflict
  | deskPairHalted
  | deskSizeOutOfRange (message : String)
  | deskBusy
  | deskPrivateKeyRejected
  | authSetup (e : String)
deriving Inhabited

def ProxyError.toString : ProxyError → String
  | .noUrl => "proxy URL is not configured (call swap_set_proxy_url first)"
  | .network e => s!"network error: {e}"
  | .http code body => s!"proxy returned {code}: {body}"
  | .parse e => s!"response parse error: {e}"
  | .authRequired => "auth required (no client signature accepted)"
  | .authUnknownPubkey => "server does not recognize this client's public key"
  | .authClockSkew (some t) => s!"clock skew exceeds server tolerance (server time = Some({t}))"
  | .authClockSkew none => "clock skew exceeds server tolerance (server time = None)"
  | .authNonceReplay => "nonce replay rejected by server"
  | .authBadSig => "invalid signature (this is a client bug, not a user error)"
  | .authBanned => "this client is banned by the server"
  | .rateLimitMinute => "rate limited per minute"
  | .rateLimitDay => "rate limited per day"
  | .enrollRateLimit => "enrollment rate limit hit on this IP"
  | .deskQuoteExpired => "quote expired or already consumed — re-quote before accepting"
  | .deskInventoryUnavailable (some n) =>
    s!"desk inventory unavailable for this pair/size right now — the desk says retry in {n}s"
  | .deskInventoryUnavailable none => "desk inventory unavailable for this pair/size right now" ++
    " — the desk gave no Retry-After, so no retry is scheduled"
  | .deskSwapStateConflict =>
    "swap-state conflict — this operation is not valid in the swap's current state"
  | .deskPairHalted => "this pair is halted (oracle stale or manual halt)"
  | .deskSizeOutOfRange m => s!"the desk refused this size: {m}"
  | .deskBusy => "the desk is busy (503 desk_busy) — retry"
  | .deskPrivateKeyRejected =>
    "request rejected: a spend scalar was detected in a field that must never carry one"
  | .authSetup e => s!"local auth setup error: {e}"

structure AdaptorPresig where
  rEnc : String
  sp : String
deriving Inhabited, DecidableEq

structure LegSigs where
  refundParentSig : String
  refundSpendSig : String
deriving Inhabited, DecidableEq

structure LockUtxo where
  txid : String
  index : Int
  amount : Int
deriving Inhabited, DecidableEq

/-! ## M1 and M2 -/

structure AcceptRequest where
  quoteId : String
  payoutAddress : String
  refundAddress : String
  clientChainAPubkey : Option String
  leaderProof : Option Bool
deriving Inhabited, DecidableEq

structure AcceptResponse where
  swapId : String
  pair : String
  direction : String
  deskRole : String
  coinIn : String
  coinOut : String
  amountA : String
  amountB : String
  t0 : Int
  t1 : Int
  t2 : Int
  t1Slot : Option Int
  t2Slot : Option Int
  deskKeySharePoint : String
  deskChainAPubkey : String
  adaptorPoint : Option String
  viewKey : Option String
  dleqProof : Option String
  leaderProof : Bool
  commitments : List String
  scriptAddress : String
  expiresAt : Int
  claimDest : String
  claimDestSource : String
  refundDest : String
  refundDestSource : String
deriving Inhabited

structure KeysRequest where
  clientKeySharePoint : String
  clientChainAPubkey : String
  adaptorPoint : Option String
  viewKey : Option String
  dleqProof : Option String
  t1Slot : Option Int
  t2Slot : Option Int
deriving Inhabited

structure KeysResponse where
  swapId : String
  state : String
  chainALockAddr : String
  chainBJointKey : String
  chainBJointAddr : String
  accepted : Bool
deriving Inhabited

structure EffectiveAdaConfig where
  refundTimelockSlots : Option Int
  swipeDeltaSlots : Option Int
deriving Inhabited

structure EffectiveBuild where
  commit : String
  time : String
deriving Inhabited

structure EffectiveConfig where
  ada : Option EffectiveAdaConfig
  build : Option EffectiveBuild
deriving Inhabited

/-! ## M3 -/

structure RefundSigsRequest where
  refundPresig : AdaptorPresig
  claimCosig : Option AdaptorPresig
  legSigs : Option LegSigs
  lockUtxo : Option LockUtxo
deriving Inhabited

structure RefundSigsResponse where
  swapId : String
  state : String
  refundPresig : AdaptorPresig
  claimPresig : Option AdaptorPresig
  legSigs : Option LegSigs
  verified : Bool
deriving Inhabited

/-! ## Status, lock and ready-ack -/

structure StatusResponse where
  swapId : String
  pair : String
  direction : String
  deskRole : String
  state : String
  coinIn : String
  coinOut : String
  amountIn : String
  amountOut : String
  lockATxid : String
  lockBTxid : String
  claimATxid : String
  sweepBTxid : String
  refundTxid : String
  swipeTxid : String
  reclaimTxid : String
  confsA : Int
  confsB : Int
  minConfsA : Int
  minConfsB : Int
  t0 : Int
  t1 : Int
  t2 : Int
  t0Remaining : Int
  t1Remaining : Int
  readyAck : Bool
  releasedClaimSig : Option AdaptorPresig
  lockUtxo : Option LockUtxo
  claimDest : String
  claimPresigTxid : String
  claimDestSource : String
  refundDest : String
  refundDestSource : String
  updatedAt : Int
  error : String
deriving Inhabited

structure LockRequest where
  chain : String
  lockTxid : String
  amount : Option String
  jointOutputProof : Option String
deriving Inhabited

structure LockResponse where
  swapId : String
  state : String
  accepted : Bool
  verifying : Bool
deriving Inhabited

structure ReadyAckRequest where
  ack : Bool
  claimAdaptorSig : Option AdaptorPresig
deriving Inhabited

structure ReadyAckResponse where
  swapId : String
  state : String
  ready : Bool
  releasedClaimSig : Option AdaptorPresig
  queued : Bool
deriving Inhabited

end Desk
