import PwndaWallet.Desk.Commands
import PwndaWallet.Desk.Conductor
import PwndaWallet.Desk.Reclaim
import PwndaWallet.Desk.Refund

/-!
# What runs in the background

The observer's poll loop (`desk/observer.rs`), the restart (`desk/rehydrate.rs`), and what each
detached task runs.
-/

namespace Desk

open Tasks

/-! ## The observer -/

def pollOnce (swapId : String) (chain : Chain) : DeskM Unit Unit := do
  let sighting := match ← (crypto.watchLock swapId chain).attempt with
    | .ok v => mapWatchLock v
    | .error e => .couldNotLook s!"sidecar did not answer watch_lock: {e.toString}"
  plant chain (.polled sighting (← instantNow))

def chainsToPoll (watchB : Bool) : List Chain := if watchB then [.A, .B] else [.A]

def pollChains (swapId : String) (stop : FlagRef) : List Chain → DeskM Unit Unit
  | [] => .ret ()
  | chain :: chains => do
    if ← flag.load stop then return ()
    else
      pollOnce swapId chain
      pollChains swapId stop chains

def runPollLoop (swapId : String) (stop watchB : FlagRef) : Nat → DeskM Unit Unit
  | 0 => .cut
  | n + 1 => do
    if ← flag.load stop then return ()
    else
      pollChains swapId stop (chainsToPoll (← flag.load watchB))
      sleep POLL_INTERVAL
      runPollLoop swapId stop watchB n

/-! ## The restart -/

/-- The refund watcher of a restarted process, which takes its entry out of the registry at the
end. -/
def runRehydratedRefundWatcher (armed : Bool) (swapId : String) (t1Unix : Nat) (stop : FlagRef)
    (n : Nat) : DeskM Unit Unit := do
  let _ ← RefundWatcher.run t1Unix stop
    (if armed then fireDeepAbort armed swapId else executeRefundAndReport armed swapId) n
  watchers.clear swapId

def spawnChainWatchers (armed : Bool) (swapId : String) (stop : FlagRef) : DeskM Unit Unit := do
  if armed then
    let hasBLeg := match ← (store.load swapId).attempt with
      | .ok r => r.lockBTxid.isSome
      | .error _ => false
    let watchB ← flag.new hasBLeg
    spawn (.pollLoop swapId stop watchB)
    spawn (.reclaimWatch swapId stop)
  else return ()

/-- Register a stop flag for every swap before any watcher runs. -/
def registerAll : List (String × Int) → DeskM Unit (List (String × Int × FlagRef))
  | [] => .ret []
  | (swapId, t1) :: rest => do
    let stop ← watchers.register swapId
    return (swapId, t1, stop) :: (← registerAll rest)

def respawn (armed : Bool) : List (String × Int × FlagRef) → DeskM Unit Unit
  | [] => .ret ()
  | (swapId, t1, stop) :: rest => do
    spawnChainWatchers armed swapId stop
    .when armed (spawn (.swipeWatch swapId stop))
    spawn (.rehydratedRefundWatcher swapId t1.toNat stop)
    respawn armed rest

def rehydrate (armed : Bool) : DeskM Unit Unit := do
  let dir ← .orFail (← store.dataDir) ()
  (store.openStore dir).mapErr fun _ => ()
  let all ← (store.loadAll).mapErr fun _ => ()
  let pending := (all.filter fun s => !(DeskSwapState.parse s.state).isTerminal).map
    fun s => (s.swapId, s.t1)
  respawn armed (← registerAll pending)

/-! ## The tasks -/

/-- What a process is started with: whether the vendored engine is installed, the value of
`PWNDA_CONDUCTOR_STOP_BEFORE_LOCK_B`, and how far loops are followed. -/
structure Env where
  armed : Bool
  stopBefore : Option String
  n : Nat

def Spawn.body (env : Env) : Spawn → DeskM Unit Unit
  | .choreography id_ => (runSwapChoreography env.armed env.stopBefore env.n id_).detach
  | .reclaimWatch id_ stop => runReclaimWatch id_ stop env.n
  | .refundWatcher id_ t1 stop => runRefundWatcher env.armed id_ t1 stop env.n
  | .rehydratedRefundWatcher id_ t1 stop => runRehydratedRefundWatcher env.armed id_ t1 stop env.n
  | .swipeWatch id_ stop => runSwipeWatch env.armed id_ stop env.n
  | .pollLoop id_ stop watchB => runPollLoop id_ stop watchB env.n

end Desk
