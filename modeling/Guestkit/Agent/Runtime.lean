import Guestkit.Agent.Policy
import Guestkit.Lib.HashMap
import Guestkit.Plan.Types

/-! The state that the agent keeps between requests, and what its request handlers are given: the
functions of other crates, and the guest that they look at and change. -/

namespace Guestkit

open Lib

abbrev Bytes := List UInt8

def idempotencyTtl : Nat := 600 * 10 ^ 9

/-- The nonces that were seen, the oldest first, and the responses by idempotency key, each with the
time it was stored at. -/
structure ReplayCache where
  nonceOrder : List String := []
  nonces : Finset String := ∅
  idempotent : HashMap String (Nat × JsonRpcResponse) := ∅

namespace ReplayCache

def evict (cap : Nat) : List String → Finset String → List String × Finset String
  | [], nonces => ([], nonces)
  | old :: order, nonces =>
    if (old :: order).length > max cap 1 then
      evict cap order (nonces.erase old)
    else
      (old :: order, nonces)

def nonceFresh (nonce : String) (cap : Nat) (cache : ReplayCache) : Bool × ReplayCache :=
  if nonce ∈ cache.nonces then
    (false, cache)
  else
    let (nonceOrder, nonces) := evict cap (cache.nonceOrder ++ [nonce]) (insert nonce cache.nonces)
    (true, { cache with nonceOrder, nonces })

def idempotentGet (key : String) (now : Nat) (cache : ReplayCache) :
    Option JsonRpcResponse × ReplayCache :=
  let idempotent := cache.idempotent.retain fun _ entry => now - entry.1 < idempotencyTtl
  ((idempotent.lookup key).map Prod.snd, { cache with idempotent })

def idempotentStore (key : String) (resp : JsonRpcResponse) (now : Nat) (cache : ReplayCache) :
    ReplayCache :=
  { cache with idempotent := cache.idempotent.insert key (now, resp) }

end ReplayCache

/-- The functions of `serde_json`, `glob`, `chrono` and `base64` that the agent calls.  Points in
time are nanoseconds since the epoch; `inRange` says which ones `chrono` can represent. -/
structure Crates where
  fromSlice : Bytes → Except String Json
  toVec : Json → Except String Bytes
  parseRequest : Bytes → Except String JsonRpcRequest
  fixPlan : Json → Except String Plan.FixPlan
  remediationActions : Json → Option (List (String × String))
  glob : Glob
  parseFromRfc3339 : String → Except String Int
  inRange : Int → Bool
  encode : String → String

/-- The calls with which a request can change the guest, each with what it is given.  `serve` is the
function of the agent that carries out a method from the parameters alone. -/
inductive GuestCall where
  | exec (program : String) (args : List String)
  | setTime (script : String)
  | fstrim (args : List String)
  | fsfreeze (thaw : Bool)
  | createMarkerShadow (volume : String)
  | deleteMarkerShadow (id : String)
  | powerOff (script : String)
  | reboot (program : String) (args : List String)
  | enableRdp
  | disableRdp
  | applyPlan (dryRun : Bool) (plan : Plan.FixPlan)
  | rollbackPlan (planId : String)
  | repair (dryRun : Bool) (plan : Plan.FixPlan)
  | restartUnit (unit : String)
  | controlUnit (op unit : String)
  | executeRemediationPlan (planId : String) (actions : List (String × String))
  | snapshotReadiness
  | snapshotPrepare (watchdogSecs : Option UInt64)
  | snapshotComplete
  | preMigrationCheck (target : String)
  | enterCutover (params : Json)
  | exitCutover
  | captureBaseline (postMigration : Bool) (target : String)
  | fileWrite (policy : FileOpsPolicy) (params : Json)
  | timeSync (helper : Bool)
  | powerAction (helper : Bool) (action : String) (delaySecs : UInt64)
  | serve (method : RpcMethod) (params : Json)

structure Failure where
  code : RpcErrorCode
  message : String

/-- The guest as the agent sees it, with states `ε`.  `collect` and `qgaCollect` answer the requests
that only look at it. -/
structure Guest (ε : Type) where
  windows : Bool
  perform : GuestCall → ε → Except String Json × ε
  collect : RpcMethod → Json → ε → Except Failure Json
  qgaCollect : String → Json → ε → Except String Json
  readFile : RpcMethod → FileOpsPolicy → Json → ε → Except String Json
  planRepair : String → Bool → ε → Except String Plan.FixPlan
  verifyToken : Json → ε → Option (Except String Unit)
  executorAvailable : ε → Bool

def idleGuest : Guest Unit where
  windows := false
  perform := fun _ machine => (.ok .null, machine)
  collect := fun _ _ _ => .ok .null
  qgaCollect := fun _ _ _ => .ok .null
  readFile := fun _ _ _ _ => .ok .null
  planRepair := fun _ _ _ => .error "no assessment"
  verifyToken := fun _ _ => none
  executorAvailable := fun _ => false

structure ChannelHandle where
  name : String
  pushCapable : Bool

/-- The state of the agent, with the audit trail and the calls that were made so far. -/
structure AgentRuntime (ε : Type) where
  machine : ε
  replay : ReplayCache := {}
  subscribed : Finset String := ∅
  fsFrozen : Bool := false
  fsFrozenHint : Bool := false
  vssShadowId : Option String := none
  nextPid : UInt64 := 1000
  execJobs : HashMap UInt64 Json := ∅
  delimitedResponse : Bool := false
  auditLog : List (String × String × String) := []
  log : List GuestCall := []

inductive Exit where
  | answer (resp : JsonRpcResponse)
  | panicked (message : String)

abbrev AgentM (ε : Type) := EStateM Exit (AgentRuntime ε)

abbrev CallM (ε : Type) := EStateM String (AgentRuntime ε)

abbrev Handler (ε : Type) := EStateM Failure (AgentRuntime ε)

namespace AgentRuntime

variable {ε : Type} {α : Type}

def call (guest : Guest ε) (c : GuestCall) : CallM ε Json := fun s =>
  let (result, machine) := guest.perform c s.machine
  let s := { s with machine, log := s.log ++ [c] }
  match result with
  | .ok value => .ok value s
  | .error e => .error e s

def look {φ : Type} (f : ε → Except φ α) : EStateM φ (AgentRuntime ε) α := fun s =>
  match f s.machine with
  | .ok value => .ok value s
  | .error e => .error e s

def update {φ : Type} (f : AgentRuntime ε → AgentRuntime ε) : EStateM φ (AgentRuntime ε) Unit :=
  modifyGet fun s => ((), f s)

def mapError {φ ψ : Type} (f : φ → ψ) (x : EStateM φ (AgentRuntime ε) α) :
    EStateM ψ (AgentRuntime ε) α := fun s =>
  match x s with
  | .ok value s => .ok value s
  | .error e s => .error (f e) s

end AgentRuntime

end Guestkit
