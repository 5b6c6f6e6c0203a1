import Guestkit.Agent.Qga

/-! The request handler of the agent: what carries out each method, the checks that a JSON-RPC
request passes before it is dispatched, and the frames of both protocols. -/

namespace Guestkit.RequestHandler

open Lib AgentRuntime Qga

variable {ε : Type} {α : Type} (crates : Crates) (guest : Guest ε) (policy : AgentPolicy)

def fail (code : RpcErrorCode) (text : String) : Handler ε α := throw ⟨code, text⟩

def deny (e : AgentError) : Handler ε α := throw ⟨e.rpcCode, e.message⟩

def failing (code : RpcErrorCode) (x : CallM ε α) : Handler ε α :=
  mapError (fun e => ⟨code, e⟩) x

def messageOf (msg : Json) : Json := .object [("message", msg)]

variable (params : Json)

def boolParam (key : String) (default : Bool) : Bool :=
  ((params.get key).bind Json.asBool).getD default

def strParam (key default : String) : String :=
  ((params.get key).bind Json.asStr).getD default

def jsonResult (c : GuestCall) : Handler ε Json :=
  failing .internalError (call guest c)

def ebpfResult (c : GuestCall) : Handler ε Json :=
  mapError (fun e =>
    ⟨if e.startsWith "ebpf_unavailable" then .notImplemented else .invalidParams, e⟩)
    (call guest c)

def fileOp (method : RpcMethod) (params : Json) : Handler ε Json :=
  failing .capabilityDenied (look (guest.readFile method policy.capabilities.fileOps params))

def fileWrite : Handler ε Json :=
  failing .capabilityDenied (call guest (.fileWrite policy.capabilities.fileOps params))

def exec (params : Json) : Handler ε Json :=
  if policy.actions.runShellCommand.enabled then
    failing .internalError (execSync guest params)
  else
    deny (.capabilityDenied "shell exec disabled by policy")

def fixApply : Bool := true

def runFixPlan : Handler ε Json :=
  if !fixApply then
    deny (.capabilityDenied "fix_apply not enabled")
  else
    match params.get "plan" with
    | none => fail .invalidParams "missing required param: plan"
    | some planValue =>
      match crates.fixPlan planValue with
      | .error e => fail .invalidParams s!"invalid plan: {e}"
      | .ok plan => do
        let dryRun := boolParam params "dry_run" false
        let result ← mapError (fun e => ⟨.planApplyFailed, s!"apply failed: {e}"⟩)
          (call guest (.applyPlan dryRun plan))
        return planReport plan dryRun result

def runFixPlanRollback : Handler ε Json :=
  match (params.get "plan_id").bind Json.asStr with
  | none => fail .invalidParams "missing required param: plan_id"
  | some planId => do
    let msg ← mapError (fun e => ⟨.planApplyFailed, s!"rollback failed: {e}"⟩)
      (call guest (.rollbackPlan planId))
    return messageOf msg

def repairPlan (includeDestructive : Bool) : Handler ε Plan.FixPlan :=
  match params.get "plan" with
  | some planValue =>
    match crates.fixPlan planValue with
    | .error e => fail .invalidParams s!"invalid plan: {e}"
    | .ok plan => return plan
  | none =>
    mapError (fun e => ⟨.internalError, s!"assessment for repair failed: {e}"⟩)
      (look (guest.planRepair (strParam params "target" "kvm") includeDestructive))

def migrationRepair : Handler ε Json :=
  let dryRun := boolParam params "dry_run" true
  let includeDestructive := boolParam params "include_destructive" false
  if !dryRun && !boolParam params "confirm" false then
    deny (.policyDenied
      "applying repairs requires \x7b\"dry_run\": false, \"confirm\": true\x7d")
  else if includeDestructive && !policy.actions.migration.repairDestructive then
    deny (.policyDenied
      "destructive repairs disabled by local policy (migration.repair_destructive)")
  else do
    let plan ← repairPlan crates guest params includeDestructive
    mapError (fun e => ⟨.planApplyFailed, s!"repair apply failed: {e}"⟩)
      (call guest (.repair dryRun plan))

def cutoverEnter : Handler ε Json := do
  let machine := (← get).machine
  match (params.get "token").bind fun token => guest.verifyToken token machine with
  | none => fail .invalidParams "missing readiness token (run migration.preCheck first)"
  | some (.error e) => deny (.policyDenied s!"invalid readiness token: {e}")
  | some (.ok ()) => jsonResult guest (.enterCutover params)

def restartUnit : Handler ε Json :=
  match (params.get "unit").bind Json.asStr with
  | none => fail .invalidParams "missing required param: unit"
  | some unit => return messageOf (← jsonResult guest (.restartUnit unit))

def controlUnit (op : String) : Handler ε Json :=
  match (params.get "unit").bind Json.asStr with
  | none => fail .invalidParams "missing required param: unit"
  | some unit => return messageOf (← jsonResult guest (.controlUnit op unit))

def executeRemediationPlan : Handler ε Json :=
  let planId := strParam params "plan_id" "local"
  let actions := ((params.get "actions").bind crates.remediationActions).getD []
  jsonResult guest (.executeRemediationPlan planId actions)

/-- A call that is made by the privileged helper, or directly if the helper fails. -/
def viaHelper (c : Bool → GuestCall) : Handler ε Json := do
  let machine := (← get).machine
  let msg ←
    if guest.executorAvailable machine then
      tryCatch (jsonResult guest (c true)) fun _ => jsonResult guest (c false)
    else
      jsonResult guest (c false)
  return messageOf msg

def powerAction (action : String) : Handler ε Json :=
  if policy.actions.rebootVm.requireApproval && !boolParam params "confirm" false then
    deny (.policyDenied
      (action ++ " requires explicit approval: pass \x7b\"confirm\": true\x7d"))
  else
    let delaySecs := ((params.get "delay_secs").bind Json.asU64).getD 1
    viaHelper guest (.powerAction · action delaySecs)

def freezeFilesystems : CallM ε Json := do
  let _ ← mapError (fun e => s!"freeze failed: {e}") (guestFsfreezeFreeze guest)
  update fun s => { s with fsFrozenHint := true }
  return .string "filesystems frozen"

def thawFilesystems : CallM ε Json := do
  let _ ← mapError (fun e => s!"thaw failed: {e}") (guestFsfreezeThaw guest)
  update fun s => { s with fsFrozenHint := false }
  return .string "filesystems thawed"

def subscribeEvents : Option ChannelHandle → Handler ε Json
  | none => fail .capabilityDenied "event subscription is only available on daemon channels"
  | some chan =>
    if !chan.pushCapable then
      fail .capabilityDenied
        ("push is not allowed on the QGA-shared channel; " ++
          "connect via the dedicated GuestKit channel")
    else
      let requested := ((params.get "events").bind Json.asStrings).getD ["heartbeat"]
      if !requested.contains "heartbeat" then
        fail .invalidParams "only the \"heartbeat\" event is supported"
      else do
        update fun s => { s with subscribed := insert chan.name s.subscribed }
        return .object [("subscribed", .array [.string "heartbeat"]),
          ("interval_secs", .number (.posInt 30)), ("channel", .string chan.name)]

def unsubscribeEvents (chan : Option ChannelHandle) : Handler ε Json := do
  if let some chan := chan then
    update fun s => { s with subscribed := s.subscribed.erase chan.name }
  return .object [("subscribed", .array [])]

/-- What a method does.  All that are not listed only look at the guest. -/
def serve (method : RpcMethod) (params : Json) (chan : Option ChannelHandle) : Handler ε Json :=
  match method with
  | .ping => return .object [("pong", .bool true)]
  | .exec => exec guest policy params
  | .enableRdp => failing .internalError (enableRdp guest)
  | .disableRdp => failing .internalError (disableRdp guest)
  | .runFixPlan => runFixPlan crates guest params
  | .runFixPlanRollback => runFixPlanRollback guest params
  | .getSnapshotReadiness => jsonResult guest .snapshotReadiness
  | .freezeFilesystem =>
    return messageOf (← failing .internalError (freezeFilesystems guest))
  | .thawFilesystem => return messageOf (← failing .internalError (thawFilesystems guest))
  | .restartUnit => restartUnit guest params
  | .executeRemediationPlan => executeRemediationPlan crates guest params
  | .subscribeEvents => subscribeEvents params chan
  | .unsubscribeEvents => unsubscribeEvents chan
  | .snapshotPrepare =>
    jsonResult guest (.snapshotPrepare ((params.get "watchdog_secs").bind Json.asU64))
  | .snapshotComplete => jsonResult guest .snapshotComplete
  | .migrationRepair => migrationRepair crates guest policy params
  | .migrationPreCheck => jsonResult guest (.preMigrationCheck (strParam params "target" "kvm"))
  | .migrationCutoverEnter => cutoverEnter guest params
  | .migrationCutoverExit => jsonResult guest .exitCutover
  | .baselineCapture =>
    jsonResult guest (.captureBaseline (strParam params "phase" "" == "post_migration")
      (strParam params "target" "kvm"))
  | .startUnit => controlUnit guest params "start"
  | .stopUnit => controlUnit guest params "stop"
  | .fileRead => fileOp guest policy .fileRead params
  | .fileWrite => fileWrite guest policy params
  | .fileStat => fileOp guest policy .fileStat params
  | .fileList => fileOp guest policy .fileList params
  | .fileChecksum => fileOp guest policy .fileChecksum params
  | .storageRescan => jsonResult guest (.serve .storageRescan params)
  | .storageTrim => jsonResult guest (.serve .storageTrim params)
  | .storageExpand => jsonResult guest (.serve .storageExpand params)
  | .timeSyncNow => viaHelper guest .timeSync
  | .reboot => powerAction guest policy params "reboot"
  | .shutdown => powerAction guest policy params "shutdown"
  | .netpolicyApply => ebpfResult guest (.serve .netpolicyApply params)
  | .lsmApply => ebpfResult guest (.serve .lsmApply params)
  | .integrityBaseline => jsonResult guest (.serve .integrityBaseline params)
  | .inventoryCacheWrite => jsonResult guest (.serve .inventoryCacheWrite params)
  | .packagesInstall => jsonResult guest (.serve .packagesInstall params)
  | .setHostname => jsonResult guest (.serve .setHostname params)
  | .setTimezone => jsonResult guest (.serve .setTimezone params)
  | .setDns => jsonResult guest (.serve .setDns params)
  | .setTime => fail .notImplemented "method not implemented yet: SetTime"
  | .unknown name => fail .methodNotFound s!"unknown method: {name}"
  | other => look (guest.collect other params)

def dispatch (req : JsonRpcRequest) (chan : Option ChannelHandle) : AgentM ε JsonRpcResponse :=
  fun s =>
    match serve crates guest policy req.rpcMethod req.params chan s with
    | .ok result s => .ok (.success req.id result) s
    | .error f s => .ok (.ofError req.id f.code f.message) s

/-- The clocks as a request sees them: the time of day at its expiry check, and the monotonic clock
when cached responses are looked up and when its response is stored. -/
structure Times where
  utc : Int
  lookup : Nat
  store : Nat

def answer (resp : JsonRpcResponse) : AgentM ε α := throw (.answer resp)

def audit (method outcome detail : String) : AgentM ε Unit :=
  update fun s => { s with auditLog := s.auditLog ++ [(method, outcome, detail)] }

def parse (bytes : Bytes) : AgentM ε JsonRpcRequest :=
  match crates.parseRequest bytes with
  | .error e => answer (.fromAgentError none (.parse e))
  | .ok req =>
    match req.validate with
    | .error e => answer (.fromAgentError req.id e)
    | .ok () => return req

def isNegotiation : RpcMethod → Bool
  | .ping | .getVersion | .getCapabilities => true
  | _ => false

def authorize (req : JsonRpcRequest) : AgentM ε Unit :=
  if isNegotiation req.rpcMethod then
    return ()
  else
    match policy.authorize crates.glob req.rpcMethod req.method with
    | .ok () => return ()
    | .error e => do
      audit req.method "policy_denied" ""
      answer (.fromAgentError req.id e)

/-- `issued` and a duration in milliseconds later.  Both the duration and the sum can be out of
range, which ends the thread. -/
def deadline (issued : Int) (ttlMs : UInt64) : Except String Int :=
  let ms := ttlMs.toInt64.toInt
  if ms = -2 ^ 63 then
    .error "TimeDelta::milliseconds out of bounds"
  else if crates.inRange (issued + ms * 1000000) then
    .ok (issued + ms * 1000000)
  else
    .error "`DateTime + TimeDelta` overflowed"

def requestTtl (req : JsonRpcRequest) : UInt64 :=
  min (req.ttlMs.getD policy.security.maxTtlMs) policy.security.maxTtlMs

def checkExpiry (utcNow : Int) (req : JsonRpcRequest) : AgentM ε Unit :=
  match req.ts with
  | some ts =>
    match crates.parseFromRfc3339 ts with
    | .error e => answer (.fromAgentError req.id (.invalidRequest s!"bad ts: {e}"))
    | .ok issued =>
      let ttlMs := requestTtl policy req
      match deadline crates issued ttlMs with
      | .error e => throw (.panicked e)
      | .ok deadline =>
        if utcNow > deadline then do
          audit req.method "expired" ""
          answer (.fromAgentError req.id (.requestExpired s!"issued {ts}, ttl {ttlMs}ms"))
        else
          return ()
  | none =>
    if policy.security.requireRequestExpiry then
      answer (.fromAgentError req.id
        (.requestExpired "policy requires ts/ttl_ms on mutating requests"))
    else
      return ()

def checkNonce (req : JsonRpcRequest) : AgentM ε Unit :=
  match req.nonce with
  | none => return ()
  | some nonce => do
    let fresh ← modifyGet fun s =>
      let (fresh, replay) := s.replay.nonceFresh nonce policy.security.nonceCacheSize
      (fresh, { s with replay })
    if fresh then
      return ()
    else
      audit req.method "replay" ""
      answer (.fromAgentError req.id (.replayDetected s!"nonce {nonce} already used"))

def checkIdempotent (now : Nat) (req : JsonRpcRequest) : AgentM ε Unit :=
  match req.idempotencyKey with
  | none => return ()
  | some key => do
    let cached ← modifyGet fun s =>
      let (cached, replay) := s.replay.idempotentGet key now
      (cached, { s with replay })
    match cached with
    | some resp => answer { resp with id := req.id }
    | none => return ()

def enforceSecurity (times : Times) (req : JsonRpcRequest) : AgentM ε Unit := do
  checkExpiry crates policy times.utc req
  checkNonce policy req
  checkIdempotent times.lookup req

def accept (times : Times) (bytes : Bytes) : AgentM ε JsonRpcRequest := do
  let req ← parse crates bytes
  authorize crates policy req
  if req.rpcMethod.isMutating then
    enforceSecurity crates policy times req
  return req

def settle (now : Nat) (req : JsonRpcRequest) (resp : JsonRpcResponse) : AgentM ε Unit := do
  if let some key := req.idempotencyKey then
    if resp.error.isNone then
      update fun s => { s with replay := s.replay.idempotentStore key resp now }
  audit req.method (if resp.error.isNone then "ok" else "error") (req.idempotencyKey.getD "")

def returning (x : AgentM ε JsonRpcResponse) : AgentM ε JsonRpcResponse :=
  tryCatch x fun
    | .answer resp => return resp
    | .panicked e => throw (.panicked e)

def handleOn (times : Times) (bytes : Bytes) (chan : Option ChannelHandle) :
    AgentM ε JsonRpcResponse :=
  returning do
    let req ← accept crates policy times bytes
    let resp ← dispatch crates guest policy req chan
    if req.rpcMethod.isMutating then
      settle times.store req resp
    return resp

def responseBytes (resp : JsonRpcResponse) : Bytes :=
  match crates.toVec resp.toValue with
  | .ok bytes => bytes
  | .error e =>
    match crates.toVec (JsonRpcResponse.ofError none .internalError s!"serialize: {e}").toValue with
    | .ok bytes => bytes
    | .error _ => []

def handleFrameOn (times : Times) (bytes : Bytes) (chan : Option ChannelHandle) :
    AgentM ε Bytes :=
  if isQgaRequest crates bytes then
    match extractRpcPassthrough crates bytes with
    | some inner => do
      let resp ← handleOn crates guest policy times inner chan
      return wrapQgaResponse crates resp
    | none => handle crates guest bytes
  else do
    let resp ← handleOn crates guest policy times bytes chan
    return responseBytes crates resp

end Guestkit.RequestHandler
