import Guestkit.Lib.Json

/-! The JSON-RPC messages of the agent: method names and their aliases, which methods change the
guest, requests, responses and errors. -/

namespace Guestkit

open Lib

inductive RpcMethod where
  | ping | getVersion | getCapabilities | getEvidence | getStatus | doctor | migrateScore
  | getMetrics | getFilesystem | exec | enableRdp | disableRdp | runFixPlan | runFixPlanRollback
  | getGuestHealth | getSystemdUnits | getFailedUnits | getBootAnalysis | getJournalSlice
  | getLoginState | getDnsState | getTimedateState | getSnapshotReadiness | freezeFilesystem
  | thawFilesystem | restartUnit | executeRemediationPlan | collectSupportBundle | getGuestInfo
  | getSystemdUnit | getSystemdEvents | getProcesses | getAgentHealth | subscribeEvents
  | unsubscribeEvents | getCpuStats | getMemoryStats | getPerformanceSummary
  | getPerformanceHistory | startUnit | stopUnit | getProcess | networkTest | networkConnections
  | securityPosture | storageRescan | storageTrim | storageExpand | fileRead | fileWrite
  | fileStat | fileList | fileChecksum | setTime | timeSyncNow | reboot | shutdown
  | snapshotPrepare | snapshotComplete | containersInventory | inventoryCacheWrite
  | integrityBaseline | integrityCheck | packagesInventory | packagesUpdates | packagesInstall
  | certificatesInventory | usersInventory | setHostname | setTimezone | setDns | migrationAssess
  | migrationPlan | migrationRepair | migrationPreCheck | migrationCutoverEnter
  | migrationCutoverExit | migrationValidate | baselineCapture | baselineDiff | netpolicyApply
  | netpolicyStatus | lsmApply | lsmStatus
  | unknown (name : String)
  deriving DecidableEq

namespace RpcMethod

def wireNames : List (String × RpcMethod) :=
  [("guestkit.ping", .ping), ("guestkit.getVersion", .getVersion),
   ("guestkit.getCapabilities", .getCapabilities), ("guestkit.getEvidence", .getEvidence),
   ("guestkit.getStatus", .getStatus), ("guestkit.doctor", .doctor),
   ("guestkit.migrateScore", .migrateScore), ("guestkit.getMetrics", .getMetrics),
   ("guestkit.getFilesystem", .getFilesystem), ("guestkit.exec", .exec),
   ("guestkit.enableRdp", .enableRdp), ("guestkit.disableRdp", .disableRdp),
   ("guestkit.runFixPlan", .runFixPlan), ("guestkit.runFixPlanRollback", .runFixPlanRollback),
   ("guestkit.getGuestHealth", .getGuestHealth), ("guestkit.getSystemdUnits", .getSystemdUnits),
   ("guestkit.getFailedUnits", .getFailedUnits), ("guestkit.getBootAnalysis", .getBootAnalysis),
   ("guestkit.getJournalSlice", .getJournalSlice), ("guestkit.getLoginState", .getLoginState),
   ("guestkit.getDnsState", .getDnsState), ("guestkit.getTimedateState", .getTimedateState),
   ("guestkit.getSnapshotReadiness", .getSnapshotReadiness),
   ("guestkit.freezeFilesystem", .freezeFilesystem),
   ("guestkit.thawFilesystem", .thawFilesystem), ("guestkit.restartUnit", .restartUnit),
   ("guestkit.executeRemediationPlan", .executeRemediationPlan),
   ("guestkit.collectSupportBundle", .collectSupportBundle),
   ("guestkit.getGuestInfo", .getGuestInfo), ("guestkit.getSystemdUnit", .getSystemdUnit),
   ("guestkit.getSystemdEvents", .getSystemdEvents), ("guestkit.getProcesses", .getProcesses),
   ("guestkit.getAgentHealth", .getAgentHealth), ("guestkit.subscribeEvents", .subscribeEvents),
   ("guestkit.unsubscribeEvents", .unsubscribeEvents), ("guestkit.getCpuStats", .getCpuStats),
   ("guestkit.getMemoryStats", .getMemoryStats),
   ("guestkit.getPerformanceSummary", .getPerformanceSummary),
   ("guestkit.getPerformanceHistory", .getPerformanceHistory),
   ("guestkit.startUnit", .startUnit), ("guestkit.stopUnit", .stopUnit),
   ("guestkit.getProcess", .getProcess), ("guestkit.networkTest", .networkTest),
   ("guestkit.network.connections", .networkConnections),
   ("guestkit.security.posture", .securityPosture), ("guestkit.storageRescan", .storageRescan),
   ("guestkit.storageTrim", .storageTrim), ("guestkit.storageExpand", .storageExpand),
   ("guestkit.fileRead", .fileRead), ("guestkit.fileWrite", .fileWrite),
   ("guestkit.fileStat", .fileStat), ("guestkit.fileList", .fileList),
   ("guestkit.fileChecksum", .fileChecksum), ("guestkit.setTime", .setTime),
   ("guestkit.timeSyncNow", .timeSyncNow), ("guestkit.reboot", .reboot),
   ("guestkit.shutdown", .shutdown), ("guestkit.snapshot.prepare", .snapshotPrepare),
   ("guestkit.snapshot.complete", .snapshotComplete),
   ("guestkit.containers.inventory", .containersInventory),
   ("guestkit.integrity.baseline", .integrityBaseline),
   ("guestkit.integrity.check", .integrityCheck),
   ("guestkit.inventory.cacheSnapshot", .inventoryCacheWrite),
   ("guestkit.packages.inventory", .packagesInventory),
   ("guestkit.packages.updates", .packagesUpdates),
   ("guestkit.packages.install", .packagesInstall),
   ("guestkit.certificates.inventory", .certificatesInventory),
   ("guestkit.users.inventory", .usersInventory), ("guestkit.system.setHostname", .setHostname),
   ("guestkit.system.setTimezone", .setTimezone), ("guestkit.system.setDns", .setDns),
   ("guestkit.migration.assess", .migrationAssess), ("guestkit.migration.plan", .migrationPlan),
   ("guestkit.migration.repair", .migrationRepair),
   ("guestkit.migration.preCheck", .migrationPreCheck),
   ("guestkit.migration.cutoverEnter", .migrationCutoverEnter),
   ("guestkit.migration.cutoverExit", .migrationCutoverExit),
   ("guestkit.migration.validate", .migrationValidate),
   ("guestkit.baseline.capture", .baselineCapture), ("guestkit.baseline.diff", .baselineDiff),
   ("guestkit.netpolicy.apply", .netpolicyApply),
   ("guestkit.netpolicy.status", .netpolicyStatus), ("guestkit.lsm.apply", .lsmApply),
   ("guestkit.lsm.status", .lsmStatus)]

def aliases : List (String × RpcMethod) :=
  [("agent.ping", .ping), ("agent.info", .getVersion), ("agent.capabilities", .getCapabilities),
   ("agent.health", .getAgentHealth), ("inventory.os", .getEvidence),
   ("inventory.full", .getEvidence), ("cpu.stats", .getCpuStats),
   ("memory.stats", .getMemoryStats), ("performance.summary", .getPerformanceSummary),
   ("performance.history", .getPerformanceHistory), ("process.list", .getProcesses),
   ("process.inspect", .getProcess), ("service.list", .getSystemdUnits),
   ("service.inspect", .getSystemdUnit), ("service.start", .startUnit),
   ("service.stop", .stopUnit), ("service.restart", .restartUnit),
   ("network.test", .networkTest), ("network.connections", .networkConnections),
   ("network.listeners", .networkConnections), ("security.posture", .securityPosture),
   ("containers.inventory", .containersInventory), ("containers.list", .containersInventory),
   ("integrity.baseline", .integrityBaseline),
   ("security.integrity.baseline", .integrityBaseline), ("integrity.check", .integrityCheck),
   ("security.integrity.check", .integrityCheck), ("inventory.cache", .inventoryCacheWrite),
   ("packages.inventory", .packagesInventory), ("packages.list", .packagesInventory),
   ("packages.updates", .packagesUpdates), ("packages.install", .packagesInstall),
   ("certificates.inventory", .certificatesInventory),
   ("certificates.list", .certificatesInventory), ("users.inventory", .usersInventory),
   ("users.list", .usersInventory), ("customization.hostname", .setHostname),
   ("customization.timezone", .setTimezone), ("customization.dns", .setDns),
   ("storage.rescan", .storageRescan), ("storage.trim", .storageTrim),
   ("storage.expand", .storageExpand), ("file.read", .fileRead), ("file.write", .fileWrite),
   ("file.stat", .fileStat), ("file.list", .fileList), ("file.checksum", .fileChecksum),
   ("system.time.set", .setTime), ("system.time.sync", .timeSyncNow), ("system.reboot", .reboot),
   ("system.shutdown", .shutdown), ("snapshot.prepare", .snapshotPrepare),
   ("snapshot.preflight", .snapshotPrepare), ("snapshot.complete", .snapshotComplete),
   ("snapshot.freeze", .freezeFilesystem), ("snapshot.thaw", .thawFilesystem),
   ("migration.assess", .migrationAssess), ("migration.plan", .migrationPlan),
   ("migration.validate", .migrationValidate), ("support.collect", .collectSupportBundle),
   ("netpolicy.apply", .netpolicyApply), ("netpolicy.status", .netpolicyStatus),
   ("lsm.apply", .lsmApply), ("lsm.status", .lsmStatus)]

def parseAlias (name : String) : RpcMethod :=
  (aliases.lookup name).getD (.unknown name)

def parse (name : String) : RpcMethod :=
  match wireNames.lookup name with
  | some method => method
  | none => parseAlias name

/-- Only these have expiry and replays checked. -/
def isMutating : RpcMethod → Bool
  | .exec | .enableRdp | .disableRdp | .runFixPlan | .runFixPlanRollback | .freezeFilesystem
  | .thawFilesystem | .restartUnit | .executeRemediationPlan | .startUnit | .stopUnit
  | .storageRescan | .storageTrim | .storageExpand | .fileWrite | .setTime | .timeSyncNow
  | .reboot | .shutdown | .migrationRepair | .snapshotPrepare | .snapshotComplete
  | .packagesInstall | .setHostname | .setTimezone | .setDns | .inventoryCacheWrite
  | .integrityBaseline | .migrationCutoverEnter | .migrationCutoverExit | .subscribeEvents
  | .unsubscribeEvents | .netpolicyApply | .lsmApply => true
  | _ => false

end RpcMethod

inductive RpcErrorCode where
  | parseError | invalidRequest | methodNotFound | invalidParams | internalError | notImplemented
  | capabilityDenied | planApplyFailed | requestExpired | replayDetected | policyDenied
  deriving DecidableEq

def RpcErrorCode.asI32 : RpcErrorCode → Int
  | parseError => -32700
  | invalidRequest => -32600
  | methodNotFound => -32601
  | invalidParams => -32602
  | internalError => -32603
  | notImplemented => -32000
  | capabilityDenied => -32001
  | planApplyFailed => -32002
  | requestExpired => -32003
  | replayDetected => -32004
  | policyDenied => -32005

inductive AgentError where
  | parse (what : String)
  | invalidRequest (what : String)
  | capabilityDenied (what : String)
  | requestExpired (what : String)
  | replayDetected (what : String)
  | policyDenied (what : String)
  deriving DecidableEq

namespace AgentError

def rpcCode : AgentError → RpcErrorCode
  | parse _ => .parseError
  | invalidRequest _ => .invalidRequest
  | capabilityDenied _ => .capabilityDenied
  | requestExpired _ => .requestExpired
  | replayDetected _ => .replayDetected
  | policyDenied _ => .policyDenied

def message : AgentError → String
  | parse what => s!"JSON parse error: {what}"
  | invalidRequest what => s!"invalid request: {what}"
  | capabilityDenied what => s!"capability denied: {what}"
  | requestExpired what => s!"request expired: {what}"
  | replayDetected what => s!"replay detected: {what}"
  | policyDenied what => s!"policy denied: {what}"

end AgentError

structure JsonRpcRequest where
  jsonrpc : String
  method : String
  params : Json
  id : Option Json
  ts : Option String
  ttlMs : Option UInt64
  nonce : Option String
  idempotencyKey : Option String

namespace JsonRpcRequest

def validate (req : JsonRpcRequest) : Except AgentError Unit :=
  if req.jsonrpc ≠ "2.0" then
    .error (.invalidRequest s!"unsupported jsonrpc version: {req.jsonrpc}")
  else if req.method.isEmpty then
    .error (.invalidRequest "missing method")
  else
    .ok ()

def rpcMethod (req : JsonRpcRequest) : RpcMethod :=
  .parse req.method

end JsonRpcRequest

structure JsonRpcErrorObject where
  code : Int
  message : String
  data : Option Json

structure JsonRpcResponse where
  jsonrpc : String
  result : Option Json
  error : Option JsonRpcErrorObject
  id : Option Json

namespace JsonRpcResponse

def success (id : Option Json) (result : Json) : JsonRpcResponse :=
  { jsonrpc := "2.0", result := some result, error := none, id }

def ofError (id : Option Json) (code : RpcErrorCode) (message : String) : JsonRpcResponse :=
  { jsonrpc := "2.0", result := none, error := some { code := code.asI32, message, data := none },
    id }

def fromAgentError (id : Option Json) (err : AgentError) : JsonRpcResponse :=
  ofError id err.rpcCode err.message

def optional (key : String) (v : Option Json) : List (String × Json) :=
  v.toList.map fun v => (key, v)

def toValue (resp : JsonRpcResponse) : Json :=
  let error := resp.error.map fun err =>
    Json.object ([("code", .number (.negInt (.ofInt err.code))),
      ("message", .string err.message)] ++
      optional "data" err.data)
  .object ([("jsonrpc", .string resp.jsonrpc)] ++ optional "result" resp.result ++
    optional "error" error ++ [("id", resp.id.getD .null)])

end JsonRpcResponse

end Guestkit
