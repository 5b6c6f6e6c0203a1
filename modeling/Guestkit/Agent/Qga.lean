import Guestkit.Agent.Runtime
import Guestkit.Plan.ExecutorLive

/-! The commands of the QEMU guest agent protocol that the agent understands. -/

namespace Guestkit.Qga

open Lib AgentRuntime

variable {ε : Type} (crates : Crates) (guest : Guest ε)

variable (args : Json)

def execArgs : List String :=
  (((args.get "arg").bind Json.asArray).getD []).filterMap Json.asStr

def execSync : CallM ε Json :=
  match (args.get "path").bind Json.asStr with
  | none => throw "missing path"
  | some path => mapError (fun e => s!"exec: {e}") (call guest (.exec path (execArgs args)))

def i64Or (default : UInt64) : Option Json → Json
  | some v => if v.asI64.isSome then v else .number (.posInt default)
  | none => .number (.posInt default)

def encodedOutput (key source : String) (inner : Json) : List (String × Json) :=
  match (inner.get source).bind Json.asStr with
  | some text => if text.isEmpty then [] else [(key, .string (crates.encode text))]
  | none => []

def execSyncQga : CallM ε Json := do
  let inner ← execSync guest args
  return .object ([("exited", .bool true), ("exitcode", i64Or 1 (inner.get "exitcode"))] ++
    encodedOutput crates "out-data" "stdout" inner ++
    encodedOutput crates "err-data" "stderr" inner)

/-- Without `capture-output`, the job counts as exited with 0 from the start. -/
def guestExec : CallM ε Json :=
  match (args.get "path").bind Json.asStr with
  | none => throw "missing path"
  | some path => do
    let capture := ((args.get "capture-output").bind Json.asBool).getD false
    let pid := (← get).nextPid
    update fun s => { s with nextPid := s.nextPid + 1 }
    let program := GuestCall.exec path (execArgs args)
    let job ←
      if capture then
        mapError (fun e => s!"exec: {e}") (call guest program)
      else do
        let _ ← mapError (fun e => s!"spawn: {e}") (call guest program)
        pure (.object [("exited", .bool true), ("exitcode", .number (.posInt 0))])
    update fun s => { s with execJobs := s.execJobs.insert pid job }
    return .object [("pid", .number (.posInt pid))]

def guestExecStatus : CallM ε Json :=
  match (args.get "pid").bind Json.asU64 with
  | none => throw "missing pid"
  | some pid => do
    match (← get).execJobs.lookup pid with
    | none => throw s!"unknown pid {pid}"
    | some job => return job

def guestSync : CallM ε Json :=
  return i64Or 0 (args.get "id")

def guestSyncDelimited : CallM ε Json := do
  update fun s => { s with delimitedResponse := true }
  guestSync args

def nineDigits (n : Nat) : String :=
  "".pushn '0' (9 - (toString n).length) ++ toString n

def dateScript (secs nanos : UInt64) : String :=
  s!"date -u --set=@{secs}." ++ nineDigits (nanos.toNat % 1000000000)

def guestSetTime : CallM ε Json :=
  match (args.get "time").bind Json.asU64 with
  | none => throw "missing time"
  | some secs => do
    let nanos := ((args.get "nanoseconds").bind Json.asU64).getD 0
    let _ ← call guest (.setTime (dateScript secs nanos))
    return .object []

def guestFstrim : CallM ε Json :=
  mapError (fun e => s!"fstrim: {e}") (call guest (.fstrim ["-a", "-v"]))

def guestFsfreezeStatus : CallM ε Json := do
  return .string (if (← get).fsFrozen then "frozen" else "thawed")

def guestFsfreezeFreeze : CallM ε Json :=
  if guest.windows then do
    let result ← mapError (fun e => s!"VSS freeze failed: {e}")
      (call guest (.createMarkerShadow "C:"))
    update fun s =>
      { s with vssShadowId := (result.get "shadow_id").bind Json.asStr, fsFrozen := true }
    return .number (.posInt 1)
  else do
    let _ ← call guest (.fsfreeze false)
    update fun s => { s with fsFrozen := true }
    return .number (.posInt 1)

/-- On Windows the shadow copy is forgotten even if it cannot be deleted. -/
def guestFsfreezeThaw : CallM ε Json :=
  if guest.windows then do
    let shadowId := (← get).vssShadowId
    update fun s => { s with vssShadowId := none }
    if let some id := shadowId then
      let _ ← mapError (fun e => s!"VSS cleanup: {e}") (call guest (.deleteMarkerShadow id))
    update fun s => { s with fsFrozen := false }
    return .number (.posInt 1)
  else do
    let _ ← call guest (.fsfreeze true)
    update fun s => { s with fsFrozen := false }
    return .number (.posInt 1)

def shutdownScript (mode : String) : String :=
  if mode = "halt" then "systemctl halt" else "systemctl poweroff"

def guestShutdown : CallM ε Json := do
  let mode := ((args.get "mode").bind Json.asStr).getD "powerdown"
  let _ ← mapError (fun e => s!"shutdown: {e}") (call guest (.powerOff (shutdownScript mode)))
  return .object []

def guestReboot : CallM ε Json := do
  let _ ← tryCatch (call guest (.reboot "systemctl" ["reboot"])) fun _ =>
    mapError (fun e => s!"reboot: {e}") (call guest (.reboot "reboot" []))
  return .object []

def planReport (plan : Plan.FixPlan) (dryRun : Bool) (result : Json) : Json :=
  .object [("plan_id", .string (Plan.planIdFor plan)), ("dry_run", .bool dryRun),
    ("result", result)]

def guestkitRunFixPlan : CallM ε Json :=
  match args.get "plan" with
  | none => throw "missing required argument: plan"
  | some planValue =>
    match crates.fixPlan planValue with
    | .error e => throw s!"invalid plan: {e}"
    | .ok plan => do
      let dryRun := ((args.get "dry_run").bind Json.asBool).getD false
      let result ← call guest (.applyPlan dryRun plan)
      return planReport plan dryRun result

def enableRdp : CallM ε Json :=
  if guest.windows then call guest .enableRdp
  else throw "enableRdp is only supported on Windows guests"

def disableRdp : CallM ε Json :=
  if guest.windows then call guest .disableRdp
  else throw "disableRdp is only supported on Windows guests"

def inspections : List String :=
  ["guest-info", "guest-get-osinfo", "guest-get-fsinfo", "guest-get-users", "guest-get-timezone",
   "guest-get-time", "guest-network-get-interfaces", "guest-get-host-name",
   "guestkit-get-evidence", "guestkit-doctor", "guestkit-get-capabilities",
   "guestkit-get-version", "guestkit-migrate-score", "guestkit-get-metrics",
   "guestkit-get-filesystem", "guestkit-get-guest-health", "guestkit-get-guest-info",
   "guestkit-get-systemd-units", "guestkit-get-systemd-unit", "guestkit-get-systemd-events",
   "guestkit-get-processes", "guestkit-get-journal-slice", "guestkit-get-failed-units",
   "guestkit-get-boot-analysis", "guestkit-get-login-state", "guestkit-get-dns-state"]

def execute (command : String) (args : Json) : CallM ε Json :=
  match command with
  | "guest-ping" => return .object []
  | "guest-sync" => guestSync args
  | "guest-sync-delimited" => guestSyncDelimited args
  | "guest-set-time" => guestSetTime guest args
  | "guest-fstrim" => guestFstrim guest
  | "guest-fsfreeze-status" => guestFsfreezeStatus
  | "guest-fsfreeze-freeze" => guestFsfreezeFreeze guest
  | "guest-fsfreeze-thaw" => guestFsfreezeThaw guest
  | "guest-exec" => guestExec guest args
  | "guest-exec-status" => guestExecStatus args
  | "guest-shutdown" => guestShutdown guest args
  | "guest-reboot" => guestReboot guest
  | "guestkit-run-fix-plan" => guestkitRunFixPlan crates guest args
  | "guestkit-get-snapshot-readiness" => call guest .snapshotReadiness
  | "guestkit-exec" => execSyncQga crates guest args
  | "guestkit-enable-rdp" => enableRdp guest
  | "guestkit-disable-rdp" => disableRdp guest
  | "guest-suspend-disk" | "guest-suspend-ram" | "guest-suspend-hybrid" => return .object []
  | other =>
    if other ∈ inspections then look (guest.qgaCollect other args)
    else throw s!"unsupported QGA command: {other}"

def command (req : Json) : Option String := (req.get "execute").bind Json.asStr

def isQgaRequest (bytes : Bytes) : Bool :=
  match crates.fromSlice bytes with
  | .ok v => (command v).isSome
  | .error _ => false

def toVecOr (fallback : String) (v : Json) : Bytes :=
  match crates.toVec v with
  | .ok bytes => bytes
  | .error _ => fallback.toUTF8.toList

def withId (id : Option Json) (field : String × Json) : Json :=
  .object (field :: id.toList.map fun i => ("id", i))

def qgaOk (id : Option Json) (ret : Json) : Bytes :=
  toVecOr crates "\x7b\"return\":\x7b\x7d\x7d" (withId id ("return", ret))

def qgaError (id : Option Json) (desc : String) : Bytes :=
  toVecOr crates "\x7b\"error\":\x7b\"class\":\"GenericError\",\"desc\":\"error\"\x7d\x7d"
    (withId id ("error", .object [("class", .string "GenericError"), ("desc", .string desc)]))

def handle (bytes : Bytes) : AgentM ε Bytes :=
  match crates.fromSlice bytes with
  | .error e => return qgaError crates none s!"invalid JSON: {e}"
  | .ok req =>
    match command req with
    | none => return qgaError crates (req.get "id") "missing execute"
    | some cmd => fun s =>
      match execute crates guest cmd ((req.get "arguments").getD (.object [])) s with
      | .ok ret s => .ok (qgaOk crates (req.get "id") ret) s
      | .error msg s => .ok (qgaError crates (req.get "id") msg) s

def extractRpcPassthrough (bytes : Bytes) : Option Bytes :=
  match crates.fromSlice bytes with
  | .error _ => none
  | .ok req =>
    if command req ≠ some "guestkit-rpc" then none
    else
      let args := (req.get "arguments").getD (.object [])
      match (args.get "method").bind Json.asStr with
      | none => none
      | some method =>
        let params := (args.get "params").getD (.object [])
        let id := (args.get "id").getD (.number (.posInt 1))
        (crates.toVec (.object [("jsonrpc", .string "2.0"), ("id", id),
          ("method", .string method), ("params", params)])).toOption

def wrapQgaResponse (resp : JsonRpcResponse) : Bytes :=
  match resp.error with
  | some err => qgaError crates resp.id err.message
  | none => qgaOk crates resp.id (resp.result.getD .null)

end Guestkit.Qga
