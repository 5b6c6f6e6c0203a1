import Guestkit.Agent.Freeze

/-! The cutover part of `workflow.rs`: entering and leaving maintenance, the watchdog that thaws at
the deadline, and the recovery when the agent starts. -/

namespace Guestkit.Freeze

open Lib

def defaultWatchdogSecs : UInt64 := 120

def maxWatchdogSecs : ℕ := 600

def watchdogDelay (secs : Option UInt64) : ℕ :=
  max 10 (min (secs.getD defaultWatchdogSecs).toNat maxWatchdogSecs)

def controlUnits (op : String) : List String → Task (List String)
  | [] => return []
  | service :: services => do
    match ← perform (.controlUnit op service) with
    | .ok _ => return service :: (← controlUnits op services)
    | .error _ => controlUnits op services

/-- The marker is persisted before `enter_cutover` returns. -/
def save (state : CutoverState) : Task (Except String CutoverState) := do
  match ← perform .createStateDir with
  | .error e => return .error e
  | .ok _ =>
    match ← perform (.writeMarker state) with
    | .error e => return .error e
    | .ok _ => return .ok state

def persist (frozen : Bool) (watchdogDeadline : Option String) (stoppedServices : List String) :
    Task (Except String CutoverState) := do
  let enteredAt ← perform (.utcNow 0)
  save { active := true, enteredAt := some enteredAt, frozen, watchdogDeadline, stoppedServices }

section Programs

variable (windows : Bool)

def freezeAndPersist (no secs : ℕ) (stopped : List String) : Task (Except String CutoverState) := do
  match ← freezeFilesystems windows with
  | .error e => return .error s!"freeze: {e}"
  | .ok _ =>
    let deadline ← perform (.utcNow secs)
    perform (.armWatchdog no secs)
    persist true (some deadline) stopped

def enterCutover (no : ℕ) (params : CutoverParams) : Task (Except String CutoverState) := do
  let secs := watchdogDelay params.watchdogSecs
  let stopped ← controlUnits "stop" params.stopServices
  if params.freeze then freezeAndPersist windows no secs stopped
  else persist false none stopped

def clearMarkerFrozen : Task (Except String Unit) := do
  match ← perform .readMarker with
  | none => return .ok ()
  | some state => perform (.writeMarker { state with frozen := false, watchdogDeadline := none })

def cutoverWatchdog (due : ℕ) : Task Unit := do
  perform (.sleepUntil due)
  if ← fsFrozen then
    let _ ← thawFilesystems windows
    let _ ← clearMarkerFrozen
  return ()

def recoverCutoverState : Task Unit := do
  match ← perform .readMarker with
  | none => return ()
  | some state =>
    if state.frozen then
      let _ ← thawFilesystems windows
      let _ ← clearMarkerFrozen
    return ()

def restart (previous : Option CutoverState) : Task CutoverState := do
  let restarted ← controlUnits "start" ((previous.map (·.stoppedServices)).getD [])
  perform .removeMarker
  return { active := false, enteredAt := previous.bind (·.enteredAt), frozen := false,
           watchdogDeadline := none, stoppedServices := restarted }

def exitCutover : Task (Except String CutoverState) := do
  let previous ← perform .readMarker
  if ← fsFrozen then
    match ← thawFilesystems windows with
    | .error e => return .error s!"thaw: {e}"
    | .ok _ => return .ok (← restart previous)
  else return .ok (← restart previous)

end Programs

end Guestkit.Freeze
