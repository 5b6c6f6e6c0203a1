import Guestkit.Lib.Program

/-! Freezing and thawing the filesystems of the guest, with everything that the cutover and snapshot
calls of the agent share: the flags that say whether the filesystems are frozen, the marker file of
a cutover, the record of the active snapshot, and the watchdog threads.  On Windows, the place of a
freeze is taken by a shadow copy. -/

namespace Guestkit.Freeze

open Lib

variable {outcome : Outcome} {α : Type}

structure CutoverState where
  active : Bool
  enteredAt : Option String
  frozen : Bool
  watchdogDeadline : Option String
  stoppedServices : List String
  deriving DecidableEq

structure CutoverParams where
  stopServices : List String := []
  freeze : Bool := false
  watchdogSecs : Option UInt64 := none
  deriving DecidableEq

structure VssSnapshotResult where
  created : Bool := false
  shadowId : Option String := none
  writersTotal : ℕ := 0
  writersFailed : List String := []
  appConsistent : Bool := false
  detail : Option String := none
  deriving DecidableEq

inductive Plugin where
  | postgres
  | mysql
  | redis
  | hookDir
  deriving DecidableEq

def Plugin.name : Plugin → String
  | postgres => "postgresql"
  | mysql => "mysql"
  | redis => "redis"
  | hookDir => "custom-hooks"

def builtinPlugins : List Plugin := [.postgres, .mysql, .redis, .hookDir]

/-- `ActiveSnapshot`, with the number of the call that prepared it. -/
structure ActiveSnapshot where
  no : ℕ
  snapshotId : String
  frozen : Bool
  vssShadow : Option String
  quiescedPlugins : List String
  appConsistent : Bool
  deriving DecidableEq

/-- The calls and the watchdog threads.  The calls that can freeze are numbered, and a watchdog has
the number of the call that armed it; the code does not know these numbers. -/
inductive Call where
  | enterCutover (no : ℕ) (params : CutoverParams)
  | exitCutover
  | recoverCutoverState
  | cutoverWatchdog (no due : ℕ)
  | prepare (no : ℕ) (watchdogSecs : Option UInt64)
  | complete
  | snapshotWatchdog (no : ℕ) (watchdogId : String) (due : ℕ)
  deriving DecidableEq

/-- What the calls do to the guest and to the state of the agent, and what they ask.  The marker
file is read and parsed at once. -/
inductive Op where
  | controlUnit (op unit : String)
  | fsfreeze (thaw : Bool)
  | createMarkerShadow (volume : String)
  | deleteMarkerShadow (id : String)
  | setShadowId (id : Option String)
  | takeShadowId
  | setFsFrozen (value : Bool)
  | getFsFrozen
  | setHint (value : Bool)
  | getHint
  | utcNow (plusSecs : ℕ)
  | utcStamp
  | createStateDir
  | readMarker
  | writeMarker (state : CutoverState)
  | removeMarker
  | armWatchdog (no secs : ℕ)
  | sleepUntil (due : ℕ)
  | snapshotActive
  | discover (plugin : Plugin)
  | quiesce (no : ℕ) (plugin : Plugin)
  | resume (no : ℕ) (plugin : Plugin)
  | record (snapshot : ActiveSnapshot)
  | armSnapshotWatchdog (no : ℕ) (watchdogId : String) (secs : ℕ)
  | isActive (id : String)
  | takeActive
  deriving DecidableEq

@[reducible] def Op.Reply : Op → Type
  | controlUnit .. | deleteMarkerShadow _ | quiesce .. | resume .. => Except String String
  | fsfreeze _ | createStateDir | writeMarker _ => Except String Unit
  | createMarkerShadow _ => Except String VssSnapshotResult
  | takeShadowId => Option String
  | getFsFrozen | getHint | snapshotActive | discover _ | isActive _ => Bool
  | utcNow _ | utcStamp => String
  | readMarker => Option CutoverState
  | takeActive => Option ActiveSnapshot
  | setShadowId _ | setFsFrozen _ | setHint _ | removeMarker | armWatchdog .. | sleepUntil _ |
    record _ | armSnapshotWatchdog .. => Unit

abbrev Task (α : Type) : Type := Program Op Op.Reply α

abbrev perform (op : Op) : Task op.Reply := Program.perform op

/-- What an operation meets with outside the agent: whether it fails, and what it is told.  A write
that fails may have emptied the file already (`yes`). -/
structure Outcome where
  error : Option String := none
  text : String := ""
  yes : Bool := false
  vss : VssSnapshotResult := {}

def Outcome.failed (outcome : Outcome) : Bool := outcome.error.isSome

def Outcome.result {α : Type} (outcome : Outcome) (value : α) : Except String α :=
  match outcome.error with
  | some e => .error e
  | none => .ok value

/-- The state that the threads of the agent share, with the guest around it.  The time is in
nanoseconds.  `marker` is `none` if there is no file that can be parsed.  `spawned` are the watchdog
threads that have not begun to run.  `calls`, `quiesced` and `resumed` only record what happened. -/
structure Shared where
  now : ℕ := 0
  down : Bool := true
  frozen : Bool := false
  fsFrozen : Bool := false
  hint : Bool := false
  shadowId : Option String := none
  marker : Option CutoverState := none
  active : Option ActiveSnapshot := none
  spawned : List Call := []
  calls : ℕ := 0
  quiesced : List (ℕ × Plugin) := []
  resumed : List (ℕ × Plugin) := []

/-- The platform, and whether the state directory is on the filesystem that is frozen, so that
changes to it wait until it is thawed. -/
structure System where
  windows : Bool := false
  stateOnRoot : Bool := false

def second : ℕ := 1000000000

def waits (sys : System) (s : Shared) : Op → Bool
  | .createStateDir | .writeMarker _ | .removeMarker => sys.stateOnRoot && s.frozen
  | .sleepUntil due => s.now < due
  | _ => false

def reply (outcome : Outcome) (s : Shared) : (op : Op) → op.Reply
  | .controlUnit .. | .deleteMarkerShadow _ | .quiesce .. | .resume .. =>
    outcome.result outcome.text
  | .fsfreeze _ | .createStateDir | .writeMarker _ => outcome.result ()
  | .createMarkerShadow _ => outcome.result outcome.vss
  | .takeShadowId => s.shadowId
  | .getFsFrozen => s.fsFrozen
  | .getHint => s.hint
  | .snapshotActive => s.active.isSome
  | .discover _ => outcome.yes
  | .isActive id => (s.active.map fun a => a.snapshotId == id).getD false
  | .utcNow _ | .utcStamp => outcome.text
  | .readMarker => if outcome.failed then none else s.marker
  | .takeActive => s.active
  | .setShadowId _ | .setFsFrozen _ | .setHint _ | .removeMarker | .armWatchdog .. | .sleepUntil _ |
    .record _ | .armSnapshotWatchdog .. => ()

def effect (outcome : Outcome) (s : Shared) : Op → Shared
  | .fsfreeze thaw => { s with frozen := if outcome.failed then s.frozen else !thaw }
  | .setShadowId id => { s with shadowId := id }
  | .takeShadowId => { s with shadowId := none }
  | .setFsFrozen value => { s with fsFrozen := value }
  | .setHint value => { s with hint := value }
  | .writeMarker state =>
    { s with marker :=
        if outcome.failed then (if outcome.yes then none else s.marker) else some state }
  | .removeMarker => { s with marker := if outcome.failed then s.marker else none }
  | .armWatchdog no secs =>
    { s with spawned := .cutoverWatchdog no (s.now + secs * second) :: s.spawned }
  | .quiesce no plugin =>
    { s with quiesced := if outcome.failed then s.quiesced else (no, plugin) :: s.quiesced }
  | .resume no plugin => { s with resumed := (no, plugin) :: s.resumed }
  | .record snapshot => { s with active := some snapshot }
  | .armSnapshotWatchdog no id secs =>
    { s with spawned := .snapshotWatchdog no id (s.now + secs * second) :: s.spawned }
  | .takeActive => { s with active := none }
  | .controlUnit .. | .createMarkerShadow _ | .deleteMarkerShadow _ | .getFsFrozen | .getHint |
    .utcNow _ | .utcStamp | .createStateDir | .readMarker | .sleepUntil _ | .snapshotActive |
    .discover _ | .isActive _ => s

def exec (sys : System) (op : Op) (outcome : Outcome) (s : Shared) : Option (op.Reply × Shared) :=
  if waits sys s op then none else some (reply outcome s op, effect outcome s op)

theorem exec_eq_some_iff {sys : System} {op : Op} {s s' : Shared} {value : op.Reply} :
    exec sys op outcome s = some (value, s') ↔
      waits sys s op = false ∧ reply outcome s op = value ∧ effect outcome s op = s' := by
  unfold exec
  cases waits sys s op <;> simp

theorem Outcome.result_cases (outcome : Outcome) (value : α) :
    (outcome.failed = true ∧ ∃ e, outcome.result value = .error e) ∨
      (outcome.failed = false ∧ outcome.result value = .ok value) := by
  unfold failed result
  cases outcome.error with
  | some e => exact .inl ⟨rfl, e, rfl⟩
  | none => exact .inr ⟨rfl, rfl⟩

theorem Outcome.failed_of_error {value : α} {e : String} (h : outcome.result value = .error e) :
    outcome.failed = true := by
  obtain ⟨hfailed, -⟩ | ⟨-, hok⟩ := outcome.result_cases value
  · exact hfailed
  · rw [hok] at h
    cases h

theorem Outcome.not_failed_of_ok {value value' : α} (h : outcome.result value = .ok value') :
    outcome.failed = false := by
  obtain ⟨-, e, he⟩ | ⟨hfailed, -⟩ := outcome.result_cases value
  · rw [he] at h
    cases h
  · exact hfailed

/-- When a call or a watchdog thread can begin.  An agent that starts recovers first. -/
def arrive (call : Call) (s : Shared) : Option Shared :=
  match call with
  | .recoverCutoverState => if s.down then some { s with down := false } else none
  | .enterCutover no _ | .prepare no _ =>
    if !s.down && no == s.calls then some { s with calls := s.calls + 1 } else none
  | .exitCutover | .complete => if s.down then none else some s
  | .cutoverWatchdog .. | .snapshotWatchdog .. =>
    if call ∈ s.spawned then some { s with spawned := s.spawned.erase call } else none

/-- What a crash of the agent leaves: the filesystems as they are, and the marker. -/
def crash (s : Shared) : Shared :=
  { s with
    down := true, fsFrozen := false, hint := false, shadowId := none, active := none
    spawned := [] }

section Programs

variable (windows : Bool)

def guestFsfreezeFreeze : Task (Except String Unit) := do
  if windows then
    match ← perform (.createMarkerShadow "C:") with
    | .error e => return .error s!"VSS freeze failed: {e}"
    | .ok result =>
      perform (.setShadowId result.shadowId)
      perform (.setFsFrozen true)
      return .ok ()
  else
    match ← perform (.fsfreeze false) with
    | .error e => return .error e
    | .ok _ =>
      perform (.setFsFrozen true)
      return .ok ()

def guestFsfreezeThaw : Task (Except String Unit) := do
  if windows then
    match ← perform .takeShadowId with
    | some id =>
      match ← perform (.deleteMarkerShadow id) with
      | .error e => return .error s!"VSS cleanup: {e}"
      | .ok _ =>
        perform (.setFsFrozen false)
        return .ok ()
    | none =>
      perform (.setFsFrozen false)
      return .ok ()
  else
    match ← perform (.fsfreeze true) with
    | .error e => return .error e
    | .ok _ =>
      perform (.setFsFrozen false)
      return .ok ()

def freezeFilesystems : Task (Except String String) := do
  match ← guestFsfreezeFreeze windows with
  | .error e => return .error s!"freeze failed: {e}"
  | .ok _ =>
    perform (.setHint true)
    return .ok "filesystems frozen"

def thawFilesystems : Task (Except String String) := do
  match ← guestFsfreezeThaw windows with
  | .error e => return .error s!"thaw failed: {e}"
  | .ok _ =>
    perform (.setHint false)
    return .ok "filesystems thawed"

def fsFrozen : Task Bool := do
  if ← perform .getHint then return true
  else perform .getFsFrozen

end Programs

end Guestkit.Freeze
