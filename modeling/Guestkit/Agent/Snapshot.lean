import Guestkit.Migration.Workflow

/-! Application-consistent snapshots: `prepare` quiesces the applications and freezes, `complete`
undoes both, and a watchdog completes if the host does not.  Then the calls of the agent that freeze
and thaw are put together, as the programs of one machine. -/

namespace Guestkit.Freeze

open Lib List Option

structure PluginReport where
  plugin : String
  discovered : Bool
  quiesced : Bool
  resumed : Bool
  detail : Option String
  deriving DecidableEq

structure SnapshotPrepareReport where
  snapshotId : String
  preparedAt : String
  mechanism : String
  fsFrozen : Bool
  appConsistent : Bool
  plugins : List PluginReport
  vss : Option VssSnapshotResult
  watchdogSecs : ℕ
  deriving DecidableEq

structure SnapshotCompleteReport where
  snapshotId : String
  completedAt : String
  thawed : Bool
  pluginsResumed : List PluginReport
  consistency : String
  deriving DecidableEq

structure Quiesced where
  reports : List PluginReport := []
  quiesced : List String := []
  allAppsOk : Bool := true

def quiescePlugin (no : ℕ) (plugin : Plugin) (sofar : Quiesced) : Task Quiesced := do
  let report : PluginReport :=
    { plugin := plugin.name, discovered := false, quiesced := false, resumed := false,
      detail := none }
  if ← perform (.discover plugin) then
    let report := { report with discovered := true }
    match ← perform (.quiesce no plugin) with
    | .ok detail =>
      return { sofar with
        reports := sofar.reports ++ [{ report with quiesced := true, detail := some detail }]
        quiesced := sofar.quiesced ++ [plugin.name] }
    | .error e =>
      return { sofar with
        reports := sofar.reports ++ [{ report with detail := some s!"quiesce failed: {e}" }]
        allAppsOk := false }
  else return { sofar with reports := sofar.reports ++ [report] }

def quiescePlugins (no : ℕ) : List Plugin → Quiesced → Task Quiesced
  | [], sofar => return sofar
  | plugin :: plugins, sofar => do quiescePlugins no plugins (← quiescePlugin no plugin sofar)

variable (windows : Bool)

/-- The mechanism, whether the filesystems are frozen, and what the shadow copy gave. -/
def platformFreeze : Task (String × Bool × Option VssSnapshotResult) := do
  if windows then
    match ← perform (.createMarkerShadow "C:") with
    | .ok result => return ("vss", false, some result)
    | .error e => return ("flush_only", false, some { detail := some e })
  else
    match ← freezeFilesystems windows with
    | .ok _ => return ("frozen", true, none)
    | .error _ => return ("flush_only", false, none)

def prepare (windows : Bool) (no : ℕ) (watchdogSecs : Option UInt64) :
    Task (Except String SnapshotPrepareReport) := do
  if ← perform .snapshotActive then
    return .error "a snapshot prepare is already active — call snapshot.complete first"
  else
    let secs := watchdogDelay watchdogSecs
    let snapshotId := "snap-" ++ (← perform .utcStamp)
    let apps ← quiescePlugins no builtinPlugins {}
    let (mechanism, fsFrozen, vss) ← platformFreeze windows
    let appConsistent := apps.allAppsOk && (fsFrozen || (vss.map (·.appConsistent)).getD false)
    perform (.record
      { no, snapshotId, frozen := fsFrozen, vssShadow := vss.bind (·.shadowId),
        quiescedPlugins := apps.quiesced, appConsistent })
    perform (.armSnapshotWatchdog no snapshotId secs)
    perform (.setHint fsFrozen)
    let preparedAt ← perform (.utcNow 0)
    return .ok { snapshotId, preparedAt, mechanism, fsFrozen, appConsistent,
                 plugins := apps.reports, vss, watchdogSecs := secs }

def resumePlugins (active : ActiveSnapshot) : List Plugin → Task (List PluginReport)
  | [] => return []
  | plugin :: plugins => do
    if active.quiescedPlugins.contains plugin.name then
      let report : PluginReport :=
        { plugin := plugin.name, discovered := true, quiesced := true, resumed := false,
          detail := none }
      match ← perform (.resume active.no plugin) with
      | .ok detail =>
        return { report with resumed := true, detail := some detail } ::
          (← resumePlugins active plugins)
      | .error e =>
        return { report with detail := some s!"resume failed: {e}" } ::
          (← resumePlugins active plugins)
    else resumePlugins active plugins

def thawActive (active : ActiveSnapshot) : Task Bool := do
  if active.frozen then
    match ← thawFilesystems windows with
    | .ok _ => return true
    | .error _ => return false
  else return false

def deleteShadow : Option String → Task Unit
  | some id => do
    let _ ← perform (.deleteMarkerShadow id)
    return ()
  | none => return ()

def unwind (active : ActiveSnapshot) : Task SnapshotCompleteReport := do
  let thawed ← thawActive windows active
  deleteShadow active.vssShadow
  let pluginsResumed ← resumePlugins active builtinPlugins
  perform (.setHint false)
  let completedAt ← perform (.utcNow 0)
  let consistency :=
    if active.appConsistent then "application"
    else if active.frozen || thawed then "filesystem" else "crash"
  return { snapshotId := active.snapshotId, completedAt, thawed, pluginsResumed, consistency }

def complete : Task (Except String SnapshotCompleteReport) := do
  match ← perform .takeActive with
  | none => return .error "no active snapshot prepare"
  | some active => return .ok (← unwind windows active)

def snapshotWatchdog (watchdogId : String) (due : ℕ) : Task Unit := do
  perform (.sleepUntil due)
  if ← perform (.isActive watchdogId) then
    let _ ← complete windows
  return ()

inductive Answer where
  | cutover (result : Except String CutoverState)
  | prepared (result : Except String SnapshotPrepareReport)
  | completed (result : Except String SnapshotCompleteReport)
  | none

def program : Call → Task Answer
  | .enterCutover no params => return .cutover (← enterCutover windows no params)
  | .exitCutover => return .cutover (← exitCutover windows)
  | .recoverCutoverState => do
    recoverCutoverState windows
    return .none
  | .cutoverWatchdog _ due => do
    cutoverWatchdog windows due
    return .none
  | .prepare no watchdogSecs => return .prepared (← prepare windows no watchdogSecs)
  | .complete => return .completed (← complete windows)
  | .snapshotWatchdog _ watchdogId due => do
    snapshotWatchdog windows watchdogId due
    return .none

def agent (sys : System) : Machine Op Op.Reply Outcome Shared Call Answer where
  program := program sys.windows
  arrive := arrive
  exec := exec sys
  pass := fun duration s => { s with now := s.now + duration }
  crash := crash

abbrev Config : Type := Machine.Config Op Op.Reply Shared Call Answer

abbrev Event : Type := Machine.Event Outcome Call

abbrev Entry : Type := Machine.Entry Op Op.Reply Outcome Shared Call Answer

/-- The guest before the agent is first started, with a marker that an earlier agent may have
left. -/
def initial (marker : Option CutoverState) : Config where
  threads := []
  shared := { marker }

/-- The operations that only some calls have, and only with their own number. -/
def Belongs (call : Call) : Op → Prop
  | .armWatchdog no _ => ∃ params, call = .enterCutover no params
  | .quiesce no _ | .armSnapshotWatchdog no _ _ => ∃ secs, call = .prepare no secs
  | .record snapshot => ∃ secs, call = .prepare snapshot.no secs
  | .takeActive | .resume .. => call = .complete ∨ ∃ no id due, call = .snapshotWatchdog no id due
  | _ => True

section Belongs

variable {call : Call} {windows : Bool}

open Program

/-- The operations of freezing and thawing, and those that ask whether the filesystems
are frozen. -/
def FreezeOp : Op → Prop
  | .fsfreeze _ | .createMarkerShadow _ | .deleteMarkerShadow _ | .setShadowId _ | .takeShadowId
  | .setFsFrozen _ | .getFsFrozen | .setHint _ | .getHint => True
  | _ => False

theorem freezeFilesystems_every : (freezeFilesystems windows).Every FreezeOp := by
  refine .bind ?_ fun result => ?_
  · cases windows with
    | true =>
      refine .step trivial fun result => ?_
      cases result with
      | error e => trivial
      | ok result => exact .step trivial fun _ => .step trivial fun _ => trivial
    | false =>
      refine .step trivial fun result => ?_
      cases result with
      | error e => trivial
      | ok _ => exact .step trivial fun _ => trivial
  · cases result with
    | error e => trivial
    | ok _ => exact .step trivial fun _ => trivial

theorem thawFilesystems_every : (thawFilesystems windows).Every FreezeOp := by
  refine .bind ?_ fun result => ?_
  · cases windows with
    | true =>
      refine .step trivial fun id => ?_
      cases id with
      | none => exact .step trivial fun _ => trivial
      | some id =>
        refine .step trivial fun result => ?_
        cases result with
        | error e => trivial
        | ok _ => exact .step trivial fun _ => trivial
    | false =>
      refine .step trivial fun result => ?_
      cases result with
      | error e => trivial
      | ok _ => exact .step trivial fun _ => trivial
  · cases result with
    | error e => trivial
    | ok _ => exact .step trivial fun _ => trivial

theorem fsFrozen_every : fsFrozen.Every FreezeOp := by
  refine .step trivial fun hint => ?_
  cases hint with
  | true => trivial
  | false => exact .perform trivial

theorem belongs_of_freezeOp {op : Op} (h : FreezeOp op) : Belongs call op := by
  cases op <;> trivial

theorem freezeFilesystems_belongs : (freezeFilesystems windows).Every (Belongs call) :=
  freezeFilesystems_every.imp fun _ => belongs_of_freezeOp

theorem thawFilesystems_belongs : (thawFilesystems windows).Every (Belongs call) :=
  thawFilesystems_every.imp fun _ => belongs_of_freezeOp

theorem fsFrozen_belongs : fsFrozen.Every (Belongs call) :=
  fsFrozen_every.imp fun _ => belongs_of_freezeOp

theorem controlUnits_belongs {op : String} (services : List String) :
    (controlUnits op services).Every (Belongs call) := by
  induction services with
  | nil => trivial
  | cons service services ih =>
    refine .step trivial fun result => ?_
    cases result with
    | ok text => exact .bind ih fun _ => trivial
    | error e => exact ih

theorem persist_belongs {frozen : Bool} {deadline : Option String} {stopped : List String} :
    (persist frozen deadline stopped).Every (Belongs call) := by
  refine .step trivial fun _ => .step trivial fun result => ?_
  cases result with
  | error e => trivial
  | ok _ =>
    refine .step trivial fun result => ?_
    cases result <;> trivial

theorem enterCutover_belongs {no : ℕ} {params : CutoverParams} :
    (enterCutover windows no params).Every (Belongs (.enterCutover no params)) := by
  refine .bind (controlUnits_belongs _) fun stopped => ?_
  cases params.freeze with
  | true =>
    refine .bind freezeFilesystems_belongs fun result => ?_
    cases result with
    | error e => trivial
    | ok _ =>
      refine .step trivial fun _ => .step ⟨params, rfl⟩ fun _ => ?_
      exact persist_belongs
  | false => exact persist_belongs

theorem clearMarkerFrozen_belongs : clearMarkerFrozen.Every (Belongs call) := by
  refine .step trivial fun marker => ?_
  cases marker with
  | none => trivial
  | some state => exact .perform trivial

theorem cutoverWatchdog_belongs {due : ℕ} : (cutoverWatchdog windows due).Every (Belongs call) := by
  refine .step trivial fun _ => .bind fsFrozen_belongs fun frozen => ?_
  cases frozen with
  | true =>
    exact .bind thawFilesystems_belongs fun _ => .bind clearMarkerFrozen_belongs fun _ => trivial
  | false => trivial

theorem recoverCutoverState_belongs : (recoverCutoverState windows).Every (Belongs call) := by
  refine .step trivial fun marker => ?_
  cases marker with
  | none => trivial
  | some state =>
    dsimp only
    split
    · exact .bind thawFilesystems_belongs fun _ => .bind clearMarkerFrozen_belongs fun _ => trivial
    · trivial

theorem exitCutover_belongs : (exitCutover windows).Every (Belongs call) := by
  have hrestart : ∀ previous, (restart previous).Every (Belongs call) := fun previous =>
    .bind (controlUnits_belongs _) fun _ => .step trivial fun _ => trivial
  refine .step trivial fun previous => .bind fsFrozen_belongs fun frozen => ?_
  cases frozen with
  | true =>
    refine .bind thawFilesystems_belongs fun result => ?_
    cases result with
    | error e => trivial
    | ok _ => exact .bind (hrestart previous) fun _ => trivial
  | false => exact .bind (hrestart previous) fun _ => trivial

theorem quiescePlugins_every {no : ℕ} (plugins : List Plugin) (sofar : Quiesced) :
    (quiescePlugins no plugins sofar).Every fun op =>
      ∃ plugin, op = .discover plugin ∨ op = .quiesce no plugin := by
  induction plugins generalizing sofar with
  | nil => trivial
  | cons plugin plugins ih =>
    refine .bind (.step ⟨plugin, .inl rfl⟩ fun discovered => ?_) fun sofar => ih sofar
    cases discovered with
    | false => trivial
    | true =>
      refine .step ⟨plugin, .inr rfl⟩ fun result => ?_
      cases result <;> trivial

theorem platformFreeze_every : (platformFreeze windows).Every FreezeOp := by
  cases windows with
  | true =>
    refine .step trivial fun result => ?_
    cases result <;> trivial
  | false =>
    refine .bind freezeFilesystems_every fun result => ?_
    cases result <;> trivial

theorem prepare_belongs {no : ℕ} {secs : Option UInt64} :
    (prepare windows no secs).Every (Belongs (.prepare no secs)) := by
  refine .step trivial fun active => ?_
  cases active with
  | true => trivial
  | false =>
    refine .step trivial fun _ => .bind ((quiescePlugins_every _ _).imp ?_) fun _ => ?_
    · rintro op ⟨plugin, rfl | rfl⟩
      · trivial
      · exact ⟨secs, rfl⟩
    refine .bind (platformFreeze_every.imp fun _ => belongs_of_freezeOp) fun _ => ?_
    refine .step ⟨secs, rfl⟩ fun _ => ?_
    refine .step ⟨secs, rfl⟩ fun _ => .step trivial fun _ => ?_
    exact .step trivial fun _ => trivial

def UnwindOp (op : Op) : Prop :=
  FreezeOp op ∨ (∃ no plugin, op = .resume no plugin) ∨ ∃ secs, op = .utcNow secs

theorem resumePlugins_every (active : ActiveSnapshot) (plugins : List Plugin) :
    (resumePlugins active plugins).Every UnwindOp := by
  induction plugins with
  | nil => trivial
  | cons plugin plugins ih =>
    unfold resumePlugins
    split
    · refine .step (.inr (.inl ⟨active.no, plugin, rfl⟩)) fun result => ?_
      cases result <;> exact .bind ih fun _ => trivial
    · exact ih

theorem thawActive_every (active : ActiveSnapshot) :
    (thawActive windows active).Every FreezeOp := by
  unfold thawActive
  split
  · refine .bind thawFilesystems_every fun result => ?_
    cases result <;> trivial
  · trivial

theorem deleteShadow_every (shadow : Option String) : (deleteShadow shadow).Every FreezeOp := by
  cases shadow with
  | none => trivial
  | some id => exact .step trivial fun _ => trivial

theorem unwind_every (active : ActiveSnapshot) : (unwind windows active).Every UnwindOp := by
  refine .bind ((thawActive_every active).imp fun _ => .inl) fun _ => ?_
  refine .bind ((deleteShadow_every _).imp fun _ => .inl) fun _ => ?_
  refine .bind (resumePlugins_every active builtinPlugins) fun _ => ?_
  exact .step (.inl trivial) fun _ => .step (.inr (.inr ⟨0, rfl⟩)) fun _ => trivial

theorem complete_belongs
    (hcall : call = .complete ∨ ∃ no id due, call = .snapshotWatchdog no id due) :
    (complete windows).Every (Belongs call) := by
  refine .step hcall fun active => ?_
  cases active with
  | none => trivial
  | some active =>
    refine .bind ((unwind_every active).imp ?_) fun _ => trivial
    rintro op (hop | ⟨no, plugin, rfl⟩ | ⟨secs, rfl⟩)
    · exact belongs_of_freezeOp hop
    · exact hcall
    · trivial

theorem program_belongs (call : Call) : (program windows call).Every (Belongs call) := by
  cases call with
  | enterCutover no params => exact enterCutover_belongs.bind fun _ => trivial
  | exitCutover => exact exitCutover_belongs.bind fun _ => trivial
  | recoverCutoverState => exact recoverCutoverState_belongs.bind fun _ => trivial
  | cutoverWatchdog no due => exact cutoverWatchdog_belongs.bind fun _ => trivial
  | prepare no secs => exact prepare_belongs.bind fun _ => trivial
  | complete => exact (complete_belongs (.inl rfl)).bind fun _ => trivial
  | snapshotWatchdog no id due =>
    refine .bind (.step trivial fun _ => .step trivial fun active => ?_)
      fun _ => trivial
    cases active with
    | true => exact (complete_belongs (.inr ⟨no, id, due, rfl⟩)).bind fun _ => trivial
    | false => trivial

end Belongs

variable {call : Call}

/-- The watchdogs that were armed, and the calls that have begun, without those that are over. -/
def pending (c : Config) : List Call :=
  c.shared.spawned ++ c.threads.filterMap fun thread => Machine.unfinished (some thread)

theorem mem_pending_iff {c : Config} : call ∈ pending c ↔
    call ∈ c.shared.spawned ∨ ∃ t op next, c.thread t = some (call, .call op next) := by
  unfold pending
  rw [mem_append, mem_filterMap]
  refine or_congr_right ⟨?_, ?_⟩
  · rintro ⟨⟨call', program⟩, hmem, h⟩
    cases program with
    | ret value => cases h
    | call op next =>
      cases h
      obtain ⟨t, ht⟩ := mem_iff_getElem?.mp hmem
      exact ⟨t, op, next, ht⟩
  · rintro ⟨t, op, next, ht⟩
    exact ⟨_, mem_iff_getElem?.mpr ⟨t, ht⟩, rfl⟩

theorem mem_spawned_of_effect {outcome : Outcome} {s : Shared} {op : Op}
    (h : call ∈ (effect outcome s op).spawned) : call ∈ s.spawned ∨
      (∃ no secs, op = .armWatchdog no secs ∧
        call = .cutoverWatchdog no (s.now + secs * second)) ∨
      ∃ no id secs, op = .armSnapshotWatchdog no id secs ∧
        call = .snapshotWatchdog no id (s.now + secs * second) := by
  cases op with
  | armWatchdog no secs =>
    obtain h | h := mem_cons.mp h
    · exact .inr (.inl ⟨no, secs, rfl, h⟩)
    · exact .inl h
  | armSnapshotWatchdog no id secs =>
    obtain h | h := mem_cons.mp h
    · exact .inr (.inr ⟨no, id, secs, rfl, h⟩)
    · exact .inl h
  | _ => exact .inl h

def Call.IsWatchdog : Call → Prop
  | .cutoverWatchdog .. | .snapshotWatchdog .. => True
  | _ => False

structure Arrived (call : Call) (s s' : Shared) : Prop where
  rest : s' = { s with down := s'.down, spawned := s'.spawned, calls := s'.calls }
  calls : s.calls ≤ s'.calls
  spawned : call ∈ s.spawned ∧ s'.spawned = s.spawned.erase call ∨
    ¬ call.IsWatchdog ∧ s'.spawned = s.spawned

theorem arrived {s s' : Shared} (h : arrive call s = some s') : Arrived call s s' := by
  cases call with
  | recoverCutoverState =>
    cases (ite_none_right_eq_some.mp h).2
    exact ⟨rfl, Nat.le_refl _, .inr ⟨id, rfl⟩⟩
  | enterCutover | prepare =>
    cases (ite_none_right_eq_some.mp h).2
    exact ⟨rfl, Nat.le_succ _, .inr ⟨id, rfl⟩⟩
  | exitCutover | complete =>
    cases (ite_none_left_eq_some.mp h).2
    exact ⟨rfl, Nat.le_refl _, .inr ⟨id, rfl⟩⟩
  | cutoverWatchdog | snapshotWatchdog =>
    obtain ⟨hmem, heq⟩ := ite_none_right_eq_some.mp h
    cases heq
    exact ⟨rfl, Nat.le_refl _, .inl ⟨hmem, rfl⟩⟩

theorem mem_spawned_of_arrive {s s' : Shared} (h : arrive call s = some s') (call' : Call) :
    (call' ∈ s'.spawned → call' ∈ s.spawned) ∧ (call.IsWatchdog → call ∈ s.spawned) := by
  obtain ⟨hmem, herase⟩ | ⟨hother, hsame⟩ := (arrived h).spawned
  · exact ⟨fun h => mem_of_mem_erase (herase ▸ h), fun _ => hmem⟩
  · exact ⟨fun h => hsame ▸ h, fun h => absurd h hother⟩

theorem mem_pending_of_step {sys : System} {c c' : Config} {e : Event}
    (hstep : Machine.Steps (agent sys) c e c') (h : call ∈ pending c') (hcall : call.IsWatchdog) :
    call ∈ pending c ∨ ∃ t outcome armer op next, e = .act t outcome ∧
      c.thread t = some (armer, .call op next) ∧
        ((∃ no secs, op = .armWatchdog no secs ∧
          call = .cutoverWatchdog no (c.shared.now + secs * second)) ∨
        ∃ no id secs, op = .armSnapshotWatchdog no id secs ∧
          call = .snapshotWatchdog no id (c.shared.now + secs * second)) := by
  rw [mem_pending_iff] at h ⊢
  obtain h | ⟨t, op, next, hthread⟩ := h
  · cases hstep with
    | start call' harrive => exact .inl (.inl ((mem_spawned_of_arrive harrive call).1 h))
    | act t outcome hthread hexec =>
      obtain ⟨-, -, rfl⟩ := exec_eq_some_iff.mp hexec
      obtain h | h := mem_spawned_of_effect h
      · exact .inl (.inl h)
      · exact .inr ⟨t, outcome, _, _, _, rfl, hthread, h⟩
    | pass duration => exact .inl (.inl h)
    | crash => cases h
  · obtain ⟨-, -, hthread⟩ | ⟨-, -, harrive⟩ | ⟨outcome, op', next', reply, -, hthread, -, -⟩ :=
      hstep.thread_cases hthread
    · exact .inl (.inr ⟨t, op, next, hthread⟩)
    · have hmem := mem_spawned_of_arrive harrive call
      exact .inl (.inl (hmem.2 hcall))
    · exact .inl (.inr ⟨t, op', next', hthread⟩)

end Guestkit.Freeze
