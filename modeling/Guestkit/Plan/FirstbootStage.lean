import Guestkit.Lib.Hoare
import Guestkit.Lib.Shell.Script
import Guestkit.Plan.Execution

/-! What the applicator does offline for services and commands: units are enabled and disabled at
once, and what needs the running guest is staged for its first boot. -/

namespace Guestkit.Plan

open Lib Lib.Text Lib.Shell List

structure StageGuest (σ : Type) where
  enableUnit : String → EStateM String σ Unit
  disableUnit : String → EStateM String σ Unit
  appendFirstbootCmds : List String → EStateM String σ Unit

def normalizeUnit (name : String) : String :=
  let n := trim name
  if [".service", ".socket", ".timer"].any (endsWith · n) then n else n ++ ".service"

def normalizeState (state : String) : String := (trim state).toLower

section Services

variable {σ : Type} (g : StageGuest σ) (so : ServiceOperation)

/-- Whether the state asks for something. -/
def stageState (unit state : String) : EStateM String σ Bool := do
  let s := normalizeState state
  if s ∈ ["enabled", "enable"] then
    g.enableUnit unit
    pure true
  else if s ∈ ["disabled", "disable"] then
    g.disableUnit unit
    pure true
  else pure false

def firstbootCmds (unit : String) : List String :=
  (if so.start then ["systemctl start " ++ unit] else []) ++
    if so.restart then ["systemctl restart " ++ unit] else []

def stageServiceOffline : EStateM String σ Bool := do
  let unit := normalizeUnit so.service
  let did ← match so.state with
    | some state => stageState g unit state
    | none => pure false
  match firstbootCmds so unit with
  | [] => pure did
  | cmds =>
    g.appendFirstbootCmds cmds
    pure true

end Services

inductive UnitAction where
  | enable
  | disable
  | start
  | restart
  deriving DecidableEq

def UnitAction.verb : UnitAction → String
  | enable => "enable"
  | disable => "disable"
  | start => "start"
  | restart => "restart"

/-- The units that were enabled and disabled, and the commands that were staged. -/
structure Noted where
  done : List (UnitAction × String) := []
  staged : List String := []

def notingGuest : StageGuest Noted where
  enableUnit unit := modify fun s => { s with done := s.done ++ [(.enable, unit)] }
  disableUnit unit := modify fun s => { s with done := s.done ++ [(.disable, unit)] }
  appendFirstbootCmds cmds := modify fun s => { s with staged := s.staged ++ cmds }

def notingHost : Host (List (List String)) :=
  { run argv s := (.ok ⟨some 0, ""⟩, { s with outer := s.outer ++ [argv] })
    sha256 _ := []
    renderJson _ := ""
    encodeManifest _ := ""
    decodeManifest _ := .ok ⟨[]⟩
    debug s := s
    dirMode _ _ := 0o755 }

variable (unitName : String → String) (so : ServiceOperation)

/-- The live executor has `systemctl` do the action to the unit; `unitName` tells which unit
`systemctl` takes a name for. -/
def LiveActs (action : UnitAction)
    (unit : String) : Prop :=
  ["systemctl", action.verb, so.service] ∈
      (stateOf (LivePlanExecutor.applyServiceOperation notingHost so ⟨[], .empty⟩)).outer ∧
    unitName so.service = unit

/-- The stager does the action to the unit, or stages the command for it. -/
def OfflineActs (so : ServiceOperation) (action : UnitAction) (unit : String) : Prop :=
  let noted := stateOf (stageServiceOffline notingGuest so {})
  (action, unit) ∈ noted.done ∨ "systemctl " ++ action.verb ++ " " ++ unit ∈ noted.staged

theorem liveActs_iff (action : UnitAction)
    (unit : String) :
    LiveActs unitName so action unit ↔ unitName so.service = unit ∧
      match action with
      | .enable => so.state = some "enabled"
      | .disable => ∃ state, so.state = some state ∧ state ≠ "enabled"
      | .start => so.start = true ∧ so.restart = false
      | .restart => so.restart = true := by
  obtain ⟨service, state, start, restart⟩ := so
  unfold LiveActs
  rw [and_comm]
  refine and_congr_right fun _ => ?_
  have hlog : (stateOf (LivePlanExecutor.applyServiceOperation notingHost
      ⟨service, state, start, restart⟩ ⟨[], .empty⟩)).outer =
      (if restart then [["systemctl", "restart", service]]
        else if start then [["systemctl", "start", service]] else []) ++
      (state.map fun state =>
        ["systemctl", if state = "enabled" then "enable" else "disable", service]).toList := by
    cases restart <;> cases start <;> cases state <;> rfl
  rw [hlog]
  cases restart <;> cases start <;> cases state <;> cases action <;>
    simp [UnitAction.verb, eq_ite_iff]

theorem cmd_eq_iff (a b : UnitAction) (u v : String) :
    "systemctl " ++ a.verb ++ " " ++ u = "systemctl " ++ b.verb ++ " " ++ v ↔ a = b ∧ u = v := by
  rw [← String.toList_inj]
  cases a <;> cases b <;> simp [UnitAction.verb, String.toList_inj]

theorem mem_firstbootCmds_iff (so : ServiceOperation) (unit : String) (action : UnitAction)
    (u : String) :
    "systemctl " ++ action.verb ++ " " ++ u ∈ firstbootCmds so unit ↔
      u = unit ∧ (action = .start ∧ so.start = true ∨ action = .restart ∧ so.restart = true) := by
  have hstart := cmd_eq_iff action .start u unit
  have hrestart := cmd_eq_iff action .restart u unit
  rw [show "systemctl " ++ UnitAction.start.verb ++ " " ++ unit = "systemctl start " ++ unit
    from rfl] at hstart
  rw [show "systemctl " ++ UnitAction.restart.verb ++ " " ++ unit = "systemctl restart " ++ unit
    from rfl] at hrestart
  unfold firstbootCmds
  cases so.start <;> cases so.restart <;> simp [hstart, hrestart] <;> tauto

theorem normalizeState_enabled : normalizeState "enabled" = "enabled" := by decide +kernel

theorem not_disabled_of_enabled {state : String} (h : state ∈ ["enabled", "enable"]) :
    state ∉ ["disabled", "disable"] := by
  rcases mem_pair.mp h with rfl | rfl <;> decide

theorem offlineActs_iff (so : ServiceOperation) (action : UnitAction) (unit : String) :
    OfflineActs so action unit ↔ unit = normalizeUnit so.service ∧
      match action with
      | .enable => ∃ state, so.state = some state ∧ normalizeState state ∈ ["enabled", "enable"]
      | .disable => ∃ state, so.state = some state ∧
          normalizeState state ∈ ["disabled", "disable"]
      | .start => so.start = true
      | .restart => so.restart = true := by
  have hnoted : stateOf (stageServiceOffline notingGuest so {}) =
      { done := so.state.toList.flatMap fun state =>
          if normalizeState state ∈ ["enabled", "enable"] then
            [(.enable, normalizeUnit so.service)]
          else if normalizeState state ∈ ["disabled", "disable"] then
            [(.disable, normalizeUnit so.service)]
          else []
        staged := firstbootCmds so (normalizeUnit so.service) } := by
    unfold stageServiceOffline
    cases so.state with
    | none =>
      dsimp only
      cases hcmds : firstbootCmds so (normalizeUnit so.service) <;> rfl
    | some state =>
      simp only [stageState, Option.toList_some, flatMap_singleton]
      split_ifs <;> cases hcmds : firstbootCmds so (normalizeUnit so.service) <;> rfl
  unfold OfflineActs
  simp only [hnoted, mem_firstbootCmds_iff]
  cases hstate : so.state with
  | none => cases action <;> simp
  | some state =>
    have hapart : normalizeState state ∈ ["enabled", "enable"] → _ := not_disabled_of_enabled
    cases action <;> simp only [Option.toList_some, flatMap_singleton] <;>
      split_ifs <;> simp_all

/-- The two decide alike exactly if the live executor would not disable for a state that the stager
reads as another one, a restart is not asked for together with a start, and `systemctl` takes the
name of the service for the unit that the stager makes of it. -/
theorem liveActs_iff_offlineActs_iff :
    (∀ action unit, LiveActs unitName so action unit ↔ OfflineActs so action unit) ↔
      (∀ state ∈ so.state, state = "enabled" ∨ normalizeState state ∈ ["disabled", "disable"]) ∧
        ¬(so.start = true ∧ so.restart = true) ∧
        (so.state.isSome ∨ so.start = true ∨ so.restart = true →
          unitName so.service = normalizeUnit so.service) := by
  simp only [liveActs_iff, offlineActs_iff]
  constructor
  · intro h
    refine ⟨fun state hstate => ?_, fun ⟨hstart, hrestart⟩ => ?_, ?_⟩
    · by_contra hother
      rw [not_or] at hother
      obtain ⟨-, state', hstate', hdisabled⟩ :=
        (h .disable (unitName so.service)).mp ⟨rfl, state, hstate, hother.1⟩
      cases hstate.symm.trans hstate'
      exact hother.2 hdisabled
    · have hlive := (h .start (normalizeUnit so.service)).mpr ⟨rfl, hstart⟩
      simp [hrestart] at hlive
    · rintro (hstate | hstart | hrestart)
      · obtain ⟨state, hstate⟩ := Option.isSome_iff_exists.mp hstate
        by_cases henabled : state = "enabled"
        · exact ((h .enable (unitName so.service)).mp ⟨rfl, henabled ▸ hstate⟩).1
        · exact ((h .disable (unitName so.service)).mp ⟨rfl, state, hstate, henabled⟩).1
      · cases hrestart : so.restart with
        | false => exact ((h .start (unitName so.service)).mp ⟨rfl, hstart, hrestart⟩).1
        | true => exact ((h .restart (unitName so.service)).mp ⟨rfl, hrestart⟩).1
      · exact ((h .restart (unitName so.service)).mp ⟨rfl, hrestart⟩).1
  · rintro ⟨hstate, hboth, hname⟩ action unit
    have hcongr : ∀ {P Q : Prop}, (P ↔ Q) → (P → unitName so.service = normalizeUnit so.service) →
        (unitName so.service = unit ∧ P ↔ unit = normalizeUnit so.service ∧ Q) := by
      intro P Q hPQ hP
      rw [← hPQ]
      exact ⟨fun h => ⟨h.1 ▸ hP h.2, h.2⟩, fun h => ⟨(hP h.2).trans h.1.symm, h.2⟩⟩
    cases action with
    | enable =>
      refine hcongr ⟨fun hs => ?_, fun ⟨state, hs, hnorm⟩ => ?_⟩ fun hs => hname (by simp [hs])
      · exact ⟨"enabled", hs, by rw [normalizeState_enabled]; simp⟩
      · rw [hs, (hstate state hs).resolve_right (not_disabled_of_enabled hnorm)]
    | disable =>
      refine hcongr ⟨fun ⟨state, hs, hne⟩ => ?_, fun ⟨state, hs, hnorm⟩ => ?_⟩
        fun ⟨state, hs, _⟩ => hname (by simp [hs])
      · exact ⟨state, hs, (hstate state hs).resolve_left hne⟩
      · refine ⟨state, hs, ?_⟩
        rintro rfl
        rw [normalizeState_enabled] at hnorm
        exact not_disabled_of_enabled (by simp) hnorm
    | start =>
      exact hcongr (and_iff_left_of_imp fun hstart => by simpa [hstart] using hboth)
        fun hstart => hname (by simp [hstart])
    | restart => exact hcongr Iff.rfl fun hrestart => hname (by simp [hrestart])

/-- Written with a capital letter, the state enables the unit offline and disables it live. -/
theorem capitalized_state_disables :
    OfflineActs { service := "sshd", state := some "Enabled" } .enable "sshd.service" ∧
      LiveActs normalizeUnit { service := "sshd", state := some "Enabled" } .disable
        "sshd.service" := by
  unfold OfflineActs LiveActs
  decide +kernel

end Guestkit.Plan
