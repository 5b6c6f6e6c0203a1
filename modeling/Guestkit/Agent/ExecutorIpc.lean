import Guestkit.Agent.Executor
import Guestkit.Lib.Shell

/-! The privileged helper: the requests it dispatches, and the commands that grow a filesystem,
which the agent plans and the helper hands to a shell. -/

namespace Guestkit.Agent

open Lib Lib.Text List

structure ExecRequest where
  action : String
  params : Json

structure ExecResponse where
  ok : Bool
  result : Option Json
  error : Option String

def ExecResponse.of : Except String Json → ExecResponse
  | .ok result => ⟨true, some result, none⟩
  | .error e => ⟨false, none, some e⟩

structure ExitStatus where
  success : Bool
  text : String

/-- What the helper does besides, and what the shell answers. -/
structure HelperHost where
  outcomes : ℕ → Outcomes
  supportBundle : Except String String
  runPowerAction : String → UInt64 → Except String String
  localFsfreeze : Bool → Except String Unit
  runTimeSync : Except String String
  applyStagedUpdate : Except String String
  sh : String → Except String ExitStatus

structure HelperLog where
  audit : List AuditEntry
  shell : List String

abbrev HelperM := StateM HelperLog

def audited {α : Type} (act : AuditM α) : HelperM α := fun log =>
  ((act log.audit).1, { log with audit := (act log.audit).2 })

/-- A command is not started if one of its arguments has a zero in it. -/
def shStatus (host : HelperHost) (command : String) : HelperM (Except String ExitStatus) := do
  if command.toList.contains '\x00' then
    return .error "nul byte found in provided data"
  modify fun log => { log with shell := log.shell ++ [command] }
  return host.sh command

def strParam (params : Json) (key default : String) : String :=
  ((params.get key).bind Json.asStr).getD default

def actionsFromValue (value : Json) : Option (List RemediationActionSpec) := do
  (← value.asArray).mapM fun action => do
    return { action := ← (← action.get "action").asStr, target := ← (← action.get "target").asStr }

variable (command : String)

def isExpansionCommand : Bool :=
  startsWith "xfs_growfs " command || startsWith "resize2fs " command ||
    startsWith "btrfs filesystem resize " command || startsWith "lvextend " command

def isRefused : Bool :=
  !isExpansionCommand command || command.toList.contains ';' || command.toList.contains '|' ||
    command.toList.contains '&'

def expandFilesystem (host : HelperHost) (command : String) : HelperM ExecResponse := do
  if isRefused command then
    return .of (.error ("refused expansion command: " ++ command))
  match ← shStatus host command with
  | .ok status =>
    if status.success then return .of (.ok (.string ("expanded via " ++ command)))
    else return .of (.error (command ++ ": " ++ status.text))
  | .error e => return .of (.error e)

def dispatch (policy : AgentPolicy) (host : HelperHost) (req : ExecRequest) :
    HelperM ExecResponse := do
  let unit := strParam req.params "unit" ""
  match req.action with
  | "restart_unit" =>
    let result ← audited (Executor.restartUnit policy none (host.outcomes 0) unit)
    return .of (result.map .string)
  | "execute_remediation_plan" =>
    let planId := strParam req.params "plan_id" "local"
    let actions := ((req.params.get "actions").bind actionsFromValue).getD []
    let result ← audited (Executor.executeRemediationPlan policy none host.outcomes planId actions)
    return ⟨result.success, some result.toValue, none⟩
  | "collect_support_bundle" =>
    return .of (host.supportBundle.map fun data =>
      .object [("format", .string "tar.zst"), ("encoding", .string "base64"),
        ("data", .string data)])
  | "start_unit" =>
    let result ← audited (Executor.controlUnit policy none (host.outcomes 0) "start" unit)
    return .of (result.map .string)
  | "stop_unit" =>
    let result ← audited (Executor.controlUnit policy none (host.outcomes 0) "stop" unit)
    return .of (result.map .string)
  | "power_action" =>
    let action := strParam req.params "action" "reboot"
    let delaySecs := ((req.params.get "delay_secs").bind Json.asU64).getD 1
    return .of ((host.runPowerAction action delaySecs).map .string)
  | "expand_filesystem" => expandFilesystem host (strParam req.params "command" "")
  | "fsfreeze" =>
    match strParam req.params "op" "" with
    | "freeze" => return .of ((host.localFsfreeze false).map fun _ => .string "freeze")
    | "thaw" => return .of ((host.localFsfreeze true).map fun _ => .string "thaw")
    | other => return .of (.error ("unsupported fsfreeze op: " ++ other))
  | "time_sync" => return .of (host.runTimeSync.map .string)
  | "apply_staged_update" =>
    return .of (host.applyStagedUpdate.map fun message => .object [("message", .string message)])
  | other => return .of (.error ("unsupported executor action: " ++ other))

def expansionPrograms : List String := ["xfs_growfs", "resize2fs", "btrfs", "lvextend"]

/-- The shell reads one simple command of literal words, and it is one of the four programs. -/
def OnlyExpands : Prop :=
  ∃ line w, Shell.parse command.toList = some [line] ∧ line.isLiteral = true ∧
    line.tokens.head? = some (.word w) ∧ ∃ program ∈ expansionPrograms, w.chars = program.toList

def arguments : List Char := (command.toList.dropWhile (· ≠ ' ')).tail

def handed (policy : AgentPolicy) (host : HelperHost) (req : ExecRequest) : List String :=
  (dispatch policy host req ⟨[], []⟩).2.shell

theorem expansionPrograms_ordinary : ∀ program ∈ expansionPrograms, program.toList ≠ [] ∧
    ∀ c ∈ program.toList, Shell.CharClass.of c = .ordinary := by
  decide

theorem exists_of_startsWith {program pre command : String} (rest : String)
    (hpre : pre.toList = program.toList ++ ' ' :: rest.toList) (h : startsWith pre command = true) :
    ∃ rest, command.toList = program.toList ++ ' ' :: rest := by
  obtain ⟨after, hafter⟩ := isPrefixOf_iff_prefix.mp h
  exact ⟨rest.toList ++ after, by rw [← hafter, hpre, append_assoc, cons_append]⟩

theorem exists_program {command : String} (h : isExpansionCommand command = true) :
    ∃ program ∈ expansionPrograms, ∃ rest, command.toList = program.toList ++ ' ' :: rest := by
  simp only [isExpansionCommand, Bool.or_eq_true] at h
  rcases h with ((hxfs | hext) | hbtrfs) | hlv
  · exact ⟨"xfs_growfs", by decide, exists_of_startsWith "" (by decide +kernel) hxfs⟩
  · exact ⟨"resize2fs", by decide, exists_of_startsWith "" (by decide +kernel) hext⟩
  · exact ⟨"btrfs", by decide,
      exists_of_startsWith "filesystem resize " (by decide +kernel) hbtrfs⟩
  · exact ⟨"lvextend", by decide, exists_of_startsWith "" (by decide +kernel) hlv⟩

theorem arguments_eq {command program : String} {rest : List Char}
    (hordinary : ∀ c ∈ program.toList, Shell.CharClass.of c = .ordinary)
    (hcommand : command.toList = program.toList ++ ' ' :: rest) : arguments command = rest := by
  have hblank : ∀ c ∈ program.toList, decide (c ≠ ' ') = true := by
    intro c hc
    refine decide_eq_true fun heq => ?_
    have hclass := hordinary c hc
    rw [heq] at hclass
    cases hclass
  rw [arguments, hcommand, dropWhile_append_of_pos hblank]
  rfl

/-- Of a command with an allowed prefix, what comes after the first blank decides. -/
theorem onlyExpands_iff {command : String} (h : isExpansionCommand command = true) :
    OnlyExpands command ↔ (Shell.Spot.plain false).harmless (arguments command) = true := by
  obtain ⟨program, hprogram, rest, hcommand⟩ := exists_program h
  obtain ⟨hne, hordinary⟩ := expansionPrograms_ordinary program hprogram
  have hat := Shell.at_start_run_word hne hordinary
  have hparse : Shell.parse command.toList =
      ((Shell.start.run (program.toList ++ [' '])).run rest).finish := by
    rw [Shell.parse, ← Shell.State.run_append, hcommand, append_assoc]
    rfl
  rw [arguments_eq hordinary hcommand]
  constructor
  · rintro ⟨line, w, hline, hliteral, -⟩
    exact hat.harmless_of_oneCommand ⟨line, by rw [← hparse, hline], hliteral⟩
  · intro hharmless
    obtain ⟨line, hline, hfirst, hliteral⟩ := hat.simple_of_harmless hharmless
    exact ⟨line, _, hparse.trans hline, hliteral, hfirst, program, hprogram, Shell.bare_chars _⟩

theorem handed_expand (policy : AgentPolicy) (host : HelperHost) (params : Json) :
    handed policy host ⟨"expand_filesystem", params⟩ =
      if isRefused (strParam params "command" "") ||
          (strParam params "command" "").toList.contains '\x00' then []
      else [strParam params "command" ""] := by
  show (expandFilesystem host (strParam params "command" "") ⟨[], []⟩).2.shell = _
  generalize strParam params "command" "" = command
  unfold expandFilesystem shStatus
  cases hrefused : isRefused command with
  | true => rfl
  | false =>
    cases hzero : command.toList.contains '\x00' with
    | true => rfl
    | false =>
      cases host.sh command with
      | error e => rfl
      | ok status =>
        obtain ⟨success, text⟩ := status
        cases success <;> rfl

/-- The commands that the helper accepts and a process can be started with. -/
def Accepted : Prop :=
  isRefused command = false ∧ command.toList.contains '\x00' = false

/-- What is handed to the shell is one expansion command exactly if what follows its first blank is
harmless. -/
theorem handed_onlyExpands_iff (policy : AgentPolicy) (host : HelperHost) (params : Json) :
    (∀ command ∈ handed policy host ⟨"expand_filesystem", params⟩, OnlyExpands command) ↔
      (Accepted (strParam params "command" "") →
        (Shell.Spot.plain false).harmless (arguments (strParam params "command" "")) = true) := by
  rw [handed_expand]
  generalize strParam params "command" "" = command
  unfold Accepted
  cases hrefused : isRefused command with
  | true => exact iff_of_true nofun (fun h => nomatch h.1)
  | false =>
    cases command.toList.contains '\x00' with
    | true => exact iff_of_true nofun (fun h => nomatch h.2)
    | false =>
      have hexpansion : isExpansionCommand command = true := by
        simp only [isRefused, Bool.or_eq_false_iff, Bool.not_eq_false'] at hrefused
        exact hrefused.1.1.1
      rw [← onlyExpands_iff hexpansion]
      constructor
      · exact fun h _ => h command mem_cons_self
      · intro h command' hmem
        rw [mem_singleton.mp hmem]
        exact h ⟨rfl, rfl⟩

example : OnlyExpands "lvextend -l +100%FREE -r '/dev/mapper/my vg-data'" :=
  (onlyExpands_iff (by decide +kernel)).mpr (by decide +kernel)

def willingHost : HelperHost where
  outcomes := fun _ => ⟨.ok (), .ok ⟨true, ""⟩, .ok ⟨true, ""⟩⟩
  supportBundle := .ok ""
  runPowerAction := fun action _ => .ok action
  localFsfreeze := fun _ => .ok ()
  runTimeSync := .ok ""
  applyStagedUpdate := .ok ""
  sh := fun _ => .ok ⟨true, "exit status: 0"⟩

theorem substitution_handed :
    handed {} willingHost
        ⟨"expand_filesystem", .object [("command", .string "xfs_growfs /data $(reboot)")]⟩ =
      ["xfs_growfs /data $(reboot)"] ∧ ¬ OnlyExpands "xfs_growfs /data $(reboot)" := by
  refine ⟨by decide +kernel, fun honly => ?_⟩
  have hharmless := (onlyExpands_iff (by decide +kernel)).mp honly
  revert hharmless
  decide +kernel

end Guestkit.Agent
