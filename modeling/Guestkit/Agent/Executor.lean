import Guestkit.Agent.Policy
import Guestkit.Lib.Text

/-! The executor of remediations: units that are restarted over D-Bus or by `systemctl`, the journal
that is vacuumed, and what a remediation plan reports of its actions. -/

namespace Guestkit

def AgentPolicy.canRestartUnit (policy : AgentPolicy) (unit : String) : Bool :=
  if !policy.actions.restartUnit.enabled then false
  else if policy.actions.restartUnit.allowedUnits.isEmpty then true
  else policy.actions.restartUnit.allowedUnits.contains unit

namespace Agent

open Lib Lib.Text

structure Exited where
  success : Bool
  stderr : String

/-- What D-Bus and the commands answer during one action; an error is one of not getting
that far. -/
structure Outcomes where
  dbusRestart : Except String Unit
  systemctl : Except String Exited
  journalctl : Except String Exited

abbrev CallExecutor := String → Json → Except String Json

structure AuditEntry where
  action : String
  target : String
  success : Bool
  detail : String

abbrev AuditM := StateM (List AuditEntry)

structure RemediationActionSpec where
  action : String
  target : String

structure RemediationActionResult where
  action : String
  success : Bool
  message : String
  deriving DecidableEq

structure RemediationResult where
  planId : String
  success : Bool
  actions : List RemediationActionResult
  deriving DecidableEq

namespace Executor

def audit (action target : String) (success : Bool) (detail : String) : AuditM Unit :=
  modify (· ++ [⟨action, target, success, replaceChars ['\n'] " " detail⟩])

def systemctlMessage (outcome : Except String Exited) (op unit : String) : Except String String :=
  outcome.map fun exited => if exited.success then s!"{op} {unit} ok" else exited.stderr

def runSystemctl (outcome : Except String Exited) (op unit : String) :
    AuditM (Except String String) := do
  let result := systemctlMessage outcome op unit
  let (success, detail) := match result with
    | .ok message => (endsWith " ok" message, message)
    | .error _ => (false, "")
  audit s!"systemctl_{op}" unit success detail
  return result

def helperMessage (helper : Option CallExecutor) (action : String) (params : Json) :
    Option String :=
  match helper with
  | none => none
  | some call =>
    match call action params with
    | .ok result => result.asStr
    | .error _ => none

variable (policy : AgentPolicy) (helper : Option CallExecutor)

def restartUnit (outcomes : Outcomes) (unit : String) : AuditM (Except String String) := do
  if !policy.canRestartUnit unit then
    return .error ("restart_unit denied by policy for " ++ unit)
  match helperMessage helper "restart_unit" (.object [("unit", .string unit)]) with
  | some message => return .ok message
  | none =>
    match outcomes.dbusRestart with
    | .ok () =>
      let message := "restarted " ++ unit
      audit "restart_unit" unit true message
      return .ok message
    | .error dbusErr =>
      let result ← runSystemctl outcomes.systemctl "restart" unit
      return result.mapError fun se =>
        "restart via D-Bus failed (" ++ dbusErr ++ "); systemctl fallback failed (" ++ se ++ ")"

def controlUnit (outcomes : Outcomes) (op unit : String) : AuditM (Except String String) := do
  if !(op = "start" ∨ op = "stop") then
    return .error ("unsupported unit operation: " ++ op)
  if !policy.canRestartUnit unit then
    return .error (op ++ "_unit denied by policy for " ++ unit)
  match helperMessage helper (op ++ "_unit") (.object [("unit", .string unit)]) with
  | some message => return .ok message
  | none => runSystemctl outcomes.systemctl op unit

def textOf : Except String String → String
  | .ok message => message
  | .error e => e

def resolvedUnit : String := "systemd-resolved.service"

/-- A message is taken for a success unless it says otherwise in one of these two ways. -/
def looksSuccessful (message : String) : Bool :=
  !startsWith "denied" message && !contains message "unsupported"

def actionMessage (outcomes : Outcomes) (action : RemediationActionSpec) : AuditM String :=
  match action.action with
  | "restart_unit" => textOf <$> restartUnit policy helper outcomes action.target
  | "fix_dns" => textOf <$> runSystemctl outcomes.systemctl "restart" resolvedUnit
  | "rotate_journal" =>
    return match outcomes.journalctl with
      | .ok _ => "journal vacuumed"
      | .error e => e
  | other => return "unsupported action: " ++ other

def executeAction (outcomes : Outcomes) (action : RemediationActionSpec) :
    AuditM RemediationActionResult := do
  let message ← actionMessage policy helper outcomes action
  let success := looksSuccessful message
  audit action.action action.target success message
  return ⟨action.action, success, message⟩

def executeActions (outcomes : ℕ → Outcomes) (i : ℕ) :
    List RemediationActionSpec → AuditM (List RemediationActionResult)
  | [] => return []
  | action :: actions => do
    let result ← executeAction policy helper (outcomes i) action
    let results ← executeActions outcomes (i + 1) actions
    return result :: results

end Executor

namespace RemediationResult

def actionFromValue (value : Json) : Option RemediationActionResult := do
  return {
    action := ← (← value.get "action").asStr
    success := ← (← value.get "success").asBool
    message := ← (← value.get "message").asStr }

def fromValue (value : Json) : Option RemediationResult := do
  return {
    planId := ← (← value.get "plan_id").asStr
    success := ← (← value.get "success").asBool
    actions := ← (← (← value.get "actions").asArray).mapM actionFromValue }

def toValue (result : RemediationResult) : Json :=
  .object [("plan_id", .string result.planId), ("success", .bool result.success),
    ("actions", .array (result.actions.map fun action => .object [
      ("action", .string action.action), ("success", .bool action.success),
      ("message", .string action.message)]))]

end RemediationResult

namespace Executor

def helperResult (helper : Option CallExecutor) (planId : String)
    (actions : List RemediationActionSpec) : Option RemediationResult :=
  match helper with
  | none => none
  | some call =>
    match call "execute_remediation_plan" (.object [("plan_id", .string planId),
        ("actions", .array (actions.map fun action =>
          .object [("action", .string action.action), ("target", .string action.target)]))]) with
    | .ok result => RemediationResult.fromValue result
    | .error _ => none

variable (policy : AgentPolicy)

def executeRemediationPlan (helper : Option CallExecutor)
    (outcomes : ℕ → Outcomes) (planId : String) (actions : List RemediationActionSpec) :
    AuditM RemediationResult := do
  match helperResult helper planId actions with
  | some result => return result
  | none =>
    let results ← executeActions policy helper outcomes 0 actions
    return ⟨planId, results.all (·.success), results⟩

def Permitted (action : RemediationActionSpec) : Prop :=
  match action.action with
  | "restart_unit" => policy.canRestartUnit action.target = true
  | "fix_dns" => policy.canRestartUnit resolvedUnit = true
  | "rotate_journal" => True
  | _ => False

def exitedWell : Except String Exited → Bool
  | .ok exited => exited.success
  | .error _ => false

variable (outcomes : Outcomes)

def Done (action : RemediationActionSpec) : Prop :=
  match action.action with
  | "restart_unit" => outcomes.dbusRestart.isOk = true ∨ exitedWell outcomes.systemctl = true
  | "fix_dns" => exitedWell outcomes.systemctl = true
  | "rotate_journal" => exitedWell outcomes.journalctl = true
  | _ => False

/-- Success is reported only of what was permitted and done, action by action and as a whole. -/
structure ReportsTruly (policy : AgentPolicy) (outcomes : ℕ → Outcomes)
    (actions : List RemediationActionSpec) (result : RemediationResult) : Prop where
  each : ∀ i action report, actions[i]? = some action → result.actions[i]? = some report →
    report.success = true → Permitted policy action ∧ Done (outcomes i) action
  whole : result.success = true →
    ∀ i action, actions[i]? = some action → Permitted policy action ∧ Done (outcomes i) action

def saysFailed (text : String) : Bool := startsWith "denied" text || contains text "unsupported"

def RestartReliable (unit : String) : Prop :=
  if policy.canRestartUnit unit then
    match outcomes.dbusRestart, outcomes.systemctl with
    | .ok (), _ => True
    | .error _, .ok exited => exited.success = true ∨ saysFailed exited.stderr = true
    | .error dbusErr, .error e =>
      contains dbusErr "unsupported" = true ∨ contains e "unsupported" = true
  else contains unit "unsupported" = true

def FixDnsReliable : Prop :=
  match outcomes.systemctl with
  | .ok exited =>
    if exited.success then policy.canRestartUnit resolvedUnit = true
    else saysFailed exited.stderr = true
  | .error e => saysFailed e = true

def RotateJournalReliable : Prop :=
  match outcomes.journalctl with
  | .ok exited => exited.success = true
  | .error e => saysFailed e = true

/-- The actions whose reports can be relied on: those permitted and done, and those whose failure
has one of the two texts. -/
def Reliable (action : RemediationActionSpec) : Prop :=
  match action.action with
  | "restart_unit" => RestartReliable policy outcomes action.target
  | "fix_dns" => FixDnsReliable policy outcomes
  | "rotate_journal" => RotateJournalReliable outcomes
  | _ => True

section

variable {policy : AgentPolicy} {outcomes : Outcomes}

theorem looksSuccessful_eq (message : String) : looksSuccessful message = !saysFailed message := by
  rw [looksSuccessful, saysFailed, Bool.not_or]

theorem restartUnit_result (unit : String) (log : List AuditEntry) :
    (restartUnit policy none outcomes unit log).1 =
      if !policy.canRestartUnit unit then
        .error ("restart_unit denied by policy for " ++ unit)
      else
        match outcomes.dbusRestart with
        | .ok () => .ok ("restarted " ++ unit)
        | .error dbusErr =>
          (systemctlMessage outcomes.systemctl "restart" unit).mapError fun se =>
            "restart via D-Bus failed (" ++ dbusErr ++ "); systemctl fallback failed (" ++
              se ++ ")" := by
  unfold restartUnit
  split_ifs
  · rfl
  · cases outcomes.dbusRestart <;> rfl

theorem parentheses_not_mem : '(' ∉ "unsupported".toList ∧ ')' ∉ "unsupported".toList := by decide

theorem saysFailed_denied (unit : String) :
    saysFailed ("restart_unit denied by policy for " ++ unit) = contains unit "unsupported" := by
  have hstart : startsWith "denied" ("restart_unit denied by policy for " ++ unit) = false := by
    simp [startsWith, List.isPrefixOf]
  have hfixed : contains "restart_unit denied by policy for " "unsupported" = false := by
    decide +kernel
  rw [saysFailed, hstart, Bool.false_or,
    contains_append_of_last (c := ' ') (by decide) (by decide +kernel), hfixed, Bool.false_or]

theorem saysFailed_both (dbusErr e : String) :
    saysFailed ("restart via D-Bus failed (" ++ dbusErr ++ "); systemctl fallback failed (" ++ e
        ++ ")") =
      (contains dbusErr "unsupported" || contains e "unsupported") := by
  have hstart : startsWith "denied" ("restart via D-Bus failed (" ++ dbusErr ++
      "); systemctl fallback failed (" ++ e ++ ")") = false := by
    simp [startsWith, List.isPrefixOf]
  have hbefore : contains "restart via D-Bus failed (" "unsupported" = false := by decide +kernel
  have hbetween : contains "); systemctl fallback failed (" "unsupported" = false := by
    decide +kernel
  have hafter : contains ")" "unsupported" = false := by decide +kernel
  rw [saysFailed, hstart, Bool.false_or]
  simp only [String.append_assoc]
  rw [contains_append_of_last parentheses_not_mem.1 (by decide +kernel), hbefore, Bool.false_or,
    contains_append_of_first parentheses_not_mem.2 (by simp),
    contains_append_of_last parentheses_not_mem.1 (by decide +kernel), hbetween, Bool.false_or,
    contains_append_of_first parentheses_not_mem.2 (by simp), hafter, Bool.or_false]

theorem looksSuccessful_imp_iff {message : String} {p : Prop} (hp : ¬ p) :
    (looksSuccessful message = true → p) ↔ saysFailed message = true := by
  rw [looksSuccessful_eq]
  cases saysFailed message with
  | false => exact iff_of_false (fun h => hp (h rfl)) nofun
  | true => exact iff_of_true nofun rfl

theorem restart_reliable_iff (unit : String) (log : List AuditEntry) :
    (looksSuccessful (textOf (restartUnit policy none outcomes unit log).1) = true →
        policy.canRestartUnit unit = true ∧
          (outcomes.dbusRestart.isOk = true ∨ exitedWell outcomes.systemctl = true)) ↔
      RestartReliable policy outcomes unit := by
  rw [restartUnit_result, RestartReliable]
  cases policy.canRestartUnit unit with
  | false =>
    rw [if_neg (show ¬ false = true by decide), ← saysFailed_denied]
    exact looksSuccessful_imp_iff nofun
  | true =>
    rw [if_pos (show true = true by rfl)]
    cases outcomes.dbusRestart with
    | ok _ => exact iff_of_true (fun _ => ⟨rfl, .inl rfl⟩) trivial
    | error dbusErr =>
      cases outcomes.systemctl with
      | error e =>
        dsimp only
        rw [← Bool.or_eq_true (contains dbusErr _), ← saysFailed_both]
        exact looksSuccessful_imp_iff (by simp [exitedWell, Except.isOk, Except.toBool])
      | ok exited =>
        obtain ⟨success, stderr⟩ := exited
        cases success with
        | true => exact iff_of_true (fun _ => ⟨rfl, .inr rfl⟩) (.inl rfl)
        | false =>
          simp only [Bool.false_eq_true, false_or]
          exact looksSuccessful_imp_iff (by simp [exitedWell, Except.isOk, Except.toBool])

theorem fixDns_reliable_iff :
    (looksSuccessful (textOf (systemctlMessage outcomes.systemctl "restart" resolvedUnit)) = true →
        policy.canRestartUnit resolvedUnit = true ∧ exitedWell outcomes.systemctl = true) ↔
      FixDnsReliable policy outcomes := by
  unfold FixDnsReliable
  cases outcomes.systemctl with
  | error e => exact looksSuccessful_imp_iff (by simp [exitedWell])
  | ok exited =>
    obtain ⟨success, stderr⟩ := exited
    cases success with
    | false => exact looksSuccessful_imp_iff (by simp [exitedWell])
    | true =>
      have hok : looksSuccessful s!"restart {resolvedUnit} ok" = true := by decide +kernel
      constructor
      · exact fun h => (h hok).1
      · exact fun h _ => ⟨h, rfl⟩

theorem rotateJournal_reliable_iff :
    (looksSuccessful (match outcomes.journalctl with
        | .ok _ => "journal vacuumed"
        | .error e => e) = true → True ∧ exitedWell outcomes.journalctl = true) ↔
      RotateJournalReliable outcomes := by
  unfold RotateJournalReliable
  cases outcomes.journalctl with
  | error e => exact looksSuccessful_imp_iff (by simp [exitedWell])
  | ok exited =>
    have hok : looksSuccessful "journal vacuumed" = true := by decide +kernel
    exact ⟨fun h => (h hok).2, fun h _ => ⟨trivial, h⟩⟩

theorem executeAction_reliable_iff (action : RemediationActionSpec) (log : List AuditEntry) :
    ((executeAction policy none outcomes action log).1.success = true →
        Permitted policy action ∧ Done outcomes action) ↔
      Reliable policy outcomes action := by
  show (looksSuccessful (actionMessage policy none outcomes action log).1 = true → _) ↔ _
  obtain ⟨name, target⟩ := action
  unfold actionMessage
  dsimp only
  split
  · exact restart_reliable_iff target log
  · exact fixDns_reliable_iff
  · exact rotateJournal_reliable_iff
  · next hrestart hdns hjournal =>
    have hmessage : looksSuccessful ("unsupported action: " ++ name) = false := by
      have hfixed : contains "unsupported action: " "unsupported" = true := by decide +kernel
      rw [looksSuccessful_eq, saysFailed,
        contains_append_of_last (c := ' ') (by decide) (by decide +kernel), hfixed, Bool.true_or,
        Bool.or_true]
      rfl
    refine iff_of_true (fun h => ?_) ?_
    · have h : looksSuccessful ("unsupported action: " ++ name) = true := h
      rw [hmessage] at h
      cases h
    · unfold Reliable
      dsimp only
      split <;> first | contradiction | trivial

theorem executeActions_report (policy : AgentPolicy) (outcomes : ℕ → Outcomes) (i : ℕ)
    (actions : List RemediationActionSpec) (log : List AuditEntry) (k : ℕ) :
    (actions[k]? = none ∧ (executeActions policy none outcomes i actions log).1[k]? = none) ∨
      ∃ action log', actions[k]? = some action ∧
        (executeActions policy none outcomes i actions log).1[k]? =
          some (executeAction policy none (outcomes (i + k)) action log').1 := by
  induction actions generalizing i log k with
  | nil => exact .inl ⟨rfl, rfl⟩
  | cons action actions ih =>
    cases k with
    | zero => exact .inr ⟨action, log, rfl, rfl⟩
    | succ k =>
      have hrest := ih (i + 1) (executeAction policy none (outcomes i) action log).2 k
      rw [Nat.add_right_comm] at hrest
      exact hrest

/-- A remediation plan that runs without the helper reports truly exactly if all its actions are
reliable. -/
theorem reportsTruly_iff (policy : AgentPolicy) (outcomes : ℕ → Outcomes) (planId : String)
    (actions : List RemediationActionSpec) (log : List AuditEntry) :
    ReportsTruly policy outcomes actions
        (executeRemediationPlan policy none outcomes planId actions log).1 ↔
      ∀ i action, actions[i]? = some action → Reliable policy (outcomes i) action := by
  have hplace := executeActions_report policy outcomes 0 actions log
  have hreport : ∀ i action, actions[i]? = some action → ∃ log',
      (executeActions policy none outcomes 0 actions log).1[i]? =
        some (executeAction policy none (outcomes i) action log').1 := by
    intro i action haction
    rcases hplace i with
      ⟨hnone, -⟩ | ⟨action', log', haction', hresult⟩
    · rw [haction] at hnone
      cases hnone
    · obtain rfl := Option.some.inj (haction.symm.trans haction')
      rw [Nat.zero_add] at hresult
      exact ⟨log', hresult⟩
  constructor
  · intro htruly i action haction
    obtain ⟨log', hresult⟩ := hreport i action haction
    exact (executeAction_reliable_iff action log').mp (htruly.each i action _ haction hresult)
  · intro hreliable
    have heach : ∀ i action report, actions[i]? = some action →
        (executeActions policy none outcomes 0 actions log).1[i]? = some report →
        report.success = true → Permitted policy action ∧ Done (outcomes i) action := by
      intro i action report haction hget
      obtain ⟨log', hresult⟩ := hreport i action haction
      obtain rfl := Option.some.inj (hget.symm.trans hresult)
      exact (executeAction_reliable_iff action log').mpr (hreliable i action haction)
    refine ⟨heach, fun hall i action haction => ?_⟩
    obtain ⟨log', hresult⟩ := hreport i action haction
    exact heach i action _ haction hresult
      (List.all_eq_true.mp hall _ (List.mem_of_getElem? hresult))

theorem denial_reported_successful :
    (executeRemediationPlan {} none (fun _ => ⟨.ok (), .ok ⟨true, ""⟩, .ok ⟨true, ""⟩⟩) "plan-1"
        [⟨"restart_unit", "sshd.service"⟩] []).1 =
      ⟨"plan-1", true, [⟨"restart_unit", true, "restart_unit denied by policy for sshd.service"⟩]⟩ ∧
    ¬ Permitted {} ⟨"restart_unit", "sshd.service"⟩ :=
  ⟨by decide +kernel, show ¬ (false = true) by decide⟩

end

end Executor

end Agent

end Guestkit
