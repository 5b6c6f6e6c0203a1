import Guestkit.Boot.Engine

/-! The results of the migration checks, and how the results of boot checks become such results. -/

namespace Guestkit.Migration

open Guestkit Lib.Text

inductive ReadinessCategory where
  | boot
  | storage
  | network
  | driver
  | application
  | security
  deriving DecidableEq

def ReadinessCategory.all : List ReadinessCategory :=
  [.boot, .storage, .network, .driver, .application, .security]

inductive RemediationHint where
  | addVirtioToInitramfs
  | convertFstabToUuid
  | repairBootloader
  | enableSerialConsole
  | removeHypervisorTools (packages : List String)
  | scheduleSelinuxRelabel
  | injectWindowsDriver (driver : String)
  | registerBootCritical (driver : String)
  | suspendBitLocker
  | removeGhostNics (instanceIds : List String)
  | preserveStaticIp
  | manual (instructions : String)
  deriving DecidableEq

def RemediationHint.debug (std : StdText) : RemediationHint → String
  | addVirtioToInitramfs => "AddVirtioToInitramfs"
  | convertFstabToUuid => "ConvertFstabToUuid"
  | repairBootloader => "RepairBootloader"
  | enableSerialConsole => "EnableSerialConsole"
  | removeHypervisorTools packages =>
    "RemoveHypervisorTools \x7b packages: " ++ std.debugList packages ++ " \x7d"
  | scheduleSelinuxRelabel => "ScheduleSelinuxRelabel"
  | injectWindowsDriver driver =>
    "InjectWindowsDriver \x7b driver: " ++ std.debug driver ++ " \x7d"
  | registerBootCritical driver =>
    "RegisterBootCritical \x7b driver: " ++ std.debug driver ++ " \x7d"
  | suspendBitLocker => "SuspendBitLocker"
  | removeGhostNics instanceIds =>
    "RemoveGhostNics \x7b instance_ids: " ++ std.debugList instanceIds ++ " \x7d"
  | preserveStaticIp => "PreserveStaticIp"
  | manual instructions => "Manual \x7b instructions: " ++ std.debug instructions ++ " \x7d"

/-- The weights of all checks are whole numbers. -/
structure MigrationCheckResult where
  id : String
  name : String
  category : ReadinessCategory
  passed : Bool
  severity : CheckSeverity
  message : String
  weight : Nat
  remediation : Option RemediationHint

namespace MigrationCheckResult

def pass (id name : String) (category : ReadinessCategory) (weight : Nat) (message : String) :
    MigrationCheckResult :=
  { id, name, category, passed := true, severity := .info, message, weight, remediation := none }

def fail (id name : String) (category : ReadinessCategory) (weight : Nat)
    (severity : CheckSeverity) (message : String) (remediation : Option RemediationHint) :
    MigrationCheckResult :=
  { id, name, category, passed := false, severity, message, weight, remediation }

end MigrationCheckResult

def bootCheck (bootReport : BootabilityReport) (bootId migId : String)
    (category : ReadinessCategory) (weight : Nat) (remediation : Option RemediationHint) :
    Option MigrationCheckResult :=
  (bootReport.checks.find? (·.id == bootId)).map fun src =>
    { id := migId
      name := src.name
      category
      passed := src.passed
      severity := if src.passed then .info else src.severity
      message := src.message
      weight
      remediation := if src.passed then none else remediation }

def Blocks (check : MigrationCheckResult) : Prop :=
  check.passed = false ∧ check.severity = .blocker

end Guestkit.Migration
