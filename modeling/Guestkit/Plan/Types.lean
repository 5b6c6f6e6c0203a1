import Guestkit.Lib.Json

/-! Fix plans: the operations that a plan lists, with what each of them reads, and the records that
applying a plan returns. -/

namespace Guestkit.Plan

open Lib

structure FileChange where
  line : Nat
  before : String
  after : String
  context : Option String := none

structure FileEdit where
  file : String
  backup : Bool := true
  changes : List FileChange

structure PackageInstall where
  packages : List String

structure ServiceOperation where
  service : String
  state : Option String := none
  start : Bool := false
  restart : Bool := false

structure SELinuxMode where
  file : String
  current : String
  target : String

structure RegistryEdit where
  key : String
  value : String
  currentData : Json
  newData : Json
  dataType : String

structure CommandExec where
  command : String
  expectedExit : Int := 0
  timeout : Option UInt64 := none
  interpreter : Option String := none

structure FileCopy where
  source : String
  destination : String
  backup : Bool := true

structure DirectoryCreate where
  path : String
  mode : Option String := none

structure FilePermissions where
  path : String
  mode : String
  owner : Option String := none
  group : Option String := none

structure DriverInject where
  infPath : String
  driverName : String
  bootCritical : Bool := false
  source : String := ""
  hostDir : Option String := none

structure FileWrite where
  path : String
  content : String
  mode : Option String := none

structure Symlink where
  target : String
  linkPath : String

structure FileDelete where
  path : String
  missingOk : Bool := false

inductive OperationType where
  | fileEdit (fe : FileEdit)
  | packageInstall (pi : PackageInstall)
  | serviceOperation (so : ServiceOperation)
  | selinuxMode (sm : SELinuxMode)
  | registryEdit (re : RegistryEdit)
  | commandExec (ce : CommandExec)
  | fileCopy (fc : FileCopy)
  | directoryCreate (dc : DirectoryCreate)
  | filePermissions (fp : FilePermissions)
  | driverInject (di : DriverInject)
  | fileWrite (fw : FileWrite)
  | symlink (sl : Symlink)
  | fileDelete (fd : FileDelete)

structure ValidationCheck where
  command : String
  expectedExit : Int := 0
  expectedOutput : Option String := none

inductive UndoInfo where
  | fileChanges (changes : List FileChange)
  | command (command : String)
  | data (fields : List (String × Json))

/-- The priority or the risk of an operation, the highest first. -/
inductive Priority where
  | critical
  | high
  | medium
  | low
  | info
  deriving DecidableEq

namespace Priority

def rank : Priority → Nat
  | critical => 0
  | high => 1
  | medium => 2
  | low => 3
  | info => 4

def debug : Priority → String
  | critical => "Critical"
  | high => "High"
  | medium => "Medium"
  | low => "Low"
  | info => "Info"

end Priority

structure Operation where
  id : String
  opType : OperationType
  priority : Priority := .medium
  description : String := ""
  risk : Priority := .medium
  reversible : Bool := true
  dependsOn : List String := []
  validation : Option ValidationCheck := none
  undo : Option UndoInfo := none

inductive PostApplyAction where
  | serviceRestart (services : List String)
  | validation (command : String) (expectedOutput : Option String)
  | message (message : String)
  | rebootRequired (reason : String)

structure PlanMetadata where
  author : String := "guestkit-profiles"
  reviewRequired : Bool := true
  reversible : Bool := true
  description : Option String := none
  tags : List String := []

/-- A plan for the disk or guest `vm`; `generated` is its time in seconds since the epoch. -/
structure FixPlan where
  version : String := "1.0"
  vm : String
  generated : Int
  profile : String := ""
  overallRisk : String := "unknown"
  estimatedDuration : String := "unknown"
  metadata : PlanMetadata := {}
  operations : List Operation
  postApply : List PostApplyAction := []

inductive OpStatus where
  | applied
  | skipped
  | failed
  | rolledBack
  | dryRun
  | notReached
  deriving DecidableEq

structure ValidationOutcome where
  command : String
  exitCode : Option Int
  passed : Bool
  detail : Option String
  deriving DecidableEq

structure OperationOutcome where
  opId : String
  status : OpStatus
  beforeState : Option String
  plannedChange : String
  executedChange : Option String
  backupPath : Option String
  validation : Option ValidationOutcome
  rollbackProcedure : String
  error : Option String
  deriving DecidableEq

structure ApplyResult where
  success : Bool
  operationsApplied : Nat
  operationsFailed : Nat
  operationsSkipped : Nat
  message : String
  outcomes : List OperationOutcome
  rollbackDir : Option String
  deriving DecidableEq

end Guestkit.Plan
