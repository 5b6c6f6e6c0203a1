import Guestkit.Plan.Export
import Guestkit.Plan.Validate

/-! The steps of an exported plan: what an operation asks for, how a script and a playbook put it,
and when both have all of it, in an order that the operations can be done in. -/

namespace Guestkit.Plan.PlanExporter

open Lib Lib.Text Lib.Shell List

variable {crates : ExportCrates} {op : Operation} {head : String} {rest : List Segment}
  {so : ServiceOperation} {request : Request} {fp : FilePermissions}

/-! ### What an operation asks for -/

/-- A service that is not to be enabled is to be disabled, whatever its state is called. -/
inductive Request where
  | edit (file before after : String)
  | write (path content : String) (mode : Option String)
  | link (target path : String)
  | delete (path : String) (missingOk : Bool)
  | install (packages : List String)
  | enable (service : String) (on : Bool)
  | start (service : String)
  | restart (service : String)
  | selinux (file current target : String)
  | run (command : String)
  | copy (source destination : String)
  | makeDirectory (path : String) (mode : Option String)
  | chmod (path mode : String)
  | chown (path owner : String)
  | chgrp (path group : String)
  | driver (infPath driverName : String)
  | registry (key value data dataType : String)

def requests (crates : ExportCrates) : OperationType → List Request
  | .fileEdit fe => fe.changes.map fun change => .edit fe.file change.before change.after
  | .fileWrite fw => [.write fw.path fw.content fw.mode]
  | .symlink sl => [.link sl.target sl.linkPath]
  | .fileDelete fd => [.delete fd.path fd.missingOk]
  | .packageInstall pi => [.install pi.packages]
  | .serviceOperation so =>
    (match so.state with
      | some state => [.enable so.service (state = "enabled")]
      | none => []) ++
      (if so.start then [.start so.service] else []) ++
      if so.restart then [.restart so.service] else []
  | .selinuxMode sm => [.selinux sm.file sm.current sm.target]
  | .commandExec ce => [.run ce.command]
  | .fileCopy fc => [.copy fc.source fc.destination]
  | .directoryCreate dc => [.makeDirectory dc.path dc.mode]
  | .filePermissions fp =>
    [.chmod fp.path fp.mode] ++
      (match fp.owner with
        | some owner => [.chown fp.path owner]
        | none => []) ++
      match fp.group with
      | some group => [.chgrp fp.path group]
      | none => []
  | .driverInject di => [.driver di.infPath di.driverName]
  | .registryEdit re => [.registry re.key re.value (crates.jsonToString re.newData) re.dataType]

/-- The script is written in steps, one for each operation.  Each has all that its operation asks
for, and comes after those of the operations that it depends on. -/
structure Carries {α : Type} (crates : ExportCrates) (plan : FixPlan) (form : Request → List α)
    (script : List α) (steps : List (Operation × List α)) : Prop where
  written : ∃ front back, script = front ++ steps.flatMap Prod.snd ++ back
  whole : ∀ op ∈ plan.operations, ∃ step, (op, step) ∈ steps ∧
    ∀ request ∈ requests crates op.opType, form request <:+: step
  ordered : DependencyOrdered plan (steps.map Prod.fst)

end Guestkit.Plan.PlanExporter
