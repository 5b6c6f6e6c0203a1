import Guestkit.Lib.Shell.Script
import Guestkit.Lib.Text
import Guestkit.Plan.Types

/-! Plans as scripts: what is written for a plan, for its operations and for what is done after
them, as a shell script and as an Ansible playbook. -/

namespace Guestkit.Plan

open Lib Lib.Text Lib.Shell

structure ExportCrates where
  displayTime : Int → String
  jsonToString : Json → String

def shellEscape (s : String) : String := "'" ++ replaceChars ['\''] "'\\''" s ++ "'"

def sedEscape (s : String) : String :=
  replaceChars ['\n'] "\\n" (replaceChars ['&'] "\\&" (replaceChars ['/'] "\\/"
    (replaceChars ['\\'] "\\\\" s)))

def trimComponents (rooted : Bool) (names : List String) : List String :=
  match rooted, names with
  | false, "." :: names => "." :: names.rdropWhile fun name => name = "" ∨ name = "."
  | _, names => names.rdropWhile fun name => name = "" ∨ name = "."

def parentText (path : String) : Option String :=
  let rooted := startsWith "/" path
  let names := split '/' ((stripPrefix "/" path).getD path)
  match trimComponents rooted names with
  | [] => none
  | present =>
    let parent := join "/" (trimComponents rooted present.dropLast)
    some (if rooted then "/" ++ parent else parent)

def lit (s : String) : Segment := .text s.toList

def arg (s : String) : Segment := .data s.toList s.toList

def escapedArg (s : String) : Segment := .data (shellEscape s).toList s.toList

def escapedArgs : List String → List Segment
  | [] => []
  | [s] => [escapedArg s]
  | s :: others => escapedArg s :: lit " " :: escapedArgs others

def writeln (segments : List Segment) : List Segment := segments ++ [lit "\n"]

namespace PlanExporter

def sedCommand (file before after : String) : List Segment :=
  writeln [lit "sed -i 's/", arg (sedEscape before), lit "/", arg (sedEscape after), lit "/g' ",
    escapedArg file]

variable (crates : ExportCrates)

/-- What is written for an operation, one entry for each `writeln!`.  The end of the line before the
end of a here-document belongs to its last line. -/
def bodyToBash : OperationType → List (List Segment)
  | .fileEdit fe =>
    writeln [lit "cp ", escapedArg fe.file, lit " \"$BACKUP_DIR/\""] ::
      fe.changes.map fun change => sedCommand fe.file change.before change.after
  | .fileWrite fw =>
    let parent := (parentText fw.path).getD "/"
    (if parent ≠ "/" ∧ parent ≠ "" then [writeln [lit "mkdir -p ", escapedArg parent]] else []) ++
      [writeln [lit "cat > ", escapedArg fw.path, lit " << 'GUESTKIT_EOF'\n",
        arg (trimEndMatches (· = '\n') fw.content ++ "\n"), lit "GUESTKIT_EOF"]] ++
      match fw.mode with
      | some mode => [writeln [lit "chmod ", escapedArg mode, lit " ", escapedArg fw.path]]
      | none => []
  | .symlink sl =>
    [writeln [lit "ln -sfn ", escapedArg sl.target, lit " ", escapedArg sl.linkPath]]
  | .fileDelete fd =>
    if fd.missingOk then [writeln [lit "rm -f ", escapedArg fd.path]]
    else [writeln [lit "rm ", escapedArg fd.path]]
  | .packageInstall pi => [writeln (lit "dnf install -y " :: escapedArgs pi.packages)]
  | .serviceOperation so =>
    (match so.state with
      | some state =>
        if state = "enabled" then [writeln [lit "systemctl enable ", escapedArg so.service]] else []
      | none => []) ++
      (if so.start then [writeln [lit "systemctl start ", escapedArg so.service]] else []) ++
      if so.restart then [writeln [lit "systemctl restart ", escapedArg so.service]] else []
  | .selinuxMode sm =>
    [writeln [lit "sed -i 's/SELINUX=", arg (sedEscape sm.current), lit "/SELINUX=",
      arg (sedEscape sm.target), lit "/g' ", escapedArg sm.file]]
  | .commandExec ce =>
    [writeln [lit "# [CommandExec] Review the following command before running:"],
      writeln [arg ce.command]]
  | .fileCopy fc =>
    [writeln [lit "cp ", escapedArg fc.source, lit " ", escapedArg fc.destination]]
  | .directoryCreate dc =>
    match dc.mode with
    | some mode => [writeln [lit "mkdir -p -m ", escapedArg mode, lit " ", escapedArg dc.path]]
    | none => [writeln [lit "mkdir -p ", escapedArg dc.path]]
  | .filePermissions fp =>
    writeln [lit "chmod ", escapedArg fp.mode, lit " ", escapedArg fp.path] ::
      match fp.owner with
      | some owner => [writeln [lit "chown ", escapedArg owner, lit " ", escapedArg fp.path]]
      | none => []
  | .driverInject di =>
    [writeln [lit "pnputil /add-driver ", escapedArg di.infPath, lit " /install  # driver: ",
      escapedArg di.driverName]]
  | .registryEdit re =>
    [writeln [lit "echo \"Registry edit: ", escapedArg re.key, lit " \\\\ ", escapedArg re.value,
        lit " = ", escapedArg (crates.jsonToString re.newData), lit " (type: ",
        escapedArg re.dataType, lit ")\""],
      writeln [lit "echo \"WARNING: Registry edits require Windows tools (reg.exe or regedit)\""]]

def validationToBash (op : Operation) : List (List Segment) :=
  match op.validation with
  | some validation =>
    [writeln [arg validation.command, lit " || \x7b echo \"Validation failed for ",
      escapedArg op.id, lit "\"; exit 1; \x7d"]]
  | none => []

def operationToBash (op : Operation) : List (List Segment) :=
  [writeln [lit "# ", arg op.id, lit ": ", arg op.description]] ++ bodyToBash crates op.opType ++
    validationToBash op ++ [writeln []]

def postActionToBash : PostApplyAction → List (List Segment)
  | .serviceRestart services =>
    services.map fun service => writeln [lit "systemctl restart ", escapedArg service]
  | .validation command _ => [writeln [arg command]]
  | .message message => [writeln [lit "echo ", escapedArg message]]
  | .rebootRequired reason => [writeln [lit "echo ", escapedArg ("Reboot required: " ++ reason)]]

/-- A backslash at the end of the profile is read together with what follows it. -/
def headerToBash (plan : FixPlan) : List (List Segment) :=
  [writeln [lit "#!/bin/bash"],
    writeln [lit "# Generated by GuestKit v1.2.5"],
    writeln [lit "# Profile: ", arg plan.profile],
    writeln [lit "# VM: ", arg plan.vm],
    writeln [lit "# Generated: ", arg (crates.displayTime plan.generated)],
    writeln [],
    writeln [lit "set -e"],
    writeln [],
    writeln [lit "echo \"Applying ", arg (plan.profile ++ " fixes..."), lit "\""],
    writeln [],
    writeln [lit "# Create backup"],
    writeln [lit "BACKUP_DIR=\"/backup/$(date +%Y%m%d-%H%M%S)\""],
    writeln [lit "mkdir -p \"$BACKUP_DIR\""],
    writeln []]

def footerToBash (plan : FixPlan) : List (List Segment) :=
  (if plan.postApply.isEmpty then []
    else writeln [lit "# Post-apply actions"] :: plan.postApply.flatMap postActionToBash) ++
    [writeln [], writeln [lit "echo \"✓ All fixes applied successfully\""]]

def toBash (plan : FixPlan) : List (List Segment) :=
  headerToBash crates plan ++ plan.operations.flatMap (operationToBash crates) ++ footerToBash plan

def sampleCrates : ExportCrates where
  displayTime _ := "2026-01-01 00:00:00 UTC"
  jsonToString _ := "null"

end PlanExporter

end Guestkit.Plan
