import Guestkit.Lib.Fs.Ops
import Guestkit.Plan.TopoSort

/-! The executor that applies a plan inside a running guest.  The machine is a file tree and an
outer state, which programs may change; programs, the hash of a file, the text of a JSON value and
the form of the rollback manifest come from outside and are given by a `Host`.  The guest is a Unix
system. -/

namespace Guestkit.Plan

open Lib Lib.Fs Lib.Text

structure CommandOutput where
  code : Option Int
  stdout : String

structure RollbackFileEntry where
  originalPath : String
  backupPath : Path
  removed : Bool
  deriving DecidableEq

structure RollbackManifest where
  files : List RollbackFileEntry
  deriving DecidableEq

/-- What the executor is given from outside: programs, which it runs by their arguments, the SHA-256
digest, the serialisations of `serde_json`, the `Debug` form of a text and the permission bits of
directories, which a file tree does not hold. -/
structure Host (ε : Type) where
  run : List String → Machine ε → Except String CommandOutput × Machine ε
  sha256 : Data → List UInt8
  renderJson : Json → String
  encodeManifest : RollbackManifest → String
  decodeManifest : String → Except String RollbackManifest
  debug : String → String
  dirMode : ε → Path → Nat

abbrev LiveM (ε : Type) := EStateM String (Machine ε)

section Machines

variable {ε α : Type}

def onFiles (m : FsM α) : LiveM ε α := fun s =>
  match m s.tree with
  | .ok a t => .ok a { s with tree := t }
  | .error e t => .error e.message { s with tree := t }

def fromFiles (f : Tree → Except Errno α) : LiveM ε α := fun s =>
  match f s.tree with
  | .ok a => .ok a s
  | .error e => .error e.message s

def Host.command (host : Host ε) (argv : List String) : LiveM ε (Except String CommandOutput) :=
  fun s => .ok (host.run argv s).1 (host.run argv s).2

end Machines

structure LivePlanExecutor where
  dryRun : Bool
  root : Path
  failFast : Bool
  autoRollback : Bool
  rootClean : root.Clean

def hexEncode (bytes : List UInt8) : String :=
  String.ofList (bytes.flatMap fun b =>
    [Nat.digitChar (b.toNat / 16), Nat.digitChar (b.toNat % 16)])

def Data.size : Data → Nat
  | .text s => s.utf8ByteSize
  | .raw bytes => bytes.length

def fileDigest {ε : Type} (host : Host ε) (t : Tree) (path : Path) : Option String :=
  match t.read path with
  | .ok data =>
    some (toString (Data.size data) ++ " bytes, sha256:" ++ hexEncode ((host.sha256 data).take 8))
  | .error _ => none

def describeChange {ε : Type} (host : Host ε) (op : Operation) : String :=
  match op.opType with
  | .fileEdit fe => "edit " ++ fe.file ++ " (" ++ toString fe.changes.length ++ " change(s))"
  | .fileWrite fw => "write " ++ fw.path
  | .symlink sl => "symlink " ++ sl.linkPath ++ " -> " ++ sl.target
  | .fileDelete fd => "delete " ++ fd.path
  | .commandExec ce => "run: " ++ ce.command
  | .filePermissions fp => "chmod " ++ fp.mode ++ " " ++ fp.path
  | .directoryCreate dc => "mkdir -p " ++ dc.path
  | .fileCopy fc => "copy " ++ fc.source ++ " -> " ++ fc.destination
  | .selinuxMode sm => "SELinux " ++ sm.current ++ " -> " ++ sm.target ++ " in " ++ sm.file
  | .packageInstall pi => "install packages: " ++ join ", " pi.packages
  | .serviceOperation so => "service op on " ++ so.service
  | .registryEdit re =>
    "registry set " ++ re.key ++ "\\" ++ re.value ++ " = " ++ host.renderJson re.newData
  | .driverInject di =>
    "inject driver " ++ di.driverName ++ " from " ++ di.infPath ++ " (boot_critical=" ++
      toString di.bootCritical ++ ")"

def describeRollback (op : Operation) : String :=
  match op.undo with
  | some (.command command) => "run: " ++ command
  | some (.fileChanges changes) => "revert " ++ toString changes.length ++ " file change(s)"
  | some (.data _) => "apply recorded undo data"
  | none =>
    match op.opType with
    | .fileEdit _ | .fileWrite _ | .fileCopy _ | .filePermissions _ | .fileDelete _
    | .selinuxMode _ => "restore file snapshot from rollback directory"
    | _ => if op.reversible then "no automatic rollback recorded" else "NOT REVERSIBLE"

def backupName (path : String) : String :=
  replaceChars ['/', '\\', ':'] "_" (trimStartMatches (· = '/') path)

def backupPathFor (op : Operation) (rollbackDir : Path) : Option String :=
  let file := match op.opType with
    | .fileEdit fe => some fe.file
    | .fileWrite fw => some fw.path
    | .fileDelete fd => some fd.path
    | .fileCopy fc => some fc.destination
    | .filePermissions fp => some fp.path
    | .selinuxMode sm => some sm.file
    | .symlink sl => some sl.linkPath
    | _ => none
  file.map fun f => (rollbackDir.join (Path.ofString (backupName f))).display

def planIdFor (plan : FixPlan) : String :=
  replaceChars ['/'] "_" plan.vm ++ "-" ++ toString plan.generated

namespace LivePlanExecutor

variable {ε : Type}

def new (dryRun : Bool) : LivePlanExecutor :=
  { dryRun
    root := ["", ""]
    failFast := false
    autoRollback := false
    rootClean := by simp [Path.Clean] }

def forMigration (dryRun : Bool) : LivePlanExecutor :=
  { dryRun
    root := ["", ""]
    failFast := true
    autoRollback := true
    rootClean := by simp [Path.Clean] }

variable (self : LivePlanExecutor)

/-- Maps an operation's path, an absolute path of the guest, under the root.  A drive letter is
dropped with the slashes. -/
def resolve (path : String) : Path :=
  if self.root.isRoot then Path.ofString path
  else
    let driveLetter := match path.toList with
      | _ :: ':' :: _ => true
      | _ => false
    let stripped := trimStartMatches (· = '\\') (trimStartMatches (· = ':')
      (trimStartMatches (fun c => c.isAlpha && driveLetter)
        (trimStartMatches (· = '/') path)))
    self.root.join (Path.ofString stripped)

def rollbackRoot : Path :=
  if self.root.isRoot then ["", "var", "lib", "guestkit", "rollback"]
  else self.root.join ["guestkit-rollback"]

def rollbackDir (plan : FixPlan) : Path :=
  self.rollbackRoot.join (Path.ofString (planIdFor plan))

variable (host : Host ε)

def captureBefore (op : Operation) :
    LiveM ε (Option String) := do
  let s ← get
  match op.opType with
  | .fileEdit fe => pure (fileDigest host s.tree (self.resolve fe.file))
  | .fileWrite fw => pure (fileDigest host s.tree (self.resolve fw.path))
  | .symlink sl =>
    pure (some ("link=" ++ toString (s.tree.pathExists (self.resolve sl.linkPath)) ++ " target=" ++
      sl.target))
  | .fileDelete fd =>
    pure (some ("exists=" ++ toString (s.tree.pathExists (self.resolve fd.path))))
  | .fileCopy fc => pure (fileDigest host s.tree (self.resolve fc.destination))
  | .filePermissions fp =>
    let mode := match s.tree.stat (self.resolve fp.path) with
      | some (.file _ mode) => some mode
      | some .dir => some (host.dirMode s.outer (self.resolve fp.path))
      | _ => none
    pure (mode.map fun m => "mode " ++ String.ofList (Nat.toDigits 8 (m % 0o10000)))
  | .directoryCreate dc =>
    pure (some ("exists=" ++ toString (s.tree.pathExists (self.resolve dc.path))))
  | .selinuxMode sm =>
    match s.tree.readToString (self.resolve sm.file) with
    | .ok content =>
      pure ((lines content).find? fun l => startsWith "SELINUX=" (trimStart l))
    | .error _ => pure none
  | .serviceOperation so =>
    match ← host.command ["systemctl", "is-active", so.service] with
    | .ok out => pure (some (trim out.stdout))
    | .error _ => pure none
  | .registryEdit _ => pure none
  | .driverInject di =>
    pure (some ("driver " ++ di.driverName ++ " not yet injected (source " ++ di.source ++ ")"))
  | .packageInstall _ | .commandExec _ => pure none

def runOpValidation (op : Operation) : LiveM ε (Option ValidationOutcome) := do
  match op.validation with
  | none => pure none
  | some check =>
    match ← host.command ["sh", "-c", check.command] with
    | .ok out =>
      let passed := out.code = some check.expectedExit ∧
        (match check.expectedOutput with
          | some expected => contains out.stdout expected
          | none => true) = true
      pure (some
        { command := check.command
          exitCode := out.code
          passed := passed
          detail := if passed then none else some (String.ofList (out.stdout.toList.take 500)) })
    | .error e =>
      pure (some { command := check.command, exitCode := none, passed := false, detail := some e })

def readManifest (manifestPath : Path) : LiveM ε RollbackManifest := do
  if (← get).tree.pathExists manifestPath then
    match host.decodeManifest (← fromFiles (·.readToString manifestPath)) with
    | .ok manifest => pure manifest
    | .error e => throw e
  else pure { files := [] }

/-- Copies a file that exists to the rollback directory and enters it in the manifest. -/
def snapshotFile (path rollbackDir : Path) : LiveM ε Unit := do
  if (← get).tree.pathExists path then
    let backupPath := rollbackDir.join (Path.ofString (backupName path.display))
    onFiles (copy path backupPath)
    let manifestPath := rollbackDir.join ["manifest.json"]
    let manifest ← readManifest host manifestPath
    let original := path.display
    if manifest.files.any fun f => f.originalPath = original then pure ()
    else
      let entry := { originalPath := original, backupPath := backupPath, removed := false }
      onFiles (write manifestPath (host.encodeManifest { files := manifest.files ++ [entry] }))

def snapshotExisting (path rollbackDir : Path) : LiveM ε Unit := do
  if (← get).tree.pathExists path then snapshotFile host path rollbackDir else pure ()

/-- Replaces the first line with the text of the change, or else the line with its number. -/
def applyChange (lines : List String) (change : FileChange) : List String :=
  match lines.findIdx? fun line => trim line = trim change.before with
  | some i => lines.set i change.after
  | none =>
    if 0 < change.line ∧ change.line ≤ lines.length then lines.set (change.line - 1) change.after
    else lines

def unlines (lines : List String) : String := join "\n" lines ++ "\n"

def createParent (path : Path) : LiveM ε Unit :=
  match path.parent with
  | some parent => onFiles (createDirAll parent)
  | none => pure ()

def writeMode (path : Path) (mode : Option String) : LiveM ε Unit :=
  match mode with
  | some mode =>
    onFiles (setMode path ((parseUnsigned 8 (2 ^ 32) mode).toOption.getD 0o644 % 0o10000))
  | none => pure ()

def removeExisting (link : Path) : LiveM ε Unit := do
  let t := (← get).tree
  if t.pathExists link ∨ t.isSymlink link then
    tryCatch (onFiles (removeFile link)) fun _ => pure ()
  else pure ()

def rewriteSelinux (path : Path) (sm : SELinuxMode) : LiveM ε Unit := do
  match (← get).tree.readToString path with
  | .ok content =>
    let rewrite (line : String) : String :=
      let trimmed := trimStart line
      if ¬startsWith "#" trimmed ∧ startsWith ("SELINUX=" ++ sm.current) trimmed then
        "SELINUX=" ++ sm.target
      else line
    onFiles (write path (unlines ((lines content).map rewrite)))
  | .error _ => pure ()

def status (context : Option String) (argv : List String) :
    LiveM ε (Option Int) := do
  match ← host.command argv with
  | .ok out => pure out.code
  | .error e => throw (context.getD e)

def installPackages (packages : List String) : LiveM ε Unit := do
  if packages.isEmpty then pure ()
  else
    let t := (← get).tree
    let argv ←
      if t.pathExists (Path.ofString "/usr/bin/apt-get") then
        pure (["apt-get", "install", "-y"] ++ packages)
      else if t.pathExists (Path.ofString "/usr/bin/dnf") then
        pure (["dnf", "install", "-y"] ++ packages)
      else if t.pathExists (Path.ofString "/usr/bin/zypper") then
        pure (["zypper", "install", "-y"] ++ packages)
      else throw "no supported package manager found"
    if (← status host none argv) = some 0 then pure () else throw "package install failed"

def applyFileEdit (fe : FileEdit) (rollbackDir : Path) :
    LiveM ε Bool := do
  let path := self.resolve fe.file
  snapshotFile host path rollbackDir
  let content ← tryCatch (fromFiles (·.readToString path)) fun _ =>
    throw ("read " ++ path.display)
  onFiles (write path (unlines (fe.changes.foldl applyChange (lines content))))
  pure true

def applyFileWrite (fw : FileWrite)
    (rollbackDir : Path) : LiveM ε Bool := do
  let path := self.resolve fw.path
  snapshotExisting host path rollbackDir
  createParent path
  onFiles (write path (if endsWith "\n" fw.content then fw.content else fw.content ++ "\n"))
  writeMode path fw.mode
  pure true

def applySymlink (sl : Symlink) : LiveM ε Bool := do
  let link := self.resolve sl.linkPath
  createParent link
  removeExisting link
  onFiles (symlink sl.target link)
  pure true

section

include host

def applyFileDelete (fd : FileDelete)
    (rollbackDir : Path) : LiveM ε Bool := do
  let path := self.resolve fd.path
  let t := (← get).tree
  if ¬t.pathExists path ∧ ¬t.isSymlink path then
    if fd.missingOk then pure true
    else throw ("File to delete not found: " ++ fd.path)
  else
    snapshotExisting host path rollbackDir
    onFiles (removeFile path)
    pure true

def applyCommandExec (ce : CommandExec) : LiveM ε Bool := do
  let argv := match ce.interpreter with
    | some interp =>
      match splitWhitespace interp with
      | [] => ["sh", ce.command]
      | program :: args => program :: args ++ [ce.command]
    | none => ["sh", "-c", ce.command]
  let code ← status host (some ("exec " ++ ce.command)) argv
  if code.getD (-1) = ce.expectedExit then pure true
  else
    let shown := match code with
      | some c => "Some(" ++ toString c ++ ")"
      | none => "None"
    throw ("command '" ++ ce.command ++ "' exited with " ++ shown ++ ", expected " ++
      toString ce.expectedExit)

def applyFilePermissions (fp : FilePermissions)
    (rollbackDir : Path) : LiveM ε Bool := do
  let path := self.resolve fp.path
  snapshotFile host path rollbackDir
  match parseUnsigned 8 (2 ^ 32) (if fp.mode.isEmpty then "0" else fp.mode) with
  | .ok mode =>
    onFiles (setMode path (mode % 0o10000))
    pure true
  | .error e => throw e

def applyFileCopy (fc : FileCopy) (rollbackDir : Path) :
    LiveM ε Bool := do
  let source := self.resolve fc.source
  let destination := self.resolve fc.destination
  if fc.backup then snapshotExisting host destination rollbackDir
  createParent destination
  onFiles (copy source destination)
  pure true

def applySelinuxMode (sm : SELinuxMode)
    (rollbackDir : Path) : LiveM ε Bool := do
  let path := self.resolve sm.file
  snapshotFile host path rollbackDir
  rewriteSelinux path sm
  let _ ← host.command ["setenforce", if sm.target = "enforcing" then "1" else "0"]
  pure true

def applyServiceOperation (so : ServiceOperation) : LiveM ε Bool := do
  if so.restart then
    let _ ← host.command ["systemctl", "restart", so.service]
  else if so.start then
    let _ ← host.command ["systemctl", "start", so.service]
  match so.state with
  | some state =>
    let _ ← host.command
      ["systemctl", if state = "enabled" then "enable" else "disable", so.service]
  | none => pure ()
  pure true

def applyOperation (op : Operation)
    (rollbackDir : Path) : LiveM ε Bool :=
  match op.opType with
  | .fileEdit fe => self.applyFileEdit host fe rollbackDir
  | .fileWrite fw => self.applyFileWrite host fw rollbackDir
  | .symlink sl => self.applySymlink sl
  | .fileDelete fd => self.applyFileDelete host fd rollbackDir
  | .commandExec ce => applyCommandExec host ce
  | .filePermissions fp => self.applyFilePermissions host fp rollbackDir
  | .directoryCreate dc => do
    onFiles (createDirAll (self.resolve dc.path))
    pure true
  | .fileCopy fc => self.applyFileCopy host fc rollbackDir
  | .selinuxMode sm => self.applySelinuxMode host sm rollbackDir
  | .packageInstall pi => do
    installPackages host pi.packages
    pure true
  | .serviceOperation so => applyServiceOperation host so
  | .registryEdit _ => pure false
  | .driverInject _ => throw "driver injection is a Windows operation"

end

structure Progress where
  outcomes : List OperationOutcome := []
  applied : Nat := 0
  failed : Nat := 0
  skipped : Nat := 0
  aborted : Bool := false

def blankOutcome (op : Operation) (status : OpStatus) : OperationOutcome :=
  { opId := op.id
    status
    beforeState := none
    plannedChange := describeChange host op
    executedChange := none
    backupPath := none
    validation := none
    rollbackProcedure := describeRollback op
    error := none }

def outcomeOf {α : Type} (m : LiveM ε α) (s : Machine ε) : Except String α × Machine ε :=
  match m s with
  | .ok a s' => (.ok a, s')
  | .error e s' => (.error e, s')

def capture (op : Operation) (s : Machine ε) :
    Option String × Machine ε :=
  match outcomeOf (self.captureBefore host op) s with
  | (.ok before, s') => (before, s')
  | (.error _, s') => (none, s')

def validated (op : Operation) (s : Machine ε) :
    Option ValidationOutcome × Machine ε :=
  match outcomeOf (runOpValidation host op) s with
  | (.ok validation, s') => (validation, s')
  | (.error _, s') => (none, s')

def applyStep (rollbackDir : Path) (op : Operation)
    (p : Progress) (s : Machine ε) : Progress × Machine ε :=
  if p.aborted then
    ({ p with
      outcomes := p.outcomes ++ [blankOutcome host op .notReached]
      skipped := p.skipped + 1 }, s)
  else
    let (before, s) := self.capture host op s
    let (result, s) := outcomeOf (self.applyOperation host op rollbackDir) s
    let outcome :=
      { blankOutcome host op .skipped with
        beforeState := before
        backupPath := backupPathFor op rollbackDir }
    match result with
    | .ok true =>
      let (validation, s) := validated host op s
      if (validation.map fun v => !v.passed).getD false then
        ({ p with
          outcomes := p.outcomes ++ [{ outcome with
            status := .failed
            validation
            error := some "post-operation validation failed" }]
          failed := p.failed + 1
          aborted := self.failFast }, s)
      else
        ({ p with
          outcomes := p.outcomes ++ [{ outcome with
            status := .applied
            validation
            executedChange := some (describeChange host op) }]
          applied := p.applied + 1 }, s)
    | .ok false => ({ p with outcomes := p.outcomes ++ [outcome], skipped := p.skipped + 1 }, s)
    | .error e =>
      ({ p with
        outcomes := p.outcomes ++ [{ outcome with status := .failed, error := some e }]
        failed := p.failed + 1
        aborted := self.failFast }, s)

def applyAll (self : LivePlanExecutor) (host : Host ε) (rollbackDir : Path) :
    List Operation → Progress → Machine ε → Progress × Machine ε
  | [], p, s => (p, s)
  | op :: ops, p, s =>
    let (p, s) := self.applyStep host rollbackDir op p s
    self.applyAll host rollbackDir ops p s

def restoreEntry (entry : RollbackFileEntry) : LiveM ε Unit := do
  if (← get).tree.pathExists entry.backupPath then
    createParent (Path.ofString entry.originalPath)
    onFiles (copy entry.backupPath (Path.ofString entry.originalPath))
  else if entry.removed then
    tryCatch (onFiles (removeFile (Path.ofString entry.originalPath))) fun _ => pure ()

def rollback (self : LivePlanExecutor) (host : Host ε) (planId : String) : LiveM ε String := do
  let rollbackDir := self.rollbackRoot.join (Path.ofString planId)
  if (← get).tree.isDir rollbackDir then
    let manifest ← readManifest host (rollbackDir.join ["manifest.json"])
    manifest.files.forM restoreEntry
    pure ("Rollback complete for plan " ++ planId)
  else throw ("rollback snapshot not found: " ++ planId)

def runPostApply (host : Host ε) : List PostApplyAction → LiveM ε Unit
  | [] => pure ()
  | .serviceRestart services :: actions => do
    services.forM fun svc => discard (host.command ["systemctl", "restart", svc])
    runPostApply host actions
  | .validation command _ :: actions => do
    let _ ← status host (some ("validation: " ++ command)) ["sh", "-c", command]
    runPostApply host actions
  | .message _ :: actions => runPostApply host actions
  | .rebootRequired _ :: actions => runPostApply host actions

def previewAll (self : LivePlanExecutor) (host : Host ε) :
    List Operation → Machine ε → List OperationOutcome × Machine ε
  | [], s => ([], s)
  | op :: ops, s =>
    let (before, s) := self.capture host op s
    let (outcomes, s) := self.previewAll host ops s
    ({ blankOutcome host op .dryRun with beforeState := before } :: outcomes, s)

def markRolledBack (o : OperationOutcome) : OperationOutcome :=
  if o.status = .applied then { o with status := .rolledBack } else o

def liveResult (rollbackDir : Path) (p : Progress) (rolledBack : Bool) :
    ApplyResult :=
  let counts := toString p.applied ++ " applied, " ++ toString p.failed ++ " failed"
  { success := p.failed = 0
    operationsApplied := p.applied
    operationsFailed := p.failed
    operationsSkipped := p.skipped
    message :=
      if p.failed = 0 then
        "Live plan applied (" ++ toString p.applied ++ " operations, rollback: " ++
          host.debug rollbackDir.display ++ ")"
      else if rolledBack then counts ++ " — file snapshots restored"
      else counts
    outcomes := if rolledBack then p.outcomes.map markRolledBack else p.outcomes
    rollbackDir := some rollbackDir.display }

def rollbackFailed (plan : FixPlan) (p : Progress) :
    LiveM ε Bool :=
  if 0 < p.failed ∧ self.autoRollback then
    tryCatch (do let _ ← self.rollback host (planIdFor plan); pure true) fun _ => pure false
  else pure false

def finish (plan : FixPlan) (p : Progress) :
    LiveM ε ApplyResult := do
  let rolledBack ← self.rollbackFailed host plan p
  runPostApply host (if p.failed = 0 then plan.postApply else [])
  pure (liveResult host (self.rollbackDir plan) p rolledBack)

def dryRunResult (outcomes : List OperationOutcome) (skipped : Nat) : ApplyResult :=
  { success := true
    operationsApplied := 0
    operationsFailed := 0
    operationsSkipped := skipped
    message := "Dry run completed - no changes made"
    outcomes
    rollbackDir := none }

def apply (order : HashOrder String Nat)
    (plan : FixPlan) : LiveM ε ApplyResult :=
  let rollbackDir := self.rollbackDir plan
  let sorted := topologicalSort order plan
  if self.dryRun then do
    let outcomes ← modifyGet (self.previewAll host sorted)
    pure (dryRunResult outcomes sorted.length)
  else do
    tryCatch (onFiles (createDirAll rollbackDir)) fun _ => throw "create rollback directory"
    let p ← modifyGet (self.applyAll host rollbackDir sorted {})
    self.finish host plan p

end LivePlanExecutor

end Guestkit.Plan
