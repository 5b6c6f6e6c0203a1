import Guestkit.Guestfs.Device

/-! Mounting of the guest's file systems below the mount root of the handle. -/

namespace Guestkit

open Lib Lib.Fs Lib.Text

namespace Guestfs

variable {ε : Type}

/-- The directory `name` below the first base where it can be made. -/
def createFirst (name : String) : List Path → FsM (Option Path)
  | [] => pure none
  | base :: bases =>
    tryCatch
      (do
        createDirAll (base.join [name])
        pure (some (base.join [name])))
      fun _ => createFirst name bases

def createMountRootIn (pid n : Nat) : FsM (Option Path) :=
  createFirst ("guestkit-" ++ toString pid ++ "-" ++ toString n) [["", "run"], ["", "tmp"]]

variable (tools : Tools ε)

def createMountRoot : GuestM ε Path := fun s =>
  let (n, outer) := tools.fetchAdd s.machine.outer
  match createMountRootIn tools.pid n s.machine.tree with
  | .ok (some root) t => .ok root { s with machine := ⟨outer, t⟩ }
  | .ok none t | .error _ t =>
    .error (.commandFailed "Failed to create mount root under /run or /tmp")
      { s with machine := ⟨outer, t⟩ }

def ensureMountRoot : GuestM ε Path := do
  match (← get).guest.mountRoot with
  | some root => pure root
  | none =>
    let root ← createMountRoot tools
    modify fun s => { s with guest := { s.guest with mountRoot := some root } }
    pure root

/-- `..` in the mountpoint is kept. -/
def actualMountpoint (root : Path) (mountpoint : String) : Path :=
  if mountpoint = "/" then root
  else root.join (Path.ofString (trimStartMatches (· = '/') mountpoint))

def createMountpoint (target : Path) : GuestM ε Unit := fun s =>
  let made (t : Tree) : Session ε :=
    { s with
      machine := { s.machine with tree := t }
      log := .made target s.machine.tree t :: s.log }
  match createDirAll target s.machine.tree with
  | .ok () t => .ok () (made t)
  | .error e t => .error (.commandFailed ("Failed to create mountpoint: " ++ e.message)) (made t)

structure Prepared where
  mountable : String
  device : String
  target : Path

variable (mountable mountpoint : String)

def prepareMount : GuestM ε Prepared := do
  let s ← get
  orThrow s.guest.ensureReady
  let mountable ← orThrow (resolveMountable tools s.guest s.machine mountable)
  if (s.guest.mounted.lookup mountable).isSome then throw (.invalidState "already_mounted")
  else
    let device ← orThrow (s.guest.devicePartition mountable)
    let root ← ensureMountRoot tools
    createMountpoint (actualMountpoint root mountpoint)
    pure ⟨mountable, device, actualMountpoint root mountpoint⟩

def recordMount (mountable : String) (target : Path) : GuestM ε Unit :=
  modify fun s =>
    { s with guest := { s.guest with mounted := s.guest.mounted.insert mountable target.display } }

/-- What is already mounted is left to `ifMounted`. -/
def withPrepared (ifMounted : GuestM ε Unit)
    (next : Prepared → GuestM ε Unit) : GuestM ε Unit := do
  let prepared ← tryCatch (do pure (Except.ok (← prepareMount tools mountable mountpoint)))
    fun e => pure (.error e)
  match prepared with
  | .ok p => next p
  | .error e => if contains e.message "already_mounted" then ifMounted else throw e

def mountFailed (output : ProcessOutput) : Error :=
  .commandFailed ("Mount failed: " ++ output.stderr ++ ". You may need sudo/root permissions.")

def mountPrepared (args : List String) (p : Prepared) : GuestM ε Unit := do
  let output ← execute tools (.mount args p.device p.target) "Failed to execute mount: "
  if output.success then recordMount p.mountable p.target else throw (mountFailed output)

/-- Whether a mount with one of the options succeeds. -/
def tryOptions (tools : Tools ε) (p : Prepared) : List String → GuestM ε Bool
  | [] => pure false
  | opts :: rest => do
    match ← runCommand tools (.mount ["-o", opts] p.device p.target) with
    | .ok output => if output.success then pure true else tryOptions tools p rest
    | .error _ => tryOptions tools p rest

def roOptions (fsType : String) : String :=
  if startsWith "ext" fsType then "ro,noload"
  else if fsType = "xfs" then "ro,norecovery,nouuid"
  else "ro"

def roFallbacks (fsType : String) : List String :=
  if fsType = "xfs" then ["ro,norecovery"]
  else if startsWith "ext" fsType then ["ro"]
  else ["ro,norecovery", "ro,norecovery,nouuid", "ro,noload"]

def fsTypeOr (self : Guestfs) (m : Machine ε) (device : String) : String :=
  match tools.vfsType self device m with
  | .ok fsType => fsType
  | .error _ => "auto"

def mountRoPrepared (p : Prepared) : GuestM ε Unit := do
  let s ← get
  let fsType := fsTypeOr tools s.guest s.machine p.mountable
  let output ← execute tools (.mount ["-o", roOptions fsType] p.device p.target)
    "Failed to execute mount: "
  if output.success then recordMount p.mountable p.target
  else if ← tryOptions tools p (roFallbacks fsType) then recordMount p.mountable p.target
  else throw (mountFailed output)

def mountRo : GuestM ε Unit :=
  withPrepared tools mountable mountpoint (pure ()) (mountRoPrepared tools)

def execRemountRw (target : Path) : GuestM ε Bool := do
  match ← runCommand tools (.remount target) with
  | .ok output => pure output.success
  | .error _ => pure false

def hostSourceForMountpoint (m : Machine ε) (target : Path) : Option String :=
  match tools.ask (.findmnt target) m with
  | .ok output =>
    if output.success ∧ trim output.stdout ≠ "" then some (trim output.stdout) else none
  | .error _ => none

def execUmountPath (target : Path) : GuestM ε Unit := do
  let output ← execute tools (.umount target) "Failed to execute umount: "
  if output.success then pure ()
  else throw (.commandFailed ("umount " ++ target.display ++ " failed: " ++ output.stderr))

def execMountWithOpts (device : String) (target : Path) (opts : String) :
    GuestM ε Unit := do
  let output ← execute tools (.mount ["-o", opts] device target) "Failed to execute mount: "
  if output.success then pure ()
  else
    throw (.commandFailed ("mount -o " ++ opts ++ " " ++ device ++ " at " ++ target.display ++
      " failed: " ++ output.stderr))

def remountDevice (self : Guestfs) (m : Machine ε) (resolved : String)
    (target : Path) : Except Error String :=
  match hostSourceForMountpoint tools m target with
  | some device => .ok device
  | none => self.devicePartition resolved

/-- If the new mount fails, nothing is recorded any more. -/
def remountFresh (resolved : String) (target : Path) : GuestM ε Unit := do
  let s ← get
  let device ← orThrow (remountDevice tools s.guest s.machine resolved target)
  let fsType := fsTypeOr tools s.guest s.machine resolved
  execUmountPath tools target
  modify fun s => { s with guest := { s.guest with mounted := s.guest.mounted.erase resolved } }
  execMountWithOpts tools device target (if fsType = "xfs" then "rw,nouuid" else "rw")
  recordMount resolved target

def remountAt (resolved : String) (target : Path) : GuestM ε Unit := do
  if ← execRemountRw tools target then pure () else remountFresh tools resolved target

def remountRw (mountable : String) : GuestM ε Unit := do
  let s ← get
  let resolved ← orThrow (resolveMountable tools s.guest s.machine mountable)
  match s.guest.mounted.lookup resolved with
  | none =>
    throw (.invalidState ("already_mounted but no recorded mountpoint for " ++ resolved))
  | some mountpoint => remountAt tools resolved (Path.ofString mountpoint)

/-- Of the drives, only the first is looked at. -/
def checkWritable (allowed : Bool) : GuestM ε Unit := do
  match (← get).guest.drives with
  | drive :: _ =>
    if drive.readonly ∧ allowed = false then
      throw (.permissionDenied "Cannot mount read-write on read-only drive")
    else pure ()
  | [] => pure ()

def mount : GuestM ε Unit := do
  checkWritable false
  withPrepared tools mountable mountpoint (remountRw tools mountable) (mountPrepared tools [])

def dangerousOption (options : String) : Option String :=
  ((split ',' options.toLower).map trim).find? fun opt =>
    ["suid", "dev", "exec"].contains opt

def requestsRo (options : String) : Bool :=
  (split ',' options).any fun o => trim o = "ro"

def ifMounted (options mountable : String) : GuestM ε Unit :=
  if requestsRo options then pure () else remountRw tools mountable

def optionArgs (options : String) : List String :=
  if options = "" then [] else ["-o", options]

def mountOptions (options mountable mountpoint : String) : GuestM ε Unit := do
  match dangerousOption options with
  | some opt =>
    throw (.securityViolation ("Mount option '" ++ opt ++ "' is not allowed for security reasons"))
  | none =>
    checkWritable (contains options "ro")
    withPrepared tools mountable mountpoint (ifMounted tools options mountable)
      (mountPrepared tools (optionArgs options))

def allowedVfsTypes : List String :=
  ["proc", "sysfs", "devtmpfs", "tmpfs", "devpts", "cgroup", "cgroup2", "securityfs", "debugfs",
    "tracefs", "configfs", "fusectl", "pstore", "efivarfs", "bpf", "hugetlbfs", "mqueue",
    "overlay"]

def mountVfs (options vfstype mountable mountpoint : String) :
    GuestM ε Unit := do
  orThrow (← get).guest.ensureReady
  if vfstype ≠ "" ∧ allowedVfsTypes.contains vfstype = false then
    throw (.securityViolation ("VFS type '" ++ vfstype ++ "' is not in the allowed list: " ++
      join ", " allowedVfsTypes))
  else
    checkWritable (contains options "ro")
    withPrepared tools mountable mountpoint (ifMounted tools options mountable)
      (mountPrepared tools (optionArgs options ++ if vfstype = "" then [] else ["-t", vfstype]))

end Guestfs

inductive MountCall where
  | mountRo (mountable mountpoint : String)
  | mount (mountable mountpoint : String)
  | mountOptions (options mountable mountpoint : String)
  | mountVfs (options vfstype mountable mountpoint : String)

namespace MountCall

variable {ε : Type}

def mountpoint : MountCall → String
  | .mountRo _ mountpoint => mountpoint
  | .mount _ mountpoint => mountpoint
  | .mountOptions _ _ mountpoint => mountpoint
  | .mountVfs _ _ _ mountpoint => mountpoint

def run (tools : Tools ε) : MountCall → GuestM ε Unit
  | .mountRo mountable mountpoint => Guestfs.mountRo tools mountable mountpoint
  | .mount mountable mountpoint => Guestfs.mount tools mountable mountpoint
  | .mountOptions options mountable mountpoint =>
    Guestfs.mountOptions tools options mountable mountpoint
  | .mountVfs options vfstype mountable mountpoint =>
    Guestfs.mountVfs tools options vfstype mountable mountpoint

end MountCall

end Guestkit
