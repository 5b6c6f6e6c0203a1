import Guestkit.Guestfs.Device
import Guestkit.Lib.Hoare

/-! Closing a handle: its file systems are unmounted, its volume groups deactivated and its block
devices released, in that order.  A log tells for each release what the machine was like and whether
a lazy unmount had been used. -/

namespace Guestkit

open Lib Lib.Fs Lib.Text List

/-- What a handle is given from outside when it is closed: programs, time, the state of a network
block device, the removal of a directory.  Which file systems are mounted below a path is the
kernel's to know. -/
structure ShutdownTools (ε : Type) where
  needSudo : Bool
  order : HashOrder String String
  exec : List String → Machine ε → Except String ProcessOutput × Machine ε
  sleep : Nat → Machine ε → Machine ε
  nbdInUse : String → Machine ε → Bool
  removeDirAll : Path → Machine ε → Except Errno Unit × Machine ε
  mountedUnder : Path → Machine ε → Prop

structure Release (ε : Type) where
  machine : Machine ε
  lazyUnmountUsed : Bool

structure Closing (ε : Type) where
  guest : Guestfs
  lazyUnmountUsed : Bool := false
  activatedVgs : List String := []
  machine : Machine ε
  released : List (Release ε) := []

abbrev CloseM (ε : Type) := EStateM Error (Closing ε)

namespace Guestfs

def hasMounts (g : Guestfs) : Bool := !g.mounted.entries.isEmpty

end Guestfs

namespace Closing

variable {ε : Type} (tools : ShutdownTools ε)

def runTool (argv : List String) : CloseM ε (Except String ProcessOutput) :=
  modifyGet fun s =>
    let r := tools.exec argv s.machine
    (r.1, { s with machine := r.2 })

def pause (milliseconds : Nat) : CloseM ε Unit :=
  modify fun s => { s with machine := tools.sleep milliseconds s.machine }

def umountArgv (args : List String) : List String :=
  sudoPrefix tools.needSudo ++ "umount" :: args

def findmntArgv (root : Path) : List String := ["findmnt", "-R", root.display]

def modifyGuest (f : Guestfs → Guestfs) : CloseM ε Unit :=
  modify fun s => { s with guest := f s.guest }

def lazyUmount (mountpoint : String) : CloseM ε Unit := do
  match ← runTool tools (umountArgv tools ["-l", mountpoint]) with
  | .ok output =>
    if output.success then modify fun s => { s with lazyUnmountUsed := true } else pure ()
  | .error _ => pure ()

def forceUmount (mountpoint : String) : CloseM ε Unit := do
  match ← runTool tools (umountArgv tools ["-f", mountpoint]) with
  | .ok output => if output.success then pure () else lazyUmount tools mountpoint
  | .error _ => pure ()

/-- Unmounts what is mounted at a path and below, by force or lazily if need be. -/
def umountDeep (mountpoint : String) : CloseM ε Unit := do
  let _ ← runTool tools ["lsof", mountpoint]
  match ← runTool tools (umountArgv tools ["-R", mountpoint]) with
  | .ok output => if output.success then pure () else forceUmount tools mountpoint
  | .error e => throw (.commandFailed ("Failed to execute umount: " ++ e))

def umountEach : List String → CloseM ε Unit
  | [] => pure ()
  | mountpoint :: mountpoints => do
    umountDeep tools mountpoint
    umountEach mountpoints

def byDepth (mountpoints : List String) : List String :=
  mountpoints.mergeSort fun a b => count '/' b ≤ count '/' a

/-- All mounts are taken off the table, also those that could not be unmounted. -/
def umountAll : CloseM ε Unit := do
  let s ← get
  if s.guest.hasMounts then
    umountEach tools (byDepth ((tools.order.iter s.guest.mounted).map Prod.snd))
    modifyGuest fun g => { g with mounted := ∅ }
    let _ ← runTool tools ["sync"]
    pause tools 200
  else pure ()

def lazyFallback : CloseM ε Unit := do
  match (← get).guest.mountRoot with
  | some root =>
    let _ ← runTool tools (umountArgv tools ["-l", root.display])
    modify fun s => { s with lazyUnmountUsed := true }
  | none => pure ()

def reportsMounts (output : ProcessOutput) : Bool := output.stdout ≠ "" && output.success

def confirmsUnmount : Except String ProcessOutput → Bool
  | .ok output => !reportsMounts output
  | .error _ => false

def retryPause (left : Nat) : CloseM ε Unit := if left = 0 then pure () else pause tools 500

def verifyUnmounted (root : Path) : Nat → CloseM ε Unit
  | 0 =>
    throw (.commandFailed ("Unmount verification failed after 10 attempts. Filesystem under " ++
      root.display ++ " may still be active. Check with: findmnt -R " ++ root.display))
  | left + 1 => do
    let answer ← runTool tools (findmntArgv root)
    if confirmsUnmount answer then pure ()
    else
      retryPause tools left
      verifyUnmounted root left

def unmountFilesystems : CloseM ε Unit := do
  let s ← get
  if s.guest.hasMounts then
    tryCatch (umountAll tools) fun _ => lazyFallback tools
    match (← get).guest.mountRoot with
    | some root => verifyUnmounted tools root 10
    | none => pure ()
  else pure ()

/-- Waits for the processes that use the mounts, two seconds at most. -/
def awaitUsers : Nat → CloseM ε Unit
  | 0 => pure ()
  | rounds + 1 => do
    pause tools 200
    let s ← get
    match s.guest.hasMounts, s.guest.mountRoot with
    | true, some root =>
      match ← runTool tools ["fuser", "-m", root.display] with
      | .ok output => if output.success ∧ output.stdout ≠ "" then awaitUsers rounds else pure ()
      | .error _ => pure ()
    | _, _ => pure ()

def cleanupFilter (g : Guestfs) : List String :=
  if g.nbdDevice = none ∧ g.loopDevice = none then [] else ["--config", g.getLvmDeviceFilter]

def deactivateEach (config : List String) : List String → CloseM ε Unit
  | [] => pure ()
  | vg :: vgs => do
    let _ ← runTool tools (["vgchange", "-an", vg] ++ config)
    deactivateEach config vgs

def deactivateVolumeGroups : CloseM ε Unit := do
  let s ← get
  deactivateEach tools (cleanupFilter s.guest) s.activatedVgs
  modify fun s => { s with activatedVgs := [] }

def logRelease : CloseM ε Unit :=
  modify fun s => { s with released := ⟨s.machine, s.lazyUnmountUsed⟩ :: s.released }

/-- The device after `losetup`, which stays connected only if that cannot be run. -/
def detachLoop (loop : LoopDevice) (path : String) : CloseM ε LoopDevice := do
  match ← runTool tools (sudoPrefix tools.needSudo ++ ["losetup", "-d", path]) with
  | .ok _ => pure ⟨none, none⟩
  | .error _ => pure loop

def disconnectLoop (loop : LoopDevice) : CloseM ε LoopDevice :=
  match loop.image, loop.devicePath with
  | some _, some path => do
    logRelease
    detachLoop tools loop path
  | _, _ => pure loop

def awaitDisconnect (path : String) : Nat → CloseM ε Bool
  | 0 => pure false
  | rounds + 1 => do
    let s ← get
    if tools.nbdInUse path s.machine then
      pause tools 100
      awaitDisconnect path rounds
    else pure true

def forceDisconnect (path : String) : CloseM ε Unit := do
  let _ ← runTool tools (sudoPrefix tools.needSudo ++ ["qemu-nbd", "-d", path])
  pause tools 500

/-- The device after `qemu-nbd`, which stays connected only if that cannot be run. -/
def detachNbd (nbd : NbdDevice) : CloseM ε NbdDevice := do
  match ← runTool tools
    (sudoPrefix tools.needSudo ++ ["qemu-nbd", "--disconnect", nbd.devicePath]) with
  | .error _ => pure nbd
  | .ok _ =>
    if ← awaitDisconnect tools nbd.devicePath 20 then pure { nbd with image := none }
    else
      forceDisconnect tools nbd.devicePath
      pure { nbd with image := none }

def disconnectNbd (nbd : NbdDevice) : CloseM ε NbdDevice :=
  match nbd.image with
  | none => pure nbd
  | some _ => do
    logRelease
    detachNbd tools nbd

def dropNbd (nbd : NbdDevice) : CloseM ε Unit := do
  let _ ← disconnectNbd tools nbd
  pure ()

def dropLoop (loop : LoopDevice) : CloseM ε Unit := do
  let _ ← disconnectLoop tools loop
  pure ()

def releaseLoop : CloseM ε Unit := do
  match (← get).guest.loopDevice with
  | none => pure ()
  | some loop =>
    modifyGuest fun g => { g with loopDevice := none }
    let loop ← disconnectLoop tools loop
    dropLoop tools loop

def activeMounts : CloseM ε Bool := do
  match (← get).guest.mountRoot with
  | none => pure false
  | some root =>
    match ← runTool tools (findmntArgv root) with
    | .ok output => pure (reportsMounts output)
    | .error _ => pure false

/-- Whether the handle was closed on the way, which leaves the rest undone. -/
def releaseNbd : CloseM ε Bool := do
  match (← get).guest.nbdDevice with
  | none => pure false
  | some nbd =>
    modifyGuest fun g => { g with nbdDevice := none }
    if (← get).lazyUnmountUsed then
      dropNbd tools nbd
      pure false
    else if ← activeMounts tools then
      dropNbd tools nbd
      modifyGuest fun g => { g with state := .closed }
      pure true
    else
      let nbd ← disconnectNbd tools nbd
      dropNbd tools nbd
      pure false

/-! ### Removing the mount root -/

def lists (root : Path) (output : ProcessOutput) : Bool :=
  (lines output.stdout).any fun line =>
    match (splitWhitespace line)[2]? with
    | some field => field = root.display || startsWith (root.display ++ "/") field
    | none => false

def flush (hadMounts : Bool) : CloseM ε Unit :=
  if hadMounts then do
    let _ ← runTool tools ["sync"]
    pause tools 1000
  else pure ()

def listed (root : Path) : CloseM ε Bool := do
  match ← runTool tools ["mount"] with
  | .ok output => pure (lists root output)
  | .error _ => pure false

def removeRoot (root : Path) : CloseM ε Unit := do
  match ← modifyGet (fun s =>
    let r := tools.removeDirAll root s.machine
    (r.1, { s with machine := r.2 })) with
  | .ok () => pure ()
  | .error _ =>
    let _ ← runTool tools (sudoPrefix tools.needSudo ++ ["rm", "-rf", root.display])

def cleanUp (hadMounts : Bool) : CloseM ε Bool := do
  match (← get).guest.mountRoot with
  | none => pure true
  | some root =>
    modifyGuest fun g => { g with mountRoot := none }
    if (← get).lazyUnmountUsed then pure true
    else
      flush tools hadMounts
      if ← listed tools root then pure false
      else
        removeRoot tools root
        pure true

def quiesce : CloseM ε Unit := do
  modifyGuest fun g => { g with partitionTable := none }
  let _ ← runTool tools ["sync"]
  awaitUsers tools 10
  unmountFilesystems tools
  deactivateVolumeGroups tools

def releaseDevices : CloseM ε Bool := do
  releaseLoop tools
  releaseNbd tools

def finish (hadMounts closed : Bool) : CloseM ε Unit := do
  if closed then pure ()
  else if ← cleanUp tools hadMounts then modifyGuest fun g => { g with state := .closed }
  else pure ()

def shutdown : CloseM ε Unit := do
  let s ← get
  if s.guest.state = .closed then pure ()
  else
    quiesce tools
    let closed ← releaseDevices tools
    finish tools s.guest.hasMounts closed

structure Keeps (s s' : Closing ε) : Prop where
  loopDevice : s'.guest.loopDevice = s.guest.loopDevice
  nbdDevice : s'.guest.nbdDevice = s.guest.nbdDevice
  mountRoot : s'.guest.mountRoot = s.guest.mountRoot
  state : s'.guest.state = s.guest.state
  released : s'.released = s.released

theorem Keeps.refl (s : Closing ε) : Keeps s s := ⟨rfl, rfl, rfl, rfl, rfl⟩

instance : IsTrans (Closing ε) Keeps where
  trans _ _ _ h h' := ⟨h'.loopDevice.trans h.loopDevice, h'.nbdDevice.trans h.nbdDevice,
    h'.mountRoot.trans h.mountRoot, h'.state.trans h.state, h'.released.trans h.released⟩

section Quiesce

variable {tools}

theorem pure_keeps {α : Type} (a : α) : Always Keeps (pure a : CloseM ε α) := Keeps.refl

theorem runTool_keeps (argv : List String) : Always Keeps (runTool tools argv) :=
  fun _ => ⟨rfl, rfl, rfl, rfl, rfl⟩

theorem pause_keeps (milliseconds : Nat) : Always Keeps (pause tools milliseconds) :=
  fun _ => ⟨rfl, rfl, rfl, rfl, rfl⟩

theorem setLazy_keeps :
    Always Keeps (modify fun s => { s with lazyUnmountUsed := true } : CloseM ε Unit) :=
  fun _ => ⟨rfl, rfl, rfl, rfl, rfl⟩

theorem umountDeep_keeps (mountpoint : String) : Always Keeps (umountDeep tools mountpoint) := by
  refine (runTool_keeps _).bind fun _ => ?_
  refine (runTool_keeps _).bind fun deep => ?_
  cases deep with
  | error e => exact Keeps.refl
  | ok output =>
    dsimp only
    split
    · exact pure_keeps ()
    refine (runTool_keeps _).bind fun forced => ?_
    cases forced with
    | error e => exact pure_keeps ()
    | ok output =>
      dsimp only
      split
      · exact pure_keeps ()
      refine (runTool_keeps _).bind fun detached => ?_
      cases detached with
      | error e => exact pure_keeps ()
      | ok output =>
        dsimp only
        split
        · exact setLazy_keeps
        · exact pure_keeps ()

theorem umountEach_keeps (mountpoints : List String) :
    Always Keeps (umountEach tools mountpoints) := by
  induction mountpoints with
  | nil => exact pure_keeps ()
  | cons mountpoint mountpoints ih =>
    exact (umountDeep_keeps mountpoint).bind fun _ => ih

theorem umountAll_keeps : Always Keeps (umountAll tools) := by
  refine Always.get_bind fun s => ?_
  split
  · refine (umountEach_keeps _).bind fun _ => ?_
    refine Always.bind (fun _ => ⟨rfl, rfl, rfl, rfl, rfl⟩) fun _ => ?_
    exact (runTool_keeps _).bind fun _ => pause_keeps 200
  · exact pure_keeps ()

theorem lazyFallback_keeps : Always Keeps (lazyFallback tools) := by
  refine Always.get_bind fun s => ?_
  split
  · exact (runTool_keeps _).bind fun _ => setLazy_keeps
  · exact pure_keeps ()

theorem verifyUnmounted_keeps (root : Path) (attempts : Nat) :
    Always Keeps (verifyUnmounted tools root attempts) := by
  induction attempts with
  | zero => exact Keeps.refl
  | succ left ih =>
    refine (runTool_keeps _).bind fun answer => ?_
    split
    · exact pure_keeps ()
    · refine Always.bind ?_ fun _ => ih
      unfold retryPause
      split
      · exact pure_keeps ()
      · exact pause_keeps 500

theorem unmountFilesystems_keeps : Always Keeps (unmountFilesystems tools) := by
  refine Always.get_bind fun s => ?_
  split
  · refine (umountAll_keeps.tryCatch fun _ => lazyFallback_keeps).bind fun _ => ?_
    refine Always.get_bind fun s => ?_
    split
    · exact verifyUnmounted_keeps _ 10
    · exact pure_keeps ()
  · exact pure_keeps ()

theorem awaitUsers_keeps (rounds : Nat) : Always Keeps (awaitUsers tools rounds) := by
  induction rounds with
  | zero => exact pure_keeps ()
  | succ rounds ih =>
    refine (pause_keeps 200).bind fun _ => ?_
    refine Always.get_bind fun s => ?_
    split
    · refine (runTool_keeps _).bind fun users => ?_
      cases users with
      | error e => exact pure_keeps ()
      | ok output =>
        dsimp only
        split
        · exact ih
        · exact pure_keeps ()
    · exact pure_keeps ()

theorem deactivateEach_keeps (config vgs : List String) :
    Always Keeps (deactivateEach tools config vgs) := by
  induction vgs with
  | nil => exact pure_keeps ()
  | cons vg vgs ih => exact (runTool_keeps _).bind fun _ => ih

theorem quiesce_keeps : Always Keeps (quiesce tools) := by
  refine Always.bind (fun _ => ⟨rfl, rfl, rfl, rfl, rfl⟩) fun _ => ?_
  refine (runTool_keeps _).bind fun _ => ?_
  refine (awaitUsers_keeps 10).bind fun _ => ?_
  refine unmountFilesystems_keeps.bind fun _ => ?_
  refine Always.get_bind fun s => ?_
  refine (deactivateEach_keeps _ _).bind fun _ => ?_
  exact fun _ => ⟨rfl, rfl, rfl, rfl, rfl⟩

end Quiesce

end Closing

/-- Neither the disconnection of a device nor the passing of time mounts a file system, and
`findmnt` changes no mounts. -/
structure ShutdownTools.Quiet {ε : Type} (tools : ShutdownTools ε) : Prop where
  losetup : ∀ path m root,
    tools.mountedUnder root
      (tools.exec (sudoPrefix tools.needSudo ++ ["losetup", "-d", path]) m).2 →
    tools.mountedUnder root m
  qemuNbd : ∀ flag path m root,
    tools.mountedUnder root
      (tools.exec (sudoPrefix tools.needSudo ++ ["qemu-nbd", flag, path]) m).2 →
    tools.mountedUnder root m
  sleep : ∀ milliseconds m root,
    tools.mountedUnder root (tools.sleep milliseconds m) → tools.mountedUnder root m
  findmnt : ∀ target m root,
    tools.mountedUnder root (tools.exec (Closing.findmntArgv target) m).2 ↔
      tools.mountedUnder root m

namespace Closing

variable {ε : Type}

/-- What a device does that disconnects: the handle stays as it is, nothing is mounted, and each
release is at a machine with no more mounts than before. -/
structure Releases (tools : ShutdownTools ε) (s s' : Closing ε) : Prop where
  guest : s'.guest = s.guest
  lazyUnmountUsed : s'.lazyUnmountUsed = s.lazyUnmountUsed
  mounted : ∀ root, tools.mountedUnder root s'.machine → tools.mountedUnder root s.machine
  released : ∃ new, s'.released = new ++ s.released ∧
    ∀ r ∈ new, r.lazyUnmountUsed = s.lazyUnmountUsed ∧
      ∀ root, tools.mountedUnder root r.machine → tools.mountedUnder root s.machine

section Releasing

variable {tools : ShutdownTools ε}
variable {s s' : Closing ε}

theorem Releases.of_machine (hguest : s'.guest = s.guest)
    (hlazy : s'.lazyUnmountUsed = s.lazyUnmountUsed) (hreleased : s'.released = s.released)
    (hmounted : ∀ root, tools.mountedUnder root s'.machine → tools.mountedUnder root s.machine) :
    Releases tools s s' :=
  ⟨hguest, hlazy, hmounted, [], hreleased, by simp⟩

theorem Releases.refl (s : Closing ε) : Releases tools s s :=
  .of_machine rfl rfl rfl fun _ => id

instance : IsTrans (Closing ε) (Releases tools) := by
  refine ⟨fun s s' s'' h h' => ?_⟩
  obtain ⟨new, hnew, hfirst⟩ := h.released
  obtain ⟨new', hnew', hsecond⟩ := h'.released
  refine ⟨h'.guest.trans h.guest, h'.lazyUnmountUsed.trans h.lazyUnmountUsed,
    fun root hm => h.mounted root (h'.mounted root hm), new' ++ new, ?_, fun r hr => ?_⟩
  · rw [hnew', hnew, append_assoc]
  · rcases mem_append.mp hr with hr | hr
    · obtain ⟨hlazy, hmounted⟩ := hsecond r hr
      exact ⟨hlazy.trans h.lazyUnmountUsed, fun root hm => h.mounted root (hmounted root hm)⟩
    · exact hfirst r hr

theorem pure_releases {α : Type} (a : α) : Ends (Releases tools) (pure a : CloseM ε α) :=
  Ends.pure Releases.refl a

theorem runTool_eq (argv : List String) (s : Closing ε) :
    runTool tools argv s = .ok (tools.exec argv s.machine).1
      { s with machine := (tools.exec argv s.machine).2 } := rfl

theorem runTool_releases {argv : List String}
    (h : ∀ m root, tools.mountedUnder root (tools.exec argv m).2 → tools.mountedUnder root m) :
    Ends (Releases tools) (runTool tools argv) :=
  fun s => ⟨_, _, rfl, .of_machine rfl rfl rfl (h s.machine)⟩

def logged (s : Closing ε) : Closing ε :=
  { s with released := ⟨s.machine, s.lazyUnmountUsed⟩ :: s.released }

theorem logged_releases (s : Closing ε) : Releases tools s (logged s) := by
  refine ⟨rfl, rfl, fun _ => id, [⟨s.machine, s.lazyUnmountUsed⟩], rfl, fun r hr => ?_⟩
  rw [mem_singleton.mp hr]
  exact ⟨rfl, fun _ => id⟩

theorem logRelease_releases : Ends (Releases tools) (logRelease : CloseM ε Unit) :=
  fun s => ⟨(), _, rfl, logged_releases s⟩

theorem Releases.mapGuest (h : Releases tools s s') (f : Guestfs → Guestfs) :
    Releases tools { s with guest := f s.guest } { s' with guest := f s'.guest } :=
  ⟨congrArg f h.guest, h.lazyUnmountUsed, h.mounted, h.released⟩

def FirstAt (tools : ShutdownTools ε) (s s' : Closing ε) : Prop :=
  ∃ new, s'.released = new ++ s.released ∧ ∃ r ∈ new,
    r.lazyUnmountUsed = s.lazyUnmountUsed ∧
      ∀ root, tools.mountedUnder root s.machine → tools.mountedUnder root r.machine

theorem FirstAt.of_log (h : Releases tools (logged s) s') :
    FirstAt tools s s' := by
  obtain ⟨new, hnew, -⟩ := h.released
  refine ⟨new ++ [⟨s.machine, s.lazyUnmountUsed⟩], ?_, ⟨s.machine, s.lazyUnmountUsed⟩, by simp, rfl,
    fun _ => id⟩
  rw [hnew, append_assoc]
  rfl

theorem FirstAt.later {s s' s'' : Closing ε} (h : FirstAt tools s s')
    (h' : Releases tools s' s'') : FirstAt tools s s'' := by
  obtain ⟨new, hnew, r, hr, hfirst⟩ := h
  obtain ⟨new', hnew', -⟩ := h'.released
  refine ⟨new' ++ new, ?_, r, mem_append_right new' hr, hfirst⟩
  rw [hnew', hnew, append_assoc]

theorem FirstAt.earlier {s s' s'' : Closing ε} (h : FirstAt tools s' s'')
    (hstep : Releases tools s s')
    (hmounted : ∀ root, tools.mountedUnder root s.machine → tools.mountedUnder root s'.machine) :
    FirstAt tools s s'' := by
  obtain ⟨new, hnew, r, hr, hlazy, hroot⟩ := h
  obtain ⟨new', hnew', -⟩ := hstep.released
  refine ⟨new ++ new', ?_, r, mem_append_left new' hr, hlazy.trans hstep.lazyUnmountUsed,
    fun root hm => hroot root (hmounted root hm)⟩
  rw [hnew, hnew', append_assoc]

/-! The state in which a device has been taken out of the handle. -/

def withoutLoop (s : Closing ε) : Closing ε :=
  { s with guest := { s.guest with loopDevice := none } }

def withoutNbd (closed : Bool) (s : Closing ε) : Closing ε :=
  { s with
    guest := { s.guest with
      nbdDevice := none
      state := if closed then .closed else s.guest.state } }

def LoopConnected (g : Guestfs) : Prop :=
  ∃ path image, g.loopDevice = some ⟨some path, some image⟩

def NbdConnected (g : Guestfs) : Prop := ∃ path image, g.nbdDevice = some ⟨path, some image⟩

/-- What the release of the devices leaves: a handle without devices, and in the log releases that
have the flag and at most the mounts of the beginning; there is one with all these mounts if a
device was connected, and none at all otherwise. -/
structure Handed (tools : ShutdownTools ε) (s : Closing ε) (closed : Bool) (s' : Closing ε) :
    Prop where
  loopDevice : s'.guest.loopDevice = none
  nbdDevice : s'.guest.nbdDevice = none
  mountRoot : s'.guest.mountRoot = s.guest.mountRoot
  state : s'.guest.state = if closed then .closed else s.guest.state
  lazyUnmountUsed : s'.lazyUnmountUsed = s.lazyUnmountUsed
  released : ∃ new, s'.released = new ++ s.released ∧
    ∀ r ∈ new, r.lazyUnmountUsed = s.lazyUnmountUsed ∧
      ∀ root, tools.mountedUnder root r.machine → tools.mountedUnder root s.machine
  first : LoopConnected s.guest ∨ NbdConnected s.guest → FirstAt tools s s'
  idle : ¬(LoopConnected s.guest ∨ NbdConnected s.guest) → s'.released = s.released

variable (hquiet : tools.Quiet)
include hquiet

theorem pause_releases (milliseconds : Nat) :
    Ends (Releases tools) (pause tools milliseconds) :=
  fun s => ⟨_, _, rfl, .of_machine rfl rfl rfl (hquiet.sleep milliseconds s.machine)⟩

theorem detachLoop_releases (loop : LoopDevice) (path : String) :
    Ends (Releases tools) (detachLoop tools loop path) := by
  refine (runTool_releases (hquiet.losetup _)).bind fun answer => ?_
  cases answer <;> exact pure_releases _

theorem disconnectLoop_releases (loop : LoopDevice) :
    Ends (Releases tools) (disconnectLoop tools loop) := by
  unfold disconnectLoop
  split
  · exact logRelease_releases.bind fun _ => detachLoop_releases hquiet _ _
  · exact pure_releases _

theorem awaitDisconnect_releases (path : String) (rounds : Nat) :
    Ends (Releases tools) (awaitDisconnect tools path rounds) := by
  induction rounds with
  | zero => exact pure_releases _
  | succ rounds ih =>
    refine Ends.get_bind fun s => ?_
    split
    · exact (pause_releases hquiet 100).bind fun _ => ih
    · exact pure_releases _

theorem detachNbd_releases (nbd : NbdDevice) :
    Ends (Releases tools) (detachNbd tools nbd) := by
  refine (runTool_releases (hquiet.qemuNbd _ _)).bind fun answer => ?_
  cases answer with
  | error e => exact pure_releases _
  | ok output =>
    refine (awaitDisconnect_releases hquiet _ 20).bind fun unused => ?_
    split
    · exact pure_releases _
    · refine Ends.bind ?_ fun _ => pure_releases _
      exact (runTool_releases (hquiet.qemuNbd _ _)).bind fun _ =>
        pause_releases hquiet 500

theorem dropLoop_releases (loop : LoopDevice) :
    Ends (Releases tools) (dropLoop tools loop) :=
  (disconnectLoop_releases hquiet loop).bind fun _ => pure_releases _

theorem activeMounts_spec (s : Closing ε) :
    ∃ active s', activeMounts tools s = .ok active s' ∧ Releases tools s s' ∧
      s'.released = s.released ∧
      ∀ root, tools.mountedUnder root s.machine → tools.mountedUnder root s'.machine := by
  unfold activeMounts
  rw [get_bind]
  cases s.guest.mountRoot with
  | none => exact ⟨false, s, rfl, Releases.refl s, rfl, fun _ => id⟩
  | some target =>
    have hasked : Releases tools s
        { s with machine := (tools.exec (findmntArgv target) s.machine).2 } :=
      .of_machine rfl rfl rfl fun root => (hquiet.findmnt target s.machine root).mp
    dsimp only
    rw [bind_of_ok (runTool_eq _ s)]
    cases (tools.exec (findmntArgv target) s.machine).1 <;>
      exact ⟨_, _, rfl, hasked, rfl, fun root => (hquiet.findmnt target s.machine root).mpr⟩

theorem disconnectLoop_first (image path : String) (s : Closing ε) :
    ∃ loop' s', disconnectLoop tools ⟨some path, some image⟩ s = .ok loop' s' ∧
      Releases tools s s' ∧ FirstAt tools s s' := by
  obtain ⟨loop', s', hrun, hreleases⟩ :=
    detachLoop_releases hquiet ⟨some path, some image⟩ path (logged s)
  exact ⟨loop', s', hrun, IsTrans.trans _ _ _ (logged_releases s) hreleases,
    FirstAt.of_log hreleases⟩

theorem disconnectNbd_first (image path : String) (s : Closing ε) :
    ∃ nbd' s', disconnectNbd tools ⟨path, some image⟩ s = .ok nbd' s' ∧ Releases tools s s' ∧
      FirstAt tools s s' := by
  obtain ⟨nbd', s', hrun, hreleases⟩ := detachNbd_releases hquiet ⟨path, some image⟩ (logged s)
  exact ⟨nbd', s', hrun, IsTrans.trans _ _ _ (logged_releases s) hreleases,
    FirstAt.of_log hreleases⟩

theorem releaseLoop_spec (s : Closing ε) :
    ∃ s', releaseLoop tools s = .ok () s' ∧ Releases tools s.withoutLoop s' ∧
      (LoopConnected s.guest → FirstAt tools s s') ∧
      (¬LoopConnected s.guest → s' = s.withoutLoop) := by
  by_cases hconnected : LoopConnected s.guest
  · obtain ⟨path, image, hloop⟩ := hconnected
    obtain ⟨loop', s₁, hrun, hreleases, hfirst⟩ :=
      disconnectLoop_first hquiet image path s.withoutLoop
    obtain ⟨_, s', hdrop, hdropped⟩ := dropLoop_releases hquiet loop' s₁
    refine ⟨s', ?_, Trans.trans hreleases hdropped, fun _ => hfirst.later hdropped,
      fun hnot => absurd ⟨path, image, hloop⟩ hnot⟩
    rw [releaseLoop, get_bind, hloop]
    exact (bind_of_ok hrun).trans hdrop
  · have hidle : releaseLoop tools s = .ok () s.withoutLoop := by
      rw [releaseLoop, get_bind]
      match hloop : s.guest.loopDevice with
      | none =>
        have hsame : s.withoutLoop = s := by rw [withoutLoop, ← hloop]
        rw [hsame]
        rfl
      | some ⟨some path, some image⟩ => exact absurd ⟨path, image, hloop⟩ hconnected
      | some ⟨none, none⟩ | some ⟨none, some _⟩ | some ⟨some _, none⟩ => rfl
    exact ⟨_, hidle, Releases.refl _, fun h => absurd h hconnected, fun _ => rfl⟩

theorem dropNbd_spec (nbd : NbdDevice) (s : Closing ε) :
    ∃ s', dropNbd tools nbd s = .ok () s' ∧ Releases tools s s' ∧
      (nbd.image.isSome → FirstAt tools s s') ∧ (¬nbd.image.isSome → s'.released = s.released) := by
  match nbd with
  | ⟨path, none⟩ => exact ⟨s, rfl, Releases.refl s, nofun, fun _ => rfl⟩
  | ⟨path, some image⟩ =>
    obtain ⟨nbd', s', hrun, hreleases, hfirst⟩ := disconnectNbd_first hquiet image path s
    exact ⟨s', bind_of_ok hrun, hreleases, fun _ => hfirst, fun h => absurd rfl h⟩

theorem disconnectDrop_spec (nbd : NbdDevice) (s : Closing ε) :
    ∃ s', (do
        let nbd ← disconnectNbd tools nbd
        dropNbd tools nbd
        pure false : CloseM ε Bool) s = .ok false s' ∧ Releases tools s s' ∧
      (nbd.image.isSome → FirstAt tools s s') ∧ (¬nbd.image.isSome → s'.released = s.released) := by
  match nbd with
  | ⟨path, none⟩ => exact ⟨s, rfl, Releases.refl s, nofun, fun _ => rfl⟩
  | ⟨path, some image⟩ =>
    obtain ⟨nbd', s₁, hrun, hreleases, hfirst⟩ := disconnectNbd_first hquiet image path s
    obtain ⟨s', hdrop, hdropped, -⟩ := dropNbd_spec hquiet nbd' s₁
    exact ⟨s', (bind_of_ok hrun).trans (bind_of_ok hdrop),
      Trans.trans hreleases hdropped, fun _ => hfirst.later hdropped, fun h => absurd rfl h⟩

theorem releaseNbd_spec (s : Closing ε) :
    ∃ closed s', releaseNbd tools s = .ok closed s' ∧ Releases tools (s.withoutNbd closed) s' ∧
      (NbdConnected s.guest → FirstAt tools s s') ∧
      (¬NbdConnected s.guest → s'.released = s.released) := by
  cases hnbd : s.guest.nbdDevice with
  | none =>
    have hsame : s.withoutNbd false = s := by
      unfold withoutNbd
      rw [← hnbd]
      rfl
    refine ⟨false, s, ?_, ?_, fun ⟨path, image, hsome⟩ => ?_, fun _ => rfl⟩
    · rw [releaseNbd, get_bind, hnbd]
      rfl
    · rw [hsame]
      exact Releases.refl s
    · rw [hnbd] at hsome
      cases hsome
  | some nbd =>
    have hconnected : NbdConnected s.guest ↔ nbd.image.isSome := by
      obtain ⟨path, image⟩ := nbd
      simp [NbdConnected, hnbd, Option.isSome_iff_exists]
    have hrun : releaseNbd tools s = (if s.lazyUnmountUsed then do
          dropNbd tools nbd
          pure false
        else do
          if ← activeMounts tools then
            dropNbd tools nbd
            modifyGuest fun g => { g with state := .closed }
            pure true
          else
            let nbd ← disconnectNbd tools nbd
            dropNbd tools nbd
            pure false : CloseM ε Bool) (s.withoutNbd false) := by
      rw [releaseNbd, get_bind, hnbd]
      rfl
    by_cases hlazy : s.lazyUnmountUsed = true
    · rw [if_pos hlazy] at hrun
      obtain ⟨s', hdrop, hreleases, hfirst, hnone⟩ := dropNbd_spec hquiet nbd (s.withoutNbd false)
      exact ⟨false, s', hrun.trans (bind_of_ok hdrop), hreleases, fun h => hfirst (hconnected.mp h),
        fun h => hnone (mt hconnected.mpr h)⟩
    · rw [if_neg hlazy] at hrun
      obtain ⟨active, s₁, hask, hasked, hsame, hkept⟩ :=
        activeMounts_spec hquiet (s.withoutNbd false)
      rw [bind_of_ok hask] at hrun
      cases active with
      | true =>
        obtain ⟨s₂, hdrop, hreleases, hfirst, hnone⟩ := dropNbd_spec hquiet nbd s₁
        have hall := Trans.trans hasked hreleases
        refine ⟨true, { s₂ with guest := { s₂.guest with state := .closed } },
          hrun.trans ((bind_of_ok hdrop).trans rfl),
          hall.mapGuest fun g => { g with state := .closed }, fun h => ?_,
          fun h => (hnone (mt hconnected.mpr h)).trans hsame⟩
        change FirstAt tools (s.withoutNbd false) s₂
        exact FirstAt.earlier (hfirst (hconnected.mp h)) hasked hkept
      | false =>
        obtain ⟨s₂, hdrop, hreleases, hfirst, hnone⟩ := disconnectDrop_spec hquiet nbd s₁
        refine ⟨false, s₂, hrun.trans hdrop, Trans.trans hasked hreleases, fun h => ?_,
          fun h => (hnone (mt hconnected.mpr h)).trans hsame⟩
        change FirstAt tools (s.withoutNbd false) s₂
        exact FirstAt.earlier (hfirst (hconnected.mp h)) hasked hkept

theorem releaseDevices_spec (s : Closing ε) :
    ∃ closed s', releaseDevices tools s = .ok closed s' ∧ Handed tools s closed s' := by
  obtain ⟨s₁, hloop, hloopReleases, hloopFirst, hloopNone⟩ := releaseLoop_spec hquiet s
  obtain ⟨closed, s', hnbd, hnbdReleases, hnbdFirst, hnbdNone⟩ := releaseNbd_spec hquiet s₁
  -- Taking a device out of the handle leaves flag, machine and log as they are.
  have hfirst : Releases tools s.withoutLoop { s₁ with guest := s.withoutLoop.guest } :=
    ⟨rfl, hloopReleases.lazyUnmountUsed, hloopReleases.mounted, hloopReleases.released⟩
  have hsecond : Releases tools { s₁ with guest := s.withoutLoop.guest }
      { s' with guest := s.withoutLoop.guest } :=
    ⟨rfl, hnbdReleases.lazyUnmountUsed, hnbdReleases.mounted, hnbdReleases.released⟩
  have hall := Trans.trans hfirst hsecond
  refine ⟨closed, s', (bind_of_ok hloop).trans hnbd, ?_, ?_, ?_, ?_,
    hall.lazyUnmountUsed, hall.released, fun hconnected => ?_, fun hidle => ?_⟩
  · rw [hnbdReleases.guest]
    change s₁.guest.loopDevice = none
    rw [hloopReleases.guest]
    rfl
  · rw [hnbdReleases.guest]
    rfl
  · rw [hnbdReleases.guest]
    change s₁.guest.mountRoot = _
    rw [hloopReleases.guest]
    rfl
  · rw [hnbdReleases.guest]
    change (if closed then _ else s₁.guest.state) = _
    rw [hloopReleases.guest]
    rfl
  · by_cases hloopConnected : LoopConnected s.guest
    · have hlogged : FirstAt tools s { s₁ with guest := s.withoutLoop.guest } :=
        hloopFirst hloopConnected
      have hkept : FirstAt tools s { s' with guest := s.withoutLoop.guest } := hlogged.later hsecond
      exact hkept
    · have hnbdConnected : NbdConnected s₁.guest := by
        rw [hloopReleases.guest]
        exact hconnected.resolve_left hloopConnected
      have hlogged : FirstAt tools s.withoutLoop s' := by
        refine FirstAt.earlier (hnbdFirst hnbdConnected) hloopReleases fun root hm => ?_
        rw [hloopNone hloopConnected]
        exact hm
      exact hlogged
  · have hsame : s₁ = s.withoutLoop := hloopNone fun h => hidle (.inl h)
    rw [hsame] at hnbdNone
    exact hnbdNone fun h => hidle (.inr h)

end Releasing

section CleaningUp

variable (tools : ShutdownTools ε)

structure Leaves (s s' : Closing ε) : Prop where
  loopDevice : s'.guest.loopDevice = s.guest.loopDevice
  nbdDevice : s'.guest.nbdDevice = s.guest.nbdDevice
  state : s'.guest.state = s.guest.state
  released : s'.released = s.released

theorem Leaves.refl (s : Closing ε) : Leaves s s := ⟨rfl, rfl, rfl, rfl⟩

instance : IsTrans (Closing ε) Leaves where
  trans _ _ _ h h' := ⟨h'.loopDevice.trans h.loopDevice, h'.nbdDevice.trans h.nbdDevice,
    h'.state.trans h.state,
    h'.released.trans h.released⟩

def flushed (hadMounts : Bool) (m : Machine ε) : Machine ε :=
  if hadMounts then tools.sleep 1000 (tools.exec ["sync"] m).2 else m

/-- The mount root is in the list of `mount`, and no lazy unmount was used. -/
def StillListed (hadMounts : Bool) (s : Closing ε) : Prop :=
  s.lazyUnmountUsed = false ∧ ∃ root output, s.guest.mountRoot = some root ∧
    (tools.exec ["mount"] (flushed tools hadMounts s.machine)).1 = .ok output ∧
    lists root output = true

theorem flush_spec (hadMounts : Bool) (s : Closing ε) :
    flush tools hadMounts s = .ok () { s with machine := flushed tools hadMounts s.machine } := by
  cases hadMounts <;> rfl

theorem listed_spec (root : Path) (s : Closing ε) :
    ∃ found s', listed tools root s = .ok found s' ∧ Leaves s s' ∧
      (found = true ↔ ∃ output, (tools.exec ["mount"] s.machine).1 = .ok output ∧
        lists root output = true) := by
  unfold listed
  rw [bind_of_ok (runTool_eq _ s)]
  cases (tools.exec ["mount"] s.machine).1 with
  | ok output =>
    exact ⟨_, _, rfl, ⟨rfl, rfl, rfl, rfl⟩, fun h => ⟨output, rfl, h⟩, fun ⟨_, rfl, h⟩ => h⟩
  | error e => exact ⟨_, _, rfl, ⟨rfl, rfl, rfl, rfl⟩, nofun, fun ⟨_, h, _⟩ => nomatch h⟩

theorem removeRoot_leaves (root : Path) : Ends Leaves (removeRoot tools root) := by
  intro s
  unfold removeRoot
  rw [bind_of_ok (modifyGet_eq _ s)]
  cases (tools.removeDirAll root s.machine).1 <;> exact ⟨(), _, rfl, rfl, rfl, rfl, rfl⟩

theorem cleanUp_spec (hadMounts : Bool) (s : Closing ε) :
    ∃ closes s', cleanUp tools hadMounts s = .ok closes s' ∧ Leaves s s' ∧
      (closes = true ↔ ¬StillListed tools hadMounts s) := by
  cases hroot : s.guest.mountRoot with
  | none =>
    refine ⟨true, s, ?_, Leaves.refl s, fun _ ⟨_, root, _, hsome, _⟩ => ?_, fun _ => rfl⟩
    · rw [cleanUp, get_bind, hroot]
      rfl
    · rw [hroot] at hsome
      cases hsome
  | some root =>
    let taken : Closing ε := { s with guest := { s.guest with mountRoot := none } }
    have hrun : cleanUp tools hadMounts s = (if s.lazyUnmountUsed then pure true
        else do
          flush tools hadMounts
          if ← listed tools root then pure false
          else
            removeRoot tools root
            pure true : CloseM ε Bool) taken := by
      rw [cleanUp, get_bind, hroot]
      rfl
    cases hlazy : s.lazyUnmountUsed with
    | true =>
      rw [hlazy] at hrun
      refine ⟨true, taken, hrun, ⟨rfl, rfl, rfl, rfl⟩, fun _ ⟨hunused, _⟩ => ?_, fun _ => rfl⟩
      rw [hlazy] at hunused
      cases hunused
    | false =>
      rw [hlazy, if_neg Bool.false_ne_true] at hrun
      obtain ⟨found, seen, hlisted, hseen, hfound⟩ :=
        listed_spec tools root { taken with machine := flushed tools hadMounts taken.machine }
      rw [bind_of_ok (flush_spec tools hadMounts taken), bind_of_ok hlisted] at hrun
      have hstill : found = true ↔ StillListed tools hadMounts s := by
        refine hfound.trans ⟨fun ⟨output, hmount, hlists⟩ => ?_, ?_⟩
        · exact ⟨hlazy, root, output, hroot, hmount, hlists⟩
        · rintro ⟨-, root', output, hsome, hmount, hlists⟩
          rw [hroot] at hsome
          cases hsome
          exact ⟨output, hmount, hlists⟩
      have hleft : Leaves s seen := ⟨hseen.loopDevice, hseen.nbdDevice, hseen.state, hseen.released⟩
      cases found with
      | true => exact ⟨false, seen, hrun, hleft, nofun, fun h => absurd (hstill.mp rfl) h⟩
      | false =>
        obtain ⟨_, removed, hremove, hremoved⟩ := removeRoot_leaves tools root seen
        exact ⟨true, removed, hrun.trans (bind_of_ok hremove), Trans.trans hleft hremoved,
          fun _ h => absurd (hstill.mpr h) Bool.false_ne_true, fun _ => rfl⟩

theorem finish_spec (hadMounts closed : Bool) (s : Closing ε)
    (hstate : s.guest.state = .closed ↔ closed = true) :
    ∃ s', finish tools hadMounts closed s = .ok () s' ∧
      s'.guest.loopDevice = s.guest.loopDevice ∧ s'.guest.nbdDevice = s.guest.nbdDevice ∧
      s'.released = s.released ∧
      (s'.guest.state = .closed ↔ ¬(closed = false ∧ StillListed tools hadMounts s)) := by
  cases closed with
  | true => exact ⟨s, rfl, rfl, rfl, rfl, fun _ h => Bool.noConfusion h.1, fun _ => hstate.mpr rfl⟩
  | false =>
    obtain ⟨closes, s₁, hclean, hleaves, hcloses⟩ := cleanUp_spec tools hadMounts s
    have hrun : finish tools hadMounts false s = (if closes then
        modifyGuest fun g => { g with state := .closed } else pure () : CloseM ε Unit) s₁ :=
      bind_of_ok hclean
    cases closes with
    | true =>
      exact ⟨_, hrun, hleaves.loopDevice, hleaves.nbdDevice, hleaves.released,
        fun _ h => hcloses.mp rfl h.2, fun _ => rfl⟩
    | false =>
      refine ⟨s₁, hrun, hleaves.loopDevice, hleaves.nbdDevice, hleaves.released, fun h => ?_,
        fun h => ?_⟩
      · rw [hleaves.state] at h
        exact nomatch hstate.mp h
      · exact nomatch hcloses.mpr fun hlisted => h ⟨rfl, hlisted⟩

end CleaningUp

/-- A shutdown that succeeds leaves a closed handle without devices, and no device is released while
a file system is mounted under the mount root or after a lazy unmount. -/
structure Orderly (tools : ShutdownTools ε) (s : Closing ε) : Prop where
  closes : ∀ s', shutdown tools s = .ok () s' →
    s'.guest.state = .closed ∧ s'.guest.loopDevice = none ∧ s'.guest.nbdDevice = none
  releases : ∀ new, (stateOf (shutdown tools s)).released = new ++ s.released →
    ∀ r ∈ new, r.lazyUnmountUsed = false ∧
      ∀ root, s.guest.mountRoot = some root → ¬tools.mountedUnder root r.machine

/-- A handle that is closed has no devices; with a connected device the unmounting ends without a
lazy unmount and with no file system mounted under the mount root; and once the devices are
released, `mount` does not list the mount root. -/
structure Settled (tools : ShutdownTools ε) (s : Closing ε) : Prop where
  closed : s.guest.state = .closed → s.guest.loopDevice = none ∧ s.guest.nbdDevice = none
  unmounted : ∀ s₁, s.guest.state ≠ .closed → quiesce tools s = .ok () s₁ →
    LoopConnected s.guest ∨ NbdConnected s.guest →
    s₁.lazyUnmountUsed = false ∧
      ∀ root, s.guest.mountRoot = some root → ¬tools.mountedUnder root s₁.machine
  unlisted : ∀ s₁ s₂, s.guest.state ≠ .closed → quiesce tools s = .ok () s₁ →
    releaseDevices tools s₁ = .ok false s₂ → ¬StillListed tools s.guest.hasMounts s₂

section Shutdown

variable {tools : ShutdownTools ε} {s s₁ : Closing ε}

theorem quiesced_keeps (hquiesce : quiesce tools s = .ok () s₁) : Keeps s s₁ := by
  have hkeeps : Keeps s (stateOf (quiesce tools s)) := quiesce_keeps s
  rw [hquiesce] at hkeeps
  exact hkeeps

theorem Keeps.connected (h : Keeps s s₁) :
    LoopConnected s₁.guest ∨ NbdConnected s₁.guest ↔
      LoopConnected s.guest ∨ NbdConnected s.guest := by
  unfold LoopConnected NbdConnected
  rw [h.loopDevice, h.nbdDevice]

/-- A handle that is not closed, and whose file systems are unmounted or given up. -/
theorem shutdown_spec (hquiet : tools.Quiet) (hopen : s.guest.state ≠ .closed)
    (hquiesce : quiesce tools s = .ok () s₁) :
    ∃ closed s₂ s', releaseDevices tools s₁ = .ok closed s₂ ∧ shutdown tools s = .ok () s' ∧
      Handed tools s₁ closed s₂ ∧ s'.guest.loopDevice = none ∧ s'.guest.nbdDevice = none ∧
      s'.released = s₂.released ∧
      (s'.guest.state = .closed ↔
        ¬(closed = false ∧ StillListed tools s.guest.hasMounts s₂)) := by
  have hkeeps := quiesced_keeps hquiesce
  obtain ⟨closed, s₂, hrelease, hhanded⟩ := releaseDevices_spec hquiet s₁
  have hstate : s₂.guest.state = .closed ↔ closed = true := by
    rw [hhanded.state]
    cases closed with
    | true => exact ⟨fun _ => rfl, fun _ => rfl⟩
    | false => exact ⟨fun h => absurd (hkeeps.state.symm.trans h) hopen, nofun⟩
  obtain ⟨s', hfinish, hloop, hnbd, hreleased, hclosed⟩ :=
    finish_spec tools s.guest.hasMounts closed s₂ hstate
  refine ⟨closed, s₂, s', hrelease, ?_, hhanded, hloop.trans hhanded.loopDevice,
    hnbd.trans hhanded.nbdDevice, hreleased, hclosed⟩
  rw [shutdown, get_bind, if_neg hopen, bind_of_ok hquiesce, bind_of_ok hrelease]
  exact hfinish

theorem shutdown_closed (hclosed : s.guest.state = .closed) : shutdown tools s = .ok () s := by
  rw [shutdown, get_bind, if_pos hclosed]
  rfl

theorem shutdown_refused {e : Error} (hopen : s.guest.state ≠ .closed)
    (hquiesce : quiesce tools s = .error e s₁) : shutdown tools s = .error e s₁ := by
  rw [shutdown, get_bind, if_neg hopen, bind_of_error hquiesce]

theorem none_released {new : List (Release ε)} {r : Release ε}
    (hsame : (stateOf (shutdown tools s)).released = s.released)
    (hnew : (stateOf (shutdown tools s)).released = new ++ s.released) : r ∉ new := by
  rw [self_eq_append_left.mp (hsame.symm.trans hnew)]
  exact not_mem_nil

theorem orderly_of_refused {e : Error} (hopen : s.guest.state ≠ .closed)
    (hquiesce : quiesce tools s = .error e s₁) : Orderly tools s := by
  have hrun := shutdown_refused hopen hquiesce
  refine ⟨fun s' hok => ?_, fun new hnew r hr => ?_⟩
  · rw [hrun] at hok
    cases hok
  · have hkeeps : Keeps s (stateOf (quiesce tools s)) := quiesce_keeps s
    rw [hquiesce] at hkeeps
    exact absurd hr (none_released (by rw [hrun]; exact hkeeps.released) hnew)

theorem Settled.orderly_of_quiesced (hsettled : Settled tools s) (hquiet : tools.Quiet)
    (hopen : s.guest.state ≠ .closed) (hquiesce : quiesce tools s = .ok () s₁) :
    Orderly tools s := by
  have hkeeps := quiesced_keeps hquiesce
  obtain ⟨closed, s₂, s', hrelease, hrun, hhanded, hloop, hnbd, hreleased, hstate⟩ :=
    shutdown_spec hquiet hopen hquiesce
  refine ⟨fun s'' hok => ?_, fun new hnew r hr => ?_⟩
  · rw [hrun] at hok
    cases hok
    refine ⟨hstate.mpr ?_, hloop, hnbd⟩
    rintro ⟨rfl, hlisted⟩
    exact hsettled.unlisted s₁ s₂ hopen hquiesce hrelease hlisted
  · by_cases hconnected : LoopConnected s.guest ∨ NbdConnected s.guest
    · obtain ⟨hunused, hgone⟩ := hsettled.unmounted s₁ hopen hquiesce hconnected
      obtain ⟨new', hnew', hall⟩ := hhanded.released
      have hsame : new = new' := by
        rw [hrun] at hnew
        have heq := (hreleased.symm.trans hnew).symm.trans hnew'
        rw [hkeeps.released] at heq
        exact append_cancel_right heq
      obtain ⟨hlazy, hmounted⟩ := hall r (hsame ▸ hr)
      exact ⟨hlazy.trans hunused, fun root hroot hm => hgone root hroot (hmounted root hm)⟩
    · have hidle := hhanded.idle fun h => hconnected (hkeeps.connected.mp h)
      refine absurd hr (none_released ?_ hnew)
      rw [hrun]
      exact (hreleased.trans hidle).trans hkeeps.released

/-- Closing a handle is orderly just when its mounts are gone by the time the devices are
released. -/
theorem orderly_iff_settled (hquiet : tools.Quiet) : Orderly tools s ↔ Settled tools s := by
  constructor
  · intro horderly
    refine ⟨fun hclosed => ?_, fun s₁ hopen hquiesce hconnected => ?_,
      fun s₁ s₂ hopen hquiesce hrelease hlisted => ?_⟩
    · exact (horderly.closes s (shutdown_closed hclosed)).2
    · obtain ⟨closed, s₂, s', -, hrun, hhanded, -, -, hreleased, -⟩ :=
        shutdown_spec hquiet hopen hquiesce
      obtain ⟨new, hnew, r, hr, hlazy, hmounted⟩ :=
        hhanded.first (((quiesced_keeps hquiesce).connected).mpr hconnected)
      have hlog : (stateOf (shutdown tools s)).released = new ++ s.released := by
        rw [hrun, ← (quiesced_keeps hquiesce).released, ← hnew]
        exact hreleased
      obtain ⟨hunused, hgone⟩ := horderly.releases new hlog r hr
      exact ⟨hlazy.symm.trans hunused, fun root hroot hm => hgone root hroot (hmounted root hm)⟩
    · obtain ⟨closed, s₂', s', hrelease', hrun, -, -, -, -, hstate⟩ :=
        shutdown_spec hquiet hopen hquiesce
      rw [hrelease] at hrelease'
      cases hrelease'
      exact hstate.mp (horderly.closes s' hrun).1 ⟨rfl, hlisted⟩
  · intro hsettled
    by_cases hopen : s.guest.state = .closed
    · refine ⟨fun s' hrun => ?_, fun new hnew r hr => ?_⟩
      · rw [shutdown_closed hopen] at hrun
        cases hrun
        exact ⟨hopen, hsettled.closed hopen⟩
      · exact absurd hr (none_released (by rw [shutdown_closed hopen]; rfl) hnew)
    · cases hquiesce : quiesce tools s with
      | error e s₁ => exact orderly_of_refused hopen hquiesce
      | ok _ s₁ => exact hsettled.orderly_of_quiesced hquiet hopen hquiesce

end Shutdown

/-! A host with one mounted file system, which a process may keep busy: it can then be unmounted
only lazily. -/

def oneMount (busy : Bool) : ShutdownTools Bool where
  needSudo := false
  order := HashOrder.newestFirst
  exec argv m :=
    match argv with
    | ["umount", "-l", _] => (.ok ⟨true, "", "", some 0⟩, { m with outer := false })
    | ["umount", _, _] => (.ok ⟨!busy, "", "", none⟩, { m with outer := m.outer && busy })
    | ["findmnt", "-R", root] =>
      (.ok ⟨m.outer, if m.outer then root else "", "", none⟩, m)
    | ["mount"] =>
      (.ok ⟨true, if m.outer then "/dev/nbd0p1 on /run/guestkit-7-0 type ext4 (rw)" else "", "",
        none⟩, m)
    | _ => (.ok ⟨true, "", "", some 0⟩, m)
  sleep _ m := m
  nbdInUse _ _ := false
  removeDirAll _ m := (.ok (), m)
  mountedUnder _ m := m.outer = true

theorem oneMount_quiet (busy : Bool) : (oneMount busy).Quiet where
  losetup _ _ _ := id
  qemuNbd _ _ _ _ := id
  sleep _ _ _ := id
  findmnt _ _ _ := Iff.rfl

def mounted : Closing Bool where
  guest :=
    { state := .ready
      drives := [⟨"disk.img", true, none⟩]
      nbdDevice := some ⟨"/dev/nbd0", some "disk.img"⟩
      mounted := AList.singleton "/dev/sda1" "/run/guestkit-7-0"
      mountRoot := some ["", "run", "guestkit-7-0"] }
  machine := ⟨true, .empty⟩

theorem mounted_idle_orderly :
    (oneMount false).Quiet ∧ Settled (oneMount false) mounted ∧
      Orderly (oneMount false) mounted := by
  have hquiesce : Returns (fun _ s₁ => s₁.lazyUnmountUsed = false ∧ s₁.machine.outer = false)
      (quiesce (oneMount false) mounted) := by decide +kernel
  have hreleased : Returns (fun _ s₂ => s₂.machine.outer = false)
      ((do quiesce (oneMount false); releaseDevices (oneMount false)) mounted) := by decide +kernel
  have hsettled : Settled (oneMount false) mounted := by
    refine ⟨nofun, fun s₁ _ hrun _ => ?_, fun s₁ s₂ _ hrun hrelease => ?_⟩
    · rw [hrun] at hquiesce
      exact ⟨hquiesce.1, fun _ _ hm => Bool.noConfusion (hquiesce.2.symm.trans hm)⟩
    · rw [bind_of_ok hrun, hrelease] at hreleased
      rintro ⟨-, root, output, -, hmount, hlists⟩
      have hempty : (if s₂.machine.outer then "/dev/nbd0p1 on /run/guestkit-7-0 type ext4 (rw)"
          else "") = "" := by
        rw [hreleased]
        rfl
      cases hmount
      have hlist : lists root ⟨true, "", "", none⟩ = true := by
        rw [← hempty]
        exact hlists
      exact Bool.noConfusion hlist
  exact ⟨oneMount_quiet false, hsettled, (orderly_iff_settled (oneMount_quiet false)).mpr hsettled⟩

/-- A busy file system is unmounted lazily, and its device is disconnected all the same. -/
theorem mounted_busy_disconnected :
    (oneMount true).Quiet ∧ ¬Orderly (oneMount true) mounted := by
  have hlog : (stateOf (shutdown (oneMount true) mounted)).released.map
    Release.lazyUnmountUsed = [true] := by decide +kernel
  refine ⟨oneMount_quiet true, fun horderly => ?_⟩
  obtain ⟨r, hr, hlazy⟩ : ∃ r ∈ (stateOf (shutdown (oneMount true) mounted)).released,
      r.lazyUnmountUsed = true := by
    rw [← mem_map, hlog]
    exact mem_singleton_self true
  have hunused := (horderly.releases _ (append_nil _).symm r hr).1
  exact Bool.noConfusion (hunused.symm.trans hlazy)

end Closing

end Guestkit
