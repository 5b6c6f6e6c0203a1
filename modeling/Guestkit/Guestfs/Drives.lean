import Guestkit.Guestfs.Mount

/-! The drives of a handle, the devices that the first of them is connected to, and the operations
on its partitions. -/

namespace Guestkit

open Lib Lib.Fs

variable {ε : Type}

def GuestfsState.debug : GuestfsState → String
  | .config => "Config"
  | .launching => "Launching"
  | .ready => "Ready"
  | .error => "Error"
  | .closed => "Closed"

namespace Guestfs

def outside {α : Type} (f : Machine ε → Except Error α × Machine ε) : GuestM ε α := do
  orThrow (← modifyGet fun s => ((f s.machine).1, { s with machine := (f s.machine).2 }))

def modifyGuest (f : Guestfs → Guestfs) : GuestM ε Unit :=
  modify fun s => { s with guest := f s.guest }

variable (tools : Tools ε)

def addDriveOpts (path : String) (readonly : Bool) (format : Option String) :
    GuestM ε Unit := do
  if (← get).guest.state ≠ .config then throw (.invalidState "Cannot add drives after launch")
  else
    let resolved ← outside (tools.maybeExtractOva path)
    modifyGuest fun self => { self with drives := self.drives ++ [⟨resolved, readonly, format⟩] }

def openLoop (drive : DriveConfig) : GuestM ε Unit := do
  let loop ← outside (tools.connectLoop drive)
  match loop.devicePath with
  | none => throw (.invalidState "Loop device not connected")
  | some path =>
    let partitions ← orThrow (tools.readPartitions path (← get).machine)
    modifyGuest fun self =>
      { self with partitionTable := some partitions, loopDevice := some loop }

def openNbd (drive : DriveConfig) : GuestM ε Unit := do
  let nbd ← outside (tools.connectNbd drive)
  let partitions ← orThrow (tools.readPartitions nbd.devicePath (← get).machine)
  modifyGuest fun self => { self with partitionTable := some partitions, nbdDevice := some nbd }

def openDrive (drive : DriveConfig) : GuestM ε Unit := do
  if tools.shouldUseLoopDevice drive.path (← get).machine then openLoop tools drive
  else openNbd tools drive

def setState (state : GuestfsState) : GuestM ε Unit :=
  modifyGuest fun self => { self with state := state }

def launch (tools : Tools ε) : GuestM ε Unit := do
  let self := (← get).guest
  if self.state ≠ .config then
    throw (.invalidState ("Cannot launch from state: " ++ self.state.debug))
  else
    match self.drives with
    | [] =>
      setState .error
      throw (.invalidState "No drives added")
    | drive :: _ =>
      setState .launching
      tryCatch
        (do
          openDrive tools drive
          setState .ready)
        fun e => do
          setState .error
          throw e

def setupNbdIfNeeded : GuestM ε Unit := do
  let self := (← get).guest
  if self.nbdDevice.isSome then pure ()
  else
    match self.drives with
    | [] => throw (.invalidState "No drives added")
    | drive :: _ =>
      let nbd ← outside (tools.connectNbd drive)
      modifyGuest fun self => { self with nbdDevice := some nbd }

def withNbd (k : NbdDevice → GuestM ε Unit) : GuestM ε Unit := do
  orThrow (← get).guest.ensureReady
  setupNbdIfNeeded tools
  match (← get).guest.nbdDevice with
  | none => throw (.invalidState "NBD device not available")
  | some nbd => k nbd

def runParted (nbd : NbdDevice) (args : List String)
    (failure : ProcessOutput → Error) : GuestM ε Unit := do
  let output ← execute tools (.parted nbd.devicePath args) "Failed to execute parted: "
  if output.success then pure () else throw (failure output)

def partedFailed (output : ProcessOutput) : Error :=
  .commandFailed ("parted failed: " ++ output.stderr)

def sector (n : Int) : String := toString n ++ "s"

def partAdd (_device prlogex : String) (startsect endsect : Int) :
    GuestM ε Unit :=
  withNbd tools fun nbd =>
    let partType :=
      if prlogex = "primary" ∨ prlogex = "p" then some "primary"
      else if prlogex = "logical" ∨ prlogex = "l" then some "logical"
      else if prlogex = "extended" ∨ prlogex = "e" then some "extended"
      else none
    match partType with
    | none => throw (.invalidFormat ("Invalid partition type: " ++ prlogex))
    | some partType =>
      runParted tools nbd ["mkpart", partType, sector startsect, sector endsect] partedFailed

def partDel (_device : String) (partnum : Int) : GuestM ε Unit :=
  withNbd tools fun nbd => runParted tools nbd ["rm", toString partnum] partedFailed

def debugCode : Option Int → String
  | some code => "Some(" ++ toString code ++ ")"
  | none => "None"

def partInit (_device parttype : String) : GuestM ε Unit :=
  withNbd tools fun nbd =>
    let label :=
      if parttype = "gpt" then some "gpt"
      else if parttype = "msdos" ∨ parttype = "mbr" then some "msdos"
      else none
    match label with
    | none => throw (.invalidFormat ("Invalid partition table type: " ++ parttype))
    | some label =>
      runParted tools nbd ["mklabel", label] fun output =>
        .commandFailed ("parted failed on device " ++ nbd.devicePath ++ ": stdout='" ++
          output.stdout ++ "', stderr='" ++ output.stderr ++ "', exit_code=" ++
          debugCode output.code)

def partResize (_device : String) (partnum endsect : Int) : GuestM ε Unit :=
  withNbd tools fun nbd =>
    runParted tools nbd ["resizepart", toString partnum, sector endsect] partedFailed

end Guestfs

inductive DeviceCall where
  | mount (device mountpoint : String)
  | mountRo (device mountpoint : String)
  | partInit (device parttype : String)
  | partAdd (device prlogex : String) (startsect endsect : Int)
  | partDel (device : String) (partnum : Int)
  | partResize (device : String) (partnum endsect : Int)

namespace DeviceCall

def device : DeviceCall → String
  | .mount device _ => device
  | .mountRo device _ => device
  | .partInit device _ => device
  | .partAdd device _ _ _ => device
  | .partDel device _ => device
  | .partResize device _ _ => device

def run (tools : Tools ε) : DeviceCall → GuestM ε Unit
  | .mount device mountpoint => Guestfs.mount tools device mountpoint
  | .mountRo device mountpoint => Guestfs.mountRo tools device mountpoint
  | .partInit device parttype => Guestfs.partInit tools device parttype
  | .partAdd device prlogex startsect endsect =>
    Guestfs.partAdd tools device prlogex startsect endsect
  | .partDel device partnum => Guestfs.partDel tools device partnum
  | .partResize device partnum endsect => Guestfs.partResize tools device partnum endsect

end DeviceCall

end Guestkit
