import Guestkit.Guestfs.Handle

/-! Names of devices, and the block devices of the host that they stand for.  A session is a handle
on a machine, with a log of the programs it ran and of the mountpoints it made. -/

namespace Guestkit

open Lib Lib.Fs Lib.Text

def sudoPrefix (needSudo : Bool) : List String := if needSudo then ["sudo"] else []

/-- The programs that a handle runs on block devices and mountpoints. -/
inductive Command where
  | mount (args : List String) (device : String) (target : Path)
  | remount (target : Path)
  | umount (target : Path)
  | parted (device : String) (args : List String)
  deriving DecidableEq

def Command.argv (needSudo : Bool) : Command → List String
  | .mount args device target =>
    sudoPrefix needSudo ++ ["mount"] ++ args ++ [device, target.display]
  | .remount target => sudoPrefix needSudo ++ ["mount", "-o", "remount,rw", target.display]
  | .umount target => sudoPrefix needSudo ++ ["umount", target.display]
  | .parted device args => ["parted", "-s", device] ++ args

/-- The programs that a handle runs to look something up; they change nothing. -/
inductive Query where
  | findmnt (target : Path)
  | blkid (device : String)
  | lvs (config : String)
  deriving DecidableEq

def Query.argv (needSudo : Bool) : Query → List String
  | .findmnt target => ["findmnt", "-n", "-o", "SOURCE", "--target", target.display]
  | .blkid device => ["blkid", "-o", "export", device]
  | .lvs config =>
    sudoPrefix needSudo ++ ["lvs", "--noheadings", "-o", "lv_path", "--config", config]

structure ProcessOutput where
  success : Bool
  stdout : String := ""
  stderr : String := ""
  code : Option Int := none

/-- What a handle is given from outside: whether it needs `sudo`, the process id, a counter of the
process, programs, the detection of file systems and of partitions on a device, the disk in an OVA
bundle, the format of an image, and the connection of an image to a loop or network block device. -/
structure Tools (ε : Type) where
  needSudo : Bool
  pid : Nat
  fetchAdd : ε → Nat × ε
  exec : List String → Machine ε → Except String ProcessOutput × Machine ε
  query : List String → Machine ε → Except String ProcessOutput
  vfsType : Guestfs → String → Machine ε → Except Error String
  maybeExtractOva : String → Machine ε → Except Error String × Machine ε
  shouldUseLoopDevice : String → Machine ε → Bool
  connectLoop : DriveConfig → Machine ε → Except Error LoopDevice × Machine ε
  connectNbd : DriveConfig → Machine ε → Except Error NbdDevice × Machine ε
  readPartitions : String → Machine ε → Except Error (List Nat)

variable {ε : Type}

def Tools.run (tools : Tools ε) (c : Command) :
    Machine ε → Except String ProcessOutput × Machine ε :=
  tools.exec (c.argv tools.needSudo)

def Tools.ask (tools : Tools ε) (q : Query) : Machine ε → Except String ProcessOutput :=
  tools.query (q.argv tools.needSudo)

/-- A program that was run, with the machine before, or a mountpoint that was made, with the file
tree before and after. -/
inductive Event (ε : Type) where
  | ran (c : Command) (machine : Machine ε)
  | made (target : Path) (before after : Tree)

structure Session (ε : Type) where
  guest : Guestfs
  machine : Machine ε
  log : List (Event ε) := []

abbrev GuestM (ε : Type) := EStateM Error (Session ε)

namespace Guestfs

def orThrow {α : Type} : Except Error α → GuestM ε α
  | .ok a => pure a
  | .error e => throw e

def runCommand (tools : Tools ε) (c : Command) : GuestM ε (Except String ProcessOutput) :=
  modifyGet fun s =>
    let r := tools.run c s.machine
    (r.1, { s with machine := r.2, log := .ran c s.machine :: s.log })

def execute (tools : Tools ε) (c : Command) (failure : String) : GuestM ε ProcessOutput := do
  match ← runCommand tools c with
  | .ok output => pure output
  | .error e => throw (.commandFailed (failure ++ e))

def isLogicalVolume (device : String) : Bool :=
  startsWith "/dev/mapper/" device ||
    (startsWith "/dev/" device && 3 ≤ count '/' device)

def devicePatterns : List String :=
  ["/dev/sda", "/dev/vda", "/dev/hda", "/dev/xvda", "/dev/nvme0n1p"]

def parseWithPatterns (device : String) : List String → Except Error Nat
  | [] =>
    .error (.invalidFormat ("Unsupported device pattern: " ++ device ++
      ". Supported: /dev/\x7bsd,vd,hd,xvd\x7da*, /dev/nvme0n1p*, /dev/mapper/*"))
  | pattern :: patterns =>
    match stripPrefix pattern device with
    | none => parseWithPatterns device patterns
    | some number =>
      if number = "" then .ok 0
      else
        match parseUnsigned 10 (2 ^ 32) number with
        | .ok n => .ok n
        | .error _ => .error (.invalidFormat ("Invalid device: " ++ device))

def parseDeviceName (device : String) : Except Error Nat :=
  if 255 < device.utf8ByteSize ∨ startsWith "/dev/" device = false then
    .error (.invalidFormat ("Invalid device: " ++ device))
  else if isLogicalVolume device then .ok 0
  else parseWithPatterns device devicePatterns

def blockDevice (self : Guestfs) (partition : Nat) : Except Error String :=
  match self.loopDevice with
  | some loop =>
    match if 0 < partition then loop.partitionPath partition else loop.devicePath with
    | some path => .ok path
    | none => .error (.invalidState "Loop device not connected")
  | none =>
    match self.nbdDevice with
    | some nbd => .ok (if 0 < partition then nbd.partitionPath partition else nbd.devicePath)
    | none => .error (.invalidState "No block device available (neither loop nor NBD)")

def devicePartition (self : Guestfs) (mountable : String) : Except Error String :=
  if isLogicalVolume mountable then .ok mountable
  else do self.blockDevice (← parseDeviceName mountable)

def resolveBlockDevicePath (self : Guestfs) (device : String) : Except Error String :=
  if isLogicalVolume device || startsWith "/dev/md" device ||
      startsWith "/dev/dm-" device then .ok device
  else do self.blockDevice (← parseDeviceName device)

def listPartitions (self : Guestfs) : Except Error (List String) := do
  self.ensureReady
  match self.partitionTable with
  | some numbers => .ok (numbers.map fun n => "/dev/sda" ++ toString n)
  | none => .error (.invalidState "Not launched")

def escapeLvmRegex (s : String) : String :=
  String.ofList (s.toList.flatMap fun c =>
    if "/.[]*+?^$|()\x7b\x7d\\".toList.contains c then ['\\', c] else [c])

def getLvmDeviceFilter (self : Guestfs) : String :=
  let device := match self.nbdDevice, self.loopDevice with
    | some nbd, _ => nbd.devicePath
    | none, some loop => loop.devicePath.getD "/dev/loop"
    | none, none => "/dev/nbd"
  "devices \x7b filter=[\"a|^" ++ escapeLvmRegex device ++
    "|\",\"r|.*|\"] \x7d global \x7b locking_type=0 \x7d"

def lvs (tools : Tools ε) (self : Guestfs) (m : Machine ε) : Except Error (List String) := do
  self.ensureReady
  match tools.ask (.lvs self.getLvmDeviceFilter) m with
  | .error e => .error (.commandFailed ("Failed to run lvs: " ++ e))
  | .ok output =>
    .ok (if output.success then ((lines output.stdout).map trim).filter (· ≠ "") else [])

def blkidExport (tools : Tools ε) (m : Machine ε) (device : String) : HashMap String String :=
  match tools.ask (.blkid device) m with
  | .error _ => ∅
  | .ok output =>
    if output.success then
      ((lines output.stdout).filterMap (splitOnce '=')).foldl
        (fun tags (key, value) => tags.insert key value) ∅
    else ∅

variable (tools : Tools ε) (self : Guestfs) (m : Machine ε)

def blkidCandidates :
    Except Error (List (String × HashMap String String)) := do
  let partitions ← self.listPartitions
  let volumes := match lvs tools self m with
    | .ok volumes => volumes
    | .error _ => []
  pure ((partitions ++ volumes).filterMap fun dev =>
    match self.resolveBlockDevicePath dev with
    | .ok hostPath => some (dev, blkidExport tools m hostPath)
    | .error _ => none)

def findfs (tag value : String)
    (test : String → Bool) : Except Error String := do
  self.ensureReady
  let candidates ← blkidCandidates tools self m
  match candidates.find? fun c => (c.2.lookup tag).any test with
  | some (dev, _) => .ok dev
  | none => .error (.notFound ("No device with " ++ tag ++ "=" ++ value))

def findfsUuid (uuid : String) :
    Except Error String :=
  findfs tools self m "UUID" (trim uuid) (eqIgnoreAsciiCase · (trim uuid))

def findfsLabel (label : String) :
    Except Error String :=
  findfs tools self m "LABEL" label (· = label)

def findfsPartuuid (partuuid : String) :
    Except Error String :=
  findfs tools self m "PARTUUID" (trim partuuid)
    (eqIgnoreAsciiCase · (trim partuuid))

def unquoteFsToken (s : String) : String :=
  match (trim s).toList with
  | '"' :: c :: rest =>
    if (c :: rest).getLast? = some '"' then String.ofList (c :: rest).dropLast else trim s
  | '\'' :: c :: rest =>
    if (c :: rest).getLast? = some '\'' then String.ofList (c :: rest).dropLast else trim s
  | _ => trim s

def resolveMountable (mountable : String) :
    Except Error String :=
  let spec := trim mountable
  match stripPrefix "UUID=" spec with
  | some uuid => findfsUuid tools self m (unquoteFsToken uuid)
  | none =>
    match stripPrefix "LABEL=" spec with
    | some label => findfsLabel tools self m (unquoteFsToken label)
    | none =>
      match stripPrefix "PARTUUID=" spec with
      | some partuuid => findfsPartuuid tools self m (unquoteFsToken partuuid)
      | none => .ok spec

end Guestfs

end Guestkit
