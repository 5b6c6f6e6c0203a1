import Guestkit.Lib.HashMap
import Guestkit.Lib.Fs.Ops

/-! The handle through which disk images are inspected: the drives that were added, the block device
that exports the first of them, the numbers of its partitions, and the file systems mounted so
far. -/

namespace Guestkit

open Lib Lib.Fs

inductive Error where
  | io (e : Errno)
  | commandFailed (message : String)
  | invalidFormat (message : String)
  | notFound (message : String)
  | permissionDenied (message : String)
  | invalidState (message : String)
  | invalidOperation (message : String)
  | securityViolation (message : String)
  deriving DecidableEq

def Error.message : Error → String
  | .io e => "I/O error: " ++ e.message
  | .commandFailed s => "Command execution failed: " ++ s
  | .invalidFormat s => "Invalid format: " ++ s
  | .notFound s => "Not found: " ++ s
  | .permissionDenied s => "Permission denied: " ++ s
  | .invalidState s => "Invalid state: " ++ s
  | .invalidOperation s => "Invalid operation: " ++ s
  | .securityViolation s => "Security violation: " ++ s

inductive GuestfsState where
  | config
  | launching
  | ready
  | error
  | closed
  deriving DecidableEq

structure DriveConfig where
  path : String
  readonly : Bool
  format : Option String := none
  deriving DecidableEq

structure NbdDevice where
  devicePath : String
  image : Option String
  deriving DecidableEq

def NbdDevice.partitionPath (nbd : NbdDevice) (partition : Nat) : String :=
  nbd.devicePath ++ "p" ++ toString partition

structure LoopDevice where
  devicePath : Option String
  image : Option String
  deriving DecidableEq

def LoopDevice.partitionPath (loop : LoopDevice) (partition : Nat) : Option String :=
  loop.devicePath.map fun dev => dev ++ "p" ++ toString partition

structure Guestfs where
  state : GuestfsState := .config
  readonly : Bool := false
  drives : List DriveConfig := []
  nbdDevice : Option NbdDevice := none
  loopDevice : Option LoopDevice := none
  mounted : HashMap String String := ∅
  mountRoot : Option Path := none
  partitionTable : Option (List Nat) := none

namespace Guestfs

def ensureReady (self : Guestfs) : Except Error Unit :=
  if self.state = .ready then .ok ()
  else .error (.invalidState "Handle not ready (call launch first)")

end Guestfs

end Guestkit
