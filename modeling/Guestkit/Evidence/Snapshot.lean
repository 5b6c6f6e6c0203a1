import Guestkit.Lib.Json

/-! The evidence that is collected from a guest: what the boot checks, the migration checks and the
repair planner read of it. -/

namespace Guestkit

open Lib

structure OsEvidence where
  osType : String := ""
  distribution : String := ""
  version : String := ""
  hostname : String := ""
  packageManager : String := ""

structure FstabEntry where
  device : String
  mountpoint : String
  fstype : String
  options : String

structure CrypttabEntry where
  name : String
  device : String
  keyfile : String

structure PartitionUuid where
  device : String
  uuid : String

structure StorageEvidence where
  fstabEntries : List FstabEntry := []
  crypttabEntries : List CrypttabEntry := []
  partitionUuids : List PartitionUuid := []
  freeSpaceRootMb : Option UInt64 := none

structure BootEvidence where
  bootloader : String := ""
  defaultEntry : String := ""
  kernelPaths : List String := []
  initramfsPaths : List String := []
  efiPresent : Bool := false
  grubCfgPath : Option String := none
  loadedModules : List String := []
  pendingRelabel : Bool := false
  cloudInitPresent : Bool := false
  initramfsModules : List String := []
  secureBoot : Option Bool := none
  firmware : String := ""
  serialConsoleConfigured : Bool := false

inductive SystemdProblemSeverity where
  | info
  | warning
  | critical
  deriving DecidableEq

structure SystemdProblemHint where
  unit : String
  code : String
  severity : SystemdProblemSeverity

structure SystemdUnit where
  name : String

structure SystemdInfo where
  unitCount : Nat := 0
  units : List SystemdUnit := []
  problemHints : List SystemdProblemHint := []

structure SystemReservedPartition where
  device : String
  fstype : String
  role : String
  hasBootmgr : Bool
  hasBcd : Bool

structure WindowsDriverEntry where
  name : String
  startType : String := ""
  bootCritical : Bool := false
  present : Bool := false
  sysPresent : Option Bool := none

structure BitLockerVolume where
  protection : String
  source : Option String := none

structure BitLockerState where
  anyProtected : Bool := false
  offlineUncertain : Bool := false
  volumes : List BitLockerVolume := []

structure VssHealth where
  writersTotal : Nat := 0
  writersFailed : List String := []
  healthy : Bool := false
  offlineInferred : Bool := false

structure ActivationInfo where
  licensed : Bool := false
  channel : String := ""
  productId : Option String := none
  editionId : Option String := none

/-- Of the hotfixes, the identifiers; of the network adapters, the instance ids of those that are
disconnected and the names of those with a static configuration. -/
structure WindowsEvidence where
  systemroot : String := ""
  pendingReboot : Bool := false
  bitlockerDetected : Bool := false
  hypervisorRemnants : List String := []
  bcdStoreFound : Bool := false
  bootmgrFound : Bool := false
  systemReserved : Option SystemReservedPartition := none
  virtioDrivers : List WindowsDriverEntry := []
  hotfixes : List String := []
  hotfixCount : Nat := 0
  hfMigPresent : Bool := false
  bitlocker : Option BitLockerState := none
  vss : Option VssHealth := none
  ghostNics : List String := []
  staticNicConfigs : List String := []
  driverSignatureEnforcement : Option Bool := none
  espPresent : Option Bool := none
  activation : Option ActivationInfo := none

structure LinuxMigrationEvidence where
  predictableNicNames : Option Bool := none
  staticIpConfigs : List String := []
  hypervisorModules : List String := []

/-- `udevPersistentNet`, `selinux` and `vmTools` are all that is read of the network, the security
and the tools of the guest. -/
structure EvidenceSnapshot where
  imagePath : String := ""
  os : OsEvidence := {}
  storage : StorageEvidence := {}
  boot : BootEvidence := {}
  udevPersistentNet : List String := []
  selinux : String := ""
  vmTools : List String := []
  systemd : Option SystemdInfo := none
  windows : Option WindowsEvidence := none
  linuxMigration : Option LinuxMigrationEvidence := none
  onlineCache : Option Json := none

end Guestkit
