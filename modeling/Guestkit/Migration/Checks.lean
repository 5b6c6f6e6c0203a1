import Guestkit.Migration.Readiness

/-! The migration checks: those for all guests, those for Linux and those for Windows. -/

namespace Guestkit.Migration

open Guestkit Lib.Text MigrationCheckResult

variable (std : StdText) (ev : EvidenceSnapshot) (bootReport : BootabilityReport)

def isWindows : Bool :=
  contains (std.toLowercase ev.os.osType) "windows"

def osIdentification : MigrationCheckResult :=
  if ev.os.osType.isEmpty then
    fail "MIG-G-001" "OS identification" .boot 8 .blocker
      "operating system could not be identified" none
  else
    pass "MIG-G-001" "OS identification" .boot 8
      s!"{ev.os.distribution} {ev.os.version} ({ev.os.osType})"

def firmware : List MigrationCheckResult :=
  if ev.boot.secureBoot = some true then
    [fail "MIG-G-002" "Firmware / Secure Boot" .security 4 .warning
      ("Secure Boot is enabled — destination must provide a matching UEFI+SecureBoot " ++
        "configuration")
      (some (.manual ("provision the destination VM with UEFI firmware and Secure Boot, or " ++
        "disable Secure Boot in the guest")))]
  else if !ev.boot.firmware.isEmpty then
    [pass "MIG-G-002" "Firmware / Secure Boot" .security 4
      s!"{ev.boot.firmware} firmware, Secure Boot not enforcing"]
  else []

def freeDiskSpace : List MigrationCheckResult :=
  match ev.storage.freeSpaceRootMb with
  | some mb =>
    if mb < 500 then
      [fail "MIG-G-003" "Free disk space" .storage 5 .warning
        s!"only {mb} MB free on root — driver/package installation may fail"
        (some (.manual "free at least 500 MB on the root filesystem before migration"))]
    else
      [pass "MIG-G-003" "Free disk space" .storage 5 s!"{mb} MB free on root"]
  | none => []

def pendingReboot : List MigrationCheckResult :=
  match ev.windows with
  | some win =>
    [if win.pendingReboot then
      fail "MIG-G-004" "Pending reboot" .boot 3 .warning
        ("a reboot is pending — finish it before cutover so first boot on the target is " ++
          "clean")
        (some (.manual "reboot the guest before the migration window"))
    else pass "MIG-G-004" "Pending reboot" .boot 3 "no pending reboot"]
  | none => []

def isForeign (tool : String) : Bool :=
  let t := std.toLowercase tool
  if t == "open-vm-tools" || startsWith "open-vm-tools" t then false
  else contains t "vmware" || contains t "hyper-v" || contains t "hyperv" || contains t "xen"

def foreignTools : List String :=
  let remnants := ev.vmTools ++ (ev.windows.map WindowsEvidence.hypervisorRemnants).getD []
  let remnants := (remnants.mergeSort (· ≤ ·)).destutter (· ≠ ·)
  remnants.filter (isForeign std)

def hypervisorTooling : MigrationCheckResult :=
  let foreign := foreignTools std ev
  if foreign.isEmpty then
    pass "MIG-G-005" "Source hypervisor tooling" .application 5
      "no competing hypervisor tools detected"
  else
    fail "MIG-G-005" "Source hypervisor tooling" .application 5 .warning
      ("source-hypervisor tooling present: " ++ join ", " foreign)
      (some (.removeHypervisorTools foreign))

def generalChecks : List MigrationCheckResult :=
  [osIdentification ev] ++ firmware ev ++ freeDiskSpace ev ++ pendingReboot ev ++
    [hypervisorTooling std ev]

/-- The boot check stands in where the modules are not known. -/
def virtioInInitramfs : List MigrationCheckResult :=
  let ramMods := ev.boot.initramfsModules
  if !ramMods.isEmpty then
    if ramMods.any fun m => m == "virtio_blk" || m == "virtio_scsi" then
      [pass "MIG-L-001" "VirtIO in initramfs" .driver 10
        ("initramfs bundles: " ++ join ", " ramMods)]
    else
      [fail "MIG-L-001" "VirtIO in initramfs" .driver 10 .blocker
        ("no virtio block/SCSI module inside the initramfs — the guest will not find its " ++
          "root disk on KVM")
        (some .addVirtioToInitramfs)]
  else
    (bootCheck bootReport "BOOT-006" "MIG-L-001" .driver 10 (some .addVirtioToInitramfs)).toList

def wrappedLinux : List MigrationCheckResult :=
  [("BOOT-001", "MIG-L-002", ReadinessCategory.storage, 8, RemediationHint.convertFstabToUuid),
   ("BOOT-003", "MIG-L-003", .boot, 8, .addVirtioToInitramfs),
   ("BOOT-004", "MIG-L-004", .boot, 8, .repairBootloader),
   ("BOOT-005", "MIG-L-005", .boot, 5, .repairBootloader),
   ("BOOT-009", "MIG-L-006", .security, 3, .scheduleSelinuxRelabel)].filterMap
    fun (bootId, migId, cat, weight, hint) =>
      bootCheck bootReport bootId migId cat weight (some hint)

def staticIp (lm : LinuxMigrationEvidence) : MigrationCheckResult :=
  if !lm.staticIpConfigs.isEmpty then
    let renamingRisk := lm.predictableNicNames = some true
    fail "MIG-L-007" "Static IP × NIC naming" .network 6
      (if renamingRisk then .warning else .info)
      (s!"static IP configuration in {lm.staticIpConfigs.length} file(s)" ++
        if renamingRisk then
          " and predictable NIC names may change on new virtual hardware (e.g. ens192 → enp1s0)"
        else "")
      (some .preserveStaticIp)
  else
    pass "MIG-L-007" "Static IP × NIC naming" .network 6 "no static IP configuration detected"

def hypervisorModules (lm : LinuxMigrationEvidence) : MigrationCheckResult :=
  if !lm.hypervisorModules.isEmpty then
    fail "MIG-L-008" "Hypervisor kernel modules" .driver 4 .warning
      ("loaded: " ++ join ", " lm.hypervisorModules)
      (some (.removeHypervisorTools ["open-vm-tools"]))
  else
    pass "MIG-L-008" "Hypervisor kernel modules" .driver 4 "no foreign hypervisor modules loaded"

def serialConsole : MigrationCheckResult :=
  if ev.boot.serialConsoleConfigured then
    pass "MIG-L-009" "Serial console" .boot 2 "console=ttyS* configured"
  else
    fail "MIG-L-009" "Serial console" .boot 2 .info
      ("no serial console on the kernel command line — first-boot logs will be unavailable " ++
        "if boot fails")
      (some .enableSerialConsole)

def linuxChecks : List MigrationCheckResult :=
  virtioInInitramfs ev bootReport ++ wrappedLinux bootReport ++
    (ev.linuxMigration.toList.flatMap fun lm => [staticIp lm, hypervisorModules lm]) ++
    [serialConsole ev]

variable (win : WindowsEvidence)

def storageDriver : Option WindowsDriverEntry :=
  win.virtioDrivers.find? fun d => (d.name == "viostor" || d.name == "vioscsi") && d.present

def virtioStorage : MigrationCheckResult :=
  match storageDriver win with
  | some d =>
    if d.bootCritical then
      pass "MIG-W-001" "VirtIO storage driver" .driver 12 s!"{d.name} installed, boot-critical"
    else
      fail "MIG-W-001" "VirtIO storage driver" .driver 12 .blocker
        (d.name ++ " installed but start type is '" ++ d.startType ++
          "', not Boot — Windows will 0x7B on virtio storage")
        (some (.registerBootCritical d.name))
  | none =>
    if win.virtioDrivers.isEmpty then
      fail "MIG-W-001" "VirtIO storage driver" .driver 12 .warning
        "virtio driver state could not be determined" none
    else
      fail "MIG-W-001" "VirtIO storage driver" .driver 12 .blocker
        "no virtio storage driver (viostor/vioscsi) installed"
        (some (.injectWindowsDriver "vioscsi"))

def virtioNetwork : List MigrationCheckResult :=
  if !win.virtioDrivers.isEmpty then
    if (win.virtioDrivers.find? (·.name == "netkvm")).any WindowsDriverEntry.present then
      [pass "MIG-W-002" "VirtIO network driver" .driver 6 "netkvm installed"]
    else
      [fail "MIG-W-002" "VirtIO network driver" .driver 6 .warning
        "netkvm not installed — no network after cutover until drivers are added"
        (some (.injectWindowsDriver "netkvm"))]
  else []

def wrappedWindows : List MigrationCheckResult :=
  [("BOOT-013", "MIG-W-003", 8), ("BOOT-012", "MIG-W-004", 6),
   ("BOOT-014", "MIG-W-011", 4)].filterMap
    fun (bootId, migId, weight) =>
      bootCheck bootReport bootId migId .boot weight (some .repairBootloader)

def bitLocker : List MigrationCheckResult :=
  match win.bitlocker with
  | some bl =>
    if bl.anyProtected then
      [fail "MIG-W-005" "BitLocker" .security 10 .blocker
        ("BitLocker protection is active (BootStatus/On) — hardware change will trigger " ++
          "recovery mode")
        (some .suspendBitLocker)]
    else if bl.offlineUncertain ||
        bl.volumes.any fun v => v.protection == "artifacts" || v.protection == "unknown" then
      let detail := (bl.volumes.head?.bind BitLockerVolume.source).getD "FVE artifacts"
      [fail "MIG-W-005" "BitLocker" .security 10 .warning
        (s!"BitLocker artifacts present offline ({detail}) — confirm ProtectionStatus and " ++
          "escrow the recovery key")
        (some .suspendBitLocker)]
    else
      [pass "MIG-W-005" "BitLocker" .security 10 "no active BitLocker protection"]
  | none =>
    if win.bitlockerDetected then
      [fail "MIG-W-005" "BitLocker" .security 10 .warning
        "BitLocker artifacts detected; verify protection state and escrow the recovery key"
        (some .suspendBitLocker)]
    else []

def ghostNics : MigrationCheckResult :=
  if win.ghostNics.isEmpty then
    pass "MIG-W-006" "Ghost NICs" .network 3 "no disconnected NICs"
  else
    fail "MIG-W-006" "Ghost NICs" .network 3 .warning
      s!"{win.ghostNics.length} disconnected NIC(s) hold stale configuration"
      (some (.removeGhostNics win.ghostNics))

def staticNics : List MigrationCheckResult :=
  if !win.staticNicConfigs.isEmpty then
    [fail "MIG-W-007" "Static NIC configuration" .network 6 .warning
      (s!"{win.staticNicConfigs.length} adapter(s) use static IPs bound to source hardware " ++
        "— capture and re-apply on the destination adapter")
      (some .preserveStaticIp)]
  else []

def activation : MigrationCheckResult :=
  match win.activation with
  | some act =>
    let detail :=
      match act.editionId, act.productId with
      | some ed, some pid => s!" edition={ed} product_id={pid}"
      | some ed, none => s!" edition={ed}"
      | none, some pid => s!" product_id={pid}"
      | none, none => ""
    if contains (std.toUppercase act.channel) "OEM" then
      fail "MIG-W-008" "Windows activation" .application 3 .warning
        (s!"OEM-channel license ({act.channel}){detail} is tied to source hardware and may " ++
          "deactivate")
        (some (.manual "prepare a KMS/MAK key or plan re-activation after migration"))
    else
      let channel := if act.channel.isEmpty then "unknown" else act.channel
      pass "MIG-W-008" "Windows activation" .application 3
        s!"licensed={act.licensed} channel={channel}{detail}"
  | none =>
    pass "MIG-W-008" "Windows activation" .application 1
      "activation markers not present in SOFTWARE hive"

def vssWriters : List MigrationCheckResult :=
  match win.vss with
  | some vss =>
    let suffix := if vss.offlineInferred then " (offline inference)" else ""
    [if vss.healthy then
      pass "MIG-W-009" "VSS writers" .application 4
        s!"{vss.writersTotal} writers/services stable{suffix}"
    else
      fail "MIG-W-009" "VSS writers" .application 4 .warning
        (s!"VSS not ready{suffix}: " ++
          if vss.writersFailed.isEmpty then
            "System Volume Information missing or VSS stack incomplete"
          else join ", " vss.writersFailed)
        (some (.manual ("ensure VSS + Software Shadow Copy Provider are enabled; fix failed " ++
          "writers before consistent snapshot")))]
  | none => []

def driverSignature : List MigrationCheckResult :=
  match win.driverSignatureEnforcement with
  | some enforced =>
    [if !enforced then
      fail "MIG-W-010" "Driver signature enforcement" .security 2 .info
        ("test-signing or nointegritychecks is enabled — remember to re-enable enforcement " ++
          "after driver work") none
    else
      pass "MIG-W-010" "Driver signature enforcement" .security 2
        "signature enforcement active (signed virtio-win drivers required)"]
  | none => []

def hotfixes : MigrationCheckResult :=
  let sample := win.hotfixes.take 5
  let sampleTxt := if sample.isEmpty then "none sampled" else join ", " sample
  if win.hfMigPresent then
    fail "MIG-W-012" "Windows hotfixes / servicing" .application 3 .warning
      (s!"$hf_mig$ present with {win.hotfixCount} KB(s) tracked ({sampleTxt}) — incomplete " ++
        "hotfix migration data; reboot/CBS cleanup before cutover")
      (some (.manual ("complete pending Windows Update / CBS operations and reboot before " ++
        "migration")))
  else if win.hotfixCount > 0 then
    pass "MIG-W-012" "Windows hotfixes / servicing" .application 3
      s!"{win.hotfixCount} hotfix/KB entries tracked (sample: {sampleTxt})"
  else
    pass "MIG-W-012" "Windows hotfixes / servicing" .application 2
      "no hotfix / CBS sample collected (legacy HotFix key empty or not probed)"

def missingDriverFiles : List String :=
  (win.virtioDrivers.filter fun d =>
    d.sysPresent == some false && d.present &&
      ["viostor", "vioscsi", "netkvm"].contains d.name).map WindowsDriverEntry.name

def driverFiles : List MigrationCheckResult :=
  if !win.virtioDrivers.isEmpty then
    let mismatches := missingDriverFiles win
    let onDisk := (win.virtioDrivers.filter (·.sysPresent == some true)).map
      WindowsDriverEntry.name
    if !mismatches.isEmpty then
      [fail "MIG-W-013" "VirtIO driver files" .driver 6 .blocker
        ("SCM lists " ++ join ", " mismatches ++
          " but System32\\drivers\\*.sys is missing — inject virtio-win before cutover")
        (some (.injectWindowsDriver (mismatches.head?.getD "vioscsi")))]
    else if !onDisk.isEmpty then
      [pass "MIG-W-013" "VirtIO driver files" .driver 4
        ("VirtIO .sys on disk: " ++ join ", " onDisk)]
    else if win.virtioDrivers.any (·.sysPresent.isSome) then
      [fail "MIG-W-013" "VirtIO driver files" .driver 6 .warning
        ("no VirtIO .sys files found under System32\\drivers — plan DriverInject from " ++
          "virtio-win")
        (some (.injectWindowsDriver "vioscsi"))]
    else []
  else []

def windowsChecks : List MigrationCheckResult :=
  match ev.windows with
  | none => []
  | some win =>
    [virtioStorage win] ++ virtioNetwork win ++ wrappedWindows bootReport ++ bitLocker win ++
      [ghostNics win] ++ staticNics win ++ [activation std win] ++ vssWriters win ++
      driverSignature win ++ [hotfixes win] ++ driverFiles win

def runAllChecks : List MigrationCheckResult :=
  generalChecks std ev ++
    if isWindows std ev then windowsChecks std ev bootReport else linuxChecks ev bootReport

end Guestkit.Migration
