import Guestkit.Lib.Fs.Walk
import Guestkit.Migration.Score
import Guestkit.Plan.TopoSort

/-! The repair planner: which operations follow from the failed checks of an assessment, and which
of them cannot be taken back. -/

namespace Guestkit.Migration

open Guestkit Lib Lib.Text Lib.Fs Plan

structure RepairOptions where
  includeDestructive : Bool := false
  virtioWinDir : Option Path := none

/-- What the planner asks the host for: its directories, `GUESTKIT_VIRTIO_WIN` and the time. -/
structure PlannerHost where
  isDir : Path → Bool
  virtioWin : Option String
  now : Int

def op (id description : String) (opType : OperationType) (risk : Priority) (reversible : Bool)
    (undo : Option UndoInfo) (validation : Option ValidationCheck) (dependsOn : List String) :
    Operation :=
  { id, opType, priority := .high, description, risk, reversible, dependsOn, validation, undo }

/-- What becomes of a hint: operations, and notes on what is left to do. -/
abbrev Repair := List Operation × List String

variable (std : StdText)

variable (ev : EvidenceSnapshot)

def dracutBased : Bool :=
  ["dnf", "yum", "zypper", "rpm"].contains ev.os.packageManager ||
    ["rhel", "fedora", "centos", "suse"].any (contains (std.toLowercase ev.os.distribution))

def virtioInitramfs (dracut : Bool) : List Operation :=
  let (description, path, content, undo) :=
    if dracut then
      ("Persist virtio modules in dracut configuration",
        "/etc/dracut.conf.d/99-guestkit-virtio.conf",
        "add_drivers+=\" virtio_blk virtio_scsi virtio_net virtio_pci \"\n",
        "rm -f /etc/dracut.conf.d/99-guestkit-virtio.conf")
    else
      ("Persist virtio modules in initramfs-tools configuration",
        "/etc/initramfs-tools/modules.d/guestkit-virtio",
        "virtio_blk\nvirtio_scsi\nvirtio_net\nvirtio_pci\n",
        "sed -i '/^virtio_/d' /etc/initramfs-tools/modules")
  let (rebuild, validation) :=
    if dracut then ("dracut -f --regenerate-all", "lsinitrd | grep -q virtio")
    else ("update-initramfs -u -k all",
      "lsinitramfs /boot/initrd.img-$(uname -r) | grep -q virtio")
  [ op "mig-virtio-initramfs-conf" description
      (.fileWrite { path, content, mode := some "0644" }) .medium true
      (some (.command undo)) none [],
    op "mig-virtio-initramfs-rebuild" "Rebuild initramfs with virtio drivers"
      (.commandExec { command := rebuild, timeout := some 600 }) .medium false
      none (some { command := validation }) ["mig-virtio-initramfs-conf"] ]

/-- The lines of the fstab that name a device, with the UUID of the device in its place. -/
def fstabChanges : List FileChange :=
  ev.storage.fstabEntries.filterMap fun entry =>
    if !startsWith "/dev/sd" entry.device && !startsWith "/dev/vd" entry.device then none
    else
      (ev.storage.partitionUuids.find? (·.device == entry.device)).map fun uuid =>
        { line := 0
          before := s!"{entry.device} {entry.mountpoint} {entry.fstype} {entry.options}"
          after := s!"UUID={uuid.uuid} {entry.mountpoint} {entry.fstype} {entry.options}" }

def fstabUuid : Repair :=
  match fstabChanges ev with
  | [] =>
    ([], ["fstab uses device paths but no matching UUIDs were collected — manual conversion " ++
      "required"])
  | changes =>
    ([op "mig-fstab-uuid" "Convert /etc/fstab device paths to stable UUIDs"
      (.fileEdit { file := "/etc/fstab", backup := true, changes }) .high true
      (some (.command "restore /etc/fstab from the plan rollback snapshot"))
      (some { command := "findmnt --verify --tab-file /etc/fstab" }) []], [])

def grubBackup (dracut : Bool) : String :=
  if dracut then "cp /boot/grub2/grub.cfg /boot/grub2/grub.cfg.guestkit-bak"
  else "cp /boot/grub/grub.cfg /boot/grub/grub.cfg.guestkit-bak"

def grubRebuild (dracut : Bool) : String :=
  if dracut then "grub2-mkconfig -o /boot/grub2/grub.cfg" else "update-grub"

def grubRepair (dracut : Bool) : List Operation :=
  let cfg := if dracut then "/boot/grub2/grub.cfg" else "/boot/grub/grub.cfg"
  [ op "mig-grub-backup" "Back up current GRUB configuration"
      (.commandExec { command := grubBackup dracut, timeout := some 30 }) .low true
      (some (.command s!"rm -f {cfg}.guestkit-bak")) none [],
    op "mig-grub-rebuild" "Regenerate GRUB configuration"
      (.commandExec { command := grubRebuild dracut, timeout := some 300 }) .high true
      (some (.command s!"cp {cfg}.guestkit-bak {cfg}"))
      (some { command := s!"test -s {cfg}" }) ["mig-grub-backup"] ]

def enableConsole : String :=
  "grubby --update-kernel=ALL --args='console=ttyS0,115200 console=tty0'"

def vmTools : String := "open-vm-tools open-vm-tools-desktop"

def removeTools (dracut : Bool) : String :=
  if dracut then s!"dnf remove -y {vmTools} || yum remove -y {vmTools}"
  else s!"apt-get remove -y {vmTools}"

def namesVmware (packages : List String) : Bool :=
  packages.any fun p => contains (std.toLowercase p) "vmware"

/-- The repairs of a Linux guest; which operations can be undone plays no part. -/
def linuxOps (hint : RemediationHint) : Repair :=
  let dracut := dracutBased std ev
  match hint with
  | .addVirtioToInitramfs => (virtioInitramfs dracut, [])
  | .convertFstabToUuid => fstabUuid ev
  | .repairBootloader => (grubRepair dracut, [])
  | .enableSerialConsole =>
    ([op "mig-serial-console" "Enable serial console on all kernel entries"
      (.commandExec { command := enableConsole, timeout := some 60 }) .medium true
      (some (.command "grubby --update-kernel=ALL --remove-args='console=ttyS0,115200'"))
      none []], [])
  | .removeHypervisorTools packages =>
    if namesVmware std packages then
      ([op "mig-remove-vm-tools" "Remove VMware guest tooling"
        (.commandExec { command := removeTools dracut, timeout := some 600 }) .medium true
        (some (.command s!"reinstall with the package manager: {vmTools}")) none []], [])
    else
      ([], ["hypervisor tooling " ++ std.debugList packages ++ " requires manual removal"])
  | .scheduleSelinuxRelabel =>
    ([op "mig-selinux-relabel" "Schedule SELinux relabel on next boot"
      (.fileWrite { path := "/.autorelabel", content := "", mode := some "0644" }) .low true
      (some (.command "rm -f /.autorelabel")) none []], [])
  | .preserveStaticIp =>
    ([], ["static IP preservation is handled by baseline capture + post-migration restore, not " ++
      "a repair op"])
  | other => ([], ["no automated Linux repair for " ++ other.debug std])

section Windows

variable (std : StdText) (host : PlannerHost) (opts : RepairOptions)

def resolveHostDir (di : DriverInject) : Option Path :=
  let explicit := (di.hostDir.map Path.ofString).filter host.isDir
  let source := (some (Path.ofString di.source)).filter host.isDir
  let layouts := host.virtioWin.bind fun base =>
    let driver := (Path.ofString base).join (Path.ofString di.driverName)
    [ driver, driver.join ["amd64"], (driver.join ["2k22"]).join ["amd64"],
      (driver.join ["2k19"]).join ["amd64"], (driver.join ["w10"]).join ["amd64"],
      (driver.join ["w11"]).join ["amd64"] ].find? host.isDir
  (explicit.or source).or layouts

/-- The directory of a driver as the options give it: a directory in the one that is named, or that
one itself. -/
def givenDir (driver : String) : Option Path :=
  opts.virtioWinDir.bind fun dir =>
    let candidate := dir.join (Path.ofString driver)
    if host.isDir candidate then some candidate else (some dir).filter host.isDir

def injectDriver (driver : String) : Repair :=
  let inj : DriverInject :=
    { infPath := "C:\\GuestKit\\drivers\\" ++ driver ++ "\\" ++ driver ++ ".inf"
      driverName := driver
      bootCritical := driver == "viostor" || driver == "vioscsi"
      source := "virtio-win" }
  let hostDir := (givenDir host opts driver).or (resolveHostDir host inj)
  let notes := match hostDir with
    | some _ => []
    | none => ["DriverInject '" ++ driver ++ "': set GUESTKIT_VIRTIO_WIN or --virtio-win to a " ++
        "virtio-win tree for offline plan apply"]
  ([op ("mig-inject-" ++ driver) ("Inject virtio driver " ++ driver)
    (.driverInject { inj with hostDir := hostDir.map Path.display }) .high true
    (some (.command ("pnputil /delete-driver " ++ driver ++ ".inf /uninstall")))
    (some { command := "pnputil /enum-drivers | Select-String " ++ driver }) []], notes)

def suspendBitLocker : String :=
  "Get-BitLockerVolume | Where-Object ProtectionStatus -eq 'On' | Suspend-BitLocker " ++
    "-RebootCount 2"

def ghostNicRemoval (instanceIds : List String) : List Operation :=
  instanceIds.mapIdx fun i id =>
    op s!"mig-ghost-nic-{i}" ("Remove disconnected NIC " ++ id)
      (.commandExec { command := "pnputil /remove-device \"" ++ id ++ "\"", timeout := some 60 })
      .medium false none none []

def uninstallVmwareTools : String :=
  "$app = Get-CimInstance Win32_Product -Filter \"Name like 'VMware Tools%'\"; if ($app) \x7b " ++
    "$app | Invoke-CimMethod -MethodName Uninstall \x7d"

def windowsOps (hint : RemediationHint) : Repair :=
  match hint with
  | .injectWindowsDriver driver => injectDriver host opts driver
  | .registerBootCritical driver =>
    let service := "SYSTEM\\CurrentControlSet\\Services\\" ++ driver
    ([op ("mig-bootcritical-" ++ driver)
      ("Register " ++ driver ++ " as boot-critical storage driver")
      (.registryEdit
        { key := "HKLM\\" ++ service
          value := "Start"
          currentData := .number (.posInt 3)
          newData := .number (.posInt 0)
          dataType := "DWORD" }) .high true
      (some (.command ("reg.exe add HKLM\\" ++ service ++ " /v Start /t REG_DWORD /d 3 /f")))
      (some
        { command := "(Get-ItemProperty HKLM:\\" ++ service ++ ").Start -eq 0"
          expectedOutput := some "True" }) []], [])
  | .suspendBitLocker =>
    ([op "mig-suspend-bitlocker"
      "Suspend BitLocker protection until after migration validation (2 reboots)"
      (.commandExec { command := suspendBitLocker, timeout := some 120 }) .high true
      (some (.command "Get-BitLockerVolume | Resume-BitLocker"))
      (some
        { command := "[bool](Get-BitLockerVolume | Where-Object ProtectionStatus -eq 'Off')"
          expectedOutput := some "True" }) []], [])
  | .removeGhostNics instanceIds =>
    if !opts.includeDestructive then
      ([], ["skipping ghost-NIC removal (" ++ toString instanceIds.length ++ " device(s)) — " ++
        "destructive; requires include_destructive"])
    else (ghostNicRemoval instanceIds, [])
  | .removeHypervisorTools _ =>
    if !opts.includeDestructive then
      ([], ["skipping VMware Tools uninstall — destructive (can drop the NIC mid-session); " ++
        "requires include_destructive"])
    else
      ([op "mig-remove-vmware-tools" "Uninstall VMware Tools"
        (.commandExec { command := uninstallVmwareTools, timeout := some 900 }) .medium false
        none none []], [])
  | .preserveStaticIp =>
    ([], ["static NIC configuration is captured in the pre-migration baseline and re-applied " ++
      "by post-migration validation"])
  | other => ([], ["no automated Windows repair for " ++ other.debug std])

end Windows

def hintsOnce (std : StdText) : List String → List RemediationHint → List RemediationHint
  | _, [] => []
  | seen, hint :: hints =>
    if hint.debug std ∈ seen then hintsOnce std seen hints
    else hint :: hintsOnce std (hint.debug std :: seen) hints

/-- The hints that are followed: of those of the failed checks, the first one with each text. -/
def repairHints (assessment : MigrationAssessment) : List RemediationHint :=
  hintsOnce std [] ((assessment.checks.filter (!·.passed)).filterMap (·.remediation))

def refused (op : Operation) : Bool :=
  op.risk.rank ≤ Priority.high.rank && op.undo.isNone

def refusal (op : Operation) : String :=
  "refused " ++ op.id ++ ": " ++ op.risk.debug ++ " risk without undo information"

def overallRisk (operations : List Operation) : String :=
  let highest (a b : Priority) : Priority := if b.rank < a.rank then b else a
  match operations.map (·.risk) with
  | [] => "low"
  | risk :: risks => std.toLowercase (risks.foldl highest risk).debug

def fromAssessment (host : PlannerHost) (assessment : MigrationAssessment)
    (ev : EvidenceSnapshot) (opts : RepairOptions) : FixPlan × List String :=
  let repairs := (repairHints std assessment).map fun hint =>
    if isWindows std ev then windowsOps std host opts hint else linuxOps std ev hint
  let operations := repairs.flatMap fun (ops, _) => ops.filter fun op => !refused op
  let notes := repairs.flatMap fun (ops, notes) => notes ++ (ops.filter refused).map refusal
  ({ vm := ev.imagePath
     generated := host.now
     profile := "migration-repair"
     overallRisk := overallRisk std operations
     metadata :=
       { description := some ("migration repair plan for target " ++ assessment.target ++
          " (score " ++ std.display assessment.overallScore ++ ")")
         reversible := operations.all (·.reversible) }
     operations }, notes)

theorem mem_operations {std : StdText} {host : PlannerHost} {ev : EvidenceSnapshot}
    {assessment : MigrationAssessment} {opts : RepairOptions} {o : Operation} :
    o ∈ (fromAssessment std host assessment ev opts).1.operations ↔
      ∃ hint ∈ repairHints std assessment,
        o ∈ (if isWindows std ev then windowsOps std host opts hint else linuxOps std ev hint).1 ∧
          refused o = false := by
  simp [fromAssessment]

end Guestkit.Migration
