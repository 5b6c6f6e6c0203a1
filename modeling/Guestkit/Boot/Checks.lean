import Guestkit.Evidence.Snapshot
import Guestkit.Lib.Text

/-! The boot checks: what each of them says about the evidence of a guest and a target. -/

namespace Guestkit

open Lib Lib.Text

inductive CheckSeverity where
  | blocker
  | warning
  | info
  deriving DecidableEq

/-- With weight 0 a check does not count. -/
structure CheckResult where
  id : String
  name : String
  passed : Bool
  severity : CheckSeverity
  message : String
  weight : Nat

structure Finding where
  checkId : String
  title : String
  message : String
  remediation : Option String

namespace Boot

variable (std : StdText) (evidence : EvidenceSnapshot) (target : String)

def isWindowsGuest : Bool :=
  evidence.windows.isSome || contains (std.toLowercase evidence.os.osType) "windows"

def neutral (id name message : String) (weight : Nat) : CheckResult :=
  { id, name, passed := true, severity := .info, message, weight }

def naWindows (id name : String) (weight : Nat) : CheckResult :=
  neutral id name "Not applicable — Windows guest" weight

def fstabUuidCheck : CheckResult :=
  let knownUuids := evidence.storage.partitionUuids.map fun p => std.toLowercase p.uuid
  let mismatches := (evidence.storage.fstabEntries.filter fun entry =>
    startsWith "UUID=" entry.device && !knownUuids.isEmpty &&
      !knownUuids.contains (std.toLowercase (trimStartText "UUID=" entry.device))).map
        FstabEntry.device
  let passed := mismatches.isEmpty
  { id := "BOOT-001"
    name := "Fstab UUID consistency"
    passed
    severity := if passed then .info else .blocker
    message :=
      if passed then "All fstab UUID references match partition table"
      else "Fstab UUID mismatches: " ++ join ", " mismatches
    weight := 15 }

def crypttabCheck : CheckResult :=
  let issues := (evidence.storage.crypttabEntries.filter fun e =>
    e.device.isEmpty || e.name.isEmpty).map fun e => s!"{e.name}:{e.device}"
  let passed := issues.isEmpty
  { id := "BOOT-002"
    name := "Crypttab validation"
    passed
    severity := if passed then .info else .blocker
    message :=
      if passed then "Crypttab entries appear valid"
      else "Invalid crypttab entries: " ++ join ", " issues
    weight := 10 }

def initramfsCheck : CheckResult :=
  if isWindowsGuest std evidence then
    naWindows "BOOT-003" "Initramfs presence" 12
  else
    let hasInitramfs := !evidence.boot.initramfsPaths.isEmpty
    let hasKernel := !evidence.boot.kernelPaths.isEmpty
    let passed := hasInitramfs && hasKernel
    { id := "BOOT-003"
      name := "Initramfs presence"
      passed
      severity := if passed then .info else if !hasKernel then .blocker else .warning
      message :=
        if passed then
          s!"Found {evidence.boot.kernelPaths.length} kernel(s) and " ++
            s!"{evidence.boot.initramfsPaths.length} initramfs"
        else if !hasKernel then "No kernel images found in /boot"
        else "Kernel found but no initramfs detected"
      weight := 12 }

def grubConsistencyCheck : CheckResult :=
  if isWindowsGuest std evidence then
    naWindows "BOOT-004" "GRUB configuration" 10
  else
    let passed := evidence.boot.grubCfgPath.isSome ||
      contains (std.toLowercase evidence.boot.bootloader) "grub"
    { id := "BOOT-004"
      name := "GRUB configuration"
      passed
      severity := if passed then .info else .warning
      message :=
        if passed then
          s!"Bootloader: {evidence.boot.bootloader} (default: {evidence.boot.defaultEntry})"
        else "No GRUB configuration detected"
      weight := 10 }

def efiCheck : CheckResult :=
  neutral "BOOT-005" "EFI boot support"
    (if evidence.boot.efiPresent then "EFI system partition detected"
      else "Legacy BIOS boot mode (no EFI partition detected)") 5

def isVmwareTools (tool : String) : Bool :=
  tool == "vmware-tools" || startsWith "vmware-tools-" tool

def virtioReadinessCheck : CheckResult :=
  if ! ["kvm", "proxmox", "qemu", "kubevirt"].contains target then
    neutral "BOOT-006" "Virtio driver readiness" "Virtio check skipped for non-KVM target" 0
  else
    let modules := evidence.boot.loadedModules
    let hasVirtioBlk := modules.any (contains · "virtio_blk")
    let hasVirtioNet := modules.any (contains · "virtio_net")
    let hasVirtio := hasVirtioBlk || hasVirtioNet || modules.any (contains · "virtio")
    let vmwareTools := evidence.vmTools.any isVmwareTools
    let passed := hasVirtio || !vmwareTools
    { id := "BOOT-006"
      name := "Virtio driver readiness"
      passed
      severity := if passed then .info else .warning
      message :=
        if hasVirtio then "Virtio modules available"
        else if vmwareTools then
          "VMware tools detected but no virtio modules — driver injection may be required"
        else "Virtio modules not detected in module tree"
      weight := 15 }

def nicRenameCheck : CheckResult :=
  if ! ["kvm", "proxmox", "cloud", "kubevirt"].contains target then
    neutral "BOOT-007" "NIC rename prediction" "NIC rename check skipped" 0
  else
    neutral "BOOT-007" "NIC rename prediction"
      (if !evidence.udevPersistentNet.isEmpty then
        "Persistent udev net rules present — interface names may change on new hardware"
      else "No persistent net rules — predict ens3/eth0 rename on migration") 5

def cloudInitCheck : CheckResult :=
  if !evidence.boot.cloudInitPresent then
    neutral "BOOT-008" "Cloud-init conflicts" "Cloud-init not configured" 8
  else
    { id := "BOOT-008"
      name := "Cloud-init conflicts"
      passed := true
      severity := .warning
      message := "Cloud-init present — verify instance-id and datasource on target platform"
      weight := 8 }

def selinuxRelabelCheck : CheckResult :=
  let pending := evidence.boot.pendingRelabel
  let needsRelabel := pending || std.toLowercase evidence.selinux == "enforcing"
  { id := "BOOT-009"
    name := "SELinux relabel requirement"
    passed := !pending
    severity := if pending then .warning else .info
    message :=
      if pending then "/.autorelabel present — first boot will trigger SELinux relabel"
      else if needsRelabel then "SELinux enforcing — disk UUID changes may require relabel"
      else "No SELinux relabel pending"
    weight := 8 }

def vmToolsRemnantsCheck : CheckResult :=
  if ! ["kvm", "proxmox", "kubevirt"].contains target then
    neutral "BOOT-010" "Hypervisor remnants" "Hypervisor remnant check skipped" 0
  else
    let remnants := evidence.vmTools.filter fun t =>
      isVmwareTools t || contains t "hyper-v" || contains t "virtualbox"
    let winRemnants := (evidence.windows.map WindowsEvidence.hypervisorRemnants).getD []
    let all := remnants ++ winRemnants
    let passed := all.isEmpty
    { id := "BOOT-010"
      name := "Hypervisor remnants"
      passed
      severity := if passed then .info else .warning
      message :=
        if passed then "No source hypervisor tools detected"
        else "Hypervisor remnants: " ++ join ", " all
      weight := 7 }

def problemSample (hints : List SystemdProblemHint) : String :=
  join ", " ((hints.take 3).map fun h => s!"{h.unit} ({h.code})")

def systemdStaticCheck : CheckResult :=
  match evidence.systemd with
  | none =>
    neutral "BOOT-011" "Systemd static analysis" "No systemd evidence collected" 0
  | some systemd =>
    let critical := systemd.problemHints.filter (·.severity = .critical)
    let warnings := systemd.problemHints.filter (·.severity = .warning)
    { id := "BOOT-011"
      name := "Systemd static analysis"
      passed := critical.isEmpty
      severity :=
        if !critical.isEmpty then .blocker else if !warnings.isEmpty then .warning else .info
      message :=
        if !critical.isEmpty then
          s!"{critical.length} critical systemd issue(s): {problemSample critical}"
        else if !warnings.isEmpty then
          s!"{warnings.length} systemd warning(s): {problemSample warnings}"
        else s!"No systemd static issues in {systemd.unitCount} units"
      weight := 8 }

def skippedNonWindows (id name : String) : CheckResult :=
  neutral id name "Skipped for non-Windows guest" 0

def windowsEfiBootCheck : CheckResult :=
  if !isWindowsGuest std evidence then
    skippedNonWindows "BOOT-012" "Windows EFI boot chain"
  else
    let windows := evidence.windows
    let systemReserved := windows.bind WindowsEvidence.systemReserved
    let efiLayout := evidence.boot.efiPresent ||
      (windows.bind WindowsEvidence.espPresent).getD false ||
      systemReserved.any fun s => s.role == "esp"
    let efiReady := efiLayout && (windows.map WindowsEvidence.bootmgrFound).getD false
    let espOk := (windows.bind WindowsEvidence.espPresent).getD efiLayout
    let passed := (efiReady && espOk) || !efiLayout
    { id := "BOOT-012"
      name := "Windows EFI boot chain"
      passed
      severity := if passed then .info else .blocker
      message :=
        if !efiLayout then "Legacy BIOS boot — EFI bootmgr check not required"
        else if efiReady && espOk then
          match systemReserved.filter fun s => s.role == "esp" with
          | some sr => s!"EFI system partition on {sr.device} with Windows bootmgr"
          | none => "EFI system partition and Windows bootmgr present"
        else if !espOk then
          "EFI firmware path expected but no ESP / EFI Microsoft Boot volume found"
        else "EFI partition detected but Windows bootmgfw.efi not found"
      weight := 12 }

def windowsBcdCheck : CheckResult :=
  if !isWindowsGuest std evidence then
    skippedNonWindows "BOOT-013" "Windows BCD store"
  else
    let windows := evidence.windows
    let systemrootOk := (windows.map fun w => !(trim w.systemroot).isEmpty).getD false
    let bcdOk := (windows.map WindowsEvidence.bcdStoreFound).getD false
    let pendingReboot := (windows.map WindowsEvidence.pendingReboot).getD false
    let bcdVolume := (windows.bind WindowsEvidence.systemReserved).filter
      SystemReservedPartition.hasBcd
    let passed := systemrootOk && bcdOk
    { id := "BOOT-013"
      name := "Windows BCD store"
      passed
      severity := if !passed then .blocker else if pendingReboot then .warning else .info
      message :=
        if !systemrootOk then "Windows SYSTEMROOT not detected"
        else if !bcdOk then
          "BCD store not found (checked OS volume, EFI Microsoft Boot, and System Reserved)"
        else if pendingReboot then
          match bcdVolume with
          | some sr =>
            s!"BCD on {sr.device} ({sr.role}); pending reboot flag set in registry"
          | none => "BCD store present; pending reboot flag set in registry"
        else
          match bcdVolume with
          | some sr => s!"Windows BCD store located on {sr.device} ({sr.role})"
          | none => "Windows BCD store located"
      weight := 10 }

def windowsSystemReservedCheck : CheckResult :=
  if !isWindowsGuest std evidence then
    skippedNonWindows "BOOT-014" "Windows System Reserved / ESP layout"
  else
    match evidence.windows.bind WindowsEvidence.systemReserved with
    | none =>
      neutral "BOOT-014" "Windows System Reserved / ESP layout"
        "No separate System Reserved / ESP boot volume (boot files on OS volume or not detected)" 4
    | some sr =>
      let healthy := sr.hasBcd && (sr.hasBootmgr || sr.role == "esp")
      let kind := if sr.role == "esp" then "EFI System Partition" else "System Reserved partition"
      { id := "BOOT-014"
        name := "Windows System Reserved / ESP layout"
        passed := healthy
        severity := if healthy then .info else .warning
        message :=
          if healthy then
            s!"{kind} on {sr.device} ({sr.fstype}, bootmgr={sr.hasBootmgr}, BCD={sr.hasBcd})"
          else
            s!"Boot volume {sr.device} ({sr.role}) incomplete — bootmgr={sr.hasBootmgr} " ++
              s!"BCD={sr.hasBcd} (multi-partition layout must ship intact)"
        weight := 4 }

def allChecks : List CheckResult :=
  [fstabUuidCheck std evidence, crypttabCheck evidence, initramfsCheck std evidence,
   grubConsistencyCheck std evidence, efiCheck evidence, virtioReadinessCheck evidence target,
   nicRenameCheck evidence target, cloudInitCheck evidence, selinuxRelabelCheck std evidence,
   vmToolsRemnantsCheck evidence target, systemdStaticCheck evidence,
   windowsEfiBootCheck std evidence, windowsBcdCheck std evidence,
   windowsSystemReservedCheck std evidence]

end Boot

end Guestkit
