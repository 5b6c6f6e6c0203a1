import Guestkit.Evidence.Storage
import Guestkit.Migration.Checks

/-! The migration assessment: the scores, the findings and the readiness that follow from the
checks, and which blockers of the bootability report it takes over. -/

namespace Guestkit.Migration

open Guestkit Lib Lib.Text Boot

structure MigrationScoreReport where
  score : Float
  driverInjections : List String
  requiredChanges : List String
  licensingWarnings : List String
  estimatedDowntimeMinutes : UInt32

def listed (condition : Bool) (texts : List String) : List String :=
  if condition then texts else []

def less (condition : Bool) (penalty score : Float) : Float :=
  if condition then score - penalty else score

def computeMigrationScore (std : StdText) (evidence : EvidenceSnapshot) (boot : BootabilityReport)
    (target : String) : MigrationScoreReport :=
  let targetLower := std.toLowercase target
  let virtual := ["kvm", "proxmox", "qemu", "kubevirt"].contains targetLower
  let cloud := ["aws", "azure", "gcp"].contains targetLower
  let vmware := virtual && evidence.vmTools.any (contains · "vmware")
  let noVirtio := virtual && !evidence.boot.loadedModules.any (contains · "virtio")
  let cloudInit := evidence.boot.cloudInitPresent
  let bitlocker := evidence.windows.any WindowsEvidence.bitlockerDetected
  let pendingReboot := evidence.windows.any WindowsEvidence.pendingReboot
  let score := less pendingReboot 5 <| less bitlocker 20 <| less (cloud && !cloudInit) 5 <|
    less noVirtio 10 <| less vmware 5 boot.score
  let driverInjections := listed noVirtio ["virtio_blk", "virtio_net", "virtio_pci"]
  let requiredChanges :=
    listed vmware ["Remove VMware Tools; install qemu-guest-agent"] ++
    listed virtual ["Set disk bus to virtio-scsi or virtio-blk",
      "Set network model to virtio-net"] ++
    listed (cloud && cloudInit) ["Reconfigure cloud-init datasource for target cloud"] ++
    listed (cloud && !cloudInit) ["Install and configure cloud-init for cloud target"] ++
    listed pendingReboot ["Complete pending Windows reboot before migration"] ++
    listed evidence.boot.pendingRelabel
      ["Allow SELinux relabel on first boot after migration"]
  let licensingWarnings :=
    listed cloud ["Verify OS license portability to cloud (BYOL vs pay-as-you-go)"] ++
    listed bitlocker ["BitLocker encryption must be suspended before migration"]
  let blockers := boot.blockers.length
  { score := clamp (score - Float.ofNat blockers * 8) 0 100
    driverInjections
    requiredChanges
    licensingWarnings
    estimatedDowntimeMinutes :=
      30 + UInt32.ofNat blockers * 15 + UInt32.ofNat driverInjections.length * 10 +
        UInt32.ofNat requiredChanges.length * 5 }

inductive ReadinessLevel where
  | ready
  | readyWithWarnings
  | blocked
  deriving DecidableEq

structure MigrationSubScores where
  boot : Float
  storage : Float
  network : Float
  driver : Float
  application : Float
  security : Float

structure MigrationAssessment where
  target : String
  live : Bool
  assessedAt : String
  overallScore : Float
  subScores : MigrationSubScores
  readiness : ReadinessLevel
  criticalBlockers : List Finding
  recommendedActions : List String
  checks : List MigrationCheckResult
  onlineCorrelation : Option Json
  legacy : MigrationScoreReport

def credit (check : MigrationCheckResult) : Float :=
  let weight := Float.ofNat check.weight
  if check.passed then weight
  else
    match check.severity with
    | .blocker => 0
    | .warning => weight * 0.4
    | .info => weight * 0.8

variable (checks : List MigrationCheckResult)

def perCategory (category : ReadinessCategory) :
    Option (Float × Float) :=
  match checks.filter (·.category = category) with
  | [] => none
  | checks => some (checks.foldl
      (fun (passed, total) check => (passed + credit check, total + Float.ofNat check.weight))
      (0, 0))

def categoryScore (category : ReadinessCategory) : Float :=
  match perCategory checks category with
  | some (passed, total) => if total > 0 then (passed / total * 100).round else 100
  | none => 100

def overallScore (bootReport : BootabilityReport) : Float :=
  let (weightedSum, weightTotal) := (ReadinessCategory.all.filterMap (perCategory checks)).foldl
    (fun (sum, total) (passed, weight) => (sum + passed, total + weight)) (0, 0)
  if weightTotal > 0 then (weightedSum / weightTotal * 100).round else bootReport.score

def blockerFinding (std : StdText) (check : MigrationCheckResult) : Finding :=
  { checkId := check.id
    title := check.name
    message := check.message
    remediation :=
      (check.remediation.map (RemediationHint.debug std)).or
        (some "manual intervention required") }

def assessMigration (std : StdText) (ev : EvidenceSnapshot) (bootReport : BootabilityReport)
    (target : String) (live : Bool) (now : String) : MigrationAssessment :=
  let checks := runAllChecks std ev bootReport
  let criticalBlockers := (checks.filter fun c => !c.passed && c.severity = .blocker).map
    (blockerFinding std)
  { target
    live
    assessedAt := now
    overallScore := overallScore checks bootReport
    subScores :=
      { boot := categoryScore checks .boot
        storage := categoryScore checks .storage
        network := categoryScore checks .network
        driver := categoryScore checks .driver
        application := categoryScore checks .application
        security := categoryScore checks .security }
    readiness :=
      if !criticalBlockers.isEmpty then .blocked
      else if checks.any fun c => !c.passed && c.severity = .warning then .readyWithWarnings
      else .ready
    criticalBlockers
    recommendedActions := (checks.filter fun c => !c.passed && c.remediation.isSome).map
      fun c => s!"[{c.id}] {c.name}: {c.message}"
    checks
    onlineCorrelation := ev.onlineCache
    legacy := computeMigrationScore std ev bootReport target }

section Blockers

variable {std : StdText} {ev : EvidenceSnapshot} {bootReport : BootabilityReport}

def AnyBlocks (checks : List MigrationCheckResult) : Prop := ∃ check ∈ checks, Blocks check

@[simp] theorem anyBlocks_nil : ¬ AnyBlocks [] := by simp [AnyBlocks]

@[simp] theorem anyBlocks_cons (check : MigrationCheckResult) (checks : List MigrationCheckResult) :
    AnyBlocks (check :: checks) ↔ Blocks check ∨ AnyBlocks checks := by
  simp [AnyBlocks]

@[simp] theorem anyBlocks_append (checks checks' : List MigrationCheckResult) :
    AnyBlocks (checks ++ checks') ↔ AnyBlocks checks ∨ AnyBlocks checks' := by
  simp [AnyBlocks, or_and_right, exists_or]

theorem assessMigration_blocked {target now : String} {live : Bool} :
    (assessMigration std ev bootReport target live now).readiness = .blocked ↔
      AnyBlocks (runAllChecks std ev bootReport) := by
  have hblockers : AnyBlocks (runAllChecks std ev bootReport) ↔
      (runAllChecks std ev bootReport).filter (fun c => !c.passed && c.severity = .blocker) ≠
        [] := by
    simp [AnyBlocks, Blocks]
  rw [hblockers]
  unfold assessMigration
  dsimp only
  rw [List.isEmpty_map]
  cases (runAllChecks std ev bootReport).filter fun c => !c.passed && c.severity = .blocker with
  | nil =>
    rw [List.isEmpty_nil, Bool.not_true, if_neg Bool.false_ne_true]
    split <;> simp
  | cons check rest => simp

@[simp] theorem pass_not_blocks (id name : String) (category : ReadinessCategory) (weight : Nat)
    (message : String) : ¬ Blocks (.pass id name category weight message) :=
  fun h => Bool.noConfusion h.1

@[simp] theorem fail_blocks_iff {id name : String} {category : ReadinessCategory} {weight : Nat}
    {severity : CheckSeverity} {message : String} {remediation : Option RemediationHint} :
    Blocks (.fail id name category weight severity message remediation) ↔ severity = .blocker :=
  ⟨fun h => h.2, fun h => ⟨rfl, h⟩⟩

/-! The checks that never block. -/

@[simp] theorem firmware_not_blocks : ¬ AnyBlocks (firmware ev) := by
  unfold firmware
  split_ifs <;> simp

@[simp] theorem freeDiskSpace_not_blocks : ¬ AnyBlocks (freeDiskSpace ev) := by
  unfold freeDiskSpace
  split
  · split_ifs <;> simp
  · simp

@[simp] theorem pendingReboot_not_blocks : ¬ AnyBlocks (pendingReboot ev) := by
  unfold pendingReboot
  split
  · split_ifs <;> simp
  · simp

@[simp] theorem hypervisorTooling_not_blocks : ¬ Blocks (hypervisorTooling std ev) := by
  unfold hypervisorTooling
  dsimp only
  split_ifs <;> simp

@[simp] theorem staticIp_not_blocks (lm : LinuxMigrationEvidence) : ¬ Blocks (staticIp lm) := by
  unfold staticIp
  dsimp only
  split_ifs <;> simp

@[simp] theorem hypervisorModules_not_blocks (lm : LinuxMigrationEvidence) :
    ¬ Blocks (hypervisorModules lm) := by
  unfold hypervisorModules
  split_ifs <;> simp

@[simp] theorem serialConsole_not_blocks : ¬ Blocks (serialConsole ev) := by
  unfold serialConsole
  split_ifs <;> simp

section Windows

variable (win : WindowsEvidence)

@[simp] theorem virtioNetwork_not_blocks : ¬ AnyBlocks (virtioNetwork win) := by
  unfold virtioNetwork
  split_ifs <;> simp

@[simp] theorem ghostNics_not_blocks : ¬ Blocks (ghostNics win) := by
  unfold ghostNics
  split_ifs <;> simp

@[simp] theorem staticNics_not_blocks : ¬ AnyBlocks (staticNics win) := by
  unfold staticNics
  split_ifs <;> simp

@[simp] theorem activation_not_blocks : ¬ Blocks (activation std win) := by
  unfold activation
  split
  · dsimp only
    split_ifs <;> simp
  · simp

@[simp] theorem vssWriters_not_blocks : ¬ AnyBlocks (vssWriters win) := by
  unfold vssWriters
  split
  · dsimp only
    split_ifs <;> simp
  · simp

@[simp] theorem driverSignature_not_blocks : ¬ AnyBlocks (driverSignature win) := by
  unfold driverSignature
  split
  · split_ifs <;> simp
  · simp

@[simp] theorem hotfixes_not_blocks : ¬ Blocks (hotfixes win) := by
  unfold hotfixes
  dsimp only
  split_ifs <;> simp

end Windows

/-! The checks that can block. -/

variable (std ev) in
theorem bootCheck_eq {bootId : String} {src : CheckResult} (bootTarget : BootTarget)
    (migId : String) (category : ReadinessCategory) (weight : Nat)
    (remediation : Option RemediationHint)
    (hsrc : src ∈ allChecks std ev bootTarget.asStr) (hid : src.id = bootId) :
    ∃ check, bootCheck (analyzeBootability std ev bootTarget) bootId migId category weight
        remediation = some check ∧ (Blocks check ↔ Fails src) := by
  have hfind : (analyzeBootability std ev bootTarget).checks.find? (·.id == bootId) = some src :=
    hid ▸ find_allChecks std ev bootTarget.asStr hsrc
  unfold bootCheck
  rw [hfind]
  refine ⟨_, rfl, ?_⟩
  unfold Blocks Fails
  dsimp only
  cases src.passed <;> simp

/-- No driver for a virtual disk is in the initramfs, of which the contents are known. -/
def LacksVirtio (ev : EvidenceSnapshot) : Prop :=
  ev.boot.initramfsModules ≠ [] ∧
    ∀ m ∈ ev.boot.initramfsModules, m ≠ "virtio_blk" ∧ m ≠ "virtio_scsi"

variable (win : WindowsEvidence)

def LacksStorageDriver : Prop :=
  match storageDriver win with
  | some d => d.bootCritical = false
  | none => win.virtioDrivers ≠ []

theorem virtioStorage_blocks :
    Blocks (virtioStorage win) ↔ LacksStorageDriver win := by
  unfold virtioStorage LacksStorageDriver
  cases storageDriver win with
  | some d => cases hcritical : d.bootCritical <;> simp [hcritical]
  | none => cases win.virtioDrivers <;> simp

theorem bitLocker_blocks :
    AnyBlocks (bitLocker win) ↔ win.bitlocker.any BitLockerState.anyProtected = true := by
  unfold bitLocker
  cases win.bitlocker with
  | some bl =>
    dsimp only
    split_ifs with hprotected <;> simp [hprotected]
  | none =>
    dsimp only
    split_ifs <;> simp

theorem driverFiles_blocks :
    AnyBlocks (driverFiles win) ↔ missingDriverFiles win ≠ [] := by
  have hnone : win.virtioDrivers = [] → missingDriverFiles win = [] := by
    intro h
    unfold missingDriverFiles
    rw [h]
    rfl
  unfold driverFiles
  dsimp only
  split_ifs with hdrivers hmissing <;> simp_all

section Translated

variable (std ev) (target : BootTarget)

theorem virtioInInitramfs_blocks :
    AnyBlocks (virtioInInitramfs ev (analyzeBootability std ev target)) ↔ LacksVirtio ev := by
  obtain ⟨check, hcheck, hblocks⟩ := bootCheck_eq std ev target "MIG-L-001" .driver 10
    (some .addVirtioToInitramfs) (by simp [allChecks])
    (virtioReadinessCheck_id ev target.asStr)
  unfold virtioInInitramfs LacksVirtio
  dsimp only
  rw [hcheck]
  split_ifs with hmods hvirtio
  · simp only [List.any_eq_true, Bool.or_eq_true, beq_iff_eq] at hvirtio
    obtain ⟨m, hm, hvirtio⟩ := hvirtio
    simp only [anyBlocks_cons, pass_not_blocks, anyBlocks_nil, or_self, false_iff]
    rintro ⟨-, h⟩
    exact hvirtio.elim (h m hm).1 (h m hm).2
  · simp_all
  · simp_all [Boot.virtioReadinessCheck_not_fails]

theorem wrappedLinux_blocks :
    AnyBlocks (wrappedLinux (analyzeBootability std ev target)) ↔
      Boot.Blocks (Boot.fstabUuidCheck std ev) ∨ Boot.Blocks (Boot.initramfsCheck std ev) := by
  obtain ⟨fstab, hfstab, hfstabBlocks⟩ := bootCheck_eq std ev target "MIG-L-002" .storage 8
    (some .convertFstabToUuid) (by simp [allChecks])
    (fstabUuidCheck_id std ev)
  obtain ⟨initramfs, hinitramfs, hinitramfsBlocks⟩ := bootCheck_eq std ev target "MIG-L-003" .boot 8
    (some .addVirtioToInitramfs) (by simp [allChecks])
    (initramfsCheck_id std ev)
  obtain ⟨grub, hgrub, hgrubBlocks⟩ := bootCheck_eq std ev target "MIG-L-004" .boot 8
    (some .repairBootloader) (by simp [allChecks])
    (grubConsistencyCheck_id std ev)
  obtain ⟨efi, hefi, hefiBlocks⟩ := bootCheck_eq std ev target "MIG-L-005" .boot 5
    (some .repairBootloader) (by simp [allChecks])
    (efiCheck_id ev)
  obtain ⟨relabel, hrelabel, hrelabelBlocks⟩ := bootCheck_eq std ev target "MIG-L-006" .security 3
    (some .scheduleSelinuxRelabel) (by simp [allChecks])
    (selinuxRelabelCheck_id std ev)
  have hfails : Fails (fstabUuidCheck std ev) ↔
      Boot.Blocks (Boot.fstabUuidCheck std ev) :=
    (and_iff_right (Nat.succ_pos _)).symm
  have hnot : ¬ Fails (efiCheck ev) := neutral_not_fails _ _ _ _
  simp [wrappedLinux, hfstab, hinitramfs, hgrub, hefi, hrelabel, hfstabBlocks, hinitramfsBlocks,
    hgrubBlocks, hefiBlocks, hrelabelBlocks, hfails, hnot, initramfsCheck_fails_iff,
    Boot.grubConsistencyCheck_not_fails, Boot.selinuxRelabelCheck_not_fails]

theorem wrappedWindows_blocks :
    AnyBlocks (wrappedWindows (analyzeBootability std ev target)) ↔
      Boot.Blocks (Boot.windowsEfiBootCheck std ev) ∨
        Boot.Blocks (Boot.windowsBcdCheck std ev) := by
  obtain ⟨bcd, hbcd, hbcdBlocks⟩ := bootCheck_eq std ev target "MIG-W-003" .boot 8
    (some .repairBootloader) (by simp [allChecks])
    (windowsBcdCheck_id std ev)
  obtain ⟨efi, hefi, hefiBlocks⟩ := bootCheck_eq std ev target "MIG-W-004" .boot 6
    (some .repairBootloader) (by simp [allChecks])
    (windowsEfiBootCheck_id std ev)
  obtain ⟨layout, hlayout, hlayoutBlocks⟩ := bootCheck_eq std ev target "MIG-W-011" .boot 4
    (some .repairBootloader) (by simp [allChecks])
    (windowsSystemReservedCheck_id std ev)
  simp [wrappedWindows, hbcd, hefi, hlayout, hbcdBlocks, hefiBlocks, hlayoutBlocks,
    Boot.windowsBcdCheck_fails_iff, Boot.windowsEfiBootCheck_fails_iff,
    Boot.windowsSystemReservedCheck_not_fails, or_comm]

end Translated

variable (std ev)

def TranslatedBlocks : Prop :=
  if isWindows std ev then
    ev.windows.isSome ∧ (Boot.Blocks (Boot.windowsEfiBootCheck std ev) ∨
      Boot.Blocks (Boot.windowsBcdCheck std ev))
  else
    Boot.Blocks (Boot.fstabUuidCheck std ev) ∨ Boot.Blocks (Boot.initramfsCheck std ev)

def UntranslatedBlocks : Prop :=
  Boot.Blocks (Boot.crypttabCheck ev) ∨ Boot.Blocks (Boot.systemdStaticCheck ev) ∨
    if isWindows std ev then
      Boot.Blocks (Boot.fstabUuidCheck std ev) ∨
        ev.windows = none ∧ (Boot.Blocks (Boot.windowsEfiBootCheck std ev) ∨
          Boot.Blocks (Boot.windowsBcdCheck std ev))
    else
      Boot.Blocks (Boot.windowsEfiBootCheck std ev) ∨ Boot.Blocks (Boot.windowsBcdCheck std ev)

def OwnBlocks : Prop :=
  ev.os.osType = "" ∨
    if isWindows std ev then
      ∃ win, ev.windows = some win ∧ (LacksStorageDriver win ∨
        win.bitlocker.any BitLockerState.anyProtected = true ∨ missingDriverFiles win ≠ [])
    else LacksVirtio ev

theorem bootBlockers_iff (target : BootTarget) :
    (analyzeBootability std ev target).blockers ≠ [] ↔
      UntranslatedBlocks std ev ∨ TranslatedBlocks std ev := by
  rw [Boot.analyzeBootability_blockers, Boot.allChecks_blocks_iff]
  unfold UntranslatedBlocks TranslatedBlocks
  cases hwindows : isWindows std ev with
  | true =>
    have hguest : Boot.isWindowsGuest std ev = true := by
      unfold Boot.isWindowsGuest
      rw [show contains (std.toLowercase ev.os.osType) "windows" = true from hwindows,
        Bool.or_true]
    have hkernel : ¬ Boot.Blocks (Boot.initramfsCheck std ev) :=
      fun h => Boot.initramfsCheck_not_fails std ev hguest h.2
    cases ev.windows <;> simp <;> tauto
  | false =>
    simp only [Bool.false_eq_true, if_false]
    tauto

theorem migrationBlockers_iff (target : BootTarget) :
    AnyBlocks (runAllChecks std ev (analyzeBootability std ev target)) ↔
      TranslatedBlocks std ev ∨ OwnBlocks std ev := by
  have hos : Blocks (osIdentification ev) ↔ ev.os.osType = "" := by
    unfold osIdentification
    split_ifs with h <;> simp_all
  unfold runAllChecks generalChecks TranslatedBlocks OwnBlocks
  cases isWindows std ev with
  | true =>
    unfold windowsChecks
    cases ev.windows with
    | none => simp [hos]
    | some win =>
      simp [hos, virtioStorage_blocks, bitLocker_blocks, driverFiles_blocks,
        wrappedWindows_blocks]
      tauto
  | false =>
    have hlm : ¬ AnyBlocks (ev.linuxMigration.toList.flatMap fun lm =>
        [staticIp lm, hypervisorModules lm]) := by
      cases ev.linuxMigration <;> simp
    simp [linuxChecks, hos, hlm, virtioInInitramfs_blocks, wrappedLinux_blocks]
    tauto

/-- A boot blocker makes the assessment say blocked exactly if one of those that are translated
does, or a check of the assessment itself, whenever one that is not translated does. -/
theorem blocked_of_bootBlocker_iff (target now : String) (live : Bool) :
    ((analyzeBootability std ev (.parse std target)).blockers ≠ [] →
      (assessMigration std ev (analyzeBootability std ev (.parse std target)) target live
        now).readiness = .blocked) ↔
      (UntranslatedBlocks std ev → TranslatedBlocks std ev ∨ OwnBlocks std ev) := by
  rw [assessMigration_blocked, migrationBlockers_iff, bootBlockers_iff]
  tauto

end Blockers

def plainText : StdText where
  toLowercase := id
  toUppercase := id
  display := fun _ => ""
  displayRounded := fun _ => ""
  debug := id

/-- A Windows guest with a table of mounts, as it is collected from the disk. -/
def strayFstab : EvidenceSnapshot where
  os := { osType := "windows" }
  storage := Evidence.collectStorage "UUID=9-9 / ext4 defaults\n" "" [⟨"/dev/sda1", "1-2"⟩]
  windows := some { systemroot := "/Windows", bcdStoreFound := true }

theorem fstab_blocks_boot_only :
    (analyzeBootability plainText strayFstab .kvm).blockers ≠ [] ∧
      (assessMigration plainText strayFstab (analyzeBootability plainText strayFstab .kvm) "kvm"
        false "").readiness ≠ .blocked := by
  have hwindows : isWindows plainText strayFstab = true := by decide
  have htranslated : ¬ TranslatedBlocks plainText strayFstab := by
    unfold TranslatedBlocks Boot.Blocks Fails
    rw [hwindows, if_pos rfl]
    decide +kernel
  have hown : ¬ OwnBlocks plainText strayFstab := by
    unfold OwnBlocks
    rw [hwindows, if_pos rfl]
    rintro (h | ⟨win, ⟨⟩, h | h | h⟩)
    · exact absurd h (by decide)
    · exact h rfl
    · exact absurd h (by decide)
    · exact h rfl
  have huntranslated : UntranslatedBlocks plainText strayFstab := by
    unfold UntranslatedBlocks
    rw [hwindows, if_pos rfl]
    exact .inr (.inr (.inl ⟨by decide, by decide +kernel, by decide +kernel⟩))
  refine ⟨(bootBlockers_iff _ _ _).mpr (.inl huntranslated), fun h => ?_⟩
  exact ((migrationBlockers_iff _ _ _).mp (assessMigration_blocked.mp h)).elim htranslated hown

def noKernel : EvidenceSnapshot := { os := { osType := "linux" } }

theorem no_kernel_blocks_both :
    (analyzeBootability plainText noKernel (.parse plainText "kvm")).blockers ≠ [] ∧
      (assessMigration plainText noKernel (analyzeBootability plainText noKernel
        (.parse plainText "kvm")) "kvm" false "").readiness = .blocked := by
  have hlinux : isWindows plainText noKernel = false := by decide
  have htranslated : TranslatedBlocks plainText noKernel := by
    unfold TranslatedBlocks
    rw [hlinux, if_neg Bool.false_ne_true]
    exact .inr ⟨by decide, by decide, by decide⟩
  have hboot := (bootBlockers_iff plainText noKernel (.parse plainText "kvm")).mpr
    (.inr htranslated)
  exact ⟨hboot, (blocked_of_bootBlocker_iff plainText noKernel "kvm" "" false).mpr
    (fun _ => .inl htranslated) hboot⟩

end Guestkit.Migration
