import Guestkit.Boot.Checks

/-! The bootability report: the checks, those that block the boot, and the score. -/

namespace Guestkit

open Lib Lib.Text

inductive BootTarget where
  | generic
  | kvm
  | kubeVirt
  | proxmox
  | hyperV
  | cloud
  deriving DecidableEq

namespace BootTarget

def parse (std : StdText) (s : String) : BootTarget :=
  match std.toLowercase s with
  | "kvm" | "qemu" => .kvm
  | "kubevirt" => .kubeVirt
  | "proxmox" => .proxmox
  | "hyperv" | "hyper-v" => .hyperV
  | "cloud" | "aws" | "azure" | "gcp" => .cloud
  | _ => .generic

def asStr : BootTarget → String
  | .generic => "generic"
  | .kvm => "kvm"
  | .kubeVirt => "kubevirt"
  | .proxmox => "proxmox"
  | .hyperV => "hyper-v"
  | .cloud => "cloud"

end BootTarget

structure BootabilityReport where
  score : Float
  confidence : Float
  target : String
  blockers : List Finding
  warnings : List Finding
  checks : List CheckResult
  summary : String

namespace Boot

def clamp (x low high : Float) : Float :=
  if x < low then low else if x > high then high else x

def remediationFor (checkId : String) : String :=
  match checkId with
  | "BOOT-001" => "Update /etc/fstab UUIDs to match current partition table"
  | "BOOT-002" => "Fix /etc/crypttab device references"
  | "BOOT-003" => "Regenerate initramfs: dracut --force or update-initramfs -u"
  | "BOOT-004" => "Run grub-install and grub-mkconfig"
  | "BOOT-006" => "Install virtio drivers and rebuild initramfs before migration"
  | "BOOT-009" => "Allow SELinux relabel on first boot or run fixfiles onboot"
  | "BOOT-010" => "Remove VMware/Hyper-V guest tools and install qemu-guest-agent"
  | "BOOT-012" => "Repair EFI boot chain: verify bootmgfw.efi and run bcdboot from WinPE"
  | "BOOT-013" => "Rebuild BCD from WinPE: bcdboot %WINDIR% or bootrec /rebuildbcd"
  | "BOOT-014" => "Preserve System Reserved / ESP with the OS disk; do not convert C: alone"
  | _ => "Review check output and apply fix plan"

structure Tally where
  blockers : List Finding := []
  warnings : List Finding := []
  totalWeight : Float := 0
  earnedWeight : Float := 0
  executed : Nat := 0

def finding (check : CheckResult) : Finding :=
  { checkId := check.id
    title := check.name
    message := check.message
    remediation := some (remediationFor check.id) }

def tally (t : Tally) (check : CheckResult) : Tally :=
  if check.weight ≤ 0 then t
  else
    let weight := Float.ofNat check.weight
    let t := { t with executed := t.executed + 1, totalWeight := t.totalWeight + weight }
    if check.passed then { t with earnedWeight := t.earnedWeight + weight }
    else
      match check.severity with
      | .blocker => { t with blockers := t.blockers ++ [finding check] }
      | .warning =>
        { t with
          earnedWeight := t.earnedWeight + weight * 0.5
          warnings := t.warnings ++ [finding check] }
      | .info => { t with earnedWeight := t.earnedWeight + weight }

def score (t : Tally) : Float :=
  if t.blockers.isEmpty && t.totalWeight > 0 then
    clamp (t.earnedWeight / t.totalWeight * 100) 0 100
  else if !t.blockers.isEmpty then clamp (t.earnedWeight / t.totalWeight * 50) 0 49
  else 100

def confidence (t : Tally) : Float :=
  if t.executed ≥ 8 then 0.91 else if t.executed ≥ 5 then 0.75 else 0.5

end Boot

open Boot in
def analyzeBootability (std : StdText) (evidence : EvidenceSnapshot) (target : BootTarget) :
    BootabilityReport :=
  let checks := allChecks std evidence target.asStr
  let t := checks.foldl tally {}
  let scoreText := std.displayRounded (score t)
  let confidenceText := std.displayRounded (confidence t * 100)
  { score := score t
    confidence := confidence t
    target := target.asStr
    blockers := t.blockers
    warnings := t.warnings
    checks
    summary :=
      if t.blockers.isEmpty then
        s!"{scoreText}% chance of successful first boot on {target.asStr} " ++
          s!"(confidence: {confidenceText}%)"
      else
        s!"Boot blocked by {t.blockers.length} issue(s). Score: {scoreText}% on {target.asStr}" }

namespace Boot

def Fails (check : CheckResult) : Prop :=
  check.passed = false ∧ check.severity = .blocker

def Blocks (check : CheckResult) : Prop :=
  0 < check.weight ∧ Fails check

theorem tally_blockers (t : Tally) (check : CheckResult) :
    (tally t check).blockers ≠ [] ↔ t.blockers ≠ [] ∨ Blocks check := by
  unfold tally Blocks Fails
  by_cases hweight : check.weight ≤ 0
  · rw [if_pos hweight]
    simp [Nat.le_zero.mp hweight]
  · rw [if_neg hweight]
    have hpos : 0 < check.weight := Nat.lt_of_not_le hweight
    cases check.passed <;> cases check.severity <;> simp [hpos]

theorem foldl_tally_blockers (checks : List CheckResult) (t : Tally) :
    (checks.foldl tally t).blockers ≠ [] ↔
      t.blockers ≠ [] ∨ ∃ check ∈ checks, Blocks check := by
  induction checks generalizing t with
  | nil => simp
  | cons check checks ih =>
    rw [List.foldl_cons, ih, tally_blockers, or_assoc]
    simp

theorem analyzeBootability_blockers (std : StdText) (evidence : EvidenceSnapshot)
    (target : BootTarget) :
    (analyzeBootability std evidence target).blockers ≠ [] ↔
      ∃ check ∈ allChecks std evidence target.asStr, Blocks check := by
  refine (foldl_tally_blockers _ {}).trans ?_
  simp

section Results

variable (std : StdText) (evidence : EvidenceSnapshot) (target : String)
variable {check : CheckResult}

@[simp] theorem fstabUuidCheck_id : (fstabUuidCheck std evidence).id = "BOOT-001" := rfl

@[simp] theorem crypttabCheck_id : (crypttabCheck evidence).id = "BOOT-002" := rfl

@[simp] theorem efiCheck_id : (efiCheck evidence).id = "BOOT-005" := rfl

@[simp] theorem selinuxRelabelCheck_id : (selinuxRelabelCheck std evidence).id = "BOOT-009" := rfl

@[simp] theorem initramfsCheck_id : (initramfsCheck std evidence).id = "BOOT-003" := by
  unfold initramfsCheck
  split <;> rfl

@[simp] theorem grubConsistencyCheck_id :
    (grubConsistencyCheck std evidence).id = "BOOT-004" := by
  unfold grubConsistencyCheck
  split <;> rfl

@[simp] theorem virtioReadinessCheck_id :
    (virtioReadinessCheck evidence target).id = "BOOT-006" := by
  unfold virtioReadinessCheck
  split <;> rfl

@[simp] theorem nicRenameCheck_id : (nicRenameCheck evidence target).id = "BOOT-007" := by
  unfold nicRenameCheck
  split <;> rfl

@[simp] theorem cloudInitCheck_id : (cloudInitCheck evidence).id = "BOOT-008" := by
  unfold cloudInitCheck
  split <;> rfl

@[simp] theorem vmToolsRemnantsCheck_id :
    (vmToolsRemnantsCheck evidence target).id = "BOOT-010" := by
  unfold vmToolsRemnantsCheck
  split <;> rfl

@[simp] theorem systemdStaticCheck_id : (systemdStaticCheck evidence).id = "BOOT-011" := by
  unfold systemdStaticCheck
  split <;> rfl

@[simp] theorem windowsEfiBootCheck_id : (windowsEfiBootCheck std evidence).id = "BOOT-012" := by
  unfold windowsEfiBootCheck
  split <;> rfl

@[simp] theorem windowsBcdCheck_id : (windowsBcdCheck std evidence).id = "BOOT-013" := by
  unfold windowsBcdCheck
  split <;> rfl

@[simp] theorem windowsSystemReservedCheck_id :
    (windowsSystemReservedCheck std evidence).id = "BOOT-014" := by
  unfold windowsSystemReservedCheck
  split
  · rfl
  · split <;> rfl

theorem allChecks_ids :
    (allChecks std evidence target).map CheckResult.id =
      ["BOOT-001", "BOOT-002", "BOOT-003", "BOOT-004", "BOOT-005", "BOOT-006", "BOOT-007",
       "BOOT-008", "BOOT-009", "BOOT-010", "BOOT-011", "BOOT-012", "BOOT-013", "BOOT-014"] := by
  simp [allChecks]

theorem find_id {checks : List CheckResult} (hnodup : (checks.map CheckResult.id).Nodup)
    (h : check ∈ checks) :
    checks.find? (·.id == check.id) = some check := by
  induction checks with
  | nil => cases h
  | cons first rest ih =>
    rw [List.map_cons, List.nodup_cons] at hnodup
    obtain rfl | h := List.mem_cons.mp h
    · simp
    · have hne : first.id ≠ check.id := fun heq => hnodup.1 (heq ▸ List.mem_map_of_mem h)
      rw [List.find?_cons_of_neg (by simpa using hne)]
      exact ih hnodup.2 h

theorem find_allChecks (h : check ∈ allChecks std evidence target) :
    (allChecks std evidence target).find? (·.id == check.id) = some check := by
  refine find_id ?_ h
  rw [allChecks_ids]
  decide

theorem neutral_not_fails (id name message : String) (weight : Nat) :
    ¬ Fails (neutral id name message weight) :=
  fun h => Bool.noConfusion h.1

theorem severity_not_fails {condition : Bool}
    (h : check.severity = if condition then .info else .warning) : ¬ Fails check := by
  rintro ⟨-, hblocker⟩
  rw [h] at hblocker
  cases condition <;> cases hblocker

theorem grubConsistencyCheck_not_fails : ¬ Fails (grubConsistencyCheck std evidence) := by
  unfold grubConsistencyCheck
  split
  · exact neutral_not_fails _ _ _ _
  · exact severity_not_fails rfl

theorem virtioReadinessCheck_not_fails : ¬ Fails (virtioReadinessCheck evidence target) := by
  unfold virtioReadinessCheck
  split
  · exact neutral_not_fails _ _ _ _
  · exact severity_not_fails rfl

theorem nicRenameCheck_not_fails : ¬ Fails (nicRenameCheck evidence target) := by
  unfold nicRenameCheck
  split <;> exact neutral_not_fails _ _ _ _

theorem cloudInitCheck_not_fails : ¬ Fails (cloudInitCheck evidence) := by
  unfold cloudInitCheck
  split
  · exact neutral_not_fails _ _ _ _
  · exact fun h => Bool.noConfusion h.1

theorem selinuxRelabelCheck_not_fails : ¬ Fails (selinuxRelabelCheck std evidence) := by
  rintro ⟨-, h⟩
  unfold selinuxRelabelCheck at h
  cases hpending : evidence.boot.pendingRelabel <;> simp [hpending] at h

theorem vmToolsRemnantsCheck_not_fails : ¬ Fails (vmToolsRemnantsCheck evidence target) := by
  unfold vmToolsRemnantsCheck
  split
  · exact neutral_not_fails _ _ _ _
  · exact severity_not_fails rfl

theorem windowsSystemReservedCheck_not_fails :
    ¬ Fails (windowsSystemReservedCheck std evidence) := by
  unfold windowsSystemReservedCheck
  split
  · exact neutral_not_fails _ _ _ _
  · split
    · exact neutral_not_fails _ _ _ _
    · exact severity_not_fails rfl

theorem allChecks_blocks_iff :
    (∃ check ∈ allChecks std evidence target, Blocks check) ↔
      Blocks (fstabUuidCheck std evidence) ∨ Blocks (crypttabCheck evidence) ∨
      Blocks (initramfsCheck std evidence) ∨ Blocks (systemdStaticCheck evidence) ∨
      Blocks (windowsEfiBootCheck std evidence) ∨ Blocks (windowsBcdCheck std evidence) := by
  have hefi : ¬ Fails (efiCheck evidence) := neutral_not_fails _ _ _ _
  simp [allChecks, Blocks, hefi, grubConsistencyCheck_not_fails, virtioReadinessCheck_not_fails,
    nicRenameCheck_not_fails, cloudInitCheck_not_fails, selinuxRelabelCheck_not_fails,
    vmToolsRemnantsCheck_not_fails, windowsSystemReservedCheck_not_fails]

theorem ite_fails_iff {p : Prop} [Decidable p] {a b : CheckResult} (ha : ¬ Fails a)
    (hb : 0 < b.weight) : Fails (if p then a else b) ↔ Blocks (if p then a else b) := by
  refine ⟨fun hfails => ⟨?_, hfails⟩, fun hblocks => hblocks.2⟩
  split at hfails
  · exact absurd hfails ha
  · rwa [if_neg ‹_›]

theorem initramfsCheck_fails_iff :
    Fails (initramfsCheck std evidence) ↔ Blocks (initramfsCheck std evidence) :=
  ite_fails_iff (neutral_not_fails _ _ _ _) (Nat.succ_pos _)

theorem windowsEfiBootCheck_fails_iff :
    Fails (windowsEfiBootCheck std evidence) ↔ Blocks (windowsEfiBootCheck std evidence) :=
  ite_fails_iff (neutral_not_fails _ _ _ _) (Nat.succ_pos _)

theorem windowsBcdCheck_fails_iff :
    Fails (windowsBcdCheck std evidence) ↔ Blocks (windowsBcdCheck std evidence) :=
  ite_fails_iff (neutral_not_fails _ _ _ _) (Nat.succ_pos _)

theorem initramfsCheck_not_fails (h : isWindowsGuest std evidence = true) :
    ¬ Fails (initramfsCheck std evidence) := by
  unfold initramfsCheck
  rw [if_pos h]
  exact neutral_not_fails _ _ _ _

end Results

end Boot

end Guestkit
