import Guestkit.Migration.Repair

/-! The plans of the repair planner are well formed, whatever the guest: each hint has operations
with ids of its own, and the checks give no two hints that would share one. -/

namespace Guestkit.Migration

open Guestkit Lib Lib.Text Plan MigrationCheckResult List

variable {std : StdText} {host : PlannerHost} {ev : EvidenceSnapshot} {opts : RepairOptions}
  {bootReport : BootabilityReport}

theorem mem_hintsOnce {hint : RemediationHint} {seen : List String} {hints : List RemediationHint}
    (h : hint ∈ hintsOnce std seen hints) : hint ∈ hints ∧ hint.debug std ∉ seen := by
  induction hints generalizing seen with
  | nil => cases h
  | cons first hints ih =>
    rw [hintsOnce] at h
    split_ifs at h with hseen
    · exact ⟨mem_cons_of_mem first (ih h).1, (ih h).2⟩
    · rcases mem_cons.mp h with rfl | h
      · exact ⟨by simp, hseen⟩
      · have hmem := ih h
        exact ⟨mem_cons_of_mem first hmem.1, fun hs => hmem.2 (mem_cons_of_mem _ hs)⟩

theorem hintsOnce_pairwise (seen : List String) (hints : List RemediationHint) :
    (hintsOnce std seen hints).Pairwise fun a b => a.debug std ≠ b.debug std := by
  induction hints generalizing seen with
  | nil => exact .nil
  | cons first hints ih =>
    rw [hintsOnce]
    split_ifs
    · exact ih seen
    · refine .cons (fun hint hhint heq => ?_) (ih _)
      exact (mem_hintsOnce hhint).2 (heq ▸ mem_cons_self)

/-- Where the checks take the parts of a hint from. -/
def Sourced (std : StdText) (ev : EvidenceSnapshot) : RemediationHint → Prop
  | .removeHypervisorTools packages =>
    packages = foreignTools std ev ∨ isWindows std ev = false ∧ packages = ["open-vm-tools"]
  | .removeGhostNics ids => ∃ win, ev.windows = some win ∧ ids = win.ghostNics
  | _ => True

def AllSourced (std : StdText) (ev : EvidenceSnapshot)
    (checks : List MigrationCheckResult) : Prop :=
  ∀ check ∈ checks, ∀ hint ∈ check.remediation, Sourced std ev hint

theorem AllSourced.append {checks checks' : List MigrationCheckResult}
    (h : AllSourced std ev checks) (h' : AllSourced std ev checks') :
    AllSourced std ev (checks ++ checks') :=
  forall_mem_append.mpr ⟨h, h'⟩

theorem sourced_of_bootCheck {bootId migId : String} {category : ReadinessCategory} {weight : Nat}
    {remediation hint : RemediationHint} (h : Sourced std ev remediation)
    {check : MigrationCheckResult}
    (hcheck : bootCheck bootReport bootId migId category weight (some remediation) = some check)
    (hhint : check.remediation = some hint) : Sourced std ev hint := by
  obtain ⟨src, -, rfl⟩ := Option.map_eq_some_iff.mp hcheck
  dsimp only at hhint
  split_ifs at hhint
  cases hhint
  exact h

section Sources

attribute [local simp] AllSourced Sourced MigrationCheckResult.pass fail

theorem generalChecks_sourced : AllSourced std ev (generalChecks std ev) := by
  unfold generalChecks
  refine .append (.append (.append (.append ?_ ?_) ?_) ?_) ?_
  · unfold osIdentification
    split_ifs <;> simp
  · unfold firmware
    split_ifs <;> simp
  · unfold freeDiskSpace
    split <;> (try split_ifs) <;> simp
  · unfold pendingReboot
    split <;> (try split_ifs) <;> simp
  · unfold hypervisorTooling
    dsimp only
    split_ifs <;> simp

theorem linuxChecks_sourced (hlinux : isWindows std ev = false) :
    AllSourced std ev (linuxChecks ev bootReport) := by
  unfold linuxChecks
  refine .append (.append (.append ?_ ?_) ?_) ?_
  · unfold virtioInInitramfs
    dsimp only
    split_ifs
    · simp
    · simp
    · intro check hcheck hint
      refine sourced_of_bootCheck ?_ (Option.mem_toList.mp hcheck)
      trivial
  · intro check hcheck hint
    obtain ⟨⟨bootId, migId, category, weight, remediation⟩, hrow, hcheck⟩ :=
      mem_filterMap.mp hcheck
    refine sourced_of_bootCheck ?_ hcheck
    simp only [mem_cons, Prod.mk.injEq, not_mem_nil, or_false] at hrow
    rcases hrow with ⟨-, -, -, -, rfl⟩ | ⟨-, -, -, -, rfl⟩ | ⟨-, -, -, -, rfl⟩ |
      ⟨-, -, -, -, rfl⟩ | ⟨-, -, -, -, rfl⟩ <;> trivial
  · intro check hcheck
    obtain ⟨lm, -, hcheck⟩ := mem_flatMap.mp hcheck
    rcases mem_pair.mp hcheck with rfl | rfl
    · unfold staticIp
      dsimp only
      split_ifs <;> simp
    · unfold hypervisorModules
      split_ifs <;> simp [hlinux]
  · unfold serialConsole
    split_ifs <;> simp

theorem windowsChecks_sourced : AllSourced std ev (windowsChecks std ev bootReport) := by
  unfold windowsChecks
  cases hwin : ev.windows with
  | none => simp
  | some win =>
    dsimp only
    refine .append (.append (.append (.append (.append (.append (.append (.append (.append
      (.append ?_ ?_) ?_) ?_) ?_) ?_) ?_) ?_) ?_) ?_) ?_
    · unfold virtioStorage
      split <;> split_ifs <;> simp
    · unfold virtioNetwork
      split_ifs <;> simp
    · intro check hcheck hint
      obtain ⟨entry, -, hcheck⟩ := mem_filterMap.mp hcheck
      refine sourced_of_bootCheck ?_ hcheck
      trivial
    · unfold bitLocker
      split <;> split_ifs <;> simp
    · unfold ghostNics
      split_ifs <;> simp [hwin]
    · unfold staticNics
      split_ifs <;> simp
    · unfold activation
      split
      · dsimp only
        split_ifs <;> simp
      · simp
    · unfold vssWriters
      split
      · dsimp only
        split_ifs <;> simp
      · simp
    · unfold driverSignature
      split
      · split_ifs <;> simp
      · simp
    · unfold hotfixes
      dsimp only
      split_ifs <;> simp
    · unfold driverFiles
      dsimp only
      split_ifs <;> simp

theorem runAllChecks_sourced : AllSourced std ev (runAllChecks std ev bootReport) := by
  unfold runAllChecks
  refine .append generalChecks_sourced ?_
  cases hwindows : isWindows std ev with
  | true => exact windowsChecks_sourced
  | false => exact linuxChecks_sourced hwindows

end Sources

/-- The ids of the operations and what they depend on. -/
def linuxRows (std : StdText) (ev : EvidenceSnapshot) :
    RemediationHint → List (String × List String)
  | .addVirtioToInitramfs =>
    [("mig-virtio-initramfs-conf", []),
      ("mig-virtio-initramfs-rebuild", ["mig-virtio-initramfs-conf"])]
  | .convertFstabToUuid => if fstabChanges ev = [] then [] else [("mig-fstab-uuid", [])]
  | .repairBootloader =>
    [("mig-grub-backup", []), ("mig-grub-rebuild", ["mig-grub-backup"])]
  | .enableSerialConsole => [("mig-serial-console", [])]
  | .removeHypervisorTools packages =>
    if namesVmware std packages then [("mig-remove-vm-tools", [])] else []
  | .scheduleSelinuxRelabel => [("mig-selinux-relabel", [])]
  | _ => []

def windowsRows (opts : RepairOptions) : RemediationHint → List (String × List String)
  | .injectWindowsDriver driver => [("mig-inject-" ++ driver, [])]
  | .registerBootCritical driver => [("mig-bootcritical-" ++ driver, [])]
  | .suspendBitLocker => [("mig-suspend-bitlocker", [])]
  | .removeGhostNics ids =>
    if opts.includeDestructive then
      (List.range ids.length).map fun i => ("mig-ghost-nic-" ++ toString i, [])
    else []
  | .removeHypervisorTools _ =>
    if opts.includeDestructive then [("mig-remove-vmware-tools", [])] else []
  | _ => []

def rows (std : StdText) (ev : EvidenceSnapshot) (opts : RepairOptions) (hint : RemediationHint) :
    List (String × List String) :=
  if isWindows std ev then windowsRows opts hint else linuxRows std ev hint

def row (o : Operation) : String × List String := (o.id, o.dependsOn)

theorem linuxOps_rows (hint : RemediationHint) :
    ((linuxOps std ev hint).1.filter (!refused ·)).map row = linuxRows std ev hint := by
  cases hint
  case convertFstabToUuid =>
    unfold linuxOps linuxRows fstabUuid
    dsimp only
    cases fstabChanges ev <;> rfl
  case removeHypervisorTools packages =>
    unfold linuxOps linuxRows
    dsimp only
    split_ifs <;> rfl
  all_goals rfl

theorem windowsOps_rows (hint : RemediationHint) :
    ((windowsOps std host opts hint).1.filter (!refused ·)).map row = windowsRows opts hint := by
  cases hint
  case removeGhostNics ids =>
    have hkept : (ghostNicRemoval ids).filter (!refused ·) = ghostNicRemoval ids := by
      refine filter_eq_self.mpr fun o ho => ?_
      obtain ⟨i, hi, rfl⟩ := mem_mapIdx.mp ho
      rfl
    unfold windowsOps windowsRows
    dsimp only
    cases opts.includeDestructive with
    | false => rfl
    | true =>
      refine (congrArg (List.map row) hkept).trans (ext_getElem ?_ fun i _ _ => ?_)
      · simp [ghostNicRemoval]
      · simp [ghostNicRemoval, row, op]
        rfl
  case removeHypervisorTools packages =>
    unfold windowsOps windowsRows
    dsimp only
    cases opts.includeDestructive <;> rfl
  all_goals rfl

theorem operations_rows (assessment : MigrationAssessment) :
    (fromAssessment std host assessment ev opts).1.operations.map row =
      (repairHints std assessment).flatMap (rows std ev opts) := by
  simp only [fromAssessment, map_flatMap, flatMap_map]
  congr 1
  funext hint
  unfold rows
  cases isWindows std ev with
  | true => exact windowsOps_rows hint
  | false => exact linuxOps_rows hint

def stem : RemediationHint → String
  | .addVirtioToInitramfs => "mig-vir"
  | .convertFstabToUuid => "mig-fst"
  | .repairBootloader => "mig-gru"
  | .enableSerialConsole => "mig-ser"
  | .removeHypervisorTools _ => "mig-rem"
  | .scheduleSelinuxRelabel => "mig-sel"
  | .injectWindowsDriver _ => "mig-inj"
  | .registerBootCritical _ => "mig-boo"
  | .suspendBitLocker => "mig-sus"
  | .removeGhostNics _ => "mig-gho"
  | .preserveStaticIp => ""
  | .manual _ => ""

structure RowsFine (hint : RemediationHint) (rows : List (String × List String)) : Prop where
  nodup : (rows.map Prod.fst).Nodup
  stem : ∀ r ∈ rows, r.1.toList.take 7 = (stem hint).toList
  known : ∀ r ∈ rows, ∀ dep ∈ r.2, (dep, []) ∈ rows

theorem linuxRows_fine (hint : RemediationHint) : RowsFine hint (linuxRows std ev hint) := by
  constructor <;> cases hint <;> unfold linuxRows <;> dsimp only <;> (try split_ifs) <;>
    simp [stem]

theorem toString_inj {i j : Nat} (h : toString i = toString j) : i = j := by
  have hdigits := congrArg (fun s => Nat.ofDigitChars 10 s.toList 0) h
  simpa [toList_toString, Nat.ofDigitChars_toDigits] using hdigits

theorem windowsRows_fine (hint : RemediationHint) : RowsFine hint (windowsRows opts hint) := by
  constructor <;> cases hint <;> unfold windowsRows <;> dsimp only <;> (try split_ifs) <;>
    simp [stem]
  rw [Function.comp_def]
  refine nodup_range.map fun i j hij => toString_inj ?_
  simpa using hij

theorem rows_fine (hint : RemediationHint) : RowsFine hint (rows std ev opts hint) := by
  unfold rows
  cases isWindows std ev with
  | true => exact windowsRows_fine hint
  | false => exact linuxRows_fine hint

theorem tools_eq {packages : List String} (h : Sourced std ev (.removeHypervisorTools packages))
    (htools : std.toLowercase "open-vm-tools" = "open-vm-tools")
    (hrows : rows std ev opts (.removeHypervisorTools packages) ≠ []) :
    packages = foreignTools std ev := by
  rcases h with h | ⟨hlinux, rfl⟩
  · exact h
  · have hname : namesVmware std ["open-vm-tools"] = false := by
      simp only [namesVmware, any_cons, any_nil, htools]
      decide +kernel
    simp [rows, hlinux, linuxRows, hname] at hrows

theorem eq_of_shared {a b : RemediationHint} (ha : Sourced std ev a) (hb : Sourced std ev b)
    (htools : std.toLowercase "open-vm-tools" = "open-vm-tools") {r r' : String × List String}
    (hr : r ∈ rows std ev opts a) (hr' : r' ∈ rows std ev opts b) (hid : r.1 = r'.1) : a = b := by
  have hstem : stem a = stem b := by
    rw [← String.toList_inj, ← (rows_fine a).stem r hr, hid]
    exact (rows_fine b).stem r' hr'
  cases a <;> cases b <;> first | rfl | (simp [stem] at hstem; done) | skip
  case removeHypervisorTools.removeHypervisorTools p q =>
    rw [tools_eq ha htools (ne_nil_of_mem hr), tools_eq hb htools (ne_nil_of_mem hr')]
  case removeGhostNics.removeGhostNics p q =>
    obtain ⟨win, hwin, rfl⟩ := ha
    obtain ⟨win', hwin', rfl⟩ := hb
    cases hwin.symm.trans hwin'
    rfl
  all_goals
    unfold rows at hr hr'
    cases hwindows : isWindows std ev <;>
      simp [hwindows, linuxRows, windowsRows] at hr hr' <;> simp_all

/-- Every plan has distinct ids, dependencies within the plan and without cycles, and undo
information for what is of a high risk. -/
theorem fromAssessment_wellFormed (htools : std.toLowercase "open-vm-tools" = "open-vm-tools")
    (target : String) (live : Bool) (now : String) :
    let plan := (fromAssessment std host (assessMigration std ev bootReport target live now) ev
      opts).1
    plan.WellFormed ∧ ∀ op ∈ plan.operations, op.risk = .high ∨ op.risk = .critical →
      op.undo.isSome := by
  intro plan
  set hints := repairHints std (assessMigration std ev bootReport target live now) with hhints
  have hrows : plan.operations.map row = hints.flatMap (rows std ev opts) := operations_rows _
  have hsourced : ∀ hint ∈ hints, Sourced std ev hint := by
    intro hint hhint
    obtain ⟨check, hcheck, hremediation⟩ := mem_filterMap.mp (mem_hintsOnce hhint).1
    exact runAllChecks_sourced check (mem_filter.mp hcheck).1 hint hremediation
  have hids : plan.ids = (hints.flatMap (rows std ev opts)).map Prod.fst := by
    rw [← hrows, map_map]
    rfl
  have hdistinct : plan.ids.Nodup := by
    rw [hids, map_flatMap, nodup_flatMap]
    refine ⟨fun hint _ => (rows_fine hint).nodup, ?_⟩
    refine (hintsOnce_pairwise [] _).imp_of_mem fun {a b} ha hb hne => ?_
    intro id hid hid'
    obtain ⟨r, hr, rfl⟩ := mem_map.mp hid
    obtain ⟨r', hr', heq⟩ := mem_map.mp hid'
    exact hne (congrArg _ (eq_of_shared (hsourced a ha) (hsourced b hb) htools hr hr' heq.symm))
  -- what an operation depends on is in the plan, and depends on nothing
  have hdeps : ∀ o ∈ plan.operations, ∀ dep ∈ o.dependsOn,
      ∃ o' ∈ plan.operations, o'.id = dep ∧ o'.dependsOn = [] := by
    intro o ho dep hdep
    have hmem : row o ∈ hints.flatMap (rows std ev opts) := hrows ▸ mem_map_of_mem ho
    obtain ⟨hint, hhint, hrow⟩ := mem_flatMap.mp hmem
    have hknown := mem_flatMap.mpr ⟨hint, hhint, (rows_fine hint).known _ hrow dep hdep⟩
    rw [← hrows] at hknown
    obtain ⟨o', ho', hrow'⟩ := mem_map.mp hknown
    exact ⟨o', ho', congrArg Prod.fst hrow', congrArg Prod.snd hrow'⟩
  refine ⟨⟨hdistinct, ?_, ?_⟩, ?_⟩
  · intro o ho dep hdep
    obtain ⟨o', ho', hid, -⟩ := hdeps o ho dep hdep
    exact mem_ids.mpr ⟨o', ho', hid⟩
  · intro v hcycle
    obtain ⟨u, -, huv⟩ := Relation.TransGen.tail'_iff.mp hcycle
    obtain ⟨w, hvw, -⟩ := Relation.TransGen.head'_iff.mp hcycle
    obtain ⟨o, ho, hid, hdep⟩ := mem_edges.mp huv
    obtain ⟨o₁, ho₁, -, hdep₁⟩ := mem_edges.mp hvw
    obtain ⟨o₂, ho₂, hid₂, hnone⟩ := hdeps o₁ ho₁ v hdep₁
    obtain rfl : o₂ = o := inj_on_of_nodup_map hdistinct ho₂ ho (hid₂.trans hid.symm)
    rw [hnone] at hdep
    cases hdep
  · intro o ho hrisk
    obtain ⟨-, -, -, hkept⟩ := mem_operations.mp ho
    rcases hrisk with hrisk | hrisk <;>
      simpa [refused, hrisk, Priority.rank, Option.isSome_iff_ne_none] using hkept

theorem nvme_guest_plan_wellFormed :
    let ev : EvidenceSnapshot :=
      { os := { osType := "linux" }, boot := { initramfsModules := ["nvme"] } }
    let plan := (fromAssessment .ascii ⟨fun _ => false, none, 0⟩
      (assessMigration .ascii ev ⟨0, 0, "", [], [], [], ""⟩ "kvm" false "") ev {}).1
    plan.WellFormed ∧ ∀ op ∈ plan.operations, op.risk = .high ∨ op.risk = .critical →
      op.undo.isSome :=
  fromAssessment_wellFormed (by decide +kernel) "kvm" false ""

end Guestkit.Migration
