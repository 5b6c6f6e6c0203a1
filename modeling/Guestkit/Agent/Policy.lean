import Guestkit.Agent.Rpc

/-! The local policy of the agent: which methods it authorizes. -/

namespace Guestkit

structure FileOpsPolicy where
  enabled : Bool := false
  allowedPaths : List String := []
  maxBytes : Nat := 0

structure StorageOpsPolicy where
  rescan : Bool := true
  trim : Bool := true
  expand : Bool := false

structure PackagePolicy where
  inventory : Bool := true
  updates : Bool := true
  install : Bool := false

structure CapabilityToggles where
  inventory : Bool := true
  telemetry : Bool := true
  events : Bool := true
  networkTest : Bool := true
  fileOps : FileOpsPolicy := {}
  storageOps : StorageOpsPolicy := {}
  packages : PackagePolicy := {}
  certificates : Bool := true
  users : Bool := true
  integrity : Bool := true
  ebpf : Bool := false

structure MethodPolicy where
  allow : List String := []
  deny : List String := []

structure SecurityPolicy where
  requireRequestExpiry : Bool := false
  maxTtlMs : UInt64 := 300000
  nonceCacheSize : Nat := 4096

structure MigrationPolicy where
  assess : Bool := true
  repair : Bool := false
  repairDestructive : Bool := false

structure RestartUnitPolicy where
  enabled : Bool := false
  allowedUnits : List String := []

structure ShellPolicy where
  enabled : Bool := false

structure ApprovalPolicy where
  requireApproval : Bool := false

structure CustomizationPolicy where
  enabled : Bool := false

structure PolicyActions where
  restartUnit : RestartUnitPolicy := {}
  runShellCommand : ShellPolicy := {}
  rebootVm : ApprovalPolicy := {}
  migration : MigrationPolicy := {}
  customization : CustomizationPolicy := {}

structure AgentPolicy where
  actions : PolicyActions := {}
  capabilities : CapabilityToggles := {}
  methods : MethodPolicy := {}
  security : SecurityPolicy := {}

/-- The patterns of the `glob` crate: what a pattern matches, or nothing if it is malformed. -/
abbrev Glob := String → Option (String → Bool)

def globMatch (glob : Glob) (patterns : List String) (name : String) : Bool :=
  patterns.any fun p =>
    match glob p with
    | some pat => pat name
    | none => false

namespace AgentPolicy

variable (policy : AgentPolicy)

/-- The switch that a method depends on and the words for it, if there is one. -/
def category : RpcMethod → Option (Bool × String)
  | .getEvidence | .getGuestInfo | .getStatus | .getFilesystem | .getProcesses | .getProcess
  | .getSystemdUnits | .getSystemdUnit | .getFailedUnits | .getSystemdEvents =>
    some (policy.capabilities.inventory, "inventory")
  | .getMetrics | .getCpuStats | .getMemoryStats | .getPerformanceSummary
  | .getPerformanceHistory => some (policy.capabilities.telemetry, "telemetry")
  | .subscribeEvents => some (policy.capabilities.events, "events")
  | .networkTest => some (policy.capabilities.networkTest, "network_test")
  | .networkConnections | .securityPosture => some (policy.capabilities.inventory, "inventory")
  | .fileRead | .fileWrite | .fileStat | .fileList | .fileChecksum =>
    some (policy.capabilities.fileOps.enabled, "file_ops")
  | .storageRescan => some (policy.capabilities.storageOps.rescan, "storage rescan")
  | .storageTrim => some (policy.capabilities.storageOps.trim, "storage trim")
  | .storageExpand => some (policy.capabilities.storageOps.expand, "storage expand")
  | .startUnit | .stopUnit | .restartUnit =>
    some (policy.actions.restartUnit.enabled, "service control")
  | .migrationAssess | .migrationPlan | .migrationPreCheck | .migrationValidate
  | .baselineCapture | .baselineDiff =>
    some (policy.actions.migration.assess, "migration assessment")
  | .migrationRepair => some (policy.actions.migration.repair, "migration repair")
  | .packagesInventory => some (policy.capabilities.packages.inventory, "package inventory")
  | .packagesUpdates => some (policy.capabilities.packages.updates, "package updates")
  | .packagesInstall => some (policy.capabilities.packages.install, "package install")
  | .certificatesInventory => some (policy.capabilities.certificates, "certificate inventory")
  | .usersInventory => some (policy.capabilities.users, "user inventory")
  | .containersInventory | .inventoryCacheWrite =>
    some (policy.capabilities.inventory, "inventory")
  | .integrityBaseline | .integrityCheck =>
    some (policy.capabilities.integrity, "integrity monitoring")
  | .setHostname | .setTimezone | .setDns =>
    some (policy.actions.customization.enabled, "customization")
  | .netpolicyApply | .netpolicyStatus | .lsmApply | .lsmStatus =>
    some (policy.capabilities.ebpf, "ebpf")
  | _ => none

def denied (what : String) : Except AgentError Unit :=
  .error (.policyDenied s!"{what} disabled by local policy")

def authorize (glob : Glob) (method : RpcMethod) (wireName : String) : Except AgentError Unit :=
  if globMatch glob policy.methods.deny wireName then
    denied wireName
  else if !policy.methods.allow.isEmpty && !globMatch glob policy.methods.allow wireName then
    denied wireName
  else
    match policy.category method with
    | some (false, what) => denied what
    | _ => .ok ()

structure SwitchedOff (tight policy : AgentPolicy) : Prop where
  inventory : tight.capabilities.inventory → policy.capabilities.inventory
  telemetry : tight.capabilities.telemetry → policy.capabilities.telemetry
  events : tight.capabilities.events → policy.capabilities.events
  networkTest : tight.capabilities.networkTest → policy.capabilities.networkTest
  fileOps : tight.capabilities.fileOps.enabled → policy.capabilities.fileOps.enabled
  rescan : tight.capabilities.storageOps.rescan → policy.capabilities.storageOps.rescan
  trim : tight.capabilities.storageOps.trim → policy.capabilities.storageOps.trim
  expand : tight.capabilities.storageOps.expand → policy.capabilities.storageOps.expand
  packages : tight.capabilities.packages.inventory → policy.capabilities.packages.inventory
  updates : tight.capabilities.packages.updates → policy.capabilities.packages.updates
  install : tight.capabilities.packages.install → policy.capabilities.packages.install
  certificates : tight.capabilities.certificates → policy.capabilities.certificates
  users : tight.capabilities.users → policy.capabilities.users
  integrity : tight.capabilities.integrity → policy.capabilities.integrity
  ebpf : tight.capabilities.ebpf → policy.capabilities.ebpf
  restartUnit : tight.actions.restartUnit.enabled → policy.actions.restartUnit.enabled
  runShellCommand : tight.actions.runShellCommand.enabled → policy.actions.runShellCommand.enabled
  assess : tight.actions.migration.assess → policy.actions.migration.assess
  repair : tight.actions.migration.repair → policy.actions.migration.repair
  repairDestructive : tight.actions.migration.repairDestructive →
    policy.actions.migration.repairDestructive
  customization : tight.actions.customization.enabled → policy.actions.customization.enabled

/-- A policy with more patterns that deny, fewer that allow and fewer switches on.  The last pattern
that allows stays: without any, everything is allowed. -/
structure Tightens (tight policy : AgentPolicy) : Prop where
  deny : policy.methods.deny ⊆ tight.methods.deny
  allow : tight.methods.allow ⊆ policy.methods.allow
  restricted : tight.methods.allow = [] → policy.methods.allow = []
  switches : SwitchedOff tight policy

variable {glob : Glob} {policy} {method : RpcMethod} {wireName : String}

theorem globMatch_mono {patterns patterns' : List String} (h : patterns ⊆ patterns')
    (hmatch : globMatch glob patterns wireName = true) :
    globMatch glob patterns' wireName = true := by
  obtain ⟨p, hp, hpat⟩ := List.any_eq_true.mp hmatch
  exact List.any_eq_true.mpr ⟨p, h hp, hpat⟩

theorem authorize_ok_iff :
    policy.authorize glob method wireName = .ok () ↔
      globMatch glob policy.methods.deny wireName = false ∧
      (policy.methods.allow = [] ∨ globMatch glob policy.methods.allow wireName = true) ∧
      ∀ what, policy.category method ≠ some (false, what) := by
  unfold authorize denied
  cases globMatch glob policy.methods.deny wireName with
  | true => simp
  | false =>
    cases hallow : policy.methods.allow.isEmpty <;>
      cases globMatch glob policy.methods.allow wireName <;>
      rcases hcategory : policy.category method with _ | ⟨_ | _, what⟩ <;>
      simp_all

theorem switch_off {on' on : Bool} {words what : String} (h : on' = true → on = true)
    (hoff : some (on, words) = some (false, what)) : some (on', words) = some (false, what) := by
  cases on' <;> simp_all

theorem category_off {tight : AgentPolicy} (h : SwitchedOff tight policy) {what : String}
    (hoff : policy.category method = some (false, what)) :
    tight.category method = some (false, what) := by
  cases method with
  | getEvidence | getGuestInfo | getStatus | getFilesystem | getProcesses | getProcess
  | getSystemdUnits | getSystemdUnit | getFailedUnits | getSystemdEvents | networkConnections
  | securityPosture | containersInventory | inventoryCacheWrite => exact switch_off h.inventory hoff
  | getMetrics | getCpuStats | getMemoryStats | getPerformanceSummary | getPerformanceHistory =>
    exact switch_off h.telemetry hoff
  | subscribeEvents => exact switch_off h.events hoff
  | networkTest => exact switch_off h.networkTest hoff
  | fileRead | fileWrite | fileStat | fileList | fileChecksum => exact switch_off h.fileOps hoff
  | storageRescan => exact switch_off h.rescan hoff
  | storageTrim => exact switch_off h.trim hoff
  | storageExpand => exact switch_off h.expand hoff
  | startUnit | stopUnit | restartUnit => exact switch_off h.restartUnit hoff
  | migrationAssess | migrationPlan | migrationPreCheck | migrationValidate | baselineCapture
  | baselineDiff => exact switch_off h.assess hoff
  | migrationRepair => exact switch_off h.repair hoff
  | packagesInventory => exact switch_off h.packages hoff
  | packagesUpdates => exact switch_off h.updates hoff
  | packagesInstall => exact switch_off h.install hoff
  | certificatesInventory => exact switch_off h.certificates hoff
  | usersInventory => exact switch_off h.users hoff
  | integrityBaseline | integrityCheck => exact switch_off h.integrity hoff
  | setHostname | setTimezone | setDns => exact switch_off h.customization hoff
  | netpolicyApply | netpolicyStatus | lsmApply | lsmStatus => exact switch_off h.ebpf hoff
  | _ => cases hoff

/-- A tighter policy authorizes nothing more, and no name that a pattern denies is authorized. -/
theorem authorize_tightens (glob : Glob) :
    (∀ tight policy, Tightens tight policy → ∀ wireName,
      tight.authorize glob (.parse wireName) wireName = .ok () →
      policy.authorize glob (.parse wireName) wireName = .ok ()) ∧
    ∀ (policy : AgentPolicy) (pattern : String) (covers : String → Bool),
      pattern ∈ policy.methods.deny → glob pattern = some covers →
      ∀ wireName, covers wireName = true →
        policy.authorize glob (.parse wireName) wireName ≠ .ok () := by
  constructor
  · intro tight policy h wireName hok
    obtain ⟨hdeny, hallow, hcategory⟩ := authorize_ok_iff.mp hok
    refine authorize_ok_iff.mpr ⟨?_, ?_, fun what hoff => hcategory what ?_⟩
    · rw [← Bool.not_eq_true] at hdeny ⊢
      exact mt (globMatch_mono h.deny) hdeny
    · exact hallow.imp h.restricted (globMatch_mono h.allow)
    · exact category_off h.switches hoff
  · intro policy pattern covers hmem hglob wireName hmatches hok
    obtain ⟨hdeny, -, -⟩ := authorize_ok_iff.mp hok
    have hmatch : globMatch glob policy.methods.deny wireName = true :=
      List.any_eq_true.mpr ⟨pattern, hmem, by rw [hglob]; exact hmatches⟩
    rw [hdeny] at hmatch
    cases hmatch

def literalGlob : Glob := fun pattern => some (· == pattern)

/-- Taking away the last pattern that allows authorizes more, and a method that is denied under one
of its names is authorized under another. -/
theorem rebooted_under_alias :
    (authorize { methods := { allow := ["guestkit.ping"] } } literalGlob
        (.parse "guestkit.reboot") "guestkit.reboot" ≠ .ok () ∧
      authorize {} literalGlob (.parse "guestkit.reboot") "guestkit.reboot" = .ok ()) ∧
    RpcMethod.parse "system.reboot" = RpcMethod.parse "guestkit.reboot" ∧
    authorize { methods := { deny := ["guestkit.reboot"] } } literalGlob
      (.parse "guestkit.reboot") "guestkit.reboot" ≠ .ok () ∧
    authorize { methods := { deny := ["guestkit.reboot"] } } literalGlob
      (.parse "system.reboot") "system.reboot" = .ok () :=
  ⟨⟨nofun, rfl⟩, rfl, nofun, rfl⟩

theorem denied_reboot :
    authorize { methods := { deny := ["guestkit.reboot"] } } literalGlob
      (.parse "guestkit.reboot") "guestkit.reboot" ≠ .ok () ∧
    authorize { methods := { allow := ["guestkit.ping", "guestkit.reboot"] } } literalGlob
      (.parse "guestkit.ping") "guestkit.ping" = .ok () := by
  obtain ⟨hmore, hdeny⟩ := authorize_tightens literalGlob
  refine ⟨hdeny _ "guestkit.reboot" _ List.mem_cons_self rfl _ (by decide), ?_⟩
  refine hmore { methods := { allow := ["guestkit.ping"] } } _ ⟨?_, ?_, nofun, ?_⟩ _ rfl
  · exact List.Subset.refl _
  · simp
  · constructor <;> exact id

end AgentPolicy

end Guestkit
