import Guestkit.Plan.Validate

/-! The applicator that applies a plan to a disk image.  What it does to the image goes through a
guestfs handle, which is given by its calls on a state `σ`; the loop over the sorted operations
looks only at what each call of `applyOperation` returns. -/

namespace Guestkit.Plan

open Lib

structure OfflineGuest (σ : Type) where
  vmExists : σ → Bool
  createBackup : EStateM String σ String
  newHandle : EStateM String σ Unit
  addDrive : String → EStateM String σ Unit
  launch : EStateM String σ Unit
  shutdown : EStateM String σ Unit
  inspectOs : EStateM String σ (List String)
  inspectGetMountpoints : String → EStateM String σ (List (String × String))
  vfsType : String → EStateM String σ String
  ntfsfix : String → EStateM String σ Unit
  mount : String → String → EStateM String σ Unit
  applyOperation : Operation → EStateM String σ Bool
  umountAll : EStateM String σ Unit

structure Counts where
  applied : Nat := 0
  failed : Nat := 0
  skipped : Nat := 0
  deriving DecidableEq

def Counts.add (c : Counts) : Except String Bool → Counts
  | .ok true => { c with applied := c.applied + 1 }
  | .ok false => { c with skipped := c.skipped + 1 }
  | .error _ => { c with failed := c.failed + 1 }

namespace PlanApplicator

variable {σ : Type}

def ignored (m : EStateM String σ Unit) : EStateM String σ Unit :=
  tryCatch m fun _ => pure ()

def attempt (guest : OfflineGuest σ) (op : Operation) (s : σ) : Except String Bool × σ :=
  match guest.applyOperation op s with
  | .ok applied s' => (.ok applied, s')
  | .error e s' => (.error e, s')

def applySorted (guest : OfflineGuest σ) : List Operation → Counts → σ → Counts × σ
  | [], c, s => (c, s)
  | op :: ops, c, s =>
    let (result, s) := attempt guest op s
    applySorted guest ops (c.add result) s

def mountRoot (guest : OfflineGuest σ) (root : String) : EStateM String σ Unit := do
  let mountpoints ← tryCatch (guest.inspectGetMountpoints root) fun _ => pure []
  let mounts := mountpoints.mergeSort fun a b => a.1.utf8ByteSize ≤ b.1.utf8ByteSize
  mounts.forM fun (mount, device) => do
    let type ← tryCatch (some <$> guest.vfsType device) fun _ => pure none
    if type = some "ntfs" then ignored (guest.ntfsfix device)
    ignored (guest.mount device mount)

def refused (plan : FixPlan) (failed : Nat) (message : String) : ApplyResult :=
  { success := false
    operationsApplied := 0
    operationsFailed := failed
    operationsSkipped := plan.operations.length
    message
    outcomes := []
    rollbackDir := none }

/-- The call with the error that refuses the plan, after `cleanup`. -/
def orRefuse {α : Type} (plan : FixPlan) (context : String) (cleanup : EStateM String σ Unit)
    (m : EStateM String σ α) (next : α → EStateM String σ ApplyResult) :
    EStateM String σ ApplyResult := fun s =>
  match m s with
  | .ok a s' => next a s'
  | .error e s' => (do cleanup; pure (refused plan 1 (context ++ e))) s'

def result (backupPath : Option String) (c : Counts) : ApplyResult :=
  let counts := toString c.applied ++ " operations applied, " ++ toString c.failed ++ " failed"
  { success := c.failed = 0
    operationsApplied := c.applied
    operationsFailed := c.failed
    operationsSkipped := c.skipped
    message :=
      if c.failed = 0 then
        "Plan applied successfully (" ++ toString c.applied ++ " operations)"
      else
        match backupPath with
        | some path => counts ++ ". Backup available at: " ++ path
        | none => counts
    outcomes := []
    rollbackDir := none }

def applyLaunched (guest : OfflineGuest σ) (order : HashOrder String Nat) (plan : FixPlan)
    (backupPath : Option String) : EStateM String σ ApplyResult := do
  match ← guest.inspectOs with
  | [] =>
    ignored guest.shutdown
    pure (refused plan 1
      "No operating system detected in VM disk. Cannot apply plan without a valid OS.")
  | root :: _ =>
    mountRoot guest root
    let c ← modifyGet (applySorted guest (topologicalSort order plan) {})
    ignored guest.umountAll
    ignored guest.shutdown
    pure (result backupPath c)

def apply (self : PlanApplicator) (guest : OfflineGuest σ) (order : HashOrder String Nat)
    (plan : FixPlan) : EStateM String σ ApplyResult := do
  if self.dryRun then
    pure { refused plan 0 "Dry run completed - no changes made" with success := true }
  else if ¬guest.vmExists (← get) then
    pure (refused plan 0 ("VM disk not found: " ++ self.vmPath))
  else
    let launched (backupPath : Option String) : EStateM String σ ApplyResult :=
      orRefuse plan "Failed to create Guestfs handle: " (pure ()) guest.newHandle fun _ =>
        orRefuse plan "Failed to add drive: " (ignored guest.shutdown)
          (guest.addDrive self.vmPath) fun _ =>
            orRefuse plan "Failed to launch Guestfs: " (ignored guest.shutdown) guest.launch
              fun _ => applyLaunched guest order plan backupPath
    if self.skipBackup then launched none
    else
      orRefuse plan "Failed to create backup, refusing to apply plan: " (pure ())
        guest.createBackup fun path => launched (some path)

end PlanApplicator

end Guestkit.Plan
