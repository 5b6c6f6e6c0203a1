import Guestkit.Lib.Hoare
import Guestkit.Plan.Apply
import Guestkit.Plan.ExecutorLive

/-! Which operations of a plan the two executors carry out, and in what order.  Both go through the
sorted operations once; the live executor leaves an outcome for each of them, and stops carrying
them out at a failure if it is set to. -/

namespace Guestkit.Plan

open Lib Lib.Fs LivePlanExecutor List

namespace LivePlanExecutor

variable {ε : Type}

/-! ### One turn of the live loop -/

/-- What a turn of the loop adds to the progress: an outcome of the operation, and its count. -/
inductive Stepped (failFast : Bool) (op : Operation) (p : Progress) : Progress → Prop
  | notReached (o : OperationOutcome) : p.aborted = true → o.opId = op.id →
      o.status = .notReached →
      Stepped failFast op p { p with outcomes := p.outcomes ++ [o], skipped := p.skipped + 1 }
  | applied (o : OperationOutcome) : p.aborted = false → o.opId = op.id → o.status = .applied →
      Stepped failFast op p { p with outcomes := p.outcomes ++ [o], applied := p.applied + 1 }
  | skipped (o : OperationOutcome) : p.aborted = false → o.opId = op.id → o.status = .skipped →
      Stepped failFast op p { p with outcomes := p.outcomes ++ [o], skipped := p.skipped + 1 }
  | failed (o : OperationOutcome) : p.aborted = false → o.opId = op.id → o.status = .failed →
      Stepped failFast op p
        { p with outcomes := p.outcomes ++ [o], failed := p.failed + 1, aborted := failFast }

theorem applyStep_stepped (self : LivePlanExecutor) (host : Host ε) (dir : Path) (op : Operation)
    (p : Progress) (s : Machine ε) :
    Stepped self.failFast op p (self.applyStep host dir op p s).1 := by
  unfold applyStep
  by_cases haborted : p.aborted = true
  · rw [if_pos haborted]
    exact .notReached _ haborted rfl rfl
  · rw [if_neg haborted]
    rw [Bool.not_eq_true] at haborted
    dsimp only
    split
    · split
      · exact .failed _ haborted rfl rfl
      · exact .applied _ haborted rfl rfl
    · exact .skipped _ haborted rfl rfl
    · exact .failed _ haborted rfl rfl

def Progress.total (p : Progress) : Nat := p.applied + p.failed + p.skipped

section

variable {failFast : Bool} {op : Operation} {p p' : Progress} (h : Stepped failFast op p p')
include h

theorem Stepped.opIds :
    p'.outcomes.map OperationOutcome.opId = p.outcomes.map OperationOutcome.opId ++ [op.id] := by
  cases h <;> simp_all

theorem Stepped.total : p'.total = p.total + 1 := by
  cases h <;> simp only [Progress.total] <;> omega

end

section

variable (self : LivePlanExecutor) (host : Host ε) (dir : Path) (ops : List Operation)
  (p : Progress) (s : Machine ε)
include host

theorem applyAll_opIds :
    (self.applyAll host dir ops p s).1.outcomes.map OperationOutcome.opId =
      p.outcomes.map OperationOutcome.opId ++ ops.map Operation.id := by
  induction ops generalizing p s with
  | nil => simp [applyAll]
  | cons op ops ih =>
    rw [applyAll]
    dsimp only
    rw [ih, (self.applyStep_stepped host dir op p s).opIds]
    simp

theorem applyAll_total :
    (self.applyAll host dir ops p s).1.total = p.total + ops.length := by
  induction ops generalizing p s with
  | nil => rfl
  | cons op ops ih =>
    rw [applyAll]
    dsimp only
    rw [ih, (self.applyStep_stepped host dir op p s).total, length_cons]
    omega

end

theorem previewAll_opIds (self : LivePlanExecutor) (host : Host ε) (ops : List Operation)
    (s : Machine ε) :
    (self.previewAll host ops s).1.map OperationOutcome.opId = ops.map Operation.id := by
  induction ops generalizing s with
  | nil => rfl
  | cons op ops ih =>
    rw [previewAll]
    dsimp only
    rw [map_cons, ih]
    rfl

theorem markRolledBack_opId (o : OperationOutcome) : (markRolledBack o).opId = o.opId := by
  unfold markRolledBack
  split <;> rfl

theorem liveResult_opIds (host : Host ε) (dir : Path) (p : Progress) (rolledBack : Bool) :
    (liveResult host dir p rolledBack).outcomes.map OperationOutcome.opId =
      p.outcomes.map OperationOutcome.opId := by
  unfold liveResult
  cases rolledBack
  · rfl
  · simp [Function.comp_def, markRolledBack_opId]

variable {self : LivePlanExecutor} {host : Host ε}

theorem finish_result {plan : FixPlan} {p : Progress}
    {s s' : Machine ε} {r : ApplyResult} (h : self.finish host plan p s = .ok r s') :
    ∃ rolledBack, r = liveResult host (self.rollbackDir plan) p rolledBack := by
  unfold finish at h
  obtain ⟨rolledBack, s1, -, h1⟩ := bind_eq_ok h
  obtain ⟨-, s2, -, h2⟩ := bind_eq_ok h1
  cases h2
  exact ⟨rolledBack, rfl⟩

section

variable {order : HashOrder String Nat} {plan : FixPlan} {s s' : Machine ε} {r : ApplyResult}
  (h : self.apply host order plan s = .ok r s')
include h

/-- A result of `apply` has one outcome for each of the sorted operations, and counts each of them
once. -/
theorem apply_covers :
    r.outcomes.map OperationOutcome.opId = (topologicalSort order plan).map Operation.id ∧
      r.operationsApplied + r.operationsFailed + r.operationsSkipped =
        (topologicalSort order plan).length := by
  unfold apply at h
  by_cases hdry : self.dryRun = true
  · rw [if_pos hdry] at h
    obtain ⟨outcomes, s1, hpreview, h1⟩ := bind_eq_ok h
    rw [modifyGet_eq] at hpreview
    cases hpreview
    cases h1
    refine ⟨self.previewAll_opIds host _ s, ?_⟩
    simp [dryRunResult]
  · rw [if_neg hdry] at h
    obtain ⟨-, s1, -, h1⟩ := bind_eq_ok h
    obtain ⟨p, s2, hloop, h2⟩ := bind_eq_ok h1
    rw [modifyGet_eq] at hloop
    cases hloop
    obtain ⟨rolledBack, rfl⟩ := finish_result h2
    have htotal := self.applyAll_total host (self.rollbackDir plan) (topologicalSort order plan)
      {} s1
    have hids := self.applyAll_opIds host (self.rollbackDir plan) (topologicalSort order plan)
      {} s1
    refine ⟨?_, ?_⟩
    · rw [liveResult_opIds, hids]
      rfl
    · simpa [Progress.total, liveResult] using htotal

/-- The ids of a result are those of the plan, and its counts add up to the number of operations,
exactly when the plan is well formed; this holds for every result, successful or not. -/
theorem apply_covers_plan_iff_wellFormed :
    (r.outcomes.map OperationOutcome.opId).Perm plan.ids ∧
        r.operationsApplied + r.operationsFailed + r.operationsSkipped = plan.operations.length ↔
      plan.WellFormed := by
  obtain ⟨hids, htotal⟩ := apply_covers h
  have hsorts := topologicalSort_sorts order plan
  rw [hids, htotal, hsorts.length_eq_iff]
  constructor
  · exact And.right
  · intro hplan
    exact ⟨(hsorts.perm hplan).map Operation.id, hplan⟩

end

end LivePlanExecutor

namespace PlanApplicator

variable {σ : Type}

/-! ### The calls of the offline applicator -/

variable {α β : Type} {ops : List Operation}

def lift (m : EStateM String σ α) : EStateM String (σ × List Operation) α := fun s =>
  match m s.1 with
  | .ok a s' => .ok a (s', s.2)
  | .error e s' => .error e (s', s.2)

/-- The guest with a record of the operations that are applied to it. -/
def recorded (guest : OfflineGuest σ) : OfflineGuest (σ × List Operation) where
  vmExists s := guest.vmExists s.1
  createBackup := lift guest.createBackup
  newHandle := lift guest.newHandle
  addDrive path := lift (guest.addDrive path)
  launch := lift guest.launch
  shutdown := lift guest.shutdown
  inspectOs := lift guest.inspectOs
  inspectGetMountpoints root := lift (guest.inspectGetMountpoints root)
  vfsType device := lift (guest.vfsType device)
  ntfsfix device := lift (guest.ntfsfix device)
  mount device mount := lift (guest.mount device mount)
  applyOperation op s := lift (guest.applyOperation op) (s.1, s.2 ++ [op])
  umountAll := lift guest.umountAll

section

variable {x : EStateM String (σ × List Operation) α}
  {f : α → EStateM String (σ × List Operation) β}

end

end PlanApplicator

namespace LivePlanExecutor

variable {ε : Type}

/-! ### The order of the live loop -/

def PassedOver (failFast : Bool) (o : OperationOutcome) : Prop :=
  o.status = .applied ∨ o.status = .skipped ∨ o.status = .failed ∧ failFast = false

/-- Before an operation that was carried out, only operations that did not stop the run; and only
such operations while the run is not stopped. -/
structure Unstopped (failFast : Bool) (p : Progress) : Prop where
  before : p.outcomes.Pairwise fun d o => o.status ≠ .notReached → PassedOver failFast d
  running : p.aborted = false → ∀ o ∈ p.outcomes, PassedOver failFast o
  aborted : failFast = false → p.aborted = false

theorem Unstopped.append {failFast : Bool} {p : Progress} (h : Unstopped failFast p)
    {o : OperationOutcome} (ho : p.aborted = true → o.status = .notReached) :
    (p.outcomes ++ [o]).Pairwise fun d o => o.status ≠ .notReached → PassedOver failFast d := by
  rw [pairwise_append]
  refine ⟨h.before, pairwise_singleton _ _, ?_⟩
  intro d hd o' ho' hreached
  rw [mem_singleton] at ho'
  subst ho'
  have hrunning : p.aborted = false := by
    cases haborted : p.aborted with
    | false => rfl
    | true => exact absurd (ho haborted) hreached
  exact h.running hrunning d hd

theorem Stepped.unstopped {failFast : Bool} {op : Operation} {p p' : Progress}
    (hstep : Stepped failFast op p p') (h : Unstopped failFast p) : Unstopped failFast p' := by
  have hrunning : ∀ {o : OperationOutcome}, p.aborted = false → PassedOver failFast o →
      ∀ d ∈ p.outcomes ++ [o], PassedOver failFast d := by
    intro o haborted ho d hd
    rcases mem_append.mp hd with hd | hd
    · exact h.running haborted d hd
    · rw [mem_singleton.mp hd]
      exact ho
  cases hstep with
  | notReached o haborted _ hstatus =>
    exact ⟨h.append fun _ => hstatus, fun hfalse => by simp [haborted] at hfalse, h.aborted⟩
  | applied o haborted _ hstatus =>
    exact ⟨h.append fun htrue => by simp [haborted] at htrue,
      fun _ => hrunning haborted (.inl hstatus), h.aborted⟩
  | skipped o haborted _ hstatus =>
    exact ⟨h.append fun htrue => by simp [haborted] at htrue,
      fun _ => hrunning haborted (.inr (.inl hstatus)), h.aborted⟩
  | failed o haborted _ hstatus =>
    exact ⟨h.append fun htrue => by simp [haborted] at htrue,
      fun hfast => hrunning haborted (.inr (.inr ⟨hstatus, hfast⟩)), fun hfast => hfast⟩

theorem applyAll_unstopped (self : LivePlanExecutor) (host : Host ε) (dir : Path)
    (ops : List Operation) {p : Progress} (s : Machine ε) (h : Unstopped self.failFast p) :
    Unstopped self.failFast (self.applyAll host dir ops p s).1 := by
  induction ops generalizing p s with
  | nil => exact h
  | cons op ops ih =>
    rw [applyAll]
    exact ih _ ((self.applyStep_stepped host dir op p s).unstopped h)

theorem unstopped_start (failFast : Bool) : Unstopped failFast {} :=
  ⟨List.Pairwise.nil, fun _ o ho => by simp at ho, fun _ => rfl⟩

end LivePlanExecutor

def exitHost (code : Int) : Host Unit where
  run _ s := (.ok ⟨some code, ""⟩, s)
  sha256 _ := []
  renderJson _ := ""
  encodeManifest _ := ""
  decodeManifest _ := .ok ⟨[]⟩
  debug s := s
  dirMode _ _ := 0o755

def selfDependentPlan : FixPlan where
  vm := "vm"
  generated := 0
  operations := [{ id := "a", opType := .directoryCreate { path := "/srv" }, dependsOn := ["a"] }]

theorem selfDependentPlan_succeeds_without_outcome :
    Returns (fun r _ => r.success = true ∧ r.outcomes = [] ∧
        r.operationsApplied + r.operationsFailed + r.operationsSkipped ≠
          selfDependentPlan.operations.length)
      ((new false).apply (exitHost 0) .newestFirst selfDependentPlan
        ⟨(), .empty⟩) := by
  decide +kernel

theorem repeatedDependencyPlan_covered :
    ∃ r s', (new false).apply (exitHost 0) .newestFirst repeatedDependencyPlan
        ⟨(), .empty⟩ = .ok r s' ∧
      ((r.outcomes.map OperationOutcome.opId).Perm repeatedDependencyPlan.ids ∧
          r.operationsApplied + r.operationsFailed + r.operationsSkipped =
            repeatedDependencyPlan.operations.length ↔
        repeatedDependencyPlan.WellFormed) := by
  have hreturns : Returns (fun r _ => r.success = true)
      ((new false).apply (exitHost 0) .newestFirst repeatedDependencyPlan
        ⟨(), .empty⟩) := by
    decide +kernel
  obtain ⟨r, s', h, -⟩ := hreturns.exists
  exact ⟨r, s', h, apply_covers_plan_iff_wellFormed h⟩

def planAfter (first : OperationType) : FixPlan where
  vm := "vm"
  generated := 0
  operations :=
    [ { id := "a", opType := first },
      { id := "b", opType := .directoryCreate { path := "/srv" }, dependsOn := ["a"] } ]

def dependentPlan : FixPlan := planAfter (.commandExec { command := "exit 7" })

end Guestkit.Plan
