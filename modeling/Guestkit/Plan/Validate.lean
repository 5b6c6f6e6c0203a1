import Guestkit.Lib.Fs.Ops
import Guestkit.Plan.TopoSort

/-! The check of a plan before it is applied offline.  `hasCircularDependencies` is a second copy of
Kahn's algorithm, which leaves out the edges from ids that the plan does not have and counts its
visits against the number of operations. -/

namespace Guestkit.Plan

open Lib Kahn List

structure PlanApplicator where
  vmPath : String
  dryRun : Bool
  skipBackup : Bool := false

inductive ValidationError where
  | vmNotFound (path : String)
  | circular
  | missing (op dep : String)
  deriving DecidableEq

def ValidationError.message : ValidationError → String
  | .vmNotFound path => "VM disk not found: " ++ path
  | .circular => "Plan contains circular dependencies"
  | .missing op dep => "Operation " ++ op ++ " depends on non-existent operation " ++ dep

def ValidationError.IsDependency : ValidationError → Prop
  | .vmNotFound _ => False
  | .circular => True
  | .missing _ _ => True

instance : DecidablePred ValidationError.IsDependency
  | .vmNotFound _ => isFalse id
  | .circular => isTrue trivial
  | .missing _ _ => isTrue trivial

structure ValidationResult where
  errors : List ValidationError
  warnings : List String

namespace FixPlan

def knownEdges (plan : FixPlan) : List (String × String) :=
  plan.edges.filter fun e => e.1 ∈ plan.ids

end FixPlan

variable {plan : FixPlan}

/-- Without the edges from unknown ids. -/
def buildKnownGraph (plan : FixPlan) : Graph :=
  let validIds := plan.operations.map Operation.id
  let nodes := plan.operations.foldl (fun g op => g.addNode op.id) ⟨∅, ∅⟩
  plan.operations.foldl
    (fun g op =>
      op.dependsOn.foldl (fun g dep => if dep ∈ validIds then g.addEdge (dep, op.id) else g) g)
    nodes

def hasCircularDependencies (order : HashOrder String Nat) (plan : FixPlan) : Bool :=
  if plan.operations.isEmpty then false
  else
    let g := buildKnownGraph plan
    let visited := (loop g.neighbors (fun visited _ => visited + 1) plan.operations.length
      ⟨g.inDegree.lookup, g.ready order, 0⟩).getD 0
    visited != plan.operations.length

def missingDependencies (plan : FixPlan) : List ValidationError :=
  plan.operations.flatMap fun op =>
    op.dependsOn.flatMap fun dep =>
      if plan.operations.any fun o => o.id = dep then [] else [.missing op.id dep]

def PlanApplicator.validate (self : PlanApplicator) (host : Fs.Tree)
    (order : HashOrder String Nat) (plan : FixPlan) : ValidationResult :=
  let nonReversible := (plan.operations.filter fun op => !op.reversible).map Operation.id
  { errors :=
      (if host.pathExists (Fs.Path.ofString self.vmPath) then [] else [.vmNotFound self.vmPath]) ++
        (if hasCircularDependencies order plan then [.circular] else []) ++
        missingDependencies plan
    warnings :=
      if nonReversible.isEmpty then []
      else ["Non-reversible operations: " ++ Text.join ", " nonReversible] }

theorem buildKnownGraph_eq (plan : FixPlan) :
    buildKnownGraph plan =
      plan.knownEdges.foldl Graph.addEdge (plan.ids.foldl Graph.addNode ⟨∅, ∅⟩) := by
  simp only [buildKnownGraph, FixPlan.knownEdges, FixPlan.edges, FixPlan.ids, foldl_filter,
    foldl_flatMap, foldl_map]
  congr 1
  funext g op
  congr 1
  funext g dep
  simp

theorem knownEdges_target (u v : String) (h : (u, v) ∈ plan.knownEdges) :
    v ∈ plan.ids :=
  edges_target u v (mem_of_mem_filter h)

theorem knownEdges_source (u v : String) (h : (u, v) ∈ plan.knownEdges) :
    u ∈ plan.ids := by
  simpa using (mem_filter.mp h).2

theorem buildKnownGraph_represents (plan : FixPlan) :
    Represents plan.ids plan.knownEdges (buildKnownGraph plan).neighbors
      fun id => (buildKnownGraph plan).inDegree.lookup id := by
  rw [buildKnownGraph_eq]
  exact Graph.represents knownEdges_target

theorem foldl_count (ids : List String) (n : Nat) :
    ids.foldl (fun visited _ => visited + 1) n = n + ids.length := by
  induction ids generalizing n with
  | nil => rfl
  | cons id ids ih =>
    rw [foldl_cons, ih, length_cons]
    omega

theorem hasCircularDependencies_eq_false (order : HashOrder String Nat) (plan : FixPlan) :
    hasCircularDependencies order plan = false ↔
      plan.ids.Nodup ∧ Acyclic plan.knownEdges := by
  have hfuel : plan.ids.length ≤ plan.operations.length := by simp [FixPlan.ids]
  obtain ⟨ids, hloop, hnodup, -, hmem⟩ := loop_spec (buildKnownGraph_represents plan)
    (fun visited _ => visited + 1) 0 ((buildKnownGraph plan).ready_nodup order)
    (fun _ => Graph.mem_ready) hfuel
  have hsub : ids ⊆ plan.ids := fun id hid => ((hmem id).mp hid).mem
  have hvisited : hasCircularDependencies order plan = false ↔ ids.length = plan.ids.length := by
    rw [hasCircularDependencies]
    dsimp only
    rw [hloop, foldl_count]
    by_cases hempty : plan.operations = []
    · have hids : plan.ids = [] := by simp [FixPlan.ids, hempty]
      rw [hids, subset_nil] at hsub
      simp [hempty, hids, hsub]
    · simp [hempty, FixPlan.ids]
  rw [hvisited]
  constructor
  · intro hlen
    have hperm : ids.Perm plan.ids :=
      (subperm_of_subset hnodup hsub).perm_of_length_le hlen.ge
    have hall : ∀ v ∈ plan.ids, Settled plan.ids plan.knownEdges v := fun v hv =>
      (hmem v).mp (hperm.mem_iff.mpr hv)
    exact ⟨hperm.nodup_iff.mp hnodup, ((settled_iff_acyclic knownEdges_target).mp hall).2⟩
  · rintro ⟨hdistinct, hacyclic⟩
    have hsup : plan.ids ⊆ ids := fun id hid =>
      (hmem id).mpr (settled_of_acyclic knownEdges_source hacyclic hid)
    exact le_antisymm (hnodup.length_le_of_subset hsub) (hdistinct.length_le_of_subset hsup)

theorem missingDependencies_eq_nil (plan : FixPlan) :
    missingDependencies plan = [] ↔
      ∀ op ∈ plan.operations, ∀ dep ∈ op.dependsOn, dep ∈ plan.ids := by
  simp [missingDependencies, mem_ids, flatMap_eq_nil_iff]

theorem isDependency_of_missing {e : ValidationError} (h : e ∈ missingDependencies plan) :
    e.IsDependency := by
  simp only [missingDependencies, mem_flatMap] at h
  obtain ⟨op, -, dep, -, he⟩ := h
  split at he
  · simp at he
  · rw [mem_singleton.mp he]
    trivial

theorem knownEdges_of_exist (h : ∀ op ∈ plan.operations, ∀ dep ∈ op.dependsOn, dep ∈ plan.ids) :
    plan.knownEdges = plan.edges := by
  rw [FixPlan.knownEdges, filter_eq_self]
  rintro ⟨dep, id⟩ hedge
  obtain ⟨op, hop, -, hdep⟩ := mem_edges.mp hedge
  simpa using h op hop dep hdep

theorem no_dependency_error_iff (self : PlanApplicator) (host : Fs.Tree)
    (order : HashOrder String Nat) (plan : FixPlan) :
    (∀ e ∈ (self.validate host order plan).errors, ¬e.IsDependency) ↔ plan.WellFormed := by
  have herrors : (∀ e ∈ (self.validate host order plan).errors, ¬e.IsDependency) ↔
      hasCircularDependencies order plan = false ∧ missingDependencies plan = [] := by
    rw [PlanApplicator.validate]
    constructor
    · intro h
      refine ⟨?_, eq_nil_iff_forall_not_mem.mpr fun e he => ?_⟩
      · by_contra hcircular
        rw [Bool.not_eq_false] at hcircular
        exact h .circular (by simp [hcircular]) trivial
      · exact h e (by simp [he]) (isDependency_of_missing he)
    · rintro ⟨hcircular, hmissing⟩ e he
      rw [hcircular, hmissing] at he
      simp only [Bool.false_eq_true, if_false, append_nil] at he
      split at he
      · simp at he
      · rw [mem_singleton.mp he]
        exact id
  rw [herrors, hasCircularDependencies_eq_false, missingDependencies_eq_nil]
  constructor
  · rintro ⟨⟨hdistinct, hacyclic⟩, hexist⟩
    exact ⟨hdistinct, hexist, knownEdges_of_exist hexist ▸ hacyclic⟩
  · rintro ⟨hdistinct, hexist, hacyclic⟩
    exact ⟨⟨hdistinct, (knownEdges_of_exist hexist).symm ▸ hacyclic⟩, hexist⟩

/-- A plan has no dependency error exactly when it is well formed, and the sort of a plan without
one is a permutation of its operations in which each follows those it depends on, in whatever order
the hash maps of the check and of the sort list their entries. -/
theorem validate_iff_wellFormed_and_sort (self : PlanApplicator) (host : Fs.Tree)
    (order sortOrder : HashOrder String Nat) (plan : FixPlan) :
    ((∀ e ∈ (self.validate host order plan).errors, ¬e.IsDependency) ↔ plan.WellFormed) ∧
      ((∀ e ∈ (self.validate host order plan).errors, ¬e.IsDependency) →
        (topologicalSort sortOrder plan).Perm plan.operations ∧
          DependencyOrdered plan (topologicalSort sortOrder plan)) := by
  have hiff := no_dependency_error_iff self host order plan
  have hsorts := topologicalSort_sorts sortOrder plan
  refine ⟨hiff, fun h => ?_⟩
  have hplan : plan.WellFormed := hiff.mp h
  exact ⟨hsorts.perm hplan, hsorts.dependencyOrdered hplan.distinct⟩

def repeatedDependencyPlan : FixPlan where
  vm := "vm"
  generated := 0
  operations :=
    [ { id := "b", opType := .directoryCreate { path := "/srv/b" }, dependsOn := ["a", "a"] },
      { id := "a", opType := .directoryCreate { path := "/srv" } } ]

theorem repeatedDependencyPlan_sort :
    (topologicalSort .newestFirst repeatedDependencyPlan).Perm
        repeatedDependencyPlan.operations ∧
      DependencyOrdered repeatedDependencyPlan
        (topologicalSort .newestFirst repeatedDependencyPlan) :=
  (validate_iff_wellFormed_and_sort ⟨"/disk", false, false⟩ .empty .newestFirst .newestFirst
    repeatedDependencyPlan).2 (by decide)

end Guestkit.Plan
