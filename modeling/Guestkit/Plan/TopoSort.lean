import Guestkit.Lib.HashMap
import Guestkit.Lib.Kahn
import Guestkit.Plan.Types

/-! The order in which the operations of a plan are applied.  `topologicalSort` visits the plan's
ids by Kahn's algorithm over hash maps; for any plan, malformed ones included, it yields one
operation for each id that can be settled, each after its dependencies. -/

namespace Guestkit.Plan

open Lib Kahn HashMap List

structure Graph where
  inDegree : HashMap String Nat
  adj : HashMap String (List String)

namespace Graph

def addNode (g : Graph) (id : String) : Graph :=
  { inDegree := g.inDegree.orInsert id 0
    adj := g.adj.orInsert id [] }

def addEdge (g : Graph) (e : String × String) : Graph :=
  { adj := g.adj.insert e.1 ((g.adj.lookup e.1).getD [] ++ [e.2])
    inDegree := g.inDegree.insert e.2 ((g.inDegree.lookup e.2).getD 0 + 1) }

def neighbors (g : Graph) (id : String) : List String :=
  (g.adj.lookup id).getD []

def ready (order : HashOrder String Nat) (g : Graph) : List String :=
  ((order.iter g.inDegree).filter fun e => e.2 = 0).map Prod.fst

end Graph

namespace FixPlan

def ids (plan : FixPlan) : List String :=
  plan.operations.map Operation.id

def edges (plan : FixPlan) : List (String × String) :=
  plan.operations.flatMap fun op => op.dependsOn.map fun dep => (dep, op.id)

/-- Distinct ids, dependencies that name operations, and no cycle among them. -/
structure WellFormed (plan : FixPlan) : Prop where
  distinct : plan.ids.Nodup
  exist : ∀ op ∈ plan.operations, ∀ dep ∈ op.dependsOn, dep ∈ plan.ids
  acyclic : Acyclic plan.edges

end FixPlan

def DependencyOrdered (plan : FixPlan) (sorted : List Operation) : Prop :=
  ∀ pre op post, sorted = pre ++ op :: post → ∀ d ∈ plan.operations, d.id ∈ op.dependsOn → d ∈ pre

def opMap (plan : FixPlan) : HashMap String Operation :=
  plan.operations.foldl (fun m op => m.insert op.id op) ∅

def buildGraph (plan : FixPlan) : Graph :=
  let nodes := plan.operations.foldl (fun g op => g.addNode op.id) ⟨∅, ∅⟩
  plan.operations.foldl
    (fun g op => op.dependsOn.foldl (fun g dep => g.addEdge (dep, op.id)) g) nodes

/-- Sorts operations respecting `depends_on` edges.  The number of operations bounds the turns of
the loop. -/
def topologicalSort (order : HashOrder String Nat) (plan : FixPlan) : List Operation :=
  let g := buildGraph plan
  let visit sorted id := sorted ++ ((opMap plan).lookup id).toList
  (loop g.neighbors visit plan.operations.length
    ⟨g.inDegree.lookup, g.ready order, []⟩).getD []

theorem mem_ids {plan : FixPlan} {id : String} :
    id ∈ plan.ids ↔ ∃ op ∈ plan.operations, op.id = id := by
  simp [FixPlan.ids]

theorem mem_edges {plan : FixPlan} {dep id : String} :
    (dep, id) ∈ plan.edges ↔ ∃ op ∈ plan.operations, op.id = id ∧ dep ∈ op.dependsOn := by
  simp only [FixPlan.edges, mem_flatMap, mem_map, Prod.mk.injEq]
  constructor
  · rintro ⟨op, hop, d, hd, rfl, rfl⟩
    exact ⟨op, hop, rfl, hd⟩
  · rintro ⟨op, hop, rfl, hdep⟩
    exact ⟨op, hop, dep, hdep, rfl, rfl⟩

namespace Graph

theorem foldl_addNode_inDegree (ids : List String) (g : Graph) (id : String) :
    (ids.foldl addNode g).inDegree.lookup id =
      if id ∈ ids then some ((g.inDegree.lookup id).getD 0) else g.inDegree.lookup id := by
  induction ids generalizing g with
  | nil => simp
  | cons a ids ih =>
    rw [foldl_cons, ih, addNode, lookup_orInsert]
    by_cases h : id = a
    · subst h
      simp
    · simp [h]

theorem foldl_addNode_neighbors (ids : List String) (g : Graph) (id : String) :
    (ids.foldl addNode g).neighbors id = g.neighbors id := by
  induction ids generalizing g with
  | nil => rfl
  | cons a ids ih =>
    rw [foldl_cons, ih, neighbors, neighbors, addNode, lookup_orInsert]
    by_cases h : id = a
    · subst h
      simp
    · simp [h]

theorem foldl_addEdge_inDegree (edges : List (String × String)) (g : Graph) (id : String)
    (hid : ∀ e ∈ edges, e.2 = id → (g.inDegree.lookup id).isSome) :
    (edges.foldl addEdge g).inDegree.lookup id =
      (g.inDegree.lookup id).map (· + edges.countP fun e => e.2 = id) := by
  induction edges generalizing g with
  | nil => simp
  | cons e edges ih =>
    have hstep : (g.addEdge e).inDegree.lookup id =
        (g.inDegree.lookup id).map (· + if e.2 = id then 1 else 0) := by
      rw [addEdge, lookup_insert_eq]
      by_cases h : id = e.2
      · obtain ⟨d, hd⟩ := Option.isSome_iff_exists.mp (hid e (by simp) h.symm)
        subst h
        simp [hd]
      · simp [h, Ne.symm h]
    rw [foldl_cons, ih, hstep, Option.map_map, countP_cons]
    · congr 1
      funext d
      simp
      omega
    · intro e' he' htarget
      rw [hstep, Option.isSome_map]
      exact hid e' (mem_cons_of_mem e he') htarget

theorem foldl_addEdge_neighbors (edges : List (String × String)) (g : Graph) (id : String) :
    (edges.foldl addEdge g).neighbors id =
      g.neighbors id ++ (edges.filter fun e => e.1 = id).map Prod.snd := by
  induction edges generalizing g with
  | nil => simp
  | cons e edges ih =>
    have hstep : (g.addEdge e).neighbors id =
        if id = e.1 then g.neighbors id ++ [e.2] else g.neighbors id := by
      rw [addEdge, neighbors, lookup_insert_eq]
      by_cases h : id = e.1
      · subst h
        simp [neighbors]
      · simp [h, neighbors]
    rw [foldl_cons, ih, hstep]
    by_cases h : e.1 = id
    · simp [h]
    · simp [h, Ne.symm h]

theorem represents {ids : List String} {edges : List (String × String)}
    (htarget : ∀ u v, (u, v) ∈ edges → v ∈ ids) :
    let g := edges.foldl addEdge (ids.foldl addNode ⟨∅, ∅⟩)
    Represents ids edges g.neighbors fun id => g.inDegree.lookup id := by
  have hnode : ∀ id, (ids.foldl addNode ⟨∅, ∅⟩).inDegree.lookup id =
      if id ∈ ids then some 0 else none := by
    intro id
    rw [foldl_addNode_inDegree]
    simp
  have hdegree : ∀ id, (edges.foldl addEdge (ids.foldl addNode ⟨∅, ∅⟩)).inDegree.lookup id =
      (if id ∈ ids then some 0 else none : Option Nat).map
        (· + edges.countP fun e => e.2 = id) := by
    intro id
    rw [foldl_addEdge_inDegree, hnode]
    rintro ⟨u, v⟩ he rfl
    rw [hnode, if_pos (htarget u v he)]
    rfl
  constructor
  · exact htarget
  · intro u
    rw [foldl_addEdge_neighbors, foldl_addNode_neighbors]
    simp [neighbors]
  · intro v hv
    rw [hdegree, if_pos hv]
    simp [waiting]
  · intro v hv
    rw [hdegree, if_neg hv]
    rfl

theorem mem_ready {order : HashOrder String Nat} {g : Graph} {id : String} :
    id ∈ g.ready order ↔ g.inDegree.lookup id = some 0 :=
  order.mem_keysOf g.inDegree

theorem ready_nodup (order : HashOrder String Nat) (g : Graph) : (g.ready order).Nodup :=
  order.nodup_keysOf g.inDegree 0

end Graph

variable {plan : FixPlan}

theorem buildGraph_eq (plan : FixPlan) :
    buildGraph plan = plan.edges.foldl Graph.addEdge (plan.ids.foldl Graph.addNode ⟨∅, ∅⟩) := by
  simp only [buildGraph, FixPlan.edges, FixPlan.ids, foldl_flatMap, foldl_map]

theorem edges_target (u v : String) (h : (u, v) ∈ plan.edges) :
    v ∈ plan.ids := by
  obtain ⟨op, hop, rfl, _⟩ := mem_edges.mp h
  exact mem_ids.mpr ⟨op, hop, rfl⟩

theorem buildGraph_represents (plan : FixPlan) :
    Represents plan.ids plan.edges (buildGraph plan).neighbors
      fun id => (buildGraph plan).inDegree.lookup id := by
  rw [buildGraph_eq]
  exact Graph.represents edges_target

theorem opMap_lookup (plan : FixPlan) (id : String) :
    (opMap plan).lookup id = plan.operations.reverse.find? fun op => op.id = id := by
  have hfold : ∀ (ops : List Operation) (m : HashMap String Operation),
      (ops.foldl (fun m op => m.insert op.id op) m).lookup id =
        (ops.reverse.find? fun op => op.id = id).or (m.lookup id) := by
    intro ops
    induction ops with
    | nil => simp
    | cons op ops ih =>
      intro m
      rw [foldl_cons, ih, lookup_insert_eq, reverse_cons, List.find?_append,
        Option.or_assoc]
      by_cases h : op.id = id
      · simp [h]
      · simp [h, Ne.symm h]
  rw [opMap, hfold]
  simp

theorem opMap_isSome {id : String} (h : id ∈ plan.ids) :
    ∃ op ∈ plan.operations, op.id = id ∧ (opMap plan).lookup id = some op := by
  obtain ⟨op, hop, hid⟩ := mem_ids.mp h
  cases hfind : plan.operations.reverse.find? (fun op => op.id = id) with
  | none =>
    rw [List.find?_eq_none] at hfind
    simpa [hid] using hfind op (mem_reverse.mpr hop)
  | some op' =>
    exact ⟨op', mem_reverse.mp (mem_of_find?_eq_some hfind),
      by simpa using List.find?_some hfind, by rw [opMap_lookup, hfind]⟩

/-- The sort of any plan: each id that can be settled once, after its dependencies, and for each of
them the operation that the map holds. -/
structure Sorts (plan : FixPlan) (sorted : List Operation) : Prop where
  distinct : (sorted.map Operation.id).Nodup
  ordered : Ordered plan.edges (sorted.map Operation.id)
  settled : ∀ id, id ∈ sorted.map Operation.id ↔ Settled plan.ids plan.edges id
  held : ∀ op ∈ sorted, op ∈ plan.operations ∧ (opMap plan).lookup op.id = some op

theorem foldl_visit (plan : FixPlan) (ids : List String) (sorted : List Operation) :
    ids.foldl (fun sorted id => sorted ++ ((opMap plan).lookup id).toList) sorted =
      sorted ++ ids.filterMap fun id => (opMap plan).lookup id := by
  induction ids generalizing sorted with
  | nil => simp
  | cons id ids ih =>
    rw [foldl_cons, ih]
    cases h : (opMap plan).lookup id <;> simp [h]

theorem filterMap_opMap_ids {ids : List String} (h : ∀ id ∈ ids, id ∈ plan.ids) :
    (ids.filterMap fun id => (opMap plan).lookup id).map Operation.id = ids := by
  induction ids with
  | nil => rfl
  | cons id ids ih =>
    obtain ⟨op, _, hid, hlookup⟩ := opMap_isSome (h id (by simp))
    rw [filterMap_cons, hlookup]
    simp [hid, ih fun a ha => h a (mem_cons_of_mem id ha)]

theorem topologicalSort_sorts (order : HashOrder String Nat) (plan : FixPlan) :
    Sorts plan (topologicalSort order plan) := by
  have hfuel : plan.ids.length ≤ plan.operations.length := by simp [FixPlan.ids]
  obtain ⟨ids, hloop, hnodup, hordered, hmem⟩ := loop_spec (buildGraph_represents plan)
    (fun sorted id => sorted ++ ((opMap plan).lookup id).toList) []
    ((buildGraph plan).ready_nodup order) (fun _ => Graph.mem_ready) hfuel
  have hsort : topologicalSort order plan = ids.filterMap fun id => (opMap plan).lookup id := by
    rw [topologicalSort, hloop, foldl_visit]
    rfl
  have hids : (topologicalSort order plan).map Operation.id = ids := by
    rw [hsort]
    exact filterMap_opMap_ids fun id hid => ((hmem id).mp hid).mem
  constructor
  · rw [hids]
    exact hnodup
  · rw [hids]
    exact hordered
  · rw [hids]
    exact hmem
  · intro op hop
    rw [hsort, mem_filterMap] at hop
    obtain ⟨id, hid, hlookup⟩ := hop
    obtain ⟨op', hop', rfl, hlookup'⟩ := opMap_isSome ((hmem id).mp hid).mem
    rw [hlookup'] at hlookup
    cases hlookup
    exact ⟨hop', hlookup'⟩

namespace Sorts

variable {plan : FixPlan} {sorted : List Operation}

theorem length_le (h : Sorts plan sorted) : sorted.length ≤ plan.operations.length := by
  have hsub : sorted.map Operation.id ⊆ plan.ids := fun id hid => ((h.settled id).mp hid).mem
  simpa [FixPlan.ids] using h.distinct.length_le_of_subset hsub

theorem dependencyOrdered (h : Sorts plan sorted) (hdistinct : plan.ids.Nodup) :
    DependencyOrdered plan sorted := by
  intro pre op post hsplit d hd hdep
  have hop : op ∈ plan.operations := (h.held op (by rw [hsplit]; simp)).1
  have hedge : (d.id, op.id) ∈ plan.edges := mem_edges.mpr ⟨op, hop, rfl, hdep⟩
  have hmem := h.ordered (pre.map Operation.id) op.id (post.map Operation.id)
    (by rw [hsplit]; simp) d.id hedge
  obtain ⟨d', hd', hid⟩ := mem_map.mp hmem
  have hplan : d' ∈ plan.operations := (h.held d' (by rw [hsplit]; simp [hd'])).1
  rwa [inj_on_of_nodup_map hdistinct hplan hd hid] at hd'

theorem length_eq_iff (h : Sorts plan sorted) :
    sorted.length = plan.operations.length ↔ plan.WellFormed := by
  have hsub : sorted.map Operation.id ⊆ plan.ids := fun id hid => ((h.settled id).mp hid).mem
  constructor
  · intro hlen
    have hlen' : plan.ids.length ≤ (sorted.map Operation.id).length := by simp [FixPlan.ids, hlen]
    have hperm : (sorted.map Operation.id).Perm plan.ids :=
      (subperm_of_subset h.distinct hsub).perm_of_length_le hlen'
    have hall : ∀ v ∈ plan.ids, Settled plan.ids plan.edges v := fun v hv =>
      (h.settled v).mp (hperm.mem_iff.mpr hv)
    obtain ⟨hsource, hacyclic⟩ := (settled_iff_acyclic edges_target).mp hall
    refine ⟨hperm.nodup_iff.mp h.distinct, fun op hop dep hdep => ?_, hacyclic⟩
    exact hsource dep op.id (mem_edges.mpr ⟨op, hop, rfl, hdep⟩)
  · intro hplan
    have hsource : ∀ u v, (u, v) ∈ plan.edges → u ∈ plan.ids := by
      intro u v huv
      obtain ⟨op, hop, _, hdep⟩ := mem_edges.mp huv
      exact hplan.exist op hop u hdep
    have hsup : plan.ids ⊆ sorted.map Operation.id := fun id hid =>
      (h.settled id).mpr (settled_of_acyclic hsource hplan.acyclic hid)
    have hlen := hplan.distinct.length_le_of_subset hsup
    rw [length_map, FixPlan.ids, length_map] at hlen
    exact le_antisymm h.length_le hlen

theorem perm (h : Sorts plan sorted) (hplan : plan.WellFormed) :
    sorted.Perm plan.operations := by
  have hsub : sorted ⊆ plan.operations := fun op hop => (h.held op hop).1
  exact (subperm_of_subset h.distinct.of_map hsub).perm_of_length_le
    (h.length_eq_iff.mpr hplan).ge

end Sorts

/-- Whatever the plan, the same operations are sorted in every iteration order. -/
theorem topologicalSort_perm (order order' : HashOrder String Nat) (plan : FixPlan) :
    (topologicalSort order plan).Perm (topologicalSort order' plan) := by
  have hsub : ∀ order order', topologicalSort order plan <+~ topologicalSort order' plan := by
    intro order order'
    have h := topologicalSort_sorts order plan
    have h' := topologicalSort_sorts order' plan
    refine subperm_of_subset h.distinct.of_map fun op hop => ?_
    have hid := (h'.settled op.id).mpr ((h.settled op.id).mp (mem_map_of_mem hop))
    obtain ⟨op', hop', heq⟩ := mem_map.mp hid
    have hlookup := (h'.held op' hop').2
    rw [heq, (h.held op hop).2] at hlookup
    exact Option.some.inj hlookup ▸ hop'
  exact (hsub order order').antisymm (hsub order' order)

end Guestkit.Plan
