import Mathlib

/-! Breadth-first search for the connected components of a graph given by adjacency lists.  Over a
symmetric graph the search from each node in turn, with one set of visited nodes, splits the nodes
into the classes of nodes that are connected to each other. -/

namespace Guestkit.Lib.Components

open List

section Search

variable {α : Type} [DecidableEq α]

/-- Pops nodes until the queue is empty, collects those not visited before and queues their
neighbours.  The result is the visited nodes and the collected ones; `none` when the fuel runs out
first. -/
def search (adj : α → List α) : Nat → List α → List α → List α → Option (List α × List α)
  | _, [], visited, component => some (visited, component)
  | 0, _ :: _, _, _ => none
  | fuel + 1, node :: queue, visited, component =>
    if node ∈ visited then search adj fuel queue visited component
    else
      let visited := node :: visited
      search adj fuel (queue ++ (adj node).filter (· ∉ visited)) visited (component ++ [node])

/-- One search from each node that no search before it has visited. -/
def components (adj : α → List α) (fuel : Nat) : List α → List α → Option (List (List α))
  | [], _ => some []
  | node :: nodes, visited =>
    if node ∈ visited then components adj fuel nodes visited
    else
      (search adj fuel [node] visited []).bind fun (visited, component) =>
        (components adj fuel nodes visited).map (component :: ·)

def pending (adj : α → List α) (nodes visited : List α) : Nat :=
  ((nodes.filter (· ∉ visited)).map fun v => (adj v).length).sum

theorem pending_visit (adj : α → List α) {nodes visited : List α} (hnodup : nodes.Nodup) {node : α}
    (hnode : node ∈ nodes) (hnew : node ∉ visited) :
    pending adj nodes visited = (adj node).length + pending adj nodes (node :: visited) := by
  have hmem : node ∈ nodes.filter (· ∉ visited) := by simp [hnode, hnew]
  have herase : (nodes.filter (· ∉ visited)).erase node = nodes.filter (· ∉ node :: visited) := by
    rw [(hnodup.filter _).erase_eq_filter, filter_filter]
    congr 1
    funext v
    by_cases hv : v = node <;> simp [hv]
  rw [pending, ((perm_cons_erase hmem).map fun v => (adj v).length).sum_eq, herase]
  rfl

end Search

section Spec

variable {α : Type} {adj : α → List α} {nodes : List α}

/-- A graph of distinct nodes whose edges go both ways. -/
structure Symmetric (adj : α → List α) (nodes : List α) : Prop where
  nodup : nodes.Nodup
  closed : ∀ u ∈ nodes, ∀ v ∈ adj u, v ∈ nodes
  symm : ∀ u v, v ∈ adj u → u ∈ adj v

def Connected (adj : α → List α) : α → α → Prop :=
  Relation.ReflTransGen fun u v => v ∈ adj u

theorem Connected.symm (hsymm : ∀ u v, v ∈ adj u → u ∈ adj v) {u v : α}
    (h : Connected adj u v) : Connected adj v u := by
  induction h with
  | refl => exact .refl
  | tail _ hvw ih => exact ih.head (hsymm _ _ hvw)

theorem Connected.mem {visited : List α} (hclosed : ∀ u ∈ visited, ∀ v ∈ adj u, v ∈ visited)
    {u v : α} (h : Connected adj u v) (hu : u ∈ visited) : v ∈ visited := by
  induction h with
  | refl => exact hu
  | tail _ hvw ih => exact hclosed _ ih _ hvw

/-- The state of a search from `start`, when `before` had been visited: the neighbours of what is
collected are visited or in the queue. -/
structure Searching (adj : α → List α) (nodes before : List α) (start : α)
    (queue visited component : List α) : Prop where
  visited_iff : ∀ v, v ∈ visited ↔ v ∈ component ∨ v ∈ before
  nodup : component.Nodup
  fresh : ∀ v ∈ component, v ∉ before
  reached : ∀ v, v ∈ component ∨ v ∈ queue → v ∈ nodes ∧ Connected adj start v
  frontier : ∀ u ∈ component, ∀ v ∈ adj u, v ∈ visited ∨ v ∈ queue
  started : start ∈ visited ∨ start ∈ queue

variable {before : List α} {start node : α} {queue visited component : List α}

theorem Searching.skip (h : Searching adj nodes before start (node :: queue) visited component)
    (hnode : node ∈ visited) : Searching adj nodes before start queue visited component where
  visited_iff := h.visited_iff
  nodup := h.nodup
  fresh := h.fresh
  reached v hv := h.reached v (hv.imp_right (mem_cons_of_mem node))
  frontier u hu v hv := by
    rcases h.frontier u hu v hv with hv | hv
    · exact Or.inl hv
    · rcases mem_cons.mp hv with rfl | hv
      · exact Or.inl hnode
      · exact Or.inr hv
  started := by
    rcases h.started with hs | hs
    · exact Or.inl hs
    · rcases mem_cons.mp hs with rfl | hs
      · exact Or.inl hnode
      · exact Or.inr hs

variable [DecidableEq α]

theorem Searching.visit (hgraph : Symmetric adj nodes)
    (h : Searching adj nodes before start (node :: queue) visited component)
    (hnode : node ∉ visited) :
    Searching adj nodes before start (queue ++ (adj node).filter (· ∉ node :: visited))
      (node :: visited) (component ++ [node]) := by
  have hreached := h.reached node (Or.inr (by simp))
  have hnew : node ∉ component ∧ node ∉ before := by
    rw [← not_or, ← h.visited_iff]
    exact hnode
  constructor
  · intro v
    rw [mem_cons, h.visited_iff, mem_append, mem_singleton]
    tauto
  · rw [nodup_append]
    refine ⟨h.nodup, nodup_singleton node, ?_⟩
    intro a ha b hb hab
    rw [mem_singleton] at hb
    exact hnew.1 (hb ▸ hab ▸ ha)
  · intro v hv
    rcases mem_append.mp hv with hv | hv
    · exact h.fresh v hv
    · rw [mem_singleton] at hv
      exact hv ▸ hnew.2
  · intro v hv
    rw [mem_append, mem_append, mem_singleton] at hv
    rcases hv with (hv | rfl) | hv | hv
    · exact h.reached v (Or.inl hv)
    · exact hreached
    · exact h.reached v (Or.inr (mem_cons_of_mem node hv))
    · have hv' := mem_of_mem_filter hv
      exact ⟨hgraph.closed node hreached.1 v hv', hreached.2.tail hv'⟩
  · intro u hu v hv
    rw [mem_append, mem_singleton] at hu
    rcases hu with hu | rfl
    · rcases h.frontier u hu v hv with hv | hv
      · exact Or.inl (mem_cons_of_mem node hv)
      · rcases mem_cons.mp hv with rfl | hv
        · exact Or.inl (by simp)
        · exact Or.inr (mem_append_left _ hv)
    · by_cases hv' : v ∈ u :: visited
      · exact Or.inl hv'
      · exact Or.inr (mem_append_right _ (mem_filter.mpr ⟨hv, by simpa using hv'⟩))
  · rcases h.started with hs | hs
    · exact Or.inl (mem_cons_of_mem node hs)
    · rcases mem_cons.mp hs with rfl | hs
      · exact Or.inl (by simp)
      · exact Or.inr (mem_append_left _ hs)

omit [DecidableEq α] in
theorem Searching.component_iff (hgraph : Symmetric adj nodes)
    (hbefore : ∀ u ∈ before, ∀ v ∈ adj u, v ∈ before) (hstart : start ∉ before)
    (h : Searching adj nodes before start [] visited component) (v : α) :
    v ∈ component ↔ Connected adj start v := by
  constructor
  · intro hv
    exact (h.reached v (Or.inl hv)).2
  · intro hv
    have hstarted : start ∈ component := by
      rcases (h.visited_iff start).mp (h.started.resolve_right (by simp)) with hs | hs
      · exact hs
      · exact absurd hs hstart
    refine hv.mem (fun u hu w hw => ?_) hstarted
    rcases (h.visited_iff w).mp ((h.frontier u hu w hw).resolve_right (by simp)) with hw' | hw'
    · exact hw'
    · exact absurd (hbefore w hw' u (hgraph.symm u w hw)) (h.fresh u hu)

theorem search_searching (hgraph : Symmetric adj nodes) (fuel : Nat)
    (h : Searching adj nodes before start queue visited component)
    (hfuel : queue.length + pending adj nodes visited ≤ fuel) :
    ∃ visited' component', search adj fuel queue visited component =
      some (visited', component') ∧ Searching adj nodes before start [] visited' component' := by
  induction fuel generalizing queue visited component with
  | zero =>
    cases queue with
    | nil => exact ⟨visited, component, rfl, h⟩
    | cons node queue => simp at hfuel
  | succ fuel ih =>
    cases queue with
    | nil => exact ⟨visited, component, rfl, h⟩
    | cons node queue =>
      rw [length_cons] at hfuel
      rw [search]
      by_cases hnode : node ∈ visited
      · rw [if_pos hnode]
        exact ih (h.skip hnode) (by omega)
      · rw [if_neg hnode]
        refine ih (h.visit hgraph hnode) ?_
        have hpending := pending_visit adj hgraph.nodup
          (h.reached node (Or.inr (by simp))).1 hnode
        have hle := length_filter_le (fun v => decide (v ∉ node :: visited)) (adj node)
        rw [length_append]
        omega

theorem pending_le (adj : α → List α) (nodes visited : List α) :
    pending adj nodes visited ≤ (nodes.map fun v => (adj v).length).sum :=
  (filter_sublist.map _).sum_le_sum fun _ _ => Nat.zero_le _

theorem search_spec (hgraph : Symmetric adj nodes)
    (hbefore : ∀ u ∈ before, ∀ v ∈ adj u, v ∈ before) (hnode : start ∈ nodes)
    (hstart : start ∉ before) {fuel : Nat}
    (hfuel : (nodes.map fun v => (adj v).length).sum < fuel) :
    ∃ visited component, search adj fuel [start] before [] = some (visited, component) ∧
      component.Nodup ∧ (∀ v, v ∈ visited ↔ v ∈ component ∨ v ∈ before) ∧
      (∀ v ∈ component, v ∈ nodes ∧ v ∉ before) ∧
      ∀ v, v ∈ component ↔ Connected adj start v := by
  have hinit : Searching adj nodes before start [start] before [] := by
    constructor
    · simp
    · exact nodup_nil
    · simp
    · intro v hv
      obtain rfl : v = start := by simpa using hv
      exact ⟨hnode, .refl⟩
    · simp
    · simp
  obtain ⟨visited, component, hsearch, h⟩ := search_searching hgraph fuel hinit (by
    have := pending_le adj nodes before
    rw [length_singleton]
    omega)
  exact ⟨visited, component, hsearch, h.nodup, h.visited_iff,
    fun v hv => ⟨(h.reached v (Or.inl hv)).1, h.fresh v hv⟩,
    h.component_iff hgraph hbefore hstart⟩

section

variable (hgraph : Symmetric adj nodes) {fuel : Nat}
  (hfuel : (nodes.map fun v => (adj v).length).sum < fuel)
include hgraph hfuel

theorem components_holds {rest visited : List α}
    (hrest : ∀ v ∈ rest, v ∈ nodes) (hvisited : ∀ u ∈ visited, ∀ v ∈ adj u, v ∈ visited) :
    ∃ cs, components adj fuel rest visited = some cs ∧ cs.flatten.Nodup ∧
      (∀ v ∈ cs.flatten, v ∈ nodes ∧ v ∉ visited) ∧
      (∀ v ∈ rest, v ∈ visited ∨ v ∈ cs.flatten) ∧
      ∀ c ∈ cs, ∃ start ∈ c, ∀ v, v ∈ c ↔ Connected adj start v := by
  induction rest generalizing visited with
  | nil => exact ⟨[], rfl, by simp, by simp, by simp, by simp⟩
  | cons node rest ih =>
    have hrest' : ∀ v ∈ rest, v ∈ nodes := fun v hv => hrest v (mem_cons_of_mem node hv)
    rw [components]
    by_cases hnode : node ∈ visited
    · rw [if_pos hnode]
      obtain ⟨cs, hcs, hnodup, hfresh, hcover, hclass⟩ := ih hrest' hvisited
      refine ⟨cs, hcs, hnodup, hfresh, fun v hv => ?_, hclass⟩
      rcases mem_cons.mp hv with rfl | hv
      · exact Or.inl hnode
      · exact hcover v hv
    · rw [if_neg hnode]
      obtain ⟨visited', component, hsearch, hdistinct, hiff, hnew, hconn⟩ :=
        search_spec hgraph hvisited (hrest node (by simp)) hnode hfuel
      have hclosed : ∀ u ∈ visited', ∀ v ∈ adj u, v ∈ visited' := by
        intro u hu v hv
        rw [hiff] at hu ⊢
        rcases hu with hu | hu
        · exact Or.inl ((hconn v).mpr (((hconn u).mp hu).tail hv))
        · exact Or.inr (hvisited u hu v hv)
      obtain ⟨cs, hcs, hnodup, hfresh, hcover, hclass⟩ := ih hrest' hclosed
      have hself : node ∈ component := (hconn node).mpr .refl
      refine ⟨component :: cs, ?_, ?_, ?_, ?_, ?_⟩
      · rw [hsearch]
        simp only [Option.bind_some, hcs, Option.map_some]
      · rw [flatten_cons, nodup_append]
        refine ⟨hdistinct, hnodup, ?_⟩
        rintro a ha b hb rfl
        exact (hfresh a hb).2 ((hiff a).mpr (Or.inl ha))
      · intro v hv
        rw [flatten_cons, mem_append] at hv
        rcases hv with hv | hv
        · exact hnew v hv
        · exact ⟨(hfresh v hv).1, fun hv' => (hfresh v hv).2 ((hiff v).mpr (Or.inr hv'))⟩
      · intro v hv
        rw [flatten_cons, mem_append]
        rcases mem_cons.mp hv with rfl | hv
        · exact Or.inr (Or.inl hself)
        · rcases hcover v hv with hv | hv
          · exact ((hiff v).mp hv).symm.imp_right Or.inl
          · exact Or.inr (Or.inr hv)
      · intro c hc
        rcases mem_cons.mp hc with rfl | hc
        · exact ⟨node, hself, hconn⟩
        · exact hclass c hc

/-- The components hold each node once, and each component all that is connected to any of its
nodes. -/
theorem components_spec :
    ∃ cs, components adj fuel nodes [] = some cs ∧ cs.flatten.Perm nodes ∧
      ∀ c ∈ cs, ∀ u ∈ c, ∀ v, v ∈ c ↔ Connected adj u v := by
  obtain ⟨cs, hcs, hnodup, hfresh, hcover, hclass⟩ :=
    components_holds hgraph hfuel (fun _ hv => hv)
      fun u (hu : u ∈ []) => absurd hu not_mem_nil
  refine ⟨cs, hcs, ?_, fun c hc u hu v => ?_⟩
  · rw [perm_ext_iff_of_nodup hnodup hgraph.nodup]
    intro v
    exact ⟨fun hv => (hfresh v hv).1, fun hv => (hcover v hv).resolve_left (by simp)⟩
  · obtain ⟨start, -, hconn⟩ := hclass c hc
    have hu' : Connected adj start u := (hconn u).mp hu
    rw [hconn]
    exact ⟨fun hv => (hu'.symm hgraph.symm).trans hv, fun hv => hu'.trans hv⟩

end

end Spec

end Guestkit.Lib.Components
