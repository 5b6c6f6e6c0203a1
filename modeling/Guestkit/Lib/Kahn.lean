import Mathlib

/-! Kahn's algorithm over in-degrees and adjacency lists.  A graph is a list of nodes and a list of
edges `(u, v)`, with repetitions, in which `v` waits for `u`.  The loop visits exactly the nodes
that `Settled` describes, each once and after every node it waits for, and it visits every node if
and only if the graph has no cycle and no edge that starts outside it. -/

namespace Guestkit.Lib.Kahn

open Relation List

open Function

/-- The state of the loop: the edges into each node that are not yet followed, the nodes ready to
be visited, and what the visits so far have accumulated. -/
structure State (α β : Type) where
  inDegree : α → Option Nat
  queue : List α
  acc : β

section Loop

variable {α β : Type} [DecidableEq α]

/-- Follows one edge into `v`: its in-degree falls by one, and at zero the node joins the queue.  A
node without an in-degree is passed over, and `none` is the overflow of a decrement at zero. -/
def relax (s : State α β) (v : α) : Option (State α β) :=
  match s.inDegree v with
  | none => some s
  | some 0 => none
  | some (d + 1) =>
    some { s with
      inDegree := update s.inDegree v (some d)
      queue := if d = 0 then s.queue ++ [v] else s.queue }

def relaxAll : State α β → List α → Option (State α β)
  | s, [] => some s
  | s, v :: vs => (relax s v).bind fun s' => relaxAll s' vs

/-- Pops a node, visits it and follows its edges until the queue is empty; `none` when the fuel
runs out first. -/
def loop (adj : α → List α) (visit : β → α → β) : Nat → State α β → Option β
  | 0, s => if s.queue = [] then some s.acc else none
  | fuel + 1, s =>
    match s.queue with
    | [] => some s.acc
    | u :: rest =>
      (relaxAll { s with queue := rest, acc := visit s.acc u } (adj u)).bind
        (loop adj visit fuel)

/-- Visits all the nodes that are ready at once, in the order in which `arrange` puts them, then
those that this makes ready, until there are none; `none` when the fuel runs out first. -/
def levels (adj : α → List α) (arrange : List α → Option (List α)) :
    Nat → (α → Option Nat) → List α → Option (List (List α))
  | _, _, [] => some []
  | 0, _, _ :: _ => none
  | fuel + 1, inDegree, u :: ready =>
    (arrange (u :: ready)).bind fun level =>
      (relaxAll (⟨inDegree, [], ()⟩ : State α Unit) (level.flatMap adj)).bind fun s =>
        (levels adj arrange fuel s.inDegree s.queue).map (level :: ·)

end Loop

section Graphs

variable {α : Type}
variable {v : α}

def Acyclic (edges : List (α × α)) : Prop :=
  ∀ v, ¬TransGen (fun a b => (a, b) ∈ edges) v v

/-- A node that can be visited: it waits only for nodes that can be visited. -/
inductive Settled (nodes : List α) (edges : List (α × α)) : α → Prop
  | intro {v : α} : v ∈ nodes → (∀ u, (u, v) ∈ edges → Settled nodes edges u) →
      Settled nodes edges v

def Ordered (edges : List (α × α)) (order : List α) : Prop :=
  ∀ pre v post, order = pre ++ v :: post → ∀ u, (u, v) ∈ edges → u ∈ pre

/-- Each level waits only for `done` and for the levels before it, and each of its nodes for some
node of the level right before it. -/
def Layered (edges : List (α × α)) : List α → Option (List α) → List (List α) → Prop
  | _, _, [] => True
  | done, last, level :: levels =>
    (∀ v ∈ level, (∀ u, (u, v) ∈ edges → u ∈ done) ∧
      ∀ previous ∈ last, ∃ u ∈ previous, (u, v) ∈ edges) ∧
    Layered edges (done ++ level) (some level) levels

variable {nodes : List α} {edges : List (α × α)}

theorem Settled.mem (h : Settled nodes edges v) : v ∈ nodes := by
  cases h with
  | intro hv _ => exact hv

theorem Settled.not_cycle (h : Settled nodes edges v) :
    ¬TransGen (fun a b => (a, b) ∈ edges) v v := by
  induction h with
  | intro hv hdeps ih =>
    intro hcycle
    obtain ⟨u, hvu, huv⟩ := TransGen.tail'_iff.mp hcycle
    exact ih u huv (TransGen.head' huv hvu)

/-- What a settled node waits for, directly or through others, is settled. -/
theorem Settled.of_reflTransGen {u v : α} (h : Settled nodes edges v)
    (huv : ReflTransGen (fun a b => (a, b) ∈ edges) u v) : Settled nodes edges u := by
  induction huv using ReflTransGen.head_induction_on with
  | refl => exact h
  | head hab _ ih =>
    cases ih with
    | intro _ hdeps => exact hdeps _ hab

section

variable (hsource : ∀ u v, (u, v) ∈ edges → u ∈ nodes)
include hsource

/-- A node can be visited when nothing that it waits for, directly or through others, starts
outside the graph or lies on a cycle. -/
theorem settled_of_not_cycle (hcycle : ∀ c, ReflTransGen (fun a b => (a, b) ∈ edges) c v →
      ¬TransGen (fun a b => (a, b) ∈ edges) c c) (hv : v ∈ nodes) :
    Settled nodes edges v := by
  let below : Set α := fun x => x ∈ nodes ∧ ReflTransGen (fun a b => (a, b) ∈ edges) x v
  let r : below → below → Prop := fun a b =>
    TransGen (fun a b => (a, b) ∈ edges) a.1 b.1
  have : IsTrans below r := ⟨fun _ _ _ hab hbc => TransGen.trans hab hbc⟩
  have : Std.Irrefl r := ⟨fun a => hcycle a.1 a.2.2⟩
  have : Finite {x // x ∈ nodes} := by
    classical exact Finite.of_fintype _
  have : Finite below :=
    Finite.of_injective (fun a => (⟨a.1, a.2.1⟩ : {x // x ∈ nodes}))
      fun a b hab => Subtype.ext (congrArg (·.1) hab)
  have hwf : WellFounded r := Finite.wellFounded_of_trans_of_irrefl r
  have hall : ∀ a : below, Settled nodes edges a.1 := by
    intro a
    induction a using hwf.induction with
    | _ a ih =>
      refine Settled.intro a.2.1 fun u hu => ?_
      exact ih ⟨u, hsource u a.1 hu, a.2.2.head hu⟩ (TransGen.single hu)
  exact hall ⟨v, hv, .refl⟩

/-- The nodes that cannot be visited are those that wait, directly or through others, for a node on
a cycle. -/
theorem settled_iff_not_cycle (hv : v ∈ nodes) :
    Settled nodes edges v ↔ ∀ c, ReflTransGen (fun a b => (a, b) ∈ edges) c v →
      ¬TransGen (fun a b => (a, b) ∈ edges) c c := by
  constructor
  · intro h c hcv
    exact (h.of_reflTransGen hcv).not_cycle
  · intro h
    exact settled_of_not_cycle hsource h hv

/-- Without cycles and without edges that start outside the graph, every node can be visited. -/
theorem settled_of_acyclic (hacyclic : Acyclic edges)
    (hv : v ∈ nodes) : Settled nodes edges v :=
  settled_of_not_cycle hsource (fun c _ => hacyclic c) hv

end

/-- Every node can be visited exactly when no edge starts outside the graph and there is no
cycle. -/
theorem settled_iff_acyclic (htarget : ∀ u v, (u, v) ∈ edges → v ∈ nodes) :
    (∀ v ∈ nodes, Settled nodes edges v) ↔
      (∀ u v, (u, v) ∈ edges → u ∈ nodes) ∧ Acyclic edges := by
  constructor
  · intro hall
    refine ⟨fun u v huv => ?_, fun v hcycle => ?_⟩
    · cases hall v (htarget u v huv) with
      | intro _ hdeps => exact (hdeps u huv).mem
    · obtain ⟨u, _, huv⟩ := TransGen.tail'_iff.mp hcycle
      exact (hall v (htarget u v huv)).not_cycle hcycle
  · rintro ⟨hsource, hacyclic⟩ v hv
    exact settled_of_acyclic hsource hacyclic hv

theorem Ordered.concat {order : List α} {u : α} (h : Ordered edges order)
    (hu : ∀ w, (w, u) ∈ edges → w ∈ order) : Ordered edges (order ++ [u]) := by
  intro pre v post hsplit w hw
  rcases eq_nil_or_concat post with rfl | ⟨post', x, rfl⟩
  · obtain ⟨rfl, hvu⟩ := append_inj' hsplit rfl
    rw [singleton_inj] at hvu
    exact hu w (hvu ▸ hw)
  · have hsplit' : order ++ [u] = (pre ++ v :: post') ++ [x] := by simpa using hsplit
    exact h pre v post' (append_inj' hsplit' rfl).1 w hw

section

variable {done : List α} {last : Option (List α)} {levels : List (List α)}
  (h : Layered edges done last levels) {i : Nat} {level : List α}
include h

theorem Layered.before (hi : levels[i]? = some level)
    {u v : α} (hv : v ∈ level) (huv : (u, v) ∈ edges) :
    u ∈ done ∨ ∃ j earlier, j < i ∧ levels[j]? = some earlier ∧ u ∈ earlier := by
  induction levels generalizing done last i with
  | nil => simp at hi
  | cons first levels ih =>
    cases i with
    | zero =>
      rw [List.getElem?_cons_zero, Option.some.injEq] at hi
      subst hi
      exact Or.inl ((h.1 v hv).1 u huv)
    | succ i =>
      rcases ih h.2 hi with hu | ⟨j, earlier, hj, hearlier, hu⟩
      · rcases mem_append.mp hu with hu | hu
        · exact Or.inl hu
        · exact Or.inr ⟨0, first, by omega, rfl, hu⟩
      · exact Or.inr ⟨j + 1, earlier, by omega, hearlier, hu⟩

theorem Layered.previous (hi : levels[i + 1]? = some level) (hv : v ∈ level) :
    ∃ u earlier, levels[i]? = some earlier ∧ u ∈ earlier ∧ (u, v) ∈ edges := by
  induction levels generalizing done last i with
  | nil => simp at hi
  | cons first levels ih =>
    cases i with
    | zero =>
      cases levels with
      | nil => simp at hi
      | cons second levels =>
        simp only [List.getElem?_cons_succ, List.getElem?_cons_zero, Option.some.injEq] at hi
        subst hi
        obtain ⟨u, hu, huv⟩ := (h.2.1 v hv).2 first rfl
        exact ⟨u, first, rfl, hu, huv⟩
    | succ i => exact ih h.2 hi

end

end Graphs

section Invariant

variable {α β : Type} [DecidableEq α]

def waiting (edges : List (α × α)) (done : List α) (v : α) : Nat :=
  edges.countP fun e => e.2 = v ∧ e.1 ∉ done

structure Represents (nodes : List α) (edges : List (α × α)) (adj : α → List α)
    (inDegree : α → Option Nat) : Prop where
  target : ∀ u v, (u, v) ∈ edges → v ∈ nodes
  adjacent : ∀ u, adj u = (edges.filter fun e => e.1 = u).map Prod.snd
  degree : ∀ v ∈ nodes, inDegree v = some (waiting edges [] v)
  absent : ∀ v, v ∉ nodes → inDegree v = none

/-- The state after the visits of `done`, with the edges to `rest` still to follow out of the last
of them. -/
structure Holds (nodes : List α) (edges : List (α × α)) (done rest : List α) (s : State α β) :
    Prop where
  distinct : (done ++ s.queue).Nodup
  degree : ∀ v ∈ nodes, s.inDegree v = some (waiting edges done v + rest.count v)
  absent : ∀ v, v ∉ nodes → s.inDegree v = none
  zero : ∀ v, v ∈ done ++ s.queue ↔ s.inDegree v = some 0
  ordered : Ordered edges done

variable {nodes done rest : List α} {edges : List (α × α)} {s : State α β}

theorem waiting_eq_zero {v : α} :
    waiting edges done v = 0 ↔ ∀ u, (u, v) ∈ edges → u ∈ done := by
  rw [waiting, countP_eq_zero]
  constructor
  · intro h u hu
    have := h (u, v) hu
    simpa using this
  · rintro h ⟨a, b⟩ hab
    simp only [decide_eq_true_eq, not_and, not_not]
    rintro rfl
    exact h a hab

theorem waiting_visit {u : α} (hu : u ∉ done) (v : α) :
    waiting edges done v = waiting edges (done ++ [u]) v +
      ((edges.filter fun e => e.1 = u).map Prod.snd).count v := by
  unfold waiting
  induction edges with
  | nil => rfl
  | cons e edges ih =>
    obtain ⟨a, b⟩ := e
    rw [countP_cons, countP_cons, ih]
    by_cases hau : a = u
    · subst hau
      by_cases hbv : b = v
      · subst hbv
        simp [hu]
        omega
      · simp [hbv]
    · by_cases had : a ∈ done <;> by_cases hbv : b = v <;> simp [hau, had, hbv]
      omega

theorem Holds.mem_nodes (h : Holds nodes edges done rest s) {v : α} (hv : v ∈ done ++ s.queue) :
    v ∈ nodes := by
  by_contra hn
  have hz := (h.zero v).mp hv
  rw [h.absent v hn] at hz
  simp at hz

theorem Holds.length_le (h : Holds nodes edges done rest s) :
    done.length + s.queue.length ≤ nodes.length := by
  rw [← length_append]
  exact h.distinct.length_le_of_subset fun v hv => h.mem_nodes hv

theorem relax_holds {v : α} (hv : v ∈ nodes) (h : Holds nodes edges done (v :: rest) s) :
    ∃ s', relax s v = some s' ∧ s'.acc = s.acc ∧ Holds nodes edges done rest s' := by
  have hdeg : s.inDegree v = some (waiting edges done v + rest.count v + 1) := by
    rw [h.degree v hv, count_cons_self]
    rfl
  have hfresh : v ∉ done ++ s.queue := by
    intro hmem
    have := (h.zero v).mp hmem
    rw [hdeg] at this
    simp at this
  set d := waiting edges done v + rest.count v with hd
  refine ⟨{ s with
    inDegree := update s.inDegree v (some d)
    queue := if d = 0 then s.queue ++ [v] else s.queue }, by rw [relax, hdeg], rfl, ?_⟩
  constructor
  · by_cases hd0 : d = 0
    · simp only [hd0, if_true]
      rw [← append_assoc, nodup_append]
      refine ⟨h.distinct, nodup_singleton v, ?_⟩
      intro a ha b hb hab
      rw [mem_singleton] at hb
      exact hfresh (hb ▸ hab ▸ ha)
    · simp only [hd0, if_false]
      exact h.distinct
  · intro w hw
    dsimp only
    by_cases hwv : w = v
    · subst hwv
      rw [update_self]
    · rw [update_of_ne hwv, h.degree w hw, count_cons_of_ne (Ne.symm hwv)]
  · intro w hw
    have hwv : w ≠ v := fun hwv => hw (hwv ▸ hv)
    dsimp only
    rw [update_of_ne hwv, h.absent w hw]
  · intro w
    dsimp only
    by_cases hwv : w = v
    · subst hwv
      rw [update_self]
      by_cases hd0 : d = 0
      · simp [hd0]
      · simpa [hd0] using hfresh
    · rw [update_of_ne hwv, ← h.zero w]
      by_cases hd0 : d = 0 <;> simp [hd0, hwv]
  · exact h.ordered

theorem relaxAll_holds (hrest : ∀ v ∈ rest, v ∈ nodes) (h : Holds nodes edges done rest s) :
    ∃ s', relaxAll s rest = some s' ∧ s'.acc = s.acc ∧ Holds nodes edges done [] s' := by
  induction rest generalizing s with
  | nil => exact ⟨s, rfl, rfl, h⟩
  | cons v rest ih =>
    obtain ⟨s1, hs1, hacc1, h1⟩ := relax_holds (hrest v (by simp)) h
    obtain ⟨s2, hs2, hacc2, h2⟩ := ih (fun w hw => hrest w (mem_cons_of_mem v hw)) h1
    exact ⟨s2, by rw [relaxAll, hs1, Option.bind_some, hs2], hacc2.trans hacc1, h2⟩

theorem Holds.ready {u : α} (h : Holds nodes edges done rest s) (hu : u ∈ s.queue) :
    ∀ w, (w, u) ∈ edges → w ∈ done := by
  have hmem : u ∈ done ++ s.queue := mem_append_right _ hu
  have hz := (h.zero u).mp hmem
  rw [h.degree u (h.mem_nodes hmem), Option.some.injEq] at hz
  exact waiting_eq_zero.mp (by omega)

theorem Holds.pop {u : α} {queue : List α} (h : Holds nodes edges done rest s)
    (hqueue : s.queue = u :: queue) (acc : β) :
    Holds nodes edges (done ++ [u]) (rest ++ (edges.filter fun e => e.1 = u).map Prod.snd)
      { s with queue := queue, acc := acc } := by
  have hdistinct := h.distinct
  rw [hqueue] at hdistinct
  have hu : u ∉ done := fun hmem =>
    (nodup_append.mp hdistinct).2.2 u hmem u (by simp) rfl
  constructor
  · simpa using hdistinct
  · intro v hv
    have hdegree := h.degree v hv
    rw [waiting_visit hu v] at hdegree
    rw [hdegree, count_append]
    congr 1
    omega
  · exact h.absent
  · intro v
    rw [← h.zero v, hqueue]
    simp
  · exact h.ordered.concat (h.ready (by rw [hqueue]; simp))

theorem Holds.popAll {degree : α → Option Nat} {level : List α} {acc : β}
    (h : Holds nodes edges done rest ⟨degree, level, acc⟩) :
    Holds nodes edges (done ++ level)
      (rest ++ level.flatMap fun u => (edges.filter fun e => e.1 = u).map Prod.snd)
      ⟨degree, [], acc⟩ := by
  induction level generalizing done rest with
  | nil => simpa using h
  | cons u level ih =>
    have hrest := ih (h.pop rfl acc)
    rw [append_assoc, append_assoc] at hrest
    exact hrest

theorem Holds.perm {degree : α → Option Nat} {queue queue' : List α} {acc : β}
    (h : Holds nodes edges done rest ⟨degree, queue, acc⟩) (hperm : queue'.Perm queue) :
    Holds nodes edges done rest ⟨degree, queue', acc⟩ where
  distinct := (hperm.append_left done).nodup_iff.mpr h.distinct
  degree := h.degree
  absent := h.absent
  zero v := (hperm.append_left done).mem_iff.trans (h.zero v)
  ordered := h.ordered

theorem Holds.mem_done (h : Holds nodes edges done [] s) (hqueue : s.queue = []) (v : α) :
    v ∈ done ↔ v ∈ nodes ∧ waiting edges done v = 0 := by
  have hzero := h.zero v
  rw [hqueue, append_nil] at hzero
  rw [hzero]
  constructor
  · intro hv
    have hnode : v ∈ nodes := h.mem_nodes ((h.zero v).mpr hv)
    rw [h.degree v hnode] at hv
    exact ⟨hnode, by simpa using hv⟩
  · rintro ⟨hnode, hv⟩
    rw [h.degree v hnode, hv]
    rfl

end Invariant

section Runs

variable {α β : Type} [DecidableEq α] {nodes : List α} {edges : List (α × α)}
  {adj : α → List α} {inDegree : α → Option Nat}
variable {arrange : List α → Option (List α)}

theorem mem_nodes_of_mem_adj (hrep : Represents nodes edges adj inDegree) {u v : α}
    (hv : v ∈ adj u) : (u, v) ∈ edges ∧ v ∈ nodes := by
  rw [hrep.adjacent u, mem_map] at hv
  obtain ⟨⟨a, b⟩, hab, rfl⟩ := hv
  rw [mem_filter, decide_eq_true_eq] at hab
  obtain ⟨hedge, rfl⟩ := hab
  exact ⟨hedge, hrep.target a b hedge⟩

theorem loop_holds (hrep : Represents nodes edges adj inDegree) (visit : β → α → β) (acc : β)
    (fuel : Nat) {done : List α} {s : State α β} (h : Holds nodes edges done [] s)
    (hacc : s.acc = done.foldl visit acc) (hfuel : nodes.length ≤ fuel + done.length) :
    ∃ order, loop adj visit fuel s = some (order.foldl visit acc) ∧ order.Nodup ∧
      Ordered edges order ∧ ∀ v, v ∈ order ↔ v ∈ nodes ∧ waiting edges order v = 0 := by
  have hlen := h.length_le
  have hstop : s.queue = [] → ∃ order, some s.acc = some (order.foldl visit acc) ∧
      order.Nodup ∧ Ordered edges order ∧
        ∀ v, v ∈ order ↔ v ∈ nodes ∧ waiting edges order v = 0 := fun hqueue =>
    ⟨done, by rw [hacc], by simpa [hqueue] using h.distinct, h.ordered, h.mem_done hqueue⟩
  induction fuel generalizing done s with
  | zero =>
    have hqueue : s.queue = [] := by
      rw [← length_eq_zero_iff]
      omega
    rw [loop, if_pos hqueue]
    exact hstop hqueue
  | succ fuel ih =>
    rw [loop]
    cases hqueue : s.queue with
    | nil => exact hstop hqueue
    | cons u rest =>
      have hpop := h.pop hqueue (visit s.acc u)
      rw [nil_append, ← hrep.adjacent u] at hpop
      obtain ⟨s', hs', hacc', h'⟩ :=
        relaxAll_holds (fun v hv => (mem_nodes_of_mem_adj hrep hv).2) hpop
      have hfold : s'.acc = (done ++ [u]).foldl visit acc := by
        rw [hacc', hacc, foldl_append]
        rfl
      simp only [hs', Option.bind_some]
      exact ih h' hfold (by simp; omega) h'.length_le fun hqueue' =>
        ⟨done ++ [u], by rw [hfold], by simpa [hqueue'] using h'.distinct, h'.ordered,
          h'.mem_done hqueue'⟩

/-- An ordered list that holds exactly the nodes that wait for nothing outside it holds exactly
the settled nodes. -/
theorem mem_iff_settled {order : List α} (hordered : Ordered edges order)
    (hmem : ∀ v, v ∈ order ↔ v ∈ nodes ∧ waiting edges order v = 0) (v : α) :
    v ∈ order ↔ Settled nodes edges v := by
  constructor
  · intro hv
    obtain ⟨pre, post, hsplit⟩ := append_of_mem hv
    induction hn : pre.length using Nat.strong_induction_on generalizing v pre post with
    | _ n ih =>
      refine Settled.intro ((hmem v).mp hv).1 fun u hu => ?_
      have hupre := hordered pre v post hsplit u hu
      obtain ⟨pre', post', hpre⟩ := append_of_mem hupre
      refine ih pre'.length ?_ u (by rw [hsplit]; exact mem_append_left _ hupre) pre'
        (post' ++ v :: post) (by rw [hsplit, hpre]; simp) rfl
      rw [← hn, hpre]
      simp
  · intro hv
    induction hv with
    | intro hnode _ ih => exact (hmem _).mpr ⟨hnode, waiting_eq_zero.mpr ih⟩

theorem start_holds (hrep : Represents nodes edges adj inDegree) {queue : List α}
    (hnodup : queue.Nodup) (hqueue : ∀ v, v ∈ queue ↔ inDegree v = some 0) (acc : β) :
    Holds nodes edges [] [] (⟨inDegree, queue, acc⟩ : State α β) where
  distinct := hnodup
  degree := hrep.degree
  absent := hrep.absent
  zero := hqueue
  ordered pre v post hsplit := by simp at hsplit

/-- The loop that starts with the nodes of in-degree zero, in any order, ends and has visited each
settled node once, after all that it waits for. -/
theorem loop_spec (hrep : Represents nodes edges adj inDegree) (visit : β → α → β) (acc : β)
    {queue : List α} (hnodup : queue.Nodup) (hqueue : ∀ v, v ∈ queue ↔ inDegree v = some 0)
    {fuel : Nat} (hfuel : nodes.length ≤ fuel) :
    ∃ order, loop adj visit fuel ⟨inDegree, queue, acc⟩ = some (order.foldl visit acc) ∧
      order.Nodup ∧ Ordered edges order ∧ ∀ v, v ∈ order ↔ Settled nodes edges v := by
  obtain ⟨order, hloop, hdistinct, hordered, hmem⟩ :=
    loop_holds hrep visit acc fuel (start_holds hrep hnodup hqueue acc) rfl (by simpa using hfuel)
  exact ⟨order, hloop, hdistinct, hordered, mem_iff_settled hordered hmem⟩

theorem relaxAll_queue {rest : List α} {s s' : State α β} (h : relaxAll s rest = some s') :
    ∀ v ∈ s'.queue, v ∈ s.queue ∨ v ∈ rest := by
  induction rest generalizing s with
  | nil =>
    cases h
    exact fun v hv => Or.inl hv
  | cons w rest ih =>
    rw [relaxAll, Option.bind_eq_some_iff] at h
    obtain ⟨s1, hs1, hrest⟩ := h
    have hqueue : ∀ v ∈ s1.queue, v ∈ s.queue ∨ v = w := by
      intro v hv
      unfold relax at hs1
      split at hs1
      · cases hs1
        exact Or.inl hv
      · cases hs1
      · cases hs1
        dsimp only at hv
        split_ifs at hv
        · simpa using hv
        · exact Or.inl hv
    intro v hv
    rcases ih hrest v hv with hv | hv
    · rcases hqueue v hv with hv | rfl
      · exact Or.inl hv
      · exact Or.inr (by simp)
    · exact Or.inr (mem_cons_of_mem w hv)

section

variable (hrep : Represents nodes edges adj inDegree)
  (harrange : ∀ l, (∀ v ∈ l, v ∈ nodes) → ∃ l', arrange l = some l' ∧ l'.Perm l)
include hrep harrange

theorem levels_holds (fuel : Nat)
    {degree : α → Option Nat} {done ready : List α} {last : Option (List α)}
    (h : Holds nodes edges done [] (⟨degree, ready, ()⟩ : State α Unit))
    (hlast : ∀ v ∈ ready, ∀ previous ∈ last, ∃ u ∈ previous, (u, v) ∈ edges)
    (hfuel : nodes.length ≤ fuel + done.length) :
    ∃ ls, levels adj arrange fuel degree ready = some ls ∧ (done ++ ls.flatten).Nodup ∧
      Ordered edges (done ++ ls.flatten) ∧ Layered edges done last ls ∧
      ∀ v, v ∈ done ++ ls.flatten ↔ v ∈ nodes ∧ waiting edges (done ++ ls.flatten) v = 0 := by
  induction fuel generalizing degree done ready last with
  | zero =>
    have hready : ready = [] := by
      have hlen := h.length_le
      rw [← length_eq_zero_iff]
      dsimp only at hlen
      omega
    subst hready
    have hdone : done ++ ([] : List (List α)).flatten = done := by simp
    refine ⟨[], by rw [levels], ?_⟩
    rw [hdone]
    exact ⟨by simpa using h.distinct, h.ordered, trivial, h.mem_done rfl⟩
  | succ fuel ih =>
    cases ready with
    | nil =>
      have hdone : done ++ ([] : List (List α)).flatten = done := by simp
      refine ⟨[], by rw [levels], ?_⟩
      rw [hdone]
      exact ⟨by simpa using h.distinct, h.ordered, trivial, h.mem_done rfl⟩
    | cons u ready =>
      obtain ⟨level, hlevel, hperm⟩ :=
        harrange (u :: ready) fun v hv => h.mem_nodes (mem_append_right done hv)
      have hpopped := (h.perm hperm).popAll
      have hadj : (fun u => (edges.filter fun e => e.1 = u).map Prod.snd) = adj :=
        funext fun u => (hrep.adjacent u).symm
      rw [nil_append, hadj] at hpopped
      obtain ⟨s, hs, -, hs'⟩ := relaxAll_holds (fun v hv => by
        obtain ⟨w, -, hw⟩ := mem_flatMap.mp hv
        exact (mem_nodes_of_mem_adj hrep hw).2) hpopped
      have hnext : ∀ v ∈ s.queue, ∀ previous ∈ some level, ∃ u ∈ previous, (u, v) ∈ edges := by
        rintro v hv previous ⟨⟩
        rcases relaxAll_queue hs v hv with hv | hv
        · simp at hv
        · obtain ⟨w, hw, hvw⟩ := mem_flatMap.mp hv
          exact ⟨w, hw, (mem_nodes_of_mem_adj hrep hvw).1⟩
      have hlen : level.length = ready.length + 1 := hperm.length_eq
      obtain ⟨ls, hls, hnodup, hordered, hlayered, hmem⟩ :=
        ih hs' hnext (by rw [length_append]; omega)
      rw [append_assoc] at hnodup hordered hmem
      refine ⟨level :: ls, ?_, hnodup, hordered, ⟨fun v hv => ?_, hlayered⟩, hmem⟩
      · rw [levels, hlevel, Option.bind_some, hs, Option.bind_some, hls, Option.map_some]
      · have hv' : v ∈ u :: ready := hperm.mem_iff.mp hv
        exact ⟨h.ready hv', hlast v hv'⟩

/-- The levels, each arranged in any order, hold each settled node once, one level after the last
of those that the node waits for. -/
theorem levels_spec {ready : List α}
    (hnodup : ready.Nodup) (hready : ∀ v, v ∈ ready ↔ inDegree v = some 0) {fuel : Nat}
    (hfuel : nodes.length ≤ fuel) :
    ∃ ls, levels adj arrange fuel inDegree ready = some ls ∧ ls.flatten.Nodup ∧
      Layered edges [] none ls ∧ ∀ v, v ∈ ls.flatten ↔ Settled nodes edges v := by
  obtain ⟨ls, hls, hdistinct, hordered, hlayered, hmem⟩ :=
    levels_holds hrep harrange fuel (start_holds hrep hnodup hready ())
      (fun _ _ previous (hnone : previous ∈ none) => nomatch hnone) (by simpa using hfuel)
  exact ⟨ls, hls, hdistinct, hlayered, mem_iff_settled hordered hmem⟩

end

end Runs

end Guestkit.Lib.Kahn
