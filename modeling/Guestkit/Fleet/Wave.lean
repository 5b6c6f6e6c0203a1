import Guestkit.Evidence.Snapshot
import Guestkit.Lib.Components
import Guestkit.Lib.HashMap
import Guestkit.Lib.Kahn
import Guestkit.Lib.Text

/-! Migration waves.  `planWaves` reads from the evidence of a fleet which images mount storage from
which others, visits the images in levels by Kahn's algorithm and groups the images that no level
reaches.  Each image lands in one wave or in one group; its wave is the one after the last wave of
its dependencies, and the groups hold the images whose dependencies lead to a cycle. -/

namespace Guestkit.Fleet

open Lib Lib.Text HashMap Relation Kahn List

def dbUnitHints : List String :=
  ["postgresql", "mysql", "mariadb", "mongod", "redis", "cassandra"]

inductive VmRole where
  | database
  | standard
  deriving DecidableEq

structure WaveMember where
  image : String
  hostname : String
  role : VmRole
  dependsOn : List String

structure MigrationWave where
  wave : Nat
  images : List String

structure WavePlan where
  members : List WaveMember
  waves : List MigrationWave
  cycles : List (List String)

structure FleetSnapshot where
  image : String
  evidence : EvidenceSnapshot
  score : Float

/-- A comparison that orders the elements of a list. -/
structure Consistent {α : Type} (cmp : α → α → Ordering) (l : List α) : Prop where
  swap : ∀ a ∈ l, ∀ b ∈ l, cmp b a = (cmp a b).swap
  trans : ∀ a ∈ l, ∀ b ∈ l, ∀ c ∈ l, (cmp a b).isLE → (cmp b c).isLE → (cmp a c).isLE

/-- What `sort_by` does.  A comparison that is not consistent, as one of scores that are not
numbers, leaves the order open. -/
structure SliceSort (α : Type) where
  sortBy : (α → α → Ordering) → List α → List α
  perm : ∀ cmp l, (sortBy cmp l).Perm l
  sorts : ∀ cmp l, Consistent cmp l → sortBy cmp l = l.mergeSort fun a b => (cmp a b).isLE

def SliceSort.stable (α : Type) : SliceSort α where
  sortBy cmp l := l.mergeSort fun a b => (cmp a b).isLE
  perm _ _ := mergeSort_perm _ _
  sorts _ _ _ := rfl

def partialCmp (a b : Float) : Option Ordering :=
  if a < b then some .lt else if a == b then some .eq else if b < a then some .gt else none

def partialCmpScores : Option Float → Option Float → Option Ordering
  | none, none => some .eq
  | none, some _ => some .lt
  | some _, none => some .gt
  | some a, some b => partialCmp a b

def detectRole (std : StdText) (ev : EvidenceSnapshot) : VmRole :=
  match ev.systemd with
  | none => .standard
  | some systemd =>
    if systemd.units.any fun u =>
        dbUnitHints.any fun hint => contains (std.toLowercase u.name) hint then .database
    else .standard

def addStorageDep (image : String) (hostnameToImage : HashMap String String) (deps : List String)
    (entry : FstabEntry) : List String :=
  if eqIgnoreAsciiCase entry.fstype "nfs" = false ∧
      eqIgnoreAsciiCase entry.fstype "nfs4" = false then deps
  else
    match splitOnce ':' entry.device with
    | none => deps
    | some (server, _export) =>
      match hostnameToImage.lookup server with
      | none => deps
      | some depImage =>
        if depImage ≠ image ∧ depImage ∉ deps then deps ++ [depImage] else deps

def detectStorageDeps (image : String) (ev : EvidenceSnapshot)
    (hostnameToImage : HashMap String String) : List String :=
  ev.storage.fstabEntries.foldl (addStorageDep image hostnameToImage) []

def hostnameToImage (snapshots : List FleetSnapshot) : HashMap String String :=
  collect ((snapshots.filter fun s => s.evidence.os.hostname ≠ "").map fun s =>
    (s.evidence.os.hostname, s.image))

def member (std : StdText) (hostnames : HashMap String String) (s : FleetSnapshot) : WaveMember :=
  { image := s.image
    hostname := s.evidence.os.hostname
    role := detectRole std s.evidence
    dependsOn := detectStorageDeps s.image s.evidence hostnames }

def compareImages (byImage : HashMap String WaveMember) (scores : HashMap String Float)
    (a b : String) : Ordering :=
  match byImage.lookup a, byImage.lookup b with
  | some ma, some mb =>
    match ma.role, mb.role with
    | .database, .standard => .lt
    | .standard, .database => .gt
    | _, _ => (partialCmpScores (scores.lookup b) (scores.lookup a)).getD .eq
  | _, _ => .eq

/-- Sorts a frontier.  An image without a member would be a panic. -/
def arrange (sort : SliceSort String) (byImage : HashMap String WaveMember)
    (scores : HashMap String Float) (frontier : List String) : Option (List String) :=
  if ∀ img ∈ frontier, img ∈ byImage then
    some (sort.sortBy (compareImages byImage scores) frontier)
  else none

variable (members : List WaveMember)

def dependents : HashMap String (List String) :=
  members.foldl (fun deps m => m.dependsOn.foldl (fun deps dep => deps.push dep m.image) deps) ∅

def inDegree : HashMap String Nat :=
  collect (members.map fun m => (m.image, m.dependsOn.length))

def byImage : HashMap String WaveMember :=
  collect (members.map fun m => (m.image, m))

def numbered (levels : List (List String)) : List MigrationWave :=
  levels.zipIdx.map fun (images, waveNum) => { wave := waveNum, images }

def topoWaves (sort : SliceSort String) (order : HashOrder String Nat) (members : List WaveMember)
    (scores : HashMap String Float) : Option (List MigrationWave) :=
  let frontier := order.keysOf (inDegree members) 0
  let dependentsOf img := ((dependents members).lookup img).getD []
  (levels dependentsOf (arrange sort (byImage members) scores) members.length
    (inDegree members).lookup frontier).map numbered

/-! ### Groups of images that no wave reaches -/

def adjacency (stuck : List WaveMember) (placed : List String) : HashMap String (List String) :=
  stuck.foldl (fun adj m => m.dependsOn.foldl (fun adj dep =>
    if dep ∈ placed then adj else (adj.push m.image dep).push dep m.image) adj) ∅

/-- The fuel of each search is one more than the length of all adjacency lists. -/
def findCycles (placed : List String) : Option (List (List String)) :=
  let stuck := members.filter fun m => m.image ∉ placed
  let images := stuck.map WaveMember.image
  let neighbors img := ((adjacency stuck placed).lookup img).getD []
  let fuel := (images.map fun img => (neighbors img).length).sum + 1
  (Components.components neighbors fuel images []).map fun components =>
    (components.map fun component => component.mergeSort (· ≤ ·)).mergeSort (· ≤ ·)

def planWaves (std : StdText) (sort : SliceSort String) (order : HashOrder String Nat)
    (snapshots : List FleetSnapshot) : Option WavePlan :=
  let members := snapshots.map (member std (hostnameToImage snapshots))
  let scores := collect (snapshots.map fun s => (s.image, s.score))
  (topoWaves sort order members scores).bind fun waves =>
    (findCycles members (waves.flatMap MigrationWave.images)).map fun cycles =>
      { members, waves, cycles }

/-! ### What a plan should say -/

/-- The image of the last snapshot with a hostname. -/
def imageOf (snapshots : List FleetSnapshot) (hostname : String) : Option String :=
  if hostname = "" then none
  else (snapshots.filter (·.evidence.os.hostname = hostname)).getLast?.map FleetSnapshot.image

/-- The entry of `a` for an NFS mount names a server that is the host of another image `b`. -/
def MountsFrom (snapshots : List FleetSnapshot) (a b : String) : Prop :=
  b ≠ a ∧ ∃ s ∈ snapshots, s.image = a ∧ ∃ entry ∈ s.evidence.storage.fstabEntries,
    (eqIgnoreAsciiCase entry.fstype "nfs" ∨ eqIgnoreAsciiCase entry.fstype "nfs4") ∧
      ∃ server path, splitOnce ':' entry.device = some (server, path) ∧
        imageOf snapshots server = some b

/-- Following dependencies from `image` leads to a cycle. -/
def ReachesCycle (dependsOn : String → String → Prop) (image : String) : Prop :=
  ∃ c, ReflTransGen dependsOn image c ∧ TransGen dependsOn c c

namespace WavePlan

def images (plan : WavePlan) : List String := plan.members.map WaveMember.image

def DependsOn (plan : WavePlan) (a b : String) : Prop :=
  ∃ m ∈ plan.members, m.image = a ∧ b ∈ m.dependsOn

def InWave (plan : WavePlan) (image : String) (n : Nat) : Prop :=
  ∃ w ∈ plan.waves, w.wave = n ∧ image ∈ w.images

/-- The waves and the cycle groups list each image once.  An image without dependencies is in wave
0, one with dependencies in the wave after the last of theirs, and the groups hold the images from
which a cycle is reached. -/
structure Sound (plan : WavePlan) : Prop where
  once : (plan.waves.flatMap MigrationWave.images ++ plan.cycles.flatten).Perm plan.images
  first : ∀ m ∈ plan.members, m.dependsOn = [] → ∀ n, plan.InWave m.image n → n = 0
  later : ∀ m ∈ plan.members, m.dependsOn ≠ [] → ∀ n, plan.InWave m.image n →
    (∀ d ∈ m.dependsOn, ∃ k, plan.InWave d k) ∧
    ∃ last, IsGreatest (fun k => ∃ d ∈ m.dependsOn, plan.InWave d k) last ∧ n = last + 1
  cyclic : ∀ image ∈ plan.images, image ∈ plan.cycles.flatten ↔ ReachesCycle plan.DependsOn image

end WavePlan

variable {hostnames : HashMap String String}

/-! ### The dependencies of the members are those of the fleet -/

theorem lookup_hostnameToImage (snapshots : List FleetSnapshot) (hostname : String) :
    (hostnameToImage snapshots).lookup hostname = imageOf snapshots hostname := by
  rw [hostnameToImage, lookup_collect_eq]
  induction snapshots using List.reverseRecOn with
  | nil => simp [imageOf]
  | append_singleton snapshots s ih =>
    unfold imageOf at *
    by_cases hempty : hostname = ""
    · subst hempty
      simp only [if_true] at ih ⊢
      by_cases hs : s.evidence.os.hostname = ""
      · simpa [filter_append, hs] using ih
      · simpa [filter_append, hs, lookup_cons, beq_false_of_ne (Ne.symm hs)] using ih
    · rw [if_neg hempty] at ih ⊢
      by_cases hs : s.evidence.os.hostname = hostname
      · simp [filter_append, hs, hempty]
      · by_cases hs' : s.evidence.os.hostname = ""
        · simpa [filter_append, hs', Ne.symm hempty] using ih
        · simpa [filter_append, hs, hs', lookup_cons, beq_false_of_ne (Ne.symm hs)] using ih

theorem mem_addStorageDep {image : String} {deps : List String} {entry : FstabEntry} {d : String} :
    d ∈ addStorageDep image hostnames deps entry ↔ d ∈ deps ∨ d ≠ image ∧
      (eqIgnoreAsciiCase entry.fstype "nfs" ∨ eqIgnoreAsciiCase entry.fstype "nfs4") ∧
        ∃ server path, splitOnce ':' entry.device = some (server, path) ∧
          hostnames.lookup server = some d := by
  unfold addStorageDep
  cases eqIgnoreAsciiCase entry.fstype "nfs" <;> cases eqIgnoreAsciiCase entry.fstype "nfs4" <;>
    simp only [and_self, Bool.true_eq_false, Bool.false_eq_true, false_and, and_false, if_true,
      if_false, or_false, or_true, true_and]
  all_goals
    cases hsplit : splitOnce ':' entry.device with
    | none => simp
    | some parts =>
      obtain ⟨server, path⟩ := parts
      dsimp only
      cases hserver : hostnames.lookup server with
      | none => simp [hserver]
      | some depImage =>
        have hother : (∃ server' path', some (server, path) = some (server', path') ∧
            hostnames.lookup server' = some d) ↔ depImage = d := by
          simp [hserver]
        rw [hother]
        dsimp only
        by_cases hnew : depImage ≠ image ∧ depImage ∉ deps
        · rw [if_pos hnew, mem_append, mem_singleton]
          grind
        · rw [if_neg hnew]
          grind

theorem mem_detectStorageDeps {image : String} {ev : EvidenceSnapshot} {d : String} :
    d ∈ detectStorageDeps image ev hostnames ↔ d ≠ image ∧ ∃ entry ∈ ev.storage.fstabEntries,
      (eqIgnoreAsciiCase entry.fstype "nfs" ∨ eqIgnoreAsciiCase entry.fstype "nfs4") ∧
        ∃ server path, splitOnce ':' entry.device = some (server, path) ∧
          hostnames.lookup server = some d := by
  unfold detectStorageDeps
  induction ev.storage.fstabEntries using List.reverseRecOn with
  | nil => simp
  | append_singleton entries entry ih =>
    rw [foldl_append, foldl_cons, foldl_nil, mem_addStorageDep, ih]
    rw [← and_or_left]
    refine and_congr_right fun _ => ⟨?_, ?_⟩
    · rintro (⟨e, he, hfound⟩ | hfound)
      · exact ⟨e, mem_append_left _ he, hfound⟩
      · exact ⟨entry, mem_append_right _ (mem_singleton.mpr rfl), hfound⟩
    · rintro ⟨e, he, hfound⟩
      rcases mem_append.mp he with he | he
      · exact Or.inl ⟨e, he, hfound⟩
      · exact Or.inr (mem_singleton.mp he ▸ hfound)

/-- The dependencies that the planner finds are the mounts between images of the fleet. -/
theorem dependsOn_eq_mountsFrom (std : StdText) (snapshots : List FleetSnapshot)
    (waves : List MigrationWave) (cycles : List (List String)) :
    (WavePlan.mk (snapshots.map (member std (hostnameToImage snapshots))) waves cycles).DependsOn =
      MountsFrom snapshots := by
  funext a b
  simp only [WavePlan.DependsOn, mem_map, exists_exists_and_eq_and, member, mem_detectStorageDeps,
    lookup_hostnameToImage, MountsFrom]
  refine propext ⟨?_, ?_⟩
  · rintro ⟨s, hs, rfl, hne, hentry⟩
    exact ⟨hne, s, hs, rfl, hentry⟩
  · rintro ⟨hne, s, hs, rfl, hentry⟩
    exact ⟨s, hs, rfl, hne, hentry⟩

/-- Members with distinct images whose dependencies are images of members. -/
structure WellFormed (members : List WaveMember) : Prop where
  distinct : (members.map WaveMember.image).Nodup
  known : ∀ m ∈ members, ∀ d ∈ m.dependsOn, d ∈ members.map WaveMember.image

theorem images_members (std : StdText) (snapshots : List FleetSnapshot) :
    (snapshots.map (member std (hostnameToImage snapshots))).map WaveMember.image =
      snapshots.map FleetSnapshot.image := by
  rw [List.map_map]
  rfl

theorem wellFormed_members (std : StdText) {snapshots : List FleetSnapshot}
    (hdistinct : (snapshots.map FleetSnapshot.image).Nodup) :
    WellFormed (snapshots.map (member std (hostnameToImage snapshots))) := by
  constructor
  · rw [images_members]
    exact hdistinct
  · intro m hm d hd
    obtain ⟨s, -, rfl⟩ := mem_map.mp hm
    obtain ⟨-, -, -, -, server, -, -, hserver⟩ := mem_detectStorageDeps.mp hd
    obtain ⟨s', hs', heq⟩ := mem_map.mp (mem_of_lookup_collect hserver)
    cases heq
    rw [images_members]
    exact mem_map_of_mem (mem_of_mem_filter hs')

/-! ### The graph of the members -/

def edges : List (String × String) :=
  members.flatMap fun m => m.dependsOn.map fun dep => (dep, m.image)

section Graph

variable {members : List WaveMember}

theorem mem_edges {d image : String} :
    (d, image) ∈ edges members ↔ ∃ m ∈ members, m.image = image ∧ d ∈ m.dependsOn := by
  simp only [edges, mem_flatMap, mem_map, Prod.mk.injEq]
  constructor
  · rintro ⟨m, hm, _, hd, rfl, rfl⟩
    exact ⟨m, hm, rfl, hd⟩
  · rintro ⟨m, hm, rfl, hd⟩
    exact ⟨m, hm, d, hd, rfl, rfl⟩

theorem WellFormed.mem_edges_iff (h : WellFormed members) {m : WaveMember} (hm : m ∈ members)
    {d : String} : (d, m.image) ∈ edges members ↔ d ∈ m.dependsOn := by
  rw [mem_edges]
  constructor
  · rintro ⟨m', hm', himage, hd⟩
    rwa [inj_on_of_nodup_map h.distinct hm' hm himage] at hd
  · intro hd
    exact ⟨m, hm, rfl, hd⟩

theorem dependents_eq (members : List WaveMember) :
    dependents members = (edges members).foldl (fun deps e => deps.push e.1 e.2) ∅ := by
  simp only [dependents, edges, foldl_flatMap, foldl_map]

theorem countP_edges_eq_zero {image : String} (h : image ∉ members.map WaveMember.image) :
    (edges members).countP (fun e => e.2 = image ∧ e.1 ∉ ([] : List String)) = 0 := by
  rw [countP_eq_zero]
  rintro ⟨d, _⟩ he
  obtain ⟨m, hm, rfl, -⟩ := mem_edges.mp he
  simp only [not_mem_nil, not_false_eq_true, and_true, decide_eq_true_eq]
  rintro rfl
  exact h (mem_map_of_mem hm)

theorem WellFormed.waiting_eq (h : WellFormed members) {m : WaveMember} (hm : m ∈ members) :
    waiting (edges members) [] m.image = m.dependsOn.length := by
  obtain ⟨pre, post, rfl⟩ := append_of_mem hm
  have hdistinct := h.distinct
  rw [map_append, map_cons, nodup_middle, nodup_cons, mem_append,
    not_or] at hdistinct
  have hsplit : edges (pre ++ m :: post) =
      edges pre ++ (m.dependsOn.map (fun dep => (dep, m.image)) ++ edges post) := by
    simp [edges]
  rw [waiting, hsplit, countP_append, countP_append,
    countP_edges_eq_zero hdistinct.1.1, countP_edges_eq_zero hdistinct.1.2]
  simp

theorem WellFormed.represents (h : WellFormed members) :
    Represents (members.map WaveMember.image) (edges members)
      (fun img => ((dependents members).lookup img).getD []) (inDegree members).lookup where
  target u v huv := by
    obtain ⟨m, hm, rfl, -⟩ := mem_edges.mp huv
    exact mem_map_of_mem hm
  adjacent u := by
    rw [dependents_eq, lookup_foldl_push]
    rfl
  degree v hv := by
    obtain ⟨m, hm, rfl⟩ := mem_map.mp hv
    have hmem : (m.image, m.dependsOn.length) ∈
        members.map fun m => (m.image, m.dependsOn.length) := mem_map.mpr ⟨m, hm, rfl⟩
    rw [h.waiting_eq hm]
    exact lookup_collect (by rw [List.map_map]; exact h.distinct) hmem
  absent v hv := lookup_collect_eq_none.mpr (by rw [List.map_map]; exact hv)

theorem WellFormed.source (h : WellFormed members) :
    ∀ u v, (u, v) ∈ edges members → u ∈ members.map WaveMember.image := by
  intro u v huv
  obtain ⟨m, hm, -, hu⟩ := mem_edges.mp huv
  exact h.known m hm u hu

theorem WellFormed.arrange_perm (h : WellFormed members) (sort : SliceSort String)
    (scores : HashMap String Float) (frontier : List String)
    (hfrontier : ∀ img ∈ frontier, img ∈ members.map WaveMember.image) :
    ∃ l, arrange sort (byImage members) scores frontier = some l ∧ l.Perm frontier := by
  refine ⟨_, if_pos fun img himg => ?_, sort.perm _ _⟩
  obtain ⟨m, hm, rfl⟩ := mem_map.mp (hfrontier img himg)
  have hmem : (m.image, m) ∈ members.map fun m => (m.image, m) :=
    mem_map.mpr ⟨m, hm, rfl⟩
  have hlookup : (byImage members).lookup m.image = some m :=
    lookup_collect (by rw [List.map_map]; exact h.distinct) hmem
  rw [← AList.lookup_isSome, hlookup]
  rfl

end Graph

/-! ### The waves hold what can be settled, level by level -/

section Waves

variable {members : List WaveMember}

theorem numbered_images (levels : List (List String)) :
    (numbered levels).flatMap MigrationWave.images = levels.flatten := by
  rw [numbered, flatMap_map, ← zipIdx_map_fst 0 levels, flatten_eq_flatMap,
    flatMap_map]
  simp

theorem mem_numbered {levels : List (List String)} {image : String} {n : Nat} :
    (∃ w ∈ numbered levels, w.wave = n ∧ image ∈ w.images) ↔
      ∃ level, levels[n]? = some level ∧ image ∈ level := by
  simp only [numbered, mem_map, Prod.exists, mem_zipIdx_iff_getElem?]
  constructor
  · rintro ⟨_, ⟨level, n, hlevel, rfl⟩, rfl, himage⟩
    exact ⟨level, hlevel, himage⟩
  · rintro ⟨level, hlevel, himage⟩
    exact ⟨_, ⟨level, n, hlevel, rfl⟩, rfl, himage⟩

theorem level_unique {levels : List (List String)} (hnodup : levels.flatten.Nodup) {image : String}
    {i j : Nat} {li lj : List String} (hi : levels[i]? = some li) (hj : levels[j]? = some lj)
    (himage : image ∈ li) (himage' : image ∈ lj) : i = j := by
  have hpairwise := (nodup_flatten.mp hnodup).2
  rw [pairwise_iff_getElem] at hpairwise
  obtain ⟨hi', rfl⟩ := List.getElem?_eq_some_iff.mp hi
  obtain ⟨hj', rfl⟩ := List.getElem?_eq_some_iff.mp hj
  by_contra hne
  rcases Nat.lt_or_gt_of_ne hne with hlt | hlt
  · exact hpairwise i j hi' hj' hlt himage himage'
  · exact hpairwise j i hj' hi' hlt himage' himage

theorem WellFormed.topoWaves_eq (h : WellFormed members) (sort : SliceSort String)
    (order : HashOrder String Nat) (scores : HashMap String Float) :
    ∃ levels, topoWaves sort order members scores = some (numbered levels) ∧
      levels.flatten.Nodup ∧ Layered (edges members) [] none levels ∧
      ∀ image, image ∈ levels.flatten ↔
        Settled (members.map WaveMember.image) (edges members) image := by
  obtain ⟨levels, hlevels, hnodup, hlayered, hsettled⟩ :=
    levels_spec h.represents (h.arrange_perm sort scores)
      (order.nodup_keysOf (inDegree members) 0) (fun v => order.mem_keysOf (inDegree members))
      (show (members.map WaveMember.image).length ≤ members.length by rw [length_map])
  exact ⟨levels, by rw [topoWaves, hlevels]; rfl, hnodup, hlayered, hsettled⟩

end Waves

/-! ### The groups split what is left -/

section Cycles

variable {members : List WaveMember} {placed : List String}
variable {a b : String}

/-- Both directions of the dependencies between members that are not placed. -/
def stuckEdges (members : List WaveMember) (placed : List String) : List (String × String) :=
  members.flatMap fun m => (m.dependsOn.filter (· ∉ placed)).flatMap fun dep =>
    [(m.image, dep), (dep, m.image)]

theorem foldl_adjacency (m : WaveMember) (deps : List String) (adj : HashMap String (List String)) :
    deps.foldl (fun adj dep =>
        if dep ∈ placed then adj else (adj.push m.image dep).push dep m.image) adj =
      ((deps.filter (· ∉ placed)).flatMap fun dep => [(m.image, dep), (dep, m.image)]).foldl
        (fun adj e => adj.push e.1 e.2) adj := by
  induction deps generalizing adj with
  | nil => rfl
  | cons dep deps ih =>
    rw [foldl_cons, ih]
    by_cases hdep : dep ∈ placed <;> simp [hdep]

theorem adjacency_eq (stuck : List WaveMember) (placed : List String) :
    adjacency stuck placed =
      (stuckEdges stuck placed).foldl (fun adj e => adj.push e.1 e.2) ∅ := by
  simp only [adjacency, stuckEdges, foldl_adjacency, foldl_flatMap]

theorem mem_stuckEdges {stuck : List WaveMember} :
    (a, b) ∈ stuckEdges stuck placed ↔ ∃ m ∈ stuck, ∃ dep ∈ m.dependsOn, dep ∉ placed ∧
      ((a = m.image ∧ b = dep) ∨ (a = dep ∧ b = m.image)) := by
  simp only [stuckEdges, mem_flatMap, mem_filter, decide_eq_true_eq, mem_cons,
    not_mem_nil, or_false, Prod.mk.injEq, and_assoc]

theorem mem_neighbors {stuck : List WaveMember} :
    b ∈ ((adjacency stuck placed).lookup a).getD [] ↔ (a, b) ∈ stuckEdges stuck placed := by
  rw [adjacency_eq, lookup_foldl_push]
  simp only [AList.lookup_empty, Option.getD_none, nil_append, mem_map,
    mem_filter, decide_eq_true_eq]
  constructor
  · rintro ⟨⟨_, _⟩, ⟨he, rfl⟩, rfl⟩
    exact he
  · intro he
    exact ⟨(a, b), ⟨he, rfl⟩, rfl⟩

theorem WellFormed.symmetric (h : WellFormed members) (placed : List String) :
    Components.Symmetric
      (fun img =>
        ((adjacency (members.filter fun m => m.image ∉ placed) placed).lookup img).getD [])
      ((members.filter fun m => m.image ∉ placed).map WaveMember.image) where
  nodup := h.distinct.sublist (filter_sublist.map _)
  closed u _ v hv := by
    rw [mem_neighbors, mem_stuckEdges] at hv
    obtain ⟨m, hm, dep, hdep, hplaced, ⟨-, rfl⟩ | ⟨-, rfl⟩⟩ := hv
    · obtain ⟨m', hm', rfl⟩ := mem_map.mp (h.known m (mem_of_mem_filter hm) v hdep)
      exact mem_map_of_mem (mem_filter.mpr ⟨hm', by simpa using hplaced⟩)
    · exact mem_map_of_mem hm
  symm u v hv := by
    rw [mem_neighbors, mem_stuckEdges] at hv ⊢
    obtain ⟨m, hm, dep, hdep, hplaced, hends⟩ := hv
    exact ⟨m, hm, dep, hdep, hplaced, hends.symm.imp And.symm And.symm⟩

theorem stuck_images (members : List WaveMember) (placed : List String) :
    (members.filter fun m => m.image ∉ placed).map WaveMember.image =
      (members.map WaveMember.image).filter (· ∉ placed) := by
  rw [filter_map]
  rfl

def Linked (members : List WaveMember) (placed : List String) (a b : String) : Prop :=
  (a ∉ placed ∧ b ∉ placed) ∧
    ∃ m ∈ members, (m.image = a ∧ b ∈ m.dependsOn) ∨ (m.image = b ∧ a ∈ m.dependsOn)

theorem mem_neighbors_iff_linked :
    b ∈ ((adjacency (members.filter fun m => m.image ∉ placed) placed).lookup a).getD [] ↔
      Linked members placed a b := by
  rw [mem_neighbors, mem_stuckEdges]
  constructor
  · rintro ⟨m, hm, dep, hdep, hplaced, hends⟩
    rw [mem_filter, decide_eq_true_eq] at hm
    rcases hends with ⟨rfl, rfl⟩ | ⟨rfl, rfl⟩
    · exact ⟨⟨hm.2, hplaced⟩, m, hm.1, Or.inl ⟨rfl, hdep⟩⟩
    · exact ⟨⟨hplaced, hm.2⟩, m, hm.1, Or.inr ⟨rfl, hdep⟩⟩
  · rintro ⟨⟨ha, hb⟩, m, hm, ⟨rfl, hdep⟩ | ⟨rfl, hdep⟩⟩
    · exact ⟨m, mem_filter.mpr ⟨hm, by simpa using ha⟩, b, hdep, hb, Or.inl ⟨rfl, rfl⟩⟩
    · exact ⟨m, mem_filter.mpr ⟨hm, by simpa using hb⟩, a, hdep, ha, Or.inr ⟨rfl, rfl⟩⟩

/-- The groups hold the images that are not placed, each once, and each group all those that are
linked to it through others. -/
theorem WellFormed.findCycles_eq (h : WellFormed members) (placed : List String) :
    ∃ cycles, findCycles members placed = some cycles ∧
      cycles.flatten.Perm ((members.map WaveMember.image).filter (· ∉ placed)) ∧
      ∀ group ∈ cycles, ∀ a ∈ group, ∀ b,
        b ∈ group ↔ ReflTransGen (Linked members placed) a b := by
  obtain ⟨components, hcomponents, hperm, hclass⟩ :=
    Components.components_spec (h.symmetric placed) (Nat.lt_succ_self _)
  rw [stuck_images] at hperm
  refine ⟨_, by rw [findCycles, hcomponents]; rfl, ?_, ?_⟩
  · refine ((mergeSort_perm _ _).flatten).trans (List.Perm.trans ?_ hperm)
    refine List.Perm.flatten_congr ?_
    rw [forall₂_map_left_iff]
    exact forall₂_same.mpr fun component _ => mergeSort_perm _ _
  · intro group hgroup a ha b
    rw [(mergeSort_perm _ _).mem_iff] at hgroup
    obtain ⟨component, hcomponent, rfl⟩ := mem_map.mp hgroup
    rw [(mergeSort_perm _ _).mem_iff] at ha ⊢
    have hlinked := hclass component hcomponent a ha b
    simp only [Components.Connected, mem_neighbors_iff_linked] at hlinked
    exact hlinked

end Cycles

section Plans

variable {members : List WaveMember} {levels : List (List String)} {cycles : List (List String)}
variable {m : WaveMember} {level : List String}

theorem WellFormed.reachesCycle_iff (h : WellFormed members) (waves : List MigrationWave)
    {image : String} (himage : image ∈ members.map WaveMember.image) :
    ReachesCycle (WavePlan.mk members waves cycles).DependsOn image ↔
      ¬Settled (members.map WaveMember.image) (edges members) image := by
  have hswap : (WavePlan.mk members waves cycles).DependsOn =
      Function.swap fun a b => (a, b) ∈ edges members := by
    funext a b
    exact propext mem_edges.symm
  rw [settled_iff_not_cycle h.source himage, ReachesCycle, hswap]
  constructor
  · rintro ⟨c, hreach, hcycle⟩ hno
    exact hno c (reflTransGen_swap.mp hreach) (transGen_swap.mp hcycle)
  · intro hno
    push Not at hno
    obtain ⟨c, hreach, hcycle⟩ := hno
    exact ⟨c, reflTransGen_swap.mpr hreach, transGen_swap.mpr hcycle⟩

section

variable (h : WellFormed members) (hlayered : Layered (edges members) [] none levels)
  (hm : m ∈ members)
include h hlayered hm

theorem WellFormed.first_level
    (hdeps : m.dependsOn = []) {n : Nat} (hn : levels[n]? = some level) (himage : m.image ∈ level) :
    n = 0 := by
  cases n with
  | zero => rfl
  | succ n =>
    obtain ⟨d, _, -, -, hedge⟩ := hlayered.previous hn himage
    rw [h.mem_edges_iff hm, hdeps] at hedge
    exact absurd hedge not_mem_nil

theorem WellFormed.earlier_level {n : Nat}
    (hn : levels[n]? = some level) (himage : m.image ∈ level) {d : String} (hd : d ∈ m.dependsOn) :
    ∃ k earlier, k < n ∧ levels[k]? = some earlier ∧ d ∈ earlier :=
  (hlayered.before hn himage ((h.mem_edges_iff hm).mpr hd)).resolve_left not_mem_nil

end

theorem WellFormed.later_level (h : WellFormed members) (hnodup : levels.flatten.Nodup)
    (hlayered : Layered (edges members) [] none levels) (hm : m ∈ members)
    (hdeps : m.dependsOn ≠ []) {n : Nat} (hn : levels[n]? = some level) (himage : m.image ∈ level) :
    ∃ last, IsGreatest (fun k => ∃ d ∈ m.dependsOn, ∃ l, levels[k]? = some l ∧ d ∈ l) last ∧
      n = last + 1 := by
  cases n with
  | zero =>
    obtain ⟨d, hd⟩ := exists_mem_of_ne_nil _ hdeps
    obtain ⟨k, _, hk, -⟩ := h.earlier_level hlayered hm hn himage hd
    exact absurd hk (Nat.not_lt_zero k)
  | succ n =>
    obtain ⟨d, earlier, hearlier, hd, hedge⟩ := hlayered.previous hn himage
    refine ⟨n, ⟨⟨d, (h.mem_edges_iff hm).mp hedge, earlier, hearlier, hd⟩, ?_⟩, rfl⟩
    rintro k ⟨d', hd', l, hl, hmem⟩
    obtain ⟨k', l', hk', hl', hmem'⟩ := h.earlier_level hlayered hm hn himage hd'
    rw [level_unique hnodup hl hl' hmem hmem']
    omega

section Fleets

variable (std : StdText) (sort : SliceSort String) (order : HashOrder String Nat)
  {snapshots : List FleetSnapshot} (hdistinct : (snapshots.map FleetSnapshot.image).Nodup)
include hdistinct

theorem planWaves_eq :
    let members := snapshots.map (member std (hostnameToImage snapshots))
    ∃ levels cycles, planWaves std sort order snapshots = some ⟨members, numbered levels, cycles⟩ ∧
      levels.flatten.Nodup ∧ Layered (edges members) [] none levels ∧
      (∀ image, image ∈ levels.flatten ↔
        Settled (members.map WaveMember.image) (edges members) image) ∧
      cycles.flatten.Perm ((members.map WaveMember.image).filter (· ∉ levels.flatten)) ∧
      ∀ group ∈ cycles, ∀ a ∈ group, ∀ b,
        b ∈ group ↔ ReflTransGen (Linked members levels.flatten) a b := by
  intro members
  have h : WellFormed members := wellFormed_members std hdistinct
  obtain ⟨levels, hwaves, hnodup, hlayered, hsettled⟩ := h.topoWaves_eq sort order
    (collect (snapshots.map fun s => (s.image, s.score)))
  obtain ⟨cycles, hcycles, hperm, hgroups⟩ :=
    h.findCycles_eq ((numbered levels).flatMap MigrationWave.images)
  rw [numbered_images] at hperm hgroups
  refine ⟨levels, cycles, ?_, hnodup, hlayered, hsettled, hperm, hgroups⟩
  rw [planWaves, hwaves, Option.bind_some, hcycles, Option.map_some]

/-- For every fleet of distinct images and every iteration order, the planner ends with a plan whose
dependencies are the mounts between images and which places each image once, at its level or in a
group of those that lead to a cycle. -/
theorem planWaves_sound :
    ∃ plan, planWaves std sort order snapshots = some plan ∧
      plan.images = snapshots.map FleetSnapshot.image ∧
      (∀ a b, plan.DependsOn a b ↔ MountsFrom snapshots a b) ∧ plan.Sound := by
  have h := wellFormed_members std hdistinct
  obtain ⟨levels, cycles, hplan, hnodup, hlayered, hsettled, hperm, -⟩ :=
    planWaves_eq std sort order hdistinct
  refine ⟨_, hplan, images_members std snapshots, fun a b => by rw [dependsOn_eq_mountsFrom], ?_⟩
  generalize snapshots.map (member std (hostnameToImage snapshots)) = members at *
  have hmem : ∀ image, image ∈ cycles.flatten ↔
      image ∈ members.map WaveMember.image ∧ image ∉ levels.flatten := by
    intro image
    rw [hperm.mem_iff, mem_filter, decide_eq_true_eq]
  have hlevel : ∀ image n, (WavePlan.mk members (numbered levels) cycles).InWave image n ↔
      ∃ level, levels[n]? = some level ∧ image ∈ level := fun image n => mem_numbered
  constructor
  · have hsplit : (levels.flatten ++ cycles.flatten).Nodup := by
      rw [nodup_append]
      refine ⟨hnodup, hperm.nodup_iff.mpr (h.distinct.filter _), ?_⟩
      rintro a ha b hb rfl
      exact ((hmem a).mp hb).2 ha
    rw [numbered_images]
    refine (perm_ext_iff_of_nodup hsplit h.distinct).mpr fun image => ?_
    rw [mem_append, hmem]
    constructor
    · rintro (himage | himage)
      · exact ((hsettled image).mp himage).mem
      · exact himage.1
    · intro himage
      by_cases hplaced : image ∈ levels.flatten
      · exact Or.inl hplaced
      · exact Or.inr ⟨himage, hplaced⟩
  · intro m hm hdeps n hn
    obtain ⟨level, hlevel, himage⟩ := (hlevel _ n).mp hn
    exact h.first_level hlayered hm hdeps hlevel himage
  · intro m hm hdeps n hn
    simp only [hlevel] at hn ⊢
    obtain ⟨level, hlevel, himage⟩ := hn
    refine ⟨fun d hd => ?_, h.later_level hnodup hlayered hm hdeps hlevel himage⟩
    obtain ⟨k, earlier, -, hearlier, hd'⟩ := h.earlier_level hlayered hm hlevel himage hd
    exact ⟨k, earlier, hearlier, hd'⟩
  · intro image himage
    rw [hmem, h.reachesCycle_iff (numbered levels) himage, ← hsettled]
    exact and_iff_right himage

/-- Two images are in a group when mounts link them without an image that no cycle is reached
from. -/
def LinkedInCycles (snapshots : List FleetSnapshot) (a b : String) : Prop :=
  (ReachesCycle (MountsFrom snapshots) a ∧ ReachesCycle (MountsFrom snapshots) b) ∧
    (MountsFrom snapshots a b ∨ MountsFrom snapshots b a)

/-- Each image from which a cycle is reached is in a group, with what links to it. -/
theorem planWaves_groups :
    ∃ plan, planWaves std sort order snapshots = some plan ∧
      (∀ a ∈ plan.cycles.flatten, ReachesCycle (MountsFrom snapshots) a) ∧
      ∀ a, ReachesCycle (MountsFrom snapshots) a →
        ∃ group ∈ plan.cycles, ∀ b, b ∈ group ↔ ReflTransGen (LinkedInCycles snapshots) a b := by
  have h := wellFormed_members std hdistinct
  obtain ⟨levels, cycles, hplan, -, -, hsettled, hperm, hgroups⟩ :=
    planWaves_eq std sort order hdistinct
  set members := snapshots.map (member std (hostnameToImage snapshots)) with hmembers
  have hdeps := dependsOn_eq_mountsFrom std snapshots (numbered levels) cycles
  rw [← hmembers] at hdeps
  have hstuck : ∀ a ∈ members.map WaveMember.image,
      a ∉ levels.flatten ↔ ReachesCycle (MountsFrom snapshots) a := by
    intro a ha
    rw [hsettled, ← hdeps, h.reachesCycle_iff (numbered levels) ha]
  have hends : ∀ a b, MountsFrom snapshots a b →
      a ∈ members.map WaveMember.image ∧ b ∈ members.map WaveMember.image := by
    intro a b hab
    rw [← hdeps] at hab
    obtain ⟨m, hm, rfl, hb⟩ := hab
    exact ⟨mem_map_of_mem hm, h.known m hm b hb⟩
  have hlinked : Linked members levels.flatten = LinkedInCycles snapshots := by
    funext a b
    have hedge : (∃ m ∈ members, (m.image = a ∧ b ∈ m.dependsOn) ∨ m.image = b ∧ a ∈ m.dependsOn) ↔
        MountsFrom snapshots a b ∨ MountsFrom snapshots b a := by
      simp only [← hdeps, WavePlan.DependsOn, ← exists_or, ← and_or_left]
    rw [Linked, LinkedInCycles, hedge]
    refine propext (and_congr_left ?_)
    rintro (hab | hba)
    · rw [hstuck a (hends a b hab).1, hstuck b (hends a b hab).2]
    · rw [hstuck a (hends b a hba).2, hstuck b (hends b a hba).1]
  rw [hlinked] at hgroups
  refine ⟨_, hplan, fun a ha => ?_, fun a hcycle => ?_⟩
  · obtain ⟨hmem, hplaced⟩ := mem_filter.mp (hperm.mem_iff.mp ha)
    exact (hstuck a hmem).mp (of_decide_eq_true hplaced)
  · have ha : a ∈ members.map WaveMember.image := by
      obtain ⟨c, hreach, hloop⟩ := hcycle
      obtain ⟨b, hab, -⟩ := TransGen.head'_iff.mp (TransGen.trans_right hreach hloop)
      exact (hends a b hab).1
    have hleft : a ∈ cycles.flatten :=
      hperm.mem_iff.mpr (mem_filter.mpr ⟨ha, decide_eq_true ((hstuck a ha).mpr hcycle)⟩)
    obtain ⟨group, hgroup, hmem⟩ := mem_flatten.mp hleft
    exact ⟨group, hgroup, hgroups group hgroup a hmem⟩

end Fleets

def webAndStore : List FleetSnapshot :=
  [{ image := "web.qcow2"
     evidence :=
      { os := { hostname := "web" }
        storage := { fstabEntries := [⟨"store:/srv", "/srv", "nfs4", "defaults"⟩] } }
     score := 90 },
   { image := "store.qcow2", evidence := { os := { hostname := "store" } }, score := 70 }]

theorem webAndStore_sound :
    ∃ plan, planWaves StdText.ascii (SliceSort.stable String) HashOrder.newestFirst webAndStore =
      some plan ∧ plan.images = ["web.qcow2", "store.qcow2"] ∧
      plan.DependsOn "web.qcow2" "store.qcow2" ∧ plan.Sound := by
  obtain ⟨plan, hplan, himages, hdeps, hsound⟩ :=
    planWaves_sound StdText.ascii (SliceSort.stable String) HashOrder.newestFirst
      (show (webAndStore.map FleetSnapshot.image).Nodup by decide)
  refine ⟨plan, hplan, himages, (hdeps _ _).mpr ⟨by decide, _, mem_cons_self, rfl, _, mem_cons_self,
    Or.inr (by simp [eqIgnoreAsciiCase]), "store", "/srv", by decide, by decide⟩, hsound⟩

def mounting (image hostname server : String) : FleetSnapshot where
  image := image
  evidence :=
    { os := { hostname }
      storage := { fstabEntries := [⟨server ++ ":/srv", "/srv", "nfs4", "defaults"⟩] } }
  score := 90

/-- `a` and `b` mount from each other, `c` from `a`. -/
def mutualFleet : List FleetSnapshot :=
  [mounting "a.qcow2" "a" "b", mounting "b.qcow2" "b" "a", mounting "c.qcow2" "c" "a"]

theorem mutualFleet_group :
    ∃ plan, planWaves .ascii (.stable _) .newestFirst mutualFleet = some plan ∧
      ∃ group ∈ plan.cycles, "a.qcow2" ∈ group ∧ "b.qcow2" ∈ group ∧ "c.qcow2" ∈ group := by
  have hnfs : eqIgnoreAsciiCase "nfs4" "nfs4" := by simp [eqIgnoreAsciiCase]
  have hab : MountsFrom mutualFleet "a.qcow2" "b.qcow2" :=
    ⟨by decide, mutualFleet[0], by simp [mutualFleet], rfl, _, mem_cons_self, Or.inr hnfs,
      "b", "/srv", by decide, by decide⟩
  have hba : MountsFrom mutualFleet "b.qcow2" "a.qcow2" :=
    ⟨by decide, mutualFleet[1], by simp [mutualFleet], rfl, _, mem_cons_self, Or.inr hnfs,
      "a", "/srv", by decide, by decide⟩
  have hca : MountsFrom mutualFleet "c.qcow2" "a.qcow2" :=
    ⟨by decide, mutualFleet[2], by simp [mutualFleet], rfl, _, mem_cons_self, Or.inr hnfs,
      "a", "/srv", by decide, by decide⟩
  have ha : ReachesCycle (MountsFrom mutualFleet) "a.qcow2" := ⟨_, .refl, .tail (.single hab) hba⟩
  have hb : ReachesCycle (MountsFrom mutualFleet) "b.qcow2" := ⟨_, .refl, .tail (.single hba) hab⟩
  have hc : ReachesCycle (MountsFrom mutualFleet) "c.qcow2" :=
    ⟨_, .single hca, .tail (.single hab) hba⟩
  obtain ⟨plan, hplan, -, hgroups⟩ := planWaves_groups .ascii (.stable _) .newestFirst
    (show (mutualFleet.map FleetSnapshot.image).Nodup by decide)
  obtain ⟨group, hgroup, hmem⟩ := hgroups "a.qcow2" ha
  exact ⟨plan, hplan, group, hgroup, (hmem _).mpr .refl,
    (hmem _).mpr (.single ⟨⟨ha, hb⟩, Or.inl hab⟩), (hmem _).mpr (.single ⟨⟨ha, hc⟩, Or.inr hca⟩)⟩

end Plans

end Guestkit.Fleet
