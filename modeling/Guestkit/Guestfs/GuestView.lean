import Guestkit.Guestfs.Confine

/-! What a guest path leads to in the guest, and what `resolve_guest_path` makes of it. -/

namespace Guestkit

open Lib Lib.Fs Lib.Text List
open Lib.Fs.Path (ofLoc ofString)

/-- Following `k` links the walk comes to `loc`, and on its way it meets no absolute link and no
`..` in the root. -/
inductive StaysInside (g : Tree) (loc : Loc) : Nat → Loc → Path → Prop
  | done : StaysInside g loc 0 loc []
  | blank {k : Nat} {cur : Loc} {c : String} {rest : Path} : g.node cur = some .dir →
      (c = "" ∨ c = ".") → StaysInside g loc k cur rest → StaysInside g loc k cur (c :: rest)
  | up {k : Nat} {cur : Loc} {c : String} {rest : Path} : g.node (c :: cur) = some .dir →
      StaysInside g loc k cur rest → StaysInside g loc k (c :: cur) (".." :: rest)
  | name {k : Nat} {cur : Loc} {c : String} {rest : Path} {n : Node} :
      g.node cur = some .dir → IsName c → g.node (c :: cur) = some n →
      (∀ target, n ≠ .link target) → StaysInside g loc k (c :: cur) rest →
      StaysInside g loc k cur (c :: rest)
  | link {k : Nat} {cur : Loc} {c target : String} {rest : Path} : g.node cur = some .dir →
      IsName c → g.node (c :: cur) = some (.link target) →
      (ofString target).isAbsolute = false → StaysInside g loc k cur (ofString target ++ rest) →
      StaysInside g loc (k + 1) cur (c :: rest)

section

variable {g t : Tree} {loc cur root : Loc} {p : Path} {k n : Nat} {z : String}

theorem StaysInside.reaches (h : StaysInside g loc k cur p)
    (hguest : ∀ loc, t.node (loc ++ root) = g.node loc) :
    Reaches t k (cur ++ root) p (loc ++ root) [] := by
  induction h with
  | done => exact .refl
  | blank hcur hc _ ih => exact .blank ((hguest _).trans hcur) hc ih
  | up hcur _ ih => exact .up ((hguest _).trans hcur) ih
  | name hcur hc hnode hlink _ ih =>
    exact .name ((hguest _).trans hcur) hc ((hguest (_ :: _)).trans hnode) hlink ih
  | link hcur hc hnode hrelative _ ih =>
    refine .link ((hguest _).trans hcur) hc ((hguest (_ :: _)).trans hnode) ?_
    rwa [hrelative, if_neg Bool.false_ne_true]

/-- A host that has nothing but the guest, in the directory `z`. -/
def Lib.Fs.Tree.onlyIn (g : Tree) (z : String) : Tree where
  node loc :=
    match loc.reverse with
    | [] => some .dir
    | c :: rest => if c = z then g.node rest.reverse else none
  root := rfl
  parent name dir h := by
    rw [reverse_cons] at h
    cases hdir : dir.reverse with
    | nil => rfl
    | cons c rest =>
      simp only [hdir, cons_append, reverse_append, reverse_cons, reverse_nil, nil_append] at h ⊢
      split at h
      · next hc =>
        rw [if_pos hc]
        exact g.parent name _ h
      · exact absurd rfl h

theorem onlyIn_node (loc : Loc) : (g.onlyIn z).node (loc ++ [z]) = g.node loc := by
  simp [Tree.onlyIn]

/-- From the root of this host no path leads into the guest that does not name its directory. -/
theorem onlyIn_outside (hp : z ∉ p) :
    walkN (g.onlyIn z) true n [] p ≠ .found (loc ++ [z]) := by
  obtain ⟨onLink, heq⟩ := walkN_eq_walkFrom (g.onlyIn z) true n
  rw [heq]
  induction p with
  | nil => simp [walkFrom]
  | cons c p ih =>
    rw [mem_cons, not_or] at hp
    obtain ⟨hc, hp⟩ := hp
    rcases piece_cases c with hblank | rfl | hname
    · rw [walkFrom_blank rfl hblank]
      exact ih hp
    · rw [walkFrom_up rfl]
      exact ih hp
    · rw [walkFrom_name rfl hname]
      simp [Tree.onlyIn, Ne.symm hc]

/-- What is found there by a name that no path on the way has is found inside. -/
theorem inside_of_onlyIn {r : Path} (h : Reaches g k cur p loc r) (hr : r = []) :
    ∃ used : List String, ∀ z ∉ used, ∀ n,
      walkN (g.onlyIn z) true n (cur ++ [z]) p = .found (loc ++ [z]) →
        StaysInside g loc k cur p := by
  induction h with
  | refl =>
    subst hr
    exact ⟨[], fun _ _ _ _ => .done⟩
  | blank hcur hc _ ih =>
    obtain ⟨used, hused⟩ := ih hr
    refine ⟨used, fun z hz n hrun => .blank hcur hc (hused z hz n ?_)⟩
    rwa [walkN_blank n _ ((onlyIn_node _).trans hcur) hc] at hrun
  | @up k cur loc rest r hcur _ ih =>
    obtain ⟨used, hused⟩ := ih hr
    refine ⟨rest ++ used, fun z hz n hrun => ?_⟩
    rw [mem_append, not_or] at hz
    have hstep : Reaches (g.onlyIn z) 0 (cur ++ [z]) (".." :: rest) (cur ++ [z]).tail rest :=
      .up ((onlyIn_node _).trans hcur) .refl
    rw [← Nat.add_zero n, hstep.walkN_eq] at hrun
    cases cur with
    | nil => exact absurd hrun (onlyIn_outside hz.1)
    | cons c cur => exact .up hcur (hused z hz.2 n hrun)
  | @name k cur loc c rest r o hcur hc hnode hlink _ ih =>
    obtain ⟨used, hused⟩ := ih hr
    refine ⟨used, fun z hz n hrun => .name hcur hc hnode hlink (hused z hz n ?_)⟩
    have hstep : Reaches (g.onlyIn z) 0 (cur ++ [z]) (c :: rest) (c :: cur ++ [z]) rest :=
      .name ((onlyIn_node _).trans hcur) hc ((onlyIn_node (c :: cur)).trans hnode) hlink .refl
    rwa [← Nat.add_zero n, hstep.walkN_eq] at hrun
  | @link k cur loc c target rest r hcur hc hnode _ ih =>
    obtain ⟨used, hused⟩ := ih hr
    refine ⟨ofString target ++ rest ++ used, fun z hz n hrun => ?_⟩
    rw [mem_append, not_or] at hz
    have hlink : (g.onlyIn z).node (c :: (cur ++ [z])) = _ := (onlyIn_node (c :: cur)).trans hnode
    cases n with
    | zero => simp [walkN, walkFrom_name ((onlyIn_node _).trans hcur) hc, hlink] at hrun
    | succ n =>
      have hstep : Reaches (g.onlyIn z) 1 (cur ++ [z]) (c :: rest) _ (ofString target ++ rest) :=
        .link ((onlyIn_node _).trans hcur) hc hlink .refl
      rw [hstep.walkN_eq] at hrun
      cases habsolute : (ofString target).isAbsolute with
      | true =>
        rw [habsolute, if_pos rfl] at hrun
        exact absurd hrun (onlyIn_outside hz.1)
      | false =>
        rw [habsolute, if_neg Bool.false_ne_true] at hrun hused
        exact .link hcur hc hnode habsolute (hused z hz.2 n hrun)

namespace Guestfs

/-- The guest `g` is in the host's tree, at the place `root` that `j` links lead to from the
mountpoint of its root. -/
structure Carries (g : Tree) (handle : Guestfs) (order : HashOrder String String) (t : Tree)
    (m : String) (root : Loc) (j : Nat) : Prop where
  mounted : handle.findRootMountpoint order = .ok m
  canonical : t.canonicalize (ofString m) = .ok root
  way : Reaches t j [] (ofString m) root []
  guest : ∀ loc, t.node (loc ++ root) = g.node loc

variable {self : Guestfs} {order : HashOrder String String} {m guestPath : String} {j : Nat}

theorem Carries.base (h : Carries g self order t m root j) (guestPath : String) :
    ∃ base, candidatePath m guestPath = base ++ ofString (trimStartMatches (· = '/') guestPath) ∧
      Reaches t j [] base root [] := by
  obtain ⟨base, heq, hbase, -⟩ := candidatePath_eq m guestPath
  obtain ⟨r, hr, hreach⟩ := h.way.respell hbase
  exact ⟨base, heq, hreach.trans (.skipAll ((h.guest []).trans g.root) hr)⟩

def mountedAt (z : String) : Guestfs :=
  { state := .ready, mounted := (∅ : HashMap String String).insert "/dev/sda1" ("/" ++ z) }

theorem carries_onlyIn (g : Tree) (hname : IsName z) (hslash : '/' ∉ z.toList) :
    Carries g (mountedAt z) .newestFirst (g.onlyIn z) ("/" ++ z) [z] 0 := by
  have hpath : ofString ("/" ++ z) = ["", z] :=
    split_join (show ["", z] ≠ [] by simp) (by simpa using hslash)
  have hway : Reaches (g.onlyIn z) 0 [] ["", z] [z] [] :=
    .blank rfl (.inl rfl) (.name rfl hname ((onlyIn_node []).trans g.root) (by simp) .refl)
  refine ⟨rfl, ?_, hpath ▸ hway, onlyIn_node⟩
  rw [hpath]
  exact canonicalize_ok.mpr ((walk_of_ne (by simp)).trans (hway.found (Nat.zero_le _)))

theorem exists_fresh (used : List String) : ∃ z ∉ used, IsName z ∧ '/' ∉ z.toList := by
  have hinjective : Function.Injective fun n => String.ofList (replicate (n + 1) 'a') := by
    intro a b h
    simpa using congrArg (fun s => s.toList.length) h
  obtain ⟨_, ⟨n, rfl⟩, hn⟩ :=
    (Set.infinite_range_of_injective hinjective).exists_notMem_finset used.toFinset
  refine ⟨_, by simpa using hn, ?_, by simp⟩
  simp [IsName, ← String.toList_inj, replicate_succ]

/-- A guest path that leads to `loc` in the guest, following `k` links, is resolved to the host path
of this object by every host that carries the guest, as far as the limit of links goes, exactly if
the walk in the guest meets no absolute link and no `..` in the root. -/
theorem resolves_iff_inside (hvalid : PathValidator.validateFsPath guestPath = .ok ())
    (hreach : Reaches g k [] (ofString (trimStartMatches (· = '/') guestPath)) loc [])
    (hk : k ≤ maxLinks) :
    (∀ self order t m root j, Carries g self order t m root j → j + k ≤ maxLinks →
      self.resolveGuestPath order t guestPath = .ok (ofLoc (loc ++ root))) ↔
      StaysInside g loc k [] (ofString (trimStartMatches (· = '/') guestPath)) := by
  constructor
  · intro h
    obtain ⟨used, hused⟩ := inside_of_onlyIn hreach rfl
    obtain ⟨z, hz, hname, hslash⟩ := exists_fresh used
    have hcarries := carries_onlyIn g hname hslash
    obtain ⟨base, heq, hbase⟩ := hcarries.base guestPath
    have hresolve := h _ _ _ _ _ _ hcarries (by rwa [Nat.zero_add])
    have hmount := canonicalize_ok.mp hcarries.canonical
    have hne : candidatePath ("/" ++ z) guestPath ≠ [""] :=
      candidatePath_ne (ne_of_walk_found hmount)
    obtain ⟨o, hnode, hlink⟩ := hreach.object ⟨.dir, g.root, by simp⟩
    have hnames : ∀ c ∈ loc ++ [z], IsName c :=
      forall_mem_append.mpr ⟨hreach.isName (by simp), by simpa using hname⟩
    have hlocation := Reaches.location hnames ((onlyIn_node loc).trans hnode) hlink
    have hfound := found_of_accepted hne
      (resolveGuestPath_accepted hcarries.mounted hcarries.canonical hresolve).2
      (walk_ofLoc ((walk_of_ne (p := "" :: _) (by simp)).trans
        ((Reaches.blank (Tree.root _) (.inl rfl) hlocation).found (Nat.zero_le _))))
    rw [walk_of_ne hne, heq] at hfound
    exact hused z hz maxLinks ((hbase.walkN_append maxLinks _ (.inl rfl)).symm.trans hfound)
  · intro h self order t m root j hcarries hlinks
    obtain ⟨base, heq, hbase⟩ := hcarries.base guestPath
    have hroot := hcarries.canonical
    have hnames := isName_of_walk (canonicalize_ok.mp hroot)
    have hall : Reaches t (j + k) [] (candidatePath m guestPath) (loc ++ root) [] :=
      heq ▸ (hbase.append _).trans (h.reaches hcarries.guest)
    have hne : candidatePath m guestPath ≠ [""] :=
      candidatePath_ne (ne_of_walk_found (canonicalize_ok.mp hroot))
    have hfound : t.canonicalize (candidatePath m guestPath) = .ok (loc ++ root) :=
      canonicalize_ok.mpr ((walk_of_ne hne).trans (hall.found hlinks))
    have hstarts : (ofLoc (loc ++ root)).startsWith (ofLoc root) = true := by
      rw [Path.startsWith, decide_eq_true_iff, components_ofLoc hnames,
        components_ofLoc (isName_of_walk (canonicalize_ok.mp hfound))]
      simp [isAbsolute_ofLoc]
    simp [resolveGuestPath, hvalid, hcarries.mounted, hroot, canonicalCandidate, hfound, hstarts,
      bind, Except.bind]

def linkGuest : Tree := .ofList [(["etc"], .dir), (["l"], .link "/etc")]

theorem linkGuest_carried :
    Carries linkGuest (mountedAt "m") .newestFirst (linkGuest.onlyIn "m") "/m" ["m"] 0 :=
  carries_onlyIn linkGuest (by unfold IsName; decide) (by decide)

theorem linkGuest_etc_resolved :
    (mountedAt "m").resolveGuestPath .newestFirst (linkGuest.onlyIn "m") "/etc" =
      .ok ["", "m", "etc"] := by
  have hpath : ofString (trimStartMatches (· = '/') "/etc") = ["etc"] := by decide +kernel
  have hetc : linkGuest.node ["etc"] = some .dir := by decide +kernel
  have hname : IsName "etc" := by unfold IsName; decide
  have hreach : Reaches linkGuest 0 [] ["etc"] ["etc"] [] :=
    .name linkGuest.root hname hetc (by simp) .refl
  have hinside : StaysInside linkGuest ["etc"] 0 [] ["etc"] :=
    .name linkGuest.root hname hetc (by simp) .done
  exact (resolves_iff_inside (by decide +kernel) (hpath ▸ hreach) (Nat.zero_le _)).mpr
    (hpath ▸ hinside) _ _ _ _ _ _ linkGuest_carried (by decide)

/-- A link to `/etc` is taken for one to the `/etc` of the host. -/
theorem linkGuest_link_not_resolved :
    Carries linkGuest (mountedAt "m") .newestFirst (linkGuest.onlyIn "m") "/m" ["m"] 0 ∧
      linkGuest.follow (ofString (trimStartMatches (· = '/') "/l")) = .found ["etc"] ∧
      (mountedAt "m").resolveGuestPath .newestFirst (linkGuest.onlyIn "m") "/l" =
        .ok ["", "m", "l"] :=
  ⟨linkGuest_carried, by decide +kernel, by decide +kernel⟩

end Guestfs

end

end Guestkit
