import Guestkit.Lib.Fs.Create

/-! Paths that go below a directory by names only, with no link on the way.  Whatever is made on
such a path, or put in place of its end, is below the directory. -/

namespace Guestkit.Lib.Fs

open List

def Tree.bare (t : Tree) (top : Loc) : Tree where
  node loc := if top <:+ loc ∧ loc ≠ top then none else t.node loc
  root := by
    rw [if_neg fun h => h.2 (suffix_nil.mp h.1).symm]
    exact t.root
  parent := by
    intro name dir h
    split at h
    · exact absurd rfl h
    · rename_i hout
      rw [if_neg]
      · exact t.parent name dir h
      · rintro ⟨hdir, -⟩
        refine hout ⟨hdir.trans (suffix_cons name dir), ?_⟩
        rintro rfl
        exact absurd hdir.length_le (by simp)

def Node.isLink : Node → Bool
  | .link _ => true
  | _ => false

/-- `root` leads to the directory `top` whatever is below it, and `target` goes on from there along
`names` that are no links. -/
structure Plain (t : Tree) (root : Path) (top : Loc) (target : Path) (names : List String) :
    Prop where
  steady : (t.bare top).walk true root = .found top
  isDir : t.node top = some .dir
  below : target.components = root.components ++ names
  noUp : ".." ∉ names
  noLink : ∀ pre, pre <+: names → ∀ link, t.node (pre.reverse ++ top) ≠ some (.link link)

theorem plain_iff {t : Tree} {root target : Path} {top : Loc} {names : List String} :
    Plain t root top target names ↔
      (t.bare top).walk true root = .found top ∧ t.node top = some .dir ∧
        target.components = root.components ++ names ∧ ".." ∉ names ∧
        ∀ pre ∈ names.inits, ((t.node (pre.reverse ++ top)).any Node.isLink) = false := by
  have hlink : ∀ loc, ((t.node loc).any Node.isLink) = false ↔
      ∀ link, t.node loc ≠ some (.link link) := by
    intro loc
    cases t.node loc with
    | none => simp
    | some o => cases o <;> simp [Node.isLink]
  simp only [mem_inits, hlink]
  exact ⟨fun h => ⟨h.steady, h.isDir, h.below, h.noUp, h.noLink⟩,
    fun ⟨hsteady, hdir, hbelow, hup, hno⟩ => ⟨hsteady, hdir, hbelow, hup, hno⟩⟩

instance {t : Tree} {root target : Path} {top : Loc} {names : List String} :
    Decidable (Plain t root top target names) :=
  decidable_of_iff' _ plain_iff

/-- `t'` is `t` with other files at `loc` and below. -/
structure Replaces (loc : Loc) (t t' : Tree) : Prop where
  outside : ∀ l, ¬loc <:+ l → t'.node l = t.node l
  isDir : t.node loc = some .dir → t'.node loc = some .dir
  noLink : ∀ link, t'.node loc ≠ some (.link link)

section Bare

variable {t t' : Tree} {top : Loc}

theorem bare_congr (h : ∀ loc, ¬(top <:+ loc ∧ loc ≠ top) → t'.node loc = t.node loc) :
    t'.bare top = t.bare top := by
  have hnode : (t'.bare top).node = (t.bare top).node := by
    funext loc
    simp only [Tree.bare]
    split
    · rfl
    · rename_i hout
      exact h loc hout
  cases hleft : t'.bare top with
  | mk node root parent =>
    cases hright : t.bare top with
    | mk node' root' parent' =>
      rw [hleft, hright] at hnode
      cases hnode
      rfl

theorem bare_node {loc : Loc} {n : Node} (h : (t.bare top).node loc = some n) :
    t.node loc = some n := by
  simp only [Tree.bare] at h
  split at h
  · cases h
  · exact h

end Bare

section Names

variable {t : Tree} {cur : Loc} {names : List String}

theorem walkN_names (n : Nat) (hnames : ∀ c ∈ names, IsName c)
    (hno : ∀ pre, pre <+: names → ∀ link, t.node (pre.reverse ++ cur) ≠ some (.link link)) :
    (∀ loc, walkN t true n cur names = .found loc → loc = names.reverse ++ cur) ∧
      ∀ dir name rest, walkN t true n cur names = .missing dir name rest → cur <:+ dir := by
  obtain ⟨onLink, heq⟩ := walkN_eq_walkFrom t true n
  rw [heq]
  induction names generalizing cur with
  | nil =>
    refine ⟨fun loc h => ?_, fun dir name rest h => ?_⟩
    · cases h
      rfl
    · cases h
  | cons c names ih =>
    have hc := hnames c mem_cons_self
    have hlink := hno [c] (by simp)
    have hnext := @ih (c :: cur) (fun d hd => hnames d (mem_cons_of_mem c hd))
      fun pre hpre => by simpa using hno (c :: pre) (by simpa using hpre)
    by_cases hdir : t.node cur = some .dir
    · rw [walkFrom_name hdir hc]
      cases hnode : t.node (c :: cur) with
      | none =>
        refine ⟨fun loc h => (by cases h), fun dir name rest h => ?_⟩
        cases h
        exact suffix_rfl
      | some o =>
        cases o with
        | link target => exact absurd hnode (hlink target)
        | file data mode | dir =>
          refine ⟨fun loc h => by simpa using hnext.1 loc h, fun dir name rest h => ?_⟩
          exact (suffix_cons c cur).trans (hnext.2 dir name rest h)
    · rw [walkFrom_notDir hdir]
      exact ⟨fun loc h => (by cases h), fun dir name rest h => (by cases h)⟩

end Names

theorem components_strip (p : Path) :
    Path.components (p.reverse.dropWhile (· = "")).reverse = p.components := by
  induction p using List.reverseRecOn with
  | nil => rfl
  | append_singleton p c ih =>
    by_cases hc : c = ""
    · simp only [hc, reverse_append, reverse_singleton, singleton_append,
        decide_true, dropWhile_cons_of_pos, ih]
      simp [Path.components]
    · simp [hc]

theorem mem_prefixes {absolute : Bool} {up : List String} (hup : ∀ c ∈ up, c ≠ "" ∧ c ≠ ".")
    {q : Path} (h : q ∈ Path.prefixes absolute up) : q.components <+: up.reverse := by
  induction up with
  | nil => cases h
  | cons c up ih =>
    rcases mem_cons.mp h with rfl | hq
    · rw [components_ofComponents absolute (by simpa [or_comm] using hup)]
    · refine (ih (fun d hd => hup d (mem_cons_of_mem c hd)) hq).trans ?_
      rw [reverse_cons]
      exact prefix_append _ _

theorem mem_ancestors {p q : Path} (h : q ∈ p.ancestors) : q.components <+: p.components := by
  have hblank : ∀ c ∈ p.components.reverse, c ≠ "" ∧ c ≠ "." := fun c hc => by
    simpa using (mem_filter.mp (mem_reverse.mp hc)).2
  unfold Path.ancestors at h
  cases hrev : p.components.reverse with
  | nil =>
    rw [hrev] at h
    cases h
  | cons c up =>
    rw [hrev] at h hblank
    rcases mem_cons.mp h with rfl | hq
    · exact prefix_rfl
    · have hprefix := mem_prefixes (fun d hd => hblank d (mem_cons_of_mem c hd)) hq
      have hp : p.components = up.reverse ++ [c] := by
        simpa using congrArg List.reverse hrev
      rw [hp]
      exact hprefix.trans (prefix_append _ _)

namespace Plain

variable {t t' : Tree} {root target q : Path} {top loc dir : Loc} {name : String}
  {names : List String}

section

variable (h : Plain t root top target names)
include h

theorem isName : ∀ c ∈ names, IsName c := by
  intro c hc
  have hmem : c ∈ target.components := by
    rw [h.below]
    exact mem_append_right _ hc
  have hblank : c ≠ "" ∧ c ≠ "." := by simpa using (mem_filter.mp hmem).2
  exact ⟨hblank.1, hblank.2, fun hup => h.noUp (hup ▸ hc)⟩

theorem reaches :
    ∃ k ≤ maxLinks, Reaches t k [] root.components top [] := by
  have hsteady := h.steady
  rw [walk_of_ne (ne_of_walk_found hsteady)] at hsteady
  obtain ⟨k, hk, hreach⟩ :=
    reaches_of_found (t.bare top).root (walkN_components (t.bare top).root hsteady)
  exact ⟨k, hk, hreach.mono fun _ _ => bare_node⟩

theorem walk_root : t.walk true root = .found top := by
  have hne := ne_of_walk_found h.steady
  have hsteady := h.steady
  rw [walk_of_ne hne] at hsteady ⊢
  obtain ⟨k, hk, hreach⟩ := reaches_of_found (t.bare top).root hsteady
  exact (hreach.mono fun _ _ => bare_node).found hk

theorem walk_target (hwalk : t.walk true target = .found loc) :
    loc = names.reverse ++ top := by
  rw [walk_of_ne (ne_of_walk_found hwalk)] at hwalk
  obtain ⟨k, hk, hreach⟩ := h.reaches
  obtain ⟨n, hn⟩ := Nat.exists_eq_add_of_le' hk
  have hfound := walkN_components t.root hwalk
  rw [h.below, hn, hreach.walkN_append n names (.inl rfl), nil_append] at hfound
  exact (walkN_names n h.isName h.noLink).1 loc hfound

theorem missing_below {cs : List String} {rest : Path}
    (hcs : cs <+: target.components) (hmissing : t.follow cs = .missing dir name rest) :
    top <:+ dir := by
  obtain ⟨k, hk, hreach⟩ := h.reaches
  obtain ⟨n, hn⟩ := Nat.exists_eq_add_of_le' hk
  obtain ⟨post, hsplit⟩ := hcs
  rw [h.below] at hsplit
  rcases append_eq_append_iff.mp hsplit with ⟨a, hroot, -⟩ | ⟨a, rfl, hnames⟩
  · have hlong := walkN_missing_append t.root hmissing a (.inl rfl)
    rw [← hroot, hreach.found hk] at hlong
    cases hlong
  · have hpre : a <+: names := ⟨post, hnames.symm⟩
    rw [Tree.follow, hn, hreach.walkN_append n a (.inl rfl), nil_append] at hmissing
    exact (walkN_names n (fun c hc => h.isName c (hpre.subset hc)) fun pre hp =>
      h.noLink pre (hp.trans hpre)).2 dir name rest hmissing

theorem mkdir_grows (hq : q.components <+: target.components) :
    GrowsBelow top t (stateOf (mkdir q t)) := by
  rcases mkdir_cases q t with ⟨e, hmkdir⟩ | ⟨dir, name, hwalk, hmkdir⟩
  · rw [hmkdir]
    exact .refl top t
  · rw [hmkdir]
    obtain ⟨hdir, hnone⟩ := walk_missing hwalk
    refine (GrowsBelow.refl top t).put ?_ hnone (Tree.put_node (Tree.fits_of_none hdir hnone))
    rw [Tree.walk] at hwalk
    split at hwalk
    · cases hwalk
    · obtain ⟨rest, -, hmissing⟩ := walkN_components_missing t.root (walkN_followed t.root hwalk)
      rw [components_strip] at hmissing
      exact (h.missing_below hq hmissing).trans (suffix_cons name dir)

theorem change (hout : ∀ loc, ¬(top <:+ loc ∧ loc ≠ top) → t'.node loc = t.node loc)
    (hlink : ∀ pre, pre <+: names → ∀ link, t'.node (pre.reverse ++ top) ≠ some (.link link)) :
    Plain t' root top target names where
  steady := by
    rw [bare_congr hout]
    exact h.steady
  isDir := by
    rw [hout top fun hne => hne.2 rfl]
    exact h.isDir
  below := h.below
  noUp := h.noUp
  noLink := hlink

theorem grows (hgrows : GrowsBelow top t t') :
    Plain t' root top target names := by
  refine h.change (fun loc hloc => ?_) fun pre hpre link => ?_
  · rcases hgrows loc with heq | ⟨hbelow, hnone, -⟩
    · exact heq
    · have htop : loc = top := by
        by_contra hne
        exact hloc ⟨hbelow, hne⟩
      rw [htop, h.isDir] at hnone
      cases hnone
  · rcases hgrows (pre.reverse ++ top) with heq | ⟨-, -, hnew⟩
    · rw [heq]
      exact h.noLink pre hpre link
    · rw [hnew]
      simp

theorem replaces
    (hreplaces : Replaces (names.reverse ++ top) t t') : Plain t' root top target names := by
  refine h.change (fun loc hloc => ?_) fun pre hpre link => ?_
  · by_cases hbelow : names.reverse ++ top <:+ loc
    · have htop : loc = top := by
        by_contra hne
        exact hloc ⟨(suffix_append _ _).trans hbelow, hne⟩
      have hnames : names = [] := by
        have hlength := (htop ▸ hbelow).length_le
        rw [length_append, length_reverse] at hlength
        exact eq_nil_of_length_eq_zero (by omega)
      subst htop hnames
      rw [h.isDir]
      exact hreplaces.isDir h.isDir
    · exact hreplaces.outside loc hbelow
  · by_cases hend : pre = names
    · rw [hend]
      exact hreplaces.noLink link
    · rw [hreplaces.outside]
      · exact h.noLink pre hpre link
      · intro hbelow
        have hlength := hbelow.length_le
        simp only [length_append, length_reverse] at hlength
        exact hend (hpre.eq_of_length (by have := hpre.length_le; omega))

theorem createDirAll_grows :
    GrowsBelow top t (stateOf (createDirAll target t)) := by
  have hstep : ∀ q ∈ target.ancestors,
      Always (fun t t' => Plain t root top target names → GrowsBelow top t t') (mkdir q) :=
    fun q hq t h => h.mkdir_grows (mem_ancestors hq)
  refine createDirs_always (fun t _ => .refl top t) ?_ hstep t h
  intro a b c hab hbc ha
  exact (hab ha).trans (hbc (ha.grows (hab ha)))

end

end Plain

end Guestkit.Lib.Fs
