import Guestkit.Lib.Fs.Spec

/-! What `createDirAll` makes when a directory is missing.  Going along the names of a path there is
a first one that leads nowhere; what is made is below it, or nothing is if it names a link. -/

namespace Guestkit.Lib.Fs

open Function List

def Tree.follow (t : Tree) (cs : List String) : Stop := walkN t true maxLinks [] cs

/-- `name` is the first of the names that leads nowhere; the names before it lead to `dir`. -/
structure FirstMissing (t : Tree) (cs pre : List String) (name : String) (post : List String)
    (dir : Loc) : Prop where
  split : cs = pre ++ name :: post
  found : t.follow pre = .found dir
  missing : ∃ d m rest, t.follow (pre ++ [name]) = .missing d m rest

section FirstMissing

variable {t : Tree} {cs pre pre' post post' : List String} {name name' : String} {dir dir' : Loc}

theorem exists_firstMissing {d : Loc} {m : String} {rest : Path}
    (h : t.follow cs = .missing d m rest) :
    ∃ pre name post dir, FirstMissing t cs pre name post dir := by
  induction cs using List.reverseRecOn generalizing d m rest with
  | nil => cases h
  | append_singleton init x ih =>
    rcases walkN_prefix t.root [x] (.inr ⟨d, m, rest, h⟩) with ⟨dir, hfound⟩ | ⟨d', m', rest', hm⟩
    · exact ⟨init, x, [], dir, rfl, hfound, d, m, rest, h⟩
    · obtain ⟨pre, name, post, dir, hsplit, hfound, hmissing⟩ := ih hm
      exact ⟨pre, name, post ++ [x], dir, by simp [hsplit], hfound, hmissing⟩

namespace FirstMissing

section

variable (h : FirstMissing t cs pre name post dir)
include h

theorem not_found_beyond (q : List String) (loc : Loc) :
    t.follow (pre ++ name :: q) ≠ .found loc := by
  obtain ⟨d, m, rest, hmissing⟩ := h.missing
  have happend := walkN_missing_append t.root hmissing q (.inl rfl)
  rw [append_assoc, singleton_append] at happend
  rw [Tree.follow, happend]
  simp

theorem unique (h' : FirstMissing t cs pre' name' post' dir') :
    pre = pre' ∧ name = name' ∧ post = post' ∧ dir = dir' := by
  have hpre : pre = pre' := by
    rcases append_eq_append_iff.mp (h.split.symm.trans h'.split) with
      ⟨a, hpre, ha⟩ | ⟨a, hpre, ha⟩
    · cases a with
      | nil => simpa using hpre.symm
      | cons x a =>
        obtain ⟨rfl, -⟩ := List.cons.inj ha
        exact absurd (hpre ▸ h'.found) (h.not_found_beyond a dir')
    · cases a with
      | nil => simpa using hpre
      | cons x a =>
        obtain ⟨rfl, -⟩ := List.cons.inj ha
        exact absurd (hpre ▸ h.found) (h'.not_found_beyond a dir)
  subst hpre
  obtain ⟨hname, hpost⟩ := List.cons.inj (append_cancel_left (h.split.symm.trans h'.split))
  exact ⟨rfl, hname, hpost, by simpa [h.found] using h'.found⟩

theorem reaches :
    ∃ k ≤ maxLinks, Reaches t k [] pre dir [] :=
  reaches_of_found t.root h.found

theorem node (hname : IsName name) :
    t.node dir = some .dir ∧
      (t.node (name :: dir) = none ∨ ∃ target, t.node (name :: dir) = some (.link target)) := by
  obtain ⟨k, hk, hreach⟩ := h.reaches
  obtain ⟨d, m, rest, hmissing⟩ := h.missing
  obtain ⟨n, hn⟩ := Nat.exists_eq_add_of_le' hk
  obtain ⟨onLink, heq⟩ := walkN_eq_walkFrom t true n
  rw [Tree.follow, hn, hreach.walkN_append n [name] (.inl rfl), heq, nil_append] at hmissing
  by_cases hdir : t.node dir = some .dir
  · refine ⟨hdir, ?_⟩
    rw [walkFrom_name hdir hname] at hmissing
    cases hnode : t.node (name :: dir) with
    | none => exact .inl rfl
    | some o =>
      cases o with
      | link target => exact .inr ⟨target, rfl⟩
      | file data mode => simp [hnode, walkFrom] at hmissing
      | dir => simp [hnode, walkFrom] at hmissing
  · rw [walkFrom_notDir hdir] at hmissing
    cases hmissing

end

theorem of_none (hfound : t.follow pre = .found dir) (hname : IsName name)
    (hdir : t.node dir = some .dir) (hnone : t.node (name :: dir) = none) :
    t.follow (pre ++ [name]) = .missing dir name [] := by
  obtain ⟨k, hk, hreach⟩ := reaches_of_found t.root hfound
  exact (hreach.append [name]).missing hk hdir hname hnone

end FirstMissing

end FirstMissing

section GrowsBelow

variable {top : Loc} {t t' t'' : Tree}

theorem Tree.none_below (h : t.node top = none) {loc : Loc} (hloc : top <:+ loc) :
    t.node loc = none := by
  obtain ⟨names, rfl⟩ := hloc
  induction names with
  | nil => exact h
  | cons name names ih =>
    cases hnode : t.node (name :: names ++ top) with
    | none => rfl
    | some o =>
      have hdir : t.node (names ++ top) = some .dir := t.parent_of_some hnode
      rw [hdir] at ih
      cases ih

theorem walkN_below (hdirs : ∀ loc, top <:+ loc → t.node loc = none ∨ t.node loc = some .dir)
    {follow : Bool} {n : Nat} {q rest : Path} (hq : ".." ∉ q) {cur dir : Loc} {name : String}
    (hcur : top <:+ cur) (hdir : t.node cur = some .dir)
    (h : walkN t follow n cur q = .missing dir name rest) : top <:+ name :: dir := by
  obtain ⟨onLink, heq⟩ := walkN_eq_walkFrom t follow n
  rw [heq] at h
  induction q generalizing cur with
  | nil => cases h
  | cons c q ih =>
    have hq' : ".." ∉ q := fun hmem => hq (mem_cons_of_mem c hmem)
    rcases piece_cases c with hc | rfl | hc
    · rw [walkFrom_blank hdir hc] at h
      exact ih hq' hcur hdir h
    · exact absurd mem_cons_self hq
    · have hnext : top <:+ c :: cur := hcur.trans (suffix_cons c cur)
      rw [walkFrom_name hdir hc] at h
      rcases hdirs (c :: cur) hnext with hnode | hnode
      · rw [hnode] at h
        cases h
        exact hnext
      · rw [hnode] at h
        exact ih hq' hnext hnode h

end GrowsBelow

/-- A path that goes on with names after `name`, which comes after `k` links to `dir`. -/
def Beyond (t : Tree) (k : Nat) (name : String) (dir : Loc) (p : Path) : Prop :=
  ∃ a q : Path, p = a ++ name :: q ∧ Reaches t k [] a dir [] ∧ ".." ∉ q ∧ q.components ≠ []

section Beyond

variable {t : Tree} {k : Nat} {name : String} {dir : Loc} {p : Path}

theorem strip_append {a b : Path} (hb : b.components ≠ []) :
    ((a ++ b).reverse.dropWhile (· = "")).reverse = a ++ (b.reverse.dropWhile (· = "")).reverse ∧
      (b.reverse.dropWhile (· = "")).reverse ≠ [] ∧
      ∀ c ∈ (b.reverse.dropWhile (· = "")).reverse, c ∈ b := by
  have hne : b.reverse.dropWhile (· = "") ≠ [] := by
    intro heq
    rw [dropWhile_eq_nil_iff] at heq
    refine hb (filter_eq_nil_iff.mpr fun c hc => ?_)
    simp [of_decide_eq_true (heq c (mem_reverse.mpr hc))]
  refine ⟨?_, by simpa using hne, fun c hc => ?_⟩
  · rw [reverse_append, dropWhile_append, if_neg (by simpa using hne),
      reverse_append, reverse_reverse]
  · exact mem_reverse.mp ((dropWhile_sublist _).mem (mem_reverse.mp hc))

theorem walk_beyond {a q : Path} (hreach : Reaches t k [] a dir []) (hk : k ≤ maxLinks)
    (hname : IsName name) (follow : Bool) :
    ∃ n, n + k = maxLinks ∧ t.walk follow (a ++ name :: q) = walkN t follow n dir (name :: q) := by
  obtain ⟨n, hn⟩ := Nat.exists_eq_add_of_le' hk
  refine ⟨n, hn.symm, ?_⟩
  have hne : a ++ name :: q ≠ [""] := by
    intro heq
    have hmem : name ∈ [""] := heq ▸ mem_append_right a mem_cons_self
    exact hname.1 (mem_singleton.mp hmem)
  rw [walk_of_ne hne, hn, hreach.walkN_append n (name :: q) (.inr (by simp))]
  rfl

theorem Beyond.mkdir_noEnt (hp : Beyond t k name dir p) (hk : k ≤ maxLinks) (hname : IsName name)
    {pre : List String} (hpre : Reaches t k [] pre dir []) {d : Loc} {m : String} {rest : Path}
    (hmissing : t.follow (pre ++ [name]) = .missing d m rest) :
    mkdir p t = .error .noEnt t := by
  obtain ⟨a, q, rfl, hreach, hq, hnames⟩ := hp
  obtain ⟨hstrip, hne, -⟩ := strip_append (a := a ++ [name]) hnames
  rw [append_assoc, singleton_append] at hstrip
  obtain ⟨n, hn, hwalk⟩ :=
    walk_beyond (q := (q.reverse.dropWhile (· = "")).reverse) hreach hk hname false
  have hshort : walkN t true n dir [name] = .missing d m rest := by
    rw [Tree.follow, ← hn, hpre.walkN_append n [name] (.inl rfl)] at hmissing
    exact hmissing
  have hdir : t.node dir = some .dir := by
    obtain ⟨onLink, heq⟩ := walkN_eq_walkFrom t true n
    by_contra hdir
    rw [heq, walkFrom_notDir hdir] at hshort
    cases hshort
  have hlong : walkN t false n dir (name :: (q.reverse.dropWhile (· = "")).reverse) =
      .missing d m (rest ++ (q.reverse.dropWhile (· = "")).reverse) :=
    walkN_missing_append hdir hshort _ (.inr hne)
  rw [mkdir, get_bind, hstrip, append_assoc, singleton_append, hwalk, hlong]
  cases hrest : rest ++ (q.reverse.dropWhile (· = "")).reverse with
  | nil => exact absurd (append_eq_nil_iff.mp hrest).2 hne
  | cons c r => rfl

theorem Beyond.mkdir_grows (hp : Beyond t k name dir p) (hk : k ≤ maxLinks) (hname : IsName name)
    (hnone : t.node (name :: dir) = none) (hdir : t.node dir = some .dir) {t' : Tree}
    (h : GrowsBelow (name :: dir) t t') :
    GrowsBelow (name :: dir) t (stateOf (mkdir p t')) := by
  obtain ⟨a, q, rfl, hreach, hq, hnames⟩ := hp
  rcases mkdir_cases (a ++ name :: q) t' with ⟨e, hmkdir⟩ | ⟨d, m, hwalk, hmkdir⟩
  · rw [hmkdir]
    exact h
  · obtain ⟨hd, hm⟩ := walk_missing hwalk
    have hput : (t'.put (m :: d) .dir).node = update t'.node (m :: d) (some .dir) :=
      Tree.put_node (Tree.fits_of_none hd hm)
    rw [hmkdir]
    refine h.put ?_ hm hput
    obtain ⟨hstrip, -, hmem⟩ := strip_append (a := a ++ [name]) hnames
    rw [append_assoc, singleton_append] at hstrip
    obtain ⟨n, -, hbeyond⟩ := walk_beyond (q := (q.reverse.dropWhile (· = "")).reverse)
      (hreach.mono h.node) hk hname false
    rw [hstrip, append_assoc, singleton_append, hbeyond] at hwalk
    have hdir' := h.node dir _ hdir
    obtain ⟨onLink, heq⟩ := walkN_eq_walkFrom t' false n
    rcases h (name :: dir) with hsame | ⟨-, -, hmade⟩
    · rw [heq, walkFrom_name hdir' hname, hsame, hnone] at hwalk
      obtain ⟨rfl, rfl, -⟩ := Stop.missing.inj hwalk
      exact suffix_rfl
    · rw [heq, walkFrom_name hdir' hname, hmade] at hwalk
      refine walkN_below (n := n) ?_ (fun hup => hq (hmem _ hup)) suffix_rfl hmade
        (by rw [heq]; exact hwalk)
      intro loc hloc
      rcases h loc with hsame | ⟨-, -, hnew⟩
      · exact .inl (by rw [hsame, Tree.none_below hnone hloc])
      · exact .inr hnew

end Beyond

section CreateDirs

variable {t : Tree} {cs pre post : List String} {name : String} {dir : Loc} {k : Nat}

theorem ofComponents_append_cons (a : List String) (c : String) (b : List String) :
    Path.ofComponents true (a ++ c :: b) = ("" :: a) ++ c :: b := by
  cases a <;> rfl

/-- What holds of the program that makes the first missing directory, and of each that makes one
beyond it after the others, holds of `createDirAll`. -/
theorem createDirAll_beyond (P : FsM Unit → Prop) (hreach : Reaches t k [] pre dir [])
    (hdir : t.node dir = some .dir)
    (hfirst : P (createDirs (Path.ofComponents true (pre ++ [name]) ::
      Path.prefixes true pre.reverse)))
    (hnext : ∀ p ps, Beyond t k name dir p → P (createDirs ps) → P (createDirs (p :: ps)))
    {p : Path} (habs : p.isAbsolute = true) (hp : p.components = pre ++ name :: post)
    (hpost : post ≠ []) (hup : ".." ∉ post) : P (createDirAll p) := by
  have hprefixes : ∀ mid : List String, (∀ c ∈ mid, c ∈ post) →
      P (createDirs (Path.prefixes true (pre ++ name :: mid).reverse)) := by
    intro mid
    induction mid using List.reverseRecOn with
    | nil =>
      intro _
      rw [reverse_append, reverse_singleton, singleton_append, Path.prefixes,
        reverse_cons, reverse_reverse]
      exact hfirst
    | append_singleton mid x ih =>
      intro hmid
      have hx : x ∈ p.components := by
        rw [hp]
        exact mem_append_right _ (mem_cons_of_mem name (hmid x (by simp)))
      have hblank : x ≠ "" ∧ x ≠ "." := by
        simpa [Path.components] using (mem_filter.mp hx).2
      rw [← cons_append, ← append_assoc, reverse_append, reverse_singleton,
        singleton_append, Path.prefixes, reverse_cons, reverse_reverse]
      refine hnext _ _ ⟨"" :: pre, mid ++ [x], ?_, .blank t.root (.inl rfl) hreach, ?_, ?_⟩
        (ih fun c hc => hmid c (mem_append_left _ hc))
      · rw [← ofComponents_append_cons]
        simp
      · exact fun hmem => hup (hmid _ hmem)
      · simp [Path.components, filter_append, hblank]
  obtain ⟨init, last, rfl⟩ : ∃ init last, post = init ++ [last] :=
    ⟨_, _, (dropLast_append_getLast hpost).symm⟩
  have hrev : p.components.reverse = last :: (pre ++ name :: init).reverse := by simp [hp]
  unfold createDirAll Path.ancestors
  rw [hrev, habs]
  refine hnext p _ ?_ (hprefixes init (by simp +contextual))
  obtain ⟨a, b, hsplit, ha, hb⟩ := filter_eq_append_iff.mp hp
  obtain ⟨b1, b2, rfl, hb1, hname, hb2⟩ := filter_eq_cons_iff.mp hb
  refine ⟨a ++ b1, b2, by rw [hsplit, append_assoc], ?_, ?_, ?_⟩
  · refine Reaches.of_components (p := a ++ b1) ?_ hdir
    have hblank : Path.components (a ++ b1) = pre := by
      have hnil : Path.components b1 = [] := filter_eq_nil_iff.mpr hb1
      rw [Path.components, filter_append, ha]
      simpa [Path.components] using hnil
    rw [hblank]
    exact hreach
  · intro hmem
    have : ".." ∈ Path.components b2 := mem_filter.mpr ⟨hmem, by decide⟩
    rw [Path.components, hb2] at this
    exact hup this
  · rw [Path.components, hb2]
    simp

theorem ensureDir_state (p : Path) (t : Tree) : stateOf (ensureDir p t) = stateOf (mkdir p t) := by
  unfold ensureDir
  rcases mkdir_cases p t with ⟨e, h⟩ | ⟨d, m, -, h⟩
  · rw [tryCatch_of_error h, h, get_bind]
    split <;> rfl
  · rw [tryCatch_of_ok h, h]

theorem createDirs_of_noEnt {p : Path} (ps : List Path) (h : mkdir p t = .error .noEnt t) :
    createDirs (p :: ps) t = (do createDirs ps; ensureDir p : FsM Unit) t := by
  rw [createDirs, tryCatch_of_error h, if_pos rfl]

theorem walk_first (hreach : Reaches t k [] pre dir []) (hk : k ≤ maxLinks) (hname : IsName name)
    (follow : Bool) :
    ∃ n, n + k = maxLinks ∧
      t.walk follow (Path.ofComponents true (pre ++ [name])) = walkN t follow n dir [name] := by
  rw [ofComponents_append_cons]
  exact walk_beyond (.blank t.root (.inl rfl) hreach) hk hname follow

theorem strip_first (hname : IsName name) :
    ((Path.ofComponents true (pre ++ [name])).reverse.dropWhile (· = "")).reverse =
      Path.ofComponents true (pre ++ [name]) := by
  rw [ofComponents_append_cons, reverse_append, reverse_singleton, singleton_append,
    dropWhile_cons_of_neg (by simpa using hname.1), reverse_cons, reverse_reverse]

section

variable (hreach : Reaches t k [] pre dir []) (hk : k ≤ maxLinks) (hname : IsName name)
  (hdir : t.node dir = some .dir)
include hreach hk hname hdir

theorem mkdir_first (hnone : t.node (name :: dir) = none) :
    mkdir (Path.ofComponents true (pre ++ [name])) t = .ok () (t.put (name :: dir) .dir) := by
  obtain ⟨n, -, hwalk⟩ := walk_first hreach hk hname false
  rw [walkN_none n [] hdir hname hnone] at hwalk
  rw [mkdir, get_bind, strip_first hname, hwalk]
  rfl

theorem createDirs_first_link {target : String}
    (hlink : t.node (name :: dir) = some (.link target)) {d : Loc} {m : String} {rest : Path}
    (hmissing : t.follow (pre ++ [name]) = .missing d m rest) (ps : List Path) :
    createDirs (Path.ofComponents true (pre ++ [name]) :: ps) t = .error .exist t := by
  have hmkdir : mkdir (Path.ofComponents true (pre ++ [name])) t = .error .exist t := by
    obtain ⟨n, -, hwalk⟩ := walk_first hreach hk hname false
    obtain ⟨onLink, heq⟩ := walkN_eq_walkFrom t false n
    rw [heq, walkFrom_name hdir hname, hlink] at hwalk
    rw [mkdir, get_bind, strip_first hname, hwalk]
    rfl
  have hisDir : t.isDir (Path.ofComponents true (pre ++ [name])) = false := by
    obtain ⟨n, hn, hwalk⟩ := walk_first hreach hk hname true
    rw [Tree.follow, ← hn, hreach.walkN_append n [name] (.inl rfl), nil_append] at hmissing
    rw [hmissing] at hwalk
    simp [Tree.isDir, Tree.stat, hwalk]
  rw [createDirs, tryCatch_of_error hmkdir, if_neg (by decide), get_bind,
    if_neg (by rw [hisDir]; decide)]
  rfl

end

theorem createDirAll_eq {p : Path} (h : p.components ≠ []) :
    ∃ ps, createDirAll p = createDirs (p :: ps) := by
  unfold createDirAll Path.ancestors
  cases hrev : p.components.reverse with
  | nil => exact absurd (reverse_eq_nil_iff.mp hrev) h
  | cons c up => exact ⟨_, rfl⟩

variable {p : Path} (h : FirstMissing t p.components pre name post dir) (hname : IsName name)
  (habs : p.isAbsolute = true) (hpost : post ≠ []) (hup : ".." ∉ post)

include h hname habs hpost hup

theorem createDirAll_new (hnone : t.node (name :: dir) = none) :
    GrowsBelow (name :: dir) t (stateOf (createDirAll p t)) ∧
      (stateOf (createDirAll p t)).node (name :: dir) = some .dir := by
  obtain ⟨hdir, -⟩ := h.node hname
  obtain ⟨k, hk, hreach⟩ := h.reaches
  obtain ⟨d, m, rest, hmissing⟩ := h.missing
  refine createDirAll_beyond (fun prog => GrowsBelow (name :: dir) t (stateOf (prog t)) ∧
    (stateOf (prog t)).node (name :: dir) = some .dir) hreach hdir ?_ ?_ habs h.split hpost hup
  · have hput : (t.put (name :: dir) .dir).node = update t.node (name :: dir) (some .dir) :=
      Tree.put_node (Tree.fits_of_none hdir hnone)
    rw [createDirs, tryCatch_of_ok (mkdir_first hreach hk hname hdir hnone)]
    exact ⟨(GrowsBelow.refl _ t).put suffix_rfl hnone hput,
      (congrFun hput _).trans (update_self _ _ _)⟩
  · rintro q ps hq ⟨hgrows, hmade⟩
    rw [createDirs_of_noEnt ps (hq.mkdir_noEnt hk hname hreach hmissing)]
    cases hps : createDirs ps t with
    | error e t' =>
      rw [bind_of_error hps]
      rw [hps] at hgrows hmade
      exact ⟨hgrows, hmade⟩
    | ok u t' =>
      rw [bind_of_ok hps, ensureDir_state]
      rw [hps] at hgrows hmade
      refine ⟨hq.mkdir_grows hk hname hnone hdir hgrows, ?_⟩
      rcases mkdir_adds q t' (name :: dir) with heq | ⟨-, -, hnew⟩
      · exact heq.trans hmade
      · exact hnew

theorem createDirAll_link {target : String}
    (hlink : t.node (name :: dir) = some (.link target)) :
    createDirAll p t = .error .exist t := by
  obtain ⟨hdir, -⟩ := h.node hname
  obtain ⟨k, hk, hreach⟩ := h.reaches
  obtain ⟨d, m, rest, hmissing⟩ := h.missing
  refine createDirAll_beyond (fun prog => prog t = .error .exist t) hreach hdir ?_ ?_ habs h.split
    hpost hup
  · exact createDirs_first_link hreach hk hname hdir hlink hmissing _
  · intro q ps hq hps
    rw [createDirs_of_noEnt ps (hq.mkdir_noEnt hk hname hreach hmissing)]
    exact bind_of_error hps

end CreateDirs

end Guestkit.Lib.Fs
