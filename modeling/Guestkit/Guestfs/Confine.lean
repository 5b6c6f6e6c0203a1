import Guestkit.Guestfs.FileOps
import Guestkit.Lib.Fs.Location

/-! Where the operations on a resolved guest path act.  `Contained` says that they stay below the
canonical root; `Confined` is a condition on the tree and the path for this, and it is exact. -/

namespace Guestkit

open Lib Lib.Fs Lib.Text List
open Lib.Fs.Path (ofLoc ofString)

/-- Opening a path, writing a file at it and making its directories touch only objects below
`root`. -/
structure Contained (t : Tree) (root : Loc) (p : Path) : Prop where
  read : ∀ loc, t.lookup true p = .ok loc → root <:+ loc
  write : ∀ data loc, (stateOf (writeData p data t)).node loc ≠ t.node loc → root <:+ loc
  mkdirs : ∀ loc, (stateOf (createDirAll p t)).node loc ≠ t.node loc → root <:+ loc

/-- A name that a directory on the way lacks, and a name that is missing where the whole path leads,
are in directories below `root`. -/
structure Confined (t : Tree) (root : Loc) (cs : List String) : Prop where
  onTheWay : ∀ pre name post dir, cs = pre ++ name :: post → t.follow pre = .found dir →
    t.follow (pre ++ [name]) = .missing dir name [] → root <:+ dir
  atTheEnd : ∀ dir name, t.follow cs = .missing dir name [] → root <:+ dir

section Blank

variable {t : Tree} {p : Path}

theorem follow_of_found {loc : Loc} (h : t.walk true p = .found loc) :
    t.follow p.components = .found loc := by
  rw [walk_of_ne (ne_of_walk_found h)] at h
  exact walkN_components t.root h

theorem follow_of_missing_rest (hp : p ≠ [""]) {d : Loc} {m : String} {rest : Path}
    (h : t.walk true p = .missing d m rest) :
    ∃ rest', rest' <+ rest ∧ t.follow p.components = .missing d m rest' := by
  rw [walk_of_ne hp] at h
  exact walkN_components_missing t.root h

theorem follow_of_missing (hp : p ≠ [""]) {d : Loc} {m : String}
    (h : t.walk true p = .missing d m []) : t.follow p.components = .missing d m [] := by
  obtain ⟨rest, hrest, hfollow⟩ := follow_of_missing_rest hp h
  rw [hfollow, sublist_nil.mp hrest]

end Blank

section Cases

variable {t : Tree} {root : Loc} {p : Path} {cs : List String}

theorem confined_of_found {loc : Loc} (h : t.follow cs = .found loc) : Confined t root cs where
  onTheWay pre name post dir hcs _ hmissing := by
    have happend := walkN_missing_append t.root hmissing post (.inl rfl)
    rw [append_assoc, singleton_append, ← hcs] at happend
    rw [Tree.follow, happend] at h
    cases h
  atTheEnd dir name hmissing := by
    rw [h] at hmissing
    cases hmissing

theorem contained_of_walk (hfound : ∀ loc, t.walk true p = .found loc → root <:+ loc)
    (hmissing : ∀ d m, t.walk true p = .missing d m [] → root <:+ m :: d)
    (hmkdirs : ∀ loc, (stateOf (createDirAll p t)).node loc ≠ t.node loc → root <:+ loc) :
    Contained t root p where
  read loc hlookup := hfound loc (canonicalize_ok.mp hlookup)
  write data loc hne := by
    cases slot_of_written hne with
    | file h _ => exact hfound loc h
    | new h => exact hmissing _ _ h
  mkdirs := hmkdirs

theorem contained_of_found {loc : Loc} (hloc : root <:+ loc) (h : t.walk true p = .found loc) :
    Contained t root p := by
  refine contained_of_walk (fun loc' h' => ?_) (fun d m h' => ?_) fun loc' hne => ?_
  · exact Stop.found.inj (h.symm.trans h') ▸ hloc
  · exact nomatch h.symm.trans h'
  · rw [createDirAll_found h] at hne
    exact absurd rfl hne

theorem suffix_of_missing {dir : Loc} {name : String} (hroot : t.node root ≠ none)
    (hnone : t.node (name :: dir) = none) (h : root <:+ name :: dir) : root <:+ dir := by
  rcases suffix_cons_iff.mp h with rfl | h
  · exact absurd hnone hroot
  · exact h

theorem Confined.of_firstMissing {pre post : List String} {name : String} {dir : Loc}
    (h : FirstMissing t cs pre name post dir)
    (hway : t.follow (pre ++ [name]) = .missing dir name [] → root <:+ dir)
    (hend : ∀ d m, t.follow cs = .missing d m [] → root <:+ d) : Confined t root cs where
  onTheWay pre' name' post' dir' hcs hfound hmissing := by
    obtain ⟨rfl, rfl, -, rfl⟩ := h.unique ⟨hcs, hfound, _, _, _, hmissing⟩
    exact hway hmissing
  atTheEnd := hend

section Parent

variable {name : String} {dir : Loc} (hnames : ∀ c ∈ dir, IsName c) (hname : IsName name)
  (hdir : t.node dir = some .dir)

include hnames hname hdir

theorem contained_of_none (hbelow : root <:+ name :: dir) (hnone : t.node (name :: dir) = none) :
    Contained t root (ofLoc (name :: dir)) := by
  have hwalk := walk_ofLoc_cons hnames hname hdir true
  rw [walkN_none maxLinks [] hdir hname hnone] at hwalk
  refine contained_of_walk (fun loc h => nomatch hwalk.symm.trans h) (fun d m h => ?_)
    fun loc hne => ?_
  · cases hwalk.symm.trans h
    exact hbelow
  have hmkdir : mkdir (ofLoc (name :: dir)) t = .ok () (t.put (name :: dir) .dir) := by
    rw [ofLoc, reverse_cons]
    exact mkdir_first (.location hnames hdir (by simp)) (Nat.zero_le _) hname hdir hnone
  obtain ⟨ps, heq⟩ := createDirAll_eq (components_ofLoc_cons hnames hname)
  rw [heq, createDirs, tryCatch_of_ok hmkdir, stateOf,
    Tree.put_node (Tree.fits_of_none hdir hnone)] at hne
  by_cases hloc : loc = name :: dir
  · rw [hloc]
    exact hbelow
  · exact absurd (Function.update_of_ne hloc _ _) hne

theorem contained_iff_of_link {target : String}
    (hlink : t.node (name :: dir) = some (.link target)) {d : Loc} {m : String} {rest : Path}
    (hmissing : walkN t true maxLinks dir [name] = .missing d m rest) :
    Contained t root (ofLoc (name :: dir)) ↔ (rest = [] → root <:+ m :: d) := by
  have hwalk := (walk_ofLoc_cons hnames hname hdir true).trans hmissing
  constructor
  · intro h hrest
    subst hrest
    obtain ⟨-, hnone⟩ := walk_missing hwalk
    obtain ⟨t', mode, hwrite, hnode⟩ := writeData_slot (.text "") (.new hwalk)
    refine h.write (.text "") (m :: d) ?_
    rw [hwrite, stateOf, hnode, Function.update_self, hnone]
    simp
  · intro hbelow
    refine contained_of_walk (fun loc h => ?_) (fun d m h => ?_) fun loc hne => ?_
    · cases hwalk.symm.trans h
    · cases hwalk.symm.trans h
      exact hbelow rfl
    have hreach : Reaches t 0 [] dir.reverse dir [] := .location hnames hdir (by simp)
    have hfollow : t.follow (dir.reverse ++ [name]) = .missing d m rest :=
      (hreach.walkN_append maxLinks [name] (.inl rfl)).trans hmissing
    have hfail := createDirs_first_link hreach (Nat.zero_le _) hname hdir hlink hfollow
    obtain ⟨ps, heq⟩ := createDirAll_eq (components_ofLoc_cons hnames hname)
    rw [heq, ofLoc, reverse_cons, hfail ps] at hne
    exact absurd rfl hne

end Parent

theorem contained_iff_of_parent {init : List String} {name m : String} {dir d : Loc} {rest : Path}
    (hinit : t.follow init = .found dir) (hname : IsName name)
    (hmissing : t.follow (init ++ [name]) = .missing d m rest) (hroot : t.node root ≠ none)
    (hbelow : root <:+ name :: dir) :
    Contained t root (ofLoc (name :: dir)) ↔ Confined t root (init ++ [name]) := by
  have hfirst : FirstMissing t (init ++ [name]) init name [] dir :=
    ⟨rfl, hinit, d, m, rest, hmissing⟩
  obtain ⟨hdir, hnode⟩ := hfirst.node hname
  obtain ⟨k, hk, hreach⟩ := hfirst.reaches
  have hnames : ∀ c ∈ dir, IsName c := hreach.isName (by simp)
  rcases hnode with hnone | ⟨target, hlink⟩
  · have hsuffix := suffix_of_missing hroot hnone hbelow
    refine iff_of_true (contained_of_none hnames hname hdir hbelow hnone)
      (.of_firstMissing hfirst (fun _ => hsuffix) ?_)
    intro d' m' hend
    rw [FirstMissing.of_none hinit hname hdir hnone] at hend
    cases hend
    exact hsuffix
  · have hlong : walkN t true maxLinks dir [name] = .missing d m rest := by
      obtain ⟨n, hn⟩ := Nat.exists_eq_add_of_le' hk
      have hshort := hmissing
      rw [Tree.follow, hn, hreach.walkN_append n [name] (.inl rfl)] at hshort
      obtain ⟨j, hj, hreach', hm, hd, hnone⟩ := reaches_of_missing hdir hshort
      exact hreach'.missing (by omega) hd hm hnone
    rw [contained_iff_of_link hnames hname hdir hlink hlong]
    constructor
    · intro hrest
      refine .of_firstMissing hfirst ?_ ?_
      · intro hway
        have hnone := (walkN_missing maxLinks [] _ t.root hway).2
        rw [hlink] at hnone
        cases hnone
      · intro d' m' hend
        rw [hmissing] at hend
        cases hend
        exact suffix_of_missing hroot (walkN_missing maxLinks [] _ t.root hmissing).2 (hrest rfl)
    · rintro h rfl
      exact (h.atTheEnd d m hmissing).trans (suffix_cons m d)

theorem contained_iff_of_missing {pre post : List String} {name : String} {dir : Loc}
    (h : FirstMissing t p.components pre name post dir) (hp : p ≠ [""])
    (habs : p.isAbsolute = true) (hname : IsName name) (hpost : post ≠ []) (hup : ".." ∉ post)
    (hroot : t.node root ≠ none) :
    Contained t root p ↔ Confined t root p.components := by
  have hmissing : ∀ d m, t.follow p.components ≠ .missing d m [] := by
    intro d m hend
    obtain ⟨d', m', rest, hfirst⟩ := h.missing
    have happend := walkN_missing_append t.root hfirst post (.inl rfl)
    rw [append_assoc, singleton_append, ← h.split] at happend
    rw [Tree.follow, happend] at hend
    exact hpost (append_eq_nil_iff.mp (Stop.missing.inj hend).2.2).2
  have hread : ∀ loc, t.walk true p ≠ .found loc := by
    intro loc hfound
    exact h.not_found_beyond post loc (h.split ▸ follow_of_found hfound)
  have hwrite : ∀ d m, t.walk true p ≠ .missing d m [] :=
    fun d m hnew => hmissing d m (follow_of_missing hp hnew)
  have hkeeps : (∀ loc, (stateOf (createDirAll p t)).node loc ≠ t.node loc → root <:+ loc) →
      Contained t root p :=
    contained_of_walk (fun loc h => absurd h (hread loc)) fun d m h => absurd h (hwrite d m)
  obtain ⟨hdir, hnone | ⟨target, hlink⟩⟩ := h.node hname
  · obtain ⟨hgrows, hmade⟩ := createDirAll_new h hname habs hpost hup hnone
    constructor
    · intro hcontained
      have hbelow : root <:+ name :: dir := by
        refine hcontained.mkdirs (name :: dir) ?_
        rw [hmade, hnone]
        simp
      exact .of_firstMissing h (fun _ => suffix_of_missing hroot hnone hbelow)
        fun d m hend => absurd hend (hmissing d m)
    · intro hconfined
      have hsuffix := hconfined.onTheWay pre name post dir h.split h.found
        (FirstMissing.of_none h.found hname hdir hnone)
      refine hkeeps fun loc hne => ?_
      rcases hgrows loc with heq | ⟨hloc, -, -⟩
      · exact absurd heq hne
      · exact (hsuffix.trans (suffix_cons name dir)).trans hloc
  · refine iff_of_true (hkeeps fun loc hne => ?_) (.of_firstMissing h ?_ ?_)
    · rw [createDirAll_link h hname habs hpost hup hlink] at hne
      exact absurd rfl hne
    · intro hway
      have hnone := (walkN_missing maxLinks [] _ t.root hway).2
      rw [hlink] at hnone
      cases hnone
    · exact fun d m hend => absurd hend (hmissing d m)

end Cases

namespace Guestfs

theorem trimmed_not_absolute (s : String) :
    Path.isAbsolute (ofString (trimStartMatches (· = '/') s)) = false := by
  by_contra habs
  have hsplit : ∃ b rest, (s.toList.dropWhile (· = '/')).splitOn '/' = [] :: b :: rest := by
    rw [ofString, split, trimStartMatches, String.toList_ofList] at habs
    rcases hpieces : (s.toList.dropWhile (· = '/')).splitOn '/' with _ | ⟨_ | ⟨c, a⟩, _ | ⟨b, rest⟩⟩
    case cons.nil.cons => exact ⟨b, rest, rfl⟩
    all_goals simp [hpieces, Path.isAbsolute] at habs
  obtain ⟨b, rest, hsplit⟩ := hsplit
  have hjoin : ['/'].intercalate ((s.toList.dropWhile (· = '/')).splitOn '/') =
      s.toList.dropWhile (· = '/') := intercalate_splitOn '/'
  rw [hsplit] at hjoin
  have hne : s.toList.dropWhile (fun c => decide (c = '/')) ≠ [] := by
    rw [← hjoin]
    simp [List.intercalate]
  have hhead := head_dropWhile_not (fun c => decide (c = '/')) hne
  simp [← hjoin, List.intercalate] at hhead

section Candidate

variable {rootMountpoint guestPath : String}

theorem candidatePath_eq (rootMountpoint guestPath : String) :
    ∃ base, candidatePath rootMountpoint guestPath =
        base ++ ofString (trimStartMatches (· = '/') guestPath) ∧
      Path.components base = (ofString rootMountpoint).components ∧
      (base = [] → ofString rootMountpoint = [""]) := by
  unfold candidatePath Path.join
  rw [if_neg (by rw [trimmed_not_absolute]; decide)]
  split
  · rename_i hlast
    obtain ⟨init, hinit⟩ := List.getLast?_eq_some_iff.mp hlast
    rw [hinit, dropLast_concat]
    refine ⟨init, rfl, by simp [Path.components, filter_append], ?_⟩
    rintro rfl
    rfl
  · refine ⟨_, rfl, rfl, fun hnil => ?_⟩
    exact absurd hnil (split_ne_nil '/' rootMountpoint)

theorem candidatePath_components (h : contains guestPath ".." = false) :
    ∃ names, (candidatePath rootMountpoint guestPath).components =
        (ofString rootMountpoint).components ++ names ∧ ∀ c ∈ names, IsName c := by
  obtain ⟨base, heq, hbase, -⟩ := candidatePath_eq rootMountpoint guestPath
  refine ⟨(ofString (trimStartMatches (· = '/') guestPath)).components, ?_, ?_⟩
  · rw [heq, ← hbase]
    exact filter_append _ _
  · intro c hc
    obtain ⟨hmem, hblank⟩ := mem_filter.mp hc
    refine ⟨(of_decide_eq_true hblank).1, (of_decide_eq_true hblank).2, ?_⟩
    rintro rfl
    exact not_mem_split (contains_trimStartMatches _ h) '/' hmem

theorem candidatePath_ne (h : ofString rootMountpoint ≠ [""]) :
    candidatePath rootMountpoint guestPath ≠ [""] := by
  obtain ⟨base, heq, -, hnil⟩ := candidatePath_eq rootMountpoint guestPath
  intro hblank
  rw [heq] at hblank
  have hbase : base ≠ [] := fun hbase => h (hnil hbase)
  have hlength := congrArg List.length hblank
  have hguest : (ofString (trimStartMatches (· = '/') guestPath)).length ≠ 0 := by
    rw [Ne, length_eq_zero_iff]
    exact split_ne_nil '/' _
  have hpos := length_pos_iff.mpr hbase
  simp only [length_append, length_singleton] at hlength
  omega

end Candidate

theorem validateFsPath_ok {path : String} (h : PathValidator.validateFsPath path = .ok ()) :
    contains path ".." = false := by
  unfold PathValidator.validateFsPath at h
  split at h
  · cases h
  · split at h
    · cases h
    · rename_i hcontains
      simpa using hcontains

/-- How a path that is below the canonical root was found to be. -/
inductive Accepted (t : Tree) (root : Loc) (c : Path) : Path → Prop
  | found {loc : Loc} : t.walk true c = .found loc → root <:+ loc →
      Accepted t root c (ofLoc loc)
  | parent {d dir : Loc} {m name : String} {rest : Path} {init : List String} :
      t.walk true c = .missing d m rest → c.components = init ++ [name] → IsName name →
      t.follow init = .found dir → root <:+ name :: dir →
      Accepted t root c (ofLoc (name :: dir))
  | itself {d : Loc} {m name : String} {rest : Path} {init : List String} :
      t.walk true c = .missing d m rest → c.components = init ++ [name] →
      c.isAbsolute = true → (∀ dir, t.follow init ≠ .found dir) → Accepted t root c c

section Accepted

variable {t : Tree} {root : Loc} {c parent p : Path}

theorem parent_eq (h : c.parent = some parent) :
    parent = Path.ofComponents c.isAbsolute c.components.dropLast := by
  unfold Path.parent at h
  split at h
  · cases h
  · exact (Option.some.inj h).symm

theorem parent_components (h : c.parent = some parent) :
    parent.components = c.components.dropLast := by
  rw [parent_eq h]
  refine components_ofComponents _ fun d hd => ?_
  exact of_decide_eq_true (mem_filter.mp (mem_of_mem_dropLast hd)).2

theorem not_found_of_parent (habs : c.isAbsolute = true) (hparent : c.parent = some parent)
    {e : Errno} (h : t.canonicalize parent = .error e) (dir : Loc) :
    t.follow c.components.dropLast ≠ .found dir := by
  intro hfound
  obtain ⟨k, hk, hreach⟩ := reaches_of_found t.root hfound
  have hwalk : t.walk true parent = .found dir := by
    rw [parent_eq hparent, habs]
    cases hinit : c.components.dropLast with
    | nil =>
      rw [hinit] at hreach
      have hblank : Reaches t k [] ["", ""] dir [] :=
        .blank t.root (.inl rfl) (.blank t.root (.inl rfl) hreach)
      rw [show Path.ofComponents true [] = ["", ""] from rfl, walk_of_ne (by simp)]
      exact hblank.found hk
    | cons d init =>
      rw [hinit] at hreach
      have hblank : Reaches t k [] ("" :: d :: init) dir [] := .blank t.root (.inl rfl) hreach
      rw [show Path.ofComponents true (d :: init) = "" :: d :: init from rfl,
        walk_of_ne (by simp)]
      exact hblank.found hk
  rw [canonicalize_ok.mpr hwalk] at h
  cases h

theorem fileName_eq {name : String} (h : c.fileName = some name) :
    c.components = c.components.dropLast ++ [name] ∧ IsName name := by
  unfold Path.fileName at h
  obtain ⟨hlast, hup⟩ := Option.filter_eq_some_iff.mp h
  obtain ⟨init, hinit⟩ := List.getLast?_eq_some_iff.mp hlast
  have hblank : name ≠ "" ∧ name ≠ "." := by
    have hmem : name ∈ c.components := by simp [hinit]
    exact of_decide_eq_true (mem_filter.mp hmem).2
  exact ⟨by simp [hinit], hblank.1, hblank.2, by simpa using hup⟩

theorem accepted_of_canonicalCandidate {guestPath : String} (hroot : ∀ c ∈ root, IsName c)
    (h : canonicalCandidate t c guestPath = .ok p)
    (hstarts : p.startsWith (ofLoc root) = true) : Accepted t root c p := by
  unfold canonicalCandidate at h
  cases hc : t.canonicalize c with
  | ok loc =>
    rw [hc] at h
    cases h
    rw [canonicalize_ok] at hc
    exact .found hc (suffix_of_startsWith hroot (isName_of_walk hc) hstarts)
  | error e =>
    rw [hc] at h
    cases e with
    | noEnt =>
      dsimp only at h
      obtain ⟨d, m, rest, hmissing⟩ := canonicalize_noEnt.mp hc
      cases hparent : c.parent with
      | none => simp [hparent] at h
      | some parent =>
        cases hname : c.fileName with
        | none => simp [hparent, hname] at h
        | some name =>
          obtain ⟨hsplit, hname'⟩ := fileName_eq hname
          rw [hparent, hname] at h
          dsimp only at h
          cases hdir : t.canonicalize parent with
          | ok dir =>
            have hwalk := canonicalize_ok.mp hdir
            have hnames := isName_of_walk hwalk
            rw [hdir] at h
            cases h
            rw [join_ofLoc hnames] at hstarts ⊢
            refine .parent hmissing hsplit hname' ?_ (suffix_of_startsWith hroot ?_ hstarts)
            · rw [← parent_components hparent]
              exact follow_of_found hwalk
            · exact forall_mem_cons.mpr ⟨hname', hnames⟩
          | error e =>
            rw [hdir] at h
            cases h
            rw [Path.startsWith, decide_eq_true_iff, isAbsolute_ofLoc] at hstarts
            exact .itself hmissing hsplit hstarts.1 (not_found_of_parent hstarts.1 hparent hdir)
    | exist => cases h
    | notDir => cases h
    | isDir => cases h
    | loop => cases h
    | notFile => cases h
    | notUtf8 => cases h

end Accepted

theorem candidatePath_beyond {rootMountpoint guestPath name : String} {pre post : List String}
    {dir : Loc} (hvalid : contains guestPath ".." = false)
    (hroot : t.follow (ofString rootMountpoint).components = .found root)
    (h : FirstMissing t (candidatePath rootMountpoint guestPath).components pre name post dir) :
    ∀ c ∈ name :: post, IsName c := by
  obtain ⟨names, hsplit, hnames⟩ := candidatePath_components hvalid
  have hsub : ∀ c ∈ name :: post, c ∈ names := by
    rcases append_eq_append_iff.mp (hsplit.symm.trans h.split) with
      ⟨a, hpre, ha⟩ | ⟨a, hbase, ha⟩
    · rw [ha]
      exact fun c hc => mem_append_right a hc
    · cases a with
      | nil => simp [ha]
      | cons x a =>
        obtain ⟨rfl, -⟩ := List.cons.inj ha
        exact absurd (hbase ▸ hroot) (h.not_found_beyond a root)
  exact fun c hc => hnames c (hsub c hc)

theorem Accepted.contained_iff {rootMountpoint guestPath : String}
    (hvalid : contains guestPath ".." = false)
    (hwalk : t.walk true (ofString rootMountpoint) = .found root)
    (h : Accepted t root (candidatePath rootMountpoint guestPath) p) :
    Contained t root p ↔ Confined t root (candidatePath rootMountpoint guestPath).components := by
  have hnode : t.node root ≠ none := by
    obtain ⟨o, hnode, -⟩ := node_of_walk hwalk
    simp [hnode]
  have hne : candidatePath rootMountpoint guestPath ≠ [""] :=
    candidatePath_ne (ne_of_walk_found hwalk)
  cases h with
  | found hfound hbelow =>
    exact iff_of_true (contained_of_found hbelow (walk_ofLoc hfound))
      (confined_of_found (follow_of_found hfound))
  | parent hmissing hsplit hname hinit hbelow =>
    obtain ⟨rest, -, hfollow⟩ := follow_of_missing_rest hne hmissing
    rw [hsplit] at hfollow ⊢
    exact contained_iff_of_parent hinit hname hfollow hnode hbelow
  | itself hmissing hsplit habs hinit =>
    obtain ⟨rest, -, hfollow⟩ := follow_of_missing_rest hne hmissing
    obtain ⟨pre, name, post, dir, hfirst⟩ := exists_firstMissing hfollow
    have hnames := candidatePath_beyond hvalid (follow_of_found hwalk) hfirst
    refine contained_iff_of_missing hfirst hne habs (hnames name mem_cons_self) ?_ ?_ hnode
    · rintro rfl
      have hpre := append_inj_left' (hfirst.split.symm.trans hsplit) rfl
      exact hinit dir (hpre ▸ hfirst.found)
    · exact fun hup => (hnames ".." (mem_cons_of_mem name hup)).2.2 rfl

section Resolve

variable {self : Guestfs} {order : HashOrder String String} {t : Tree} {root : Loc} {p : Path}
  {rootMountpoint guestPath : String}

section

variable (hmp : self.findRootMountpoint order = .ok rootMountpoint)
  (hroot : t.canonicalize (ofString rootMountpoint) = .ok root)
  (h : self.resolveGuestPath order t guestPath = .ok p)
include hmp hroot h

theorem resolveGuestPath_accepted :
    contains guestPath ".." = false ∧
      Accepted t root (candidatePath rootMountpoint guestPath) p := by
  unfold resolveGuestPath at h
  cases hvalid : PathValidator.validateFsPath guestPath with
  | error e =>
    rw [hvalid] at h
    cases h
  | ok u =>
    simp only [hvalid, hmp, hroot, bind, Except.bind] at h
    refine ⟨validateFsPath_ok hvalid, ?_⟩
    split at h
    · cases h
    · next hc =>
      split at h
      · rename_i hstarts
        cases h
        exact accepted_of_canonicalCandidate (isName_of_walk (canonicalize_ok.mp hroot)) hc hstarts
      · cases h

omit hmp hroot h in
theorem found_of_accepted {loc : Loc} {c : Path} (hc : c ≠ [""])
    (h : Accepted t root c (ofLoc loc)) (hloc : t.walk true (ofLoc loc) = .found loc) :
    t.walk true c = .found loc := by
  have hnames := components_ofLoc (isName_of_walk hloc)
  generalize hp : ofLoc loc = p at h
  cases h with
  | @found loc' hfound _ =>
    obtain rfl : loc = loc' := by
      rw [← reverse_inj, ← hnames, hp, components_ofLoc (isName_of_walk hfound)]
    exact hfound
  | @parent d dir m name rest init hmissing hsplit hname hinit _ =>
    obtain ⟨k, hk, hreach⟩ := reaches_of_found t.root hinit
    have hnames' := forall_mem_cons.mpr ⟨hname, hreach.isName (by simp)⟩
    obtain rfl : loc = name :: dir := by
      rw [← reverse_inj, ← hnames, hp, components_ofLoc hnames']
    obtain ⟨o, hnode, hlink⟩ := node_of_walk hloc
    have hlast : Reaches t k [] (init ++ [name]) (name :: dir) [] :=
      (hreach.append [name]).trans (.name (t.parent_of_some hnode) hname hnode hlink .refl)
    obtain ⟨rest', -, hfollow⟩ := follow_of_missing_rest hc hmissing
    rw [hsplit, Tree.follow, hlast.found hk] at hfollow
    cases hfollow
  | itself => exact hp ▸ hloc

/-- Reading, writing and making directories at a resolved path stay below the canonical root exactly
if what is missing on the candidate path is missing from directories below it. -/
theorem resolveGuestPath_contained_iff :
    Contained t root p ↔ Confined t root (candidatePath rootMountpoint guestPath).components := by
  obtain ⟨hvalid, haccepted⟩ := resolveGuestPath_accepted hmp hroot h
  exact haccepted.contained_iff hvalid (canonicalize_ok.mp hroot)

end

end Resolve

def mountedGuest : Guestfs :=
  { state := .ready
    mounted := (∅ : HashMap String String).insert "/dev/sda1" "/m"
    mountRoot := some ["", "m"] }

def linkTree : Tree := .ofList [(["m"], .dir), (["evil", "m"], .link "/out")]

theorem linkTree_written_outside :
    mountedGuest.resolveGuestPath .newestFirst linkTree "/evil" = .ok ["", "m", "evil"] ∧
      linkTree.canonicalize ["", "m"] = .ok ["m"] ∧
      linkTree.node ["out"] = none ∧
      (stateOf (writeData ["", "m", "evil"] (.text "x") linkTree)).node ["out"] =
        some (.file (.text "x") 0o644) ∧
      ¬["m"] <:+ ["out"] := by
  decide +kernel

theorem linkTree_new_contained_iff :
    mountedGuest.resolveGuestPath .newestFirst linkTree "/new" = .ok ["", "m", "new"] ∧
      (Contained linkTree ["m"] ["", "m", "new"] ↔
        Confined linkTree ["m"] (candidatePath "/m" "/new").components) := by
  have hmp : mountedGuest.findRootMountpoint .newestFirst = .ok "/m" := by decide +kernel
  have hroot : linkTree.canonicalize (ofString "/m") = .ok ["m"] := by decide +kernel
  have h : mountedGuest.resolveGuestPath .newestFirst linkTree "/new" = .ok ["", "m", "new"] := by
    decide +kernel
  exact ⟨h, resolveGuestPath_contained_iff hmp hroot h⟩

end Guestfs

end Guestkit
