import Guestkit.Lib.Fs.Spec
import Guestkit.Plan.ExecutorLive

/-! The snapshots that the live executor takes.  `Backups` says what the file tree holds between
operations: the rollback directory has a copy of each file entered so far as it was before the run,
and the manifest lists these; every other file outside it is as it was. -/

namespace Guestkit.Plan

open Lib Lib.Fs Function LivePlanExecutor List

/-! ### The names of backups -/

theorem backupName_no_slash (s : String) : '/' ∉ (backupName s).toList := by
  unfold backupName Text.replaceChars
  rw [String.toList_ofList, mem_flatMap]
  rintro ⟨c, -, hc⟩
  split at hc
  · simp at hc
  · rename_i hcontains
    rw [mem_singleton.mp hc] at hcontains
    simp at hcontains

theorem backupPath_eq (dir : Path) (s : String) :
    dir.join (Path.ofString (backupName s)) = dir.join [backupName s] := by
  rw [Path.ofString, Text.split_of_not_mem (backupName_no_slash s)]

theorem backupName_of_dots {s : String} (h : ∀ c ∈ (backupName s).toList, c = '.') :
    backupName s = String.ofList (s.toList.dropWhile (· = '/')) := by
  unfold backupName Text.replaceChars Text.trimStartMatches at h ⊢
  simp only [String.toList_ofList] at h ⊢
  congr 1
  generalize s.toList.dropWhile (fun c => decide (c = '/')) = cs at h
  induction cs with
  | nil => rfl
  | cons c cs ih =>
    rw [flatMap_cons] at h ⊢
    rw [ih fun a ha => h a (mem_append_right _ ha)]
    by_cases hbad : ['/', '\\', ':'].contains c = true
    · rw [if_pos hbad] at h
      exact absurd (h '_' (by simp)) (by decide)
    · rw [if_neg hbad]
      rfl

theorem isName_backupName {t : Tree} {s : String} {g : Loc} {data : Data} {mode : Nat}
    (hwalk : t.walk true (Path.ofString s) = .found g)
    (hfile : t.node g = some (.file data mode)) : IsName (backupName s) := by
  by_contra hname
  have hdots : ∀ c ∈ (backupName s).toList, c = '.' := by
    rcases piece_cases (backupName s) with (h | h) | h | h
    · simp [h]
    · simp [h]
    · simp [h]
    · exact absurd h hname
  have hslash : '/' ∉ s.toList.dropWhile (· = '/') := by
    have := backupName_no_slash s
    rw [backupName_of_dots hdots] at this
    simpa using this
  obtain ⟨k, hk⟩ := Path.ofString_slashes hslash
  rw [walk_of_ne (ne_of_walk_found hwalk), hk, ← backupName_of_dots hdots,
    walkN_slashes t maxLinks k hname] at hwalk
  cases hwalk
  rw [t.root] at hfile
  cases hfile
/-! ### The invariant of a run -/

/-- The rollback directory `dir`, at `top`, is empty. -/
structure FreshDir (t : Tree) (dir : Path) (top : Loc) : Prop where
  walk : t.walk true dir = .found top
  isDir : t.node top = some .dir
  empty : ∀ loc, top <:+ loc → loc ≠ top → t.node loc = none

def entryFor (dir path : Path) : RollbackFileEntry :=
  { originalPath := path.display
    backupPath := dir.join [backupName path.display]
    removed := false }

structure IsFileAt (t : Tree) (path : Path) (g : Loc) : Prop where
  clean : path.Clean
  walk : t.walk true path = .found g
  node : ∃ data mode, t.node g = some (.file data mode)

/-- What the tree holds when the files `done`, given by path and location, have been entered in the
manifest; `t₁` is the tree before the operations. -/
structure Backups {ε : Type} (host : Host ε) (dir : Path) (top : Loc) (t₁ : Tree)
    (done : List (Path × Loc)) (t : Tree) : Prop where
  files : ∀ e ∈ done, IsFileAt t₁ e.1 e.2
  names : ∀ e ∈ done, backupName e.1.display ≠ "manifest.json"
  distinct : done.Pairwise fun a b =>
    a.2 ≠ b.2 ∧ backupName a.1.display ≠ backupName b.1.display
  outside : ∀ loc, ¬top <:+ loc → (∀ e ∈ done, e.2 ≠ loc) → t.node loc = t₁.node loc
  target : ∀ e ∈ done, t.node e.2 = none ∨ ∃ data mode, t.node e.2 = some (.file data mode)
  isDir : t.node top = some .dir
  copy : ∀ e ∈ done, t.node (backupName e.1.display :: top) = t₁.node e.2
  children : ∀ name, t.node (name :: top) ≠ none →
    name = "manifest.json" ∨ ∃ e ∈ done, name = backupName e.1.display
  manifest : t.node ("manifest.json" :: top) =
    if done = [] then none
    else some (.file (.text (host.encodeManifest ⟨done.map fun e => entryFor dir e.1⟩)) 0o644)

section Invariant

variable {ε : Type} {host : Host ε} {dir : Path} {top : Loc} {t₁ t : Tree}
  {done : List (Path × Loc)} (hfresh : FreshDir t₁ dir top)

include hfresh

theorem FreshDir.not_below {loc : Loc} {data : Data} {mode : Nat}
    (h : t₁.node loc = some (.file data mode)) : ¬top <:+ loc := by
  intro hbelow
  by_cases heq : loc = top
  · rw [heq, hfresh.isDir] at h
    cases h
  · rw [hfresh.empty loc hbelow heq] at h
    cases h

theorem FreshDir.child_none (name : String) : t₁.node (name :: top) = none :=
  hfresh.empty _ (suffix_cons name top) (by simp)

theorem FreshDir.backups : Backups host dir top t₁ [] t₁ where
  files := by simp
  names := by simp
  distinct := List.Pairwise.nil
  outside _ _ _ := rfl
  target := by simp
  isDir := hfresh.isDir
  copy := by simp
  children name h := absurd (hfresh.child_none name) h
  manifest := by simp [hfresh.child_none]

section

variable (h : Backups host dir top t₁ done t)
include h

theorem Backups.keeps : Keeps top t₁ t := by
  have hother : ∀ loc n, t₁.node loc = some n → (∀ d m, n ≠ .file d m) → t.node loc = some n := by
    intro loc n hloc hn
    by_cases htop : top <:+ loc
    · by_cases heq : loc = top
      · rw [heq, hfresh.isDir] at hloc
        cases hloc
        rw [heq]
        exact h.isDir
      · rw [hfresh.empty loc htop heq] at hloc
        cases hloc
    · rw [h.outside loc htop, hloc]
      rintro e he rfl
      obtain ⟨data, mode, hfile⟩ := (h.files e he).node
      rw [hfile] at hloc
      cases hloc
      exact hn data mode rfl
  constructor
  · exact fun loc hloc => hother loc _ hloc (by simp)
  · exact fun loc target hloc => hother loc _ hloc (by simp)
  · intro loc data mode hloc
    by_cases hdone : ∃ e ∈ done, e.2 = loc
    · obtain ⟨e, he, rfl⟩ := hdone
      exact h.target e he
    · rw [h.outside loc (hfresh.not_below hloc) fun e he heq => hdone ⟨e, he, heq⟩]
      exact .inr ⟨data, mode, hloc⟩
  · intro loc hnone hsome
    by_contra htop
    refine hsome ?_
    rw [h.outside loc htop, hnone]
    rintro e he rfl
    obtain ⟨data, mode, hfile⟩ := (h.files e he).node
    rw [hfile] at hnone
    cases hnone

theorem Backups.slot {e : Path × Loc} (he : e ∈ done) :
    t.Slot e.1 e.2 := by
  have hwalk := (h.files e he).walk
  rcases h.target e he with hnone | ⟨data, mode, hfile⟩
  · obtain ⟨name, parent, hloc, hmissing⟩ := (h.keeps hfresh).walk_gone hwalk hnone
    rw [hloc]
    exact .new hmissing
  · exact .file ((h.keeps hfresh).walk_found hwalk (by rw [hfile]; simp)) hfile

theorem Backups.walk_child {name : String}
    (hname : IsName name) (hno : ∀ target, t.node (name :: top) ≠ some (.link target)) :
    t.walk true (dir.join [name]) =
      if t.node (name :: top) = none then .missing top name [] else .found (name :: top) := by
  have hdir : t.walk true dir = .found top :=
    (h.keeps hfresh).walk_found hfresh.walk (by rw [h.isDir]; simp)
  exact walk_join hdir h.isDir hname hno

theorem Backups.edit {e : Path × Loc} (he : e ∈ done)
    {t' : Tree} (hsame : ∀ loc, loc ≠ e.2 → t'.node loc = t.node loc)
    (hfile : t'.node e.2 = none ∨ ∃ data mode, t'.node e.2 = some (.file data mode)) :
    Backups host dir top t₁ done t' := by
  obtain ⟨data, mode, hnode⟩ := (h.files e he).node
  have hbelow : ∀ loc, top <:+ loc → t'.node loc = t.node loc := by
    intro loc htop
    exact hsame loc fun heq => hfresh.not_below hnode (heq ▸ htop)
  refine ⟨h.files, h.names, h.distinct, ?_, ?_, ?_, ?_, ?_, ?_⟩
  · intro loc htop hdone
    rw [hsame loc fun heq => hdone e he heq.symm]
    exact h.outside loc htop hdone
  · intro e' he'
    by_cases heq : e'.2 = e.2
    · rw [heq]
      exact hfile
    · rw [hsame _ heq]
      exact h.target e' he'
  · rw [hbelow top suffix_rfl]
    exact h.isDir
  · intro e' he'
    rw [hbelow _ (suffix_cons _ top)]
    exact h.copy e' he'
  · intro name hname
    rw [hbelow _ (suffix_cons _ top)] at hname
    exact h.children name hname
  · rw [hbelow _ (suffix_cons _ top)]
    exact h.manifest

end

end Invariant

/-! ### Programs of the executor on files -/

section Programs

variable {ε α : Type} {s : Machine ε}

theorem onFiles_ok {m : FsM α} {a : α} {t : Tree} (h : m s.tree = .ok a t) :
    onFiles m s = .ok a { s with tree := t } := by
  rw [onFiles, h]

theorem onFiles_error {m : FsM α} {e : Errno} {t : Tree} (h : m s.tree = .error e t) :
    onFiles m s = .error e.message { s with tree := t } := by
  rw [onFiles, h]

end Programs

section Snapshots

variable {ε : Type} {host : Host ε} {dir : Path} {top : Loc} {t₁ : Tree}
  {done : List (Path × Loc)}

theorem isName_manifest : IsName "manifest.json" := by
  decide

theorem readManifest_ok (hcodec : ∀ m, host.decodeManifest (host.encodeManifest m) = .ok m)
    {s : Machine ε} (hdir : s.tree.walk true dir = .found top)
    (hnode : s.tree.node top = some .dir)
    (hmanifest : s.tree.node ("manifest.json" :: top) =
      if done = [] then none
      else some (.file (.text (host.encodeManifest ⟨done.map fun e => entryFor dir e.1⟩)) 0o644)) :
    readManifest host (dir.join ["manifest.json"]) s =
      .ok ⟨done.map fun e => entryFor dir e.1⟩ s := by
  have hwalk := walk_join hdir hnode isName_manifest
    (by rw [hmanifest]; split <;> simp)
  rw [readManifest, get_bind]
  by_cases hdone : done = []
  · rw [if_pos hdone] at hmanifest
    rw [if_pos hmanifest] at hwalk
    rw [if_neg (by simp [pathExists_iff, hwalk]), hdone]
    rfl
  · rw [if_neg hdone] at hmanifest
    rw [if_neg (by rw [hmanifest]; simp)] at hwalk
    rw [if_pos (pathExists_iff.mpr ⟨_, _, hwalk, hmanifest⟩)]
    have hread : fromFiles (fun t => t.readToString (dir.join ["manifest.json"])) s =
        .ok (host.encodeManifest ⟨done.map fun e => entryFor dir e.1⟩) s := by
      simp only [fromFiles, Tree.readToString, Tree.read, Tree.lookup, hwalk, bind, Except.bind,
        hmanifest]
    rw [bind_of_ok hread, hcodec]
    rfl

theorem writeManifest_ok {t : Tree} (hdir : t.walk true dir = .found top)
    (hnode : t.node top = some .dir) (hmanifest : t.node ("manifest.json" :: top) = none ∨
      ∃ data, t.node ("manifest.json" :: top) = some (.file data 0o644)) (content : String) :
    ∃ t', write (dir.join ["manifest.json"]) content t = .ok () t' ∧
      t'.node = update t.node ("manifest.json" :: top)
        (some (.file (.text content) 0o644)) := by
  have hwalk := walk_join hdir hnode isName_manifest
    (by rcases hmanifest with h | ⟨_, h⟩ <;> simp [h])
  rcases hmanifest with hnone | ⟨data, hfile⟩
  · rw [if_pos hnone] at hwalk
    exact ⟨_, writeData_missing hwalk, Tree.put_node (Tree.fits_of_none hnode hnone)⟩
  · rw [if_neg (by rw [hfile]; simp)] at hwalk
    exact ⟨_, writeData_found hwalk hfile, Tree.put_node (Tree.fits_of_file hfile)⟩

theorem Backups.enter {t t' : Tree} (hfresh : FreshDir t₁ dir top)
    (h : Backups host dir top t₁ done t) {path : Path} {g : Loc} (hfile : IsFileAt t₁ path g)
    (hnew : ∀ e ∈ done, e.2 ≠ g ∧ backupName e.1.display ≠ backupName path.display)
    (hname : backupName path.display ≠ "manifest.json")
    (hcopy : t'.node (backupName path.display :: top) = t₁.node g)
    (hmanifest : t'.node ("manifest.json" :: top) = some (.file (.text (host.encodeManifest
      ⟨(done ++ [(path, g)]).map fun e => entryFor dir e.1⟩)) 0o644))
    (hsame : ∀ loc, loc ≠ backupName path.display :: top → loc ≠ "manifest.json" :: top →
      t'.node loc = t.node loc) :
    Backups host dir top t₁ (done ++ [(path, g)]) t' := by
  obtain ⟨data, mode, hnode⟩ := hfile.node
  have houtside : ∀ loc, ¬top <:+ loc → t'.node loc = t.node loc := by
    intro loc htop
    refine hsame loc ?_ ?_ <;> (rintro rfl; exact htop (suffix_cons _ top))
  have hmem : ∀ e, e ∈ done ++ [(path, g)] ↔ e ∈ done ∨ e = (path, g) := by simp
  have hg : t.node g = t₁.node g :=
    h.outside g (hfresh.not_below hnode) fun e he => (hnew e he).1
  refine ⟨?_, ?_, ?_, ?_, ?_, ?_, ?_, ?_, ?_⟩
  · intro e he
    rcases (hmem e).mp he with he | rfl
    · exact h.files e he
    · exact hfile
  · intro e he
    rcases (hmem e).mp he with he | rfl
    · exact h.names e he
    · exact hname
  · rw [pairwise_append]
    refine ⟨h.distinct, pairwise_singleton _ _, fun a ha b hb => ?_⟩
    rw [mem_singleton.mp hb]
    exact hnew a ha
  · intro loc htop hdone
    rw [houtside loc htop]
    exact h.outside loc htop fun e he => hdone e ((hmem e).mpr (.inl he))
  · intro e he
    rcases (hmem e).mp he with he | rfl
    · obtain ⟨d, m, hd⟩ := (h.files e he).node
      rw [houtside e.2 (hfresh.not_below hd)]
      exact h.target e he
    · right
      refine ⟨data, mode, ?_⟩
      rw [houtside g (hfresh.not_below hnode), hg, hnode]
  · rw [hsame top (by simp) (by simp)]
    exact h.isDir
  · intro e he
    rcases (hmem e).mp he with he | rfl
    · rw [hsame _ (by simpa using (hnew e he).2) (by simpa using h.names e he)]
      exact h.copy e he
    · exact hcopy
  · intro name hsome
    by_cases hmani : name = "manifest.json"
    · exact .inl hmani
    · by_cases hback : name = backupName path.display
      · exact .inr ⟨(path, g), by simp, hback⟩
      · rw [hsame _ (by simpa using hback) (by simpa using hmani)] at hsome
        rcases h.children name hsome with hmani' | ⟨e, he, heq⟩
        · exact absurd hmani' hmani
        · exact .inr ⟨e, (hmem e).mpr (.inl he), heq⟩
  · rw [hmanifest, if_neg (by simp)]

theorem snapshotFile_ok (hcodec : ∀ m, host.decodeManifest (host.encodeManifest m) = .ok m)
    (hfresh : FreshDir t₁ dir top) {s : Machine ε} (h : Backups host dir top t₁ done s.tree)
    {path : Path} {g : Loc} (hfile : IsFileAt t₁ path g)
    (hnew : ∀ e ∈ done, e.2 ≠ g ∧ backupName e.1.display ≠ backupName path.display)
    (hname : backupName path.display ≠ "manifest.json") :
    ∃ t', snapshotFile host path dir s = .ok () { s with tree := t' } ∧
      Backups host dir top t₁ (done ++ [(path, g)]) t' := by
  obtain ⟨data, mode, hnode⟩ := hfile.node
  have hbelow := hfresh.not_below hnode
  have hg : s.tree.node g = some (.file data mode) := by
    rw [h.outside g hbelow fun e he => (hnew e he).1, hnode]
  have hkeeps := h.keeps hfresh
  have hwalk : s.tree.walk true path = .found g :=
    hkeeps.walk_found hfile.walk (by rw [hg]; simp)
  have hisName : IsName (backupName path.display) := by
    refine isName_backupName ?_ hnode
    rw [hfile.clean.ofString_display]
    exact hfile.walk
  have hfree : s.tree.node (backupName path.display :: top) = none := by
    by_contra hsome
    rcases h.children _ hsome with hmani | ⟨e, he, heq⟩
    · exact hname hmani
    · exact (hnew e he).2 heq.symm
  have hslot : s.tree.Slot (dir.join [backupName path.display])
      (backupName path.display :: top) := by
    refine .new ?_
    rw [h.walk_child hfresh hisName (by rw [hfree]; simp), if_pos hfree]
  have hne : g ≠ backupName path.display :: top := by
    rintro rfl
    exact hbelow (suffix_cons _ top)
  obtain ⟨t2, hcopy, hnode2⟩ := copy_ok hwalk hg hslot hne
  have hsame2 : ∀ loc, loc ≠ backupName path.display :: top → t2.node loc = s.tree.node loc := by
    intro loc hloc
    rw [hnode2, update_of_ne hloc]
  have hkeeps2 : Keeps top t₁ t2 :=
    hkeeps.put hnode2 (.inl ⟨hfresh.child_none _, suffix_cons _ top⟩)
  have hdir2 : t2.node top = some .dir := by
    rw [hsame2 top (by simp)]
    exact h.isDir
  have hwalk2 : t2.walk true dir = .found top :=
    hkeeps2.walk_found hfresh.walk (by rw [hdir2]; simp)
  have hmani2 : t2.node ("manifest.json" :: top) = s.tree.node ("manifest.json" :: top) :=
    hsame2 _ (by simpa using Ne.symm hname)
  have hread : readManifest host (dir.join ["manifest.json"])
      { s with tree := t2 } = .ok ⟨done.map fun e => entryFor dir e.1⟩ { s with tree := t2 } :=
    readManifest_ok hcodec hwalk2 hdir2 (by rw [hmani2]; exact h.manifest)
  obtain ⟨t3, hwrite, hnode3⟩ := writeManifest_ok hwalk2 hdir2
    (by rw [hmani2, h.manifest]; split <;> simp)
    (host.encodeManifest ⟨(done ++ [(path, g)]).map fun e => entryFor dir e.1⟩)
  have hunlisted : ¬(done.map fun e => entryFor dir e.1).any
      (fun f => f.originalPath = path.display) = true := by
    simp only [any_map, any_eq_true, comp_apply, decide_eq_true_eq, entryFor]
    rintro ⟨e, he, heq⟩
    have hpath : e.1 = path := by
      rw [← (h.files e he).clean.ofString_display, heq, hfile.clean.ofString_display]
    have hloc := (h.files e he).walk
    rw [hpath, hfile.walk] at hloc
    cases hloc
    exact (hnew e he).1 rfl
  refine ⟨t3, ?_, h.enter hfresh hfile hnew hname ?_ ?_ ?_⟩
  · rw [snapshotFile, get_bind,
      if_pos (pathExists_iff.mpr ⟨_, _, hwalk, hg⟩)]
    dsimp only
    rw [backupPath_eq, bind_of_ok (onFiles_ok hcopy), bind_of_ok hread, if_neg hunlisted]
    simpa [entryFor] using onFiles_ok (s := { s with tree := t2 }) hwrite
  · rw [hnode3, update_of_ne (by simpa using hname), hnode2, update_self, hnode]
  · rw [hnode3, update_self]
  · intro loc hback hmani
    rw [hnode3, update_of_ne hmani, hsame2 loc hback]

end Snapshots

/-! ### Programs that keep the backups -/

section Kept

variable {ε : Type} {host : Host ε} {dir : Path} {top : Loc} {t₁ : Tree}
  {done : List (Path × Loc)}
variable {α : Type}

def Kept (host : Host ε) (dir : Path) (top : Loc) (t₁ : Tree) (done : List (Path × Loc))
    (s s' : Machine ε) : Prop :=
  Backups host dir top t₁ done s.tree → Backups host dir top t₁ done s'.tree

instance : IsTrans (Machine ε) (Kept host dir top t₁ done) :=
  ⟨fun _ _ _ h h' hs => h' (h hs)⟩

theorem Kept.of_tree {s s' : Machine ε} (h : s'.tree = s.tree) :
    Kept host dir top t₁ done s s' := by
  intro hs
  rw [h]
  exact hs

theorem kept_pure (a : α) :
    Always (Kept host dir top t₁ done) (pure a : LiveM ε α) :=
  fun _ hs => hs

theorem kept_throw (e : String) :
    Always (Kept host dir top t₁ done) (throw e : LiveM ε α) :=
  fun _ hs => hs

theorem kept_fromFiles (f : Tree → Except Errno α) :
    Always (Kept host dir top t₁ done) (fromFiles f) := by
  intro s hs
  unfold fromFiles
  cases f s.tree <;> exact hs

theorem kept_command {argv : List String} (hquiet : ∀ s, (host.run argv s).2.tree = s.tree) :
    Always (Kept host dir top t₁ done) (host.command argv) :=
  fun s => Kept.of_tree (hquiet s)

variable (hfresh : FreshDir t₁ dir top) {e : Path × Loc} (he : e ∈ done)

include hfresh he

theorem kept_onFiles {m : FsM α}
    (hm : ∀ t, t.Slot e.1 e.2 → stateOf (m t) = t ∨
      ∃ n : Option Node, (stateOf (m t)).node = update t.node e.2 n ∧
        (n = none ∨ ∃ data mode, n = some (.file data mode))) :
    Always (Kept host dir top t₁ done) (onFiles m) := by
  intro s hs
  have hstate : (stateOf (onFiles m s)).tree = stateOf (m s.tree) := by
    unfold onFiles
    cases m s.tree <;> rfl
  rw [hstate]
  rcases hm s.tree (hs.slot hfresh he) with heq | ⟨n, hnode, hn⟩
  · rw [heq]
    exact hs
  · refine hs.edit hfresh he (fun loc hloc => ?_) ?_
    · rw [hnode, update_of_ne hloc]
    · rw [hnode, update_self]
      exact hn

theorem kept_write (content : String) :
    Always (Kept host dir top t₁ done) (onFiles (write e.1 content) : LiveM ε Unit) := by
  refine kept_onFiles hfresh he fun t hslot => ?_
  obtain ⟨t', mode, hwrite, hnode⟩ := writeData_slot (.text content) hslot
  rw [write, hwrite]
  exact .inr ⟨_, hnode, .inr ⟨_, _, rfl⟩⟩

theorem kept_setMode (mode : Nat) :
    Always (Kept host dir top t₁ done) (onFiles (setMode e.1 mode) : LiveM ε Unit) := by
  refine kept_onFiles hfresh he fun t hslot => ?_
  rcases setMode_slot mode hslot with ⟨err, h⟩ | ⟨t', data, h, hnode⟩
  · rw [h]
    exact .inl rfl
  · rw [h]
    exact .inr ⟨_, hnode, .inr ⟨_, _, rfl⟩⟩

theorem kept_copy (source : Path) :
    Always (Kept host dir top t₁ done) (onFiles (copy source e.1) : LiveM ε Unit) := by
  refine kept_onFiles hfresh he fun t hslot => ?_
  rcases copy_slot source hslot with ⟨err, h⟩ | ⟨t', data, mode, h, hnode⟩
  · rw [h]
    exact .inl rfl
  · rw [h]
    exact .inr ⟨_, hnode, .inr ⟨_, _, rfl⟩⟩

theorem createParent_ok {s : Machine ε} (hs : Backups host dir top t₁ done s.tree) :
    createParent e.1 s = .ok () s := by
  unfold createParent
  cases hparent : e.1.parent with
  | none => rfl
  | some parent =>
    have hexists : parent.components = [] ∨ s.tree.isDir parent = true := by
      rcases parent_exists (hs.files e he).walk hparent with h | h
      · exact .inl h
      · obtain ⟨loc, hwalk, hnode⟩ := isDir_iff.mp h
        have hdir := (hs.keeps hfresh).dir loc hnode
        exact .inr (isDir_iff.mpr
          ⟨loc, (hs.keeps hfresh).walk_found hwalk (by rw [hdir]; simp), hdir⟩)
    exact onFiles_ok (createDirAll_exists hexists)

theorem kept_createParent :
    Always (Kept host dir top t₁ done) (createParent e.1 : LiveM ε Unit) := by
  intro s hs
  rw [createParent_ok hfresh he hs]
  exact hs

theorem kept_removeFile (hlink : t₁.walk false e.1 = .found e.2) :
    Always (Kept host dir top t₁ done) (onFiles (removeFile e.1) : LiveM ε Unit) := by
  intro s hs
  rcases hs.target e he with hnone | ⟨data, mode, hfile⟩
  · obtain ⟨name, parent, -, hmissing⟩ := (hs.keeps hfresh).walk_gone hlink hnone
    have hremove : removeFile e.1 s.tree = .error .noEnt s.tree := by
      rw [removeFile, get_bind, Tree.lookup, hmissing]
      rfl
    rw [onFiles_error hremove]
    exact hs
  · have hwalk := (hs.keeps hfresh).walk_found hlink (by rw [hfile]; simp)
    have hnode : (s.tree.erase e.2).node = update s.tree.node e.2 none :=
      Tree.erase_node (by rw [hfile]; simp)
    rw [onFiles_ok (removeFile_found hwalk hfile), stateOf]
    refine hs.edit hfresh he (fun loc hloc => ?_) (.inl ?_)
    · rw [hnode, update_of_ne hloc]
    · rw [hnode, update_self]

end Kept

end Guestkit.Plan
