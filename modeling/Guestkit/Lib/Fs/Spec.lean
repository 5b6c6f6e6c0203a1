import Guestkit.Lib.Fs.Change
import Guestkit.Lib.Fs.Reach
import Guestkit.Lib.Hoare

/-! What the operations of `std::fs` do to a tree, by where their paths lead. -/

namespace Guestkit.Lib.Fs

open Fs.Tree

open Function

variable {t t' : Tree} {p : Path} {g dir : Loc} {name : String}
variable {data data' : Data} {mode mode' : Nat} {n : Node} {follow : Bool}
variable {mode : Nat} {data : Data}

theorem Tree.fits_of_file (h : t.node g = some (.file data mode)) :
    t.Fits g (.file data' mode') := by
  cases g with
  | nil =>
    rw [t.root] at h
    cases h
  | cons name dir => exact ⟨by simp, t.parent_of_some h, fun hdir => by simp [h] at hdir⟩

theorem Tree.fits_of_none (hdir : t.node dir = some .dir) (h : t.node (name :: dir) = none) :
    t.Fits (name :: dir) n :=
  ⟨by simp, hdir, fun hnode => by simp [h] at hnode⟩

theorem walkN_missing {rest : Path} (n : Nat) (cur : Loc) (p : Path) (h : t.node cur = some .dir)
    (hmissing : walkN t follow n cur p = .missing dir name rest) :
    t.node dir = some .dir ∧ t.node (name :: dir) = none := by
  obtain ⟨k, -, -, -, hnodes⟩ := reaches_of_missing h (walkN_followed h hmissing)
  exact hnodes

theorem walk_missing (hmissing : t.walk follow p = .missing dir name []) :
    t.node dir = some .dir ∧ t.node (name :: dir) = none := by
  unfold walk at hmissing
  split at hmissing
  · cases hmissing
  · exact walkN_missing maxLinks [] p t.root hmissing

theorem walk_created (hnew : t'.node = update t.node (name :: dir) (some n))
    (hlinkless : ∀ target, n ≠ .link target) (hmissing : t.walk true p = .missing dir name []) :
    t'.walk true p = .found (name :: dir) := by
  have hp : p ≠ [""] := by
    rintro rfl
    cases hmissing
  rw [walk_of_ne hp] at hmissing ⊢
  obtain ⟨k, hk, hreach, hname, hdir, hnone⟩ := reaches_of_missing t.root hmissing
  have hsame : ∀ loc m, t.node loc = some m → t'.node loc = some m := by
    intro loc m hloc
    have hne : loc ≠ name :: dir := fun heq => by simp [heq, hnone] at hloc
    rw [hnew, update_of_ne hne, hloc]
  have hstep : Reaches t' 0 dir [name] (name :: dir) [] :=
    .name (hsame _ _ hdir) hname (by rw [hnew, update_self]) hlinkless .refl
  exact ((hreach.mono hsame).trans hstep).found hk

theorem writeData_found (hwalk : t.walk true p = .found g)
    (hnode : t.node g = some (.file data' mode)) :
    writeData p data t = .ok () (t.put g (.file data mode)) := by
  rw [writeData, get_bind, hwalk]
  dsimp only
  rw [hnode]
  rfl

theorem writeData_missing (hwalk : t.walk true p = .missing dir name []) :
    writeData p data t = .ok () (t.put (name :: dir) (.file data 0o644)) := by
  rw [writeData, get_bind, hwalk]
  rfl

theorem setMode_found (hwalk : t.walk true p = .found g)
    (hnode : t.node g = some (.file data mode')) :
    setMode p mode t = .ok () (t.put g (.file data mode)) := by
  rw [setMode, get_bind, lookup, hwalk]
  dsimp only
  rw [hnode]
  rfl

/-- Where a file written at the path ends up. -/
inductive Tree.Slot (t : Tree) (p : Path) : Loc → Prop
  | file {g : Loc} {data : Data} {mode : Nat} : t.walk true p = .found g →
      t.node g = some (.file data mode) → Slot t p g
  | new {dir : Loc} {name : String} : t.walk true p = .missing dir name [] →
      Slot t p (name :: dir)

theorem writeData_slot (data : Data) (hslot : t.Slot p g) :
    ∃ t' mode, writeData p data t = .ok () t' ∧
      t'.node = update t.node g (some (.file data mode)) := by
  cases hslot with
  | file hwalk hfile =>
    exact ⟨_, _, writeData_found hwalk hfile, put_node (fits_of_file hfile)⟩
  | new hwalk =>
    obtain ⟨hdir, hnone⟩ := walk_missing hwalk
    exact ⟨_, _, writeData_missing hwalk, put_node (fits_of_none hdir hnone)⟩

theorem writeData_cases (p : Path) (data : Data) (t : Tree) :
    (∃ g, t.Slot p g) ∨ ∃ e, writeData p data t = .error e t := by
  rw [writeData, get_bind]
  cases hwalk : t.walk true p with
  | found g =>
    dsimp only
    cases hnode : t.node g with
    | none => exact .inr ⟨.noEnt, rfl⟩
    | some o =>
      cases o with
      | file data' mode => exact .inl ⟨g, .file hwalk hnode⟩
      | dir => exact .inr ⟨.isDir, rfl⟩
      | link target => exact .inr ⟨.noEnt, rfl⟩
  | missing dir name rest =>
    cases rest with
    | nil => exact .inl ⟨_, .new hwalk⟩
    | cons c rest => exact .inr ⟨.noEnt, rfl⟩
  | notDir g => exact .inr ⟨.notDir, rfl⟩
  | loop => exact .inr ⟨.loop, rfl⟩

theorem slot_of_written {loc : Loc} (h : (stateOf (writeData p data t)).node loc ≠ t.node loc) :
    t.Slot p loc := by
  rcases writeData_cases p data t with ⟨g, hslot⟩ | ⟨e, hwrite⟩
  · obtain ⟨t', mode, hwrite, hnode⟩ := writeData_slot data hslot
    rw [hwrite] at h
    by_cases heq : loc = g
    · exact heq ▸ hslot
    · exact absurd (by rw [stateOf, hnode, update_of_ne heq]) h
  · rw [hwrite] at h
    exact absurd rfl h

theorem setMode_slot (mode : Nat) (hslot : t.Slot p g) :
    (∃ e, setMode p mode t = .error e t) ∨
      ∃ t' data, setMode p mode t = .ok () t' ∧
        t'.node = update t.node g (some (.file data mode)) := by
  cases hslot with
  | file hwalk hfile =>
    exact .inr ⟨_, _, setMode_found hwalk hfile, put_node (fits_of_file hfile)⟩
  | new hwalk =>
    refine .inl ⟨.noEnt, ?_⟩
    rw [setMode, get_bind, lookup, hwalk]
    rfl

theorem writeData_setMode (hslot : t.Slot p g) :
    ∃ t', (do writeData p data; setMode p mode : FsM Unit) t = .ok () t' ∧
      t'.node = update t.node g (some (.file data mode)) := by
  have hset : ∀ {t' : Tree} {mode' : Nat}, t'.walk true p = .found g →
      t'.node = update t.node g (some (.file data mode')) →
      ∃ t'', setMode p mode t' = .ok () t'' ∧
        t''.node = update t.node g (some (.file data mode)) := by
    intro t' mode' hwalk hnode
    have hfile : t'.node g = some (.file data mode') := by rw [hnode, update_self]
    refine ⟨_, setMode_found hwalk hfile, ?_⟩
    rw [put_node (fits_of_file hfile), hnode, update_idem]
  cases hslot with
  | @file _ data' mode' hwalk hfile =>
    rw [bind_of_ok (writeData_found hwalk hfile)]
    have hfits : t.Fits g (.file data mode') := fits_of_file hfile
    have hnode := put_node hfits
    have hkeeps : Keeps [] t (t.put g (.file data mode')) :=
      .put (.refl _ t) hnode (.inr ⟨⟨_, _, hfile⟩, _, _, rfl⟩)
    refine hset (hkeeps.walk_found hwalk ?_) hnode
    rw [hnode, update_self]
    simp
  | @new dir name hwalk =>
    rw [bind_of_ok (writeData_missing hwalk)]
    obtain ⟨hdir, hnone⟩ := walk_missing hwalk
    have hfits : t.Fits (name :: dir) (.file data 0o644) := fits_of_none hdir hnone
    have hnode := put_node hfits
    exact hset (walk_created hnode (by simp) hwalk) hnode

theorem copy_slot (source : Path) {destination : Path} (hslot : t.Slot destination g) :
    (∃ e, copy source destination t = .error e t) ∨
      ∃ t' data mode, copy source destination t = .ok () t' ∧
        t'.node = update t.node g (some (.file data mode)) := by
  rw [copy, get_bind]
  cases t.lookup true source with
  | error e => exact .inl ⟨e, rfl⟩
  | ok f =>
    dsimp only
    cases hnode : t.node f with
    | none => exact .inl ⟨.notFile, rfl⟩
    | some n =>
      cases n with
      | dir => exact .inl ⟨.notFile, rfl⟩
      | link target => exact .inl ⟨.notFile, rfl⟩
      | file data mode =>
        obtain ⟨t', hcopy, hnode'⟩ := writeData_setMode hslot
        exact .inr ⟨t', _, mode, hcopy, hnode'⟩

theorem copy_ok {source destination : Path} {f : Loc} (hsource : t.walk true source = .found f)
    (hfile : t.node f = some (.file data mode)) (hslot : t.Slot destination g) (hne : f ≠ g) :
    ∃ t', copy source destination t = .ok () t' ∧
      t'.node = update t.node g (some (.file data mode)) := by
  have hlookup : t.lookup true destination ≠ .ok f := by
    rw [lookup]
    cases hslot with
    | file hwalk _ =>
      rw [hwalk]
      exact fun heq => hne (Except.ok.inj heq).symm
    | new hwalk =>
      rw [hwalk]
      simp
  rw [copy, get_bind, show t.lookup true source = .ok f by rw [lookup, hsource]]
  dsimp only
  rw [hfile]
  dsimp only
  rw [if_neg hlookup]
  exact writeData_setMode hslot

theorem removeFile_found (hwalk : t.walk false p = .found g)
    (hnode : t.node g = some (.file data mode)) :
    removeFile p t = .ok () (t.erase g) := by
  rw [removeFile, get_bind, lookup, hwalk]
  dsimp only
  rw [hnode, if_neg (by simp)]
  rfl

theorem pathExists_iff :
    t.pathExists p = true ↔ ∃ loc n, t.walk true p = .found loc ∧ t.node loc = some n := by
  unfold pathExists stat
  cases t.walk true p <;> simp [Option.isSome_iff_exists]

theorem isDir_iff :
    t.isDir p = true ↔ ∃ loc, t.walk true p = .found loc ∧ t.node loc = some .dir := by
  unfold isDir stat
  cases t.walk true p <;> simp

theorem mkdir_of_found (hwalk : t.walk true p = .found g) : mkdir p t = .error .exist t := by
  have hp := ne_of_walk_found hwalk
  rw [walk_of_ne hp] at hwalk
  have hnoFollow : ∃ loc, walkN t false maxLinks [] (p.reverse.dropWhile (· = "")).reverse =
      .found loc := by
    rcases walkN_noFollow t maxLinks [] (p.reverse.dropWhile (· = "")).reverse t.root with
      hfound | heq
    · exact hfound
    · exact ⟨g, heq.trans (walkN_strip maxLinks [] p t.root hwalk)⟩
  obtain ⟨loc', hnoFollow⟩ := hnoFollow
  have hstrip : (p.reverse.dropWhile (· = "")).reverse ≠ [""] := by
    intro heq
    have hrev : p.reverse.dropWhile (· = "") = [""] := by simpa using congrArg List.reverse heq
    have hne : p.reverse.dropWhile (fun c => decide (c = "")) ≠ [] := by simp [hrev]
    have hhead := List.head_dropWhile_not (fun c => decide (c = "")) hne
    simp [hrev] at hhead
  rw [mkdir, get_bind, walk_of_ne hstrip, hnoFollow]
  rfl

theorem createDirAll_exists (h : p.components = [] ∨ t.isDir p = true) :
    createDirAll p t = .ok () t := by
  unfold createDirAll Path.ancestors
  rcases h with h | h
  · rw [h]
    rfl
  · cases p.components.reverse with
    | nil => rfl
    | cons c up =>
      obtain ⟨loc, hwalk, -⟩ := isDir_iff.mp h
      dsimp only
      rw [createDirs, tryCatch_of_error (mkdir_of_found hwalk), if_neg (by decide), get_bind,
        if_pos h]
      rfl

theorem createDirAll_found (hwalk : t.walk true p = .found g) :
    stateOf (createDirAll p t) = t := by
  unfold createDirAll Path.ancestors
  cases p.components.reverse with
  | nil => rfl
  | cons c up =>
    dsimp only
    rw [createDirs, tryCatch_of_error (mkdir_of_found hwalk), if_neg (by decide), get_bind]
    split <;> rfl

theorem components_ofComponents (absolute : Bool) {cs : List String}
    (h : ∀ c ∈ cs, c ≠ "" ∧ c ≠ ".") : (Path.ofComponents absolute cs).components = cs := by
  have hcs : Path.components cs = cs := by
    rw [Path.components, List.filter_eq_self]
    simpa using h
  cases absolute <;> cases cs with
  | nil => rfl
  | cons c cs => simpa [Path.ofComponents, Path.components] using hcs

theorem parent_exists {q : Path} (hwalk : t.walk true p = .found g) (hq : p.parent = some q) :
    q.components = [] ∨ t.isDir q = true := by
  have hp := ne_of_walk_found hwalk
  rw [walk_of_ne hp] at hwalk
  have hfound := walkN_components t.root hwalk
  unfold Path.parent at hq
  split at hq
  · cases hq
  · rename_i hne
    cases hq
    have hmem : ∀ c ∈ p.components.dropLast, c ≠ "" ∧ c ≠ "." := by
      intro c hc
      have := List.mem_of_mem_dropLast hc
      simpa [Path.components] using (List.mem_filter.mp this).2
    rw [components_ofComponents _ hmem]
    rw [← List.dropLast_append_getLast hne] at hfound
    obtain ⟨dir, hdir, hnode⟩ := walkN_init maxLinks [] _ t.root hfound
    generalize p.components.dropLast = init at hdir hmem
    cases init with
    | nil => exact .inl rfl
    | cons c cs =>
      right
      refine isDir_iff.mpr ⟨dir, ?_, hnode⟩
      have hc : c ≠ "" := (hmem c (by simp)).1
      cases p.isAbsolute with
      | false =>
        rw [show Path.ofComponents false (c :: cs) = c :: cs from rfl, walk_of_ne (by simp [hc])]
        exact hdir
      | true =>
        rw [show Path.ofComponents true (c :: cs) = "" :: c :: cs from rfl,
          walk_of_ne (by simp), walkN_blank _ _ t.root (.inl rfl)]
        exact hdir

def GrowsBelow (top : Loc) (t t' : Tree) : Prop :=
  ∀ loc, t'.node loc = t.node loc ∨ top <:+ loc ∧ t.node loc = none ∧ t'.node loc = some .dir

variable {top : Loc} {t'' : Tree}

theorem GrowsBelow.refl (top : Loc) (t : Tree) : GrowsBelow top t t := fun _ => .inl rfl

theorem GrowsBelow.node (h : GrowsBelow top t t') (loc : Loc) (o : Node)
    (hnode : t.node loc = some o) : t'.node loc = some o := by
  rcases h loc with heq | ⟨-, hnone, -⟩
  · rw [heq, hnode]
  · rw [hnone] at hnode
    cases hnode

theorem GrowsBelow.trans (h : GrowsBelow top t t') (h' : GrowsBelow top t' t'') :
    GrowsBelow top t t'' := by
  intro loc
  rcases h' loc with heq | ⟨hloc, hnone, hdir⟩
  · rw [heq]
    exact h loc
  · rcases h loc with heq | ⟨-, -, hdir'⟩
    · exact .inr ⟨hloc, heq ▸ hnone, hdir⟩
    · rw [hdir'] at hnone
      cases hnone

theorem GrowsBelow.put {loc : Loc} (h : GrowsBelow top t t') (hloc : top <:+ loc)
    (hnone : t'.node loc = none) (hnode : t''.node = update t'.node loc (some .dir)) :
    GrowsBelow top t t'' := by
  intro loc'
  by_cases heq : loc' = loc
  · subst heq
    have ht : t.node loc' = none := by
      cases ht : t.node loc' with
      | none => rfl
      | some o => rw [h.node loc' o ht] at hnone; cases hnone
    exact .inr ⟨hloc, ht, by rw [hnode, update_self]⟩
  · rw [hnode, update_of_ne heq]
    exact h loc'

theorem mkdir_cases (p : Path) (t : Tree) :
    (∃ e, mkdir p t = .error e t) ∨
      ∃ dir name, t.walk false (p.reverse.dropWhile (· = "")).reverse = .missing dir name [] ∧
        mkdir p t = .ok () (t.put (name :: dir) .dir) := by
  rw [mkdir, get_bind]
  cases hwalk : t.walk false (p.reverse.dropWhile (· = "")).reverse with
  | found loc => exact .inl ⟨.exist, rfl⟩
  | missing dir name rest =>
    cases rest with
    | nil => exact .inr ⟨dir, name, rfl, rfl⟩
    | cons c rest => exact .inl ⟨.noEnt, rfl⟩
  | notDir loc => exact .inl ⟨.notDir, rfl⟩
  | loop => exact .inl ⟨.loop, rfl⟩

theorem mkdir_adds (p : Path) : Always (GrowsBelow []) (mkdir p) := by
  intro t
  rcases mkdir_cases p t with ⟨e, h⟩ | ⟨dir, name, hwalk, h⟩
  · rw [h]
    exact .refl [] t
  · obtain ⟨hdir, hnone⟩ := walk_missing hwalk
    rw [h]
    exact (GrowsBelow.refl [] t).put List.nil_suffix hnone (put_node (fits_of_none hdir hnone))

theorem createDirs_always {R : Tree → Tree → Prop} (hrefl : ∀ t, R t t)
    (htrans : ∀ a b c, R a b → R b c → R a c) {ps : List Path}
    (hmkdir : ∀ p ∈ ps, Always R (mkdir p)) : Always R (createDirs ps) := by
  have haccept : ∀ p e, Always R (do if (← get).isDir p then pure () else throw e : FsM Unit) := by
    intro p e t
    rw [get_bind]
    split <;> exact hrefl t
  have : IsTrans Tree R := ⟨htrans⟩
  induction ps with
  | nil => exact hrefl
  | cons p ps ih =>
    have hp := hmkdir p List.mem_cons_self
    rw [createDirs]
    refine hp.tryCatch fun e => ?_
    split
    · refine Always.bind (ih fun q hq => hmkdir q (List.mem_cons_of_mem p hq)) fun _ => ?_
      exact hp.tryCatch (haccept p)
    · exact haccept p e

theorem createDirs_adds (ps : List Path) : Always (GrowsBelow []) (createDirs ps) :=
  createDirs_always (.refl []) (fun _ _ _ => .trans) fun p _ => mkdir_adds p

end Guestkit.Lib.Fs
