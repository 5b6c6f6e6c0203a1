import Guestkit.Lib.Fs.Create

/-! Canonical paths: the path of a location leads to it, and the names of a directory are looked up
in it.  `place` is where a file is put that is written at a path. -/

namespace Guestkit.Lib.Fs

open Fs.Tree

open Function

open Fs.Path (ofLoc)

variable {t : Tree} {root : Loc} {p : Path}
variable {loc : Loc}

theorem canonicalize_ok :
    t.canonicalize p = .ok loc ↔ t.walk true p = .found loc := by
  unfold canonicalize lookup
  cases t.walk true p <;> simp

theorem canonicalize_noEnt :
    t.canonicalize p = .error .noEnt ↔ ∃ d m rest, t.walk true p = .missing d m rest := by
  unfold canonicalize lookup
  cases t.walk true p <;> simp

theorem components_ofLoc (h : ∀ c ∈ loc, IsName c) :
    (ofLoc loc).components = loc.reverse :=
  components_ofComponents true fun c hc =>
    have hname := h c (List.mem_reverse.mp hc)
    ⟨hname.1, hname.2.1⟩

theorem components_ofLoc_cons {name : String} {dir : Loc} (hnames : ∀ c ∈ dir, IsName c)
    (hname : IsName name) : (ofLoc (name :: dir)).components ≠ [] := by
  rw [components_ofLoc (List.forall_mem_cons.mpr ⟨hname, hnames⟩)]
  simp

theorem ofLoc_cons (name : String) (dir : Loc) :
    ofLoc (name :: dir) = "" :: (dir.reverse ++ [name]) := by
  rw [ofLoc, List.reverse_cons, ofComponents_append_cons]
  rfl

theorem isAbsolute_ofLoc (loc : Loc) : (ofLoc loc).isAbsolute = true := by
  cases loc with
  | nil => rfl
  | cons name dir =>
    rw [ofLoc_cons]
    cases dir.reverse <;> rfl

theorem ofLoc_ne (loc : Loc) : ofLoc loc ≠ [""] := by
  intro heq
  have habs := isAbsolute_ofLoc loc
  rw [heq] at habs
  cases habs

theorem join_of_relative {dir : Loc} (hdir : ∀ c ∈ dir, IsName c) {p : Path}
    (hp : p.isAbsolute = false) : (ofLoc dir).join p = "" :: dir.reverse ++ p := by
  rw [Path.join, hp, if_neg Bool.false_ne_true]
  cases dir with
  | nil => rfl
  | cons c dir =>
    have hc : c ≠ "" := (hdir c List.mem_cons_self).1
    rw [ofLoc_cons, if_neg (by rw [← List.cons_append, List.getLast?_concat]; simpa using hc),
      List.reverse_cons]

theorem join_ofLoc {dir : Loc} (hdir : ∀ c ∈ dir, IsName c) (name : String) :
    (ofLoc dir).join [name] = ofLoc (name :: dir) := by
  rw [join_of_relative hdir (by simp [Path.isAbsolute]), ofLoc_cons, List.cons_append]

theorem walk_ofLoc (h : t.walk true p = .found loc) :
    t.walk true (ofLoc loc) = .found loc := by
  obtain ⟨o, hnode, hlink⟩ := node_of_walk h
  have hreach : Reaches t 0 [] loc.reverse loc [] := .location (isName_of_walk h) hnode hlink
  have hpath : Reaches t 0 [] (ofLoc loc) loc [] := by
    cases loc with
    | nil => exact .blank t.root (.inl rfl) (.blank t.root (.inl rfl) .refl)
    | cons name dir =>
      rw [ofLoc_cons, ← List.reverse_cons]
      exact .blank t.root (.inl rfl) hreach
  rw [walk_of_ne (ofLoc_ne loc)]
  exact hpath.found (Nat.zero_le _)

theorem walk_ofLoc_nil : t.walk true (ofLoc []) = .found [] := by
  have hreach : Reaches t 0 [] ["", ""] [] [] :=
    .blank t.root (.inl rfl) (.blank t.root (.inl rfl) .refl)
  rw [walk_of_ne (by decide)]
  exact hreach.found (Nat.zero_le _)

theorem suffix_of_startsWith (hroot : ∀ c ∈ root, IsName c) (hloc : ∀ c ∈ loc, IsName c)
    (h : (ofLoc loc).startsWith (ofLoc root) = true) :
    root <:+ loc := by
  rw [Path.startsWith, decide_eq_true_iff, components_ofLoc hroot, components_ofLoc hloc] at h
  exact List.reverse_prefix.mp h.2

theorem walk_ofLoc_cons {name : String} {dir : Loc} (hnames : ∀ c ∈ dir, IsName c)
    (hname : IsName name) (hdir : t.node dir = some .dir) (follow : Bool) :
    t.walk follow (ofLoc (name :: dir)) = walkN t follow maxLinks dir [name] := by
  obtain ⟨n, hn, hwalk⟩ :=
    walk_first (.location hnames hdir (by simp)) (Nat.zero_le _) hname follow
  rw [ofLoc, List.reverse_cons, hwalk, show n = maxLinks from hn]

/-- A location of names in a directory. -/
inductive Located (t : Tree) : Loc → Prop
  | child {name : String} {dir : Loc} (names : ∀ c ∈ dir, IsName c) (proper : IsName name)
      (node : t.node dir = some .dir) : Located t (name :: dir)

section Child

variable {n : Node} (h : Located t loc)

include h

theorem Located.walk_none (hnone : t.node loc = none) (follow : Bool) :
    ∃ name dir, loc = name :: dir ∧ t.walk follow (ofLoc loc) = .missing dir name [] := by
  obtain ⟨hnames, hname, hdir⟩ := h
  refine ⟨_, _, rfl, ?_⟩
  rw [walk_ofLoc_cons hnames hname hdir, walkN_none maxLinks [] hdir hname hnone]

theorem Located.walk_some (hnode : t.node loc = some n) {follow : Bool}
    (hlink : follow = false ∨ ∀ target, n ≠ .link target) :
    t.walk follow (ofLoc loc) = .found loc := by
  obtain ⟨hnames, hname, hdir⟩ := h
  obtain ⟨onLink, heq⟩ := walkN_eq_walkFrom t follow maxLinks
  rw [walk_ofLoc_cons hnames hname hdir, heq, walkFrom_name hdir hname, hnode]
  cases n with
  | file data mode => rfl
  | dir => rfl
  | link target =>
    obtain hfollow | hlink := hlink
    · exact if_pos ⟨hfollow, rfl⟩
    · exact absurd rfl (hlink target)

end Child

theorem walk_below_file {name : String} {dir : Loc} {n : Node} (hnames : ∀ c ∈ dir, IsName c)
    (hnode : t.node dir = some n) (hlink : ∀ target, n ≠ .link target) (hdir : n ≠ .dir)
    (follow : Bool) : t.walk follow (ofLoc (name :: dir)) = .notDir dir := by
  have hreach : Reaches t 0 [] ("" :: dir.reverse) dir [] :=
    .blank t.root (.inl rfl) (.location hnames hnode hlink)
  obtain ⟨onLink, heq⟩ := walkN_eq_walkFrom t follow maxLinks
  have happend := hreach.walkN_append maxLinks [name]
    (.inr (List.cons_ne_nil _ _) : follow = true ∨ _)
  rw [walk_of_ne (ofLoc_ne _), ofLoc_cons, ← List.cons_append]
  rw [Nat.add_zero] at happend
  rw [happend, heq]
  exact walkFrom_notDir (by rw [hnode]; exact fun h => hdir (Option.some.inj h))

def Tree.place (t : Tree) (p : Path) : Option Loc :=
  match t.walk true p with
  | .found g =>
    match t.node g with
    | some (.file _ _) => some g
    | _ => none
  | .missing dir name [] => some (name :: dir)
  | _ => none

section PlaceChild

variable (h : Located t loc)

include h

theorem Located.place_none (hnone : t.node loc = none) : t.place (ofLoc loc) = some loc := by
  obtain ⟨name, dir, rfl, hwalk⟩ := h.walk_none hnone true
  rw [place, hwalk]

theorem Located.place_file {data : Data} {mode : Nat}
    (hfile : t.node loc = some (.file data mode)) :
    t.place (ofLoc loc) = some loc := by
  rw [place, h.walk_some hfile (.inr (by simp))]
  dsimp only
  rw [hfile]

theorem Located.place_dir (hnode : t.node loc = some .dir) : t.place (ofLoc loc) = none := by
  rw [place, h.walk_some hnode (.inr (by simp))]
  dsimp only
  rw [hnode]

end PlaceChild

theorem place_below_file {name : String} {dir : Loc} {n : Node} (hnames : ∀ c ∈ dir, IsName c)
    (hnode : t.node dir = some n) (hlink : ∀ target, n ≠ .link target) (hdir : n ≠ .dir) :
    t.place (ofLoc (name :: dir)) = none := by
  rw [place, walk_below_file hnames hnode hlink hdir]

theorem place_eq_some {g : Loc} : t.place p = some g ↔ t.Slot p g := by
  unfold place
  constructor
  · intro h
    split at h
    · next f hwalk =>
      split at h
      · next data mode hnode =>
        cases h
        exact .file hwalk hnode
      · cases h
    · next dir name hwalk =>
      cases h
      exact .new hwalk
    · cases h
  · intro h
    cases h with
    | file hwalk hnode => simp only [hwalk, hnode]
    | new hwalk => simp only [hwalk]

theorem Tree.Slot.node {g : Loc} (h : t.Slot p g) :
    t.node g = none ∨ ∃ data mode, t.node g = some (.file data mode) := by
  cases h with
  | file _ hnode => exact .inr ⟨_, _, hnode⟩
  | new hwalk => exact .inl (walk_missing hwalk).2

theorem Tree.Slot.ne_of_node {g loc : Loc} {n : Node} (h : t.Slot p g) (hnode : t.node loc = some n)
    (hn : ∀ data mode, n ≠ .file data mode) : loc ≠ g := by
  rintro rfl
  rcases h.node with hnone | ⟨data, mode, hfile⟩
  · simp [hnone] at hnode
  · exact hn data mode (Option.some.inj (hnode.symm.trans hfile))

theorem Tree.Slot.ne_of_dir {g loc : Loc} (h : t.Slot p g) (hdir : t.node loc = some .dir) :
    loc ≠ g :=
  h.ne_of_node hdir (by simp)

theorem Tree.Slot.ne_of_link {g loc : Loc} {target : String} (h : t.Slot p g)
    (hlink : t.node loc = some (.link target)) : loc ≠ g :=
  h.ne_of_node hlink (by simp)

section Put

variable {t' : Tree} {q : Path} {b : Loc} {data : Data} {mode : Nat} (hslot : t.Slot q b)
  (hnode : t'.node = update t.node b (some (.file data mode)))

include hslot hnode

theorem keeps_put : Keeps b t t' :=
  .put (.refl b t) hnode
    (hslot.node.imp (fun hnone => ⟨hnone, List.suffix_rfl⟩) fun hfile => ⟨hfile, _, _, rfl⟩)

theorem walk_past_put {name c : String} {dir : Loc} {rest : Path} (hp : p ≠ [""])
    (hwalk : t.walk true p = .missing dir name (c :: rest)) (hb : name :: dir = b) :
    t'.walk true p = .notDir b := by
  rw [walk_of_ne hp] at hwalk ⊢
  obtain ⟨k, hk, hreach, hname, hdir, hnone⟩ := reaches_of_missing t.root hwalk
  have hkeep : ∀ loc n, t.node loc = some n → t'.node loc = some n := by
    intro loc n hloc
    rw [hnode, update_of_ne, hloc]
    rintro rfl
    rw [← hb, hnone] at hloc
    cases hloc
  have hfile : t'.node (name :: dir) = some (.file data mode) := by
    rw [hnode, hb, update_self]
  obtain ⟨m, hm⟩ := Nat.exists_eq_add_of_le' hk
  obtain ⟨onLink, heq⟩ := walkN_eq_walkFrom t' true m
  rw [hm, (hreach.mono hkeep).walkN_eq m, heq, walkFrom_name (hkeep _ _ hdir) hname, hfile, ← hb]
  exact walkFrom_notDir (by rw [hfile]; simp)

theorem place_put (p : Path) : t'.place p = t.place p := by
  by_cases hp : p = [""]
  · subst hp
    rfl
  have hkeeps := keeps_put hslot hnode
  have hafter := walk_after hkeeps true p
  have hsome : ∀ loc, t.node loc ≠ none → t'.node loc ≠ none := by
    intro loc hloc
    by_cases heq : loc = b
    · rw [hnode, heq, update_self]
      simp
    · rw [hnode, update_of_ne heq]
      exact hloc
  unfold place
  cases hwalk : t.walk true p with
  | found g =>
    obtain ⟨o, ho, -⟩ := node_of_walk hwalk
    have hg : t.node g ≠ none := by rw [ho]; simp
    rw [hkeeps.walk_found hwalk (hsome g hg)]
    by_cases heq : g = b
    · subst heq
      obtain ⟨d, m, hfile⟩ := hslot.node.resolve_left hg
      simp only [hnode, hfile, update_self]
    · simp only [hnode, update_of_ne heq]
  | missing dir name rest =>
    obtain ⟨hdir, hnone⟩ := walkN_missing maxLinks [] p t.root (walk_of_ne hp ▸ hwalk)
    by_cases heq : name :: dir = b
    · cases rest with
      | nil =>
        subst heq
        rw [walk_created hnode (by simp) hwalk]
        simp only [hnode, update_self]
      | cons c rest => rw [walk_past_put hslot hnode hp hwalk heq]
    · rw [hwalk] at hafter
      generalize t'.walk true p = stop at hafter
      cases hafter with
      | missing => cases rest <;> rfl
      | created _ hbelow =>
        have habove : b <:+ dir := (List.suffix_cons_iff.mp hbelow).resolve_left (Ne.symm heq)
        have hb : t.node b = some .dir := by
          by_cases hne : b = dir
          · rw [hne, hdir]
          · exact t.dir_of_suffix (by rw [hdir]; simp) habove hne
        exact absurd rfl (hslot.ne_of_dir hb)
  | notDir loc =>
    rw [hwalk] at hafter
    generalize hstop : t'.walk true p = stop at hafter
    cases hafter with
    | notDir => rfl
    | @cut name dir rest =>
      cases rest with
      | cons c rest => rfl
      | nil =>
        obtain ⟨k, -, c, rest, hreach, -⟩ :
            (Stop.notDir (name :: dir)).Reached t maxLinks [] p := by
          rw [← hwalk, walk_of_ne hp]
          exact walkN_reached maxLinks [] p t.root
        obtain ⟨o, ho, -⟩ := hreach.object ⟨.dir, t.root, by simp⟩
        exact absurd (walk_missing hstop).2 (hsome _ (by rw [ho]; simp))
  | loop =>
    rw [hwalk] at hafter
    generalize t'.walk true p = stop at hafter
    cases hafter
    rfl

end Put

theorem writeData_unplaced {d : Data} (h : t.place p = none) :
    ∃ e, writeData p d t = .error e t := by
  rcases writeData_cases p d t with ⟨g, hslot⟩ | herror
  · rw [place_eq_some.mpr hslot] at h
    cases h
  · exact herror

theorem copy_unplaced (source : Path) {destination : Path} (h : t.place destination = none) :
    ∃ e, copy source destination t = .error e t := by
  rw [copy, get_bind]
  cases t.lookup true source with
  | error e => exact ⟨e, rfl⟩
  | ok f =>
    dsimp only
    cases t.node f with
    | none => exact ⟨.notFile, rfl⟩
    | some n =>
      cases n with
      | dir => exact ⟨.notFile, rfl⟩
      | link target => exact ⟨.notFile, rfl⟩
      | file data mode =>
        dsimp only
        generalize (if t.lookup true destination = .ok f then Data.text "" else data) = content
        obtain ⟨e, herror⟩ := writeData_unplaced (d := content) h
        exact ⟨e, by rw [bind_of_error herror]⟩

section Copy

variable {source destination : Path} {f : Loc} {data : Data} {mode : Nat}
  (hsource : t.walk true source = .found f)

include hsource

/-- A file is copied to where its copy is put, and is emptied if that is itself. -/
theorem copy_placed {b : Loc} (hfile : t.node f = some (.file data mode))
    (hslot : t.Slot destination b) :
    ∃ t', copy source destination t = .ok () t' ∧
      t'.node = update t.node b
        (some (.file (if b = f then .text "" else data) mode)) := by
  by_cases heq : b = f
  · subst heq
    have hdestination : t.walk true destination = .found b := by
      cases hslot with
      | file hwalk _ => exact hwalk
      | new hwalk =>
        rw [(walk_missing hwalk).2] at hfile
        cases hfile
    have hlookup : t.lookup true source = .ok b ∧ t.lookup true destination = .ok b := by
      simp only [lookup, hsource, hdestination, and_self]
    rw [copy, get_bind, hlookup.1]
    dsimp only
    rw [hfile, if_pos rfl]
    dsimp only
    rw [if_pos hlookup.2]
    exact writeData_setMode hslot
  · rw [if_neg heq]
    exact copy_ok hsource hfile hslot (Ne.symm heq)

theorem copy_dir (hdir : t.node f = some .dir) :
    copy source destination t = .error .notFile t := by
  have hlookup : t.lookup true source = .ok f := by
    simp only [lookup, hsource]
  rw [copy, get_bind, hlookup]
  dsimp only
  rw [hdir]
  rfl

end Copy

section Rename

variable {source target : Loc} {n : Node} (hsource : Located t source)
  (hnode : t.node source = some n) (hn : n ≠ .dir)

include hsource hnode hn

theorem rename_eq (destination : Path) :
    rename (ofLoc source) destination t = moveTo source n destination t := by
  have hwalk := hsource.walk_some hnode (.inl rfl)
  rw [rename, get_bind, lookup, hwalk]
  dsimp only
  rw [hnode]
  cases n with
  | dir => exact absurd rfl hn
  | file data mode => rfl
  | link target => rfl

theorem rename_self : rename (ofLoc source) (ofLoc source) t = .ok () t := by
  have hwalk := hsource.walk_some hnode (.inl rfl)
  rw [rename_eq hsource hnode hn, moveTo, get_bind, hwalk]
  dsimp only
  rw [if_pos rfl]
  rfl

theorem rename_located (htarget : Located t target) (hne : source ≠ target)
    (hold : t.node target ≠ some .dir) :
    ∃ t', rename (ofLoc source) (ofLoc target) t = .ok () t' ∧
      t'.node = update (update t.node target (some n)) source none := by
  have hfits : t.Fits target n := by
    obtain ⟨-, -, hdir⟩ := htarget
    exact ⟨by simp, hdir, fun h => absurd h hold⟩
  have hmoved : (t.put target n).node source ≠ some .dir := by
    rw [put_node hfits, update_of_ne hne, hnode]
    exact fun heq => hn (Option.some.inj heq)
  refine ⟨(t.put target n).erase source, ?_, ?_⟩
  · rw [rename_eq hsource hnode hn, moveTo, get_bind]
    cases hprior : t.node target with
    | none =>
      obtain ⟨name, dir, rfl, hwalk⟩ := htarget.walk_none hprior false
      rw [hwalk]
      rfl
    | some o =>
      rw [htarget.walk_some hprior (.inl rfl)]
      dsimp only
      rw [if_neg (Ne.symm hne), if_neg hold]
      rfl
  · rw [erase_node hmoved, put_node hfits]

end Rename

end Guestkit.Lib.Fs
