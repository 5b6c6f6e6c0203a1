import Guestkit.Lib.Fs.Tree
import Guestkit.Lib.Text

/-! Paths and their resolution.  A path is the list of pieces between its slashes; `walk` follows
the pieces and the symbolic links that it meets, and reports where it stops.  Relative paths start
at the root. -/

namespace Guestkit.Lib.Fs

open Lib.Text List

/-- The pieces of a path; an absolute path has an empty first piece and at least one more. -/
abbrev Path := List String

namespace Path

def ofString (s : String) : Path := split '/' s

def display (p : Path) : String := join "/" p

def isAbsolute : Path → Bool
  | "" :: _ :: _ => true
  | _ => false

def components (p : Path) : List String :=
  p.filter fun c => c ≠ "" ∧ c ≠ "."

def isRoot (p : Path) : Bool :=
  p.isAbsolute && p.components.isEmpty

def ofComponents (absolute : Bool) (cs : List String) : Path :=
  match absolute, cs with
  | true, [] => ["", ""]
  | true, cs => "" :: cs
  | false, [] => [""]
  | false, cs => cs

def ofLoc (loc : Loc) : Path := ofComponents true loc.reverse

def startsWith (p base : Path) : Bool :=
  p.isAbsolute = base.isAbsolute ∧ base.components <+: p.components

def join (base p : Path) : Path :=
  if p.isAbsolute then p
  else (if base.getLast? = some "" then base.dropLast else base) ++ p

def parent (p : Path) : Option Path :=
  if p.components = [] then none
  else some (ofComponents p.isAbsolute p.components.dropLast)

def fileName (p : Path) : Option String :=
  p.components.getLast?.filter (· ≠ "..")

/-- The paths of the nonempty prefixes of the reversed `components`, longest first. -/
def prefixes (absolute : Bool) : List String → List Path
  | [] => []
  | c :: up => ofComponents absolute (c :: up).reverse :: prefixes absolute up

def ancestors (p : Path) : List Path :=
  match p.components.reverse with
  | [] => []
  | _ :: up => p :: prefixes p.isAbsolute up

end Path

/-- A path that its text gives back: its pieces have no slashes. -/
def Path.Clean (p : Path) : Prop :=
  p ≠ [] ∧ ∀ c ∈ p, '/' ∉ c.toList

theorem Path.clean_ofString (s : String) : (Path.ofString s).Clean :=
  ⟨split_ne_nil '/' s, split_not_mem '/' s⟩

theorem Path.Clean.join {base p : Path} (hbase : base.Clean) (hp : p.Clean) :
    (base.join p).Clean := by
  unfold Path.join
  split
  · exact hp
  · refine ⟨by simp [hp.1], fun c hc => ?_⟩
    rcases mem_append.mp hc with hc | hc
    · refine hbase.2 c ?_
      split at hc
      · exact mem_of_mem_dropLast hc
      · exact hc
    · exact hp.2 c hc

theorem Path.Clean.ofString_display {p : Path} (h : p.Clean) : Path.ofString p.display = p :=
  split_join h.1 h.2

theorem Path.display_ofString (s : String) : (Path.ofString s).display = s :=
  join_split '/' s

theorem Path.not_isAbsolute_ofString {s : String} (h : s.toList.head? ≠ some '/') :
    (Path.ofString s).isAbsolute = false := by
  unfold Path.isAbsolute
  split
  · rename_i piece rest hs
    have htext : s = Text.join "/" ("" :: piece :: rest) := by
      rw [← hs]
      exact (Path.display_ofString s).symm
    rw [htext] at h
    exact absurd (by simp [Text.join]) h
  · rfl

theorem Path.display_join {base p : Path} (hbase : base ≠ []) (hlast : base.getLast? ≠ some "")
    (hp : p ≠ []) (hrelative : p.isAbsolute = false) :
    (base.join p).display = base.display ++ "/" ++ p.display := by
  rw [Path.join, hrelative, if_neg Bool.false_ne_true, if_neg hlast]
  exact join_append "/" hbase hp

/-- Where a walk stops: at an object, at a name that `dir` does not have with `rest` still to go,
at an object that is not a directory with pieces still to go, or after too many links. -/
inductive Stop where
  | found (loc : Loc)
  | missing (dir : Loc) (name : String) (rest : Path)
  | notDir (loc : Loc)
  | loop
  deriving DecidableEq

/-- Follows the pieces of a path from `cur`; `onLink` continues at a link's target, from the
directory and with the pieces it is given. -/
def walkFrom (t : Tree) (follow : Bool) (onLink : Loc → Path → Stop) : Loc → Path → Stop
  | cur, [] => .found cur
  | cur, c :: rest =>
    if t.node cur ≠ some .dir then .notDir cur
    else if c = "" ∨ c = "." then walkFrom t follow onLink cur rest
    else if c = ".." then walkFrom t follow onLink cur.tail rest
    else
      match t.node (c :: cur) with
      | none => .missing cur c rest
      | some (.link target) =>
        if follow = false ∧ rest = [] then .found (c :: cur)
        else
          onLink (if (Path.ofString target).isAbsolute then [] else cur)
            (Path.ofString target ++ rest)
      | some _ => walkFrom t follow onLink (c :: cur) rest

def walkN (t : Tree) (follow : Bool) : Nat → Loc → Path → Stop
  | 0 => walkFrom t follow fun _ _ => .loop
  | n + 1 => walkFrom t follow (walkN t follow n)

def maxLinks : Nat := 40

/-- The walk of a path from the root; `follow` tells whether a link at its end is followed.  The
empty path leads nowhere. -/
def Tree.walk (t : Tree) (follow : Bool) (p : Path) : Stop :=
  if p = [""] then .missing [] "" [""] else walkN t follow maxLinks [] p

variable {t : Tree} {follow : Bool}

theorem walk_of_ne {p : Path} (h : p ≠ [""]) :
    t.walk follow p = walkN t follow maxLinks [] p := by
  rw [Tree.walk, if_neg h]

theorem ne_of_walk_found {p : Path} {loc : Loc}
    (h : t.walk follow p = .found loc) : p ≠ [""] := by
  rintro rfl
  cases h

section Steps

variable {t : Tree} {follow : Bool} {onLink : Loc → Path → Stop} {cur : Loc} {c : String}
  {rest : Path}

def IsName (c : String) : Prop := c ≠ "" ∧ c ≠ "." ∧ c ≠ ".."

instance (c : String) : Decidable (IsName c) :=
  inferInstanceAs (Decidable (_ ∧ _ ∧ _))

theorem walkFrom_notDir (h : t.node cur ≠ some .dir) :
    walkFrom t follow onLink cur (c :: rest) = .notDir cur := by
  rw [walkFrom, if_pos h]

theorem walkFrom_blank (h : t.node cur = some .dir) (hc : c = "" ∨ c = ".") :
    walkFrom t follow onLink cur (c :: rest) = walkFrom t follow onLink cur rest := by
  rw [walkFrom, if_neg (not_not.mpr h), if_pos hc]

theorem walkFrom_up (h : t.node cur = some .dir) :
    walkFrom t follow onLink cur (".." :: rest) = walkFrom t follow onLink cur.tail rest := by
  rw [walkFrom, if_neg (not_not.mpr h), if_neg (by decide), if_pos rfl]

theorem walkFrom_name (h : t.node cur = some .dir) (hc : IsName c) :
    walkFrom t follow onLink cur (c :: rest) =
      match t.node (c :: cur) with
      | none => .missing cur c rest
      | some (.link target) =>
        if follow = false ∧ rest = [] then .found (c :: cur)
        else
          onLink (if (Path.ofString target).isAbsolute then [] else cur)
            (Path.ofString target ++ rest)
      | some _ => walkFrom t follow onLink (c :: cur) rest := by
  rw [walkFrom, if_neg (not_not.mpr h), if_neg (by simp [hc.1, hc.2.1]), if_neg hc.2.2]

theorem piece_cases (c : String) : (c = "" ∨ c = ".") ∨ c = ".." ∨ IsName c := by
  by_cases hblank : c = "" ∨ c = "."
  · exact .inl hblank
  · by_cases hup : c = ".."
    · exact .inr (.inl hup)
    · exact .inr (.inr ⟨fun h => hblank (.inl h), fun h => hblank (.inr h), hup⟩)

theorem Tree.dir_tail (h : t.node cur = some .dir) : t.node cur.tail = some .dir := by
  cases cur with
  | nil => exact t.root
  | cons name dir => exact t.parent_of_some h

theorem Tree.dir_linkBase (h : t.node cur = some .dir) (target : String) :
    t.node (if (Path.ofString target).isAbsolute then [] else cur) = some .dir := by
  split
  · exact t.root
  · exact h

end Steps

/-- Induction along a walk from a directory, by what the first piece leads to. -/
theorem walkFrom_induct {t : Tree} {motive : ∀ cur : Loc, Path → t.node cur = some .dir → Prop}
    (nil : ∀ cur h, motive cur [] h)
    (blank : ∀ cur c rest h, (c = "" ∨ c = ".") → motive cur rest h → motive cur (c :: rest) h)
    (up : ∀ cur rest h, motive cur.tail rest (Tree.dir_tail h) → motive cur (".." :: rest) h)
    (missing : ∀ cur c rest h, IsName c → t.node (c :: cur) = none → motive cur (c :: rest) h)
    (link : ∀ cur c target rest h, IsName c → t.node (c :: cur) = some (.link target) →
      motive cur (c :: rest) h)
    (file : ∀ cur c data mode rest h, IsName c → t.node (c :: cur) = some (.file data mode) →
      motive cur (c :: rest) h)
    (dir : ∀ cur c rest h, IsName c → (hnode : t.node (c :: cur) = some .dir) →
      motive (c :: cur) rest hnode → motive cur (c :: rest) h)
    (cur : Loc) (p : Path) (h : t.node cur = some .dir) : motive cur p h := by
  induction p generalizing cur with
  | nil => exact nil cur h
  | cons c rest ih =>
    rcases piece_cases c with hc | rfl | hc
    · exact blank cur c rest h hc (ih cur h)
    · exact up cur rest h (ih cur.tail (Tree.dir_tail h))
    · cases hnode : t.node (c :: cur) with
      | none => exact missing cur c rest h hc hnode
      | some n =>
        cases n with
        | file data mode => exact file cur c data mode rest h hc hnode
        | dir => exact dir cur c rest h hc hnode (ih (c :: cur) hnode)
        | link target => exact link cur c target rest h hc hnode

theorem walkN_blank {cur : Loc} {c : String} (n : Nat) (rest : Path)
    (h : t.node cur = some .dir) (hc : c = "" ∨ c = ".") :
    walkN t follow n cur (c :: rest) = walkN t follow n cur rest := by
  cases n with
  | zero => exact walkFrom_blank h hc
  | succ n => exact walkFrom_blank h hc

theorem walkFrom_file {onLink : Loc → Path → Stop} {loc : Loc}
    {data : Data} {mode : Nat} (h : t.node loc = some (.file data mode)) (rest : Path) :
    walkFrom t follow onLink loc rest = if rest = [] then .found loc else .notDir loc := by
  cases rest with
  | nil => rfl
  | cons c rest => rw [walkFrom_notDir (by rw [h]; simp), if_neg (by simp)]

section Blank

variable {t : Tree} {loc : Loc}

theorem components_cons_blank {c : String} (hc : c = "" ∨ c = ".") (p : Path) :
    Path.components (c :: p) = p.components := by
  rcases hc with rfl | rfl <;> rfl

theorem components_cons_name {c : String} (hc : c ≠ "" ∧ c ≠ ".") (p : Path) :
    Path.components (c :: p) = c :: p.components := by
  simp [Path.components, hc.1, hc.2]

theorem walkFrom_noFollow {onLink onLink' : Loc → Path → Stop}
    (hlink : ∀ cur p, t.node cur = some .dir →
      (∃ loc, onLink' cur p = .found loc) ∨ onLink' cur p = onLink cur p)
    (cur : Loc) (p : Path) (h : t.node cur = some .dir) :
    (∃ loc, walkFrom t false onLink' cur p = .found loc) ∨
      walkFrom t false onLink' cur p = walkFrom t true onLink cur p := by
  induction cur, p, h using walkFrom_induct with
  | nil cur h => exact .inr rfl
  | blank cur c rest h hc ih =>
    rw [walkFrom_blank h hc, walkFrom_blank h hc]
    exact ih
  | up cur rest h ih =>
    rw [walkFrom_up h, walkFrom_up h]
    exact ih
  | missing cur c rest h hc hnode =>
    rw [walkFrom_name h hc, walkFrom_name h hc, hnode]
    exact .inr rfl
  | link cur c target rest h hc hnode =>
    rw [walkFrom_name h hc, walkFrom_name h hc, hnode]
    simp only [Bool.true_eq_false, false_and, if_false, true_and]
    split
    · exact .inl ⟨_, rfl⟩
    · exact hlink _ _ (Tree.dir_linkBase h target)
  | file cur c data mode rest h hc hnode =>
    rw [walkFrom_name h hc, walkFrom_name h hc, hnode]
    dsimp only
    rw [walkFrom_file hnode, walkFrom_file hnode]
    exact .inr rfl
  | dir cur c rest h hc hnode ih =>
    rw [walkFrom_name h hc, walkFrom_name h hc, hnode]
    exact ih

theorem walkN_noFollow (t : Tree) (n : Nat) (cur : Loc) (p : Path) (h : t.node cur = some .dir) :
    (∃ loc, walkN t false n cur p = .found loc) ∨
      walkN t false n cur p = walkN t true n cur p := by
  induction n generalizing cur p with
  | zero => exact walkFrom_noFollow (fun _ _ _ => .inr rfl) cur p h
  | succ n ih => exact walkFrom_noFollow ih cur p h

end Blank

theorem Path.ofString_slashes {s : String} (h : '/' ∉ s.toList.dropWhile (· = '/')) :
    ∃ k, Path.ofString s =
      List.replicate k "" ++ [String.ofList (s.toList.dropWhile (· = '/'))] := by
  have hsplit : ∀ cs : List Char, '/' ∉ cs.dropWhile (· = '/') →
      ∃ k, cs.splitOn '/' = List.replicate k [] ++ [cs.dropWhile (· = '/')] := by
    intro cs
    induction cs with
    | nil => exact fun _ => ⟨0, rfl⟩
    | cons c cs ih =>
      intro h
      by_cases hc : c = '/'
      · subst hc
        rw [dropWhile_cons_of_pos (by simp)] at h ⊢
        obtain ⟨k, hk⟩ := ih h
        refine ⟨k + 1, ?_⟩
        have hcons := splitOn_append_cons_of_beq [] cs (beq_self_eq_true '/')
        rw [nil_append, splitOn_nil] at hcons
        rw [hcons, hk]
        rfl
      · rw [dropWhile_cons_of_neg (by simpa using hc)] at h ⊢
        exact ⟨0, splitOn_eq_singleton h⟩
  obtain ⟨k, hk⟩ := hsplit s.toList h
  refine ⟨k, ?_⟩
  rw [Path.ofString, split, hk]
  simp

theorem walkN_slashes (t : Tree) (n k : Nat) {c : String} (hc : ¬IsName c) :
    walkN t true n [] (List.replicate k "" ++ [c]) = .found [] := by
  induction k with
  | zero =>
    rcases piece_cases c with hblank | rfl | hname
    · exact (walkN_blank n [] t.root hblank).trans (by cases n <;> rfl)
    · cases n <;> exact walkFrom_up t.root
    · exact absurd hname hc
  | succ k ih =>
    rw [replicate_succ, cons_append, walkN_blank _ _ t.root (.inl rfl)]
    exact ih

end Guestkit.Lib.Fs
