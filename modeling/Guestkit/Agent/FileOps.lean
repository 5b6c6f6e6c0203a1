import Guestkit.Agent.Policy
import Guestkit.Lib.Fs.Location

/-! File operations of the agent within the paths that its policy allows: where a file that is
written ends up, and its backup and its temporary file. -/

namespace Guestkit.Agent.FileOps

open Lib Lib.Fs Lib.Fs.Path Function List

/-- The directory of a requested path; a path that begins with `.` has one. -/
def requestedParent (requested : Path) : Option Path :=
  if requested.head? = some "." ∧ requested.components.length = 1 then some ["."]
  else requested.parent

/-- The location that a path stands for.  The last name of a path to be written need not exist. -/
def canonicalTarget (t : Tree) (raw : String) (forWrite : Bool) : Except String Loc :=
  let requested := Path.ofString raw
  match t.canonicalize requested with
  | .ok loc => .ok loc
  | .error e =>
    if forWrite then
      match requestedParent requested with
      | none => .error "path has no parent"
      | some parent =>
        match t.canonicalize parent with
        | .error _ => .error "parent directory does not exist"
        | .ok dir =>
          match requested.fileName with
          | none => .error "path has no file name"
          | some name => .ok (name :: dir)
    else .error ("cannot resolve " ++ raw ++ ": " ++ e.message)

variable (policy : FileOpsPolicy) (t : Tree)

def isAllowed (canonical : Loc) : Bool :=
  policy.allowedPaths.any fun allowed =>
    match t.canonicalize (Path.ofString allowed) with
    | .ok top => (ofLoc canonical).startsWith (ofLoc top)
    | .error _ => false

def authorizePath (raw : String) (forWrite : Bool) :
    Except String Loc := do
  bailIf (policy.allowedPaths.isEmpty = true)
    "file_ops.allowed_paths is empty — no paths are permitted"
  let canonical ← canonicalTarget t raw forWrite
  bailIf (isAllowed policy t canonical = false)
    ("path " ++ (ofLoc canonical).display ++ " resolves outside the allowed prefixes")
  return canonical

def fileStem (name : String) : String :=
  match name.toList.reverse.dropWhile (· ≠ '.') with
  | [] => name
  | [_] => name
  | _ :: before => String.ofList before.reverse

def withExtension (extension : String) : Loc → Loc
  | [] => []
  | name :: dir => (fileStem name ++ "." ++ extension) :: dir

variable (target : Loc)

def backupOf : Loc := withExtension "guestkit-bak" target

def tmpOf : Loc := withExtension "guestkit-tmp" target

/-- The files, and the locations of those that were written, made or moved. -/
structure Disk where
  tree : Tree
  touched : List Loc

abbrev FileM := EStateM String Disk

def onDisk (op : FsM Unit) (places : Tree → List Loc) : FileM Unit := fun s =>
  match op s.tree with
  | .ok () t => .ok () ⟨t, s.touched ++ places s.tree⟩
  | .error e t => .error e.message ⟨t, s.touched⟩

def copyFile (source destination : Loc) : FileM Unit :=
  onDisk (copy (ofLoc source) (ofLoc destination))
    fun t => (t.place (ofLoc destination)).toList

def writeFile (loc : Loc) (bytes : List UInt8) : FileM Unit :=
  onDisk (writeData (ofLoc loc) (Data.ofBytes bytes)) fun t => (t.place (ofLoc loc)).toList

def renameFile (source destination : Loc) : FileM Unit :=
  onDisk (rename (ofLoc source) (ofLoc destination)) fun _ => [source, destination]

structure WriteReport where
  path : String
  written : Nat
  backup : Option String

def backUp : FileM (Option String) := do
  if (← get).tree.pathExists (ofLoc target) then
    copyFile target (backupOf target)
    return some (ofLoc (backupOf target)).display
  else return none

def install (bytes : List UInt8) : FileM Unit := do
  writeFile (tmpOf target) bytes
  renameFile (tmpOf target) target

def replace (bytes : List UInt8) : FileM WriteReport := do
  let backup ← backUp target
  install target bytes
  return ⟨(ofLoc target).display, bytes.length, backup⟩

def checkWrite (decode : String → Except String (List UInt8)) (policy : FileOpsPolicy)
    (params : Json) (t : Tree) : Except String (Loc × List UInt8) :=
  match (params.get "path").bind Json.asStr, (params.get "data").bind Json.asStr with
  | none, _ => .error "missing required param: path"
  | some _, none => .error "missing required param: data (base64)"
  | some raw, some data => do
    let bytes ← withContext "data is not valid base64" (decode data)
    bailIf (policy.maxBytes < bytes.length)
      s!"payload is {bytes.length} bytes, over the {policy.maxBytes}-byte policy cap"
    let path ← authorizePath policy t raw true
    return (path, bytes)

def write (decode : String → Except String (List UInt8)) (policy : FileOpsPolicy) (params : Json) :
    FileM WriteReport := do
  match checkWrite decode policy params (← get).tree with
  | .error e => throw e
  | .ok (target, bytes) => replace target bytes

/-! ### What a write may do -/

def Allowed (loc : Loc) : Prop :=
  ∃ allowed ∈ policy.allowedPaths, ∃ top, t.canonicalize (Path.ofString allowed) = .ok top ∧
    top <:+ loc

/-- The backup exists, and it is the backup of another file too. -/
def SharesBackup (t : Tree) (target : Loc) : Prop :=
  t.node (backupOf target) ≠ none ∧
    ∃ other data mode, other ≠ target ∧ other ≠ backupOf target ∧
      t.node other = some (.file data mode) ∧ backupOf other = backupOf target

/-- The target has the contents, the reported backup those from before, and what else was touched is
the temporary file, which is as absent as it was. -/
structure Replaced (t : Tree) (s : Disk) (target : Loc) (bytes : List UInt8)
    (report : WriteReport) :
    Prop where
  content : ∃ data mode, s.tree.node target = some (.file data mode) ∧ data.bytes = bytes
  backup : ∀ path, report.backup = some path → path = (ofLoc (backupOf target)).display ∧
    ∃ f before mode after mode', t.walk true (ofLoc target) = .found f ∧
      t.node f = some (.file before mode) ∧
      s.tree.node (backupOf target) = some (.file after mode') ∧ after.bytes = before.bytes
  others : ∀ loc ∈ s.touched, loc = target ∨
    (loc = backupOf target ∧ report.backup.isSome = true ∧ ¬ SharesBackup t target) ∨
    (loc = tmpOf target ∧ t.node loc = none ∧ s.tree.node loc = none)

structure Safely (policy : FileOpsPolicy) (t : Tree) (target : Loc) (bytes : List UInt8)
    (result : EStateM.Result String Disk WriteReport) : Prop where
  inside : ∀ loc ∈ (stateOf result).touched, Allowed policy t loc
  replaced : ∀ report s, result = .ok report s → Replaced t s target bytes report

/-- What is asked of a request: it touches allowed locations only, and if it succeeds it has
replaced the target that it was checked for. -/
structure WritesSafely (decode : String → Except String (List UInt8)) (policy : FileOpsPolicy)
    (params : Json) (t : Tree) : Prop where
  inside : ∀ loc ∈ (stateOf (write decode policy params ⟨t, []⟩)).touched, Allowed policy t loc
  replaced : ∀ report s, write decode policy params ⟨t, []⟩ = .ok report s →
    ∃ target bytes, checkWrite decode policy params t = .ok (target, bytes) ∧
      Replaced t s target bytes report

def previous (t : Tree) (p : Path) : Option (Loc × Node) :=
  match t.walk true p with
  | .found f => (t.node f).map (f, ·)
  | _ => none

/-- The temporary file is new, and in an allowed place. -/
def FreshTmp : Prop :=
  t.node (tmpOf target) = none ∧ Allowed policy t (tmpOf target)

/-- The backup is another file than the target and is kept in its own place, or the target is its
own backup and nothing is lost. -/
def BackupKept (t : Tree) (target f b : Loc) (before : Data) (bytes : List UInt8) : Prop :=
  (backupOf target ≠ target ∧ b = backupOf target ∧ (f = backupOf target → before.bytes = []) ∧
      ¬ SharesBackup t target) ∨
    (backupOf target = target ∧ f = target ∧ before.bytes = bytes)

def SafeAt (bytes : List UInt8) : Prop :=
  match previous t (ofLoc target) with
  | none => t.place (ofLoc (tmpOf target)) ≠ none → FreshTmp policy t target
  | some (f, .file before _) =>
    ∀ b, t.place (ofLoc (backupOf target)) = some b → Allowed policy t b ∧
      (t.place (ofLoc (tmpOf target)) ≠ none →
        (FreshTmp policy t target ∨ tmpOf target = target ∧ f = target) ∧
          BackupKept t target f b before bytes)
  | some _ => True

theorem isName_extension (stem : String) {extension : String} (h : 'g' ∈ extension.toList) :
    IsName (stem ++ "." ++ extension) := by
  have hmem : 'g' ∈ (stem ++ "." ++ extension).toList := by
    rw [String.toList_append]
    exact mem_append_right _ h
  refine ⟨?_, ?_, ?_⟩
  all_goals
    intro heq
    rw [heq] at hmem
    revert hmem
    decide

theorem tmpOf_ne_backupOf {t : Tree} {target : Loc} (h : Located t target) :
    tmpOf target ≠ backupOf target := by
  obtain ⟨-, -, -⟩ := h
  intro heq
  have hnames := congrArg String.toList (List.cons.inj heq).1
  simp only [String.toList_append] at hnames
  have hext := append_cancel_left hnames
  revert hext
  decide

section Steps

variable {t : Tree} {touched : List Loc} {target : Loc} {bytes : List UInt8}

theorem onDisk_ok {op : FsM Unit} {places : Tree → List Loc} {t' : Tree} (h : op t = .ok () t') :
    onDisk op places ⟨t, touched⟩ = .ok () ⟨t', touched ++ places t⟩ := by
  rw [onDisk, h]

theorem onDisk_error {op : FsM Unit} {places : Tree → List Loc} {e : Errno} {t' : Tree}
    (h : op t = .error e t') : onDisk op places ⟨t, touched⟩ = .error e.message ⟨t', touched⟩ := by
  rw [onDisk, h]

theorem previous_eq_some {p : Path} {f : Loc} {n : Node} :
    previous t p = some (f, n) ↔ t.walk true p = .found f ∧ t.node f = some n := by
  unfold previous
  constructor
  · intro h
    split at h
    · next g hwalk =>
      obtain ⟨o, ho, heq⟩ := Option.map_eq_some_iff.mp h
      cases heq
      exact ⟨hwalk, ho⟩
    · cases h
  · rintro ⟨hwalk, hnode⟩
    rw [hwalk]
    dsimp only
    rw [hnode]
    rfl

theorem previous_eq_none {p : Path} : previous t p = none ↔ t.pathExists p = false := by
  unfold previous Tree.pathExists Tree.stat
  cases t.walk true p with
  | found g => cases t.node g <;> simp
  | _ => simp

theorem backUp_absent (h : previous t (ofLoc target) = none) :
    backUp target ⟨t, touched⟩ = .ok none ⟨t, touched⟩ := by
  rw [backUp, get_bind]
  dsimp only
  rw [previous_eq_none.mp h]
  rfl

theorem backUp_eq {f : Loc} {n : Node} (h : previous t (ofLoc target) = some (f, n)) :
    backUp target ⟨t, touched⟩ = (do
      copyFile target (backupOf target)
      return some (ofLoc (backupOf target)).display : FileM (Option String)) ⟨t, touched⟩ := by
  have hexists : t.pathExists (ofLoc target) = true := by
    rw [← Bool.not_eq_false, ← previous_eq_none, h]
    simp
  rw [backUp, get_bind]
  dsimp only
  rw [hexists]
  rfl

theorem backUp_dir {f : Loc} {l : List Loc}
    (h : previous t (ofLoc target) = some (f, .dir)) :
    ∃ e, backUp target ⟨t, l⟩ = .error e ⟨t, l⟩ := by
  obtain ⟨hwalk, hnode⟩ := previous_eq_some.mp h
  rw [backUp_eq h, copyFile, bind_of_error (onDisk_error (copy_dir hwalk hnode))]
  exact ⟨_, rfl⟩

section

variable {f : Loc} {before : Data} {mode : Nat} {l : List Loc}
  (h : previous t (ofLoc target) = some (f, .file before mode))

include h

theorem backUp_unplaced (hplace : t.place (ofLoc (backupOf target)) = none) :
    ∃ e, backUp target ⟨t, l⟩ = .error e ⟨t, l⟩ := by
  obtain ⟨e, hcopy⟩ := copy_unplaced (ofLoc target) hplace
  rw [backUp_eq h, copyFile, bind_of_error (onDisk_error hcopy)]
  exact ⟨_, rfl⟩

theorem backUp_placed {b : Loc} (hplace : t.place (ofLoc (backupOf target)) = some b) :
    ∃ t', backUp target ⟨t, l⟩ =
        .ok (some (ofLoc (backupOf target)).display) ⟨t', l ++ [b]⟩ ∧
      t'.node = update t.node b
        (some (.file (if b = f then .text "" else before) mode)) := by
  obtain ⟨hwalk, hnode⟩ := previous_eq_some.mp h
  obtain ⟨t', hcopy, hnode'⟩ := copy_placed hwalk hnode (place_eq_some.mp hplace)
  refine ⟨t', ?_, hnode'⟩
  rw [backUp_eq h, copyFile, bind_of_ok (onDisk_ok hcopy), hplace]
  rfl

end

theorem install_unplaced {a : List UInt8} {l : List Loc}
    (h : t.place (ofLoc (tmpOf target)) = none) :
    ∃ e, install target a ⟨t, l⟩ = .error e ⟨t, l⟩ := by
  obtain ⟨e, hwrite⟩ := writeData_unplaced (d := Data.ofBytes a) h
  rw [install, writeFile, bind_of_error (onDisk_error hwrite)]
  exact ⟨_, rfl⟩

/-- The objects after a file was put at `h` and what is at `tmp` was moved to `target`. -/
def movedNodes (node : Loc → Option Node) (h tmp target : Loc) (n : Node) : Loc → Option Node :=
  let node := update node h (some n)
  if tmp = target then node
  else update (update node target (node tmp)) tmp none

theorem located_tmpOf (h : Located t target) : Located t (tmpOf target) := by
  obtain ⟨hnames, -, hdir⟩ := h
  exact .child hnames (isName_extension _ (by decide)) hdir

theorem located_backupOf (h : Located t target) : Located t (backupOf target) := by
  obtain ⟨hnames, -, hdir⟩ := h
  exact .child hnames (isName_extension _ (by decide)) hdir

theorem located_put (h : Located t target) {p : Path} {b : Loc} {n : Node} {t' : Tree}
    (hslot : t.Slot p b) (hnode : t'.node = update t.node b (some n)) : Located t' target := by
  obtain ⟨hnames, hname, hdir⟩ := h
  exact .child hnames hname (by rw [hnode, update_of_ne (hslot.ne_of_dir hdir), hdir])

theorem written_tmp {h : Loc} (hloc : Located t target)
    (hplace : t.place (ofLoc (tmpOf target)) = some h) (data : Data) (mode : Nat) :
    ∃ n, update t.node h (some (.file data mode)) (tmpOf target) = some n ∧
      n ≠ .dir := by
  by_cases heq : tmpOf target = h
  · exact ⟨_, by rw [heq, update_self], by simp⟩
  · rw [update_of_ne heq]
    cases hold : t.node (tmpOf target) with
    | none =>
      have hself := (located_tmpOf hloc).place_none hold
      exact absurd (Option.some.inj (hself.symm.trans hplace)) heq
    | some n =>
      refine ⟨n, rfl, ?_⟩
      rintro rfl
      have hnone := (located_tmpOf hloc).place_dir hold
      cases hnone.symm.trans hplace

theorem install_placed (touched : List Loc) (bytes : List UInt8) {h : Loc}
    (hloc : Located t target) (hplace : t.place (ofLoc (tmpOf target)) = some h)
    (htarget : t.node target ≠ some .dir) :
    ∃ t' mode, install target bytes ⟨t, touched⟩ =
        .ok () ⟨t', touched ++ [h] ++ [tmpOf target, target]⟩ ∧
      t'.node = movedNodes t.node h (tmpOf target) target
        (.file (Data.ofBytes bytes) mode) := by
  have hslot := place_eq_some.mp hplace
  obtain ⟨t2, mode, hwrite, hnode⟩ := writeData_slot (Data.ofBytes bytes) hslot
  have hloc2 := located_put hloc hslot hnode
  obtain ⟨n, hn, hnotDir⟩ : ∃ n, t2.node (tmpOf target) = some n ∧ n ≠ .dir := by
    rw [hnode]
    exact written_tmp hloc hplace _ _
  have htarget2 : t2.node target ≠ some .dir := by
    rw [hnode]
    by_cases heq : target = h
    · rw [heq, update_self]
      simp
    · rw [update_of_ne heq]
      exact htarget
  have hinstall : ∀ {s : Disk}, renameFile (tmpOf target) target
      ⟨t2, touched ++ [h]⟩ = .ok () s → install target bytes ⟨t, touched⟩ = .ok () s := by
    intro s hrename
    rw [install, writeFile, bind_of_ok (onDisk_ok hwrite), hplace]
    exact hrename
  unfold movedNodes
  by_cases hsame : tmpOf target = target
  · refine ⟨t2, mode, hinstall ?_, by rw [if_pos hsame, hnode]⟩
    rw [hsame]
    exact onDisk_ok (rename_self hloc2 (hsame ▸ hn) hnotDir)
  · obtain ⟨t3, hrename, hnode3⟩ :=
      rename_located (located_tmpOf hloc2) hn hnotDir hloc2 hsame htarget2
    refine ⟨t3, mode, hinstall (onDisk_ok hrename), ?_⟩
    rw [if_neg hsame, hnode3, ← hnode, hn]

theorem replace_of_backUp_error {e : String} {s s' : Disk} (h : backUp target s = .error e s') :
    replace target bytes s = .error e s' := by
  rw [replace, bind_of_error h]

theorem replace_of_backUp_ok {backup : Option String} {s s' : Disk}
    (h : backUp target s = .ok backup s') :
    replace target bytes s = (do
      install target bytes
      return ⟨(ofLoc target).display, bytes.length, backup⟩ : FileM WriteReport) s' := by
  rw [replace, bind_of_ok h]

end Steps

/-! ### The ways a replacement ends -/

section Ends

variable {policy : FileOpsPolicy} {t : Tree} {bytes : List UInt8}
  {f : Loc} {before : Data} {mode : Nat}
variable {target : Loc}

theorem safely_error {e : String} {s : Disk} :
    Safely policy t target bytes (.error e s) ↔ ∀ loc ∈ s.touched, Allowed policy t loc :=
  ⟨fun h => h.inside, fun h => ⟨h, nofun⟩⟩

theorem safely_ok {report : WriteReport} {s : Disk} :
    Safely policy t target bytes (.ok report s) ↔
      (∀ loc ∈ s.touched, Allowed policy t loc) ∧ Replaced t s target bytes report := by
  constructor
  · exact fun h => ⟨h.inside, h.replaced report s rfl⟩
  · rintro ⟨hinside, hreplaced⟩
    refine ⟨hinside, fun report' s' heq => ?_⟩
    cases heq
    exact hreplaced

theorem safely_dir (h : previous t (ofLoc target) = some (f, .dir)) :
    Safely policy t target bytes (replace target bytes ⟨t, []⟩) := by
  obtain ⟨e, hbackUp⟩ := backUp_dir h (l := [])
  rw [replace_of_backUp_error hbackUp, safely_error]
  nofun

section Moved

variable {node : Loc → Option Node} {h tmp target : Loc} {n : Node}

theorem movedNodes_same (heq : tmp = target) :
    movedNodes node h tmp target n = update node h (some n) := if_pos heq

theorem movedNodes_tmp (hne : tmp ≠ target) : movedNodes node h tmp target n tmp = none := by
  rw [movedNodes, if_neg hne, update_self]

theorem movedNodes_target (hne : tmp ≠ target) :
    movedNodes node h tmp target n target = update node h (some n) tmp := by
  rw [movedNodes, if_neg hne, update_of_ne (Ne.symm hne), update_self]

theorem movedNodes_other {loc : Loc} (htmp : loc ≠ tmp) (htarget : loc ≠ target) :
    movedNodes node h tmp target n loc = update node h (some n) loc := by
  unfold movedNodes
  split
  · rfl
  · rw [update_of_ne htmp, update_of_ne htarget]

end Moved

section Unplaced

variable {b : Loc}
  (hprevious : previous t (ofLoc target) = some (f, .file before mode))
  (hbackup : t.place (ofLoc (backupOf target)) = some b)
  (hplace : t.place (ofLoc (tmpOf target)) = none)

include hprevious hbackup hplace

theorem replace_present_unplaced (bytes : List UInt8) :
    ∃ e t1, replace target bytes ⟨t, []⟩ = .error e ⟨t1, [b]⟩ ∧
      t1.node = update t.node b
        (some (.file (if b = f then .text "" else before) mode)) := by
  obtain ⟨t1, hbackUp, hnode⟩ := backUp_placed hprevious hbackup (l := [])
  rw [← place_put (place_eq_some.mp hbackup) hnode] at hplace
  obtain ⟨e, hinstall⟩ := install_unplaced hplace (l := [] ++ [b]) (a := bytes)
  refine ⟨e, t1, ?_, hnode⟩
  rw [replace_of_backUp_ok hbackUp, bind_of_error hinstall]
  rfl

theorem safely_present_unplaced :
    Safely policy t target bytes (replace target bytes ⟨t, []⟩) ↔
      Allowed policy t b := by
  obtain ⟨e, t1, hreplace, -⟩ := replace_present_unplaced hprevious hbackup hplace bytes
  rw [hreplace, safely_error]
  simp

end Unplaced

variable (hloc : Located t target)

include hloc

theorem absent (h : previous t (ofLoc target) = none) :
    t.node target = none ∨ ∃ link, t.node target = some (.link link) := by
  have hfound : ∀ n, t.node target = some n → (∀ link, n ≠ .link link) → False := by
    intro n hnode hlink
    have hsome := previous_eq_some.mpr
      ⟨hloc.walk_some hnode (.inr hlink), hnode⟩
    rw [h] at hsome
    cases hsome
  cases hnode : t.node target with
  | none => exact .inl rfl
  | some n =>
    cases n with
    | link link => exact .inr ⟨link, rfl⟩
    | file data mode => exact (hfound _ hnode (by simp)).elim
    | dir => exact (hfound _ hnode (by simp)).elim

theorem present
    (h : previous t (ofLoc target) = some (f, .file before mode)) :
    (f = target ∧ t.node target = some (.file before mode)) ∨
      ∃ link, t.node target = some (.link link) := by
  obtain ⟨hwalk, hfile⟩ := previous_eq_some.mp h
  cases hnode : t.node target with
  | none =>
    obtain ⟨name, dir, -, hmissing⟩ := hloc.walk_none hnode true
    cases hmissing.symm.trans hwalk
  | some n =>
    by_cases hlink : ∃ link, n = .link link
    · obtain ⟨link, rfl⟩ := hlink
      exact .inr ⟨link, rfl⟩
    · have hplain : ∀ link, n ≠ .link link := fun link heq => hlink ⟨link, heq⟩
      rw [hloc.walk_some hnode (.inr hplain)] at hwalk
      cases hwalk
      rw [hnode] at hfile
      exact .inl ⟨rfl, hfile⟩

theorem replace_absent (h : previous t (ofLoc target) = none) {g : Loc}
    (hplace : t.place (ofLoc (tmpOf target)) = some g) (bytes : List UInt8) :
    ∃ t' mode, replace target bytes ⟨t, []⟩ =
        .ok ⟨(ofLoc target).display, bytes.length, none⟩
          ⟨t', [g] ++ [tmpOf target, target]⟩ ∧
      t'.node = movedNodes t.node g (tmpOf target) target
        (.file (Data.ofBytes bytes) mode) := by
  have htarget : t.node target ≠ some .dir := by
    rcases absent hloc h with hnone | ⟨link, hlink⟩
    · rw [hnone]
      simp
    · rw [hlink]
      simp
  obtain ⟨t', mode, hinstall, hnode⟩ := install_placed [] bytes hloc hplace htarget
  refine ⟨t', mode, ?_, hnode⟩
  rw [replace_of_backUp_ok (backUp_absent h), bind_of_ok hinstall]
  rfl

theorem safely_absent (hallowed : Allowed policy t target)
    (h : previous t (ofLoc target) = none) {g : Loc}
    (hplace : t.place (ofLoc (tmpOf target)) = some g) :
    Safely policy t target bytes (replace target bytes ⟨t, []⟩) ↔
      FreshTmp policy t target := by
  obtain ⟨t', mode, hreplace, hnode⟩ := replace_absent hloc h hplace bytes
  rw [hreplace, safely_ok]
  have hslot := place_eq_some.mp hplace
  constructor
  · rintro ⟨hinside, hreplaced⟩
    refine ⟨?_, hinside _ (by simp)⟩
    rcases hreplaced.others (tmpOf target) (by simp) with hsame | ⟨hbackup, -⟩ | ⟨-, hnone, -⟩
    · -- a link at the target's name would still be there
      obtain ⟨data, mode', hcontent, -⟩ := hreplaced.content
      rw [hsame]
      refine (absent hloc h).resolve_right ?_
      rintro ⟨link, hlink⟩
      rw [hnode, movedNodes_same hsame, update_of_ne (hslot.ne_of_link hlink), hlink]
        at hcontent
      cases hcontent
    · exact absurd hbackup (tmpOf_ne_backupOf hloc)
    · exact hnone
  · rintro ⟨hnone, htmp⟩
    have hself := (located_tmpOf hloc).place_none hnone
    obtain rfl : tmpOf target = g := Option.some.inj (hself.symm.trans hplace)
    have hcases : ∀ loc ∈ [tmpOf target] ++ [tmpOf target, target],
        loc = target ∨ loc = tmpOf target := by simp
    refine ⟨fun loc hmem => ?_, ⟨⟨Data.ofBytes bytes, mode, ?_, Data.bytes_ofBytes bytes⟩, nofun,
      fun loc hmem => ?_⟩⟩
    · rcases hcases loc hmem with rfl | rfl
      · exact hallowed
      · exact htmp
    · show t'.node _ = _
      rw [hnode]
      by_cases hsame : tmpOf target = target
      · rw [movedNodes_same hsame, hsame, update_self]
      · rw [movedNodes_target hsame, update_self]
    · rcases hcases loc hmem with heq | rfl
      · exact .inl heq
      · by_cases hsame : tmpOf target = target
        · exact .inl hsame
        · refine .inr (.inr ⟨rfl, hnone, ?_⟩)
          show t'.node _ = _
          rw [hnode, movedNodes_tmp hsame]

theorem place_tmp {g : Loc}
    (hprevious : previous t (ofLoc target) = some (f, .file before mode))
    (hplace : t.place (ofLoc (tmpOf target)) = some g)
    (htmp : FreshTmp policy t target ∨
      tmpOf target = target ∧ f = target) :
    (g = tmpOf target ∧ t.node (tmpOf target) = none) ∨
      (tmpOf target = target ∧ g = target) := by
  rcases htmp with ⟨hnone, -⟩ | ⟨hsame, hf⟩
  · have hself := (located_tmpOf hloc).place_none hnone
    exact .inl ⟨Option.some.inj (hplace.symm.trans hself), hnone⟩
  · obtain ⟨-, hfile⟩ := previous_eq_some.mp hprevious
    have hself := hloc.place_file (hf ▸ hfile)
    rw [hsame] at hplace
    exact .inr ⟨hsame, Option.some.inj (hplace.symm.trans hself)⟩

section Present

variable (hprevious : previous t (ofLoc target) = some (f, .file before mode)) {b : Loc}
  (hbackup : t.place (ofLoc (backupOf target)) = some b)

include hprevious hbackup

variable {g : Loc} (hplace : t.place (ofLoc (tmpOf target)) = some g)

include hplace

theorem replace_present (bytes : List UInt8) :
    ∃ t' mode', replace target bytes ⟨t, []⟩ =
        .ok ⟨(ofLoc target).display, bytes.length,
            some (ofLoc (backupOf target)).display⟩
          ⟨t', [b] ++ [g] ++ [tmpOf target, target]⟩ ∧
      t'.node = movedNodes
        (update t.node b (some (.file (if b = f then .text "" else before) mode)))
        g (tmpOf target) target (.file (Data.ofBytes bytes) mode') := by
  obtain ⟨t1, hbackUp, hnode⟩ := backUp_placed hprevious hbackup (l := [])
  have hslot := place_eq_some.mp hbackup
  have htarget : t1.node target ≠ some .dir := by
    rw [hnode]
    by_cases heq : target = b
    · rw [heq, update_self]
      simp
    · rw [update_of_ne heq]
      rcases present hloc hprevious with ⟨-, hfile⟩ | ⟨link, hlink⟩
      · rw [hfile]
        simp
      · rw [hlink]
        simp
  rw [← place_put hslot hnode] at hplace
  obtain ⟨t', mode', hinstall, hnode'⟩ := install_placed ([] ++ [b]) bytes
    (located_put hloc hslot hnode) hplace htarget
  refine ⟨t', mode', ?_, by rw [hnode', hnode]⟩
  rw [replace_of_backUp_ok hbackUp, bind_of_ok hinstall]
  rfl

theorem f_eq_of_same (hsame : tmpOf target = target)
    (hsafe : Safely policy t target bytes (replace target bytes ⟨t, []⟩)) :
    f = target := by
  obtain ⟨t', mode', hreplace, hnode⟩ := replace_present hloc hprevious hbackup hplace bytes
  rw [hreplace, safely_ok] at hsafe
  obtain ⟨data, mode'', hcontent, -⟩ := hsafe.2.content
  rcases present hloc hprevious with ⟨hf, -⟩ | ⟨link, hlink⟩
  · exact hf
  · have hb := (place_eq_some.mp hbackup).ne_of_link hlink
    have hg := (place_eq_some.mp hplace).ne_of_link hlink
    rw [hnode, movedNodes_same hsame, update_of_ne hg, update_of_ne hb, hlink]
      at hcontent
    cases hcontent

theorem kept_of_safely
    (hsafe : Safely policy t target bytes (replace target bytes ⟨t, []⟩)) :
    Allowed policy t b ∧
      (FreshTmp policy t target ∨ tmpOf target = target ∧ f = target) ∧
      BackupKept t target f b before bytes := by
  have hfsame := fun hsame => f_eq_of_same hloc hprevious hbackup hplace hsame hsafe
  obtain ⟨hwalk, hfile⟩ := previous_eq_some.mp hprevious
  obtain ⟨t', mode', hreplace, hnode⟩ := replace_present hloc hprevious hbackup hplace bytes
  rw [hreplace, safely_ok] at hsafe
  obtain ⟨hinside, hreplaced⟩ := hsafe
  have hne := tmpOf_ne_backupOf hloc
  have htmp : FreshTmp policy t target ∨
      tmpOf target = target ∧ f = target := by
    rcases hreplaced.others (tmpOf target) (by simp) with hsame | ⟨heq, -⟩ | ⟨-, hnone, -⟩
    · exact .inr ⟨hsame, hfsame hsame⟩
    · exact absurd heq hne
    · exact .inl ⟨hnone, hinside _ (by simp)⟩
  refine ⟨hinside b (by simp), htmp, ?_⟩
  obtain ⟨-, f', before', m, after, m', hwalk', hfile', hafter, hbytes⟩ := hreplaced.backup _ rfl
  obtain rfl : f = f' := Stop.found.inj (hwalk.symm.trans hwalk')
  obtain ⟨rfl, -⟩ : before = before' ∧ mode = m := by
    have hnodes := hfile.symm.trans hfile'
    cases hnodes
    exact ⟨rfl, rfl⟩
  have hg := place_tmp hloc hprevious hplace htmp
  have hothers := hreplaced.others b (by simp)
  by_cases hsame : backupOf target = target
  · have htarget : tmpOf target ≠ target := fun heq => hne (heq.trans hsame.symm)
    have hfresh := (htmp.resolve_right fun h => htarget h.1).1
    rw [hsame] at hbackup hafter
    obtain rfl : f = b :=
      Option.some.inj ((place_eq_some.mpr (.file hwalk hfile)).symm.trans hbackup)
    refine .inr ⟨hsame, ?_, ?_⟩
    · rcases hothers with heq | ⟨heq, -⟩ | ⟨rfl, hnone, -⟩
      · exact heq
      · exact heq.trans hsame
      · rw [hnone] at hfile
        cases hfile
    · have hnew : t'.node target = some (.file (Data.ofBytes bytes) mode') := by
        rw [hnode, movedNodes_target htarget, (hg.resolve_right fun h => htarget h.1).1,
          update_self]
      cases hnew.symm.trans hafter
      rw [← hbytes, Data.bytes_ofBytes]
  · have hgne : backupOf target ≠ g := by
      rcases hg with ⟨hg, -⟩ | ⟨-, hg⟩
      · exact fun heq => hne (hg.symm.trans heq.symm)
      · exact fun heq => hsame (heq.trans hg)
    have hkept : t'.node (backupOf target) = update t.node b
        (some (.file (if b = f then .text "" else before) mode)) (backupOf target) := by
      rw [hnode, movedNodes_other (Ne.symm hne) hsame, update_of_ne hgne]
    have hcopied := hkept.symm.trans hafter
    have hb : b = backupOf target := by
      by_contra hother
      rw [update_of_ne (Ne.symm hother)] at hcopied
      have hself := (located_backupOf hloc).place_file hcopied
      exact hother (Option.some.inj (hbackup.symm.trans hself))
    refine .inl ⟨hsame, hb, fun hf => ?_, ?_⟩
    · rw [← hb, update_self, if_pos (hb.trans hf.symm)] at hcopied
      cases hcopied
      exact hbytes.symm
    · rcases hothers with heq | ⟨-, -, hown⟩ | ⟨heq, -⟩
      · exact absurd (hb.symm.trans heq) hsame
      · exact hown
      · exact absurd (heq.symm.trans hb) hne

theorem safely_of_kept (hallowed : Allowed policy t target)
    (hb : Allowed policy t b)
    (htmp : FreshTmp policy t target ∨ tmpOf target = target ∧ f = target)
    (hkept : BackupKept t target f b before bytes) :
    Safely policy t target bytes (replace target bytes ⟨t, []⟩) := by
  obtain ⟨hwalk, hfile⟩ := previous_eq_some.mp hprevious
  obtain ⟨t', mode', hreplace, hnode⟩ := replace_present hloc hprevious hbackup hplace bytes
  have hne := tmpOf_ne_backupOf hloc
  have hg := place_tmp hloc hprevious hplace htmp
  have htmpAllowed : Allowed policy t (tmpOf target) := by
    rcases htmp with hfresh | ⟨hsame, -⟩
    · exact hfresh.2
    · rw [hsame]
      exact hallowed
  -- the target's own name and the temporary name are the same only if both are written over
  have hdiffer : t.node (tmpOf target) = none → tmpOf target ≠ target := by
    intro hnone hsame
    rw [hsame] at hnone
    rw [previous_eq_none.mpr] at hprevious
    · cases hprevious
    · rw [← Bool.not_eq_true, pathExists_iff]
      rintro ⟨loc, n, hfound, -⟩
      obtain ⟨name, dir, -, hmissing⟩ := hloc.walk_none hnone true
      cases hmissing.symm.trans hfound
  have htarget : t'.node target = some (.file (Data.ofBytes bytes) mode') := by
    rw [hnode]
    rcases hg with ⟨rfl, hnone⟩ | ⟨hsame, rfl⟩
    · rw [movedNodes_target (hdiffer hnone), update_self]
    · rw [movedNodes_same hsame, update_self]
  have hgone : t.node (tmpOf target) = none → t'.node (tmpOf target) = none := by
    intro hnone
    rw [hnode, movedNodes_tmp (hdiffer hnone)]
  have hcases : ∀ loc ∈ [b] ++ [g] ++ [tmpOf target, target],
      loc = b ∨ loc = tmpOf target ∨ loc = target := by
    intro loc hmem
    rcases hg with ⟨rfl, -⟩ | ⟨hsame, rfl⟩
    · simpa using hmem
    · simpa [hsame] using hmem
  rw [hreplace, safely_ok]
  refine ⟨fun loc hmem => ?_, ⟨⟨_, _, htarget, Data.bytes_ofBytes bytes⟩, fun path hpath => ?_,
    fun loc hmem => ?_⟩⟩
  · rcases hcases loc hmem with rfl | rfl | rfl
    · exact hb
    · exact htmpAllowed
    · exact hallowed
  · cases hpath
    refine ⟨rfl, f, before, mode, ?_⟩
    rcases hkept with ⟨hother, rfl, hempty, -⟩ | ⟨hsame, -, hbytes⟩
    · have hgne : backupOf target ≠ g := by
        rcases hg with ⟨hg, -⟩ | ⟨-, hg⟩
        · exact fun heq => hne (hg.symm.trans heq.symm)
        · exact fun heq => hother (heq.trans hg)
      refine ⟨if backupOf target = f then .text "" else before, mode, hwalk, hfile, ?_, ?_⟩
      · show t'.node _ = _
        rw [hnode, movedNodes_other (Ne.symm hne) hother, update_of_ne hgne,
          update_self]
      · split_ifs with hf
        · exact (hempty hf.symm).symm
        · rfl
    · refine ⟨_, mode', hwalk, hfile, hsame ▸ htarget, ?_⟩
      rw [Data.bytes_ofBytes, hbytes]
  · rcases hcases loc hmem with rfl | rfl | rfl
    · rcases hkept with ⟨-, hown, -, hunshared⟩ | ⟨hsame, hf, -⟩
      · exact .inr (.inl ⟨hown, rfl, hunshared⟩)
      · rw [hsame] at hbackup
        have hself := place_eq_some.mpr (.file hwalk hfile)
        exact .inl ((Option.some.inj (hbackup.symm.trans hself)).trans hf)
    · rcases hg with ⟨-, hnone⟩ | ⟨hsame, -⟩
      · exact .inr (.inr ⟨rfl, hnone, hgone hnone⟩)
      · exact .inl hsame
    · exact .inl rfl

end Present

/-- A target in a directory is replaced safely exactly if it is one of the safe ones. -/
theorem safely_iff_located (hallowed : Allowed policy t target) (bytes : List UInt8) :
    Safely policy t target bytes (replace target bytes ⟨t, []⟩) ↔
      SafeAt policy t target bytes := by
  unfold SafeAt
  split
  · next hprevious =>
    cases hplace : t.place (ofLoc (tmpOf target)) with
    | none =>
      obtain ⟨e, hinstall⟩ := install_unplaced hplace (l := []) (a := bytes)
      rw [replace_of_backUp_ok (backUp_absent hprevious), bind_of_error hinstall, safely_error]
      exact iff_of_true nofun (fun h => absurd rfl h)
    | some g =>
      rw [safely_absent hloc hallowed hprevious hplace]
      exact ⟨fun h _ => h, fun h => h (by simp)⟩
  · next f before mode hprevious =>
    cases hbackup : t.place (ofLoc (backupOf target)) with
    | none =>
      obtain ⟨e, hbackUp⟩ := backUp_unplaced hprevious hbackup (l := [])
      rw [replace_of_backUp_error hbackUp, safely_error]
      exact iff_of_true nofun nofun
    | some b =>
      cases hplace : t.place (ofLoc (tmpOf target)) with
      | none =>
        rw [safely_present_unplaced hprevious hbackup hplace]
        constructor
        · intro hb b' heq
          cases heq
          exact ⟨hb, fun h => absurd rfl h⟩
        · exact fun h => (h b rfl).1
      | some g =>
        constructor
        · intro hsafe b' heq
          cases heq
          obtain ⟨hb, htmp, hkept⟩ := kept_of_safely hloc hprevious hbackup hplace hsafe
          exact ⟨hb, fun _ => ⟨htmp, hkept⟩⟩
        · intro h
          obtain ⟨hb, hrest⟩ := h b rfl
          obtain ⟨htmp, hkept⟩ := hrest (by simp)
          exact safely_of_kept hloc hprevious hbackup hplace hallowed hb htmp hkept
  · next found hother hprevious =>
    obtain ⟨f, n⟩ := found
    obtain ⟨hwalk, hnode⟩ := previous_eq_some.mp hprevious
    refine iff_of_true ?_ trivial
    cases n with
    | file before mode => exact (hother f before mode rfl).elim
    | dir => exact safely_dir hprevious
    | link link =>
      obtain ⟨o, ho, hlink⟩ := node_of_walk hwalk
      exact absurd (Option.some.inj (ho.symm.trans hnode)) (hlink link)

end Ends

section Authorize

variable {policy : FileOpsPolicy} {t : Tree} {raw : String} {target : Loc}

/-- What is known of a target: its names, and that its directory is not a link. -/
structure Canonical (t : Tree) (target : Loc) : Prop where
  names : ∀ c ∈ target, IsName c
  parent : ∀ name dir, target = name :: dir →
    ∃ n, t.node dir = some n ∧ ∀ link, n ≠ .link link

theorem canonical_of_found {p : Path} (h : t.walk true p = .found target) : Canonical t target := by
  obtain ⟨n, hnode, -⟩ := node_of_walk h
  refine ⟨isName_of_walk h, ?_⟩
  rintro name dir rfl
  exact ⟨.dir, t.parent_of_some hnode, by simp⟩

theorem isName_of_fileName {p : Path} {name : String} (h : p.fileName = some name) :
    IsName name := by
  obtain ⟨hlast, hup⟩ := Option.filter_eq_some_iff.mp h
  have hmem := mem_of_getLast? hlast
  have hpiece := (mem_filter.mp hmem).2
  simp only [decide_eq_true_eq] at hpiece hup
  exact ⟨hpiece.1, hpiece.2, hup⟩

theorem canonicalTarget_canonical (h : canonicalTarget t raw true = .ok target) :
    Canonical t target := by
  unfold canonicalTarget at h
  dsimp only at h
  split at h
  · next loc hcanonical =>
    cases h
    exact canonical_of_found (canonicalize_ok.mp hcanonical)
  · rw [if_pos rfl] at h
    split at h
    · cases h
    · split at h
      · cases h
      · next dir hdir =>
        split at h
        · cases h
        · next name hname =>
          cases h
          have hfound := canonicalize_ok.mp hdir
          refine ⟨forall_mem_cons.mpr ⟨isName_of_fileName hname, isName_of_walk hfound⟩, ?_⟩
          intro name' dir' heq
          cases heq
          exact node_of_walk hfound

theorem allowed_of_isAllowed (hnames : ∀ c ∈ target, IsName c)
    (h : isAllowed policy t target = true) : Allowed policy t target := by
  obtain ⟨allowed, hmem, hstarts⟩ := any_eq_true.mp h
  refine ⟨allowed, hmem, ?_⟩
  split at hstarts
  · next top htop =>
    have htopNames := isName_of_walk (canonicalize_ok.mp htop)
    exact ⟨top, htop, suffix_of_startsWith htopNames hnames hstarts⟩
  · cases hstarts

theorem authorizePath_ok (h : authorizePath policy t raw true = .ok target) :
    Canonical t target ∧ Allowed policy t target := by
  unfold authorizePath at h
  obtain ⟨-, h⟩ := except_unit_bind_iff.mp h
  obtain ⟨canonical, htarget, h⟩ := except_ok_bind_iff.mp h
  obtain ⟨hallowed, h⟩ := except_unit_bind_iff.mp h
  cases h
  have hcanonical := canonicalTarget_canonical htarget
  rw [bailIf_eq_ok, Bool.not_eq_false] at hallowed
  exact ⟨hcanonical, allowed_of_isAllowed hcanonical.names hallowed⟩

theorem authorized_of_checkWrite {decode : String → Except String (List UInt8)} {params : Json}
    {bytes : List UInt8} (h : checkWrite decode policy params t = .ok (target, bytes)) :
    ∃ raw, authorizePath policy t raw true = .ok target := by
  unfold checkWrite at h
  split at h
  · cases h
  · cases h
  · next raw data _ _ =>
    obtain ⟨decoded, -, h⟩ := except_ok_bind_iff.mp h
    obtain ⟨-, h⟩ := except_unit_bind_iff.mp h
    obtain ⟨path, hpath, h⟩ := except_ok_bind_iff.mp h
    cases h
    exact ⟨raw, hpath⟩

end Authorize

theorem previous_root (t : Tree) : previous t (ofLoc []) = some ([], .dir) :=
  previous_eq_some.mpr ⟨walk_ofLoc_nil, t.root⟩

section BelowFile

variable {t : Tree} {name : String} {dir : Loc} {n : Node} (hnames : ∀ c ∈ dir, IsName c)
  (hnode : t.node dir = some n) (hlink : ∀ link, n ≠ .link link) (hdir : n ≠ .dir)
include hnames hnode hlink hdir

theorem previous_below_file : previous t (ofLoc (name :: dir)) = none := by
  rw [previous, walk_below_file hnames hnode hlink hdir]

theorem replace_below_file (bytes : List UInt8) :
    ∃ e, replace (name :: dir) bytes ⟨t, []⟩ = .error e ⟨t, []⟩ := by
  have hplace : t.place (ofLoc (tmpOf (name :: dir))) = none :=
    place_below_file hnames hnode hlink hdir
  obtain ⟨e, hinstall⟩ := install_unplaced hplace (l := []) (a := bytes)
  refine ⟨e, ?_⟩
  rw [replace_of_backUp_ok (backUp_absent (previous_below_file hnames hnode hlink hdir)),
    bind_of_error hinstall]

end BelowFile

/-- An authorized target is replaced safely exactly if it is one of the safe ones. -/
theorem safely_iff {policy : FileOpsPolicy} {t : Tree} {target : Loc}
    (hcanonical : Canonical t target)
    (hallowed : Allowed policy t target) (bytes : List UInt8) :
    Safely policy t target bytes (replace target bytes ⟨t, []⟩) ↔ SafeAt policy t target bytes := by
  cases target with
  | nil =>
    refine iff_of_true (safely_dir (previous_root t)) ?_
    rw [SafeAt, previous_root]
    trivial
  | cons name dir =>
    obtain ⟨hname, hnames⟩ := forall_mem_cons.mp hcanonical.names
    obtain ⟨n, hnode, hlink⟩ := hcanonical.parent name dir rfl
    by_cases hdir : n = .dir
    · subst hdir
      exact safely_iff_located (.child hnames hname hnode) hallowed bytes
    · obtain ⟨e, hreplace⟩ := replace_below_file hnames hnode hlink hdir bytes
      rw [hreplace, safely_error, SafeAt, previous_below_file hnames hnode hlink hdir]
      exact iff_of_true nofun (fun h => absurd (place_below_file hnames hnode hlink hdir) h)

section Write

variable {decode : String → Except String (List UInt8)} {policy : FileOpsPolicy} {params : Json}
  {t : Tree}

theorem write_of_error {e : String} (h : checkWrite decode policy params t = .error e) :
    write decode policy params ⟨t, []⟩ = .error e ⟨t, []⟩ := by
  rw [write, get_bind]
  dsimp only
  rw [h]
  rfl

theorem write_of_ok {target : Loc} {bytes : List UInt8}
    (h : checkWrite decode policy params t = .ok (target, bytes)) :
    write decode policy params ⟨t, []⟩ = replace target bytes ⟨t, []⟩ := by
  rw [write, get_bind]
  dsimp only
  rw [h]

end Write

/-- A request keeps to the policy, and replaces the file that it is for and nothing else, exactly if
that file is one of the safe ones. -/
theorem writesSafely_iff (decode : String → Except String (List UInt8)) (policy : FileOpsPolicy)
    (params : Json) (t : Tree) :
    WritesSafely decode policy params t ↔
      ∀ target bytes, checkWrite decode policy params t = .ok (target, bytes) →
        SafeAt policy t target bytes := by
  cases hcheck : checkWrite decode policy params t with
  | error e =>
    have hwrite := write_of_error hcheck
    refine iff_of_true ⟨?_, fun report s heq => ?_⟩ nofun
    · rw [hwrite]
      nofun
    · rw [hwrite] at heq
      cases heq
  | ok checked =>
    obtain ⟨target, bytes⟩ := checked
    have hwrite := write_of_ok hcheck
    obtain ⟨raw, hauthorized⟩ := authorized_of_checkWrite hcheck
    obtain ⟨hcanonical, hallowed⟩ := authorizePath_ok hauthorized
    have hiff := safely_iff hcanonical hallowed bytes
    constructor
    · intro hsafe target' bytes' heq
      cases heq
      refine hiff.mp ⟨by rw [← hwrite]; exact hsafe.inside, fun report s hreplace => ?_⟩
      obtain ⟨target', bytes', hcheck', hreplaced⟩ :=
        hsafe.replaced report s (hwrite.trans hreplace)
      cases hcheck.symm.trans hcheck'
      exact hreplaced
    · intro h
      have hsafe := hiff.mpr (h target bytes rfl)
      refine ⟨by rw [hwrite]; exact hsafe.inside, fun report s heq => ⟨target, bytes, hcheck, ?_⟩⟩
      exact hsafe.replaced report s (hwrite.symm.trans heq)

def linkedBackup : Tree := .ofList [(["data"], .dir), (["etc"], .dir),
  (["passwd", "etc"], .file (.text "root") 0o644),
  (["app.conf", "data"], .file (.text "old") 0o644),
  (["app.guestkit-bak", "data"], .link "/etc/passwd")]

def dataPolicy : FileOpsPolicy := { enabled := true, allowedPaths := ["/data"], maxBytes := 1024 }

def writeNew : Json := .object [("path", .string "/data/app.conf"), ("data", .string "bmV3")]

theorem backup_written_outside :
    (stateOf (write (fun _ => .ok [110, 101, 119]) dataPolicy writeNew
      ⟨linkedBackup, []⟩)).tree.node
        ["passwd", "etc"] = some (.file (.text "old") 0o644) ∧
      ["passwd", "etc"] ∈ (stateOf (write (fun _ => .ok [110, 101, 119]) dataPolicy writeNew
        ⟨linkedBackup, []⟩)).touched ∧
      ¬ Allowed dataPolicy linkedBackup ["passwd", "etc"] := by
  refine ⟨by decide +kernel, by decide +kernel, ?_⟩
  rintro ⟨allowed, hmem, top, htop, hsuffix⟩
  have hdata : linkedBackup.canonicalize (Path.ofString "/data") = .ok ["data"] := by decide +kernel
  rw [mem_singleton.mp hmem, hdata] at htop
  cases htop
  revert hsuffix
  decide

end Guestkit.Agent.FileOps
