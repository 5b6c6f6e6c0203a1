import Guestkit.Plan.Backups
import Guestkit.Plan.Execution

/-! What the automatic rollback of the live executor restores: the operations that copy a file
before they change it keep the snapshots, so does a run of them, and the rollback puts
the files back. -/

namespace Guestkit.Plan

open Lib Lib.Fs Function LivePlanExecutor List

namespace LivePlanExecutor

variable {ε : Type}

def target (self : LivePlanExecutor) (op : Operation) : Option Path :=
  match op.opType with
  | .fileEdit fe => some (self.resolve fe.file)
  | .fileWrite fw => some (self.resolve fw.path)
  | .fileDelete fd => some (self.resolve fd.path)
  | .fileCopy fc => some (self.resolve fc.destination)
  | .selinuxMode sm => some (self.resolve sm.file)
  | _ => none

/-- A path that leads nowhere, and not to a name that the directory at `top` might get. -/
structure IsAbsent (t : Tree) (top : Loc) (follow : Bool) (path : Path) : Prop where
  nowhere : ∀ loc, t.walk follow path ≠ .found loc
  outside : ∀ dir name rest, t.walk follow path = .missing dir name rest → ¬top <:+ name :: dir

/-- An operation that changes only a regular file, which it copies first: one of the kinds that take
a snapshot, on a file that is there, or on none for the kinds that do not make one. -/
def Restorable (self : LivePlanExecutor) (t : Tree) (top : Loc) (op : Operation) : Prop :=
  match op.opType with
  | .fileEdit fe =>
    (∃ g, IsFileAt t (self.resolve fe.file) g) ∨ IsAbsent t top true (self.resolve fe.file)
  | .selinuxMode sm =>
    (∃ g, IsFileAt t (self.resolve sm.file) g) ∨ IsAbsent t top true (self.resolve sm.file)
  | .fileWrite fw => ∃ g, IsFileAt t (self.resolve fw.path) g
  | .fileCopy fc => fc.backup = true ∧ ∃ g, IsFileAt t (self.resolve fc.destination) g
  | .fileDelete fd =>
    (∃ g, IsFileAt t (self.resolve fd.path) g ∧ t.walk false (self.resolve fd.path) = .found g) ∨
      IsAbsent t top true (self.resolve fd.path) ∧ IsAbsent t top false (self.resolve fd.path)
  | _ => False

def CanEnter (t₁ : Tree) (done : List (Path × Loc)) (path : Path) : Prop :=
  ∀ g, IsFileAt t₁ path g → backupName path.display ≠ "manifest.json" ∧
    ∀ e ∈ done, e.2 ≠ g ∧ backupName e.1.display ≠ backupName path.display

section Operations

variable {host : Host ε} {dir : Path} {top : Loc} {t₁ : Tree} {done : List (Path × Loc)}
  (hcodec : ∀ m, host.decodeManifest (host.encodeManifest m) = .ok m)
  (hfresh : FreshDir t₁ dir top) {s : Machine ε} (h : Backups host dir top t₁ done s.tree)
  {path : Path} {g : Loc}

include hfresh h

theorem pathExists_of_isFileAt (hfile : IsFileAt t₁ path g) (hnew : ∀ e ∈ done, e.2 ≠ g) :
    s.tree.pathExists path = true := by
  obtain ⟨data, mode, hnode⟩ := hfile.node
  have hg : s.tree.node g = some (.file data mode) := by
    rw [h.outside g (hfresh.not_below hnode) hnew, hnode]
  exact pathExists_iff.mpr
    ⟨g, _, (h.keeps hfresh).walk_found hfile.walk (by rw [hg]; simp), hg⟩

theorem pathExists_of_isAbsent (habsent : IsAbsent t₁ top true path) :
    s.tree.pathExists path = false := by
  rw [← Bool.not_eq_true, pathExists_iff]
  rintro ⟨loc, n, hwalk, -⟩
  exact (h.keeps hfresh).walk_not_found habsent.nowhere habsent.outside loc hwalk

theorem readToString_of_isAbsent (habsent : IsAbsent t₁ top true path) :
    ∃ err, s.tree.readToString path = .error err := by
  have hnone := (h.keeps hfresh).walk_not_found habsent.nowhere habsent.outside
  unfold Tree.readToString Tree.read Tree.lookup
  cases hwalk : s.tree.walk true path with
  | found loc => exact absurd hwalk (hnone loc)
  | _ => exact ⟨_, rfl⟩

theorem snapshotFile_absent (habsent : IsAbsent t₁ top true path) :
    snapshotFile host path dir s = .ok () s := by
  rw [snapshotFile, get_bind, if_neg (by rw [pathExists_of_isAbsent hfresh h habsent]; simp)]
  rfl

/-- The backups of `done`, or of `done` and of the file at the end of `path`. -/
def Extends (host : Host ε) (dir : Path) (top : Loc) (t₁ : Tree) (done : List (Path × Loc))
    (path : Path) (t : Tree) : Prop :=
  ∃ done', Backups host dir top t₁ done' t ∧ (done' = done ∨ ∃ g, done' = done ++ [(path, g)])

variable (hnew : CanEnter t₁ done path) (hfile : IsFileAt t₁ path g) {α : Type} {m : LiveM ε α}
  (hm : Always (Kept host dir top t₁ (done ++ [(path, g)])) m)

include hcodec hnew hfile hm

theorem snapshotFile_then_extends :
    Extends host dir top t₁ done path
      (stateOf ((do snapshotFile host path dir; m : LiveM ε α) s)).tree := by
  obtain ⟨t', hsnapshot, h'⟩ :=
    snapshotFile_ok hcodec hfresh h hfile (hnew g hfile).2 (hnew g hfile).1
  rw [bind_of_ok hsnapshot]
  exact ⟨_, hm _ h', .inr ⟨g, rfl⟩⟩

theorem snapshotExisting_then_extends :
    Extends host dir top t₁ done path
      (stateOf ((do snapshotExisting host path dir; m : LiveM ε α) s)).tree := by
  have hexists := pathExists_of_isFileAt hfresh h hfile fun e he => ((hnew g hfile).2 e he).1
  have hsnapshot : snapshotExisting host path dir s = snapshotFile host path dir s := by
    rw [snapshotExisting, get_bind, if_pos hexists]
  have hsame : (do snapshotExisting host path dir; m : LiveM ε α) s =
      (do snapshotFile host path dir; m : LiveM ε α) s := by
    change EStateM.bind _ _ _ = EStateM.bind _ _ _
    rw [EStateM.bind, EStateM.bind, hsnapshot]
  rw [hsame]
  exact snapshotFile_then_extends hcodec hfresh h hnew hfile hm

end Operations

section Steps

variable {host : Host ε} {dir : Path} {top : Loc} {t₁ : Tree} {done : List (Path × Loc)}
  (hcodec : ∀ m, host.decodeManifest (host.encodeManifest m) = .ok m)
  (hfresh : FreshDir t₁ dir top) (self : LivePlanExecutor) {s : Machine ε}
  (h : Backups host dir top t₁ done s.tree)

theorem mem_entered (path : Path) (g : Loc) :
    ((path, g) : Path × Loc) ∈ done ++ [(path, g)] := by
  simp

theorem Extends.refl {path : Path} {t : Tree} (h : Backups host dir top t₁ done t) :
    Extends host dir top t₁ done path t :=
  ⟨done, h, .inl rfl⟩

include hcodec hfresh h

theorem applyFileEdit_extends {fe : FileEdit} (hnew : CanEnter t₁ done (self.resolve fe.file))
    (hop : (∃ g, IsFileAt t₁ (self.resolve fe.file) g) ∨
      IsAbsent t₁ top true (self.resolve fe.file)) :
    Extends host dir top t₁ done (self.resolve fe.file)
      (stateOf (self.applyFileEdit host fe dir s)).tree := by
  unfold applyFileEdit
  rcases hop with ⟨g, hfile⟩ | habsent
  · refine snapshotFile_then_extends hcodec hfresh h hnew hfile ?_
    refine Always.bind ?_ fun content => ?_
    · exact (kept_fromFiles _).tryCatch fun _ => kept_throw _
    · exact (kept_write hfresh (mem_entered _ g) _).bind fun _ => kept_pure true
  · obtain ⟨err, hread⟩ := readToString_of_isAbsent hfresh h habsent
    have hfail : fromFiles (fun t => t.readToString (self.resolve fe.file)) s =
        .error err.message s := by
      rw [fromFiles, hread]
    rw [bind_of_ok (snapshotFile_absent hfresh h habsent),
      bind_of_error (tryCatch_of_error (f := fun _ => throw _) hfail)]
    exact .refl h

theorem applyFileWrite_extends {fw : FileWrite} (hnew : CanEnter t₁ done (self.resolve fw.path))
    {g : Loc} (hfile : IsFileAt t₁ (self.resolve fw.path) g) :
    Extends host dir top t₁ done (self.resolve fw.path)
      (stateOf (self.applyFileWrite host fw dir s)).tree := by
  unfold applyFileWrite
  refine snapshotExisting_then_extends hcodec hfresh h hnew hfile ?_
  refine (kept_createParent hfresh (mem_entered _ g)).bind fun _ => ?_
  refine (kept_write hfresh (mem_entered _ g) _).bind fun _ => ?_
  refine Always.bind ?_ fun _ => kept_pure true
  unfold writeMode
  split
  · exact kept_setMode hfresh (mem_entered _ g) _
  · exact kept_pure ()

theorem applyFileDelete_extends {fd : FileDelete} (hnew : CanEnter t₁ done (self.resolve fd.path))
    (hop : (∃ g, IsFileAt t₁ (self.resolve fd.path) g ∧
        t₁.walk false (self.resolve fd.path) = .found g) ∨
      IsAbsent t₁ top true (self.resolve fd.path) ∧
        IsAbsent t₁ top false (self.resolve fd.path)) :
    Extends host dir top t₁ done (self.resolve fd.path)
      (stateOf (self.applyFileDelete host fd dir s)).tree := by
  unfold applyFileDelete
  dsimp only
  rw [get_bind]
  rcases hop with ⟨g, hfile, hlink⟩ | ⟨habsent, habsent'⟩
  · have hexists := pathExists_of_isFileAt hfresh h hfile fun e he => ((hnew g hfile).2 e he).1
    rw [if_neg (by simp [hexists])]
    refine snapshotExisting_then_extends hcodec hfresh h hnew hfile ?_
    exact (kept_removeFile hfresh (mem_entered _ g) hlink).bind fun _ =>
      kept_pure true
  · have hnone := (h.keeps hfresh).walk_not_found habsent'.nowhere habsent'.outside
    have hlink : s.tree.isSymlink (self.resolve fd.path) = false := by
      unfold Tree.isSymlink
      cases hwalk : s.tree.walk false (self.resolve fd.path) with
      | found loc => exact absurd hwalk (hnone loc)
      | _ => rfl
    rw [if_pos (by simp [pathExists_of_isAbsent hfresh h habsent, hlink])]
    split <;> exact .refl h

theorem applyFileCopy_extends {fc : FileCopy} (hbackup : fc.backup = true)
    (hnew : CanEnter t₁ done (self.resolve fc.destination)) {g : Loc}
    (hfile : IsFileAt t₁ (self.resolve fc.destination) g) :
    Extends host dir top t₁ done (self.resolve fc.destination)
      (stateOf (self.applyFileCopy host fc dir s)).tree := by
  unfold applyFileCopy
  dsimp only
  rw [if_pos hbackup]
  refine snapshotExisting_then_extends hcodec hfresh h hnew hfile ?_
  refine (kept_createParent hfresh (mem_entered _ g)).bind fun _ => ?_
  exact (kept_copy hfresh (mem_entered _ g) _).bind fun _ => kept_pure true

theorem applySelinuxMode_extends {sm : SELinuxMode}
    (hquiet : ∀ arg s, (host.run ["setenforce", arg] s).2.tree = s.tree)
    (hnew : CanEnter t₁ done (self.resolve sm.file))
    (hop : (∃ g, IsFileAt t₁ (self.resolve sm.file) g) ∨
      IsAbsent t₁ top true (self.resolve sm.file)) :
    Extends host dir top t₁ done (self.resolve sm.file)
      (stateOf (self.applySelinuxMode host sm dir s)).tree := by
  unfold applySelinuxMode
  rcases hop with ⟨g, hfile⟩ | habsent
  · refine snapshotFile_then_extends hcodec hfresh h hnew hfile ?_
    refine Always.bind ?_ fun _ => ?_
    · intro s hs
      rw [rewriteSelinux, get_bind]
      cases s.tree.readToString (self.resolve sm.file) with
      | ok content => exact kept_write hfresh (mem_entered _ g) _ s hs
      | error err => exact hs
    · exact (kept_command (hquiet _)).bind fun _ => kept_pure true
  · obtain ⟨err, hread⟩ := readToString_of_isAbsent hfresh h habsent
    have hrewrite : rewriteSelinux (self.resolve sm.file) sm s = .ok () s := by
      rw [rewriteSelinux, get_bind, hread]
      rfl
    rw [bind_of_ok (snapshotFile_absent hfresh h habsent), bind_of_ok hrewrite]
    refine ⟨done, ?_, .inl rfl⟩
    exact (kept_command (hquiet _)).bind (fun _ => kept_pure true) s h

theorem applyOperation_extends {op : Operation} {path : Path}
    (htarget : self.target op = some path) (hop : self.Restorable t₁ top op)
    (hquiet : ∀ arg s, (host.run ["setenforce", arg] s).2.tree = s.tree)
    (hnew : CanEnter t₁ done path) :
    Extends host dir top t₁ done path (stateOf (self.applyOperation host op dir s)).tree := by
  unfold target at htarget
  unfold Restorable at hop
  unfold applyOperation
  cases hkind : op.opType with
  | fileEdit fe =>
    rw [hkind] at htarget hop
    cases htarget
    exact self.applyFileEdit_extends hcodec hfresh h hnew hop
  | fileWrite fw =>
    rw [hkind] at htarget hop
    cases htarget
    obtain ⟨g, hfile⟩ := hop
    exact self.applyFileWrite_extends hcodec hfresh h hnew hfile
  | fileDelete fd =>
    rw [hkind] at htarget hop
    cases htarget
    exact self.applyFileDelete_extends hcodec hfresh h hnew hop
  | fileCopy fc =>
    rw [hkind] at htarget hop
    cases htarget
    obtain ⟨hbackup, g, hfile⟩ := hop
    exact self.applyFileCopy_extends hcodec hfresh h hbackup hnew hfile
  | selinuxMode sm =>
    rw [hkind] at htarget hop
    cases htarget
    exact self.applySelinuxMode_extends hcodec hfresh h hquiet hnew hop
  | _ => simp [hkind] at htarget

end Steps

section Runs

variable {host : Host ε} {dir : Path} {top : Loc} {t₁ : Tree}

theorem outcomeOf_state {α : Type} (m : LiveM ε α) (s : Machine ε) :
    (outcomeOf m s).2 = stateOf (m s) := by
  unfold outcomeOf
  cases m s <;> rfl

theorem capture_state (self : LivePlanExecutor) (host : Host ε) {op : Operation} {path : Path}
    (htarget : self.target op = some path) (s : Machine ε) : (self.capture host op s).2 = s := by
  have hstate : (self.capture host op s).2 = stateOf (self.captureBefore host op s) := by
    rw [← outcomeOf_state, capture]
    rcases outcomeOf (self.captureBefore host op) s with ⟨r, s'⟩
    cases r <;> rfl
  rw [hstate, captureBefore, get_bind]
  unfold target at htarget
  cases hkind : op.opType with
  | fileEdit fe => rfl
  | fileWrite fw => rfl
  | fileDelete fd => rfl
  | fileCopy fc => rfl
  | selinuxMode sm =>
    dsimp only
    cases s.tree.readToString (self.resolve sm.file) <;> rfl
  | _ => simp [hkind] at htarget

theorem validated_tree {op : Operation}
    (hquiet : ∀ check, op.validation = some check → ∀ s,
      (host.run ["sh", "-c", check.command] s).2.tree = s.tree) (s : Machine ε) :
    (validated host op s).2.tree = s.tree := by
  have hstate : (validated host op s).2 = stateOf (runOpValidation host op s) := by
    rw [← outcomeOf_state, validated]
    rcases outcomeOf (runOpValidation host op) s with ⟨r, s'⟩
    cases r <;> rfl
  rw [hstate, runOpValidation]
  cases hcheck : op.validation with
  | none => rfl
  | some check =>
    have hcommand : host.command ["sh", "-c", check.command] s =
        .ok (host.run ["sh", "-c", check.command] s).1
          (host.run ["sh", "-c", check.command] s).2 := rfl
    dsimp only
    rw [bind_of_ok hcommand]
    have htree := hquiet check hcheck s
    generalize (host.run ["sh", "-c", check.command] s).2 = s' at htree
    cases (host.run ["sh", "-c", check.command] s).1 <;> exact htree

/-- The programs that a plan of operations on files runs do not change files: those of its checks,
and `setenforce`. -/
structure QuietHost (host : Host ε) (plan : FixPlan) : Prop where
  checks : ∀ op ∈ plan.operations, ∀ check, op.validation = some check → ∀ s,
    (host.run ["sh", "-c", check.command] s).2.tree = s.tree
  setenforce : ∀ arg s, (host.run ["setenforce", arg] s).2.tree = s.tree

/-- Every operation changes one file, which it copies before, and the files and the names of their
copies differ. -/
structure RestorablePlan (exec : LivePlanExecutor) (plan : FixPlan) (t₁ : Tree) (top : Loc) :
    Prop where
  operations : ∀ op ∈ plan.operations, exec.Restorable t₁ top op
  names : ∀ op ∈ plan.operations, ∀ path g, exec.target op = some path → IsFileAt t₁ path g →
    backupName path.display ≠ "manifest.json"
  distinct : ∀ op ∈ plan.operations, ∀ op' ∈ plan.operations, op.id ≠ op'.id →
    ∀ path path' g g', exec.target op = some path → exec.target op' = some path' →
      IsFileAt t₁ path g → IsFileAt t₁ path' g' →
        g ≠ g' ∧ backupName path.display ≠ backupName path'.display

theorem Restorable.target {self : LivePlanExecutor} {op : Operation}
    (h : self.Restorable t₁ top op) : ∃ path, self.target op = some path := by
  unfold Restorable at h
  unfold LivePlanExecutor.target
  cases hkind : op.opType <;> simp_all

variable (hcodec : ∀ m, host.decodeManifest (host.encodeManifest m) = .ok m)
  (hfresh : FreshDir t₁ dir top) {self : LivePlanExecutor} {plan : FixPlan}
  (hquiet : QuietHost host plan) (hplan : RestorablePlan self plan t₁ top)

include hcodec hfresh hquiet hplan

theorem applyStep_extends {done : List (Path × Loc)} {op : Operation} (hop : op ∈ plan.operations)
    {path : Path} (htarget : self.target op = some path) (hnew : CanEnter t₁ done path)
    (p : Progress) {s : Machine ε} (h : Backups host dir top t₁ done s.tree) :
    Extends host dir top t₁ done path (self.applyStep host dir op p s).2.tree := by
  have hextends := self.applyOperation_extends hcodec hfresh h htarget
    (hplan.operations op hop) hquiet.setenforce hnew
  rw [← outcomeOf_state] at hextends
  unfold applyStep
  by_cases haborted : p.aborted = true
  · rw [if_pos haborted]
    exact .refl h
  · rw [if_neg haborted]
    dsimp only
    rw [capture_state self host htarget]
    generalize outcomeOf (self.applyOperation host op dir) s = out at hextends ⊢
    obtain ⟨r, s'⟩ := out
    have htree := validated_tree (hquiet.checks op hop) s'
    match r with
    | .ok true =>
      dsimp only at hextends ⊢
      split
      · rw [htree]
        exact hextends
      · rw [htree]
        exact hextends
    | .ok false => exact hextends
    | .error e => exact hextends

theorem applyAll_backups {ops : List Operation} (hops : ∀ op ∈ ops, op ∈ plan.operations)
    (hids : (ops.map Operation.id).Nodup) {done : List (Path × Loc)} (p : Progress)
    {s : Machine ε} (h : Backups host dir top t₁ done s.tree)
    (hdone : ∀ e ∈ done, ∃ op ∈ plan.operations, op.id ∉ ops.map Operation.id ∧
      self.target op = some e.1) :
    ∃ done', Backups host dir top t₁ done' (self.applyAll host dir ops p s).2.tree := by
  induction ops generalizing done p s with
  | nil => exact ⟨done, h⟩
  | cons op ops ih =>
    rw [map_cons, nodup_cons] at hids
    have hop := hops op (by simp)
    obtain ⟨path, htarget⟩ := (hplan.operations op hop).target
    have hnew : CanEnter t₁ done path := by
      intro g hfile
      refine ⟨hplan.names op hop path g htarget hfile, fun e he => ?_⟩
      obtain ⟨op', hop', hid, htarget'⟩ := hdone e he
      have hne : op'.id ≠ op.id := fun heq => hid (by simp [heq])
      exact hplan.distinct op' hop' op hop hne e.1 path e.2 g htarget' htarget (h.files e he) hfile
    obtain ⟨done', h', hdone'⟩ := applyStep_extends hcodec hfresh hquiet hplan hop htarget hnew p h
    rw [applyAll]
    refine ih (fun op' hop' => hops op' (mem_cons_of_mem op hop')) hids.2 _ h' ?_
    have hold : ∀ e ∈ done, ∃ op ∈ plan.operations, op.id ∉ ops.map Operation.id ∧
        self.target op = some e.1 := by
      intro e he
      obtain ⟨op', hop', hid, htarget'⟩ := hdone e he
      exact ⟨op', hop', fun hmem => hid (by simp [hmem]), htarget'⟩
    rcases hdone' with rfl | ⟨g, rfl⟩
    · exact hold
    · intro e he
      rcases mem_append.mp he with he | he
      · exact hold e he
      · rw [mem_singleton.mp he]
        exact ⟨op, hop, hids.1, htarget⟩

end Runs

section Restoring

variable {host : Host ε} {dir : Path} {top : Loc} {t₁ : Tree} {done : List (Path × Loc)}
  (hfresh : FreshDir t₁ dir top)

include hfresh

theorem restoreEntry_ok {s : Machine ε} (h : Backups host dir top t₁ done s.tree)
    {e : Path × Loc} (he : e ∈ done) :
    ∃ t', restoreEntry (entryFor dir e.1) s = .ok () { s with tree := t' } ∧
      Backups host dir top t₁ done t' ∧ t'.node e.2 = t₁.node e.2 ∧
      ∀ loc, loc ≠ e.2 → t'.node loc = s.tree.node loc := by
  obtain ⟨data, mode, hnode⟩ := (h.files e he).node
  have hcopy : s.tree.node (backupName e.1.display :: top) = some (.file data mode) := by
    rw [h.copy e he, hnode]
  have hname : IsName (backupName e.1.display) := by
    refine isName_backupName ?_ hnode
    rw [(h.files e he).clean.ofString_display]
    exact (h.files e he).walk
  have hwalk : s.tree.walk true (dir.join [backupName e.1.display]) =
      .found (backupName e.1.display :: top) := by
    rw [h.walk_child hfresh hname (by rw [hcopy]; simp), if_neg (by rw [hcopy]; simp)]
  have hne : backupName e.1.display :: top ≠ e.2 := by
    intro heq
    exact hfresh.not_below hnode (heq ▸ suffix_cons _ top)
  obtain ⟨t', hrestore, hnode'⟩ := copy_ok hwalk hcopy (h.slot hfresh he) hne
  have hsame : ∀ loc, loc ≠ e.2 → t'.node loc = s.tree.node loc := by
    intro loc hloc
    rw [hnode', update_of_ne hloc]
  have hself : t'.node e.2 = some (.file data mode) := by rw [hnode', update_self]
  refine ⟨t', ?_, h.edit hfresh he hsame (.inr ⟨data, mode, hself⟩), hself.trans hnode.symm, hsame⟩
  unfold restoreEntry entryFor
  rw [get_bind]
  dsimp only
  rw [if_pos (pathExists_iff.mpr ⟨_, _, hwalk, hcopy⟩), (h.files e he).clean.ofString_display,
    bind_of_ok (createParent_ok hfresh he h)]
  exact onFiles_ok hrestore

theorem restoreAll_ok {rest : List (Path × Loc)} (hrest : ∀ e ∈ rest, e ∈ done) {s : Machine ε}
    (h : Backups host dir top t₁ done s.tree) :
    ∃ t', (rest.map fun e => entryFor dir e.1).forM restoreEntry s =
        .ok () { s with tree := t' } ∧
      Backups host dir top t₁ done t' ∧ (∀ e ∈ rest, t'.node e.2 = t₁.node e.2) ∧
      ∀ loc, (∀ e ∈ rest, e.2 ≠ loc) → t'.node loc = s.tree.node loc := by
  induction rest generalizing s with
  | nil => exact ⟨s.tree, rfl, h, by simp, fun _ _ => rfl⟩
  | cons e rest ih =>
    obtain ⟨t2, hstep, h2, hrestored, hsame⟩ := restoreEntry_ok hfresh h (hrest e (by simp))
    obtain ⟨t', hrun, h', hall, hkeep⟩ :=
      ih (s := { s with tree := t2 }) (fun e' he' => hrest e' (mem_cons_of_mem e he')) h2
    refine ⟨t', ?_, h', ?_, ?_⟩
    · exact (bind_of_ok hstep).trans hrun
    · intro e' he'
      rcases mem_cons.mp he' with rfl | he'
      · by_cases hagain : ∃ e'' ∈ rest, e''.2 = e'.2
        · obtain ⟨e'', he'', heq⟩ := hagain
          rw [← heq]
          exact hall e'' he''
        · rw [hkeep e'.2 fun e'' he'' heq => hagain ⟨e'', he'', heq⟩]
          exact hrestored
      · exact hall e' he'
    · intro loc hloc
      rw [hkeep loc fun e' he' => hloc e' (mem_cons_of_mem e he')]
      exact hsame loc fun heq => hloc e (by simp) heq.symm

theorem rollback_ok (hcodec : ∀ m, host.decodeManifest (host.encodeManifest m) = .ok m)
    {self : LivePlanExecutor} {planId : String}
    (hdir : dir = self.rollbackRoot.join (Path.ofString planId)) {s : Machine ε}
    (h : Backups host dir top t₁ done s.tree) :
    ∃ t', self.rollback host planId s =
        .ok ("Rollback complete for plan " ++ planId) { s with tree := t' } ∧
      ∀ loc, ¬top <:+ loc → t'.node loc = t₁.node loc := by
  have hwalk : s.tree.walk true dir = .found top :=
    (h.keeps hfresh).walk_found hfresh.walk (by rw [h.isDir]; simp)
  have hread : readManifest host (dir.join ["manifest.json"]) s =
      .ok ⟨done.map fun e => entryFor dir e.1⟩ s :=
    readManifest_ok hcodec hwalk h.isDir h.manifest
  obtain ⟨t', hrun, h', hall, -⟩ := restoreAll_ok hfresh (fun _ he => he) h
  refine ⟨t', ?_, fun loc htop => ?_⟩
  · unfold rollback
    rw [← hdir, get_bind, if_pos (isDir_iff.mpr ⟨top, hwalk, h.isDir⟩), bind_of_ok hread]
    rw [bind_of_ok hrun]
    rfl
  · by_cases hdone : ∃ e ∈ done, e.2 = loc
    · obtain ⟨e, he, rfl⟩ := hdone
      exact hall e he
    · exact h'.outside loc htop fun e he heq => hdone ⟨e, he, heq⟩

end Restoring

theorem rollbackFailed_ok {self : LivePlanExecutor} {host : Host ε} {plan : FixPlan}
    {p : Progress} (hauto : self.autoRollback = true) (hfailed : 0 < p.failed) {message : String}
    {s s' : Machine ε} (h : self.rollback host (planIdFor plan) s = .ok message s') :
    self.rollbackFailed host plan p s = .ok true s' := by
  unfold rollbackFailed
  rw [if_pos ⟨hfailed, hauto⟩]
  apply tryCatch_of_ok
  rw [bind_of_ok h]
  rfl

/-- A run of a plan of restorable operations in which one fails is rolled back: the run returns, and
outside the rollback directory every object is as it was before the run, but for the directories
that were made to hold the rollback directory. -/
theorem failed_run_restores {host : Host ε}
    (hcodec : ∀ m, host.decodeManifest (host.encodeManifest m) = .ok m)
    {self : LivePlanExecutor} (hdry : self.dryRun = false) (hauto : self.autoRollback = true)
    (order : HashOrder String Nat) {plan : FixPlan} (hquiet : QuietHost host plan)
    {s : Machine ε} {t₁ : Tree}
    (hcreate : createDirAll (self.rollbackDir plan) s.tree = .ok () t₁) {top : Loc}
    (hfresh : FreshDir t₁ (self.rollbackDir plan) top) (hplan : RestorablePlan self plan t₁ top)
    (hfailed : 0 < (self.applyAll host (self.rollbackDir plan) (topologicalSort order plan) {}
      { s with tree := t₁ }).1.failed) :
    ∃ r s', self.apply host order plan s = .ok r s' ∧ r.success = false ∧
      ∀ loc, ¬top <:+ loc → s'.tree.node loc = s.tree.node loc ∨
        s.tree.node loc = none ∧ t₁.node loc = some .dir ∧ s'.tree.node loc = some .dir := by
  have hsorts := topologicalSort_sorts order plan
  have hstart : Backups host (self.rollbackDir plan) top t₁ [] t₁ := hfresh.backups
  obtain ⟨done, h⟩ := applyAll_backups hcodec hfresh hquiet hplan
    (fun op hop => (hsorts.held op hop).1) hsorts.distinct {} (s := { s with tree := t₁ })
      hstart (by simp)
  generalize hrun : self.applyAll host (self.rollbackDir plan) (topologicalSort order plan) {}
    { s with tree := t₁ } = run at hfailed h
  obtain ⟨p, s₂⟩ := run
  have hdir : self.rollbackDir plan = self.rollbackRoot.join (Path.ofString (planIdFor plan)) := rfl
  obtain ⟨t', hrollback, hrestored⟩ := rollback_ok hfresh hcodec hdir h
  have hfinish : self.finish host plan p s₂ =
      .ok (liveResult host (self.rollbackDir plan) p true) { s₂ with tree := t' } := by
    unfold finish
    rw [bind_of_ok (rollbackFailed_ok hauto hfailed hrollback), if_neg hfailed.ne']
    rfl
  refine ⟨liveResult host (self.rollbackDir plan) p true, { s₂ with tree := t' }, ?_, ?_, ?_⟩
  · unfold apply
    rw [if_neg (by simp [hdry]), bind_of_ok (tryCatch_of_ok (onFiles_ok hcreate)),
      bind_of_ok (modifyGet_eq _ _), hrun]
    exact hfinish
  · simpa [liveResult] using hfailed.ne'
  · intro loc htop
    dsimp only
    rw [hrestored loc htop]
    have hadds := createDirs_adds (self.rollbackDir plan).ancestors s.tree loc
    rw [show createDirs (self.rollbackDir plan).ancestors s.tree = .ok () t₁ from hcreate] at hadds
    rcases hadds with heq | ⟨-, hnone, hdir⟩
    · exact .inl heq
    · exact .inr ⟨hnone, hdir, hdir⟩

end LivePlanExecutor

def unsavedCopyPlan : FixPlan where
  vm := "vm"
  generated := 0
  operations :=
    [ { id := "a"
        opType := .fileCopy { source := "/issue", destination := "/motd", backup := false } },
      { id := "b", opType := .fileDelete { path := "/gone" }, dependsOn := ["a"] } ]

theorem unsavedCopyPlan_not_restored :
    let s : Machine Unit := ⟨(), .ofList
      [(["issue"], .file (.text "new\n") 0o644), (["motd"], .file (.text "old\n") 0o644)]⟩
    Returns (fun r s' => r.operationsFailed = 1 ∧
        s.tree.node ["motd"] = some (.file (.text "old\n") 0o644) ∧
        s'.tree.node ["motd"] = some (.file (.text "new\n") 0o644))
      ((forMigration false).apply (exitHost 0) .newestFirst unsavedCopyPlan s) := by
  decide +kernel

def savedEditPlan : FixPlan where
  vm := "vm"
  generated := 0
  operations :=
    [ { id := "a",
        opType := .fileEdit
          { file := "/motd", changes := [{ line := 1, before := "old", after := "new" }] } },
      { id := "b", opType := .fileDelete { path := "/gone" }, dependsOn := ["a"] } ]

def savedTop : Loc := ["vm-0", "rollback", "guestkit", "lib", "var"]

def savedTree : Tree where
  node loc :=
    if loc <:+ savedTop then some .dir
    else if loc = ["motd"] then some (.file (.text "old\n") 0o644)
    else none
  root := rfl
  parent := by
    intro name dir hnode
    have hdir : dir <:+ savedTop := by
      by_cases hname : name :: dir <:+ savedTop
      · exact (suffix_cons name dir).trans hname
      · rw [if_neg hname] at hnode
        have heq : name :: dir = ["motd"] := by simpa using hnode
        rw [(List.cons.inj heq).2]
        exact nil_suffix
    rw [if_pos hdir]

instance encodableChar : Encodable Char := .ofLeftInverse Char.toNat Char.ofNat Char.ofNat_toNat

instance encodableString : Encodable String :=
  .ofLeftInverse String.toList String.ofList fun _ => String.ofList_toList

instance : Encodable RollbackFileEntry :=
  have : Encodable Path := inferInstanceAs (Encodable (List String))
  .ofLeftInverse (fun e => (e.originalPath, e.backupPath, e.removed))
    (fun e => ⟨e.1, e.2.1, e.2.2⟩) fun _ => rfl

instance : Encodable RollbackManifest := .ofLeftInverse RollbackManifest.files .mk fun _ => rfl

def codingHost : Host Unit where
  run _ s := (.ok ⟨some 0, ""⟩, s)
  sha256 _ := []
  renderJson _ := ""
  encodeManifest m := (Encodable.encode m).repr
  decodeManifest text := ((text.toNat?.bind Encodable.decode).map .ok).getD
    (.error "not a manifest")
  debug s := s
  dirMode _ _ := 0o755

theorem savedEditPlan_restorable :
    (forMigration false).RestorablePlan savedEditPlan savedTree savedTop := by
  have hfile : IsFileAt savedTree ["", "motd"] ["motd"] :=
    ⟨by simp [Path.Clean], by decide +kernel, .text "old\n", 0o644, by decide +kernel⟩
  have hgone : ∀ follow, savedTree.walk follow ["", "gone"] = .missing [] "gone" [] := by
    decide +kernel
  have habsent : ∀ follow, IsAbsent savedTree savedTop follow ["", "gone"] := by
    intro follow
    refine ⟨by simp [hgone], ?_⟩
    intro dir name rest h
    rw [hgone] at h
    cases h
    decide
  have hedit : (forMigration false).resolve "/motd" = ["", "motd"] := by
    decide +kernel
  have hdelete : (forMigration false).resolve "/gone" = ["", "gone"] := by
    decide +kernel
  have hnowhere : ∀ g, ¬IsFileAt savedTree ["", "gone"] g :=
    fun g h => (habsent true).nowhere g h.walk
  refine ⟨?_, ?_, ?_⟩
  · simp only [savedEditPlan, forall_mem_cons, Restorable, hedit, hdelete]
    exact ⟨.inl ⟨_, hfile⟩, .inr ⟨habsent true, habsent false⟩, by simp⟩
  · simp only [savedEditPlan, forall_mem_cons, target, hedit, hdelete]
    refine ⟨?_, ?_, by simp⟩
    · rintro _ _ ⟨⟩ -
      decide
    · rintro _ g ⟨⟩ h
      exact absurd h (hnowhere g)
  · simp only [savedEditPlan, forall_mem_cons, target, hedit, hdelete]
    refine ⟨⟨by simp, ?_, by simp⟩, ⟨?_, by simp, by simp⟩, by simp⟩
    · rintro - _ _ g g' ⟨⟩ ⟨⟩ - h
      exact absurd h (hnowhere g')
    · rintro - _ _ g g' ⟨⟩ ⟨⟩ h
      exact absurd h (hnowhere g)

theorem savedEditPlan_restored :
    ∃ r s', (forMigration false).apply codingHost .newestFirst savedEditPlan
        ⟨(), savedTree⟩ = .ok r s' ∧ r.success = false ∧
      ∀ loc, ¬savedTop <:+ loc → s'.tree.node loc = savedTree.node loc ∨
        savedTree.node loc = none ∧ savedTree.node loc = some .dir ∧
          s'.tree.node loc = some .dir := by
  have hdir : (forMigration false).rollbackDir savedEditPlan =
      ["", "var", "lib", "guestkit", "rollback", "vm-0"] := by
    decide +kernel
  have hwalk : savedTree.walk true ["", "var", "lib", "guestkit", "rollback", "vm-0"] =
      .found savedTop := by
    decide +kernel
  have htop : savedTree.node savedTop = some .dir := by decide
  have hfresh : FreshDir savedTree
      ((forMigration false).rollbackDir savedEditPlan) savedTop := by
    refine ⟨hdir ▸ hwalk, htop, fun loc hbelow hne => ?_⟩
    have hnot : ¬loc <:+ savedTop := fun h =>
      hne (h.eq_of_length_le hbelow.length_le)
    have hmotd : loc ≠ ["motd"] := by
      rintro rfl
      revert hbelow
      decide
    simp [savedTree, hnot, hmotd]
  refine failed_run_restores ?_ rfl rfl .newestFirst ⟨?_, fun _ _ => rfl⟩
    (s := ⟨(), savedTree⟩) ?_ hfresh savedEditPlan_restorable (by decide +kernel)
  · intro m
    simp [codingHost, Nat.toNat?_repr]
  · intro op _ check _ s
    rfl
  · rw [hdir]
    exact createDirAll_exists (.inr (isDir_iff.mpr ⟨savedTop, hwalk, htop⟩))

end Guestkit.Plan
