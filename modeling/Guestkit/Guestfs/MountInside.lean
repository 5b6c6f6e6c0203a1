import Guestkit.Guestfs.MountSpec
import Guestkit.Lib.Fs.Plain

/-! Where the calls that mount make and cover directories of the host.  The mountpoint is appended
to the mount root as it is, so a `..` in it or a link that a guest file system has there leads
out.  A call whose path goes below the mount root by names only, with no link on the
way, stays inside. -/

namespace Guestkit

open Lib Lib.Fs Guestfs List

variable {ε : Type}

def Command.changes : Command → Option Path
  | .mount _ _ target => some target
  | .umount target => some target
  | _ => none

/-- What the programs of the host do to its files: a mount, and the end of one, gives other files to
where the path leads; the other programs change none. -/
structure Tools.InPlace (tools : Tools ε) : Prop where
  replaces : ∀ (c : Command) (m : Machine ε) (target : Path) (loc : Loc),
    c.changes = some target → m.tree.walk true target = .found loc →
    Replaces loc m.tree (tools.run c m).2.tree
  keeps : ∀ (c : Command) (m : Machine ε),
    (∀ target loc, c.changes = some target → m.tree.walk true target ≠ .found loc) →
    (tools.run c m).2.tree = m.tree

def Inside (t : Tree) (root : Option Path) (loc : Loc) : Prop :=
  ∃ r top, root = some r ∧ t.walk true r = .found top ∧ top <:+ loc

def Event.Inside (root : Option Path) : Event ε → Prop
  | .ran (.mount _ _ target) m =>
    ∀ loc, m.tree.walk true target = .found loc → Guestkit.Inside m.tree root loc
  | .ran _ _ => True
  | .made _ t t' => ∀ loc, t'.node loc ≠ t.node loc → Guestkit.Inside t root loc

/-- The mount root stays, and everything that was done since is inside it. -/
structure Inward (s s' : Session ε) : Prop where
  mountRoot : ∀ root, s.guest.mountRoot = some root → s'.guest.mountRoot = some root
  log : ∃ new, s'.log = new ++ s.log ∧ ∀ e ∈ new, e.Inside s'.guest.mountRoot

theorem Event.Inside.mono {e : Event ε} {root root' : Option Path} (h : e.Inside root)
    (hroot : ∀ r, root = some r → root' = some r) : e.Inside root' := by
  have hinside : ∀ {t : Tree} {loc : Loc}, Guestkit.Inside t root loc →
      Guestkit.Inside t root' loc :=
    fun ⟨r, top, hr, hwalk, htop⟩ => ⟨r, top, hroot r hr, hwalk, htop⟩
  cases e with
  | made target t t' => exact fun loc hloc => hinside (h loc hloc)
  | ran c t =>
    cases c with
    | mount args device target => exact fun loc hloc => hinside (h loc hloc)
    | _ => trivial

namespace Inward

theorem refl (s : Session ε) : Inward s s :=
  ⟨fun _ h => h, [], rfl, fun _ h => absurd h not_mem_nil⟩

theorem trans (s s' s'' : Session ε) (h : Inward s s') (h' : Inward s' s'') : Inward s s'' := by
  obtain ⟨new, hlog, hnew⟩ := h.log
  obtain ⟨new', hlog', hnew'⟩ := h'.log
  refine ⟨fun root hroot => h'.mountRoot root (h.mountRoot root hroot), new' ++ new, ?_,
    fun e he => ?_⟩
  · rw [hlog', hlog, append_assoc]
  · exact (mem_append.mp he).elim (hnew' e) fun hmem => (hnew e hmem).mono h'.mountRoot

theorem same {s s' : Session ε} (hroot : s'.guest.mountRoot = s.guest.mountRoot)
    (hlog : s'.log = s.log) : Inward s s' :=
  ⟨fun _ h => hroot.trans h, [], hlog, fun _ h => absurd h not_mem_nil⟩

end Inward

/-! ### Programs at a plain path -/

/-- From a state in which `target` is plain, everything is done inside and `target` stays so. -/
def Within (root : Path) (top : Loc) (target : Path) (names : List String) (s s' : Session ε) :
    Prop :=
  s.guest.mountRoot = some root → Plain s.machine.tree root top target names →
    Inward s s' ∧ Plain s'.machine.tree root top target names

section Within

variable {tools : Tools ε} {root target : Path} {top : Loc} {names : List String}

theorem Within.refl (s : Session ε) : Within root top target names s s :=
  fun _ h => ⟨Inward.refl s, h⟩

instance : IsTrans (Session ε) (Within root top target names) := by
  refine ⟨fun s s' s'' h h' hroot hplain => ?_⟩
  obtain ⟨hinward, hplain'⟩ := h hroot hplain
  obtain ⟨hinward', hplain''⟩ := h' (hinward.mountRoot root hroot) hplain'
  exact ⟨hinward.trans s s' s'' hinward', hplain''⟩

namespace Guestfs

variable {p : Prepared}

theorem runCommand_within (htools : tools.InPlace) {c : Command}
    (hc : ∀ path, c.changes = some path → path = target) :
    Always (Within root top target names) (runCommand tools c) := by
  intro s hroot hplain
  refine ⟨⟨fun _ h => h, [.ran c s.machine], rfl, fun e he => ?_⟩, ?_⟩
  · rw [mem_singleton.mp he]
    cases c with
    | mount args device path =>
      obtain rfl := hc path rfl
      intro loc hwalk
      refine ⟨root, top, hroot, hplain.walk_root, ?_⟩
      rw [hplain.walk_target hwalk]
      exact suffix_append _ _
    | _ => trivial
  · change Plain (tools.run c s.machine).2.tree root top target names
    by_cases hfound : ∃ path loc, c.changes = some path ∧ s.machine.tree.walk true path = .found loc
    · obtain ⟨path, loc, hchanges, hwalk⟩ := hfound
      obtain rfl := hc path hchanges
      have hreplaces := htools.replaces c s.machine path loc hchanges hwalk
      rw [hplain.walk_target hwalk] at hreplaces
      exact hplain.replaces hreplaces
    · rw [htools.keeps c s.machine fun path loc hchanges hwalk =>
        hfound ⟨path, loc, hchanges, hwalk⟩]
      exact hplain

theorem orThrow_within {α : Type} (r : Except Error α) :
    Always (Within root top target names) (orThrow r : GuestM ε α) := by
  cases r <;> exact Within.refl

section

variable (htools : tools.InPlace)
include htools

theorem within_covers : Covers tools (fun c => ∀ path, c.changes = some path → path = target)
    (Within root top target names) where
  refl := Within.refl
  ran _ s hc := runCommand_within htools hc s
  noted _ _ _ hplain := ⟨Inward.same rfl rfl, hplain⟩

theorem mountPrepared_within (args : List String) (hp : p.target = target) :
    Always (Within root top target names) (mountPrepared tools args p) :=
  (within_covers htools).mountPrepared fun _ hpath => (Option.some.inj hpath).symm.trans hp

/-! ### A second mount of a device -/

theorem execUmountPath_within :
    Always (Within root top target names) (execUmountPath tools target) := by
  refine ((within_covers htools).execute ?_ _).bind fun output => ?_
  · rintro path ⟨⟩
    rfl
  · split <;> exact Within.refl

theorem execMountWithOpts_within (device opts : String) :
    Always (Within root top target names) (execMountWithOpts tools device target opts) := by
  refine ((within_covers htools).execute ?_ _).bind fun output => ?_
  · rintro path ⟨⟩
    rfl
  · split <;> exact Within.refl

theorem remountFresh_within (resolved : String) :
    Always (Within root top target names) (remountFresh tools resolved target) := by
  refine Always.get_bind fun s => ?_
  refine (orThrow_within _).bind fun device => ?_
  refine (execUmountPath_within htools).bind fun _ => ?_
  refine Always.bind (fun s => (within_covers htools).noted s _) fun _ => ?_
  refine (execMountWithOpts_within htools _ _).bind fun _ => ?_
  exact (within_covers htools).recordMount _ _

theorem execRemountRw_within :
    Always (Within root top target names) (execRemountRw tools target) := by
  refine (runCommand_within htools ?_).bind fun r => ?_
  · rintro path ⟨⟩
  · cases r <;> exact Within.refl

theorem remountAt_within (resolved : String) :
    Always (Within root top target names) (remountAt tools resolved target) := by
  refine (execRemountRw_within htools).bind fun done => ?_
  split
  · exact Within.refl
  · exact remountFresh_within htools resolved

end

end Guestfs

end Within

variable {s s' : Session ε}

def Rooted (s : Session ε) : Prop :=
  ∀ device mountpoint, s.guest.mounted.lookup device = some mountpoint →
    ∃ root top names, s.guest.mountRoot = some root ∧
      Plain s.machine.tree root top (Path.ofString mountpoint) names

/-- A mountpoint, and those that are recorded, go below the mount root by names only, with no link
on the way. -/
structure GoesBelow (tools : Tools ε) (s : Session ε) (mountpoint : String) : Prop where
  target : ∀ root t, mountRootAt tools s = some (root, t) →
    ∃ top names, Plain t root top (actualMountpoint root mountpoint) names
  recorded : Rooted s

theorem Inward.made {tools : Tools ε} {root : Path}
    (hat : mountRootAt tools s = some (root, s'.machine.tree))
    (hroot : s'.guest.mountRoot = some root) (hlog : s'.log = s.log) : Inward s s' := by
  refine ⟨fun r hr => ?_, [], hlog, fun _ h => absurd h not_mem_nil⟩
  rw [mountRootAt, hr] at hat
  rw [hroot, (Prod.mk.inj (Option.some.inj hat)).1]

theorem Rooted.root {tools : Tools ε} (h : Rooted s) {root : Path}
    (hat : mountRootAt tools s = some (root, s'.machine.tree))
    (hguest : s'.guest = { s.guest with mountRoot := some root }) : Rooted s' := by
  intro device mountpoint hlookup
  rw [hguest] at hlookup
  obtain ⟨root', top, names, hroot, hplain⟩ := h device mountpoint hlookup
  rw [mountRootAt, hroot] at hat
  obtain ⟨rfl, htree⟩ := Prod.mk.inj (Option.some.inj hat)
  exact ⟨root', top, names, by rw [hguest], htree ▸ hplain⟩

theorem Rooted.grows (h : Rooted s) {root target : Path} {top : Loc} {names : List String}
    (hroot : s.guest.mountRoot = some root) (hplain : Plain s.machine.tree root top target names)
    (hguest : s'.guest = s.guest) (hgrows : GrowsBelow top s.machine.tree s'.machine.tree) :
    Rooted s' := by
  intro device mountpoint hlookup
  rw [hguest] at hlookup ⊢
  obtain ⟨root', top', names', hroot', hplain'⟩ := h device mountpoint hlookup
  obtain rfl : root = root' := Option.some.inj (hroot.symm.trans hroot')
  obtain rfl : top = top' := Stop.found.inj (hplain.walk_root.symm.trans hplain'.walk_root)
  exact ⟨root, top, names', hroot, hplain'.grows hgrows⟩

namespace Guestfs

variable {tools : Tools ε} {s : Session ε}

theorem remountRw_inward (htools : tools.InPlace) (mountable : String) (h : Rooted s) :
    Inward s (stateOf (remountRw tools mountable s)) := by
  unfold remountRw
  rw [get_bind]
  cases resolveMountable tools s.guest s.machine mountable with
  | error e => exact Inward.refl s
  | ok resolved =>
    rw [orThrow_ok_bind]
    cases hlookup : s.guest.mounted.lookup resolved with
    | none => exact Inward.refl s
    | some mountpoint =>
      obtain ⟨root, top, names, hroot, hplain⟩ := h resolved mountpoint hlookup
      exact (remountAt_within htools resolved s hroot hplain).1

theorem createMountpoint_grows {root target : Path} {top : Loc} {names : List String}
    (hroot : s.guest.mountRoot = some root)
    (hplain : Plain s.machine.tree root top target names) :
    Inward s (stateOf (createMountpoint target s)) ∧
      (stateOf (createMountpoint target s)).guest = s.guest ∧
      GrowsBelow top s.machine.tree (stateOf (createMountpoint target s)).machine.tree := by
  have hgrows := hplain.createDirAll_grows
  have hmade : ∀ t, GrowsBelow top s.machine.tree t →
      (Event.made target s.machine.tree t : Event ε).Inside s.guest.mountRoot := by
    intro t hgrows loc hloc
    rcases hgrows loc with heq | ⟨htop, -⟩
    · exact absurd heq hloc
    · exact ⟨root, top, hroot, hplain.walk_root, htop⟩
  unfold createMountpoint
  cases hcreate : createDirAll target s.machine.tree with
  | ok u t | error e t =>
    rw [hcreate] at hgrows
    refine ⟨⟨fun _ h => h, [.made target s.machine.tree t], rfl, fun e he => ?_⟩, rfl, hgrows⟩
    rw [mem_singleton.mp he]
    exact hmade t hgrows

theorem withPrepared_inward {mountable mountpoint : String}
    {ifMounted : GuestM ε Unit} {next : Prepared → GuestM ε Unit}
    (hs : GoesBelow tools s mountpoint)
    (hnext : ∀ root top target names p, p.target = target →
      Always (Within root top target names) (next p))
    (hmounted : ∀ s1, Rooted s1 → Inward s1 (stateOf (ifMounted s1))) :
    Inward s (stateOf (withPrepared tools mountable mountpoint ifMounted next s)) := by
  have hfail : ∀ {e s1}, prepareMount tools mountable mountpoint s = .error e s1 →
      Inward s s1 → Rooted s1 →
      Inward s (stateOf (withPrepared tools mountable mountpoint ifMounted next s)) := by
    intro e s1 hprepare hinward hrecorded
    rw [withPrepared_error hprepare]
    refine Inward.trans s s1 _ hinward ?_
    split
    · exact hmounted s1 hrecorded
    · exact Inward.refl s1
  rcases prepareMount_cases tools mountable mountpoint s with
    ⟨e, hprepare⟩ | ⟨s1, hprepare, hlog, hguest, hnone⟩ |
    ⟨root, s1, resolved, device, hat, hguest, hlog, -, -, hprepare⟩
  · exact hfail hprepare (Inward.refl s) hs.recorded
  · refine hfail hprepare (Inward.same (by rw [hguest]) hlog) fun dev path hlookup => ?_
    rw [hguest] at hlookup
    obtain ⟨root, top, names, hroot, -⟩ := hs.recorded dev path hlookup
    rw [hnone] at hroot
    cases hroot
  · obtain ⟨top, names, hplain⟩ := hs.target root _ hat
    have hroot : s1.guest.mountRoot = some root := by rw [hguest]
    have hinward : Inward s s1 := Inward.made hat hroot hlog
    obtain ⟨hmade, hguest', hgrows⟩ := createMountpoint_grows hroot hplain
    cases hcreate : createMountpoint (actualMountpoint root mountpoint) s1 with
    | error e s2 =>
      rw [hcreate] at hmade hguest' hgrows
      exact hfail (hprepare.trans (bind_of_error hcreate)) (hinward.trans s s1 s2 hmade)
        ((hs.recorded.root hat hguest).grows hroot hplain hguest' hgrows)
    | ok u s2 =>
      rw [hcreate] at hmade hguest' hgrows
      rw [withPrepared_ok (hprepare.trans (bind_of_ok hcreate))]
      refine Inward.trans s s2 _ (hinward.trans s s1 s2 hmade) ?_
      exact (hnext root top _ names ⟨resolved, device, _⟩ rfl s2 (hguest' ▸ hroot)
        (hplain.grows hgrows)).1

theorem orThrow_state {α : Type} (r : Except Error α) (s : Session ε) :
    stateOf (orThrow r s) = s := by
  cases r <;> rfl

theorem ifMounted_inward (htools : tools.InPlace) (options mountable : String) (h : Rooted s) :
    Inward s (stateOf (ifMounted tools options mountable s)) := by
  unfold ifMounted
  split
  · exact Inward.refl s
  · exact remountRw_inward htools mountable h

end Guestfs

namespace GoesBelow

variable {tools : Tools ε} {s : Session ε} {mountpoint : String}

theorem after (h : GoesBelow tools s mountpoint) {check next : GuestM ε Unit}
    (hcheck : stateOf (check s) = s)
    (hnext : GoesBelow tools s mountpoint → Inward s (stateOf (next s))) :
    Inward s (stateOf ((do check; next : GuestM ε Unit) s)) := by
  cases hrun : check s with
  | error e s1 =>
    rw [hrun] at hcheck
    rw [bind_of_error hrun, ← hcheck]
    exact Inward.refl s1
  | ok u s1 =>
    rw [hrun] at hcheck
    obtain rfl : s1 = s := hcheck
    rw [bind_of_ok hrun]
    exact hnext h

end GoesBelow

namespace MountCall

variable {tools : Tools ε}

theorem run_inward (htools : tools.InPlace) (call : MountCall) {s : Session ε}
    (h : GoesBelow tools s call.mountpoint) : Inward s (stateOf (call.run tools s)) := by
  cases call with
  | mountRo mountable mountpoint =>
    exact withPrepared_inward h
      (fun _ _ _ _ _ hp => (within_covers htools).mountRoPrepared fun _ _ _ path hpath =>
        (Option.some.inj hpath).symm.trans hp) fun s1 _ => Inward.refl s1
  | mount mountable mountpoint =>
    refine h.after (checkWritable_state false s) fun h' => ?_
    exact withPrepared_inward h'
      (fun _ _ _ _ _ hp => mountPrepared_within htools [] hp)
      fun s1 => remountRw_inward htools mountable
  | mountOptions options mountable mountpoint =>
    change Inward s (stateOf (Guestfs.mountOptions tools options mountable mountpoint s))
    unfold Guestfs.mountOptions
    cases dangerousOption options with
    | some opt => exact Inward.refl s
    | none =>
      refine h.after (checkWritable_state _ s) fun h' => ?_
      exact withPrepared_inward h'
        (fun _ _ _ _ _ hp => mountPrepared_within htools _ hp)
        fun s1 => ifMounted_inward htools options mountable
  | mountVfs options vfstype mountable mountpoint =>
    change Inward s (stateOf (Guestfs.mountVfs tools options vfstype mountable mountpoint s))
    unfold Guestfs.mountVfs
    rw [get_bind]
    refine h.after (orThrow_state _ s) fun h' => ?_
    split
    · exact Inward.refl s
    · refine h'.after (checkWritable_state _ s) fun h' => ?_
      exact withPrepared_inward h'
        (fun _ _ _ _ _ hp => mountPrepared_within htools _ hp)
        fun s1 => ifMounted_inward htools options mountable

def runAll (tools : Tools ε) : List MountCall → Session ε → Session ε
  | [], s => s
  | call :: calls, s => runAll tools calls (stateOf (call.run tools s))

def AllBelow (tools : Tools ε) : List MountCall → Session ε → Prop
  | [], _ => True
  | call :: calls, s =>
    GoesBelow tools s call.mountpoint ∧ AllBelow tools calls (stateOf (call.run tools s))

theorem runAll_inward (htools : tools.InPlace) (calls : List MountCall) (s : Session ε)
    (h : AllBelow tools calls s) : Inward s (runAll tools calls s) := by
  induction calls generalizing s with
  | nil => exact Inward.refl s
  | cons call calls ih =>
    exact Inward.trans s _ _ (call.run_inward htools h.1) (ih _ h.2)

def idleTools : Tools Unit where
  needSudo := false
  pid := 7
  fetchAdd u := (0, u)
  exec _ m := (.ok { success := true }, m)
  query _ _ := .ok { success := true }
  vfsType _ _ _ := .ok "ext4"
  maybeExtractOva path m := (.ok path, m)
  shouldUseLoopDevice _ _ := false
  connectLoop _ m := (.error (.notFound "loop"), m)
  connectNbd _ m := (.error (.notFound "nbd"), m)
  readPartitions _ _ := .ok [1, 2]

theorem idleTools_inPlace : idleTools.InPlace where
  replaces c m target loc hc hwalk := by
    obtain ⟨o, hnode, hlink⟩ := node_of_walk hwalk
    exact ⟨fun _ _ => rfl, id, fun link h => hlink link (Option.some.inj (hnode.symm.trans h))⟩
  keeps _ _ _ := rfl

def hostTree : Tree :=
  Tree.ofList [(["etc"], .dir), (["run"], .dir), (["guestkit-7-0", "run"], .dir)]

def launched : Session Unit where
  guest :=
    { state := .ready
      drives := [⟨"disk.img", true, none⟩]
      nbdDevice := some ⟨"/dev/nbd0", some "disk.img"⟩
      mountRoot := some ["", "run", "guestkit-7-0"] }
  machine := ⟨(), hostTree⟩

/-- A mountpoint with `..` in it covers a directory of the host. -/
theorem launched_covers_etc :
    ∃ e ∈ (runAll idleTools [.mountRo "/dev/sda1" "/../../etc"] launched).log,
      ¬e.Inside (runAll idleTools [.mountRo "/dev/sda1" "/../../etc"]
        launched).guest.mountRoot := by
  have hcovers : (runAll idleTools [.mountRo "/dev/sda1" "/../../etc"] launched).log.any (fun e =>
      match e with
      | .ran (.mount _ _ target) m =>
        m.tree.walk true target = .found ["etc"] &&
          m.tree.walk true ["", "run", "guestkit-7-0"] = .found ["guestkit-7-0", "run"]
      | _ => false) = true := by decide +kernel
  have hroot : (runAll idleTools [.mountRo "/dev/sda1" "/../../etc"] launched).guest.mountRoot =
      some ["", "run", "guestkit-7-0"] := by decide +kernel
  obtain ⟨e, he, htest⟩ := any_eq_true.mp hcovers
  refine ⟨e, he, fun hinside => ?_⟩
  rw [hroot] at hinside
  match e, htest with
  | .ran (.mount _ _ target) m, htest =>
    simp only [Bool.and_eq_true, decide_eq_true_eq] at htest
    obtain ⟨r, top, hr, hwalk, htop⟩ := hinside _ htest.1
    cases hr
    rw [htest.2] at hwalk
    cases hwalk
    exact absurd htop (by decide)

theorem goesBelow_of_entries {tools : Tools ε} {s : Session ε} (root : Path) (top : Loc)
    (names : List String) {mountpoint : String} (hroot : s.guest.mountRoot = some root)
    (htarget : Plain s.machine.tree root top (actualMountpoint root mountpoint) names)
    (hrecorded : ∀ e ∈ s.guest.mounted.entries, Plain s.machine.tree root top (Path.ofString e.2)
      ((Path.ofString e.2).components.drop root.components.length)) :
    GoesBelow tools s mountpoint where
  target root' t hat := by
    rw [mountRootAt, hroot] at hat
    obtain ⟨rfl, rfl⟩ := Prod.mk.inj (Option.some.inj hat)
    exact ⟨top, names, htarget⟩
  recorded device path hlookup :=
    ⟨root, top, _, hroot, hrecorded ⟨device, path⟩ (AList.mem_lookup_iff.mp hlookup)⟩

/-- The mount of a root file system, and of another below it. -/
theorem launched_mounts_inside :
    Inward launched
      (runAll idleTools [.mountRo "/dev/sda1" "/", .mountRo "/dev/sda2" "/boot"] launched) := by
  refine runAll_inward idleTools_inPlace _ launched ⟨?_, ?_, trivial⟩
  · apply goesBelow_of_entries ["", "run", "guestkit-7-0"] ["guestkit-7-0", "run"] []
    · rfl
    · decide +kernel
    · decide +kernel
  · apply goesBelow_of_entries ["", "run", "guestkit-7-0"] ["guestkit-7-0", "run"] ["boot"]
    · decide +kernel
    · decide +kernel
    · decide +kernel

end MountCall

end Guestkit
