import Guestkit.Guestfs.MountSpec

/-! Unmounting by a device or a path of the host, and what the mount calls do to the mounts of the
kernel. -/

namespace Guestkit

open Lib Lib.Fs Lib.Text Guestfs List

namespace Guestfs

variable {ε : Type}

def toUnmount (order : HashOrder String String) (self : Guestfs) (pathordevice : String) :
    List (String × String) :=
  (order.iter self.mounted).filter fun e => e.1 = pathordevice || e.2 = pathordevice

def umountEntries (tools : Tools ε) : List (String × String) → GuestM ε Unit
  | [] => pure ()
  | (dev, mountpoint) :: rest => do
    let output ← execute tools (.umount (Path.ofString mountpoint)) "Failed to execute umount: "
    if output.success then
      modify fun s => { s with guest := { s.guest with mounted := s.guest.mounted.erase dev } }
      umountEntries tools rest
    else throw (.commandFailed ("umount failed: " ++ output.stderr))

def umount (tools : Tools ε) (order : HashOrder String String) (pathordevice : String) :
    GuestM ε Unit := do
  let s ← get
  orThrow s.guest.ensureReady
  match toUnmount order s.guest pathordevice with
  | [] => throw (.notFound ("No filesystem mounted at " ++ pathordevice))
  | found => umountEntries tools found

end Guestfs

/-- What the kernel has mounted: the block device behind a path of the host, the block devices of
all mounts, and the one mounted last at a path.  `adds` tells the arguments with which `mount` makes
a mount of the device that it is given, unlike with `remount` or `bind` among the options. -/
structure Kernel (ε β : Type) where
  block : String → β
  mounts : Machine ε → Multiset β
  top : Machine ε → Path → Option β
  adds : List String → Prop

namespace Kernel

variable {ε β : Type}

def ownOptions : List String :=
  ["ro", "ro,noload", "ro,norecovery", "ro,norecovery,nouuid", "rw", "rw,nouuid"]

def Succeeded (tools : Tools ε) (c : Command) (m : Machine ε) : Prop :=
  ∃ output, (tools.run c m).1 = .ok output ∧ output.success = true

/-- `mount` and `umount` work on the mount that is last at a path, and nothing else that a handle
does mounts or unmounts. -/
structure Sound (kernel : Kernel ε β) (tools : Tools ε) : Prop where
  adds_nil : kernel.adds []
  adds_own : ∀ opts ∈ ownOptions, kernel.adds ["-o", opts]
  mount : ∀ {args device target m}, kernel.adds args →
    Succeeded tools (.mount args device target) m →
      kernel.mounts (tools.run (.mount args device target) m).2 =
        kernel.block device ::ₘ kernel.mounts m ∧
      kernel.top (tools.run (.mount args device target) m).2 target = some (kernel.block device)
  mount_failed : ∀ {args device target m}, ¬Succeeded tools (.mount args device target) m →
    kernel.mounts (tools.run (.mount args device target) m).2 = kernel.mounts m
  umount : ∀ {target m}, Succeeded tools (.umount target) m → ∃ b, kernel.top m target = some b ∧
    kernel.mounts m = b ::ₘ kernel.mounts (tools.run (.umount target) m).2
  remount : ∀ {target m}, kernel.mounts (tools.run (.remount target) m).2 = kernel.mounts m ∧
    kernel.top (tools.run (.remount target) m).2 target = kernel.top m target
  files : ∀ {m t}, kernel.mounts { m with tree := t } = kernel.mounts m
  counter : ∀ {m}, kernel.mounts { m with outer := (tools.fetchAdd m.outer).2 } = kernel.mounts m
  findmnt : ∀ {target m b output args target' m'}, kernel.top m target = some b →
    tools.ask (.findmnt target) m = .ok output → output.success = true →
    Succeeded tools (.mount args (trim output.stdout) target') m' →
      kernel.block (trim output.stdout) = b

/-- The block device that the handle would mount for a name. -/
def blockOf (kernel : Kernel ε β) (g : Guestfs) (name : String) : Option β :=
  match g.devicePartition name with
  | .ok device => some (kernel.block device)
  | .error _ => none

end Kernel

namespace Guestfs

variable {ε β : Type} {tools : Tools ε} {kernel : Kernel ε β} {s s' s₁ : Session ε}
variable {p : Prepared} {root : Path} {target : Path} {u : Unit} {mountable mountpoint : String}

theorem execute_ok {c : Command} {failure : String} {output : ProcessOutput}
    (h : execute tools c failure s = .ok output s') :
    (tools.run c s.machine).1 = .ok output ∧ s' = ran tools c s := by
  rw [execute, runCommand_bind] at h
  cases hout : (tools.run c s.machine).1 with
  | ok output =>
    rw [hout] at h
    cases h
    exact ⟨rfl, rfl⟩
  | error e =>
    rw [hout] at h
    cases h

theorem execute_checked {c : Command} {failure : String} {e : ProcessOutput → Error} {α : Type}
    {value : α} {next : GuestM ε α}
    (h : (execute tools c failure >>= fun output =>
      if output.success then next else throw (e output)) s = .ok value s') :
    Kernel.Succeeded tools c s.machine ∧ next (ran tools c s) = .ok value s' := by
  obtain ⟨output, s₁, hexec, h⟩ := bind_eq_ok h
  obtain ⟨hrun, rfl⟩ := execute_ok hexec
  split_ifs at h with hsuccess
  · exact ⟨⟨output, hrun, hsuccess⟩, h⟩
  · cases h

structure Recorded (kernel : Kernel ε β) (p : Prepared) (s s' : Session ε) : Prop where
  guest : s'.guest = { s.guest with mounted := s.guest.mounted.insert p.mountable p.target.display }
  mounts : kernel.mounts s'.machine = kernel.block p.device ::ₘ kernel.mounts s.machine
  top : kernel.top s'.machine p.target = some (kernel.block p.device)

theorem mountPrepared_ok (hsound : kernel.Sound tools) {args : List String}
    (hadds : kernel.adds args) (h : mountPrepared tools args p s = .ok () s') :
    Recorded kernel p s s' := by
  obtain ⟨hrun, h⟩ := execute_checked h
  cases h
  obtain ⟨hmounts, htop⟩ := hsound.mount hadds hrun
  exact ⟨rfl, hmounts, htop⟩

theorem roOptions_own (fsType : String) : roOptions fsType ∈ Kernel.ownOptions := by
  unfold roOptions
  split
  · decide
  · split <;> decide

theorem roFallbacks_own (fsType : String) : ∀ opts ∈ roFallbacks fsType,
    opts ∈ Kernel.ownOptions := by
  unfold roFallbacks
  split
  · decide
  · split <;> decide

theorem tryOptions_ok (hsound : kernel.Sound tools) {options : List String}
    (hown : ∀ opts ∈ options, opts ∈ Kernel.ownOptions)
    (h : tryOptions tools p options s = .ok true s') :
    s'.guest = s.guest ∧
      kernel.mounts s'.machine = kernel.block p.device ::ₘ kernel.mounts s.machine ∧
      kernel.top s'.machine p.target = some (kernel.block p.device) := by
  induction options generalizing s with
  | nil => cases h
  | cons opts rest ih =>
    have hrest := fun opts hmem => hown opts (mem_cons_of_mem _ hmem)
    rw [tryOptions, runCommand_bind] at h
    by_cases hsuccess : Kernel.Succeeded tools (.mount ["-o", opts] p.device p.target) s.machine
    · obtain ⟨output, hout, htrue⟩ := hsuccess
      rw [hout] at h
      dsimp only at h
      rw [if_pos htrue] at h
      cases h
      exact ⟨rfl, hsound.mount (hsound.adds_own opts (hown opts mem_cons_self))
        ⟨output, hout, htrue⟩⟩
    · have hnext : tryOptions tools p rest
          (ran tools (.mount ["-o", opts] p.device p.target) s) = .ok true s' := by
        cases hout : (tools.run (.mount ["-o", opts] p.device p.target) s.machine).1 with
        | error e =>
          rw [hout] at h
          exact h
        | ok output =>
          rw [hout] at h
          dsimp only at h
          rwa [if_neg fun htrue => hsuccess ⟨output, hout, htrue⟩] at h
      obtain ⟨hguest, hmounts, htop⟩ := ih hrest hnext
      exact ⟨hguest, hmounts.trans (by rw [ran, hsound.mount_failed hsuccess]), htop⟩

theorem mountRoPrepared_ok (hsound : kernel.Sound tools)
    (h : mountRoPrepared tools p s = .ok () s') : Recorded kernel p s s' := by
  rw [mountRoPrepared, get_bind] at h
  obtain ⟨output, s₁, hexec, h⟩ := bind_eq_ok h
  obtain ⟨hrun, rfl⟩ := execute_ok hexec
  by_cases hsuccess : output.success = true
  · rw [if_pos hsuccess] at h
    cases h
    obtain ⟨hmounts, htop⟩ :=
      hsound.mount (hsound.adds_own _ (roOptions_own _)) ⟨output, hrun, hsuccess⟩
    exact ⟨rfl, hmounts, htop⟩
  · rw [if_neg hsuccess] at h
    obtain ⟨mounted, s2, htry, h⟩ := bind_eq_ok h
    cases mounted with
    | false => cases h
    | true =>
      obtain ⟨hguest, hmounts, htop⟩ := tryOptions_ok hsound (roFallbacks_own _) htry
      rw [if_pos rfl] at h
      cases h
      have hfailed : ¬Kernel.Succeeded tools _ s.machine := fun ⟨output', hrun', htrue⟩ =>
        hsuccess (Except.ok.inj (hrun.symm.trans hrun') ▸ htrue)
      refine ⟨?_, hmounts.trans ?_, htop⟩
      · dsimp only
        rw [hguest]
        rfl
      · rw [ran, hsound.mount_failed hfailed]

def OwnRoot (root : Path) : Prop :=
  ∃ dir name, (dir = "run" ∨ dir = "tmp") ∧ '/' ∉ name.toList ∧ name ≠ "" ∧ root = ["", dir, name]

/-- A preparation that succeeds: the device is not in the table, and nothing is mounted. -/
structure Preparation (tools : Tools ε) (kernel : Kernel ε β) (mountable mountpoint : String)
    (p : Prepared) (s s' : Session ε) : Prop where
  resolved : resolveMountable tools s.guest s.machine mountable = .ok p.mountable
  unmounted : s.guest.mounted.lookup p.mountable = none
  device : s.guest.devicePartition p.mountable = .ok p.device
  root : ∃ root, s'.guest = { s.guest with mountRoot := some root } ∧
    (s.guest.mountRoot = some root ∨ s.guest.mountRoot = none ∧ OwnRoot root) ∧
    p.target = actualMountpoint root mountpoint
  mounts : kernel.mounts s'.machine = kernel.mounts s.machine

theorem createFirst_ok {name : String} {bases : List Path} {t t' : Tree}
    (h : createFirst name bases t = .ok (some root) t') :
    ∃ base ∈ bases, root = base.join [name] := by
  induction bases generalizing t with
  | nil => cases h
  | cons base bases ih =>
    change tryCatch (do createDirAll (base.join [name]); pure (some (base.join [name])) :
      FsM (Option Path)) (fun _ => createFirst name bases) t = _ at h
    cases hmade : createDirAll (base.join [name]) t with
    | ok _ t1 =>
      have hrun : (do createDirAll (base.join [name]); pure (some (base.join [name])) :
        FsM (Option Path)) t = .ok (some (base.join [name])) t1 := bind_of_ok hmade
      rw [tryCatch_of_ok hrun] at h
      cases h
      exact ⟨base, mem_cons_self, rfl⟩
    | error e t1 =>
      have hrun : (do createDirAll (base.join [name]); pure (some (base.join [name])) :
        FsM (Option Path)) t = .error e t1 := bind_of_error hmade
      rw [tryCatch_of_error hrun] at h
      obtain ⟨base', hbase', hroot⟩ := ih h
      exact ⟨base', mem_cons_of_mem base hbase', hroot⟩

theorem ownRoot_of_created {pid n : Nat} {t t' : Tree}
    (h : createMountRootIn pid n t = .ok (some root) t') : OwnRoot root := by
  obtain ⟨base, hbase, rfl⟩ := createFirst_ok h
  have hname : '/' ∉ ("guestkit-" ++ toString pid ++ "-" ++ toString n).toList := by
    simp only [String.toList_append, mem_append, not_or]
    exact ⟨⟨⟨by decide, slash_not_mem_toString pid⟩, by decide⟩,
      slash_not_mem_toString n⟩
  have hne : "guestkit-" ++ toString pid ++ "-" ++ toString n ≠ "" := by
    intro h
    have := congrArg String.toList h
    simp at this
  rcases mem_cons.mp hbase with rfl | hbase
  · exact ⟨"run", _, .inl rfl, hname, hne, rfl⟩
  · rcases mem_singleton.mp hbase with rfl
    exact ⟨"tmp", _, .inr rfl, hname, hne, rfl⟩

theorem ensureMountRoot_ok (hsound : kernel.Sound tools)
    (h : ensureMountRoot tools s = .ok root s') :
    s'.guest = { s.guest with mountRoot := some root } ∧
      (s.guest.mountRoot = some root ∨ s.guest.mountRoot = none ∧ OwnRoot root) ∧
      kernel.mounts s'.machine = kernel.mounts s.machine := by
  rw [ensureMountRoot, get_bind] at h
  cases hroot : s.guest.mountRoot with
  | some root' =>
    rw [hroot] at h
    cases h
    exact ⟨by rw [← hroot], .inl rfl, rfl⟩
  | none =>
    rw [hroot] at h
    obtain ⟨root', s₁, hcreate, h⟩ := bind_eq_ok h
    cases h
    unfold createMountRoot at hcreate
    dsimp only at hcreate
    split at hcreate
    · rename_i t hmade
      cases hcreate
      refine ⟨rfl, .inr ⟨rfl, ownRoot_of_created hmade⟩, ?_⟩
      have hcounted : kernel.mounts { s.machine with outer := (tools.fetchAdd s.machine.outer).2 } =
        kernel.mounts s.machine := hsound.counter
      exact hsound.files.trans hcounted
    · cases hcreate
    · cases hcreate

theorem createMountpoint_ok (hsound : kernel.Sound tools)
    (h : createMountpoint target s = .ok u s') :
    s'.guest = s.guest ∧ kernel.mounts s'.machine = kernel.mounts s.machine := by
  unfold createMountpoint at h
  dsimp only at h
  split at h
  · cases h
    exact ⟨rfl, hsound.files⟩
  · cases h

theorem prepareMount_ok (hsound : kernel.Sound tools)
    (h : prepareMount tools mountable mountpoint s = .ok p s') :
    Preparation tools kernel mountable mountpoint p s s' := by
  rw [prepareMount, get_bind] at h
  obtain ⟨_, -, hafterReady⟩ := orThrow_bind_eq_ok h
  obtain ⟨resolved, hresolved, hafterResolve⟩ := orThrow_bind_eq_ok hafterReady
  by_cases hmounted : (s.guest.mounted.lookup resolved).isSome
  · rw [if_pos hmounted] at hafterResolve
    cases hafterResolve
  · rw [if_neg hmounted] at hafterResolve
    obtain ⟨device, hpartition, hafterDevice⟩ := orThrow_bind_eq_ok hafterResolve
    obtain ⟨root, s4, hroot, hafterRoot⟩ := bind_eq_ok hafterDevice
    obtain ⟨hguest, hown, hmounts⟩ := ensureMountRoot_ok hsound hroot
    obtain ⟨_, s5, hmade, hdone⟩ := bind_eq_ok hafterRoot
    obtain ⟨hsame, hsameMounts⟩ := createMountpoint_ok hsound hmade
    cases hdone
    exact ⟨hresolved, by simpa using hmounted, hpartition,
      ⟨root, hsame.trans hguest, hown, rfl⟩, hsameMounts.trans hmounts⟩

theorem not_mounted_of_mountpoint (e : Errno) :
    contains (Error.commandFailed ("Failed to create mountpoint: " ++ e.message)).message
      "already_mounted" = false := by
  cases e <;> decide +kernel

theorem prepareMount_already {e : Error}
    (h : prepareMount tools mountable mountpoint s = .error e s')
    (halready : contains e.message "already_mounted" = true) :
    s' = s ∧ ∀ k, resolveMountable tools s.guest s.machine mountable = .ok k →
      (s.guest.mounted.lookup k).isSome ∨
        s.guest.mounted.lookup k = none ∧ ∃ e, s.guest.devicePartition k = .error e := by
  rw [prepareMount, get_bind] at h
  cases hready : s.guest.ensureReady with
  | error e' =>
    rw [hready, orThrow_error_bind] at h
    unfold ensureReady at hready
    split at hready
    · cases hready
    · cases hready
      cases h
      exact absurd halready (by decide +kernel)
  | ok _ =>
    rw [hready, orThrow_ok_bind] at h
    cases hresolve : resolveMountable tools s.guest s.machine mountable with
    | error e' =>
      rw [hresolve, orThrow_error_bind] at h
      cases h
      exact ⟨rfl, fun k hk => by cases hk⟩
    | ok resolved =>
      rw [hresolve, orThrow_ok_bind] at h
      by_cases hmounted : (s.guest.mounted.lookup resolved).isSome
      · rw [if_pos hmounted] at h
        cases h
        refine ⟨rfl, fun k hk => .inl ?_⟩
        cases hk
        exact hmounted
      · rw [if_neg hmounted] at h
        cases hdevice : s.guest.devicePartition resolved with
        | error e' =>
          rw [hdevice, orThrow_error_bind] at h
          cases h
          refine ⟨rfl, fun k hk => .inr ?_⟩
          cases hk
          exact ⟨by simpa using hmounted, e, hdevice⟩
        | ok device =>
          rw [hdevice, orThrow_ok_bind] at h
          rcases ensureMountRoot_cases tools s with
            ⟨root, s₁, hok, -, -, -⟩ | ⟨s₁, herror, -, -, -⟩
          · rw [bind_of_ok hok] at h
            cases hmade : createMountpoint (actualMountpoint root mountpoint) s₁ with
            | ok _ s2 =>
              rw [bind_of_ok hmade] at h
              cases h
            | error e' s2 =>
              rw [bind_of_error hmade] at h
              cases h
              unfold createMountpoint at hmade
              dsimp only at hmade
              split at hmade
              · cases hmade
              · cases hmade
                exact absurd halready (by rw [not_mounted_of_mountpoint]; decide)
          · rw [bind_of_error herror] at h
            cases h
            exact absurd halready (by decide +kernel)

/-- A device that is not in the table is mounted and recorded; one that is there stays, or is
mounted anew at its path; or nothing happens, since an error reads as if the device were there. -/
inductive Outcome (tools : Tools ε) (kernel : Kernel ε β) (mountable mountpoint : String)
    (s s' : Session ε) : Prop where
  | fresh (p : Prepared) (s₁ : Session ε)
    (prepared : Preparation tools kernel mountable mountpoint p s s₁)
    (recorded : Recorded kernel p s₁ s')
  | again (k q : String) (resolved : resolveMountable tools s.guest s.machine mountable = .ok k)
    (entry : s.guest.mounted.lookup k = some q) (guest : s'.guest = s.guest)
    (mounts : kernel.mounts s'.machine = kernel.mounts s.machine)
    (top : kernel.top s'.machine (Path.ofString q) = kernel.top s.machine (Path.ofString q))
  | anew (k q : String) (b : β) (device : String) (rest : Multiset β)
    (resolved : resolveMountable tools s.guest s.machine mountable = .ok k)
    (entry : s.guest.mounted.lookup k = some q)
    (guest : s'.guest = { s.guest with
      mounted := (s.guest.mounted.erase k).insert k (Path.ofString q).display })
    (source : kernel.block device = b ∨ s.guest.devicePartition k = .ok device)
    (before : kernel.mounts s.machine = b ::ₘ rest)
    (after : kernel.mounts s'.machine = kernel.block device ::ₘ rest)
    (topBefore : kernel.top s.machine (Path.ofString q) = some b)
    (topAfter : kernel.top s'.machine (Path.ofString q) = some (kernel.block device))
  | nothing (same : s' = s)
    (unnamed : ∀ k, resolveMountable tools s.guest s.machine mountable = .ok k →
      s.guest.mounted.lookup k = none ∧ ∃ e, s.guest.devicePartition k = .error e)

section

variable (hsound : kernel.Sound tools)
include hsound

theorem remountDevice_source {g : Guestfs} {m m' : Machine ε}
    {resolved device : String} {target target' : Path} {args : List String} {b : β}
    (htop : kernel.top m target = some b)
    (h : remountDevice tools g m resolved target = .ok device)
    (hmount : Kernel.Succeeded tools (.mount args device target') m') :
    kernel.block device = b ∨ g.devicePartition resolved = .ok device := by
  unfold remountDevice at h
  cases hsource : hostSourceForMountpoint tools m target with
  | none =>
    rw [hsource] at h
    exact .inr h
  | some source =>
    rw [hsource] at h
    have hdevice : source = device := Except.ok.inj h
    subst hdevice
    unfold hostSourceForMountpoint at hsource
    split at hsource
    · rename_i output hask
      split at hsource
      · rename_i hshown
        have htrim := Option.some.inj hsource
        subst htrim
        exact .inl (hsound.findmnt htop hask hshown.1 hmount)
      · cases hsource
    · cases hsource

theorem execUmountPath_ok (h : execUmountPath tools target s = .ok u s') :
    s'.guest = s.guest ∧ ∃ b, kernel.top s.machine target = some b ∧
      kernel.mounts s.machine = b ::ₘ kernel.mounts s'.machine := by
  obtain ⟨hrun, h⟩ := execute_checked h
  cases h
  exact ⟨rfl, hsound.umount hrun⟩

theorem execMountWithOpts_ok {device opts : String}
    (hown : opts ∈ Kernel.ownOptions)
    (h : execMountWithOpts tools device target opts s = .ok u s') :
    s'.guest = s.guest ∧
      Kernel.Succeeded tools (.mount ["-o", opts] device target) s.machine ∧
      kernel.mounts s'.machine = kernel.block device ::ₘ kernel.mounts s.machine ∧
      kernel.top s'.machine target = some (kernel.block device) := by
  obtain ⟨hrun, h⟩ := execute_checked h
  cases h
  exact ⟨rfl, hrun, hsound.mount (hsound.adds_own opts hown) hrun⟩

theorem remountFresh_ok {k : String}
    (h : remountFresh tools k target s = .ok () s') :
    ∃ b device rest,
      s'.guest = { s.guest with mounted := (s.guest.mounted.erase k).insert k target.display } ∧
      (kernel.block device = b ∨ s.guest.devicePartition k = .ok device) ∧
      kernel.mounts s.machine = b ::ₘ rest ∧
      kernel.mounts s'.machine = kernel.block device ::ₘ rest ∧
      kernel.top s.machine target = some b ∧
      kernel.top s'.machine target = some (kernel.block device) := by
  rw [remountFresh, get_bind] at h
  obtain ⟨device, hsource, hafterDevice⟩ := orThrow_bind_eq_ok h
  obtain ⟨_, s2, humount, hafterUmount⟩ := bind_eq_ok hafterDevice
  obtain ⟨hguest, b, htop, hmounts⟩ := execUmountPath_ok hsound humount
  obtain ⟨_, s3, herase, hafterErase⟩ := bind_eq_ok hafterUmount
  cases herase
  obtain ⟨_, s4, hmount, hrecord⟩ := bind_eq_ok hafterErase
  have hown : (if fsTypeOr tools s.guest s.machine k = "xfs" then "rw,nouuid" else "rw") ∈
      Kernel.ownOptions := by
    split <;> decide
  obtain ⟨hguest', hsucceeded, hmounts', htop'⟩ := execMountWithOpts_ok hsound hown hmount
  cases hrecord
  refine ⟨b, device, kernel.mounts s2.machine, ?_, remountDevice_source hsound htop hsource
    hsucceeded, hmounts, hmounts', htop, htop'⟩
  dsimp only
  rw [hguest']
  dsimp only
  rw [hguest]

theorem remountRw_ok (h : remountRw tools mountable s = .ok () s') :
    Outcome tools kernel mountable mountpoint s s' := by
  rw [remountRw, get_bind] at h
  obtain ⟨k, hresolved, hafterResolve⟩ := orThrow_bind_eq_ok h
  cases hentry : s.guest.mounted.lookup k with
  | none =>
    rw [hentry] at hafterResolve
    cases hafterResolve
  | some q =>
    rw [hentry] at hafterResolve
    obtain ⟨inPlace, s2, hremount, hafterRemount⟩ := bind_eq_ok hafterResolve
    have hs2 : s2.guest = s.guest ∧ s2.machine =
        (tools.run (.remount (Path.ofString q)) s.machine).2 := by
      rw [execRemountRw, runCommand_bind] at hremount
      cases hout : (tools.run (.remount (Path.ofString q)) s.machine).1 <;>
      · rw [hout] at hremount
        cases hremount
        exact ⟨rfl, rfl⟩
    have hkept : kernel.mounts s2.machine = kernel.mounts s.machine ∧
        kernel.top s2.machine (Path.ofString q) = kernel.top s.machine (Path.ofString q) := by
      rw [hs2.2]
      exact hsound.remount
    cases inPlace with
    | true =>
      rw [if_pos rfl] at hafterRemount
      cases hafterRemount
      exact .again k q hresolved hentry hs2.1 hkept.1 hkept.2
    | false =>
      rw [if_neg Bool.false_ne_true] at hafterRemount
      obtain ⟨b, device, rest, hguest, hsource, hbefore, hafter, htop, htop'⟩ :=
        remountFresh_ok hsound hafterRemount
      rw [hs2.1] at hguest hsource
      rw [hkept.1] at hbefore
      rw [hkept.2] at htop
      exact .anew k q b device rest hresolved hentry hguest hsource hbefore hafter htop htop'

theorem withPrepared_outcome {ifMounted : GuestM ε Unit}
    {next : Prepared → GuestM ε Unit}
    (hif : ifMounted = pure () ∨ ifMounted = remountRw tools mountable)
    (hnext : ∀ p s₁ s2, next p s₁ = .ok () s2 → Recorded kernel p s₁ s2)
    (h : withPrepared tools mountable mountpoint ifMounted next s = .ok () s') :
    Outcome tools kernel mountable mountpoint s s' := by
  cases hprepare : prepareMount tools mountable mountpoint s with
  | ok p s₁ =>
    rw [withPrepared_ok hprepare] at h
    exact .fresh p s₁ (prepareMount_ok hsound hprepare) (hnext p s₁ s' h)
  | error e s₁ =>
    rw [withPrepared_error hprepare] at h
    by_cases halready : contains e.message "already_mounted" = true
    · rw [if_pos halready] at h
      obtain ⟨hsame, hnamed⟩ := prepareMount_already hprepare halready
      rw [hsame] at h
      rcases hif with rfl | rfl
      · have hdone : s' = s := (EStateM.Result.ok.inj h).2.symm
        subst hdone
        cases hresolve : resolveMountable tools s'.guest s'.machine mountable with
        | error e' => exact .nothing rfl fun k hk => by rw [hresolve] at hk; cases hk
        | ok k =>
          rcases hnamed k hresolve with hmounted | hunnamed
          · obtain ⟨q, hq⟩ := Option.isSome_iff_exists.mp hmounted
            exact .again k q hresolve hq rfl rfl rfl
          · refine .nothing rfl fun k' hk' => ?_
            rw [hresolve] at hk'
            cases hk'
            exact hunnamed
      · exact remountRw_ok hsound h
    · rw [if_neg halready] at h
      cases h

end

end Guestfs

namespace MountCall

variable {ε β : Type} {tools : Tools ε} {kernel : Kernel ε β} {s s' : Session ε}

def mountable : MountCall → String
  | .mountRo mountable _ => mountable
  | .mount mountable _ => mountable
  | .mountOptions _ mountable _ => mountable
  | .mountVfs _ _ mountable _ => mountable

def Adds (kernel : Kernel ε β) : MountCall → Prop
  | .mountRo _ _ => True
  | .mount _ _ => True
  | .mountOptions options _ _ => kernel.adds (optionArgs options)
  | .mountVfs options vfstype _ _ =>
    kernel.adds (optionArgs options ++ if vfstype = "" then [] else ["-t", vfstype])

theorem ifMounted_cases (options mountable : String) :
    ifMounted tools options mountable = pure () ∨
      ifMounted tools options mountable = remountRw tools mountable := by
  unfold ifMounted
  split
  · exact .inl rfl
  · exact .inr rfl

theorem checkWritable_bind_ok {allowed : Bool} {next : GuestM ε Unit}
    (h : (do checkWritable allowed; next : GuestM ε Unit) s = .ok () s') :
    next s = .ok () s' := by
  obtain ⟨_, s₁, hcheck, hnext⟩ := bind_eq_ok h
  have hstate := checkWritable_state allowed s
  rw [hcheck] at hstate
  rwa [show s₁ = s from hstate] at hnext

theorem run_outcome (hsound : kernel.Sound tools) {call : MountCall} (hadds : call.Adds kernel)
    (h : call.run tools s = .ok () s') :
    Outcome tools kernel call.mountable call.mountpoint s s' := by
  cases call with
  | mountRo mountable mountpoint =>
    exact withPrepared_outcome hsound (.inl rfl)
      (fun p s₁ s2 => mountRoPrepared_ok hsound) h
  | mount mountable mountpoint =>
    exact withPrepared_outcome hsound (.inr rfl)
      (fun p s₁ s2 => mountPrepared_ok hsound hsound.adds_nil) (checkWritable_bind_ok h)
  | mountOptions options mountable mountpoint =>
    change Guestfs.mountOptions tools options mountable mountpoint s = _ at h
    unfold Guestfs.mountOptions at h
    cases hdangerous : dangerousOption options with
    | some opt =>
      rw [hdangerous] at h
      cases h
    | none =>
      rw [hdangerous] at h
      exact withPrepared_outcome hsound (ifMounted_cases options mountable)
        (fun p s₁ s2 => mountPrepared_ok hsound hadds) (checkWritable_bind_ok h)
  | mountVfs options vfstype mountable mountpoint =>
    change Guestfs.mountVfs tools options vfstype mountable mountpoint s = _ at h
    rw [Guestfs.mountVfs, get_bind] at h
    obtain ⟨_, -, hafterReady⟩ := orThrow_bind_eq_ok h
    split at hafterReady
    · cases hafterReady
    · exact withPrepared_outcome hsound (ifMounted_cases options mountable)
        (fun p s₁ s2 => mountPrepared_ok hsound hadds)
        (checkWritable_bind_ok hafterReady)

end MountCall

end Guestkit
