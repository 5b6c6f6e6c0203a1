import Guestkit.Guestfs.Designate

/-! The devices that a call acts on, and when they are those that the name it is called with stands
for. -/

namespace Guestkit

open Lib Lib.Fs Lib.Text Guestfs

variable {ε : Type}

def Event.device (host : Host ε) : Event ε → Option String
  | .ran (.mount _ device _) _ => some device
  | .ran (.remount target) m => host.source m target
  | .ran (.umount target) m => host.source m target
  | .ran (.parted device _) _ => some device
  | .made _ _ _ => none

def newEvents (s s' : Session ε) : List (Event ε) := s'.log.take (s'.log.length - s.log.length)

theorem newEvents_eq {s s' : Session ε} {new : List (Event ε)} (h : s'.log = new ++ s.log) :
    newEvents s s' = new := by
  simp [newEvents, h]

def ActsOn (host : Host ε) (s s' : Session ε) (dev : String) : Prop :=
  ∃ e ∈ newEvents s s', e.device host = some dev

def Guestfs.devices (g : Guestfs) : List DriveConfig × Option NbdDevice × Option LoopDevice :=
  (g.drives, g.nbdDevice, g.loopDevice)

/-- The handle keeps its devices, and those that were acted on have the property `P`. -/
structure Acts (host : Host ε) (P : String → Prop) (s s' : Session ε) : Prop where
  devices : s'.guest.devices = s.guest.devices
  log : ∃ new, s'.log = new ++ s.log ∧ ∀ e ∈ new, ∀ dev, e.device host = some dev → P dev

namespace Acts

variable {host : Host ε} {P : String → Prop} {s s' : Session ε} {dev : String}

theorem same (hdevices : s'.guest.devices = s.guest.devices) (hlog : s'.log = s.log) :
    Acts host P s s' :=
  ⟨hdevices, [], hlog, fun _ h => absurd h List.not_mem_nil⟩

theorem refl (s : Session ε) : Acts host P s s := same rfl rfl

theorem trans (s s' s'' : Session ε) (h : Acts host P s s') (h' : Acts host P s' s'') :
    Acts host P s s'' := by
  obtain ⟨new, hlog, hnew⟩ := h.log
  obtain ⟨new', hlog', hnew'⟩ := h'.log
  refine ⟨h'.devices.trans h.devices, new' ++ new, ?_, fun e he => ?_⟩
  · rw [hlog', hlog, List.append_assoc]
  · exact (List.mem_append.mp he).elim (hnew' e) (hnew e)

theorem on (h : Acts host P s s') (hdev : ActsOn host s s' dev) : P dev := by
  obtain ⟨new, hlog, hnew⟩ := h.log
  obtain ⟨e, he, hdevice⟩ := hdev
  rw [newEvents_eq hlog] at he
  exact hnew e he dev hdevice

end Acts

namespace Guestfs

section Mounts

variable {tools : Tools ε} {host : Host ε} {P : String → Prop} {s : Session ε}
variable {p : Prepared} {target : Path}

theorem runCommand_acts {c : Command}
    (hc : ∀ dev, (Event.ran c s.machine).device host = some dev → P dev) :
    Acts host P s (stateOf (runCommand tools c s)) := by
  refine ⟨rfl, [.ran c s.machine], rfl, fun e he => ?_⟩
  rw [List.mem_singleton.mp he]
  exact hc

theorem execute_acts {c : Command} {failure : String}
    (hc : ∀ dev, (Event.ran c s.machine).device host = some dev → P dev) :
    Acts host P s (stateOf (execute tools c failure s)) := by
  refine stateOf_bind Acts.trans (runCommand_acts hc) fun r s1 _ => ?_
  cases r <;> exact Acts.refl s1

theorem acts_covers :
    Covers tools (fun c => ∀ m dev, (Event.ran c m).device host = some dev → P dev)
      (Acts host P) where
  trans := Acts.trans
  refl := Acts.refl
  ran _ s hc := runCommand_acts (hc s.machine)
  noted _ _ := Acts.same rfl rfl

theorem remountFresh_acts {resolved : String}
    (hfind : ∀ dev, hostSourceForMountpoint tools s.machine target = some dev → P dev)
    (hsource : ∀ dev, host.source s.machine target = some dev → P dev)
    (hdevice : ∀ dev, s.guest.devicePartition resolved = .ok dev → P dev) :
    Acts host P s (stateOf (remountFresh tools resolved target s)) := by
  unfold remountFresh
  rw [get_bind]
  cases hremount : remountDevice tools s.guest s.machine resolved target with
  | error e => exact Acts.refl s
  | ok device =>
    have hP : P device := by
      unfold remountDevice at hremount
      cases hfound : hostSourceForMountpoint tools s.machine target with
      | some d =>
        rw [hfound] at hremount
        cases hremount
        exact hfind device hfound
      | none =>
        rw [hfound] at hremount
        exact hdevice device hremount
    rw [orThrow_ok_bind]
    refine stateOf_bind Acts.trans ?_ fun _ s1 _ => ?_
    · refine stateOf_bind Acts.trans (execute_acts hsource) fun output s1 _ => ?_
      split <;> exact Acts.refl s1
    · refine stateOf_bind Acts.trans (Acts.same rfl rfl) fun _ s2 _ => ?_
      refine stateOf_bind Acts.trans ?_ fun _ s3 _ => Acts.same rfl rfl
      refine stateOf_bind Acts.trans (execute_acts ?_) fun output s3 _ => ?_
      · rintro dev ⟨⟩
        exact hP
      · split <;> exact Acts.refl s3

theorem execRemountRw_state (tools : Tools ε) (target : Path) (s : Session ε) :
    stateOf (execRemountRw tools target s) = ran tools (.remount target) s := by
  rw [execRemountRw, runCommand_bind]
  cases (tools.run (.remount target) s.machine).1 <;> rfl

theorem remountAt_acts {resolved : String}
    (hbefore : ∀ dev, host.source s.machine target = some dev → P dev)
    (hafter : ∀ dev,
      host.source (tools.run (.remount target) s.machine).2 target = some dev → P dev)
    (hfind : ∀ dev, hostSourceForMountpoint tools (tools.run (.remount target) s.machine).2 target =
      some dev → P dev) (hdevice : ∀ dev, s.guest.devicePartition resolved = .ok dev → P dev) :
    Acts host P s (stateOf (remountAt tools resolved target s)) := by
  have hstate := execRemountRw_state tools target s
  refine stateOf_bind Acts.trans ?_ fun done s1 hdone => ?_
  · rw [hstate]
    show Acts host P s (stateOf (runCommand tools (.remount target) s))
    exact runCommand_acts hbefore
  · rw [hdone] at hstate
    obtain rfl : s1 = _ := hstate
    split
    · exact Acts.refl _
    · exact remountFresh_acts hfind hafter hdevice

theorem createMountpoint_acts (target : Path) :
    Acts host P s (stateOf (createMountpoint target s)) := by
  unfold createMountpoint
  cases createDirAll target s.machine.tree with
  | ok u t | error e t =>
    refine ⟨rfl, [.made target s.machine.tree t], rfl, fun e he dev hdev => ?_⟩
    rw [List.mem_singleton.mp he] at hdev
    cases hdev

theorem noMountRoot_message : contains noMountRoot.message "already_mounted" = false := by
  decide +kernel

theorem createMountpoint_message {e : Error} {s1 : Session ε}
    (h : createMountpoint target s = .error e s1) :
    contains e.message "already_mounted" = false := by
  unfold createMountpoint at h
  split at h
  · cases h
  · next errno _ _ =>
    cases h
    cases errno <;> decide +kernel

theorem withPrepared_acts {mountable mountpoint : String} {ifMounted : GuestM ε Unit}
    {next : Prepared → GuestM ε Unit}
    (hmounted : Acts host P s (stateOf (ifMounted s)))
    (hnext : ∀ resolved device target,
      resolveMountable tools s.guest s.machine mountable = .ok resolved →
      s.guest.devicePartition resolved = .ok device →
      Always (Acts host P) (next ⟨resolved, device, target⟩)) :
    Acts host P s (stateOf (withPrepared tools mountable mountpoint ifMounted next s)) := by
  rcases prepareMount_cases tools mountable mountpoint s with
    ⟨e, hprepare⟩ | ⟨s1, hprepare, hlog, hguest, -⟩ |
    ⟨root, s1, resolved, device, -, hguest, hlog, hresolve, hdevice, hprepare⟩
  · rw [withPrepared_error hprepare]
    split
    · exact hmounted
    · exact Acts.refl s
  · have hsame : Acts host P s s1 := Acts.same (by rw [hguest]) hlog
    rw [withPrepared_error hprepare, if_neg (by rw [noMountRoot_message]; simp)]
    exact hsame
  · have hroot : Acts host P s s1 := Acts.same (by rw [hguest]; rfl) hlog
    have hmade : Acts host P s1
        (stateOf (createMountpoint (actualMountpoint root mountpoint) s1)) :=
      createMountpoint_acts _
    cases hcreate : createMountpoint (actualMountpoint root mountpoint) s1 with
    | error e s2 =>
      rw [hcreate] at hmade
      rw [withPrepared_error (hprepare.trans (bind_of_error hcreate)),
        if_neg (by rw [createMountpoint_message hcreate]; simp)]
      exact hroot.trans s s1 s2 hmade
    | ok u s2 =>
      rw [hcreate] at hmade
      rw [withPrepared_ok (hprepare.trans (bind_of_ok hcreate))]
      exact Acts.trans s s2 _ (hroot.trans s s1 s2 hmade)
        (hnext resolved device _ hresolve hdevice s2)

theorem remountRw_acts {mountable : String}
    (hremount : ∀ resolved path,
      resolveMountable tools s.guest s.machine mountable = .ok resolved →
      s.guest.mounted.lookup resolved = some path →
      Acts host P s (stateOf (remountAt tools resolved (Path.ofString path) s))) :
    Acts host P s (stateOf (remountRw tools mountable s)) := by
  unfold remountRw
  rw [get_bind]
  cases hresolve : resolveMountable tools s.guest s.machine mountable with
  | error e => exact Acts.refl s
  | ok resolved =>
    rw [orThrow_ok_bind]
    cases hlookup : s.guest.mounted.lookup resolved with
    | none => exact Acts.refl s
    | some path => exact hremount resolved path hresolve hlookup

theorem mountRo_acts (tools : Tools ε) (host : Host ε) (mountable mountpoint : String)
    (s : Session ε) :
    Acts host (fun dev => ∃ name, resolveMountable tools s.guest s.machine mountable = .ok name ∧
      s.guest.devicePartition name = .ok dev) s (stateOf (mountRo tools mountable mountpoint s)) :=
  withPrepared_acts (Acts.refl s) fun resolved _ _ hresolve hdevice =>
    acts_covers.mountRoPrepared fun _ _ _ _ _ hdev =>
      ⟨resolved, hresolve, hdevice.trans (congrArg Except.ok (Option.some.inj hdev))⟩

theorem mount_acts {mountable : String} (mountpoint : String)
    (hremount : ∀ resolved path,
      resolveMountable tools s.guest s.machine mountable = .ok resolved →
      s.guest.mounted.lookup resolved = some path →
      Acts host P s (stateOf (remountAt tools resolved (Path.ofString path) s)))
    (hdevice : ∀ resolved dev, resolveMountable tools s.guest s.machine mountable = .ok resolved →
      s.guest.devicePartition resolved = .ok dev → P dev) :
    Acts host P s (stateOf (mount tools mountable mountpoint s)) := by
  have hstate := checkWritable_state false s
  refine stateOf_bind Acts.trans ?_ fun u s1 hcheck => ?_
  · rw [hstate]
    exact Acts.refl s
  · rw [hcheck] at hstate
    obtain rfl : s1 = s := hstate
    exact withPrepared_acts (remountRw_acts hremount) fun resolved device _ hresolve hpart =>
      acts_covers.mountPrepared fun _ _ hdev =>
        Option.some.inj hdev ▸ hdevice resolved device hresolve hpart

theorem mount_recorded {mountable mountpoint resolved path : String} {u : Unit}
    (hwritable : checkWritable false s = .ok u s) (hready : s.guest.ensureReady = .ok ())
    (hresolve : resolveMountable tools s.guest s.machine mountable = .ok resolved)
    (hlookup : s.guest.mounted.lookup resolved = some path) :
    mount tools mountable mountpoint s = remountAt tools resolved (Path.ofString path) s := by
  have hprepare : prepareMount tools mountable mountpoint s =
      .error (.invalidState "already_mounted") s :=
    prepareMount_mounted hready hresolve (by rw [hlookup]; rfl)
  have hmessage : contains (Error.invalidState "already_mounted").message "already_mounted" =
      true := by decide +kernel
  rw [mount, bind_of_ok hwritable, withPrepared_error hprepare, if_pos hmessage, remountRw,
    get_bind, hresolve, orThrow_ok_bind, hlookup]

theorem mount_unready {mountable mountpoint : String} {e : Error}
    (hready : s.guest.ensureReady = .error e) :
    stateOf (mount tools mountable mountpoint s) = s := by
  have hprepare : prepareMount tools mountable mountpoint s = .error e s := by
    rw [prepareMount, get_bind, hready]
    rfl
  have hmessage : contains e.message "already_mounted" = false := by
    unfold ensureReady at hready
    split at hready
    · cases hready
    · cases hready
      decide +kernel
  have hstate := checkWritable_state false s
  rw [mount]
  cases hcheck : checkWritable false s with
  | error e s1 =>
    rw [hcheck] at hstate
    rw [bind_of_error hcheck]
    exact hstate
  | ok u s1 =>
    rw [hcheck] at hstate
    obtain rfl : s1 = s := hstate
    rw [bind_of_ok hcheck, withPrepared_error hprepare, if_neg (by simp [hmessage])]
    rfl

theorem ActsOn.of_log {s s' : Session ε} {dev : String} {e : Event ε} (new : List (Event ε))
    (hlog : s'.log = new ++ e :: s.log) (hdev : e.device host = some dev) :
    ActsOn host s s' dev := by
  have hnew : newEvents s s' = new ++ [e] := newEvents_eq (by simp [hlog])
  exact ⟨e, by simp [hnew], hdev⟩

theorem remountAt_actsOn {resolved dev : String} (hdev : host.source s.machine target = some dev) :
    ActsOn host s (stateOf (remountAt tools resolved target s)) dev := by
  have hstate := congrArg Session.log (execRemountRw_state tools target s)
  rw [remountAt]
  cases hrun : execRemountRw tools target s with
  | error e s1 =>
    rw [hrun] at hstate
    rw [bind_of_error hrun]
    exact ActsOn.of_log [] hstate hdev
  | ok done s1 =>
    rw [hrun] at hstate
    rw [bind_of_ok hrun]
    split
    · exact ActsOn.of_log [] hstate hdev
    · have hfresh : Acts host (fun _ => True) s1
          (stateOf (remountFresh tools resolved target s1)) :=
        remountFresh_acts (fun _ _ => trivial) (fun _ _ => trivial) fun _ _ => trivial
      obtain ⟨new, hlog, -⟩ := hfresh.log
      exact ActsOn.of_log new (hlog.trans (congrArg (new ++ ·) hstate)) hdev

end Mounts

section Partitions

variable {tools : Tools ε} {s : Session ε} {nbd : NbdDevice}

/-- A program that refuses its arguments, or runs `parted` on the device it is given. -/
inductive OnNbd (tools : Tools ε) (nbd : NbdDevice) : GuestM ε Unit → Prop
  | refuses (e : Error) : OnNbd tools nbd (throw e)
  | parted (args : List String) (failure : ProcessOutput → Error) :
      OnNbd tools nbd (runParted tools nbd args failure)

theorem outside_cases {α : Type} (f : Machine ε → Except Error α × Machine ε) (s : Session ε) :
    (∃ e, (f s.machine).1 = .error e ∧
      outside f s = .error e { s with machine := (f s.machine).2 }) ∨
    ∃ a, (f s.machine).1 = .ok a ∧ outside f s = .ok a { s with machine := (f s.machine).2 } := by
  unfold outside
  rw [bind_of_ok (modifyGet_eq _ s)]
  dsimp only
  cases hf : (f s.machine).1 with
  | error e => exact .inl ⟨e, rfl, rfl⟩
  | ok a => exact .inr ⟨a, rfl, rfl⟩

theorem outside_ok {α : Type} {f : Machine ε → Except Error α × Machine ε} {s s1 : Session ε}
    {a : α} (h : outside f s = .ok a s1) : (f s.machine).1 = .ok a := by
  rcases outside_cases f s with ⟨e, -, hrun⟩ | ⟨a', ha, hrun⟩
  · rw [hrun] at h
    cases h
  · rw [hrun] at h
    cases h
    exact ha

theorem setupNbdIfNeeded_cases (hconnects : tools.Connects) (hattached : Attached s.guest) :
    (∃ e s1, setupNbdIfNeeded tools s = .error e s1 ∧ s1.guest = s.guest ∧ s1.log = s.log) ∨
    ∃ nbd s1, setupNbdIfNeeded tools s = .ok () s1 ∧
      s1.guest = { s.guest with nbdDevice := some nbd } ∧ s1.log = s.log ∧ Attached s1.guest := by
  unfold setupNbdIfNeeded
  rw [get_bind]
  dsimp only
  cases hnbd : s.guest.nbdDevice with
  | some nbd => exact .inr ⟨nbd, s, rfl, by rw [← hnbd], rfl, hattached⟩
  | none =>
    cases hdrives : s.guest.drives with
    | nil => exact .inl ⟨_, s, rfl, rfl, rfl⟩
    | cons drive drives =>
      rcases outside_cases (tools.connectNbd drive) s with ⟨e, -, hrun⟩ | ⟨nbd, hnbd, hrun⟩
      · exact .inl ⟨e, _, bind_of_error hrun, rfl, rfl⟩
      · refine .inr ⟨nbd, _, bind_of_ok hrun, by rw [← hdrives], rfl, ?_, hattached.loop⟩
        rintro nbd' ⟨⟩
        refine ⟨drive, ?_, hconnects.nbd drive s.machine nbd hnbd⟩
        show s.guest.drives.head? = some drive
        rw [hdrives]
        rfl

theorem runParted_state (tools : Tools ε) (nbd : NbdDevice) (args : List String)
    (failure : ProcessOutput → Error) (s : Session ε) :
    stateOf (runParted tools nbd args failure s) = ran tools (.parted nbd.devicePath args) s := by
  unfold runParted execute
  rw [bind_assoc, runCommand_bind]
  cases (tools.run (.parted nbd.devicePath args) s.machine).1 with
  | error e => rfl
  | ok output =>
    dsimp only
    rw [pure_bind]
    split <;> rfl

/-- An operation on partitions ends without running anything, or after one run of `parted` on the
network block device of the first drive. -/
theorem withNbd_cases {k : NbdDevice → GuestM ε Unit} (hk : ∀ nbd, OnNbd tools nbd (k nbd))
    (hconnects : tools.Connects) (hattached : Attached s.guest) :
    Attached (stateOf (withNbd tools k s)).guest ∧
      (stateOf (withNbd tools k s)).guest.drives = s.guest.drives ∧
      ((stateOf (withNbd tools k s)).log = s.log ∨
        ∃ nbd args m, (stateOf (withNbd tools k s)).guest.nbdDevice = some nbd ∧
          (stateOf (withNbd tools k s)).log = .ran (.parted nbd.devicePath args) m :: s.log) := by
  unfold withNbd
  rw [get_bind]
  cases s.guest.ensureReady with
  | error e => exact ⟨hattached, rfl, .inl rfl⟩
  | ok u =>
    rw [orThrow_ok_bind]
    rcases setupNbdIfNeeded_cases hconnects hattached with
      ⟨e, s1, hsetup, hguest, hlog⟩ | ⟨nbd, s1, hsetup, hguest, hlog, hattached'⟩
    · rw [bind_of_error hsetup]
      exact ⟨hguest ▸ hattached, congrArg drives hguest, .inl hlog⟩
    · have hdrives : s1.guest.drives = s.guest.drives := by rw [hguest]
      have hnbd : s1.guest.nbdDevice = some nbd := by rw [hguest]
      rw [bind_of_ok hsetup, get_bind, hnbd]
      dsimp only
      have hprogram := hk nbd
      generalize k nbd = program at hprogram ⊢
      cases hprogram with
      | refuses e => exact ⟨hattached', hdrives, .inl hlog⟩
      | parted args failure =>
        rw [runParted_state]
        exact ⟨hattached', hdrives, .inr ⟨nbd, args, s1.machine, hnbd, by rw [ran, hlog]⟩⟩

end Partitions

end Guestfs

namespace DeviceCall

variable {tools : Tools ε} {host : Host ε} {s s' : Session ε}
variable {call : DeviceCall}

def isPart : DeviceCall → Bool
  | .mount _ _ | .mountRo _ _ => false
  | _ => true

def Names (tools : Tools ε) (s : Session ε) (call : DeviceCall) (name : String) : Prop :=
  if call.isPart then name = call.device
  else resolveMountable tools s.guest s.machine call.device = .ok name

/-- A name that is given as the path of a logical volume is that of one of the handle. -/
def VolumeNamed (host : Host ε) (device : String) : Prop :=
  hasTag (trim device) = false →
    isLogicalVolume (trim device) = true →
    ∃ id, host.backing (trim device) = some (.volume id)

/-- The conditions under which a call acts on what it should. -/
def Sound (tools : Tools ε) (host : Host ε) (s : Session ε) : DeviceCall → Prop
  | .mountRo device _ => VolumeNamed host device
  | .mount device _ => VolumeNamed host device ∧ ∀ name path dev,
      resolveMountable tools s.guest s.machine device = .ok name →
      s.guest.mounted.lookup name = some path →
      host.source s.machine (Path.ofString path) = some dev →
      ∃ b, Designates host s.guest name b ∧ host.backing dev = some b
  | .partInit device _ | .partAdd device _ _ _ | .partDel device _ | .partResize device _ _ =>
    ∃ drive, s.guest.drives.head? = some drive ∧
      Designates host s.guest device (.disk drive.path 0)

theorem exists_onNbd (tools : Tools ε) (h : call.isPart = true) :
    ∃ k, call.run tools = withNbd tools k ∧ ∀ nbd, OnNbd tools nbd (k nbd) := by
  cases call with
  | mount device mountpoint | mountRo device mountpoint => cases h
  | partInit device parttype =>
    refine ⟨_, rfl, fun nbd => ?_⟩
    dsimp only
    split
    · exact .refuses _
    · exact .parted _ _
  | partAdd device prlogex startsect endsect =>
    refine ⟨_, rfl, fun nbd => ?_⟩
    dsimp only
    split
    · exact .refuses _
    · exact .parted _ _
  | partDel device partnum => exact ⟨_, rfl, fun nbd => .parted _ _⟩
  | partResize device partnum endsect => exact ⟨_, rfl, fun nbd => .parted _ _⟩

theorem sound_of_part (h : call.isPart = true) :
    call.Sound tools host s ↔ ∃ drive, s.guest.drives.head? = some drive ∧
      Designates host s.guest call.device (.disk drive.path 0) := by
  cases call with
  | mount device mountpoint | mountRo device mountpoint => cases h
  | _ => exact Iff.rfl

theorem part_actsOn (h : call.isPart = true) (hconnects : tools.Connects)
    (hattached : Attached s.guest) (hexported : Exported host (stateOf (call.run tools s)).guest)
    {dev : String} (hdev : ActsOn host s (stateOf (call.run tools s)) dev) :
    ∃ drive, s.guest.drives.head? = some drive ∧ host.backing dev = some (.disk drive.path 0) := by
  obtain ⟨k, hrun, hk⟩ := exists_onNbd tools h
  rw [hrun] at hexported hdev
  obtain ⟨hattached', hdrives, hlog | ⟨nbd, args, m, hnbd, hlog⟩⟩ :=
    withNbd_cases hk hconnects hattached
  · have hnew : newEvents s (stateOf (withNbd tools k s)) = [] := newEvents_eq hlog
    obtain ⟨e, he, -⟩ := hdev
    rw [hnew] at he
    cases he
  · have hnew : newEvents s (stateOf (withNbd tools k s)) =
        [.ran (.parted nbd.devicePath args) m] := newEvents_eq hlog
    obtain ⟨e, he, hdevice⟩ := hdev
    rw [hnew, List.mem_singleton] at he
    subst he
    cases hdevice
    obtain ⟨drive, hdrive, himage⟩ := hattached'.nbd nbd hnbd
    exact ⟨drive, hdrives ▸ hdrive, (hexported.nbd nbd drive.path hnbd himage).1⟩

/-- Every device that a call acts on is what the name of the device stands for. -/
def OnDesignated (tools : Tools ε) (host : Host ε) (s : Session ε) (call : DeviceCall) : Prop :=
  ∀ dev, ActsOn host s (stateOf (call.run tools s)) dev →
    ∃ name b, call.Names tools s name ∧ Designates host s.guest name b ∧ host.backing dev = some b

theorem part_onDesignated_iff (h : call.isPart = true) (hconnects : tools.Connects)
    (hattached : Attached s.guest) (hexported : Exported host (stateOf (call.run tools s)).guest) :
    call.OnDesignated tools host s ↔
      ((∃ dev, ActsOn host s (stateOf (call.run tools s)) dev) → call.Sound tools host s) := by
  have hnames : ∀ name, call.Names tools s name ↔ name = call.device := fun name => by
    rw [Names, if_pos h]
  rw [sound_of_part h]
  constructor
  · rintro hall ⟨dev, hdev⟩
    obtain ⟨name, b, hname, hdesignates, hb⟩ := hall dev hdev
    obtain ⟨drive, hdrive, hbacking⟩ := part_actsOn h hconnects hattached hexported hdev
    obtain rfl : b = .disk drive.path 0 := Option.some.inj (hb.symm.trans hbacking)
    exact ⟨drive, hdrive, (hnames name).mp hname ▸ hdesignates⟩
  · intro hsound dev hdev
    obtain ⟨drive, hdrive, hdesignates⟩ := hsound ⟨dev, hdev⟩
    obtain ⟨drive', hdrive', hbacking⟩ := part_actsOn h hconnects hattached hexported hdev
    obtain rfl : drive = drive' := Option.some.inj (hdrive.symm.trans hdrive')
    exact ⟨call.device, _, (hnames _).mpr rfl, hdesignates, hbacking⟩

theorem volume_of_named (hhonest : tools.Honest host s.guest) {device name : String}
    (hnamed : VolumeNamed host device)
    (hresolve : resolveMountable tools s.guest s.machine device = .ok name)
    (hname : isLogicalVolume name = true) : ∃ id, host.backing name = some (.volume id) := by
  cases htag : hasTag (trim device) with
  | true => exact resolveMountable_tag hhonest htag hresolve hname
  | false =>
    rw [resolveMountable_plain htag] at hresolve
    obtain rfl : trim device = name := Except.ok.inj hresolve
    exact hnamed htag hname

theorem named_of_designates {device name : String} {b : Backing}
    (hresolve : resolveMountable tools s.guest s.machine device = .ok name)
    (hdesignates : Designates host s.guest name b) : VolumeNamed host device := by
  intro htag hvolume
  rw [resolveMountable_plain htag] at hresolve
  obtain rfl : trim device = name := Except.ok.inj hresolve
  cases hdesignates with
  | drive hname =>
    rw [hname] at hvolume
    cases hvolume
  | volume _ hbacking => exact ⟨_, hbacking⟩

theorem exported_of_devices {g g' : Guestfs} (h : Exported host g')
    (hdevices : g'.devices = g.devices) : Exported host g := by
  obtain ⟨-, hrest⟩ := Prod.mk.inj hdevices
  obtain ⟨hnbd, hloop⟩ := Prod.mk.inj hrest
  exact ⟨fun nbd image h' => h.nbd nbd image (hnbd.trans h'),
    fun loop image path h' => h.loop loop image path (hloop.trans h')⟩

theorem mountRo_onDesignated_iff {device mountpoint : String}
    (hhonest : tools.Honest host s.guest) (hattached : Attached s.guest)
    (hexported : Exported host (stateOf (Guestfs.mountRo tools device mountpoint s)).guest) :
    (mountRo device mountpoint).OnDesignated tools host s ↔
      ((∃ dev, ActsOn host s (stateOf (Guestfs.mountRo tools device mountpoint s)) dev) →
        VolumeNamed host device) := by
  have hacts := Guestfs.mountRo_acts tools host device mountpoint s
  constructor
  · rintro hall ⟨dev, hdev⟩
    obtain ⟨name, b, hname, hdesignates, -⟩ := hall dev hdev
    exact named_of_designates hname hdesignates
  · intro hsound dev hdev
    obtain ⟨name, hresolve, hdevice⟩ := hacts.on hdev
    obtain ⟨b, hdesignates, hb⟩ := devicePartition_designated hattached
      (exported_of_devices hexported hacts.devices)
      (volume_of_named hhonest (hsound ⟨dev, hdev⟩) hresolve) hdevice
    exact ⟨name, b, hresolve, hdesignates, hb⟩

def ForName (tools : Tools ε) (host : Host ε) (s : Session ε) (device dev : String) : Prop :=
  ∃ name, resolveMountable tools s.guest s.machine device = .ok name ∧
    (s.guest.devicePartition name = .ok dev ∨ ∃ path, s.guest.mounted.lookup name = some path ∧
      host.source s.machine (Path.ofString path) = some dev)

theorem mount_acts_forName (hhonest : tools.Honest host s.guest) (device mountpoint : String) :
    Acts host (ForName tools host s device) s
      (stateOf (Guestfs.mount tools device mountpoint s)) := by
  refine Guestfs.mount_acts mountpoint (fun name path hresolve hlookup => ?_)
    fun name dev hresolve hdevice => ⟨name, hresolve, .inl hdevice⟩
  have hmounted : ∀ dev, host.source s.machine (Path.ofString path) = some dev →
      ForName tools host s device dev :=
    fun dev hdev => ⟨name, hresolve, .inr ⟨path, hlookup, hdev⟩⟩
  refine remountAt_acts hmounted (fun dev hdev => ?_) (fun dev hfind => ?_)
    fun dev hdevice => ⟨name, hresolve, .inl hdevice⟩
  · rw [hhonest.remount] at hdev
    exact hmounted dev hdev
  · have hdev := hhonest.findmnt _ _ dev hfind
    rw [hhonest.remount] at hdev
    exact hmounted dev hdev

theorem not_actsOn_same {dev : String} (h : s'.log = s.log) : ¬ActsOn host s s' dev := by
  have hnew : newEvents s s' = [] := newEvents_eq h
  rintro ⟨e, he, -⟩
  rw [hnew] at he
  cases he

theorem mount_of_actsOn {device mountpoint name path dev : String}
    (hdev : ActsOn host s (stateOf (Guestfs.mount tools device mountpoint s)) dev)
    (hresolve : resolveMountable tools s.guest s.machine device = .ok name)
    (hlookup : s.guest.mounted.lookup name = some path) :
    Guestfs.mount tools device mountpoint s =
      remountAt tools name (Path.ofString path) s := by
  have hstate := checkWritable_state false s
  cases hcheck : checkWritable false s with
  | error e s1 =>
    rw [hcheck] at hstate
    rw [Guestfs.mount, bind_of_error hcheck] at hdev
    exact absurd hdev (not_actsOn_same (congrArg Session.log hstate))
  | ok u s1 =>
    rw [hcheck] at hstate
    obtain rfl : s1 = s := hstate
    cases hready : s1.guest.ensureReady with
    | error e =>
      rw [Guestfs.mount_unready hready] at hdev
      exact absurd hdev (not_actsOn_same rfl)
    | ok u' => exact Guestfs.mount_recorded hcheck hready hresolve hlookup

theorem mount_onDesignated_iff {device mountpoint : String}
    (hhonest : tools.Honest host s.guest) (hattached : Attached s.guest)
    (hexported : Exported host (stateOf (Guestfs.mount tools device mountpoint s)).guest) :
    (mount device mountpoint).OnDesignated tools host s ↔
      ((∃ dev, ActsOn host s (stateOf (Guestfs.mount tools device mountpoint s)) dev) →
        (mount device mountpoint).Sound tools host s) := by
  have hacts := mount_acts_forName hhonest device mountpoint
  constructor
  · rintro hall ⟨dev, hdev⟩
    obtain ⟨name, b, hname, hdesignates, -⟩ := hall dev hdev
    refine ⟨named_of_designates hname hdesignates, ?_⟩
    intro name' path dev' hresolve hlookup hsource
    have hrun := mount_of_actsOn hdev hresolve hlookup
    obtain ⟨name'', b', hname', hdesignates', hb'⟩ := hall dev' (by
      show ActsOn host s (stateOf (Guestfs.mount tools device mountpoint s)) dev'
      rw [hrun]
      exact remountAt_actsOn hsource)
    obtain rfl : name'' = name' := Except.ok.inj (hname'.symm.trans hresolve)
    exact ⟨b', hdesignates', hb'⟩
  · intro hsound dev hdev
    obtain ⟨hnamed, hrecorded⟩ := hsound ⟨dev, hdev⟩
    obtain ⟨name, hresolve, hdevice | ⟨path, hlookup, hsource⟩⟩ := hacts.on hdev
    · obtain ⟨b, hdesignates, hb⟩ := devicePartition_designated hattached
        (exported_of_devices hexported hacts.devices)
        (volume_of_named hhonest hnamed hresolve) hdevice
      exact ⟨name, b, hresolve, hdesignates, hb⟩
    · obtain ⟨b, hdesignates, hb⟩ := hrecorded name path dev hresolve hlookup hsource
      exact ⟨name, b, hresolve, hdesignates, hb⟩

end DeviceCall

end Guestkit
