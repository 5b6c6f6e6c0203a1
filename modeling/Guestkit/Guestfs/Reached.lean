import Guestkit.Guestfs.DeviceActs

/-! The handles that can be reached: their devices are connected to the first drive that was added,
so the calls act on what their names stand for under the same conditions in all of them. -/

namespace Guestkit

open Lib Lib.Fs Guestfs

variable {ε : Type}

/-- The sessions that the calls lead to.  What else is done with a handle leaves its drives as they
are and connects them to no other device. -/
inductive Reached (tools : Tools ε) : Session ε → Prop
  | new (m : Machine ε) : Reached tools { guest := {}, machine := m }
  | addDrive {s : Session ε} (path : String) (readonly : Bool) (format : Option String) :
      Reached tools s → Reached tools (stateOf (addDriveOpts tools path readonly format s))
  | launch {s : Session ε} : Reached tools s → Reached tools (stateOf (launch tools s))
  | call {s : Session ε} (call : DeviceCall) : Reached tools s →
      Reached tools (stateOf (call.run tools s))
  | other {s s' : Session ε} : Reached tools s → s'.guest.drives = s.guest.drives →
      (s'.guest.nbdDevice = s.guest.nbdDevice ∨ s'.guest.nbdDevice = none) →
      (s'.guest.loopDevice = s.guest.loopDevice ∨ s'.guest.loopDevice = none) → Reached tools s'

section Reached

variable {tools : Tools ε} {s : Session ε}

theorem attached_of_devices {g g' : Guestfs} (h : Attached g) (hdevices : g'.devices = g.devices) :
    Attached g' := by
  obtain ⟨hdrives, hrest⟩ := Prod.mk.inj hdevices
  obtain ⟨hnbd, hloop⟩ := Prod.mk.inj hrest
  exact ⟨fun nbd h' => hdrives ▸ h.nbd nbd (hnbd.symm.trans h'),
    fun loop h' => hdrives ▸ h.loop loop (hloop.symm.trans h')⟩

def KeepsFirst (drive : DriveConfig) (s s' : Session ε) : Prop :=
  s.guest.drives.head? = some drive → Attached s.guest →
    s'.guest.drives.head? = some drive ∧ Attached s'.guest

namespace KeepsFirst

variable {drive : DriveConfig}

theorem refl (s : Session ε) : KeepsFirst drive s s := fun hdrive h => ⟨hdrive, h⟩

instance : IsTrans (Session ε) (KeepsFirst drive) := by
  refine ⟨fun s s' s'' h h' hdrive hattached => ?_⟩
  obtain ⟨hdrive', hattached'⟩ := h hdrive hattached
  exact h' hdrive' hattached'

end KeepsFirst

namespace Guestfs

variable {drive : DriveConfig}

theorem outside_keepsFirst {α : Type} (f : Machine ε → Except Error α × Machine ε) :
    Always (KeepsFirst drive) (outside f) := by
  intro s
  rcases outside_cases f s with ⟨e, -, hrun⟩ | ⟨a, -, hrun⟩ <;> rw [hrun] <;>
    exact fun hdrive h => ⟨hdrive, h⟩

theorem openLoop_keepsFirst (hconnects : tools.Connects) :
    Always (KeepsFirst drive) (openLoop tools drive) := by
  intro s
  refine stateOf_bind IsTrans.trans (outside_keepsFirst _ s) fun loop s1 hloop => ?_
  have himage := hconnects.loop drive s.machine loop (outside_ok hloop)
  cases loop.devicePath with
  | none => exact KeepsFirst.refl s1
  | some path =>
    dsimp only
    rw [get_bind]
    cases tools.readPartitions path s1.machine with
    | error e => exact KeepsFirst.refl s1
    | ok partitions =>
      intro hdrive h
      refine ⟨hdrive, h.nbd, ?_⟩
      rintro loop' ⟨⟩
      exact ⟨drive, hdrive, himage⟩

theorem openNbd_keepsFirst (hconnects : tools.Connects) :
    Always (KeepsFirst drive) (openNbd tools drive) := by
  intro s
  refine stateOf_bind IsTrans.trans (outside_keepsFirst _ s) fun nbd s1 hnbd => ?_
  have himage := hconnects.nbd drive s.machine nbd (outside_ok hnbd)
  rw [get_bind]
  cases tools.readPartitions nbd.devicePath s1.machine with
  | error e => exact KeepsFirst.refl s1
  | ok partitions =>
    intro hdrive h
    refine ⟨hdrive, ?_, h.loop⟩
    rintro nbd' ⟨⟩
    exact ⟨drive, hdrive, himage⟩

theorem openDrive_keepsFirst (hconnects : tools.Connects) :
    Always (KeepsFirst drive) (openDrive tools drive) := by
  refine Always.get_bind fun s => ?_
  split
  · exact openLoop_keepsFirst hconnects
  · exact openNbd_keepsFirst hconnects

theorem setState_keepsFirst (state : GuestfsState) :
    Always (KeepsFirst drive) (setState state : GuestM ε Unit) :=
  fun _ hdrive h => ⟨hdrive, h.nbd, h.loop⟩

theorem launch_attached (hconnects : tools.Connects) (h : Attached s.guest) :
    Attached (stateOf (launch tools s)).guest := by
  unfold launch
  rw [get_bind]
  split
  · exact h
  · cases hdrives : s.guest.drives with
    | nil => exact ⟨h.nbd, h.loop⟩
    | cons drive drives =>
      refine (Always.bind (setState_keepsFirst _) (fun _ => ?_) s (by rw [hdrives]; rfl) h).2
      refine Always.tryCatch ?_ fun e => ?_
      · exact (openDrive_keepsFirst hconnects).bind fun _ => setState_keepsFirst _
      · exact (setState_keepsFirst _).bind fun _ => KeepsFirst.refl

theorem addDriveOpts_attached (path : String) (readonly : Bool) (format : Option String)
    (h : Attached s.guest) :
    Attached (stateOf (addDriveOpts tools path readonly format s)).guest := by
  have happend : ∀ (drives : List DriveConfig) (drive : DriveConfig) {first : DriveConfig},
      drives.head? = some first → (drives ++ [drive]).head? = some first := by
    intro drives drive first hfirst
    cases drives with
    | nil => cases hfirst
    | cons d drives => exact hfirst
  unfold addDriveOpts
  rw [get_bind]
  split
  · exact h
  · rcases outside_cases (tools.maybeExtractOva path) s with ⟨e, -, hrun⟩ | ⟨resolved, -, hrun⟩
    · rw [bind_of_error hrun]
      exact h
    · rw [bind_of_ok hrun]
      constructor
      · intro nbd hnbd
        obtain ⟨drive, hdrive, himage⟩ := h.nbd nbd hnbd
        exact ⟨drive, happend _ _ hdrive, himage⟩
      · intro loop hloop
        obtain ⟨drive, hdrive, himage⟩ := h.loop loop hloop
        exact ⟨drive, happend _ _ hdrive, himage⟩

end Guestfs

theorem DeviceCall.run_attached (hconnects : tools.Connects) (call : DeviceCall)
    (h : Attached s.guest) : Attached (stateOf (call.run tools s)).guest := by
  cases hpart : call.isPart with
  | true =>
    obtain ⟨k, hrun, hk⟩ := exists_onNbd tools hpart
    rw [hrun]
    exact (withNbd_cases hk hconnects h).1
  | false =>
    have hdevices : (stateOf (call.run tools s)).guest.devices = s.guest.devices := by
      let host : Host ε := ⟨fun _ => none, fun _ _ => none⟩
      cases call with
      | mountRo device mountpoint => exact (mountRo_acts tools host device mountpoint s).devices
      | mount device mountpoint =>
        have hacts : Acts host (fun _ => True) s
            (stateOf (Guestfs.mount tools device mountpoint s)) :=
          mount_acts mountpoint (fun _ _ _ _ => remountAt_acts (fun _ _ => trivial)
            (fun _ _ => trivial) (fun _ _ => trivial) fun _ _ => trivial) fun _ _ _ _ => trivial
        exact hacts.devices
      | _ => cases hpart
    exact attached_of_devices h hdevices

theorem Reached.attached (hconnects : tools.Connects) (h : Reached tools s) : Attached s.guest := by
  induction h with
  | new m => exact ⟨fun nbd h => (by cases h), fun loop h => (by cases h)⟩
  | addDrive path readonly format _ ih => exact addDriveOpts_attached path readonly format ih
  | launch _ ih => exact launch_attached hconnects ih
  | call call _ ih => exact call.run_attached hconnects ih
  | other _ hdrives hnbd hloop ih =>
    constructor
    · intro nbd h
      rw [hdrives]
      rcases hnbd with hnbd | hnbd
      · exact ih.nbd nbd (hnbd.symm.trans h)
      · rw [hnbd] at h
        cases h
    · intro loop h
      rw [hdrives]
      rcases hloop with hloop | hloop
      · exact ih.loop loop (hloop.symm.trans h)
      · rw [hloop] at h
        cases h

end Reached

namespace DeviceCall

variable {tools : Tools ε} {host : Host ε} {s : Session ε}

/-- A call acts on what its name stands for just if it fails before it acts, or its name
is sound. -/
theorem onDesignated_iff (hconnects : tools.Connects) (hreached : Reached tools s)
    (hhonest : tools.Honest host s.guest) (call : DeviceCall)
    (hexported : Exported host (stateOf (call.run tools s)).guest) :
    call.OnDesignated tools host s ↔
      ((∃ dev, ActsOn host s (stateOf (call.run tools s)) dev) → call.Sound tools host s) := by
  have hattached := hreached.attached hconnects
  cases call with
  | mountRo device mountpoint => exact mountRo_onDesignated_iff hhonest hattached hexported
  | mount device mountpoint => exact mount_onDesignated_iff hhonest hattached hexported
  | partInit | partAdd | partDel | partResize =>
    exact part_onDesignated_iff rfl hconnects hattached hexported

def nbdTools : Tools Unit where
  needSudo := false
  pid := 7
  fetchAdd u := (0, u)
  exec _ m := (.ok { success := true }, m)
  query _ _ := .error "not found"
  vfsType _ _ _ := .ok "ext4"
  maybeExtractOva path m := (.ok path, m)
  shouldUseLoopDevice _ _ := false
  connectLoop _ m := (.error (.notFound "loop"), m)
  connectNbd drive m := (.ok ⟨"/dev/nbd0", some drive.path⟩, m)
  readPartitions _ _ := .ok [1, 2]

def nbdHost : Host Unit where
  backing path :=
    match Text.stripPrefix "/dev/nbd0p" path with
    | some number => some (.disk "root.qcow2" (Nat.ofDigitChars 10 number.toList 0))
    | none => if path = "/dev/nbd0" then some (.disk "root.qcow2" 0) else none
  source _ _ := none

def twoDrives : Session Unit :=
  stateOf (launch nbdTools
    (stateOf (addDriveOpts nbdTools "data.qcow2" false none
      (stateOf (addDriveOpts nbdTools "root.qcow2" false none
        { guest := {}, machine := ⟨(), Tree.empty⟩ })))))

theorem nbdTools_connects : nbdTools.Connects where
  nbd drive m nbd h := by
    cases h
    rfl
  loop drive m loop h := by cases h

theorem twoDrives_reached : Reached nbdTools twoDrives :=
  .launch (.addDrive _ _ _ (.addDrive _ _ _ (.new _)))

theorem nbdTools_honest (g : Guestfs) : nbdTools.Honest nbdHost g where
  findmnt m target device h := by cases h
  remount m target := rfl
  lvs m volumes h := by
    obtain ⟨-, -, h⟩ := except_ok_bind_iff.mp h
    cases h

theorem nbdHost_partition (n : Nat) :
    nbdHost.backing ("/dev/nbd0" ++ "p" ++ toString n) = some (.disk "root.qcow2" n) := by
  have hpath : "/dev/nbd0" ++ "p" = "/dev/nbd0p" := by decide
  have hnumber : Nat.ofDigitChars 10 (toString n).toList 0 = n := by
    rw [Text.toList_toString]
    exact Nat.ofDigitChars_toDigits (by decide) (by decide)
  rw [hpath]
  simp only [nbdHost, Text.stripPrefix_append, hnumber]

theorem nbdHost_exported {g : Guestfs}
    (hnbd : g.nbdDevice = some ⟨"/dev/nbd0", some "root.qcow2"⟩) (hloop : g.loopDevice = none) :
    Exported nbdHost g where
  nbd nbd image h himage := by
    obtain rfl := Option.some.inj (hnbd.symm.trans h)
    cases himage
    exact ⟨by decide +kernel, fun n _ => nbdHost_partition n⟩
  loop loop image path h := by
    rw [hloop] at h
    cases h

/-- A partition table for the second drive is written to the first. -/
theorem twoDrives_partInit_first :
    Reached nbdTools twoDrives ∧
      ¬(partInit "/dev/sdb" "gpt").OnDesignated nbdTools nbdHost twoDrives := by
  refine ⟨twoDrives_reached, fun hall => ?_⟩
  have hacts : (newEvents twoDrives
      (stateOf ((partInit "/dev/sdb" "gpt").run nbdTools twoDrives))).any
      (fun e => e.device nbdHost = some "/dev/nbd0") = true := by decide +kernel
  obtain ⟨e, he, hdevice⟩ := List.any_eq_true.mp hacts
  obtain ⟨name, b, rfl, hdesignates, hb⟩ := hall "/dev/nbd0" ⟨e, he, of_decide_eq_true hdevice⟩
  have hbacking : nbdHost.backing "/dev/nbd0" = some (.disk "root.qcow2" 0) := by decide +kernel
  rw [hbacking] at hb
  have hdrives : twoDrives.guest.drives =
      [⟨"root.qcow2", false, none⟩, ⟨"data.qcow2", false, none⟩] := by decide +kernel
  cases hdesignates with
  | volume hname => exact absurd hname (by decide +kernel)
  | @drive i n drive pattern hname hdrive hpattern hnumber =>
    obtain ⟨hpath, -⟩ := Backing.disk.inj (Option.some.inj hb.symm)
    rw [hdrives] at hdrive
    match i with
    | 0 =>
      have hnone : ∀ pattern ∈ drivePatterns 0, numberAfter pattern "/dev/sdb" = none := by
        decide +kernel
      rw [show (partInit "/dev/sdb" "gpt").device = "/dev/sdb" from rfl,
        hnone pattern hpattern] at hnumber
      cases hnumber
    | 1 =>
      cases hdrive
      exact absurd hpath (by decide)
    | i + 2 => cases hdrive

theorem twoDrives_partInit_sda :
    (partInit "/dev/sda" "gpt").OnDesignated nbdTools nbdHost twoDrives := by
  refine (onDesignated_iff nbdTools_connects twoDrives_reached (nbdTools_honest _) _
    (nbdHost_exported (by decide +kernel) (by decide +kernel))).mpr fun _ => ?_
  refine ⟨⟨"root.qcow2", false, none⟩, by decide +kernel, ?_⟩
  have hpattern : "/dev/sda" ∈ drivePatterns 0 := by decide +kernel
  exact .drive (by decide +kernel) (by decide +kernel) hpattern (by decide +kernel)

end DeviceCall

end Guestkit
