import Guestkit.Guestfs.Drives
import Guestkit.Guestfs.MountSpec

/-! Which block devices of the host the calls act on.  The names of a drive and of its partitions
lead to the first drive only.  A name with the shape of a logical volume is used as a path of the
host, and the operations on partitions take the first drive whatever they are called with. -/

namespace Guestkit

open Lib Lib.Fs Lib.Text

variable {ε : Type}

/-- What a block device is to a handle: a partition of an image, where 0 is all of it, or a logical
volume that was activated from one. -/
inductive Backing where
  | disk (image : String) (partition : Nat)
  | volume (id : Nat)
  deriving DecidableEq

/-- The block devices of the host: what those of the handle are to it, and which one is mounted at a
path. -/
structure Host (ε : Type) where
  backing : String → Option Backing
  source : Machine ε → Path → Option String

def drivePatterns (i : Nat) : List String :=
  if i < 26 then
    let letter := String.singleton (Char.ofNat ('a'.toNat + i))
    ["/dev/sd" ++ letter, "/dev/vd" ++ letter, "/dev/hd" ++ letter, "/dev/xvd" ++ letter,
      "/dev/nvme" ++ toString i ++ "n1p"]
  else []

def numberAfter (pattern name : String) : Option Nat :=
  match stripPrefix pattern name with
  | none => none
  | some number =>
    if number = "" then some 0
    else
      match parseUnsigned 10 (2 ^ 32) number with
      | .ok n => some n
      | .error _ => none

/-- What a name stands for: a drive of the handle or a partition of it, or a logical volume. -/
inductive Designates (host : Host ε) (g : Guestfs) (name : String) : Backing → Prop
  | drive {i n : Nat} {drive : DriveConfig} {pattern : String} :
      Guestfs.isLogicalVolume name = false → g.drives[i]? = some drive →
      pattern ∈ drivePatterns i → numberAfter pattern name = some n →
      Designates host g name (.disk drive.path n)
  | volume {id : Nat} : Guestfs.isLogicalVolume name = true →
      host.backing name = some (.volume id) → Designates host g name (.volume id)

structure Attached (g : Guestfs) : Prop where
  nbd : ∀ nbd, g.nbdDevice = some nbd →
    ∃ drive, g.drives.head? = some drive ∧ nbd.image = some drive.path
  loop : ∀ loop, g.loopDevice = some loop →
    ∃ drive, g.drives.head? = some drive ∧ loop.image = some drive.path

structure Exported (host : Host ε) (g : Guestfs) : Prop where
  nbd : ∀ nbd image, g.nbdDevice = some nbd → nbd.image = some image →
    host.backing nbd.devicePath = some (.disk image 0) ∧
      ∀ n, 0 < n → host.backing (nbd.partitionPath n) = some (.disk image n)
  loop : ∀ loop image path, g.loopDevice = some loop → loop.image = some image →
    (loop.devicePath = some path → host.backing path = some (.disk image 0)) ∧
      ∀ n, 0 < n → loop.partitionPath n = some path → host.backing path = some (.disk image n)

/-- What the programs of the host tell a handle about devices. -/
structure Tools.Honest (tools : Tools ε) (host : Host ε) (g : Guestfs) : Prop where
  findmnt : ∀ m target device, Guestfs.hostSourceForMountpoint tools m target = some device →
    host.source m target = some device
  remount : ∀ m target, host.source (tools.run (.remount target) m).2 target = host.source m target
  lvs : ∀ m volumes, Guestfs.lvs tools g m = .ok volumes → ∀ path ∈ volumes,
    Guestfs.isLogicalVolume path = true → ∃ id, host.backing path = some (.volume id)

structure Tools.Connects (tools : Tools ε) : Prop where
  nbd : ∀ drive m nbd, (tools.connectNbd drive m).1 = .ok nbd → nbd.image = some drive.path
  loop : ∀ drive m loop, (tools.connectLoop drive m).1 = .ok loop → loop.image = some drive.path

theorem drivePatterns_zero : drivePatterns 0 = Guestfs.devicePatterns := by decide +kernel

namespace Guestfs

variable {host : Host ε} {g : Guestfs} {name dev : String} {n : Nat}

theorem numberAfter_of_parse {patterns : List String}
    (h : parseWithPatterns name patterns = .ok n) :
    ∃ pattern ∈ patterns, numberAfter pattern name = some n := by
  induction patterns with
  | nil => cases h
  | cons pattern patterns ih =>
    rw [parseWithPatterns] at h
    cases hstrip : stripPrefix pattern name with
    | none =>
      rw [hstrip] at h
      obtain ⟨p, hp, hnumber⟩ := ih h
      exact ⟨p, List.mem_cons_of_mem pattern hp, hnumber⟩
    | some number =>
      rw [hstrip] at h
      refine ⟨pattern, List.mem_cons_self, ?_⟩
      rw [numberAfter, hstrip]
      dsimp only at h ⊢
      split at h
      · rename_i hempty
        rw [if_pos hempty]
        cases h
        rfl
      · rename_i hempty
        rw [if_neg hempty]
        cases hparse : parseUnsigned 10 (2 ^ 32) number with
        | error e =>
          rw [hparse] at h
          cases h
        | ok m =>
          rw [hparse] at h
          cases h
          rfl

theorem blockDevice_backing (hattached : Attached g) (hexported : Exported host g)
    (h : g.blockDevice n = .ok dev) :
    ∃ drive, g.drives.head? = some drive ∧ host.backing dev = some (.disk drive.path n) := by
  unfold blockDevice at h
  split at h
  · next loop hloop =>
    obtain ⟨drive, hdrive, himage⟩ := hattached.loop loop hloop
    refine ⟨drive, hdrive, ?_⟩
    obtain ⟨hwhole, hpart⟩ := hexported.loop loop drive.path dev hloop himage
    split at h
    · next hpath =>
      cases h
      split at hpath
      · next hn => exact hpart n hn hpath
      · obtain rfl : n = 0 := by omega
        exact hwhole hpath
    · cases h
  · split at h
    · next nbd hnbd =>
      obtain ⟨drive, hdrive, himage⟩ := hattached.nbd nbd hnbd
      refine ⟨drive, hdrive, ?_⟩
      obtain ⟨hwhole, hpart⟩ := hexported.nbd nbd drive.path hnbd himage
      cases h
      split
      · next hn => exact hpart n hn
      · obtain rfl : n = 0 := by omega
        exact hwhole
    · cases h

theorem devicePartition_designated (hattached : Attached g) (hexported : Exported host g)
    (hvolume : isLogicalVolume name = true → ∃ id, host.backing name = some (.volume id))
    (h : g.devicePartition name = .ok dev) :
    ∃ b, Designates host g name b ∧ host.backing dev = some b := by
  unfold devicePartition at h
  split at h
  · rename_i hname
    cases h
    obtain ⟨id, hid⟩ := hvolume hname
    exact ⟨_, .volume hname hid, hid⟩
  · rename_i hname
    rw [Bool.not_eq_true] at hname
    obtain ⟨n, hparse, h⟩ := except_ok_bind_iff.mp h
    obtain ⟨drive, hdrive, hbacking⟩ := blockDevice_backing hattached hexported h
    have hpatterns : parseWithPatterns name devicePatterns = .ok n := by
      unfold parseDeviceName at hparse
      split at hparse
      · cases hparse
      · rwa [if_neg (by simp [hname])] at hparse
    obtain ⟨pattern, hpattern, hnumber⟩ := numberAfter_of_parse hpatterns
    refine ⟨_, .drive hname (i := 0) ?_ (drivePatterns_zero ▸ hpattern) hnumber, hbacking⟩
    rwa [← List.head?_eq_getElem?]

def hasTag (spec : String) : Bool :=
  ["UUID=", "LABEL=", "PARTUUID="].any fun tag => startsWith tag spec

section Tags

variable {tools : Tools ε} {m : Machine ε} {mountable : String}

theorem resolveMountable_plain (h : hasTag (trim mountable) = false) :
    resolveMountable tools g m mountable = .ok (trim mountable) := by
  simp only [hasTag, List.any_cons, List.any_nil, Bool.or_false, Bool.or_eq_false_iff] at h
  simp [resolveMountable, stripPrefix, h]

theorem partition_not_volume (n : Nat) :
    isLogicalVolume ("/dev/sda" ++ toString n) = false := by
  have hlist : ("/dev/sda" ++ toString n).toList = "/dev/sda".toList ++ (toString n).toList :=
    String.toList_append
  have hcount : count '/' ("/dev/sda" ++ toString n) = 2 := by
    rw [count, hlist, List.count_append,
      List.count_eq_zero.mpr (slash_not_mem_toString n)]
    decide
  have hmapper : startsWith "/dev/mapper/" ("/dev/sda" ++ toString n) = false := by
    rw [startsWith, hlist]
    rfl
  rw [isLogicalVolume, hmapper, hcount]
  simp

theorem listPartitions_name {partitions : List String} (h : g.listPartitions = .ok partitions) :
    ∀ p ∈ partitions, ∃ n : Nat, p = "/dev/sda" ++ toString n := by
  obtain ⟨-, -, h⟩ := except_ok_bind_iff.mp h
  split at h
  · cases h
    intro p hp
    obtain ⟨n, -, rfl⟩ := List.mem_map.mp hp
    exact ⟨n, rfl⟩
  · cases h

theorem blkidCandidates_listed {candidates : List (String × HashMap String String)}
    (h : blkidCandidates tools g m = .ok candidates) {c : String × HashMap String String}
    (hc : c ∈ candidates) :
    (∃ n : Nat, c.1 = "/dev/sda" ++ toString n) ∨
      ∃ volumes, lvs tools g m = .ok volumes ∧ c.1 ∈ volumes := by
  obtain ⟨partitions, hpartitions, h⟩ := except_ok_bind_iff.mp h
  cases h
  obtain ⟨dev, hdev, hsome⟩ := List.mem_filterMap.mp hc
  have hname : c.1 = dev := by
    split at hsome
    · cases hsome
      rfl
    · cases hsome
  rw [hname]
  rcases List.mem_append.mp hdev with hmem | hmem
  · exact .inl (listPartitions_name hpartitions dev hmem)
  · split at hmem
    · next hlvs => exact .inr ⟨_, hlvs, hmem⟩
    · cases hmem

theorem findfs_listed {tag value : String} {test : String → Bool}
    (h : findfs tools g m tag value test = .ok name) :
    (∃ n : Nat, name = "/dev/sda" ++ toString n) ∨
      ∃ volumes, lvs tools g m = .ok volumes ∧ name ∈ volumes := by
  obtain ⟨-, -, h⟩ := except_ok_bind_iff.mp h
  obtain ⟨candidates, hcandidates, h⟩ := except_ok_bind_iff.mp h
  split at h
  · rename_i hfind
    cases h
    exact blkidCandidates_listed hcandidates (List.mem_of_find?_eq_some hfind)
  · cases h

theorem resolveMountable_tag (hhonest : tools.Honest host g)
    (h : hasTag (trim mountable) = true)
    (hresolve : resolveMountable tools g m mountable = .ok name)
    (hname : isLogicalVolume name = true) : ∃ id, host.backing name = some (.volume id) := by
  have hfindfs : ∃ tag value test, findfs tools g m tag value test = .ok name := by
    unfold resolveMountable at hresolve
    dsimp only at hresolve
    split at hresolve
    · exact ⟨_, _, _, hresolve⟩
    · rename_i huuid
      split at hresolve
      · exact ⟨_, _, _, hresolve⟩
      · rename_i hlabel
        split at hresolve
        · exact ⟨_, _, _, hresolve⟩
        · rename_i hpartuuid
          simp [stripPrefix] at huuid hlabel hpartuuid
          simp [hasTag, huuid, hlabel, hpartuuid] at h
  obtain ⟨tag, value, test, hfind⟩ := hfindfs
  rcases findfs_listed hfind with ⟨n, rfl⟩ | ⟨volumes, hvolumes, hmem⟩
  · rw [partition_not_volume] at hname
    cases hname
  · exact hhonest.lvs m volumes hvolumes name hmem hname

end Tags

end Guestfs

end Guestkit
