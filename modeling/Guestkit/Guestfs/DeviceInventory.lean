import Guestkit.Guestfs.Handle
import Guestkit.Lib.HashMap
import Guestkit.Lib.Hoare
import Guestkit.Lib.Text

/-! The inventory of block devices: what `blkid` and `lsblk` say about each device, indexed by path,
UUID, PARTUUID and label, and the lookup of a device by the spec of an fstab entry. -/

namespace Guestkit.DeviceInventory

open Lib Lib.Text HashMap Option

inductive BlockType where
  | part
  | lvm
  | crypt
  | raid
  | disk
  | other (name : String)
  deriving DecidableEq

def BlockType.fromStr (s : String) : BlockType :=
  if s = "part" then .part
  else if s = "lvm" then .lvm
  else if s = "crypt" then .crypt
  else if s = "raid" then .raid
  else if s = "disk" then .disk
  else .other s

structure DevInfo where
  dev : String
  fstype : Option String := none
  uuid : Option String := none
  label : Option String := none
  partuuid : Option String := none
  blkType : BlockType := .part
  luksUuid : Option String := none
  deriving DecidableEq

namespace DevInfo

def isPartition (d : DevInfo) : Bool :=
  d.blkType = .part && d.partuuid.isSome

def preferPartuuid (d : DevInfo) (mountpoint : String) : Bool :=
  d.isPartition && ["/", "/boot", "/boot/efi", "/efi"].contains mountpoint

/-- PARTUUID for boot-critical mounts on real partitions, then the filesystem UUID, then what else
there is.  A preferred PARTUUID is there, since only partitions that have one prefer it. -/
def canonicalSpec (d : DevInfo) (mountpoint : String) : String :=
  if d.preferPartuuid mountpoint then "PARTUUID=" ++ d.partuuid.getD ""
  else
    match d.uuid with
    | some uuid => "UUID=" ++ uuid
    | none =>
      match d.partuuid with
      | some partuuid => "PARTUUID=" ++ partuuid
      | none =>
        match d.label with
        | some label => "LABEL=" ++ label
        | none => d.dev

end DevInfo

structure Inventory where
  byDev : HashMap String DevInfo
  byUuid : HashMap String String
  byPartuuid : HashMap String String
  byLabel : HashMap String String

structure Output where
  success : Bool
  stdout : String

/-- What the host answers about device paths: the canonical path, if the path exists, and the
outcome of `blkid -o export` and of `lsblk -no TYPE`. -/
structure DeviceHost where
  canonicalize : String → Option String
  blkid : String → Except String Output
  lsblk : String → Except String Output

variable (host : DeviceHost)

def canonicalizeDevPath (path : String) : Option String :=
  if startsWith "/dev/" path then host.canonicalize path else none

def blkidExport (dev : String) : Except Error (HashMap String String) :=
  match host.blkid dev with
  | .error e => .error (.commandFailed ("Failed to run blkid: " ++ e))
  | .ok output =>
    if output.success then .ok (collect ((lines output.stdout).filterMap (splitOnce '=')))
    else .ok ∅

def lsblkType (dev : String) : Except Error BlockType :=
  match host.lsblk dev with
  | .error e => .error (.commandFailed ("Failed to run lsblk: " ++ e))
  | .ok output =>
    if output.success then .ok (BlockType.fromStr (trim output.stdout))
    else .ok (.other "unknown")

def probeDevice (dev : String) : Except Error DevInfo := do
  let data ← blkidExport host dev
  let fstype := data.lookup "TYPE"
  let uuid := data.lookup "UUID"
  let blkType ← lsblkType host dev
  return {
    dev
    fstype
    uuid
    label := data.lookup "LABEL"
    partuuid := data.lookup "PARTUUID"
    blkType
    luksUuid := if fstype = some "crypto_LUKS" then uuid else none }

def probeDevices (devices : List String) : Except Error (List DevInfo) :=
  devices.mapM fun input => probeDevice host ((canonicalizeDevPath host input).getD input)

def indexBy (field : DevInfo → Option String) (probed : List DevInfo) : HashMap String String :=
  probed.foldl (fun m d => match field d with
    | some value => m.orInsert value d.dev
    | none => m) ∅

def labelCounts (probed : List DevInfo) : HashMap String Nat :=
  probed.foldl (fun m d => match d.label with
    | some label => m.insert label ((m.lookup label).getD 0 + 1)
    | none => m) ∅

/-- The indexes of the probed devices.  A label that several devices have is removed. -/
def indexDevices (order : HashOrder String Nat) (probed : List DevInfo) : Inventory where
  byDev := collect (probed.map fun d => (d.dev, d))
  byUuid := indexBy DevInfo.uuid probed
  byPartuuid := indexBy DevInfo.partuuid probed
  byLabel := (order.iter (labelCounts probed)).foldl
    (fun m (label, count) => if 1 < count then m.erase label else m)
    (indexBy DevInfo.label probed)

def buildInventory (order : HashOrder String Nat) (devices : List String) :
    Except Error Inventory := do
  let probed ← probeDevices host devices
  return indexDevices order probed

def findBySpec (inv : Inventory) (spec : String) : Option DevInfo :=
  let spec := trim spec
  match stripPrefix "UUID=" spec with
  | some uuid => (inv.byUuid.lookup uuid).bind fun dev => inv.byDev.lookup dev
  | none =>
    match stripPrefix "PARTUUID=" spec with
    | some partuuid => (inv.byPartuuid.lookup partuuid).bind fun dev => inv.byDev.lookup dev
    | none =>
      match stripPrefix "LABEL=" spec with
      | some label => (inv.byLabel.lookup label).bind fun dev => inv.byDev.lookup dev
      | none =>
        if startsWith "/dev/" spec then
          match inv.byDev.lookup spec with
          | some info => some info
          | none => (canonicalizeDevPath host spec).bind fun dev => inv.byDev.lookup dev
        else none

section Indexes

variable {host} {probed : List DevInfo} {d : DevInfo}

theorem probeDevice_dev {dev : String} (h : probeDevice host dev = .ok d) : d.dev = dev := by
  obtain ⟨data, -, h⟩ := except_ok_bind_iff.mp h
  obtain ⟨blkType, -, h⟩ := except_ok_bind_iff.mp h
  cases h
  rfl

/-- A path that is listed twice, also by two names, is probed with the same outcome. -/
def OnePerPath (probed : List DevInfo) : Prop :=
  ∀ d ∈ probed, ∀ e ∈ probed, d.dev = e.dev → d = e

theorem onePerPath_probeDevices {devices : List String}
    (h : probeDevices host devices = .ok probed) : OnePerPath probed := by
  have hself : ∀ d ∈ probed, probeDevice host d.dev = .ok d := by
    intro d hd
    obtain ⟨input, -, hprobe⟩ := exists_of_mem_mapM h hd
    rw [probeDevice_dev hprobe]
    exact hprobe
  intro d hd e he hdev
  have hprobe := hself d hd
  rw [hdev, hself e he, Except.ok.injEq] at hprobe
  exact hprobe.symm

theorem lookup_foldl_indexBy (field : DevInfo → Option String) (probed : List DevInfo)
    (m : HashMap String String) (value : String) :
    (probed.foldl (fun m d => match field d with
        | some value => m.orInsert value d.dev
        | none => m) m).lookup value =
      (m.lookup value).or ((probed.find? fun d => field d = some value).map DevInfo.dev) := by
  induction probed generalizing m with
  | nil => simp
  | cons d probed ih =>
    rw [List.foldl_cons, ih]
    cases hfield : field d with
    | none => simp [hfield]
    | some found =>
      rw [lookup_orInsert]
      by_cases hvalue : value = found
      · subst hvalue
        cases hlookup : m.lookup value <;> simp [hfield]
      · simp [hfield, hvalue, Ne.symm hvalue]

theorem lookup_indexBy (field : DevInfo → Option String) (probed : List DevInfo)
    (value : String) :
    (indexBy field probed).lookup value =
      (probed.find? fun d => field d = some value).map DevInfo.dev :=
  lookup_foldl_indexBy field probed ∅ value

theorem lookup_foldl_labelCounts (probed : List DevInfo) (m : HashMap String Nat)
    (label : String) :
    ((probed.foldl (fun m d => match d.label with
        | some label => m.insert label ((m.lookup label).getD 0 + 1)
        | none => m) m).lookup label).getD 0 =
      (m.lookup label).getD 0 + probed.countP fun d => d.label = some label := by
  induction probed generalizing m with
  | nil => simp
  | cons d probed ih =>
    rw [List.foldl_cons, ih]
    cases hlabel : d.label with
    | none => simp [hlabel]
    | some found =>
      rw [lookup_insert_eq]
      by_cases h : label = found
      · subst h
        simp [hlabel]
        omega
      · simp [hlabel, h, Ne.symm h]

theorem lookup_labelCounts (probed : List DevInfo) (label : String) :
    ((labelCounts probed).lookup label).getD 0 = probed.countP fun d => d.label = some label := by
  rw [labelCounts, lookup_foldl_labelCounts]
  simp

theorem lookup_foldl_erase (entries : List (String × Nat)) (m : HashMap String String)
    (label : String) :
    (entries.foldl (fun m (label, count) => if 1 < count then m.erase label else m) m).lookup
        label =
      if entries.any fun e => e.1 == label && decide (1 < e.2) then none else m.lookup label := by
  induction entries generalizing m with
  | nil => simp
  | cons e entries ih =>
    obtain ⟨other, count⟩ := e
    rw [List.foldl_cons, ih, List.any_cons]
    by_cases hcount : 1 < count
    · by_cases hlabel : other = label
      · subst hlabel
        simp [hcount]
      · rw [beq_false_of_ne hlabel, Bool.false_and, Bool.false_or]
        simp only [hcount, if_true, AList.lookup_erase_ne (Ne.symm hlabel)]
    · rw [decide_eq_false hcount, Bool.and_false, Bool.false_or]
      simp only [hcount, if_false]

theorem lookup_byLabel (order : HashOrder String Nat) (probed : List DevInfo) (label : String) :
    (indexDevices order probed).byLabel.lookup label =
      if 1 < probed.countP (fun d => d.label = some label) then none
      else (indexBy DevInfo.label probed).lookup label := by
  have hcount := lookup_labelCounts probed label
  have hiff : ((order.iter (labelCounts probed)).any
      fun e => e.1 == label && decide (1 < e.2)) = true ↔
        1 < probed.countP fun d => d.label = some label := by
    rw [List.any_eq_true]
    constructor
    · rintro ⟨⟨_, count⟩, hmem, hlt⟩
      rw [Bool.and_eq_true, beq_iff_eq, decide_eq_true_eq] at hlt
      obtain ⟨rfl, hlt⟩ := hlt
      rw [(order.mem_iter _).mp hmem, getD_some] at hcount
      omega
    · intro hlt
      cases hlookup : (labelCounts probed).lookup label with
      | none =>
        rw [hlookup, getD_none] at hcount
        omega
      | some count =>
        rw [hlookup, getD_some] at hcount
        refine ⟨(label, count), (order.mem_iter _).mpr hlookup, ?_⟩
        rw [Bool.and_eq_true, beq_iff_eq, decide_eq_true_eq]
        exact ⟨rfl, by omega⟩
  exact (lookup_foldl_erase _ _ _).trans (if_congr hiff rfl rfl)

theorem mem_of_lookup_byDev {order : HashOrder String Nat} {dev : String}
    (h : (indexDevices order probed).byDev.lookup dev = some d) : d ∈ probed ∧ d.dev = dev := by
  obtain ⟨e, he, heq⟩ := List.mem_map.mp (mem_of_lookup_collect h)
  cases heq
  exact ⟨he, rfl⟩

variable (honce : OnePerPath probed) (order : HashOrder String Nat)

include honce

theorem lookup_byDev (hd : d ∈ probed) :
    (indexDevices order probed).byDev.lookup d.dev = some d := by
  have hmem : (d.dev, d) ∈ probed.map fun d => (d.dev, d) := List.mem_map.mpr ⟨d, hd, rfl⟩
  refine lookup_collect_of_unique hmem fun e he hdev => ?_
  obtain ⟨d', hd', rfl⟩ := List.mem_map.mp he
  rw [honce d' hd' d hd hdev]

theorem bind_indexBy_iff (field : DevInfo → Option String) (value : String) :
    (((indexBy field probed).lookup value).bind fun dev =>
        (indexDevices order probed).byDev.lookup dev) = some d ↔
      (probed.find? fun e => field e = some value) = some d := by
  rw [lookup_indexBy]
  cases hfind : probed.find? fun e => field e = some value with
  | none => simp
  | some e =>
    rw [map_some, bind_some, lookup_byDev honce order (List.mem_of_find?_eq_some hfind)]

theorem bind_byLabel_iff (value : String) :
    (((indexDevices order probed).byLabel.lookup value).bind fun dev =>
        (indexDevices order probed).byDev.lookup dev) = some d ↔
      (probed.countP fun e => e.label = some value) = 1 ∧ d ∈ probed ∧ d.label = some value := by
  rw [lookup_byLabel]
  split_ifs with hcount
  · constructor
    · intro h
      cases h
    · rintro ⟨hone, -⟩
      omega
  · rw [bind_indexBy_iff honce order]
    constructor
    · intro hfind
      have hmem := List.mem_of_find?_eq_some hfind
      have hlabel : d.label = some value := by simpa using List.find?_some hfind
      have hpos : 0 < probed.countP fun e => e.label = some value :=
        List.countP_pos_iff.mpr ⟨d, hmem, by simpa using hlabel⟩
      exact ⟨by omega, hmem, hlabel⟩
    · rintro ⟨hone, hmem, hlabel⟩
      rw [List.countP_eq_length_filter, List.length_eq_one_iff] at hone
      obtain ⟨e, he⟩ := hone
      have hd : d ∈ probed.filter fun e => e.label = some value :=
        List.mem_filter.mpr ⟨hmem, by simpa using hlabel⟩
      rw [he, List.mem_singleton] at hd
      rw [← List.head?_filter, he, hd]
      rfl

end Indexes

section Specs

variable {host}

section

variable (inv : Inventory) (value : String)

theorem findBySpec_uuid :
    findBySpec host inv ("UUID=" ++ value) =
      (inv.byUuid.lookup (trimEnd value)).bind fun dev => inv.byDev.lookup dev := by
  rw [findBySpec, trim_append rfl rfl (by simp; rfl), stripPrefix_append]

theorem findBySpec_partuuid :
    findBySpec host inv ("PARTUUID=" ++ value) =
      (inv.byPartuuid.lookup (trimEnd value)).bind fun dev => inv.byDev.lookup dev := by
  have hother : stripPrefix "UUID=" ("PARTUUID=" ++ trimEnd value) = none := by
    simp [stripPrefix, startsWith]
  rw [findBySpec, trim_append rfl rfl (by simp; rfl), hother, stripPrefix_append]

theorem findBySpec_label :
    findBySpec host inv ("LABEL=" ++ value) =
      (inv.byLabel.lookup (trimEnd value)).bind fun dev => inv.byDev.lookup dev := by
  have huuid : stripPrefix "UUID=" ("LABEL=" ++ trimEnd value) = none := by
    simp [stripPrefix, startsWith]
  have hpartuuid : stripPrefix "PARTUUID=" ("LABEL=" ++ trimEnd value) = none := by
    simp [stripPrefix, startsWith]
  rw [findBySpec, trim_append rfl rfl (by simp; rfl), huuid, hpartuuid, stripPrefix_append]

end

/-- A path below `/dev` that is `dev`, or is no path of the inventory and leads to `dev`. -/
def Resolves (host : DeviceHost) (probed : List DevInfo) (path dev : String) : Prop :=
  startsWith "/dev/" path = true ∧
    (path = dev ∨ (∀ e ∈ probed, e.dev ≠ path) ∧ host.canonicalize path = some dev)

/-- A device without UUID, PARTUUID and label is found by its path if that resolves to it. -/
theorem findBySpec_dev_iff {probed : List DevInfo} {d : DevInfo} (honce : OnePerPath probed)
    (order : HashOrder String Nat) (hd : d ∈ probed) (huuid : d.uuid = none)
    (hpartuuid : d.partuuid = none) (hlabel : d.label = none) :
    findBySpec host (indexDevices order probed) d.dev = some d ↔
      Resolves host probed (trim d.dev) d.dev := by
  unfold findBySpec Resolves
  generalize trim d.dev = path
  dsimp only
  split
  · rename_i value hstrip
    rw [eq_append_of_stripPrefix hstrip]
    refine iff_of_false (fun h => ?_) (by simp [startsWith])
    have hvalue : d.uuid = some value := by
      simpa using List.find?_some ((bind_indexBy_iff honce order DevInfo.uuid value).mp h)
    rw [huuid] at hvalue
    cases hvalue
  · split
    · rename_i value hstrip
      rw [eq_append_of_stripPrefix hstrip]
      refine iff_of_false (fun h => ?_) (by simp [startsWith])
      have hvalue : d.partuuid = some value := by
        simpa using List.find?_some ((bind_indexBy_iff honce order DevInfo.partuuid value).mp h)
      rw [hpartuuid] at hvalue
      cases hvalue
    · split
      · rename_i value hstrip
        rw [eq_append_of_stripPrefix hstrip]
        refine iff_of_false (fun h => ?_) (by simp [startsWith])
        have hvalue := ((bind_byLabel_iff honce order value).mp h).2.2
        rw [hlabel] at hvalue
        cases hvalue
      · split_ifs with hstarts
        · rw [and_iff_right hstarts]
          cases hlookup : (indexDevices order probed).byDev.lookup path with
          | some info =>
            obtain ⟨hinfo, hpath⟩ := mem_of_lookup_byDev hlookup
            simp only [some.injEq]
            constructor
            · rintro rfl
              exact Or.inl hpath.symm
            · rintro (hdev | ⟨hnone, -⟩)
              · exact honce info hinfo d hd (hpath.trans hdev)
              · exact absurd hpath (hnone info hinfo)
          | none =>
            have hnone : ∀ e ∈ probed, e.dev ≠ path := by
              rintro e he rfl
              rw [lookup_byDev honce order he] at hlookup
              cases hlookup
            rw [canonicalizeDevPath, if_pos hstarts, bind_eq_some_iff]
            constructor
            · rintro ⟨dev, hcanonical, hfound⟩
              rw [(mem_of_lookup_byDev hfound).2]
              exact Or.inr ⟨hnone, hcanonical⟩
            · rintro (hdev | ⟨-, hcanonical⟩)
              · exact absurd hdev.symm (hnone d hd)
              · exact ⟨d.dev, hcanonical, lookup_byDev honce order hd⟩
        · exact iff_of_false (by simp) fun h => hstarts h.1

end Specs

end Guestkit.DeviceInventory
