import Guestkit.Guestfs.DeviceInventory

/-! The rewriting of fstab: each entry whose device the inventory knows gets the canonical spec of
the device.  The new spec leads back to the device only if the identifier it uses is one that the
inventory resolves to that device. -/

namespace Guestkit.Fstab

open Lib Lib.Text DeviceInventory

structure FstabEntry where
  spec : String
  mountpoint : String
  fstype : String
  options : String
  dump : String
  pass : String
  deriving DecidableEq

namespace FstabEntry

/-- The fields of a line that is neither empty nor a comment; the last two may be absent. -/
def parse (line : String) : Option FstabEntry :=
  let trimmed := trim line
  if trimmed = "" ∨ startsWith "#" trimmed then none
  else
    match splitWhitespace trimmed with
    | spec :: mountpoint :: fstype :: options :: rest =>
      some {
        spec
        mountpoint
        fstype
        options
        dump := rest[0]?.getD "0"
        pass := rest[1]?.getD "0" }
    | _ => none

def format (entry : FstabEntry) : String :=
  join "\t" [entry.spec, entry.mountpoint, entry.fstype, entry.options, entry.dump, entry.pass] ++
    "\n"

end FstabEntry

def removeMountOption (opts key : String) : String :=
  join "," ((((split ',' opts).map trim).filter fun s => s ≠ "").filter fun o =>
    o ≠ key ∧ startsWith (key ++ "=") o = false)

def setMountOption (opts key kv : String) : String :=
  let cleaned := removeMountOption opts key
  if cleaned = "" then kv else cleaned ++ "," ++ kv

variable (entry : FstabEntry) (d : DevInfo)

def newSpec : String :=
  let spec :=
    if entry.fstype = "swap" then
      match d.uuid with
      | some uuid => "UUID=" ++ uuid
      | none => d.canonicalSpec entry.mountpoint
    else d.canonicalSpec entry.mountpoint
  if entry.fstype = "btrfs" ∧ d.isPartition = false then
    match d.uuid with
    | some uuid => "UUID=" ++ uuid
    | none => spec
  else spec

/-- A btrfs entry is mounted by the subvolume that is configured for its mountpoint. -/
def newOptions (subvols : HashMap String String) (entry : FstabEntry) : String :=
  if entry.fstype = "btrfs" then
    match subvols.lookup entry.mountpoint with
    | some subvol =>
      removeMountOption (setMountOption entry.options "subvol" ("subvol=" ++ subvol)) "subvolid"
    | none => entry.options
  else entry.options

inductive Outcome where
  | kept (line : String)
  | rewritten (old new : FstabEntry)
  deriving DecidableEq

def Outcome.text : Outcome → String
  | .kept line => line ++ "\n"
  | .rewritten _ new => new.format

section Rewriting

variable (host : DeviceHost) (inv : Inventory) (subvols : HashMap String String)

/-- An entry without a device in the inventory is kept, with a warning or without. -/
def rewriteLine (line : String) : Outcome :=
  match FstabEntry.parse line with
  | none => .kept line
  | some entry =>
    match findBySpec host inv entry.spec with
    | none => .kept line
    | some d =>
      .rewritten entry
        { entry with spec := newSpec entry d, options := newOptions subvols entry }

def outcomes (content : String) : List Outcome :=
  (lines content).map (rewriteLine host inv subvols)

def rewriteFstab (content : String) : String :=
  String.join ((outcomes host inv subvols content).map Outcome.text)

/-- The file that is written has the text of every outcome. -/
theorem infix_rewriteFstab {content : String} {o : Outcome}
    (h : o ∈ outcomes host inv subvols content) :
    o.text.toList <:+: (rewriteFstab host inv subvols content).toList := by
  rw [rewriteFstab, String.toList_join, List.flatMap]
  exact List.infix_of_mem_flatten (List.mem_map_of_mem (List.mem_map_of_mem h))

end Rewriting

inductive Identifier where
  | uuid (value : String)
  | partuuid (value : String)
  | label (value : String)
  | path (dev : String)

def Identifier.text : Identifier → String
  | .uuid value => "UUID=" ++ value
  | .partuuid value => "PARTUUID=" ++ value
  | .label value => "LABEL=" ++ value
  | .path dev => dev

/-- By what a device is to be named in an entry: the PARTUUID of a partition with a boot mountpoint,
unless it is swap with a UUID; otherwise the first of UUID, PARTUUID and label that there is, and
the path if there is none. -/
def identifier : Identifier :=
  match d.partuuid, d.uuid, d.label with
  | some partuuid, none, _ => .partuuid partuuid
  | some partuuid, some uuid, _ =>
    if d.preferPartuuid entry.mountpoint ∧ entry.fstype ≠ "swap" then .partuuid partuuid
    else .uuid uuid
  | none, some uuid, _ => .uuid uuid
  | none, none, some label => .label label
  | none, none, none => .path d.dev

theorem canonicalSpec_eq (hswap : entry.fstype ≠ "swap") :
    d.canonicalSpec entry.mountpoint = (identifier entry d).text := by
  unfold DevInfo.canonicalSpec identifier
  cases hpartuuid : d.partuuid with
  | none =>
    have hprefer : d.preferPartuuid entry.mountpoint = false := by
      simp [DevInfo.preferPartuuid, DevInfo.isPartition, hpartuuid]
    cases d.uuid <;> cases d.label <;> simp [hprefer, Identifier.text]
  | some partuuid =>
    cases d.uuid <;> by_cases hprefer : d.preferPartuuid entry.mountpoint <;>
      simp [hprefer, hswap, Identifier.text]

theorem newSpec_eq :
    newSpec entry d = (identifier entry d).text := by
  by_cases hswap : entry.fstype = "swap"
  · have hbtrfs : ¬(entry.fstype = "btrfs" ∧ d.isPartition = false) := by simp [hswap]
    rw [newSpec, if_neg hbtrfs, if_pos hswap]
    cases huuid : d.uuid with
    | none =>
      unfold DevInfo.canonicalSpec identifier
      cases hpartuuid : d.partuuid with
      | none =>
        have hprefer : d.preferPartuuid entry.mountpoint = false := by
          simp [DevInfo.preferPartuuid, DevInfo.isPartition, hpartuuid]
        cases d.label <;> simp [huuid, hprefer, Identifier.text]
      | some partuuid =>
        by_cases hprefer : d.preferPartuuid entry.mountpoint <;>
          simp [huuid, hprefer, Identifier.text]
    | some uuid =>
      unfold identifier
      cases d.partuuid <;> simp [huuid, hswap, Identifier.text]
  · rw [newSpec, if_neg hswap, canonicalSpec_eq entry d hswap]
    split_ifs with hbtrfs
    · have hprefer : d.preferPartuuid entry.mountpoint = false := by
        simp [DevInfo.preferPartuuid, hbtrfs.2]
      cases huuid : d.uuid with
      | none => rfl
      | some uuid =>
        unfold identifier
        cases d.partuuid <;> simp [huuid, hprefer, Identifier.text]
    · rfl

/-- The identifier is one that leads to the device `d` and no other: no device probed before `d` has
the UUID or PARTUUID, no other device has the label, the path resolves to `d`; and it does not end
in white space. -/
def Identifier.Designates (host : DeviceHost) (probed : List DevInfo) (d : DevInfo) :
    Identifier → Prop
  | .uuid value => trimEnd value = value ∧ (probed.find? fun e => e.uuid = some value) = some d
  | .partuuid value =>
    trimEnd value = value ∧ (probed.find? fun e => e.partuuid = some value) = some d
  | .label value => trimEnd value = value ∧ (probed.countP fun e => e.label = some value) = 1
  | .path dev => Resolves host probed (trim dev) dev

section Designates

variable {host : DeviceHost} {probed : List DevInfo} {d : DevInfo}

theorem find?_trimEnd_iff {field : DevInfo → Option String} {value : String}
    (hfield : field d = some value) :
    (probed.find? fun e => field e = some (trimEnd value)) = some d ↔
      trimEnd value = value ∧ (probed.find? fun e => field e = some value) = some d := by
  constructor
  · intro hfind
    have htrim : field d = some (trimEnd value) := by simpa using List.find?_some hfind
    rw [hfield, Option.some.injEq] at htrim
    rw [← htrim] at hfind
    exact ⟨htrim.symm, hfind⟩
  · rintro ⟨htrim, hfind⟩
    rw [htrim]
    exact hfind

theorem identifier_cases (entry : FstabEntry) (d : DevInfo) :
    (∃ value, identifier entry d = .uuid value ∧ d.uuid = some value) ∨
    (∃ value, identifier entry d = .partuuid value ∧ d.partuuid = some value) ∨
    (∃ value, identifier entry d = .label value ∧ d.label = some value) ∨
    (identifier entry d = .path d.dev ∧ d.uuid = none ∧ d.partuuid = none ∧ d.label = none) := by
  unfold identifier
  by_cases hprefer : d.preferPartuuid entry.mountpoint ∧ entry.fstype ≠ "swap" <;>
    cases d.partuuid <;> cases d.uuid <;> cases d.label <;> simp [hprefer]

/-- The text of the identifier of a device of the inventory is looked up with that device as the
result if and only if the identifier designates it. -/
theorem findBySpec_identifier_iff (honce : OnePerPath probed) (order : HashOrder String Nat)
    (hd : d ∈ probed) (entry : FstabEntry) :
    findBySpec host (indexDevices order probed) (identifier entry d).text = some d ↔
      (identifier entry d).Designates host probed d := by
  rcases identifier_cases entry d with ⟨value, hid, hvalue⟩ | ⟨value, hid, hvalue⟩ |
    ⟨value, hid, hvalue⟩ | ⟨hid, huuid, hpartuuid, hlabel⟩
  · rw [hid, Identifier.text, findBySpec_uuid, Identifier.Designates]
    exact (bind_indexBy_iff honce order DevInfo.uuid _).trans (find?_trimEnd_iff hvalue)
  · rw [hid, Identifier.text, findBySpec_partuuid, Identifier.Designates]
    exact (bind_indexBy_iff honce order DevInfo.partuuid _).trans (find?_trimEnd_iff hvalue)
  · rw [hid, Identifier.text, findBySpec_label, Identifier.Designates,
      bind_byLabel_iff honce order]
    constructor
    · rintro ⟨hcount, -, hlabel⟩
      rw [hvalue, Option.some.injEq] at hlabel
      rw [← hlabel] at hcount
      exact ⟨hlabel.symm, hcount⟩
    · rintro ⟨htrim, hcount⟩
      rw [htrim]
      exact ⟨hcount, hd, hvalue⟩
  · rw [hid, Identifier.text, Identifier.Designates]
    exact findBySpec_dev_iff honce order hd huuid hpartuuid hlabel

theorem mem_of_findBySpec {order : HashOrder String Nat} {spec : String}
    (h : findBySpec host (indexDevices order probed) spec = some d) : d ∈ probed := by
  have hmem : ∀ dev, (indexDevices order probed).byDev.lookup dev = some d → d ∈ probed :=
    fun dev hdev => (mem_of_lookup_byDev hdev).1
  have hbind : ∀ found : Option String,
      (found.bind fun dev => (indexDevices order probed).byDev.lookup dev) = some d →
        d ∈ probed := by
    intro found hfound
    obtain ⟨dev, -, hdev⟩ := Option.bind_eq_some_iff.mp hfound
    exact hmem dev hdev
  unfold findBySpec at h
  dsimp only at h
  split at h
  · exact hbind _ h
  · split at h
    · exact hbind _ h
    · split at h
      · exact hbind _ h
      · split_ifs at h with hstarts
        split at h
        · rename_i info hinfo
          cases h
          exact hmem _ hinfo
        · exact hbind _ h

/-- An entry that is rewritten designates the same device afterwards if and only if the identifier
of the device leads to it in the inventory. -/
theorem rewritten_designates_iff {devices : List String} {order : HashOrder String Nat}
    {inv : Inventory} (hprobed : probeDevices host devices = .ok probed)
    (hinv : buildInventory host order devices = .ok inv) (subvols : HashMap String String)
    (content : String) (old new : FstabEntry)
    (hmem : .rewritten old new ∈ outcomes host inv subvols content) :
    findBySpec host inv new.spec = findBySpec host inv old.spec ↔
      ∀ d, findBySpec host inv old.spec = some d →
        (identifier old d).Designates host probed d := by
  rw [buildInventory, hprobed] at hinv
  cases hinv
  obtain ⟨line, -, hline⟩ := List.mem_map.mp hmem
  unfold rewriteLine at hline
  split at hline
  · cases hline
  · split at hline
    · cases hline
    · rename_i d hd
      cases hline
      have honce := onePerPath_probeDevices hprobed
      rw [hd, newSpec_eq, findBySpec_identifier_iff honce order (mem_of_findBySpec hd)]
      simp

def clonedHost : DeviceHost where
  canonicalize path := if path = "/dev/sda1" ∨ path = "/dev/sdb1" then some path else none
  blkid _ := .ok ⟨true, "UUID=0f3c\nTYPE=ext4\n"⟩
  lsblk _ := .ok ⟨true, "part\n"⟩

def clones : List DevInfo :=
  ["/dev/sda1", "/dev/sdb1"].map fun dev => { dev, fstype := some "ext4", uuid := some "0f3c" }

theorem clones_probed : probeDevices clonedHost ["/dev/sda1", "/dev/sdb1"] = .ok clones := by
  rfl

theorem clones_built : buildInventory clonedHost .newestFirst ["/dev/sda1", "/dev/sdb1"] =
    .ok (indexDevices .newestFirst clones) := by
  rfl

def dataEntry (spec : String) : FstabEntry where
  spec := spec
  mountpoint := "/data"
  fstype := "ext4"
  options := "defaults"
  dump := "0"
  pass := "2"

theorem clone_rewritten (dev : String) (hdev : dev = "/dev/sda1" ∨ dev = "/dev/sdb1") :
    .rewritten (dataEntry dev) (dataEntry "UUID=0f3c") ∈
      outcomes clonedHost (indexDevices .newestFirst clones) ∅
        (dev ++ " /data ext4 defaults 0 2\n") := by
  rcases hdev with rfl | rfl <;> decide

theorem clone_designates_original :
    probeDevices clonedHost ["/dev/sda1", "/dev/sdb1"] = .ok clones ∧
    buildInventory clonedHost .newestFirst ["/dev/sda1", "/dev/sdb1"] =
      .ok (indexDevices .newestFirst clones) ∧
    .rewritten (dataEntry "/dev/sdb1") (dataEntry "UUID=0f3c") ∈
      outcomes clonedHost (indexDevices .newestFirst clones) ∅
        "/dev/sdb1 /data ext4 defaults 0 2\n" ∧
    (findBySpec clonedHost (indexDevices .newestFirst clones) "/dev/sdb1").map DevInfo.dev =
      some "/dev/sdb1" ∧
    (findBySpec clonedHost (indexDevices .newestFirst clones) "UUID=0f3c").map DevInfo.dev =
      some "/dev/sda1" :=
  ⟨clones_probed, clones_built, clone_rewritten "/dev/sdb1" (Or.inr rfl), by decide, by decide⟩

theorem original_designates_iff :
    findBySpec clonedHost (indexDevices .newestFirst clones) "UUID=0f3c" =
        findBySpec clonedHost (indexDevices .newestFirst clones) "/dev/sda1" ↔
      ∀ d, findBySpec clonedHost (indexDevices .newestFirst clones) "/dev/sda1" = some d →
        (identifier (dataEntry "/dev/sda1") d).Designates clonedHost clones d :=
  rewritten_designates_iff clones_probed clones_built ∅ "/dev/sda1 /data ext4 defaults 0 2\n"
    (dataEntry "/dev/sda1") (dataEntry "UUID=0f3c") (clone_rewritten "/dev/sda1" (Or.inl rfl))

end Designates

end Guestkit.Fstab
