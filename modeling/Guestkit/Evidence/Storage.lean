import Guestkit.Evidence.Snapshot
import Guestkit.Lib.Text

/-! The fstab and the crypttab, as the collector reads them in a running guest and the builder on a
disk image. -/

namespace Guestkit.Evidence

open Lib.Text

def fieldsOf (content : String) : List (List String) :=
  (((lines content).map trim).filter fun line => ¬(line = "" ∨ startsWith "#" line)).map
    splitWhitespace

/-- The entries with a device, a mount point and a type, and the fields after these. -/
def mountLines (content : String) : List (String × String × String × List String) :=
  (fieldsOf content).filterMap fun
    | device :: mountpoint :: fstype :: rest => some (device, mountpoint, fstype, rest)
    | _ => none

def inspectFstab (content : String) : List (String × String × String) :=
  (mountLines content).map fun (device, mountpoint, fstype, _) => (device, mountpoint, fstype)

def mentions (device mountpoint line : String) : Bool :=
  contains line device && contains line mountpoint

def findOptions (content device mountpoint : String) : String :=
  (((lines content).find? (mentions device mountpoint)).bind
    fun l => (splitWhitespace l)[3]?).getD ""

def volumeLines (content : String) : List (String × String × List String) :=
  (fieldsOf content).filterMap fun
    | name :: device :: rest => some (name, device, rest)
    | _ => none

/-- `keyfile` stands for a third field that is missing. -/
def parseCrypttab (keyfile content : String) : List CrypttabEntry :=
  (volumeLines content).map fun (name, device, rest) =>
    { name, device, keyfile := rest.headD keyfile }

section Collect

variable (fstab crypttab : String) (partitionUuids : List PartitionUuid)

def collectStorageLive : StorageEvidence where
  fstabEntries := (mountLines fstab).map fun (device, mountpoint, fstype, rest) =>
    { device, mountpoint, fstype, options := rest.headD "defaults" }
  crypttabEntries := parseCrypttab "-" crypttab
  partitionUuids

def collectStorage : StorageEvidence where
  fstabEntries := (inspectFstab fstab).map fun (device, mountpoint, fstype) =>
    { device, mountpoint, fstype, options := findOptions fstab device mountpoint }
  crypttabEntries := parseCrypttab "none" crypttab
  partitionUuids

end Collect

/-- Both read the same entries, and the options of each are the fourth field of its line. -/
structure SameTables (fstab crypttab : String) : Prop where
  mounts : ∀ uuids, (collectStorage fstab crypttab uuids).fstabEntries =
    (collectStorageLive fstab crypttab uuids).fstabEntries
  options : ∀ uuids, List.Forall₂ (fun fields entry => ∀ o ∈ fields.2.2.2.head?, entry.options = o)
    (mountLines fstab) (collectStorage fstab crypttab uuids).fstabEntries
  volumes : ∀ uuids, (collectStorage fstab crypttab uuids).crypttabEntries =
    (collectStorageLive fstab crypttab uuids).crypttabEntries

/-- The line has the fields of an entry and is no comment. -/
def IsEntry (line : String) (entry : String × String × String × List String) : Prop :=
  startsWith "#" (trim line) = false ∧
    splitWhitespace line = entry.1 :: entry.2.1 :: entry.2.2.1 :: entry.2.2.2

/-- The entry has a fourth field and no earlier line mentions its device and its mount point; or the
fourth field of the first one that does is what the entry has. -/
def OptionsFirst (pre : List String) (entry : String × String × String × List String) : Prop :=
  (entry.2.2.2 ≠ [] ∧ ∀ l ∈ pre, mentions entry.1 entry.2.1 l = false) ∨
    ∃ before first after, pre = before ++ first :: after ∧
      (∀ l ∈ before, mentions entry.1 entry.2.1 l = false) ∧
      mentions entry.1 entry.2.1 first = true ∧
      (splitWhitespace first)[3]? = some (entry.2.2.2.headD "defaults")

def FindsOptions (fstab : String) : Prop :=
  ∀ pre line post, lines fstab = pre ++ line :: post → ∀ entry, IsEntry line entry →
    OptionsFirst pre entry

theorem mem_mountLines {content : String} {entry : String × String × String × List String} :
    entry ∈ mountLines content ↔ ∃ line ∈ lines content, IsEntry line entry := by
  simp only [mountLines, fieldsOf, List.mem_filterMap, List.mem_map, List.mem_filter,
    decide_eq_true_eq, IsEntry]
  constructor
  · rintro ⟨_, ⟨_, ⟨⟨line, hline, rfl⟩, hnot⟩, rfl⟩, hfields⟩
    rw [splitWhitespace_trim] at hfields
    refine ⟨line, hline, by simpa using fun h => hnot (Or.inr h), ?_⟩
    split at hfields
    · next heq =>
      cases hfields
      exact heq
    · cases hfields
  · rintro ⟨line, hline, hcomment, hfields⟩
    refine ⟨_, ⟨_, ⟨⟨line, hline, rfl⟩, ?_⟩, rfl⟩, ?_⟩
    · rintro (hblank | hcomment')
      · rw [← splitWhitespace_trim, hblank] at hfields
        cases hfields
      · simp [hcomment] at hcomment'
    · rw [splitWhitespace_trim, hfields]

theorem findOptions_eq_iff {fstab line : String} {pre post : List String}
    {entry : String × String × String × List String} (hlines : lines fstab = pre ++ line :: post)
    (hentry : IsEntry line entry) :
    findOptions fstab entry.1 entry.2.1 = entry.2.2.2.headD "defaults" ↔
      OptionsFirst pre entry := by
  obtain ⟨device, mountpoint, fstype, rest⟩ := entry
  have hfields : splitWhitespace line = device :: mountpoint :: fstype :: rest := hentry.2
  have hown : mentions device mountpoint line = true := by
    rw [mentions, contains_of_mem_splitWhitespace (by simp [hfields]),
      contains_of_mem_splitWhitespace (by simp [hfields]), Bool.and_self]
  have hnonempty : rest.headD "defaults" ≠ "" := by
    cases rest with
    | nil => decide
    | cons o rest => exact (isWord_of_mem (s := line) (by simp [hfields])).1
  have hfirst : (∃ before first after, pre = before ++ first :: after ∧
      (∀ l ∈ before, mentions device mountpoint l = false) ∧
      mentions device mountpoint first = true ∧
      (splitWhitespace first)[3]? = some (rest.headD "defaults")) ↔
      ∃ first, pre.find? (mentions device mountpoint) = some first ∧
        (splitWhitespace first)[3]? = some (rest.headD "defaults") := by
    simp only [List.find?_eq_some_iff_append, Bool.not_eq_true']
    grind
  unfold findOptions OptionsFirst
  rw [hlines, List.find?_append, hfirst]
  cases hfind : pre.find? (mentions device mountpoint) with
  | none =>
    have hnone : ∀ l ∈ pre, mentions device mountpoint l = false := by simpa using hfind
    rw [Option.none_or, List.find?_cons_of_pos hown, Option.bind_some, hfields]
    cases rest with
    | nil => simp
    | cons o rest => simpa using hnone
  | some first =>
    have hsome := List.find?_some hfind
    have hmem := List.mem_of_find?_eq_some hfind
    simp only [Option.some_or, Option.bind_some, Option.some.injEq, exists_eq_left']
    cases (splitWhitespace first)[3]? <;> grind

theorem parseCrypttab_eq_iff (crypttab : String) :
    parseCrypttab "none" crypttab = parseCrypttab "-" crypttab ↔
      ∀ entry ∈ volumeLines crypttab, entry.2.2 ≠ [] := by
  unfold parseCrypttab
  rw [List.map_inj_left]
  refine forall₂_congr fun entry _ => ?_
  obtain ⟨name, device, rest⟩ := entry
  cases rest <;> simp

theorem mounts_eq_iff {fstab crypttab : String} {uuids : List PartitionUuid} :
    (collectStorage fstab crypttab uuids).fstabEntries =
      (collectStorageLive fstab crypttab uuids).fstabEntries ↔ FindsOptions fstab := by
  have hentries : (collectStorage fstab crypttab uuids).fstabEntries =
      (collectStorageLive fstab crypttab uuids).fstabEntries ↔ ∀ entry ∈ mountLines fstab,
        findOptions fstab entry.1 entry.2.1 = entry.2.2.2.headD "defaults" := by
    unfold collectStorage collectStorageLive inspectFstab
    rw [List.map_map, List.map_inj_left]
    refine forall₂_congr fun entry _ => ?_
    simp
  rw [hentries]
  constructor
  · intro h pre line post hlines entry hentry
    have hmem : line ∈ lines fstab := hlines ▸ by simp
    exact (findOptions_eq_iff hlines hentry).mp (h entry (mem_mountLines.mpr ⟨line, hmem, hentry⟩))
  · intro h entry hmem
    obtain ⟨line, hline, hentry⟩ := mem_mountLines.mp hmem
    obtain ⟨pre, post, hlines⟩ := List.append_of_mem hline
    exact (findOptions_eq_iff hlines hentry).mpr (h pre line post hlines entry hentry)

theorem options_of_finds {fstab crypttab : String} {uuids : List PartitionUuid}
    (h : FindsOptions fstab) :
    List.Forall₂ (fun fields entry => ∀ o ∈ fields.2.2.2.head?, entry.options = o)
      (mountLines fstab) (collectStorage fstab crypttab uuids).fstabEntries := by
  rw [mounts_eq_iff.mpr h]
  unfold collectStorageLive
  rw [List.forall₂_map_right_iff, List.forall₂_same]
  rintro ⟨device, mountpoint, fstype, rest⟩ _ o ho
  cases rest with
  | nil => cases ho
  | cons first rest => exact Option.some.inj ho

theorem sameTables_iff (fstab crypttab : String) :
    SameTables fstab crypttab ↔
      FindsOptions fstab ∧ ∀ entry ∈ volumeLines crypttab, entry.2.2 ≠ [] := by
  constructor
  · intro h
    exact ⟨mounts_eq_iff.mp (h.mounts []), (parseCrypttab_eq_iff crypttab).mp (h.volumes [])⟩
  · rintro ⟨hfinds, hvolumes⟩
    exact ⟨fun _ => mounts_eq_iff.mpr hfinds, fun _ => options_of_finds hfinds,
      fun _ => (parseCrypttab_eq_iff crypttab).mpr hvolumes⟩

/-- The root is mentioned in every line with the same device, since `/` is in all mount points. -/
theorem options_of_other_line : ¬ SameTables
    "/dev/sda1 /srv btrfs ro,subvol=srv\n/dev/sda1 / btrfs rw,subvol=root\n" "" := by
  intro h
  have hmounts := congrArg (List.map FstabEntry.options) (h.mounts [])
  revert hmounts
  decide +kernel

end Guestkit.Evidence
