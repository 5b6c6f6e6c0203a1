import Guestkit.Evidence.Storage
import Guestkit.Migration.Repair
import Guestkit.Plan.FileEdit

/-! What the plan makes of an fstab that names disks by their device. -/

namespace Guestkit.Migration.FstabUuid

open Lib.Text Plan Plan.FileEdit Evidence List

variable (uuids : List PartitionUuid)

/-- An entry of a disk with a UUID, and its fields after the device. -/
structure DiskEntry where
  uuid : PartitionUuid
  mountpoint : String
  fstype : String
  rest : List String

def diskEntry (line : String) : Option DiskEntry :=
  if trim line = "" ∨ startsWith "#" (trim line) then none
  else
    match splitWhitespace (trim line) with
    | device :: mountpoint :: fstype :: rest =>
      if !startsWith "/dev/sd" device && !startsWith "/dev/vd" device then none
      else (uuids.find? (·.device == device)).map (⟨·, mountpoint, fstype, rest⟩)
    | _ => none

def DiskEntry.kept (entry : DiskEntry) : List String :=
  [entry.mountpoint, entry.fstype, entry.rest.headD "defaults"]

def DiskEntry.change (entry : DiskEntry) : FileChange where
  line := 0
  before := join " " (entry.uuid.device :: entry.kept)
  after := join " " (("UUID=" ++ entry.uuid.uuid) :: entry.kept)

def changes (fstab : String) : List FileChange :=
  (lines fstab).filterMap fun line => (diskEntry uuids line).map DiskEntry.change

/-- What should become of a line. -/
structure Converted (l l' : Line) : Prop where
  disk : ∀ entry ∈ diskEntry uuids l.text, l'.fresh = false ∧ splitWhitespace l'.text =
    ("UUID=" ++ entry.uuid.uuid) :: entry.mountpoint :: entry.fstype :: entry.rest
  other : diskEntry uuids l.text = none → l' = l

/-- A line of a disk is its four fields with one blank after each, and the others end in a line
feed. -/
structure Plain (l : Line) : Prop where
  disk : ∀ entry ∈ diskEntry uuids l.text, trim l.text = trim entry.change.before ∧
    ∀ c ∈ entry.uuid.uuid.toList, isWhitespace c = false
  other : diskEntry uuids l.text = none → l.ending = "\n"

variable {uuids}

theorem fstabChanges_eq {ev : EvidenceSnapshot} {fstab crypttab : String}
    (hev : ev.storage = collectStorageLive fstab crypttab uuids) :
    fstabChanges ev = changes uuids fstab := by
  unfold fstabChanges
  rw [hev]
  unfold collectStorageLive mountLines fieldsOf
  simp only [filterMap_map, filterMap_filterMap, filterMap_filter]
  refine filterMap_congr fun line _ => ?_
  simp only [diskEntry, Function.comp, decide_not, Bool.not_eq_true', decide_eq_false_iff_not]
  by_cases hskip : trim line = "" ∨ startsWith "#" (trim line)
  · simp [hskip]
  · rw [if_pos hskip, if_neg hskip]
    rcases splitWhitespace (trim line) with _ | ⟨device, _ | ⟨mountpoint, _ | ⟨fstype, rest⟩⟩⟩
    case cons.cons.cons =>
      simp only [Option.bind]
      split
      · rfl
      · cases hfind : uuids.find? (·.device == device) with
        | none => rfl
        | some uuid =>
          have hdevice : uuid.device = device := by simpa using List.find?_some hfind
          simp only [Option.map_some, DiskEntry.change, DiskEntry.kept, join, hdevice,
            String.append_assoc]
          rfl
    all_goals rfl

theorem mem_changes {fstab : String} {c : FileChange} :
    c ∈ changes uuids fstab ↔
      ∃ line ∈ lines fstab, ∃ entry, diskEntry uuids line = some entry ∧ entry.change = c := by
  simp [changes]

variable {l : Line} {line : String} {entry : DiskEntry}

theorem of_diskEntry (h : diskEntry uuids line = some entry) :
    splitWhitespace line = entry.uuid.device :: entry.mountpoint :: entry.fstype :: entry.rest ∧
      ∀ u, entry.uuid.device ≠ "UUID=" ++ u := by
  unfold diskEntry at h
  rw [splitWhitespace_trim] at h
  split_ifs at h
  split at h
  · next device _ _ _ hfields =>
    split_ifs at h with hdev
    obtain ⟨uuid, hfind, rfl⟩ := Option.map_eq_some_iff.mp h
    have hdevice : uuid.device = device := by simpa using List.find?_some hfind
    rw [hdevice]
    refine ⟨hfields, fun u heq => hdev ?_⟩
    simp [heq, startsWith, List.isPrefixOf]
  · cases h

theorem fields_joined {first : String} (hfirst : IsWord first)
    (h : diskEntry uuids line = some entry) :
    splitWhitespace (trim (join " " (first :: entry.kept))) = first :: entry.kept := by
  have hwords : ∀ w ∈ _ :: entry.mountpoint :: entry.fstype :: entry.rest, IsWord w := fun w hw =>
    isWord_of_mem ((of_diskEntry h).1 ▸ hw)
  obtain ⟨-, hmountpoint, hfstype, hrest⟩ := by simpa only [forall_mem_cons] using hwords
  have hoptions : IsWord (entry.rest.headD "defaults") := by
    cases hoption : entry.rest with
    | nil => exact ⟨by decide, by decide⟩
    | cons o rest => exact hrest o (by simp [hoption])
  rw [splitWhitespace_trim]
  exact splitWhitespace_join (c := ' ') (by decide)
    (by simpa [DiskEntry.kept, hfirst, hmountpoint, hfstype] using hoptions)

theorem fields_of_before (h : diskEntry uuids line = some entry)
    (hl : trim l.text = trim entry.change.before) :
    splitWhitespace l.text = entry.uuid.device :: entry.kept := by
  rw [← splitWhitespace_trim, hl]
  exact fields_joined (isWord_of_mem (s := line) (by rw [(of_diskEntry h).1]; simp)) h

theorem isWord_uuid {u : String} : IsWord ("UUID=" ++ u) ↔
    ∀ c ∈ u.toList, isWhitespace c = false := by
  have hname : ∀ c ∈ "UUID=".toList, isWhitespace c = false := by decide
  simp only [IsWord, String.toList_append, mem_append, or_imp, forall_and]
  exact ⟨fun h => h.2.2, fun h => ⟨by simp [← String.toList_inj], hname, h⟩⟩

def convert (uuids : List PartitionUuid) (l : Line) : Line :=
  match diskEntry uuids l.text with
  | some entry => ⟨entry.change.after, "\n", false⟩
  | none => l

theorem foldl_replace (pre rest : List Line)
    (hpre : ∀ x ∈ pre, ∀ l ∈ rest, ∀ entry, diskEntry uuids l.text = some entry →
      trim x.text ≠ trim entry.change.before)
    (hrest : ∀ l ∈ rest, Plain uuids l) :
    ((rest.map Line.text).filterMap fun line =>
      (diskEntry uuids line).map DiskEntry.change).foldl replace
      (pre ++ rest) = pre ++ rest.map (convert uuids) := by
  induction rest generalizing pre with
  | nil => rfl
  | cons l rest ih =>
    obtain ⟨hl, hrest⟩ := forall_mem_cons.mp hrest
    have hnext : ∀ l' ∈ rest, ∀ entry, diskEntry uuids l'.text = some entry →
        trim (convert uuids l).text ≠ trim entry.change.before := by
      intro l' hl' entry hentry heq
      obtain ⟨hbefore, -⟩ := (hrest l' hl').disk entry hentry
      cases hdisk : diskEntry uuids l.text with
      | none =>
        simp only [convert, hdisk] at heq
        have hsame : diskEntry uuids l.text = diskEntry uuids l'.text := by
          unfold diskEntry
          rw [heq, hbefore]
        rw [hdisk, hentry] at hsame
        cases hsame
      | some own =>
        simp only [convert, hdisk] at heq
        have hafter := fields_joined (isWord_uuid.mpr (hl.disk own hdisk).2) hdisk
        have hbefore := fields_of_before (l := ⟨_, "", true⟩) hentry heq
        rw [← splitWhitespace_trim] at hbefore
        exact (of_diskEntry hentry).2 _ (cons_eq_cons.mp (hbefore.symm.trans hafter)).1
    have hpre' : ∀ x ∈ pre ++ [convert uuids l], ∀ l ∈ rest, ∀ entry,
        diskEntry uuids l.text = some entry → trim x.text ≠ trim entry.change.before := by
      intro x hx l' hl'
      obtain hx | hx := mem_append.mp hx
      · exact hpre x hx l' (.tail _ hl')
      · exact mem_singleton.mp hx ▸ hnext l' hl'
    have hrun := ih _ hpre' hrest
    rw [append_assoc, append_assoc] at hrun
    refine Eq.trans ?_ hrun
    cases hdisk : diskEntry uuids l.text with
    | none => simp [convert, hdisk]
    | some own =>
      have hstep := replace_append rest
        (fun x hx => hpre x hx l (.head _) own hdisk) (hl.disk own hdisk).1
      simp [convert, hdisk, hstep]

/-- The written text is that of the lines with each as it should be. -/
structure ConvertsWell (uuids : List PartitionUuid) (fstab : String) (cs : List FileChange) :
    Prop where
  converted : List.Forall₂ (Converted uuids) (rawLines fstab) (cs.foldl replace (rawLines fstab))
  rest : edited fstab cs =
    String.join ((cs.foldl replace (rawLines fstab)).map fun l => l.text ++ l.ending)

theorem plain_of_converted {fstab : String} {i : Nat} {l' : Line}
    (hi : (rawLines fstab)[i]? = some l) (hl : l.fresh = true)
    (hi' : ((changes uuids fstab).foldl replace (rawLines fstab))[i]? = some l')
    (hconv : Converted uuids l l') (hend : l'.ending = "\n") : Plain uuids l := by
  refine ⟨fun entry hdisk => ?_, fun hnone => hconv.other hnone ▸ hend⟩
  obtain ⟨hreplaced, hfields⟩ := hconv.disk entry hdisk
  refine ⟨?_, isWord_uuid.mp (isWord_of_mem (s := l'.text) (by simp [hfields]))⟩
  by_contra hne
  have hkept : ((changes uuids fstab).foldl replace (rawLines fstab))[i]? = some l := by
    refine foldl_replace_of_ne (fun c hc => ?_) hi
    obtain ⟨line, -, own, hown, rfl⟩ := mem_changes.mp hc
    refine ⟨rfl, fun heq => hne ?_⟩
    obtain ⟨hdevice, hrest⟩ := cons_eq_cons.mp
      ((of_diskEntry hdisk).1.symm.trans (fields_of_before hown heq))
    have hkept : entry.kept = own.kept := by
      simp only [DiskEntry.kept, List.cons.injEq] at hrest ⊢
      simp [hrest.1, hrest.2.1, hrest.2.2]
    rw [heq, DiskEntry.change, DiskEntry.change, hdevice, hkept]
  rw [hi', Option.some_inj] at hkept
  rw [hkept, hl] at hreplaced
  cases hreplaced

theorem converted_convert (hl : Plain uuids l) :
    Converted uuids l (convert uuids l) ∧ (convert uuids l).ending = "\n" := by
  unfold convert
  cases hdisk : diskEntry uuids l.text with
  | none => exact ⟨⟨by simp [hdisk], fun _ => rfl⟩, hl.other hdisk⟩
  | some own =>
    obtain ⟨hbefore, huuid⟩ := hl.disk own hdisk
    refine ⟨⟨fun entry hentry => ⟨rfl, ?_⟩, by simp [hdisk]⟩, rfl⟩
    obtain rfl : own = entry := Option.some_inj.mp (hdisk.symm.trans hentry)
    have hfields := (of_diskEntry hdisk).1.symm.trans (fields_of_before hdisk hbefore)
    rw [← splitWhitespace_trim, (cons_eq_cons.mp hfields).2]
    exact fields_joined (isWord_uuid.mpr huuid) hdisk

theorem convertsWell_changes_iff {fstab : String} (hcs : changes uuids fstab ≠ []) :
    ConvertsWell uuids fstab (changes uuids fstab) ↔ ∀ l ∈ rawLines fstab, Plain uuids l := by
  constructor
  · rintro ⟨hconv, hrest⟩ l hl
    obtain ⟨-, hend⟩ := (edited_eq_iff _ _).mp hrest
    obtain ⟨i, hi, rfl⟩ := getElem_of_mem hl
    have hi' : i < ((changes uuids fstab).foldl replace (rawLines fstab)).length :=
      hconv.length_eq ▸ hi
    exact plain_of_converted (List.getElem?_eq_getElem hi) (fresh_rawLines hl)
      (List.getElem?_eq_getElem hi') (hconv.get hi hi') (hend _ (getElem_mem hi'))
  · intro hplain
    have hne : rawLines fstab ≠ [] := by
      intro hnil
      rw [changes, ← map_rawLines, hnil] at hcs
      exact hcs rfl
    have hrun : (changes uuids fstab).foldl replace (rawLines fstab) =
        (rawLines fstab).map (convert uuids) := by
      have hrun := foldl_replace [] (rawLines fstab) (by simp) hplain
      rwa [map_rawLines] at hrun
    refine ⟨?_, (edited_eq_iff _ _).mpr ⟨hne, ?_⟩⟩
    · rw [hrun, forall₂_map_right_iff, forall₂_same]
      exact fun l hl => (converted_convert (hplain l hl)).1
    · rw [hrun, forall_mem_map]
      exact fun l hl => (converted_convert (hplain l hl)).2

/-- The operation converts the table as it should exactly if there is nothing to convert, or every
line is plain. -/
theorem convertsWell_iff (ev : EvidenceSnapshot) (fstab crypttab : String)
    (uuids : List PartitionUuid) :
    (∀ o ∈ (fstabUuid { ev with storage := collectStorageLive fstab crypttab uuids }).1, ∀ fe,
        o.opType = .fileEdit fe → ConvertsWell uuids fstab fe.changes) ↔
      (∀ line ∈ lines fstab, diskEntry uuids line = none) ∨
        ∀ l ∈ rawLines fstab, Plain uuids l := by
  have hnone : (∀ line ∈ lines fstab, diskEntry uuids line = none) ↔ changes uuids fstab = [] := by
    simp [changes]
  rw [fstabUuid, fstabChanges_eq rfl, hnone]
  by_cases hcs : changes uuids fstab = []
  · simp [hcs]
  · rw [← convertsWell_changes_iff hcs]
    split
    · next hnil => exact absurd hnil hcs
    · simp [op, hcs]

def unknownRoot : String := "UUID=9-9 / ext4 defaults\n/dev/sda1 /srv ext4 defaults 0 2\n"

def srvUuid : List PartitionUuid := [⟨"/dev/sda1", "1-2"⟩]

def unknownRootGuest : EvidenceSnapshot where
  os := { osType := "linux" }
  storage := collectStorageLive unknownRoot "" srvUuid

/-- The UUID that is not known makes the planner convert the table; a line with six fields is not
found again, and stays. -/
theorem six_fields_left :
    let boot := analyzeBootability .ascii unknownRootGuest .kvm
    let plan := (fromAssessment .ascii ⟨fun _ => false, none, 0⟩
      (assessMigration .ascii unknownRootGuest boot "kvm" false "") unknownRootGuest {}).1
    ∃ o ∈ plan.operations, ∃ fe, o.opType = .fileEdit fe ∧
      ¬ ConvertsWell srvUuid unknownRoot fe.changes := by
  intro boot plan
  have hhint : .convertFstabToUuid ∈ repairHints .ascii
      (assessMigration .ascii unknownRootGuest boot "kvm" false "") := by
    decide +kernel
  have hlinux : isWindows .ascii unknownRootGuest = false := by decide +kernel
  have hcs : fstabChanges unknownRootGuest = changes srvUuid unknownRoot :=
    fstabChanges_eq rfl
  have hedit : ∃ o ∈ (linuxOps .ascii unknownRootGuest .convertFstabToUuid).1, refused o = false ∧
      o.opType = .fileEdit ⟨"/etc/fstab", true, changes srvUuid unknownRoot⟩ := by
    simp only [linuxOps, fstabUuid, hcs]
    exact ⟨_, mem_singleton_self _, rfl, rfl⟩
  obtain ⟨o, ho, hkept, hop⟩ := hedit
  refine ⟨o, mem_operations.mpr ⟨_, hhint, by rwa [hlinux], hkept⟩, _, hop, fun h => ?_⟩
  have hsecond := h.converted.get (i := 1) (by decide +kernel) (by decide +kernel)
  exact absurd (hsecond.disk _ (Option.some_get (by decide +kernel)).symm).1 (by decide +kernel)

end Guestkit.Migration.FstabUuid
