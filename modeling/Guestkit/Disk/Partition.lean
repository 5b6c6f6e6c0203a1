import Guestkit.Lib.Attempt
import Guestkit.Lib.Text

/-! Partition tables: what `parse` reads of the content of a disk image, with each slice and each
sum of the code, and the entries that a table holds on the disk. -/

namespace Guestkit.Disk

open Lib Lib.Text ByteString Attempt List

inductive DiskError where
  | io (message : String)
  | detection (message : String)

variable (image : ByteString)

/-- Reads `n` bytes, at least one, at `offset`.  The host does not seek past the range of a signed
64-bit number. -/
def readExactAt (offset n : Nat) : Attempt DiskError ByteString :=
  if 2 ^ 63 ≤ offset then fail (.io "Invalid argument (os error 22)")
  else if offset + n ≤ image.length then .ok ((image.drop offset).take n)
  else
    fail (.io
      s!"Failed to read {n} bytes at offset {offset}, only got {image.length - offset} bytes")

inductive PartitionType where
  | mbr
  | gpt
  | unknown
  deriving DecidableEq

structure Partition where
  number : Nat
  startLba : Nat
  sizeSectors : Nat
  typeId : Nat := 0
  bootable : Bool := false
  typeGuid : Option String := none
  deriving DecidableEq

structure PartitionTable where
  partitions : List Partition
  tableType : PartitionType

def hexByte (b : UInt8) : List Char :=
  [Nat.digitChar (b.toNat / 16), Nat.digitChar (b.toNat % 16)]

def hexGroups (groups : List (List Nat)) (b : ByteString) : String :=
  join "-" (groups.map fun indices => String.ofList (indices.flatMap fun i => hexByte (b.getD i 0)))

/-- A GUID stores its first three groups with the last byte first. -/
def guidText (b : ByteString) : String :=
  hexGroups [[3, 2, 1, 0], [5, 4], [7, 6], [8, 9], [10, 11, 12, 13, 14, 15]] b

/-- The signature at the end of the first sector, and the type 0xEE in one of its entries. -/
def isGpt (mbr : ByteString) : Bool :=
  512 ≤ mbr.length && mbr.getD 510 0 == 0x55 && mbr.getD 511 0 == 0xAA &&
    (List.range 4).any fun i => mbr.getD (446 + i * 16 + 4) 0 == 0xEE

def isMbr (mbr : ByteString) : Bool :=
  512 ≤ mbr.length && mbr.getD 510 0 == 0x55 && mbr.getD 511 0 == 0xAA

def mbrEntry (mbr : ByteString) (i : Nat) : Attempt DiskError (Option Partition) := do
  let offset := 446 + i * 16
  let entry ← slice mbr offset (offset + 16)
  let typeId ← leAt 1 entry 4
  if typeId = 0 then return none
  else
    let flag ← leAt 1 entry 0
    let startLba ← leAt 4 entry 8
    let sizeSectors ← leAt 4 entry 12
    return some { number := i + 1, startLba, sizeSectors, typeId, bootable := flag = 0x80 }

def parseMbr (mbr : ByteString) : Attempt DiskError PartitionTable := do
  let entries ← (List.range 4).mapM (mbrEntry mbr)
  return { partitions := entries.reduceOption, tableType := .mbr }

/-- The partition in the bytes of entry `i`.  An entry without a type GUID, without extent or with
an end before its start is passed over. -/
def gptPartition (i : Nat) (entry : ByteString) : Attempt DiskError (Option Partition) := do
  if (entry.take 16).all (· == 0) then return none
  else
    let guid ← slice entry 0 16
    let extent ← slice entry 32 entry.length
    let startLba ← leAt 8 extent 0
    let endLba ← leAt 8 extent 8
    if startLba = 0 ∧ endLba = 0 then return none
    else if endLba < startLba then return none
    else
      let sizeSectors ← u64 (endLba - startLba + 1)
      return some
        { number := i + 1, startLba, sizeSectors, typeGuid := some (guidText guid) }

def gptEntry (entriesOffset entrySize i : Nat) :
    Attempt DiskError (Option Partition) := do
  let skip ← u64 (i * entrySize)
  let offset ← u64 (entriesOffset + skip)
  let entry ← readExactAt image offset entrySize
  gptPartition i entry

def parseGpt : Attempt DiskError PartitionTable := do
  let header ← readExactAt image 512 512
  let signature ← slice header 0 8
  if signature ≠ ascii "EFI PART" then fail (.detection "Invalid GPT signature")
  else
    let fields ← slice header 72 header.length
    let entriesLba ← leAt 8 fields 0
    let numEntries ← leAt 4 fields 8
    let entrySize ← leAt 4 fields 12
    if ¬(48 ≤ entrySize ∧ entrySize ≤ 8192) then
      fail (.detection s!"Invalid GPT entry size: {entrySize}")
    else
      let entriesOffset ← u64 (entriesLba * 512)
      let entries ← (List.range (min numEntries 128)).mapM
        (gptEntry image entriesOffset entrySize)
      return { partitions := entries.reduceOption, tableType := .gpt }

def parse : Attempt DiskError PartitionTable := do
  let mbr ← readExactAt image 0 512
  if isGpt mbr then parseGpt image
  else if isMbr mbr then parseMbr mbr
  else return { partitions := [], tableType := .unknown }

structure GptHeader where
  entriesLba : Nat
  numEntries : Nat
  entrySize : Nat
  deriving DecidableEq

/-- The header in the second sector, if it has the signature and entries of a permitted size. -/
def gptHeader : Option GptHeader :=
  if 1024 ≤ image.length ∧ (image.drop 512).take 8 = ascii "EFI PART" ∧
      48 ≤ word 4 image 596 ∧ word 4 image 596 ≤ 8192 then
    some ⟨word 8 image 584, word 4 image 592, word 4 image 596⟩
  else none

namespace GptHeader

variable (h : GptHeader) (image : ByteString) (i : Nat)

def count : Nat := min h.numEntries 128

def offset : Nat := h.entriesLba * 512 + i * h.entrySize

def Readable : Prop := h.offset i < 2 ^ 63 ∧ h.offset i + h.entrySize ≤ image.length

def Typed : Prop := ((image.drop (h.offset i)).take 16).all (· == 0) = false

def startLba : Nat := word 8 image (h.offset i + 32)

def endLba : Nat := word 8 image (h.offset i + 40)

def Used : Prop :=
  h.Typed image i ∧ ¬(h.startLba image i = 0 ∧ h.endLba image i = 0) ∧
    h.startLba image i ≤ h.endLba image i

def sectors : Nat := h.endLba image i - h.startLba image i + 1

def partition : Partition where
  number := i + 1
  startLba := h.startLba image i
  sizeSectors := h.sectors image i
  typeGuid := some (guidText ((image.drop (h.offset i)).take 16))

instance : Decidable (h.Readable image i) := by
  unfold Readable
  infer_instance

instance : Decidable (h.Typed image i) := by
  unfold Typed
  infer_instance

instance : Decidable (h.Used image i) := by
  unfold Used
  infer_instance

end GptHeader

/-- A used entry of the table on the disk: the entry `number - 1`, with the first sector and the
number of sectors that it has there. -/
def UsedEntry (number start size : Nat) : Prop :=
  if isGpt (image.take 512) then
    ∃ h, gptHeader image = some h ∧ ∃ i < h.count, number = i + 1 ∧ h.Used image i ∧
      start = h.startLba image i ∧ size = h.sectors image i
  else if isMbr (image.take 512) then
    ∃ i < 4, number = i + 1 ∧ word 1 image (446 + i * 16 + 4) ≠ 0 ∧
      start = word 4 image (446 + i * 16 + 8) ∧ size = word 4 image (446 + i * 16 + 12)
  else False

/-- The table lists the used entries, by increasing numbers. -/
structure Faithful (image : ByteString) (table : PartitionTable) : Prop where
  exact : ∀ number start size,
    (∃ p ∈ table.partitions, p.number = number ∧ p.startLba = start ∧ p.sizeSectors = size) ↔
      UsedEntry image number start size
  ordered : (table.partitions.map Partition.number).Pairwise (· < ·)

section Entries

variable {image : ByteString}

theorem readExactAt_eq {offset n : Nat} (hoffset : offset < 2 ^ 63)
    (h : offset + n ≤ image.length) :
    readExactAt image offset n = .ok ((image.drop offset).take n) := by
  rw [readExactAt, if_neg (by omega), if_pos h]

theorem readExactAt_fails {offset n : Nat} (h : ¬(offset < 2 ^ 63 ∧ offset + n ≤ image.length)) :
    ∃ e, readExactAt image offset n = fail e := by
  unfold readExactAt
  by_cases hseek : 2 ^ 63 ≤ offset
  · rw [if_pos hseek]
    exact ⟨_, rfl⟩
  · rw [if_neg hseek, if_neg fun hin => h ⟨by omega, hin⟩]
    exact ⟨_, rfl⟩

theorem readExactAt_returns (offset n : Nat) : Returns (readExactAt image offset n) := by
  by_cases h : offset < 2 ^ 63 ∧ offset + n ≤ image.length
  · rw [readExactAt_eq h.1 h.2]
    trivial
  · obtain ⟨e, he⟩ := readExactAt_fails h
    rw [he]
    trivial

variable {h : GptHeader} {i : Nat}

theorem gptEntry_eq (hsize : h.entrySize ≤ 8192) (hi : i < 128) (hoffset : h.offset i < 2 ^ 64) :
    gptEntry image (h.entriesLba * 512) h.entrySize i =
      (readExactAt image (h.offset i) h.entrySize >>= gptPartition i) := by
  have hskip : i * h.entrySize < 2 ^ 64 := by
    have := Nat.mul_le_mul (Nat.le_of_lt hi) hsize
    omega
  have hsum : (u64 (h.entriesLba * 512 + i * h.entrySize) : Attempt DiskError Nat) =
      .ok (h.offset i) := u64_eq hoffset
  rw [gptEntry, u64_eq hskip]
  change (u64 (h.entriesLba * 512 + i * h.entrySize) >>= _) = _
  rw [hsum]
  rfl

theorem gptPartition_eq {entry : ByteString} (hlen : 48 ≤ entry.length) :
    gptPartition i entry =
      if (entry.take 16).all (· == 0) = false ∧ ¬(word 8 entry 32 = 0 ∧ word 8 entry 40 = 0) ∧
          word 8 entry 32 ≤ word 8 entry 40 then
        if word 8 entry 40 - word 8 entry 32 + 1 < 2 ^ 64 then
          .ok (some
            { number := i + 1
              startLba := word 8 entry 32
              sizeSectors := word 8 entry 40 - word 8 entry 32 + 1
              typeGuid := some (guidText (entry.take 16)) })
        else .error .overflow
      else .ok none := by
  have hextent : (slice entry 32 entry.length : Attempt DiskError ByteString) =
      .ok (entry.drop 32) := by
    rw [slice, if_pos ⟨by omega, Nat.le_refl _⟩, ← length_drop, take_length]
  have hguid : (slice entry 0 16 : Attempt DiskError ByteString) = .ok (entry.take 16) := by
    rw [slice, if_pos ⟨by omega, by omega⟩]
    rfl
  have hword : ∀ k, word 8 (entry.drop 32) k = word 8 entry (32 + k) := by
    intro k
    rw [word, word, drop_drop]
  unfold gptPartition
  by_cases hzero : (entry.take 16).all (· == 0) = true
  · rw [if_pos hzero, if_neg (by simp [hzero])]
    rfl
  · rw [if_neg hzero, hguid, hextent]
    change (leAt 8 (entry.drop 32) 0 >>= fun startLba => leAt 8 (entry.drop 32) 8 >>= _) = _
    rw [leAt_eq (by rw [length_drop]; omega), leAt_eq (by rw [length_drop]; omega),
      hword, hword]
    change (if word 8 entry 32 = 0 ∧ word 8 entry 40 = 0 then _ else _) = _
    by_cases hempty : word 8 entry 32 = 0 ∧ word 8 entry 40 = 0
    · rw [if_pos hempty, if_neg fun hused => hused.2.1 hempty]
      rfl
    · rw [if_neg hempty]
      by_cases hback : word 8 entry 40 < word 8 entry 32
      · rw [if_pos hback, if_neg fun hused => by omega]
        rfl
      · rw [if_neg hback, if_pos ⟨by simpa using hzero, hempty, by omega⟩]
        by_cases hfits : word 8 entry 40 - word 8 entry 32 + 1 < 2 ^ 64
        · rw [u64_eq hfits, if_pos hfits]
          rfl
        · rw [u64_overflows hfits, if_neg hfits]
          rfl

theorem gptEntry_of_not_readable (hsize : h.entrySize ≤ 8192) (hi : i < 128)
    (hoffset : h.offset i < 2 ^ 64) (hread : ¬h.Readable image i) :
    ∃ e, gptEntry image (h.entriesLba * 512) h.entrySize i = fail e := by
  obtain ⟨e, he⟩ := readExactAt_fails hread
  rw [gptEntry_eq hsize hi hoffset, he]
  exact ⟨e, rfl⟩

theorem gptEntry_of_readable (hmin : 48 ≤ h.entrySize) (hsize : h.entrySize ≤ 8192)
    (hi : i < 128) (hread : h.Readable image i) :
    gptEntry image (h.entriesLba * 512) h.entrySize i =
      if h.Used image i then
        if h.sectors image i < 2 ^ 64 then .ok (some (h.partition image i))
        else .error .overflow
      else .ok none := by
  obtain ⟨hlow, hin⟩ := hread
  rw [gptEntry_eq hsize hi (by omega), readExactAt_eq hlow hin]
  change gptPartition i ((image.drop (h.offset i)).take h.entrySize) = _
  rw [gptPartition_eq (by rw [length_take, length_drop]; omega),
    word_take_drop image (by omega), word_take_drop image (by omega), take_take,
    Nat.min_eq_left (by omega)]
  rfl

theorem fits_iff :
    (h.Used image i → h.sectors image i < 2 ^ 64) ↔
      ¬(h.Typed image i ∧ h.startLba image i = 0 ∧ h.endLba image i = 2 ^ 64 - 1) := by
  have hend : h.endLba image i < 2 ^ 64 := word_lt 8 image _
  unfold GptHeader.Used GptHeader.sectors
  constructor
  · rintro hfits ⟨htyped, hstart, hall⟩
    have := hfits ⟨htyped, by omega, by omega⟩
    omega
  · rintro hnot ⟨htyped, hsome, horder⟩
    by_cases hstart : h.startLba image i = 0
    · have hall : h.endLba image i ≠ 2 ^ 64 - 1 := fun hall => hnot ⟨htyped, hstart, hall⟩
      omega
    · omega

section

variable (hmin : 48 ≤ h.entrySize) (hsize : h.entrySize ≤ 8192) (hi : i < 128)
  (hoffset : h.offset i < 2 ^ 64)
include hmin hsize hi hoffset

theorem gptEntry_ok_iff :
    (∃ r, gptEntry image (h.entriesLba * 512) h.entrySize i = .ok r) ↔
      h.Readable image i ∧ (h.Used image i → h.sectors image i < 2 ^ 64) := by
  by_cases hread : h.Readable image i
  · rw [gptEntry_of_readable hmin hsize hi hread, and_iff_right hread]
    split_ifs with hused hfits
    · exact iff_of_true ⟨_, rfl⟩ fun _ => hfits
    · exact iff_of_false (fun ⟨_, hr⟩ => nomatch hr) fun hall => hfits (hall hused)
    · exact iff_of_true ⟨_, rfl⟩ fun hused' => absurd hused' hused
  · obtain ⟨e, he⟩ := gptEntry_of_not_readable hsize hi hoffset hread
    rw [he]
    exact iff_of_false (fun ⟨_, hr⟩ => nomatch hr) fun hall => hread hall.1

theorem gptEntry_returns_iff :
    Returns (gptEntry image (h.entriesLba * 512) h.entrySize i) ↔
      (h.Readable image i → h.Used image i → h.sectors image i < 2 ^ 64) := by
  by_cases hread : h.Readable image i
  · rw [gptEntry_of_readable hmin hsize hi hread]
    split_ifs with hused hfits
    · exact iff_of_true trivial fun _ _ => hfits
    · exact iff_of_false id fun hall => hfits (hall hread hused)
    · exact iff_of_true trivial fun _ hused' => absurd hused' hused
  · obtain ⟨e, he⟩ := gptEntry_of_not_readable hsize hi hoffset hread
    rw [he]
    exact iff_of_true trivial fun hread' => absurd hread' hread

end

end Entries

def usedAmong (n : Nat) (used : Nat → Prop) [DecidablePred used] (partition : Nat → Partition) :
    List Partition :=
  (List.range n).filterMap fun i => if used i then some (partition i) else none

section UsedAmong

variable {n : Nat} {used : Nat → Prop} [DecidablePred used] {partition : Nat → Partition}

theorem mem_usedAmong {p : Partition} :
    p ∈ usedAmong n used partition ↔ ∃ i < n, used i ∧ p = partition i := by
  rw [usedAmong, mem_filterMap]
  refine exists_congr fun i => ?_
  rw [mem_range]
  refine and_congr_right fun _ => ?_
  by_cases hused : used i
  · rw [if_pos hused, and_iff_right hused, Option.some.injEq]
    exact eq_comm
  · rw [if_neg hused]
    exact iff_of_false (by simp) fun hall => hused hall.1

theorem usedAmong_ordered (hnumber : ∀ i, (partition i).number = i + 1) :
    ((usedAmong n used partition).map Partition.number).Pairwise (· < ·) := by
  rw [pairwise_map, usedAmong, pairwise_filterMap]
  refine List.Pairwise.imp (fun {i j} hij p hp q hq => ?_) pairwise_lt_range
  have hnum : ∀ k r, (if used k then some (partition k) else none) = some r →
      r.number = k + 1 := by
    intro k r hr
    split at hr
    · cases hr
      exact hnumber k
    · cases hr
  rw [hnum i p hp, hnum j q hq]
  omega

theorem reduceOption_map_eq {g : Nat → Option Partition}
    (h : ∀ i < n, g i = if used i then some (partition i) else none) :
    ((List.range n).map g).reduceOption = usedAmong n used partition := by
  have hmap : (List.range n).map g =
      (List.range n).map fun i => if used i then some (partition i) else none :=
    map_congr_left fun i hi => h i (mem_range.mp hi)
  rw [hmap, List.reduceOption, filterMap_map]
  rfl

theorem faithful_usedAmong {image : ByteString} {tableType : PartitionType}
    (hnumber : ∀ i, (partition i).number = i + 1)
    (hentry : ∀ number start size, UsedEntry image number start size ↔ ∃ i < n, number = i + 1 ∧
      used i ∧ start = (partition i).startLba ∧ size = (partition i).sizeSectors) :
    Faithful image ⟨usedAmong n used partition, tableType⟩ where
  ordered := usedAmong_ordered hnumber
  exact number start size := by
    rw [hentry]
    constructor
    · rintro ⟨p, hp, rfl, rfl, rfl⟩
      obtain ⟨i, hi, hused, rfl⟩ := mem_usedAmong.mp hp
      exact ⟨i, hi, hnumber i, hused, rfl, rfl⟩
    · rintro ⟨i, hi, rfl, hused, rfl, rfl⟩
      exact ⟨partition i, mem_usedAmong.mpr ⟨i, hi, hused, rfl⟩, hnumber i, rfl, rfl⟩

end UsedAmong

/-- The table of a header lies in the range of 64-bit offsets, and no entry that is reached spans
all sectors from 0 to 2^64 - 1. -/
def GptHeader.InRange (h : GptHeader) (image : ByteString) : Prop :=
  h.entriesLba < 2 ^ 55 ∧
    ∀ i < h.count, (∀ j ≤ i, h.Readable image j) →
      ¬(h.Typed image i ∧ h.startLba image i = 0 ∧ h.endLba image i = 2 ^ 64 - 1)

section Tables

variable {image : ByteString} {h : GptHeader}

theorem bounds_of_gptHeader (hh : gptHeader image = some h) :
    1024 ≤ image.length ∧ 48 ≤ h.entrySize ∧ h.entrySize ≤ 8192 := by
  unfold gptHeader at hh
  split at hh
  · rename_i hvalid
    cases hh
    exact ⟨hvalid.1, hvalid.2.2⟩
  · cases hh

def GptHeader.table (h : GptHeader) (image : ByteString) : Attempt DiskError PartitionTable := do
  let entriesOffset ← u64 (h.entriesLba * 512)
  let entries ← (List.range h.count).mapM (gptEntry image entriesOffset h.entrySize)
  return { partitions := entries.reduceOption, tableType := .gpt }

theorem parseGpt_of_length (hlen : 1024 ≤ image.length) :
    parseGpt image =
      if (image.drop 512).take 8 ≠ ascii "EFI PART" then
        fail (.detection "Invalid GPT signature")
      else if ¬(48 ≤ word 4 image 596 ∧ word 4 image 596 ≤ 8192) then
        fail (.detection s!"Invalid GPT entry size: {word 4 image 596}")
      else
        GptHeader.table ⟨word 8 image 584, word 4 image 592, word 4 image 596⟩ image := by
  have hsector : ((image.drop 512).take 512).length = 512 := by
    rw [length_take, length_drop]
    omega
  have hsignature : (slice ((image.drop 512).take 512) 0 8 : Attempt DiskError ByteString) =
      .ok ((image.drop 512).take 8) := by
    rw [slice, if_pos ⟨by decide, by omega⟩, drop_zero, take_take]
    rfl
  have hfields : (slice ((image.drop 512).take 512) 72 ((image.drop 512).take 512).length :
      Attempt DiskError ByteString) = .ok ((image.drop 584).take 440) := by
    rw [slice, if_pos ⟨by omega, Nat.le_refl _⟩, hsector, drop_take, drop_drop,
      take_take]
    rfl
  have hrest : ((image.drop 584).take 440).length = 440 := by
    rw [length_take, length_drop]
    omega
  rw [parseGpt, readExactAt_eq (by decide) hlen]
  change (slice ((image.drop 512).take 512) 0 8 >>= _) = _
  rw [hsignature]
  change (if (image.drop 512).take 8 ≠ ascii "EFI PART" then _ else
    slice ((image.drop 512).take 512) 72 ((image.drop 512).take 512).length >>= _) = _
  rw [hfields]
  change (if (image.drop 512).take 8 ≠ ascii "EFI PART" then _ else
    leAt 8 ((image.drop 584).take 440) 0 >>= fun _ =>
      leAt 4 ((image.drop 584).take 440) 8 >>= fun _ =>
        leAt 4 ((image.drop 584).take 440) 12 >>= _) = _
  rw [leAt_eq (by omega), leAt_eq (by omega), leAt_eq (by omega),
    word_take_drop image (by decide), word_take_drop image (by decide),
    word_take_drop image (by decide)]
  rfl

theorem parseGpt_of_none (hh : gptHeader image = none) : ∃ e, parseGpt image = fail e := by
  by_cases hlen : 1024 ≤ image.length
  · rw [parseGpt_of_length hlen]
    by_cases hefi : (image.drop 512).take 8 = ascii "EFI PART"
    · rw [if_neg (Decidable.not_not.mpr hefi)]
      by_cases hsize : 48 ≤ word 4 image 596 ∧ word 4 image 596 ≤ 8192
      · rw [gptHeader, if_pos ⟨hlen, hefi, hsize⟩] at hh
        cases hh
      · rw [if_pos hsize]
        exact ⟨_, rfl⟩
    · rw [if_pos hefi]
      exact ⟨_, rfl⟩
  · have hshort : ¬(512 < 2 ^ 63 ∧ 512 + 512 ≤ image.length) := fun hin => hlen hin.2
    obtain ⟨e, he⟩ := readExactAt_fails hshort
    rw [parseGpt, he]
    exact ⟨e, rfl⟩

theorem parseGpt_of_some (hh : gptHeader image = some h) : parseGpt image = h.table image := by
  unfold gptHeader at hh
  split at hh
  · rename_i hvalid
    cases hh
    rw [parseGpt_of_length hvalid.1, if_neg (Decidable.not_not.mpr hvalid.2.1),
      if_neg (Decidable.not_not.mpr hvalid.2.2)]
  · cases hh

theorem count_le (h : GptHeader) : h.count ≤ 128 := Nat.min_le_right _ _

theorem GptHeader.Readable.offset_lt {i j : Nat} (hread : h.Readable image j)
    (hsize : h.entrySize ≤ 8192) (hi : i < 128) : h.offset i < 2 ^ 64 := by
  have hskip := Nat.mul_le_mul (Nat.le_of_lt hi) hsize
  have hlow := hread.1
  unfold GptHeader.offset at hlow ⊢
  omega

theorem offset_zero_lt (hlba : h.entriesLba < 2 ^ 55) : h.offset 0 < 2 ^ 64 := by
  unfold GptHeader.offset
  omega

theorem offset_lt_of_before {i : Nat} (hlba : h.entriesLba < 2 ^ 55) (hsize : h.entrySize ≤ 8192)
    (hi : i < 128) (hbefore : ∀ j < i, h.Readable image j) : h.offset i < 2 ^ 64 := by
  cases i with
  | zero => exact offset_zero_lt hlba
  | succ i => exact (hbefore i (Nat.lt_succ_self i)).offset_lt hsize hi

theorem before_iff (hlba : h.entriesLba < 2 ^ 55) (hmin : 48 ≤ h.entrySize)
    (hsize : h.entrySize ≤ 8192) {i : Nat} (hi : i ≤ 128) :
    (∀ j < i, ∃ r, gptEntry image (h.entriesLba * 512) h.entrySize j = .ok r) ↔
      ∀ j < i, h.Readable image j ∧ (h.Used image j → h.sectors image j < 2 ^ 64) := by
  induction i with
  | zero => simp
  | succ i ih =>
    have hsplit : ∀ P : Nat → Prop, (∀ j < i + 1, P j) ↔ (∀ j < i, P j) ∧ P i := by
      intro P
      simp only [Nat.lt_succ_iff_lt_or_eq, or_imp, forall_and, forall_eq]
    rw [hsplit, hsplit, ih (by omega)]
    refine and_congr_right fun hbefore => ?_
    exact gptEntry_ok_iff hmin hsize (by omega)
      (offset_lt_of_before hlba hsize (by omega) fun j hj => (hbefore j hj).1)

section

variable (hmin : 48 ≤ h.entrySize) (hsize : h.entrySize ≤ 8192)
include hmin hsize

theorem table_returns_iff :
    Returns (h.table image) ↔ h.InRange image := by
  unfold GptHeader.table GptHeader.InRange
  by_cases hlba : h.entriesLba < 2 ^ 55
  · rw [u64_eq (by omega), and_iff_right hlba]
    change Returns ((List.range h.count).mapM _ >>= _) ↔ _
    rw [returns_bind_iff, returns_range_iff]
    constructor
    · rintro ⟨hturns, -⟩ i
      -- An entry is reached when the turns before it have values: they fit, by induction.
      induction i using Nat.strongRecOn with
      | ind i ih =>
        intro hi hread
        have hi' : i < 128 := Nat.lt_of_lt_of_le hi (count_le h)
        have hbefore : ∀ j < i, h.Readable image j ∧
            (h.Used image j → h.sectors image j < 2 ^ 64) := fun j hj =>
          ⟨hread j (by omega), fits_iff.mpr (ih j hj (by omega) fun k hk => hread k (by omega))⟩
        have hturn := hturns i hi ((before_iff hlba hmin hsize (by omega)).mpr hbefore)
        rw [gptEntry_returns_iff hmin hsize hi'
          (offset_lt_of_before hlba hsize hi' fun j hj => (hbefore j hj).1)] at hturn
        exact fits_iff.mp (hturn (hread i (Nat.le_refl i)))
    · intro hall
      refine ⟨fun i hi hturns => ?_, fun _ _ => trivial⟩
      have hi' : i < 128 := Nat.lt_of_lt_of_le hi (count_le h)
      have hbefore := (before_iff hlba hmin hsize (by omega)).mp hturns
      rw [gptEntry_returns_iff hmin hsize hi'
        (offset_lt_of_before hlba hsize hi' fun j hj => (hbefore j hj).1)]
      intro hread
      refine fits_iff.mpr (hall i hi fun j hj => ?_)
      rcases Nat.lt_or_eq_of_le hj with hj | rfl
      · exact (hbefore j hj).1
      · exact hread
  · rw [u64_overflows (by omega)]
    exact iff_of_false id fun hin => hlba hin.1

theorem table_eq_ok {table : PartitionTable} (htable : h.table image = .ok table) :
    (∀ i < h.count, h.Readable image i) ∧
      table = ⟨usedAmong h.count (h.Used image) (h.partition image), .gpt⟩ := by
  unfold GptHeader.table at htable
  obtain ⟨_, hoffset, htable⟩ := except_ok_bind_iff.mp htable
  obtain ⟨hlba, rfl⟩ := u64_eq_ok_iff.mp hoffset
  obtain ⟨entries, hentries, htable⟩ := except_ok_bind_iff.mp htable
  cases htable
  obtain ⟨g, rfl, hg⟩ := exists_map_of_mapM hentries
  have hall := (before_iff (by omega) hmin hsize (count_le h)).mp fun j hj =>
    ⟨g j, hg j (mem_range.mpr hj)⟩
  refine ⟨fun i hi => (hall i hi).1, congrArg (PartitionTable.mk · .gpt) ?_⟩
  refine reduceOption_map_eq fun i hi => ?_
  have hturn := hg i (mem_range.mpr hi)
  rw [gptEntry_of_readable hmin hsize (Nat.lt_of_lt_of_le hi (count_le h)) (hall i hi).1] at hturn
  by_cases hused : h.Used image i
  · rw [if_pos hused, if_pos ((hall i hi).2 hused)] at hturn
    rw [if_pos hused, ← Except.ok.inj hturn]
  · rw [if_neg hused] at hturn
    rw [if_neg hused, ← Except.ok.inj hturn]

theorem table_of_readable (hin : h.InRange image) (hread : ∀ i < h.count, h.Readable image i) :
    h.table image = .ok ⟨usedAmong h.count (h.Used image) (h.partition image), .gpt⟩ := by
  have hturns : ∀ i ∈ List.range h.count,
      gptEntry image (h.entriesLba * 512) h.entrySize i =
        .ok (if h.Used image i then some (h.partition image i) else none) := by
    intro i hi
    rw [mem_range] at hi
    rw [gptEntry_of_readable hmin hsize (Nat.lt_of_lt_of_le hi (count_le h)) (hread i hi)]
    by_cases hused : h.Used image i
    · have hfits : h.sectors image i < 2 ^ 64 :=
        fits_iff.mpr (hin.2 i hi fun j hj => hread j (by omega)) hused
      rw [if_pos hused, if_pos hused, if_pos hfits]
    · rw [if_neg hused, if_neg hused]
  have hlba := hin.1
  unfold GptHeader.table
  rw [u64_eq (by omega)]
  change ((List.range h.count).mapM (gptEntry image (h.entriesLba * 512) h.entrySize) >>= _) = _
  rw [mapM_eq_ok hturns]
  exact congrArg (fun ps => Except.ok (PartitionTable.mk ps .gpt))
    (reduceOption_map_eq fun _ _ => rfl)

end

def mbrPartition (image : ByteString) (i : Nat) : Partition where
  number := i + 1
  startLba := word 4 image (446 + i * 16 + 8)
  sizeSectors := word 4 image (446 + i * 16 + 12)
  typeId := word 1 image (446 + i * 16 + 4)
  bootable := word 1 image (446 + i * 16) = 0x80

theorem mbrEntry_eq {i : Nat} (hlen : 512 ≤ image.length) (hi : i < 4) :
    mbrEntry (image.take 512) i =
      .ok (if word 1 image (446 + i * 16 + 4) ≠ 0 then some (mbrPartition image i) else none) := by
  have hentry : (slice (image.take 512) (446 + i * 16) (446 + i * 16 + 16) :
      Attempt DiskError ByteString) = .ok ((image.drop (446 + i * 16)).take 16) := by
    rw [slice, if_pos ⟨Nat.le_add_right _ _, by rw [length_take]; omega⟩,
      Nat.add_sub_cancel_left, drop_take, take_take, Nat.min_eq_left (by omega)]
  have hbytes : ((image.drop (446 + i * 16)).take 16).length = 16 := by
    rw [length_take, length_drop]
    omega
  unfold mbrEntry
  change (slice (image.take 512) (446 + i * 16) (446 + i * 16 + 16) >>= _) = _
  rw [hentry]
  change (leAt 1 ((image.drop (446 + i * 16)).take 16) 4 >>= _) = _
  rw [leAt_eq (by omega), word_take_drop image (by decide)]
  change (if word 1 image (446 + i * 16 + 4) = 0 then _ else
    leAt 1 ((image.drop (446 + i * 16)).take 16) 0 >>= fun _ =>
      leAt 4 ((image.drop (446 + i * 16)).take 16) 8 >>= fun _ =>
        leAt 4 ((image.drop (446 + i * 16)).take 16) 12 >>= _) = _
  rw [leAt_eq (by omega), leAt_eq (by omega), leAt_eq (by omega),
    word_take_drop image (by decide), word_take_drop image (by decide),
    word_take_drop image (by decide)]
  by_cases htype : word 1 image (446 + i * 16 + 4) = 0
  · rw [if_pos htype, if_neg (Decidable.not_not.mpr htype)]
    rfl
  · rw [if_neg htype, if_pos htype]
    rfl

theorem parseMbr_eq (hlen : 512 ≤ image.length) :
    parseMbr (image.take 512) = .ok
      ⟨usedAmong 4 (fun i => word 1 image (446 + i * 16 + 4) ≠ 0) (mbrPartition image), .mbr⟩ := by
  rw [parseMbr, mapM_eq_ok fun i hi => mbrEntry_eq hlen (mem_range.mp hi)]
  exact congrArg (fun ps => Except.ok (PartitionTable.mk ps .mbr))
    (reduceOption_map_eq fun _ _ => rfl)

theorem parse_of_length (hlen : 512 ≤ image.length) :
    parse image =
      if isGpt (image.take 512) then parseGpt image
      else if isMbr (image.take 512) then parseMbr (image.take 512)
      else .ok { partitions := [], tableType := .unknown } := by
  rw [parse, readExactAt_eq (by decide) (by omega)]
  rfl

theorem parse_of_short (hlen : ¬512 ≤ image.length) : ∃ e, parse image = fail e := by
  have hshort : ¬(0 < 2 ^ 63 ∧ 0 + 512 ≤ image.length) := fun hin => hlen (by omega)
  obtain ⟨e, he⟩ := readExactAt_fails hshort
  rw [parse, he]
  exact ⟨e, rfl⟩

theorem parse_faithful {table : PartitionTable} (hparse : parse image = .ok table) :
    Faithful image table := by
  by_cases hlen : 512 ≤ image.length
  · rw [parse_of_length hlen] at hparse
    by_cases hgpt : isGpt (image.take 512) = true
    · rw [if_pos hgpt] at hparse
      cases hh : gptHeader image with
      | none =>
        obtain ⟨e, he⟩ := parseGpt_of_none hh
        rw [he] at hparse
        cases hparse
      | some h =>
        rw [parseGpt_of_some hh] at hparse
        obtain ⟨-, hmin, hsize⟩ := bounds_of_gptHeader hh
        obtain ⟨-, rfl⟩ := table_eq_ok hmin hsize hparse
        refine faithful_usedAmong (fun _ => rfl) fun number start size => ?_
        rw [UsedEntry, if_pos hgpt, hh]
        simp only [Option.some.injEq, exists_eq_left']
        rfl
    · rw [if_neg hgpt] at hparse
      by_cases hmbr : isMbr (image.take 512) = true
      · rw [if_pos hmbr, parseMbr_eq hlen] at hparse
        cases hparse
        refine faithful_usedAmong (fun _ => rfl) fun number start size => ?_
        rw [UsedEntry, if_neg hgpt, if_pos hmbr]
        rfl
      · rw [if_neg hmbr] at hparse
        cases hparse
        refine ⟨fun number start size => ?_, List.Pairwise.nil⟩
        rw [UsedEntry, if_neg hgpt, if_neg hmbr]
        simp
  · obtain ⟨e, he⟩ := parse_of_short hlen
    rw [he] at hparse
    cases hparse

/-- `parse` stays within 64-bit arithmetic and its buffers just when the table of a GPT header is
in range. -/
theorem parse_returns_iff :
    Returns (parse image) ↔
      ∀ h, isGpt (image.take 512) = true → gptHeader image = some h → h.InRange image := by
  by_cases hlen : 512 ≤ image.length
  · rw [parse_of_length hlen]
    by_cases hgpt : isGpt (image.take 512) = true
    · rw [if_pos hgpt]
      cases hh : gptHeader image with
      | none =>
        obtain ⟨e, he⟩ := parseGpt_of_none hh
        rw [he]
        exact iff_of_true trivial fun _ _ h => nomatch h
      | some h =>
        obtain ⟨-, hmin, hsize⟩ := bounds_of_gptHeader hh
        rw [parseGpt_of_some hh, table_returns_iff hmin hsize]
        exact ⟨fun hin _ _ he => Option.some.inj he ▸ hin, fun hall => hall h hgpt rfl⟩
    · rw [if_neg hgpt]
      refine iff_of_true ?_ fun _ hgpt' => absurd hgpt' hgpt
      by_cases hmbr : isMbr (image.take 512) = true
      · rw [if_pos hmbr, parseMbr_eq hlen]
        trivial
      · rw [if_neg hmbr]
        trivial
  · obtain ⟨e, he⟩ := parse_of_short hlen
    rw [he]
    refine iff_of_true trivial fun h hgpt => ?_
    have hshort : isGpt (image.take 512) = false := by
      unfold isGpt
      rw [decide_eq_false (by rw [length_take]; omega)]
      rfl
    rw [hshort] at hgpt
    cases hgpt

end Tables

end Guestkit.Disk
