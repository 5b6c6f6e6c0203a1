import Guestkit.Disk.Partition

/-! Detecting the filesystem of a partition, and the images on which the partition table is parsed
and each of its partitions examined within 64-bit arithmetic and the bounds of the buffers. -/

namespace Guestkit.Disk

open Lib Lib.Text ByteString Attempt List

inductive FileSystemType where
  | ext
  | ntfs
  | fat32
  | exFat
  | xfs
  | btrfs
  | zfs
  | ufs
  | hfsPlus
  | apfs
  | iso9660
  | swap
  | unknown
  deriving DecidableEq

structure FileSystem where
  fsType : FileSystemType
  label : Option String := none
  uuid : Option String := none

section Detectors

-- `lossy` decodes UTF-8 text with replacement characters.
variable (lossy : ByteString → String) (image : ByteString) (partitionOffset : Nat)

@[irreducible] def readInside (distance n : Nat) : Attempt DiskError ByteString := do
  let offset ← u64 (partitionOffset + distance)
  readExactAt image offset n

def detectExt : Attempt DiskError FileSystem := do
  let superblock ← readInside image partitionOffset 1024 264
  let magic ← slice superblock 56 58
  if magic = [0x53, 0xEF] then
    let labelBytes ← slice superblock 120 136
    let label := trimEndMatches (· = '\x00') (lossy labelBytes)
    let uuidBytes ← slice superblock 104 120
    return {
      fsType := .ext
      label := if label = "" then none else some label
      uuid := some
        (hexGroups [[0, 1, 2, 3], [4, 5], [6, 7], [8, 9], [10, 11, 12, 13, 14, 15]] uuidBytes) }
  else fail (.detection "Not an ext filesystem")

/-- Where a detector looks for the signatures of a filesystem: the bytes `first..last` of a buffer
of `size` bytes that starts `distance` bytes into the partition. -/
structure Place where
  distance : Nat
  size : Nat
  first : Nat
  last : Nat

def detectSignature (fsType : FileSystemType) (place : Place) (signatures : List ByteString)
    (message : String) : Attempt DiskError FileSystem := do
  let buffer ← readInside image partitionOffset place.distance place.size
  let signature ← slice buffer place.first place.last
  if signature ∈ signatures then return { fsType } else fail (.detection message)

def detectNtfs : Attempt DiskError FileSystem :=
  detectSignature image partitionOffset .ntfs ⟨0, 512, 3, 11⟩ [ascii "NTFS    "]
    "Not an NTFS filesystem"

def detectFat32 : Attempt DiskError FileSystem :=
  detectSignature image partitionOffset .fat32 ⟨0, 512, 82, 90⟩ [ascii "FAT32   "]
    "Not a FAT32 filesystem"

def detectExfat : Attempt DiskError FileSystem :=
  detectSignature image partitionOffset .exFat ⟨0, 512, 3, 11⟩ [ascii "EXFAT   "]
    "Not an exFAT filesystem"

def detectXfs : Attempt DiskError FileSystem :=
  detectSignature image partitionOffset .xfs ⟨0, 512, 0, 4⟩ [ascii "XFSB"] "Not an XFS filesystem"

def detectBtrfs : Attempt DiskError FileSystem :=
  detectSignature image partitionOffset .btrfs ⟨65536, 512, 64, 72⟩ [ascii "_BHRfS_M"]
    "Not a Btrfs filesystem"

def detectZfs : Attempt DiskError FileSystem :=
  detectSignature image partitionOffset .zfs ⟨131072, 4, 0, 4⟩ [[0x0c, 0xb1, 0xba, 0x00]]
    "Not a ZFS filesystem"

/-- The UFS2 superblock is tried first, and an image without one there is not asked for UFS1. -/
def detectUfs : Attempt DiskError FileSystem := do
  let superblock ← readInside image partitionOffset 65536 1376
  let magic ← leAt 4 superblock 1372
  if magic = 0x19540119 then return { fsType := .ufs }
  else
    let superblock ← readInside image partitionOffset 8192 1376
    let magic ← leAt 4 superblock 1372
    if magic = 0x011954 ∨ magic = 0x19540119 then return { fsType := .ufs }
    else fail (.detection "Not a UFS filesystem")

def detectHfsplus : Attempt DiskError FileSystem :=
  detectSignature image partitionOffset .hfsPlus ⟨1024, 512, 0, 2⟩ [ascii "H+", ascii "HX"]
    "Not an HFS+ filesystem"

def detectApfs : Attempt DiskError FileSystem :=
  detectSignature image partitionOffset .apfs ⟨0, 4096, 32, 36⟩ [ascii "NXSB", ascii "APSB"]
    "Not an APFS filesystem"

def detectIso9660 : Attempt DiskError FileSystem :=
  detectSignature image partitionOffset .iso9660 ⟨0x8000, 2048, 1, 6⟩ [ascii "CD001"]
    "Not an ISO9660 filesystem"

def detectSwap : Attempt DiskError FileSystem :=
  detectSignature image partitionOffset .swap ⟨0, 4096, 4086, 4096⟩
    [ascii "SWAPSPACE2", ascii "SWAP-SPACE"] "Not a swap partition"

end Detectors

def detectors (lossy : ByteString → String) (image : ByteString) (offset : Nat) :
    List (Attempt DiskError FileSystem) :=
  [detectExt lossy image offset, detectNtfs image offset, detectFat32 image offset,
    detectExfat image offset, detectXfs image offset, detectBtrfs image offset,
    detectZfs image offset, detectUfs image offset, detectHfsplus image offset,
    detectApfs image offset, detectIso9660 image offset, detectSwap image offset]

/-- The first filesystem that is recognised; an error of a detector passes to the next one. -/
def detect (lossy : ByteString → String) (image : ByteString) (partition : Partition) :
    Attempt DiskError FileSystem :=
  let offset := partition.startLba * 512
  if ¬offset < 2 ^ 64 then
    fail (.detection
      s!"Integer overflow computing partition offset: start_lba={partition.startLba} * 512")
  else if ¬offset + (65536 + 1376) < 2 ^ 64 then
    fail (.detection
      s!"Partition offset {offset} is too large, would overflow during filesystem detection")
  else
    firstOk { fsType := .unknown } (detectors lossy image offset)

section Bounds

variable {lossy : ByteString → String} {image : ByteString} {partitionOffset : Nat}

theorem length_of_readExactAt {offset n : Nat} {b : ByteString}
    (h : readExactAt image offset n = .ok b) : b.length = n := by
  by_cases hin : offset < 2 ^ 63 ∧ offset + n ≤ image.length
  · rw [readExactAt_eq hin.1 hin.2] at h
    rw [← Except.ok.inj h, length_take, length_drop]
    omega
  · obtain ⟨e, he⟩ := readExactAt_fails hin
    rw [he] at h
    cases h

theorem readInside_eq {distance : Nat} (hsum : partitionOffset + distance < 2 ^ 64) (n : Nat) :
    readInside image partitionOffset distance n =
      readExactAt image (partitionOffset + distance) n := by
  rw [readInside, u64_eq hsum]
  rfl

section

variable {α : Type} {distance n : Nat} {f : ByteString → Attempt DiskError α}
  (hsum : partitionOffset + distance < 2 ^ 64)
include hsum

theorem readInside_returns (hf : ∀ b, b.length = n → Returns (f b)) :
    Returns (readInside image partitionOffset distance n >>= f) := by
  rw [readInside_eq hsum]
  exact Returns.bind (readExactAt_returns _ _) fun b hb => hf b (length_of_readExactAt hb)

theorem readInside_fails (hfar : 2 ^ 63 ≤ partitionOffset) :
    ∃ e, (readInside image partitionOffset distance n >>= f) = fail e := by
  have hseek : ¬(partitionOffset + distance < 2 ^ 63 ∧
      partitionOffset + distance + n ≤ image.length) := fun hin => by omega
  obtain ⟨e, he⟩ := readExactAt_fails hseek
  rw [readInside_eq hsum, he]
  exact ⟨e, rfl⟩

end

theorem slice_eq {b : ByteString} {i j : Nat} (hij : i ≤ j) (hj : j ≤ b.length) :
    (slice b i j : Attempt DiskError ByteString) = .ok ((b.drop i).take (j - i)) :=
  if_pos ⟨hij, hj⟩

theorem detectSignature_returns {fsType : FileSystemType} {place : Place}
    {signatures : List ByteString} {message : String}
    (hsum : partitionOffset + place.distance < 2 ^ 64) (hfirst : place.first ≤ place.last)
    (hlast : place.last ≤ place.size) :
    Returns (detectSignature image partitionOffset fsType place signatures message) := by
  refine readInside_returns hsum fun b hb => ?_
  rw [slice_eq hfirst (by omega)]
  change Returns (if _ then _ else _)
  split <;> trivial

theorem detectExt_returns (hsum : partitionOffset + 1024 < 2 ^ 64) :
    Returns (detectExt lossy image partitionOffset) := by
  unfold detectExt
  refine readInside_returns hsum fun b hb => ?_
  rw [slice_eq (by decide) (by omega), slice_eq (by decide) (by omega),
    slice_eq (by decide) (by omega)]
  change Returns (if _ then _ else _)
  split <;> trivial

theorem detectUfs_returns (hsum : partitionOffset + 65536 < 2 ^ 64) :
    Returns (detectUfs image partitionOffset) := by
  unfold detectUfs
  refine readInside_returns hsum fun b hb => ?_
  rw [leAt_eq (by omega)]
  change Returns (if _ then _ else _)
  split
  · trivial
  · refine readInside_returns (by omega) fun b hb => ?_
    rw [leAt_eq (by omega)]
    change Returns (if _ then _ else _)
    split <;> trivial

theorem detectors_return (hzfs : partitionOffset + 131072 < 2 ^ 64) :
    ∀ x ∈ detectors lossy image partitionOffset, Returns x := by
  simp only [detectors, forall_mem_cons]
  refine ⟨detectExt_returns (by omega), ?_, ?_, ?_, ?_, ?_, ?_, detectUfs_returns (by omega),
    ?_, ?_, ?_, ?_, by simp⟩
  all_goals exact detectSignature_returns (Nat.lt_of_le_of_lt
    (Nat.add_le_add_left (by decide) partitionOffset) hzfs) (by decide) (by decide)

theorem detectors_overflow (hadd : partitionOffset + (65536 + 1376) < 2 ^ 64)
    (hzfs : ¬partitionOffset + 131072 < 2 ^ 64) (d : FileSystem) :
    firstOk d (detectors lossy image partitionOffset) = .error .overflow := by
  have hfar : 2 ^ 63 ≤ partitionOffset := by omega
  have hbefore : ∀ x ∈ (detectors lossy image partitionOffset).take 6, ∃ e, x = fail e := by
    simp only [detectors, take_succ_cons, take_zero, forall_mem_cons]
    refine ⟨readInside_fails (by omega) hfar, ?_, ?_, ?_, ?_, ?_, by simp⟩
    all_goals exact readInside_fails (Nat.lt_of_le_of_lt
      (Nat.add_le_add_left (by decide) partitionOffset) hadd) hfar
  have hoverflow : detectZfs image partitionOffset = .error .overflow := by
    unfold detectZfs detectSignature readInside
    rw [u64_overflows hzfs]
    rfl
  rw [← take_append_drop 6 (detectors lossy image partitionOffset),
    firstOk_append_of_fails hbefore]
  change firstOk d (detectZfs image partitionOffset :: _) = _
  rw [hoverflow]
  rfl

/-- The offsets that pass the check of `detect` and not the sum of the ZFS detector. -/
def Unguarded (startLba : Nat) : Prop :=
  2 ^ 64 ≤ startLba * 512 + 131072 ∧ startLba * 512 + (65536 + 1376) < 2 ^ 64

theorem detect_returns_iff {p : Partition} :
    Returns (detect lossy image p) ↔ ¬Unguarded p.startLba := by
  unfold detect Unguarded
  by_cases hmul : p.startLba * 512 < 2 ^ 64
  · rw [if_neg (Decidable.not_not.mpr hmul)]
    by_cases hadd : p.startLba * 512 + (65536 + 1376) < 2 ^ 64
    · rw [if_neg (Decidable.not_not.mpr hadd), and_iff_left hadd]
      by_cases hzfs : p.startLba * 512 + 131072 < 2 ^ 64
      · exact iff_of_true (firstOk_returns (detectors_return hzfs)) (by omega)
      · rw [detectors_overflow hadd hzfs]
        exact iff_of_false id (by omega)
    · rw [if_pos hadd]
      exact iff_of_true trivial fun hall => hadd hall.2
  · rw [if_pos hmul]
    exact iff_of_true trivial fun hall => by omega

end Bounds

/-- The table is parsed and each of its partitions examined within 64-bit arithmetic and the
buffers, and the table lists the used entries of the disk. -/
structure Examined (lossy : ByteString → String) (image : ByteString) : Prop where
  parses : Returns (parse image)
  faithful : ∀ table, parse image = .ok table → Faithful image table
  detects : ∀ table, parse image = .ok table →
    ∀ p ∈ table.partitions, Returns (detect lossy image p)

/-- The numbers of a GPT stay within 64 bits: those of its table and, if all its entries can be
read, the offsets of its partitions. -/
def InRange (image : ByteString) : Prop :=
  ∀ h, isGpt (image.take 512) = true → gptHeader image = some h →
    h.InRange image ∧
      ((∀ i < h.count, h.Readable image i) →
        ∀ i < h.count, h.Used image i → ¬Unguarded (h.startLba image i))

section Examining

variable {image : ByteString}

theorem readable_of_parse {table : PartitionTable} {h : GptHeader}
    (hgpt : isGpt (image.take 512) = true) (hh : gptHeader image = some h)
    (hparse : parse image = .ok table) : ∀ i < h.count, h.Readable image i := by
  by_cases hlen : 512 ≤ image.length
  · rw [parse_of_length hlen, if_pos hgpt, parseGpt_of_some hh] at hparse
    obtain ⟨-, hmin, hsize⟩ := bounds_of_gptHeader hh
    exact (table_eq_ok hmin hsize hparse).1
  · obtain ⟨e, he⟩ := parse_of_short hlen
    rw [he] at hparse
    cases hparse

theorem not_unguarded_of_lt {startLba : Nat} (h : startLba < 2 ^ 32) : ¬Unguarded startLba :=
  fun hun => by
    have := hun.1
    omega

theorem InRange.not_unguarded {table : PartitionTable} {p : Partition} (hin : InRange image)
    (hparse : parse image = .ok table) (hp : p ∈ table.partitions) : ¬Unguarded p.startLba := by
  have hentry := ((parse_faithful hparse).exact _ _ _).mp ⟨p, hp, rfl, rfl, rfl⟩
  unfold UsedEntry at hentry
  split at hentry
  · rename_i hgpt
    obtain ⟨h, hh, i, hi, -, hused, hstart, -⟩ := hentry
    rw [hstart]
    exact (hin h hgpt hh).2 (readable_of_parse hgpt hh hparse) i hi hused
  · split at hentry
    · obtain ⟨i, -, -, -, hstart, -⟩ := hentry
      rw [hstart]
      exact not_unguarded_of_lt (word_lt 4 image _)
    · exact hentry.elim

/-- An image is examined safely just when the numbers of its GPT stay within 64 bits. -/
theorem examined_iff (lossy : ByteString → String) (image : ByteString) :
    Examined lossy image ↔ InRange image := by
  constructor
  · intro hex h hgpt hh
    have hrange := parse_returns_iff.mp hex.parses h hgpt hh
    refine ⟨hrange, fun hread i hi hused => ?_⟩
    obtain ⟨hlen, hmin, hsize⟩ := bounds_of_gptHeader hh
    have hparse : parse image =
        .ok ⟨usedAmong h.count (h.Used image) (h.partition image), .gpt⟩ := by
      rw [parse_of_length (by omega), if_pos hgpt, parseGpt_of_some hh,
        table_of_readable hmin hsize hrange hread]
    have hdetect := hex.detects _ hparse (h.partition image i)
      (mem_usedAmong.mpr ⟨i, hi, hused, rfl⟩)
    have hguarded := detect_returns_iff.mp hdetect
    exact hguarded
  · intro hin
    exact {
      parses := parse_returns_iff.mpr fun h hgpt hh => (hin h hgpt hh).1
      faithful := fun _ => parse_faithful
      detects := fun _ hparse _ hp => detect_returns_iff.mpr (hin.not_unguarded hparse hp) }

theorem not_examined_of_header {lossy : ByteString → String} {h : GptHeader}
    (hgpt : isGpt (image.take 512) = true) (hh : gptHeader image = some h)
    (hlba : ¬h.entriesLba < 2 ^ 55) : ¬Examined lossy image :=
  fun hex => hlba (parse_returns_iff.mp hex.parses h hgpt hh).1

/-- A protective MBR and a GPT header that puts its entries, of which it has none, at sector
2^55. -/
def farEntries : ByteString :=
  List.replicate 450 0 ++ [0xEE] ++ List.replicate 59 0 ++ [0x55, 0xAA] ++
    ascii "EFI PART" ++ List.replicate 64 0 ++ [0, 0, 0, 0, 0, 0, 0x80, 0] ++
    [0, 0, 0, 0] ++ [128, 0, 0, 0] ++ List.replicate 424 0

theorem farEntries_not_examined : ¬Examined (fun _ => "") farEntries :=
  not_examined_of_header (h := ⟨2 ^ 55, 0, 128⟩) (by decide +kernel) (by decide +kernel) (by decide)

end Examining

end Guestkit.Disk
