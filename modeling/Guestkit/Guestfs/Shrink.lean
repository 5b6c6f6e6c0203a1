import Guestkit.Disk.Partition
import Guestkit.Lib.Hoare

/-! Shrinking a disk: how the size of the new image follows from the partition table and from what
`resize2fs` and `dumpe2fs` print, and when that size leaves room for every partition. -/

namespace Guestkit.Shrink

open Lib Lib.Text Disk List Option

/-- A 64-bit number; a sum or product that leaves the range wraps, as in a release build. -/
def wrap (n : Nat) : Nat := n % 2 ^ 64

def saturatingAdd (a b : Nat) : Nat := min (a + b) (2 ^ 64 - 1)

def saturatingMul (a b : Nat) : Nat := min (a * b) (2 ^ 64 - 1)

def divCeil (a b : Nat) : Nat := (a + b - 1) / b

def asU64 (n : Int) : Nat := (n % 2 ^ 64).toNat

def asI64 (n : Nat) : Int := Int.bmod n (2 ^ 64)

def mib : Nat := 1024 * 1024

def maxByKey {α : Type} (key : α → Nat) : List α → Option α
  | [] => none
  | a :: as => some (as.foldl (fun best b => if key best ≤ key b then b else best) a)

inductive ShrinkError where
  | handle (message : String)
  | detection (message : String)
  | commandFailed (message : String)
  deriving DecidableEq

structure CommandOutput where
  stdout : String
  stderr : String

/-- The commands that change the new image, in the order of the code. -/
inductive DiskCommand where
  | create (format : String) (size : Int)
  | dd (countMb : Nat)
  | rescan
  | sgdisk (number : Int) (startSector endSector : Nat) (typeGuid : String)
  | partResize (number endSector : Int)
  | mke2fs (fsType : String) (number : Int)
  | setUuid (uuid : String)
  | setLabel (label : String)
  | copyTree
  | replace
  deriving DecidableEq

structure Host where
  diskVirtualSize : Except ShrinkError Int
  diskActualSize : Except ShrinkError Int
  launch : Except ShrinkError PartitionTable
  listFilesystems : Except ShrinkError (String → Option String)
  setupNbd : Except ShrinkError String
  resize2fs : String → Except ShrinkError CommandOutput
  dumpe2fs : String → Except ShrinkError CommandOutput
  shutdown : Except ShrinkError Unit
  diskFormat : Except ShrinkError String
  openSource : Except ShrinkError Unit
  openDestination : Except ShrinkError Unit
  partGetGptType : Int → Except ShrinkError String
  getE2uuid : String → Except ShrinkError String
  getE2label : String → Except ShrinkError String
  run : DiskCommand → Except ShrinkError Unit

structure ShrinkAnalysis where
  virtualBytes : Nat
  actualBytes : Nat
  lastPartition : Int
  fsType : String
  minFsBytes : Nat
  partitionStart : Nat
  gpt : Bool

def gptLvmGuid : String := "e6d6d379-f507-44c2-a23c-238f2a3df928"

def mbrNonDataTypes : List Nat := [0x05, 0x0f, 0x85, 0x8e]

def isLvmOrExtended (p : Partition) : Bool :=
  (match p.typeGuid with
    | some guid => eqIgnoreAsciiCase guid gptLvmGuid
    | none => false) ||
  p.typeId ∈ mbrNonDataTypes

def numberOf (line : String) : Option Nat :=
  (split ':' line).getLast?.bind fun field => (parseUnsigned 10 (2 ^ 64) (trim field)).toOption

/-- Only the first line of the output is looked at. -/
def minBlocks (host : Host) (device : String) : Except ShrinkError Nat := do
  let out ← host.resize2fs device
  match (lines out.stdout).head?.bind numberOf with
  | some n => return n
  | none =>
    throw (.detection s!"could not parse resize2fs -P output: {out.stdout} / {out.stderr}")

def blockSize (host : Host) (device : String) : Except ShrinkError Nat := do
  let out ← host.dumpe2fs device
  match ((lines out.stdout).find? (startsWith "Block size:")).bind numberOf with
  | some n => return n
  | none => throw (.detection s!"could not parse dumpe2fs -h block size: {out.stdout}")

def resize2fsMinSizeBytes (host : Host) (device : String) : Except ShrinkError Nat := do
  let blocks ← minBlocks host device
  let size ← blockSize host device
  return wrap (blocks * size)

def lastByEnd (partitions : List Partition) : Option Partition :=
  maxByKey (fun p => saturatingAdd p.startLba p.sizeSectors) partitions

def partitionPath (device : String) (number : Nat) : String := s!"{device}p{number}"

/-- The outcome of `skip`, in which a failure to shut the probe down is ignored, is `none`. -/
def analyzeShrinkPotential (host : Host) : Except ShrinkError (Option ShrinkAnalysis) := do
  let virtualBytes ← host.diskVirtualSize
  let actualBytes ← host.diskActualSize
  let table ← host.launch
  if table.tableType = .unknown then return none
  else
    match lastByEnd table.partitions with
    | none => return none
    | some last =>
      if isLvmOrExtended last then return none
      else
        let filesystems ← host.listFilesystems
        match (filesystems s!"/dev/sda{last.number}").filter (· ∈ ["ext2", "ext3", "ext4"]) with
        | none => return none
        | some fsType =>
          let device ← host.setupNbd
          match resize2fsMinSizeBytes host (partitionPath device last.number) with
          | .error _ => return none
          | .ok minFsBytes =>
            host.shutdown
            return some {
              virtualBytes := asU64 virtualBytes
              actualBytes := asU64 actualBytes
              lastPartition := Int.bmod last.number (2 ^ 32)
              fsType
              minFsBytes
              partitionStart := saturatingMul last.startLba 512
              gpt := table.tableType = .gpt }

inductive ShrinkOutcome where
  | shrunk (oldVirtual newVirtual : Nat)
  | skipped (reason : String)

structure Sizes where
  targetMb : Nat
  newPartEndBytes : Nat
  newVirtualBytes : Nat

/-- The sizes, unless the filesystem alone would need the size of the old image. -/
def sizes (analysis : ShrinkAnalysis) (headroomPct : UInt32) : Option Sizes :=
  let targetFsBytes :=
    wrap (saturatingMul analysis.minFsBytes (100 + headroomPct.toNat) / 100 + mib)
  if analysis.virtualBytes ≤ targetFsBytes then none
  else
    let targetMb := max (divCeil targetFsBytes mib) 1
    let newPartEndBytes := wrap (analysis.partitionStart + wrap (targetMb * mib))
    let newVirtualBytes := wrap (divCeil (wrap (newPartEndBytes + 2 * mib)) mib * mib)
    some { targetMb, newPartEndBytes, newVirtualBytes }

abbrev ShrinkM := EStateM ShrinkError (List DiskCommand)

def ask {α : Type} : Except ShrinkError α → ShrinkM α
  | .ok a => pure a
  | .error e => throw e

section

variable (host : Host)
include host

def issue (command : DiskCommand) : ShrinkM Unit := do
  modify (· ++ [command])
  ask (host.run command)

/-- The entry of the partition, which still has the old size, is given its new end. -/
def resizeEntry (analysis : ShrinkAnalysis) (z : Sizes) : ShrinkM Unit := do
  let newPartEndSector := z.newPartEndBytes / 512
  if analysis.gpt then
    let text ← ask (host.partGetGptType analysis.lastPartition)
    match (splitWhitespace text).head? with
    | none => throw (.detection "could not parse original partition type GUID")
    | some typeGuid =>
      issue host (.sgdisk analysis.lastPartition (analysis.partitionStart / 512) newPartEndSector
        typeGuid)
  else issue host (.partResize analysis.lastPartition (asI64 newPartEndSector))

def keepUuid (part : String) : ShrinkM Unit :=
  match host.getE2uuid part with
  | .ok uuid => issue host (.setUuid uuid)
  | .error _ => pure ()

def keepLabel (part : String) : ShrinkM Unit :=
  match host.getE2label part with
  | .ok label => if label = "" then pure () else issue host (.setLabel label)
  | .error _ => pure ()

def makeFilesystem (analysis : ShrinkAnalysis) : ShrinkM Unit := do
  let part := s!"/dev/sda{analysis.lastPartition}"
  issue host (.mke2fs analysis.fsType analysis.lastPartition)
  keepUuid host part
  keepLabel host part

/-- The new image, from its creation to the move into the place of the old one. -/
def rebuild (analysis : ShrinkAnalysis) (z : Sizes) : ShrinkM ShrinkOutcome := do
  let format ← ask host.diskFormat
  ask host.openSource
  issue host (.create format (asI64 z.newVirtualBytes))
  ask host.openDestination
  issue host (.dd (divCeil analysis.partitionStart mib))
  issue host .rescan
  resizeEntry host analysis z
  issue host .rescan
  makeFilesystem host analysis
  issue host .copyTree
  issue host .replace
  return .shrunk analysis.virtualBytes z.newVirtualBytes

def shrinkDisk (headroomPct : UInt32) : ShrinkM ShrinkOutcome := do
  match ← ask (analyzeShrinkPotential host) with
  | none =>
    return .skipped "not an eligible shrink candidate (see analyze_shrink_potential log)"
  | some analysis =>
    match sizes analysis headroomPct with
    | none => return .skipped "computed target size is not smaller than current virtual size"
    | some z => rebuild host analysis z

def commands (headroomPct : UInt32) : List DiskCommand :=
  stateOf (shrinkDisk host headroomPct [])

end

/-! ### What a run reads and what it asks for -/

/-- What a run has read when it creates the new image, and what it makes of it. -/
structure Creation (host : Host) (headroomPct : UInt32) where
  virtualSize : Int
  table : PartitionTable
  last : Partition
  device : String
  blocks : Nat
  size : Nat
  analysis : ShrinkAnalysis
  sizes : Sizes
  virtualSize_eq : host.diskVirtualSize = .ok virtualSize
  table_eq : host.launch = .ok table
  last_eq : lastByEnd table.partitions = some last
  device_eq : host.setupNbd = .ok device
  blocks_eq : minBlocks host (partitionPath device last.number) = .ok blocks
  size_eq : blockSize host (partitionPath device last.number) = .ok size
  virtualBytes_eq : analysis.virtualBytes = asU64 virtualSize
  minFsBytes_eq : analysis.minFsBytes = wrap (blocks * size)
  partitionStart_eq : analysis.partitionStart = saturatingMul last.startLba 512
  sizes_eq : Shrink.sizes analysis headroomPct = some sizes

def Planned (analysis : ShrinkAnalysis) (z : Sizes) : DiskCommand → Prop
  | .create _ size => size = asI64 z.newVirtualBytes
  | .dd countMb => countMb = divCeil analysis.partitionStart mib
  | .sgdisk number startSector endSector _ =>
    number = analysis.lastPartition ∧ startSector = analysis.partitionStart / 512 ∧
      endSector = z.newPartEndBytes / 512
  | .partResize number endSector =>
    number = analysis.lastPartition ∧ endSector = asI64 (z.newPartEndBytes / 512)
  | _ => True

section Runs

variable {host : Host} {headroomPct : UInt32}
variable {command : DiskCommand}

theorem creation_of_analysis {analysis : ShrinkAnalysis} {z : Sizes}
    (h : analyzeShrinkPotential host = .ok (some analysis))
    (hz : sizes analysis headroomPct = some z) :
    ∃ c : Creation host headroomPct, c.analysis = analysis ∧ c.sizes = z := by
  unfold analyzeShrinkPotential at h
  obtain ⟨virtualSize, hvirtual, h⟩ := except_ok_bind_iff.mp h
  obtain ⟨actualSize, -, h⟩ := except_ok_bind_iff.mp h
  obtain ⟨table, htable, h⟩ := except_ok_bind_iff.mp h
  split at h
  · cases h
  split at h
  · cases h
  rename_i last hlast
  split at h
  · cases h
  obtain ⟨filesystems, -, h⟩ := except_ok_bind_iff.mp h
  split at h
  · cases h
  obtain ⟨device, hdevice, h⟩ := except_ok_bind_iff.mp h
  split at h
  · cases h
  rename_i minFsBytes hmin
  obtain ⟨blocks, hblocks, hmin⟩ := except_ok_bind_iff.mp hmin
  obtain ⟨size, hsize, hmin⟩ := except_ok_bind_iff.mp hmin
  cases hmin
  obtain ⟨-, -, h⟩ := except_ok_bind_iff.mp h
  cases h
  exact ⟨⟨virtualSize, table, last, device, blocks, size, _, z, hvirtual, htable, hlast, hdevice,
    hblocks, hsize, rfl, rfl, rfl, hz⟩, rfl, rfl⟩

def Adds (P : DiskCommand → Prop) (before after : List DiskCommand) : Prop :=
  ∃ added, after = before ++ added ∧ ∀ command ∈ added, P command

variable {P : DiskCommand → Prop}

theorem Adds.refl (s : List DiskCommand) : Adds P s s := ⟨[], by simp, by simp⟩

instance : IsTrans (List DiskCommand) (Adds P) := by
  refine ⟨?_⟩
  rintro a _ _ ⟨first, rfl, hfirst⟩ ⟨second, rfl, hsecond⟩
  refine ⟨first ++ second, append_assoc _ _ _, fun command hmem => ?_⟩
  rcases mem_append.mp hmem with hmem | hmem
  · exact hfirst command hmem
  · exact hsecond command hmem

theorem ask_adds {α : Type} (x : Except ShrinkError α) : Always (Adds P) (ask x) := by
  cases x with
  | ok a => exact Always.pure Adds.refl a
  | error e => exact Always.throw Adds.refl e

theorem issue_adds (h : P command) : Always (Adds P) (issue host command) :=
  Always.bind (fun s => ⟨[command], rfl, by simpa using h⟩) fun _ => ask_adds _

variable (analysis : ShrinkAnalysis) (z : Sizes)

theorem resizeEntry_planned :
    Always (Adds (Planned analysis z)) (resizeEntry host analysis z) := by
  unfold resizeEntry
  split
  · refine (ask_adds _).bind fun text => ?_
    split
    · exact Always.throw Adds.refl _
    · exact issue_adds ⟨rfl, rfl, rfl⟩
  · exact issue_adds ⟨rfl, rfl⟩

theorem keepUuid_planned (part : String) :
    Always (Adds (Planned analysis z)) (keepUuid host part) := by
  unfold keepUuid
  split
  · exact issue_adds trivial
  · exact Always.pure Adds.refl _

theorem keepLabel_planned (part : String) :
    Always (Adds (Planned analysis z)) (keepLabel host part) := by
  unfold keepLabel
  split
  · split
    · exact Always.pure Adds.refl _
    · exact issue_adds trivial
  · exact Always.pure Adds.refl _

theorem makeFilesystem_planned :
    Always (Adds (Planned analysis z)) (makeFilesystem host analysis) :=
  .bind (issue_adds trivial) fun _ =>
  .bind (keepUuid_planned analysis z _) fun _ => keepLabel_planned analysis z _

theorem rebuild_planned :
    Always (Adds (Planned analysis z)) (rebuild host analysis z) :=
  .bind (ask_adds _) fun _ =>
  .bind (ask_adds _) fun _ =>
  .bind (issue_adds rfl) fun _ =>
  .bind (ask_adds _) fun _ =>
  .bind (issue_adds rfl) fun _ =>
  .bind (issue_adds trivial) fun _ =>
  .bind (resizeEntry_planned analysis z) fun _ =>
  .bind (issue_adds trivial) fun _ =>
  .bind (makeFilesystem_planned analysis z) fun _ =>
  .bind (issue_adds trivial) fun _ =>
  .bind (issue_adds trivial) fun _ => Always.pure Adds.refl _

theorem rebuild_of_mem (h : command ∈ commands host headroomPct) :
    ∃ analysis z, analyzeShrinkPotential host = .ok (some analysis) ∧
      sizes analysis headroomPct = some z ∧
      commands host headroomPct = stateOf (rebuild host analysis z []) := by
  unfold commands shrinkDisk at h ⊢
  cases hanalysis : analyzeShrinkPotential host with
  | error e =>
    rw [hanalysis] at h
    cases h
  | ok found =>
    rw [hanalysis] at h
    cases found with
    | none => cases h
    | some analysis =>
      change command ∈ stateOf ((match sizes analysis headroomPct with
        | none => pure _
        | some z => rebuild host analysis z : ShrinkM ShrinkOutcome) []) at h
      cases hz : sizes analysis headroomPct with
      | none =>
        rw [hz] at h
        cases h
      | some z =>
        refine ⟨analysis, z, rfl, hz, ?_⟩
        change stateOf ((match sizes analysis headroomPct with
          | none => pure _
          | some z => rebuild host analysis z : ShrinkM ShrinkOutcome) []) = _
        rw [hz]

theorem commands_planned (h : command ∈ commands host headroomPct) :
    ∃ c : Creation host headroomPct,
      ∀ command ∈ commands host headroomPct, Planned c.analysis c.sizes command := by
  obtain ⟨analysis, z, hanalysis, hz, hcommands⟩ := rebuild_of_mem h
  obtain ⟨c, rfl, rfl⟩ := creation_of_analysis hanalysis hz
  have hadds : Always (Adds (Planned c.analysis c.sizes)) (rebuild host c.analysis c.sizes) :=
    rebuild_planned c.analysis c.sizes
  obtain ⟨added, hadded, hplanned⟩ := hadds []
  refine ⟨c, ?_⟩
  rw [hcommands, hadded]
  exact hplanned

end Runs

/-! ### Room for the partitions -/

def Has (p : Partition) (sector : Nat) : Prop :=
  p.startLba ≤ sector ∧ sector < p.startLba + p.sizeSectors

def Disjoint (partitions : List Partition) : Prop :=
  partitions.Pairwise fun p q => ∀ sector, Has p sector → ¬Has q sector

section Room

variable {host : Host} {headroomPct : UInt32}

/-- The new image is smaller, and has room for the filesystem with its headroom and for the other
partitions; all numbers are what they are without bounds. -/
structure Sound (c : Creation host headroomPct) : Prop where
  minFsBytes : c.analysis.minFsBytes = c.blocks * c.size
  newPartEnd : c.sizes.newPartEndBytes = c.analysis.partitionStart + c.sizes.targetMb * mib
  newVirtual : c.sizes.newVirtualBytes = divCeil (c.sizes.newPartEndBytes + 2 * mib) mib * mib
  smaller : c.sizes.newVirtualBytes < c.analysis.virtualBytes
  slack : c.sizes.newPartEndBytes + mib ≤ c.sizes.newVirtualBytes
  long : c.analysis.minFsBytes * (100 + headroomPct.toNat) ≤
    100 * (c.sizes.newPartEndBytes - c.analysis.partitionStart)
  inside : ∀ p ∈ c.table.partitions, p ≠ c.last → ∀ sector, Has p sector →
    (sector + 1) * 512 ≤ divCeil c.analysis.partitionStart mib * mib

/-- The old image has room for the filesystem with its headroom and 1 MiB, rounded up, behind the
start of the partition, and for 2 MiB more, below some multiple of 1 MiB. -/
structure Fits (c : Creation host headroomPct) : Prop where
  minFsBytes : c.blocks * c.size < 2 ^ 64
  -- What a product that saturates at 2^64 - 1 leaves room for.
  demand : c.blocks * c.size * (100 + headroomPct.toNat) ≤ 100 * (175921860446 * mib)
  room : ∃ m k,
    saturatingMul (c.blocks * c.size) (100 + headroomPct.toNat) / 100 + mib ≤ m * mib ∧
      c.last.startLba * 512 + (m + 2) * mib ≤ k * mib ∧ k * mib < asU64 c.virtualSize
  -- The saturating comparison has found the partition that ends last.
  farthest : ∀ p ∈ c.table.partitions, p.sizeSectors ≠ 0 →
    p.startLba + p.sizeSectors ≤ c.last.startLba + c.last.sizeSectors

theorem wrap_eq {n : Nat} (h : n < 2 ^ 64) : wrap n = n := Nat.mod_eq_of_lt h

theorem wrap_lt (n : Nat) : wrap n < 2 ^ 64 := Nat.mod_lt n (by decide)

theorem asU64_lt (n : Int) : asU64 n < 2 ^ 64 := by
  unfold asU64
  omega

theorem le_divCeil_mul (n : Nat) : n ≤ divCeil n mib * mib := by
  unfold divCeil mib
  omega

theorem divCeil_mul_lt (n : Nat) : divCeil n mib * mib < n + mib := by
  unfold divCeil mib
  omega

theorem divCeil_le_iff {n k : Nat} : divCeil n mib ≤ k ↔ n ≤ k * mib := by
  unfold divCeil mib
  omega

theorem foldl_max {α : Type} (key : α → Nat) (as : List α) (a : α) :
    let best := as.foldl (fun best b => if key best ≤ key b then b else best) a
    best ∈ a :: as ∧ ∀ b ∈ a :: as, key b ≤ key best := by
  induction as generalizing a with
  | nil => simp
  | cons b as ih =>
    rw [foldl_cons]
    by_cases hab : key a ≤ key b
    · rw [if_pos hab]
      obtain ⟨hmem, hmax⟩ := ih b
      refine ⟨mem_cons_of_mem a hmem, fun x hx => ?_⟩
      rcases mem_cons.mp hx with rfl | hx
      · exact Nat.le_trans hab (hmax b (by simp))
      · exact hmax x hx
    · rw [if_neg hab]
      obtain ⟨hmem, hmax⟩ := ih a
      refine ⟨?_, fun x hx => ?_⟩
      · rcases mem_cons.mp hmem with hmem | hmem
        · rw [hmem]
          simp
        · exact mem_cons_of_mem a (mem_cons_of_mem b hmem)
      · have ha := hmax a (by simp)
        rcases mem_cons.mp hx with rfl | hx
        · exact ha
        · rcases mem_cons.mp hx with rfl | hx
          · omega
          · exact hmax x (mem_cons_of_mem a hx)

theorem maxByKey_spec {α : Type} {key : α → Nat} {as : List α} {a : α}
    (h : maxByKey key as = some a) : a ∈ as ∧ ∀ b ∈ as, key b ≤ key a := by
  cases as with
  | nil => cases h
  | cons first as =>
    cases h
    exact foldl_max key as first

variable (c : Creation host headroomPct)

theorem Creation.last_spec :
    c.last ∈ c.table.partitions ∧ ∀ p ∈ c.table.partitions,
      saturatingAdd p.startLba p.sizeSectors ≤
        saturatingAdd c.last.startLba c.last.sizeSectors :=
  maxByKey_spec c.last_eq

/-- The demand of the filesystem in bytes, at most a hundredth of 2^64 and 1 MiB. -/
def Creation.target : Nat :=
  saturatingMul c.analysis.minFsBytes (100 + headroomPct.toNat) / 100 + mib

theorem Creation.target_le :
    c.target ≤ (2 ^ 64 - 1) / 100 + mib := by
  have hsat : saturatingMul c.analysis.minFsBytes (100 + headroomPct.toNat) ≤ 2 ^ 64 - 1 :=
    Nat.min_le_right _ _
  unfold Creation.target
  omega

theorem Creation.sizes_spec :
    c.sizes.targetMb = divCeil c.target mib ∧
      c.sizes.newPartEndBytes = wrap (c.analysis.partitionStart + c.sizes.targetMb * mib) ∧
      c.sizes.newVirtualBytes =
        wrap (divCeil (wrap (c.sizes.newPartEndBytes + 2 * mib)) mib * mib) := by
  have htarget := c.target_le
  have hbytes := divCeil_mul_lt c.target
  have hone : max (divCeil c.target mib) 1 = divCeil c.target mib := by
    have : mib ≤ c.target := Nat.le_add_left _ _
    unfold divCeil mib at *
    omega
  have hwrap : wrap (saturatingMul c.analysis.minFsBytes (100 + headroomPct.toNat) / 100 + mib) =
      c.target :=
    wrap_eq (Nat.lt_of_le_of_lt c.target_le (by decide))
  have heq := c.sizes_eq
  simp only [Shrink.sizes, hwrap, hone] at heq
  split at heq
  · cases heq
  · have hproduct : wrap (divCeil c.target mib * mib) = divCeil c.target mib * mib :=
      wrap_eq (by unfold mib at *; omega)
    rw [hproduct] at heq
    rw [← some.inj heq]
    exact ⟨rfl, rfl, rfl⟩

theorem Creation.targetMb_le :
    c.sizes.targetMb ≤ 175921860446 := by
  rw [c.sizes_spec.1, divCeil_le_iff]
  have := c.target_le
  unfold mib at *
  omega

/-- The bytes of the filesystem are its demand with the headroom, unless the product is far above
what saturates. -/
theorem Creation.demand_le
    (h : c.analysis.minFsBytes * (100 + headroomPct.toNat) ≤ 100 * (175921860446 * mib)) :
    c.analysis.minFsBytes * (100 + headroomPct.toNat) ≤ 100 * (c.sizes.targetMb * mib) := by
  have hbytes := le_divCeil_mul c.target
  rw [c.sizes_spec.1]
  unfold Creation.target saturatingMul at hbytes ⊢
  generalize c.analysis.minFsBytes * (100 + headroomPct.toNat) = demand at *
  by_cases hfits : demand ≤ 2 ^ 64 - 1
  · rw [Nat.min_eq_left hfits] at hbytes ⊢
    omega
  · have hconst : divCeil ((2 ^ 64 - 1) / 100 + mib) mib = 175921860446 := by decide
    rw [Nat.min_eq_right (by omega), hconst]
    exact h

theorem Creation.le_targetMb :
    c.target ≤ c.sizes.targetMb * mib := by
  rw [c.sizes_spec.1]
  exact le_divCeil_mul c.target

theorem inside_iff (hdisjoint : Disjoint c.table.partitions)
    (hstart : c.last.startLba * 512 + mib < 2 ^ 64) :
    (∀ p ∈ c.table.partitions, p ≠ c.last → ∀ sector, Has p sector →
      (sector + 1) * 512 ≤ divCeil (c.last.startLba * 512) mib * mib) ↔
    ∀ p ∈ c.table.partitions, p.sizeSectors ≠ 0 →
      p.startLba + p.sizeSectors ≤ c.last.startLba + c.last.sizeSectors := by
  obtain ⟨hlast, hmax⟩ := c.last_spec
  have hprefix := divCeil_mul_lt (c.last.startLba * 512)
  constructor
  · intro hinside p hp hsize
    refine Decidable.by_contra fun hlater => ?_
    have hne : p ≠ c.last := by
      rintro rfl
      exact hlater (Nat.le_refl _)
    -- The comparison took both ends for 2^64 - 1, far behind the prefix.
    have hsaturated := hmax p hp
    have hend := hinside p hp hne (p.startLba + p.sizeSectors - 1) (by unfold Has; omega)
    unfold saturatingAdd at hsaturated
    unfold mib at *
    omega
  · intro hfarthest p hp hne sector hsector
    have hsymm : Std.Symm fun p q : Partition => ∀ sector, Has p sector → ¬Has q sector :=
      ⟨fun _ _ h sector hq hp => h sector hp hq⟩
    have hnot := List.Pairwise.forall hdisjoint hp hlast hne sector hsector
    have hend := hfarthest p hp (by unfold Has at hsector; omega)
    have hbefore : sector < c.last.startLba := by
      unfold Has at hnot hsector
      omega
    exact Nat.le_trans (Nat.mul_le_mul_right 512 hbefore) (le_divCeil_mul _)

theorem Sound.fits {c : Creation host headroomPct} (hdisjoint : Disjoint c.table.partitions)
    (h : Sound c) : Fits c := by
  obtain ⟨-, hend, hvirtual⟩ := c.sizes_spec
  have hmin : c.blocks * c.size < 2 ^ 64 := by
    rw [← h.minFsBytes, c.minFsBytes_eq]
    exact wrap_lt _
  have hone : 1 ≤ c.sizes.targetMb := by
    have := c.le_targetMb
    have : mib ≤ c.target := Nat.le_add_left _ _
    unfold mib at *
    omega
  have hendLt : c.sizes.newPartEndBytes < 2 ^ 64 := by
    rw [hend]
    exact wrap_lt _
  have hnewEnd := h.newPartEnd
  have hstart : c.analysis.partitionStart = c.last.startLba * 512 := by
    have hsat := c.partitionStart_eq
    unfold saturatingMul at hsat
    unfold mib at *
    omega
  have hsum : c.sizes.newPartEndBytes - c.analysis.partitionStart = c.sizes.targetMb * mib := by
    omega
  refine ⟨hmin, ?_, ⟨c.sizes.targetMb, divCeil (c.sizes.newPartEndBytes + 2 * mib) mib, ?_, ?_, ?_⟩,
    ?_⟩
  · have hlong := h.long
    have hle := c.targetMb_le
    rw [h.minFsBytes, hsum] at hlong
    exact Nat.le_trans hlong (Nat.mul_le_mul_left _ (Nat.mul_le_mul_right _ hle))
  · have hle := c.le_targetMb
    unfold Creation.target at hle
    rw [h.minFsBytes] at hle
    exact hle
  · have hle := le_divCeil_mul (c.sizes.newPartEndBytes + 2 * mib)
    rw [Nat.add_mul]
    omega
  · rw [← h.newVirtual, ← c.virtualBytes_eq]
    exact h.smaller
  · have hinside := h.inside
    rw [hstart] at hinside
    refine (inside_iff c hdisjoint ?_).mp hinside
    unfold mib at *
    omega

theorem Fits.sound {c : Creation host headroomPct} (hdisjoint : Disjoint c.table.partitions)
    (h : Fits c) : Sound c := by
  obtain ⟨htargetMb, hend, hvirtual⟩ := c.sizes_spec
  obtain ⟨m, k, hm, hk, hbelow⟩ := h.room
  have hold := asU64_lt c.virtualSize
  have hmin : c.analysis.minFsBytes = c.blocks * c.size := by
    rw [c.minFsBytes_eq, wrap_eq h.minFsBytes]
  have hle : c.sizes.targetMb ≤ m := by
    rw [htargetMb, divCeil_le_iff, Creation.target, hmin]
    exact hm
  have hbytes : c.sizes.targetMb * mib ≤ m * mib := Nat.mul_le_mul_right mib hle
  rw [Nat.add_mul] at hk
  have hstart : c.analysis.partitionStart = c.last.startLba * 512 := by
    rw [c.partitionStart_eq]
    unfold saturatingMul
    omega
  have hend' : c.sizes.newPartEndBytes = c.analysis.partitionStart + c.sizes.targetMb * mib := by
    rw [hend, wrap_eq (by omega)]
  have hround : divCeil (c.sizes.newPartEndBytes + 2 * mib) mib * mib ≤ k * mib :=
    Nat.mul_le_mul_right mib (divCeil_le_iff.mpr (by omega))
  have hvirtual' : c.sizes.newVirtualBytes =
      divCeil (c.sizes.newPartEndBytes + 2 * mib) mib * mib := by
    rw [hvirtual, wrap_eq (show c.sizes.newPartEndBytes + 2 * mib < 2 ^ 64 by omega),
      wrap_eq (by omega)]
  refine ⟨hmin, hend', hvirtual', ?_, ?_, ?_, ?_⟩
  · rw [hvirtual', c.virtualBytes_eq]
    omega
  · have := le_divCeil_mul (c.sizes.newPartEndBytes + 2 * mib)
    omega
  · have hlong := c.demand_le (by rw [hmin]; exact h.demand)
    omega
  · rw [hstart]
    exact (inside_iff c hdisjoint (by omega)).mpr h.farthest

/-- A run that creates the new image does it soundly just when the old one has the room. -/
theorem created_sound_iff {format : String} {size : Int}
    (hcreate : DiskCommand.create format size ∈ commands host headroomPct) :
    ∃ c : Creation host headroomPct,
      (∀ command ∈ commands host headroomPct, Planned c.analysis c.sizes command) ∧
        (Disjoint c.table.partitions → (Sound c ↔ Fits c)) := by
  obtain ⟨c, hplanned⟩ := commands_planned hcreate
  exact ⟨c, hplanned, fun hdisjoint => ⟨Sound.fits hdisjoint, Fits.sound hdisjoint⟩⟩

end Room

def lateStart (virtualSize : Int) : Host where
  diskVirtualSize := .ok virtualSize
  diskActualSize := .ok (45 * 1024 * 1024)
  launch := .ok
    { partitions := [{ number := 1, startLba := 40960, sizeSectors := 88064, typeId := 0x83 }]
      tableType := .mbr }
  listFilesystems := .ok fun _ => some "ext4"
  setupNbd := .ok "/dev/nbd0"
  resize2fs _ := .ok ⟨"Estimated minimum size of the filesystem: 10240\n", ""⟩
  dumpe2fs _ := .ok ⟨"Block size:               4096\n", ""⟩
  shutdown := .ok ()
  diskFormat := .ok "qcow2"
  openSource := .ok ()
  openDestination := .ok ()
  partGetGptType _ := .error (.handle "")
  getE2uuid _ := .error (.handle "")
  getE2label _ := .error (.handle "")
  run _ := .ok ()

theorem lateStart_reads {virtualSize : Int} (c : Creation (lateStart virtualSize) 20) :
    c.virtualSize = virtualSize ∧ Disjoint c.table.partitions ∧ c.last.startLba = 40960 ∧
      c.blocks * c.size = 40 * mib := by
  have hvirtual := Except.ok.inj c.virtualSize_eq
  have htable := Except.ok.inj c.table_eq
  have hlast := c.last_eq
  rw [← htable] at hlast
  have hblocks : c.blocks = 10240 := by
    have hread : (minBlocks (lateStart 0) "").toOption = some 10240 := by decide +kernel
    exact some.inj ((congrArg Except.toOption c.blocks_eq).symm.trans hread)
  have hsize : c.size = 4096 := by
    have hread : (blockSize (lateStart 0) "").toOption = some 4096 := by decide +kernel
    exact some.inj ((congrArg Except.toOption c.size_eq).symm.trans hread)
  refine ⟨hvirtual.symm, ?_, ?_, ?_⟩
  · rw [← htable]
    exact pairwise_singleton _ _
  · rw [← some.inj hlast]
    rfl
  · rw [hblocks, hsize]
    rfl

/-- Of 64 MiB, it is smaller than the new image of 71 MiB. -/
theorem lateStart_grows :
    DiskCommand.create "qcow2" (71 * 1024 * 1024) ∈ commands (lateStart (64 * 1024 * 1024)) 20 ∧
      ∀ c : Creation (lateStart (64 * 1024 * 1024)) 20, Disjoint c.table.partitions ∧ ¬Sound c := by
  refine ⟨by decide +kernel, fun c => ?_⟩
  obtain ⟨hvirtual, hdisjoint, hstart, hmin⟩ := lateStart_reads c
  refine ⟨hdisjoint, fun hsound => ?_⟩
  obtain ⟨m, k, hm, hk, hbelow⟩ := (hsound.fits hdisjoint).room
  rw [hmin] at hm
  rw [hstart] at hk
  rw [hvirtual] at hbelow
  have hold : asU64 (64 * 1024 * 1024) = 67108864 := by decide
  have hdemand : saturatingMul (40 * mib) (100 + UInt32.toNat 20) / 100 = 50331648 := by decide
  unfold mib at *
  omega

theorem roomy_sound :
    DiskCommand.create "qcow2" (71 * 1024 * 1024) ∈
        commands (lateStart (256 * 1024 * 1024)) 20 ∧
      ∃ c : Creation (lateStart (256 * 1024 * 1024)) 20,
        (∀ command ∈ commands (lateStart (256 * 1024 * 1024)) 20,
          Planned c.analysis c.sizes command) ∧ Sound c := by
  have hcreate : DiskCommand.create "qcow2" (71 * 1024 * 1024) ∈
      commands (lateStart (256 * 1024 * 1024)) 20 := by
    decide +kernel
  obtain ⟨c, hplanned, hiff⟩ := created_sound_iff hcreate
  obtain ⟨hvirtual, hdisjoint, hstart, hmin⟩ := lateStart_reads c
  refine ⟨hcreate, c, hplanned, (hiff hdisjoint).mpr ⟨?_, ?_, ⟨49, 71, ?_, ?_, ?_⟩, ?_⟩⟩
  · rw [hmin]
    decide
  · rw [hmin]
    decide
  · rw [hmin]
    decide
  · rw [hstart]
    decide
  · rw [hvirtual]
    decide
  · have hlast := c.last_eq
    have htable := Except.ok.inj c.table_eq
    rw [← htable] at hlast ⊢
    intro p hp _
    rw [mem_singleton.mp hp, ← some.inj hlast]
    exact Nat.le_refl _

end Guestkit.Shrink
