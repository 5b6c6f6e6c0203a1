import Guestkit.Guestfs.Handle
import Guestkit.Lib.Attempt
import Guestkit.Lib.Text

/-! The lookups in a registry hive from which the boot key is reconstructed.  Keys, subkey lists and
values are cells at offsets that the hive itself gives.  A lookup returns if and only if the cells
that it comes to are sound: the entries of a subkey list lie inside the hive, index lists do not
lead back into themselves, and the names of values lie inside the hive. -/

namespace Guestkit.SamAes

open Lib Lib.Text ByteString Attempt List

/-- How the standard library reads bytes and 16-bit units as text, with replacements for what is not
text. -/
structure LossyText where
  utf8 : ByteString → String
  utf16 : List Nat → String

def cellDataOffset (offset : Nat) : Nat := 0x1000 + offset + 4

def utf16Units : ByteString → List Nat
  | lo :: hi :: bytes => (lo.toNat + 256 * hi.toNat) :: utf16Units bytes
  | _ => []

structure NkInfo where
  flags : Nat
  subkeyCount : Nat
  subkeysOff : Nat
  valueCount : Nat
  valuesOff : Nat
  classOff : Nat
  classLen : Nat
  name : String

/-- The lists of subkeys: elements of `width` bytes that start with the offset of a key, or offsets
of further lists. -/
inductive ListKind where
  | leaf (width : Nat)
  | index

def listKind (sig : ByteString) : Option ListKind :=
  if sig = ascii "lf" ∨ sig = ascii "lh" then some (.leaf 8)
  else if sig = ascii "li" then some (.leaf 4)
  else if sig = ascii "ri" then some .index
  else none

section Lookups

variable (text : LossyText) (hive : ByteString)

def decodeUtf16leLossy (bytes : ByteString) : String := text.utf16 (utf16Units bytes)

def parseNk (dataOff : Nat) : Attempt Error NkInfo := do
  let d ← orFail (.invalidFormat "nk truncated") (getFrom hive dataOff)
  if d.length < 0x4C ∨ d.take 2 ≠ ascii "nk" then
    fail (.invalidFormat "not an nk cell")
  else
    let flags ← leAt 2 d 0x02
    let subkeyCount ← leAt 4 d 0x14
    let subkeysOff ← leAt 4 d 0x1C
    let valueCount ← leAt 4 d 0x24
    let valuesOff ← leAt 4 d 0x28
    let classOff ← leAt 4 d 0x30
    let nameLen ← leAt 2 d 0x48
    let classLen ← leAt 2 d 0x4A
    let nameBytes ← orFail (.invalidFormat "nk name truncated") (get d 0x4C (0x4C + nameLen))
    let name := if flags &&& 0x20 ≠ 0 then text.utf8 nameBytes
      else decodeUtf16leLossy text nameBytes
    return { flags, subkeyCount, subkeysOff, valueCount, valuesOff, classOff, classLen, name }

def leafElement (d : ByteString) (width i : Nat) : Attempt Error (String × Nat) := do
  let off ← leAt 4 d (4 + i * width)
  let child := cellDataOffset off
  let nk ← parseNk text hive child
  return (nk.name, child)

/-- The fuel bounds how deep lists are nested. -/
def listSubkeysAt : Nat → Nat → Attempt Error (List (String × Nat))
  | 0, _ => .error .fuel
  | fuel + 1, listOff => do
    let d ← orFail (.invalidFormat "subkey list truncated") (getFrom hive listOff)
    if d.length < 4 then fail (.invalidFormat "subkey list too short")
    else
      let count ← leAt 2 d 0x02
      match listKind (d.take 2) with
      | some (.leaf width) => (List.range count).mapM (leafElement text hive d width)
      | some .index =>
        List.flatten <$> (List.range count).mapM fun i => do
          let off ← leAt 4 d (4 + i * 4)
          listSubkeysAt fuel (cellDataOffset off)
      | none => fail (.invalidFormat ("unknown subkey list sig " ++ text.utf8 (d.take 2)))

def listSubkeys (fuel : Nat) (nk : NkInfo) : Attempt Error (List (String × Nat)) :=
  if nk.subkeyCount = 0 ∨ nk.subkeysOff = 0xffffffff then .ok []
  else listSubkeysAt text hive fuel (cellDataOffset nk.subkeysOff)

def toLeBytes (n : Nat) : ByteString :=
  (List.range 4).map fun k => (n / 256 ^ k).toUInt8

def valueName (vk : ByteString) (nameLen flags : Nat) : Attempt Error String :=
  if nameLen = 0 then pure ""
  else do
    let bytes ← slice vk 0x14 (0x14 + nameLen)
    return if flags &&& 1 ≠ 0 then text.utf8 bytes else decodeUtf16leLossy text bytes

/-- The data of a value, which a flag says to be in the place of its offset. -/
def valueData (dataLenRaw dataOff : Nat) : Attempt Error ByteString :=
  let dataSize := dataLenRaw &&& 0x7fffffff
  if dataLenRaw &&& 0x80000000 ≠ 0 then pure ((toLeBytes dataOff).take (min dataSize 4))
  else
    let doff := cellDataOffset dataOff
    orFail (.invalidFormat "value data truncated") (get hive doff (doff + dataSize))

def readVk (vk : ByteString) : Attempt Error (String × ByteString) := do
  let nameLen ← leAt 2 vk 0x02
  let dataLenRaw ← leAt 4 vk 0x04
  let dataOff ← leAt 4 vk 0x08
  let flags ← leAt 2 vk 0x10
  let name ← valueName text vk nameLen flags
  let data ← valueData hive dataLenRaw dataOff
  return (name, data)

def readValue (listOff i : Nat) : Attempt Error (Option (String × ByteString)) := do
  let eoff := listOff + i * 4
  let slot ← orFail (.invalidFormat "value list truncated") (get hive eoff (eoff + 4))
  let vk ← orFail (.invalidFormat "vk truncated") (getFrom hive (cellDataOffset (le slot)))
  if vk.length < 20 ∨ vk.take 2 ≠ ascii "vk" then return none
  else some <$> readVk text hive vk

def readValues (nk : NkInfo) : Attempt Error (List (String × ByteString)) :=
  if nk.valueCount = 0 ∨ nk.valuesOff = 0xffffffff then .ok []
  else
    List.reduceOption <$>
      (List.range nk.valueCount).mapM (readValue text hive (cellDataOffset nk.valuesOff))

def childNamed (component : String) (children : List (String × Nat)) : Option Nat :=
  (children.find? fun child => child.1.toLower = component.toLower).map Prod.snd

/-- Follows the components from a key on; `path` is the whole path, for the error. -/
def descend (fuel : Nat) (path : List String) : List String → Nat → Attempt Error Nat
  | [], cell => .ok cell
  | component :: rest, cell => do
    let nk ← parseNk text hive cell
    let children ← listSubkeys text hive fuel nk
    let next ← orFail (.notFound ("SYSTEM path missing '" ++ join "\\" path ++ "'"))
      (childNamed component children)
    descend fuel path rest next

def findKeyCell (fuel : Nat) (path : List String) : Attempt Error Nat := do
  let rootOff ← leAt 4 hive 0x24
  descend text hive fuel path path (cellDataOffset rootOff)

def readKeyClassname (fuel : Nat) (path : List String) : Attempt Error String := do
  let cell ← findKeyCell text hive fuel path
  let nk ← parseNk text hive cell
  if nk.classLen = 0 ∨ nk.classOff = 0 ∨ nk.classOff = 0xffffffff then
    fail (.invalidFormat ("key " ++ join "\\" path ++ " has empty class name"))
  else
    let classCell := cellDataOffset nk.classOff
    let bytes ← orFail (.invalidFormat "class name truncated")
      (get hive classCell (classCell + nk.classLen))
    return trimEndMatches (· = '\x00') (decodeUtf16leLossy text bytes)

def readDwordValue (fuel : Nat) (path : List String) (value : String) : Attempt Error Nat := do
  let cell ← findKeyCell text hive fuel path
  let nk ← parseNk text hive cell
  let vals ← readValues text hive nk
  match vals.find? fun v => eqIgnoreAsciiCase v.1 value && decide (4 ≤ v.2.length) with
  | some v => leAt 4 v.2 0
  | none => fail (.notFound (join "\\" path ++ "\\" ++ value))

/-- With some amount of fuel, the lookups along a path return a value or an error. -/
def LookupsReturn (path : List String) (value : String) : Prop :=
  ∃ fuel, Returns (findKeyCell text hive fuel path) ∧
    (∀ cell nk, findKeyCell text hive fuel path = .ok cell → parseNk text hive cell = .ok nk →
      Returns (listSubkeys text hive fuel nk) ∧ Returns (readValues text hive nk)) ∧
    Returns (readKeyClassname text hive fuel path) ∧
    Returns (readDwordValue text hive fuel path value)

end Lookups

theorem parseNk_returns {text : LossyText} {hive : ByteString} (dataOff : Nat) :
    Returns (parseNk text hive dataOff) := by
  refine (returns_orFail _ _).bind fun d _ => ?_
  split_ifs with hbad
  · exact returns_fail _
  have hlen : 0x4C ≤ d.length := by
    rw [not_or] at hbad
    omega
  iterate 8 refine (leAt_returns_iff.mpr (by omega)).bind fun _ _ => ?_
  exact (returns_orFail _ _).bind fun _ _ => returns_ok _

section Cells

variable (text : LossyText) (hive : ByteString)

def IsChild (cell : Nat) (child : String × Nat) : Prop :=
  ∃ nk, parseNk text hive cell = .ok nk ∧ child = (nk.name, cell)

/-- The kind of the list at `off` and the number of its entries, if there is a list. -/
def listHeader (off : Nat) : Option (ListKind × Nat) :=
  if off + 4 ≤ hive.length then
    (listKind ((hive.drop off).take 2)).map fun kind => (kind, word 2 hive (off + 2))
  else none

def EntryInside (off width i : Nat) : Prop :=
  off + 4 + i * width + 4 ≤ hive.length

def entryCell (off width i : Nat) : Nat :=
  cellDataOffset (word 4 hive (off + 4 + i * width))

/-- The list at `off` names these keys: each of its entries lies inside the hive and leads to a key,
or to a list that names keys. -/
inductive Names : Nat → List (String × Nat) → Prop
  | leaf {off width count : Nat} (header : listHeader hive off = some (.leaf width, count))
      (children : Nat → String × Nat) (inside : ∀ i < count, EntryInside hive off width i)
      (keys : ∀ i < count, IsChild text hive (entryCell hive off width i) (children i)) :
      Names off ((List.range count).map children)
  | index {off count : Nat} (header : listHeader hive off = some (.index, count))
      (lists : Nat → List (String × Nat)) (inside : ∀ i < count, EntryInside hive off 4 i)
      (nested : ∀ i < count, Names (entryCell hive off 4 i) (lists i)) :
      Names off ((List.range count).map lists).flatten

/-- The entries before entry `i` of a list lead to keys. -/
def KeysBefore (off width i : Nat) : Prop :=
  ∀ j < i, EntryInside hive off width j ∧
    ∃ child, IsChild text hive (entryCell hive off width j) child

/-- The entries before entry `i` of an index lead to lists that name keys. -/
def ListsBefore (off i : Nat) : Prop :=
  ∀ j < i, EntryInside hive off 4 j ∧ ∃ names, Names text hive (entryCell hive off 4 j) names

/-- The list at `off` can be read: each of its entries that comes after entries which lead to keys
lies inside the hive, and an index leads, in finitely many steps, to lists that can be read. -/
inductive Sound : Nat → Prop
  | none {off : Nat} (header : listHeader hive off = none) : Sound off
  | leaf {off width count : Nat} (header : listHeader hive off = some (.leaf width, count))
      (inside : ∀ i < count, KeysBefore text hive off width i → EntryInside hive off width i) :
      Sound off
  | index {off count : Nat} (header : listHeader hive off = some (.index, count))
      (inside : ∀ i < count, ListsBefore text hive off i → EntryInside hive off 4 i)
      (nested : ∀ i < count, ListsBefore text hive off i →
        Sound (entryCell hive off 4 i)) : Sound off

end Cells

section Lists

variable {text : LossyText} {hive : ByteString} {off width count : Nat}
variable {i : Nat} {fuel : Nat} {names : List (String × Nat)}

theorem off_le_of_listHeader {kind : ListKind} (h : listHeader hive off = some (kind, count)) :
    off + 4 ≤ hive.length := by
  by_contra hlen
  rw [listHeader, if_neg hlen] at h
  cases h

theorem le_of_listHeader {kind : ListKind} (h : listHeader hive off = some (kind, count)) :
    off ≤ hive.length := by
  have := off_le_of_listHeader h
  omega

theorem leAt_of_inside (h : EntryInside hive off width i) :
    (leAt 4 (hive.drop off) (4 + i * width) : Attempt Error Nat) =
      .ok (word 4 hive (off + 4 + i * width)) := by
  unfold EntryInside at h
  rw [leAt_eq (by rw [length_drop]; omega), word, word, drop_drop, Nat.add_assoc off 4]

theorem leAt_of_not_inside (hoff : off ≤ hive.length) (h : ¬EntryInside hive off width i) :
    (leAt 4 (hive.drop off) (4 + i * width) : Attempt Error Nat) = .error .panic := by
  unfold EntryInside at h
  exact leAt_panics (by rw [length_drop]; omega)

theorem leafElement_of_inside (h : EntryInside hive off width i) :
    leafElement text hive (hive.drop off) width i =
      (parseNk text hive (entryCell hive off width i) >>= fun nk =>
        pure (nk.name, entryCell hive off width i)) := by
  rw [leafElement, leAt_of_inside h]
  rfl

theorem leafElement_of_not_inside (hoff : off ≤ hive.length) (h : ¬EntryInside hive off width i) :
    leafElement text hive (hive.drop off) width i = .error .panic := by
  rw [leafElement, leAt_of_not_inside hoff h]
  rfl

theorem leafElement_returns_iff (hoff : off ≤ hive.length) :
    Returns (leafElement text hive (hive.drop off) width i) ↔ EntryInside hive off width i := by
  by_cases h : EntryInside hive off width i
  · rw [leafElement_of_inside h]
    exact iff_of_true ((parseNk_returns _).bind fun _ _ => returns_ok _) h
  · rw [leafElement_of_not_inside hoff h]
    exact iff_of_false id h

theorem leafElement_eq_ok_iff (hoff : off ≤ hive.length) {child : String × Nat} :
    leafElement text hive (hive.drop off) width i = .ok child ↔
      EntryInside hive off width i ∧ IsChild text hive (entryCell hive off width i) child := by
  by_cases h : EntryInside hive off width i
  · rw [leafElement_of_inside h, and_iff_right h, except_ok_bind_iff]
    exact exists_congr fun nk => and_congr_right fun _ =>
      ⟨fun heq => (Except.ok.inj heq).symm, fun heq => by rw [heq]; rfl⟩
  · rw [leafElement_of_not_inside hoff h]
    exact iff_of_false (by simp) fun hin => h hin.1

def indexElement (text : LossyText) (hive : ByteString) (fuel off i : Nat) :
    Attempt Error (List (String × Nat)) := do
  let entry ← leAt 4 (hive.drop off) (4 + i * 4)
  listSubkeysAt text hive fuel (cellDataOffset entry)

theorem indexElement_of_inside {fuel i : Nat} (h : EntryInside hive off 4 i) :
    indexElement text hive fuel off i = listSubkeysAt text hive fuel (entryCell hive off 4 i) := by
  rw [indexElement, leAt_of_inside h]
  rfl

theorem indexElement_of_not_inside (hoff : off ≤ hive.length) {fuel i : Nat}
    (h : ¬EntryInside hive off 4 i) :
    indexElement text hive fuel off i = .error .panic := by
  rw [indexElement, leAt_of_not_inside hoff h]
  rfl

theorem inside_of_indexElement (hoff : off ≤ hive.length) {fuel i : Nat}
    (h : Returns (indexElement text hive fuel off i)) : EntryInside hive off 4 i := by
  by_contra hout
  rw [indexElement_of_not_inside hoff hout] at h
  exact h

theorem listSubkeysAt_of_none (h : listHeader hive off = none) :
    ∃ e, ∀ fuel, listSubkeysAt text hive (fuel + 1) off = fail e := by
  simp only [listSubkeysAt, getFrom]
  by_cases hoff : off ≤ hive.length
  · by_cases hlen : off + 4 ≤ hive.length
    · rw [listHeader, if_pos hlen, Option.map_eq_none_iff] at h
      have hd : ¬(hive.drop off).length < 4 := by
        rw [length_drop]
        omega
      refine ⟨.invalidFormat
        ("unknown subkey list sig " ++ text.utf8 ((hive.drop off).take 2)), fun fuel => ?_⟩
      simp only [if_pos hoff, orFail, bind, Except.bind, if_neg hd, h]
      rw [leAt_eq (by omega)]
    · have hd : (hive.drop off).length < 4 := by
        rw [length_drop]
        omega
      refine ⟨.invalidFormat "subkey list too short", fun fuel => ?_⟩
      simp only [if_pos hoff, orFail, bind, Except.bind, if_pos hd]
  · refine ⟨.invalidFormat "subkey list truncated", fun fuel => ?_⟩
    rw [if_neg hoff]
    rfl

theorem listSubkeysAt_of_some {kind : ListKind} (h : listHeader hive off = some (kind, count))
    (fuel : Nat) :
    listSubkeysAt text hive (fuel + 1) off =
      match kind with
      | .leaf width => (List.range count).mapM (leafElement text hive (hive.drop off) width)
      | .index => List.flatten <$> (List.range count).mapM (indexElement text hive fuel off) := by
  have hlen := off_le_of_listHeader h
  rw [listHeader, if_pos hlen, Option.map_eq_some_iff] at h
  obtain ⟨kind', hkind, heq⟩ := h
  cases heq
  have hd : ¬(hive.drop off).length < 4 := by
    rw [length_drop]
    omega
  have hcount : (leAt 2 (hive.drop off) 0x02 : Attempt Error Nat) =
      .ok (word 2 hive (off + 2)) := by
    rw [leAt_eq (by omega), word, word, drop_drop]
  rw [listSubkeysAt, getFrom, if_pos (by omega)]
  simp only [orFail, bind, Except.bind, if_neg hd, hcount, hkind]
  cases kind <;> rfl

theorem listSubkeysAt_succ (h : Returns (listSubkeysAt text hive fuel off)) :
    listSubkeysAt text hive (fuel + 1) off = listSubkeysAt text hive fuel off := by
  induction fuel generalizing off with
  | zero => exact absurd h id
  | succ fuel ih =>
    cases hheader : listHeader hive off with
    | none =>
      obtain ⟨e, he⟩ := listSubkeysAt_of_none hheader
      rw [he, he]
    | some header =>
      obtain ⟨kind, count⟩ := header
      have hoff := le_of_listHeader hheader
      rw [listSubkeysAt_of_some hheader] at h
      rw [listSubkeysAt_of_some hheader, listSubkeysAt_of_some hheader]
      cases kind with
      | leaf width => rfl
      | index =>
        dsimp only at h ⊢
        rw [returns_map_iff] at h
        rw [mapM_congr_of_returns (fun i _ hi => ?_) h]
        have hin := inside_of_indexElement hoff hi
        rw [indexElement_of_inside hin] at hi ⊢
        rw [indexElement_of_inside hin]
        exact ih hi

theorem listSubkeysAt_mono {fuel more : Nat} (hmore : fuel ≤ more)
    (h : Returns (listSubkeysAt text hive fuel off)) :
    listSubkeysAt text hive more off = listSubkeysAt text hive fuel off := by
  induction hmore with
  | refl => rfl
  | step _ ih => rw [listSubkeysAt_succ (ih ▸ h), ih]

theorem names_of_listSubkeysAt (h : listSubkeysAt text hive fuel off = .ok names) :
    Names text hive off names := by
  induction fuel generalizing off names with
  | zero => cases h
  | succ fuel ih =>
    cases hheader : listHeader hive off with
    | none =>
      obtain ⟨e, he⟩ := listSubkeysAt_of_none hheader
      rw [he] at h
      cases h
    | some header =>
      obtain ⟨kind, count⟩ := header
      have hoff := le_of_listHeader hheader
      rw [listSubkeysAt_of_some hheader] at h
      cases kind with
      | leaf width =>
        obtain ⟨children, rfl, hall⟩ := exists_map_of_mapM h
        have helement : ∀ i < count, EntryInside hive off width i ∧
            IsChild text hive (entryCell hive off width i) (children i) := fun i hi =>
          (leafElement_eq_ok_iff hoff).mp (hall i (mem_range.mpr hi))
        exact .leaf hheader children (fun i hi => (helement i hi).1) fun i hi => (helement i hi).2
      | index =>
        cases hlists : (List.range count).mapM (indexElement text hive fuel off) with
        | error stop =>
          dsimp only at h
          rw [hlists] at h
          cases h
        | ok lists =>
          dsimp only at h
          rw [hlists] at h
          cases h
          obtain ⟨names, rfl, hall⟩ := exists_map_of_mapM hlists
          have helement : ∀ i < count, EntryInside hive off 4 i ∧
              Names text hive (entryCell hive off 4 i) (names i) := by
            intro i hi
            have hok := hall i (mem_range.mpr hi)
            have hin := inside_of_indexElement hoff (by rw [hok]; trivial)
            rw [indexElement_of_inside hin] at hok
            exact ⟨hin, ih hok⟩
          exact .index hheader names (fun i hi => (helement i hi).1)
            fun i hi => (helement i hi).2

theorem exists_fuel_bound {count : Nat} {P : Nat → Nat → Prop}
    (hmono : ∀ i fuel more, fuel ≤ more → P i fuel → P i more)
    (h : ∀ i < count, ∃ fuel, P i fuel) : ∃ fuel, ∀ i < count, P i fuel := by
  induction count with
  | zero => exact ⟨0, fun i hi => absurd hi (Nat.not_lt_zero i)⟩
  | succ count ih =>
    obtain ⟨fuel, hfuel⟩ := ih fun i hi => h i (by omega)
    obtain ⟨last, hlast⟩ := h count (by omega)
    refine ⟨max fuel last, fun i hi => ?_⟩
    rcases Nat.lt_succ_iff_lt_or_eq.mp hi with hi | rfl
    · exact hmono i fuel _ (Nat.le_max_left _ _) (hfuel i hi)
    · exact hmono i last _ (Nat.le_max_right _ _) hlast

theorem listSubkeysAt_of_names (h : Names text hive off names) :
    ∃ fuel, listSubkeysAt text hive fuel off = .ok names := by
  induction h with
  | leaf header children inside keys =>
    refine ⟨1, ?_⟩
    rw [listSubkeysAt_of_some header]
    exact mapM_eq_ok fun i hi => (leafElement_eq_ok_iff (le_of_listHeader header)).mpr
      ⟨inside i (mem_range.mp hi), keys i (mem_range.mp hi)⟩
  | index header lists inside _ ih =>
    obtain ⟨fuel, hfuel⟩ := exists_fuel_bound (fun i fuel more hmore hi => by
      rw [listSubkeysAt_mono hmore (by rw [hi]; trivial), hi]) ih
    refine ⟨fuel + 1, ?_⟩
    rw [listSubkeysAt_of_some header]
    dsimp only
    rw [mapM_eq_ok fun i hi => (indexElement_of_inside (inside i (mem_range.mp hi))).trans
      (hfuel i (mem_range.mp hi))]
    rfl

theorem listSubkeysAt_eq_of_names (hreturns : Returns (listSubkeysAt text hive fuel off))
    (h : Names text hive off names) :
    listSubkeysAt text hive fuel off = .ok names := by
  obtain ⟨enough, henough⟩ := listSubkeysAt_of_names h
  have hsame := listSubkeysAt_mono (Nat.le_max_left fuel enough) hreturns
  rw [listSubkeysAt_mono (Nat.le_max_right fuel enough) (by rw [henough]; trivial),
    henough] at hsame
  exact hsame.symm

theorem sound_of_returns (h : Returns (listSubkeysAt text hive fuel off)) :
    Sound text hive off := by
  induction fuel generalizing off with
  | zero => exact absurd h id
  | succ fuel ih =>
    cases hheader : listHeader hive off with
    | none => exact .none hheader
    | some header =>
      obtain ⟨kind, count⟩ := header
      have hoff := le_of_listHeader hheader
      rw [listSubkeysAt_of_some hheader] at h
      cases kind with
      | leaf width =>
        refine .leaf hheader fun i hi hbefore => ?_
        refine (leafElement_returns_iff hoff).mp (returns_range_iff.mp h i hi fun j hj => ?_)
        obtain ⟨hin, child, hchild⟩ := hbefore j hj
        exact ⟨child, (leafElement_eq_ok_iff hoff).mpr ⟨hin, hchild⟩⟩
      | index =>
        dsimp only at h
        rw [returns_map_iff, returns_range_iff] at h
        -- Before entry `i` all elements have a value: they return, and their lists name keys.
        have hreached : ∀ i < count, ListsBefore text hive off i → EntryInside hive off 4 i ∧
            Returns (listSubkeysAt text hive fuel (entryCell hive off 4 i)) := by
          intro i
          induction i using Nat.strong_induction_on with
          | _ i ihi =>
            intro hi hbefore
            have helement : Returns (indexElement text hive fuel off i) := by
              refine h i hi fun j hj => ?_
              obtain ⟨hin, names, hnames⟩ := hbefore j hj
              have hj' := (ihi j hj (by omega) fun k hk => hbefore k (by omega)).2
              exact ⟨names, (indexElement_of_inside hin).trans
                (listSubkeysAt_eq_of_names hj' hnames)⟩
            have hin := inside_of_indexElement hoff helement
            rw [indexElement_of_inside hin] at helement
            exact ⟨hin, helement⟩
        exact .index hheader (fun i hi hbefore => (hreached i hi hbefore).1)
          fun i hi hbefore => ih (hreached i hi hbefore).2

theorem returns_of_sound (h : Sound text hive off) :
    ∃ fuel, Returns (listSubkeysAt text hive fuel off) := by
  induction h with
  | none header =>
    obtain ⟨e, he⟩ := listSubkeysAt_of_none header
    exact ⟨1, by rw [he]; trivial⟩
  | leaf header inside =>
    have hoff := le_of_listHeader header
    refine ⟨1, ?_⟩
    rw [listSubkeysAt_of_some header]
    refine returns_range_iff.mpr fun i hi hbefore => ?_
    refine (leafElement_returns_iff hoff).mpr (inside i hi fun j hj => ?_)
    obtain ⟨child, hchild⟩ := hbefore j hj
    obtain ⟨hin, hkey⟩ := (leafElement_eq_ok_iff hoff).mp hchild
    exact ⟨hin, child, hkey⟩
  | @index off count header inside _ ih =>
    have hbound : ∃ fuel, ∀ i < count, ListsBefore text hive off i →
        Returns (listSubkeysAt text hive fuel (entryCell hive off 4 i)) := by
      refine exists_fuel_bound (fun i fuel more hmore hi hbefore => ?_) fun i hi => ?_
      · rw [listSubkeysAt_mono hmore (hi hbefore)]
        exact hi hbefore
      · by_cases hbefore : ListsBefore text hive off i
        · obtain ⟨fuel, hfuel⟩ := ih i hi hbefore
          exact ⟨fuel, fun _ => hfuel⟩
        · exact ⟨0, fun h => absurd h hbefore⟩
    obtain ⟨fuel, hfuel⟩ := hbound
    refine ⟨fuel + 1, ?_⟩
    rw [listSubkeysAt_of_some header]
    refine returns_map_iff.mpr (returns_range_iff.mpr fun i hi hbefore => ?_)
    have hreached : ListsBefore text hive off i := by
      intro j hj
      obtain ⟨names, hok⟩ := hbefore j hj
      have hin := inside_of_indexElement (le_of_listHeader header) (by rw [hok]; trivial)
      rw [indexElement_of_inside hin] at hok
      exact ⟨hin, names, names_of_listSubkeysAt hok⟩
    rw [indexElement_of_inside (inside i hi hreached)]
    exact hfuel i hi hreached

end Lists

def valueCell (hive : ByteString) (listOff i : Nat) : Option ByteString :=
  (get hive (listOff + i * 4) (listOff + i * 4 + 4)).bind fun slot =>
    getFrom hive (cellDataOffset (le slot))

def IsValue (vk : ByteString) : Prop := ¬(vk.length < 20 ∨ vk.take 2 ≠ ascii "vk")

def NameInside (vk : ByteString) : Prop := 0x14 + word 2 vk 2 ≤ vk.length

def DataInside (hive vk : ByteString) : Prop :=
  word 4 vk 4 &&& 0x80000000 ≠ 0 ∨
    cellDataOffset (word 4 vk 8) + (word 4 vk 4 &&& 0x7fffffff) ≤ hive.length

/-- Each value in the list at `listOff` has its name inside the hive, if it comes after slots that
lead to cells with names and data inside the hive. -/
def ValuesInside (hive : ByteString) (listOff count : Nat) : Prop :=
  ∀ i < count,
    (∀ j < i, ∃ vk, valueCell hive listOff j = some vk ∧
      (IsValue vk → NameInside vk ∧ DataInside hive vk)) →
    ∀ vk, valueCell hive listOff i = some vk → IsValue vk → NameInside vk

section Values

variable {text : LossyText} {hive : ByteString} {vk : ByteString}
variable {listOff i : Nat}

theorem valueName_cases (text : LossyText) (hlen : 20 ≤ vk.length) (nameLen flags : Nat) :
    (0x14 + nameLen ≤ vk.length ∧ ∃ name, valueName text vk nameLen flags = .ok name) ∨
    (¬0x14 + nameLen ≤ vk.length ∧ valueName text vk nameLen flags = .error .panic) := by
  unfold valueName
  by_cases hzero : nameLen = 0
  · rw [if_pos hzero]
    exact Or.inl ⟨by omega, _, rfl⟩
  · rw [if_neg hzero]
    by_cases hin : 0x14 + nameLen ≤ vk.length
    · rw [slice, if_pos ⟨Nat.le_add_right _ _, hin⟩]
      exact Or.inl ⟨hin, _, rfl⟩
    · rw [slice, if_neg fun h => hin h.2]
      exact Or.inr ⟨hin, rfl⟩

theorem valueData_returns (hive : ByteString) (dataLenRaw dataOff : Nat) :
    Returns (valueData hive dataLenRaw dataOff) := by
  unfold valueData
  dsimp only
  split_ifs
  · exact returns_ok _
  · exact returns_orFail _ _

theorem valueData_ok_iff (hive vk : ByteString) :
    (∃ data, valueData hive (word 4 vk 4) (word 4 vk 8) = .ok data) ↔ DataInside hive vk := by
  unfold DataInside valueData
  dsimp only
  by_cases hresident : word 4 vk 4 &&& 0x80000000 ≠ 0
  · rw [if_pos hresident]
    exact iff_of_true ⟨_, rfl⟩ (Or.inl hresident)
  · rw [if_neg hresident, or_iff_right hresident]
    simp only [orFail_eq_ok, get_eq_some]
    constructor
    · rintro ⟨_, hin, -⟩
      exact hin.2
    · intro hin
      exact ⟨_, ⟨Nat.le_add_right _ _, hin⟩, rfl⟩

theorem readVk_eq (hlen : 20 ≤ vk.length) :
    readVk text hive vk = (valueName text vk (word 2 vk 2) (word 2 vk 0x10) >>= fun name =>
      valueData hive (word 4 vk 4) (word 4 vk 8) >>= fun data => pure (name, data)) := by
  rw [readVk, leAt_eq (by omega), leAt_eq (by omega), leAt_eq (by omega), leAt_eq (by omega)]
  rfl

theorem readVk_returns_iff (hlen : 20 ≤ vk.length) :
    Returns (readVk text hive vk) ↔ NameInside vk := by
  rw [readVk_eq hlen]
  rcases valueName_cases text hlen (word 2 vk 2) (word 2 vk 0x10) with
    ⟨hin, name, hname⟩ | ⟨hout, hname⟩
  · rw [hname]
    exact iff_of_true ((valueData_returns _ _ _).bind fun _ _ => returns_ok _) hin
  · rw [hname]
    exact iff_of_false id hout

theorem readVk_ok_iff (text : LossyText) (hlen : 20 ≤ vk.length) :
    (∃ value, readVk text hive vk = .ok value) ↔ NameInside vk ∧ DataInside hive vk := by
  rw [readVk_eq hlen, ← valueData_ok_iff]
  rcases valueName_cases text hlen (word 2 vk 2) (word 2 vk 0x10) with
    ⟨hin, name, hname⟩ | ⟨hout, hname⟩
  · rw [hname, and_iff_right (show NameInside vk from hin)]
    change (∃ value, (valueData hive (word 4 vk 4) (word 4 vk 8) >>= fun data =>
      pure (name, data)) = .ok value) ↔ _
    rw [bind_pure_comp, exists_map_eq_ok]
  · rw [hname]
    exact iff_of_false (fun ⟨_, h⟩ => nomatch h) fun h => hout h.1

theorem readValue_of_none (text : LossyText) (h : valueCell hive listOff i = none) :
    ∃ e, readValue text hive listOff i = fail e := by
  unfold readValue
  dsimp only
  unfold valueCell at h
  cases hslot : get hive (listOff + i * 4) (listOff + i * 4 + 4) with
  | none => exact ⟨_, rfl⟩
  | some slot =>
    rw [hslot, Option.bind_some] at h
    refine ⟨.invalidFormat "vk truncated", ?_⟩
    simp only [orFail, h, bind, Except.bind]
    rfl

theorem readValue_of_some (h : valueCell hive listOff i = some vk) :
    readValue text hive listOff i =
      if vk.length < 20 ∨ vk.take 2 ≠ ascii "vk" then pure none
      else some <$> readVk text hive vk := by
  obtain ⟨slot, hslot, hvk⟩ := Option.bind_eq_some_iff.mp h
  unfold readValue
  dsimp only
  rw [hslot]
  simp only [orFail, hvk, bind, Except.bind]

theorem readValue_returns_iff :
    Returns (readValue text hive listOff i) ↔
      ∀ vk, valueCell hive listOff i = some vk → IsValue vk → NameInside vk := by
  cases hcell : valueCell hive listOff i with
  | none =>
    obtain ⟨e, he⟩ := readValue_of_none text hcell
    rw [he]
    exact iff_of_true trivial fun _ h => nomatch h
  | some vk =>
    rw [readValue_of_some hcell]
    simp only [Option.some.injEq, forall_eq']
    by_cases hvalue : vk.length < 20 ∨ vk.take 2 ≠ ascii "vk"
    · rw [if_pos hvalue]
      exact iff_of_true trivial fun h => absurd hvalue h
    · rw [if_neg hvalue, returns_map_iff, readVk_returns_iff (by rw [not_or] at hvalue; omega)]
      exact ⟨fun h _ => h, fun h => h hvalue⟩

theorem readValue_ok_iff :
    (∃ value, readValue text hive listOff i = .ok value) ↔
      ∃ vk, valueCell hive listOff i = some vk ∧
        (IsValue vk → NameInside vk ∧ DataInside hive vk) := by
  cases hcell : valueCell hive listOff i with
  | none =>
    obtain ⟨e, he⟩ := readValue_of_none text hcell
    rw [he]
    exact iff_of_false (fun ⟨_, h⟩ => nomatch h) fun ⟨_, h, _⟩ => nomatch h
  | some vk =>
    rw [readValue_of_some hcell]
    simp only [Option.some.injEq, exists_eq_left']
    by_cases hvalue : vk.length < 20 ∨ vk.take 2 ≠ ascii "vk"
    · rw [if_pos hvalue]
      exact iff_of_true ⟨none, rfl⟩ fun h => absurd hvalue h
    · rw [if_neg hvalue, exists_map_eq_ok, readVk_ok_iff text (by rw [not_or] at hvalue; omega)]
      exact ⟨fun h _ => h, fun h => h hvalue⟩

def ValuesSound (hive : ByteString) (nk : NkInfo) : Prop :=
  nk.valueCount = 0 ∨ nk.valuesOff = 0xffffffff ∨
    ValuesInside hive (cellDataOffset nk.valuesOff) nk.valueCount

theorem readValues_returns_iff {nk : NkInfo} :
    Returns (readValues text hive nk) ↔ ValuesSound hive nk := by
  unfold readValues ValuesSound
  rw [← or_assoc]
  by_cases hempty : nk.valueCount = 0 ∨ nk.valuesOff = 0xffffffff
  · rw [if_pos hempty]
    exact iff_of_true trivial (Or.inl hempty)
  · rw [if_neg hempty, or_iff_right hempty, returns_map_iff, returns_range_iff]
    simp only [readValue_ok_iff, readValue_returns_iff]
    rfl

end Values

def SubkeysSound (text : LossyText) (hive : ByteString) (nk : NkInfo) : Prop :=
  nk.subkeyCount = 0 ∨ nk.subkeysOff = 0xffffffff ∨
    Sound text hive (cellDataOffset nk.subkeysOff)

def Subkeys (text : LossyText) (hive : ByteString) (nk : NkInfo) (names : List (String × Nat)) :
    Prop :=
  if nk.subkeyCount = 0 ∨ nk.subkeysOff = 0xffffffff then names = []
  else Names text hive (cellDataOffset nk.subkeysOff) names

/-- Each key on a path from `cell` has subkeys that can be read, and the last one values that can be
read. -/
def PathSound (text : LossyText) (hive : ByteString) : List String → Nat → Prop
  | [], cell => ∀ nk, parseNk text hive cell = .ok nk →
      SubkeysSound text hive nk ∧ ValuesSound hive nk
  | component :: rest, cell => ∀ nk, parseNk text hive cell = .ok nk →
      SubkeysSound text hive nk ∧
      ∀ names next, Subkeys text hive nk names → childNamed component names = some next →
        PathSound text hive rest next

section Paths

variable {text : LossyText} {hive : ByteString} {nk : NkInfo}
variable {fuel more : Nat} {path rest : List String} {cell : Nat}

theorem listSubkeys_mono (hmore : fuel ≤ more) (h : Returns (listSubkeys text hive fuel nk)) :
    listSubkeys text hive more nk = listSubkeys text hive fuel nk := by
  unfold listSubkeys at h ⊢
  split_ifs at h ⊢
  · rfl
  · exact listSubkeysAt_mono hmore h

theorem returns_listSubkeys_iff :
    (∃ fuel, Returns (listSubkeys text hive fuel nk)) ↔ SubkeysSound text hive nk := by
  unfold listSubkeys SubkeysSound
  rw [← or_assoc]
  by_cases hempty : nk.subkeyCount = 0 ∨ nk.subkeysOff = 0xffffffff
  · simp only [if_pos hempty]
    exact iff_of_true ⟨0, trivial⟩ (Or.inl hempty)
  · simp only [if_neg hempty, or_iff_right hempty]
    exact ⟨fun ⟨_, h⟩ => sound_of_returns h, returns_of_sound⟩

theorem listSubkeys_eq_ok_iff {names : List (String × Nat)}
    (h : Returns (listSubkeys text hive fuel nk)) :
    listSubkeys text hive fuel nk = .ok names ↔ Subkeys text hive nk names := by
  unfold listSubkeys Subkeys at *
  split_ifs at h ⊢
  · rw [Except.ok.injEq]
    exact eq_comm
  · exact ⟨names_of_listSubkeysAt, listSubkeysAt_eq_of_names h⟩

/-- What a path from `cell` asks of an amount of fuel. -/
def PathReturns (text : LossyText) (hive : ByteString) (path : List String) (fuel : Nat)
    (rest : List String) (cell : Nat) : Prop :=
  Returns (descend text hive fuel path rest cell) ∧
    ∀ last nk, descend text hive fuel path rest cell = .ok last →
      parseNk text hive last = .ok nk →
      Returns (listSubkeys text hive fuel nk) ∧ Returns (readValues text hive nk)

theorem descend_mono (hmore : fuel ≤ more) (h : Returns (descend text hive fuel path rest cell)) :
    descend text hive more path rest cell = descend text hive fuel path rest cell := by
  induction rest generalizing cell with
  | nil => rfl
  | cons component rest ih =>
    rw [descend, returns_bind_iff] at h
    rw [descend, descend]
    cases hnk : parseNk text hive cell with
    | error stop => rfl
    | ok nk =>
      obtain ⟨hlist, hrest⟩ := returns_bind_iff.mp (h.2 nk hnk)
      change (listSubkeys text hive more nk >>= _) = (listSubkeys text hive fuel nk >>= _)
      rw [listSubkeys_mono hmore hlist]
      cases hnames : listSubkeys text hive fuel nk with
      | error stop => rfl
      | ok names =>
        cases hnext : childNamed component names with
        | none =>
          simp only [bind, Except.bind, hnext]
          rfl
        | some next =>
          have hdescend := (returns_bind_iff.mp (hrest names hnames)).2 next
            (by rw [hnext]; rfl)
          simp only [bind, Except.bind, hnext, orFail]
          exact ih hdescend

theorem PathReturns.mono (hmore : fuel ≤ more) (h : PathReturns text hive path fuel rest cell) :
    PathReturns text hive path more rest cell := by
  refine ⟨by rw [descend_mono hmore h.1]; exact h.1, fun last nk hlast hnk => ?_⟩
  rw [descend_mono hmore h.1] at hlast
  obtain ⟨hlist, hvalues⟩ := h.2 last nk hlast hnk
  exact ⟨by rw [listSubkeys_mono hmore hlist]; exact hlist, hvalues⟩

theorem pathReturns_cons_iff {component : String} (hnk : parseNk text hive cell = .ok nk) :
    PathReturns text hive path fuel (component :: rest) cell ↔
      Returns (listSubkeys text hive fuel nk) ∧
      ∀ names next, Subkeys text hive nk names → childNamed component names = some next →
        PathReturns text hive path fuel rest next := by
  have hdescend : descend text hive fuel path (component :: rest) cell =
      (listSubkeys text hive fuel nk >>= fun names =>
        orFail (.notFound ("SYSTEM path missing '" ++ join "\\" path ++ "'"))
          (childNamed component names) >>= descend text hive fuel path rest) := by
    rw [descend, hnk]
    rfl
  by_cases hlist : Returns (listSubkeys text hive fuel nk)
  · rw [and_iff_right hlist]
    simp only [← listSubkeys_eq_ok_iff hlist]
    unfold PathReturns
    rw [hdescend]
    cases hnames : listSubkeys text hive fuel nk with
    | error stop =>
      rw [hnames] at hlist
      refine iff_of_true ⟨returns_bind_iff.mpr ⟨hlist, fun _ h => nomatch h⟩, ?_⟩
        fun _ _ h => nomatch h
      intro last nk' hlast
      cases hlast
    | ok names =>
      change (Returns (orFail _ (childNamed component names) >>= _) ∧
        ∀ last nk, (orFail _ (childNamed component names) >>= _) = .ok last → _) ↔ _
      cases hnext : childNamed component names with
      | none =>
        refine iff_of_true ⟨trivial, fun last nk' hlast => nomatch hlast⟩ ?_
        intro names' next heq hchild
        cases heq
        rw [hnext] at hchild
        cases hchild
      | some next =>
        constructor
        · intro h names' next' heq hchild
          cases heq
          rw [hnext] at hchild
          cases hchild
          exact h
        · intro h
          exact h names next rfl hnext
  · refine iff_of_false (fun h => hlist ?_) fun h => hlist h.1
    have hreturns := h.1
    rw [hdescend] at hreturns
    exact (returns_bind_iff.mp hreturns).1

theorem pathReturns_iff_sound (path rest : List String) (cell : Nat) :
    (∃ fuel, PathReturns text hive path fuel rest cell) ↔ PathSound text hive rest cell := by
  induction rest generalizing cell with
  | nil =>
    constructor
    · rintro ⟨fuel, -, h⟩ nk hnk
      obtain ⟨hlist, hvalues⟩ := h cell nk rfl hnk
      exact ⟨returns_listSubkeys_iff.mp ⟨fuel, hlist⟩, readValues_returns_iff.mp hvalues⟩
    · intro h
      cases hnk : parseNk text hive cell with
      | error stop =>
        refine ⟨0, trivial, fun last nk hlast hlastNk => ?_⟩
        cases hlast
        rw [hnk] at hlastNk
        cases hlastNk
      | ok nk =>
        obtain ⟨hsubkeys, hvalues⟩ := h nk hnk
        obtain ⟨fuel, hfuel⟩ := returns_listSubkeys_iff.mpr hsubkeys
        refine ⟨fuel, trivial, fun last nk' hlast hlastNk => ?_⟩
        cases hlast
        rw [hnk] at hlastNk
        cases hlastNk
        exact ⟨hfuel, readValues_returns_iff.mpr hvalues⟩
  | cons component rest ih =>
    rw [PathSound]
    cases hnk : parseNk text hive cell with
    | error stop =>
      refine iff_of_true ⟨0, ?_, ?_⟩ fun _ h => nomatch h
      · rw [descend, returns_bind_iff]
        exact ⟨parseNk_returns cell, fun nk h => by rw [hnk] at h; cases h⟩
      · intro last nk hlast
        rw [descend, hnk] at hlast
        cases hlast
    | ok nk =>
      simp only [Except.ok.injEq, forall_eq', pathReturns_cons_iff hnk]
      constructor
      · rintro ⟨fuel, hlist, hnext⟩
        exact ⟨returns_listSubkeys_iff.mp ⟨fuel, hlist⟩, fun names next hnames hchild =>
          (ih next).mp ⟨fuel, hnext names next hnames hchild⟩⟩
      · rintro ⟨hsubkeys, hnext⟩
        obtain ⟨fuel, hlist⟩ := returns_listSubkeys_iff.mpr hsubkeys
        by_cases hchild : ∃ names next, Subkeys text hive nk names ∧
            childNamed component names = some next
        · obtain ⟨names, next, hnames, hchild⟩ := hchild
          obtain ⟨more, hmore⟩ := (ih next).mpr (hnext names next hnames hchild)
          have hlist' : Returns (listSubkeys text hive (max fuel more) nk) := by
            rw [listSubkeys_mono (Nat.le_max_left fuel more) hlist]
            exact hlist
          refine ⟨max fuel more, hlist', fun names' next' hnames' hchild' => ?_⟩
          -- A list names its keys in one way, so there is one next cell.
          have hsame : names' = names := by
            have h := (listSubkeys_eq_ok_iff hlist').mpr hnames'
            rw [(listSubkeys_eq_ok_iff hlist').mpr hnames] at h
            exact (Except.ok.inj h).symm
          rw [hsame, hchild, Option.some.injEq] at hchild'
          rw [← hchild']
          exact hmore.mono (Nat.le_max_right fuel more)
        · exact ⟨fuel, hlist, fun names next hnames hnamed =>
            absurd ⟨names, next, hnames, hnamed⟩ hchild⟩

def rootCell (hive : ByteString) : Nat := cellDataOffset (word 4 hive 0x24)

theorem findKeyCell_eq (hlen : 0x1000 ≤ hive.length) (fuel : Nat) (path : List String) :
    findKeyCell text hive fuel path = descend text hive fuel path path (rootCell hive) := by
  rw [findKeyCell, leAt_eq (by omega)]
  rfl

theorem readKeyClassname_returns {path : List String}
    (h : Returns (findKeyCell text hive fuel path)) :
    Returns (readKeyClassname text hive fuel path) := by
  refine h.bind fun cell _ => (parseNk_returns cell).bind fun nk _ => ?_
  split_ifs
  · exact returns_fail _
  · exact (returns_orFail _ _).bind fun _ _ => returns_ok _

theorem readDwordValue_returns {path : List String} (value : String)
    (h : Returns (findKeyCell text hive fuel path))
    (hvalues : ∀ cell nk, findKeyCell text hive fuel path = .ok cell →
      parseNk text hive cell = .ok nk → Returns (readValues text hive nk)) :
    Returns (readDwordValue text hive fuel path value) := by
  refine h.bind fun cell hcell => (parseNk_returns cell).bind fun nk hnk => ?_
  refine (hvalues cell nk hcell hnk).bind fun vals _ => ?_
  split
  · rename_i v hv
    have hv' := List.find?_some hv
    rw [Bool.and_eq_true, decide_eq_true_eq] at hv'
    exact leAt_returns_iff.mpr hv'.2
  · exact returns_fail _

/-- The lookups along a path return if and only if the cells that the path comes to are sound. -/
theorem lookupsReturn_iff (text : LossyText) {hive : ByteString} (hlen : 0x1000 ≤ hive.length)
    (path : List String) (value : String) :
    LookupsReturn text hive path value ↔ PathSound text hive path (rootCell hive) := by
  rw [← pathReturns_iff_sound path path]
  unfold LookupsReturn
  constructor
  · rintro ⟨fuel, hfind, hkey, -, -⟩
    rw [findKeyCell_eq hlen] at hfind
    simp only [findKeyCell_eq hlen] at hkey
    exact ⟨fuel, hfind, hkey⟩
  · rintro ⟨fuel, hfind, hkey⟩
    rw [← findKeyCell_eq hlen] at hfind
    simp only [← findKeyCell_eq hlen] at hkey
    exact ⟨fuel, hfind, hkey, readKeyClassname_returns hfind,
      readDwordValue_returns value hfind fun cell nk hcell hnk => (hkey cell nk hcell hnk).2⟩

/-- A root key with subkeys that cannot be read stops every lookup below it. -/
theorem not_lookupsReturn_of_root (hlen : 0x1000 ≤ hive.length)
    (hnk : parseNk text hive (rootCell hive) = .ok nk) (hsubkeys : ¬SubkeysSound text hive nk)
    (component value : String) (rest : List String) :
    ¬LookupsReturn text hive (component :: rest) value := by
  rintro ⟨fuel, hfind, -⟩
  rw [findKeyCell_eq hlen, descend, returns_bind_iff] at hfind
  have hlist := (returns_bind_iff.mp (hfind.2 nk hnk)).1
  exact hsubkeys (returns_listSubkeys_iff.mp ⟨fuel, hlist⟩)

/-! A hive that ends after the header of the subkey list of its root key. -/

def baseBlock : ByteString := ascii "regf" ++ List.replicate 4096 0

def rootKey : ByteString :=
  ascii "nk" ++ [0x20, 0] ++ List.replicate 16 0 ++ [1, 0, 0, 0] ++ List.replicate 4 0 ++
    [0x4C, 0, 0, 0] ++ List.replicate 44 0

def cutHive : ByteString := baseBlock ++ (rootKey ++ (ascii "lf" ++ [1, 0]))

def plainText : LossyText where
  utf8 bytes := String.ofList (bytes.map fun b => Char.ofNat b.toNat)
  utf16 units := String.ofList (units.map Char.ofNat)

theorem baseBlock_length : baseBlock.length = 0x1004 := by
  rw [baseBlock, length_append, length_replicate]
  rfl

theorem cutHive_length : cutHive.length = 0x1054 := by
  rw [cutHive, length_append, baseBlock_length]
  rfl

theorem cutHive_drop_root : cutHive.drop 0x1004 = rootKey ++ (ascii "lf" ++ [1, 0]) :=
  drop_left' baseBlock_length

theorem cutHive_drop_list : cutHive.drop 0x1050 = ascii "lf" ++ [1, 0] := by
  rw [show 0x1050 = 0x1004 + 0x4C from rfl, ← drop_drop, cutHive_drop_root]
  rfl

def rootInfo : NkInfo where
  flags := 0x20
  subkeyCount := 1
  subkeysOff := 0x4C
  valueCount := 0
  valuesOff := 0
  classOff := 0
  classLen := 0
  name := ""

theorem cutHive_root : parseNk plainText cutHive 0x1004 = .ok rootInfo := by
  rw [parseNk, getFrom, cutHive_length, cutHive_drop_root, if_pos (by decide)]
  rfl

theorem cutHive_list : listHeader cutHive 0x1050 = some (.leaf 8, 1) := by
  rw [listHeader, cutHive_length, if_pos (by decide), word, ← drop_drop, cutHive_drop_list]
  rfl

theorem cutHive_list_not_sound : ¬Sound plainText cutHive 0x1050 := by
  intro h
  cases h with
  | none header => simp [cutHive_list] at header
  | index header => simp [cutHive_list] at header
  | leaf header inside =>
    rw [cutHive_list] at header
    cases header
    have hin := inside 0 (by decide) fun j hj => absurd hj (Nat.not_lt_zero j)
    rw [EntryInside, cutHive_length] at hin
    exact absurd hin (by decide)

theorem cutHive_not_lookupsReturn :
    0x1000 ≤ cutHive.length ∧ cutHive.take 4 = ascii "regf" ∧
      ¬LookupsReturn plainText cutHive ["Select"] "Current" := by
  have hlen : 0x1000 ≤ cutHive.length := by rw [cutHive_length]; decide
  have hsubkeys : ¬SubkeysSound plainText cutHive rootInfo := by
    rintro (hcount | hoff | hsound)
    · cases hcount
    · cases hoff
    · exact cutHive_list_not_sound hsound
  refine ⟨hlen, ?_, not_lookupsReturn_of_root hlen cutHive_root hsubkeys "Select" "Current" []⟩
  rw [cutHive, baseBlock, append_assoc]
  exact take_left' rfl

theorem cutHive_lookupsReturn_iff :
    LookupsReturn plainText cutHive [] "Current" ↔
      PathSound plainText cutHive [] (rootCell cutHive) :=
  lookupsReturn_iff plainText (by rw [cutHive_length]; decide) [] "Current"

end Paths

end Guestkit.SamAes
