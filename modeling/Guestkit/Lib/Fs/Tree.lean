import Mathlib

/-! File trees.  A location lists the names from an object up to the root, so that a child is a
`cons` and an object lies below a directory when the directory's location is a suffix of its own.
Every object of a tree lies in a directory. -/

namespace Guestkit.Lib.Fs

open Function

/-- The contents of a file: a text, or bytes that are not one. -/
inductive Data where
  | text (s : String)
  | raw (bytes : List UInt8)
  deriving DecidableEq

def Data.bytes : Data → List UInt8
  | text s => s.toByteArray.data.toList
  | raw bytes => bytes

def Data.ofBytes (bytes : List UInt8) : Data :=
  match String.fromUTF8? ⟨bytes.toArray⟩ with
  | some s => .text s
  | none => .raw bytes

theorem Data.bytes_ofBytes (bytes : List UInt8) : (Data.ofBytes bytes).bytes = bytes := by
  unfold Data.ofBytes
  split
  · next s hs =>
    unfold String.fromUTF8? at hs
    split at hs
    · cases hs
      rfl
    · cases hs
  · rfl

inductive Node where
  | file (data : Data) (mode : Nat)
  | dir
  | link (target : String)
  deriving DecidableEq

abbrev Loc := List String

structure Tree where
  node : Loc → Option Node
  root : node [] = some .dir
  parent : ∀ name dir, node (name :: dir) ≠ none → node dir = some .dir

namespace Tree

variable {t : Tree} {loc : Loc} {n : Node}

theorem parent_of_some {name : String} {dir : Loc} (h : t.node (name :: dir) = some n) :
    t.node dir = some .dir :=
  t.parent name dir (by rw [h]; simp)

theorem dir_of_suffix {top : Loc} (h : t.node loc ≠ none) (hsuffix : top <:+ loc)
    (hne : top ≠ loc) : t.node top = some .dir := by
  induction loc with
  | nil => exact absurd (List.suffix_nil.mp hsuffix) hne
  | cons name dir ih =>
    have hdir := t.parent name dir h
    rcases List.suffix_cons_iff.mp hsuffix with heq | hbelow
    · exact absurd heq hne
    · by_cases htop : top = dir
      · rw [htop]
        exact hdir
      · exact ih (by rw [hdir]; simp) hbelow htop

def Fits (t : Tree) (loc : Loc) (n : Node) : Prop :=
  loc ≠ [] ∧ t.node loc.tail = some .dir ∧ (t.node loc = some .dir → n = .dir)

instance (t : Tree) (loc : Loc) (n : Node) : Decidable (t.Fits loc n) :=
  inferInstanceAs (Decidable (_ ∧ _ ∧ (_ → _)))

def put (t : Tree) (loc : Loc) (n : Node) : Tree :=
  if h : t.Fits loc n then
    { node := update t.node loc (some n)
      root := by
        rw [update_of_ne (Ne.symm h.1)]
        exact t.root
      parent := by
        intro name dir hnode
        have hdir : t.node dir = some .dir := by
          by_cases heq : name :: dir = loc
          · rw [← heq] at h
            exact h.2.1
          · rw [update_of_ne heq] at hnode
            exact t.parent name dir hnode
        by_cases heq : dir = loc
        · rw [heq] at hdir
          rw [heq, update_self, h.2.2 hdir]
        · rw [update_of_ne heq]
          exact hdir }
  else t

theorem put_node (h : t.Fits loc n) : (t.put loc n).node = update t.node loc (some n) := by
  rw [put, dif_pos h]

def erase (t : Tree) (loc : Loc) : Tree :=
  if h : t.node loc ≠ some .dir then
    { node := update t.node loc none
      root := by
        rw [update_of_ne fun heq => h (by rw [← heq]; exact t.root)]
        exact t.root
      parent := by
        intro name dir hnode
        have hdir : t.node dir = some .dir := by
          by_cases heq : name :: dir = loc
          · rw [heq, update_self] at hnode
            exact absurd rfl hnode
          · rw [update_of_ne heq] at hnode
            exact t.parent name dir hnode
        by_cases heq : dir = loc
        · exact absurd (heq ▸ hdir) h
        · rw [update_of_ne heq]
          exact hdir }
  else t

theorem erase_node (h : t.node loc ≠ some .dir) :
    (t.erase loc).node = update t.node loc none := by
  rw [erase, dif_pos h]

def empty : Tree where
  node loc := if loc = [] then some .dir else none
  root := rfl
  parent := by simp

def ofList (objects : List (Loc × Node)) : Tree :=
  objects.foldl (fun t o => t.put o.1 o.2) empty

end Tree

end Guestkit.Lib.Fs
