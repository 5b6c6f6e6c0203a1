import Mathlib

/-! Functions of Rust's `str` over the characters of a string. -/

namespace Guestkit.Lib.Text

open List

variable {α : Type} {c : Char} {s pat : String}

/-- An instance of Batteries goes through all characters. -/
instance decidableChars (p : Char → Prop) [DecidablePred p] (l : List Char) :
    Decidable (∀ c ∈ l, p c) :=
  l.decidableBAll p

def split (c : Char) (s : String) : List String :=
  (s.toList.splitOn c).map String.ofList

def join (sep : String) : List String → String
  | [] => ""
  | [s] => s
  | s :: t :: rest => s ++ sep ++ join sep (t :: rest)

def startsWith (pre s : String) : Bool :=
  pre.toList.isPrefixOf s.toList

def endsWith (post s : String) : Bool :=
  post.toList.isSuffixOf s.toList

def stripPrefix (pre s : String) : Option String :=
  if startsWith pre s then some (String.ofList (s.toList.drop pre.toList.length)) else none

def isInfix (pat : List Char) : List Char → Bool
  | [] => pat.isEmpty
  | a :: as => pat.isPrefixOf (a :: as) || isInfix pat as

def contains (s pat : String) : Bool :=
  isInfix pat.toList s.toList

def trimStartMatches (p : Char → Bool) (s : String) : String :=
  String.ofList (s.toList.dropWhile p)

def trimEndMatches (p : Char → Bool) (s : String) : String :=
  String.ofList (s.toList.reverse.dropWhile p).reverse

def stripPrefixes (pre : List Char) : Nat → List Char → List Char
  | 0, s => s
  | n + 1, s => if pre.isPrefixOf s then stripPrefixes pre n (s.drop pre.length) else s

/-- `s` without all its repetitions of the nonempty text `pre` at the start. -/
def trimStartText (pre s : String) : String :=
  String.ofList (stripPrefixes pre.toList s.toList.length s.toList)

/-- The characters with the Unicode property `White_Space`. -/
def isWhitespace (c : Char) : Bool :=
  (9 ≤ c.toNat && c.toNat ≤ 13) || (0x2000 ≤ c.toNat && c.toNat ≤ 0x200a) ||
    [0x20, 0x85, 0xa0, 0x1680, 0x2028, 0x2029, 0x202f, 0x205f, 0x3000].contains c.toNat

def trimStart (s : String) : String := trimStartMatches isWhitespace s

def trimEnd (s : String) : String := trimEndMatches isWhitespace s

def trim (s : String) : String := trimEndMatches isWhitespace (trimStart s)

def replaceChars (cs : List Char) (r : String) (s : String) : String :=
  String.ofList (s.toList.flatMap fun c => if cs.contains c then r.toList else [c])

def stripCarriageReturn (line : List Char) : List Char :=
  match line.reverse with
  | '\r' :: rest => rest.reverse
  | _ => line

/-- The lines of `s` without their ends; the text after the last line feed is a line unless it is
empty. -/
def lines (s : String) : List String :=
  let pieces := s.toList.splitOn '\n'
  let full := pieces.dropLast.map stripCarriageReturn
  let last := if pieces.getLast? = some [] then [] else pieces.getLast?.toList
  (full ++ last).map String.ofList

def splitWhitespace (s : String) : List String :=
  let blank := s.toList.map fun c => if isWhitespace c then ' ' else c
  ((blank.splitOn ' ').filter fun piece => !piece.isEmpty).map String.ofList

def splitOnce (c : Char) (s : String) : Option (String × String) :=
  match s.toList.dropWhile (· ≠ c) with
  | [] => none
  | _ :: rest => some (String.ofList (s.toList.takeWhile (· ≠ c)), String.ofList rest)

def eqIgnoreAsciiCase (s t : String) : Bool :=
  s.toLower = t.toLower

/-- What the standard library does by the tables of Unicode, and how it writes floating-point
numbers and quoted texts. -/
structure StdText where
  toLowercase : String → String
  toUppercase : String → String
  display : Float → String
  displayRounded : Float → String
  debug : String → String

def StdText.ascii : StdText where
  toLowercase := String.toLower
  toUppercase := String.toUpper
  display _ := ""
  displayRounded _ := ""
  debug s := "\"" ++ s ++ "\""

def StdText.debugList (std : StdText) (items : List String) : String :=
  "[" ++ join ", " (items.map std.debug) ++ "]"

def count (c : Char) (s : String) : Nat := s.toList.count c

def digit (radix : Nat) (c : Char) : Option Nat :=
  let value := if '0' ≤ c ∧ c ≤ '9' then some (c.toNat - '0'.toNat)
    else if 'a' ≤ c ∧ c ≤ 'z' then some (c.toNat - 'a'.toNat + 10)
    else if 'A' ≤ c ∧ c ≤ 'Z' then some (c.toNat - 'A'.toNat + 10)
    else none
  value.filter (· < radix)

def parseDigits (radix bound : Nat) : Nat → List Char → Except String Nat
  | n, [] => .ok n
  | n, c :: cs =>
    match digit radix c with
    | none => .error "invalid digit found in string"
    | some d =>
      if n * radix + d < bound then parseDigits radix bound (n * radix + d) cs
      else .error "number too large to fit in target type"

/-- The unsigned number below `bound` that `s` writes in base `radix`, with an optional plus
sign. -/
def parseUnsigned (radix bound : Nat) (s : String) : Except String Nat :=
  match s.toList with
  | [] => .error "cannot parse integer from empty string"
  | ['+'] => .error "invalid digit found in string"
  | '+' :: cs => parseDigits radix bound 0 cs
  | cs => parseDigits radix bound 0 cs

theorem splitOn_not_mem [BEq α] [LawfulBEq α] (x : α) (xs : List α) :
    ∀ l ∈ xs.splitOn x, x ∉ l := by
  have hprepend : ∀ (as acc : List α), x ∉ acc →
      ∀ l ∈ as.splitOnPPrepend (· == x) acc, x ∉ l := by
    intro as
    induction as with
    | nil =>
      intro acc hacc l hl
      rw [mem_singleton.mp hl]
      simpa using hacc
    | cons a as ih =>
      intro acc hacc l hl
      rw [splitOnPPrepend_cons_eq_if] at hl
      split at hl
      · rcases mem_cons.mp hl with rfl | hl
        · simpa using hacc
        · exact ih [] (by simp) l hl
      · rename_i hne
        refine ih (a :: acc) (fun hmem => ?_) l hl
        rcases mem_cons.mp hmem with heq | hmem
        · exact hne (by simp [heq])
        · exact hacc hmem
  exact hprepend xs [] (by simp)

theorem split_not_mem (c : Char) (s : String) : ∀ piece ∈ split c s, c ∉ piece.toList := by
  intro piece hpiece
  obtain ⟨l, hl, rfl⟩ := mem_map.mp hpiece
  simpa using splitOn_not_mem c s.toList l hl

theorem split_ne_nil (c : Char) (s : String) : split c s ≠ [] := by
  simp [split]

theorem join_toList (sep : String) (pieces : List String) :
    (join sep pieces).toList = sep.toList.intercalate (pieces.map String.toList) := by
  induction pieces with
  | nil => rfl
  | cons a pieces ih =>
    cases pieces with
    | nil => simp [join, List.intercalate]
    | cons b rest =>
      rw [join, String.toList_append, String.toList_append, ih]
      simp [List.intercalate]

theorem split_join {pieces : List String} (hne : pieces ≠ [])
    (h : ∀ piece ∈ pieces, c ∉ piece.toList) :
    split c (join (String.singleton c) pieces) = pieces := by
  have hsep : (String.singleton c).toList = [c] := by simp
  rw [split, join_toList, hsep, splitOn_intercalate c (by simpa using h) (by simpa using hne),
    map_map]
  simp [Function.comp_def]

theorem join_append (sep : String) {xs ys : List String} (hxs : xs ≠ []) (hys : ys ≠ []) :
    join sep (xs ++ ys) = join sep xs ++ sep ++ join sep ys := by
  induction xs with
  | nil => exact absurd rfl hxs
  | cons x xs ih =>
    cases xs with
    | nil =>
      obtain ⟨y, ys, rfl⟩ := exists_cons_of_ne_nil hys
      rfl
    | cons x' xs =>
      have hrest := ih (cons_ne_nil x' xs)
      simp only [cons_append, join] at hrest ⊢
      rw [hrest]
      simp only [String.append_assoc]

theorem join_split (c : Char) (s : String) : join (String.singleton c) (split c s) = s := by
  refine String.toList_injective ?_
  have hsep : (String.singleton c).toList = [c] := by simp
  rw [join_toList, hsep, split, map_map]
  simp [Function.comp_def, intercalate_splitOn]

theorem mem_split {s piece : String} :
    piece ∈ split c s ↔ piece.toList ∈ s.toList.splitOn c := by
  rw [split, mem_map]
  constructor
  · rintro ⟨l, hl, rfl⟩
    rwa [String.toList_ofList]
  · intro hmem
    exact ⟨piece.toList, hmem, String.ofList_toList⟩

theorem flatMap_splitOn [BEq α] [LawfulBEq α] (x : α) (xs : List α) :
    (xs.splitOn x).flatMap (· ++ [x]) = xs ++ [x] := by
  have hflat : ∀ ls : List (List α), ls ≠ [] →
      ls.flatMap (· ++ [x]) = [x].intercalate ls ++ [x] := by
    intro ls hne
    induction ls with
    | nil => exact absurd rfl hne
    | cons l ls ih =>
      cases ls with
      | nil => simp [List.intercalate]
      | cons l' ls =>
        rw [flatMap_cons, ih (cons_ne_nil _ _)]
        simp [List.intercalate]
  rw [hflat _ (splitOn_ne_nil x xs), intercalate_splitOn]

theorem split_of_not_mem {s : String} (h : c ∉ s.toList) : split c s = [s] := by
  have hpieces : ∀ piece ∈ [s], c ∉ piece.toList := by simpa using h
  exact split_join (by simp) hpieces

theorem isInfix_iff {pat s : List Char} : isInfix pat s = true ↔ pat <:+: s := by
  induction s with
  | nil => simp [isInfix]
  | cons a s ih => rw [isInfix, Bool.or_eq_true, ih, isPrefixOf_iff_prefix, infix_cons_iff]

theorem mem_intercalate_infix (sep : List α) {l : List α} {ls : List (List α)} (h : l ∈ ls) :
    l <:+: sep.intercalate ls := by
  induction ls with
  | nil => cases h
  | cons a ls ih =>
    cases ls with
    | nil =>
      rw [mem_singleton.mp h]
      exact ⟨[], [], by simp [List.intercalate]⟩
    | cons b ls =>
      have hcons : sep.intercalate (a :: b :: ls) = a ++ sep ++ sep.intercalate (b :: ls) := by
        simp [List.intercalate]
      rw [hcons]
      rcases mem_cons.mp h with rfl | h
      · exact ⟨[], sep ++ sep.intercalate (b :: ls), by simp⟩
      · obtain ⟨x, y, hxy⟩ := ih h
        exact ⟨a ++ sep ++ x, y, by rw [← hxy]; simp⟩

theorem not_mem_split (h : contains s pat = false) (c : Char) :
    pat ∉ split c s := by
  intro hmem
  obtain ⟨l, hl, rfl⟩ := mem_map.mp hmem
  have hinfix := mem_intercalate_infix [c] hl
  rw [intercalate_splitOn] at hinfix
  rw [contains, String.toList_ofList, isInfix_iff.mpr hinfix] at h
  cases h

theorem prefix_of_prefix_append_cons {c : α} {pat xs ys : List α} (hc : c ∉ pat)
    (h : pat <+: xs ++ c :: ys) : pat <+: xs := by
  rcases Nat.le_total pat.length xs.length with hle | hle
  · exact prefix_of_prefix_length_le h (prefix_append _ _) hle
  · obtain ⟨rest, hrest⟩ := prefix_of_prefix_length_le (prefix_append xs (c :: ys)) h hle
    subst hrest
    cases rest with
    | nil => simp
    | cons a rest =>
      obtain ⟨zs, hzs⟩ := h
      rw [append_assoc, append_cancel_left_eq, cons_append] at hzs
      exact absurd (by simp [(List.cons.inj hzs).1]) hc

theorem infix_append_cons_iff {c : α} {pat xs ys : List α} (hc : c ∉ pat) :
    pat <:+: xs ++ c :: ys ↔ pat <:+: xs ∨ pat <:+: ys := by
  constructor
  · intro h
    induction xs with
    | nil =>
      rcases infix_cons_iff.mp h with hprefix | hinfix
      · exact .inl (prefix_of_prefix_append_cons hc hprefix).isInfix
      · exact .inr hinfix
    | cons a xs ih =>
      rcases infix_cons_iff.mp h with hprefix | hinfix
      · have hprefix : pat <+: (a :: xs) ++ c :: ys := hprefix
        exact .inl (prefix_of_prefix_append_cons hc hprefix).isInfix
      · exact (ih hinfix).imp_left fun hxs => infix_cons_iff.mpr (.inr hxs)
  · rintro (h | h)
    · exact h.trans (prefix_append _ _).isInfix
    · exact h.trans ((suffix_cons _ _).trans (suffix_append _ _)).isInfix

theorem isInfix_of_nil {pat : List Char} (h : isInfix pat [] = true) (s : List Char) :
    isInfix pat s = true := by
  rw [isInfix_iff, infix_nil] at h
  rw [h, isInfix_iff]
  exact nil_infix

theorem contains_eq_or_of {xs ys : List Char} (hc : c ∉ pat.toList)
    (hs : s.toList = xs ++ c :: ys) :
    contains s pat = (isInfix pat.toList xs || isInfix pat.toList ys) := by
  rw [contains, hs, Bool.eq_iff_iff, Bool.or_eq_true, isInfix_iff, isInfix_iff, isInfix_iff]
  exact infix_append_cons_iff hc

theorem contains_append_of_last {s t pat : String} (hc : c ∉ pat.toList)
    (hs : s.toList.getLast? = some c) :
    contains (s ++ t) pat = (contains s pat || contains t pat) := by
  obtain ⟨xs, hxs⟩ := List.getLast?_eq_some_iff.mp hs
  have hone : contains s pat = (isInfix pat.toList xs || isInfix pat.toList []) :=
    contains_eq_or_of hc hxs
  have hboth : contains (s ++ t) pat = (isInfix pat.toList xs || contains t pat) :=
    contains_eq_or_of hc (by rw [String.toList_append, hxs, append_assoc]; rfl)
  rw [hboth, hone]
  cases hinfix : isInfix pat.toList [] with
  | false => rw [Bool.or_false]
  | true => rw [isInfix_of_nil hinfix, Bool.true_or, Bool.true_or, Bool.true_or]

theorem contains_append_of_first {s t pat : String} (hc : c ∉ pat.toList)
    (ht : t.toList.head? = some c) :
    contains (s ++ t) pat = (contains s pat || contains t pat) := by
  obtain ⟨ys, hys⟩ := List.head?_eq_some_iff.mp ht
  have hone : contains t pat = (isInfix pat.toList [] || isInfix pat.toList ys) :=
    contains_eq_or_of hc hys
  have hboth : contains (s ++ t) pat = (contains s pat || isInfix pat.toList ys) :=
    contains_eq_or_of hc (by rw [String.toList_append, hys])
  rw [hboth, hone]
  cases hinfix : isInfix pat.toList [] with
  | false => rw [Bool.false_or]
  | true => rw [contains, isInfix_of_nil hinfix, Bool.true_or, Bool.true_or]

theorem contains_trimStartMatches (p : Char → Bool) (h : contains s pat = false) :
    contains (trimStartMatches p s) pat = false := by
  rw [← Bool.not_eq_true] at h ⊢
  intro hcontains
  rw [contains, isInfix_iff, trimStartMatches, String.toList_ofList] at hcontains
  exact h (isInfix_iff.mpr (hcontains.trans (dropWhile_suffix p).isInfix))

theorem trim_append {pre s : String} {cs : List Char} (hpre : pre.toList = c :: cs)
    (hfirst : isWhitespace c = false) (hlast : ∀ x ∈ (c :: cs).getLast?, isWhitespace x = false) :
    trim (pre ++ s) = pre ++ trimEnd s := by
  have hstart : trimStart (pre ++ s) = pre ++ s := by
    rw [trimStart, trimStartMatches, String.toList_append, hpre, cons_append,
      dropWhile_cons_of_neg (by simp [hfirst]), ← cons_append, ← hpre,
      ← String.toList_append, String.ofList_toList]
  have hkept : pre.toList.reverse.dropWhile isWhitespace = pre.toList.reverse := by
    cases hrev : pre.toList.reverse with
    | nil => rfl
    | cons x xs =>
      have hx : x ∈ (c :: cs).getLast? := by
        rw [← hpre, ← reverse_reverse pre.toList, hrev]
        simp
      exact dropWhile_cons_of_neg (by simp [hlast x hx])
  rw [trim, hstart, trimEnd, trimEndMatches, trimEndMatches, String.toList_append,
    reverse_append, dropWhile_append, hkept]
  rw [← String.toList_inj]
  split
  · rename_i hall
    rw [List.isEmpty_iff] at hall
    simp [hall]
  · simp

theorem eq_append_of_stripPrefix {pre s rest : String} (h : stripPrefix pre s = some rest) :
    s = pre ++ rest := by
  unfold stripPrefix at h
  split at h
  · rename_i hstarts
    cases h
    obtain ⟨tail, htail⟩ := isPrefixOf_iff_prefix.mp hstarts
    rw [← String.toList_inj]
    simp [← htail]
  · cases h

theorem stripPrefix_append (pre s : String) : stripPrefix pre (pre ++ s) = some s := by
  simp [stripPrefix, startsWith]

theorem toList_toString (n : Nat) : (toString n).toList = Nat.toDigits 10 n := by
  simp [toString, Nat.repr]

theorem slash_not_mem_toString (n : Nat) : '/' ∉ (toString n).toList := by
  intro h
  rw [toList_toString] at h
  have hdigit := Nat.isDigit_of_mem_toDigits (by decide) (by decide) h
  exact absurd hdigit (by decide)

def IsWord (w : String) : Prop := w ≠ "" ∧ ∀ c ∈ w.toList, isWhitespace c = false

theorem isWord_of_mem {s w : String} (h : w ∈ splitWhitespace s) : IsWord w := by
  obtain ⟨piece, hpiece, rfl⟩ := mem_map.mp h
  obtain ⟨hmem, hne⟩ := mem_filter.mp hpiece
  refine ⟨by simpa using hne, fun c hc => ?_⟩
  rw [String.toList_ofList] at hc
  have hblank : c ≠ ' ' := fun heq => splitOn_not_mem ' ' _ piece hmem (heq ▸ hc)
  have hflat : c ∈ (List.splitOn ' ' _).flatMap (· ++ [' ']) :=
    mem_flatMap.mpr ⟨piece, hmem, by simp [hc]⟩
  rw [flatMap_splitOn] at hflat
  simp only [mem_append, mem_map, mem_singleton, hblank, or_false] at hflat
  obtain ⟨a, -, ha⟩ := hflat
  split at ha
  · exact absurd ha.symm hblank
  · next hnot => exact ha ▸ by simpa using hnot

theorem contains_of_mem_splitWhitespace {w : String} (h : w ∈ splitWhitespace s) :
    contains s w = true := by
  have hword := isWord_of_mem h
  obtain ⟨piece, hpiece, rfl⟩ := mem_map.mp h
  have hinfix := mem_intercalate_infix [' '] (mem_filter.mp hpiece).1
  rw [intercalate_splitOn] at hinfix
  obtain ⟨pre, post, heq⟩ := hinfix
  obtain ⟨xs, zs, hs, hxs, -⟩ := map_eq_append_iff.mp heq.symm
  obtain ⟨xs', ys, rfl, -, hys⟩ := map_eq_append_iff.mp hxs
  -- a character that became another one is blank, and there is none in a word
  have hsame : ys = piece := by
    refine (map_id ys).symm.trans ((map_congr_left fun c hc => ?_).trans hys)
    by_cases hblank : isWhitespace c
    · have hmem : ' ' ∈ piece := hys ▸ mem_map.mpr ⟨c, hc, if_pos hblank⟩
      exact absurd (hword.2 ' ' (by simpa using hmem)) (by decide)
    · exact (if_neg hblank).symm
  rw [contains, isInfix_iff, String.toList_ofList, hs, ← hsame]
  exact ⟨xs', zs, rfl⟩

theorem IsWord.pieces {w : String} (hw : IsWord w) :
    (w.toList.map fun c => if isWhitespace c then ' ' else c).splitOn ' ' = [w.toList] := by
  have hmap : (w.toList.map fun c => if isWhitespace c then ' ' else c) = w.toList.map id :=
    map_congr_left fun c hc => by simp [hw.2 c hc]
  rw [hmap, map_id, splitOn_eq_singleton]
  exact fun hmem => absurd (hw.2 ' ' hmem) (by decide)

theorem splitWhitespace_append (s t : String) {c : Char} (hc : isWhitespace c = true) :
    splitWhitespace (s ++ String.singleton c ++ t) = splitWhitespace s ++ splitWhitespace t := by
  have hsplit : ∀ xs ys : List Char,
      (xs ++ ' ' :: ys).splitOn ' ' = xs.splitOn ' ' ++ ys.splitOn ' ' :=
    fun xs ys => splitOnP_append_cons xs ys (by simp)
  simp [splitWhitespace, hc, hsplit]

theorem splitWhitespace_join {words : List String} {c : Char} (hc : isWhitespace c = true)
    (hwords : ∀ w ∈ words, IsWord w) :
    splitWhitespace (join (String.singleton c) words) = words := by
  induction words with
  | nil => rfl
  | cons w words ih =>
    obtain ⟨hw, hwords⟩ := forall_mem_cons.mp hwords
    have hword : splitWhitespace w = [w] := by simp [splitWhitespace, hw.pieces, hw.1]
    cases words with
    | nil => exact hword
    | cons w' words =>
      rw [join, splitWhitespace_append _ _ hc, ih hwords, hword, singleton_append]

theorem splitWhitespace_trim (s : String) : splitWhitespace (trim s) = splitWhitespace s := by
  have hnil : splitWhitespace "" = [] := rfl
  have hstart : ∀ cs : List Char, splitWhitespace (String.ofList (cs.dropWhile isWhitespace)) =
      splitWhitespace (String.ofList cs) := by
    intro cs
    induction cs with
    | nil => rfl
    | cons c cs ih =>
      by_cases hc : isWhitespace c = true
      · rw [dropWhile_cons_of_pos hc, ih]
        simpa [hnil, String.append_assoc]
          using (splitWhitespace_append "" (String.ofList cs) hc).symm
      · rw [dropWhile_cons_of_neg hc]
  have hend : ∀ cs : List Char,
      splitWhitespace (String.ofList (cs.dropWhile isWhitespace).reverse) =
      splitWhitespace (String.ofList cs.reverse) := by
    intro cs
    induction cs with
    | nil => rfl
    | cons c cs ih =>
      by_cases hc : isWhitespace c = true
      · rw [dropWhile_cons_of_pos hc, ih]
        simpa [hnil] using (splitWhitespace_append (String.ofList cs.reverse) "" hc).symm
      · rw [dropWhile_cons_of_neg hc]
  rw [trim, trimEndMatches, hend, reverse_reverse, String.ofList_toList, trimStart,
    trimStartMatches, hstart, String.ofList_toList]

end Guestkit.Lib.Text
