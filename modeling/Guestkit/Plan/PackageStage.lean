import Guestkit.Lib.Hoare
import Guestkit.Lib.Text

/-! Packages that are staged into an offline guest from a cache on the host, without fetching. -/

namespace Guestkit.Plan.PackageStage

open Lib Lib.Text

/-- A file of a cache directory; a name that is no text is empty, and a time that cannot be
read 0. -/
structure CacheFile where
  dir : String := ""
  name : String
  isFile : Bool := true
  modified : Nat := 0

def isCandidate (name : String) (file : CacheFile) : Bool :=
  let pkg := name.toLower
  let fname := file.name.toLower
  file.isFile && [".rpm", ".deb", ".pkg.tar.zst", ".pkg.tar.xz"].any (endsWith · fname) &&
    (fname == pkg ++ ".rpm" || fname == pkg ++ ".deb" || startsWith (pkg ++ "-") fname ||
      startsWith (pkg ++ "_") fname)

/-- The first of the latest files, as a stable sort puts it. -/
def newest : List CacheFile → Option CacheFile
  | [] => none
  | file :: files =>
    match newest files with
    | some other => if file.modified < other.modified then some other else some file
    | none => some file

/-- The listing of a directory that cannot be read is empty. -/
def findPackageFile (dirs : List (List CacheFile)) (name : String) : Option CacheFile :=
  newest (dirs.flatten.filter (isCandidate name))

/-- `finish` makes the directories, the script and the unit that install what is staged. -/
structure Guest (σ : Type) where
  mkdirP : String → EStateM String σ Unit
  upload : String → String → EStateM String σ Unit
  finish : EStateM String σ Unit

def pendingDir : String := "/var/cache/guestkit/pending"

section Stage

variable {σ : Type} (g : Guest σ) (dirs : List (List CacheFile)) (packages : List String)

def found : List CacheFile := packages.filterMap (findPackageFile dirs)

def uploadFile (file : CacheFile) : EStateM String σ Unit :=
  let hostPath := file.dir ++ "/" ++ file.name
  let remote := pendingDir ++ "/" ++ file.name
  tryCatch (g.upload hostPath remote) fun _ => throw s!"upload {hostPath} → {remote}"

/-- `Ok(true)` stands with the names of what is staged, and `Ok(false)` is `none`. -/
def stagePackagesOffline : EStateM String σ (Option (List String)) := do
  if dirs.isEmpty then pure none
  else
    tryCatch (g.mkdirP pendingDir) fun e => throw s!"mkdir {pendingDir}: {e}"
    (found dirs packages).forM (uploadFile g)
    if (found dirs packages).isEmpty then pure none
    else
      g.finish
      pure (some ((found dirs packages).map CacheFile.name))

end Stage

/-- The package of a file: its name up to the second-last hyphen, or up to the first underscore. -/
def packageOf (fname : String) : Option String :=
  if endsWith ".rpm" fname.toLower then
    match (split '-' fname).reverse with
    | _ :: _ :: first :: rest => some (join "-" (first :: rest).reverse)
    | _ => none
  else if endsWith ".deb" fname.toLower then
    match split '_' fname with
    | first :: _ :: _ => some first
    | _ => none
  else none

def Staged (packages staged : List String) : Prop :=
  ∀ pkg ∈ packages, ∃ file ∈ staged, packageOf file = some pkg

/-- Whatever the guest, what is staged with success has every package. -/
def StagesAll (dirs : List (List CacheFile)) (packages : List String) : Prop :=
  ∀ {σ : Type} (g : Guest σ) (s s' : σ) (staged : List String),
    stagePackagesOffline g dirs packages s = .ok (some staged) s' → Staged packages staged

/-- The files with other times of modification. -/
def retime (time : CacheFile → Nat) (dirs : List (List CacheFile)) : List (List CacheFile) :=
  dirs.map fun dir => dir.map fun file => { file with modified := time file }

def willing : Guest Unit := ⟨fun _ => pure (), fun _ _ => pure (), pure ()⟩

theorem packageOf_eq {fname pkg : String} (h : packageOf fname = some pkg) :
    ∃ rest, fname = pkg ++ "-" ++ rest ∨ fname = pkg ++ "_" ++ rest := by
  unfold packageOf at h
  split at h
  · split at h
    case h_1 last middle first rest hsplit =>
      cases h
      refine ⟨join "-" [middle, last], Or.inl ?_⟩
      have hpieces : split '-' fname = (first :: rest).reverse ++ [middle, last] := by
        rw [← List.reverse_reverse (split '-' fname), hsplit]
        simp
      rw [← join_append "-" (by simp) (by simp), ← hpieces]
      exact (join_split '-' fname).symm
    case h_2 => cases h
  · split at h
    · split at h
      case h_1 first next rest hsplit =>
        cases h
        refine ⟨join "_" (next :: rest), Or.inr ?_⟩
        have hname := join_split '_' fname
        rw [hsplit] at hname
        exact hname.symm
      case h_2 => cases h
    · cases h

/-- A file of a package is a candidate for it. -/
theorem isCandidate_of_packageOf {file : CacheFile} {pkg : String} (hfile : file.isFile)
    (h : packageOf file.name = some pkg) : isCandidate pkg file := by
  have hext : [".rpm", ".deb", ".pkg.tar.zst", ".pkg.tar.xz"].any
      (endsWith · file.name.toLower) := by
    unfold packageOf at h
    split at h
    · next hrpm => simp [hrpm]
    · split at h
      · next hdeb => simp [hdeb]
      · cases h
  have hstart : ∀ sep rest, sep.toList.map Char.toLower = sep.toList →
      file.name = pkg ++ sep ++ rest → startsWith (pkg.toLower ++ sep) file.name.toLower := by
    intro sep rest hsep hname
    simp only [hname, startsWith, String.toLower, String.toList_append, String.toList_map,
      List.map_append, hsep]
    exact List.isPrefixOf_iff_prefix.mpr (List.prefix_append _ _)
  obtain ⟨rest, hname | hname⟩ := packageOf_eq h
  · simp [isCandidate, hfile, hext, hstart "-" rest (by decide) hname]
  · simp [isCandidate, hfile, hext, hstart "_" rest (by decide) hname]

section Newest

variable {files : List CacheFile} {file : CacheFile}

theorem newest_eq_none : newest files = none ↔ files = [] := by
  cases files with
  | nil => simp [newest]
  | cons file files => grind [newest]

theorem newest_spec (h : newest files = some file) :
    file ∈ files ∧ ∀ other ∈ files, other.modified ≤ file.modified := by
  induction files generalizing file with
  | nil => cases h
  | cons first files ih =>
    cases hrest : newest files with
    | none => grind [newest, newest_eq_none]
    | some other => grind [newest]

end Newest

section

variable {dirs : List (List CacheFile)} {packages : List String}

theorem mem_found {file : CacheFile} : file ∈ found dirs packages ↔
    ∃ pkg ∈ packages, findPackageFile dirs pkg = some file := List.mem_filterMap

theorem findPackageFile_spec {pkg : String} {file : CacheFile}
    (h : findPackageFile dirs pkg = some file) : file ∈ dirs.flatten ∧ isCandidate pkg file ∧
      ∀ other ∈ dirs.flatten, isCandidate pkg other → other.modified ≤ file.modified := by
  obtain ⟨hmem, hlatest⟩ := newest_spec h
  rw [List.mem_filter] at hmem
  exact ⟨hmem.1, hmem.2, fun other hother hpkg =>
    hlatest other (List.mem_filter.mpr ⟨hother, hpkg⟩)⟩

theorem findPackageFile_isSome {pkg : String} {file : CacheFile} (hmem : file ∈ dirs.flatten)
    (hpkg : isCandidate pkg file) : ∃ found, findPackageFile dirs pkg = some found := by
  rw [← Option.ne_none_iff_exists', findPackageFile, ne_eq, newest_eq_none]
  exact List.ne_nil_of_mem (List.mem_filter.mpr ⟨hmem, hpkg⟩)

theorem mem_retime {time : CacheFile → Nat} {file : CacheFile} :
    file ∈ (retime time dirs).flatten ↔
      ∃ old ∈ dirs.flatten, { old with modified := time old } = file := by
  rw [retime, ← List.map_flatten, List.mem_map]

theorem stagePackagesOffline_willing (hne : found dirs packages ≠ []) :
    stagePackagesOffline willing dirs packages () =
      .ok (some ((found dirs packages).map CacheFile.name)) () := by
  have hdirs : ¬ dirs.isEmpty = true := by
    cases dirs with
    | nil => exact absurd (List.filterMap_eq_nil_iff.mpr fun _ _ => rfl) hne
    | cons dir dirs => simp
  have hupload : ∀ files : List CacheFile, files.forM (uploadFile willing) () = .ok () () := by
    intro files
    induction files with
    | nil => rfl
    | cons file files ih => exact (bind_of_ok (tryCatch_of_ok rfl)).trans ih
  rw [stagePackagesOffline, if_neg hdirs]
  refine (bind_of_ok (tryCatch_of_ok rfl)).trans ?_
  rw [bind_of_ok (hupload _), if_neg (by simpa using hne)]
  rfl

theorem stagesAll_iff_found : StagesAll dirs packages ↔ (found dirs packages ≠ [] →
    Staged packages ((found dirs packages).map CacheFile.name)) := by
  constructor
  · intro h hne
    exact h willing () () _ (stagePackagesOffline_willing hne)
  · intro h σ g s s' staged hrun
    unfold stagePackagesOffline at hrun
    split at hrun
    · cases hrun
    · obtain ⟨_, s₁, -, hrun⟩ := bind_eq_ok hrun
      obtain ⟨_, s₂, -, hrun⟩ := bind_eq_ok hrun
      split at hrun
      · cases hrun
      · next hne =>
        obtain ⟨_, s₃, -, hrun⟩ := bind_eq_ok hrun
        cases hrun
        exact h (by simpa using hne)

/-- The names of the cache fit the packages: each has a candidate, and only files of its own. -/
def NamesFit (dirs : List (List CacheFile)) (packages : List String) : Prop :=
  ∀ pkg ∈ packages, (∃ file ∈ dirs.flatten, isCandidate pkg file) ∧
    ∀ file ∈ dirs.flatten, isCandidate pkg file → packageOf file.name = some pkg

theorem staged_of_namesFit (h : NamesFit dirs packages) :
    Staged packages ((found dirs packages).map CacheFile.name) := by
  intro pkg hpkg
  obtain ⟨⟨file, hfile, hcand⟩, hown⟩ := h pkg hpkg
  obtain ⟨best, hbest⟩ := findPackageFile_isSome hfile hcand
  obtain ⟨hmem, hcand', -⟩ := findPackageFile_spec hbest
  exact ⟨best.name, List.mem_map_of_mem (mem_found.mpr ⟨pkg, hpkg, hbest⟩), hown best hmem hcand'⟩

theorem exists_found (h : Staged packages ((found dirs packages).map CacheFile.name)) {pkg : String}
    (hpkg : pkg ∈ packages) : ∃ file, (∃ q ∈ packages, findPackageFile dirs q = some file) ∧
      isCandidate pkg file ∧ packageOf file.name = some pkg := by
  obtain ⟨_, hname, hown⟩ := h pkg hpkg
  obtain ⟨file, hfile, rfl⟩ := List.mem_map.mp hname
  obtain ⟨q, hq, hfound⟩ := mem_found.mp hfile
  have hisFile := (findPackageFile_spec hfound).2.1
  simp only [isCandidate, Bool.and_eq_true] at hisFile
  exact ⟨file, ⟨q, hq, hfound⟩, isCandidate_of_packageOf hisFile.1.1 hown, hown⟩

/-- Staging is complete whenever it succeeds, whatever the times of the files, exactly if there is
no candidate for any package or the names of the cache fit. -/
theorem stagesAll_iff : (∀ time, StagesAll (retime time dirs) packages) ↔
    (∀ pkg ∈ packages, ∀ file ∈ dirs.flatten, isCandidate pkg file = false) ∨
      NamesFit dirs packages := by
  simp only [stagesAll_iff_found]
  constructor
  · intro h
    rw [or_iff_not_imp_left]
    intro hsome pkg hpkg
    push Not at hsome
    obtain ⟨other, hother, file, hfile, hcand⟩ := hsome
    -- what is no file of the package is newer than what is
    let time (file : CacheFile) : Nat := if packageOf file.name = some pkg then 0 else 1
    obtain ⟨best, hbest⟩ := findPackageFile_isSome (mem_retime.mpr ⟨file, hfile, rfl⟩)
      (show isCandidate other { file with modified := time file } from eq_true_of_ne_false hcand)
    have hstaged := h time (List.ne_nil_of_mem (mem_found.mpr ⟨other, hother, hbest⟩))
    obtain ⟨own, ⟨q, hq, hfound⟩, hcandOwn, hown⟩ := exists_found hstaged hpkg
    obtain ⟨hmem, hcandQ, hlatest⟩ := findPackageFile_spec hfound
    obtain ⟨old, hold, rfl⟩ := mem_retime.mp hmem
    have htime : time old = 0 := if_pos hown
    -- so the name that finds one has no other candidates, and is that of the package
    have honly : ∀ file ∈ dirs.flatten, isCandidate q file → packageOf file.name = some pkg := by
      intro file hfile hcand
      have hle := hlatest _ (mem_retime.mpr ⟨file, hfile, rfl⟩) hcand
      by_contra hne
      rw [show time file = 1 from if_neg hne, htime] at hle
      exact absurd hle Nat.one_ne_zero.bot_lt.not_ge
    obtain ⟨own', ⟨_, _, hfound'⟩, hcand', hown'⟩ := exists_found hstaged hq
    obtain ⟨old', hold', rfl⟩ := mem_retime.mp (findPackageFile_spec hfound').1
    have hsame : q = pkg := Option.some.inj (hown'.symm.trans (honly old' hold' hcand'))
    exact ⟨⟨old, hold, hcandOwn⟩, hsame ▸ honly⟩
  · rintro (hnone | hfit) time hne
    · refine absurd (List.filterMap_eq_nil_iff.mpr fun pkg hpkg => ?_) hne
      refine newest_eq_none.mpr (List.filter_eq_nil_iff.mpr fun file hfile => ?_)
      obtain ⟨old, hold, rfl⟩ := mem_retime.mp hfile
      exact Bool.not_eq_true _ ▸ hnone pkg hpkg old hold
    · refine staged_of_namesFit fun pkg hpkg => ?_
      obtain ⟨⟨file, hfile, hcand⟩, hown⟩ := hfit pkg hpkg
      refine ⟨⟨_, mem_retime.mpr ⟨file, hfile, rfl⟩, hcand⟩, fun file' hfile' hcand' => ?_⟩
      obtain ⟨old, hold, rfl⟩ := mem_retime.mp hfile'
      exact hown old hold hcand'

end

/-- The documentation of Python is newer than Python. -/
theorem docs_staged : ¬ StagesAll [[{ name := "python-3.9-1.x86_64.rpm", modified := 1 },
    { name := "python-docs-3.9-1.noarch.rpm", modified := 2 }]] ["python"] := by
  intro h
  have hstaged := h willing () () _ (stagePackagesOffline_willing (by decide +kernel))
  revert hstaged
  unfold Staged
  decide +kernel

end Guestkit.Plan.PackageStage
