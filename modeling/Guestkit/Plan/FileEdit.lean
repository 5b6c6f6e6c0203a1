import Guestkit.Plan.ExecutorLive

/-! What a `FileEdit` makes of the text of a file. -/

namespace Guestkit.Plan.FileEdit

open Lib.Text LivePlanExecutor List

def edited (content : String) (changes : List FileChange) : String :=
  unlines (changes.foldl applyChange (lines content))

/-- The edit of the offline applicator; `cat` and `upload` are those of the guestfs handle. -/
def applyOffline {σ : Type} (cat : String → EStateM String σ String)
    (upload : String → String → EStateM String σ Unit) (fe : FileEdit) : EStateM String σ Bool := do
  let content ← tryCatch (cat fe.file) fun e => throw s!"Failed to read {fe.file}: {e}"
  tryCatch (upload (edited content fe.changes) fe.file) fun e =>
    throw s!"Failed to upload {fe.file}: {e}"
  pure true

/-- An edit that is reported as applied has put the edited text in the place of the file's. -/
theorem applyOffline_ok {σ : Type} {cat : String → EStateM String σ String}
    {upload : String → String → EStateM String σ Unit} {fe : FileEdit} {s s' : σ} {b : Bool}
    (h : applyOffline cat upload fe s = .ok b s') :
    ∃ content s₁, cat fe.file s = .ok content s₁ ∧
      upload (edited content fe.changes) fe.file s₁ = .ok () s' := by
  simp only [applyOffline, bind, EStateM.bind, tryCatch, tryCatchThe, MonadExceptOf.tryCatch,
    EStateM.tryCatch] at h
  cases hcat : cat fe.file s with
  | error => simp [hcat, throw, throwThe, MonadExceptOf.throw, EStateM.throw] at h
  | ok content s₁ =>
    refine ⟨content, s₁, rfl, ?_⟩
    cases hup : upload (edited content fe.changes) fe.file s₁ with
    | error => simp [hcat, hup, throw, throwThe, MonadExceptOf.throw, EStateM.throw] at h
    | ok => simp_all [pure, EStateM.pure]

/-- A line with its end; `fresh` unless a change has replaced it. -/
structure Line where
  text : String
  ending : String
  fresh : Bool := true

def rawLines (content : String) : List Line :=
  let pieces := content.toList.splitOn '\n'
  let full := pieces.dropLast.map fun piece =>
    Line.mk (String.ofList (stripCarriageReturn piece))
      (if piece.getLast? = some '\r' then "\r\n" else "\n") true
  let last := if pieces.getLast? = some [] then [] else pieces.getLast?.toList
  full ++ last.map fun piece => ⟨String.ofList piece, "", true⟩

/-- The line that a change replaces: the first with its text, or else the one with its number. -/
def selected (ls : List String) (change : FileChange) : Option Nat :=
  (ls.findIdx? fun line => trim line = trim change.before).or
    (if 0 < change.line ∧ change.line ≤ ls.length then some (change.line - 1) else none)

def replace (ls : List Line) (change : FileChange) : List Line :=
  match selected (ls.map Line.text) change with
  | some i => ls.set i ⟨change.after, "\n", false⟩
  | none => ls

/-- Each change in turn replaces a line of the file that none before it has replaced. -/
def fits : List Line → List FileChange → Bool
  | _, [] => true
  | ls, c :: cs => ((selected (ls.map Line.text) c).bind (ls[·]?)).any Line.fresh &&
    fits (replace ls c) cs

/-- The lines that the changes select in turn. -/
def positions : List Line → List FileChange → List (Option Nat)
  | _, [] => []
  | ls, c :: cs => selected (ls.map Line.text) c :: positions (replace ls c) cs

variable {ls : List Line} {l : Line} {i : Nat} {c : FileChange} {cs : List FileChange}

theorem replace_of_selected (h : selected (ls.map Line.text) c = some i) (j : Nat) :
    (replace ls c)[j]? =
      if i = j then (ls[j]?).map fun _ => ⟨c.after, "\n", false⟩ else ls[j]? := by
  rw [replace, h, getElem?_set]
  split
  · next heq =>
    subst heq
    split <;> simp_all
  · rfl

theorem fresh_rawLines {content : String} (h : l ∈ rawLines content) : l.fresh = true := by
  obtain h | h := mem_append.mp h <;> obtain ⟨_, -, rfl⟩ := mem_map.mp h <;> rfl

/-- In a run that fits, the lines that are selected are lines of the file, each once. -/
theorem fits_iff : fits ls cs = true ↔
    (∀ s ∈ positions ls cs, ∃ i old, s = some i ∧ ls[i]? = some old ∧ old.fresh = true) ∧
      (positions ls cs).Nodup := by
  induction cs generalizing ls with
  | nil => simp [fits, positions]
  | cons c cs ih =>
    rw [fits, positions, Bool.and_eq_true, ih, nodup_cons]
    cases hsel : selected (ls.map Line.text) c with
    | none => simp
    | some i =>
      have hstep : ∀ s, (∃ j old, s = some j ∧ (replace ls c)[j]? = some old ∧ old.fresh = true) ↔
          some i ≠ s ∧ ∃ j old, s = some j ∧ ls[j]? = some old ∧ old.fresh = true := by
        intro s
        cases s with
        | none => simp
        | some j => grind [replace_of_selected hsel j]
      have hfirst : ((some i).bind (ls[·]?)).any Line.fresh = true ↔
          ∃ j old, some i = some j ∧ ls[j]? = some old ∧ old.fresh = true := by
        simp [Option.any_eq_true]
      simp only [hstep, hfirst, forall_mem_cons, forall_and, ← forall_mem_ne]
      tauto

theorem map_foldl_replace (ls : List Line) (changes : List FileChange) :
    (changes.foldl replace ls).map Line.text = changes.foldl applyChange (ls.map Line.text) := by
  induction changes generalizing ls with
  | nil => rfl
  | cons c cs ih =>
    have hstep : (replace ls c).map Line.text = applyChange (ls.map Line.text) c := by
      unfold replace applyChange selected
      cases (ls.map Line.text).findIdx? fun line => trim line = trim c.before with
      | some i => simp [map_set]
      | none => split_ifs <;> simp [map_set]
    rw [foldl_cons, ih, hstep, foldl_cons]

theorem map_rawLines (content : String) : (rawLines content).map Line.text = lines content := by
  unfold rawLines lines
  simp [Function.comp_def]

/-- Only the last line may lack its end. -/
def Ended (ls : List Line) : Prop :=
  ∃ full last, ls = full ++ last ∧ last.length ≤ 1 ∧
    ∀ l ∈ full, l.ending = "\n" ∨ l.ending = "\r\n"

theorem ended_rawLines (content : String) : Ended (rawLines content) := by
  refine ⟨_, _, rfl, ?_, fun l hl => ?_⟩
  · split
    · simp
    · cases (content.toList.splitOn '\n').getLast? <;> simp
  · obtain ⟨piece, -, rfl⟩ := mem_map.mp hl
    split
    · exact .inr rfl
    · exact .inl rfl

theorem Ended.replace (h : Ended ls) (c : FileChange) :
    Ended (replace ls c) := by
  obtain ⟨full, last, rfl, hlast, hfull⟩ := h
  unfold FileEdit.replace
  split
  · rw [set_append]
    split
    · refine ⟨_, _, rfl, hlast, fun l hl => ?_⟩
      obtain hl | rfl := mem_or_eq_of_mem_set hl
      · exact hfull l hl
      · exact .inl rfl
    · exact ⟨_, _, rfl, by simpa using hlast, hfull⟩
  · exact ⟨full, last, rfl, hlast, hfull⟩

theorem join_eq_iff (h : Ended ls) :
    String.join (ls.map fun l => l.text ++ "\n") =
      String.join (ls.map fun l => l.text ++ l.ending) ↔
      ∀ l ∈ ls, l.ending = "\n" := by
  obtain ⟨full, last, rfl, hlast, hfull⟩ := h
  induction full with
  | nil =>
    match last, hlast with
    | [], _ => simp
    | [l], _ => simp [eq_comm]
  | cons l full ih =>
    obtain ⟨hl, hfull⟩ := forall_mem_cons.mp hfull
    obtain heq | heq := hl
    · simpa [heq, String.append_assoc] using ih hfull
    · -- The texts differ at the end of this line.
      refine iff_of_false (fun hjoin => ?_) (fun hall => ?_)
      · have hchars := congrArg String.toList hjoin
        simp [heq] at hchars
      · exact absurd (hall l (by simp)) (by simp [heq])

theorem unlines_eq {ls : List String} (h : ls ≠ []) :
    unlines ls = String.join (ls.map (· ++ "\n")) := by
  unfold unlines
  induction ls with
  | nil => exact absurd rfl h
  | cons l ls ih =>
    cases ls with
    | nil => simp [join]
    | cons l' ls =>
      have hrest := ih (cons_ne_nil _ _)
      simp only [map_cons, String.join_cons, join, String.append_assoc] at hrest ⊢
      rw [hrest]

theorem length_foldl_replace (ls : List Line) (changes : List FileChange) :
    (changes.foldl replace ls).length = ls.length := by
  induction changes generalizing ls with
  | nil => rfl
  | cons c cs ih =>
    rw [foldl_cons, ih, replace]
    split <;> simp

theorem edited_eq_iff (content : String) (changes : List FileChange) :
    edited content changes =
        String.join ((changes.foldl replace (rawLines content)).map fun l => l.text ++ l.ending) ↔
      rawLines content ≠ [] ∧ ∀ l ∈ changes.foldl replace (rawLines content), l.ending = "\n" := by
  have hlength := length_foldl_replace (rawLines content) changes
  have hended : Ended (changes.foldl replace (rawLines content)) :=
    List.foldlRecOn changes replace (ended_rawLines content) fun _ h c _ => h.replace c
  have hedited : edited content changes =
      unlines ((changes.foldl replace (rawLines content)).map Line.text) := by
    rw [map_foldl_replace, map_rawLines, edited]
  rw [← join_eq_iff hended, ← length_pos_iff, ← hlength, length_pos_iff, hedited]
  by_cases hnil : changes.foldl replace (rawLines content) = []
  · rw [hnil]
    exact iff_of_false (by decide) (by simp)
  · rw [unlines_eq (by simpa using hnil), map_map]
    exact (and_iff_right hnil).symm

theorem replace_append {pre : List Line} (rest : List Line)
    (hpre : ∀ x ∈ pre, trim x.text ≠ trim c.before) (hl : trim l.text = trim c.before) :
    replace (pre ++ l :: rest) c = pre ++ ⟨c.after, "\n", false⟩ :: rest := by
  have hnone : (pre.map Line.text).findIdx? (fun line => trim line = trim c.before) = none := by
    rw [List.findIdx?_eq_none_iff]
    simpa using hpre
  have hselected : selected ((pre ++ l :: rest).map Line.text) c = some pre.length := by
    rw [selected, map_append, List.findIdx?_append, hnone]
    simp [List.findIdx?_cons, hl]
  rw [replace, hselected]
  simp

theorem replace_of_ne (hline : c.line = 0)
    (hne : trim l.text ≠ trim c.before) (h : ls[i]? = some l) : (replace ls c)[i]? = some l := by
  unfold replace
  split
  · next j hj =>
    rw [List.getElem?_set, if_neg, h]
    rintro rfl
    simp only [selected, hline, Nat.lt_irrefl, false_and, if_false, Option.or_none,
      List.findIdx?_map] at hj
    obtain ⟨hlt, hbefore, -⟩ := List.findIdx?_eq_some_iff_getElem.mp hj
    rw [List.getElem?_eq_getElem hlt, Option.some_inj] at h
    exact hne (by simpa [h] using hbefore)
  · exact h

theorem foldl_replace_of_ne (hcs : ∀ c ∈ cs, c.line = 0 ∧ trim l.text ≠ trim c.before)
    (h : ls[i]? = some l) :
    (cs.foldl replace ls)[i]? = some l := by
  induction cs generalizing ls with
  | nil => exact h
  | cons c cs ih =>
    obtain ⟨⟨hline, hne⟩, hcs⟩ := forall_mem_cons.mp hcs
    exact ih hcs (replace_of_ne hline hne h)

end Guestkit.Plan.FileEdit
