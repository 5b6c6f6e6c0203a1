import Guestkit.Lib.Shell

/-! Scripts that are put together from text of their own and from data.  `Takes` says that a reader
takes data for what it stands for, and `Leads` follows a script piece by piece: under which
condition all its data is taken so, and where the reader is then. -/

namespace Guestkit.Lib.Shell

open List

/-- A stretch of a script: text of its own, or the characters that are put in for a value. -/
inductive Segment where
  | text (chars : List Char)
  | data (chars value : List Char)

def Segment.chars : Segment → List Char
  | text chars => chars
  | data chars _ => chars

def render (script : List Segment) : List Char := script.flatMap Segment.chars

namespace State

/-- The characters are read as data: in a comment, which goes on; as part of a word, where they
stand for the value; and in quotes or in a here-document, where they stand for themselves. -/
def Takes (s : State) (chars value : List Char) : Prop :=
  match s.mode with
  | .comment => ∀ before, before <+: chars → s.run before = s
  | .plain w => s.run chars = s.become (.plain (some (w.getD [] ++ value.map .quoted)))
  | .single w => s.run chars = s.become (.single (w ++ chars.map .quoted))
  | .double w => s.run chars = s.become (.double (w ++ chars.map .quoted))
  | .document [] body => s.run chars = s.become (.document [] (body ++ chars))
  | _ => False

/-- Wherever the script has data, the reader takes it as such. -/
def TakesAll : State → List Segment → Prop
  | _, [] => True
  | s, .text chars :: script => TakesAll (s.run chars) script
  | s, .data chars value :: script => s.Takes chars value ∧ TakesAll (s.run chars) script

end State

/-! ### Sizes

No character adds more than one to what has been read, and a quote that begins or ends adds nothing:
a text can only be taken for itself if none of its characters is. -/

def Mode.size : Mode → ℕ
  | plain w | escape w => (w.getD []).length
  | single w | double w | dollar w _ | substitution w _ _ _ => w.length
  | doubleEscape w | name w _ _ => w.length + 1
  | document line body => line.length + body.length
  | comment | operator _ | stuck => 0

def Token.size : Token → ℕ
  | word w => w.length
  | operator _ => 0

def Line.size (line : Line) : ℕ :=
  (line.tokens.map Token.size).sum + (line.documents.map List.length).sum

namespace State

variable (s : State)

def kept : ℕ :=
  (s.tokens.map Token.size).sum + (s.documents.map List.length).sum + (s.lines.map Line.size).sum

def size : ℕ := s.mode.size + s.kept

theorem size_become (mode : Mode) : (s.become mode).size = mode.size + s.kept := rfl

theorem kept_push (token : Token) : (s.push token).kept = token.size + s.kept := by
  unfold kept push
  simp only [map_append, sum_append, map_cons, map_nil, sum_cons,
    sum_nil]
  omega

theorem size_endWord (w : Option Word) :
    (s.endWord w).size ≤ (w.getD []).length + s.kept := by
  cases w with
  | none => simp [endWord, size_become, Mode.size]
  | some w =>
    have hpush : (s.push (.word w)).kept = w.length + s.kept := kept_push s (.word w)
    unfold endWord
    dsimp only
    split_ifs
    · change 0 + (s.push (.word w)).kept ≤ _
      rw [hpush, Nat.zero_add]
      exact le_rfl
    · rw [size_become]
      simp [Mode.size]
    · rw [size_become, hpush]
      simp [Mode.size]

theorem size_endLine : s.endLine.size ≤ s.kept := by
  unfold endLine
  split_ifs
  · rw [size_become]
    simp [Mode.size]
  · simp only [size, kept, Mode.size, Line.size, map_append, sum_append, map_cons,
      map_nil, sum_cons, sum_nil, Option.getD_none, length_nil]
    omega

theorem size_newline : s.newline.size ≤ s.size := by
  unfold newline
  split
  · exact le_rfl
  · split_ifs
    · exact (size_endLine s).trans (Nat.le_add_left _ _)
    · rw [size_become, size]
      simp [Mode.size]

theorem size_operatorBegins (c : Char) : (s.operatorBegins c).size ≤ s.size := by
  unfold operatorBegins
  split
  · exact le_rfl
  · rw [size_become, size]
    simp [Mode.size]

theorem length_concat (w : Word) (piece : Piece) : (w ++ [piece]).length = w.length + 1 := by
  simp

theorem size_concat (w : Option Word) (piece : Piece) :
    (s.become (.plain (some (w.getD [] ++ [piece])))).size = (w.getD []).length + s.kept + 1 := by
  rw [size_become, Mode.size, Option.getD_some, length_concat]
  omega

theorem size_stepPlain (w : Option Word) (c : Char) :
    (s.stepPlain w c).size ≤ (w.getD []).length + s.kept + 1 := by
  have hword := size_endWord s w
  unfold stepPlain
  cases CharClass.of c with
  | blank => exact hword.trans (Nat.le_succ _)
  | newline => exact ((size_newline _).trans hword).trans (Nat.le_succ _)
  | hash =>
    cases w with
    | none => simp [size_become, Mode.size]
    | some w => exact (size_concat s (some w) _).le
  | singleQuote | doubleQuote | dollar | backslash => exact Nat.le_succ _
  | backquote => exact (Nat.add_le_add_right (Nat.zero_le _) _).trans (Nat.le_succ _)
  | operator => exact ((size_operatorBegins _ c).trans hword).trans (Nat.le_succ _)
  | pattern | ordinary => exact (size_concat s w _).le
  | tilde =>
    cases w with
    | none => exact (size_concat s none _).le
    | some w => exact (size_concat s (some w) _).le

theorem size_stepDouble (w : Word) (c : Char) :
    (s.stepDouble w c).size ≤ w.length + s.kept + 1 := by
  unfold stepDouble
  cases CharClass.of c with
  | doubleQuote | dollar => exact Nat.le_succ _
  | backquote => exact (Nat.add_le_add_right (Nat.zero_le _) _).trans (Nat.le_succ _)
  | backslash =>
    change w.length + 1 + s.kept ≤ _
    omega
  | _ =>
    change (w ++ [Piece.quoted c]).length + s.kept ≤ _
    rw [length_concat]
    omega

theorem size_stepDoubleEscape (w : Word) (c : Char) :
    (s.stepDoubleEscape w c).size ≤ w.length + 1 + s.kept + 1 := by
  unfold stepDoubleEscape
  cases CharClass.of c with
  | newline =>
    change w.length + s.kept ≤ _
    omega
  | doubleQuote | backslash | dollar | backquote =>
    change (w ++ [Piece.quoted c]).length + s.kept ≤ _
    rw [length_concat]
    omega
  | _ =>
    change (w ++ [Piece.quoted '\\', Piece.quoted c]).length + s.kept ≤ _
    rw [append_cons, length_concat, length_concat]
    omega

theorem size_back (inDouble : Bool) (w : Word) (piece : Piece) :
    (s.become (back inDouble (w ++ [piece]))).size = w.length + 1 + s.kept := by
  rw [← length_concat w piece]
  cases inDouble <;> rfl

section Document

variable {s : State} {line body ending : List Char} {others : List (List Char)}

theorem step_document (hmode : s.mode = .document line body) {c : Char} (hc : c ≠ '\n') :
    s.step c = s.become (.document (line ++ [c]) body) := by
  rw [step, hmode]
  exact if_neg hc

theorem step_document_line (hmode : s.mode = .document line body)
    (hpending : s.pending = ending :: others) (hline : line ≠ ending) :
    s.step '\n' = s.become (.document [] (body ++ line ++ ['\n'])) := by
  rw [step, hmode]
  dsimp only
  rw [if_pos rfl, hpending]
  exact if_neg hline

theorem step_document_end (hmode : s.mode = .document ending body)
    (hpending : s.pending = ending :: others) :
    s.step '\n' =
      if others.isEmpty then
        State.endLine { s with pending := others, documents := s.documents ++ [body] }
      else State.become { s with pending := others, documents := s.documents ++ [body] }
        (.document [] []) := by
  rw [step, hmode]
  dsimp only
  rw [if_pos rfl, hpending]
  exact if_pos rfl

theorem size_endDocument (hmode : s.mode = .document ending body)
    (hpending : s.pending = ending :: others) : (s.step '\n').size ≤ s.size := by
  have hsize : s.size = ending.length + body.length + s.kept := by rw [size, hmode, Mode.size]
  have hkept : State.kept { s with pending := others, documents := s.documents ++ [body] } =
      s.kept + body.length := by
    simp only [kept, map_append, sum_append, map_cons, map_nil, sum_cons,
      sum_nil]
    omega
  rw [step_document_end hmode hpending]
  split_ifs
  · exact (size_endLine _).trans (by omega)
  · rw [size_become, hkept, Mode.size, length_nil]
    omega

theorem size_stepDocument (hmode : s.mode = .document line body) (c : Char) :
    (s.step c).size ≤ s.size + 1 := by
  have hsize : s.size = line.length + body.length + s.kept := by rw [size, hmode, Mode.size]
  by_cases hc : c = '\n'
  · rw [hc]
    cases hpending : s.pending with
    | nil =>
      have hstuck : s.step '\n' = s.become .stuck := by
        rw [step, hmode]
        dsimp only
        rw [if_pos rfl, hpending]
      rw [hstuck, size_become, Mode.size]
      omega
    | cons ending others =>
      by_cases hend : line = ending
      · rw [hend] at hmode
        exact (size_endDocument hmode hpending).trans (Nat.le_succ _)
      · rw [step_document_line hmode hpending hend, size_become, Mode.size, length_append,
          length_append, length_singleton, length_nil]
        omega
  · rw [step_document hmode hc, size_become, Mode.size, length_append, length_singleton]
    omega

end Document

theorem size_step (c : Char) : (s.step c).size ≤ s.size + 1 := by
  have hsize : s.size = s.mode.size + s.kept := rfl
  cases hmode : s.mode with
  | document line body => exact size_stepDocument hmode c
  | plain w =>
    rw [hsize, step, hmode]
    exact size_stepPlain s w c
  | escape w =>
    rw [hsize, step, hmode]
    dsimp only
    split_ifs
    · exact Nat.le_succ _
    · exact (size_concat s w _).le
  | single w =>
    rw [hsize, step, hmode]
    dsimp only
    split_ifs
    · exact Nat.le_succ _
    · change (w ++ [Piece.quoted c]).length + s.kept ≤ _
      rw [length_concat, Mode.size]
      omega
  | double w =>
    rw [hsize, step, hmode]
    exact size_stepDouble s w c
  | doubleEscape w =>
    rw [hsize, step, hmode]
    exact size_stepDoubleEscape s w c
  | dollar w inDouble =>
    rw [hsize, step, hmode]
    dsimp only
    split_ifs
    · exact Nat.le_succ _
    · change w.length + 1 + s.kept ≤ w.length + s.kept + 1
      omega
    · rw [size_back, Mode.size]
      omega
    · exact (Nat.add_le_add_right (Nat.zero_le _) _).trans (Nat.le_succ _)
  | name w inDouble text =>
    have hplain := size_stepPlain s (some (w ++ [.expansion text])) c
    have hdouble := size_stepDouble s (w ++ [.expansion text]) c
    rw [length_concat] at hdouble
    rw [Option.getD_some, length_concat] at hplain
    rw [hsize, step, hmode]
    dsimp only
    split_ifs
    · exact Nat.le_succ _
    · exact hdouble
    · exact hplain
  | substitution w inDouble text depth =>
    rw [hsize, step, hmode]
    dsimp only
    split_ifs
    · exact (Nat.add_le_add_right (Nat.zero_le _) _).trans (Nat.le_succ _)
    · exact Nat.le_succ _
    · cases depth with
      | zero =>
        dsimp only
        rw [size_back, Mode.size]
        omega
      | succ depth => exact Nat.le_succ _
    · exact Nat.le_succ _
  | comment =>
    rw [step, hmode]
    dsimp only
    split_ifs
    · exact (size_newline s).trans (Nat.le_succ _)
    · exact Nat.le_succ _
  | operator text =>
    have hplain := size_stepPlain (s.push (.operator text)) none c
    rw [kept_push, Token.size, Nat.zero_add] at hplain
    rw [hsize, step, hmode]
    dsimp only
    split_ifs
    · exact Nat.le_succ _
    · exact hplain
  | stuck =>
    rw [step, hmode]
    exact Nat.le_succ _

theorem size_run (text : List Char) : (s.run text).size ≤ s.size + text.length := by
  induction text generalizing s with
  | nil => exact le_rfl
  | cons c text ih =>
    have hstep := size_step s c
    have hrest := ih (s.step c)
    rw [run_cons, length_cons]
    omega

theorem run_ne_of_step {s s' : State} {c : Char} {text : List Char}
    (hstep : (s.step c).size ≤ s.size) (hsize : s'.size = s.size + (text.length + 1)) :
    s.run (c :: text) ≠ s' := by
  intro heq
  have hrun := size_run (s.step c) text
  rw [← run_cons, heq] at hrun
  omega

end State

open State

/-! ### What is taken for itself -/

section Contexts

variable {s : State} {w : Word} {text : List Char}

theorem run_comment_iff (hmode : s.mode = .comment) :
    (∀ before, before <+: text → s.run before = s) ↔ '\n' ∉ text := by
  have hstep : ∀ c, c ≠ '\n' → s.step c = s := by
    intro c hc
    rw [step, hmode]
    exact if_neg hc
  constructor
  · intro hall hmem
    obtain ⟨before, after, rfl⟩ := append_of_mem hmem
    have hbefore := hall before ⟨_, rfl⟩
    have hnewline := hall (before ++ ['\n']) ⟨after, by simp⟩
    rw [run_append, hbefore] at hnewline
    have hnot : (s.step '\n').mode ≠ .comment := by
      rw [step, hmode]
      simp only [if_true, newline, hmode]
      split_ifs
      · unfold endLine
        split_ifs <;> exact nofun
      · exact nofun
    exact hnot (by rw [show s.step '\n' = s from hnewline, hmode])
  · intro hnot before hinit
    have hbefore : '\n' ∉ before := fun h => hnot (hinit.subset h)
    clear hinit
    induction before with
    | nil => rfl
    | cons c before ih =>
      rw [run_cons, hstep c (fun h => hbefore (h ▸ mem_cons_self))]
      exact ih fun h => hbefore (mem_cons_of_mem _ h)

theorem run_single_iff (s : State) (w : Word) (text : List Char) :
    (s.become (.single w)).run text = s.become (.single (w ++ text.map .quoted)) ↔
      '\'' ∉ text := by
  induction text generalizing w with
  | nil => simp [State.run]
  | cons c text ih =>
    by_cases hc : c = '\''
    · rw [hc]
      refine iff_of_false ?_ (by simp)
      refine run_ne_of_step (Nat.le_refl _) ?_
      simp only [size_become, Mode.size, length_append, length_map,
        length_cons]
      omega
    · have hstep : (s.become (.single w)).step c = s.become (.single (w ++ [.quoted c])) :=
        if_neg hc
      rw [map_cons, append_cons w, run_cons, hstep, ih, mem_cons]
      exact ⟨fun h => not_or.mpr ⟨Ne.symm hc, h⟩, fun h => (not_or.mp h).2⟩

/-- Goes on in double quotes by a character that stands for itself.  The flag says that a backslash
is before it, which then stands for itself too. -/
def doubleStep (escaped : Bool) (c : Char) : Option Bool :=
  match CharClass.of c with
  | .doubleQuote | .dollar | .backquote => none
  | .backslash => if escaped then none else some true
  | .newline => if escaped then none else some false
  | _ => some false

/-- A text that stands for itself in double quotes. -/
def IsDoubleLiteral (text : List Char) : Prop := (text.foldlM doubleStep false).isSome = true

instance (text : List Char) : Decidable (IsDoubleLiteral text) :=
  inferInstanceAs (Decidable (_ = true))

def doubleMode (w : Word) : Bool → Mode
  | false => .double w
  | true => .doubleEscape w

def doubleWord (w : Word) : Bool → Word
  | false => w
  | true => w ++ [.quoted '\\']

theorem size_doubleMode (s : State) (w : Word) (escaped : Bool) :
    (s.become (doubleMode w escaped)).size = (doubleWord w escaped).length + s.kept := by
  cases escaped with
  | false => rfl
  | true =>
    rw [doubleWord, State.length_concat]
    rfl

theorem ite_ne {α : Type} {p : Prop} [Decidable p] {a b x : α} (ha : a ≠ x) (hb : b ≠ x) :
    (if p then a else b) ≠ x := by
  split
  · exact ha
  · exact hb

theorem eq_backslash_of_class {c : Char} (h : CharClass.of c = .backslash) : c = '\\' := by
  by_contra hc
  unfold CharClass.of at h
  rw [if_neg hc] at h
  refine absurd h ?_
  repeat' apply ite_ne
  all_goals exact nofun

theorem step_doubleMode (s : State) (w : Word) (escaped : Bool) (c : Char) :
    match doubleStep escaped c with
    | none => ((s.become (doubleMode w escaped)).step c).size ≤
        (s.become (doubleMode w escaped)).size
    | some escaped' => ∃ w', (s.become (doubleMode w escaped)).step c =
        s.become (doubleMode w' escaped') ∧
        doubleWord w' escaped' = doubleWord w escaped ++ [.quoted c] := by
  cases escaped with
  | false =>
    have hstep : (s.become (doubleMode w false)).step c =
      (s.become (doubleMode w false)).stepDouble w c := rfl
    rw [hstep, doubleStep, stepDouble]
    cases hclass : CharClass.of c with
    | doubleQuote | dollar => exact le_rfl
    | backquote => exact Nat.add_le_add_right (Nat.zero_le _) _
    | backslash => exact ⟨w, rfl, by rw [eq_backslash_of_class hclass]; rfl⟩
    | _ => exact ⟨w ++ [.quoted c], rfl, rfl⟩
  | true =>
    have hstep : (s.become (doubleMode w true)).step c =
      (s.become (doubleMode w true)).stepDoubleEscape w c := rfl
    rw [hstep, doubleStep, stepDoubleEscape]
    cases CharClass.of c with
    | doubleQuote | backslash | dollar | backquote =>
      change (w ++ [Piece.quoted c]).length + s.kept ≤ _
      rw [State.length_concat]
      exact le_rfl
    | newline => exact Nat.add_le_add_right (Nat.le_succ _) _
    | _ => exact ⟨w ++ [.quoted '\\', .quoted c], rfl, append_cons _ _ _⟩

theorem run_double_iff (s : State) (w : Word) (escaped : Bool) (text : List Char) :
    (s.become (doubleMode w escaped)).run text =
        s.become (.double (doubleWord w escaped ++ text.map .quoted)) ↔
      text.foldlM doubleStep escaped = some false := by
  induction text generalizing w escaped with
  | nil =>
    cases escaped with
    | false => simp [State.run, doubleMode, doubleWord]
    | true =>
      refine iff_of_false ?_ (by simp)
      intro heq
      cases congrArg mode heq
  | cons c text ih =>
    have hspec := step_doubleMode s w escaped c
    rw [foldlM_cons]
    cases hnext : doubleStep escaped c with
    | none =>
      rw [hnext] at hspec
      refine iff_of_false (run_ne_of_step hspec ?_) (by simp)
      rw [size_doubleMode, size_become, Mode.size, length_append, length_map,
        length_cons]
      omega
    | some escaped' =>
      rw [hnext] at hspec
      obtain ⟨w', hstep, hword⟩ := hspec
      rw [run_cons, hstep, map_cons, append_cons, ← hword]
      exact ih w' escaped'

theorem run_document_line {l : List Char} (hl : '\n' ∉ l) (s : State) (line body : List Char) :
    (s.become (.document line body)).run l = s.become (.document (line ++ l) body) := by
  induction l generalizing line with
  | nil => simp [State.run]
  | cons c l ih =>
    have hc : c ≠ '\n' := fun h => hl (h ▸ mem_cons_self)
    rw [run_cons, step_document rfl hc]
    change (s.become _).run l = _
    rw [ih (fun h => hl (mem_cons_of_mem _ h)), append_assoc,
      singleton_append]

theorem run_document_iff {ending : List Char} {others : List (List Char)}
    (hpending : s.pending = ending :: others) {ls : List (List Char)}
    (hls : ∀ l ∈ ls, '\n' ∉ l) (body : List Char) :
    (s.become (.document [] body)).run (ls.flatMap (· ++ ['\n'])) =
        s.become (.document [] (body ++ ls.flatMap (· ++ ['\n']))) ↔
      ending ∉ ls := by
  induction ls generalizing body with
  | nil => simp [State.run]
  | cons l ls ih =>
    have hline := run_document_line (hls l mem_cons_self) s [] body
    rw [flatMap_cons, append_assoc, run_append, hline, nil_append,
      singleton_append]
    by_cases hend : l = ending
    · rw [← hend] at hpending ⊢
      refine iff_of_false ?_ (not_not_intro mem_cons_self)
      refine run_ne_of_step
        (size_endDocument (s := s.become (.document l body)) rfl hpending) ?_
      simp only [size_become, Mode.size, length_append, length_cons,
        length_nil]
      omega
    · have hstep : (s.become (.document l body)).step '\n' =
          s.become (.document [] (body ++ l ++ ['\n'])) :=
        step_document_line (s := s.become (.document l body)) rfl hpending hend
      have hrest := ih (fun l hl => hls l (mem_cons_of_mem _ hl)) (body ++ l ++ ['\n'])
      rw [run_cons, hstep, mem_cons]
      simp only [append_assoc, singleton_append] at hrest ⊢
      rw [hrest]
      exact ⟨fun h => not_or.mpr ⟨Ne.symm hend, h⟩, fun h => (not_or.mp h).2⟩

end Contexts

def quoteChar (c : Char) : List Char :=
  if c = '\'' then ['\'', '\\', '\'', '\''] else [c]

def quote (text : List Char) : List Char := '\'' :: (text.flatMap quoteChar ++ ['\''])

theorem run_quoteChars (s : State) (w : Word) (text : List Char) :
    (s.become (.single w)).run (text.flatMap quoteChar) =
      s.become (.single (w ++ text.map .quoted)) := by
  induction text generalizing w with
  | nil => simp [State.run]
  | cons c text ih =>
    have hchar : (s.become (.single w)).run (quoteChar c) =
        s.become (.single (w ++ [.quoted c])) := by
      unfold quoteChar
      split_ifs with hc
      · rw [hc]
        rfl
      · exact if_neg hc
    rw [flatMap_cons, run_append, hchar, ih, map_cons,
      append_assoc, singleton_append]

theorem run_quote {s : State} {w : Option Word} (hmode : s.mode = .plain w) (text : List Char) :
    s.run (quote text) = s.become (.plain (some (w.getD [] ++ text.map .quoted))) := by
  have hopen : s.step '\'' = s.become (.single (w.getD [])) := by
    rw [step, hmode]
    rfl
  rw [quote, run_cons, hopen, run_append, run_quoteChars]
  rfl

theorem mem_quote {c : Char} (hquote : c ≠ '\'') (hbackslash : c ≠ '\\') (text : List Char) :
    c ∈ quote text ↔ c ∈ text := by
  have hchar : ∀ d, c ∈ quoteChar d ↔ c = d := by
    intro d
    unfold quoteChar
    split_ifs with hd
    · simp [hd, hquote, hbackslash]
    · exact mem_singleton
  simp [quote, hquote, hchar]

theorem foldlM_quoteChars (text : List Char) (escaped : Bool) :
    (text.flatMap quoteChar).foldlM doubleStep escaped = text.foldlM doubleStep escaped := by
  induction text generalizing escaped with
  | nil => rfl
  | cons c text ih =>
    have hchar : (quoteChar c).foldlM doubleStep escaped = doubleStep escaped c := by
      unfold quoteChar
      split_ifs with hc
      · rw [hc]
        cases escaped <;> rfl
      · exact bind_pure _
    rw [flatMap_cons, foldlM_append, hchar, foldlM_cons]
    simp only [ih]

theorem foldlM_append_iff {text after : List Char}
    (hafter : ∀ escaped, after.foldlM doubleStep escaped = some false) :
    (text ++ after).foldlM doubleStep false = some false ↔ IsDoubleLiteral text := by
  rw [foldlM_append, IsDoubleLiteral]
  cases text.foldlM doubleStep false with
  | none => exact iff_of_false nofun nofun
  | some escaped => exact iff_of_true (hafter escaped) rfl

theorem foldlM_quote_iff (text : List Char) :
    (quote text).foldlM doubleStep false = some false ↔ IsDoubleLiteral text := by
  have hafter : ∀ escaped, ['\''].foldlM doubleStep escaped = some false := by decide
  have hopen : (quote text).foldlM doubleStep false =
      (text.flatMap quoteChar ++ ['\'']).foldlM doubleStep false := rfl
  rw [hopen, foldlM_append_iff hafter, IsDoubleLiteral, foldlM_quoteChars, IsDoubleLiteral]

/-- From `s` on, all data of the script is taken as such exactly if the condition holds, and the
reader is then at `s'`. -/
structure Leads (s : State) (script : List Segment) (condition : Prop) (s' : State) : Prop where
  takes : s.TakesAll script ↔ condition
  run : condition → s.run (render script) = s'

namespace Leads

variable {s s1 s' : State} {script rest : List Segment} {p q : Prop} {chars value : List Char}
  {w : Word}

theorem render_cons (segment : Segment) (script : List Segment) :
    render (segment :: script) = segment.chars ++ render script := rfl

theorem render_append (script rest : List Segment) :
    render (script ++ rest) = render script ++ render rest := flatMap_append

theorem takesAll_append (s : State) (script rest : List Segment) :
    s.TakesAll (script ++ rest) ↔
      s.TakesAll script ∧ (s.run (render script)).TakesAll rest := by
  induction script generalizing s with
  | nil => simp [State.TakesAll, render, State.run]
  | cons segment script ih =>
    rw [cons_append, render_cons, run_append]
    cases segment with
    | text chars => exact ih _
    | data chars value => exact (and_congr_right fun _ => ih _).trans and_assoc.symm

theorem congr (h : Leads s script p s') (hpq : p ↔ q) : Leads s script q s' :=
  ⟨h.takes.trans hpq, fun hq => h.run (hpq.mpr hq)⟩

theorem result (h : Leads s script p s1) (hs : s1 = s') : Leads s script p s' := hs ▸ h

theorem nil (s : State) : Leads s [] True s := ⟨Iff.rfl, fun _ => rfl⟩

theorem append (h : Leads s script p s1) (hrest : Leads s1 rest q s') :
    Leads s (script ++ rest) (p ∧ q) s' := by
  constructor
  · rw [takesAll_append, h.takes]
    refine and_congr_right fun hp => ?_
    rw [h.run hp]
    exact hrest.takes
  · rintro ⟨hp, hq⟩
    rw [render_append, run_append, h.run hp]
    exact hrest.run hq

theorem text (hrun : s.run chars = s1) (h : Leads s1 rest q s') :
    Leads s (.text chars :: rest) q s' := by
  refine ⟨?_, fun hq => ?_⟩
  · rw [State.TakesAll, hrun]
    exact h.takes
  · rw [render_cons, run_append, Segment.chars, hrun]
    exact h.run hq

theorem data (htakes : s.Takes chars value ↔ p) (hrun : p → s.run chars = s1)
    (h : Leads s1 rest q s') : Leads s (.data chars value :: rest) (p ∧ q) s' := by
  constructor
  · rw [State.TakesAll, htakes]
    refine and_congr_right fun hp => ?_
    rw [hrun hp]
    exact h.takes
  · rintro ⟨hp, hq⟩
    rw [render_cons, run_append, Segment.chars, hrun hp]
    exact h.run hq

theorem comment (hmode : s.mode = .comment) (h : Leads s rest q s') :
    Leads s (.data chars value :: rest) ('\n' ∉ chars ∧ q) s' := by
  have htakes : s.Takes chars value ↔ '\n' ∉ chars := by
    rw [State.Takes, hmode]
    exact run_comment_iff hmode
  refine data htakes (fun hp => ?_) h
  exact (run_comment_iff hmode).mpr hp chars (prefix_refl chars)

theorem single (h : Leads (s.become (.single (w ++ chars.map .quoted))) rest q s') :
    Leads (s.become (.single w)) (.data chars value :: rest) ('\'' ∉ chars ∧ q) s' :=
  data (run_single_iff s w chars) (run_single_iff s w chars).mpr h

theorem singleText (hchars : '\'' ∉ chars)
    (h : Leads (s.become (.single (w ++ chars.map .quoted))) rest q s') :
    Leads (s.become (.single w)) (.text chars :: rest) q s' :=
  text ((run_single_iff s w chars).mpr hchars) h

theorem doubleText (hchars : chars.foldlM doubleStep false = some false)
    (h : Leads (s.become (.double (w ++ chars.map .quoted))) rest q s') :
    Leads (s.become (.double w)) (.text chars :: rest) q s' :=
  text ((run_double_iff s w false chars).mpr hchars) h

theorem double (h : Leads (s.become (.double (w ++ chars.map .quoted))) rest q s') :
    Leads (s.become (.double w)) (.data chars value :: rest)
      (chars.foldlM doubleStep false = some false ∧ q) s' :=
  data (run_double_iff s w false chars) (run_double_iff s w false chars).mpr h

theorem word {w : Option Word}
    (h : Leads (s.become (.plain (some (w.getD [] ++ value.map .quoted)))) rest q s') :
    Leads (s.become (.plain w)) (.data (quote value) value :: rest) q s' := by
  have hrun : (s.become (.plain w)).Takes (quote value) value :=
    run_quote (s := s.become (.plain w)) rfl value
  exact (data (iff_true_intro hrun) (fun _ => hrun) h).congr (and_iff_right trivial)

theorem document {ending : List Char} {others ls : List (List Char)}
    (hpending : s.pending = ending :: others) (hls : ∀ l ∈ ls, '\n' ∉ l)
    (hchars : chars = ls.flatMap (· ++ ['\n']))
    (h : Leads (s.become (.document [] chars)) rest q s') :
    Leads (s.become (.document [] [])) (.data chars value :: rest) (ending ∉ ls ∧ q) s' := by
  have hiff := run_document_iff hpending hls []
  rw [← hchars, nil_append] at hiff
  exact data hiff hiff.mpr h

end Leads

def between (lines : List Line) : State := ⟨.plain none, [], [], [], lines⟩

/-- The script stands for these commands, exactly if the condition holds. -/
def Emits (script : List Segment) (condition : Prop) (commands : List Line) : Prop :=
  ∀ lines, Leads (between lines) script condition (between (lines ++ commands))

def bareWord (chars : List Char) : Token := .word (chars.map .bare)

def quotedWord (chars : List Char) : Token := .word (chars.map .quoted)

namespace Emits

variable {script rest : List Segment} {p q : Prop} {commands others : List Line}

theorem congr (h : Emits script p commands) (hpq : p ↔ q) : Emits script q commands :=
  fun lines => (h lines).congr hpq

theorem nil : Emits [] True [] := by
  intro lines
  rw [append_nil]
  exact .nil _

theorem append (h : Emits script p commands) (hrest : Emits rest q others) :
    Emits (script ++ rest) (p ∧ q) (commands ++ others) := by
  intro lines
  rw [← append_assoc]
  exact (h lines).append (hrest _)

theorem cons {pieces : List (List Segment)} (h : Emits script p commands)
    (hrest : Emits pieces.flatten q others) :
    Emits (script :: pieces).flatten (p ∧ q) (commands ++ others) := h.append hrest

theorem pieces {front back : List (List Segment)} (h : Emits front.flatten p commands)
    (hback : Emits back.flatten q others) :
    Emits (front ++ back).flatten (p ∧ q) (commands ++ others) := by
  rw [flatten_append]
  exact h.append hback

theorem always {pieces : List (List Segment)} (h : Emits script True commands)
    (hrest : Emits pieces.flatten q others) :
    Emits (script :: pieces).flatten q (commands ++ others) :=
  (h.append hrest).congr (and_iff_right trivial)

theorem single (h : Emits script p commands) : Emits [script].flatten p commands := by
  rw [flatten_singleton]
  exact h

theorem flatMap {α : Type} {f : α → List (List Segment)} {r : α → Prop} {g : α → List Line}
    {xs : List α} (h : ∀ x ∈ xs, Emits (f x).flatten (r x) (g x)) :
    Emits (xs.flatMap f).flatten (∀ x ∈ xs, r x) (xs.flatMap g) := by
  induction xs with
  | nil => exact nil.congr (by simp)
  | cons x xs ih =>
    have hrest := ih fun y hy => h y (mem_cons_of_mem _ hy)
    exact ((h x mem_cons_self).pieces hrest).congr (by simp)

theorem takesAll (h : Emits script p commands) : start.TakesAll script ↔ p := (h []).takes

theorem parse (h : Emits script p commands) (hp : p) : parse (render script) = some commands := by
  have hrun : start.run (render script) = between commands := (h []).run hp
  rw [Shell.parse, hrun]
  rfl

theorem fixed {chars : List Char} (h : ∀ lines, (between lines).run (chars ++ ['\n']) =
    between (lines ++ commands)) : Emits [.text chars, .text ['\n']] True commands := by
  intro lines
  refine .text rfl (.text ?_ (.nil _))
  rw [← run_append]
  exact h lines

end Emits

theorem Leads.commentText {s s' : State} {chars : List Char} {rest : List Segment} {q : Prop}
    (hmode : s.mode = .comment) (hchars : '\n' ∉ chars) (h : Leads s rest q s') :
    Leads s (.text chars :: rest) q s' :=
  .text ((run_comment_iff hmode).mpr hchars chars (prefix_refl chars)) h

theorem Emits.comment {chars : List Char} {rest : List Segment} {q : Prop} (hchars : '\n' ∉ chars)
    (h : ∀ lines, Leads ⟨.comment, [], [], [], lines⟩ rest q (between lines)) :
    Emits (.text ('#' :: chars) :: rest) q [] := by
  intro lines
  have hrun : (between lines).run ('#' :: chars) = ⟨.comment, [], [], [], lines⟩ := by
    rw [run_cons]
    exact (run_comment_iff (s := ⟨.comment, [], [], [], lines⟩) rfl).mpr hchars chars
      (prefix_refl chars)
  rw [append_nil]
  exact .text hrun (h lines)

/-! ### Bare words and quoted arguments -/

def Settled (tokens : List Token) : Prop := tokens.getLast? ≠ some (.operator hereOperator)

section Words

variable {tokens : List Token}

theorem Settled.nil : Settled [] := nofun

theorem Settled.push (tokens : List Token) (w : Word) : Settled (tokens ++ [.word w]) := by
  unfold Settled
  rw [List.getLast?_concat]
  exact nofun

theorem Settled.run_blank (h : Settled tokens) (lines : List Line) (w : Word) :
    State.run ⟨.plain (some w), tokens, [], [], lines⟩ [' '] =
      ⟨.plain none, tokens ++ [.word w], [], [], lines⟩ := by
  change endWord _ (some w) = _
  unfold endWord
  dsimp only
  rw [if_neg h]
  rfl

theorem Settled.run_newline (h : Settled tokens) (lines : List Line) (w : Word) :
    State.run ⟨.plain (some w), tokens, [], [], lines⟩ ['\n'] =
      between (lines ++ [⟨tokens ++ [.word w], []⟩]) := by
  change (State.run ⟨.plain (some w), tokens, [], [], lines⟩ [' ']).newline = _
  rw [h.run_blank]
  simp [newline, endLine, between]

theorem Settled.run_word {chars : List Char} (h : Settled tokens) (hne : chars ≠ [])
    (hordinary : ∀ c ∈ chars, CharClass.of c = .ordinary) (lines : List Line) :
    State.run ⟨.plain none, tokens, [], [], lines⟩ (chars ++ [' ']) =
      ⟨.plain none, tokens ++ [bareWord chars], [], [], lines⟩ := by
  obtain ⟨c, chars, rfl⟩ := exists_cons_of_ne_nil hne
  have hfirst : step ⟨.plain none, tokens, [], [], lines⟩ c =
      become ⟨.plain none, tokens, [], [], lines⟩ (.plain (some [.bare c])) := by
    dsimp only [step, stepPlain]
    rw [hordinary c mem_cons_self]
    rfl
  have hrest := run_ordinary (fun c' hc' => hordinary c' (mem_cons_of_mem _ hc'))
    ⟨.plain none, tokens, [], [], lines⟩ [.bare c]
  rw [run_append, run_cons _ c chars, hfirst, hrest]
  exact h.run_blank lines _

theorem Settled.run_words {words : List (List Char)} (h : Settled tokens)
    (hwords : ∀ word ∈ words, word ≠ [] ∧ ∀ c ∈ word, CharClass.of c = .ordinary)
    (lines : List Line) :
    State.run ⟨.plain none, tokens, [], [], lines⟩ (words.flatMap (· ++ [' '])) =
      ⟨.plain none, tokens ++ words.map bareWord, [], [], lines⟩ := by
  induction words generalizing tokens with
  | nil => simp [State.run]
  | cons word words ih =>
    obtain ⟨hne, hordinary⟩ := hwords word mem_cons_self
    have hrest := ih (Settled.push tokens (word.map .bare))
      fun w hw => hwords w (mem_cons_of_mem _ hw)
    rw [append_assoc] at hrest
    rw [flatMap_cons, run_append, h.run_word hne hordinary lines]
    exact hrest

def arguments : List (List Char) → List Segment
  | [] => []
  | [value] => [.data (quote value) value]
  | value :: values => .data (quote value) value :: .text [' '] :: arguments values

theorem Settled.arguments (h : Settled tokens) (hne : tokens ≠ []) (lines : List Line)
    (values : List (List Char)) :
    Leads ⟨.plain none, tokens, [], [], lines⟩ (arguments values ++ [.text ['\n']]) True
      (between (lines ++ [⟨tokens ++ values.map quotedWord, []⟩])) := by
  induction values generalizing tokens with
  | nil =>
    refine .text ?_ (.nil _)
    rw [map_nil, append_nil]
    have hempty : ¬ tokens.isEmpty = true := by simpa using hne
    exact if_neg hempty
  | cons value values ih =>
    cases values with
    | nil =>
      exact Leads.word (s := ⟨.plain none, tokens, [], [], lines⟩) (w := none)
        (.text (h.run_newline lines _) (.nil _))
    | cons next values =>
      have hrest := ih (Settled.push tokens (value.map .quoted)) (by simp)
      rw [append_assoc] at hrest
      exact Leads.word (s := ⟨.plain none, tokens, [], [], lines⟩) (w := none)
        (.text (h.run_blank lines _) hrest)

/-- Quoted texts with blanks between them are the further words of a command. -/
theorem Settled.finish_quotes (h : Settled tokens) (lines : List Line) (value : List Char)
    (values : List (List Char)) :
    (State.run ⟨.plain none, tokens, [], [], lines⟩
        ([' '].intercalate ((value :: values).map quote))).finish =
      some (lines ++ [⟨tokens ++ (value :: values).map quotedWord, []⟩]) := by
  induction values generalizing tokens value with
  | nil =>
    rw [map_singleton, intercalate_singleton, run_quote rfl]
    change finish.ended (State.run ⟨.plain (some _), tokens, [], [], lines⟩ [' ']) = _
    rw [h.run_blank]
    simp [finish.ended, endLine, quotedWord]
  | cons next values ih =>
    have hrest := ih (Settled.push tokens (value.map .quoted)) next
    rw [append_assoc] at hrest
    rw [map_cons, map_cons, intercalate_cons_cons, run_append, run_append, run_quote rfl]
    change ((State.run ⟨.plain (some _), tokens, [], [], lines⟩ [' ']).run _).finish = _
    rw [h.run_blank]
    exact hrest

theorem Emits.command {head : List Char} (words values : List (List Char))
    (hhead : head = words.flatMap (· ++ [' '])) (hne : words ≠ [])
    (hwords : ∀ word ∈ words, word ≠ [] ∧ ∀ c ∈ word, CharClass.of c = .ordinary) :
    Emits (.text head :: (Shell.arguments values ++ [.text ['\n']])) True
      [⟨words.map bareWord ++ values.map quotedWord, []⟩] := by
  intro lines
  have hrun : (between lines).run head = ⟨.plain none, words.map bareWord, [], [], lines⟩ := by
    rw [hhead]
    exact Settled.nil.run_words hwords lines
  refine .text hrun (Settled.arguments ?_ (by simpa using hne) lines values)
  rw [← dropLast_concat_getLast hne, map_append]
  exact Settled.push _ _

end Words

end Guestkit.Lib.Shell
