import Mathlib

/-! How a POSIX shell reads a text: character by character, into words and operators, the lines that
they make up, and here-documents.  What is inside a substitution is not read further; a text that
goes beyond this, or whose reading the standard leaves open, is not read at all. -/

namespace Guestkit.Lib.Shell

open List

/-- A part of a word.  Ordinary characters stand for themselves, bare or quoted; a bare pattern
character, a tilde at the start and an expansion do not. -/
inductive Piece where
  | bare (c : Char)
  | quoted (c : Char)
  | pattern (c : Char)
  | tilde
  | expansion (text : List Char)
  deriving DecidableEq

abbrev Word := List Piece

inductive Token where
  | word (w : Word)
  | operator (text : List Char)
  deriving DecidableEq

/-- The tokens up to a newline, and the here-documents that follow it. -/
structure Line where
  tokens : List Token
  documents : List (List Char)
  deriving DecidableEq

/-- Where the reading is.  A word that has begun is carried along. -/
inductive Mode where
  | plain (w : Option Word)
  | escape (w : Option Word)
  | single (w : Word)
  | double (w : Word)
  | doubleEscape (w : Word)
  | dollar (w : Word) (inDouble : Bool)
  | name (w : Word) (inDouble : Bool) (text : List Char)
  | substitution (w : Word) (inDouble : Bool) (text : List Char) (depth : ℕ)
  | comment
  | operator (text : List Char)
  | document (line body : List Char)
  | stuck

/-- `pending` are the ends of the here-documents that the line still asks for. -/
structure State where
  mode : Mode
  tokens : List Token
  pending : List (List Char)
  documents : List (List Char)
  lines : List Line

def start : State :=
  { mode := .plain none, tokens := [], pending := [], documents := [], lines := [] }

def Piece.chars : Piece → List Char
  | bare c | quoted c | pattern c => [c]
  | tilde => ['~']
  | expansion text => text

def Piece.isQuoted : Piece → Bool
  | quoted _ => true
  | _ => false

def Word.chars (w : Word) : List Char := w.flatMap Piece.chars

def hereOperator : List Char := ['<', '<']

def operators : List (List Char) :=
  [['&', '&'], ['|', '|'], [';', ';'], ['<', '<'], ['>', '>'], ['<', '&'], ['>', '&'], ['<', '>'],
    ['>', '|'], ['<', '<', '-']]

def isOperatorStart (c : Char) : Bool := ['&', '|', ';', '<', '>', '(', ')'].contains c

/-- What a character is to the shell outside quotes. -/
inductive CharClass where
  | blank
  | newline
  | hash
  | singleQuote
  | doubleQuote
  | backslash
  | dollar
  | backquote
  | operator
  | pattern
  | tilde
  | ordinary
  deriving DecidableEq

def CharClass.of (c : Char) : CharClass :=
  if c = ' ' ∨ c = '\t' then .blank
  else if c = '\n' then .newline
  else if c = '#' then .hash
  else if c = '\'' then .singleQuote
  else if c = '"' then .doubleQuote
  else if c = '\\' then .backslash
  else if c = '$' then .dollar
  else if c = '`' then .backquote
  else if isOperatorStart c then .operator
  else if c = '*' ∨ c = '?' ∨ c = '[' then .pattern
  else if c = '~' then .tilde
  else .ordinary

def isNameStart (c : Char) : Bool := c.isAlpha || c == '_'

def isNameRest (c : Char) : Bool := c.isAlphanum || c == '_'

def isSpecial (c : Char) : Bool := c.isDigit || ['@', '*', '#', '?', '-', '$', '!'].contains c

namespace State

variable (s : State)

def become (mode : Mode) : State := { s with mode := mode }

def push (token : Token) : State := { s with tokens := s.tokens ++ [token] }

/-- The word after `<<` is the end of a here-document; it is read only if it is quoted. -/
def endWord : Option Word → State
  | none => s.become (.plain none)
  | some w =>
    if s.tokens.getLast? = some (.operator hereOperator) then
      if w.any Piece.isQuoted then
        { (s.push (.word w)).become (.plain none) with pending := s.pending ++ [w.chars] }
      else s.become .stuck
    else (s.push (.word w)).become (.plain none)

def endLine : State :=
  if s.tokens.isEmpty then s.become (.plain none)
  else
    { mode := .plain none
      tokens := []
      pending := []
      documents := []
      lines := s.lines ++ [⟨s.tokens, s.documents⟩] }

def newline : State :=
  match s.mode with
  | .stuck => s
  | _ => if s.pending.isEmpty then s.endLine else s.become (.document [] [])

def operatorBegins (c : Char) : State :=
  match s.mode with
  | .stuck => s
  | _ => s.become (.operator [c])

def takeBare (w : Option Word) (c : Char) : State :=
  s.become (.plain (some (w.getD [] ++ [.bare c])))

def stepPlain (w : Option Word) (c : Char) : State :=
  match CharClass.of c with
  | .blank => s.endWord w
  | .newline => (s.endWord w).newline
  | .hash => if w.isNone then s.become .comment else s.takeBare w c
  | .singleQuote => s.become (.single (w.getD []))
  | .doubleQuote => s.become (.double (w.getD []))
  | .backslash => s.become (.escape w)
  | .dollar => s.become (.dollar (w.getD []) false)
  | .backquote => s.become .stuck
  | .operator => (s.endWord w).operatorBegins c
  | .pattern => s.become (.plain (some (w.getD [] ++ [.pattern c])))
  | .tilde => if w.isNone then s.become (.plain (some [.tilde])) else s.takeBare w c
  | .ordinary => s.takeBare w c

def stepDouble (w : Word) (c : Char) : State :=
  match CharClass.of c with
  | .doubleQuote => s.become (.plain (some w))
  | .backslash => s.become (.doubleEscape w)
  | .dollar => s.become (.dollar w true)
  | .backquote => s.become .stuck
  | _ => s.become (.double (w ++ [.quoted c]))

def back (inDouble : Bool) (w : Word) : Mode := if inDouble then .double w else .plain (some w)

/-- A backslash in double quotes stands for itself before all others. -/
def stepDoubleEscape (w : Word) (c : Char) : State :=
  match CharClass.of c with
  | .doubleQuote | .backslash | .dollar | .backquote => s.become (.double (w ++ [.quoted c]))
  | .newline => s.become (.double w)
  | _ => s.become (.double (w ++ [.quoted '\\', .quoted c]))

def step (c : Char) : State :=
  match s.mode with
  | .plain w => s.stepPlain w c
  | .escape w =>
    if c = '\n' then s.become (.plain w) else s.become (.plain (some (w.getD [] ++ [.quoted c])))
  | .single w =>
    if c = '\'' then s.become (.plain (some w)) else s.become (.single (w ++ [.quoted c]))
  | .double w => s.stepDouble w c
  | .doubleEscape w => s.stepDoubleEscape w c
  | .dollar w inDouble =>
    if c = '(' then s.become (.substitution w inDouble ['('] 0)
    else if isNameStart c then s.become (.name w inDouble [c])
    else if isSpecial c then s.become (back inDouble (w ++ [.expansion [c]]))
    else s.become .stuck
  | .name w inDouble text =>
    if isNameRest c then s.become (.name w inDouble (text ++ [c]))
    else if inDouble then s.stepDouble (w ++ [.expansion text]) c
    else s.stepPlain (some (w ++ [.expansion text])) c
  | .substitution w inDouble text depth =>
    if ['\'', '"', '\\', '`', '#', '\n'].contains c then s.become .stuck
    else if c = '(' then s.become (.substitution w inDouble (text ++ [c]) (depth + 1))
    else if c = ')' then
      match depth with
      | 0 => s.become (back inDouble (w ++ [.expansion (text ++ [c])]))
      | depth + 1 => s.become (.substitution w inDouble (text ++ [c]) depth)
    else s.become (.substitution w inDouble (text ++ [c]) depth)
  | .comment => if c = '\n' then s.newline else s
  | .operator text =>
    if operators.contains (text ++ [c]) then s.become (.operator (text ++ [c]))
    else (s.push (.operator text)).stepPlain none c
  | .document line body =>
    if c = '\n' then
      match s.pending with
      | [] => s.become .stuck
      | ending :: others =>
        if line = ending then
          let s := { s with pending := others, documents := s.documents ++ [body] }
          if others.isEmpty then s.endLine else s.become (.document [] [])
        else s.become (.document [] (body ++ line ++ ['\n']))
    else s.become (.document (line ++ [c]) body)
  | .stuck => s

def run (text : List Char) : State := text.foldl step s

theorem run_cons (c : Char) (text : List Char) :
    s.run (c :: text) = (s.step c).run text := rfl

theorem run_append (text text' : List Char) :
    s.run (text ++ text') = (s.run text).run text' := foldl_append

def finish : Option (List Line) :=
  match s.mode with
  | .plain w => ended (s.endWord w)
  | .name w false text => ended (s.endWord (some (w ++ [.expansion text])))
  | .comment => ended s
  | .operator text => ended (s.push (.operator text))
  | _ => none
where
  ended (s : State) : Option (List Line) :=
    match s.mode with
    | .stuck => none
    | _ => if s.pending.isEmpty then some s.endLine.lines else none

end State

def parse (text : List Char) : Option (List Line) := (start.run text).finish

theorem run_ordinary {text : List Char} (h : ∀ c ∈ text, CharClass.of c = .ordinary) (s : State)
    (w : Word) : (s.become (.plain (some w))).run text =
      s.become (.plain (some (w ++ text.map Piece.bare))) := by
  induction text generalizing w with
  | nil => simp [State.run]
  | cons c text ih =>
    have hstep : (s.become (.plain (some w))).step c =
        s.become (.plain (some (w ++ [.bare c]))) := by
      dsimp only [State.step, State.become, State.stepPlain]
      rw [h c mem_cons_self]
      rfl
    have hrest := ih (fun c' hc' => h c' (mem_cons_of_mem _ hc')) (w ++ [.bare c])
    rw [append_assoc] at hrest
    rw [State.run_cons, hstep]
    exact hrest

theorem start_run_word {text : List Char} (hne : text ≠ [])
    (h : ∀ c ∈ text, CharClass.of c = .ordinary) :
    start.run (text ++ [' ']) = ⟨.plain none, [.word (text.map Piece.bare)], [], [], []⟩ := by
  obtain ⟨c, text, rfl⟩ := exists_cons_of_ne_nil hne
  have hfirst : start.step c = start.become (.plain (some [.bare c])) := by
    dsimp only [State.step, start, State.stepPlain]
    rw [h c mem_cons_self]
    rfl
  have hrest := run_ordinary (fun c' hc' => h c' (mem_cons_of_mem _ hc')) start [.bare c]
  rw [State.run_append, State.run_cons start c text, hfirst, hrest]
  rfl

theorem bare_chars (text : List Char) : Word.chars (text.map .bare) = text := by
  induction text with
  | nil => rfl
  | cons c text ih =>
    show c :: Word.chars (text.map .bare) = c :: text
    rw [ih]

def Piece.isLiteral : Piece → Bool
  | bare _ | quoted _ => true
  | _ => false

def Word.isLiteral (w : Word) : Bool := w.all Piece.isLiteral

def Token.isLiteral : Token → Bool
  | word w => Word.isLiteral w
  | operator _ => false

def Line.isLiteral (line : Line) : Bool :=
  line.tokens.all Token.isLiteral && line.documents.isEmpty

/-- One simple command, without expansions, redirections and here-documents. -/
def OneCommand (lines : Option (List Line)) : Prop :=
  ∃ line, lines = some [line] ∧ line.isLiteral = true

inductive Spot where
  | plain (inWord : Bool)
  | escape (inWord : Bool)
  | single
  | double
  | doubleEscape
  | comment
  | past
  | pastEscape
  | pastComment

namespace Spot

/-- Goes on by one character, unless it begins something else: outside quotes an expansion, an
operator, a pattern, or a tilde at the start of a word; in double quotes an expansion; and anything
but blanks and comments once the line is over. -/
def step : Spot → Char → Option Spot
  | plain inWord, c =>
    match CharClass.of c with
    | .blank => some (plain false)
    | .newline => some past
    | .hash => if inWord then some (plain true) else some comment
    | .singleQuote => some single
    | .doubleQuote => some double
    | .backslash => some (escape inWord)
    | .dollar | .backquote | .operator | .pattern => none
    | .tilde => if inWord then some (plain true) else none
    | .ordinary => some (plain true)
  | escape inWord, c => if c = '\n' then some (plain inWord) else some (plain true)
  | single, c => if c = '\'' then some (plain true) else some single
  | double, c =>
    match CharClass.of c with
    | .doubleQuote => some (plain true)
    | .backslash => some doubleEscape
    | .dollar | .backquote => none
    | _ => some double
  | doubleEscape, _ => some double
  | comment, c => if c = '\n' then some past else some comment
  | past, c =>
    match CharClass.of c with
    | .blank | .newline => some past
    | .hash => some pastComment
    | .backslash => some pastEscape
    | _ => none
  | pastEscape, c => if c = '\n' then some past else none
  | pastComment, c => if c = '\n' then some past else some pastComment

def isEnd : Spot → Bool
  | plain _ | comment | past | pastComment => true
  | _ => false

def harmless : Spot → List Char → Bool
  | spot, [] => spot.isEnd
  | spot, c :: text =>
    match spot.step c with
    | some spot => spot.harmless text
    | none => false

end Spot

/-- The tokens of a line that is not over, from the first on. -/
def Simple (first : Token) (tokens : List Token) : Prop :=
  tokens.head? = some first ∧ tokens.all Token.isLiteral = true

def Line.IsSimple (first : Token) (line : Line) : Prop :=
  line.tokens.head? = some first ∧ line.isLiteral = true

/-- What has been read at a place. -/
inductive At (first : Token) : Spot → State → Prop
  | between {tokens} : Simple first tokens →
    At first (.plain false) ⟨.plain none, tokens, [], [], []⟩
  | inWord {tokens w} : Simple first tokens → Word.isLiteral w = true →
      At first (.plain true) ⟨.plain (some w), tokens, [], [], []⟩
  | escapeBetween {tokens} : Simple first tokens →
    At first (.escape false) ⟨.escape none, tokens, [], [], []⟩
  | escapeInWord {tokens w} : Simple first tokens → Word.isLiteral w = true →
      At first (.escape true) ⟨.escape (some w), tokens, [], [], []⟩
  | single {tokens w} : Simple first tokens → Word.isLiteral w = true →
      At first .single ⟨.single w, tokens, [], [], []⟩
  | double {tokens w} : Simple first tokens → Word.isLiteral w = true →
      At first .double ⟨.double w, tokens, [], [], []⟩
  | doubleEscape {tokens w} : Simple first tokens → Word.isLiteral w = true →
      At first .doubleEscape ⟨.doubleEscape w, tokens, [], [], []⟩
  | comment {tokens} : Simple first tokens → At first .comment ⟨.comment, tokens, [], [], []⟩
  | past {line} : Line.IsSimple first line → At first .past ⟨.plain none, [], [], [], [line]⟩
  | pastEscape {line} : Line.IsSimple first line →
    At first .pastEscape ⟨.escape none, [], [], [], [line]⟩
  | pastComment {line} : Line.IsSimple first line →
    At first .pastComment ⟨.comment, [], [], [], [line]⟩

/-- A mode in which something other than a literal word has begun. -/
def Mode.isOpening : Mode → Bool
  | dollar _ _ | name _ _ _ | substitution _ _ _ _ | operator _ | stuck => true
  | _ => false

def Mode.word : Mode → Option Word
  | plain w | escape w => w
  | single w | double w | doubleEscape w => some w
  | _ => none

/-- Something has been read that one command of literal words does not have. -/
def Blemish (s : State) (w : Option Word) : Prop :=
  w.any (fun w => !Word.isLiteral w) = true ∨ s.tokens.all Token.isLiteral = false ∨
    s.lines.all Line.isLiteral = false ∨ (s.lines ≠ [] ∧ (s.tokens ≠ [] ∨ w.isSome = true)) ∨
    2 ≤ s.lines.length

def Spoiled (s : State) : Prop := s.mode.isOpening = true ∨ Blemish s s.mode.word

section Spoiled

variable {s : State} {w : Option Word}

theorem Blemish.of_word {v : Word} (h : Word.isLiteral v = false) : Blemish s (some v) :=
  .inl (by simp [h])

theorem Blemish.of_fields {s' : State} (h : Blemish s w) (htokens : s'.tokens = s.tokens)
    (hlines : s'.lines = s.lines) : Blemish s' w := by
  unfold Blemish
  rw [htokens, hlines]
  exact h

theorem Blemish.become (h : Blemish s w) (mode : Mode) : Blemish (s.become mode) w :=
  h.of_fields rfl rfl

theorem Blemish.extend (h : Blemish s w) (pieces : Word) :
    Blemish s (some (w.getD [] ++ pieces)) := by
  rcases h with hword | htokens | hlines | hsecond | htwo
  · cases w with
    | none => cases hword
    | some w =>
      refine .of_word ?_
      have hw : Word.isLiteral w = false := by simpa using hword
      unfold Word.isLiteral at hw ⊢
      rw [Option.getD_some, all_append, hw, Bool.false_and]
  · exact .inr (.inl htokens)
  · exact .inr (.inr (.inl hlines))
  · exact .inr (.inr (.inr (.inl ⟨hsecond.1, .inr rfl⟩)))
  · exact .inr (.inr (.inr (.inr htwo)))

theorem Blemish.push {v : Word} (h : Blemish s (some v)) : Blemish (s.push (.word v)) none := by
  rcases h with hword | htokens | hlines | hsecond | htwo
  · refine .inr (.inl ?_)
    have hv : Word.isLiteral v = false := by simpa using hword
    simp [State.push, Token.isLiteral, hv]
  · refine .inr (.inl ?_)
    unfold State.push
    dsimp only
    rw [all_append, htokens, Bool.false_and]
  · exact .inr (.inr (.inl hlines))
  · refine .inr (.inr (.inr (.inl ⟨hsecond.1, .inl ?_⟩)))
    exact append_ne_nil_of_right_ne_nil _ (cons_ne_nil _ _)
  · exact .inr (.inr (.inr (.inr htwo)))

theorem Blemish.endWord (h : Blemish s w) : (s.endWord w).mode = .stuck ∨
    (s.endWord w).mode = .plain none ∧ Blemish (s.endWord w) none := by
  cases w with
  | none => exact .inr ⟨rfl, h.become _⟩
  | some v =>
    unfold State.endWord
    dsimp only
    split_ifs
    · exact .inr ⟨rfl, h.push.of_fields rfl rfl⟩
    · exact .inl rfl
    · exact .inr ⟨rfl, h.push.become _⟩

theorem Blemish.endLine (h : Blemish s none) : Spoiled s.endLine := by
  unfold State.endLine
  split_ifs with hempty
  · exact .inr (h.become _)
  · have hall : ∀ line : Line, (s.lines ++ [line]).all Line.isLiteral =
        (s.lines.all Line.isLiteral && line.isLiteral) := by simp
    have hlength : ∀ line : Line, (s.lines ++ [line]).length = s.lines.length + 1 := by simp
    rcases h with hword | htokens | hlines | hsecond | htwo
    · cases hword
    · refine .inr (.inr (.inr (.inl ?_)))
      rw [hall]
      unfold Line.isLiteral
      rw [htokens, Bool.false_and, Bool.and_false]
    · refine .inr (.inr (.inr (.inl ?_)))
      rw [hall, hlines, Bool.false_and]
    · refine .inr (.inr (.inr (.inr (.inr ?_))))
      have hone := length_pos_iff.mpr hsecond.1
      rw [hlength]
      omega
    · refine .inr (.inr (.inr (.inr (.inr ?_))))
      rw [hlength]
      omega

theorem Blemish.newline (h : Blemish s none) : Spoiled s.newline := by
  unfold State.newline
  split
  · next hmode => exact .inl (by rw [hmode]; rfl)
  · split_ifs
    · exact h.endLine
    · exact .inr (h.become _)

theorem Blemish.takeBare (h : Blemish s w) (c : Char) : Spoiled (s.takeBare w c) :=
  .inr ((h.extend _).become _)

theorem Blemish.stepPlain (h : Blemish s w) (c : Char) : Spoiled (s.stepPlain w c) := by
  have hword := h.extend []
  rw [append_nil] at hword
  unfold State.stepPlain
  cases CharClass.of c with
  | blank =>
    obtain hstuck | ⟨hmode, hend⟩ := h.endWord
    · exact .inl (by rw [hstuck]; rfl)
    · exact .inr (by rw [hmode]; exact hend)
  | newline =>
    obtain hstuck | ⟨hmode, hend⟩ := h.endWord
    · dsimp only [State.newline]
      rw [hstuck]
      exact .inl (by rw [hstuck]; rfl)
    · exact hend.newline
  | hash =>
    cases w with
    | none => exact .inr (h.become _)
    | some w => exact h.takeBare c
  | singleQuote => exact .inr (hword.become _)
  | doubleQuote => exact .inr (hword.become _)
  | backslash => exact .inr (h.become _)
  | dollar => exact .inl rfl
  | backquote => exact .inl rfl
  | operator =>
    dsimp only [State.operatorBegins]
    split
    · next hmode => exact .inl (by rw [hmode]; rfl)
    · exact .inl rfl
  | pattern => exact .inr ((h.extend _).become _)
  | tilde =>
    cases w with
    | none => exact .inr (.of_word rfl)
    | some w => exact h.takeBare c
  | ordinary => exact h.takeBare c

theorem Blemish.stepDouble {v : Word} (h : Blemish s (some v)) (c : Char) :
    Spoiled (s.stepDouble v c) := by
  unfold State.stepDouble
  cases CharClass.of c with
  | doubleQuote => exact .inr (h.become _)
  | backslash => exact .inr (h.become _)
  | dollar => exact .inl rfl
  | backquote => exact .inl rfl
  | _ => exact .inr ((h.extend _).become _)

theorem Blemish.stepDoubleEscape {v : Word} (h : Blemish s (some v)) (c : Char) :
    Spoiled (s.stepDoubleEscape v c) := by
  unfold State.stepDoubleEscape
  cases CharClass.of c with
  | newline => exact .inr (h.become _)
  | _ => exact .inr ((h.extend _).become _)

theorem not_isLiteral_expansion (v : Word) (text : List Char) :
    Word.isLiteral (v ++ [.expansion text]) = false := by
  simp [Word.isLiteral, Piece.isLiteral]

theorem spoiled_back (s : State) (inDouble : Bool) (v : Word) (text : List Char) :
    Spoiled (s.become (State.back inDouble (v ++ [.expansion text]))) := by
  cases inDouble <;> exact .inr (.of_word (not_isLiteral_expansion v text))

theorem Spoiled.blemish {mode : Mode} (h : Spoiled s) (hmode : s.mode = mode)
    (hopening : mode.isOpening = false := by rfl) : Blemish s mode.word := by
  subst hmode
  exact h.resolve_left (by rw [hopening]; nofun)

theorem Spoiled.step (h : Spoiled s) (c : Char) : Spoiled (s.step c) := by
  unfold State.step
  split
  · next w hmode => exact (h.blemish hmode).stepPlain c
  · next w hmode =>
    have hblemish := h.blemish hmode
    split_ifs
    · exact .inr (hblemish.become _)
    · exact .inr ((hblemish.extend _).become _)
  · next w hmode =>
    have hblemish := h.blemish hmode
    split_ifs
    · exact .inr (hblemish.become _)
    · exact .inr ((hblemish.extend _).become _)
  · next w hmode => exact (h.blemish hmode).stepDouble c
  · next w hmode => exact (h.blemish hmode).stepDoubleEscape c
  · next v inDouble hmode =>
    split_ifs
    · exact .inl rfl
    · exact .inl rfl
    · exact spoiled_back s inDouble v [c]
    · exact .inl rfl
  · next v inDouble text hmode =>
    split_ifs
    · exact .inl rfl
    · exact (Blemish.of_word (not_isLiteral_expansion v text)).stepDouble c
    · exact (Blemish.of_word (not_isLiteral_expansion v text)).stepPlain c
  · next v inDouble text depth hmode =>
    split_ifs
    · exact .inl rfl
    · exact .inl rfl
    · split
      · exact spoiled_back s inDouble v _
      · exact .inl rfl
    · exact .inl rfl
  · next hmode =>
    have hblemish := h.blemish hmode
    split_ifs
    · exact hblemish.newline
    · exact .inr (by rw [hmode]; exact hblemish)
  · next text hmode =>
    split_ifs
    · exact .inl rfl
    · refine Blemish.stepPlain (.inr (.inl ?_)) c
      simp [State.push, Token.isLiteral]
  · next line body hmode =>
    have hblemish := h.blemish hmode
    split_ifs
    · split
      · exact .inl rfl
      · split_ifs
        · refine Blemish.endLine ?_
          exact hblemish.of_fields rfl rfl
        · exact .inr (hblemish.of_fields rfl rfl)
        · exact .inr (hblemish.become _)
    · exact .inr (hblemish.become _)
  · next hmode => exact h

theorem Spoiled.run (h : Spoiled s) (text : List Char) : Spoiled (s.run text) := by
  induction text generalizing s with
  | nil => exact h
  | cons c text ih => exact ih (h.step c)

theorem Blemish.ended (h : Blemish s none) : ¬ OneCommand (State.finish.ended s) := by
  rintro ⟨line, hlines, hliteral⟩
  unfold State.finish.ended at hlines
  split at hlines
  · cases hlines
  · split_ifs at hlines
    have hmode : s.endLine.mode = .plain none := by
      unfold State.endLine
      split_ifs <;> rfl
    have htokens : s.endLine.tokens = [] := by
      unfold State.endLine
      split_ifs with hempty
      · exact isEmpty_iff.mp hempty
      · rfl
    have hspoiled := h.endLine
    rw [Spoiled, hmode, Blemish, htokens, Option.some.inj hlines] at hspoiled
    simp [Mode.isOpening, Mode.word, hliteral] at hspoiled

theorem Blemish.endWord_ended (h : Blemish s w) :
    ¬ OneCommand (State.finish.ended (s.endWord w)) := by
  obtain hstuck | ⟨-, hend⟩ := h.endWord
  · rintro ⟨line, hlines, -⟩
    unfold State.finish.ended at hlines
    rw [hstuck] at hlines
    cases hlines
  · exact hend.ended

theorem Spoiled.finish (h : Spoiled s) : ¬ OneCommand s.finish := by
  unfold State.finish
  split
  · next w hmode => exact (h.blemish hmode).endWord_ended
  · next v text hmode => exact (Blemish.of_word (not_isLiteral_expansion v text)).endWord_ended
  · next hmode => exact (h.blemish hmode).ended
  · next text hmode =>
    refine Blemish.ended (.inr (.inl ?_))
    simp [State.push, Token.isLiteral]
  · rintro ⟨line, hlines, -⟩
    cases hlines

end Spoiled

section At

variable {first : Token} {tokens : List Token} {w : Word}

theorem isLiteral_append {piece : Piece} (h : Word.isLiteral w = true)
    (hpiece : piece.isLiteral = true) : Word.isLiteral (w ++ [piece]) = true := by
  unfold Word.isLiteral at h ⊢
  simp [h, hpiece]

section

variable (h : Simple first tokens)
include h

theorem Simple.push (hw : Word.isLiteral w = true) :
    Simple first (tokens ++ [.word w]) := by
  refine ⟨?_, ?_⟩
  · rw [List.head?_append, h.1]
    rfl
  · rw [all_append, h.2]
    simpa [Token.isLiteral] using hw

theorem Simple.endWord (mode : Mode) :
    State.endWord ⟨mode, tokens, [], [], []⟩ (some w) =
      ⟨.plain none, tokens ++ [.word w], [], [], []⟩ := by
  have hlast : tokens.getLast? ≠ some (.operator hereOperator) := by
    intro heq
    have hmem := all_eq_true.mp h.2 _ (mem_of_getLast? heq)
    cases hmem
  unfold State.endWord
  dsimp only
  rw [if_neg hlast]
  rfl

theorem Simple.line : Line.IsSimple first ⟨tokens, []⟩ := by
  refine ⟨h.1, ?_⟩
  unfold Line.isLiteral
  rw [h.2]
  rfl

theorem Simple.endLine (mode : Mode) :
    State.endLine ⟨mode, tokens, [], [], []⟩ = ⟨.plain none, [], [], [], [⟨tokens, []⟩]⟩ := by
  unfold State.endLine
  have hne : ¬ tokens.isEmpty = true := by
    intro hempty
    have hhead := h.1
    rw [isEmpty_iff.mp hempty] at hhead
    cases hhead
  rw [if_neg hne]
  rfl

theorem Simple.ended (mode : Mode) (hmode : mode ≠ .stuck) :
    State.finish.ended ⟨mode, tokens, [], [], []⟩ = some [⟨tokens, []⟩] := by
  unfold State.finish.ended
  split
  · next heq => exact absurd heq hmode
  · rw [h.endLine]
    rfl

end

/-- The command has gone on to a place, or is not one any more. -/
inductive Reads (first : Token) : Option Spot → State → Prop
  | upto {spot s} : At first spot s → Reads first (some spot) s
  | spoiled {s} : Spoiled s → Reads first none s

theorem At.stepBetween (h : Simple first tokens) (c : Char) :
    Reads first ((Spot.plain false).step c) (State.step ⟨.plain none, tokens, [], [], []⟩ c) := by
  dsimp only [Spot.step, State.step, State.stepPlain]
  cases CharClass.of c with
  | blank => exact .upto (.between h)
  | newline =>
    have hover := At.past h.line
    rw [← h.endLine (.plain none)] at hover
    exact .upto hover
  | hash => exact .upto (.comment h)
  | singleQuote => exact .upto (.single h rfl)
  | doubleQuote => exact .upto (.double h rfl)
  | backslash => exact .upto (.escapeBetween h)
  | dollar => exact .spoiled (.inl rfl)
  | backquote => exact .spoiled (.inl rfl)
  | operator => exact .spoiled (.inl rfl)
  | pattern => exact .spoiled (.inr (.of_word rfl))
  | tilde => exact .spoiled (.inr (.of_word rfl))
  | ordinary => exact .upto (.inWord h rfl)

section

variable (h : Simple first tokens) (hw : Word.isLiteral w = true) (c : Char)
include h hw

theorem At.stepInWord :
    Reads first ((Spot.plain true).step c)
      (State.step ⟨.plain (some w), tokens, [], [], []⟩ c) := by
  have hpush := h.push hw
  have hend := h.endWord (w := w) (.plain (some w))
  dsimp only [Spot.step, State.step, State.stepPlain]
  cases CharClass.of c with
  | blank =>
    dsimp only
    rw [hend]
    exact .upto (.between hpush)
  | newline =>
    have hover := At.past hpush.line
    rw [← hpush.endLine (.plain none)] at hover
    dsimp only
    rw [hend]
    exact .upto hover
  | hash => exact .upto (.inWord h (isLiteral_append hw rfl))
  | singleQuote => exact .upto (.single h hw)
  | doubleQuote => exact .upto (.double h hw)
  | backslash => exact .upto (.escapeInWord h hw)
  | dollar => exact .spoiled (.inl rfl)
  | backquote => exact .spoiled (.inl rfl)
  | operator =>
    dsimp only
    rw [hend]
    exact .spoiled (.inl rfl)
  | pattern => exact .spoiled (.inr (.of_word (by simp [Word.isLiteral, Piece.isLiteral])))
  | tilde => exact .upto (.inWord h (isLiteral_append hw rfl))
  | ordinary => exact .upto (.inWord h (isLiteral_append hw rfl))

theorem At.stepDouble :
    Reads first (Spot.double.step c) (State.step ⟨.double w, tokens, [], [], []⟩ c) := by
  dsimp only [Spot.step, State.step, State.stepDouble]
  cases CharClass.of c with
  | doubleQuote => exact .upto (.inWord h hw)
  | backslash => exact .upto (.doubleEscape h hw)
  | dollar => exact .spoiled (.inl rfl)
  | backquote => exact .spoiled (.inl rfl)
  | _ => exact .upto (.double h (isLiteral_append hw rfl))

theorem At.stepDoubleEscape :
    At first .double (State.step ⟨.doubleEscape w, tokens, [], [], []⟩ c) := by
  have hboth : Word.isLiteral (w ++ [.quoted '\\', .quoted c]) = true := by
    rw [append_cons]
    exact isLiteral_append (isLiteral_append hw rfl) rfl
  dsimp only [State.step, State.stepDoubleEscape]
  cases CharClass.of c with
  | doubleQuote | backslash | dollar | backquote => exact .double h (isLiteral_append hw rfl)
  | newline => exact .double h hw
  | _ => exact .double h hboth

end

theorem spoiled_second {s : State} {line : Line} {v : Word} (hlines : s.lines = [line])
    (hmode : s.mode.word = some v) : Spoiled s := by
  refine .inr (.inr (.inr (.inr (.inl ⟨?_, .inr ?_⟩))))
  · rw [hlines]
    exact cons_ne_nil _ _
  · rw [hmode]
    rfl

theorem At.stepPast {line : Line} (h : line.IsSimple first) (c : Char) :
    Reads first (Spot.past.step c) (State.step ⟨.plain none, [], [], [], [line]⟩ c) := by
  dsimp only [Spot.step, State.step, State.stepPlain]
  cases CharClass.of c with
  | blank => exact .upto (.past h)
  | newline => exact .upto (.past h)
  | hash => exact .upto (.pastComment h)
  | backslash => exact .upto (.pastEscape h)
  | dollar => exact .spoiled (.inl rfl)
  | backquote => exact .spoiled (.inl rfl)
  | operator => exact .spoiled (.inl rfl)
  | _ => exact .spoiled (spoiled_second rfl rfl)

variable {spot : Spot} {s : State}

section

variable (h : At first spot s)
include h

theorem At.step (c : Char) :
    Reads first (spot.step c) (s.step c) := by
  cases h with
  | between h => exact At.stepBetween h c
  | inWord h hw => exact At.stepInWord h hw c
  | escapeBetween h =>
    dsimp only [Spot.step, State.step]
    split_ifs
    · exact .upto (.between h)
    · exact .upto (.inWord h rfl)
  | escapeInWord h hw =>
    dsimp only [Spot.step, State.step]
    split_ifs
    · exact .upto (.inWord h hw)
    · exact .upto (.inWord h (isLiteral_append hw rfl))
  | single h hw =>
    dsimp only [Spot.step, State.step]
    split_ifs
    · exact .upto (.inWord h hw)
    · exact .upto (.single h (isLiteral_append hw rfl))
  | double h hw => exact At.stepDouble h hw c
  | doubleEscape h hw => exact .upto (At.stepDoubleEscape h hw c)
  | comment h =>
    have hover := At.past h.line
    rw [← h.endLine .comment] at hover
    dsimp only [Spot.step, State.step]
    split_ifs
    · exact .upto hover
    · exact .upto (.comment h)
  | past h => exact At.stepPast h c
  | pastEscape h =>
    dsimp only [Spot.step, State.step]
    split_ifs
    · exact .upto (.past h)
    · exact .spoiled (spoiled_second rfl rfl)
  | pastComment h =>
    dsimp only [Spot.step, State.step]
    split_ifs
    · exact .upto (.past h)
    · exact .upto (.pastComment h)

theorem At.finish (hend : spot.isEnd = true) :
    ∃ line, s.finish = some [line] ∧ line.IsSimple first := by
  cases h with
  | between h => exact ⟨_, h.ended (.plain none) nofun, h.line⟩
  | inWord h hw =>
    have hpush := h.push hw
    dsimp only [State.finish]
    rw [h.endWord]
    exact ⟨_, hpush.ended (.plain none) nofun, hpush.line⟩
  | comment h => exact ⟨_, h.ended .comment nofun, h.line⟩
  | past h => exact ⟨_, rfl, h⟩
  | pastComment h => exact ⟨_, rfl, h⟩
  | _ => cases hend

theorem At.not_finish (hend : spot.isEnd = false) :
    s.finish = none := by
  cases h with
  | between | inWord | comment | past | pastComment => cases hend
  | _ => rfl

theorem At.simple_of_harmless {text : List Char}
    (hharmless : spot.harmless text = true) :
    ∃ line, (s.run text).finish = some [line] ∧ line.IsSimple first := by
  induction text generalizing spot s with
  | nil => exact h.finish hharmless
  | cons c text ih =>
    have hstep := h.step c
    dsimp only [Spot.harmless] at hharmless
    cases hspot : spot.step c with
    | none =>
      rw [hspot] at hharmless
      cases hharmless
    | some spot' =>
      rw [hspot] at hharmless hstep
      cases hstep with
      | upto hat => exact ih hat hharmless

theorem At.harmless_of_oneCommand
    {text : List Char} (hone : OneCommand (s.run text).finish) : spot.harmless text = true := by
  induction text generalizing spot s with
  | nil =>
    cases hend : spot.isEnd with
    | true => exact hend
    | false =>
      obtain ⟨line, hline, -⟩ := hone
      have hnone : s.finish = some [line] := hline
      rw [h.not_finish hend] at hnone
      cases hnone
  | cons c text ih =>
    have hstep := h.step c
    dsimp only [Spot.harmless]
    cases hspot : spot.step c with
    | none =>
      rw [hspot] at hstep
      cases hstep with
      | spoiled hspoiled => exact absurd hone (hspoiled.run text).finish
    | some spot' =>
      rw [hspot] at hstep
      cases hstep with
      | upto hat => exact ih hat hone

end

theorem at_start_run_word {text : List Char} (hne : text ≠ [])
    (h : ∀ c ∈ text, CharClass.of c = .ordinary) :
    At (.word (text.map Piece.bare)) (.plain false) (start.run (text ++ [' '])) := by
  rw [start_run_word hne h]
  refine .between ⟨rfl, ?_⟩
  simp [Token.isLiteral, Word.isLiteral, Piece.isLiteral]

end At

end Guestkit.Lib.Shell
