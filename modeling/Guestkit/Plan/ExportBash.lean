import Guestkit.Plan.Export

/-! What a shell reads in an exported script: the commands that the exporter means, as long as the
texts of the plan are data where they are put. -/

namespace Guestkit.Plan.PlanExporter

open Lib Lib.Text Lib.Shell List

/-! ### The commands that are meant -/

def command (words arguments : List String) : Line :=
  ⟨words.map (fun word => bareWord word.toList) ++
    arguments.map fun argument => quotedWord argument.toList, []⟩

def documentCommand (path content : String) : Line :=
  ⟨[bareWord "cat".toList, .operator ['>'], quotedWord path.toList, .operator hereOperator,
    quotedWord "GUESTKIT_EOF".toList], [content.toList]⟩

def backupCommand (file : String) : Line :=
  ⟨[bareWord "cp".toList, quotedWord file.toList,
    .word [.expansion "BACKUP_DIR".toList, .quoted '/']], []⟩

variable (crates : ExportCrates)

/-- For a command of the plan's own there is none to be compared with. -/
def bodyCommands : OperationType → List Line
  | .fileEdit fe =>
    backupCommand fe.file :: fe.changes.map fun change =>
      command ["sed", "-i"]
        ["s/" ++ sedEscape change.before ++ "/" ++ sedEscape change.after ++ "/g", fe.file]
  | .fileWrite fw =>
    let parent := (parentText fw.path).getD "/"
    (if parent ≠ "/" ∧ parent ≠ "" then [command ["mkdir", "-p"] [parent]] else []) ++
      [documentCommand fw.path (trimEndMatches (· = '\n') fw.content ++ "\n")] ++
      match fw.mode with
      | some mode => [command ["chmod"] [mode, fw.path]]
      | none => []
  | .symlink sl => [command ["ln", "-sfn"] [sl.target, sl.linkPath]]
  | .fileDelete fd =>
    if fd.missingOk then [command ["rm", "-f"] [fd.path]] else [command ["rm"] [fd.path]]
  | .packageInstall pi => [command ["dnf", "install", "-y"] pi.packages]
  | .serviceOperation so =>
    (match so.state with
      | some state =>
        if state = "enabled" then [command ["systemctl", "enable"] [so.service]] else []
      | none => []) ++
      (if so.start then [command ["systemctl", "start"] [so.service]] else []) ++
      if so.restart then [command ["systemctl", "restart"] [so.service]] else []
  | .selinuxMode sm =>
    [command ["sed", "-i"]
      ["s/SELINUX=" ++ sedEscape sm.current ++ "/SELINUX=" ++ sedEscape sm.target ++ "/g", sm.file]]
  | .commandExec _ => []
  | .fileCopy fc => [command ["cp"] [fc.source, fc.destination]]
  | .directoryCreate dc =>
    match dc.mode with
    | some mode => [command ["mkdir", "-p", "-m"] [mode, dc.path]]
    | none => [command ["mkdir", "-p"] [dc.path]]
  | .filePermissions fp =>
    command ["chmod"] [fp.mode, fp.path] ::
      match fp.owner with
      | some owner => [command ["chown"] [owner, fp.path]]
      | none => []
  | .driverInject di =>
    [⟨[bareWord "pnputil".toList, bareWord "/add-driver".toList, quotedWord di.infPath.toList,
      bareWord "/install".toList], []⟩]
  | .registryEdit re =>
    [command ["echo"]
      ["Registry edit: " ++ shellEscape re.key ++ " \\ " ++ shellEscape re.value ++ " = " ++
        shellEscape (crates.jsonToString re.newData) ++ " (type: " ++ shellEscape re.dataType ++
        ")"],
      command ["echo"] ["WARNING: Registry edits require Windows tools (reg.exe or regedit)"]]

def postActionCommands : PostApplyAction → List Line
  | .serviceRestart services =>
    services.map fun service => command ["systemctl", "restart"] [service]
  | .validation _ _ => []
  | .message message => [command ["echo"] [message]]
  | .rebootRequired reason => [command ["echo"] ["Reboot required: " ++ reason]]

def headerCommands (plan : FixPlan) : List Line :=
  [command ["set", "-e"] [],
    command ["echo"] ["Applying " ++ plan.profile ++ " fixes..."],
    ⟨[.word ("BACKUP_DIR=".toList.map .bare ++ "/backup/".toList.map .quoted ++
      [.expansion "(date +%Y%m%d-%H%M%S)".toList])], []⟩,
    ⟨[bareWord "mkdir".toList, bareWord "-p".toList, .word [.expansion "BACKUP_DIR".toList]], []⟩]

def commands (plan : FixPlan) : List Line :=
  headerCommands plan ++ plan.operations.flatMap (bodyCommands crates ·.opType) ++
    plan.postApply.flatMap postActionCommands ++
    [command ["echo"] ["✓ All fixes applied successfully"]]

/-! ### Texts that are data

A newline ends a comment, a quote ends quoted text, and in double quotes there are expansions. -/

def bodyLiteral : OperationType → Prop
  | .fileEdit fe =>
    ∀ change ∈ fe.changes, '\'' ∉ change.before.toList ∧ '\'' ∉ change.after.toList
  | .fileWrite fw => "GUESTKIT_EOF" ∉ split '\n' (trimEndMatches (· = '\n') fw.content)
  | .selinuxMode sm => '\'' ∉ sm.current.toList ∧ '\'' ∉ sm.target.toList
  | .driverInject di => '\n' ∉ di.driverName.toList
  | .registryEdit re =>
    IsDoubleLiteral re.key.toList ∧ IsDoubleLiteral re.value.toList ∧
      IsDoubleLiteral (crates.jsonToString re.newData).toList ∧ IsDoubleLiteral re.dataType.toList
  | _ => True

structure LiteralTexts (crates : ExportCrates) (plan : FixPlan) : Prop where
  profile : '\n' ∉ plan.profile.toList ∧ IsDoubleLiteral plan.profile.toList
  vm : '\n' ∉ plan.vm.toList
  operations : ∀ op ∈ plan.operations, ('\n' ∉ op.id.toList ∧ '\n' ∉ op.description.toList) ∧
    bodyLiteral crates op.opType

/-- No command of the plan's own is to be run. -/
structure WithoutCommands (plan : FixPlan) : Prop where
  operations : ∀ op ∈ plan.operations, op.validation = none ∧ ∀ ce, op.opType ≠ .commandExec ce
  postApply : ∀ action ∈ plan.postApply, ∀ command output, action ≠ .validation command output

/-- The texts of the plan are read as data wherever they stand, and the script as the commands that
are meant. -/
def ReadsAsMeant (plan : FixPlan) : Prop :=
  start.TakesAll (toBash crates plan).flatten ∧
    parse (render (toBash crates plan).flatten) = some (commands crates plan)

theorem shellEscape_toList (s : String) : (shellEscape s).toList = quote s.toList := by
  have hchar : (fun c => if ['\''].contains c then "'\\''".toList else [c]) = quoteChar := by
    funext c
    unfold quoteChar
    simp
  rw [shellEscape, replaceChars, String.toList_append, String.toList_append,
    String.toList_ofList, hchar, String.toList_ofList]
  rfl

/-- Wherever a word can begin, an escaped text is read as one word that stands for the text, and
escaped texts with blanks between them are read as these words. -/
theorem shellEscape_words (strings : List String) :
    (∀ (s : State) (text : String), (s.become (.plain none)).run (shellEscape text).toList =
      s.become (.plain (some (text.toList.map .quoted)))) ∧
      parse (join " " (strings.map shellEscape)).toList =
        some (if strings = [] then [] else [command [] strings]) := by
  constructor
  · intro s text
    rw [shellEscape_toList]
    exact run_quote (s := s.become (.plain none)) (w := none) rfl text.toList
  · cases strings with
    | nil => rfl
    | cons value values =>
      have hread := Settled.nil.finish_quotes [] value.toList (values.map String.toList)
      rw [← map_cons, map_map, map_map] at hread
      rw [join_toList, map_map, funext (f := String.toList ∘ shellEscape) shellEscape_toList]
      exact hread

theorem mem_replaceChars {c d : Char} {r : String} (hd : c ≠ d) (hr : c ∉ r.toList) (s : String) :
    c ∈ (replaceChars [d] r s).toList ↔ c ∈ s.toList := by
  rw [replaceChars, String.toList_ofList, mem_flatMap]
  constructor
  · rintro ⟨e, he, hmem⟩
    split_ifs at hmem with heq
    · exact absurd hmem hr
    · rwa [mem_singleton.mp hmem]
  · intro hmem
    refine ⟨c, hmem, ?_⟩
    rw [if_neg (by simpa using hd)]
    exact mem_singleton_self c

theorem quote_mem_sedEscape (s : String) : '\'' ∈ (sedEscape s).toList ↔ '\'' ∈ s.toList := by
  rw [sedEscape, mem_replaceChars (by decide) (by decide), mem_replaceChars (by decide) (by decide),
    mem_replaceChars (by decide) (by decide), mem_replaceChars (by decide) (by decide)]

theorem escapedArg_eq (s : String) : escapedArg s = .data (quote s.toList) s.toList := by
  rw [escapedArg, shellEscape_toList]

theorem escapedArgs_eq (args : List String) :
    escapedArgs args = arguments (args.map String.toList) := by
  induction args with
  | nil => rfl
  | cons s args ih =>
    cases args with
    | nil => rw [escapedArgs, escapedArg_eq]; rfl
    | cons next args =>
      rw [escapedArgs, ih, escapedArg_eq]
      · rfl
      · exact nofun

def IsHead (words : List String) (head : String) : Prop :=
  head.toList = (words.map String.toList).flatMap (· ++ [' ']) ∧ words.map String.toList ≠ [] ∧
    ∀ word ∈ words.map String.toList, word ≠ [] ∧ ∀ c ∈ word, CharClass.of c = .ordinary

instance (words : List String) (head : String) : Decidable (IsHead words head) :=
  inferInstanceAs (Decidable (_ ∧ _))

theorem emits_command {words : List String} {head : String} (h : IsHead words head)
    (args : List String) :
    Emits (writeln (lit head :: escapedArgs args)) True [command words args] := by
  obtain ⟨hhead, hne, hwords⟩ := h
  have hemits := Emits.command (words.map String.toList) (args.map String.toList) hhead hne hwords
  rw [map_map, map_map] at hemits
  rw [writeln, escapedArgs_eq]
  exact hemits

theorem run_head {words : List String} {head : String} (h : IsHead words head)
    (lines : List Line) :
    (between lines).run head.toList =
      ⟨.plain none, words.map fun word => bareWord word.toList, [], [], lines⟩ := by
  obtain ⟨hhead, -, hwords⟩ := h
  have hrun := Settled.nil.run_words hwords lines
  rw [map_map, ← hhead] at hrun
  exact hrun

theorem run_echo {head text : String} (hhead : head.toList = "echo \"".toList ++ text.toList)
    (htext : text.toList.foldlM doubleStep false = some false) (lines : List Line) :
    (between lines).run head.toList =
      ⟨.double (text.toList.map .quoted), [bareWord "echo".toList], [], [], lines⟩ := by
  rw [hhead, State.run_append]
  exact (run_double_iff ⟨.plain none, [bareWord "echo".toList], [], [], lines⟩ [] false _).mpr htext

theorem run_echo_line (lines : List Line) (w : Word) :
    State.run ⟨.plain (some w), [bareWord "echo".toList], [], [], lines⟩ "\n".toList =
      between (lines ++ [⟨[bareWord "echo".toList, .word w], []⟩]) := rfl

theorem emits_echo {head text : String}
    (hhead : head.toList = "echo \"".toList ++ text.toList ++ ['"'])
    (htext : text.toList.foldlM doubleStep false = some false) :
    Emits (writeln [lit head]) True [command ["echo"] [text]] := by
  refine .fixed fun lines => ?_
  have hopen := run_echo (String.toList_append) htext lines
  rw [String.toList_append] at hopen
  rw [hhead, List.append_assoc, State.run_append, hopen]
  exact run_echo_line lines _

theorem emits_profile (profile : String) :
    Emits (writeln [lit "echo \"Applying ", arg (profile ++ " fixes..."), lit "\""])
      (IsDoubleLiteral profile.toList)
      [command ["echo"] ["Applying " ++ profile ++ " fixes..."]] := by
  intro lines
  let s : State := ⟨.plain none, [bareWord "echo".toList], [], [], lines⟩
  have hopen : (between lines).run "echo \"Applying ".toList =
      s.become (.double ("Applying ".toList.map .quoted)) :=
    run_echo (by decide) (by decide) lines
  have hafter : ∀ escaped, " fixes...".toList.foldlM doubleStep escaped = some false := by decide
  refine Leads.congr (Leads.result (.text hopen (.double (.text rfl
    (.text (run_echo_line lines _) (.nil _))))) ?_) ?_
  · simp [command, quotedWord]
  · rw [String.toList_append, foldlM_append_iff hafter, and_true]

theorem emits_blank : Emits (writeln []) True [] := by
  intro lines
  rw [append_nil]
  exact .text rfl (.nil _)

section

variable (remark : String) {chars : List Char} (hremark : remark.toList = '#' :: chars)
  (hchars : '\n' ∉ chars)
include hremark hchars

theorem emits_remark : Emits (writeln [lit remark]) True [] := by
  rw [lit, hremark]
  exact .comment hchars fun lines => .text rfl (.nil _)

theorem emits_comment (s : String) :
    Emits (writeln [lit remark, arg s]) ('\n' ∉ s.toList) [] := by
  rw [lit, hremark]
  refine (Emits.comment hchars fun lines => ?_).congr (and_iff_left trivial)
  exact .comment rfl (.text rfl (.nil _))

end

theorem emits_title (id description : String) :
    Emits (writeln [lit "# ", arg id, lit ": ", arg description])
      ('\n' ∉ id.toList ∧ '\n' ∉ description.toList) [] := by
  have hblank : '\n' ∉ [' '] := by decide
  refine (Emits.comment hblank fun lines => ?_).congr
    (and_congr_right fun _ => and_iff_left trivial)
  exact .comment rfl (.commentText rfl (by decide) (.comment rfl (.text rfl (.nil _))))

theorem emits_sed {head first second : String}
    (hhead : head.toList = "sed -i '".toList ++ first.toList)
    (hfirst : '\'' ∉ first.toList) (hsecond : '\'' ∉ second.toList)
    (before after file : String) :
    Emits (writeln [lit head, arg (sedEscape before), lit second,
        arg (sedEscape after), lit "/g' ", escapedArg file])
      ('\'' ∉ before.toList ∧ '\'' ∉ after.toList)
      [command ["sed", "-i"]
        [first ++ sedEscape before ++ second ++ sedEscape after ++ "/g", file]] := by
  intro lines
  let s : State := ⟨.plain none, [bareWord "sed".toList, bareWord "-i".toList], [], [], lines⟩
  have hopen : (between lines).run head.toList = s.become (.single (first.toList.map .quoted)) := by
    rw [hhead, State.run_append]
    exact (run_single_iff s [] first.toList).mpr hfirst
  have hclose : ∀ w, (s.become (.single w)).run "/g' ".toList =
      ⟨.plain none, s.tokens ++ [.word (w ++ [.quoted '/'] ++ [.quoted 'g'])], [], [], lines⟩ :=
    fun w => rfl
  rw [escapedArg_eq]
  refine Leads.congr (Leads.result (.text hopen (.single (.singleText hsecond (.single
    (.text (hclose _) ((Settled.push s.tokens _).arguments (by simp) lines
      [file.toList])))))) ?_) ?_
  · simp [command, quotedWord, s]
  · rw [quote_mem_sedEscape, quote_mem_sedEscape, and_true]

theorem emits_backup (file : String) :
    Emits (writeln [lit "cp ", escapedArg file, lit " \"$BACKUP_DIR/\""]) True
      [backupCommand file] := by
  intro lines
  let s : State := ⟨.plain none, [bareWord "cp".toList], [], [], lines⟩
  have hopen : (between lines).run "cp ".toList = s.become (.plain none) := rfl
  have hclose : (s.become (.plain (some (file.toList.map .quoted)))).run
      " \"$BACKUP_DIR/\"".toList =
      ⟨.plain (some [.expansion "BACKUP_DIR".toList, .quoted '/']),
        [bareWord "cp".toList, quotedWord file.toList], [], [], lines⟩ := rfl
  rw [escapedArg_eq]
  exact .text hopen (.word (.text hclose (.text rfl (.nil _))))

theorem emits_document (path content : String) :
    Emits (writeln [lit "cat > ", escapedArg path, lit " << 'GUESTKIT_EOF'\n",
        arg (content ++ "\n"), lit "GUESTKIT_EOF"])
      ("GUESTKIT_EOF" ∉ split '\n' content) [documentCommand path (content ++ "\n")] := by
  intro lines
  let s : State := ⟨.plain none, [bareWord "cat".toList, .operator ['>']], [], [], lines⟩
  let t : State := ⟨.plain none, [bareWord "cat".toList, .operator ['>'], quotedWord path.toList,
    .operator hereOperator, quotedWord "GUESTKIT_EOF".toList], ["GUESTKIT_EOF".toList], [], lines⟩
  have hopen : (between lines).run "cat > ".toList = s.become (.plain none) := rfl
  have hbegin : (s.become (.plain (some (path.toList.map .quoted)))).run
      " << 'GUESTKIT_EOF'\n".toList = t.become (.document [] []) := rfl
  have hlines : ∀ l ∈ content.toList.splitOn '\n', '\n' ∉ l := splitOn_not_mem '\n' content.toList
  have hcontent : (content ++ "\n").toList =
      (content.toList.splitOn '\n').flatMap (· ++ ['\n']) := by
    rw [String.toList_append, flatMap_splitOn]
    rfl
  have hend : ∀ body, (t.become (.document [] body)).run "GUESTKIT_EOF".toList =
      t.become (.document "GUESTKIT_EOF".toList body) := fun body => rfl
  have hover : ∀ body, (t.become (.document "GUESTKIT_EOF".toList body)).run ['\n'] =
      between (lines ++ [⟨t.tokens, [body]⟩]) := fun body => rfl
  rw [escapedArg_eq]
  refine Leads.congr (.text hopen (.word (.text hbegin (.document rfl hlines hcontent
    (.text (hend _) (.text (hover _) (.nil _))))))) ?_
  rw [mem_split, and_true]

theorem emits_driver (infPath driverName : String) :
    Emits (writeln [lit "pnputil /add-driver ", escapedArg infPath, lit " /install  # driver: ",
        escapedArg driverName]) ('\n' ∉ driverName.toList)
      [⟨[bareWord "pnputil".toList, bareWord "/add-driver".toList, quotedWord infPath.toList,
        bareWord "/install".toList], []⟩] := by
  intro lines
  let s : State := ⟨.plain none, [bareWord "pnputil".toList, bareWord "/add-driver".toList], [], [],
    lines⟩
  let t : State := ⟨.comment, [bareWord "pnputil".toList, bareWord "/add-driver".toList,
    quotedWord infPath.toList, bareWord "/install".toList], [], [], lines⟩
  have hopen : (between lines).run "pnputil /add-driver ".toList = s.become (.plain none) :=
    run_head (show IsHead ["pnputil", "/add-driver"] "pnputil /add-driver " by decide) lines
  have hsplit : " /install  # driver: ".toList =
      [' '] ++ (("/install".toList ++ [' ']) ++ ([' ', '#'] ++ " driver: ".toList)) := by decide
  have hremark : (s.become (.plain (some (infPath.toList.map .quoted)))).run
      " /install  # driver: ".toList = t := by
    have hsettled : Settled s.tokens := Settled.push [bareWord "pnputil".toList] _
    have hblank : (s.become (.plain (some (infPath.toList.map .quoted)))).run [' '] = _ :=
      hsettled.run_blank lines (infPath.toList.map .quoted)
    have hword := (Settled.push s.tokens (infPath.toList.map .quoted)).run_word
      (show "/install".toList ≠ [] by decide) (by decide) lines
    have hcomment : '\n' ∉ " driver: ".toList := by decide
    rw [hsplit, State.run_append, hblank, State.run_append, hword, State.run_append]
    exact (run_comment_iff (s := t) rfl).mpr hcomment _ (prefix_refl _)
  rw [escapedArg_eq, escapedArg_eq]
  refine Leads.congr (.text hopen (.word (.text hremark (.comment rfl (.text rfl (.nil _)))))) ?_
  rw [mem_quote (by decide) (by decide), and_true]

theorem emits_registry (key value data dataType : String) :
    Emits (writeln [lit "echo \"Registry edit: ", escapedArg key, lit " \\\\ ", escapedArg value,
        lit " = ", escapedArg data, lit " (type: ", escapedArg dataType, lit ")\""])
      (IsDoubleLiteral key.toList ∧ IsDoubleLiteral value.toList ∧ IsDoubleLiteral data.toList ∧
        IsDoubleLiteral dataType.toList)
      [command ["echo"] ["Registry edit: " ++ shellEscape key ++ " \\ " ++ shellEscape value ++
        " = " ++ shellEscape data ++ " (type: " ++ shellEscape dataType ++ ")"]] := by
  intro lines
  let s : State := ⟨.plain none, [bareWord "echo".toList], [], [], lines⟩
  have hopen : (between lines).run "echo \"Registry edit: ".toList =
      s.become (.double ("Registry edit: ".toList.map .quoted)) :=
    run_echo (by decide) (by decide) lines
  have hslash : ∀ w, (s.become (.double w)).run " \\\\ ".toList =
      s.become (.double (w ++ [.quoted ' '] ++ [.quoted '\\'] ++ [.quoted ' '])) := fun w => rfl
  have hclose : ∀ w, (s.become (.double w)).run ")\"".toList =
      s.become (.plain (some (w ++ [.quoted ')']))) := fun w => rfl
  simp only [escapedArg_eq]
  refine Leads.congr (Leads.result (.text hopen (.double (.text (hslash _) (.double (.doubleText
    (by decide) (.double (.doubleText (by decide) (.double (.text (hclose _)
      (.text (run_echo_line lines _) (.nil _))))))))))) ?_) ?_
  · simp [command, quotedWord, shellEscape_toList]
  · simp only [foldlM_quote_iff, and_true]

theorem emits_backupDir :
    Emits (writeln [lit "BACKUP_DIR=\"/backup/$(date +%Y%m%d-%H%M%S)\""]) True
      [⟨[.word ("BACKUP_DIR=".toList.map .bare ++ "/backup/".toList.map .quoted ++
        [.expansion "(date +%Y%m%d-%H%M%S)".toList])], []⟩] := by
  refine .fixed fun lines => ?_
  have hsplit : "BACKUP_DIR=\"/backup/$(date +%Y%m%d-%H%M%S)\"".toList ++ ['\n'] =
      "BACKUP_DIR=".toList ++ ("\"/backup/".toList ++ "$(date +%Y%m%d-%H%M%S)\"\n".toList) := by
    decide
  have hname : (between lines).run "BACKUP_DIR=".toList =
      (between lines).become (.plain (some ("BACKUP_DIR=".toList.map .bare))) := rfl
  have hopen : ((between lines).become (.plain (some ("BACKUP_DIR=".toList.map .bare)))).run
      "\"/backup/".toList = (between lines).become (.double ("BACKUP_DIR=".toList.map .bare ++
        "/backup/".toList.map .quoted)) := rfl
  rw [hsplit, State.run_append, hname, State.run_append, hopen]
  rfl

theorem emits_mkdir :
    Emits (writeln [lit "mkdir -p \"$BACKUP_DIR\""]) True
      [⟨[bareWord "mkdir".toList, bareWord "-p".toList, .word [.expansion "BACKUP_DIR".toList]],
        []⟩] := by
  refine .fixed fun lines => ?_
  have hsplit : "mkdir -p \"$BACKUP_DIR\"".toList ++ ['\n'] =
    "mkdir -p ".toList ++ "\"$BACKUP_DIR\"\n".toList := by decide
  rw [hsplit, State.run_append, run_head (show IsHead ["mkdir", "-p"] "mkdir -p " by decide)]
  rfl

theorem emits_changes (file : String) (changes : List FileChange) :
    Emits (changes.map fun change => sedCommand file change.before change.after).flatten
      (∀ change ∈ changes, '\'' ∉ change.before.toList ∧ '\'' ∉ change.after.toList)
      (changes.map fun change => command ["sed", "-i"]
        ["s/" ++ sedEscape change.before ++ "/" ++ sedEscape change.after ++ "/g", file]) := by
  rw [map_eq_flatMap, map_eq_flatMap]
  exact .flatMap fun change _ => .single (emits_sed (by decide) (by decide) (by decide) _ _ _)

theorem emits_ite {c : Prop} [Decidable c] {script : List Segment} {line : Line}
    (h : Emits script True [line]) :
    Emits (if c then [script] else []).flatten True (if c then [line] else []) := by
  split_ifs
  · exact h.single
  · exact .nil

theorem emits_optional {o : Option String} {script : String → List (List Segment)}
    {commands : String → List Line} (h : ∀ x, Emits (script x).flatten True (commands x)) :
    Emits (match o with | some x => script x | none => []).flatten True
      (match o with | some x => commands x | none => []) := by
  cases o with
  | none => exact .nil
  | some x => exact h x

theorem emits_fileWrite (fw : FileWrite) :
    Emits (bodyToBash crates (.fileWrite fw)).flatten (bodyLiteral crates (.fileWrite fw))
      (bodyCommands crates (.fileWrite fw)) := by
  let parent := (parentText fw.path).getD "/"
  have hparent : Emits
      (if parent ≠ "/" ∧ parent ≠ "" then [writeln [lit "mkdir -p ", escapedArg parent]]
        else []).flatten True
      (if parent ≠ "/" ∧ parent ≠ "" then [command ["mkdir", "-p"] [parent]] else []) :=
    emits_ite (emits_command (by decide) [parent])
  have hdocument := (emits_document fw.path (trimEndMatches (· = '\n') fw.content)).single
  refine ((hparent.pieces hdocument).pieces (emits_optional fun mode =>
    .single (emits_command (by decide) [mode, fw.path]))).congr ?_
  rw [true_and, and_true]
  rfl

theorem emits_service (so : ServiceOperation) :
    Emits (bodyToBash crates (.serviceOperation so)).flatten True
      (bodyCommands crates (.serviceOperation so)) := by
  exact (((emits_optional fun _ => emits_ite (emits_command (by decide) [so.service])).pieces
    (emits_ite (emits_command (by decide) [so.service]))).pieces
    (emits_ite (emits_command (by decide) [so.service]))).congr (by simp)

theorem emits_body (body : OperationType)
    (hbody : ∀ ce, body ≠ .commandExec ce) :
    Emits (bodyToBash crates body).flatten (bodyLiteral crates body)
      (bodyCommands crates body) := by
  cases body with
  | fileEdit fe => exact .always (emits_backup fe.file) (emits_changes fe.file fe.changes)
  | fileWrite fw => exact emits_fileWrite crates fw
  | symlink sl => exact .single (emits_command (by decide) [sl.target, sl.linkPath])
  | fileDelete fd =>
    unfold bodyToBash bodyCommands
    dsimp only
    split_ifs
    · exact .single (emits_command (by decide) [fd.path])
    · exact .single (emits_command (by decide) [fd.path])
  | packageInstall pi => exact .single (emits_command (by decide) pi.packages)
  | serviceOperation so => exact emits_service crates so
  | selinuxMode sm => exact .single (emits_sed (by decide) (by decide) (by decide) _ _ _)
  | commandExec ce => exact absurd rfl (hbody ce)
  | fileCopy fc => exact .single (emits_command (by decide) [fc.source, fc.destination])
  | directoryCreate dc =>
    unfold bodyToBash bodyCommands
    dsimp only
    cases dc.mode with
    | some mode => exact .single (emits_command (by decide) [mode, dc.path])
    | none => exact .single (emits_command (by decide) [dc.path])
  | filePermissions fp =>
    exact .always (emits_command (by decide) [fp.mode, fp.path]) (emits_optional fun owner =>
      .single (emits_command (by decide) [owner, fp.path]))
  | driverInject di => exact .single (emits_driver _ _)
  | registryEdit re =>
    have hwarning : Emits (writeln
        [lit "echo \"WARNING: Registry edits require Windows tools (reg.exe or regedit)\""]) True
        [command ["echo"] ["WARNING: Registry edits require Windows tools (reg.exe or regedit)"]] :=
      emits_echo (by decide) (by decide)
    exact ((emits_registry _ _ _ _).cons hwarning.single).congr (iff_of_eq (and_true _))

theorem emits_operation (op : Operation) (hvalidation : op.validation = none)
    (hbody : ∀ ce, op.opType ≠ .commandExec ce) :
    Emits (operationToBash crates op).flatten
      (('\n' ∉ op.id.toList ∧ '\n' ∉ op.description.toList) ∧ bodyLiteral crates op.opType)
      (bodyCommands crates op.opType) := by
  have hnone : Emits (validationToBash op).flatten True [] := by
    rw [validationToBash, hvalidation]
    exact .nil
  have h := (((emits_title op.id op.description).single.pieces
    (emits_body crates op.opType hbody)).pieces hnone).pieces emits_blank.single
  rw [nil_append, append_nil, append_nil] at h
  exact h.congr (by rw [and_true, and_true])

theorem emits_postAction (action : PostApplyAction)
    (haction : ∀ command output, action ≠ .validation command output) :
    Emits (postActionToBash action).flatten True (postActionCommands action) := by
  cases action with
  | serviceRestart services =>
    unfold postActionToBash postActionCommands
    dsimp only
    rw [map_eq_flatMap, map_eq_flatMap]
    refine (Emits.flatMap fun service _ => .single (emits_command (by decide) [service])).congr ?_
    exact iff_true_intro fun _ _ => trivial
  | validation command output => exact absurd rfl (haction command output)
  | message message => exact .single (emits_command (by decide) [message])
  | rebootRequired reason =>
    exact .single (emits_command (by decide) ["Reboot required: " ++ reason])

theorem emits_header (plan : FixPlan)
    (htime : '\n' ∉ (crates.displayTime plan.generated).toList) :
    Emits (headerToBash crates plan).flatten
      ('\n' ∉ plan.profile.toList ∧ '\n' ∉ plan.vm.toList ∧ IsDoubleLiteral plan.profile.toList)
      (headerCommands plan) := by
  have hset : Emits (writeln [lit "set -e"]) True [command ["set", "-e"] []] := .fixed fun _ => rfl
  have hbackup := (emits_remark "# Create backup" rfl (by decide)).always
    (emits_backupDir.always (emits_mkdir.always emits_blank.single))
  have hprofile := (emits_profile plan.profile).cons (emits_blank.always hbackup)
  have htimed := (emits_comment "# Generated: " rfl (by decide)
    (crates.displayTime plan.generated)).cons (emits_blank.always (hset.always
      (emits_blank.always hprofile)))
  have h := (emits_remark "#!/bin/bash" rfl (by decide)).always
    ((emits_remark "# Generated by GuestKit v1.2.5" rfl (by decide)).always
      ((emits_comment "# Profile: " rfl (by decide) plan.profile).cons
        ((emits_comment "# VM: " rfl (by decide) plan.vm).cons htimed)))
  exact h.congr (by simp [htime])

theorem emits_footer (plan : FixPlan)
    (hpost : ∀ action ∈ plan.postApply, ∀ command output, action ≠ .validation command output) :
    Emits (footerToBash plan).flatten True (plan.postApply.flatMap postActionCommands ++
      [command ["echo"] ["✓ All fixes applied successfully"]]) := by
  have hactions : Emits (if plan.postApply.isEmpty then []
      else writeln [lit "# Post-apply actions"] :: plan.postApply.flatMap postActionToBash).flatten
      True (plan.postApply.flatMap postActionCommands) := by
    split_ifs with hempty
    · rw [isEmpty_iff.mp hempty]
      exact .nil
    · refine ((emits_remark "# Post-apply actions" rfl (by decide)).always
        (Emits.flatMap fun action h => emits_postAction action (hpost action h))).congr ?_
      exact iff_true_intro fun _ _ => trivial
  have hdone : Emits (writeln [lit "echo \"✓ All fixes applied successfully\""]) True
      [command ["echo"] ["✓ All fixes applied successfully"]] :=
    emits_echo (by decide) (by decide)
  exact (hactions.pieces (emits_blank.always hdone.single)).congr (iff_of_eq (and_true _))

section

variable {crates : ExportCrates} {plan : FixPlan}
  (htime : '\n' ∉ (crates.displayTime plan.generated).toList) (hplan : WithoutCommands plan)
include htime hplan

theorem emits_toBash :
    Emits (toBash crates plan).flatten (LiteralTexts crates plan) (commands crates plan) := by
  have hoperations := Emits.flatMap fun op hop =>
    emits_operation crates op (hplan.operations op hop).1 (hplan.operations op hop).2
  have h := ((emits_header crates plan htime).pieces hoperations).pieces
    (emits_footer plan hplan.postApply)
  rw [← append_assoc] at h
  refine h.congr ⟨?_, ?_⟩
  · rintro ⟨⟨⟨hline, hvm, hdouble⟩, hops⟩, -⟩
    exact ⟨⟨hline, hdouble⟩, hvm, hops⟩
  · intro hliteral
    exact ⟨⟨⟨hliteral.profile.1, hliteral.vm, hliteral.profile.2⟩, hliteral.operations⟩, trivial⟩

/-- A script is read as it is meant exactly if no text of the plan ends the quotes, the comment or
the here-document that it is put in, and none in double quotes is expanded. -/
theorem readsAsMeant_iff :
    ReadsAsMeant crates plan ↔ LiteralTexts crates plan := by
  have h := emits_toBash htime hplan
  constructor
  · rintro ⟨htakes, -⟩
    exact h.takesAll.mp htakes
  · intro hliteral
    exact ⟨h.takesAll.mpr hliteral, h.parse hliteral⟩

end

def describedPlan (description : String) : FixPlan where
  vm := "web.qcow2"
  generated := 1767225600
  profile := "security"
  operations :=
    [{ id := "op-001", description := description,
       opType := .serviceOperation { service := "sshd", restart := true } }]

theorem describedPlan_withoutCommands (description : String) :
    WithoutCommands (describedPlan description) := by
  refine ⟨fun op hop => ?_, nofun⟩
  rw [mem_singleton.mp hop]
  exact ⟨rfl, nofun⟩

theorem describedPlan_readsAsMeant :
    ReadsAsMeant sampleCrates (describedPlan "Restart ssh") := by
  refine (readsAsMeant_iff (by decide) (describedPlan_withoutCommands _)).mpr ?_
  refine ⟨by decide, by decide, fun op hop => ?_⟩
  rw [mem_singleton.mp hop]
  exact ⟨by decide, trivial⟩

theorem description_read_as_command :
    WithoutCommands (describedPlan "Restart ssh\nreboot") ∧
      (parse (render (toBash sampleCrates (describedPlan "Restart ssh\nreboot")).flatten)).any
        (·.contains (command ["reboot"] [])) = true ∧
      (commands sampleCrates (describedPlan "Restart ssh\nreboot")).contains
        (command ["reboot"] []) = false :=
  ⟨describedPlan_withoutCommands _, by decide +kernel, by decide +kernel⟩

end Guestkit.Plan.PlanExporter
