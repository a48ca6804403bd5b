import TabCompletion.Proofs.Lossless

namespace TabCompletion.Zsh

/-- Where the reading of an array is: between two words, inside a word, or inside the quotes of
one. -/
inductive Lexing where
  | between
  | inside
  | quoted

/-- The words that have been begun where a character belongs to none. -/
def Lexing.begun : Lexing → List Text
  | between => []
  | inside | quoted => [[]]

/-- More characters at the beginning of the first word. -/
def prepend (text : Text) (words : List Text × Text) : List Text × Text :=
  (words.1.modifyHead (text ++ ·), words.2)

/-- The words of an array as they are written, and the text after its parenthesis. In quotes every
character belongs to the word, and outside of them one that a backslash stands before. There are
none when quotes or the array stay open. -/
def arrayWords : Lexing → Text → Option (List Text × Text)
  | _, [] => none
  | .quoted, c :: rest => (arrayWords (if c = '\'' then .inside else .quoted) rest).map (prepend [c])
  | _, ['\\'] => none
  | _, '\\' :: c :: rest => (arrayWords .inside rest).map (prepend ['\\', c])
  | state, c :: rest =>
    if c = ')' then some (state.begun, rest)
    else if isWordEnd c then (arrayWords .between rest).map (Prod.map (state.begun ++ ·) id)
    else (arrayWords (if c = '\'' then .quoted else .inside) rest).map (prepend [c])

theorem prepend_prepend (first second : Text) :
    prepend first ∘ prepend second = prepend (first ++ second) := by
  funext ⟨words, rest⟩
  cases words <;> simp [prepend]

theorem arrayWords_cons {state : Lexing} {c : Char} (unquoted : state ≠ .quoted) (unescaped : c ≠ '\\')
    (rest : Text) :
    arrayWords state (c :: rest) =
      if c = ')' then some (state.begun, rest)
      else if isWordEnd c then (arrayWords .between rest).map (Prod.map (state.begun ++ ·) id)
      else (arrayWords (if c = '\'' then .quoted else .inside) rest).map (prepend [c]) := by
  rw [arrayWords]
  · exact fun same _ => unescaped same
  · exact fun _ _ same _ => unescaped same
  · exact unquoted

theorem arrayWords_escaped {state : Lexing} (unquoted : state ≠ .quoted) (c : Char) (rest : Text) :
    arrayWords state ('\\' :: c :: rest) = (arrayWords .inside rest).map (prepend ['\\', c]) := by
  rw [arrayWords]
  exact unquoted

/-- A quote outside of quotes opens them. -/
theorem arrayWords_quote {state : Lexing} (unquoted : state ≠ .quoted) (rest : Text) :
    arrayWords state ('\'' :: rest) = (arrayWords .quoted rest).map (prepend ['\'']) := by
  rw [arrayWords_cons unquoted (by decide), if_neg (by decide), if_neg (by decide), if_pos rfl]

/-- A blank ends the word that has been begun. -/
theorem arrayWords_blank {state : Lexing} {c : Char} (unquoted : state ≠ .quoted)
    (blank : isWordEnd c = true) (rest : Text) :
    arrayWords state (c :: rest) =
      (arrayWords .between rest).map (Prod.map (state.begun ++ ·) id) := by
  have other {d : Char} (inside : isWordEnd d = false) : c ≠ d := by
    rintro rfl
    simp [blank] at inside
  rw [arrayWords_cons unquoted (other rfl), if_neg (other rfl), if_pos blank]

theorem arrayWords_blanks {blanks : Text} (every : blanks.all isWordEnd = true) (rest : Text) :
    arrayWords .between (blanks ++ rest) = arrayWords .between rest := by
  induction blanks with
  | nil => rfl
  | cons c blanks ih =>
    obtain ⟨blank, later⟩ := Bool.and_eq_true_iff.mp (List.all_cons.symm.trans every)
    rw [List.cons_append, arrayWords_blank (by simp) blank, ih later]
    exact Option.map_id_apply

/-- The quotes of a quoted text are closed at its end. -/
theorem arrayWords_quoted (text rest : Text) :
    arrayWords .quoted (text.flatMap quoteChar ++ '\'' :: rest) =
      (arrayWords .inside rest).map (prepend (text.flatMap quoteChar ++ ['\''])) := by
  induction text with
  | nil => simp [arrayWords]
  | cons c text ih =>
    by_cases quote : c = '\''
    · subst quote
      have marks : List.flatMap quoteChar ('\'' :: text) =
          '\'' :: '\\' :: '\'' :: '\'' :: text.flatMap quoteChar := rfl
      rw [marks, List.cons_append, List.cons_append, List.cons_append, List.cons_append, arrayWords,
        if_pos rfl, arrayWords_escaped (by simp), arrayWords_quote (by simp), ih]
      simp only [Option.map_map, prepend_prepend]
      rfl
    · have plain : List.flatMap quoteChar (c :: text) = c :: text.flatMap quoteChar := by
        simp [quoteChar, quote]
      rw [plain, List.cons_append, List.cons_append, arrayWords, if_neg quote, ih, Option.map_map,
        prepend_prepend]
      rfl

/-- A quoted text with a blank after it is one word. -/
theorem arrayWords_word (text rest : Text) {c : Char} (blank : isWordEnd c = true) :
    arrayWords .between (quote text ++ c :: rest) =
      (arrayWords .between (c :: rest)).map (Prod.map (quote text :: ·) id) := by
  have opened : quote text ++ c :: rest = '\'' :: (text.flatMap quoteChar ++ '\'' :: (c :: rest)) := by
    simp [quote]
  rw [opened, arrayWords_quote (by simp), arrayWords_quoted, arrayWords_blank (by simp) blank,
    arrayWords_blank (by simp) blank]
  simp only [Option.map_map]
  refine congrArg (Option.map · _) (funext fun words => ?_)
  simp [prepend, quote, Lexing.begun, Prod.map]

/-- Quoted texts in a row are the words of an array, up to its parenthesis. -/
theorem arrayWords_chain (texts : List Text) (rest : Text) :
    arrayWords .between (chain indent (texts.map quote) ++ ("\n  )" ++ rest)) =
      some (texts.map quote, rest) := by
  have closed : arrayWords .between ("\n  )" ++ rest) = some ([], rest) := by
    have blanks : "\n  )" ++ rest = "\n  ".toList ++ ')' :: rest := rfl
    rw [blanks, arrayWords_blanks rfl, arrayWords_cons (by simp) (by decide), if_pos rfl]
    rfl
  induction texts with
  | nil => exact closed
  | cons text texts ih =>
    obtain ⟨c, more, parts, blank⟩ : Parts (chain indent (texts.map quote) ++ ("\n  )" ++ rest)) :=
      chain_parts indent_parts ⟨'\n', _, rfl, rfl⟩ _ rest
    rw [List.map_cons, chain_cons, List.append_assoc, List.append_assoc,
      arrayWords_blanks rfl, parts, arrayWords_word _ _ blank, ← parts, ih]
    rfl

/-- What a word of a menu says: the name before its first colon without a backslash, and the
description after it. -/
def readEntry (word : Text) : Option (Text × Text) := do
  let text ← unquote word
  let (name, description) ← cutUnescaped ':' text
  pure (unescape name, unescape description)

theorem readEntry_menuEntry (command : Command) : readEntry (menuEntry command) = some command.menu := by
  have passed : Passed ':' (escapeDescription command.name) := Passed.escapeWhere rfl rfl command.name
  have cut := passed.cut (by decide) (escapeDescription command.description)
  simp [readEntry, menuEntry, unquote_quote, cut, unescape_escapeDescription, Command.menu]

/-- In a script the array of a function has one word for each of some commands, in their order, and
every word says the name and the description of its command. -/
def Offers (script function array : Text) (commands : List Command) : Prop :=
  ∃ (words : List Text) (after : Text),
    function ++ ("() \x7b\n".toList ++
        (Dispatcher.menuHead array ++ (chain indent words ++ ("\n  )".toList ++ after)))) <:+ script ∧
    arrayWords .between (chain indent words ++ ("\n  )" ++ after)) = some (words, after) ∧
    words.map readEntry = commands.map fun command => some command.menu

theorem Dispatcher.text_begins (dispatcher : Dispatcher) :
    ∃ after, textOf dispatcher.lines =
      menuHead dispatcher.array ++ (chain indent dispatcher.entries ++ ("\n  )" ++ after)) := by
  have split : menuEnd = "\n  )".toList ++ "\n\n  _arguments -C".toList := rfl
  rw [text_eq, split]
  simp only [List.append_assoc]
  exact ⟨_, rfl⟩

namespace Target

variable {target : Target} {path : List Text} {commands : List Command}

/-- Wherever the function of a dispatcher stands in a script, it offers its commands. -/
theorem offers_dispatcher {function array state label script : Text} {flags : List Flag}
    (stands : textOf (Routine.lines ⟨function, .dispatcher
      (target.dispatcher path array state label flags commands)⟩) <:+: script) :
    Offers script function array commands := by
  obtain ⟨before, later, rfl⟩ := stands
  obtain ⟨after, text⟩ := (target.dispatcher path array state label flags commands).text_begins
  have entries : commands.map menuEntry = (commands.map fun command =>
      escapeDescription command.name ++ ":" ++ escapeDescription command.description).map quote := by
    rw [List.map_map]
    rfl
  refine ⟨commands.map menuEntry, after ++ ("\x7d\n" ++ later), ⟨before, ?_⟩, ?_, ?_⟩
  · rw [Routine.text_eq, Body.lines, text]
    simp only [List.append_assoc]
    rfl
  · rw [entries]
    exact arrayWords_chain _ _
  · rw [List.map_map]
    exact List.map_congr_left fun command _ => readEntry_menuEntry command

theorem root_stands (target : Target) (commands : List Command) :
    textOf (target.rootRoutine commands).lines <:+: target.generate commands := by
  rw [generate_eq]
  exact (List.prefix_append _ _).isInfix.trans (List.suffix_append _ _).isInfix

theorem routine_stands {node : Command} (leads : Command.Leads commands path node) :
    textOf (target.routine path node).lines <:+: target.generate commands := by
  obtain ⟨earlier, later, nodes⟩ := List.append_of_mem (Command.mem_nodesBelow_iff.mpr leads)
  have whole := target.generate_eq commands
  rw [nodes, nodesText_append, nodesText_cons] at whole
  rw [whole]
  refine ⟨textOf (target.compile []).preamble ++ textOf (target.rootRoutine commands).lines ++
    target.nodesText earlier ++ ['\n'], target.nodesText later ++ textOf target.closingLines, ?_⟩
  simp only [List.append_assoc, List.cons_append, List.nil_append]

/-- Every menu of a script can be read back, whatever its names and descriptions are: that of the
root offers the commands at the top, and that of a node which dispatches its subcommands. -/
theorem menus_read_back (target : Target) (commands : List Command) :
    Offers (target.generate commands) (target.routineName []) "commands" commands ∧
      ∀ path node, Command.Leads commands path node → node.isDispatch = true →
        Offers (target.generate commands) (target.routineName path) "subcommands" node.subcommands := by
  refine ⟨offers_dispatcher (target.root_stands commands), fun path node leads dispatch => ?_⟩
  have body : target.routine path node = ⟨target.routineName path, .dispatcher
      (target.dispatcher path "subcommands" "subcommand" "subcommand" node.flags node.subcommands)⟩ := by
    rw [routine, if_pos dispatch]
  have stands : textOf (target.routine path node).lines <:+: target.generate commands :=
    routine_stands leads
  rw [body] at stands
  exact offers_dispatcher stands

end Target

/-- Commands whose names and descriptions have the marks of both layers and line ends. -/
def unruly : List Command :=
  [⟨"a:\\", "it's [b]: c\\\n  )", [], [⟨"'", ":'\\", [], [], false, none⟩, ⟨[], [], [], [], false, none⟩],
    false, none⟩]

theorem menus_read_back_unruly :
    let script := Target.default.generate unruly
    Offers script "_spectest" "commands" unruly ∧
      ∃ node, node ∈ unruly ∧ node.subcommands.map Command.menu = [("'".toList, ":'\\".toList), ([], [])] ∧
        Offers script "_spectest_a__" "subcommands" node.subcommands := by
  intro script
  obtain ⟨root, nodes⟩ := Target.default.menus_read_back unruly
  have leads : Command.Leads unruly ["a:\\".toList] _ := .here List.mem_cons_self
  exact ⟨root, _, List.mem_cons_self, rfl, nodes _ _ leads rfl⟩

end TabCompletion.Zsh
