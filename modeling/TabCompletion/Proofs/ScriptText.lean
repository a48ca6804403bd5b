import TabCompletion.Proofs.WordEnd
import TabCompletion.Zsh.Compile

namespace TabCompletion.Zsh

/-- Lines as a text, each with its end. -/
def textOf (lines : List Text) : Text :=
  lines.flatMap fun line => line ++ ['\n']

@[simp]
theorem textOf_nil : textOf [] = [] := rfl

@[simp]
theorem textOf_cons (line : Text) (lines : List Text) :
    textOf (line :: lines) = line ++ '\n' :: textOf lines := by
  simp [textOf]

@[simp]
theorem textOf_append (first second : List Text) :
    textOf (first ++ second) = textOf first ++ textOf second :=
  List.flatMap_append

/-- Words in a row, each after the same separator. -/
def chain (separator : Text) (words : List Text) : Text :=
  words.flatMap (separator ++ ·)

theorem chain_cons (separator word : Text) (words : List Text) :
    chain separator (word :: words) = separator ++ (word ++ chain separator words) := by
  simp [chain]

theorem chain_append (separator : Text) (first second : List Text) :
    chain separator (first ++ second) = chain separator first ++ chain separator second :=
  List.flatMap_append

/-- Texts of which neither begins with the other differ whatever comes after them. -/
theorem append_ne {first second : Text} (apart : ¬ first <+: second ∧ ¬ second <+: first)
    (rest other : Text) : first ++ rest ≠ second ++ other := fun same => by
  have begins : first <+: second ++ other := ⟨rest, same⟩
  rcases List.prefix_or_prefix_of_prefix begins (List.prefix_append second other) with inside | inside
  · exact apart.1 inside
  · exact apart.2 inside

/-- A word that begins with a quote and goes on to its end. -/
structure IsWord (word : Text) : Prop where
  unbroken : Unbroken word
  opens : ∃ rest, word = '\'' :: rest

theorem IsWord.quote (text : Text) : IsWord (quote text) :=
  ⟨Unbroken.quote text, _, rfl⟩

theorem chain_parts {separator stop : Text} (parts : Parts separator) (partsStop : Parts stop)
    (words : List Text) (rest : Text) : Parts (chain separator words ++ (stop ++ rest)) := by
  cases words with
  | nil => exact partsStop.append rest
  | cons word words =>
    rw [chain_cons, List.append_assoc]
    exact parts.append _

/-- Words in a row are read from a text one by one, up to what no word can stand at. -/
theorem chain_unique {separator stop : Text} (parts : Parts separator) (partsStop : Parts stop)
    (apart : ∀ rest other, separator ++ '\'' :: rest ≠ stop ++ other) {words others : List Text}
    {rest otherRest : Text} (every : ∀ word ∈ words, IsWord word)
    (everyOther : ∀ word ∈ others, IsWord word)
    (same : chain separator words ++ (stop ++ rest) = chain separator others ++ (stop ++ otherRest)) :
    words = others ∧ rest = otherRest := by
  -- After a separator comes a quote, so that another word is not taken for the end of the row.
  have never {word : Text} (isWord : IsWord word) (more after : Text) :
      separator ++ (word ++ more) ≠ stop ++ after := by
    obtain ⟨inside, rfl⟩ := isWord.opens
    exact apart (inside ++ more) after
  induction words generalizing others with
  | nil =>
    cases others with
    | nil => exact ⟨rfl, List.append_cancel_left same⟩
    | cons other others =>
      rw [chain_cons, List.append_assoc, List.append_assoc] at same
      exact absurd same.symm (never (everyOther other List.mem_cons_self) _ _)
  | cons word words ih =>
    cases others with
    | nil =>
      rw [chain_cons, List.append_assoc, List.append_assoc] at same
      exact absurd same (never (every word List.mem_cons_self) _ _)
    | cons other others =>
      rw [chain_cons, chain_cons, List.append_assoc, List.append_assoc, List.append_assoc,
        List.append_assoc] at same
      obtain ⟨rfl, later⟩ := (every word List.mem_cons_self).unbroken.unique
        (everyOther other List.mem_cons_self).unbroken (chain_parts parts partsStop words rest)
        (chain_parts parts partsStop others otherRest) (List.append_cancel_left same)
      obtain ⟨rfl, rests⟩ := ih (fun word member => every word (List.mem_cons_of_mem _ member))
        (fun word member => everyOther word (List.mem_cons_of_mem _ member)) later
      exact ⟨rfl, rests⟩

/-- What stands before each word of a shell command that has a line for each of them. -/
def continuation : Text := " \\\n    "

theorem continuation_parts : Parts continuation := ⟨' ', _, rfl, rfl⟩

theorem textOf_continued (word : Text) (words : List Text) :
    textOf (continued (word :: words)) = "    " ++ word ++ chain continuation words ++ ['\n'] := by
  induction words generalizing word with
  | nil => simp only [continued, textOf_cons, textOf_nil, chain, List.flatMap_nil, List.append_nil]
  | cons next words ih =>
    have step : continued (word :: next :: words) =
        ("    " ++ word ++ " \\") :: continued (next :: words) := rfl
    have between : continuation = " \\".toList ++ '\n' :: "    ".toList := rfl
    rw [step, textOf_cons, ih, chain_cons, between]
    simp only [List.append_assoc, List.cons_append]

theorem textOf_arguments (head : Text) {words : List Text} (filled : words ≠ []) :
    textOf ((head ++ " \\") :: continued words) = head ++ (chain continuation words ++ ['\n']) := by
  obtain ⟨word, words, rfl⟩ := List.exists_cons_of_ne_nil filled
  have between : continuation = " \\".toList ++ '\n' :: "    ".toList := rfl
  rw [textOf_cons, textOf_continued, chain_cons, between]
  simp only [List.append_assoc, List.cons_append]

/-- What stands before each entry of a menu. -/
def indent : Text := "\n    "

theorem indent_parts : Parts indent := ⟨'\n', _, rfl, rfl⟩

theorem textOf_entries (entries : List Text) :
    '\n' :: textOf (entries.map fun entry => "    ".toList ++ entry) =
      chain indent entries ++ ['\n'] := by
  induction entries with
  | nil => rfl
  | cons entry entries ih =>
    have before : indent = '\n' :: "    ".toList := rfl
    rw [List.map_cons, textOf_cons, ih, chain_cons, before]
    simp only [List.append_assoc, List.cons_append]

namespace Dispatcher

/-- The text of a dispatcher before the entries of its menu. -/
def menuHead (array : Text) : Text :=
  textOf ["  local context state line", "  typeset -A opt_args", "", "  local -a " ++ array] ++
    ("  " ++ array ++ "=(")

/-- The text between the entries of a menu and the options. -/
def menuEnd : Text := "\n  )\n\n  _arguments -C"

theorem text_eq (dispatcher : Dispatcher) :
    textOf dispatcher.lines =
      menuHead dispatcher.array ++ (chain indent dispatcher.entries ++ (menuEnd ++
        (chain continuation dispatcher.specs ++ (chain continuation (choiceSpecs dispatcher.state) ++
          ("\n\n" ++ textOf dispatcher.choiceLines))))) := by
  have filled : dispatcher.specs ++ choiceSpecs dispatcher.state ≠ [] :=
    List.append_ne_nil_of_right_ne_nil _ (List.cons_ne_nil _ _)
  have arguments : textOf dispatcher.argumentLines = "  _arguments -C" ++
      (chain continuation (dispatcher.specs ++ choiceSpecs dispatcher.state) ++ ['\n']) :=
    textOf_arguments "  _arguments -C" filled
  have menu : textOf dispatcher.menuLines =
      menuHead dispatcher.array ++ (chain indent dispatcher.entries ++ "\n  )\n") := by
    have closing : "\n  )\n".toList = '\n' :: textOf ["  )"] := rfl
    have opening : textOf ["  local context state line", "  typeset -A opt_args", "",
        "  local -a " ++ dispatcher.array, "  " ++ dispatcher.array ++ "=("] =
          menuHead dispatcher.array ++ ['\n'] := by
      simp only [menuHead, textOf_cons, textOf_nil, List.append_assoc, List.cons_append,
        List.nil_append]
    rw [menuLines, textOf_append, textOf_append, opening, closing, List.append_assoc,
      List.append_assoc, List.singleton_append, ← List.cons_append, textOf_entries]
    simp only [List.append_assoc, List.cons_append, List.nil_append]
  have split : menuEnd = "\n  )\n".toList ++ '\n' :: "  _arguments -C".toList := rfl
  rw [lines, textOf_append, textOf_append, textOf_cons, textOf_cons, menu, arguments, chain_append,
    split]
  simp [List.append_assoc]

/-- The entries and the options of a dispatcher are whole words. -/
structure Worded (dispatcher : Dispatcher) : Prop where
  entries : ∀ word ∈ dispatcher.entries, IsWord word
  specs : ∀ word ∈ dispatcher.specs, IsWord word

/-- The entries end where the menu is closed, and the options where the words begin that every
dispatcher ends with, so the text tells both. -/
theorem text_unique {dispatcher other : Dispatcher} {rest otherRest : Text}
    (array : dispatcher.array = other.array) (state : dispatcher.state = other.state)
    (worded : dispatcher.Worded) (wordedOther : other.Worded)
    (same : textOf dispatcher.lines ++ rest = textOf other.lines ++ otherRest) :
    dispatcher.entries = other.entries ∧ dispatcher.specs = other.specs ∧
      textOf dispatcher.choiceLines ++ rest = textOf other.choiceLines ++ otherRest := by
  have menuApart (inside after : Text) : indent ++ '\'' :: inside ≠ menuEnd ++ after := by
    rw [List.append_cons]
    exact append_ne (by decide) inside after
  have optionsApart (inside after : Text) :
      continuation ++ '\'' :: inside ≠ chain continuation (choiceSpecs other.state) ++ after := by
    rw [choiceSpecs, chain_cons, List.append_assoc, ne_eq, List.append_cancel_left_eq]
    simp only [List.append_assoc]
    exact @append_ne ['\''] "\"1: :->" (by decide) inside _
  have parts : Parts (chain continuation (choiceSpecs other.state)) := ⟨' ', _, rfl, rfl⟩
  rw [text_eq, text_eq, array, state] at same
  simp only [List.append_assoc] at same
  obtain ⟨entries, afterMenu⟩ := chain_unique indent_parts ⟨'\n', _, rfl, rfl⟩ menuApart
    worded.entries wordedOther.entries (List.append_cancel_left same)
  obtain ⟨specs, afterOptions⟩ := chain_unique continuation_parts parts optionsApart
    worded.specs wordedOther.specs afterMenu
  exact ⟨entries, specs, List.append_cancel_left afterOptions⟩

end Dispatcher

namespace Body

theorem message_text : textOf (leaf []).lines = textOf ["  _message 'no more arguments'"] := rfl

theorem leaf_text {specs : List Text} (filled : specs ≠ []) :
    textOf (leaf specs).lines = "  _arguments" ++ (chain continuation specs ++ ['\n']) := by
  have lines : (leaf specs).lines = ("  _arguments".toList ++ " \\".toList) :: continued specs := by
    cases specs with
    | nil => exact absurd rfl filled
    | cons word words => rfl
  rw [lines, textOf_arguments _ filled]

/-- The text of a function without subcommands tells its words. -/
theorem leaf_unique {specs others : List Text} {rest otherRest : Text}
    (every : ∀ word ∈ specs, IsWord word) (everyOther : ∀ word ∈ others, IsWord word)
    (same : textOf (leaf specs).lines ++ rest = textOf (leaf others).lines ++ otherRest) :
    specs = others ∧ rest = otherRest := by
  have message {words : List Text} (filled : words ≠ []) (after more : Text) :
      textOf (leaf []).lines ++ after ≠ textOf (leaf words).lines ++ more := by
    rw [message_text, leaf_text filled, List.append_assoc]
    exact append_ne (by decide) after _
  have apart (inside after : Text) : continuation ++ '\'' :: inside ≠ ['\n'] ++ after :=
    append_ne (by decide) _ after
  by_cases empty : specs = []
  · subst empty
    by_cases emptyOther : others = []
    · subst emptyOther
      exact ⟨rfl, List.append_cancel_left same⟩
    · exact absurd same (message emptyOther _ _)
  · by_cases emptyOther : others = []
    · subst emptyOther
      exact absurd same.symm (message empty _ _)
    · rw [leaf_text empty, leaf_text emptyOther] at same
      simp only [List.append_assoc] at same
      exact chain_unique continuation_parts ⟨'\n', _, rfl, rfl⟩ apart every everyOther
        (List.append_cancel_left same)

theorem dispatcher_ne_leaf (menu : Dispatcher) (specs : List Text) (rest otherRest : Text) :
    textOf (dispatcher menu).lines ++ rest ≠ textOf (leaf specs).lines ++ otherRest := by
  obtain ⟨more, opening⟩ : ∃ more, textOf (dispatcher menu).lines ++ rest = "  local" ++ more := by
    change ∃ more, textOf menu.lines ++ rest = _
    rw [menu.text_eq]
    exact ⟨_, rfl⟩
  rw [opening]
  by_cases empty : specs = []
  · subst empty
    rw [message_text]
    exact append_ne (by decide) more otherRest
  · rw [leaf_text empty, List.append_assoc]
    exact append_ne (by decide) more _

end Body

end TabCompletion.Zsh
