import TabCompletion.Proofs.FunctionName
import TabCompletion.Proofs.Lossless
import TabCompletion.Proofs.ShellLines

namespace TabCompletion.Zsh

/-- A function of a script as a shell has it once the script is read: its name, the words of the
array that it offers, those it declares its arguments with, and what each case goes on with. -/
structure ShellFunction where
  name : Text
  entries : List Text
  arguments : List Text
  branches : List (Text × Text)
deriving DecidableEq, Repr

/-- Whether a line begins or ends a function. -/
def isBorder : List Text → Bool
  | [word] => word = "\x7d"
  | [_, first, second, third] => first = "(" && second = ")" && third = "\x7b"
  | _ => false

theorem isBorder_word {word : Text} {c : Char} (first : word.head? = some c) (other : c ≠ '\x7d') :
    isBorder [word] = false := by
  have apart : word ≠ "\x7d" := by
    rintro rfl
    exact other (Option.some.inj first).symm
  simpa [isBorder] using apart

theorem isBorder_words (name : Text) {second : Text} (apart : second ≠ "(") (rest : List Text) :
    isBorder (name :: second :: rest) = false := by
  have closed : decide (second = "(".toList) = false := decide_eq_false apart
  match rest with
  | [] => rfl
  | [_] => rfl
  | [_, _] => rw [isBorder, closed, Bool.false_and, Bool.false_and]
  | _ :: _ :: _ :: _ => rfl

/-- The lines up to the border of a function, and the functions that are defined from there on, each
with the lines between its name and its end. -/
def readBodies : List (List Text) → List (List Text) × List (Text × List (List Text))
  | [] => ([], [])
  | line :: rest =>
    let (body, functions) := readBodies rest
    if isBorder line then
      match line with
      | name :: _ :: _ => ([], (name, body) :: functions)
      | _ => ([], functions)
    else (line :: body, functions)

/-- The word that ends the cases of a function. It is the pattern of none. -/
def caseEnd : Text := "esac"

/-- Cases up to the word that ends them. -/
def readCases : List (List Text) → Option (List (Text × Text))
  | [word] :: _ => if word = caseEnd then some [] else none
  | [pattern, bracket] :: [function] :: stop :: rest =>
    if bracket = ")" ∧ stop = [";".toList, ";".toList] ∧ pattern ≠ caseEnd then
      (readCases rest).map ((pattern, function) :: ·)
    else none
  | _ => none

def opensArray : List Text → Bool
  | [name, bracket] => name.getLast? = some '=' && bracket = "("
  | _ => false

def declaresArguments (line : List Text) : Bool :=
  line.head? = some "_arguments".toList

/-- The cases that the first word decides between. -/
def opensCases (line : List Text) : Bool :=
  line = ["case".toList, "$words[1]".toList, "in".toList]

namespace ShellFunction

def readEntries (body : List (List Text)) : List Text :=
  (((body.dropWhile fun line => !opensArray line).drop 1).takeWhile fun line => line ≠ [")".toList]).flatten

def readArguments (body : List (List Text)) : List Text :=
  ((body.find? declaresArguments).getD []).drop 1

/-- A function without cases has no branches. -/
def readBranches (body : List (List Text)) : Option (List (Text × Text)) :=
  match body.dropWhile fun line => !opensCases line with
  | [] => some []
  | _ :: cases => readCases cases

def read (name : Text) (body : List (List Text)) : Option ShellFunction :=
  (readBranches body).map fun branches => ⟨name, readEntries body, readArguments body, branches⟩

end ShellFunction

/-- The functions that a script defines. There are none when the script cannot be read. -/
def shellFunctions (text : Text) : Option (List ShellFunction) :=
  (shellLines text).bind fun lines =>
    (readBodies lines).2.mapM fun function => ShellFunction.read function.1 function.2

/-- A function as the lines of a script. -/
def functionLines (name : Text) (body : List (List Text)) : List (List Text) :=
  [name, "(", ")", "\x7b"] :: (body ++ [["\x7d".toList]])

theorem readBodies_inner {body : List (List Text)} (inner : ∀ line ∈ body, isBorder line = false)
    (rest : List (List Text)) :
    readBodies (body ++ rest) = (body ++ (readBodies rest).1, (readBodies rest).2) := by
  induction body with
  | nil => rfl
  | cons line body ih =>
    have within := inner line List.mem_cons_self
    rw [List.cons_append, readBodies, ih fun other member => inner other (List.mem_cons_of_mem line member)]
    simp [within]

theorem readBodies_function {body : List (List Text)} (inner : ∀ line ∈ body, isBorder line = false)
    (name : Text) (rest : List (List Text)) :
    readBodies (functionLines name body ++ rest) = ([], (name, body) :: (readBodies rest).2) := by
  have closed : readBodies (["\x7d".toList] :: rest) = ([], (readBodies rest).2) := rfl
  have split : functionLines name body ++ rest =
      [name, "(", ")", "\x7b"] :: (body ++ (["\x7d".toList] :: rest)) := by simp [functionLines]
  rw [split, readBodies, readBodies_inner inner, closed, List.append_nil]
  rfl

/-- Functions in a row are read one by one. -/
theorem readBodies_functions {α : Type} {items : List α} {name : α → Text}
    {body : α → List (List Text)} (inner : ∀ item ∈ items, ∀ line ∈ body item, isBorder line = false)
    (rest : List (List Text)) :
    (readBodies (items.flatMap (fun item => functionLines (name item) (body item)) ++ rest)).2 =
      items.map (fun item => (name item, body item)) ++ (readBodies rest).2 := by
  induction items with
  | nil => rfl
  | cons item items ih =>
    rw [List.flatMap_cons, List.append_assoc, readBodies_function (inner item List.mem_cons_self),
      ih fun other member => inner other (List.mem_cons_of_mem item member)]
    rfl

/-- The lines of a case. -/
def Choice.shellLines (choice : Choice) : List (List Text) :=
  [[choice.word, ")"], [choice.routine], [";", ";"]]

theorem readCases_choices (choices : List Choice) (rest : List (List Text)) :
    readCases (choices.flatMap Choice.shellLines ++ [caseEnd] :: rest) =
      if ∀ choice ∈ choices, choice.word ≠ caseEnd then
        some (choices.map fun choice => (choice.word, choice.routine))
      else none := by
  induction choices with
  | nil => rfl
  | cons choice choices ih =>
    have split : (choice :: choices).flatMap Choice.shellLines ++ [caseEnd] :: rest =
        [choice.word, ")".toList] :: [choice.routine] :: [";".toList, ";".toList] ::
          (choices.flatMap Choice.shellLines ++ [caseEnd] :: rest) := rfl
    rw [split, readCases, ih]
    by_cases ends : choice.word = caseEnd
    · simp [ends]
    · by_cases later : ∀ other ∈ choices, other.word ≠ caseEnd <;> simp [ends, later]

namespace Dispatcher

/-- The lines of a dispatcher up to the brackets of its menu. -/
def openingRead (menu : Dispatcher) : List (List Text) :=
  [["local", "context", "state", "line"], ["typeset", "-A", "opt_args"], ["local", "-a", menu.array],
    [menu.array ++ "=", "("]]

def argumentsRead (menu : Dispatcher) : List Text :=
  "_arguments".toList :: "-C".toList :: (menu.specs ++ choiceSpecs menu.state)

/-- What the state decides on that the arguments leave. -/
def stateRead (menu : Dispatcher) : List (List Text) :=
  [["case", "$state", "in"], [menu.state, ")"], ["_describe", "\"" ++ menu.label ++ "\"", menu.array],
    [";", ";"], ["args", ")"]]

def casesRead (menu : Dispatcher) : List (List Text) :=
  let closing : List (List Text) := [[caseEnd], [";", ";"], [caseEnd]]
  ["case".toList, "$words[1]".toList, "in".toList] ::
    (menu.choices.flatMap Choice.shellLines ++ closing)

/-- The lines of a dispatcher as a shell reads them. -/
def shellLines (menu : Dispatcher) : List (List Text) :=
  menu.openingRead ++ (menu.entries.map (fun entry => [entry]) ++
    ([")".toList] :: menu.argumentsRead :: (menu.stateRead ++ menu.casesRead)))

/-- A dispatcher of which every part is one word. -/
structure Spelled (menu : Dispatcher) : Prop where
  array : Inside menu.array
  state : Inside menu.state
  label : Inside ("\"" ++ menu.label ++ "\"")
  entries : ∀ entry ∈ menu.entries, Inside entry
  specs : ∀ spec ∈ menu.specs ++ choiceSpecs menu.state, Inside spec
  choices : ∀ choice ∈ menu.choices, Inside choice.word ∧ Inside choice.routine

variable {menu : Dispatcher}

namespace Spelled

theorem menuLines (spelled : menu.Spelled) :
    Reads (textOf menu.menuLines)
      (menu.openingRead ++ (menu.entries.map (fun entry => [entry]) ++ [[")".toList]])) := by
  have head : Reads (textOf ["  local context state line", "  typeset -A opt_args", ""])
      [["local", "context", "state", "line"], ["typeset", "-A", "opt_args"]] :=
    .of_shellLines (by decide)
  have declared : Spaced "  local -a " ["local", "-a"] := .plain 2 (by decide) (by decide)
  have indent : Spaced "  " [] := .plain 2 (by decide) rfl
  have deeper : Spaced "    " [] := .plain 4 (by decide) rfl
  have assigned : Inside (menu.array ++ "=") :=
    spelled.array.append (.of_inner (List.cons_ne_nil _ _) rfl)
  have opening : Reads (textOf ["  local -a " ++ menu.array, "  " ++ (menu.array ++ "=" ++ ['('])])
      [["local", "-a", menu.array], [menu.array ++ "=", "("]] :=
    .cons (declared.line spelled.array)
      (.cons ((indent.append (.of_operator assigned rfl)).newline (List.cons_ne_nil _ _)) .nil)
  have entries : Reads (textOf (menu.entries.map fun entry => "    ".toList ++ entry))
      (menu.entries.map fun entry => [entry]) :=
    .map fun entry member => deeper.line (spelled.entries entry member)
  have closing : Reads (textOf ["  )"]) [[")"]] := .of_shellLines (by decide)
  have whole := (head.append opening).append (entries.append closing)
  simp only [← textOf_append] at whole
  have same : menu.menuLines = (["  local context state line".toList, "  typeset -A opt_args".toList, []] ++
      ["  local -a " ++ menu.array, "  " ++ (menu.array ++ "=" ++ ['('])]) ++
      (menu.entries.map (fun entry => "    ".toList ++ entry) ++ ["  )".toList]) := by
    simp [Dispatcher.menuLines]
  rw [same]
  exact whole

theorem argumentLines (spelled : menu.Spelled) :
    Reads (textOf menu.argumentLines) [menu.argumentsRead] := by
  have filled : menu.specs ++ choiceSpecs menu.state ≠ [] :=
    List.append_ne_nil_of_right_ne_nil _ (List.cons_ne_nil _ _)
  have split : "  _arguments -C".toList = "  _arguments ".toList ++ "-C".toList := by decide
  have text : textOf menu.argumentLines = "  _arguments -C".toList ++
      (chain continuation (menu.specs ++ choiceSpecs menu.state) ++ ['\n']) :=
    textOf_arguments "  _arguments -C" filled
  have before : Spaced "  _arguments " ["_arguments"] := .plain 2 (by decide) (by decide)
  have first : Inside "-C" := .of_inner (List.cons_ne_nil _ _) rfl
  rw [text, split]
  exact before.row first spelled.specs

/-- What a case goes on with is on a line of its own. -/
theorem choice_lines {choice : Choice} (word : Inside choice.word) (routine : Inside choice.routine) :
    Reads (textOf choice.lines) choice.shellLines := by
  have before : Spaced "        " [] := .plain 8 (by decide) rfl
  have deeper : Spaced "          " [] := .plain 10 (by decide) rfl
  have stop : Reads (textOf ["          ;;"]) [[";", ";"]] := .of_shellLines (by decide)
  have lines : choice.lines = ["        " ++ (choice.word ++ [')']), "          " ++ choice.routine,
      "          ;;"] := by simp [Choice.lines]
  rw [lines]
  exact .cons ((before.append (.of_operator word rfl)).newline (List.cons_ne_nil _ _))
    (.cons (deeper.line routine) stop)

theorem choiceLines (spelled : menu.Spelled) :
    Reads (textOf menu.choiceLines) (menu.stateRead ++ menu.casesRead) := by
  have before : Spaced "    " [] := .plain 4 (by decide) rfl
  have describe : Spaced "      _describe " ["_describe"] := .plain 6 (by decide) (by decide)
  have first : Reads (textOf ["  case $state in"]) [["case", "$state", "in"]] :=
    .of_shellLines (by decide)
  have named : Reads (textOf ["    " ++ (menu.state ++ [')']),
      "      _describe " ++ ("\"" ++ menu.label ++ "\"" ++ [' ']) ++ menu.array])
      [[menu.state, ")"], ["_describe", "\"" ++ menu.label ++ "\"", menu.array]] :=
    .cons ((before.append (.of_operator spelled.state rfl)).newline (List.cons_ne_nil _ _))
      (.cons ((describe.append (.of_word spelled.label)).line spelled.array) .nil)
  have last : Reads (textOf ["      ;;", "    args)", "      case $words[1] in"])
      [[";", ";"], ["args", ")"], ["case", "$words[1]", "in"]] := .of_shellLines (by decide)
  have choices : Reads (textOf (menu.choices.flatMap Choice.lines))
      (menu.choices.flatMap Choice.shellLines) := .flatMap fun choice member =>
    choice_lines (spelled.choices choice member).1 (spelled.choices choice member).2
  have closing : Reads (textOf ["      esac", "      ;;", "  esac"]) [[caseEnd], [";", ";"], [caseEnd]] :=
    .of_shellLines (by decide)
  have whole := first.append (named.append (last.append (choices.append closing)))
  simp only [← textOf_append] at whole
  have same : menu.choiceLines = ["  case $state in".toList] ++ (["    " ++ (menu.state ++ [')']),
      "      _describe " ++ ("\"" ++ menu.label ++ "\"" ++ [' ']) ++ menu.array] ++
      (["      ;;".toList, "    args)".toList, "      case $words[1] in".toList] ++
      (menu.choices.flatMap Choice.lines ++ ["      esac".toList, "      ;;".toList, "  esac".toList]))) := by
    simp [Dispatcher.choiceLines]
  rw [same]
  exact whole

theorem lines (spelled : menu.Spelled) : Reads (textOf menu.lines) menu.shellLines := by
  have blank : Reads (textOf [[]]) [] := fun _ => rfl
  have whole := spelled.menuLines.append (blank.append (spelled.argumentLines.append
    (blank.append spelled.choiceLines)))
  simp only [← textOf_append] at whole
  have same : menu.lines = menu.menuLines ++ ([[]] ++ (menu.argumentLines ++ ([[]] ++ menu.choiceLines))) := by
    simp [Dispatcher.lines]
  have read : menu.shellLines = menu.openingRead ++ (menu.entries.map (fun entry => [entry]) ++
      [[")".toList]]) ++ ([] ++ ([menu.argumentsRead] ++ ([] ++ (menu.stateRead ++ menu.casesRead)))) := by
    simp [shellLines]
  rw [same, read]
  exact whole

end Spelled

end Dispatcher

/-- The lines of a body as a shell reads them. -/
def Body.shellLines : Body → List (List Text)
  | dispatcher menu => menu.shellLines
  | leaf [] => [["_message", "'no more arguments'"]]
  | leaf specs => ["_arguments".toList :: specs]

theorem Body.leaf_lines {specs : List Text} (inside : ∀ spec ∈ specs, Inside spec) :
    Reads (textOf (leaf specs).lines) (leaf specs).shellLines := by
  cases specs with
  | nil => exact .of_shellLines (by decide)
  | cons spec specs =>
    have filled : spec :: specs ≠ [] := List.cons_ne_nil spec specs
    have split : "  _arguments".toList = "  ".toList ++ "_arguments".toList := by decide
    have before : Spaced "  " [] := .plain 2 (by decide) rfl
    have first : Inside "_arguments" := .of_inner (List.cons_ne_nil _ _) rfl
    rw [leaf_text filled, split]
    exact before.row first inside

/-- A body between the name of a function and its end. -/
theorem Reads.function {name : Text} {lines : List Text} {body : List (List Text)}
    (named : Inside name) (reads : Reads (textOf lines) body) :
    Reads (textOf ((name ++ "() \x7b") :: lines ++ ["\x7d".toList])) (functionLines name body) := by
  have after : Spaced ") " [")"] := fun _ _ => rfl
  have opens : Inside "\x7b" := .of_inner (List.cons_ne_nil _ _) rfl
  have closes : Reads (textOf ["\x7d"]) [["\x7d"]] := fun _ => rfl
  have split : name ++ "() \x7b" = (name ++ ['(']) ++ ") ".toList ++ "\x7b".toList := by simp
  rw [split, List.cons_append]
  refine .cons (((Spaced.of_operator named rfl).append after).line opens) ?_
  rw [textOf_append]
  exact reads.append closes

namespace Helper

/-- The lines of the loop over one category. -/
def loopRead (cli : Text) (list : Lookup) (category : Text) : List (List Text) :=
  [["while", "IFS=$'\\t'", "read", "-r", "id", "desc", ";", "do"],
    ["[[", "-n", "$id", "&", "&", "-n", "$desc", "]]", "|", "|", "continue"],
    [list.plural ++ "+=", "(", "\"$\x7bid//:/\\\\:\x7d:$desc\"", ")"],
    ["done", "<", "<", "(", cli, "__complete", "--type", category, "2", ">", "/dev/null", ")"]]

/-- The lines of a helper as a shell reads them. -/
def shellLines (cli : Text) (list : Lookup) : List (List Text) :=
  let opening : List (List Text) := [["local", "-a", list.plural], ["local", "id", "desc"]]
  let closing : List (List Text) := [["_describe", "\"" ++ list.singular ++ "\"", list.plural]]
  opening ++ list.categories.flatMap (loopRead cli list) ++ closing

variable {cli : Text}

theorem loop_lines (named : Inside cli) (list : Lookup) {category : Text} (among : category ∈ list.categories) :
    Reads (textOf (loopLines cli list category)) (loopRead cli list category) := by
  have taken : Reads (textOf ["  while IFS=$'\\t' read -r id desc; do",
      "    [[ -n $id && -n $desc ]] || continue",
      "    " ++ list.plural ++ "+=(\"$\x7bid//:/\\\\:\x7d:$desc\")"])
      [["while", "IFS=$'\\t'", "read", "-r", "id", "desc", ";", "do"],
        ["[[", "-n", "$id", "&", "&", "-n", "$desc", "]]", "|", "|", "continue"],
        [list.plural ++ "+=", "(", "\"$\x7bid//:/\\\\:\x7d:$desc\"", ")"]] := by
    cases list <;> exact .of_shellLines (by decide +kernel)
  have asked : Inside category := by
    have bare : (list.categories.all fun category => category.all isInner && !category.isEmpty) = true := by
      cases list <;> rfl
    obtain ⟨inner, filled⟩ := Bool.and_eq_true_iff.mp (List.all_eq_true.mp bare category among)
    exact .of_inner (by simpa using filled) inner
  have before : Spaced "  done " ["done"] := .plain 2 (by decide) (by decide)
  have source : Spaced "< <(" ["<", "<", "("] := fun _ _ => rfl
  have option : Spaced "__complete --type " ["__complete", "--type"] :=
    .plain 0 (by decide) (by decide)
  have silent : Spaced "2>/dev/null)" ["2", ">", "/dev/null", ")"] := fun _ _ => rfl
  have asks := ((((before.append source).append (.of_word named)).append option).append
    (.of_word asked)).append silent
  have split : loopLines cli list category = ["  while IFS=$'\\t' read -r id desc; do".toList,
      "    [[ -n $id && -n $desc ]] || continue".toList,
      "    " ++ list.plural ++ "+=(\"$\x7bid//:/\\\\:\x7d:$desc\")"] ++
      ["  done ".toList ++ "< <(".toList ++ (cli ++ [' ']) ++ "__complete --type ".toList ++
        (category ++ [' ']) ++ "2>/dev/null)".toList] := by
    simp [loopLines]
  rw [split, textOf_append]
  exact taken.append (.cons (asks.newline (List.cons_ne_nil _ _)) .nil)

theorem lines_reads (named : Inside cli) {name : Text} (called : Inside name) (list : Lookup) :
    Reads (textOf (Helper.lines cli ⟨name, list⟩)) (functionLines name (shellLines cli list)) := by
  have opening : Reads (textOf ["  local -a " ++ list.plural, "  local id desc"])
      [["local", "-a", list.plural], ["local", "id", "desc"]] := by
    cases list <;> exact .of_shellLines (by decide)
  have loops : Reads (textOf (list.categories.flatMap (loopLines cli list)))
      (list.categories.flatMap (loopRead cli list)) :=
    .flatMap fun category among => loop_lines named list among
  have closing : Reads (textOf ["  _describe \"" ++ list.singular ++ "\" " ++ list.plural])
      [["_describe", "\"" ++ list.singular ++ "\"", list.plural]] := by
    cases list <;> exact .of_shellLines (by decide)
  have body := (opening.append loops).append closing
  simp only [← textOf_append] at body
  have whole := body.function called
  have split : Helper.lines cli ⟨name, list⟩ = (name ++ "() \x7b") :: (["  local -a " ++ list.plural,
      "  local id desc".toList] ++ list.categories.flatMap (loopLines cli list) ++
      ["  _describe \"" ++ list.singular ++ "\" " ++ list.plural]) ++ ["\x7d".toList] := by
    simp [Helper.lines]
  rw [split]
  exact whole

end Helper

namespace Dispatcher

variable {menu : Dispatcher}

/-- No entry is taken for a mark of the menu or for a command. -/
def Quoted (menu : Dispatcher) : Prop :=
  ∀ entry ∈ menu.entries, entry.head? = some '\''

theorem Quoted.isBorder (quoted : menu.Quoted)
    (named : ∀ choice ∈ menu.choices, choice.routine.head? = some '_') :
    ∀ line ∈ menu.shellLines, isBorder line = false := by
  intro line member
  simp only [shellLines, openingRead, stateRead, casesRead, List.mem_append, List.mem_cons,
    List.mem_map, List.mem_flatMap, List.not_mem_nil, or_false] at member
  rcases member with (rfl | rfl | rfl | rfl) | ⟨entry, among, rfl⟩ | rfl | rfl |
    (rfl | rfl | rfl | rfl | rfl) | rfl | ⟨choice, among, inside⟩ | rfl | rfl | rfl
  case inr.inl => exact isBorder_word (quoted entry among) (by decide)
  case inr.inr.inr.inl => exact isBorder_words _ (by decide) _
  case inr.inr.inr.inr.inr.inr.inl =>
    simp only [Choice.shellLines, List.mem_cons, List.not_mem_nil, or_false] at inside
    rcases inside with rfl | rfl | rfl
    · rfl
    · exact isBorder_word (named choice among) (by decide)
    · rfl
  all_goals rfl

theorem Quoted.readEntries (quoted : menu.Quoted) :
    ShellFunction.readEntries menu.shellLines = menu.entries := by
  have inside : ∀ line ∈ menu.entries.map fun entry => [entry], decide (line ≠ [")".toList]) = true := by
    intro line member
    obtain ⟨entry, among, rfl⟩ := List.mem_map.mp member
    have first := quoted entry among
    simp only [ne_eq, List.cons.injEq, and_true, decide_eq_true_eq]
    rintro rfl
    cases first
  have dropped : menu.shellLines.dropWhile (fun line => !opensArray line) =
      [menu.array ++ "=", "(".toList] :: (menu.entries.map (fun entry => [entry]) ++
        ([")".toList] :: menu.argumentsRead :: (menu.stateRead ++ menu.casesRead))) := by
    simp only [shellLines, openingRead, List.cons_append, List.nil_append, List.dropWhile_cons, opensArray]
    simp
  rw [ShellFunction.readEntries, dropped, List.drop_one, List.tail_cons, List.takeWhile_append_of_pos inside,
    List.takeWhile_cons_of_neg (by simp), List.append_nil, ← List.flatMap_def]
  exact List.flatMap_singleton' menu.entries

theorem Quoted.readArguments (quoted : menu.Quoted) : ShellFunction.readArguments menu.shellLines =
    "-C".toList :: (menu.specs ++ choiceSpecs menu.state) := by
  have before : ∀ line ∈ menu.openingRead ++ (menu.entries.map (fun entry => [entry]) ++ [[")".toList]]),
      ¬ declaresArguments line = true := by
    intro line member declares
    have same := of_decide_eq_true declares
    have declared : "local".toList ≠ "_arguments".toList := by decide
    have typed : "typeset".toList ≠ "_arguments".toList := by decide
    have closed : ")".toList ≠ "_arguments".toList := by decide
    have last : "_arguments".toList.getLast? = some 's' := by decide
    have head : "_arguments".toList.head? = some '_' := by decide
    simp only [List.mem_append, openingRead, List.mem_cons, List.mem_map, List.not_mem_nil,
      or_false] at member
    rcases member with (rfl | rfl | rfl | rfl) | ⟨entry, among, rfl⟩ | rfl
    · exact declared (Option.some.inj same)
    · exact typed (Option.some.inj same)
    · exact declared (Option.some.inj same)
    · rw [← Option.some.inj same] at last
      simp at last
    · rw [← Option.some.inj same, quoted entry among] at head
      cases head
    · exact closed (Option.some.inj same)
  have found : declaresArguments menu.argumentsRead = true := decide_eq_true rfl
  have split : menu.shellLines = (menu.openingRead ++ (menu.entries.map (fun entry => [entry]) ++
      [[")".toList]])) ++ (menu.argumentsRead :: (menu.stateRead ++ menu.casesRead)) := by simp [shellLines]
  rw [split, ShellFunction.readArguments, List.find?_append, List.find?_eq_none.mpr before,
    Option.none_or, List.find?_cons_of_pos found, Option.getD_some, List.drop_one, argumentsRead,
    List.tail_cons]

/-- The cases are those of the dispatcher, unless one of them is for the word that ends them. -/
theorem readBranches (menu : Dispatcher) : ShellFunction.readBranches menu.shellLines =
    if ∀ choice ∈ menu.choices, choice.word ≠ caseEnd then
      some (menu.choices.map fun choice => (choice.word, choice.routine))
    else none := by
  have before : ∀ line ∈ menu.openingRead ++ (menu.entries.map (fun entry => [entry]) ++
      ([")".toList] :: menu.argumentsRead :: menu.stateRead)),
      (!opensCases line) = true := by
    intro line member
    simp only [List.mem_append, openingRead, stateRead, List.mem_cons, List.mem_map,
      List.not_mem_nil, or_false] at member
    rcases member with (rfl | rfl | rfl | rfl) | ⟨entry, among, rfl⟩ | rfl | rfl | rfl | rfl | rfl |
      rfl | rfl
    all_goals simp [argumentsRead, opensCases]
  have split : menu.shellLines = (menu.openingRead ++ (menu.entries.map (fun entry => [entry]) ++
      ([")".toList] :: menu.argumentsRead :: menu.stateRead))) ++ menu.casesRead := by simp [shellLines]
  rw [split, ShellFunction.readBranches, List.dropWhile_append_of_pos before, casesRead,
    List.dropWhile_cons_of_neg (by simp [opensCases])]
  exact readCases_choices _ _

theorem Quoted.read (quoted : menu.Quoted) (name : Text) : ShellFunction.read name menu.shellLines =
    if ∀ choice ∈ menu.choices, choice.word ≠ caseEnd then
      some ⟨name, menu.entries, "-C".toList :: (menu.specs ++ choiceSpecs menu.state),
        menu.choices.map fun choice => (choice.word, choice.routine)⟩
    else none := by
  rw [ShellFunction.read, readBranches, quoted.readEntries, quoted.readArguments]
  split <;> rfl

end Dispatcher

theorem Body.read_leaf (name : Text) (specs : List Text) :
    ShellFunction.read name (leaf specs).shellLines = some ⟨name, [], specs, []⟩ := by
  cases specs with
  | nil => rfl
  | cons spec specs =>
    have declares : declaresArguments ("_arguments".toList :: spec :: specs) = true := decide_eq_true rfl
    have opens : opensArray ("_arguments".toList :: spec :: specs) = false := by
      cases specs <;> rfl
    have other : opensCases ("_arguments".toList :: spec :: specs) = false := by simp [opensCases]
    have entries : ShellFunction.readEntries ["_arguments".toList :: spec :: specs] = [] := by
      rw [ShellFunction.readEntries, List.dropWhile_cons_of_pos (by rw [opens]; rfl)]
      rfl
    have arguments : ShellFunction.readArguments ["_arguments".toList :: spec :: specs] = spec :: specs := by
      rw [ShellFunction.readArguments, List.find?_cons_of_pos declares]
      rfl
    have branches : ShellFunction.readBranches ["_arguments".toList :: spec :: specs] = some [] := by
      rw [ShellFunction.readBranches, List.dropWhile_cons_of_pos (by rw [other]; rfl)]
      rfl
    have whole : (leaf (spec :: specs)).shellLines = ["_arguments".toList :: spec :: specs] := rfl
    rw [whole, ShellFunction.read, branches, entries, arguments]
    rfl

theorem Body.isBorder_leaf {specs : List Text} (quoted : ∀ spec ∈ specs, spec.head? = some '\'') :
    ∀ line ∈ (leaf specs).shellLines, isBorder line = false := by
  intro line member
  cases specs with
  | nil =>
    obtain rfl := List.mem_singleton.mp member
    rfl
  | cons spec specs =>
    obtain rfl := List.mem_singleton.mp member
    refine isBorder_words _ ?_ specs
    rintro rfl
    cases quoted _ List.mem_cons_self

end TabCompletion.Zsh
