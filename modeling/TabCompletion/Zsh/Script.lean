import TabCompletion.Command.Name
import TabCompletion.Zsh.Spec

namespace TabCompletion.Zsh

/-- A choice of a dispatcher: the word it is for, and the function it goes on with. -/
structure Choice where
  word : Text
  routine : Text
deriving DecidableEq, Repr

/-- A dispatcher offers a menu and goes on with the function of the word that was chosen.
The specs are those of its options alone. -/
structure Dispatcher where
  array : Text
  state : Text
  label : Text
  entries : List Text
  specs : List Text
  choices : List Choice
deriving DecidableEq, Repr

inductive Body where
  | dispatcher (dispatcher : Dispatcher)
  | leaf (specs : List Text)
deriving DecidableEq, Repr

/-- A shell function that completes one command. -/
structure Routine where
  name : Text
  body : Body
deriving DecidableEq, Repr

/-- A shell function that asks the command for identifiers. -/
structure Helper where
  name : Text
  list : Lookup
deriving DecidableEq, Repr

structure Script where
  cli : Text
  root : Routine
  routines : List Routine
  helpers : List Helper
deriving DecidableEq, Repr

/-- Words of one shell command, each on a line of its own and all but the last one
continued. -/
def continued : List Text → List Text
  | [] => []
  | [word] => ["    " ++ word]
  | word :: rest => ("    " ++ word ++ " \\") :: continued rest

/-- The specs that every dispatcher ends with: the chosen word, and the words after it. -/
def Dispatcher.choiceSpecs (state : Text) : List Text :=
  ["\"1: :->" ++ state ++ "\"", "\"*::arg:->args\""]

def Choice.lines (choice : Choice) : List Text :=
  ["        " ++ choice.word ++ ")", "          " ++ choice.routine, "          ;;"]

def Dispatcher.menuLines (dispatcher : Dispatcher) : List Text :=
  let opening : List Text :=
    ["  local context state line", "  typeset -A opt_args", "", "  local -a " ++ dispatcher.array,
      "  " ++ dispatcher.array ++ "=("]
  opening ++ dispatcher.entries.map (fun entry => "    ".toList ++ entry) ++ ["  )".toList]

def Dispatcher.argumentLines (dispatcher : Dispatcher) : List Text :=
  "  _arguments -C \\" :: continued (dispatcher.specs ++ choiceSpecs dispatcher.state)

def Dispatcher.choiceLines (dispatcher : Dispatcher) : List Text :=
  let opening : List Text :=
    ["  case $state in", "    " ++ dispatcher.state ++ ")",
      "      _describe \"" ++ dispatcher.label ++ "\" " ++ dispatcher.array, "      ;;", "    args)",
      "      case $words[1] in"]
  let closing : List Text := ["      esac", "      ;;", "  esac"]
  opening ++ dispatcher.choices.flatMap Choice.lines ++ closing

def Dispatcher.lines (dispatcher : Dispatcher) : List Text :=
  dispatcher.menuLines ++ [] :: dispatcher.argumentLines ++ [] :: dispatcher.choiceLines

def Body.lines : Body → List Text
  | dispatcher menu => menu.lines
  | leaf [] => ["  _message 'no more arguments'"]
  | leaf specs => "  _arguments \\" :: continued specs

def Routine.lines (routine : Routine) : List Text :=
  (routine.name ++ "() \x7b") :: routine.body.lines ++ ["\x7d".toList]

/-- The loop that takes in the identifiers of one category. -/
def Helper.loopLines (cli : Text) (list : Lookup) (category : Text) : List Text :=
  ["  while IFS=$'\\t' read -r id desc; do", "    [[ -n $id && -n $desc ]] || continue",
    "    " ++ list.plural ++ "+=(\"$\x7bid//:/\\\\:\x7d:$desc\")",
    "  done < <(" ++ cli ++ " __complete --type " ++ category ++ " 2>/dev/null)"]

def Helper.lines (cli : Text) (helper : Helper) : List Text :=
  let opening : List Text :=
    [helper.name ++ "() \x7b", "  local -a " ++ helper.list.plural, "  local id desc"]
  let closing : List Text :=
    ["  _describe \"" ++ helper.list.singular ++ "\" " ++ helper.list.plural, "\x7d"]
  opening ++ helper.list.categories.flatMap (loopLines cli helper.list) ++ closing

/-- The lines before the first function: the tag that the completion system looks for,
and the header that tells whose script it is. -/
def Script.preamble (script : Script) : List Text :=
  ["#compdef " ++ script.cli, "", "# Zsh completion script for " ++ script.cli ++ " CLI",
    Product.ownershipHeader, ""]

def Script.lines (script : Script) : List Text :=
  let helperHeading : List Text := ["", "# Dynamic completion helpers"]
  let closing : List Text := ["", "compdef " ++ script.root.name ++ " " ++ script.cli]
  script.preamble ++ script.root.lines ++
    script.routines.flatMap (fun routine => [] :: routine.lines) ++ helperHeading ++
    script.helpers.flatMap (fun helper => [] :: helper.lines script.cli) ++ closing

/-- The text of a script: every line with its end. -/
def Script.text (script : Script) : Text :=
  script.lines.flatMap fun line => line ++ ['\n']

end TabCompletion.Zsh
