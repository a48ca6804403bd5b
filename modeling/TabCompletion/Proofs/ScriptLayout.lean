import TabCompletion.Proofs.Lossless

namespace TabCompletion.Zsh

/-- The text of a function. -/
def functionText (name body : Text) : Text :=
  name ++ ("() \x7b\n" ++ (body ++ "\x7d\n"))

/-- The text of a case: the word it is for, and the function it goes on with. -/
def branchText (branch : Text × Text) : Text :=
  "        " ++ (branch.1 ++ (")\n          " ++ (branch.2 ++ "\n          ;;\n")))

/-- The text of what the chosen state decides on: a menu, or a case for the first word. -/
def casesText (array state label : Text) (branches : List (Text × Text)) : Text :=
  "  case $state in\n    " ++ (state ++ (")\n      _describe \"" ++ (label ++ ("\" " ++ (array ++
    ("\n      ;;\n    args)\n      case $words[1] in\n" ++ (branches.flatMap branchText ++
      "      esac\n      ;;\n  esac\n")))))))

/-- The text of the body of a dispatcher. -/
def menuText (array state label : Text) (entries specs : List Text) (branches : List (Text × Text)) : Text :=
  "  local context state line\n  typeset -A opt_args\n\n  local -a " ++ (array ++ ("\n  " ++ (array ++
    ("=(" ++ (chain indent entries ++ ("\n  )\n\n  _arguments -C" ++ (chain continuation specs ++
      (chain continuation ["\"1: :->" ++ state ++ "\"", "\"*::arg:->args\""] ++ ("\n\n" ++
        casesText array state label branches)))))))))

/-- The text of the body of a command without subcommands. -/
def argumentsText (specs : List Text) : Text :=
  if specs = [] then "  _message 'no more arguments'\n"
  else "  _arguments" ++ (chain continuation specs ++ "\n")

/-- The text of the loop that takes in the identifiers of one category. -/
def loopText (cli plural category : Text) : Text :=
  "  while IFS=$'\\t' read -r id desc; do\n    [[ -n $id && -n $desc ]] || continue\n    " ++ (plural ++
    ("+=(\"$\x7bid//:/\\\\:\x7d:$desc\")\n  done < <(" ++ (cli ++ (" __complete --type " ++ (category ++
      " 2>/dev/null)\n")))))

/-- The text of the body of a helper. -/
def helperText (cli : Text) (list : Lookup) : Text :=
  "  local -a " ++ (list.plural ++ ("\n  local id desc\n" ++
    (list.categories.flatMap (loopText cli list.plural) ++
      ("  _describe \"" ++ (list.singular ++ ("\" " ++ (list.plural ++ "\n")))))))

theorem Choice.layout (choice : Choice) :
    textOf choice.lines = branchText (choice.word, choice.routine) := by
  unfold Choice.lines branchText
  simp only [String.reduceToList, textOf_cons, textOf_nil, List.cons_append, List.nil_append,
    List.append_assoc]

theorem textOf_choices (choices : List Choice) :
    textOf (choices.flatMap Choice.lines) =
      (choices.map fun choice => (choice.word, choice.routine)).flatMap branchText := by
  rw [textOf, List.flatMap_assoc, List.flatMap_map]
  exact congrArg (List.flatMap · choices) (funext Choice.layout)

theorem Dispatcher.cases_layout (menu : Dispatcher) : textOf menu.choiceLines =
    casesText menu.array menu.state menu.label
      (menu.choices.map fun choice => (choice.word, choice.routine)) := by
  unfold choiceLines casesText
  rw [textOf_append, textOf_append, textOf_choices]
  simp only [String.reduceToList, textOf_cons, textOf_nil, List.cons_append, List.nil_append,
    List.append_assoc]

theorem Dispatcher.layout (menu : Dispatcher) : textOf menu.lines =
    menuText menu.array menu.state menu.label menu.entries menu.specs
      (menu.choices.map fun choice => (choice.word, choice.routine)) := by
  rw [text_eq, cases_layout]
  unfold menuText menuHead menuEnd choiceSpecs
  simp only [String.reduceToList, textOf_cons, textOf_nil, List.cons_append, List.nil_append,
    List.append_assoc]

theorem Body.layout (specs : List Text) : textOf (leaf specs).lines = argumentsText specs := by
  unfold argumentsText
  by_cases empty : specs = []
  · subst empty
    rw [if_pos rfl, message_text]
    simp only [String.reduceToList, textOf_cons, textOf_nil, List.cons_append, List.nil_append]
  · rw [if_neg empty, leaf_text empty]
    simp only [String.reduceToList]

theorem Helper.loop_layout (cli : Text) (list : Lookup) (category : Text) :
    textOf (loopLines cli list category) = loopText cli list.plural category := by
  unfold loopLines loopText
  simp only [String.reduceToList, textOf_cons, textOf_nil, List.cons_append, List.nil_append,
    List.append_assoc]

theorem Helper.layout (cli name : Text) (list : Lookup) :
    textOf (Helper.lines cli ⟨name, list⟩) = functionText name (helperText cli list) := by
  have loops (categories : List Text) : textOf (categories.flatMap (loopLines cli list)) =
      categories.flatMap (loopText cli list.plural) := by
    rw [textOf, List.flatMap_assoc]
    exact congrArg (List.flatMap · categories) (funext (loop_layout cli list))
  unfold Helper.lines functionText helperText
  rw [textOf_append, textOf_append, loops]
  simp only [String.reduceToList, textOf_cons, textOf_nil, List.cons_append, List.nil_append,
    List.append_assoc]

namespace Target

variable (target : Target)

/-- The cases for some commands below a path, each with the function it goes on with. -/
def branches (path : List Text) (children : List Command) : List (Text × Text) :=
  children.map fun child => (child.name, target.routineName (path ++ [child.name]))

/-- The text of the body of a node's function. -/
def bodyText (path : List Text) (node : Command) : Text :=
  if node.isDispatch then
    menuText "subcommands" "subcommand" "subcommand" (node.subcommands.map menuEntry)
      (node.flags.map flagSpec) (target.branches path node.subcommands)
  else argumentsText (node.flags.map flagSpec ++
    if node.acceptsPositional then [positionalSpec target node.positional] else [])

theorem dispatcher_layout (path : List Text) (array state label : Text) (flags : List Flag)
    (commands : List Command) :
    textOf (target.dispatcher path array state label flags commands).lines =
      menuText array state label (commands.map menuEntry) (flags.map flagSpec)
        (target.branches path commands) := by
  rw [Dispatcher.layout]
  simp [dispatcher, branches, Function.comp_def]

theorem routine_layout (path : List Text) (node : Command) :
    textOf (target.routine path node).lines =
      functionText (target.routineName path) (target.bodyText path node) := by
  have body : textOf (target.routine path node).body.lines = target.bodyText path node := by
    unfold routine bodyText
    by_cases dispatch : node.isDispatch = true
    · rw [if_pos dispatch, if_pos dispatch]
      exact target.dispatcher_layout path _ _ _ node.flags node.subcommands
    · rw [if_neg dispatch, if_neg dispatch]
      exact Body.layout _
  rw [Routine.text_eq, body]
  rfl

/-- The texts that a script is put together from. -/
def parts (commands : List Command) : List Text :=
  ["#compdef ", target.cli, "\n\n# Zsh completion script for ", target.cli, " CLI\n",
    Product.ownershipHeader, "\n\n",
    functionText (target.routineName []) (menuText "commands" "command" (target.cli ++ " command")
      (commands.map menuEntry) [] (target.branches [] commands)),
    (Command.nodesBelow [] commands).flatMap fun node =>
      '\n' :: functionText (target.routineName node.1) (target.bodyText node.1 node.2),
    "\n# Dynamic completion helpers\n",
    Lookup.all.flatMap fun list =>
      '\n' :: functionText (target.helperName list.plural) (helperText target.cli list),
    "\ncompdef ", target.routineName [], " ", target.cli, "\n"]

theorem generate_layout (commands : List Command) :
    target.generate commands = (target.parts commands).flatten := by
  have root : textOf (target.rootRoutine commands).lines =
      functionText (target.routineName []) (menuText "commands" "command" (target.cli ++ " command")
        (commands.map menuEntry) [] (target.branches [] commands)) := by
    rw [Routine.text_eq]
    exact congrArg (functionText _) (target.dispatcher_layout [] _ _ _ [] commands)
  have nodes : target.nodesText (Command.nodesBelow [] commands) =
      (Command.nodesBelow [] commands).flatMap fun node =>
        '\n' :: functionText (target.routineName node.1) (target.bodyText node.1 node.2) := by
    simp only [nodesText, routine_layout]
  have helpers : textOf ((target.compile []).helpers.flatMap fun helper => [] :: helper.lines target.cli) =
      Lookup.all.flatMap fun list =>
        '\n' :: functionText (target.helperName list.plural) (helperText target.cli list) := by
    have helper (list : Lookup) :
        textOf ([] :: Helper.lines target.cli ⟨target.helperName list.plural, list⟩) =
          '\n' :: functionText (target.helperName list.plural) (helperText target.cli list) := by
      rw [textOf_cons, Helper.layout]
      rfl
    rw [compile, List.flatMap_map, textOf, List.flatMap_assoc]
    exact congrArg (List.flatMap · Lookup.all) (funext helper)
  rw [generate_eq, root, nodes]
  unfold closingLines
  rw [textOf_append, textOf_append, helpers]
  unfold parts Script.preamble
  simp only [List.flatten_cons, List.flatten_nil, String.reduceToList, textOf_cons, textOf_nil,
    List.cons_append, List.nil_append, List.append_assoc]
  rfl

end Target

end TabCompletion.Zsh
