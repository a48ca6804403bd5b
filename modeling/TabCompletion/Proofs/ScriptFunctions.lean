import TabCompletion.Proofs.ScriptReading

namespace TabCompletion.Zsh

theorem Inside.of_nameChars {name : Text} (filled : name ≠ []) (letters : ∀ c ∈ name, isNameChar c = true) :
    Inside name := by
  refine .of_inner filled (List.all_eq_true.mpr fun c member => ?_)
  have plain : c ∉ " \t\n;&|<>()\\'\"#".toList := by
    intro special
    have never : (" \t\n;&|<>()\\'\"#".toList.all fun d => !isNameChar d) = true := by decide
    have other := List.all_eq_true.mp never c special
    rw [letters c member] at other
    cases other
  simpa [isInner, isWordEnd, isOperator, and_assoc] using plain

/-- Functions that can all be read are read one by one. -/
theorem mapM_map_some {α β γ : Type} {items : List α} {pair : α → β} {read : β → Option γ} {value : α → γ}
    (each : ∀ item ∈ items, read (pair item) = some (value item)) :
    (items.map pair).mapM read = some (items.map value) := by
  induction items with
  | nil => rfl
  | cons item items ih =>
    rw [List.map_cons, List.mapM_cons, each item List.mem_cons_self,
      ih fun other member => each other (List.mem_cons_of_mem item member)]
    rfl

/-- One function that cannot be read leaves the whole script unread. -/
theorem mapM_eq_none {α β : Type} {items : List α} {item : α} {read : α → Option β} (member : item ∈ items)
    (unread : read item = none) : items.mapM read = none := by
  induction member with
  | head items =>
    rw [List.mapM_cons, unread]
    rfl
  | tail first member ih =>
    rw [List.mapM_cons, ih]
    cases read first <;> rfl

/-- A text that double quotes keep as it is. -/
def isLiteral (text : Text) : Bool :=
  text.all fun c => c ≠ '"' && c ≠ '\\'

theorem Inside.of_literal {text : Text} (literal : isLiteral text = true) : Inside ("\"" ++ text ++ "\"") :=
  .doubleQuoted fun c member => by simpa using List.all_eq_true.mp literal c member

theorem Bare.isLiteral {text : Text} (bare : Bare text) : isLiteral text = true := by
  refine List.all_eq_true.mpr fun c member => ?_
  have plain := bare.plain c member
  have unquoted : c ≠ '"' := by
    rintro rfl
    cases plain
  have unescaped : c ≠ '\\' := by
    rintro rfl
    cases plain
  simp [unquoted, unescaped]

theorem Dispatcher.choiceSpecs_inside {state : Text} (literal : isLiteral state = true) :
    ∀ spec ∈ choiceSpecs state, Inside spec := by
  have first : isLiteral ("1: :->" ++ state) = true := by
    rw [isLiteral, List.all_append, Bool.and_eq_true]
    exact ⟨by decide, literal⟩
  have second : isLiteral "*::arg:->args" = true := by decide
  intro spec member
  simp only [choiceSpecs, List.mem_cons, List.not_mem_nil, or_false] at member
  rcases member with rfl | rfl
  · exact .of_literal first
  · exact .of_literal second

/-- A tree of which every name is bare that stands outside of quotes: the words of the cases, and the
names of options that have two. -/
structure BareNames (commands : List Command) : Prop where
  names : ∀ path node, Command.Leads commands path node → Bare node.name
  flags : ∀ path node, Command.Leads commands path node → ∀ flag ∈ node.flags, ∀ short,
    flag.short = some short → Bare (short :: flag.name)

theorem bareNames_iff {commands : List Command} :
    BareNames commands ↔ ∀ node ∈ Command.nodesBelow [] commands, Bare node.2.name ∧
      ∀ flag ∈ node.2.flags, (flag.short.all fun short => Bare (short :: flag.name)) = true := by
  have shorts (flag : Flag) : (flag.short.all fun short => Bare (short :: flag.name)) = true ↔
      ∀ short, flag.short = some short → Bare (short :: flag.name) := by
    cases flag.short <;> simp
  simp only [shorts]
  constructor
  · intro bare node member
    have leads := Command.mem_nodesBelow_iff.mp member
    exact ⟨bare.names _ _ leads, bare.flags _ _ leads⟩
  · intro every
    exact ⟨fun path node leads => (every (path, node) (Command.mem_nodesBelow_iff.mpr leads)).1,
      fun path node leads => (every (path, node) (Command.mem_nodesBelow_iff.mpr leads)).2⟩

instance (commands : List Command) : Decidable (BareNames commands) :=
  decidable_of_iff _ bareNames_iff.symm

namespace Target

variable {target : Target} {commands : List Command}

theorem inside_routineName (target : Target) (path : List Text) : Inside (target.routineName path) :=
  .of_nameChars (List.cons_ne_nil _ _) fun _ member => target.isNameChar_routineName member

theorem inside_helperName (target : Target) (list : Lookup) : Inside (target.helperName list.plural) :=
  .of_nameChars (List.cons_ne_nil _ _) fun _ member => target.isNameChar_helperName list member

/-- The function of a node as a shell has it. -/
def shellFunction (target : Target) (path : List Text) (node : Command) : ShellFunction where
  name := target.routineName path
  entries := node.subcommands.map menuEntry
  arguments :=
    if node.isDispatch then
      "-C".toList :: (node.flags.map flagSpec ++ ["\"1: :->subcommand\"".toList, "\"*::arg:->args\"".toList])
    else node.flags.map flagSpec ++
      if node.acceptsPositional then [positionalSpec target node.positional] else []
  branches := node.subcommands.map fun child => (child.name, target.routineName (path ++ [child.name]))

def shellRoot (target : Target) (commands : List Command) : ShellFunction where
  name := target.routineName []
  entries := commands.map menuEntry
  arguments := ["-C", "\"1: :->command\"", "\"*::arg:->args\""]
  branches := commands.map fun child => (child.name, target.routineName [child.name])

/-- The functions of a script as a shell has them. -/
def shellScript (target : Target) (commands : List Command) : List ShellFunction :=
  target.shellRoot commands ::
    ((Command.nodesBelow [] commands).map (Function.uncurry target.shellFunction) ++
      Lookup.all.map fun list => ⟨target.helperName list.plural, [], [], []⟩)

/-- A dispatcher whose fixed parts are words is spelled when the names of its commands are bare. -/
theorem spelled_dispatcher (path : List Text) {array state label : Text} {flags : List Flag}
    (arrayInside : Inside array) (stateInside : Inside state) (labelInside : Inside ("\"" ++ label ++ "\""))
    (chosen : ∀ spec ∈ Dispatcher.choiceSpecs state, Inside spec) (names : ∀ child ∈ commands, Bare child.name)
    (bare : ∀ flag ∈ flags, ∀ short, flag.short = some short → Bare (short :: flag.name)) :
    (target.dispatcher path array state label flags commands).Spelled where
  array := arrayInside
  state := stateInside
  label := labelInside
  entries entry member := by
    obtain ⟨child, -, rfl⟩ := List.mem_map.mp member
    exact .quote _
  specs spec member := by
    rcases List.mem_append.mp member with option | last
    · obtain ⟨flag, among, rfl⟩ := List.mem_map.mp option
      exact .flagSpec (bare flag among)
    · exact chosen spec last
  choices choice member := by
    obtain ⟨child, among, rfl⟩ := List.mem_map.mp member
    exact ⟨.of_bare (names child among), target.inside_routineName _⟩

theorem spelled_root (cli : Bare target.cli) (names : ∀ child ∈ commands, Bare child.name) :
    (target.dispatcher [] "commands" "command" (target.cli ++ " command") [] commands).Spelled := by
  have label : isLiteral (target.cli ++ " command") = true := by
    rw [isLiteral, List.all_append, Bool.and_eq_true]
    exact ⟨cli.isLiteral, by decide⟩
  exact target.spelled_dispatcher [] (.of_inner (List.cons_ne_nil _ _) rfl) (.of_inner (List.cons_ne_nil _ _) rfl)
    (.of_literal label) (Dispatcher.choiceSpecs_inside (by decide)) names
    fun flag member => absurd member List.not_mem_nil

theorem spelled_subcommands (bare : BareNames commands) {path : List Text} {node : Command}
    (leads : Command.Leads commands path node) :
    (target.dispatcher path "subcommands" "subcommand" "subcommand" node.flags node.subcommands).Spelled :=
  spelled_dispatcher path (.of_inner (List.cons_ne_nil _ _) rfl) (.of_inner (List.cons_ne_nil _ _) rfl)
    (.of_literal (by decide)) (Dispatcher.choiceSpecs_inside (by decide))
    (fun _ child => bare.names _ _ (leads.child child)) (bare.flags path node leads)

theorem root_reads (cli : Bare target.cli) (bare : BareNames commands) :
    Reads (textOf (target.rootRoutine commands).lines)
      (functionLines (target.routineName []) (target.rootRoutine commands).body.shellLines) :=
  Reads.function (target.inside_routineName [])
    (spelled_root cli fun child member => bare.names _ child (.here member)).lines

theorem routine_reads (bare : BareNames commands) {path : List Text} {node : Command}
    (leads : Command.Leads commands path node) :
    Reads (textOf (target.routine path node).lines)
      (functionLines (target.routineName path) (target.routine path node).body.shellLines) := by
  refine Reads.function (target.inside_routineName path) ?_
  unfold routine
  by_cases dispatch : node.isDispatch = true
  · rw [if_pos dispatch]
    exact (spelled_subcommands bare leads).lines
  · rw [if_neg dispatch]
    refine Body.leaf_lines fun spec member => ?_
    rcases List.mem_append.mp member with option | trailing
    · obtain ⟨flag, among, rfl⟩ := List.mem_map.mp option
      exact .flagSpec (bare.flags path node leads flag among)
    · by_cases accepts : node.acceptsPositional = true
      · rw [if_pos accepts, List.mem_singleton] at trailing
        rw [trailing]
        exact .positionalSpec target node.positional
      · rw [if_neg accepts] at trailing
        cases trailing

/-- The lines of a script as a shell reads them. -/
def shellLines (target : Target) (commands : List Command) : List (List Text) :=
  functionLines (target.routineName []) (target.rootRoutine commands).body.shellLines ++
    ((Command.nodesBelow [] commands).flatMap (fun node =>
        functionLines (target.routineName node.1) (target.routine node.1 node.2).body.shellLines) ++
      (Lookup.all.flatMap (fun list =>
          functionLines (target.helperName list.plural) (Helper.shellLines target.cli list)) ++
        [["compdef".toList, target.routineName [], target.cli]]))

theorem nodes_read (bare : BareNames commands) :
    Reads (target.nodesText (Command.nodesBelow [] commands))
      ((Command.nodesBelow [] commands).flatMap fun node =>
        functionLines (target.routineName node.1) (target.routine node.1 node.2).body.shellLines) := by
  have same : target.nodesText (Command.nodesBelow [] commands) =
      textOf ((Command.nodesBelow [] commands).flatMap fun node =>
        [] :: (target.routine node.1 node.2).lines) := by
    rw [textOf, nodesText, List.flatMap_assoc]
    rfl
  rw [same]
  refine .flatMap fun node member => ?_
  exact .blank (routine_reads bare (Command.mem_nodesBelow_iff.mp member))

theorem closing_reads (cli : Bare target.cli) : Reads (textOf target.closingLines)
    (Lookup.all.flatMap (fun list =>
        functionLines (target.helperName list.plural) (Helper.shellLines target.cli list)) ++
      [["compdef".toList, target.routineName [], target.cli]]) := by
  have heading : Reads (textOf ["", "# Dynamic completion helpers"]) [] := .of_shellLines (by decide)
  have helpers : Reads (textOf (Lookup.all.flatMap fun list =>
      [] :: Helper.lines target.cli ⟨target.helperName list.plural, list⟩))
      (Lookup.all.flatMap fun list =>
        functionLines (target.helperName list.plural) (Helper.shellLines target.cli list)) :=
    .flatMap fun list _ => .blank (Helper.lines_reads (.of_bare cli) (target.inside_helperName list) list)
  have compdef : Spaced "compdef " ["compdef"] := .plain 0 (by decide) (by decide)
  have last : Reads (textOf [[], "compdef ".toList ++ (target.routineName [] ++ [' ']) ++ target.cli])
      [["compdef", target.routineName [], target.cli]] :=
    .blank (.cons ((compdef.append (.of_word (target.inside_routineName []))).line (.of_bare cli)) .nil)
  have split : target.closingLines = ["".toList, "# Dynamic completion helpers".toList] ++
      ((Lookup.all.flatMap fun list => [] :: Helper.lines target.cli ⟨target.helperName list.plural, list⟩) ++
        [[], "compdef ".toList ++ (target.routineName [] ++ [' ']) ++ target.cli]) := by
    simp [closingLines, compile, List.flatMap_map]
  rw [split, textOf_append, textOf_append]
  exact heading.append (helpers.append last)

theorem preamble_reads (cli : Bare target.cli) : Reads (textOf (target.compile []).preamble) [] := by
  have inLine : '\n' ∉ target.cli := fun member => by cases cli.plain '\n' member
  have tagged : '\n' ∉ "compdef ".toList ++ target.cli := by
    simpa using inLine
  have titled : '\n' ∉ " Zsh completion script for ".toList ++ target.cli ++ " CLI" := by
    simpa using inLine
  have owned : '\n' ∉ " Auto-generated by spectest - do not edit manually".toList := by decide
  exact .cons (.comment tagged) (.blank (.cons (.comment titled) (.cons (.comment owned) (.blank .nil))))

theorem generate_reads (cli : Bare target.cli) (bare : BareNames commands) :
    Zsh.shellLines (target.generate commands) = some (target.shellLines commands) := by
  rw [generate_eq]
  exact ((preamble_reads cli).append ((root_reads cli bare).append ((nodes_read bare).append
    (closing_reads cli)))).shellLines

theorem quoted_dispatcher (path : List Text) (array state label : Text) (flags : List Flag)
    (commands : List Command) : (target.dispatcher path array state label flags commands).Quoted := by
  intro entry member
  obtain ⟨child, -, rfl⟩ := List.mem_map.mp member
  rfl

theorem dispatcher_inner (path : List Text) (array state label : Text) (flags : List Flag)
    (commands : List Command) :
    ∀ line ∈ (target.dispatcher path array state label flags commands).shellLines,
      isBorder line = false := by
  refine (quoted_dispatcher path array state label flags commands).isBorder fun choice member => ?_
  obtain ⟨child, -, rfl⟩ := List.mem_map.mp member
  rfl

theorem leafSpecs_quoted {node : Command} {spec : Text} (member : spec ∈ target.leafSpecs node) :
    spec.head? = some '\'' := by
  rcases List.mem_append.mp member with option | trailing
  · obtain ⟨flag, -, rfl⟩ := List.mem_map.mp option
    cases shape : flag.short with
    | none => rw [flagSpec_none shape]; rfl
    | some short => rw [flagSpec_some shape]; rfl
  · by_cases accepts : node.acceptsPositional = true
    · rw [if_pos accepts, List.mem_singleton] at trailing
      rw [trailing]
      cases node.positional with
      | none => rfl
      | some kind => cases kind <;> rfl
    · rw [if_neg accepts] at trailing
      cases trailing

theorem routine_inner (path : List Text) (node : Command) :
    ∀ line ∈ (target.routine path node).body.shellLines, isBorder line = false := by
  unfold routine
  by_cases dispatch : node.isDispatch = true
  · rw [if_pos dispatch]
    exact dispatcher_inner path _ _ _ _ _
  · rw [if_neg dispatch]
    exact Body.isBorder_leaf fun spec => leafSpecs_quoted

theorem helper_inner (list : Lookup) : ∀ line ∈ Helper.shellLines target.cli list, isBorder line = false := by
  have every : ((Helper.shellLines target.cli list).all fun line => !isBorder line) = true := by
    cases list <;> rfl
  intro line member
  simpa using List.all_eq_true.mp every line member

theorem readBodies_script (commands : List Command) :
    (readBodies (target.shellLines commands)).2 =
      (target.routineName [], (target.rootRoutine commands).body.shellLines) ::
        ((Command.nodesBelow [] commands).map (fun node =>
            (target.routineName node.1, (target.routine node.1 node.2).body.shellLines)) ++
          Lookup.all.map fun list => (target.helperName list.plural, Helper.shellLines target.cli list)) := by
  have root : ∀ line ∈ (target.rootRoutine commands).body.shellLines, isBorder line = false :=
    dispatcher_inner [] _ _ _ [] commands
  have last : (readBodies [["compdef".toList, target.routineName [], target.cli]]).2 = [] := rfl
  rw [shellLines, readBodies_function root,
    readBodies_functions fun node _ => routine_inner node.1 node.2,
    readBodies_functions fun list _ => helper_inner list, last, List.append_nil]

theorem read_dispatcher (path : List Text) (array state label : Text) (flags : List Flag)
    (commands : List Command) :
    ShellFunction.read (target.routineName path)
        (target.dispatcher path array state label flags commands).shellLines =
      if ∀ child ∈ commands, child.name ≠ caseEnd then
        some ⟨target.routineName path, commands.map menuEntry,
          "-C".toList :: (flags.map flagSpec ++ Dispatcher.choiceSpecs state),
          commands.map fun child => (child.name, target.routineName (path ++ [child.name]))⟩
      else none := by
  rw [(quoted_dispatcher path array state label flags commands).read]
  simp only [dispatcher, List.forall_mem_map, List.map_map]
  rfl

theorem read_root (commands : List Command) :
    ShellFunction.read (target.routineName []) (target.rootRoutine commands).body.shellLines =
      if ∀ child ∈ commands, child.name ≠ caseEnd then some (target.shellRoot commands) else none :=
  read_dispatcher [] _ _ _ [] commands

theorem read_routine (path : List Text) (node : Command) :
    ShellFunction.read (target.routineName path) (target.routine path node).body.shellLines =
      if ∀ child ∈ node.subcommands, child.name ≠ caseEnd then some (target.shellFunction path node)
      else none := by
  unfold routine shellFunction
  by_cases dispatch : node.isDispatch = true
  · rw [if_pos dispatch, if_pos dispatch]
    exact read_dispatcher path _ _ _ node.flags node.subcommands
  · have childless : node.subcommands = [] := by simpa [Command.isDispatch] using dispatch
    rw [if_neg dispatch, if_neg dispatch, childless, if_pos (by simp)]
    exact Body.read_leaf _ _

theorem read_helper (list : Lookup) :
    ShellFunction.read (target.helperName list.plural) (Helper.shellLines target.cli list) =
      some ⟨target.helperName list.plural, [], [], []⟩ := by
  cases list <;> rfl

/-- A shell reads the functions of the tree, each command with its entries, its arguments and its
cases, unless a command is named by the word that ends cases. -/
theorem shellFunctions_generate (cli : Bare target.cli) (bare : BareNames commands)
    (apart : ∀ path node, Command.Leads commands path node → node.name ≠ caseEnd) :
    shellFunctions (target.generate commands) = some (target.shellScript commands) := by
  have root : ShellFunction.read (target.routineName []) (target.rootRoutine commands).body.shellLines =
      some (target.shellRoot commands) := by
    rw [read_root, if_pos fun child member => apart _ child (.here member)]
  have nodes : ((Command.nodesBelow [] commands).map (fun node =>
      (target.routineName node.1, (target.routine node.1 node.2).body.shellLines))).mapM
        (fun function => ShellFunction.read function.1 function.2) =
      some ((Command.nodesBelow [] commands).map (Function.uncurry target.shellFunction)) := by
    refine mapM_map_some fun node member => ?_
    have leads := Command.mem_nodesBelow_iff.mp member
    exact (target.read_routine node.1 node.2).trans
      (if_pos fun child below => apart _ child (leads.child below))
  have helpers : (Lookup.all.map fun list =>
      (target.helperName list.plural, Helper.shellLines target.cli list)).mapM
        (fun function => ShellFunction.read function.1 function.2) =
      some (Lookup.all.map fun list => ⟨target.helperName list.plural, [], [], []⟩) :=
    mapM_map_some fun list _ => target.read_helper list
  rw [shellFunctions, generate_reads cli bare, Option.bind_some, readBodies_script, List.mapM_cons, root,
    List.mapM_append, nodes, helpers]
  rfl

theorem shellFunctions_eq_none (cli : Bare target.cli) (bare : BareNames commands) {path : List Text}
    {node : Command} (leads : Command.Leads commands path node) (ends : node.name = caseEnd) :
    shellFunctions (target.generate commands) = none := by
  rw [shellFunctions, generate_reads cli bare, Option.bind_some, readBodies_script]
  rcases leads.top_or_below with top | ⟨above, parent, leads, below⟩
  · refine mapM_eq_none List.mem_cons_self ?_
    exact (target.read_root commands).trans (if_neg fun apart => apart node top ends)
  · have member := List.mem_map_of_mem (f := fun node : List Text × Command =>
      (target.routineName node.1, (target.routine node.1 node.2).body.shellLines))
      (Command.mem_nodesBelow_iff.mpr leads)
    refine mapM_eq_none (List.mem_cons_of_mem _ (List.mem_append_left _ member)) ?_
    exact (target.read_routine above parent).trans (if_neg fun apart => apart node below ends)

end Target

end TabCompletion.Zsh
