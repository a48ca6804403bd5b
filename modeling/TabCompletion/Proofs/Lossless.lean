import TabCompletion.Proofs.Definition
import TabCompletion.Proofs.Essential

namespace TabCompletion.Zsh

/-- A tree in which every option is named with letters, digits and a few marks. -/
def AllNamed (commands : List Command) : Prop :=
  ∀ path node, Command.Leads commands path node → ∀ flag ∈ node.flags, Named flag

namespace AllNamed

variable {command : Command} {commands : List Command}

theorem flags (named : AllNamed commands) (member : command ∈ commands) :
    ∀ flag ∈ command.flags, Named flag :=
  named _ command (.here member)

theorem subcommands (named : AllNamed commands) (member : command ∈ commands) :
    AllNamed command.subcommands := fun path node leads =>
  named (command.name :: path) node (.through member leads)

theorem tail (named : AllNamed (command :: commands)) : AllNamed commands := fun path node leads => by
  cases leads with
  | here member => exact named _ node (.here (List.mem_cons_of_mem command member))
  | through member onward => exact named _ node (.through (List.mem_cons_of_mem command member) onward)

end AllNamed

theorem allNamed_iff {commands : List Command} :
    AllNamed commands ↔
      ∀ node ∈ Command.nodesBelow [] commands, ∀ flag ∈ node.2.flags, Named flag :=
  Command.forall_leads_iff

instance (commands : List Command) : Decidable (AllNamed commands) :=
  decidable_of_iff _ allNamed_iff.symm

theorem Routine.text_eq (routine : Routine) :
    textOf routine.lines =
      routine.name ++ ("() \x7b\n" ++ (textOf routine.body.lines ++ "\x7d\n")) := by
  simp only [lines, textOf_append, textOf_cons, textOf_nil]
  simp [List.append_assoc]

namespace Target

variable {target : Target} {path : List Text} {rest otherRest : Text}

theorem dispatcher_worded {flags : List Flag} (named : ∀ flag ∈ flags, Named flag)
    (array state label : Text) (commands : List Command) :
    (target.dispatcher path array state label flags commands).Worded where
  entries word member := by
    obtain ⟨command, _, rfl⟩ := List.mem_map.mp member
    exact IsWord.quote _
  specs word member := by
    obtain ⟨flag, inside, rfl⟩ := List.mem_map.mp member
    exact (named flag inside).isWord

/-- The text of a dispatcher tells its options and its menu, and what comes after it. -/
theorem dispatcher_unique {array state label : Text} {flags otherFlags : List Flag}
    {commands others : List Command} (named : ∀ flag ∈ flags, Named flag)
    (namedOther : ∀ flag ∈ otherFlags, Named flag)
    (same : textOf (target.dispatcher path array state label flags commands).lines ++ rest =
      textOf (target.dispatcher path array state label otherFlags others).lines ++ otherRest) :
    flags.map Flag.essential = otherFlags.map Flag.essential ∧
      commands.map Command.menu = others.map Command.menu ∧ rest = otherRest := by
  have sameArray : (target.dispatcher path array state label flags commands).array =
      (target.dispatcher path array state label otherFlags others).array := rfl
  have sameState : (target.dispatcher path array state label flags commands).state =
      (target.dispatcher path array state label otherFlags others).state := rfl
  obtain ⟨entries, specs, after⟩ := Dispatcher.text_unique sameArray sameState
    (dispatcher_worded named array state label commands)
    (dispatcher_worded namedOther array state label others) same
  have menus : commands.map Command.menu = others.map Command.menu :=
    map_eq_map_of_tells (fun _ _ _ _ => menuEntry_eq_iff.mp) entries
  have choices : (target.dispatcher path array state label flags commands).choiceLines =
      (target.dispatcher path array state label otherFlags others).choiceLines := by
    have each : commands.map (fun command => Choice.mk command.name
          (target.routineName (path ++ [command.name]))) =
        others.map fun command => Choice.mk command.name
          (target.routineName (path ++ [command.name])) :=
      map_eq_map_of_tells (fun _ _ _ _ same => by rw [(Prod.mk.inj same).1]) menus
    simp only [Dispatcher.choiceLines, dispatcher, each]
  rw [choices] at after
  exact ⟨map_flagSpec_unique named namedOther specs, menus, List.append_cancel_left after⟩

/-- The function of a command tells its options, the menu of its subcommands and its trailing
values, and what comes after it. -/
theorem routine_unique {command other : Command} (named : ∀ flag ∈ command.flags, Named flag)
    (namedOther : ∀ flag ∈ other.flags, Named flag)
    (same : textOf (target.routine path command).lines ++ rest =
      textOf (target.routine path other).lines ++ otherRest) :
    command.flags.map Flag.essential = other.flags.map Flag.essential ∧
      command.subcommands.map Command.menu = other.subcommands.map Command.menu ∧
      command.trailing? = other.trailing? ∧ rest = otherRest := by
  have names : (target.routine path command).name = (target.routine path other).name := rfl
  rw [Routine.text_eq, Routine.text_eq, names] at same
  simp only [List.append_assoc] at same
  have bodies := List.append_cancel_left (List.append_cancel_left same)
  have body (command : Command) : (target.routine path command).body =
      if command.isDispatch then
        .dispatcher (target.dispatcher path "subcommands" "subcommand" "subcommand" command.flags
          command.subcommands)
      else .leaf (target.leafSpecs command) := rfl
  rw [body, body] at bodies
  have childless {command : Command} (leaf : command.isDispatch = false) :
      command.subcommands = [] := by simpa [Command.isDispatch] using leaf
  have silent {command : Command} (dispatch : command.isDispatch = true) :
      command.trailing? = none := by simp [Command.trailing?, dispatch]
  -- A menu and a leaf begin in different ways, so that only two of a kind are compared further.
  cases kind : command.isDispatch <;> cases kindOther : other.isDispatch <;>
    simp only [kind, kindOther, if_true, Bool.false_eq_true, if_false] at bodies
  case false.false =>
    obtain ⟨specs, after⟩ := Body.leaf_unique (fun _ => isWord_of_mem_leafSpecs kind named)
      (fun _ => isWord_of_mem_leafSpecs kindOther namedOther) bodies
    obtain ⟨flags, trailing⟩ := leafSpecs_unique kind kindOther specs
    exact ⟨map_flagSpec_unique named namedOther flags, by rw [childless kind, childless kindOther],
      trailing, List.append_cancel_left after⟩
  case false.true => exact absurd bodies.symm (Body.dispatcher_ne_leaf _ _ _ _)
  case true.false => exact absurd bodies (Body.dispatcher_ne_leaf _ _ _ _)
  case true.true =>
    obtain ⟨flags, menus, after⟩ := dispatcher_unique named namedOther bodies
    exact ⟨flags, menus, by rw [silent kind, silent kindOther], List.append_cancel_left after⟩

/-- The functions of some nodes as a text. -/
def nodesText (target : Target) (nodes : List (List Text × Command)) : Text :=
  nodes.flatMap fun node => '\n' :: textOf (target.routine node.1 node.2).lines

theorem nodesText_append (nodes more : List (List Text × Command)) :
    target.nodesText (nodes ++ more) = target.nodesText nodes ++ target.nodesText more :=
  List.flatMap_append

theorem nodesText_cons (path : List Text) (command : Command) (more : List (List Text × Command)) :
    target.nodesText ((path, command) :: more) =
      '\n' :: (textOf (target.routine path command).lines ++ target.nodesText more) := by
  simp [nodesText]

/-- The function of a command tells how many come below it, and their names, so the functions in
a row tell the trees that they are of. -/
theorem nodes_unique {commands others : List Command} {path : List Text} {rest otherRest : Text}
    (named : AllNamed commands) (namedOther : AllNamed others)
    (menus : commands.map Command.menu = others.map Command.menu)
    (same : target.nodesText (Command.nodesBelow path commands) ++ rest =
      target.nodesText (Command.nodesBelow path others) ++ otherRest) :
    Command.essentials commands = Command.essentials others ∧ rest = otherRest := by
  match commands, others with
  | [], [] => exact ⟨rfl, same⟩
  | [], _ :: _ => simp at menus
  | _ :: _, [] => simp at menus
  | command :: commands, other :: others =>
    obtain ⟨menu, menus⟩ := List.cons.inj menus
    have names : command.name = other.name := (Prod.mk.inj menu).1
    simp only [Command.nodesBelow, Command.nodesAt_eq, List.cons_append, nodesText_cons,
      nodesText_append, List.append_assoc, names] at same
    obtain ⟨flags, below, trailing, after⟩ := routine_unique (named.flags List.mem_cons_self)
      (namedOther.flags List.mem_cons_self) (List.cons.inj same).2
    obtain ⟨subcommands, later⟩ := nodes_unique (named.subcommands List.mem_cons_self)
      (namedOther.subcommands List.mem_cons_self) below after
    obtain ⟨siblings, rests⟩ := nodes_unique named.tail namedOther.tail menus later
    refine ⟨?_, rests⟩
    rw [Command.essentials, Command.essentials, siblings,
      Command.essential_eq_iff.mpr ⟨menu, flags, subcommands, trailing⟩]
termination_by Command.sizes commands
decreasing_by
  · rw [Command.sizes, Command.size_eq]
    omega
  · rw [Command.sizes, Command.size_eq]
    omega

/-- What a script has after the functions of the nodes. It does not depend on the tree. -/
def closingLines (target : Target) : List Text :=
  let helpers := (target.compile []).helpers.flatMap fun helper => [] :: helper.lines target.cli
  let closing : List Text := ["", "compdef " ++ target.routineName [] ++ " " ++ target.cli]
  ["".toList, "# Dynamic completion helpers".toList] ++ (helpers ++ closing)

theorem generate_eq (target : Target) (commands : List Command) :
    target.generate commands =
      textOf (target.compile []).preamble ++ (textOf (target.rootRoutine commands).lines ++
        (target.nodesText (Command.nodesBelow [] commands) ++ textOf target.closingLines)) := by
  have nodes : textOf ((target.compile commands).routines.flatMap fun routine => [] :: routine.lines) =
      target.nodesText (Command.nodesBelow [] commands) := by
    rw [routines_below, textOf, nodesText, List.flatMap_assoc, List.flatMap_map]
    rfl
  have split : (target.compile commands).lines =
      (target.compile []).preamble ++ ((target.rootRoutine commands).lines ++
        ((target.compile commands).routines.flatMap (fun routine => [] :: routine.lines) ++
          target.closingLines)) := by
    simp only [Script.lines, closingLines, List.append_assoc]
    rfl
  change textOf (target.compile commands).lines = _
  rw [split, textOf_append, textOf_append, textOf_append, nodes]

/-- The script of a tree tells everything that is essential about it. -/
theorem essentials_eq_of_generate_eq {commands others : List Command} (named : AllNamed commands)
    (namedOther : AllNamed others) (same : target.generate commands = target.generate others) :
    Command.essentials commands = Command.essentials others := by
  have none : ∀ flag ∈ ([] : List Flag), Named flag := fun _ member => absurd member List.not_mem_nil
  have body (commands : List Command) : textOf (target.rootRoutine commands).body.lines =
      textOf (target.dispatcher [] "commands" "command" (target.cli ++ " command") [] commands).lines :=
    rfl
  have names : (target.rootRoutine commands).name = (target.rootRoutine others).name := rfl
  rw [generate_eq, generate_eq] at same
  have roots := List.append_cancel_left same
  rw [Routine.text_eq, Routine.text_eq, names] at roots
  simp only [List.append_assoc] at roots
  have bodies := List.append_cancel_left (List.append_cancel_left roots)
  rw [body, body] at bodies
  obtain ⟨-, menus, after⟩ := dispatcher_unique none none bodies
  exact (nodes_unique named namedOther menus (List.append_cancel_left after)).1

theorem dispatcher_essentials (target : Target) (path : List Text) (array state label : Text) (flags : List Flag)
    (commands : List Command) :
    target.dispatcher path array state label (flags.map Flag.essential)
        (Command.essentials commands) =
      target.dispatcher path array state label flags commands := by
  have entry (command : Command) : menuEntry command.essential = menuEntry command :=
    menuEntry_eq_iff.mpr (by rw [Command.menu, Command.essential_name,
      Command.essential_description, Command.menu])
  simp only [dispatcher, Command.essentials_eq_map, List.map_map, Function.comp_def,
    flagSpec_essential, entry, Command.essential_name]

theorem routine_essential (path : List Text) (command : Command) :
    target.routine path command.essential = target.routine path command := by
  unfold routine
  rw [Command.essential_isDispatch, Command.essential_flags, Command.essential_subcommands,
    dispatcher_essentials]
  by_cases dispatch : command.isDispatch = true
  · simp only [dispatch, if_true]
  · have leaf : command.isDispatch = false := by simpa using dispatch
    rw [target.leafSpecs_eq leaf, target.leafSpecs_eq (command.essential_isDispatch.trans leaf)]
    simp only [Command.essential_trailing?, Command.essential_flags, List.map_map,
      Function.comp_def, flagSpec_essential]

theorem nodesText_essentials (path : List Text) (commands : List Command) :
    target.nodesText (Command.nodesBelow path (Command.essentials commands)) =
      target.nodesText (Command.nodesBelow path commands) := by
  match commands with
  | [] => rfl
  | command :: rest =>
    have below := nodesText_essentials (path ++ [command.name]) command.subcommands
    have beside := nodesText_essentials path rest
    simp only [Command.essentials, Command.nodesBelow, Command.nodesAt_eq, List.cons_append,
      nodesText_cons, nodesText_append, Command.essential_name, Command.essential_subcommands,
      routine_essential, below, beside]
termination_by Command.sizes commands
decreasing_by
  · rw [Command.sizes, Command.size_eq]
    omega
  · rw [Command.sizes, Command.size_eq]
    omega

theorem generate_essentials (target : Target) (commands : List Command) :
    target.generate (Command.essentials commands) = target.generate commands := by
  have root : target.rootRoutine (Command.essentials commands) = target.rootRoutine commands := by
    have menu := target.dispatcher_essentials [] "commands" "command" (target.cli ++ " command") []
      commands
    rw [List.map_nil] at menu
    rw [rootRoutine, rootRoutine, menu]
  rw [generate_eq, generate_eq, root, nodesText_essentials]

end Target

/-- Two trees have the same script exactly when they are the same in everything that is
essential: a script tells its tree, whatever stands in descriptions and candidates, and however
names are spelled. -/
theorem generate_eq_iff (target : Target) {commands others : List Command}
    (named : AllNamed commands) (namedOther : AllNamed others) :
    target.generate commands = target.generate others ↔
      Command.essentials commands = Command.essentials others := by
  constructor
  · exact Target.essentials_eq_of_generate_eq named namedOther
  · intro same
    rw [← target.generate_essentials commands, same, target.generate_essentials]

/-- A tree with everything in it that a script does not tell. -/
def padded : List Command :=
  [⟨"a-b", "it's [a]: b\\\n  )", [⟨"key.file", 'k', "]:", false, some ["x"]⟩],
    [⟨"c", [], [⟨"to", none, [], true, some []⟩], [], false, some .shell⟩], true, some .path⟩]

/-- The same tree without it. -/
def unpadded : List Command :=
  [⟨"a-b", "it's [a]: b\\\n  )", [⟨"key.file", 'k', "]:", false, none⟩],
    [⟨"c", [], [⟨"to", none, [], true, none⟩], [], false, none⟩], false, none⟩]

/-- A tree with one name changed, which is spelled the same in the names of functions. -/
def respelled : List Command :=
  [⟨"a_b", "it's [a]: b\\\n  )", [⟨"key.file", 'k', "]:", false, none⟩],
    [⟨"c", [], [⟨"to", none, [], true, none⟩], [], false, none⟩], false, none⟩]

theorem generate_padded :
    (AllNamed padded ∧ AllNamed unpadded ∧ AllNamed respelled) ∧
      Target.default.generate padded = Target.default.generate unpadded ∧
      Target.default.generate respelled ≠ Target.default.generate unpadded := by
  have named : AllNamed padded := by decide
  have namedUnpadded : AllNamed unpadded := by decide
  have namedRespelled : AllNamed respelled := by decide
  refine ⟨⟨named, namedUnpadded, namedRespelled⟩, ?_, fun same => ?_⟩
  · exact (generate_eq_iff Target.default named namedUnpadded).mpr rfl
  · have trees := (generate_eq_iff Target.default namedRespelled namedUnpadded).mp same
    have names := congrArg (List.map Command.name) trees
    exact absurd names (by decide)

end TabCompletion.Zsh
