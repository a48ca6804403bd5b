import TabCompletion.Command.Catalog
import TabCompletion.Proofs.ScriptFunctions
import TabCompletion.Proofs.ScriptLayout
import TabCompletion.Proofs.SpecReading

namespace TabCompletion.Zsh

/-- Every node stands right below the top or below exactly one other node. -/
theorem nodesBelow_perm (path : List Text) (commands : List Command) :
    (Command.nodesBelow path commands).Perm
      (below path commands ++
        (Command.nodesBelow path commands).flatMap fun node => below node.1 node.2.subcommands) := by
  match commands with
  | [] => exact .nil
  | command :: rest =>
    have inside := nodesBelow_perm (path ++ [command.name]) command.subcommands
    have beside := nodesBelow_perm path rest
    have first : below path (command :: rest) = (path ++ [command.name], command) :: below path rest := rfl
    rw [Command.nodesBelow, Command.nodesAt_eq, first, List.cons_append, List.cons_append,
      List.flatMap_cons, List.flatMap_append]
    refine .cons _ ((inside.append beside).trans ?_)
    -- The commands beside stand before those inside among the nodes right below.
    rw [← List.append_assoc, ← List.append_assoc, ← List.append_assoc]
    refine .append_right _ ?_
    rw [List.append_assoc (below path rest)]
    exact List.perm_append_comm
termination_by Command.sizes commands
decreasing_by
  · rw [Command.sizes, Command.size_eq]
    omega
  · rw [Command.sizes, Command.size_eq]
    omega

namespace Target

variable (target : Target)

/-- A script has one case for every node. -/
theorem branches_perm (commands : List Command) :
    (target.branches [] commands ++ (Command.nodesBelow [] commands).flatMap fun node =>
        target.branches node.1 node.2.subcommands).Perm
      ((Command.nodesBelow [] commands).map fun node => (node.2.name, target.routineName node.1)) := by
  have each (path : List Text) (children : List Command) :
      (below path children).map (fun node => (node.2.name, target.routineName node.1)) =
        target.branches path children := by
    rw [below, List.map_map]
    rfl
  have every := (nodesBelow_perm [] commands).map fun node => (node.2.name, target.routineName node.1)
  rw [List.map_append, List.map_flatMap] at every
  simp only [each] at every
  exact every.symm

/-- The word of trailing values has them completed by a function. -/
def Calls (kind : Option Positional) (function : Text) : Prop :=
  ∃ text label, unquote (positionalSpec target kind) = some text ∧
    PositionalReading.Reads ⟨label, .call function⟩ text

/-- What a spec names is the helper of a list of identifiers, or a function of the completion
system itself. -/
theorem Calls.cases {target : Target} {kind : Option Positional} {function : Text}
    (calls : target.Calls kind function) :
    (∃ list, kind.bind lookup? = some list ∧ function = target.helperName list.plural) ∨
      kind.bind lookup? = none ∧ function ∈ ["_default".toList, "_files".toList] := by
  obtain ⟨text, label, word, reads⟩ := calls
  obtain ⟨other, reading, otherWord, otherReads, tells⟩ :=
    PositionalReading.exists_positionalSpec target kind
  obtain rfl := Option.some.inj (word.symm.trans otherWord)
  obtain rfl := reads.unique otherReads
  have named {label function label' function' : Text}
      (same : PositionalReading.mk label (.call function) = ⟨label', .call function'⟩) :
      function = function' := by
    cases same
    rfl
  cases kind with
  | none => exact Or.inr ⟨rfl, by simp [named tells]⟩
  | some kind =>
    cases kind with
    | changeId => exact Or.inl ⟨.changes, rfl, named tells⟩
    | specId => exact Or.inl ⟨.specs, rfl, named tells⟩
    | changeOrSpecId => exact Or.inl ⟨.items, rfl, named tells⟩
    | path => exact Or.inr ⟨rfl, by simp [named tells]⟩
    | shell =>
      obtain ⟨list, same, -⟩ := tells
      cases same

theorem calls_helper {kind : Option Positional} {list : Lookup} (looked : kind.bind lookup? = some list) :
    target.Calls kind (target.helperName list.plural) := by
  obtain ⟨text, reading, word, reads, tells⟩ := PositionalReading.exists_positionalSpec target kind
  obtain ⟨kind, rfl, looked⟩ := Option.bind_eq_some_iff.mp looked
  cases kind <;> cases looked <;> cases tells <;> exact ⟨text, _, word, reads⟩

/-- A script defines all that it refers to. Its text has the function of the root, then those of the
nodes, each before those below it and siblings in their order, and then the helpers; a dispatcher has
a case for each of its own children in their order, and the functions that all cases name are those of
the nodes, each as often as it is defined; what is asked for identifiers is one of the helpers; and
every function is named with letters, digits and underscores alone. A shell that can read the script
finds these functions and these cases in it. -/
theorem references_resolve (commands : List Command) :
    let nodes := Command.nodesBelow [] commands
    let names := target.routineName [] :: (nodes.map (fun node => target.routineName node.1) ++
      Lookup.all.map fun list => target.helperName list.plural)
    target.generate commands = (target.parts commands).flatten ∧
    ((target.branches [] commands ++
        nodes.flatMap fun node => target.branches node.1 node.2.subcommands).map Prod.snd).Perm
      (nodes.map fun node => target.routineName node.1) ∧
    ((∀ kind list, kind.bind lookup? = some list → target.Calls kind (target.helperName list.plural)) ∧
      ∀ kind function, target.Calls kind function →
        function ∈ Lookup.all.map (fun list => target.helperName list.plural) ∨
          kind.bind lookup? = none ∧ function ∈ ["_default".toList, "_files".toList]) ∧
    (∀ name ∈ names, ∀ c ∈ name, isNameChar c = true) ∧
    (Bare target.cli → BareNames commands →
      (∀ path node, Command.Leads commands path node → node.name ≠ caseEnd) →
      ∃ functions, shellFunctions (target.generate commands) = some functions ∧
        functions.map ShellFunction.name = names ∧
        functions.map ShellFunction.branches = target.branches [] commands ::
          (nodes.map (fun node => target.branches node.1 node.2.subcommands) ++ Lookup.all.map fun _ => [])) := by
  intro nodes names
  have named : (target.compile commands).functionNames = names := target.functionNames_compile commands
  refine ⟨target.generate_layout commands, ?_, ⟨fun kind list => target.calls_helper, fun kind function calls => ?_⟩,
    fun name member c inside => ?_, fun cli bare apart => ⟨_, shellFunctions_generate cli bare apart, ?_, ?_⟩⟩
  · have functions := (target.branches_perm commands).map Prod.snd
    rw [List.map_map] at functions
    exact functions
  · rcases calls.cases with ⟨list, looked, rfl⟩ | system
    · exact Or.inl (List.mem_map_of_mem list.mem_all)
    · exact Or.inr system
  · rw [← named] at member
    exact isNameChar_functionNames member inside
  · rw [shellScript, List.map_cons, List.map_append, List.map_map, List.map_map]
    rfl
  · rw [shellScript, List.map_cons, List.map_append, List.map_map, List.map_map]
    rfl

/-- The script that is installed goes on from one function of its own to another, and asks a helper of
its own for identifiers. -/
theorem references_resolve_catalog :
    ∃ functions, shellFunctions (Target.default.generate Catalog.commands) = some functions ∧
      "_spectest_change_show".toList ∈ functions.map ShellFunction.name ∧
      "_spectest_complete_items".toList ∈ functions.map ShellFunction.name ∧
      ∃ function ∈ functions, ("show".toList, "_spectest_change_show".toList) ∈ function.branches := by
  have cli : Bare Target.default.cli := by decide +kernel
  have bare : BareNames Catalog.commands := by decide +kernel
  have apart : ∀ node ∈ Command.nodesBelow [] Catalog.commands, node.2.name ≠ caseEnd := by decide +kernel
  obtain ⟨-, -, -, -, reads⟩ := Target.default.references_resolve Catalog.commands
  obtain ⟨functions, read, names, branches⟩ := reads cli bare (Command.forall_leads_iff.mpr apart)
  have leads : Command.Leads Catalog.commands ["change".toList] _ :=
    .here (List.mem_of_getElem? (rfl : Catalog.commands[4]? = some _))
  have member := Command.mem_nodesBelow_iff.mpr leads
  have cases : Target.default.branches ["change"] Catalog.changeCommands ∈
      functions.map ShellFunction.branches := by
    rw [branches]
    exact List.mem_cons_of_mem _ (List.mem_append_left _ (List.mem_map_of_mem member))
  obtain ⟨function, among, same⟩ := List.mem_map.mp cases
  refine ⟨functions, read, ?_, ?_, function, among, ?_⟩
  · rw [names]
    decide +kernel
  · rw [names]
    decide +kernel
  · rw [same]
    decide +kernel

end Target

end TabCompletion.Zsh
