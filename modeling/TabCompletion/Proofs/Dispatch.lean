import Mathlib.Data.List.Nodup
import TabCompletion.Command.Catalog
import TabCompletion.Proofs.ScriptFunctions

namespace TabCompletion.Zsh

/-- What the first case for a word goes on with. -/
def ShellFunction.next? (function : ShellFunction) (word : Text) : Option Text :=
  (function.branches.find? (·.1 = word)).map Prod.snd

/-- What a name stands for once all functions are defined: a later definition takes the place of an
earlier one. -/
def functionNamed? (functions : List ShellFunction) (name : Text) : Option ShellFunction :=
  functions.reverse.find? (·.name = name)

/-- The function that a call ends in, with the words that no case took. A call of a name that
stands for no function ends nowhere. -/
def call (functions : List ShellFunction) (name : Text) : List Text → Option (ShellFunction × List Text)
  | [] => (functionNamed? functions name).map fun function => (function, [])
  | word :: rest =>
    match functionNamed? functions name with
    | none => none
    | some function =>
      match function.next? word with
      | none => some (function, word :: rest)
      | some next => call functions next rest

section Call

variable {functions : List ShellFunction} {function : ShellFunction} {name word next : Text}

theorem functionNamed?_name (distinct : (functions.map ShellFunction.name).Nodup) (member : function ∈ functions) :
    functionNamed? functions function.name = some function := by
  cases found : functionNamed? functions function.name with
  | none =>
    have never := List.find?_eq_none.mp found function (List.mem_reverse.mpr member)
    simp at never
  | some other =>
    have same : other.name = function.name := by simpa using List.find?_some found
    have defined := List.mem_reverse.mp (List.mem_of_find?_eq_some found)
    rw [List.inj_on_of_nodup_map distinct defined member same]

/-- A call goes on with the function that a case names. -/
theorem call_cons (known : functionNamed? functions name = some function)
    (taken : function.next? word = some next) (rest : List Text) :
    call functions name (word :: rest) = call functions next rest := by
  simp only [call, known, taken]

/-- A call ends where the next word has no case. -/
theorem call_untaken {words : List Text} (known : functionNamed? functions name = some function)
    (untaken : ∀ word ∈ words.head?, function.next? word = none) :
    call functions name words = some (function, words) := by
  cases words with
  | nil => simp only [call, known, Option.map_some]
  | cons word rest => simp only [call, known, untaken word rfl]

end Call

namespace Target

variable {target : Target} {commands : List Command}

/-- A function goes on with the functions of some commands below a path, each by the command's own
name. -/
theorem next?_branches {function : ShellFunction} {path : List Text} (children : List Command)
    (branches : function.branches =
      children.map fun child => (child.name, target.routineName (path ++ [child.name]))) (word : Text) :
    function.next? word =
      if word ∈ children.map Command.name then some (target.routineName (path ++ [word])) else none := by
  rw [ShellFunction.next?, branches]
  clear branches
  induction children with
  | nil => rfl
  | cons child rest ih =>
    by_cases here : child.name = word
    · subst here
      simp
    · simpa [here, Ne.symm here] using ih

theorem shellFunction_mem {path : List Text} {node : Command} (leads : Command.Leads commands path node) :
    target.shellFunction path node ∈ target.shellScript commands := by
  refine List.mem_cons_of_mem _ (List.mem_append_left _ ?_)
  exact List.mem_map.mpr ⟨(path, node), Command.mem_nodesBelow_iff.mpr leads, rfl⟩

theorem map_name_shellScript (commands : List Command) :
    (target.shellScript commands).map ShellFunction.name = (target.compile commands).functionNames := by
  rw [functionNames_compile, shellScript, List.map_cons, List.map_append, List.map_map, List.map_map]
  rfl

/-- Names that lead to a node lead from the function above it to the node's own. -/
theorem call_leads {functions : List ShellFunction} {above path : List Text} {node : Command}
    {function : ShellFunction} (distinct : (functions.map ShellFunction.name).Nodup)
    (known : functionNamed? functions (target.routineName above) = some function)
    (branches : function.branches =
      commands.map fun child => (child.name, target.routineName (above ++ [child.name])))
    (defined : ∀ names other, Command.Leads commands names other →
      target.shellFunction (above ++ names) other ∈ functions)
    (leads : Command.Leads commands path node) (words : List Text) :
    call functions (target.routineName above) (path ++ words) =
      call functions (target.routineName (above ++ path)) words := by
  induction leads generalizing above function with
  | @here commands command member =>
    refine call_cons known ?_ words
    rw [next?_branches commands branches, if_pos (List.mem_map_of_mem member)]
  | @through commands command node path member onward ih =>
    have taken : function.next? command.name = some (target.routineName (above ++ [command.name])) := by
      rw [next?_branches commands branches, if_pos (List.mem_map_of_mem member)]
    have here := defined [command.name] command (.here member)
    have later := ih (functionNamed?_name distinct here) rfl (by
      intro names other onward
      rw [List.append_assoc]
      exact defined _ other (.through member onward))
    rw [List.cons_append, call_cons known taken, later, List.append_assoc, List.singleton_append]

/-- A shell that has read the script of a tree, and has a function for every name, goes where the tree
says. Names that lead to a node end in the function of that very node, with its entries, its arguments
and its cases, and so do further words of which the first is the name of no child; at the root too no
case is taken for such words. A script is read as long as no command is named by the word that ends
cases: the word stands there without quotes. -/
theorem call_generate (cli : Bare target.cli) (bare : BareNames commands) :
    ((∃ path node, Command.Leads commands path node ∧ node.name = caseEnd) →
      shellFunctions (target.generate commands) = none) ∧
    ((∀ path node, Command.Leads commands path node → node.name ≠ caseEnd) →
      ∃ functions, shellFunctions (target.generate commands) = some functions ∧
        ((functions.map ShellFunction.name).Nodup →
          (∀ path node words, Command.Leads commands path node →
            (∀ word ∈ words.head?, word ∉ node.subcommands.map Command.name) →
              call functions (target.routineName []) (path ++ words) =
                some (target.shellFunction path node, words)) ∧
          ∀ words, (∀ word ∈ words.head?, word ∉ commands.map Command.name) →
            call functions (target.routineName []) words = some (target.shellRoot commands, words))) := by
  constructor
  · rintro ⟨path, node, leads, ends⟩
    exact shellFunctions_eq_none cli bare leads ends
  · intro apart
    refine ⟨_, shellFunctions_generate cli bare apart, fun distinct => ?_⟩
    have root : functionNamed? (target.shellScript commands) (target.routineName []) =
        some (target.shellRoot commands) := functionNamed?_name distinct List.mem_cons_self
    constructor
    · intro path node words leads childless
      have reached := call_leads distinct root rfl (fun names other => shellFunction_mem) leads words
      have known := functionNamed?_name distinct (target.shellFunction_mem leads)
      refine reached.trans (call_untaken known fun word first => ?_)
      rw [next?_branches node.subcommands rfl, if_neg (childless word first)]
    · intro words unknown
      have branches : (target.shellRoot commands).branches =
          commands.map fun child => (child.name, target.routineName ([] ++ [child.name])) := rfl
      refine call_untaken root fun word first => ?_
      rw [next?_branches commands branches, if_neg (unknown word first)]

/-- Two words lead into the tree that the installed script completes, and a third one that names no
command stays. -/
theorem call_generate_show :
    ∃ functions node, shellFunctions (Target.default.generate Catalog.commands) = some functions ∧
      node.name = "show".toList ∧
      call functions "_spectest" ["change".toList, "show".toList, "add-login".toList] =
        some (Target.default.shellFunction ["change".toList, "show".toList] node, ["add-login".toList]) := by
  have cli : Bare Target.default.cli := by decide +kernel
  have bare : BareNames Catalog.commands := by decide +kernel
  have apart : ∀ node ∈ Command.nodesBelow [] Catalog.commands, node.2.name ≠ caseEnd := by decide +kernel
  have distinct : (Target.default.compile Catalog.commands).functionNames.Nodup := by
    rw [functionNames_compile]
    decide +kernel
  have leads : Command.Leads Catalog.commands ["change".toList, "show".toList] _ :=
    .through (List.mem_of_getElem? (rfl : Catalog.commands[4]? = some _))
      (.here (List.mem_of_getElem? (rfl : Catalog.changeCommands[0]? = some _)))
  obtain ⟨functions, read, calls⟩ := (call_generate cli bare).2 (Command.forall_leads_iff.mpr apart)
  obtain rfl := Option.some.inj (read.symm.trans
    (shellFunctions_generate cli bare (Command.forall_leads_iff.mpr apart)))
  rw [map_name_shellScript] at calls
  exact ⟨_, _, read, rfl, (calls distinct).1 _ _ ["add-login".toList] leads fun _ _ => List.not_mem_nil⟩

/-- A command named by four letters whose script no shell reads, although all functions of the script
have names of their own. -/
theorem call_generate_unread :
    let commands := [Catalog.leaf "esac" [] []]
    (∀ path node, Command.Leads commands path node → node.name ≠ [] ∧ node.name.all Char.isAlpha = true) ∧
      (Target.default.compile commands).functionNames.Nodup ∧
      shellFunctions (Target.default.generate commands) = none := by
  intro commands
  have letters : ∀ node ∈ Command.nodesBelow [] commands,
      node.2.name ≠ [] ∧ node.2.name.all Char.isAlpha = true := by decide +kernel
  refine ⟨Command.forall_leads_iff.mpr letters, ?_, ?_⟩
  · rw [functionNames_compile]
    decide +kernel
  · exact shellFunctions_eq_none (by decide +kernel) (by decide +kernel) (.here List.mem_cons_self) rfl

end Target

end TabCompletion.Zsh
