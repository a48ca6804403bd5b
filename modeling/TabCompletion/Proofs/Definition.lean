import TabCompletion.Proofs.CommandPath
import TabCompletion.Zsh.Compile

namespace TabCompletion.Zsh

/-- A shell function that a script defines. -/
inductive Definition where
  | routine (routine : Routine)
  | helper (helper : Helper)
deriving DecidableEq, Repr

def Definition.name : Definition → Text
  | .routine completing => completing.name
  | .helper listing => listing.name

/-- The shell functions in the order in which the script defines them. -/
def Script.definitions (script : Script) : List Definition :=
  .routine script.root :: (script.routines.map .routine ++ script.helpers.map .helper)

def Script.functionNames (script : Script) : List Text :=
  script.definitions.map Definition.name

/-- The functions of pending commands are those of the nodes below, each command before its
subcommands. -/
theorem Target.routines_eq (target : Target) (pending : List (List Text × Command)) :
    target.routines pending =
      pending.flatMap fun entry =>
        target.routine entry.1 entry.2 ::
          (Command.nodesBelow entry.1 entry.2.subcommands).map (Function.uncurry target.routine) := by
  have level (path : List Text) (commands : List Command) :
      ((below path commands).flatMap fun entry =>
        target.routine entry.1 entry.2 ::
          (Command.nodesBelow entry.1 entry.2.subcommands).map (Function.uncurry target.routine)) =
        (Command.nodesBelow path commands).map (Function.uncurry target.routine) := by
    rw [Command.nodesBelow_eq_flatMap, below, List.flatMap_map, List.map_flatMap]
    simp only [Command.nodesAt_eq, List.map_cons, Function.uncurry_apply_pair]
  induction pending using Target.routines.induct with
  | case1 => rw [routines, List.flatMap_nil]
  | case2 path command rest ih =>
    rw [routines, ih, List.flatMap_append, level, List.flatMap_cons, List.cons_append]

theorem Target.routines_below (target : Target) (commands : List Command) :
    (target.compile commands).routines =
      (Command.nodesBelow [] commands).map (Function.uncurry target.routine) := by
  change target.routines (below [] commands) = _
  rw [routines_eq, below, List.flatMap_map, Command.nodesBelow_eq_flatMap, List.map_flatMap]
  simp only [Command.nodesAt_eq, List.map_cons, Function.uncurry_apply_pair]

theorem Target.functionNames_compile (target : Target) (commands : List Command) :
    (target.compile commands).functionNames =
      target.routineName [] ::
        ((Command.nodesBelow [] commands).map (fun node => target.routineName node.1) ++
          Lookup.all.map fun list => target.helperName list.plural) := by
  rw [Script.functionNames, Script.definitions, routines_below]
  simp only [List.map_cons, List.map_append, List.map_map]
  rfl

end TabCompletion.Zsh
