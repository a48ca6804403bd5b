import TabCompletion.Zsh.Script

namespace TabCompletion.Zsh

/-- The dispatcher to some commands, each by the function of its path. -/
def Target.dispatcher (target : Target) (path : List Text) (array state label : Text)
    (flags : List Flag) (commands : List Command) : Dispatcher where
  array := array
  state := state
  label := label
  entries := commands.map menuEntry
  specs := flags.map flagSpec
  choices := commands.map fun command => ⟨command.name, target.routineName (path ++ [command.name])⟩

/-- The specs of a command without subcommands. -/
def Target.leafSpecs (target : Target) (command : Command) : List Text :=
  command.flags.map flagSpec ++
    if command.acceptsPositional then [positionalSpec target command.positional] else []

/-- The function of the command at a path. -/
def Target.routine (target : Target) (path : List Text) (command : Command) : Routine where
  name := target.routineName path
  body :=
    if command.isDispatch then
      .dispatcher (target.dispatcher path "subcommands" "subcommand" "subcommand" command.flags
        command.subcommands)
    else .leaf (target.leafSpecs command)

/-- The commands with their paths, for commands right below a path. -/
def below (path : List Text) (commands : List Command) : List (List Text × Command) :=
  commands.map fun command => (path ++ [command.name], command)

def pendingSize (pending : List (List Text × Command)) : Nat :=
  Command.sizes (pending.map Prod.snd)

/-- The functions of pending commands and of all commands below them. The subcommands of
a command come right after it. -/
def Target.routines (target : Target) : List (List Text × Command) → List Routine
  | [] => []
  | (path, command) :: rest =>
    target.routine path command :: routines target (below path command.subcommands ++ rest)
termination_by pending => pendingSize pending
decreasing_by
  simp [pendingSize, below, Command.sizes, Command.sizes_append, Command.size_eq, Function.comp_def]

def Target.rootRoutine (target : Target) (commands : List Command) : Routine where
  name := target.routineName []
  body := .dispatcher
    (target.dispatcher [] "commands" "command" (target.cli ++ " command") [] commands)

/-- The script that completes a tree of commands. -/
def Target.compile (target : Target) (commands : List Command) : Script where
  cli := target.cli
  root := target.rootRoutine commands
  routines := target.routines (below [] commands)
  helpers := Lookup.all.map fun list => ⟨target.helperName list.plural, list⟩

def Target.generate (target : Target) (commands : List Command) : Text :=
  (target.compile commands).text

end TabCompletion.Zsh
