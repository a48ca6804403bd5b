import TabCompletion.Text.Basic

namespace TabCompletion

/-- What a command's trailing values are. The three kinds of identifiers are looked up
while the user types; paths and shells the script completes by itself. -/
inductive Positional where
  | changeId
  | specId
  | changeOrSpecId
  | path
  | shell
deriving DecidableEq, Repr

namespace Positional

def all : List Positional := [changeId, specId, changeOrSpecId, path, shell]

def word : Positional → Text
  | .changeId => "change-id"
  | .specId => "spec-id"
  | .changeOrSpecId => "change-or-spec-id"
  | .path => "path"
  | .shell => "shell"

def ofWord? (word : Text) : Option Positional :=
  all.find? (·.word = word)

theorem ofWord?_word (kind : Positional) : ofWord? kind.word = some kind := by
  cases kind <;> decide

end Positional

/-- An option of a command. The candidates matter only when the option takes a value. -/
structure Flag where
  name : Text
  short : Option Char
  description : Text
  takesValue : Bool
  values : Option (List Text)
deriving DecidableEq, Repr

/-- A node of the command tree. One with subcommands dispatches to them, whatever else
it says. -/
structure Command where
  name : Text
  description : Text
  flags : List Flag
  subcommands : List Command
  acceptsPositional : Bool
  positional : Option Positional
deriving Repr

namespace Command

def isDispatch (command : Command) : Bool :=
  !command.subcommands.isEmpty

mutual

/-- The count of nodes of a tree. -/
def size : Command → Nat
  | ⟨_, _, _, subcommands, _, _⟩ => 1 + sizes subcommands

def sizes : List Command → Nat
  | [] => 0
  | command :: rest => size command + sizes rest

end

theorem size_eq (command : Command) : command.size = 1 + sizes command.subcommands := by
  cases command
  rw [size]

theorem sizes_append (first second : List Command) :
    sizes (first ++ second) = sizes first + sizes second := by
  induction first with
  | nil => simp [sizes]
  | cons command rest ih => simp [sizes, ih, Nat.add_assoc]

mutual

/-- Every node below a path with its own path of names, a command before its
subcommands and siblings in their order. -/
def nodesBelow (path : List Text) : List Command → List (List Text × Command)
  | [] => []
  | command :: rest => nodesAt path command ++ nodesBelow path rest

def nodesAt (path : List Text) : Command → List (List Text × Command)
  | ⟨name, description, flags, subcommands, acceptsPositional, positional⟩ =>
    (path ++ [name], ⟨name, description, flags, subcommands, acceptsPositional, positional⟩) ::
      nodesBelow (path ++ [name]) subcommands

end

end Command

end TabCompletion
