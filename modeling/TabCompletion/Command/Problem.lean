import TabCompletion.Command.Basic
import TabCompletion.Command.Name

namespace TabCompletion

/-- What is wrong with a command tree: the sanitised names of two siblings meet, or a
command both dispatches and takes trailing values. Commands are told by their paths. -/
inductive Problem where
  | collision (path first : List Text) (key : Text)
  | ambiguous (path : List Text)
deriving DecidableEq, Repr

namespace Problem

def pathText (path : List Text) : Text :=
  Text.join " " path

def message : Problem → Text
  | .collision path first key =>
    "'" ++ pathText path ++ "' collides with '" ++ pathText first ++ "' after sanitizing to '" ++
      key ++ "'"
  | .ambiguous path =>
    "'" ++ pathText path ++ "' declares both subcommands and positional completion"

/-- The problems of siblings below a path, with the first path of each sanitised name
among the siblings before them. -/
def ofSiblings (path : List Text) (seen : List (Text × List Text)) :
    List Command → List Problem
  | [] => []
  | command :: rest =>
    let full := path ++ [command.name]
    let key := sanitize command.name
    let clash := seen.lookup key
    (match clash with
      | some first => [.collision full first key]
      | none => []) ++
    (if command.isDispatch && command.acceptsPositional then [.ambiguous full] else []) ++
    ofSiblings path (if clash.isSome then seen else seen ++ [(key, full)]) rest

/-- The groups of siblings right below siblings, the last one first. -/
def groupsBelow (path : List Text) (siblings : List Command) : List (List Text × List Command) :=
  (siblings.map fun command => (path ++ [command.name], command.subcommands)).reverse

/-- Bounds the groups that are still to come out of these, with each command counted
as one that is seen and one whose group is. -/
def pending : List (List Text × List Command) → Nat
  | [] => 0
  | group :: rest => 1 + 2 * Command.sizes group.2 + pending rest

theorem pending_append (first second : List (List Text × List Command)) :
    pending (first ++ second) = pending first + pending second := by
  induction first with
  | nil => simp [pending]
  | cons group rest ih => simp [pending, ih, Nat.add_assoc]

theorem pending_groupsBelow_le (path : List Text) (siblings : List Command) :
    pending (groupsBelow path siblings) ≤ 2 * Command.sizes siblings := by
  induction siblings with
  | nil => simp [groupsBelow, pending]
  | cons command rest ih =>
    have split : groupsBelow path (command :: rest) =
        groupsBelow path rest ++ [(path ++ [command.name], command.subcommands)] := by
      simp [groupsBelow]
    simp only [split, pending_append, pending, Command.sizes, Command.size_eq]
    omega

/-- The problems of groups of siblings and of all groups below them; the groups below
one come right after it. -/
def ofGroups : List (List Text × List Command) → List Problem
  | [] => []
  | (path, siblings) :: rest =>
    ofSiblings path [] siblings ++ ofGroups (groupsBelow path siblings ++ rest)
termination_by groups => pending groups
decreasing_by
  rw [pending_append]
  have := pending_groupsBelow_le path siblings
  simp only [pending]
  omega

/-- Every problem of a command tree. -/
def ofTree (commands : List Command) : List Problem :=
  ofGroups [([], commands)]

end Problem

end TabCompletion
