import TabCompletion.Command.Basic
import TabCompletion.Command.Name
import TabCompletion.Product
import TabCompletion.Zsh.Escape

namespace TabCompletion.Zsh

/-- What a script is compiled for: the command it completes, and the shells it offers
where a shell is to be named. -/
structure Target where
  cli : Text
  shells : List Text

def Target.default : Target := ⟨Product.name, ["zsh"]⟩

/-- The name of the shell function that completes the command at a path. -/
def Target.routineName (target : Target) (path : List Text) : Text :=
  '_' :: Text.join "_" ((target.cli :: path).map sanitize)

/-- The lists of identifiers that a script asks the command for while the user types. -/
inductive Lookup where
  | changes
  | specs
  | items
deriving DecidableEq, Repr

namespace Lookup

def all : List Lookup := [changes, specs, items]

/-- The word for the list in function and variable names. -/
def plural : Lookup → Text
  | .changes => "changes"
  | .specs => "specs"
  | .items => "items"

/-- The word for one member, as the menu shows it. -/
def singular : Lookup → Text
  | .changes => "change"
  | .specs => "spec"
  | .items => "item"

/-- The categories that the list is put together from. -/
def categories : Lookup → List Text
  | .changes => ["changes"]
  | .specs => ["specs"]
  | .items => ["changes", "specs"]

end Lookup

def Target.helperName (target : Target) (suffix : Text) : Text :=
  '_' :: sanitize target.cli ++ "_complete_" ++ suffix

/-- The identifiers that a kind of trailing value is looked up among, if it is. -/
def lookup? : Positional → Option Lookup
  | .changeId => some .changes
  | .specId => some .specs
  | .changeOrSpecId => some .items
  | .path | .shell => none

/-- What stands for the values of an option after its description. An option without
candidates takes any value. -/
def valuePart (flag : Flag) : Text :=
  if flag.takesValue then
    match flag.values with
    | none | some [] => ":value:"
    | some values => ":value:(" ++ Text.join " " (values.map escapeValue) ++ ")"
  else []

/-- The word that declares an option. With a short alias each of the two names excludes
the other. -/
def flagSpec (flag : Flag) : Text :=
  let body : Text := "[" ++ escapeDescription flag.description ++ "]" ++ valuePart flag
  match flag.short with
  | some short =>
    quote ("(-" ++ [short] ++ " --" ++ flag.name ++ ")") ++
      "\x7b-" ++ [short] ++ ",--" ++ flag.name ++ "\x7d" ++ quote body
  | none => quote ("--" ++ flag.name ++ body)

/-- The word that declares the trailing values of a command. -/
def positionalSpec (target : Target) (kind : Option Positional) : Text :=
  match kind with
  | none => quote "*: :_default"
  | some kind =>
    match lookup? kind with
    | some list => quote ("*: :" ++ target.helperName list.plural)
    | none =>
      if kind = .path then quote "*:path:_files"
      else quote ("*:shell:(" ++ Text.join " " (target.shells.map escapeValue) ++ ")")

/-- The word that a menu shows for a command: its name and its description. -/
def menuEntry (command : Command) : Text :=
  quote (escapeDescription command.name ++ ":" ++ escapeDescription command.description)

end TabCompletion.Zsh
