import TabCompletion.Text.Basic

namespace TabCompletion.CommandLine

/-- An option of the command line by its long name, its letter and whether a value
follows it. -/
structure OptionSpec where
  long : Text
  letter : Option Char := none
  takesValue : Bool := false
deriving DecidableEq, Repr

/-- An option as it was given, by its long name. -/
structure Given where
  long : Text
  value : Text
deriving DecidableEq, Repr

/-- The options in the order given, and the arguments that are none. -/
structure Parsed where
  options : List Given := []
  arguments : List Text := []
deriving DecidableEq, Repr

namespace Parsed

def withOption (long value : Text) (parsed : Parsed) : Parsed :=
  { parsed with options := ⟨long, value⟩ :: parsed.options }

def withArgument (argument : Text) (parsed : Parsed) : Parsed :=
  { parsed with arguments := argument :: parsed.arguments }

def has (parsed : Parsed) (long : Text) : Bool :=
  parsed.options.any (·.long = long)

/-- The value of an option; the last one given counts. -/
def value? (parsed : Parsed) (long : Text) : Option Text :=
  (parsed.options.reverse.find? (·.long = long)).map (·.value)

end Parsed

/-- Whether an argument looks like an option. A dash alone does not. -/
def isOption : Text → Bool
  | '-' :: _ :: _ => true
  | _ => false

/-- The long name of an option and the value after an equals sign, if there is one. -/
def splitValue (argument : Text) : Text × Option Text :=
  let name := argument.takeWhile (· != '=')
  match argument.drop name.length with
  | [] => (name, none)
  | _ :: value => (name, some value)

/-- The long names behind a cluster of letters, none of which takes a value. -/
def letters? (specs : List OptionSpec) : Text → Option (List Text)
  | [] => some []
  | letter :: rest => do
    let spec ← specs.find? (·.letter = some letter)
    let others ← letters? specs rest
    some (spec.long :: others)

/-- The options and the arguments of a command, or nothing when they break its rules.
Two dashes end the options. The first argument does so too unless options and arguments
may mingle. An option that takes a value takes what follows, whatever that looks like. -/
def parse? (specs : List OptionSpec) (mingled : Bool) : List Text → Option Parsed
  | [] => some {}
  | argument :: rest =>
    if argument = ['-', '-'] then some { arguments := rest }
    else if isOption argument then
      let (name, value) := splitValue argument
      match specs.find? (·.long = name) with
      | some spec =>
        if spec.takesValue then
          match value, rest with
          | some value, rest => (parse? specs mingled rest).map (Parsed.withOption name value)
          | none, value :: rest => (parse? specs mingled rest).map (Parsed.withOption name value)
          | none, [] => none
        else if value.isSome then none
        else (parse? specs mingled rest).map (Parsed.withOption name [])
      | none =>
        if argument.take 2 = ['-', '-'] then none
        else do
          let names ← letters? specs (argument.drop 1)
          let parsed ← parse? specs mingled rest
          some (names.foldr (fun name parsed => parsed.withOption name []) parsed)
    else if mingled then (parse? specs mingled rest).map (Parsed.withArgument argument)
    else some { arguments := argument :: rest }

end TabCompletion.CommandLine
