import TabCompletion.CommandLine.Arguments
import TabCompletion.Console

namespace TabCompletion.CommandLine

/-- What the command line asks for. The shell of an operation is the one named, if any;
a help page also answers a command line that says nothing, then with an exit code of its own. -/
inductive Request where
  | help (exitCode : Int)
  | version
  | misuse
  | settings (verbosity : Verbosity)
  | generate (verbosity : Verbosity) (shell : Option Text)
  | install (verbosity : Verbosity) (shell : Option Text) (detailed : Bool)
  | uninstall (verbosity : Verbosity) (shell : Option Text) (confirmed : Bool)
  | candidates (verbosity : Verbosity) (category : Text)
deriving DecidableEq, Repr

def helpOption : OptionSpec := { long := "--help" }

def rootOptions : List OptionSpec :=
  [{ long := "--version" }, { long := "--no-color" }, { long := "--quiet", letter := 'q' },
    { long := "--verbose", letter := 'v' }, helpOption]

def shellOption : OptionSpec := { long := "--shell", takesValue := true }

namespace Request

/-- Help and the version are answered before all else, the one asked for first. -/
def early? (parsed : Parsed) : Option Request :=
  parsed.options.findSome? fun given =>
    if given.long = ("--help" : Text) then some (help 0)
    else if given.long = ("--version" : Text) then some version
    else none

/-- The request of a command without subcommands. -/
def ofLeaf (specs : List OptionSpec) (request : Parsed → Request) (arguments : List Text) : Request :=
  match parse? (helpOption :: specs) true arguments with
  | none => misuse
  | some parsed => (early? parsed).getD (request parsed)

/-- The request of a command with subcommands. A word that is no subcommand is read once
more as an option, which two dashes before it may have hidden. -/
def ofGroup (specs : List OptionSpec) (request : Parsed → Text → List Text → Option Request)
    (arguments : List Text) : Request :=
  if arguments.isEmpty then help 2
  else
    match parse? specs false arguments with
    | none => misuse
    | some parsed =>
      match early? parsed, parsed.arguments with
      | some request, _ => request
      | none, [] => misuse
      | none, name :: rest =>
        match request parsed name rest with
        | some request => request
        | none => ((parse? specs false (name :: rest)).bind early?).getD misuse

/-- An operation on at most one shell, which an option or an argument names. -/
def onShell (request : Option Text → Request) (parsed : Parsed) : Request :=
  let option := (parsed.value? shellOption.long).filter (!·.isEmpty)
  match parsed.arguments with
  | [] => request option
  | [argument] => request (option.or (some argument))
  | _ => misuse

def ofCompletion (verbosity : Verbosity) : List Text → Request :=
  ofGroup [helpOption] fun _ name rest =>
    if name = ("generate" : Text) then
      some (ofLeaf [shellOption] (onShell (generate verbosity)) rest)
    else if name = ("install" : Text) then
      some (ofLeaf [shellOption, { long := "--verbose" }]
        (fun parsed => onShell (fun shell => install verbosity shell (parsed.has "--verbose")) parsed)
        rest)
    else if name = ("uninstall" : Text) then
      some (ofLeaf [shellOption, { long := "--yes", letter := 'y' }]
        (fun parsed => onShell (fun shell => uninstall verbosity shell (parsed.has "--yes")) parsed)
        rest)
    else none

def ofSettings (verbosity : Verbosity) : List Text → Request :=
  ofLeaf [] fun parsed => if parsed.arguments.isEmpty then settings verbosity else misuse

def ofCandidates (verbosity : Verbosity) : List Text → Request :=
  ofLeaf [{ long := "--type", takesValue := true }] fun parsed =>
    match parsed.value? "--type", parsed.arguments with
    | some category, [] => candidates verbosity category
    | _, _ => misuse

def verbosityOf (parsed : Parsed) : Verbosity where
  noColor := parsed.has "--no-color"
  quiet := parsed.has "--quiet"
  verbose := parsed.has "--verbose"

/-- The request that the arguments of the program make. -/
def ofArguments : List Text → Request :=
  ofGroup rootOptions fun parsed name rest =>
    if name = ("completion" : Text) then some (ofCompletion (verbosityOf parsed) rest)
    else if name = ("config" : Text) then some (ofSettings (verbosityOf parsed) rest)
    else if name = ("__complete" : Text) then some (ofCandidates (verbosityOf parsed) rest)
    else none

end Request

end TabCompletion.CommandLine
