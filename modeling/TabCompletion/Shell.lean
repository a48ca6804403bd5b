import TabCompletion.Environment
import TabCompletion.Outcome
import TabCompletion.Path
import TabCompletion.Text.Blank
import TabCompletion.Text.LowerCase

namespace TabCompletion.Shell

/-- The shells that are told from their versions. -/
def known : List Text :=
  ["zsh", "bash", "fish", "powershell", "pwsh", "tcsh", "csh", "ksh", "sh", "nu"]

/-- A shell's name in its usual form; a blank one is no name. -/
def normalize (name : Text) : Option Text :=
  let normal := name.trim.lowerCase
  if normal.isEmpty then none else some normal

/-- A program's name without the ending that executables have on some systems. -/
def withoutExe (program : Text) : Text :=
  if List.isSuffixOf ".exe".toList program then program.take (program.length - 4) else program

/-- A program is a known shell by that name alone or with a dash and a version after it. -/
def isVersionOf (program shell : Text) : Bool :=
  program = shell || (shell ++ ['-']).isPrefixOf program

/-- The name of the shell whose program has that path. -/
def ofProgramPath (path : Text) : Option Text :=
  let program := withoutExe (Path.ofText path.trim).name.lowerCase
  if program.isEmpty then none
  else some ((known.find? (isVersionOf program)).getD program)

/-- The shell that the environment tells of. The variable of PowerShell counts only when
there is no shell program. -/
def detected (environment : Environment) : Option Text :=
  match environment.nonempty? "SHELL" with
  | some path => ofProgramPath path
  | none => (environment.nonempty? "PSModulePath").map fun _ => "powershell"

def detect (supported : List Text) (environment : Environment) : Detection :=
  let shell := detected environment
  ⟨shell.filter supported.contains, shell⟩

end TabCompletion.Shell
