import TabCompletion.Failure
import TabCompletion.Installer.Layout
import TabCompletion.Zsh.Spec

namespace TabCompletion.Factory

/-- What is made for a shell: scripts for it, which offer some shells where one is to be named,
and installations of them for a user. -/
structure Maker where
  target : List Text → Zsh.Target
  installer : Path → Environment → CompletionSettings → Installer

def zsh : Maker where
  target shells := { Zsh.Target.default with shells := shells }
  installer := Installer.mk

/-- The shells that something can be made for. -/
def makers : List (Text × Maker) := [("zsh", zsh)]

def supportedShells : List Text := makers.map Prod.fst

def isSupported (shell : Text) : Bool := (makers.lookup shell).isSome

def unsupported (shell : Text) : Fault :=
  .failure (.unsupportedShell shell supportedShells)

def lookup (shell : Text) : Except Fault Maker :=
  match makers.lookup shell with
  | some maker => .ok maker
  | none => .error (unsupported shell)

def createGenerator (shell : Text) : Except Fault Zsh.Target :=
  (lookup shell).map fun maker => maker.target supportedShells

def createInstaller (shell : Text) (home : Path) (environment : Environment)
    (settings : CompletionSettings) : Except Fault Installer :=
  (lookup shell).map fun maker => maker.installer home environment settings

end TabCompletion.Factory
