import TabCompletion.Json.Reader
import TabCompletion.Path
import TabCompletion.Schema.Issue
import TabCompletion.Settings.Basic
import TabCompletion.Text.Utf8

namespace TabCompletion

/-- Why the settings file cannot be used. -/
inductive SettingsFault where
  | undecodable (fault : Utf8.Fault)
  | malformed (text : Text) (fault : Json.Fault)
  | invalid (issues : List Issue)
deriving Repr

def SettingsFault.message : SettingsFault → Text
  | undecodable fault => fault.message
  | malformed text fault => fault.message text
  | invalid issues => Issue.report Settings.record issues

/-- The kinds of failures that the program reports, each with an exit code. -/
inductive FailureKind where
  | general
  | invalidUsage
  | unsupportedShell
  | undetectedShell
  | installation
  | missingMarker
  | settings
deriving DecidableEq, Repr

namespace FailureKind

/-- The kind that a kind is a special case of. -/
def parent? : FailureKind → Option FailureKind
  | general => none
  | unsupportedShell | undetectedShell => some invalidUsage
  | invalidUsage | installation | missingMarker | settings => some general

/-- A kind and the kinds above it, up to the general one. -/
def lineage (kind : FailureKind) : List FailureKind :=
  match kind.parent? with
  | none => [kind]
  | some parent => if parent = general then [kind, general] else [kind, parent, general]

def exitCode : FailureKind → Int
  | general | settings => 1
  | invalidUsage | unsupportedShell | undetectedShell => 2
  | installation => 5
  | missingMarker => 6

end FailureKind

/-- A failure that the program reports in its own words. -/
inductive Failure where
  | stated (kind : FailureKind) (message : Text)
  | unsupportedShell (shell : Text) (supported : List Text)
  | missingMarker (path : Option Path) (marker : Text)
  | invalidSettings (path : Path) (fault : SettingsFault)
deriving Repr

namespace Failure

def kind : Failure → FailureKind
  | stated kind _ => kind
  | unsupportedShell .. => .unsupportedShell
  | missingMarker .. => .missingMarker
  | invalidSettings .. => .settings

def message : Failure → Text
  | stated _ message => message
  | unsupportedShell shell supported =>
    "Shell '" ++ shell ++ "' is not supported yet. Currently supported: " ++ Text.join ", " supported
  | missingMarker path marker =>
    let place : Text :=
      match path with
      | some path => " in " ++ path.text
      | none => []
    "Missing spectest marker" ++ place ++ ": " ++ marker.quoted
  | invalidSettings path fault => "Invalid global config at " ++ path.text ++ ": " ++ fault.message

def exitCode (failure : Failure) : Int :=
  failure.kind.exitCode

end Failure

end TabCompletion
