import TabCompletion.Block.Basic
import TabCompletion.Environment
import TabCompletion.FileSystem.Disk
import TabCompletion.Product
import TabCompletion.Settings.Basic
import TabCompletion.Zsh.Escape

namespace TabCompletion

/-- An installation is decided by the home directory, the environment and the settings. -/
structure Installer where
  home : Path
  environment : Environment
  settings : CompletionSettings

namespace Installer

def markers : Markers where
  start := "# >>> " ++ Product.name ++ " completion >>>"
  finish := "# <<< " ++ Product.name ++ " completion <<<"

def scriptName : Text := '_' :: Product.name

def backupName : Text := scriptName ++ "." ++ Product.name ++ "-backup"

/-- A path as the user wrote it: a tilde stands for the home directory, and relative
paths start there too. -/
def expand (installer : Installer) (written : Text) : Path :=
  match written with
  | ['~'] => installer.home
  | '~' :: '/' :: rest => installer.home / rest
  | _ => installer.home.join (Path.ofText written)

/-- The directory for the script as the settings or the environment name it: the setting
wins over the custom directory of Oh My Zsh, and that over its main directory. -/
def namedDir? (installer : Installer) : Option Path :=
  match installer.settings.installDir.filter (!·.isEmpty) with
  | some written => some (installer.expand written)
  | none =>
    match installer.environment.nonempty? "ZSH_CUSTOM" with
    | some written => some (installer.expand written / ("completions" : Text))
    | none =>
      (installer.environment.nonempty? "ZSH").map fun written =>
        installer.expand written / ("custom" : Text) / ("completions" : Text)

/-- The directory for the script. Unless it is named it depends on whether Oh My Zsh
stands in the home directory. -/
def installDir (installer : Installer) (world : World) : Except Fault Path := do
  match installer.namedDir? with
  | some path => pure path
  | none =>
    let framework := installer.home / (".oh-my-zsh" : Text)
    if ← world.isDirectory framework then
      pure (framework / ("custom" : Text) / ("completions" : Text))
    else pure (installer.home / (".zsh" : Text) / ("completions" : Text))

def scriptPath (installer : Installer) (world : World) : Except Fault Path := do
  pure ((← installer.installDir world) / scriptName)

def backupPath (installer : Installer) (world : World) : Except Fault Path := do
  pure ((← installer.installDir world) / backupName)

/-- The file that the shell reads when it starts. -/
def startupFile (installer : Installer) : Path :=
  match installer.environment.nonempty? "ZDOTDIR" with
  | some written => installer.expand written / (".zshrc" : Text)
  | none => installer.home / (".zshrc" : Text)

/-- The lines of the managed block: the directory put on the search path of functions,
and the completion system started. -/
def blockBody (directory : Path) : Text :=
  "fpath=(" ++ Zsh.quote directory.text ++ " $fpath)\nautoload -Uz compinit && compinit"

def restartHint : Text := "Restart your shell or run: exec zsh"

/-- What to tell a user who has to edit the startup file by hand. -/
def manualInstructions (startup directory : Path) : List Text :=
  let heading : Text := "To enable completions, add the following to " ++ startup.text ++ ":"
  let closing : Text := "Then: restart your shell or run: exec zsh"
  [heading, []] ++ (blockBody directory).lines.map (fun line => "  ".toList ++ line) ++ [[], closing]

end Installer

end TabCompletion
