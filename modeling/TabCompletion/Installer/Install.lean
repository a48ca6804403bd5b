import TabCompletion.Block.Update
import TabCompletion.Installer.Layout
import TabCompletion.Installer.Recognition
import TabCompletion.Outcome

namespace TabCompletion.Installer

/-- Aside from the script a foreign file is copied before it is replaced, unless the copy is cut
short; the copy's path is told. -/
def backUpBarring (installer : Installer) (trouble : Option (Nat × Fault)) (target : Path) :
    Disk (Option Path) := do
  if ← Disk.look (·.exists? target) then
    if ← Disk.look (·.isOwned target) then pure none
    else
      let backup ← Disk.look installer.backupPath
      Disk.copyBarring trouble target backup
      Disk.note ("Backed up existing " ++ target.text ++ " to " ++ backup.text)
      pure (some backup)
  else pure none

def backUp (installer : Installer) (target : Path) : Disk (Option Path) :=
  installer.backUpBarring none target

def writeScript (target : Path) (script : Text) : Disk Unit := do
  Disk.makeDirectories target.parent
  Disk.writeText target script

/-- The startup file's text with the block for the script's directory, or what to tell
the user when the file takes care of the directory already. -/
def configuredText (startup directory home : Path) (content : Text) :
    Except Text (Text ⊕ List Text) := do
  match ← Block.find markers content with
  | some span => pure (.inl (Block.splice content span (Block.render markers (blockBody directory))))
  | none =>
    if referencesDirectory content directory home then
      pure (.inr
        [startup.text ++ " already adds " ++ directory.text ++ " to fpath; it was left unchanged.",
          restartHint])
    else pure (.inl (Block.append markers (blockBody directory) content))

/-- The instructions that remain for the user, none when the block could be written. -/
def editStartup (installer : Installer) : Disk (Option (List Text)) := do
  let startup := installer.startupFile
  let content ← Disk.look (·.readText startup)
  let directory ← Disk.look installer.installDir
  match ← Disk.ofBlock startup (configuredText startup directory installer.home content) with
  | .inr instructions => pure (some instructions)
  | .inl updated => do
    unless updated = content do Disk.writeText startup updated
    pure none

def handInstructions (installer : Installer) : Disk (Option (List Text)) := do
  pure (some (manualInstructions installer.startupFile (← Disk.look installer.installDir)))

/-- The startup file configured if the settings and the file allow it. A file that cannot
be read or written is left to the user; one with a lone marker is a fault. -/
def configure (installer : Installer) : Disk (Option (List Text)) := do
  let startup := installer.startupFile
  if !installer.settings.autoConfigure then installer.handInstructions
  else if ← Disk.look (·.isFile startup) then
    match ← Disk.attempt installer.editStartup with
    | .ok instructions => pure instructions
    | .error fault =>
      if fault.isSystem || fault.isUndecodable then
        Disk.note ("Could not configure " ++ startup.text ++ ": " ++ fault.message)
        installer.handInstructions
      else throw fault
  else
    Disk.note (startup.text ++ " does not exist, skipping auto-configuration")
    installer.handInstructions

/-- The outcome when the script could not be put in its place. -/
def notInstalled (backup : Option Path) (fault : Fault) : Disk InstallOutcome :=
  if fault.isSystem then
    pure
      { success := false
        message := "Failed to install completion script: " ++ fault.message
        backupPath := backup.map Path.text }
  else throw fault

/-- The outcome once the script is in its place. -/
def finish (installer : Installer) (target : Path) (backup : Option Path) :
    Disk InstallOutcome := do
  match ← Disk.attempt installer.configure with
  | .ok instructions =>
    pure
      { success := true
        message := "Completion script installed successfully for zsh"
        installedPath := some target.text
        backupPath := backup.map Path.text
        configured := some instructions.isNone
        instructions := instructions }
  | .error (.failure failure) =>
    pure
      { success := false
        message := failure.message ++ ". Completion script was written to " ++ target.text ++
          ", but the startup file was left unchanged; remove the leftover marker line and run install again."
        installedPath := some target.text
        backupPath := backup.map Path.text
        configured := some false }
  | .error fault => throw fault

/-- The script put in its place, unless the copy of what was there is cut short, and the startup
file configured. -/
def installBarring (installer : Installer) (trouble : Option (Nat × Fault)) (script : Text) :
    Disk InstallOutcome := do
  let target ← Disk.look installer.scriptPath
  match ← Disk.attempt (installer.backUpBarring trouble target) with
  | .error fault => notInstalled none fault
  | .ok backup =>
    match ← Disk.attempt (writeScript target script) with
    | .error fault => notInstalled backup fault
    | .ok () => installer.finish target backup

def install (installer : Installer) (script : Text) : Disk InstallOutcome :=
  installer.installBarring none script

end TabCompletion.Installer
