import TabCompletion.Block.Update
import TabCompletion.Installer.Layout
import TabCompletion.Installer.Recognition
import TabCompletion.Outcome

namespace TabCompletion.Installer

/-- What became of the script on removal. -/
inductive Removal where
  | absent
  | removed
  | foreign
deriving DecidableEq, Repr

/-- The block taken out of the startup file; whether there was one is told. -/
def removeBlock (startup : Path) : Disk Bool := do
  if ← Disk.look (·.isFile startup) then
    let content ← Disk.look (·.readText startup)
    let updated ← Disk.ofBlock startup (Block.remove markers content)
    if updated = content then pure false
    else
      Disk.writeText startup updated
      pure true
  else pure false

/-- The script deleted if it is ours. -/
def removeScript (target : Path) : Disk Removal := do
  if ← Disk.look (·.exists? target) then
    if ← Disk.look (·.isOwned target) then
      Disk.change (·.removeFile target)
      pure .removed
    else pure .foreign
  else pure .absent

/-- What was done and what was left, in the order of the report. -/
def removalNotes (startup target : Path) (blockRemoved : Bool) (script : Removal) : List Text :=
  let blockNotes : List Text :=
    if blockRemoved then ["removed configuration from " ++ startup.text] else []
  match script with
  | .absent => blockNotes
  | .removed => ("removed " ++ target.text) :: blockNotes
  | .foreign =>
    blockNotes ++
      ["left ".toList ++ target.text ++ " in place because it was not created by " ++ Product.name]

def removalOutcome (startup target : Path) (blockRemoved : Bool) (script : Removal) :
    UninstallOutcome :=
  let notes := removalNotes startup target blockRemoved script
  if notes.isEmpty then ⟨false, "Completion script is not installed"⟩
  else if blockRemoved || script = .removed then
    ⟨true, "Completion script uninstalled: " ++ Text.join "; " notes⟩
  else ⟨false, "Nothing was removed: " ++ Text.join "; " notes⟩

def removeAll (startup target : Path) : Disk UninstallOutcome := do
  let blockRemoved ← removeBlock startup
  let script ← removeScript target
  pure (removalOutcome startup target blockRemoved script)

/-- The block and the script removed. Backups stay. -/
def uninstall (installer : Installer) : Disk UninstallOutcome := do
  let target ← Disk.look installer.scriptPath
  match ← Disk.attempt (removeAll installer.startupFile target) with
  | .ok outcome => pure outcome
  | .error (.failure failure) =>
    pure ⟨false, failure.message ++ ". Nothing was changed; fix the managed block by hand."⟩
  | .error fault =>
    if fault.isSystem || fault.isUndecodable then
      pure ⟨false, "Failed to uninstall completion script: " ++ fault.message⟩
    else throw fault

end TabCompletion.Installer
