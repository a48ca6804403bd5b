import TabCompletion.Command.Catalog
import TabCompletion.CommandLine.Confirm
import TabCompletion.CommandLine.Request
import TabCompletion.CommandLine.Session
import TabCompletion.Installer.Install
import TabCompletion.Installer.Uninstall
import TabCompletion.Project.Candidate
import TabCompletion.Shell
import TabCompletion.Zsh.Compile

namespace TabCompletion.CommandLine

/-- The shell to work for: the one named, or else the one that the environment tells of. -/
def chooseShell (host : Host) (named : Option Text) (operation : Text) : Disk Text := do
  let supported := Factory.supportedShells
  match named.bind Shell.normalize with
  | some shell =>
    if Factory.isSupported shell then pure shell
    else throw (Factory.unsupported shell)
  | none =>
    match Shell.detect supported host.environment with
    | ⟨some shell, _⟩ => do
      Disk.note ("Detected shell: " ++ shell)
      pure shell
    | ⟨none, some shell⟩ => throw (Factory.unsupported shell)
    | ⟨none, none⟩ =>
      throw (.failure (.stated .undetectedShell
        ("Could not auto-detect shell. Please specify shell explicitly.\nUsage: spectest completion " ++
          operation ++ " [SHELL]\nCurrently supported: " ++ Text.join ", " supported)))

/-- An installation for the user who runs the program. -/
def userInstaller (host : Host) (shell : Text) : Disk Installer := do
  let maker ← Disk.look fun _ => Factory.lookup shell
  let home ← Disk.look fun _ => host.home
  let settings ← Disk.look (Settings.resolve host)
  pure (maker.installer home host.environment settings.completion)

def showSettings (host : Host) (verbosity : Verbosity) : Action Int := do
  let settings ← Action.onDisk verbosity (Disk.look (Settings.resolve host))
  let directory ← Action.onDisk verbosity (Disk.look fun _ => host.configDir)
  Action.write fun console => console.info verbosity ("Config directory: " ++ directory.text)
  let written ← Action.onDisk verbosity (Disk.look fun _ => settings.written)
  Action.write fun console => console.data written
  pure 0

def generate (host : Host) (verbosity : Verbosity) (named : Option Text) : Action Int := do
  let target ← Action.onDisk verbosity do
    let shell ← chooseShell host named "generate"
    Disk.look fun _ => Factory.createGenerator shell
  Action.write fun console => console.data (target.generate Catalog.commands)
  pure 0

/-- What is told of an installation that came to its end. -/
def reportInstall (verbosity : Verbosity) (detailed : Bool) (outcome : InstallOutcome)
    (console : Console) : Console :=
  let console := console.success verbosity outcome.message
  let details : List Text :=
    match outcome.installedPath with
    | some path =>
      if detailed || verbosity.verbose then
        [("  Installed to: " ++ path : Text)] ++
          (outcome.backupPath.toList.map fun backup => "  Backup created: ".toList ++ backup) ++
          (if outcome.configured = some true then
            ["  Shell startup file configured automatically".toList] else [])
      else []
    | none => []
  let advice : List Text :=
    match outcome.instructions with
    | some (line :: lines) => [] :: line :: lines
    | _ =>
      if outcome.configured = some true then [[], Installer.restartHint] else []
  (details ++ advice).foldl (fun console line => console.info verbosity line) console

def install (host : Host) (verbosity : Verbosity) (named : Option Text) (detailed : Bool) :
    Action Int := do
  let (target, installer) ← Action.onDisk verbosity do
    let shell ← chooseShell host named "install"
    let target ← Disk.look fun _ => Factory.createGenerator shell
    pure (target, ← userInstaller host shell)
  let outcome ← Action.onDisk verbosity (installer.install (target.generate Catalog.commands))
  if outcome.success then
    Action.write (reportInstall verbosity detailed outcome)
    pure 0
  else Action.fail (.stated .installation outcome.message)

/-- The question before a removal. -/
def uninstallQuestion (shell : Text) : Text :=
  "Remove spectest " ++ shell ++ " completion and its shell configuration? [y/N]: "

def uninstall (host : Host) (input : List Text) (verbosity : Verbosity) (named : Option Text)
    (confirmed : Bool) : Action Int := do
  let (shell, installer) ← Action.onDisk verbosity do
    let shell ← chooseShell host named "uninstall"
    pure (shell, ← userInstaller host shell)
  let (answer, written) :=
    if confirmed then (some true, []) else confirm (uninstallQuestion shell) input
  Action.write fun console => { console with out := console.out ++ written }
  match answer with
  | none =>
    Action.write fun console => console.line "Aborted."
    pure 1
  | some false =>
    Action.write fun console => console.info verbosity "Uninstall cancelled."
    pure 0
  | some true =>
    let outcome ← Action.onDisk verbosity installer.uninstall
    if outcome.success then
      Action.write fun console => console.success verbosity outcome.message
      pure 0
    else Action.fail (.stated .installation outcome.message)

/-- Candidates for the shell, one on a line. Whatever goes wrong, nothing is written for
the shell to read. What cannot be written goes wrong after the attempt to find it is over. -/
def listCandidates (host : Host) (verbosity : Verbosity) (written : Text) : Action Int := do
  let listed ← Action.onDisk verbosity <| Disk.attempt <| Disk.look fun world => do
    let root ← Project.root world world.cwd.toPath
    Project.candidates world root written.trim.lowerCase
  match listed with
  | .ok [] => pure 0
  | .ok candidates =>
    let lines := candidates.map fun (name, label) => name ++ '\t' :: label
    Action.print host.charset (Text.join "\n" lines)
    pure 0
  | .error fault =>
    Action.write fun console =>
      console.debug verbosity ("__complete --type " ++ written ++ " failed: " ++ fault.message)
    pure 1

/-- What a run answers to a request, and the world after it. Help pages and complaints
about the command line are left to whoever prints them. -/
def Request.run (host : Host) (recorder : Recorder) (input : Text) (request : Request) (world : World) :
    Answer × World :=
  match request with
  | .help exitCode => (⟨.ok exitCode, {}⟩, world)
  | .misuse => (⟨.ok 2, {}⟩, world)
  | .version => (⟨.ok 0, ({} : Console).data (Product.name ++ " " ++ Product.version)⟩, world)
  | .settings verbosity => runAction host recorder verbosity (showSettings host verbosity) world
  | .generate verbosity shell =>
    runAction host recorder verbosity (CommandLine.generate host verbosity shell) world
  | .install verbosity shell detailed =>
    runAction host recorder verbosity (CommandLine.install host verbosity shell detailed) world
  | .uninstall verbosity shell confirmed =>
    runAction host recorder verbosity
      (CommandLine.uninstall host (inputLines input) verbosity shell confirmed) world
  | .candidates verbosity category =>
    runAction host recorder verbosity (listCandidates host verbosity category) world

end TabCompletion.CommandLine
