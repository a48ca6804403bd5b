import TabCompletion.CommandLine.Run

namespace TabCompletion.CommandLine

/-- The environment variables that a run looks at. -/
def knownVariables : List String :=
  ["HOME", "SHELL", "PSModulePath", "ZDOTDIR", "ZSH", "ZSH_CUSTOM", "XDG_CONFIG_HOME",
    "XDG_DATA_HOME", "SPECTEST_COMPLETION_DIR", "SPECTEST_COMPLETION_AUTO_CONFIGURE", "NO_COLOR",
    "TERM"]

def loadEnvironment : IO Environment :=
  knownVariables.filterMapM fun name => do
    pure ((← IO.getEnv name).map fun value => (name.toList, value.toList))

def placeName (location : Location) : String :=
  String.ofList location.toPath.text

/-- What stands at a location, links followed. -/
def loadNode (location : Location) : IO (Option Node) := do
  let place := placeName location
  match ← (IO.FS.realPath (place ++ "/.")).toBaseIO with
  | .ok _ => pure (some .directory)
  | .error (.permissionDenied ..) => pure (some .sealed)
  | .error _ =>
    match ← (IO.FS.readBinFile place).toBaseIO with
    | .ok bytes => pure (some (.file World.newMode bytes.toList))
    | .error (.permissionDenied ..) => pure (some (.locked World.newMode []))
    | .error _ => pure none

/-- A path and all that is above it taken over from the disk. -/
def load (world : World) (path : Path) : IO World := do
  let location := FileSystem.spelled world.cwd path
  let places := (List.range location.length).map fun count => location.take (count + 1)
  places.foldlM
    (fun world place => do
      if (world.files.get? place).isSome then pure world
      else
        match ← loadNode place with
        | some node => pure (world.set place node)
        | none => pure world)
    world

def loadAll (world : World) (paths : List Path) : IO World :=
  paths.foldlM load world

/-- The names in a directory of the disk, none when it cannot be read. -/
def namesIn (path : Path) : IO (List Text) := do
  try
    let directory ← IO.FS.realPath (String.ofList path.text)
    pure ((← directory.readDir).toList.map fun entry => entry.fileName.toList)
  catch _ => pure []

/-- What the lists of candidates are made from. -/
def loadProject (world : World) : IO World := do
  let start := world.cwd.toPath
  let world ← loadAll world ((start :: start.parents).map (· / Product.name))
  match Project.root world start with
  | .error _ => pure world
  | .ok root =>
    Project.Category.all.foldlM
      (fun world category => do
        let parent := category.directory root
        let names ← namesIn parent
        let paths := names.flatMap fun name =>
          (parent / name) :: category.requiredFile?.toList.map fun file => parent / name / file
        loadAll world (parent :: paths))
      world

/-- What an installation looks at, once the settings are there. -/
def loadInstallation (host : Host) (world : World) : IO World := do
  let world ←
    match host.settingsPath with
    | .ok path => load world path
    | .error _ => pure world
  match host.home, Settings.resolve host world with
  | .ok home, .ok settings =>
    let installer : Installer := ⟨home, host.environment, settings.completion⟩
    let world ← loadAll world [home / (".oh-my-zsh" : Text), installer.startupFile]
    match installer.scriptPath world, installer.backupPath world with
    | .ok script, .ok backup => loadAll world [script, backup]
    | _, _ => pure world
  | _, _ => pure world

def loadData (host : Host) (world : World) : IO World :=
  match host.dataPath with
  | .ok path => load world (path / ("logs" : Text))
  | .error _ => pure world

/-- One change carried over to the disk. -/
def store (change : Location × Option Node) : IO Unit := do
  let place := placeName change.1
  match change.2 with
  | some .directory => IO.FS.createDirAll place
  | some (.file _ bytes) => IO.FS.writeBinFile place ⟨bytes.toArray⟩
  | some (.link _) | some .sealed | some (.locked ..) => pure ()
  | none => IO.FS.removeFile place

/-- The changes of a run carried over to the disk, directories before what is in them. -/
def storeAll (changes : List (Location × Option Node)) : IO Unit :=
  (changes.mergeSort fun first second => first.1.length ≤ second.1.length).forM store

def usage : String :=
  "Usage: spectest [--no-color] [-q] [-v] completion (generate | install | uninstall) [SHELL]\n" ++
    "       spectest config\n       spectest __complete --type CATEGORY\n"

/-- At most so many names are tried for a temporary file. -/
def maxDraws : Nat := 10000

def newDraws : IO (List Draw) :=
  (List.range maxDraws).mapM fun _ => Draw.ofNat <$> IO.rand 0 (Nat.pow 37 8 - 1)

/-- The lines of a stream up to its end. -/
partial def readLines (stream : IO.FS.Stream) : IO Text := do
  let line ← stream.getLine
  if line.isEmpty then pure [] else pure (line.toList ++ (← readLines stream))

/-- The input, which only a question needs. -/
def readInput (request : Request) : IO Text := do
  match request with
  | .uninstall _ _ false => readLines (← IO.getStdin)
  | _ => pure []

/-- A request answered on the disk of this machine. -/
def perform (request : Request) : IO Answer := do
  let host : Host := ⟨← loadEnvironment, "Linux", "/", .full⟩
  let cwd := (Path.ofText (← IO.FS.realPath ".").toString.toList).parts
  let start : World := { files := .empty, cwd := cwd, draws := ← newDraws }
  let before ← loadData host (← loadInstallation host (← loadProject start))
  let recorder : Recorder :=
    { clock := Text.ofNat (← IO.monoMsNow), traceback := fun fault => fault.message ++ ['\n'] }
  let (answer, after) := request.run host recorder (← readInput request) before
  storeAll (FileSystem.changes before.files after.files)
  pure answer

end TabCompletion.CommandLine

def main (arguments : List String) : IO UInt32 := do
  let request := TabCompletion.CommandLine.Request.ofArguments (arguments.map String.toList)
  let answer ← TabCompletion.CommandLine.perform request
  IO.print (String.ofList answer.console.out)
  IO.eprint (String.ofList answer.console.err)
  match request with
  | .help _ => IO.print TabCompletion.CommandLine.usage
  | .misuse => IO.eprint TabCompletion.CommandLine.usage
  | _ => pure ()
  match answer.exit with
  | .ok exitCode => pure (UInt32.ofNat (exitCode % 256).toNat)
  | .error fault =>
    IO.eprintln (String.ofList fault.message)
    pure 1
