import TabCompletion.Console
import TabCompletion.FileSystem.Disk
import TabCompletion.Settings.Load

namespace TabCompletion.CommandLine

/-- What a run has written, and the world that it works on. -/
structure Session where
  console : Console := {}
  world : World

/-- A part of a run. A fault that comes out of one ends the run. -/
abbrev Action := ExceptT Fault (StateM Session)

/-- What a run has come to: an exit code, or a fault that could not even be logged; and
what it has written until then. -/
structure Answer where
  exit : Except Fault Int
  console : Console

namespace Action

/-- Something written on the console. -/
def write (step : Console → Console) : Action Unit :=
  fun session => (.ok (), { session with console := step session.console })

/-- Data for others to read. It is written as a whole, or not at all when a character of it
cannot be. -/
def print (charset : Charset) (text : Text) : Action Unit :=
  match text.find? fun character => !charset.has character with
  | some character => throw (.unencodable character)
  | none => write fun console => console.data text

/-- Operations on files, whose notes are written as they were taken. -/
def onDisk {α : Type} (verbosity : Verbosity) (action : Disk α) : Action α :=
  fun session =>
    let (result, world) := action { session.world with notes := [] }
    let console := world.notes.foldl (fun console note => console.debug verbosity note) session.console
    (result, { console := console, world := { world with notes := [] } })

def fail {α : Type} (failure : Failure) : Action α :=
  throw (.failure failure)

end Action

/-- What is written of a failure. One about the shell comes with advice. -/
def Console.report (console : Console) (verbosity : Verbosity) (failure : Failure) : Console :=
  let console := console.error failure.message
  if failure.kind = .unsupportedShell then
    console.suggestion verbosity "Pass --shell zsh to select a supported shell explicitly."
  else console

/-- What the log of a fault takes from outside of the run: the time, and the text that tells how
the fault came about. -/
structure Recorder where
  clock : Text
  traceback : Fault → Text

/-- What is kept of a fault that no rule foresees, in a file of its own. The time is part
of the file's name. -/
def writeCrashLog (host : Host) (recorder : Recorder) (fault : Fault) : Disk Path := do
  let directory := (← host.dataDir) / ("logs" : Text)
  Disk.makeDirectories directory
  let path := directory / ("crash-" ++ recorder.clock ++ ".log" : Text)
  Disk.change (·.writeFile path (Utf8.encode (recorder.traceback fault)))
  pure path

/-- A run from its start to its exit code. A failure tells its own exit code; any other
fault is logged, unless even that comes to a fault. -/
def runAction (host : Host) (recorder : Recorder) (verbosity : Verbosity) (action : Action Int)
    (world : World) : Answer × World :=
  let (result, session) := action { world := world }
  match result with
  | .ok exitCode => (⟨.ok exitCode, session.console⟩, session.world)
  | .error (.failure failure) =>
    (⟨.ok failure.exitCode, Console.report session.console verbosity failure⟩, session.world)
  | .error fault =>
    match writeCrashLog host recorder fault session.world with
    | (.ok path, world) =>
      (⟨.ok 1, session.console.error ("Unexpected error. Debug log: " ++ path.text)⟩, world)
    | (.error fault, world) => (⟨.error fault, session.console⟩, world)

end TabCompletion.CommandLine
