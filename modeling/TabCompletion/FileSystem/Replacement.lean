import TabCompletion.FileSystem.Disk

namespace TabCompletion

namespace World

/-- The permission bits of a temporary file until it is given those of the file it is to replace. -/
def temporaryMode : Nat := 0o600

/-- A file without bytes, where nothing stands yet. -/
def createFile (world : World) (path : Path) : Except Fault World := do
  match ← world.locate .itself path with
  | .taken .. => throw (.refused .exists path)
  | .free directory name => pure (world.set (directory ++ [name]) (.file temporaryMode []))

/-- Other permission bits for a file. Those of a directory are not kept track of. -/
def setMode (world : World) (path : Path) (mode : Nat) : Except Fault World := do
  match ← world.locate .target path with
  | .taken location (.file _ bytes) => pure (world.set location (.file mode bytes))
  | .taken location (.locked _ bytes) => pure (world.set location (.locked mode bytes))
  | .taken .. => pure world
  | .free .. => throw (.refused .noEntry path)

/-- A file given another name, in place of a file or of a link that has the name. -/
def rename (world : World) (source target : Path) : Except Fault World := do
  match ← world.locate .itself source with
  | .taken location node =>
    let spot ← world.renameSpot source target
    pure ({ world with files := world.files.erase location }.set spot node)
  | .free .. => throw (.renameRefused .noEntry source target)

end World

/-- What goes wrong at each step of a replacement, besides what the files themselves refuse: a
disk that is full, a device that fails. Before a file goes wrong while it is written or closed it
may have got some of its bytes. -/
structure Trouble where
  create : Option Fault := none
  write : Option (Nat × Fault) := none
  close : Option (Nat × Fault) := none
  setMode : Option Fault := none
  rename : Option Fault := none
  remove : Option Fault := none

namespace Disk

/-- An action unless trouble comes in its place. -/
def barring (trouble : Option Fault) (action : Disk Unit) : Disk Unit :=
  match trouble with
  | some fault => throw fault
  | none => action

def writeBarring (trouble : Option (Nat × Fault)) (path : Path) (bytes : Bytes) : Disk Unit :=
  match trouble with
  | some (count, fault) => do
    change (·.writeFile path (bytes.take count))
    throw fault
  | none => change (·.writeFile path bytes)

/-- A temporary file that is written closed, and given the name of the file that it replaces. -/
def closeAndRename (trouble : Trouble) (temporary path : Path) (mode : Nat) (bytes : Bytes) : Disk Unit := do
  writeBarring trouble.close temporary bytes
  barring trouble.setMode (change (·.setMode temporary mode))
  barring trouble.rename (change (·.rename temporary path))

/-- A temporary file removed, if it can be, for the fault that it is no longer of use for. -/
def giveUp (trouble : Trouble) (temporary : Path) (fault : Fault) : Disk Unit := do
  let _ ← attempt (barring trouble.remove (change (·.removeFile temporary)))
  throw fault

/-- A file replaced step by step. Whatever goes wrong once the temporary file is there, it is
to be removed again. When it could not be written it is still open, and it is closed first, which
may write what is left of its bytes; when that goes wrong too it is not removed. -/
def replaceInSteps (trouble : Trouble) (path : Path) (bytes : Bytes) : Disk Unit := do
  let mode ← look (·.replacementMode path)
  let temporary ← look (·.temporary path)
  barring trouble.create (change (·.createFile temporary))
  match ← attempt (writeBarring trouble.write temporary bytes) with
  | .error fault => do
    writeBarring trouble.close temporary bytes
    giveUp trouble temporary fault
  | .ok () =>
    match ← attempt (closeAndRename trouble temporary path mode bytes) with
    | .ok () => pure ()
    | .error fault => giveUp trouble temporary fault

/-- A text written as the whole of a file, step by step. -/
def writeInSteps (trouble : Trouble) (path : Path) (text : Text) : Disk Unit := do
  let path ← look (·.realPath path)
  makeDirectories path.parent
  replaceInSteps trouble path (Utf8.encode text)

end Disk

end TabCompletion
