import TabCompletion.FileSystem.World

namespace TabCompletion

/-- A sequence of operations on files. What was done before a fault stays done. -/
abbrev Disk := ExceptT Fault (StateM World)

namespace Disk

/-- A look at the world, which stays as it is. -/
def look {α : Type} (view : World → Except Fault α) : Disk α :=
  fun world => (view world, world)

/-- A change of the world, which stays as it is on a fault. -/
def change (step : World → Except Fault World) : Disk Unit :=
  fun world =>
    match step world with
    | .ok world => (.ok (), world)
    | .error fault => (.error fault, world)

/-- The fault of an operation as a value; what was done before it stays done. -/
def attempt {α : Type} (action : Disk α) : Disk (Except Fault α) :=
  fun world =>
    let (result, world) := action world
    (.ok result, world)

/-- A note for those who want to see what is going on. -/
def note (text : Text) : Disk Unit :=
  change fun world => .ok { world with notes := world.notes ++ [text] }

/-- A file copied to a path. When the copy is cut short it has only some of the bytes. -/
def copyBarring (trouble : Option (Nat × Fault)) (source target : Path) : Disk Unit :=
  match trouble with
  | some (count, fault) => do
    change (·.copyPart (·.take count) source target)
    throw fault
  | none => change (·.copyFile source target)

/-- A fault of a directory that could not be made, unless it is there already. -/
def keepDirectory (path : Path) (fault : Fault) : Disk Unit := do
  if fault.isSystem then
    unless ← look (·.isDirectory path) do throw fault
  else throw fault

def makeDirectory (path : Path) : Disk Unit := do
  match ← attempt (change (·.makeDirectory path)) with
  | .ok () => pure ()
  | .error fault => keepDirectory path fault

/-- At most this many directories in a row may be missing above one that is made. -/
def maxMissing : Nat := 980

/-- A directory made with all that is missing above it, which may be so many in a row;
its names are given from the last one up. -/
def makeUpFrom (anchor : Anchor) : Nat → List Text → Disk Unit
  | _, [] => makeDirectory ⟨anchor, []⟩
  | missing, name :: above => do
    let path : Path := ⟨anchor, (name :: above).reverse⟩
    match ← attempt (change (·.makeDirectory path)), missing with
    | .ok (), _ => pure ()
    | .error (.refused .noEntry _), 0 => throw .nestedDirectories
    | .error (.refused .noEntry _), missing + 1 => do
      makeUpFrom anchor missing above
      makeDirectory path
    | .error fault, _ => keepDirectory path fault
termination_by structural _ names => names

def makeDirectories (path : Path) : Disk Unit :=
  makeUpFrom path.anchor maxMissing path.parts.reverse

/-- A text written as the whole of a file, at once or not at all. A link is written
through, and directories that are missing are made. -/
def writeText (path : Path) (text : Text) : Disk Unit := do
  let path ← look (·.realPath path)
  makeDirectories path.parent
  change (·.replaceFile path (Utf8.encode text))

end Disk

end TabCompletion
