import TabCompletion.Failure
import TabCompletion.FileSystem.Draw
import TabCompletion.FileSystem.Walk
import TabCompletion.Text.Line

namespace TabCompletion

/-- Why an operation on files comes to no result. -/
inductive Fault where
  | refused (refusal : Refusal) (path : Path)
  | renameRefused (refusal : Refusal) (source target : Path)
  | sameFile (source target : Path)
  | noDirectory (path : Path)
  | noTemporaryName
  | linkCycle (path : Path)
  | nulCharacter
  | undecodable (fault : Utf8.Fault)
  | unencodable (character : Char)
  | homeless
  | nestedInput (container : Json.Container)
  | nestedOutput
  | nestedDirectories
  | failure (failure : Failure)
deriving Repr

namespace Fault

/-- Whether the system itself refused, rather than a text or a rule of ours. -/
def isSystem : Fault → Bool
  | refused .. | renameRefused .. | sameFile .. | noDirectory .. | noTemporaryName => true
  | _ => false

def isUndecodable : Fault → Bool
  | undecodable _ => true
  | _ => false

def refusalText (refusal : Refusal) (path : Path) : Text :=
  "[Errno " ++ Text.ofNat refusal.number ++ "] " ++ refusal.message ++ ": " ++ path.quoted

def message : Fault → Text
  | refused refusal path => refusalText refusal path
  | renameRefused refusal source target => refusalText refusal source ++ " -> " ++ target.quoted
  | sameFile source target =>
    "PosixPath(" ++ source.quoted ++ ") and PosixPath(" ++ target.quoted ++ ") are the same file"
  | noDirectory path => "Directory does not exist: " ++ path.text
  | noTemporaryName => "[Errno 17] No usable temporary file name found"
  | linkCycle path => "Symlink loop from " ++ path.quoted
  | nulCharacter => "embedded null byte"
  | undecodable fault => fault.message
  | unencodable character => "codec can't encode character " ++ Text.quoted [character]
  | homeless => "Could not determine home directory."
  | nestedInput container => (Json.Fault.tooDeep container).message []
  | nestedOutput => "Maximum serialization depth exceeded"
  | nestedDirectories => "maximum recursion depth exceeded while calling a Python object"
  | failure inner => inner.message

end Fault

/-- What a run of the program sees and changes: the files, the directory it works in, what
it may draw for the name of a temporary file, and the notes it takes on its way. -/
structure World where
  files : FileSystem
  cwd : Location
  draws : List Draw
  notes : List Text := []

def Path.hasNul (path : Path) : Bool :=
  path.parts.any fun part => part.contains '\x00'

/-- The path of a temporary file beside another one. -/
def Path.beside (path : Path) (draw : Draw) : Path :=
  ⟨path.anchor, path.parent.parts ++ ['.' :: path.name ++ '.' :: draw.text ++ ".tmp"]⟩

namespace World

def locate (world : World) (ending : FileSystem.Ending) (path : Path) : Except Fault Place :=
  if path.hasNul then .error .nulCharacter
  else
    match world.files.locate world.cwd ending path with
    | .ok place => .ok place
    | .error refusal => .error (.refused refusal path)

/-- Whether a path leads to a node that passes a test. A path that leads nowhere does
not; one that the system cannot even look up is a fault. -/
def leadsTo (world : World) (test : Node → Bool) (path : Path) : Except Fault Bool :=
  match world.locate .target path with
  | .ok (.taken _ node) => .ok (test node)
  | .ok (.free ..) => .ok false
  | .error .nulCharacter => .ok false
  | .error (.refused .noEntry _) => .ok false
  | .error (.refused .notDirectory _) => .ok false
  | .error (.refused .linkLoop _) => .ok false
  | .error fault => .error fault

def exists? (world : World) (path : Path) : Except Fault Bool :=
  world.leadsTo (fun _ => true) path

def isFile (world : World) (path : Path) : Except Fault Bool :=
  world.leadsTo Node.isFile path

def isDirectory (world : World) (path : Path) : Except Fault Bool :=
  world.leadsTo Node.isDirectory path

def readBytes (world : World) (path : Path) : Except Fault Bytes := do
  match ← world.locate .target path with
  | .taken _ (.file _ bytes) => pure bytes
  | .taken _ (.locked ..) | .taken _ .sealed => throw (.refused .denied path)
  | .taken .. => throw (.refused .isDirectory path)
  | .free .. => throw (.refused .noEntry path)

/-- The text of a file, which must be UTF-8; every line end becomes a line feed. -/
def readText (world : World) (path : Path) : Except Fault Text := do
  match Utf8.decode (← world.readBytes path) with
  | .ok text => pure text.unifyNewlines
  | .error fault => throw (.undecodable fault)

/-- The path with every link followed. What does not exist is no fault, but links that
lead back to themselves are one. -/
def realPath (world : World) (path : Path) : Except Fault Path :=
  if path.hasNul then .error .nulCharacter
  else
    let real := world.files.real world.cwd path
    match world.locate .target real with
    | .error (.refused .linkLoop _) => .error (.linkCycle real)
    | .error .nulCharacter => .error .nulCharacter
    | _ => .ok real

/-- The names in a directory, in no order to rely on. -/
def list (world : World) (path : Path) : Except Fault (List Text) := do
  match ← world.locate .target path with
  | .taken location .directory => pure (world.files.childNames location)
  | .taken _ .sealed => throw (.refused .denied path)
  | .taken .. => throw (.refused .notDirectory path)
  | .free .. => throw (.refused .noEntry path)

def set (world : World) (location : Location) (node : Node) : World :=
  { world with files := world.files.insert location node }

def makeDirectory (world : World) (path : Path) : Except Fault World := do
  match ← world.locate .itself path with
  | .taken .. => throw (.refused .exists path)
  | .free directory name => pure (world.set (directory ++ [name]) .directory)

/-- The permission bits that a file is given when it is new. A copy has them where the umask is 022. -/
def newMode : Nat := 0o644

/-- Other bytes in a file, or a new file. A link is written through. -/
def writeFile (world : World) (path : Path) (bytes : Bytes) : Except Fault World := do
  match ← world.locate .output path with
  | .taken location (.file mode _) => pure (world.set location (.file mode bytes))
  | .taken _ (.locked ..) => throw (.refused .denied path)
  | .taken .. => throw (.refused .isDirectory path)
  | .free directory name => pure (world.set (directory ++ [name]) (.file newMode bytes))

/-- A file or a link removed; what a link leads to stays. -/
def removeFile (world : World) (path : Path) : Except Fault World := do
  match ← world.locate .itself path with
  | .taken _ .directory | .taken _ .sealed => throw (.refused .isDirectory path)
  | .taken location _ => pure { world with files := world.files.erase location }
  | .free .. => throw (.refused .noEntry path)

def leadToSame (world : World) (first second : Path) : Bool :=
  match world.locate .target first, world.locate .target second with
  | .ok (.taken here _), .ok (.taken there _) => here = there
  | _, _ => false

/-- A file copied to a path, or as much of it as there is room for. When only a directory could
stand at the path but none does, the fault says so. -/
def copyPart (world : World) (room : Bytes → Bytes) (source target : Path) : Except Fault World := do
  if world.leadToSame source target then throw (.sameFile source target)
  match world.writeFile target (room (← world.readBytes source)), world.exists? target with
  | .error (.refused .isDirectory path), .ok true => throw (.refused .isDirectory path)
  | .error (.refused .isDirectory _), _ => throw (.noDirectory target)
  | written, _ => written

def copyFile (world : World) (source target : Path) : Except Fault World :=
  world.copyPart id source target

/-- The first path drawn for a temporary file beside another one by which nothing stands. -/
def temporaryFrom (world : World) (path : Path) : List Draw → Except Fault Path
  | [] => throw .noTemporaryName
  | draw :: more => do
    match ← world.locate .itself (path.beside draw) with
    | .taken .. => temporaryFrom world path more
    | .free .. => pure (path.beside draw)

/-- The path of the temporary file beside a file that is about to be replaced. -/
def temporary (world : World) (path : Path) : Except Fault Path :=
  world.temporaryFrom path world.draws

/-- The permission bits of every directory, as new ones have them where the umask is 022. -/
def directoryMode : Nat := 0o755

/-- The permission bits that the replacement of a file gets: those of what its path leads to,
or those of a new file. -/
def replacementMode (world : World) (path : Path) : Except Fault Nat := do
  match ← world.exists? path, world.locate .target path with
  | true, .ok (.taken _ (.file mode _)) | true, .ok (.taken _ (.locked mode _)) => pure (mode % 0o1000)
  | true, .ok (.taken _ .directory) | true, .ok (.taken _ .sealed) => pure directoryMode
  | _, _ => pure newMode

/-- Where a file goes that is renamed to a target. It takes the place of a file or of a link
that has the name. -/
def renameSpot (world : World) (source target : Path) : Except Fault Location :=
  match world.locate .itself target with
  | .ok (.taken [] _) => throw (.renameRefused .busy source target)
  | .ok (.taken _ .directory) | .ok (.taken _ .sealed) =>
    throw (.renameRefused .isDirectory source target)
  | .ok (.taken location _) => pure location
  | .ok (.free directory name) => pure (directory ++ [name])
  | .error (.refused refusal _) => throw (.renameRefused refusal source target)
  | .error fault => throw fault

/-- A file replaced as a whole, by a temporary file beside it that takes its name. When
that is refused nothing is left behind. -/
def replaceFile (world : World) (path : Path) (bytes : Bytes) : Except Fault World := do
  let mode ← world.replacementMode path
  let temporary ← world.temporary path
  pure (world.set (← world.renameSpot temporary path) (.file mode bytes))

end World

end TabCompletion
