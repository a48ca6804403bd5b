import TabCompletion.FileSystem.World
import TabCompletion.Product
import TabCompletion.Text.Blank
import TabCompletion.Text.Line

namespace TabCompletion

/-- Whether a script is ours: one of its lines is the ownership header. -/
def isOwnedText (text : Text) : Bool :=
  text.lines.contains Product.ownershipHeader

/-- Bytes are read as leniently as can be to look for the header. -/
def isOwnedBytes (bytes : Bytes) : Bool :=
  isOwnedText (Utf8.decodeLossy bytes).unifyNewlines

def World.isOwned (world : World) (path : Path) : Except Fault Bool :=
  isOwnedBytes <$> world.readBytes path

/-- The ways to write a directory in a startup file: in full, and below home with a
tilde or with the variable. -/
def spellings (directory home : Path) : List Text :=
  match directory.relativeTo? home with
  | none => [directory.text]
  | some rest =>
    directory.text :: ["~/", "$HOME/", "$\x7bHOME\x7d/"].map fun start => start.toList ++ rest.text

/-- Whether a line that is no comment sets the search path and has one of the spellings. -/
def lineReferences (spellings : List Text) (line : Text) : Bool :=
  let stripped := line.trim
  !stripped.head?.any (· = '#') && Text.occursIn "fpath" stripped &&
    spellings.any fun spelling => spelling.occursIn stripped

/-- Whether a startup file already puts a directory on the search path. -/
def referencesDirectory (content : Text) (directory home : Path) : Bool :=
  content.lines.any (lineReferences (spellings directory home))

end TabCompletion
