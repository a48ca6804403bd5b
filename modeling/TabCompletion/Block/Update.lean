import TabCompletion.Block.Basic
import TabCompletion.FileSystem.Disk

namespace TabCompletion.Disk

/-- The outcome of an operation on the blocks of a file's text. -/
def ofBlock {α : Type} (path : Path) : Except Text α → Disk α
  | .ok value => pure value
  | .error marker => throw (.failure (.missingMarker (some path) marker))

/-- Another body put into the block of a file, which is written only if its text changes. -/
def updateBlockBy (write : Path → Text → Disk Unit) (path : Path) (markers : Markers) (body : Text) : Disk Unit := do
  let content ← look (·.readText path)
  let updated ← ofBlock path (Block.replace markers body content)
  unless updated = content do write path updated

def updateBlock (path : Path) (markers : Markers) (body : Text) : Disk Unit :=
  updateBlockBy writeText path markers body

end TabCompletion.Disk
