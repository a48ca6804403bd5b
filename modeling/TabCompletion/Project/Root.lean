import TabCompletion.FileSystem.World
import TabCompletion.Product

namespace TabCompletion.Project

/-- Whether a project stands in a directory. -/
def standsIn (world : World) (directory : Path) : Except Fault Bool :=
  world.isDirectory (directory / Product.name)

/-- The first of some directories that a project stands in. -/
def first? (world : World) : List Path → Except Fault (Option Path)
  | [] => .ok none
  | directory :: rest => do
    if ← standsIn world directory then pure (some directory) else first? world rest

/-- The nearest directory at or above a path that a project stands in, or the path
itself when there is none; links are followed first. -/
def root (world : World) (start : Path) : Except Fault Path := do
  let origin ← world.realPath start
  pure ((← first? world (origin :: origin.parents)).getD origin)

end TabCompletion.Project
