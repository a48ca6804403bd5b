import TabCompletion.FileSystem.Tree
import TabCompletion.Path
import TabCompletion.Text.Utf8

namespace TabCompletion

/-- A place in the file system by the names from the root down to it. -/
abbrev Location := List Text

namespace Location

def toPath (location : Location) : Path :=
  ⟨.root, location⟩

end Location

/-- What stands at a location. A file has permission bits and bytes, and a link has the
text of the path that it leads to. A sealed directory may be neither searched nor listed, so that
nothing below it is known, and a locked file may be neither read nor written. -/
inductive Node where
  | directory
  | sealed
  | file (mode : Nat) (bytes : Bytes)
  | locked (mode : Nat) (bytes : Bytes)
  | link (target : Text)
deriving DecidableEq, Repr

namespace Node

def isDirectory : Node → Bool
  | directory | sealed => true
  | _ => false

def isFile : Node → Bool
  | file .. | locked .. => true
  | _ => false

end Node

/-- What stands at each location. The root is always a directory. -/
structure FileSystem where
  tree : Tree Node

namespace FileSystem

def empty : FileSystem := ⟨Tree.empty⟩

def get? (files : FileSystem) (location : Location) : Option Node :=
  if location = [] then some .directory else files.tree.get? location

/-- The file system without what stands at a location. -/
def erase (files : FileSystem) (location : Location) : FileSystem :=
  ⟨files.tree.set none location⟩

/-- The file system with a node at a location, in place of what stood there. -/
def insert (files : FileSystem) (location : Location) (node : Node) : FileSystem :=
  ⟨files.tree.set (some node) location⟩

/-- The names right below a location. -/
def childNames (files : FileSystem) (location : Location) : List Text :=
  (files.tree.descend location).branches.filterMap fun (name, tree) =>
    if tree.content.isSome then some name else none

/-- All that stands anywhere but at the root, with its location. -/
def toList (files : FileSystem) : List (Location × Node) :=
  files.tree.toList

theorem get?_nil (files : FileSystem) : files.get? [] = some .directory := by
  simp [get?]

theorem get?_erase (files : FileSystem) {location : Location} (proper : location ≠ [])
    (other : Location) :
    (files.erase location).get? other = if other = location then none else files.get? other := by
  by_cases root : other = []
  · subst root
    simp [get?, proper.symm]
  · simp [get?, root, erase, Tree.get?_set]

theorem get?_insert (files : FileSystem) {location : Location} (proper : location ≠ []) (node : Node)
    (other : Location) :
    (files.insert location node).get? other =
      if other = location then some node else files.get? other := by
  by_cases root : other = []
  · subst root
    simp [get?, proper.symm]
  · simp [get?, root, insert, Tree.get?_set]

/-- What stands at each location of either file system that the two do not agree on,
as it is in the second one. -/
def changes (before after : FileSystem) : List (Location × Option Node) :=
  let gone := before.toList.filterMap fun (place, _) =>
    if (after.get? place).isNone then some (place, none) else none
  let new := after.toList.filterMap fun (place, _) =>
    if before.get? place = after.get? place then none else some (place, after.get? place)
  gone ++ new

/-- No link stands anywhere. -/
def LinkFree (files : FileSystem) : Prop :=
  ∀ location target, files.get? location ≠ some (.link target)

end FileSystem

end TabCompletion
