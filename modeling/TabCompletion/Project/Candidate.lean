import TabCompletion.Project.Root

namespace TabCompletion.Project

/-- The lists of identifiers that the shell can ask for. -/
inductive Category where
  | changes
  | specs
  | archivedChanges
deriving DecidableEq, Repr

namespace Category

def all : List Category := [changes, specs, archivedChanges]

def word : Category → Text
  | .changes => "changes"
  | .specs => "specs"
  | .archivedChanges => "archived-changes"

/-- What the menu says of each identifier in the list. -/
def label : Category → Text
  | .changes => "active change"
  | .specs => "specification"
  | .archivedChanges => "archived change"

def ofWord? (word : Text) : Option Category :=
  all.find? (·.word = word)

/-- The directory whose subdirectories the list is about. -/
def directory (category : Category) (root : Path) : Path :=
  let base := root / Product.name
  match category with
  | .changes => base / ("changes" : Text)
  | .specs => base / ("specs" : Text)
  | .archivedChanges => base / ("changes" : Text) / ("archive" : Text)

/-- The file that a subdirectory must hold to be on the list. -/
def requiredFile? : Category → Option Text
  | .changes => some "proposal.md"
  | .specs => some "spec.md"
  | .archivedChanges => none

/-- Hidden names are on no list, and the archive is no change. -/
def admits (category : Category) (name : Text) : Bool :=
  name.head? != some '.' && !(category = .changes && name = ("archive" : Text))

end Category

/-- Whether a name in a category's directory is an identifier of that category. -/
def qualifies (world : World) (category : Category) (parent : Path) (name : Text) :
    Except Fault Bool := do
  let entry := parent / name
  if ← world.isDirectory entry then
    if category.admits name then
      match category.requiredFile? with
      | some file => world.isFile (entry / file)
      | none => pure true
    else pure false
  else pure false

/-- The names of a list that are identifiers. -/
def qualified (world : World) (category : Category) (parent : Path) :
    List Text → Except Fault (List Text)
  | [] => .ok []
  | name :: rest => do
    let keep ← qualifies world category parent name
    let others ← qualified world category parent rest
    pure (if keep then name :: others else others)

/-- The identifiers of a category in the order of their characters. A category without a
directory has none. -/
def identifiers (world : World) (root : Path) (category : Category) : Except Fault (List Text) := do
  let parent := category.directory root
  if ← world.isDirectory parent then
    let names ← qualified world category parent (← world.list parent)
    pure (names.mergeSort Text.atMost)
  else pure []

/-- A category by its word, or the failure that there is none of that word. -/
def category (word : Text) : Except Fault Category :=
  match Category.ofWord? word with
  | some category => .ok category
  | none =>
    .error (.failure (.stated .invalidUsage
      ("Unknown completion type '" ++ word ++ "'. Expected one of: " ++
        Text.join ", " (Category.all.map Category.word))))

/-- The identifiers of a category, each with the category's label. -/
def candidates (world : World) (root : Path) (word : Text) : Except Fault (List (Text × Text)) := do
  let category ← category word
  pure ((← identifiers world root category).map fun name => (name, category.label))

end TabCompletion.Project
