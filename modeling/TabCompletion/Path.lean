import TabCompletion.Text.Quoted

namespace TabCompletion

/-- How a path begins. Exactly two slashes are kept apart from one. -/
inductive Anchor where
  | relative
  | root
  | doubleRoot
deriving DecidableEq, Repr

/-- A path by its parts. No part is empty, a single dot, or has a slash in it; two dots
stay as they are. -/
structure Path where
  anchor : Anchor
  parts : List Text
deriving DecidableEq, Repr

namespace Path

def isPart (part : Text) : Bool :=
  !part.isEmpty && part != ['.']

def anchorOf : Text → Anchor
  | '/' :: '/' :: '/' :: _ => .root
  | '/' :: '/' :: _ => .doubleRoot
  | '/' :: _ => .root
  | _ => .relative

/-- The path that a text spells; many texts spell the same path. -/
def ofText (text : Text) : Path :=
  ⟨anchorOf text, (text.splitOn '/').filter isPart⟩

instance : Coe String Path := ⟨fun text => ofText text.toList⟩

def Anchor.text : Anchor → Text
  | .relative => []
  | .root => ['/']
  | .doubleRoot => ['/', '/']

/-- The canonical text of a path; that of the empty one is a dot. -/
def text (path : Path) : Text :=
  match Anchor.text path.anchor ++ Text.join ['/'] path.parts with
  | [] => ['.']
  | text => text

def isAbsolute (path : Path) : Bool :=
  path.anchor != .relative

/-- One path seen from another. An absolute path is seen alike from everywhere. -/
def join (base path : Path) : Path :=
  if path.isAbsolute then path else ⟨base.anchor, base.parts ++ path.parts⟩

instance : HDiv Path Text Path := ⟨fun base text => join base (ofText text)⟩

/-- The path without its last part; a path without parts is its own parent. -/
def parent (path : Path) : Path :=
  ⟨path.anchor, path.parts.dropLast⟩

/-- The last part, empty when there is none. -/
def name (path : Path) : Text :=
  path.parts.getLast?.getD []

/-- The paths above a path, the nearest first. -/
def parents (path : Path) : List Path :=
  (List.range path.parts.length).map fun count => ⟨path.anchor, path.parts.take (path.parts.length - 1 - count)⟩

/-- The rest of a path below another one. -/
def relativeTo? (path base : Path) : Option Path :=
  if path.anchor = base.anchor && base.parts.isPrefixOf path.parts then
    some ⟨.relative, path.parts.drop base.parts.length⟩
  else none

def quoted (path : Path) : Text :=
  path.text.quoted

end Path

end TabCompletion
