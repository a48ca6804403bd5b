import TabCompletion.FileSystem.Basic

namespace TabCompletion

/-- Why the system refuses to follow or to change a path. -/
inductive Refusal where
  | noEntry
  | denied
  | exists
  | notDirectory
  | isDirectory
  | nameTooLong
  | linkLoop
  | busy
deriving DecidableEq, Repr

namespace Refusal

def number : Refusal → Nat
  | .noEntry => 2
  | .denied => 13
  | .busy => 16
  | .exists => 17
  | .notDirectory => 20
  | .isDirectory => 21
  | .nameTooLong => 36
  | .linkLoop => 40

def message : Refusal → Text
  | .noEntry => "No such file or directory"
  | .denied => "Permission denied"
  | .busy => "Device or resource busy"
  | .exists => "File exists"
  | .notDirectory => "Not a directory"
  | .isDirectory => "Is a directory"
  | .nameTooLong => "File name too long"
  | .linkLoop => "Too many levels of symbolic links"

end Refusal

/-- Where a path leads: to a node, or to a name that is free in a directory. -/
inductive Place where
  | taken (location : Location) (node : Node)
  | free (directory : Location) (name : Text)
deriving DecidableEq, Repr

namespace FileSystem

/-- The most bytes that a name may have. -/
def maxNameBytes : Nat := 255

/-- The most bytes that the text of a path may have. -/
def maxPathBytes : Nat := 4095

/-- The most links on the way of one path. -/
def maxLinks : Nat := 40

/-- What the last name of a path is taken for: what stands there by that name, what it
leads to when that is a link, or a file to be written, whose name no slash may follow. -/
inductive Ending where
  | itself
  | target
  | output
deriving DecidableEq, Repr

/-- Whether the text of a path ends in slashes after a name, told by the names after it. -/
def onlySlashes (rest : List Text) : Bool :=
  !rest.isEmpty && rest.all List.isEmpty

def isRooted : Text → Bool
  | '/' :: _ => true
  | _ => false

/-- Where names lead from a location, with that many links still allowed on the way. An
empty name and a single dot stay where they are, which must be a directory. -/
def walk (files : FileSystem) (ending : Ending) (links : Nat) (here : Location) :
    List Text → Except Refusal Place
  | [] =>
    match files.get? here with
    | some node => .ok (.taken here node)
    | none => .error .noEntry
  | name :: rest =>
    match files.get? here with
    | some .directory =>
      if name.isEmpty || name = ['.'] then walk files ending links here rest
      else if name = ['.', '.'] then walk files ending links here.dropLast rest
      else if ending = .output && onlySlashes rest then .error .isDirectory
      else if maxNameBytes < name.byteCount then .error .nameTooLong
      else
        match files.get? (here ++ [name]) with
        | none => if rest.isEmpty then .ok (.free here name) else .error .noEntry
        | some (.link target) =>
          if rest.isEmpty && ending = .itself then .ok (.taken (here ++ [name]) (.link target))
          else
            match links with
            | 0 => .error .linkLoop
            | links + 1 =>
              walk files ending links (if isRooted target then [] else here)
                (target.splitOn '/' ++ rest)
        | some _ => walk files ending links (here ++ [name]) rest
    | some .sealed => .error .denied
    | _ => .error .notDirectory
termination_by names => (links, names.length)

/-- Where a path leads from a working directory. -/
def locate (files : FileSystem) (cwd : Location) (ending : Ending) (path : Path) :
    Except Refusal Place :=
  if maxPathBytes < path.text.byteCount then .error .nameTooLong
  else walk files ending maxLinks (if path.isAbsolute then [] else cwd) path.parts

/-- The location that names lead to when two dots just go up. -/
def lexical (here : Location) (names : List Text) : Location :=
  names.foldl
    (fun here name =>
      if name.isEmpty || name = ['.'] then here
      else if name = ['.', '.'] then here.dropLast
      else here ++ [name])
    here

/-- The location that a path spells from a working directory. -/
def spelled (cwd : Location) (path : Path) : Location :=
  lexical (if path.isAbsolute then [] else cwd) path.parts

/-- The path one step up. Above the place where a relative path starts two dots remain. -/
def above (path : Path) : Path :=
  if path.isAbsolute then path.parent
  else
    match path.parts.getLast? with
    | some name => if name = ['.', '.'] then ⟨path.anchor, path.parts ++ [name]⟩ else path.parent
    | none => ⟨path.anchor, [['.', '.']]⟩

/-- What is known of the links met so far, by their paths: the path each leads to, or
nothing while that is being found out. -/
abbrev Seen := List (Path × Option Path)

/-- The names that are left at a path, taken by their spelling. Their text is a path of
its own when it begins with a slash. -/
def remainder (here : Path) (names : List Text) : Path :=
  here.join (Path.ofText (Text.join ['/'] names))

/-- The path that names lead to once links are followed, whether all could be, and the
links met. What does not exist leads where its name says. A link met again while it is
being followed is left standing with all the names after it. The fuel bounds the count
of links that are followed in a row and one inside of the other. -/
def realFrom (files : FileSystem) (cwd : Location) (fuel : Nat) (seen : Seen) (here : Path) :
    List Text → Path × Bool × Seen
  | [] => (here, true, seen)
  | name :: rest =>
    if name.isEmpty || name = ['.'] then realFrom files cwd fuel seen here rest
    else if name = ['.', '.'] then realFrom files cwd fuel seen (above here) rest
    else
      let next : Path := ⟨here.anchor, here.parts ++ [name]⟩
      match files.get? (spelled cwd next) with
      | some (.link target) =>
        match seen.lookup next with
        | some (some known) => realFrom files cwd fuel seen known rest
        | some none => (remainder next rest, false, seen)
        | none =>
          match fuel with
          | 0 => (remainder next rest, false, seen)
          | fuel + 1 =>
            let (reached, complete, seen) :=
              realFrom files cwd fuel ((next, none) :: seen)
                (if isRooted target then ⟨.root, []⟩ else here) (target.splitOn '/')
            if complete then realFrom files cwd fuel ((next, some reached) :: seen) reached rest
            else (remainder reached rest, false, seen)
      | _ => realFrom files cwd fuel seen next rest
termination_by names => (fuel, names.length)

/-- The count of names in the texts of all links among nodes. -/
def countNames : List (Location × Node) → Nat
  | [] => 0
  | (_, .link target) :: rest => (target.splitOn '/').length + countNames rest
  | _ :: rest => countNames rest

/-- The fuel to follow the links of a path with. No link is followed inside of itself unless
it leads back to itself, so that each text of a link is gone through at most once by each of
the ways up from the working directory. -/
def followFuel (files : FileSystem) (cwd : Location) (path : Path) : Nat :=
  (path.parts.length + countNames files.toList) * (cwd.length + 2)

/-- A path with every link followed, spelled from the root down. What is left after a link
that leads back to itself may begin with two slashes, which stay. -/
def real (files : FileSystem) (cwd : Location) (path : Path) : Path :=
  let start : Path := ⟨if path.isAbsolute then .root else .relative, []⟩
  let reached := (realFrom files cwd (files.followFuel cwd path) [] start path.parts).1
  ⟨if reached.isAbsolute then reached.anchor else .root, spelled cwd reached⟩

end FileSystem

end TabCompletion
