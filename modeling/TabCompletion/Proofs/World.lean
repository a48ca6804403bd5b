import TabCompletion.FileSystem.World
import TabCompletion.Proofs.Except
import TabCompletion.Proofs.Walk

namespace TabCompletion

open FileSystem (LinkFree Rooted Passable spelled lexical maxNameBytes maxPathBytes)

/-- Why the system refuses a location by its spelling alone. -/
def Location.fault? (location : Location) : Option Fault :=
  if location.toPath.hasNul then some .nulCharacter
  else if maxPathBytes < location.toPath.text.byteCount ∨
      ∃ name ∈ location, maxNameBytes < name.byteCount then
    some (.refused .nameTooLong location.toPath)
  else none

theorem Location.fault?_cases {location : Location} {fault : Fault}
    (refused : location.fault? = some fault) :
    fault = .nulCharacter ∨ fault = .refused .nameTooLong location.toPath := by
  unfold Location.fault? at refused
  split at refused
  · exact Or.inl (Option.some.inj refused).symm
  · split at refused
    · exact Or.inr (Option.some.inj refused).symm
    · cases refused

theorem Location.hasNul_of_fault {location : Location}
    (refused : location.fault? = some .nulCharacter) : location.toPath.hasNul = true := by
  unfold Location.fault? at refused
  split at refused
  · assumption
  · split at refused <;> simp at refused

namespace World

/-- A world without links, in which all that stands anywhere stands in a directory, and
whose working directory has a location of names. -/
structure Plain (world : World) : Prop where
  linkFree : world.files.LinkFree
  rooted : world.files.Rooted
  named : ∀ name ∈ world.cwd, IsName name

/-- What stands at a location. -/
def at? (world : World) (location : Location) : Option Node :=
  world.files.get? location

/-- A directory stands at a location, whether it may be searched or not. -/
def HasDirectory (world : World) (location : Location) : Prop :=
  world.at? location = some .directory ∨ world.at? location = some .sealed

instance (world : World) (location : Location) : Decidable (world.HasDirectory location) :=
  inferInstanceAs (Decidable (_ ∨ _))

theorem hasDirectory_iff {world : World} {location : Location} {node : Node}
    (standing : world.at? location = some node) :
    world.HasDirectory location ↔ node.isDirectory = true := by
  rw [HasDirectory, standing]
  cases node <;> simp [Node.isDirectory]

theorem hasDirectory_congr {world other : World} {location : Location}
    (same : other.at? location = world.at? location) :
    other.HasDirectory location ↔ world.HasDirectory location := by
  rw [HasDirectory, HasDirectory, same]

/-- The location that a path spells. -/
def spot (world : World) (path : Path) : Location :=
  spelled world.cwd path

/-- A path leads to the location that it spells, whether anything stands there or not. -/
structure Reaches (world : World) (path : Path) : Prop where
  clean : path.hasNul = false
  short : path.text.byteCount ≤ maxPathBytes
  passable : world.files.Passable (if path.isAbsolute then [] else world.cwd) path.parts

theorem Plain.spot_named {world : World} (plain : world.Plain) (path : Path) :
    ∀ name ∈ world.spot path, IsName name := by
  refine FileSystem.lexical_proper ?_ path.parts
  cases path.isAbsolute with
  | true => simp
  | false => exact plain.named

theorem at?_set {world : World} {location : Location} (proper : location ≠ []) (node : Node)
    (other : Location) :
    (world.set location node).at? other = if other = location then some node else world.at? other :=
  FileSystem.get?_insert world.files proper node other

theorem at?_set_self (world : World) {location : Location} (proper : location ≠ []) (node : Node) :
    (world.set location node).at? location = some node := by
  rw [at?_set proper, if_pos rfl]

theorem locate_eq_ok_iff {world : World} {ending : FileSystem.Ending} {path : Path} {place : Place} :
    world.locate ending path = .ok place ↔
      path.hasNul = false ∧ path.text.byteCount ≤ maxPathBytes ∧
        world.files.walk ending FileSystem.maxLinks (if path.isAbsolute then [] else world.cwd)
          path.parts = .ok place := by
  unfold World.locate FileSystem.locate
  cases path.hasNul with
  | true => simp
  | false =>
    by_cases long : maxPathBytes < path.text.byteCount
    · simp [long, Nat.not_le_of_lt long]
    · simp only [long, Nat.le_of_not_lt long, if_false, Bool.false_eq_true, true_and]
      generalize world.files.walk ending FileSystem.maxLinks _ path.parts = result
      cases result <;> simp

/-- Two worlds in which the same stands at each location. Notes do not count. -/
structure Alike (first second : World) : Prop where
  cwd : second.cwd = first.cwd
  draws : second.draws = first.draws
  same : ∀ location, second.at? location = first.at? location

theorem Alike.refl (world : World) : Alike world world :=
  ⟨rfl, rfl, fun _ => rfl⟩

theorem Alike.locate {first second : World} (alike : Alike first second) (ending : FileSystem.Ending)
    (path : Path) : second.locate ending path = first.locate ending path := by
  simp only [World.locate, FileSystem.locate, alike.cwd, FileSystem.walk_congr alike.same]

/-- In a plain world a path leads to a node exactly when it passes through directories to
the location it spells. -/
theorem Plain.locate_taken_iff {world : World} (plain : world.Plain) {ending : FileSystem.Ending}
    (read : ending ≠ .output) {path : Path} {location : Location} {node : Node} :
    world.locate ending path = .ok (.taken location node) ↔
      world.Reaches path ∧ location = world.spot path ∧ world.at? location = some node := by
  rw [locate_eq_ok_iff, FileSystem.walk_eq_taken_iff plain.linkFree read]
  constructor
  · rintro ⟨clean, short, passable, same, standing⟩
    exact ⟨⟨clean, short, passable⟩, same, standing⟩
  · rintro ⟨⟨clean, short, passable⟩, same, standing⟩
    exact ⟨clean, short, passable, same, standing⟩

theorem Plain.locate_free_iff {world : World} (plain : world.Plain) {ending : FileSystem.Ending}
    (read : ending ≠ .output) {path : Path} {directory : Location} {name : Text} :
    world.locate ending path = .ok (.free directory name) ↔
      world.Reaches path ∧ path.parts.getLast? = some name ∧ IsName name ∧
        world.spot path = directory ++ [name] ∧ world.at? (directory ++ [name]) = none := by
  rw [locate_eq_ok_iff, FileSystem.walk_eq_free_iff plain.linkFree read]
  constructor
  · rintro ⟨clean, short, passable, last, proper, same, free⟩
    exact ⟨⟨clean, short, passable⟩, last, proper, same, free⟩
  · rintro ⟨⟨clean, short, passable⟩, last, proper, same, free⟩
    exact ⟨clean, short, passable, last, proper, same, free⟩

theorem Plain.locate_output {world : World} (plain : world.Plain) {path : Path} {place : Place}
    (located : world.locate .output path = .ok place) : world.locate .target path = .ok place := by
  obtain ⟨clean, short, reached⟩ := locate_eq_ok_iff.mp located
  exact locate_eq_ok_iff.mpr ⟨clean, short, FileSystem.walk_output plain.linkFree reached⟩

/-- The directory that a free name is in. -/
theorem Reaches.directory {world : World} {path : Path} (reaches : world.Reaches path) {name : Text}
    (last : path.parts.getLast? = some name) (proper : IsName name) {directory : Location}
    (spot : world.spot path = directory ++ [name]) : world.at? directory = some .directory := by
  obtain ⟨names, parts⟩ := List.getLast?_eq_some_iff.mp last
  have passable := reaches.passable
  rw [parts, FileSystem.Passable.concat_iff] at passable
  have same : lexical (if path.isAbsolute then [] else world.cwd) names ++ [name] =
      directory ++ [name] := by
    rw [← FileSystem.lexical_concat proper, ← parts]
    exact spot
  rw [← List.append_cancel_right same]
  exact passable.2.1

theorem leadsTo_eq_true_iff {world : World} {test : Node → Bool} {path : Path} :
    world.leadsTo test path = .ok true ↔
      ∃ location node, world.locate .target path = .ok (.taken location node) ∧ test node = true := by
  constructor
  · intro passed
    unfold World.leadsTo at passed
    split at passed
    · rename_i location node located
      exact ⟨location, node, located, Except.ok.inj passed⟩
    all_goals cases passed
  · rintro ⟨location, node, located, passed⟩
    simp only [World.leadsTo, located, passed]

theorem readBytes_ok {world : World} {path : Path} {bytes : Bytes}
    (read : world.readBytes path = .ok bytes) :
    ∃ location mode, world.locate .target path = .ok (.taken location (.file mode bytes)) := by
  obtain ⟨place, located, read⟩ := ok_of_bind read
  cases place with
  | free directory name => cases read
  | taken location node =>
    cases node <;> cases read
    exact ⟨location, _, located⟩

/-- A directory is made by a name that is free. -/
theorem makeDirectory_free {world after : World} {path : Path} (run : world.makeDirectory path = .ok after) :
    ∃ directory name, world.locate .itself path = .ok (.free directory name) ∧
      after = world.set (directory ++ [name]) .directory := by
  obtain ⟨place, located, run⟩ := ok_of_bind run
  cases place <;> cases run
  exact ⟨_, _, located, rfl⟩

/-- A file is written by a name that is free, or over a file with its permission bits. -/
theorem writeFile_cases {world after : World} {path : Path} {bytes : Bytes}
    (run : world.writeFile path bytes = .ok after) :
    (∃ directory name, world.locate .output path = .ok (.free directory name) ∧
        after = world.set (directory ++ [name]) (.file newMode bytes)) ∨
      ∃ location mode old, world.locate .output path = .ok (.taken location (.file mode old)) ∧
        after = world.set location (.file mode bytes) := by
  obtain ⟨place, located, run⟩ := ok_of_bind run
  cases place with
  | free directory name =>
    cases run
    exact Or.inl ⟨directory, name, located, rfl⟩
  | taken location node =>
    cases node <;> cases run
    exact Or.inr ⟨location, _, _, located, rfl⟩

/-- What is removed is no directory. -/
theorem removeFile_taken {world after : World} {path : Path} (run : world.removeFile path = .ok after) :
    ∃ location node, world.locate .itself path = .ok (.taken location node) ∧ node.isDirectory = false ∧
      after = { world with files := world.files.erase location } := by
  obtain ⟨place, located, run⟩ := ok_of_bind run
  cases place with
  | free directory name => cases run
  | taken location node =>
    cases node <;> cases run
    all_goals exact ⟨location, _, located, rfl, rfl⟩

theorem isFile_of_located {world : World} {path : Path} {location : Location} {mode : Nat}
    {bytes : Bytes} (located : world.locate .target path = .ok (.taken location (.file mode bytes))) :
    world.isFile path = .ok true := by
  simp only [World.isFile, World.leadsTo, located, Node.isFile]

theorem isFile_of_locked {world : World} {path : Path} {location : Location} {mode : Nat}
    {bytes : Bytes} (located : world.locate .target path = .ok (.taken location (.locked mode bytes))) :
    world.isFile path = .ok true := by
  simp only [World.isFile, World.leadsTo, located, Node.isFile]

theorem located_of_isFile {world : World} {path : Path} (regular : world.isFile path = .ok true) :
    ∃ location mode bytes, world.locate .target path = .ok (.taken location (.file mode bytes)) ∨
      world.locate .target path = .ok (.taken location (.locked mode bytes)) := by
  obtain ⟨location, node, located, file⟩ := leadsTo_eq_true_iff.mp regular
  cases node with
  | file mode bytes => exact ⟨location, mode, bytes, Or.inl located⟩
  | locked mode bytes => exact ⟨location, mode, bytes, Or.inr located⟩
  | _ => cases file

theorem readBytes_of_located {world : World} {path : Path} {location : Location} {mode : Nat}
    {bytes : Bytes} (located : world.locate .target path = .ok (.taken location (.file mode bytes))) :
    world.readBytes path = .ok bytes := by
  rw [World.readBytes, located]
  rfl

/-- What is in a locked file stays untold. -/
theorem readText_of_locked {world : World} {path : Path} {location : Location} {mode : Nat}
    {bytes : Bytes} (located : world.locate .target path = .ok (.taken location (.locked mode bytes))) :
    world.readText path = .error (.refused .denied path) := by
  rw [World.readText, World.readBytes, located]
  rfl

theorem readText_of_located {world : World} {path : Path} {location : Location} {mode : Nat}
    {bytes : Bytes} (located : world.locate .target path = .ok (.taken location (.file mode bytes))) :
    world.readText path =
      match Utf8.decode bytes with
      | .ok text => .ok text.unifyNewlines
      | .error fault => .error (.undecodable fault) := by
  rw [World.readText, readBytes_of_located located]
  rfl

theorem Plain.leadsTo_iff {world : World} (plain : world.Plain) {test : Node → Bool} {path : Path} :
    world.leadsTo test path = .ok true ↔
      world.Reaches path ∧ ∃ node, world.at? (world.spot path) = some node ∧ test node = true := by
  rw [leadsTo_eq_true_iff]
  constructor
  · rintro ⟨location, node, located, passed⟩
    obtain ⟨reaches, same, standing⟩ := (plain.locate_taken_iff (by simp)).mp located
    exact ⟨reaches, node, same ▸ standing, passed⟩
  · rintro ⟨reaches, node, standing, passed⟩
    exact ⟨_, node, (plain.locate_taken_iff (by simp)).mpr ⟨reaches, rfl, standing⟩, passed⟩

theorem Plain.isDirectory_iff {world : World} (plain : world.Plain) {path : Path} :
    world.isDirectory path = .ok true ↔
      world.Reaches path ∧ world.HasDirectory (world.spot path) := by
  rw [World.isDirectory, plain.leadsTo_iff]
  constructor
  · rintro ⟨reaches, node, standing, passed⟩
    cases node with
    | directory => exact ⟨reaches, Or.inl standing⟩
    | sealed => exact ⟨reaches, Or.inr standing⟩
    | _ => cases passed
  · rintro ⟨reaches, standing | standing⟩
    · exact ⟨reaches, _, standing, rfl⟩
    · exact ⟨reaches, _, standing, rfl⟩

/-- What a location is to whoever looks it up. -/
def placeAt (world : World) (location : Location) : Place :=
  match world.at? location with
  | some node => .taken location node
  | none => .free location.dropLast (location.getLast?.getD [])

theorem Plain.reaches_toPath {world : World} (plain : world.Plain) {location : Location}
    (named : ∀ name ∈ location, IsName name)
    (directory : world.at? location.dropLast = some .directory) (fine : location.fault? = none) :
    world.Reaches location.toPath := by
  unfold Location.fault? at fine
  split at fine
  · cases fine
  · rename_i clean
    split at fine
    · cases fine
    · rename_i fits
      simp only [not_or, not_exists, not_and, Nat.not_lt] at fits
      refine ⟨by simpa using clean, fits.1, ?_⟩
      change world.files.Passable [] location
      rcases List.eq_nil_or_concat location with rfl | ⟨names, name, same⟩
      · trivial
      · rw [List.concat_eq_append] at same
        subst same
        have lexical_eq : lexical [] names = names := FileSystem.lexical_names
          (fun other member => named other (List.mem_append_left _ member)) []
        rw [List.dropLast_concat] at directory
        rw [FileSystem.Passable.concat_iff, lexical_eq]
        refine ⟨(plain.rooted.passable ?_ ?_ ?_).2, directory, fun _ => fits.2 name (by simp)⟩
        · exact fun member => (named _ (List.mem_append_left _ member)).2.2 rfl
        · exact fun other member _ => fits.2 other (List.mem_append_left _ member)
        · rwa [lexical_eq]

theorem spot_toPath (world : World) {location : Location}
    (named : ∀ name ∈ location, IsName name) : world.spot location.toPath = location :=
  FileSystem.lexical_names named []

/-- A location whose directory is there is looked up unless its spelling is refused. -/
theorem Plain.locate_toPath {world : World} (plain : world.Plain) {ending : FileSystem.Ending}
    (read : ending ≠ .output) {location : Location} (named : ∀ name ∈ location, IsName name)
    (directory : world.at? location.dropLast = some .directory) :
    world.locate ending location.toPath =
      match location.fault? with
      | some fault => .error fault
      | none => .ok (world.placeAt location) := by
  cases refused : location.fault? with
  | none =>
    have reaches := plain.reaches_toPath named directory refused
    have spot := world.spot_toPath named
    cases standing : world.at? location with
    | some node =>
      simp only [placeAt, standing]
      exact (plain.locate_taken_iff read).mpr ⟨reaches, spot.symm, standing⟩
    | none =>
      simp only [placeAt, standing]
      rcases List.eq_nil_or_concat location with rfl | ⟨names, name, same⟩
      · simp [at?, FileSystem.get?_nil] at standing
      · rw [List.concat_eq_append] at same
        subst same
        simp only [List.dropLast_concat, List.getLast?_concat, Option.getD_some]
        exact (plain.locate_free_iff read).mpr
          ⟨reaches, List.getLast?_concat, named name (by simp), spot, standing⟩
  | some fault =>
    unfold Location.fault? at refused
    simp only [World.locate, FileSystem.locate]
    split at refused
    · rename_i nul
      cases refused
      simp only [nul, if_true]
    · rename_i clean
      simp only [clean]
      split at refused
      · rename_i exceeds
        cases refused
        by_cases long : maxPathBytes < location.toPath.text.byteCount
        · simp [long]
        · simp only [long, false_or] at exceeds
          have walked : world.files.walk ending FileSystem.maxLinks
              (if location.toPath.isAbsolute then [] else world.cwd) location.toPath.parts =
                .error .nameTooLong :=
            FileSystem.walk_names plain.rooted plain.linkFree read FileSystem.maxLinks named
              directory exceeds
          simp [long, walked]
      · cases refused

/-- What is below a directory that may not be searched cannot be looked up. -/
theorem Plain.locate_below_sealed {world : World} (plain : world.Plain) {ending : FileSystem.Ending}
    (read : ending ≠ .output) {location : Location} (named : ∀ name ∈ location, IsName name)
    (closed : world.at? location.dropLast = some .sealed) :
    ∃ fault, world.locate ending location.toPath = .error fault := by
  have unreached : ¬ world.Reaches location.toPath := by
    intro reaches
    rcases List.eq_nil_or_concat location with rfl | ⟨above, name, same⟩
    · rw [List.dropLast_nil, at?, FileSystem.get?_nil] at closed
      cases closed
    · rw [List.concat_eq_append] at same
      subst same
      have directory := (FileSystem.Passable.concat_iff.mp reaches.passable).2.1
      have spelled : lexical [] above = above := FileSystem.lexical_names
        (fun other member => named other (List.mem_append_left _ member)) []
      rw [List.dropLast_concat, at?] at closed
      change world.files.get? (lexical [] above) = _ at directory
      rw [spelled, closed] at directory
      cases directory
  cases located : world.locate ending location.toPath with
  | error fault => exact ⟨fault, rfl⟩
  | ok place =>
    cases place with
    | taken other node => exact absurd ((plain.locate_taken_iff read).mp located).1 unreached
    | free directory name => exact absurd ((plain.locate_free_iff read).mp located).1 unreached

end World

end TabCompletion
