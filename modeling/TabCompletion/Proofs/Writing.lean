import TabCompletion.Proofs.Disk

namespace TabCompletion

open FileSystem (maxNameBytes maxPathBytes)
open World (Plain Evolves Reaches)

/-- The locations that a path spells with only some of its parts, from the first one on. -/
def Along (world : World) (anchor : Anchor) (parts : List Text) (location : Location) : Prop :=
  ∃ count, location = world.spot ⟨anchor, parts.take count⟩

theorem Along.whole (world : World) (anchor : Anchor) (parts : List Text) :
    Along world anchor parts (world.spot ⟨anchor, parts⟩) :=
  ⟨parts.length, by rw [List.take_length]⟩

theorem Along.concat {world : World} {anchor : Anchor} {parts : List Text} {location : Location}
    (along : Along world anchor parts location) (name : Text) :
    Along world anchor (parts ++ [name]) location := by
  obtain ⟨count, rfl⟩ := along
  refine ⟨min count parts.length, ?_⟩
  rw [List.take_append_of_le_length (Nat.min_le_right _ _), List.take_eq_take_min]

theorem Along.of_concat {world : World} {anchor : Anchor} {parts : List Text} {name : Text}
    {location : Location} (along : Along world anchor (parts ++ [name]) location) :
    Along world anchor parts location ∨ location = world.spot ⟨anchor, parts ++ [name]⟩ := by
  obtain ⟨count, rfl⟩ := along
  by_cases within : count ≤ parts.length
  · exact Or.inl ⟨count, by rw [List.take_append_of_le_length within]⟩
  · refine Or.inr ?_
    rw [List.take_of_length_le (by simp; omega)]

/-- All that a path spells on its way to a directory is a directory. -/
theorem World.Reaches.along {world : World} {path : Path} {location : Location}
    (reaches : world.Reaches path) (standing : world.HasDirectory (world.spot path))
    (along : Along world path.anchor path.parts location) : world.HasDirectory location := by
  obtain ⟨count, rfl⟩ := along
  have passable := reaches.passable
  rw [← List.take_append_drop count path.parts, FileSystem.Passable.append_iff] at passable
  cases later : path.parts.drop count with
  | nil =>
    rw [List.take_of_length_le (List.drop_eq_nil_iff.mp later)]
    exact standing
  | cons name rest =>
    rw [later] at passable
    exact Or.inl passable.2.1

namespace World

/-- A directory is made as the name of a path that is free in a directory. -/
theorem Plain.makeDirectory_ok {world after : World} {path : Path} (plain : world.Plain)
    (run : world.makeDirectory path = .ok after) :
    Evolves (· = world.spot path) (fun _ => False) world after ∧
      after.isDirectory path = .ok true := by
  obtain ⟨directory, name, located, rfl⟩ := makeDirectory_free run
  obtain ⟨reaches, last, proper, spot, free⟩ := (plain.locate_free_iff (by simp)).mp located
  have parent := reaches.directory last proper spot
  have evolves := Evolves.of_directory plain parent free
  refine ⟨by rwa [spot], evolves.plain.isDirectory_iff.mpr ⟨evolves.reaches reaches, Or.inl ?_⟩⟩
  rw [evolves.spot, spot, at?_set (by simp), if_pos rfl]

end World

namespace Disk

theorem keepDirectory_world {world after : World} {path : Path} {fault : Fault}
    {result : Except Fault Unit} (run : keepDirectory path fault world = (result, after)) :
    after = world ∧ (result = .ok () → world.isDirectory path = .ok true) := by
  unfold keepDirectory at run
  split at run
  · rcases look_bind_cases run with ⟨other, -, rfl, rfl⟩ | ⟨directory, there, run⟩
    · exact ⟨rfl, by simp⟩
    · cases directory <;> cases run <;> exact ⟨rfl, by simp [there]⟩
  · cases run
    exact ⟨rfl, by simp⟩

theorem makeDirectory_evolves {world after : World} {path : Path} {result : Except Fault Unit}
    (plain : world.Plain) (run : makeDirectory path world = (result, after)) :
    Evolves (· = world.spot path) (fun _ => False) world after ∧
      (result = .ok () → after.isDirectory path = .ok true) := by
  unfold makeDirectory at run
  rw [run_bind, run_attempt, run_change] at run
  cases made : world.makeDirectory path with
  | error fault =>
    rw [made] at run
    obtain ⟨rfl, standing⟩ := keepDirectory_world run
    exact ⟨.refl plain, standing⟩
  | ok next =>
    rw [made] at run
    cases run
    obtain ⟨evolves, standing⟩ := plain.makeDirectory_ok made
    exact ⟨evolves, fun _ => standing⟩

theorem makeUpFrom_refused {anchor : Anchor} {name : Text} {above : List Text} {missing : Nat}
    {world : World} {fault : Fault}
    (refused : world.makeDirectory ⟨anchor, (name :: above).reverse⟩ = .error fault)
    (present : ∀ path, fault ≠ .refused .noEntry path) :
    makeUpFrom anchor missing (name :: above) world =
      keepDirectory ⟨anchor, (name :: above).reverse⟩ fault world := by
  rw [makeUpFrom, run_bind, run_attempt, run_change, refused]
  cases fault with
  | refused refusal path =>
    cases refusal with
    | noEntry => exact absurd rfl (present path)
    | _ => rfl
  | _ => rfl

/-- How making a directory with all that is missing above it comes to its end. -/
inductive MakesUp (anchor : Anchor) (world : World) :
    Nat → List Text → Except Fault Unit → World → Prop
  | root {missing : Nat} {result : Except Fault Unit} {after : World}
      (run : makeDirectory ⟨anchor, []⟩ world = (result, after)) :
      MakesUp anchor world missing [] result after
  | made {missing : Nat} {name : Text} {above : List Text} {after : World}
      (made : world.makeDirectory ⟨anchor, (name :: above).reverse⟩ = .ok after) :
      MakesUp anchor world missing (name :: above) (.ok ()) after
  | kept {missing : Nat} {name : Text} {above : List Text} {fault : Fault} {result : Except Fault Unit}
      {after : World} (refused : world.makeDirectory ⟨anchor, (name :: above).reverse⟩ = .error fault)
      (present : ∀ path, fault ≠ .refused .noEntry path)
      (run : keepDirectory ⟨anchor, (name :: above).reverse⟩ fault world = (result, after)) :
      MakesUp anchor world missing (name :: above) result after
  | givenUp {name : Text} {above : List Text} {path : Path}
      (absent : world.makeDirectory ⟨anchor, (name :: above).reverse⟩ = .error (.refused .noEntry path)) :
      MakesUp anchor world 0 (name :: above) (.error .nestedDirectories) world
  | stopped {missing : Nat} {name : Text} {above : List Text} {path : Path} {fault : Fault} {after : World}
      (absent : world.makeDirectory ⟨anchor, (name :: above).reverse⟩ = .error (.refused .noEntry path))
      (up : MakesUp anchor world missing above (.error fault) after) :
      MakesUp anchor world (missing + 1) (name :: above) (.error fault) after
  | onward {missing : Nat} {name : Text} {above : List Text} {path : Path} {middle : World}
      {result : Except Fault Unit} {after : World}
      (absent : world.makeDirectory ⟨anchor, (name :: above).reverse⟩ = .error (.refused .noEntry path))
      (up : MakesUp anchor world missing above (.ok ()) middle)
      (last : makeDirectory ⟨anchor, (name :: above).reverse⟩ middle = (result, after)) :
      MakesUp anchor world (missing + 1) (name :: above) result after

theorem makesUp_of_run {anchor : Anchor} {world after : World} {missing : Nat} {names : List Text}
    {result : Except Fault Unit} (run : makeUpFrom anchor missing names world = (result, after)) :
    MakesUp anchor world missing names result after := by
  induction names generalizing missing after result with
  | nil =>
    rw [makeUpFrom] at run
    exact .root run
  | cons name above ih =>
    cases made : world.makeDirectory ⟨anchor, (name :: above).reverse⟩ with
    | ok next =>
      rw [makeUpFrom, run_bind, run_attempt, run_change, made] at run
      cases run
      exact .made made
    | error fault =>
      by_cases present : ∀ path, fault ≠ .refused .noEntry path
      · rw [makeUpFrom_refused made present] at run
        exact .kept made present run
      -- The parent is missing: it is made first, unless too many are missing already.
      obtain ⟨path, rfl⟩ : ∃ path, fault = .refused .noEntry path :=
        Classical.byContradiction fun never => present fun path same => never ⟨path, same⟩
      rw [makeUpFrom, run_bind, run_attempt, run_change, made] at run
      cases missing with
      | zero =>
        cases run
        exact .givenUp made
      | succ missing =>
        dsimp only at run
        rw [run_bind] at run
        cases up : makeUpFrom anchor missing above world with
        | mk upper middle =>
          rw [up] at run
          cases upper with
          | error failed =>
            cases run
            exact .stopped made (ih up)
          | ok done => exact .onward made (ih up) run

/-- What is missing above a directory is made along its path, and nothing else. -/
theorem MakesUp.evolves {anchor : Anchor} {names : List Text} {missing : Nat} {world after : World}
    {result : Except Fault Unit} (makes : MakesUp anchor world missing names result after)
    (plain : world.Plain) :
    Evolves (Along world anchor names.reverse) (fun _ => False) world after ∧
      (result = .ok () → after.isDirectory ⟨anchor, names.reverse⟩ = .ok true) := by
  have last (names : List Text) (place : Location) (same : place = world.spot ⟨anchor, names⟩) :
      Along world anchor names place := same ▸ .whole world anchor names
  have higher {name : Text} {above : List Text} {middle : World}
      (up : Evolves (Along world anchor above.reverse) (fun _ => False) world middle) :
      Evolves (Along world anchor (name :: above).reverse) (fun _ => False) world middle := by
    rw [List.reverse_cons]
    exact up.mono (fun place along => along.concat name) (by simp)
  induction makes with
  | root run =>
    obtain ⟨evolves, standing⟩ := makeDirectory_evolves plain run
    exact ⟨evolves.mono (last []) (by simp), standing⟩
  | made made =>
    obtain ⟨evolves, standing⟩ := plain.makeDirectory_ok made
    exact ⟨evolves.mono (last _) (by simp), fun _ => standing⟩
  | kept _ _ run =>
    obtain ⟨rfl, standing⟩ := keepDirectory_world run
    exact ⟨.refl plain, standing⟩
  | givenUp _ => exact ⟨.refl plain, by simp⟩
  | stopped _ _ ih => exact ⟨higher ih.1, by simp⟩
  | onward _ _ run ih =>
    obtain ⟨second, standing⟩ := makeDirectory_evolves ih.1.plain run
    rw [ih.1.spot] at second
    exact ⟨(higher ih.1).trans (second.mono (last _) (by simp)), standing⟩

theorem makeDirectories_evolves {path : Path} {world after : World} {result : Except Fault Unit}
    (plain : world.Plain) (run : makeDirectories path world = (result, after)) :
    Evolves (Along world path.anchor path.parts) (fun _ => False) world after ∧
      (result = .ok () → after.isDirectory path = .ok true) := by
  obtain ⟨evolves, standing⟩ := (makesUp_of_run run).evolves plain
  rw [List.reverse_reverse] at evolves standing
  exact ⟨evolves, standing⟩

theorem makeDirectories_refused {path : Path} {world : World} {fault : Fault}
    (refused : world.makeDirectory path = .error fault)
    (present : ∀ path, fault ≠ .refused .noEntry path) :
    makeDirectories path world = keepDirectory path fault world := by
  obtain ⟨anchor, parts⟩ := path
  unfold makeDirectories
  rcases List.eq_nil_or_concat parts with rfl | ⟨names, name, same⟩
  · rw [List.reverse_nil, makeUpFrom, makeDirectory, run_bind, run_attempt, run_change, refused]
  · rw [List.concat_eq_append] at same
    subst same
    simp only [List.reverse_append, List.reverse_singleton, List.singleton_append]
    rw [makeUpFrom_refused (by simpa using refused) present]
    simp

theorem keepDirectory_standing {path : Path} {world : World}
    (standing : world.isDirectory path = .ok true) :
    keepDirectory path (.refused .exists path) world = (.ok (), world) := by
  rw [keepDirectory, if_pos (by rfl), run_bind, run_look, standing]
  rfl

theorem makeDirectory_refused {path : Path} {world : World} (plain : world.Plain)
    (standing : world.isDirectory path = .ok true) :
    world.makeDirectory path = .error (.refused .exists path) := by
  obtain ⟨reaches, there⟩ := plain.isDirectory_iff.mp standing
  obtain ⟨node, located⟩ : ∃ node, world.locate .itself path = .ok (.taken (world.spot path) node) := by
    rcases there with there | there
    · exact ⟨_, (plain.locate_taken_iff (by simp)).mpr ⟨reaches, rfl, there⟩⟩
    · exact ⟨_, (plain.locate_taken_iff (by simp)).mpr ⟨reaches, rfl, there⟩⟩
  rw [World.makeDirectory, located]
  rfl

theorem makeDirectory_standing {path : Path} {world : World} (plain : world.Plain)
    (standing : world.isDirectory path = .ok true) : makeDirectory path world = (.ok (), world) := by
  rw [makeDirectory, run_bind, run_attempt, run_change, makeDirectory_refused plain standing]
  exact keepDirectory_standing standing

/-- A directory that is there is made without any change. -/
theorem makeDirectories_standing {path : Path} {world : World} (plain : world.Plain)
    (standing : world.isDirectory path = .ok true) : makeDirectories path world = (.ok (), world) := by
  rw [makeDirectories_refused (makeDirectory_refused plain standing) (by simp),
    keepDirectory_standing standing]

/-- Making a directory that is there, by the spelling of its location, changes nothing. -/
theorem makeDirectories_toPath {location : Location} {world : World} (plain : world.Plain)
    (named : ∀ name ∈ location, IsName name) (standing : world.HasDirectory location) :
    makeDirectories location.toPath world =
      match location.fault? with
      | some fault => (.error fault, world)
      | none => (.ok (), world) := by
  have above : world.at? location.dropLast = some .directory := by
    rcases List.eq_nil_or_concat location with rfl | ⟨names, name, same⟩
    · exact FileSystem.get?_nil world.files
    · rw [List.concat_eq_append] at same
      subst same
      rw [List.dropLast_concat]
      refine plain.rooted names name ?_
      change world.at? (names ++ [name]) ≠ none
      rcases standing with there | there <;> simp [there]
  cases fine : location.fault? with
  | none =>
    refine makeDirectories_standing plain (plain.isDirectory_iff.mpr ?_)
    rw [world.spot_toPath named]
    exact ⟨plain.reaches_toPath named above fine, standing⟩
  | some fault =>
    have located : world.locate .target location.toPath = _ :=
      plain.locate_toPath (by simp) named above
    have located_itself : world.locate .itself location.toPath = _ :=
      plain.locate_toPath (by simp) named above
    rw [fine] at located located_itself
    have refused : world.makeDirectory location.toPath = .error fault := by
      rw [World.makeDirectory, located_itself]
      rfl
    rcases Location.fault?_cases fine with rfl | rfl
    · rw [makeDirectories_refused refused (by simp), keepDirectory, if_neg (by decide), run_throw]
    · have unseen : world.isDirectory location.toPath =
          .error (.refused .nameTooLong location.toPath) := by
        simp only [World.isDirectory, World.leadsTo, located]
      rw [makeDirectories_refused refused (by simp), keepDirectory, if_pos (by rfl), run_bind,
        run_look, unseen]

end Disk

/-- The name of a temporary file is longer than that of the file it is to replace. -/
theorem Path.beside_name_length (path : Path) (draw : Draw) :
    path.name.length + 14 ≤ ('.' :: path.name ++ '.' :: draw.text ++ ".tmp".toList).length := by
  have ending : ".tmp".toList.length = 4 := rfl
  simp only [List.length_append, List.length_cons, ending, draw.length]
  omega

theorem Path.beside_isName (path : Path) (draw : Draw) :
    IsName ('.' :: path.name ++ '.' :: draw.text ++ ".tmp".toList) := by
  have long := path.beside_name_length draw
  refine ⟨?_, ?_, ?_⟩ <;> intro same <;> rw [same] at long <;> simp at long

namespace Location

/-- The location of a temporary file for the one at a location. -/
def beside (location : Location) (draw : Draw) : Location :=
  (location.toPath.beside draw).parts

theorem beside_named {location : Location} (named : ∀ name ∈ location, IsName name) (draw : Draw) :
    ∀ name ∈ location.beside draw, IsName name := by
  intro name member
  rcases List.mem_append.mp member with old | new
  · exact named name (List.dropLast_subset _ old)
  · rw [List.mem_singleton.mp new]
    exact location.toPath.beside_isName draw

theorem beside_dropLast (location : Location) (draw : Draw) :
    (location.beside draw).dropLast = location.dropLast :=
  List.dropLast_concat

theorem toPath_beside (location : Location) (draw : Draw) :
    location.toPath.beside draw = (location.beside draw).toPath := rfl

theorem beside_ne (location : Location) (draw : Draw) : location.beside draw ≠ location := by
  intro same
  have last : location.toPath.name =
      '.' :: location.toPath.name ++ '.' :: draw.text ++ ".tmp".toList := by
    have last := congrArg (fun place : Location => place.getLast?.getD []) same
    simpa [beside, Path.beside, Path.name, Location.toPath] using last.symm
  have longer := location.toPath.beside_name_length draw
  rw [← last] at longer
  omega

end Location

namespace World

/-- The permission bits of a file put in the place of a node. -/
def keptMode : Option Node → Nat
  | some (.file mode _) | some (.locked mode _) => mode % 0o1000
  | some .directory | some .sealed => directoryMode
  | _ => newMode

/-- The first location drawn for a temporary file by which nothing stands, or why there is none. -/
def besideFrom (world : World) (location : Location) : List Draw → Except Fault Location
  | [] => .error .noTemporaryName
  | draw :: more =>
    match (location.beside draw).fault? with
    | some fault => .error fault
    | none =>
      if (world.at? (location.beside draw)).isSome then besideFrom world location more
      else .ok (location.beside draw)

/-- The location of the temporary file for the one at a location. -/
def beside (world : World) (location : Location) : Except Fault Location :=
  world.besideFrom location world.draws

/-- Why the file at a location cannot be replaced when its directory is there. -/
def replaceFault? (world : World) (location : Location) : Option Fault :=
  if location.toPath.hasNul then some .nulCharacter
  else
    (Location.fault? location.dropLast).or <| location.fault?.or <|
      match world.beside location with
      | .error fault => some fault
      | .ok place =>
        if world.HasDirectory location then
          some (.renameRefused .isDirectory place.toPath location.toPath)
        else none

theorem besideFrom_congr {before after : World} {location : Location} {draws : List Draw}
    (same : ∀ draw ∈ draws, after.at? (location.beside draw) = before.at? (location.beside draw)) :
    after.besideFrom location draws = before.besideFrom location draws := by
  induction draws with
  | nil => rfl
  | cons draw more ih =>
    rw [besideFrom, besideFrom, same draw List.mem_cons_self,
      ih fun other member => same other (List.mem_cons_of_mem draw member)]

/-- In a directory that is there a temporary file is drawn by where it is going to be. -/
theorem Plain.temporary_eq {world : World} (plain : world.Plain) {location : Location}
    (named : ∀ name ∈ location, IsName name)
    (directory : world.at? location.dropLast = some .directory) :
    world.temporary location.toPath = (world.beside location).map Location.toPath := by
  unfold temporary beside
  induction world.draws with
  | nil => rfl
  | cons draw more ih =>
    have located : world.locate .itself (location.beside draw).toPath = _ :=
      plain.locate_toPath (by simp) (Location.beside_named named draw)
        (by rwa [Location.beside_dropLast])
    rw [temporaryFrom, besideFrom, location.toPath_beside, located, ih]
    cases (location.beside draw).fault? with
    | some fault => rfl
    | none =>
      unfold placeAt
      cases world.at? (location.beside draw) with
      | some node => rfl
      | none => rfl

theorem Plain.realPath_eq {world : World} (plain : world.Plain) {path : Path}
    (clean : path.hasNul = false) :
    world.realPath path =
      if (world.spot path).toPath.hasNul then .error .nulCharacter
      else .ok (world.spot path).toPath := by
  have real : world.files.real world.cwd path = (world.spot path).toPath :=
    FileSystem.real_of_linkFree plain.linkFree world.cwd path
  have loopless : world.files.locate world.cwd .target (world.spot path).toPath ≠ .error .linkLoop := by
    unfold FileSystem.locate
    split
    · simp
    · exact FileSystem.walk_ne_linkLoop plain.linkFree _ _ _ _
  simp only [World.realPath, clean, Bool.false_eq_true, if_false, real, World.locate]
  by_cases nul : (world.spot path).toPath.hasNul
  · simp only [nul, if_true]
  · simp only [nul, Bool.false_eq_true, if_false]
    cases located : world.files.locate world.cwd .target (world.spot path).toPath with
    | ok place => rfl
    | error refusal =>
      cases refusal with
      | linkLoop => exact absurd located loopless
      | _ => rfl

theorem Plain.replacementMode_eq {world : World} (plain : world.Plain) {location : Location}
    (named : ∀ name ∈ location, IsName name)
    (directory : world.at? location.dropLast = some .directory)
    (clean : location.toPath.hasNul = false) :
    world.replacementMode location.toPath =
      match location.fault? with
      | some fault => .error fault
      | none => .ok (keptMode (world.at? location)) := by
  have located : world.locate .target location.toPath = _ :=
    plain.locate_toPath (by simp) named directory
  cases fine : location.fault? with
  | none =>
    simp only [replacementMode, World.exists?, leadsTo, located, fine, placeAt]
    cases standing : world.at? location with
    | none => rfl
    | some node => cases node <;> rfl
  | some fault =>
    rcases Location.fault?_cases fine with rfl | rfl
    · simp [Location.hasNul_of_fault fine] at clean
    · simp only [replacementMode, World.exists?, leadsTo, located, fine]
      rfl

/-- A file whose directory is there is replaced as a whole, unless it is refused. -/
theorem Plain.replaceFile_eq {world : World} (plain : world.Plain) {location : Location}
    (named : ∀ name ∈ location, IsName name) (proper : location ≠ [])
    (directory : world.at? location.dropLast = some .directory)
    (clean : location.toPath.hasNul = false)
    (above : Location.fault? location.dropLast = none) (bytes : Bytes) :
    world.replaceFile location.toPath bytes =
      match world.replaceFault? location with
      | some fault => .error fault
      | none => .ok (world.set location (.file (keptMode (world.at? location)) bytes)) := by
  have located : world.locate .itself location.toPath = _ :=
    plain.locate_toPath (by simp) named directory
  simp only [replaceFault?, clean, above, Bool.false_eq_true, if_false, Option.none_or, replaceFile, renameSpot,
    plain.replacementMode_eq named directory clean, plain.temporary_eq named directory, located]
  cases location.fault? with
  | some fault => rfl
  | none =>
    simp only [Option.none_or]
    cases world.beside location with
    | error fault => rfl
    | ok place =>
      have whole : location.dropLast ++ [location.getLast?.getD []] = location := by
        rcases List.eq_nil_or_concat location with same | ⟨names, name, rfl⟩
        · exact absurd same proper
        · simp
      obtain ⟨first, rest, rfl⟩ := List.exists_cons_of_ne_nil proper
      by_cases holds : world.HasDirectory (first :: rest)
      · simp only [holds, if_true]
        rcases holds with standing | standing
        · simp only [placeAt, standing]
          rfl
        · simp only [placeAt, standing]
          rfl
      · simp only [holds, if_false]
        cases standing : world.at? (first :: rest) with
        | none =>
          simp only [placeAt, standing, whole]
          rfl
        | some node =>
          simp only [placeAt, standing]
          cases node with
          | directory => exact absurd (Or.inl standing) holds
          | sealed => exact absurd (Or.inr standing) holds
          | link target => exact absurd standing (plain.linkFree _ target)
          | _ => rfl

end World

/-- Where the directory of a file is there, writing the file replaces it as a whole or
changes nothing, and what decides it is neither the text nor what the file was. -/
theorem Disk.writeText_eq {world : World} (plain : world.Plain) {path : Path}
    (clean : path.hasNul = false) (proper : world.spot path ≠ [])
    (directory : world.at? (world.spot path).dropLast = some .directory) (text : Text) :
    writeText path text world =
      match world.replaceFault? (world.spot path) with
      | some fault => (.error fault, world)
      | none => (.ok (), world.set (world.spot path)
          (.file (World.keptMode (world.at? (world.spot path))) (Utf8.encode text))) := by
  have named := plain.spot_named path
  have namedAbove : ∀ name ∈ (world.spot path).dropLast, IsName name := fun name member =>
    named name (List.dropLast_subset _ member)
  have made := makeDirectories_toPath plain namedAbove (Or.inl directory)
  have parent : (world.spot path).toPath.parent = Location.toPath (world.spot path).dropLast := rfl
  unfold writeText
  rw [run_bind, run_look, plain.realPath_eq clean]
  by_cases nul : (world.spot path).toPath.hasNul
  · simp only [nul, World.replaceFault?, if_true]
  · simp only [nul, Bool.false_eq_true, if_false]
    rw [run_bind, parent, made]
    cases above : Location.fault? (world.spot path).dropLast with
    | some fault => simp [World.replaceFault?, nul, above]
    | none =>
      dsimp only
      rw [run_change, plain.replaceFile_eq named proper directory (by simpa using nul) above]
      cases world.replaceFault? (world.spot path) <;> rfl

/-- In a directory that may not be searched no file is written. -/
theorem Disk.writeText_sealed {world : World} (plain : world.Plain) {path : Path}
    (clean : path.hasNul = false) (closed : world.at? (world.spot path).dropLast = some .sealed)
    (text : Text) : ∃ fault, writeText path text world = (.error fault, world) := by
  have named := plain.spot_named path
  have namedAbove : ∀ name ∈ (world.spot path).dropLast, IsName name := fun name member =>
    named name (List.dropLast_subset _ member)
  have made := makeDirectories_toPath plain namedAbove (Or.inr closed)
  have parent : (world.spot path).toPath.parent = Location.toPath (world.spot path).dropLast := rfl
  have unnamed : ∃ fault, world.temporary (world.spot path).toPath = .error fault := by
    unfold World.temporary
    cases world.draws with
    | nil => exact ⟨_, rfl⟩
    | cons draw more =>
      have read : FileSystem.Ending.itself ≠ .output := by simp
      obtain ⟨fault, refused⟩ := plain.locate_below_sealed read (Location.beside_named named draw)
        (by rwa [Location.beside_dropLast])
      rw [World.temporaryFrom, Location.toPath_beside, refused]
      exact ⟨fault, rfl⟩
  unfold writeText
  rw [run_bind, run_look, plain.realPath_eq clean]
  by_cases nul : (world.spot path).toPath.hasNul
  · simp only [nul, if_true]
    exact ⟨_, rfl⟩
  · simp only [nul, Bool.false_eq_true, if_false]
    rw [run_bind, parent, made]
    cases Location.fault? (world.spot path).dropLast with
    | some fault => exact ⟨fault, rfl⟩
    | none =>
      dsimp only
      rw [run_change, World.replaceFile]
      obtain ⟨fault, unnamed⟩ := unnamed
      cases world.replacementMode (world.spot path).toPath with
      | error other => exact ⟨other, rfl⟩
      | ok mode =>
        rw [unnamed]
        exact ⟨fault, rfl⟩

/-- A file that stands is written over with the permission bits that it has. -/
theorem Disk.writeText_standing {world : World} (plain : world.Plain) {path : Path}
    {location : Location} {mode : Nat} {bytes : Bytes}
    (located : world.locate .target path = .ok (.taken location (.file mode bytes))) (text : Text) :
    writeText path text world =
      match world.replaceFault? location with
      | some fault => (.error fault, world)
      | none => (.ok (), world.set location (.file (mode % 0o1000) (Utf8.encode text))) := by
  obtain ⟨reaches, rfl, standing⟩ := (plain.locate_taken_iff (by simp)).mp located
  have directory := (plain.parent standing).1
  have proper : world.spot path ≠ [] := world.ne_nil_of_kept (by simp [World.HasDirectory, standing])
  rw [writeText_eq plain reaches.clean proper directory, standing]
  rfl

/-- What decides whether a file can be replaced is what stands at its location and beside it. -/
theorem World.replaceFault?_congr {before after : World} {location : Location}
    (draws : after.draws = before.draws)
    (beside : ∀ draw ∈ before.draws,
      after.at? (location.beside draw) = before.at? (location.beside draw))
    (here : after.HasDirectory location ↔ before.HasDirectory location) :
    after.replaceFault? location = before.replaceFault? location := by
  simp only [World.replaceFault?, World.beside, draws, World.besideFrom_congr beside, here]

namespace World

theorem replaceFault?_eq_none {world : World} {location : Location}
    (fine : world.replaceFault? location = none) : ¬ world.HasDirectory location := by
  unfold replaceFault? at fine
  split at fine
  · cases fine
  · simp only [Option.or_eq_none_iff] at fine
    obtain ⟨-, -, rest⟩ := fine
    split at rest
    · cases rest
    · split at rest
      · cases rest
      · assumption

theorem keptMode_mod (node : Option Node) : keptMode node % 0o1000 = keptMode node := by
  unfold keptMode
  split
  · exact Nat.mod_mod _ _
  · exact Nat.mod_mod _ _
  · rfl
  · rfl
  · rfl

/-- A file that could be replaced can be replaced again. -/
theorem replaceFault?_set {world : World} {location : Location} (proper : location ≠ [])
    (fine : world.replaceFault? location = none) (mode : Nat) (bytes : Bytes) :
    (world.set location (.file mode bytes)).replaceFault? location = none := by
  rw [← fine]
  refine replaceFault?_congr rfl (fun draw _ => ?_) (iff_of_false ?_ (replaceFault?_eq_none fine))
  · rw [at?_set proper, if_neg (location.beside_ne draw)]
  · rw [HasDirectory, at?_set_self _ proper]
    simp

theorem homeWith_fine (bytes : Bytes) :
    (homeWith bytes).replaceFault? ["home".toList, ".zshrc".toList] = none := by
  have free : (bareHome.replaceFault? ["home".toList, ".zshrc".toList]).isNone = true := rfl
  exact replaceFault?_set (by simp) (Option.isNone_iff_eq_none.mp free) 0o600 bytes

end World

end TabCompletion
