import TabCompletion.Proofs.CrashLog

namespace TabCompletion

namespace FileSystem

/-- All directories and links of one file system are in another one, too. -/
def Passed (files others : FileSystem) : Prop :=
  ∀ location node, files.get? location = some node → node.isFile = false → others.get? location = some node

/-- A file may be put wherever there is no directory and no link to lose. -/
theorem Passed.insert (files : FileSystem) {location : Location} (proper : location ≠ [])
    (losable : ∀ node, files.get? location = some node → node.isFile = true)
    (node : Node) : Passed files (files.insert location node) := by
  intro other old standing unfilled
  rw [get?_insert files proper]
  split
  · rename_i here
    subst here
    rw [losable old standing] at unfilled
    cases unfilled
  · exact standing

namespace Leads

variable {files others : FileSystem} {here there : Location} {names : List Text} {count : Nat}

/-- Names that lead to a directory start from one. -/
theorem start_directory (leads : Leads files here names count there)
    (ends : files.get? there = some .directory) : files.get? here = some .directory := by
  cases leads with
  | here => exact ends
  | stay directory => exact directory
  | down _ directory => exact directory
  | follow _ directory => exact directory

/-- What leads to a directory still does where all directories and links are kept. -/
theorem passed (leads : Leads files here names count there) (ends : files.get? there = some .directory)
    (kept : Passed files others) : Leads others here names count there := by
  have stays {location : Location} (directory : files.get? location = some .directory) :
      others.get? location = some .directory := kept location _ directory rfl
  induction leads with
  | here location => exact .here location
  | stay directory improper _ ih => exact .stay (stays directory) improper (ih ends)
  | down node directory proper short standing unlinked onward ih =>
    exact .down .directory (stays directory) proper short (stays (onward.start_directory ends)) (by simp) (ih ends)
  | follow target directory proper short standing followed onward ihFirst ihLater =>
    exact .follow target (stays directory) proper short (kept _ _ standing rfl)
      (ihFirst (onward.start_directory ends)) (ihLater ends)

end Leads

end FileSystem

namespace World

open FileSystem (Passed Leads maxLinks maxNameBytes maxPathBytes)

/-- The names of a path before the last one lead to a directory. -/
structure Opens (world : World) (path : Path) (directory : Location) : Prop where
  leads : ∃ count, count ≤ maxLinks ∧
    Leads world.files (if path.isAbsolute then [] else world.cwd) path.parts.dropLast count directory
  standing : world.files.get? directory = some .directory

/-- A path leads into a directory, to a name that can be looked up there. -/
structure Enters (world : World) (path : Path) (directory : Location) (name : Text) : Prop
    extends world.Opens path directory where
  clean : path.hasNul = false
  fits : path.text.byteCount ≤ maxPathBytes
  parts : path.parts = path.parts.dropLast ++ [name]
  proper : IsName name
  short : name.byteCount ≤ maxNameBytes

variable {world after : World} {path : Path} {directory : Location} {name : Text}

/-- What is looked up by its last name is an entry of the directory that the path leads into. -/
theorem enters_of_located {names : List Text} {place : Place} (parts : path.parts = names ++ [name])
    (proper : IsName name) (located : world.locate .itself path = .ok place) :
    ∃ directory, world.Enters path directory name ∧ place = world.files.entry directory name := by
  obtain ⟨clean, fits, walked⟩ := locate_eq_ok_iff.mp located
  rw [parts] at walked
  obtain ⟨count, directory, within, leads, standing⟩ := FileSystem.leads_of_walk_concat proper walked
  rw [leads.walk within (.inr ⟨name, List.mem_singleton_self name, proper.1⟩),
    FileSystem.walk_entry standing proper (.inl rfl)] at walked
  split at walked
  · cases walked
  · rename_i short
    cases walked
    have before : path.parts.dropLast = names := by rw [parts, List.dropLast_concat]
    exact ⟨directory, ⟨⟨⟨count, within, by rwa [before]⟩, standing⟩, clean, fits, by rw [before, parts], proper,
      Nat.le_of_not_lt short⟩, rfl⟩

namespace Opens

/-- A path still leads into a directory where all directories and links are kept. -/
theorem passed (opens : world.Opens path directory) (kept : Passed world.files after.files)
    (stays : after.cwd = world.cwd) : after.Opens path directory := by
  obtain ⟨⟨count, within, leads⟩, standing⟩ := opens
  refine ⟨⟨count, within, ?_⟩, kept _ _ standing rfl⟩
  rw [stays]
  exact leads.passed standing kept

/-- Whatever is in the directory besides, a path is looked up there by its last name. -/
theorem located (opens : world.Opens path directory) (parts : path.parts = path.parts.dropLast ++ [name])
    (proper : IsName name) {ending : FileSystem.Ending}
    (unfollowed : ending = .itself ∨ ∀ target, world.files.get? (directory ++ [name]) ≠ some (.link target)) :
    world.locate ending path =
      if path.hasNul then .error .nulCharacter
      else if maxPathBytes < path.text.byteCount ∨ maxNameBytes < name.byteCount then
        .error (.refused .nameTooLong path)
      else .ok (world.files.entry directory name) := by
  obtain ⟨⟨count, within, leads⟩, standing⟩ := opens
  have walked := FileSystem.walk_entry standing proper unfollowed (maxLinks - count)
  rw [← leads.walk within (.inr ⟨name, List.mem_singleton_self name, proper.1⟩), ← parts] at walked
  simp only [World.locate, FileSystem.locate, walked]
  by_cases long : maxPathBytes < path.text.byteCount
  · simp only [long, true_or, if_true]
  · by_cases tooLong : maxNameBytes < name.byteCount
    · simp only [long, tooLong, or_true, if_false, if_true]
    · simp only [long, tooLong, or_self, if_false]

end Opens

namespace Enters

theorem located (enters : world.Enters path directory name) {ending : FileSystem.Ending}
    (unfollowed : ending = .itself ∨ ∀ target, world.files.get? (directory ++ [name]) ≠ some (.link target)) :
    world.locate ending path = .ok (world.files.entry directory name) := by
  rw [enters.toOpens.located enters.parts enters.proper unfollowed]
  simp only [enters.clean, Nat.not_lt_of_le enters.fits, Nat.not_lt_of_le enters.short, or_self, Bool.false_eq_true,
    if_false]

theorem located_file (enters : world.Enters path directory name) {mode : Nat} {bytes : Bytes}
    (file : world.files.get? (directory ++ [name]) = some (.file mode bytes)) (ending : FileSystem.Ending) :
    world.locate ending path = .ok (.taken (directory ++ [name]) (.file mode bytes)) := by
  rw [enters.located (.inr fun target link => by rw [file] at link; cases link), FileSystem.entry, file]

theorem passed (enters : world.Enters path directory name) (kept : Passed world.files after.files)
    (stays : after.cwd = world.cwd) : after.Enters path directory name :=
  { enters with toOpens := enters.toOpens.passed kept stays }

end Enters

/-- A directory is made as an entry that was free. -/
theorem makeDirectory_entered {names : List Text} (parts : path.parts = names ++ [name]) (proper : IsName name)
    (run : world.makeDirectory path = .ok after) :
    ∃ directory, world.Enters path directory name ∧ world.files.get? (directory ++ [name]) = none ∧
      after = world.set (directory ++ [name]) .directory := by
  obtain ⟨above, last, located, rfl⟩ := makeDirectory_free run
  obtain ⟨directory, enters, same⟩ := enters_of_located parts proper located
  refine ⟨directory, enters, ?_⟩
  unfold FileSystem.entry at same
  split at same
  · cases same
  · rename_i absent
    cases same
    exact ⟨absent, rfl⟩

/-- A file is renamed to an entry that is no directory. -/
theorem renameSpot_entered {source : Path} {spot : Location} (absolute : path.isAbsolute = true)
    (named : ∀ name ∈ path.parts, IsName name) (run : world.renameSpot source path = .ok spot) :
    ∃ directory, world.Enters path directory path.name ∧ spot = directory ++ [path.name] ∧
      ¬ world.HasDirectory spot := by
  unfold World.renameSpot at run
  cases located : world.locate .itself path with
  | error fault =>
    rw [located] at run
    cases fault <;> cases run
  | ok place =>
    rw [located] at run
    rcases List.eq_nil_or_concat path.parts with root | ⟨names, name, parts⟩
    -- The root is a directory, and no file takes its place.
    · obtain ⟨-, -, walked⟩ := locate_eq_ok_iff.mp located
      rw [root, absolute, FileSystem.walk_nil] at walked
      obtain ⟨node, -, rfl⟩ := walked
      cases run
    · rw [List.concat_eq_append] at parts
      have same : path.name = name := by simp [Path.name, parts]
      obtain ⟨directory, enters, rfl⟩ := enters_of_located parts (named name (by simp [parts])) located
      refine ⟨directory, same ▸ enters, ?_⟩
      rw [same]
      unfold FileSystem.entry at run
      cases found : world.files.get? (directory ++ [name]) with
      | none =>
        rw [found] at run
        cases run
        refine ⟨rfl, ?_⟩
        rw [World.HasDirectory, World.at?, found]
        simp
      | some node =>
        rw [found] at run
        have inside : directory ++ [name] ≠ [] := by simp
        generalize directory ++ [name] = place at run found inside ⊢
        cases place with
        | nil => exact absurd rfl inside
        | cons first rest =>
          have other (unlike : node.isDirectory = false) : ¬ world.HasDirectory (first :: rest) := by
            rw [World.hasDirectory_iff found, unlike]
            simp
          cases node <;> cases run <;> exact ⟨rfl, other rfl⟩

/-- A file is replaced as an entry that is no directory. -/
theorem replaceFile_entered {bytes : Bytes} (absolute : path.isAbsolute = true)
    (named : ∀ name ∈ path.parts, IsName name) (run : world.replaceFile path bytes = .ok after) :
    ∃ directory mode, world.Enters path directory path.name ∧ world.replacementMode path = .ok mode ∧
      ¬ world.HasDirectory (directory ++ [path.name]) ∧
      after = world.set (directory ++ [path.name]) (.file mode bytes) := by
  obtain ⟨mode, moded, run⟩ := ok_of_bind run
  obtain ⟨temporary, -, run⟩ := ok_of_bind run
  obtain ⟨spot, renamed, run⟩ := ok_of_bind run
  cases run
  obtain ⟨directory, enters, rfl, other⟩ := renameSpot_entered absolute named renamed
  exact ⟨directory, mode, enters, moded, other, rfl⟩

end World

end TabCompletion
