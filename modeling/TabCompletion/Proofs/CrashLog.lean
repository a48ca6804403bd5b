import TabCompletion.Proofs.Clean
import TabCompletion.Proofs.Session

namespace TabCompletion

/-- What a place says of the files that it was found in. -/
def Place.Holds (files : FileSystem) : Place → Prop
  | .taken location node => files.get? location = some node
  | .free directory name => files.get? (directory ++ [name]) = none

/-- A walk tells the truth of where it ends, whatever links it has followed. -/
theorem FileSystem.walk_holds {files : FileSystem} {ending : Ending} {links : Nat} {here : Location}
    {names : List Text} {place : Place} (walked : files.walk ending links here names = .ok place) :
    place.Holds files := by
  fun_induction FileSystem.walk files ending links here names with
  | case1 links here node standing =>
    cases walked
    exact standing
  | case3 links here name rest directory stays ih => exact ih walked
  | case4 links here rest directory moves ih => exact ih walked
  | case7 links here name rest directory moves notUp reads short absent =>
    cases walked
    exact absent
  | case9 links here name rest directory moves notUp reads short target standing =>
    cases walked
    exact standing
  | case11 here name rest directory moves notUp reads short target standing through links ih => exact ih walked
  | case12 links here name rest directory moves notUp reads short other unlinked standing ih => exact ih walked
  | _ => cases walked

theorem World.locate_holds {world : World} {ending : FileSystem.Ending} {path : Path} {place : Place}
    (located : world.locate ending path = .ok place) : place.Holds world.files :=
  FileSystem.walk_holds (locate_eq_ok_iff.mp located).2.2

namespace FileSystem

/-- Directories may have come to where nothing stood; all else is as it was. -/
def Furnished (before after : FileSystem) : Prop :=
  ∀ location, after.get? location = before.get? location ∨
    before.get? location = none ∧ after.get? location = some .directory

theorem Furnished.refl (files : FileSystem) : Furnished files files :=
  fun _ => Or.inl rfl

theorem Furnished.insert {before middle : FileSystem} (furnished : Furnished before middle)
    {location : Location} (proper : location ≠ []) (absent : middle.get? location = none) :
    Furnished before (middle.insert location .directory) := by
  intro other
  rw [get?_insert _ proper]
  split
  · rename_i same
    subst same
    rcases furnished other with kept | ⟨-, made⟩
    · exact Or.inr ⟨kept ▸ absent, rfl⟩
    · rw [absent] at made
      cases made
  · exact furnished other

/-- What stood where no directory had to be made still stands there. -/
theorem Furnished.kept {before after : FileSystem} (furnished : Furnished before after)
    {location : Location} (other : after.get? location ≠ some .directory) :
    after.get? location = before.get? location := by
  rcases furnished location with same | ⟨-, made⟩
  · exact same
  · exact absurd made other

/-- One file, a new one or one that was there, has been given its bytes. Apart from it and
from directories that were made for it, all is as it was. -/
def Logged (bytes : Bytes) (before after : FileSystem) : Prop :=
  ∃ spot mode, after.get? spot = some (.file mode bytes) ∧
    (∀ node, before.get? spot = some node → ∃ mode bytes, node = .file mode bytes) ∧
    ∀ location, location ≠ spot → after.get? location = before.get? location ∨
      before.get? location = none ∧ after.get? location = some .directory

theorem Furnished.logged {before middle : FileSystem} (furnished : Furnished before middle)
    {spot : Location} (proper : spot ≠ [])
    (writable : ∀ node, middle.get? spot = some node → ∃ mode bytes, node = .file mode bytes)
    (mode : Nat) (bytes : Bytes) : Logged bytes before (middle.insert spot (.file mode bytes)) := by
  have kept : middle.get? spot = before.get? spot := by
    refine furnished.kept fun directory => ?_
    obtain ⟨mode, bytes, same⟩ := writable _ directory
    cases same
  refine ⟨spot, mode, by rw [get?_insert _ proper, if_pos rfl], ?_, fun location apart => ?_⟩
  · rwa [← kept]
  · rw [get?_insert _ proper, if_neg apart]
    exact furnished location

end FileSystem

open FileSystem (Furnished Logged)

namespace World

variable {world after : World} {path : Path}

theorem makeDirectory_furnished {before : FileSystem} (furnished : Furnished before world.files)
    (run : world.makeDirectory path = .ok after) : Furnished before after.files := by
  obtain ⟨directory, name, located, rfl⟩ := makeDirectory_free run
  exact furnished.insert (by simp) (locate_holds located)

theorem writeFile_logged {before : FileSystem} {bytes : Bytes} (furnished : Furnished before world.files)
    (run : world.writeFile path bytes = .ok after) : Logged bytes before after.files := by
  rcases writeFile_cases run with ⟨directory, name, located, rfl⟩ | ⟨location, mode, old, located, rfl⟩
  · have free : world.files.get? (directory ++ [name]) = none := locate_holds located
    exact furnished.logged (by simp) (fun node standing => by rw [free] at standing; cases standing) newMode bytes
  · have standing : world.files.get? location = some (.file mode old) := locate_holds located
    refine furnished.logged ?_ (fun node same => ?_) mode bytes
    · rintro rfl
      rw [FileSystem.get?_nil] at standing
      cases standing
    · rw [standing] at same
      cases same
      exact ⟨mode, old, rfl⟩

end World

namespace CommandLine

variable {before : FileSystem}

theorem makeDirectories_furnished (path : Path) :
    Disk.Preserves (fun world => Furnished before world.files) (Disk.makeDirectories path) :=
  Disk.makeDirectories_preserves
    (fun _ => .change fun _ _ furnished made => World.makeDirectory_furnished furnished made) path

theorem dataDir_furnished (host : Host) :
    Disk.Preserves (fun world => Furnished before world.files) host.dataDir :=
  .bind (.look _) fun path => .bind (makeDirectories_furnished path) fun _ => .pure path

/-- A log that was written is all that changes, but for the directories above it; one that
could not be written may still leave such directories. -/
theorem writeCrashLog_leaves (host : Host) (recorder : Recorder) (fault : Fault) (world : World) :
    match writeCrashLog host recorder fault world with
    | (.ok _, after) => Logged (Utf8.encode (recorder.traceback fault)) world.files after.files
    | (.error _, after) => Furnished world.files after.files := by
  have data := dataDir_furnished host world (.refl world.files)
  rw [writeCrashLog, Disk.run_bind]
  rcases found : host.dataDir world with ⟨other | directory, middle⟩
  · rwa [found] at data
  rw [found] at data
  have logs := makeDirectories_furnished (directory / ("logs" : Text)) middle data
  dsimp only
  rw [Disk.run_bind]
  rcases made : Disk.makeDirectories (directory / ("logs" : Text)) middle with ⟨other | standing, last⟩
  · rwa [made] at logs
  rw [made] at logs
  dsimp only
  rw [Disk.run_bind, Disk.run_change]
  cases written : last.writeFile (directory / ("logs" : Text) / ("crash-" ++ recorder.clock ++ ".log" : Text))
      (Utf8.encode (recorder.traceback fault)) with
  | error other => exact logs
  | ok after => exact World.writeFile_logged logs written

end CommandLine

end TabCompletion
