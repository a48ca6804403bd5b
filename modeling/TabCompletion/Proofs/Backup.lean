import TabCompletion.Proofs.Installed
import TabCompletion.Proofs.Reversal

namespace TabCompletion

open World (Plain Evolves Reaches)

/-- Without two dots no name leads up. -/
theorem FileSystem.length_le_lexical {names : List Text} (direct : ['.', '.'] ∉ names)
    (here : Location) : here.length ≤ (lexical here names).length := by
  induction names generalizing here with
  | nil => exact Nat.le_refl _
  | cons name rest ih =>
    have later := ih (fun member => direct (List.mem_cons_of_mem name member)) (stepTo here name)
    rw [lexical_cons]
    refine Nat.le_trans ?_ later
    rcases stepTo_cases here name with ⟨same, -⟩ | ⟨-, up⟩ | ⟨same, -⟩
    · exact Nat.le_of_eq (congrArg List.length same.symm)
    · exact absurd (up ▸ List.mem_cons_self) direct
    · simp [same]

/-- What is made on the way to a directory is none of the files in it. -/
theorem Along.ne_child {world : World} {directory : Path} {name : Text} {location : Location}
    (along : Along world directory.anchor directory.parts location) (proper : IsName name)
    (direct : ['.', '.'] ∉ directory.parts) : location ≠ world.spot (directory.child name) := by
  obtain ⟨count, rfl⟩ := along
  have later : ['.', '.'] ∉ directory.parts.drop count := fun member =>
    direct (List.drop_subset _ _ member)
  have further := FileSystem.length_le_lexical later
    (world.spot ⟨directory.anchor, directory.parts.take count⟩)
  have whole : FileSystem.lexical (world.spot ⟨directory.anchor, directory.parts.take count⟩)
      (directory.parts.drop count) = world.spot directory := by
    have pieces := FileSystem.lexical_append (if directory.isAbsolute then [] else world.cwd)
      (directory.parts.take count) (directory.parts.drop count)
    rw [List.take_append_drop] at pieces
    exact pieces.symm
  rw [whole] at further
  intro same
  have length := congrArg List.length same
  rw [World.spot_child proper, List.length_append, List.length_singleton] at length
  omega

namespace World

/-- The same file stands at a location before and after, or none does. -/
def SameFile (before after : World) (location : Location) : Prop :=
  ∀ mode bytes, after.at? location = some (.file mode bytes) ↔
    before.at? location = some (.file mode bytes)

theorem Evolves.sameFile {made touched : Location → Prop} {before after : World}
    {location : Location} (evolves : Evolves made touched before after)
    (apart : ¬ touched location) : SameFile before after location := by
  intro mode bytes
  rcases evolves.kept location with same | ⟨-, empty, now⟩ | ⟨changed, -⟩
  · rw [same]
  · simp [empty, now]
  · exact absurd changed apart

theorem isOwned_ok {world : World} {path : Path} {owned : Bool}
    (looked : world.isOwned path = .ok owned) :
    ∃ location mode bytes, world.locate .target path = .ok (.taken location (.file mode bytes)) ∧
      isOwnedBytes bytes = owned := by
  unfold World.isOwned at looked
  cases read : world.readBytes path with
  | error fault =>
    rw [read] at looked
    cases looked
  | ok bytes =>
    rw [read] at looked
    obtain ⟨location, mode, located⟩ := readBytes_ok read
    exact ⟨location, mode, bytes, located, Except.ok.inj looked⟩

/-- What was written by name stands at the location that the path spells. -/
theorem Plain.writeFile_holds {world after : World} {path : Path} {bytes : Bytes}
    (plain : world.Plain) (run : world.writeFile path bytes = .ok after) :
    ∃ mode, after.at? (world.spot path) = some (.file mode bytes) := by
  rcases writeFile_cases run with ⟨directory, name, located, rfl⟩ | ⟨location, mode, old, located, rfl⟩
  · obtain ⟨-, -, -, spot, -⟩ := (plain.locate_free_iff (by simp)).mp (plain.locate_output located)
    exact ⟨newMode, by rw [spot, at?_set_self _ (by simp)]⟩
  · obtain ⟨-, rfl, standing⟩ := (plain.locate_taken_iff (by simp)).mp (plain.locate_output located)
    exact ⟨mode, at?_set_self _ (world.ne_nil_of_kept (by simp [HasDirectory, standing])) _⟩

end World

namespace Installer

/-- The copy of a file that is not ours has its bytes. -/
theorem backUp_copied {installer : Installer} {trouble : Option (Nat × Fault)} {directory target : Path}
    {world after : World} {backup : Path} (plain : world.Plain)
    (resolved : installer.installDir world = .ok directory)
    (run : installer.backUpBarring trouble target world = (.ok (some backup), after)) :
    ∃ mode bytes copyMode, backup = directory.child backupName ∧
      world.at? (world.spot target) = some (.file mode bytes) ∧ isOwnedBytes bytes = false ∧
      after.at? (world.spot (directory.child backupName)) = some (.file copyMode bytes) := by
  rcases backUpBarring_cases resolved run with
    ⟨-, quiet⟩ | ⟨copied, notes, -, same, foreign, copy, rfl⟩ | ⟨_, _, -, never, -⟩
  · cases (quiet _ rfl).1
  · obtain ⟨location, mode, bytes, located, unowned⟩ := World.isOwned_ok foreign
    obtain ⟨-, rfl, standing⟩ := (plain.locate_taken_iff (by simp)).mp located
    obtain ⟨copyBytes, read, written⟩ := copyFile_ok copy
    rw [World.readBytes_of_located located] at read
    obtain rfl := Except.ok.inj read
    obtain ⟨copyMode, held⟩ := plain.writeFile_holds written
    cases same
    exact ⟨mode, bytes, copyMode, rfl, standing, unowned, held⟩
  · cases never

theorem backUp_copies {installer : Installer} {directory target : Path} {world copied : World}
    (resolved : installer.installDir world = .ok directory)
    (present : world.exists? target = .ok true) (foreign : world.isOwned target = .ok false)
    (copy : world.copyFile target (directory.child backupName) = .ok copied) :
    ∃ notes, installer.backUp target world =
      (.ok (some (directory.child backupName)), { copied with notes := notes }) := by
  rw [backUp, backUpBarring, Disk.run_look_bind present]
  simp only [if_true]
  rw [Disk.run_look_bind foreign]
  simp only [Bool.false_eq_true, if_false]
  rw [Disk.run_look_bind (backupPath_eq resolved), Disk.run_bind, Disk.copyBarring, Disk.run_change, copy]
  exact ⟨_, rfl⟩

/-- A script that could not be written leaves the file that stands in its place. -/
theorem writeScript_refused {directory : Path} {script : Text} {world after : World} {fault : Fault}
    (plain : world.Plain)
    (run : writeScript (directory.child scriptName) script world = (.error fault, after)) :
    Evolves (Along world directory.anchor directory.parts) (fun _ => False) world after := by
  cases made : Disk.makeDirectories directory world with
  | mk answer middle =>
    have evolves := (Disk.makeDirectories_evolves plain made).1
    cases answer with
    | error other =>
      rw [writeScript, parent_child, Disk.run_bind_error made] at run
      cases run
      exact evolves
    | ok done =>
      rcases writeScript_made plain made with ⟨-, other, failed⟩ | ⟨-, written⟩
      · rw [failed] at run
        cases run
        exact evolves
      · rw [written] at run
        split at run
        · cases run
          exact evolves
        · cases run

/-- Whatever an installation comes to, it changes the script, its backup and the startup file
alone. -/
theorem install_evolves {installer : Installer} {trouble : Option (Nat × Fault)} {directory : Path}
    {script : Text} {world after : World} {result : Except Fault InstallOutcome} (plain : world.Plain)
    (resolved : installer.installDir world = .ok directory)
    (run : installer.installBarring trouble script world = (result, after)) :
    Evolves (Along world directory.anchor directory.parts)
      (fun location => ScriptPlace world directory location ∨
        location = world.spot installer.startupFile) world after := by
  have widen {final : World} (evolves : Evolves (Along world directory.anchor directory.parts)
      (ScriptPlace world directory) world final) :
      Evolves (Along world directory.anchor directory.parts)
        (fun location => ScriptPlace world directory location ∨
          location = world.spot installer.startupFile) world final :=
    evolves.mono (fun _ made => made) (fun _ place => Or.inl place)
  rcases installBarring_cases (scriptPath_eq resolved) run with
    ⟨-, ⟨fault, backed⟩ | ⟨backup, middle, fault, backed, written⟩⟩ |
      ⟨backup, middle, placed, backed, written, -, rfl⟩
  · exact widen (backUp_places plain resolved backed)
  · exact widen (placing_evolves plain resolved backed written)
  · have placing := placing_evolves plain resolved backed written
    cases configured : installer.configure placed with
    | mk answer final =>
      have edit := configure_evolves placing.plain configured
      rw [placing.spot] at edit
      exact (widen placing).trans (edit.mono (by simp) (fun _ same => Or.inr same))

/-- What is removed as the script is a file of ours. -/
theorem removeScript_owned {target : Path} {world after : World} {result : Except Fault Removal}
    (plain : world.Plain) (run : removeScript target world = (result, after)) :
    after = world ∨ ∃ mode bytes, world.at? (world.spot target) = some (.file mode bytes) ∧
      isOwnedBytes bytes = true ∧
      after = { world with files := world.files.erase (world.spot target) } := by
  rcases removeScript_cases run with same | ⟨owner, removed⟩
  · exact Or.inl same
  · obtain ⟨location, mode, bytes, located, owned⟩ := World.isOwned_ok owner
    obtain ⟨reaches, rfl, standing⟩ := (plain.locate_taken_iff (by simp)).mp located
    have itself : world.locate .itself target =
        .ok (.taken (world.spot target) (.file mode bytes)) :=
      (plain.locate_taken_iff (by simp)).mpr ⟨reaches, rfl, standing⟩
    rw [World.removeFile, itself] at removed
    cases removed
    exact Or.inr ⟨mode, bytes, standing, owned, rfl⟩

/-- A removal changes the script and the startup file alone, and takes the script away only
when it is ours. -/
theorem uninstall_changes {installer : Installer} {directory : Path} {world : World}
    (plain : world.Plain) (resolved : installer.installDir world = .ok directory) :
    Evolves (fun _ => False)
        (fun location => location = world.spot (directory.child scriptName) ∨
          location = world.spot installer.startupFile) world (installer.uninstall world).2 ∧
      ((installer.uninstall world).2.at? (world.spot (directory.child scriptName)) =
          world.at? (world.spot (directory.child scriptName)) ∨
        ∃ mode bytes, world.at? (world.spot (directory.child scriptName)) =
            some (.file mode bytes) ∧ isOwnedBytes bytes = true ∧
          (installer.uninstall world).2.at? (world.spot (directory.child scriptName)) = none) := by
  rw [(uninstall_cases (scriptPath_eq resolved)).1]
  have place : ScriptPlace world directory (world.spot (directory.child scriptName)) := Or.inl rfl
  have apart : world.spot (directory.child scriptName) ≠ world.spot installer.startupFile :=
    place.apart
  have proper := World.spot_child_ne_nil scriptName_isName world directory
  cases all : removeAll installer.startupFile (directory.child scriptName) world with
  | mk answer after =>
    rcases removeAll_cases all with ⟨fault, block, -⟩ | ⟨_, middle, _, block, script, -⟩
    · have first := removeBlock_evolves plain block
      exact ⟨first.mono (by simp) (fun _ same => Or.inr same), Or.inl (first.same (by simp) apart)⟩
    · have first := removeBlock_evolves plain block
      have second := removeScript_evolves first.plain script
      rw [first.spot] at second
      refine ⟨(first.mono (by simp) (fun _ same => Or.inr same)).trans
        (second.mono (by simp) (fun _ same => Or.inl same)), ?_⟩
      have unedited := first.same (by simp) apart
      rcases removeScript_owned first.plain script with rfl | ⟨mode, bytes, standing, owned, rfl⟩
      · exact Or.inl unedited
      · rw [first.spot] at standing
        refine Or.inr ⟨mode, bytes, by rw [← unedited, standing], owned, ?_⟩
        rw [first.spot, World.at?_erase _ proper, if_pos rfl]

/-- The home directory with a file in the script's place. -/
def homeScript (bytes : Bytes) : World :=
  World.bareHome.set ["home".toList, scriptName] (.file 0o600 bytes)

theorem homeScript_evolves (bytes : Bytes) :
    Evolves (fun _ => False) (· = ["home".toList, scriptName]) World.bareHome (homeScript bytes) :=
  have parent : World.bareHome.at? ["home".toList] = some .directory := rfl
  Evolves.of_file World.bareHome_plain parent (by decide) 0o600 bytes

/-- The backup's name is free for a file in the home directory. -/
theorem homeScript_free (bytes : Bytes) :
    (homeScript bytes).locate .output (Path.child ⟨.root, ["home".toList]⟩ backupName) =
      .ok (.free ["home".toList] backupName) := by
  have evolves := homeScript_evolves bytes
  have directory : (homeScript bytes).files.get? ["home".toList] = some .directory :=
    evolves.directory rfl
  have free : (homeScript bytes).files.get? ["home".toList, backupName] = none :=
    evolves.same (by simp) (by decide)
  refine World.locate_eq_ok_iff.mpr ⟨by decide, by decide, ?_⟩
  change (homeScript bytes).files.walk .output FileSystem.maxLinks [] ["home".toList, backupName] = _
  have proper : IsName "home".toList := by decide
  have short : ¬ FileSystem.maxNameBytes < Text.byteCount "home".toList := by decide
  have shortBackup : ¬ FileSystem.maxNameBytes < Text.byteCount backupName := by decide
  rw [FileSystem.walk_cons evolves.plain.linkFree]
  simp only [FileSystem.get?_nil, if_true, if_pos proper, if_neg short, List.nil_append, directory]
  rw [FileSystem.walk_cons evolves.plain.linkFree]
  simp only [List.singleton_append, directory, free, if_true, if_pos backupName_isName,
    if_neg shortBackup, List.isEmpty_nil]
  rfl

theorem homeScript_located (bytes : Bytes) :
    (homeScript bytes).locate .target (Path.child ⟨.root, ["home".toList]⟩ scriptName) =
      .ok (.taken ["home".toList, scriptName] (.file 0o600 bytes)) := by
  refine ((homeScript_evolves bytes).plain.locate_taken_iff (by simp)).mpr
    ⟨⟨rfl, by decide, ?_⟩, rfl, rfl⟩
  exact ⟨rfl, fun _ => by decide, rfl, fun _ => by decide, trivial⟩

theorem homeScript_copied (bytes : Bytes) :
    (homeScript bytes).copyFile (Path.child ⟨.root, ["home".toList]⟩ scriptName)
        (Path.child ⟨.root, ["home".toList]⟩ backupName) =
      .ok ((homeScript bytes).set ["home".toList, backupName] (.file World.newMode bytes)) := by
  have free := (homeScript_evolves bytes).plain.locate_output (homeScript_free bytes)
  have apart : (homeScript bytes).leadToSame (Path.child ⟨.root, ["home".toList]⟩ scriptName)
      (Path.child ⟨.root, ["home".toList]⟩ backupName) = false := by
    simp only [World.leadToSame, homeScript_located, free]
  have written : (homeScript bytes).writeFile (Path.child ⟨.root, ["home".toList]⟩ backupName) bytes =
      .ok ((homeScript bytes).set ["home".toList, backupName] (.file World.newMode bytes)) := by
    rw [World.writeFile, homeScript_free]
    rfl
  simp only [World.copyFile, World.copyPart, id, apart, World.readBytes_of_located (homeScript_located bytes), bind,
    Except.bind, written, Bool.false_eq_true, if_false]

/-- Once the foreign file is copied a script can be written over it. -/
theorem homeScript_written {bytes : Bytes} {middle : World} (script : Text)
    (copy : Evolves (fun _ => False) (· = ["home".toList, backupName]) (homeScript bytes) middle) :
    ∃ placed, writeScript (Path.child ⟨.root, ["home".toList]⟩ scriptName) script middle =
      (.ok (), placed) := by
  have evolves := homeScript_evolves bytes
  have standing := copy.isDirectory evolves.plain
    (evolves.isDirectory World.bareHome_plain World.bareHome_isDirectory)
  have stood : (homeScript bytes).at? ["home".toList, scriptName] = some (.file 0o600 bytes) :=
    World.bareHome.at?_set_self (by simp) _
  have spot : middle.spot (Path.child ⟨.root, ["home".toList]⟩ scriptName) =
      ["home".toList, scriptName] := rfl
  have fine : middle.replaceFault? ["home".toList, scriptName] = none := by
    have bare : (World.bareHome.replaceFault? ["home".toList, scriptName]).isNone = true := rfl
    rw [← Option.isNone_iff_eq_none.mp bare]
    refine World.replaceFault?_congr (copy.draws.trans evolves.draws) (fun draw member => ?_)
      (iff_of_false ?_ (by decide))
    · rw [List.mem_singleton.mp member, copy.same (by simp) (by decide), evolves.same (by simp) (by decide)]
    · rw [World.HasDirectory, copy.same (by simp) (by decide), stood]
      simp
  have written : writeScript (Path.child ⟨.root, ["home".toList]⟩ scriptName) script middle = _ :=
    writeScript_standing copy.plain (Disk.makeDirectories_standing copy.plain standing)
      (copy.directory (evolves.directory rfl))
  rw [spot, fine] at written
  exact ⟨_, written⟩

end Installer

end TabCompletion
