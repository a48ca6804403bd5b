import TabCompletion.Proofs.Startup

namespace TabCompletion.Installer

open World (Plain Evolves Reaches)

theorem parent_child (directory : Path) (name : Text) : (directory.child name).parent = directory := by
  simp [Path.parent, Path.child]

theorem hasNul_child {directory : Path} {name : Text} (clean : directory.hasNul = false)
    (plain : '\x00' ∉ name) : (directory.child name).hasNul = false := by
  unfold Path.hasNul at clean ⊢
  rw [Path.child, List.any_append, clean]
  simpa using plain

/-- A file that is written by name changes at the location that its path spells, and only
there. -/
theorem writeFile_evolves {world after : World} {path : Path} {bytes : Bytes} (plain : world.Plain)
    (run : world.writeFile path bytes = .ok after) :
    Evolves (fun _ => False) (· = world.spot path) world after := by
  rcases World.writeFile_cases run with ⟨directory, name, located, rfl⟩ | ⟨location, mode, old, located, rfl⟩
  · obtain ⟨reaches, last, proper, spot, free⟩ :=
      (plain.locate_free_iff (by simp)).mp (plain.locate_output located)
    have parent := reaches.directory last proper spot
    rw [spot]
    exact Evolves.of_file plain parent (by simp [World.HasDirectory, free]) _ _
  · obtain ⟨-, rfl, standing⟩ := (plain.locate_taken_iff (by simp)).mp (plain.locate_output located)
    exact Evolves.of_standing plain standing mode bytes

theorem copyPart_ok {world after : World} {room : Bytes → Bytes} {source target : Path}
    (run : world.copyPart room source target = .ok after) :
    ∃ bytes, world.readBytes source = .ok bytes ∧ world.writeFile target (room bytes) = .ok after := by
  unfold World.copyPart at run
  cases same : world.leadToSame source target with
  | true =>
    rw [same] at run
    cases run
  | false =>
    rw [same] at run
    cases content : world.readBytes source with
    | error fault =>
      rw [content] at run
      cases run
    | ok bytes =>
      rw [content] at run
      refine ⟨bytes, rfl, ?_⟩
      cases written : world.writeFile target (room bytes) with
      | ok next =>
        simp only [bind, Except.bind, written, Bool.false_eq_true, if_false] at run
        exact run
      | error fault =>
        simp only [bind, Except.bind, written, Bool.false_eq_true, if_false] at run
        split at run <;> cases run

theorem copyFile_ok {world after : World} {source target : Path}
    (run : world.copyFile source target = .ok after) :
    ∃ bytes, world.readBytes source = .ok bytes ∧ world.writeFile target bytes = .ok after :=
  copyPart_ok run

/-- A script that is not ours is copied aside, as a whole or only in part, or nothing is done: the
script is absent or ours, or a fault came up. -/
theorem backUpBarring_cases {installer : Installer} {trouble : Option (Nat × Fault)}
    {directory target : Path} {world after : World} {result : Except Fault (Option Path)}
    (resolved : installer.installDir world = .ok directory)
    (run : installer.backUpBarring trouble target world = (result, after)) :
    (after = world ∧ ∀ backup, result = .ok backup → backup = none ∧
      (world.exists? target = .ok false ∨ world.isOwned target = .ok true)) ∨
    (∃ copied notes, trouble = none ∧ result = .ok (some (directory.child backupName)) ∧
      world.isOwned target = .ok false ∧
      world.copyFile target (directory.child backupName) = .ok copied ∧
      after = { copied with notes := notes }) ∨
    ∃ count fault, trouble = some (count, fault) ∧ result = .error fault ∧
      world.isOwned target = .ok false ∧
      world.copyPart (·.take count) target (directory.child backupName) = .ok after := by
  unfold backUpBarring at run
  rcases Disk.look_bind_cases run with ⟨fault, -, rfl, rfl⟩ | ⟨standing, there, run⟩
  · exact Or.inl ⟨rfl, by simp⟩
  cases standing with
  | false =>
    cases run
    exact Or.inl ⟨rfl, by simp [there]⟩
  | true =>
    simp only [if_true] at run
    rcases Disk.look_bind_cases run with ⟨fault, -, rfl, rfl⟩ | ⟨owned, owner, run⟩
    · exact Or.inl ⟨rfl, by simp⟩
    cases owned with
    | true =>
      cases run
      exact Or.inl ⟨rfl, by simp [owner]⟩
    | false =>
      simp only [Bool.false_eq_true, if_false] at run
      rw [Disk.run_look_bind (backupPath_eq resolved)] at run
      cases trouble with
      | none =>
        rcases Disk.change_bind_cases run with ⟨fault, -, rfl, rfl⟩ | ⟨next, copied, run⟩
        · exact Or.inl ⟨rfl, by simp⟩
        · cases run
          exact Or.inr (Or.inl ⟨next, _, rfl, rfl, owner, copied, rfl⟩)
      | some part =>
        obtain ⟨count, fault⟩ := part
        rw [Disk.run_bind, Disk.copyBarring, Disk.run_bind, Disk.run_change] at run
        cases copied : world.copyPart (·.take count) target (directory.child backupName) with
        | error other =>
          rw [copied] at run
          cases run
          exact Or.inl ⟨rfl, by simp⟩
        | ok next =>
          rw [copied] at run
          cases run
          exact Or.inr (Or.inr ⟨count, fault, rfl, rfl, owner, copied⟩)

/-- Only the place of the backup changes when a foreign script is copied aside. -/
theorem backUp_evolves {installer : Installer} {trouble : Option (Nat × Fault)} {directory target : Path}
    {world after : World} {result : Except Fault (Option Path)} (plain : world.Plain)
    (resolved : installer.installDir world = .ok directory)
    (run : installer.backUpBarring trouble target world = (result, after)) :
    Evolves (fun _ => False) (· = world.spot (directory.child backupName)) world after := by
  rcases backUpBarring_cases resolved run with
    ⟨rfl, -⟩ | ⟨copied, notes, -, -, -, copy, rfl⟩ | ⟨_, _, -, -, -, copy⟩
  · exact .refl plain
  · obtain ⟨bytes, -, written⟩ := copyFile_ok copy
    have evolves := writeFile_evolves plain written
    exact evolves.trans (.note evolves.plain notes)
  · obtain ⟨bytes, -, written⟩ := copyPart_ok copy
    exact writeFile_evolves plain written

theorem backUp_absent {installer : Installer} {target : Path} {world : World}
    (absent : world.exists? target = .ok false) :
    installer.backUp target world = (.ok none, world) := by
  rw [backUp, backUpBarring, Disk.run_look_bind absent]
  rfl

theorem backUp_owned {installer : Installer} {target : Path} {world : World}
    (present : world.exists? target = .ok true) (owned : world.isOwned target = .ok true) :
    installer.backUp target world = (.ok none, world) := by
  rw [backUp, backUpBarring, Disk.run_look_bind present]
  simp only [if_true]
  rw [Disk.run_look_bind owned]
  rfl

theorem backUp_seen {installer : Installer} {trouble : Option (Nat × Fault)} {target : Path}
    {world after : World} {backup : Option Path}
    (run : installer.backUpBarring trouble target world = (.ok backup, after)) :
    ∃ present, world.exists? target = .ok present := by
  obtain ⟨present, there, -⟩ := Disk.look_bind_eq_ok run
  exact ⟨present, there⟩

/-- The script is written into its directory once that is there, unless the directory may not be
searched. -/
theorem writeScript_made {directory : Path} {script : Text} {world middle : World}
    (plain : world.Plain) (made : Disk.makeDirectories directory world = (.ok (), middle)) :
    (middle.at? (world.spot directory) = some .sealed ∧
        ∃ fault, writeScript (directory.child scriptName) script world = (.error fault, middle)) ∨
      middle.at? (world.spot directory) = some .directory ∧
        writeScript (directory.child scriptName) script world =
          match middle.replaceFault? (world.spot (directory.child scriptName)) with
          | some fault => (.error fault, middle)
          | none => (.ok (), middle.set (world.spot (directory.child scriptName))
              (.file (World.keptMode (middle.at? (world.spot (directory.child scriptName))))
                (Utf8.encode script))) := by
  obtain ⟨evolves, standing⟩ := Disk.makeDirectories_evolves plain made
  obtain ⟨reaches, there⟩ := evolves.plain.isDirectory_iff.mp (standing rfl)
  have spot := World.spot_child scriptName_isName middle directory
  have clean := hasNul_child reaches.clean (by decide : '\x00' ∉ scriptName)
  unfold writeScript
  rw [parent_child, Disk.run_bind_ok made, ← evolves.spot, ← evolves.spot]
  rcases there with there | there
  · refine Or.inr ⟨there, Disk.writeText_eq evolves.plain clean ?_ ?_ script⟩
    · rw [spot]
      simp
    · rw [spot, List.dropLast_concat]
      exact there
  · refine Or.inl ⟨there, Disk.writeText_sealed evolves.plain clean ?_ script⟩
    rw [spot, List.dropLast_concat]
    exact there

theorem writeScript_standing {directory : Path} {script : Text} {world middle : World}
    (plain : world.Plain) (made : Disk.makeDirectories directory world = (.ok (), middle))
    (standing : middle.at? (world.spot directory) = some .directory) :
    writeScript (directory.child scriptName) script world =
      match middle.replaceFault? (world.spot (directory.child scriptName)) with
      | some fault => (.error fault, middle)
      | none => (.ok (), middle.set (world.spot (directory.child scriptName))
          (.file (World.keptMode (middle.at? (world.spot (directory.child scriptName))))
            (Utf8.encode script))) := by
  rcases writeScript_made plain made with ⟨closed, -⟩ | ⟨-, written⟩
  · rw [standing] at closed
    cases closed
  · exact written

/-- What stands once a script has been written: its directory, and in it the script. -/
structure Placed (directory : Path) (script : Text) (before after : World) : Prop where
  evolves : Evolves (Along before directory.anchor directory.parts)
    (· = before.spot (directory.child scriptName)) before after
  standing : after.isDirectory directory = .ok true
  fine : after.replaceFault? (before.spot (directory.child scriptName)) = none
  script : ∃ mode, after.at? (before.spot (directory.child scriptName)) =
    some (.file mode (Utf8.encode script)) ∧ mode % 0o1000 = mode

theorem writeScript_cases {directory : Path} {script : Text} {world after : World}
    {result : Except Fault Unit} (plain : world.Plain)
    (run : writeScript (directory.child scriptName) script world = (result, after)) :
    Evolves (Along world directory.anchor directory.parts)
        (· = world.spot (directory.child scriptName)) world after ∧
      (result = .ok () → Placed directory script world after) := by
  cases made : Disk.makeDirectories directory world with
  | mk answer middle =>
    obtain ⟨evolves, standing⟩ := Disk.makeDirectories_evolves plain made
    have first : Evolves (Along world directory.anchor directory.parts)
        (· = world.spot (directory.child scriptName)) world middle :=
      evolves.mono (fun _ along => along) (by simp)
    cases answer with
    | error fault =>
      rw [writeScript, parent_child, Disk.run_bind_error made] at run
      cases run
      exact ⟨first, by simp⟩
    | ok done =>
      -- The script is put into a directory that was there before or has just been made.
      have there := standing rfl
      rcases writeScript_made plain made with ⟨-, fault, failed⟩ | ⟨parent, written⟩
      · rw [failed] at run
        cases run
        exact ⟨first, by simp⟩
      rw [written] at run
      cases fine : middle.replaceFault? (world.spot (directory.child scriptName)) with
      | some fault =>
        rw [fine] at run
        cases run
        exact ⟨first, by simp⟩
      | none =>
        rw [fine] at run
        cases run
        have spot := World.spot_child scriptName_isName world directory
        have proper := World.spot_child_ne_nil scriptName_isName world directory
        have other := World.replaceFault?_eq_none fine
        rw [spot] at other
        have second := Evolves.of_file evolves.plain parent other
          (World.keptMode (middle.at? (world.spot (directory.child scriptName)))) (Utf8.encode script)
        rw [← spot] at second
        have whole := first.trans (second.mono (by simp) (fun _ touched => touched))
        have placed := middle.at?_set_self proper (.file
          (World.keptMode (middle.at? (world.spot (directory.child scriptName)))) (Utf8.encode script))
        exact ⟨whole, fun _ => ⟨whole, second.isDirectory evolves.plain there,
          World.replaceFault?_set proper fine _ _, _, placed, World.keptMode_mod _⟩⟩

end TabCompletion.Installer
