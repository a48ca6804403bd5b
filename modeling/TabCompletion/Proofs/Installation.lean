import TabCompletion.Proofs.Placement

namespace TabCompletion.Installer

open World (Plain Evolves Reaches)

/-- The places that an installation writes to for the script: its own and its backup's. -/
def ScriptPlace (world : World) (directory : Path) (location : Location) : Prop :=
  location = world.spot (directory.child scriptName) ∨
    location = world.spot (directory.child backupName)

theorem ScriptPlace.ne_child {world : World} {directory path : Path} {location : Location}
    (place : ScriptPlace world directory location) {name : Text} (proper : IsName name)
    (script : name ≠ scriptName) (backup : name ≠ backupName) :
    location ≠ world.spot (path.child name) := by
  rcases place with rfl | rfl
  · exact (World.spot_child_ne proper scriptName_isName script world path directory).symm
  · exact (World.spot_child_ne proper backupName_isName backup world path directory).symm

theorem ScriptPlace.ne_startup {installer : Installer} {world : World} {directory : Path} :
    ¬ ScriptPlace world directory (world.spot installer.startupFile) := by
  obtain ⟨above, same⟩ := startupFile_eq installer
  rw [same]
  intro place
  exact place.ne_child startupName_isName (by decide) (by decide) rfl

theorem ScriptPlace.apart {installer : Installer} {world : World} {directory : Path}
    {location : Location} (place : ScriptPlace world directory location) :
    location ≠ world.spot installer.startupFile := by
  rintro rfl
  exact place.ne_startup

theorem backup_ne_script (world : World) (directory : Path) :
    world.spot (directory.child backupName) ≠ world.spot (directory.child scriptName) :=
  World.spot_child_ne backupName_isName scriptName_isName (by decide) world directory directory

theorem ScriptPlace.ne_framework {installer : Installer} {world : World} {directory : Path} :
    ¬ ScriptPlace world directory (world.spot installer.framework) :=
  fun place => place.ne_child (by decide) (by decide) (by decide) rfl

theorem backUp_places {installer : Installer} {trouble : Option (Nat × Fault)} {directory target : Path}
    {world after : World} {result : Except Fault (Option Path)} (plain : world.Plain)
    (resolved : installer.installDir world = .ok directory)
    (run : installer.backUpBarring trouble target world = (result, after)) :
    Evolves (Along world directory.anchor directory.parts) (ScriptPlace world directory)
      world after :=
  (backUp_evolves plain resolved run).mono (by simp) (fun _ same => Or.inr same)

/-- Until the startup file's turn only the script, its backup and directories for them
are made, and the script's directory stays what it was. -/
theorem placing_evolves {installer : Installer} {trouble : Option (Nat × Fault)} {directory : Path}
    {script : Text} {world middle after : World} {backup : Except Fault (Option Path)} {result : Except Fault Unit}
    (plain : world.Plain) (resolved : installer.installDir world = .ok directory)
    (backed : installer.backUpBarring trouble (directory.child scriptName) world = (backup, middle))
    (written : writeScript (directory.child scriptName) script middle = (result, after)) :
    Evolves (Along world directory.anchor directory.parts) (ScriptPlace world directory)
      world after := by
  have first := backUp_places plain resolved backed
  have second := (writeScript_cases first.plain written).1
  rw [first.spot] at second
  refine first.trans (second.mono ?_ (fun _ same => Or.inl same))
  rintro place ⟨count, rfl⟩
  exact ⟨count, first.spot _⟩

/-- What an installation reports once the script is in its place. -/
def report (target : Path) (backup : Option Path) :
    Except Fault (Option (List Text)) → Except Fault InstallOutcome
  | .ok instructions =>
    .ok
      { success := true
        message := "Completion script installed successfully for zsh"
        installedPath := some target.text
        backupPath := backup.map Path.text
        configured := some instructions.isNone
        instructions := instructions }
  | .error (.failure failure) =>
    .ok
      { success := false
        message := failure.message ++ ". Completion script was written to " ++ target.text ++
          ", but the startup file was left unchanged; remove the leftover marker line and run install again."
        installedPath := some target.text
        backupPath := backup.map Path.text
        configured := some false }
  | .error fault => .error fault

theorem finish_eq (installer : Installer) (target : Path) (backup : Option Path) (world : World) :
    installer.finish target backup world =
      (report target backup (installer.configure world).1, (installer.configure world).2) := by
  unfold finish
  rw [Disk.run_bind, Disk.run_attempt]
  cases (installer.configure world).1 with
  | ok instructions => rfl
  | error fault => cases fault <;> rfl

/-- An outcome that no script was put in its place for. It tells nothing of the startup file. -/
def NotPlaced (result : Except Fault InstallOutcome) : Prop :=
  ∀ outcome, result = .ok outcome → outcome.success = false ∧ outcome.installedPath = none ∧
    outcome.configured = none ∧ outcome.instructions = none

theorem notInstalled_cases {backup : Option Path} {fault : Fault} {world after : World}
    {result : Except Fault InstallOutcome}
    (run : notInstalled backup fault world = (result, after)) : after = world ∧ NotPlaced result := by
  unfold notInstalled at run
  split at run
  · cases run
    refine ⟨rfl, fun outcome same => ?_⟩
    cases same
    exact ⟨rfl, rfl, rfl, rfl⟩
  · cases run
    exact ⟨rfl, fun outcome same => by cases same⟩

/-- What an installation does, one part after the other. -/
theorem installBarring_eq {installer : Installer} {world : World} {target : Path}
    (trouble : Option (Nat × Fault)) (script : Text)
    (resolved : installer.scriptPath world = .ok target) :
    installer.installBarring trouble script world =
      match installer.backUpBarring trouble target world with
      | (.error fault, middle) => notInstalled none fault middle
      | (.ok backup, middle) =>
        match writeScript target script middle with
        | (.error fault, placed) => notInstalled backup fault placed
        | (.ok (), placed) =>
          (report target backup (installer.configure placed).1, (installer.configure placed).2) := by
  unfold installBarring
  rw [Disk.run_look_bind resolved, Disk.run_bind, Disk.run_attempt]
  cases installer.backUpBarring trouble target world with
  | mk answer middle =>
    cases answer with
    | error fault => rfl
    | ok backup =>
      dsimp only
      rw [Disk.run_bind, Disk.run_attempt]
      cases writeScript target script middle with
      | mk answer placed =>
        cases answer with
        | error fault => rfl
        | ok done => exact finish_eq installer target backup placed

theorem install_eq {installer : Installer} {world : World} {target : Path} (script : Text)
    (resolved : installer.scriptPath world = .ok target) :
    installer.install script world =
      match installer.backUp target world with
      | (.error fault, middle) => notInstalled none fault middle
      | (.ok backup, middle) =>
        match writeScript target script middle with
        | (.error fault, placed) => notInstalled backup fault placed
        | (.ok (), placed) =>
          (report target backup (installer.configure placed).1, (installer.configure placed).2) :=
  installBarring_eq none script resolved

/-- An installation comes to its end before the script has its place, or goes on from
there to the startup file. -/
theorem installBarring_cases {installer : Installer} {trouble : Option (Nat × Fault)} {script : Text}
    {world after : World} {target : Path} {result : Except Fault InstallOutcome}
    (resolved : installer.scriptPath world = .ok target)
    (run : installer.installBarring trouble script world = (result, after)) :
    (NotPlaced result ∧
      ((∃ fault, installer.backUpBarring trouble target world = (.error fault, after)) ∨
        ∃ backup middle fault, installer.backUpBarring trouble target world = (.ok backup, middle) ∧
          writeScript target script middle = (.error fault, after))) ∨
    ∃ backup middle placed, installer.backUpBarring trouble target world = (.ok backup, middle) ∧
      writeScript target script middle = (.ok (), placed) ∧
      result = report target backup (installer.configure placed).1 ∧
      after = (installer.configure placed).2 := by
  rw [installBarring_eq trouble script resolved] at run
  cases backed : installer.backUpBarring trouble target world with
  | mk answer middle =>
    rw [backed] at run
    cases answer with
    | error fault =>
      obtain ⟨rfl, failed⟩ := notInstalled_cases run
      exact Or.inl ⟨failed, Or.inl ⟨fault, rfl⟩⟩
    | ok backup =>
      dsimp only at run
      cases written : writeScript target script middle with
      | mk answer placed =>
        rw [written] at run
        cases answer with
        | error fault =>
          obtain ⟨rfl, failed⟩ := notInstalled_cases run
          exact Or.inl ⟨failed, Or.inr ⟨backup, middle, fault, rfl, written⟩⟩
        | ok done =>
          dsimp only at run
          rw [Prod.mk.injEq] at run
          exact Or.inr ⟨backup, middle, placed, rfl, written, run.1.symm, run.2.symm⟩

theorem install_cases {installer : Installer} {script : Text} {world after : World}
    {target : Path} {result : Except Fault InstallOutcome}
    (resolved : installer.scriptPath world = .ok target)
    (run : installer.install script world = (result, after)) :
    (NotPlaced result ∧
      ((∃ fault, installer.backUp target world = (.error fault, after)) ∨
        ∃ backup middle fault, installer.backUp target world = (.ok backup, middle) ∧
          writeScript target script middle = (.error fault, after))) ∨
    ∃ backup middle placed, installer.backUp target world = (.ok backup, middle) ∧
      writeScript target script middle = (.ok (), placed) ∧
      result = report target backup (installer.configure placed).1 ∧
      after = (installer.configure placed).2 :=
  installBarring_cases resolved run

theorem install_unresolved {installer : Installer} {script : Text} {world : World} {fault : Fault}
    (unresolved : installer.scriptPath world = .error fault) :
    installer.install script world = (.error fault, world) := by
  rw [install, installBarring, Disk.run_look_bind_error unresolved]

/-- An outcome of an installation takes a directory for the script. -/
theorem installDir_of_install {installer : Installer} {script : Text} {world after : World}
    {outcome : InstallOutcome} (run : installer.install script world = (.ok outcome, after)) :
    ∃ directory, installer.installDir world = .ok directory := by
  cases resolved : installer.installDir world with
  | error fault =>
    rw [install_unresolved (scriptPath_error resolved)] at run
    cases run
  | ok directory => exact ⟨directory, rfl⟩

/-- The installation goes on as it began when the script has its place. -/
theorem install_placed {installer : Installer} {trouble : Option (Nat × Fault)} {script : Text}
    {world middle placed : World} {target : Path} {backup : Option Path}
    (resolved : installer.scriptPath world = .ok target)
    (backed : installer.backUpBarring trouble target world = (.ok backup, middle))
    (written : writeScript target script middle = (.ok (), placed)) :
    installer.installBarring trouble script world =
      (report target backup (installer.configure placed).1, (installer.configure placed).2) := by
  rw [installBarring_eq trouble script resolved, backed]
  dsimp only
  rw [written]

end TabCompletion.Installer
