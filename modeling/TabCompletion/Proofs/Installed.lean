import TabCompletion.Proofs.Installation
import TabCompletion.Proofs.Ownership
import TabCompletion.Proofs.Removal

namespace TabCompletion

open FileSystem (maxPathBytes)
open World (Plain Evolves Reaches)

theorem World.short_of_leadsTo {world : World} {test : Node → Bool} {path : Path} {answer : Bool}
    (clean : path.hasNul = false) (seen : world.leadsTo test path = .ok answer) :
    path.text.byteCount ≤ maxPathBytes := by
  refine Nat.le_of_not_lt fun long => ?_
  have refused : world.locate .target path = .error (.refused .nameTooLong path) := by
    simp only [World.locate, clean, FileSystem.locate, long, if_true, Bool.false_eq_true, if_false]
  simp only [World.leadsTo, refused, reduceCtorEq] at seen

namespace Installer

/-- The script in its place, where it can be found and removed. -/
structure Installed (directory : Path) (script : Text) (world : World) : Prop where
  plain : world.Plain
  standing : world.isDirectory directory = .ok true
  reaches : world.Reaches (directory.child scriptName)
  script : ∃ mode, world.at? (world.spot (directory.child scriptName)) =
    some (.file mode (Utf8.encode script)) ∧ mode % 0o1000 = mode

theorem Placed.installed {directory : Path} {script : Text} {before after : World}
    (placed : Placed directory script before after)
    (short : (directory.child scriptName).text.byteCount ≤ maxPathBytes) :
    Installed directory script after := by
  obtain ⟨reaches, -⟩ := placed.evolves.plain.isDirectory_iff.mp placed.standing
  have spot := placed.evolves.spot (directory.child scriptName)
  obtain ⟨mode, standing, -⟩ := placed.script
  have there := (placed.evolves.plain.parent standing).1
  rw [World.spot_child scriptName_isName, List.dropLast_concat, ← placed.evolves.spot] at there
  refine ⟨placed.evolves.plain, placed.standing, ⟨?_, short, ?_⟩, ?_⟩
  · exact hasNul_child reaches.clean (by decide)
  · exact FileSystem.Passable.concat_iff.mpr ⟨reaches.passable, there, fun _ => by decide⟩
  · rw [spot]
    exact placed.script

/-- The temporary file for the script is not the startup file. -/
theorem beside_script_ne (installer : Installer) (directory : Path) (world : World) (draw : Draw) :
    (world.spot (directory.child scriptName)).beside draw ≠ world.spot installer.startupFile := by
  obtain ⟨above, startup⟩ := startupFile_eq installer
  rw [startup, World.spot_child startupName_isName, World.spot_child scriptName_isName]
  intro same
  have name : Path.name (Location.toPath (world.spot directory ++ [scriptName])) = scriptName := by
    simp [Path.name, Location.toPath]
  rw [Location.beside, Path.beside, name] at same
  have last := List.singleton_inj.mp (List.append_inj' same rfl).2
  have second := congrArg (fun text : Text => text[1]?) last
  change some '_' = some 'z' at second
  cases second

/-- What is done to the startup file leaves the script in its place. -/
theorem Installed.evolves {installer : Installer} {directory : Path} {script : Text}
    {before after : World} (installed : Installed directory script before)
    (evolves : Evolves (fun _ => False) (· = before.spot installer.startupFile) before after) :
    Installed directory script after := by
  obtain ⟨above, startup⟩ := startupFile_eq installer
  have apart : before.spot (directory.child scriptName) ≠ before.spot installer.startupFile := by
    rw [startup]
    exact World.spot_child_ne scriptName_isName startupName_isName (by decide) before directory above
  refine ⟨evolves.plain, evolves.isDirectory installed.plain installed.standing,
    evolves.reaches installed.reaches, ?_⟩
  rw [evolves.spot, evolves.same (by simp) apart]
  exact installed.script

/-- It leaves the script one that can be replaced. -/
theorem replaceFault?_evolves {installer : Installer} {directory : Path} {before after : World}
    (evolves : Evolves (fun _ => False) (· = before.spot installer.startupFile) before after) :
    after.replaceFault? (after.spot (directory.child scriptName)) =
      before.replaceFault? (before.spot (directory.child scriptName)) := by
  obtain ⟨above, startup⟩ := startupFile_eq installer
  have apart : before.spot (directory.child scriptName) ≠ before.spot installer.startupFile := by
    rw [startup]
    exact World.spot_child_ne scriptName_isName startupName_isName (by decide) before directory above
  rw [evolves.spot]
  exact World.replaceFault?_congr evolves.draws
    (fun draw _ => evolves.same (by simp) (beside_script_ne installer directory before draw))
    (World.hasDirectory_congr (evolves.same (by simp) apart))

/-- Only the place of the startup file changes when it is configured. -/
theorem configure_evolves {installer : Installer} {world after : World}
    {result : Except Fault (Option (List Text))} (plain : world.Plain)
    (run : installer.configure world = (result, after)) :
    Evolves (fun _ => False) (· = world.spot installer.startupFile) world after := by
  rcases configure_cases plain run with
    ⟨notes, rfl⟩ | ⟨-, _, location, mode, _, _, -, ⟨bytes, located, -⟩, -, -, -, rfl⟩
  · exact .note plain notes
  · obtain ⟨-, rfl, standing⟩ := (plain.locate_taken_iff (by simp)).mp located
    exact .of_standing plain standing _ _

/-- An installation that put the script in its place did so in an orderly way, and then
turned to the startup file. -/
theorem install_placed_cases {installer : Installer} {directory : Path} {script : Text}
    {world after : World} {outcome : InstallOutcome} (plain : world.Plain)
    (resolved : installer.installDir world = .ok directory)
    (run : installer.install script world = (.ok outcome, after))
    (put : outcome.success = true ∨ outcome.installedPath ≠ none) :
    ∃ backup middle placed configured,
      installer.backUp (directory.child scriptName) world = (.ok backup, middle) ∧
      Placed directory script middle placed ∧ Installed directory script placed ∧
      Evolves (Along world directory.anchor directory.parts) (ScriptPlace world directory)
        world placed ∧
      installer.configure placed = (configured, after) ∧
      report (directory.child scriptName) backup configured = .ok outcome := by
  rcases install_cases (scriptPath_eq resolved) run with
    ⟨never, -⟩ | ⟨backup, middle, placed, backed, written, reported, left⟩
  · obtain ⟨failed, nowhere, -⟩ := never outcome rfl
    rcases put with success | somewhere
    · rw [failed] at success
      cases success
    · exact absurd nowhere somewhere
  · have first := backUp_places plain resolved backed
    have standing := (writeScript_cases first.plain written).2 rfl
    obtain ⟨present, seen⟩ := backUp_seen backed
    obtain ⟨reaches, -⟩ := standing.evolves.plain.isDirectory_iff.mp standing.standing
    have short := World.short_of_leadsTo (hasNul_child reaches.clean (by decide)) seen
    exact ⟨backup, middle, placed, _, backed, standing, standing.installed short,
      placing_evolves plain resolved backed written, Prod.ext rfl left.symm, reported.symm⟩

theorem install_installed {installer : Installer} {directory : Path} {script : Text}
    {world after : World} {outcome : InstallOutcome} (plain : world.Plain)
    (resolved : installer.installDir world = .ok directory)
    (run : installer.install script world = (.ok outcome, after))
    (put : outcome.success = true ∨ outcome.installedPath ≠ none) :
    Installed directory script after := by
  obtain ⟨_, _, placed, _, -, -, installed, -, configured, -⟩ :=
    install_placed_cases plain resolved run put
  exact installed.evolves (configure_evolves installed.plain configured)

/-- Below a home directory that exists an installation leaves the directory for the script
what it was. -/
theorem install_installDir {installer : Installer} {directory : Path} {script : Text}
    {world after : World} {outcome : InstallOutcome} (plain : world.Plain)
    (home : world.isDirectory installer.home = .ok true)
    (resolved : installer.installDir world = .ok directory)
    (run : installer.install script world = (.ok outcome, after))
    (put : outcome.success = true ∨ outcome.installedPath ≠ none) :
    installer.installDir after = .ok directory := by
  obtain ⟨_, _, placed, _, -, -, installed, evolves, configured, -⟩ :=
    install_placed_cases plain resolved run put
  rw [installDir_edited installed.plain (evolves.isDirectory plain home)
    (configure_evolves installed.plain configured)]
  exact installDir_evolves plain home resolved evolves ScriptPlace.ne_framework

/-- A script of ours that stands is removed, and nothing else with it. -/
theorem removeScript_installed {directory : Path} {target : Zsh.Target} {commands : List Command}
    {world : World} (installed : Installed directory (target.generate commands) world) :
    removeScript (directory.child scriptName) world =
      (.ok .removed,
        { world with files := world.files.erase (world.spot (directory.child scriptName)) }) := by
  obtain ⟨mode, standing, -⟩ := installed.script
  have located {ending : FileSystem.Ending} (read : ending ≠ .output) :
      world.locate ending (directory.child scriptName) =
        .ok (.taken (world.spot (directory.child scriptName))
          (.file mode (Utf8.encode (target.generate commands)))) :=
    (installed.plain.locate_taken_iff read).mpr ⟨installed.reaches, rfl, standing⟩
  have present : world.exists? (directory.child scriptName) = .ok true :=
    World.leadsTo_eq_true_iff.mpr ⟨_, _, located (by simp), rfl⟩
  have owned : world.isOwned (directory.child scriptName) = .ok true := by
    rw [World.isOwned, World.readBytes_of_located (located (by simp))]
    exact congrArg Except.ok (isOwnedBytes_generate target commands)
  have removed : world.removeFile (directory.child scriptName) =
      .ok { world with files := world.files.erase (world.spot (directory.child scriptName)) } := by
    rw [World.removeFile, located (by simp)]
    rfl
  unfold removeScript
  rw [Disk.run_look_bind present]
  simp only [if_true]
  rw [Disk.run_look_bind owned]
  simp only [if_true]
  rw [Disk.run_bind, Disk.run_change, removed]
  rfl

/-- A script put into a directory that is there, where there was none. -/
theorem install_fresh {installer : Installer} {directory : Path} {script : Text} {world : World}
    (plain : world.Plain) (resolved : installer.installDir world = .ok directory)
    (standing : world.at? (world.spot directory) = some .directory)
    (reaches : world.Reaches directory)
    (absent : world.exists? (directory.child scriptName) = .ok false)
    (fine : world.replaceFault? (world.spot (directory.child scriptName)) = none) :
    let placed := world.set (world.spot (directory.child scriptName))
      (.file (World.keptMode (world.at? (world.spot (directory.child scriptName))))
        (Utf8.encode script))
    installer.install script world =
      (report (directory.child scriptName) none (installer.configure placed).1,
        (installer.configure placed).2) := by
  intro placed
  have there := plain.isDirectory_iff.mpr ⟨reaches, Or.inl standing⟩
  have written : writeScript (directory.child scriptName) script world = _ :=
    writeScript_standing plain (Disk.makeDirectories_standing plain there) standing
  rw [fine] at written
  exact install_placed (scriptPath_eq resolved) (backUp_absent absent) written

/-- The script in a home directory whose startup file nothing was to be done to. -/
def homeAfter (bytes : Bytes) (script : Text) : World :=
  (World.homeWith bytes).set ["home".toList, scriptName] (.file World.newMode (Utf8.encode script))

theorem homeWith_absent (bytes : Bytes) :
    (World.homeWith bytes).at? ["home".toList, scriptName] = none ∧
      (World.homeWith bytes).exists? (Path.child ⟨.root, ["home".toList]⟩ scriptName) = .ok false := by
  have evolves := World.homeWith_evolves bytes
  obtain ⟨reaches, -⟩ := evolves.plain.isDirectory_iff.mp
    (evolves.isDirectory World.bareHome_plain World.bareHome_isDirectory)
  have there : (World.homeWith bytes).at? ["home".toList] = some .directory := evolves.directory rfl
  have free : (World.homeWith bytes).at? ["home".toList, scriptName] = none := by
    rw [evolves.same (by simp) (by decide)]
    rfl
  have located : (World.homeWith bytes).locate .target
      (Path.child ⟨.root, ["home".toList]⟩ scriptName) = .ok (.free ["home".toList] scriptName) :=
    (evolves.plain.locate_free_iff (by simp)).mpr
      ⟨⟨rfl, by decide, FileSystem.Passable.concat_iff.mpr ⟨reaches.passable, there, fun _ => by decide⟩⟩,
        rfl, scriptName_isName, rfl, free⟩
  exact ⟨free, by rw [World.exists?, World.leadsTo, located]⟩

/-- The script is put into a home directory that has none, and the startup file has its turn. -/
theorem install_homeWith {installer : Installer} (named : installer.namedDir? = some ⟨.root, ["home".toList]⟩)
    (bytes : Bytes) (script : Text) :
    installer.install script (World.homeWith bytes) =
      (report (Path.child ⟨.root, ["home".toList]⟩ scriptName) none
        (installer.configure (homeAfter bytes script)).1, (installer.configure (homeAfter bytes script)).2) := by
  have evolves := World.homeWith_evolves bytes
  obtain ⟨free, absent⟩ := homeWith_absent bytes
  have fine : (World.homeWith bytes).replaceFault? ["home".toList, scriptName] = none := by
    have bare : (World.bareHome.replaceFault? ["home".toList, scriptName]).isNone = true := rfl
    rw [← Option.isNone_iff_eq_none.mp bare]
    refine World.replaceFault?_congr evolves.draws (fun draw member => ?_)
      (World.hasDirectory_congr (evolves.same (by simp) (by decide)))
    rw [List.mem_singleton.mp member]
    exact evolves.same (by simp) (by decide)
  have run : installer.install script (World.homeWith bytes) = _ :=
    install_fresh evolves.plain (installDir_named named _) (evolves.directory rfl)
      (evolves.plain.isDirectory_iff.mp
        (evolves.isDirectory World.bareHome_plain World.bareHome_isDirectory)).1 absent fine
  have spot : (World.homeWith bytes).spot (Path.child ⟨.root, ["home".toList]⟩ scriptName) =
      ["home".toList, scriptName] := rfl
  rw [spot, free] at run
  exact run

theorem homeInstaller_puts (environment : Environment) (automatic : Bool) (bytes : Bytes)
    (script : Text) :
    (homeInstaller environment automatic).install script (World.homeWith bytes) =
      (report (Path.child ⟨.root, ["home".toList]⟩ scriptName) none
        ((homeInstaller environment automatic).configure (homeAfter bytes script)).1,
        ((homeInstaller environment automatic).configure (homeAfter bytes script)).2) :=
  install_homeWith rfl bytes script

theorem homeInstaller_install (environment : Environment) (bytes : Bytes) (script : Text) :
    ∃ outcome, (homeInstaller environment false).install script (World.homeWith bytes) =
        (.ok outcome, homeAfter bytes script) ∧
      outcome.success = true ∧ outcome.installedPath.isSome = true := by
  have run := homeInstaller_puts environment false bytes script
  rw [configure_off (homeInstaller_installDir environment false _) rfl] at run
  exact ⟨_, run, rfl, rfl⟩

theorem homeAfter_evolves (bytes : Bytes) (script : Text) :
    Evolves (fun _ => False) (· = ["home".toList, scriptName]) (World.homeWith bytes)
      (homeAfter bytes script) := by
  have evolves := World.homeWith_evolves bytes
  have parent : (World.homeWith bytes).at? ["home".toList] = some .directory :=
    evolves.directory rfl
  have kept : ¬ (World.homeWith bytes).HasDirectory ["home".toList, scriptName] := by
    rw [World.HasDirectory, (homeWith_absent bytes).1]
    simp
  exact Evolves.of_file evolves.plain parent kept World.newMode (Utf8.encode script)

theorem homeAfter_located (bytes : Bytes) (script : Text) :
    (homeAfter bytes script).locate .target ⟨.root, ["home".toList, ".zshrc".toList]⟩ =
      .ok (.taken ["home".toList, ".zshrc".toList] (.file 0o600 bytes)) :=
  (homeAfter_evolves bytes script).located (World.homeWith_evolves bytes).plain
    (World.homeWith_located bytes) (by decide)

theorem homeAfter_fine (bytes : Bytes) (script : Text) :
    (homeAfter bytes script).replaceFault? ["home".toList, ".zshrc".toList] = none := by
  have evolves := homeAfter_evolves bytes script
  rw [← World.homeWith_fine bytes]
  refine World.replaceFault?_congr evolves.draws (fun draw member => evolves.same (by simp) ?_)
    (World.hasDirectory_congr (evolves.same (by simp) (by decide)))
  rw [List.mem_singleton.mp member]
  decide

/-- A command for a script, with a flag and a trailing value. -/
def homeCommands : List Command :=
  [⟨"show".toList, "Show one".toList, [⟨"json".toList, some 'j', "As JSON".toList, false, none⟩], [], true,
    some .changeId⟩]

/-- The script in the home directory, and its block in the startup file. -/
def homeEdited (bytes : Bytes) (script : Text) : World :=
  (homeAfter bytes script).set ["home".toList, ".zshrc".toList]
    (.file 0o600 (Utf8.encode (Block.append markers (blockBody ⟨.root, ["home".toList]⟩) "x\n".toList)))

/-- A startup file of one line is given a block. -/
theorem install_appends {installer : Installer} (named : installer.namedDir? = some ⟨.root, ["home".toList]⟩)
    (startup : installer.startupFile = ⟨.root, ["home".toList, ".zshrc".toList]⟩)
    (on : installer.settings.autoConfigure = true) {bytes : Bytes} {text : Text}
    (decoded : Utf8.decode bytes = .ok text) (line : text.unifyNewlines = "x\n".toList) (script : Text) :
    installer.install script (World.homeWith bytes) =
      (report (Path.child ⟨.root, ["home".toList]⟩ scriptName) none (.ok none), homeEdited bytes script) := by
  have located : (homeAfter bytes script).locate .target installer.startupFile = _ :=
    startup ▸ homeAfter_located bytes script
  have given : configuredText installer.startupFile ⟨.root, ["home".toList]⟩ installer.home
      text.unifyNewlines =
        .ok (.inl (Block.append markers (blockBody ⟨.root, ["home".toList]⟩) "x\n".toList)) := by
    rw [line]
    rfl
  have edit := editStartup_eq (homeAfter_evolves bytes script).plain located decoded
    (installDir_named named _)
  rw [given, line] at edit
  dsimp only at edit
  rw [if_neg (append_ne markers (blockBody ⟨.root, ["home".toList]⟩) "x\n".toList).symm, homeAfter_fine] at edit
  rw [install_homeWith named, configure_edited on (World.isFile_of_located located) edit]
  rfl

theorem homeInstaller_appends {bytes : Bytes} {text : Text} (decoded : Utf8.decode bytes = .ok text)
    (line : text.unifyNewlines = "x\n".toList) (script : Text) :
    (homeInstaller [] true).install script (World.homeWith bytes) =
      (report (Path.child ⟨.root, ["home".toList]⟩ scriptName) none (.ok none), homeEdited bytes script) :=
  install_appends rfl rfl rfl decoded line script

theorem homeEdited_evolves (bytes : Bytes) (script : Text) :
    Evolves (fun _ => False) (· = ["home".toList, ".zshrc".toList]) (homeAfter bytes script)
      (homeEdited bytes script) := by
  have plain := (homeAfter_evolves bytes script).plain
  obtain ⟨-, -, standing⟩ := (plain.locate_taken_iff (by simp)).mp (homeAfter_located bytes script)
  exact .of_standing plain standing _ _

theorem homeEdited_located (bytes : Bytes) (script : Text) :
    (homeEdited bytes script).locate .target ⟨.root, ["home".toList, ".zshrc".toList]⟩ =
      .ok (.taken ["home".toList, ".zshrc".toList] (.file 0o600
        (Utf8.encode (Block.append markers (blockBody ⟨.root, ["home".toList]⟩) "x\n".toList)))) :=
  (homeAfter_evolves bytes script).plain.located_set (homeAfter_located bytes script) _ _

end Installer

end TabCompletion
