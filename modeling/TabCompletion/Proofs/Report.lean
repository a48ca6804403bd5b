import TabCompletion.Proofs.Backup

namespace TabCompletion.Installer

open World (Plain Evolves Reaches)

/-- The block of a directory is the first block of a text. Around it stands what stood around
the first block of the text before, or where that had none, the text before it and a newline
on either side. -/
def Registers (directory : Path) (old new : Text) : Prop :=
  ∃ before after, new = before ++ (Block.render markers (blockBody directory) ++ after) ∧
    Block.find markers new = .ok (some
      ⟨before.length, before.length + (Block.render markers (blockBody directory)).length⟩) ∧
    ((∃ span, Block.find markers old = .ok (some span) ∧ before = old.take span.first ∧
        after = old.drop span.last) ∨
      Block.find markers old = .ok none ∧ before = old ++ ['\n'] ∧ after = ['\n'])

theorem configuredText_registers {startup directory home : Path} {old new : Text}
    (single : directory.OneLine)
    (configured : configuredText startup directory home old = .ok (.inl new)) :
    Registers directory old new := by
  rcases configuredText_cases configured with ⟨span, found, rfl⟩ | ⟨found, -, rfl⟩
  · obtain ⟨-, ordered, within, -⟩ := Block.find_eq_some markers_proper.start.1 markers_proper.finish.1 found
    obtain ⟨parts, length⟩ := Block.length_splice (Nat.le_trans ordered within)
      (Block.render markers (blockBody directory))
    refine ⟨old.take span.first, old.drop span.last, parts, ?_, Or.inl ⟨span, found, rfl, rfl⟩⟩
    rw [length]
    exact Block.find_splice markers_proper found (blockBody_free single)
  · refine ⟨old ++ ['\n'], ['\n'], by simp [Block.append], ?_, Or.inr ⟨found, rfl, rfl⟩⟩
    rw [List.length_append, List.length_singleton]
    exact Block.find_append markers_proper (Block.findLine?_of_find_none found).1
      (blockBody_free single)

/-- A startup file that is said to be configured has the block of the directory. -/
theorem configure_registers {installer : Installer} {world after : World} {directory : Path}
    (plain : world.Plain) (resolved : installer.installDir world = .ok directory)
    (single : directory.OneLine) (run : installer.configure world = (.ok none, after)) :
    ∃ mode bytes old new, world.at? (world.spot installer.startupFile) = some (.file mode bytes) ∧
      Utf8.decode bytes = .ok old ∧ after.readText installer.startupFile = .ok new ∧
      Registers directory old.unifyNewlines new := by
  cases configures_of_run plain resolved run with
  | @edited location mode bytes _ _ on located edits =>
    obtain ⟨-, rfl, standing⟩ := (plain.locate_taken_iff (by simp)).mp located
    cases edits with
    | @current text decoded configured =>
      refine ⟨mode, bytes, text, _, standing, decoded, ?_, configuredText_registers single configured⟩
      rw [World.readText_of_located located, decoded]
    | @written text updated decoded configured =>
      refine ⟨mode, bytes, text, updated, standing, decoded, ?_, configuredText_registers single configured⟩
      obtain ⟨-, unified⟩ := configuredText_again single (Text.not_mem_unifyNewlines text) configured
      rw [World.readText_of_located (plain.located_set located _ _), Utf8.decode_encode]
      exact congrArg Except.ok (Text.unifyNewlines_of_not_mem unified)

/-- A place that stays as it is, except that a directory may come to stand on the way to the
directory for the script where nothing stood. -/
def Spared (directory : Path) (before after : World) (location : Location) : Prop :=
  after.at? location = before.at? location ∨
    Along before directory.anchor directory.parts location ∧ before.at? location = none ∧
      after.at? location = some .directory

theorem spared_of_evolves {directory : Path} {touched : Location → Prop} {before after : World}
    {location : Location}
    (evolves : Evolves (Along before directory.anchor directory.parts) touched before after)
    (apart : ¬ touched location) : Spared directory before after location := by
  rcases evolves.kept location with same | new | ⟨changed, -⟩
  · exact Or.inl same
  · exact Or.inr new
  · exact absurd changed apart

/-- What an installation tells of itself holds of the files that it leaves. -/
structure Truthful (installer : Installer) (directory : Path) (script : Text)
    (before after : World) (outcome : InstallOutcome) : Prop where
  installed : ∀ path, outcome.installedPath = some path →
    path = (directory.child scriptName).text ∧
      installer.scriptPath after = .ok (directory.child scriptName) ∧
      after.readBytes (directory.child scriptName) = .ok (Utf8.encode script)
  notInstalled : outcome.installedPath = none →
    outcome.success = false ∧
      Spared directory before after (before.spot (directory.child scriptName)) ∧
      Spared directory before after (before.spot installer.startupFile)
  configured : outcome.configured = some true →
    outcome.success = true ∧ ∃ mode bytes old new,
      before.at? (before.spot installer.startupFile) = some (.file mode bytes) ∧
        Utf8.decode bytes = .ok old ∧ after.readText installer.startupFile = .ok new ∧
        Registers directory old.unifyNewlines new
  unconfigured : outcome.configured ≠ some true →
    Spared directory before after (before.spot installer.startupFile)
  instructions : outcome.instructions.isSome = true ↔
    outcome.success = true ∧ outcome.configured = some false

theorem report_told {target : Path} {backup : Option Path}
    {configured : Except Fault (Option (List Text))} {outcome : InstallOutcome}
    (reported : report target backup configured = .ok outcome) :
    outcome.installedPath = some target.text ∧
      (outcome.configured = some true ↔ configured = .ok none) ∧
      (outcome.configured = some true → outcome.success = true) ∧
      (outcome.instructions.isSome = true ↔
        outcome.success = true ∧ outcome.configured = some false) := by
  cases configured with
  | ok instructions =>
    cases reported
    cases instructions <;> simp
  | error fault =>
    cases fault <;> cases reported
    simp

section Install

variable {installer : Installer} {directory : Path} {script : Text} {world after : World}
  {outcome : InstallOutcome}

/-- Where no script was put in its place nothing was done but making directories, and a copy of
the file there. -/
theorem notPlaced_evolves (plain : world.Plain) (resolved : installer.installDir world = .ok directory)
    (left : (∃ fault, installer.backUp (directory.child scriptName) world = (.error fault, after)) ∨
      ∃ backup middle fault,
        installer.backUp (directory.child scriptName) world = (.ok backup, middle) ∧
          writeScript (directory.child scriptName) script middle = (.error fault, after)) :
    Evolves (Along world directory.anchor directory.parts)
      (· = world.spot (directory.child backupName)) world after := by
  rcases left with ⟨fault, backed⟩ | ⟨backup, middle, fault, backed, written⟩
  · exact (backUp_evolves plain resolved backed).mono (by simp) (fun _ same => same)
  · have first := backUp_evolves plain resolved backed
    have second := writeScript_refused first.plain written
    refine (first.mono (by simp) (fun _ same => same)).trans (second.mono ?_ (by simp))
    rintro place ⟨count, rfl⟩
    exact ⟨count, first.spot _⟩

theorem truthful_of_notPlaced (never : NotPlaced (.ok outcome))
    (evolves : Evolves (Along world directory.anchor directory.parts)
      (· = world.spot (directory.child backupName)) world after) :
    Truthful installer directory script world after outcome := by
  obtain ⟨failed, nowhere, quiet, silent⟩ := never outcome rfl
  have copy : ScriptPlace world directory (world.spot (directory.child backupName)) := Or.inr rfl
  have script := spared_of_evolves evolves (backup_ne_script world directory).symm
  have startup : Spared directory world after (world.spot installer.startupFile) :=
    spared_of_evolves evolves copy.apart.symm
  refine ⟨?_, fun _ => ⟨failed, script, startup⟩, ?_, fun _ => startup, ?_⟩
  · simp [nowhere]
  · simp [quiet]
  · simp [quiet, silent]

theorem truthful_of_placed (plain : world.Plain)
    (home : world.isDirectory installer.home = .ok true)
    (resolved : installer.installDir world = .ok directory) (single : directory.OneLine)
    (run : installer.install script world = (.ok outcome, after))
    (put : outcome.installedPath ≠ none) :
    Truthful installer directory script world after outcome := by
  obtain ⟨backup, middle, placed, configured, -, -, standing, placing, edited, reported⟩ :=
    install_placed_cases plain resolved run (Or.inr put)
  obtain ⟨path, asked, succeeds, instructions⟩ := report_told reported
  have resolvedPlaced := installDir_evolves plain home resolved placing ScriptPlace.ne_framework
  refine ⟨fun other told => ?_, fun nowhere => absurd nowhere put, fun told => ?_, fun other => ?_,
    instructions⟩
  · obtain ⟨mode, there, -⟩ := (standing.evolves (configure_evolves standing.plain edited)).script
    have installed := standing.evolves (configure_evolves standing.plain edited)
    have located : after.locate .target (directory.child scriptName) = _ :=
      (installed.plain.locate_taken_iff (by simp)).mpr ⟨installed.reaches, rfl, there⟩
    rw [path, Option.some.injEq] at told
    exact ⟨told.symm, scriptPath_eq (install_installDir plain home resolved run (Or.inr put)),
      World.readBytes_of_located located⟩
  · obtain rfl := asked.mp told
    obtain ⟨mode, bytes, old, new, before, read⟩ :=
      configure_registers standing.plain resolvedPlaced single edited
    rw [placing.spot] at before
    have same := (placing.sameFile ScriptPlace.ne_startup mode bytes).mp before
    exact ⟨succeeds told, mode, bytes, old, new, same, read⟩
  · have quiet : after.at? (world.spot installer.startupFile) =
        placed.at? (world.spot installer.startupFile) := by
      rcases configure_resolved standing.plain resolvedPlaced edited with ⟨notes, rfl⟩ | ⟨never, -⟩
      · rfl
      · exact absurd (asked.mpr never) other
    have spared : Spared directory world placed (world.spot installer.startupFile) :=
      spared_of_evolves placing ScriptPlace.ne_startup
    rwa [Spared, quiet]

end Install

/-- Whatever an installation comes to, what it tells holds. Where no script was put in its place
a directory may come to stand on the way to the one for the script, and nothing else. -/
theorem install_truthful {installer : Installer} {script : Text} {world after : World}
    {outcome : InstallOutcome} (plain : world.Plain)
    (home : world.isDirectory installer.home = .ok true)
    (single : ∀ directory, installer.installDir world = .ok directory → directory.OneLine)
    (run : installer.install script world = (.ok outcome, after)) :
    ∃ directory, installer.installDir world = .ok directory ∧
      Truthful installer directory script world after outcome := by
  obtain ⟨directory, resolved⟩ := installDir_of_install run
  refine ⟨directory, resolved, ?_⟩
  rcases install_cases (scriptPath_eq resolved) run with
    ⟨never, left⟩ | ⟨backup, middle, placed, -, -, reported, -⟩
  · exact truthful_of_notPlaced never (notPlaced_evolves plain resolved left)
  · have put : outcome.installedPath ≠ none := by simp [(report_told reported.symm).1]
    exact truthful_of_placed plain home resolved (single directory resolved) run put

/-- A startup file with a line end of its own is told to be configured, and is. -/
theorem install_truthful_at_home :
    let installer := homeInstaller [] true
    let start := World.homeWith (Utf8.encode "x\r\n".toList)
    ∃ outcome after directory, installer.install "script".toList start = (.ok outcome, after) ∧
      outcome.configured = some true ∧ outcome.installedPath.isSome = true ∧
      Truthful installer directory "script".toList start after outcome := by
  intro installer start
  have evolves := World.homeWith_evolves (Utf8.encode "x\r\n".toList)
  have single : ∀ directory, installer.installDir start = .ok directory → directory.OneLine := by
    intro directory resolved
    obtain rfl := Except.ok.inj ((homeInstaller_installDir [] true start).symm.trans resolved)
    decide
  have run : installer.install "script".toList start = _ :=
    homeInstaller_appends (Utf8.decode_encode "x\r\n".toList) rfl "script".toList
  obtain ⟨directory, -, truthful⟩ := install_truthful evolves.plain
    (evolves.isDirectory World.bareHome_plain World.bareHome_isDirectory) single run
  exact ⟨_, _, directory, run, rfl, rfl, truthful⟩

/-- An installer into the home directory by way of a directory in the script's place. -/
def detour : Installer where
  home := ⟨.root, ["home".toList]⟩
  environment := []
  settings := { autoConfigure := false, installDir := some "~/_spectest/..".toList }

/-- The directory that the detour names. -/
def detourDir : Path := ⟨.root, ["home".toList, scriptName, "..".toList]⟩

/-- The home directory with a directory in the script's place. -/
def detoured : World :=
  World.bareHome.set ["home".toList, scriptName] .directory

theorem detour_installDir (world : World) : detour.installDir world = .ok detourDir :=
  installDir_named rfl world

theorem detoured_evolves :
    Evolves (· = ["home".toList, scriptName]) (fun _ => False) World.bareHome detoured :=
  have parent : World.bareHome.at? ["home".toList] = some .directory := rfl
  Evolves.of_directory World.bareHome_plain parent rfl

/-- Nothing is found by way of a directory that is missing. -/
theorem bareHome_missing {ending : FileSystem.Ending} {path : Path} {name : Text} {rest : List Text}
    (inside : path = ⟨.root, "home".toList :: scriptName :: name :: rest⟩) (read : ending ≠ .output)
    (clean : path.hasNul = false) (short : path.text.byteCount ≤ FileSystem.maxPathBytes) :
    World.bareHome.locate ending path = .error (.refused .noEntry path) := by
  have root := FileSystem.get?_nil World.bareHome.files
  have home : World.bareHome.files.get? ["home".toList] = some .directory := rfl
  have free : World.bareHome.files.get? ["home".toList, scriptName] = none := rfl
  have walked : World.bareHome.files.walk ending FileSystem.maxLinks []
      ("home".toList :: scriptName :: name :: rest) = .error .noEntry := by
    have proper : IsName "home".toList := by decide
    have fits : ¬ FileSystem.maxNameBytes < Text.byteCount "home".toList := by decide
    have fitsScript : ¬ FileSystem.maxNameBytes < Text.byteCount scriptName := by decide
    rw [FileSystem.walk_cons World.bareHome_plain.linkFree, if_pos root, if_pos proper,
      if_neg (by simp [read]), if_neg fits, List.nil_append, home, if_neg (by simp),
      FileSystem.walk_cons World.bareHome_plain.linkFree, if_pos home, if_pos scriptName_isName,
      if_neg (by simp [read]), if_neg fitsScript, List.singleton_append, if_pos free]
    rfl
  have whole : (if path.isAbsolute then [] else World.bareHome.cwd) = [] := by
    rw [inside]
    rfl
  rw [World.locate, if_neg (by simp [clean]), FileSystem.locate, if_neg (Nat.not_lt.mpr short), whole,
    inside, walked]

theorem detour_isDirectory : detoured.isDirectory detourDir = .ok true :=
  detoured_evolves.plain.isDirectory_iff.mpr
    ⟨⟨rfl, by decide, rfl, fun _ => by decide, rfl, fun _ => by decide, rfl, fun _ => by decide, trivial⟩,
      .inl rfl⟩

theorem detour_made : Disk.makeDirectories detourDir World.bareHome = (.ok (), detoured) := by
  have absent : World.bareHome.locate .itself detourDir = .error (.refused .noEntry detourDir) :=
    bareHome_missing rfl (by simp) (by decide) (by decide)
  have missing : World.bareHome.makeDirectory detourDir = .error (.refused .noEntry detourDir) := by
    rw [World.makeDirectory, absent]
    rfl
  have first : World.bareHome.makeDirectory ⟨.root, ["home".toList, scriptName]⟩ = .ok detoured := by
    have located : World.bareHome.locate .itself ⟨.root, ["home".toList, scriptName]⟩ =
        .ok (.free ["home".toList] scriptName) :=
      (World.bareHome_plain.locate_free_iff (by simp)).mpr
        ⟨⟨rfl, by decide, rfl, fun _ => by decide, rfl, fun _ => by decide, trivial⟩, rfl,
          scriptName_isName, rfl, rfl⟩
    rw [World.makeDirectory, located]
    rfl
  have up : Disk.makeUpFrom .root 979 [scriptName, "home".toList] World.bareHome = (.ok (), detoured) := by
    have path : World.bareHome.makeDirectory ⟨.root, [scriptName, "home".toList].reverse⟩ =
        .ok detoured := first
    rw [Disk.makeUpFrom, Disk.run_bind, Disk.run_attempt, Disk.run_change, path]
    rfl
  have again : Disk.makeDirectory detourDir detoured = (.ok (), detoured) :=
    Disk.makeDirectory_standing detoured_evolves.plain detour_isDirectory
  have start : Disk.makeDirectories detourDir World.bareHome =
      (Disk.makeUpFrom .root 979 [scriptName, "home".toList] >>= fun _ =>
        Disk.makeDirectory detourDir) World.bareHome := by
    have path : World.bareHome.makeDirectory
        ⟨.root, ["..".toList, scriptName, "home".toList].reverse⟩ =
          .error (.refused .noEntry detourDir) := missing
    change Disk.makeUpFrom .root (979 + 1) ["..".toList, scriptName, "home".toList] _ = _
    rw [Disk.makeUpFrom, Disk.run_bind, Disk.run_attempt, Disk.run_change, path]
    rfl
  rw [start, Disk.run_bind_ok up, again]

theorem detour_install (script : Text) :
    ∃ outcome, detour.install script World.bareHome = (.ok outcome, detoured) ∧
      outcome.installedPath = none := by
  have resolved := detour_installDir World.bareHome
  have absent : World.bareHome.exists? (detourDir.child scriptName) = .ok false := by
    have missing : World.bareHome.locate .target (detourDir.child scriptName) =
        .error (.refused .noEntry (detourDir.child scriptName)) :=
      bareHome_missing rfl (by simp) (by decide) (by decide)
    rw [World.exists?, World.leadsTo, missing]
  have taken : (detoured.replaceFault? (World.bareHome.spot (detourDir.child scriptName))).any
      Fault.isSystem = true := rfl
  obtain ⟨fault, refused, system⟩ := Option.any_eq_true _ _ |>.mp taken
  have written : writeScript (detourDir.child scriptName) script World.bareHome = _ :=
    writeScript_standing World.bareHome_plain detour_made rfl
  rw [refused] at written
  have run := install_eq script (scriptPath_eq resolved)
  rw [backUp_absent absent] at run
  dsimp only at run
  rw [written] at run
  dsimp only [notInstalled] at run
  rw [if_pos system] at run
  exact ⟨_, run, rfl⟩

/-- An installation that fails may leave a directory in the script's place. -/
theorem install_leaves_directory :
    World.bareHome.Plain ∧ World.bareHome.isDirectory detour.home = .ok true ∧
      detourDir.OneLine ∧ ∃ outcome after,
        detour.install "ours\n".toList World.bareHome = (.ok outcome, after) ∧
          outcome.installedPath = none ∧
          World.bareHome.at? (World.bareHome.spot (detourDir.child scriptName)) = none ∧
          after.at? (World.bareHome.spot (detourDir.child scriptName)) = some .directory := by
  obtain ⟨outcome, run, nowhere⟩ := detour_install "ours\n".toList
  exact ⟨World.bareHome_plain, World.bareHome_isDirectory, by decide, outcome, detoured, run, nowhere,
    rfl, rfl⟩

end TabCompletion.Installer
