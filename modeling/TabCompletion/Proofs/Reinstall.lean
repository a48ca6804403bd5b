import TabCompletion.Proofs.Redraw

namespace TabCompletion

open World (Plain Evolves Reaches)

namespace World

namespace Alike

theorem plain {first second : World} (alike : Alike first second) (plain : first.Plain) :
    second.Plain := by
  refine ⟨fun location target => ?_, fun directory name => ?_, ?_⟩
  · change second.at? location ≠ _
    rw [alike.same]
    exact plain.linkFree location target
  · change second.at? (directory ++ [name]) ≠ none → second.at? directory = _
    rw [alike.same, alike.same]
    exact plain.rooted directory name
  · rw [alike.cwd]
    exact plain.named

theorem isFile {first second : World} (alike : Alike first second) (path : Path) :
    second.isFile path = first.isFile path := by
  simp only [World.isFile, World.leadsTo, alike.locate]

theorem installDir {first second : World} (alike : Alike first second)
    (installer : Installer) : installer.installDir second = installer.installDir first := by
  simp only [Installer.installDir, World.isDirectory, World.leadsTo, alike.locate]

theorem replaceFault? {first second : World} (alike : Alike first second) (location : Location) :
    second.replaceFault? location = first.replaceFault? location :=
  replaceFault?_congr alike.draws (fun _ _ => alike.same _) (hasDirectory_congr (alike.same _))

end Alike

end World

namespace Installer

/-- Where the startup file was edited, another edit changes nothing and comes to the same, or the
system refuses it as it refused the first one. -/
theorem Edits.again {installer : Installer} {world after later : World} {draws : List Draw} {directory : Path}
    {location : Location} {mode : Nat} {bytes : Bytes} {result : Except Fault (Option (List Text))}
    (edits : installer.Edits directory world location mode bytes result after) (plain : world.Plain)
    (located : world.locate .target installer.startupFile = .ok (.taken location (.file mode bytes)))
    (single : directory.OneLine) (redraws : after.Redraws draws location)
    (alike : World.Alike (after.redraw draws) later) :
    ∃ mode bytes other,
      later.locate .target installer.startupFile = .ok (.taken location (.file mode bytes)) ∧
      installer.Edits directory later location mode bytes other later ∧
      (other = result ∨ ∃ first second, result = .error first ∧ other = .error second ∧
        first.isSystem = true ∧ second.isSystem = true) := by
  cases edits with
  | undecodable undecodable =>
    exact ⟨mode, bytes, _, alike.locate _ _ ▸ located, .undecodable undecodable, Or.inl rfl⟩
  | marked decoded configured =>
    exact ⟨mode, bytes, _, alike.locate _ _ ▸ located, .marked decoded configured, Or.inl rfl⟩
  | referenced decoded configured =>
    exact ⟨mode, bytes, _, alike.locate _ _ ▸ located, .referenced decoded configured, Or.inl rfl⟩
  | current decoded configured =>
    exact ⟨mode, bytes, _, alike.locate _ _ ▸ located, .current decoded configured, Or.inl rfl⟩
  | refused decoded configured differ refused =>
    rcases redraws.replaceFault?_eq with same | ⟨fault, other, first, second, system, systemToo⟩
    · rw [← same, ← alike.replaceFault?] at refused
      exact ⟨mode, bytes, _, alike.locate _ _ ▸ located, .refused decoded configured differ refused, Or.inl rfl⟩
    · cases first.symm.trans refused
      rw [← alike.replaceFault?] at second
      exact ⟨mode, bytes, _, alike.locate _ _ ▸ located, .refused decoded configured differ second,
        Or.inr ⟨_, _, rfl, rfl, system, systemToo⟩⟩
  | @written text updated decoded configured =>
    obtain ⟨given, unified⟩ := configuredText_again single (Text.not_mem_unifyNewlines text) configured
    have there := plain.located_set located (mode % 0o1000) (Utf8.encode updated)
    refine ⟨_, _, _, alike.locate _ _ ▸ there, .current (Utf8.decode_encode updated) ?_, Or.inl rfl⟩
    rw [Text.unifyNewlines_of_not_mem unified]
    exact given

/-- Where the startup file was configured, another try comes to the same and changes no file. -/
theorem configure_again {installer : Installer} {world after later : World} {draws : List Draw} {directory : Path}
    {result : Except Fault (Option (List Text))} (plain : world.Plain)
    (resolved : installer.installDir world = .ok directory)
    (resolvedLater : installer.installDir later = .ok directory) (single : directory.OneLine)
    (run : installer.configure world = (result, after))
    (redraws : after.Redraws draws (after.spot installer.startupFile))
    (alike : World.Alike (after.redraw draws) later) :
    ∃ notes, installer.configure later = (result, { later with notes := notes }) := by
  have edit := configure_evolves plain run
  have plainLater : later.Plain := alike.plain (edit.plain.redraw draws)
  rw [edit.spot] at redraws
  cases configures_of_run plain resolved run with
  | off off => exact ⟨later.notes, configure_off resolvedLater off⟩
  | unseen on unseen =>
    rw [← World.isFile_redraw, ← alike.isFile] at unseen
    exact ⟨later.notes, configure_unseen on unseen⟩
  | absent on absent note =>
    have absent : later.isFile installer.startupFile = .ok false := (alike.isFile _).trans absent
    obtain ⟨note, same⟩ := configure_absent resolvedLater on absent
    exact ⟨_, same⟩
  | denied on located note =>
    have there := (alike.locate .target installer.startupFile).trans located
    obtain ⟨note, same⟩ := configure_denied resolvedLater on there
    exact ⟨_, same⟩
  | edited on located edits =>
    obtain ⟨-, rfl, -⟩ := (plain.locate_taken_iff (by simp)).mp located
    obtain ⟨_, _, other, there, again, rfl | ⟨_, _, never, -⟩⟩ := edits.again plain located single redraws alike
    · exact ⟨later.notes, configure_edited on (World.isFile_of_located there)
        ((editStartup_iff plainLater there resolvedLater).mpr again)⟩
    · cases never
  | tolerated on located edits tolerated note =>
    obtain ⟨-, rfl, -⟩ := (plain.locate_taken_iff (by simp)).mp located
    obtain ⟨_, _, other, there, again, same⟩ :=
      edits.again plain located single redraws ⟨alike.cwd, alike.draws, alike.same⟩
    obtain ⟨second, rfl, tolerable⟩ : ∃ second, other = .error second ∧
        (second.isSystem || second.isUndecodable) = true := by
      rcases same with rfl | ⟨_, second, -, rfl, -, system⟩
      · exact ⟨_, rfl, tolerated⟩
      · exact ⟨second, rfl, by rw [system]; rfl⟩
    have same := configure_refused resolvedLater on (World.isFile_of_located there)
      ((editStartup_iff plainLater there resolvedLater).mpr again)
    rw [if_pos tolerable] at same
    obtain ⟨note, same⟩ := same
    exact ⟨_, same⟩
  | thrown on located edits grave =>
    obtain ⟨-, rfl, -⟩ := (plain.locate_taken_iff (by simp)).mp located
    obtain ⟨_, _, other, there, again, rfl | ⟨first, _, same, -, system, -⟩⟩ :=
      edits.again plain located single redraws alike
    · have same := configure_refused resolvedLater on (World.isFile_of_located there)
        ((editStartup_iff plainLater there resolvedLater).mpr again)
      rw [if_neg grave] at same
      exact ⟨later.notes, same⟩
    · cases same
      exact absurd (by rw [system]; rfl) grave

theorem report_again {target : Path} {backup : Option Path}
    {configured : Except Fault (Option (List Text))} {outcome : InstallOutcome}
    (reported : report target backup configured = .ok outcome) :
    report target none configured = .ok { outcome with backupPath := none } := by
  cases configured with
  | ok instructions =>
    cases reported
    rfl
  | error fault =>
    cases fault <;> cases reported
    rfl

/-- A script that stands is not copied aside, and written again it stays the same. -/
theorem placing_again (installer : Installer) {directory : Path} {target : Zsh.Target}
    {commands : List Command} {world : World}
    (installed : Installed directory (target.generate commands) world)
    (fine : world.replaceFault? (world.spot (directory.child scriptName)) = none) :
    installer.backUp (directory.child scriptName) world = (.ok none, world) ∧
      ∃ placed, writeScript (directory.child scriptName) (target.generate commands) world =
        (.ok (), placed) ∧ World.Alike world placed := by
  obtain ⟨mode, standing, bits⟩ := installed.script
  have located : world.locate .target (directory.child scriptName) = _ :=
    (installed.plain.locate_taken_iff (by simp)).mpr ⟨installed.reaches, rfl, standing⟩
  have present : world.exists? (directory.child scriptName) = .ok true :=
    World.leadsTo_eq_true_iff.mpr ⟨_, _, located, rfl⟩
  have owned : world.isOwned (directory.child scriptName) = .ok true := by
    rw [World.isOwned, World.readBytes_of_located located]
    exact congrArg Except.ok (isOwnedBytes_generate target commands)
  have made := Disk.makeDirectories_standing installed.plain installed.standing
  have inside := (installed.plain.parent standing).1
  rw [World.spot_child scriptName_isName, List.dropLast_concat] at inside
  have written : writeScript (directory.child scriptName) (target.generate commands) world = _ :=
    writeScript_standing installed.plain made inside
  rw [fine, standing] at written
  refine ⟨backUp_owned present owned, _, written, rfl, rfl, fun location => ?_⟩
  have proper := World.spot_child_ne_nil scriptName_isName world directory
  rw [World.at?_set proper]
  split
  · rename_i same
    rw [same, standing, World.keptMode, bits]
  · rfl

/-- Other names serve for the temporary files of an installation as well as those that a world has. -/
def Redraws (installer : Installer) (world : World) (draws : List Draw) : Prop :=
  world.Redraws draws (world.spot installer.startupFile) ∧
    ∀ path, installer.scriptPath world = .ok path → world.Redraws draws (world.spot path)

theorem Installed.redraw {directory : Path} {script : Text} {world : World}
    (installed : Installed directory script world) (draws : List Draw) :
    Installed directory script (world.redraw draws) :=
  ⟨installed.plain.redraw draws, installed.standing,
    ⟨installed.reaches.clean, installed.reaches.short, installed.reaches.passable⟩, installed.script⟩

/-- A script that was put in its place is put there again without any change of the files,
and its owner is told the same, except that there is no backup. -/
theorem install_again {installer : Installer} {target : Zsh.Target} {commands : List Command}
    {world after : World} {outcome : InstallOutcome} {draws : List Draw} (plain : world.Plain)
    (home : world.isDirectory installer.home = .ok true)
    (single : ∀ directory, installer.installDir world = .ok directory → directory.OneLine)
    (run : installer.install (target.generate commands) world = (.ok outcome, after))
    (put : outcome.installedPath.isSome) (redraws : installer.Redraws after draws) :
    ∃ again, installer.install (target.generate commands) (after.redraw draws) =
        (.ok { outcome with backupPath := none }, again) ∧
      ∀ location, again.files.get? location = after.files.get? location := by
  obtain ⟨directory, resolved⟩ := installDir_of_install run
  have put : outcome.success = true ∨ outcome.installedPath ≠ none :=
    Or.inr (Option.isSome_iff_ne_none.mp put)
  obtain ⟨backup, middle, placed, result, -, standing, installed, evolves, configured, reported⟩ :=
    install_placed_cases plain resolved run put
  have resolvedPlaced := installDir_evolves plain home resolved evolves ScriptPlace.ne_framework
  have resolvedAfter := install_installDir plain home resolved run put
  have edit := configure_evolves installed.plain configured
  have fine : after.replaceFault? (after.spot (directory.child scriptName)) = none := by
    rw [replaceFault?_evolves edit, standing.evolves.spot]
    exact standing.fine
  have fineAgain := (redraws.2 _ (scriptPath_eq resolvedAfter)).replaceFault?_iff.mpr fine
  have resolvedAgain : installer.installDir (after.redraw draws) = .ok directory := resolvedAfter
  obtain ⟨backed, written, writes, alike⟩ :=
    placing_again installer ((installed.evolves edit).redraw draws) fineAgain
  have resolvedWritten : installer.installDir written = .ok directory := by
    rw [alike.installDir]
    exact resolvedAfter
  obtain ⟨notes, again⟩ := configure_again installed.plain resolvedPlaced resolvedWritten
    (single directory resolved) configured redraws.1 alike
  have whole := install_placed (scriptPath_eq resolvedAgain) backed writes
  rw [again, report_again reported] at whole
  exact ⟨_, whole, alike.same⟩

/-- For a temporary file beside the startup file or the script of the home directory any name serves. -/
theorem homeEdited_redraws (bytes : Bytes) (script : Text) (draw : Draw) :
    (homeInstaller [] true).Redraws (homeEdited bytes script) [draw] := by
  have spare (draw : Draw) (name : Text) :
      (homeEdited bytes script).Spare [draw] ["home".toList, name] := by
    refine ⟨draw, List.mem_singleton_self draw, ?_⟩
    have long := Path.beside_name_length (Location.toPath ["home".toList, name]) draw
    have apart {other : Text} (short : other.length < 14) :
        Location.beside ["home".toList, name] draw ≠ ["home".toList, other] := fun same => by
      rw [List.singleton_inj.mp (List.append_inj_right same rfl)] at long
      omega
    rw [homeEdited, World.at?_set (by simp), if_neg (apart (by decide)), homeAfter, World.at?_set (by simp),
      if_neg (apart (by decide)), World.homeWith, World.at?_set (by simp), if_neg (apart (by decide))]
    rfl
  have redraws (name : Text) : (homeEdited bytes script).Redraws [draw] ["home".toList, name] :=
    iff_of_true (spare draw name) (spare (.ofNat 0) name)
  refine ⟨redraws startupName, fun path resolved => ?_⟩
  rw [scriptPath_eq (homeInstaller_installDir [] true _)] at resolved
  cases resolved
  exact redraws scriptName

/-- The startup file of the home directory, block and all, can be written again. -/
theorem homeEdited_writable (bytes : Bytes) (script content : Text) (draw : Draw) :
    (Disk.writeText ⟨.root, ["home".toList, ".zshrc".toList]⟩ content
      ((homeEdited bytes script).redraw [draw])).1 = .ok () := by
  have plain := (homeEdited_evolves bytes script).plain.redraw [draw]
  have located : ((homeEdited bytes script).redraw [draw]).locate .target
      ⟨.root, ["home".toList, ".zshrc".toList]⟩ = _ := homeEdited_located bytes script
  have fine := World.replaceFault?_set (by simp) (homeAfter_fine bytes script) 0o600
    (Utf8.encode (Block.append markers (blockBody ⟨.root, ["home".toList]⟩) "x\n".toList))
  have again : ((homeEdited bytes script).redraw [draw]).replaceFault? ["home".toList, ".zshrc".toList] = none :=
    (homeEdited_redraws bytes script draw).1.replaceFault?_iff.mpr fine
  rw [Disk.writeText_standing plain located, again]

/-- The script put into a home directory twice; the first time the startup file is given its block. -/
theorem install_again_at_home :
    let installer := homeInstaller [] true
    let script := Zsh.Target.generate ⟨"demo".toList, []⟩ homeCommands
    ∃ outcome after again, installer.install script (World.homeWith (Utf8.encode "x\r\n".toList)) =
        (.ok outcome, after) ∧
      outcome.configured = some true ∧
      installer.install script (after.redraw [.ofNat 1]) = (.ok outcome, again) ∧
      ∀ location, again.files.get? location = after.files.get? location := by
  intro installer script
  have evolves := World.homeWith_evolves (Utf8.encode "x\r\n".toList)
  have line : Text.unifyNewlines "x\r\n".toList = "x\n".toList := by rfl
  have run : installer.install script (World.homeWith (Utf8.encode "x\r\n".toList)) = _ :=
    homeInstaller_appends (Utf8.decode_encode _) line script
  have single : ∀ directory, installer.installDir (World.homeWith (Utf8.encode "x\r\n".toList)) = .ok directory →
      directory.OneLine := by
    intro directory resolved
    obtain rfl := Except.ok.inj ((homeInstaller_installDir [] true _).symm.trans resolved)
    decide
  obtain ⟨again, second, same⟩ := install_again evolves.plain
    (evolves.isDirectory World.bareHome_plain World.bareHome_isDirectory) single run rfl
    (homeEdited_redraws _ script (.ofNat 1))
  exact ⟨_, _, again, run, rfl, second, same⟩

end Installer

end TabCompletion
