import TabCompletion.Proofs.Installed
import TabCompletion.Proofs.Reversal

namespace TabCompletion

open World (Plain Evolves Reaches)

namespace World

/-- What stands at a location stands there again: a file with its bytes and permission bits,
or whatever it was. Where nothing stood a directory may have been made. -/
def RestoredAt (before after : World) (location : Location) : Prop :=
  match before.at? location with
  | some (.file mode bytes) =>
    ∃ mode', after.at? location = some (.file mode' bytes) ∧ mode' % 0o1000 = mode % 0o1000
  | some node => after.at? location = some node
  | none => after.at? location = none ∨ after.at? location = some .directory

theorem RestoredAt.of_eq {before after : World} {location : Location}
    (same : after.at? location = before.at? location) : RestoredAt before after location := by
  unfold RestoredAt
  cases standing : before.at? location with
  | none => exact Or.inl (same.trans standing)
  | some node =>
    rw [standing] at same
    cases node with
    | file mode bytes => exact ⟨mode, same, rfl⟩
    | _ => exact same

theorem RestoredAt.congr {before after later : World} {location : Location}
    (restored : RestoredAt before after location)
    (same : later.at? location = after.at? location) : RestoredAt before later location := by
  unfold RestoredAt at restored ⊢
  rw [same]
  exact restored

/-- A path without two dots leads where it spells as soon as something stands there. -/
theorem Plain.reaches_before {made touched : Location → Prop} {before after : World}
    {directory : Path} {name : Text} (plain : before.Plain)
    (evolves : Evolves made touched before after) (proper : IsName name)
    (direct : ['.', '.'] ∉ directory.parts) (reaches : after.Reaches (directory.child name))
    (standing : before.at? (before.spot (directory.child name)) ≠ none) :
    before.Reaches (directory.child name) := by
  have passable := reaches.passable
  rw [evolves.cwd] at passable
  obtain ⟨upper, -, short⟩ := FileSystem.Passable.concat_iff.mp passable
  rw [spot_child proper] at standing
  have parent := plain.rooted _ _ standing
  have through := (plain.rooted.passable direct upper.short parent).2
  exact ⟨reaches.clean, reaches.short, FileSystem.Passable.concat_iff.mpr ⟨through, parent, short⟩⟩

end World

namespace Installer

/-- A startup file that is a regular file has text with plain line feeds only, of which no
line is a marker. -/
def Unmarked (startup : Path) (world : World) : Prop :=
  ∀ location mode bytes, world.locate .target startup = .ok (.taken location (.file mode bytes)) →
    ∃ text, Utf8.decode bytes = .ok text ∧ '\r' ∉ text ∧
      markers.start ∉ text.newlinePieces ∧ markers.finish ∉ text.newlinePieces

/-- A startup file that can be looked up and, if it is a regular file, be read. -/
def Readable (startup : Path) (world : World) : Prop :=
  ∃ regular, world.isFile startup = .ok regular ∧ (regular = true → ∃ bytes, world.readBytes startup = .ok bytes)

/-- The script has its place alone: all else is as it was, but for new directories. -/
theorem Placed.restored {directory : Path} {script : Text} {before after : World}
    (placed : Placed directory script before after) {location : Location}
    (other : location ≠ before.spot (directory.child scriptName)) :
    World.RestoredAt before after location := by
  rcases placed.evolves.kept location with same | ⟨-, empty, now⟩ | ⟨here, -⟩
  · exact .of_eq same
  · unfold World.RestoredAt
    rw [empty]
    exact Or.inr now
  · exact absurd here other

/-- The startup file that stands once the script has its place stood there before. -/
theorem Placed.startup_before {installer : Installer} {directory : Path} {script : Text}
    {before after : World} {location : Location} {mode : Nat} {bytes : Bytes}
    (placed : Placed directory script before after) (plain : before.Plain)
    (direct : ['.', '.'] ∉ installer.startupFile.parts)
    (located : after.locate .target installer.startupFile = .ok (.taken location (.file mode bytes))) :
    before.locate .target installer.startupFile = .ok (.taken location (.file mode bytes)) := by
  obtain ⟨reaches, rfl, standing⟩ := (placed.evolves.plain.locate_taken_iff (by simp)).mp located
  obtain ⟨above, startup⟩ := startupFile_eq installer
  rw [startup] at direct reaches standing ⊢
  have apart : before.spot (above.child startupName) ≠ before.spot (directory.child scriptName) :=
    World.spot_child_ne startupName_isName scriptName_isName (by decide) before above directory
  rw [placed.evolves.spot] at standing ⊢
  have stood : before.at? (before.spot (above.child startupName)) = some (.file mode bytes) := by
    rcases placed.evolves.kept (before.spot (above.child startupName)) with same | ⟨-, -, now⟩ | ⟨here, -⟩
    · rw [← same, standing]
    · rw [standing] at now
      cases now
    · exact absurd here apart
  have parts : ['.', '.'] ∉ above.parts := fun member => direct (List.mem_append_left _ member)
  exact (plain.locate_taken_iff (by simp)).mpr
    ⟨plain.reaches_before placed.evolves startupName_isName parts reaches (by simp [stood]), rfl, stood⟩

theorem Placed.unmarked {installer : Installer} {directory : Path} {script : Text}
    {before after : World} (placed : Placed directory script before after) (plain : before.Plain)
    (direct : ['.', '.'] ∉ installer.startupFile.parts)
    (unmarked : Unmarked installer.startupFile before) : Unmarked installer.startupFile after :=
  fun _ _ _ located => unmarked _ _ _ (placed.startup_before plain direct located)

/-- From a startup file without marker lines no block is taken out. -/
theorem Unmarked.removeBlock {startup : Path} {world : World}
    (unmarked : Unmarked startup world) (plain : world.Plain) (readable : Readable startup world) :
    removeBlock startup world = (.ok false, world) := by
  obtain ⟨regular, seen, read⟩ := readable
  cases regular with
  | false =>
    rw [Installer.removeBlock, Disk.run_look_bind seen]
    rfl
  | true =>
    obtain ⟨bytes, read⟩ := read rfl
    obtain ⟨location, mode, located⟩ := World.readBytes_ok read
    obtain ⟨text, decoded, unified, lines⟩ := unmarked location mode bytes located
    have run := removeBlock_eq plain located decoded
    rw [Text.unifyNewlines_of_not_mem unified,
      Block.remove_of_find_none (find_of_unmarked unified lines)] at run
    simpa only [if_true] using run

/-- A startup file that cannot be looked up or read ends the removal of a block. -/
theorem removeBlock_unreadable {startup : Path} {world : World} (unreadable : ¬ Readable startup world) :
    ∃ fault, removeBlock startup world = (.error fault, world) := by
  unfold removeBlock
  cases seen : world.isFile startup with
  | error fault => exact ⟨fault, Disk.run_look_bind_error seen _⟩
  | ok regular =>
    cases regular with
    | false => exact absurd ⟨false, seen, by simp⟩ unreadable
    | true =>
      cases read : world.readBytes startup with
      | ok bytes => exact absurd ⟨true, seen, fun _ => ⟨bytes, read⟩⟩ unreadable
      | error fault =>
        have unread : world.readText startup = .error fault := by
          rw [World.readText, read]
          rfl
        rw [Disk.run_look_bind seen]
        exact ⟨fault, Disk.run_look_bind_error unread _⟩

/-- Out of a startup file that was given a block for the first time the block is taken again. -/
theorem removeBlock_appended {startup directory : Path} {world : World} {location : Location}
    {mode : Nat} {bytes : Bytes} {text : Text} {draws : List Draw} (plain : world.Plain) (single : directory.OneLine)
    (located : world.locate .target startup = .ok (.taken location (.file mode bytes)))
    (unified : '\r' ∉ text) (without : Block.find markers text = .ok none)
    (fine : world.replaceFault? location = none) :
    let edited := world.set location
      (.file (mode % 0o1000) (Utf8.encode (Block.append markers (blockBody directory) text)))
    edited.Redraws draws location →
      removeBlock startup (edited.redraw draws) =
        (.ok true, (edited.redraw draws).set location (.file (mode % 0o1000 % 0o1000) (Utf8.encode text))) := by
  intro edited redraws
  obtain ⟨-, -, standing⟩ := (plain.locate_taken_iff (by simp)).mp located
  have edit := Evolves.of_standing plain standing (mode % 0o1000)
    (Utf8.encode (Block.append markers (blockBody directory) text))
  have there := plain.located_set located (mode % 0o1000)
    (Utf8.encode (Block.append markers (blockBody directory) text))
  have proper : location ≠ [] := world.ne_nil_of_kept (by simp [World.HasDirectory, standing])
  have fineAgain := redraws.replaceFault?_iff.mpr (World.replaceFault?_set proper fine _ _)
  have again : (edited.redraw draws).locate .target startup = _ := there
  have run := removeBlock_eq (edit.plain.redraw draws) again (Utf8.decode_encode _)
  rw [Text.unifyNewlines_of_not_mem (carriage_not_mem_append single unified),
    Block.remove_append markers_proper (Block.findLine?_of_find_none without).1
      (blockBody_free single)] at run
  dsimp only at run
  rw [if_neg (append_ne markers (blockBody directory) text), fineAgain] at run
  exact run

/-- Whether the startup file was given its block or not, the removal of the block leaves it
with the bytes that it had. -/
theorem removeBlock_restores {installer : Installer} {directory : Path} {script : Text}
    {world placed after : World} {result : Except Fault (Option (List Text))} {draws : List Draw}
    (placing : Placed directory script world placed) (plain : world.Plain)
    (direct : ['.', '.'] ∉ installer.startupFile.parts)
    (unmarked : Unmarked installer.startupFile world)
    (resolved : installer.installDir placed = .ok directory) (single : directory.OneLine)
    (configured : installer.configure placed = (result, after))
    (redraws : after.Redraws draws (after.spot installer.startupFile))
    (readable : Readable installer.startupFile after) :
    ∃ blockRemoved middle, removeBlock installer.startupFile (after.redraw draws) = (.ok blockRemoved, middle) ∧
      ∀ location, location ≠ world.spot (directory.child scriptName) →
        World.RestoredAt world middle location := by
  have plainPlaced := placing.evolves.plain
  rcases configure_cases plainPlaced configured with ⟨notes, rfl⟩ |
    ⟨-, other, location, mode, text, updated, again, ⟨bytes, located, decoded⟩, edited, -, fine, rfl⟩
  · have quiet : Evolves (fun _ => False) (fun _ => False) placed { placed with notes := notes } :=
      .note plainPlaced notes
    have still : Unmarked installer.startupFile { placed with notes := notes } :=
      placing.unmarked plain direct unmarked
    have again : Unmarked installer.startupFile (World.redraw { placed with notes := notes } draws) := still
    exact ⟨false, _, again.removeBlock (quiet.plain.redraw draws) readable,
      fun location other => placing.restored other⟩
  · obtain rfl := Except.ok.inj (resolved.symm.trans again)
    have before := placing.startup_before plain direct located
    obtain ⟨text', decoded', unified, lines⟩ := unmarked location mode bytes before
    obtain rfl := Except.ok.inj (decoded.symm.trans decoded')
    have without := find_of_unmarked unified lines
    rw [Text.unifyNewlines_of_not_mem unified] at edited
    obtain rfl := Carries.configured (Or.inl rfl) without edited
    obtain ⟨-, spot, standing⟩ := (plainPlaced.locate_taken_iff (by simp)).mp located
    have proper : location ≠ [] := placed.ne_nil_of_kept (by simp [World.HasDirectory, standing])
    rw [(World.Evolves.of_standing plainPlaced standing _ _).spot, ← spot] at redraws
    refine ⟨true, _, removeBlock_appended plainPlaced single located unified without fine redraws,
      fun place apart => ?_⟩
    by_cases here : place = location
    · subst here
      obtain ⟨-, -, stood⟩ := (plain.locate_taken_iff (by simp)).mp before
      unfold World.RestoredAt
      rw [stood]
      exact ⟨_, by rw [World.at?_set_self _ proper, Utf8.decode_eq_ok_iff.mp decoded],
        by rw [Nat.mod_mod, Nat.mod_mod]⟩
    · refine (placing.restored apart).congr ?_
      rw [World.at?_set proper, if_neg here, World.at?_redraw, World.at?_set proper, if_neg here]

/-- Everything is as it was before, but for directories made on the way. -/
def Restored (before after : World) : Prop :=
  ∀ location, World.RestoredAt before after location

/-- Nothing stands where an absent script is going to be. -/
theorem Installed.absent {directory : Path} {script : Text} {world placed : World}
    {made touched : Location → Prop} (installed : Installed directory script placed)
    (plain : world.Plain) (evolves : Evolves made touched world placed)
    (direct : ['.', '.'] ∉ directory.parts)
    (absent : world.exists? (directory.child scriptName) = .ok false) :
    world.at? (world.spot (directory.child scriptName)) = none := by
  cases standing : world.at? (world.spot (directory.child scriptName)) with
  | none => rfl
  | some node =>
    have reaches := plain.reaches_before evolves scriptName_isName direct installed.reaches
      (by simp [standing])
    have present : world.exists? (directory.child scriptName) = .ok true :=
      plain.leadsTo_iff.mpr ⟨reaches, node, standing, rfl⟩
    rw [absent] at present
    cases present

/-- Where the startup file cannot be looked up or read a removal changes nothing. -/
theorem uninstall_unreadable {installer : Installer} {directory : Path} {world : World}
    (resolved : installer.installDir world = .ok directory)
    (unreadable : ¬ Readable installer.startupFile world) : (installer.uninstall world).2 = world := by
  obtain ⟨fault, refused⟩ := removeBlock_unreadable unreadable
  rw [(uninstall_cases (scriptPath_eq resolved)).1, removeAll, Disk.run_bind_error refused]

/-- A script where there was none is something that was not there before. -/
theorem Installed.not_restored {directory : Path} {script : Text} {before after : World}
    (installed : Installed directory script after)
    (spot : after.spot (directory.child scriptName) = before.spot (directory.child scriptName))
    (absent : before.at? (before.spot (directory.child scriptName)) = none) :
    ¬ Restored before after := by
  intro restored
  obtain ⟨mode, standing, -⟩ := installed.script
  have same := restored (before.spot (directory.child scriptName))
  rw [spot] at standing
  rw [World.RestoredAt, absent] at same
  simp only [standing] at same
  rcases same with never | never <;> cases never

/-- A removal right after an installation undoes it exactly when the startup file can be
looked up and read. -/
theorem uninstall_restores_iff {installer : Installer} {target : Zsh.Target}
    {commands : List Command} {world after : World} {outcome : InstallOutcome} {draws : List Draw}
    (plain : world.Plain) (home : world.isDirectory installer.home = .ok true)
    (direct : ['.', '.'] ∉ installer.startupFile.parts)
    (directories : ∀ directory, installer.installDir world = .ok directory →
      directory.OneLine ∧ ['.', '.'] ∉ directory.parts)
    (absent : ∀ path, installer.scriptPath world = .ok path → world.exists? path = .ok false)
    (unmarked : Unmarked installer.startupFile world)
    (run : installer.install (target.generate commands) world = (.ok outcome, after))
    (success : outcome.success = true)
    (redraws : after.Redraws draws (after.spot installer.startupFile)) :
    Restored world (installer.uninstall (after.redraw draws)).2 ↔ Readable installer.startupFile after := by
  obtain ⟨directory, resolved⟩ := installDir_of_install run
  obtain ⟨single, directParts⟩ := directories directory resolved
  obtain ⟨backup, middle, placed, result, backed, placing, installed, evolves, configured, -⟩ :=
    install_placed_cases plain resolved run (Or.inl success)
  have free := absent _ (scriptPath_eq resolved)
  rw [backUp_absent free] at backed
  cases backed
  have nothing := installed.absent plain evolves directParts free
  have resolvedPlaced := installDir_evolves plain home resolved evolves ScriptPlace.ne_framework
  have resolvedAfter := install_installDir plain home resolved run (Or.inl success)
  have resolvedAgain : installer.installDir (after.redraw draws) = .ok directory := resolvedAfter
  have edit := configure_evolves installed.plain configured
  have there := (installed.evolves edit).redraw draws
  have spot := evolves.spot (directory.child scriptName)
  -- A startup file that cannot be read ends the removal before it comes to the script.
  constructor
  · intro restored
    by_contra unreadable
    rw [uninstall_unreadable resolvedAgain unreadable] at restored
    exact there.not_restored ((edit.spot _).trans spot) nothing restored
  · intro readable
    obtain ⟨blockRemoved, mid, block, restored⟩ :=
      removeBlock_restores placing plain direct unmarked resolvedPlaced single configured redraws readable
    have taken := removeBlock_evolves there.plain block
    have gone := removeScript_installed (there.evolves taken)
    rw [taken.spot, World.spot_redraw, edit.spot, spot] at gone
    have proper := World.spot_child_ne_nil scriptName_isName world directory
    rw [(uninstall_cases (scriptPath_eq resolvedAgain)).1, removeAll, Disk.run_bind_ok block,
      Disk.run_bind_ok gone]
    intro location
    have erased := mid.at?_erase proper location
    by_cases here : location = world.spot (directory.child scriptName)
    · subst here
      rw [if_pos rfl] at erased
      unfold World.RestoredAt
      rw [nothing]
      exact Or.inl erased
    · rw [if_neg here] at erased
      exact (restored location here).congr erased

/-- The home directory is one line without two dots, and no script stands in it yet. -/
theorem homeInstaller_fits (environment : Environment) (automatic : Bool) (bytes : Bytes) :
    (∀ directory, (homeInstaller environment automatic).installDir (World.homeWith bytes) =
        .ok directory → directory.OneLine ∧ ['.', '.'] ∉ directory.parts) ∧
      ∀ path, (homeInstaller environment automatic).scriptPath (World.homeWith bytes) = .ok path →
        (World.homeWith bytes).exists? path = .ok false := by
  have resolved := homeInstaller_installDir environment automatic (World.homeWith bytes)
  constructor
  · intro directory same
    obtain rfl := Except.ok.inj (resolved.symm.trans same)
    change Path.OneLine ⟨.root, ["home".toList]⟩ ∧ ['.', '.'] ∉ ["home".toList]
    decide
  · intro path same
    obtain rfl := Except.ok.inj ((scriptPath_eq resolved).symm.trans same)
    exact (homeWith_absent bytes).2

/-- A script put into a home directory with a block in the startup file, and both removed again. -/
theorem uninstall_restores_at_home :
    let installer := homeInstaller [] true
    let script := Zsh.Target.generate ⟨"demo".toList, []⟩ homeCommands
    let start := World.homeWith (Utf8.encode "x\n".toList)
    ∃ outcome after, installer.install script start = (.ok outcome, after) ∧ outcome.configured = some true ∧
      Restored start (installer.uninstall (after.redraw [.ofNat 1])).2 := by
  intro installer script start
  have evolves := World.homeWith_evolves (Utf8.encode "x\n".toList)
  have unmarked : Unmarked installer.startupFile start := by
    intro location mode bytes located
    have there : start.locate .target installer.startupFile = _ := World.homeWith_located _
    rw [there] at located
    cases located
    exact ⟨"x\n".toList, Utf8.decode_encode _, by decide⟩
  obtain ⟨directories, absent⟩ := homeInstaller_fits [] true (Utf8.encode "x\n".toList)
  have line : Text.unifyNewlines "x\n".toList = "x\n".toList := by rfl
  have run : installer.install script start = _ := homeInstaller_appends (Utf8.decode_encode _) line script
  have located := homeEdited_located (Utf8.encode "x\n".toList) script
  have readable : Readable installer.startupFile (homeEdited (Utf8.encode "x\n".toList) script) :=
    ⟨true, World.isFile_of_located located, fun _ => ⟨_, World.readBytes_of_located located⟩⟩
  exact ⟨_, _, run, rfl, (uninstall_restores_iff evolves.plain
    (evolves.isDirectory World.bareHome_plain World.bareHome_isDirectory) (by decide) directories
    absent unmarked run rfl (homeEdited_redraws _ script (.ofNat 1)).1).mpr readable⟩

/-- An environment in which the startup file stands below a name that is too long. -/
def overlong : Environment :=
  [("ZDOTDIR".toList, '/' :: List.replicate 300 'a')]

/-- Nothing is looked up below a name that is too long. -/
theorem longName_refused {world : World} (plain : world.Plain) {name : Text}
    (clean : Path.hasNul ⟨.root, [List.replicate 300 'a', name]⟩ = false)
    (short : ¬ FileSystem.maxPathBytes <
      (Path.text ⟨.root, [List.replicate 300 'a', name]⟩).byteCount) :
    world.locate .target ⟨.root, [List.replicate 300 'a', name]⟩ =
      .error (.refused .nameTooLong ⟨.root, [List.replicate 300 'a', name]⟩) := by
  have proper : IsName (List.replicate 300 'a') := by decide +kernel
  have long : FileSystem.maxNameBytes < Text.byteCount (List.replicate 300 'a') := by
    decide +kernel
  have located : world.files.locate world.cwd .target
      ⟨.root, [List.replicate 300 'a', name]⟩ = .error .nameTooLong := by
    rw [FileSystem.locate, if_neg short]
    change world.files.walk .target FileSystem.maxLinks [] _ = _
    rw [FileSystem.walk_cons plain.linkFree]
    simp only [FileSystem.get?_nil, if_true, if_pos proper, if_pos long, reduceCtorEq,
      decide_false, Bool.false_and, Bool.false_eq_true, if_false]
  rw [World.locate, clean, located]
  rfl

theorem overlong_refused {world : World} (plain : world.Plain) :
    world.locate .target (homeInstaller overlong false).startupFile =
      .error (.refused .nameTooLong (homeInstaller overlong false).startupFile) := by
  have startup : (homeInstaller overlong false).startupFile =
      ⟨.root, [List.replicate 300 'a', startupName]⟩ := by decide +kernel
  rw [startup]
  exact longName_refused plain (by decide +kernel) (by decide +kernel)

theorem overlong_unreadable {world : World} (plain : world.Plain) :
    ¬ Readable (homeInstaller overlong false).startupFile world := by
  intro readable
  obtain ⟨regular, seen, -⟩ := readable
  rw [World.isFile, World.leadsTo, overlong_refused plain] at seen
  cases seen

/-- Where the startup file cannot be looked up the script is installed all the same, and then
not removed again. -/
theorem uninstall_leaves_script :
    let script := Zsh.Target.generate ⟨"demo".toList, []⟩ []
    let installer := homeInstaller overlong false
    let start := World.homeWith []
    start.Plain ∧ start.isDirectory installer.home = .ok true ∧
      ['.', '.'] ∉ installer.startupFile.parts ∧
      (∀ directory, installer.installDir start = .ok directory →
        directory.OneLine ∧ ['.', '.'] ∉ directory.parts) ∧
      (∀ path, installer.scriptPath start = .ok path → start.exists? path = .ok false) ∧
      Unmarked installer.startupFile start ∧
      ∃ outcome after, installer.install script start = (.ok outcome, after) ∧
        outcome.success = true ∧ ∀ draws, ¬ Restored start (installer.uninstall (after.redraw draws)).2 := by
  intro script installer start
  have evolves := World.homeWith_evolves []
  have evolvesAfter := homeAfter_evolves [] script
  have unmarked : Unmarked installer.startupFile start := by
    intro location mode bytes located
    rw [overlong_refused evolves.plain] at located
    cases located
  obtain ⟨directories, absent⟩ := homeInstaller_fits overlong false []
  obtain ⟨outcome, run, success, -⟩ := homeInstaller_install overlong [] script
  have resolved := homeInstaller_installDir overlong false start
  refine ⟨evolves.plain, evolves.isDirectory World.bareHome_plain World.bareHome_isDirectory,
    by decide +kernel, directories, absent, unmarked, outcome, _, run, success, fun draws => ?_⟩
  rw [uninstall_unreadable (homeInstaller_installDir overlong false _)
    (overlong_unreadable (evolvesAfter.plain.redraw draws))]
  exact (install_installed evolves.plain resolved run (Or.inl success)).not_restored
    (evolvesAfter.spot _) (homeWith_absent []).1

end Installer

end TabCompletion
