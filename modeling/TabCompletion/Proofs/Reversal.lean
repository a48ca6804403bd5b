import TabCompletion.Proofs.Reinstall

namespace TabCompletion

open World (Plain Evolves Reaches)

/-- Nothing is found at the path of a file that was taken away. -/
theorem World.Plain.exists?_erase {world : World} (plain : world.Plain) {directory : Path} {name : Text}
    (proper : IsName name) (reaches : world.Reaches (directory.child name)) {mode : Nat} {bytes : Bytes}
    (standing : world.at? (world.spot (directory.child name)) = some (.file mode bytes)) :
    World.exists? { world with files := world.files.erase (world.spot (directory.child name)) }
      (directory.child name) = .ok false := by
  have erased : Evolves (fun _ => False) (· = world.spot (directory.child name)) world
      { world with files := world.files.erase (world.spot (directory.child name)) } :=
    .of_erase plain (by simp [World.HasDirectory, standing])
  have spot := World.spot_child proper world directory
  have free := world.at?_erase (World.spot_child_ne_nil proper world directory)
    (world.spot (directory.child name))
  rw [if_pos rfl, spot] at free
  have located := (erased.plain.locate_free_iff (by simp : FileSystem.Ending.target ≠ .output)).mpr
    ⟨erased.reaches reaches, List.getLast?_concat, proper, by rw [erased.spot, spot],
      by rw [spot]; exact free⟩
  rw [World.exists?, World.leadsTo, located]

namespace Installer

/-- A removal that reports a success and after which the script's path leads nowhere. -/
def Reverses (installer : Installer) (path : Path) (world : World) : Prop :=
  ∃ outcome after, installer.uninstall world = (.ok outcome, after) ∧ outcome.success = true ∧
    after.exists? path = .ok false

/-- A startup file that a removal can get past: none, or one that can be read and whose
markers, if it has any, stand in pairs. -/
def Removable (startup : Path) (world : World) : Prop :=
  world.isFile startup = .ok false ∨
    world.isFile startup = .ok true ∧ ∃ content updated,
      world.readText startup = .ok content ∧ Block.remove markers content = .ok updated

theorem removalOutcome_success (startup target : Path) (blockRemoved : Bool) (removal : Removal) :
    (removalOutcome startup target blockRemoved removal).success = true ↔
      blockRemoved = true ∨ removal = .removed := by
  cases blockRemoved <;> cases removal <;> simp [removalOutcome, removalNotes]

/-- A removal reverses an installation exactly when it gets past the startup file, has
something to take away, and leaves nothing at the script's path. -/
theorem reverses_iff {installer : Installer} {path : Path} {world : World} :
    Reverses installer path world ↔
      ∃ target blockRemoved middle removal after, installer.scriptPath world = .ok target ∧
        removeBlock installer.startupFile world = (.ok blockRemoved, middle) ∧
        removeScript target middle = (.ok removal, after) ∧
        (blockRemoved = true ∨ removal = .removed) ∧ after.exists? path = .ok false := by
  constructor
  · rintro ⟨outcome, after, run, success, gone⟩
    cases resolved : installer.scriptPath world with
    | error fault =>
      rw [uninstall_unresolved resolved] at run
      cases run
    | ok target =>
      obtain ⟨left, reported⟩ := uninstall_cases resolved
      rw [run] at left reported
      have all : removeAll installer.startupFile target world = (.ok outcome, after) :=
        Prod.ext ((reported outcome success).mp rfl) left.symm
      obtain ⟨blockRemoved, middle, removal, block, script, rfl⟩ := removeAll_eq_ok all
      exact ⟨target, blockRemoved, middle, removal, after, rfl, block, script,
        (removalOutcome_success _ _ _ _).mp success, gone⟩
  · rintro ⟨target, blockRemoved, middle, removal, after, resolved, block, script, took, gone⟩
    have all : removeAll installer.startupFile target world =
        (.ok (removalOutcome installer.startupFile target blockRemoved removal), after) := by
      rw [removeAll, Disk.run_bind_ok block, Disk.run_bind_ok script]
      rfl
    have success := (removalOutcome_success installer.startupFile target blockRemoved removal).mpr took
    obtain ⟨left, reported⟩ := uninstall_cases resolved
    rw [all] at left reported
    exact ⟨_, after, Prod.ext ((reported _ success).mpr rfl) left, success, gone⟩

theorem removeBlock_ok {startup : Path} {world middle : World} {blockRemoved : Bool}
    (run : removeBlock startup world = (.ok blockRemoved, middle)) : Removable startup world := by
  unfold removeBlock at run
  obtain ⟨regular, seen, run⟩ := Disk.look_bind_eq_ok run
  cases regular with
  | false => exact Or.inl seen
  | true =>
    simp only [if_true] at run
    obtain ⟨content, read, run⟩ := Disk.look_bind_eq_ok run
    cases removed : Block.remove markers content with
    | error marker =>
      rw [removed] at run
      cases run
    | ok updated => exact Or.inr ⟨seen, content, updated, read, removed⟩

theorem removeBlock_removable {startup : Path} {world : World} (removable : Removable startup world)
    (writable : ∀ text, world.isFile startup = .ok true →
      (Disk.writeText startup text world).1 = .ok ()) :
    ∃ blockRemoved middle, removeBlock startup world = (.ok blockRemoved, middle) := by
  unfold removeBlock
  rcases removable with absent | ⟨regular, content, updated, read, removed⟩
  · rw [Disk.run_look_bind absent]
    exact ⟨false, world, rfl⟩
  · rw [Disk.run_look_bind regular]
    simp only [if_true]
    rw [Disk.run_look_bind read, Disk.run_bind, removed]
    simp only [Disk.ofBlock, Disk.run_pure]
    by_cases same : updated = content
    · rw [if_pos same]
      exact ⟨false, world, rfl⟩
    · rw [if_neg same]
      have written := writable updated regular
      cases run : Disk.writeText startup updated world with
      | mk result middle =>
        rw [run] at written
        dsimp only at written
        subst written
        rw [Disk.run_bind_ok run]
        exact ⟨true, middle, rfl⟩

/-- Nothing stands at the script's path once its file is gone. -/
theorem Installed.gone {directory : Path} {script : Text} {world : World}
    (installed : Installed directory script world) :
    World.exists? { world with files := world.files.erase (world.spot (directory.child scriptName)) }
      (directory.child scriptName) = .ok false := by
  obtain ⟨mode, standing, -⟩ := installed.script
  exact installed.plain.exists?_erase scriptName_isName installed.reaches standing

theorem scriptPath_iff {installer : Installer} {world : World} {directory : Path} :
    installer.scriptPath world = .ok (directory.child scriptName) ↔
      installer.installDir world = .ok directory := by
  refine ⟨fun resolved => ?_, scriptPath_eq⟩
  cases located : installer.installDir world with
  | error fault =>
    rw [scriptPath_error located] at resolved
    cases resolved
  | ok other =>
    rw [scriptPath_eq located] at resolved
    have same := Except.ok.inj resolved
    obtain ⟨anchor, parts⟩ := other
    obtain ⟨anchor', parts'⟩ := directory
    simp only [Path.child, Path.mk.injEq, List.append_cancel_right_eq] at same
    rw [same.1, same.2]

/-- Where the script stands and there are no links, its removal depends on nothing but the
startup file and on the script being looked for where it stands. -/
theorem Installed.reverses_iff {installer : Installer} {directory : Path} {target : Zsh.Target}
    {commands : List Command} {before world : World}
    (resolved : installer.installDir before = .ok directory)
    (installed : Installed directory (target.generate commands) world)
    (writable : ∀ text, world.isFile installer.startupFile = .ok true →
      (Disk.writeText installer.startupFile text world).1 = .ok ()) :
    Reverses installer (directory.child scriptName) world ↔
      installer.installDir world = .ok directory ∧ Removable installer.startupFile world := by
  rw [Installer.reverses_iff]
  constructor
  · rintro ⟨path, blockRemoved, middle, removal, after, located, block, script, took, gone⟩
    refine ⟨?_, removeBlock_ok block⟩
    cases there : installer.installDir world with
    | error fault =>
      rw [scriptPath_error there] at located
      cases located
    | ok other =>
      rw [scriptPath_eq there] at located
      cases located
      have edit := removeBlock_evolves installed.plain block
      have kept := installed.evolves edit
      have removed := removeScript_evolves kept.plain script
      by_cases same : middle.spot (directory.child scriptName) = middle.spot (other.child scriptName)
      · rw [World.spot_child scriptName_isName, World.spot_child scriptName_isName] at same
        exact congrArg Except.ok (installDir_spot resolved there (List.append_cancel_right same))
      · obtain ⟨mode, standing, -⟩ := kept.script
        have present : after.exists? (directory.child scriptName) = .ok true :=
          removed.plain.leadsTo_iff.mpr ⟨removed.reaches kept.reaches, _,
            by rw [removed.spot]; exact removed.untouched standing same, rfl⟩
        rw [gone] at present
        cases present
  · rintro ⟨there, removable⟩
    obtain ⟨blockRemoved, middle, block⟩ := removeBlock_removable removable writable
    have kept := installed.evolves (removeBlock_evolves installed.plain block)
    exact ⟨_, blockRemoved, middle, .removed, _, scriptPath_eq there, block,
      removeScript_installed kept, Or.inr rfl, kept.gone⟩

/-- What the removal after an installation comes to, whatever names it draws: in any state of the
files the parts of it tell, and where there are no links the startup file alone, as long as the
script's directory is still the same, which it is below a home directory that exists. -/
theorem uninstall_reverses_iff {installer : Installer} {target : Zsh.Target}
    {commands : List Command} {world after : World} {outcome : InstallOutcome} {path : Path}
    (resolved : installer.scriptPath world = .ok path)
    (run : installer.install (target.generate commands) world = (.ok outcome, after))
    (success : outcome.success = true) (draws : List Draw) :
    (Reverses installer path (after.redraw draws) ↔
      ∃ target blockRemoved middle removal last, installer.scriptPath after = .ok target ∧
        removeBlock installer.startupFile (after.redraw draws) = (.ok blockRemoved, middle) ∧
        removeScript target middle = (.ok removal, last) ∧
        (blockRemoved = true ∨ removal = .removed) ∧ last.exists? path = .ok false) ∧
    (world.Plain →
      (∀ text, after.isFile installer.startupFile = .ok true →
        (Disk.writeText installer.startupFile text (after.redraw draws)).1 = .ok ()) →
      (Reverses installer path (after.redraw draws) ↔
        installer.scriptPath after = .ok path ∧ Removable installer.startupFile after)) ∧
    (world.Plain → world.isDirectory installer.home = .ok true →
      installer.scriptPath after = .ok path) := by
  cases located : installer.installDir world with
  | error fault =>
    rw [scriptPath_error located] at resolved
    cases resolved
  | ok directory =>
    rw [scriptPath_eq located] at resolved
    cases resolved
    refine ⟨reverses_iff, fun plain writable => ?_, fun plain home => ?_⟩
    · have installed := (install_installed plain located run (Or.inl success)).redraw draws
      have same : installer.installDir (after.redraw draws) = .ok directory ↔
          installer.installDir after = .ok directory := Iff.rfl
      rw [installed.reverses_iff located writable, same, scriptPath_iff]
      exact Iff.rfl
    · exact scriptPath_eq (install_installDir plain home located run (Or.inl success))

/-- An installation that gave the startup file a block is reversed. -/
theorem uninstall_reverses_at_home :
    let installer := homeInstaller [] true
    let script := Zsh.Target.generate ⟨"demo".toList, []⟩ homeCommands
    ∃ outcome after, installer.install script (World.homeWith (Utf8.encode "x\n".toList)) = (.ok outcome, after) ∧
      outcome.configured = some true ∧
      Reverses installer (Path.child ⟨.root, ["home".toList]⟩ scriptName) (after.redraw [.ofNat 1]) := by
  intro installer script
  have evolves := World.homeWith_evolves (Utf8.encode "x\n".toList)
  have line : Text.unifyNewlines "x\n".toList = "x\n".toList := by rfl
  have run : installer.install script (World.homeWith (Utf8.encode "x\n".toList)) = _ :=
    homeInstaller_appends (Utf8.decode_encode _) line script
  refine ⟨_, _, run, rfl, ?_⟩
  obtain ⟨-, iff, same⟩ := uninstall_reverses_iff
    (scriptPath_eq (homeInstaller_installDir [] true _)) run rfl [.ofNat 1]
  have home := evolves.isDirectory World.bareHome_plain World.bareHome_isDirectory
  have located := homeEdited_located (Utf8.encode "x\n".toList) script
  have read := World.readText_of_located located
  rw [Utf8.decode_encode] at read
  have single : Path.OneLine ⟨.root, ["home".toList]⟩ := by decide
  have without : Block.find markers "x\n".toList = .ok none := by rfl
  have removed : Block.remove markers (Block.append markers (blockBody ⟨.root, ["home".toList]⟩) "x\n".toList) =
      .ok "x\n".toList :=
    Block.remove_append markers_proper (Block.findLine?_of_find_none without).1 (blockBody_free single)
  rw [← Text.unifyNewlines_of_not_mem (carriage_not_mem_append single (by decide : '\r' ∉ "x\n".toList))] at removed
  exact (iff evolves.plain fun text _ => homeEdited_writable _ script text (.ofNat 1)).mpr
    ⟨same evolves.plain home, Or.inr ⟨World.isFile_of_located located, _, _, read, removed⟩⟩

/-- A startup file that is not UTF-8 keeps the script from being removed, although the
installation has left that file alone. -/
theorem uninstall_stuck_at_home :
    let script := Zsh.Target.generate ⟨"demo".toList, []⟩ []
    ∃ outcome, (homeInstaller [] false).install script (World.homeWith [0xff]) =
        (.ok outcome, homeAfter [0xff] script) ∧ outcome.success = true ∧
      ¬ Reverses (homeInstaller [] false) (Path.child ⟨.root, ["home".toList]⟩ scriptName)
        (homeAfter [0xff] script) := by
  intro script
  obtain ⟨outcome, run, success, -⟩ := homeInstaller_install [] [0xff] script
  refine ⟨outcome, run, success, fun reverses => ?_⟩
  obtain ⟨_, _, _, _, _, -, block, -⟩ := reverses_iff.mp reverses
  have located : (homeAfter [0xff] script).locate .target
      (homeInstaller [] false).startupFile = _ := homeAfter_located [0xff] script
  rcases removeBlock_ok block with absent | ⟨-, content, _, read, -⟩
  · rw [World.isFile_of_located located] at absent
    cases absent
  · rw [World.readText_of_located located] at read
    cases read

end Installer

end TabCompletion
