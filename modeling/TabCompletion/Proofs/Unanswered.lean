import TabCompletion.Proofs.Told

namespace TabCompletion

open World (Plain Evolves Reaches)
open Disk (FailsAt)

namespace Installer

variable {installer : Installer} {world : World} {directory : Path}

section Plain

variable {script : Text} {middle after : World}

/-- A script that could not be written is told of unless its directory's path cannot be one or
is too deep. -/
theorem writeScript_refused_isSystem {fault : Fault} (plain : world.Plain) (clean : world.Clean)
    (run : writeScript (directory.child scriptName) script world = (.error fault, after)) :
    fault.isSystem = true ↔ directory.hasNul = false ∧ ¬ Disk.TooDeep world directory := by
  cases made : Disk.makeDirectories directory world with
  | mk answer middle =>
    have first := congrArg Prod.fst made
    cases answer with
    | error other =>
      rw [writeScript, parent_child, Disk.run_bind_error made] at run
      cases run
      refine ⟨fun system => ⟨?_, fun deep => ?_⟩, fun fits => ?_⟩
      · cases nul : directory.hasNul with
        | false => rfl
        | true =>
          rw [Disk.makeDirectories_nul nul] at made
          cases made
          cases system
      · rw [← Disk.makeDirectories_nested_iff, first] at deep
        cases deep
        cases system
      · rcases Disk.makeDirectories_failsAt directory world _ _ made with ofPath | rfl
        · exact ofPath.isSystem fits.1
        · exact absurd (Disk.makeDirectories_nested_iff.mp first) fits.2
    | ok done =>
      have fits := Disk.makeDirectories_fits first
      obtain ⟨evolves, standing⟩ := Disk.makeDirectories_evolves plain made
      obtain ⟨-, there⟩ := evolves.plain.isDirectory_iff.mp (standing rfl)
      have unmarked := hasNul_child fits.1 (by decide : '\x00' ∉ scriptName)
      have cleanSpot : NulFree (middle.spot (directory.child scriptName)) :=
        evolves.spot (directory.child scriptName) ▸ clean.cwd.spot unmarked
      have above : middle.HasDirectory (middle.spot (directory.child scriptName)).dropLast := by
        rwa [World.spot_child scriptName_isName, List.dropLast_concat]
      rw [writeScript, parent_child, Disk.run_bind_ok made] at run
      exact iff_of_true
        (Disk.writeText_spot_isSystem evolves.plain unmarked cleanSpot above script _ _ run) fits

/-- Where a file stands in a directory, that one is not too deep to be made. -/
theorem fits_of_exists {made touched : Location → Prop} {name : Text} (plain : world.Plain)
    (present : world.exists? (directory.child name) = .ok true)
    (evolves : Evolves made touched world middle) :
    directory.hasNul = false ∧ ¬ Disk.TooDeep middle directory := by
  obtain ⟨reaches, -⟩ := plain.leadsTo_iff.mp present
  have clean := Path.hasNul_of_child reaches.clean
  obtain ⟨passable, there, -⟩ := FileSystem.Passable.concat_iff.mp reaches.passable
  refine ⟨clean, fun deep => ?_⟩
  obtain ⟨other, refused⟩ := deep.2 0 (Nat.zero_le _)
  rw [Nat.sub_zero, List.take_length] at refused
  by_cases short : directory.text.byteCount ≤ FileSystem.maxPathBytes
  · have standing : world.isDirectory directory = .ok true :=
      plain.isDirectory_iff.mpr ⟨⟨clean, short, passable⟩, .inl there⟩
    rw [Disk.makeDirectory_refused evolves.plain (evolves.isDirectory plain standing)] at refused
    cases refused
  · rw [World.makeDirectory, World.locate, if_neg (by simp [clean]), FileSystem.locate,
      if_pos (Nat.lt_of_not_le short)] at refused
    cases refused

theorem leadsTo_child {test : Node → Bool} {name : Text} (plain : world.Plain) (proper : IsName name)
    (reaches : world.Reaches (directory.child name)) :
    ∃ answer, world.leadsTo test (directory.child name) = .ok answer := by
  have spot := World.spot_child proper world directory
  cases standing : world.at? (world.spot directory ++ [name]) with
  | some node =>
    have located : world.locate .target (directory.child name) = _ :=
      (plain.locate_taken_iff (by simp)).mpr ⟨reaches, rfl, spot ▸ standing⟩
    exact ⟨test node, by simp only [World.leadsTo, located]⟩
  | none =>
    have located : world.locate .target (directory.child name) = _ :=
      (plain.locate_free_iff (by simp)).mpr
        ⟨reaches, List.getLast?_concat, proper, spot, standing⟩
    exact ⟨false, by simp only [World.leadsTo, located]⟩

/-- Once the directory for the script is there it can still be told, although it may be told
otherwise. -/
theorem installDir_placed {touched : Location → Prop} {placed : World} (plain : world.Plain)
    (resolved : installer.installDir world = .ok directory)
    (evolves : Evolves (Along world directory.anchor directory.parts) touched world placed)
    (standing : placed.isDirectory directory = .ok true) :
    ∃ other, installer.installDir placed = .ok other := by
  cases named : installer.namedDir? with
  | some path => exact ⟨path, installDir_named named placed⟩
  | none =>
    suffices seen : ∃ answer, placed.isDirectory installer.framework = .ok answer by
      obtain ⟨answer, seen⟩ := seen
      rw [installDir_unnamed named, seen]
      cases answer
      · exact ⟨_, rfl⟩
      · exact ⟨_, rfl⟩
    rcases installDir_choice named resolved with ⟨there, rfl⟩ | ⟨absent, rfl⟩
    · exact ⟨true, evolves.isDirectory plain there⟩
    · obtain ⟨reaches, -⟩ := evolves.plain.isDirectory_iff.mp standing
      obtain ⟨passable, -⟩ := FileSystem.Passable.concat_iff.mp reaches.passable
      obtain ⟨upper, home, -⟩ := FileSystem.Passable.concat_iff.mp passable
      have clean : installer.framework.hasNul = false :=
        hasNul_child (Path.hasNul_of_child (Path.hasNul_of_child reaches.clean)) (by decide)
      have short := World.short_of_leadsTo clean absent
      exact leadsTo_child evolves.plain (by decide) ⟨clean, short,
        FileSystem.Passable.concat_iff.mpr ⟨upper, home, fun _ => by decide⟩⟩

/-- What an installation into a directory needs to come to an outcome. -/
structure Answerable (installer : Installer) (directory : Path) (script : Text) (world : World) :
    Prop where
  resolved : installer.installDir world = .ok directory
  clean : directory.hasNul = false
  shallow : world.exists? (directory.child scriptName) = .ok false → ¬ Disk.TooDeep world directory
  seen : installer.puts directory script none world = true → installer.settings.autoConfigure = false ∨
    ∃ regular, (installer.install script world).2.isFile installer.startupFile = .ok regular

theorem notInstalled_answers {backup : Option Path} {fault : Fault} :
    (∃ outcome, (notInstalled backup fault world).1 = .ok outcome) ↔ fault.isSystem = true := by
  unfold notInstalled
  split
  · rename_i system
    exact iff_of_true ⟨_, rfl⟩ system
  · rename_i intolerable
    exact iff_of_false (fun ⟨_, same⟩ => by cases same) intolerable

/-- Between the copy of a foreign script and the writing of a new one the directory is no deeper
than before. -/
theorem fits_iff {backup : Option Path} (plain : world.Plain)
    (resolved : installer.installDir world = .ok directory)
    (backed : installer.backUp (directory.child scriptName) world = (.ok backup, middle)) :
    (directory.hasNul = false ∧ ¬ Disk.TooDeep middle directory) ↔
      directory.hasNul = false ∧
        (world.exists? (directory.child scriptName) = .ok false → ¬ Disk.TooDeep world directory) := by
  obtain ⟨present, seen⟩ := backUp_seen backed
  cases present with
  | false =>
    rw [backUp_absent seen] at backed
    cases backed
    simp only [seen, true_implies]
  | true =>
    have fits := fits_of_exists plain seen (backUp_evolves plain resolved backed)
    refine iff_of_true fits ⟨fits.1, fun absent => ?_⟩
    rw [seen] at absent
    cases absent

/-- An installation that put its script comes to an outcome unless the startup file is to be
configured and cannot be looked up. -/
theorem install_answers_put {backup : Option Path} {placed : World} (plain : world.Plain)
    (clean : world.Clean) (resolved : installer.installDir world = .ok directory)
    (backed : installer.backUp (directory.child scriptName) world = (.ok backup, middle))
    (written : writeScript (directory.child scriptName) script middle = (.ok (), placed)) :
    (∃ outcome, (installer.install script world).1 = .ok outcome) ↔
      (installer.settings.autoConfigure = false ∨
        ∃ regular, (installer.install script world).2.isFile installer.startupFile = .ok regular) := by
  have placing := placing_evolves plain resolved backed written
  have standing := ((writeScript_cases (backUp_evolves plain resolved backed).plain written).2 rfl).standing
  obtain ⟨other, resolvedPlaced⟩ := installDir_placed plain resolved placing standing
  have run : installer.install script world = _ := install_placed (scriptPath_eq resolved) backed written
  rw [run, report_answers, configure_answers placing.plain resolvedPlaced (placing.cwd ▸ clean.cwd)]
  rw [configure_seen placing.plain (Prod.eta (installer.configure placed)).symm]

theorem install_answers_at (plain : world.Plain) (clean : world.Clean)
    (resolved : installer.installDir world = .ok directory) :
    (∃ outcome, (installer.install script world).1 = .ok outcome) ↔
      installer.Answerable directory script world := by
  cases backed : installer.backUp (directory.child scriptName) world with
  | mk answer middle =>
    cases answer with
    | error fault =>
      -- The copy was refused by the system, and only what is there is copied.
      have unput : installer.puts directory script none world = false := by
        rw [puts, show installer.backUpBarring none _ _ = _ from backed]
      have there : world.exists? (directory.child scriptName) ≠ .ok false := fun absent => by
        rw [backUp_absent absent] at backed
        cases backed
      refine iff_of_true ?_ ⟨resolved, Path.hasNul_of_child (World.clean_of_leadsTo_ne there),
        fun absent => absurd absent there, fun put => by simp [unput] at put⟩
      rw [install_eq script (scriptPath_eq resolved), backed]
      exact notInstalled_answers.mpr (backUp_isSystem resolved _ _ backed)
    | ok backup =>
      have evolves := backUp_evolves plain resolved backed
      have cleanMiddle : middle.Clean := by
        have kept := backUp_clean installer (directory.child scriptName) world clean
        rwa [backed] at kept
      have fits := fits_iff plain resolved backed
      cases written : writeScript (directory.child scriptName) script middle with
      | mk answer placed =>
        cases answer with
        | error fault =>
          have unput := not_puts backed written
          rw [install_eq script (scriptPath_eq resolved), backed]
          dsimp only
          rw [written]
          dsimp only
          rw [notInstalled_answers, writeScript_refused_isSystem evolves.plain cleanMiddle written, fits]
          exact ⟨fun given => ⟨resolved, given.1, given.2, fun put => by simp [unput] at put⟩,
            fun answerable => ⟨answerable.clean, answerable.shallow⟩⟩
        | ok done =>
          obtain ⟨_, _, made, -⟩ := Disk.bind_eq_ok written
          rw [parent_child] at made
          obtain ⟨cleanDirectory, shallow⟩ := fits.mp (Disk.makeDirectories_fits (congrArg Prod.fst made))
          rw [install_answers_put plain clean resolved backed written]
          exact ⟨fun seen => ⟨resolved, cleanDirectory, shallow, fun _ => seen⟩, fun answerable =>
            answerable.seen (puts_iff.mpr ⟨backup, middle, placed, backed, written⟩)⟩

theorem install_answers (plain : world.Plain) (clean : world.Clean) (script : Text) :
    (∃ outcome, (installer.install script world).1 = .ok outcome) ↔
      ∃ directory, installer.Answerable directory script world := by
  cases resolved : installer.installDir world with
  | error fault =>
    rw [install_unresolved (scriptPath_error resolved)]
    refine iff_of_false (by simp) fun ⟨directory, answerable⟩ => ?_
    have told := answerable.resolved
    rw [resolved] at told
    cases told
  | ok directory =>
    refine (install_answers_at plain clean resolved).trans ⟨fun answerable => ⟨directory, answerable⟩,
      fun ⟨other, answerable⟩ => ?_⟩
    obtain rfl := Except.ok.inj (resolved.symm.trans answerable.resolved)
    exact answerable

end Plain

/-- Outcomes are told as such but for what becomes of paths. Whatever links there are, a removal
comes to an outcome exactly where the directory for the script can be told, and what else it may
come to is known; an installation that comes to none does so for one of few reasons. Without
links it is told exactly when an installation comes to an outcome. -/
theorem outcome_unless_escape (clean : world.Clean) (absolute : installer.home.isAbsolute = true)
    (script : Text) :
    ((∃ outcome, (installer.uninstall world).1 = .ok outcome) ↔
        ∃ directory, installer.installDir world = .ok directory) ∧
      FailsAt world installer.Unplaced installer.uninstall ∧
      FailsAt world (installer.InstallEscape script world) (installer.install script) ∧
      (world.Plain → ((∃ outcome, (installer.install script world).1 = .ok outcome) ↔
        ∃ directory, installer.Answerable directory script world)) :=
  ⟨uninstall_answers clean absolute, uninstall_unplaced clean absolute,
    install_escape clean absolute script, fun plain => install_answers plain clean script⟩

theorem bareHome_clean : World.bareHome.Clean :=
  ⟨fun _ member => absurd member List.not_mem_nil,
    fun location target standing => absurd standing (World.bareHome_plain.linkFree location target)⟩

/-- In a home directory that is empty both come to an outcome. -/
theorem outcome_at_home :
    let installer := homeInstaller [] false
    World.bareHome.Clean ∧ World.bareHome.Plain ∧ installer.home.isAbsolute = true ∧
      (∃ outcome, (installer.uninstall World.bareHome).1 = .ok outcome) ∧
      ∃ outcome, (installer.install "ours\n".toList World.bareHome).1 = .ok outcome := by
  intro installer
  have absolute : installer.home.isAbsolute = true := rfl
  have resolved := homeInstaller_installDir [] false World.bareHome
  obtain ⟨removes, -, -, installs⟩ :=
    outcome_unless_escape bareHome_clean absolute "ours\n".toList
  have shallow : ¬ Disk.TooDeep World.bareHome installer.home := fun deep =>
    absurd deep.1 (by decide)
  exact ⟨bareHome_clean, World.bareHome_plain, absolute, removes.mpr ⟨_, resolved⟩,
    (installs World.bareHome_plain).mpr ⟨_, resolved, by decide, fun _ => shallow,
      fun _ => Or.inl rfl⟩⟩

/-- An installer for a home whose name is too long. -/
def farHome : Installer where
  home := ⟨.root, [List.replicate 300 'a']⟩
  environment := []
  settings := {}

/-- A startup file that cannot be looked up keeps an installation from an outcome, and a home
that cannot be keeps a removal from one. -/
theorem no_outcome_beyond_long_names :
    let world := World.homeWith []
    world.Clean ∧ (homeInstaller overlong true).home.isAbsolute = true ∧
      (¬ ∃ outcome, ((homeInstaller overlong true).install "ours\n".toList world).1 = .ok outcome) ∧
      farHome.home.isAbsolute = true ∧ ¬ ∃ outcome, (farHome.uninstall world).1 = .ok outcome := by
  intro world
  have clean : world.Clean := bareHome_clean.set _ (by simp)
  refine ⟨clean, rfl, ?_, rfl, ?_⟩
  · have plain := (homeAfter_evolves [] "ours\n".toList).plain
    have refused : (homeAfter [] "ours\n".toList).locate .target
        (homeInstaller overlong true).startupFile = _ := overlong_refused plain
    have unseen : (homeAfter [] "ours\n".toList).isFile (homeInstaller overlong true).startupFile =
        .error (.refused .nameTooLong (homeInstaller overlong true).startupFile) := by
      rw [World.isFile, World.leadsTo, refused]
      rfl
    rw [homeInstaller_puts overlong true [] "ours\n".toList, configure_unseen rfl unseen]
    rintro ⟨outcome, never⟩
    cases never
  · have refused : world.locate .target farHome.framework =
        .error (.refused .nameTooLong farHome.framework) :=
      longName_refused (World.homeWith_evolves []).plain (by decide +kernel) (by decide +kernel)
    rw [uninstall_answers clean rfl]
    rintro ⟨directory, resolved⟩
    rw [installDir_unnamed rfl, World.isDirectory, World.leadsTo, refused] at resolved
    cases resolved

end Installer

end TabCompletion
