import TabCompletion.Proofs.Reinstall

namespace TabCompletion.Installer

open World (Plain Evolves Reaches)

/-- What is done in one step: a script is installed, or what is installed is removed. -/
inductive Action where
  | install (script : Text)
  | uninstall
deriving DecidableEq, Repr

/-- One step of a run, with settings of its own and names for temporary files drawn for it. -/
structure Step where
  action : Action
  settings : CompletionSettings
  draws : List Draw
deriving DecidableEq, Repr

namespace Step

/-- The installer of a step, of which only the settings change from step to step. -/
def installer (step : Step) (base : Installer) : Installer :=
  { base with settings := step.settings }

/-- The world as a step finds it. -/
def enter (step : Step) (world : World) : World :=
  { world with draws := step.draws }

/-- The world that a step leaves, whatever the step came to. -/
def leave (step : Step) (base : Installer) (world : World) : World :=
  match step.action with
  | .install script => ((step.installer base).install script (step.enter world)).2
  | .uninstall => ((step.installer base).uninstall (step.enter world)).2

end Step

/-- The worlds that steps in a row lead to. The history has each step with the world that
it began in, the latest one first. -/
inductive Run (base : Installer) (start : World) : List (Step × World) → World → Prop
  | start : Run base start [] start
  | next {history world} (step : Step) : Run base start history world →
      Run base start ((step, world) :: history) (step.leave base world)

/-- The startup file as a regular file with permission bits that are kept. -/
def Holds (base : Installer) (location : Location) (mode : Nat) (world : World) (bytes : Bytes) :
    Prop :=
  ∃ current, world.locate .target base.startupFile = .ok (.taken location (.file current bytes)) ∧
    current % 0o1000 = mode % 0o1000

theorem Holds.evolves {installer : Installer} {location : Location} {mode : Nat} {bytes : Bytes}
    {world after : World} {made touched : Location → Prop}
    (holds : Holds installer location mode world bytes) (plain : world.Plain)
    (evolves : Evolves made touched world after)
    (apart : ¬ touched (world.spot installer.startupFile)) :
    Holds installer location mode after bytes := by
  obtain ⟨current, located, bits⟩ := holds
  obtain ⟨-, spot, -⟩ := (plain.locate_taken_iff (by simp)).mp located
  exact ⟨current, evolves.located plain located (spot ▸ apart), bits⟩

/-- An installation leaves the startup file alone, or gives it the block of its directory. -/
theorem install_startup {installer : Installer} {script : Text} {world after : World}
    {result : Except Fault InstallOutcome} {location : Location} {mode : Nat} {bytes : Bytes}
    {read text : Text} (plain : world.Plain) (home : world.isDirectory installer.home = .ok true)
    (holds : Holds installer location mode world bytes) (decoded : Utf8.decode bytes = .ok read)
    (unmarked : Block.find markers text = .ok none) (carries : Carries text read.unifyNewlines)
    (run : installer.install script world = (result, after)) :
    after.Plain ∧ after.isDirectory installer.home = .ok true ∧
      ∃ now, Holds installer location mode after now ∧
        (now = bytes ∨ ∃ directory, installer.installDir world = .ok directory ∧
          now = Utf8.encode (Block.append markers (blockBody directory) text)) := by
  cases resolved : installer.installDir world with
  | error fault =>
    rw [install_unresolved (scriptPath_error resolved)] at run
    cases run
    exact ⟨plain, home, bytes, holds, Or.inl rfl⟩
  | ok directory =>
    -- Whatever is done for the script leaves the startup file as it is.
    have kept {final : World} (evolves : Evolves (Along world directory.anchor directory.parts)
        (ScriptPlace world directory) world final) :
        final.Plain ∧ final.isDirectory installer.home = .ok true ∧
          Holds installer location mode final bytes :=
      ⟨evolves.plain, evolves.isDirectory plain home,
        holds.evolves plain evolves ScriptPlace.ne_startup⟩
    rcases install_cases (scriptPath_eq resolved) run with
      ⟨-, ⟨fault, backed⟩ | ⟨backup, middle, fault, backed, written⟩⟩ |
        ⟨backup, middle, placed, backed, written, -, rfl⟩
    · obtain ⟨plainAfter, homeAfter, holdsAfter⟩ := kept (backUp_places plain resolved backed)
      exact ⟨plainAfter, homeAfter, bytes, holdsAfter, Or.inl rfl⟩
    · obtain ⟨plainAfter, homeAfter, holdsAfter⟩ :=
        kept (placing_evolves plain resolved backed written)
      exact ⟨plainAfter, homeAfter, bytes, holdsAfter, Or.inl rfl⟩
    · have evolves := placing_evolves plain resolved backed written
      obtain ⟨plainPlaced, homePlaced, current, located, bits⟩ := kept evolves
      have resolvedPlaced := installDir_evolves plain home resolved evolves ScriptPlace.ne_framework
      cases configured : installer.configure placed with
      | mk answer final =>
        rcases configure_cases plainPlaced configured with ⟨notes, rfl⟩ |
          ⟨-, _, _, _, _, updated, again, given⟩
        · have quiet : Evolves (fun _ => False) (fun _ => False) placed
              { placed with notes := notes } := .note plainPlaced notes
          have there := quiet.located plainPlaced located (by simp)
          exact ⟨quiet.plain, quiet.isDirectory plainPlaced homePlaced, bytes,
            ⟨current, there, bits⟩, Or.inl rfl⟩
        · obtain ⟨rfl, rfl, rfl⟩ := given.same located decoded
          obtain ⟨-, edited, -, -, rfl⟩ := given
          obtain rfl := Except.ok.inj (resolvedPlaced.symm.trans again)
          obtain ⟨-, -, standing⟩ := (plainPlaced.locate_taken_iff (by simp)).mp located
          have edit := Evolves.of_standing plainPlaced standing (current % 0o1000)
            (Utf8.encode updated)
          refine ⟨edit.plain, edit.isDirectory plainPlaced homePlaced, _,
            ⟨_, plainPlaced.located_set located _ _, ?_⟩, Or.inr ⟨directory, rfl, ?_⟩⟩
          · rw [Nat.mod_mod]
            exact bits
          · rw [carries.configured unmarked edited]

/-- Where the startup file can be written its block is taken out, and the file stays as it
is without one. -/
theorem removeBlock_startup {installer : Installer} {world : World} {location : Location}
    {mode : Nat} {bytes : Bytes} {read text : Text} (plain : world.Plain)
    (holds : Holds installer location mode world bytes) (decoded : Utf8.decode bytes = .ok read)
    (unmarked : Block.find markers text = .ok none) (carries : Carries text read.unifyNewlines)
    (writable : ∀ content, (Disk.writeText installer.startupFile content world).1 = .ok ()) :
    ∃ removed middle now, removeBlock installer.startupFile world = (.ok removed, middle) ∧
      Evolves (fun _ => False) (· = world.spot installer.startupFile) world middle ∧
      Holds installer location mode middle now ∧
      (now = bytes ∧ read.unifyNewlines = text ∨ now = Utf8.encode text) := by
  obtain ⟨current, located, bits⟩ := holds
  obtain ⟨-, spot, standing⟩ := (plain.locate_taken_iff (by simp)).mp located
  have run := removeBlock_eq plain located decoded
  rcases carries with same | ⟨directory, single, same⟩
  · rw [same, Block.remove_of_find_none unmarked] at run
    simp only [if_true] at run
    exact ⟨false, world, bytes, run, .refl plain, ⟨current, located, bits⟩, Or.inl ⟨rfl, same⟩⟩
  · rw [same, Block.remove_append markers_proper (Block.findLine?_of_find_none unmarked).1
      (blockBody_free single)] at run
    simp only [append_ne markers (blockBody directory) text, if_false] at run
    have fine : world.replaceFault? location = none := by
      have written := writable text
      rw [Disk.writeText_standing plain located] at written
      cases fault : world.replaceFault? location with
      | none => rfl
      | some fault =>
        simp only [fault] at written
        cases written
    rw [fine] at run
    refine ⟨true, _, _, run, spot ▸ .of_standing plain standing _ _,
      ⟨_, plain.located_set located _ _, ?_⟩, Or.inr rfl⟩
    rw [Nat.mod_mod]
    exact bits

/-- A removal takes the block out of the startup file and leaves its text otherwise. -/
theorem uninstall_startup {installer : Installer} {world after : World}
    {result : Except Fault UninstallOutcome} {location : Location} {mode : Nat} {bytes : Bytes}
    {read text : Text} (plain : world.Plain) (home : world.isDirectory installer.home = .ok true)
    (holds : Holds installer location mode world bytes) (decoded : Utf8.decode bytes = .ok read)
    (unmarked : Block.find markers text = .ok none) (carries : Carries text read.unifyNewlines)
    (writable : ∀ content, (Disk.writeText installer.startupFile content world).1 = .ok ())
    (run : installer.uninstall world = (result, after)) :
    after.Plain ∧ after.isDirectory installer.home = .ok true ∧
      ∃ now, Holds installer location mode after now ∧
        (now = bytes ∧ (read.unifyNewlines = text ∨
            ∀ directory, installer.installDir world ≠ .ok directory) ∨
          now = Utf8.encode text) := by
  cases resolved : installer.installDir world with
  | error fault =>
    rw [uninstall_unresolved (scriptPath_error resolved)] at run
    cases run
    exact ⟨plain, home, bytes, holds, Or.inl ⟨rfl, Or.inr (by simp)⟩⟩
  | ok directory =>
    have left : after = (removeAll installer.startupFile (directory.child scriptName) world).2 := by
      rw [← (uninstall_cases (scriptPath_eq resolved)).1, run]
    obtain ⟨removed, middle, now, block, evolves, holdsMiddle, outcome⟩ :=
      removeBlock_startup plain holds decoded unmarked carries writable
    have both : Evolves (fun _ => False) (· = middle.spot (directory.child scriptName)) middle after := by
      rw [left]
      cases all : removeAll installer.startupFile (directory.child scriptName) world with
      | mk answer final =>
        rcases removeAll_cases all with ⟨fault, failed, -⟩ | ⟨_, _, _, again, script, -⟩
        · rw [failed] at block
          cases block
        · rw [block] at again
          cases again
          exact removeScript_evolves evolves.plain script
    have apart : middle.spot installer.startupFile ≠ middle.spot (directory.child scriptName) := by
      obtain ⟨above, same⟩ := startupFile_eq installer
      rw [same]
      exact World.spot_child_ne startupName_isName scriptName_isName (by decide) middle above directory
    refine ⟨both.plain, both.isDirectory evolves.plain (evolves.isDirectory plain home), now,
      holdsMiddle.evolves evolves.plain both apart, ?_⟩
    rcases outcome with ⟨same, whole⟩ | same
    · exact Or.inl ⟨same, Or.inl whole⟩
    · exact Or.inr same

/-- What the startup file may hold after some steps: the bytes it had, its text with plain
line feeds, or that text with the block of a directory that was installed to. -/
def Held (base : Installer) (bytes : Bytes) (text : Text) (history : List (Step × World))
    (now : Bytes) : Prop :=
  now = bytes ∨ now = Utf8.encode text ∨
    ∃ taken ∈ history, ∃ script directory, taken.1.action = .install script ∧
      (taken.1.installer base).installDir taken.2 = .ok directory ∧
      now = Utf8.encode (Block.append markers (blockBody directory) text)

theorem Held.reads {base : Installer} {bytes now : Bytes} {text : Text}
    {history : List (Step × World)} (held : Held base bytes text.unifyNewlines history now)
    (decoded : Utf8.decode bytes = .ok text)
    (single : ∀ taken ∈ history, ∀ directory,
      (taken.1.installer base).installDir taken.2 = .ok directory → directory.OneLine) :
    ∃ read, Utf8.decode now = .ok read ∧ Carries text.unifyNewlines read.unifyNewlines := by
  rcases held with rfl | rfl | ⟨taken, member, script, directory, -, resolved, rfl⟩
  · exact ⟨text, decoded, Or.inl rfl⟩
  · exact ⟨_, Utf8.decode_encode _, Or.inl (Text.unifyNewlines_idem text)⟩
  · have line := single taken member directory resolved
    have unified := carriage_not_mem_append line (Text.not_mem_unifyNewlines text)
    exact ⟨_, Utf8.decode_encode _, Or.inr ⟨directory, line, Text.unifyNewlines_of_not_mem unified⟩⟩

theorem Held.without_block {base : Installer} {bytes now : Bytes} {text read : Text}
    {history : List (Step × World)} (held : Held base bytes text history now)
    (single : ∀ taken ∈ history, ∀ directory,
      (taken.1.installer base).installDir taken.2 = .ok directory → directory.OneLine)
    (unified : '\r' ∉ text) (decoded : Utf8.decode now = .ok read)
    (same : read.unifyNewlines = text) : now = bytes ∨ now = Utf8.encode text := by
  rcases held with original | plain | ⟨taken, member, script, directory, -, resolved, rfl⟩
  · exact Or.inl original
  · exact Or.inr plain
  · have line := single taken member directory resolved
    rw [Utf8.decode_encode] at decoded
    cases decoded
    rw [Text.unifyNewlines_of_not_mem (carriage_not_mem_append line unified)] at same
    exact absurd same.symm (append_ne markers _ text)

theorem Held.older {base : Installer} {bytes now : Bytes} {text : Text}
    {history : List (Step × World)} (held : Held base bytes text history now) (taken : Step × World) :
    Held base bytes text (taken :: history) now := by
  rcases held with same | same | ⟨earlier, member, rest⟩
  · exact Or.inl same
  · exact Or.inr (Or.inl same)
  · exact Or.inr (Or.inr ⟨earlier, List.mem_cons_of_mem taken member, rest⟩)

/-- What each step of a run preserves, with the bytes that the startup file has by then. -/
structure Kept (base : Installer) (location : Location) (mode : Nat) (bytes : Bytes) (text : Text)
    (history : List (Step × World)) (world : World) (now : Bytes) : Prop where
  plain : world.Plain
  home : world.isDirectory base.home = .ok true
  holds : Holds base location mode world now
  held : Held base bytes text history now
  cleared : ∀ step before rest, history = (step, before) :: rest → step.action = .uninstall →
    (∃ directory, (step.installer base).installDir before = .ok directory) →
    now = bytes ∨ now = Utf8.encode text

section Steps

variable {base : Installer} {world : World} {location : Location} {mode : Nat} {bytes now : Bytes}
  {text : Text} {history : List (Step × World)} {step : Step}

theorem Kept.enter (kept : Kept base location mode bytes text history world now) (step : Step) :
    (step.enter world).Plain ∧ (step.enter world).isDirectory (step.installer base).home = .ok true ∧
      Holds (step.installer base) location mode (step.enter world) now :=
  ⟨⟨kept.plain.linkFree, kept.plain.rooted, kept.plain.named⟩, kept.home, kept.holds⟩

theorem Kept.install {script : Text}
    (kept : Kept base location mode bytes text.unifyNewlines history world now)
    (decoded : Utf8.decode bytes = .ok text)
    (blockless : Block.find markers text.unifyNewlines = .ok none)
    (single : ∀ taken ∈ history, ∀ directory,
      (taken.1.installer base).installDir taken.2 = .ok directory → directory.OneLine)
    (action : step.action = .install script) :
    ∃ next, Kept base location mode bytes text.unifyNewlines ((step, world) :: history)
      (step.leave base world) next := by
  obtain ⟨read, decodedNow, carries⟩ := kept.held.reads decoded single
  obtain ⟨entered, homeStep, holdsStep⟩ := kept.enter step
  cases result : (step.installer base).install script (step.enter world) with
  | mk outcome after =>
    have left : step.leave base world = after := by simp only [Step.leave, action, result]
    obtain ⟨plainAfter, homeAfter, next, holdsAfter, change⟩ :=
      install_startup entered homeStep holdsStep decodedNow blockless carries result
    rw [left]
    refine ⟨next, plainAfter, homeAfter, holdsAfter, ?_, ?_⟩
    · rcases change with rfl | ⟨directory, resolved, same⟩
      · exact kept.held.older _
      · exact Or.inr (Or.inr
          ⟨(step, world), List.mem_cons_self, script, directory, action, resolved, same⟩)
    · rintro last before rest same uninstalled
      cases same
      rw [action] at uninstalled
      cases uninstalled

theorem Kept.uninstall
    (kept : Kept base location mode bytes text.unifyNewlines history world now)
    (decoded : Utf8.decode bytes = .ok text)
    (blockless : Block.find markers text.unifyNewlines = .ok none)
    (single : ∀ taken ∈ history, ∀ directory,
      (taken.1.installer base).installDir taken.2 = .ok directory → directory.OneLine)
    (writable : ∀ content,
      (Disk.writeText base.startupFile content (step.enter world)).1 = .ok ())
    (action : step.action = .uninstall) :
    ∃ next, Kept base location mode bytes text.unifyNewlines ((step, world) :: history)
      (step.leave base world) next := by
  obtain ⟨read, decodedNow, carries⟩ := kept.held.reads decoded single
  obtain ⟨entered, homeStep, holdsStep⟩ := kept.enter step
  cases result : (step.installer base).uninstall (step.enter world) with
  | mk outcome after =>
    have left : step.leave base world = after := by simp only [Step.leave, action, result]
    obtain ⟨plainAfter, homeAfter, next, holdsAfter, change⟩ :=
      uninstall_startup entered homeStep holdsStep decodedNow blockless carries writable result
    rw [left]
    refine ⟨next, plainAfter, homeAfter, holdsAfter, ?_, ?_⟩
    · rcases change with ⟨rfl, -⟩ | same
      · exact kept.held.older _
      · exact Or.inr (Or.inl same)
    · rintro last before rest same - ⟨directory, resolved⟩
      cases same
      rcases change with ⟨rfl, without | never⟩ | same
      · exact kept.held.without_block single (Text.not_mem_unifyNewlines text) decodedNow without
      · exact absurd resolved (never directory)
      · exact Or.inr same

end Steps

/-- Over a whole run the startup file keeps its permission bits, and its text apart from
line ends and one block at its end. Right after a removal that can tell the script's directory
there is no block. -/
theorem startupFile_over_run {base : Installer} {start world : World} {location : Location}
    {mode : Nat} {bytes : Bytes} {text : Text} {history : List (Step × World)} (plain : start.Plain)
    (home : start.isDirectory base.home = .ok true)
    (located : start.locate .target base.startupFile = .ok (.taken location (.file mode bytes)))
    (decoded : Utf8.decode bytes = .ok text)
    (unmarked : markers.start ∉ text.unifyNewlines.newlinePieces ∧
      markers.finish ∉ text.unifyNewlines.newlinePieces)
    (run : Run base start history world)
    (single : ∀ taken ∈ history, ∀ directory,
      (taken.1.installer base).installDir taken.2 = .ok directory → directory.OneLine)
    (writable : ∀ taken ∈ history, taken.1.action = .uninstall → ∀ content,
      (Disk.writeText base.startupFile content (taken.1.enter taken.2)).1 = .ok ()) :
    ∃ now, Holds base location mode world now ∧ Held base bytes text.unifyNewlines history now ∧
      ∀ step before rest, history = (step, before) :: rest → step.action = .uninstall →
        (∃ directory, (step.installer base).installDir before = .ok directory) →
        now = bytes ∨ now = Utf8.encode text.unifyNewlines := by
  have blockless := find_of_unmarked (Text.not_mem_unifyNewlines text) unmarked
  suffices every : ∃ now, Kept base location mode bytes text.unifyNewlines history world now by
    obtain ⟨now, kept⟩ := every
    exact ⟨now, kept.holds, kept.held, kept.cleared⟩
  induction run with
  | start => exact ⟨bytes, plain, home, ⟨mode, located, rfl⟩, Or.inl rfl, by simp⟩
  | @next past current step previous ih =>
    have singlePast := fun taken member => single taken (List.mem_cons_of_mem _ member)
    obtain ⟨now, kept⟩ := ih singlePast
      (fun taken member => writable taken (List.mem_cons_of_mem _ member))
    cases action : step.action with
    | install script => exact kept.install decoded blockless singlePast action
    | uninstall =>
      exact kept.uninstall decoded blockless singlePast
        (writable (step, current) List.mem_cons_self action) action

/-- An installation that gives the startup file its block, and then a removal that takes it out, where
the file has a line end of its own. -/
theorem startupFile_over_two_steps :
    let base := homeInstaller [] true
    let put : Step := ⟨.install "script".toList, base.settings, World.bareHome.draws⟩
    let remove : Step := ⟨.uninstall, base.settings, [.ofNat 1]⟩
    let start := World.homeWith (Utf8.encode "x\r\n".toList)
    let between := put.leave base start
    Holds base ["home".toList, ".zshrc".toList] 0o600 between
        (Utf8.encode (Block.append markers (blockBody base.home) "x\n".toList)) ∧
      ∃ now, Holds base ["home".toList, ".zshrc".toList] 0o600 (remove.leave base between) now ∧
        (now = Utf8.encode "x\r\n".toList ∨ now = Utf8.encode "x\n".toList) := by
  intro base put remove start between
  have plain : start.Plain := (World.homeWith_evolves _).plain
  have located : start.locate .target base.startupFile = _ := World.homeWith_located _
  have entered : put.enter start = start := rfl
  have given : between = homeEdited (Utf8.encode "x\r\n".toList) "script".toList := by
    have run := homeInstaller_appends (Utf8.decode_encode "x\r\n".toList) rfl "script".toList
    exact congrArg Prod.snd run
  have run : Run base start [(remove, between), (put, start)] (remove.leave base between) :=
    (Run.start.next put).next remove
  have directory (world : World) : base.installDir world = .ok base.home :=
    homeInstaller_installDir [] true world
  have single : ∀ taken ∈ [(remove, between), (put, start)], ∀ directory,
      (taken.1.installer base).installDir taken.2 = .ok directory → directory.OneLine := by
    intro taken member path resolved
    have same : path = base.home := by
      rcases List.mem_cons.mp member with rfl | last
      · exact Except.ok.inj (resolved.symm.trans (directory between))
      · obtain rfl := List.mem_singleton.mp last
        exact Except.ok.inj (resolved.symm.trans (directory start))
    rw [same]
    decide
  have writable : ∀ taken ∈ [(remove, between), (put, start)], taken.1.action = .uninstall →
      ∀ content, (Disk.writeText base.startupFile content (taken.1.enter taken.2)).1 = .ok () := by
    intro taken member removes content
    rcases List.mem_cons.mp member with rfl | last
    · rw [given]
      exact homeEdited_writable _ _ content (.ofNat 1)
    · obtain rfl := List.mem_singleton.mp last
      cases removes
  obtain ⟨now, holds, -, cleared⟩ := startupFile_over_run plain
    ((World.homeWith_evolves _).isDirectory World.bareHome_plain World.bareHome_isDirectory)
    located (Utf8.decode_encode _) (by decide) run single writable
  refine ⟨?_, now, holds, cleared remove between [(put, start)] rfl rfl ⟨_, directory between⟩⟩
  rw [given]
  exact ⟨0o600, homeEdited_located _ _, rfl⟩

/-- The root directory, spelled with as many steps up as leave no room for one more name. -/
def upward : Path :=
  ⟨.root, List.replicate 1363 "..".toList⟩

theorem upward_stays (files : FileSystem) (count : Nat) :
    files.Passable [] (List.replicate count "..".toList) ∧
      FileSystem.lexical [] (List.replicate count "..".toList) = [] := by
  induction count with
  | zero => exact ⟨trivial, rfl⟩
  | succ count ih =>
    refine ⟨⟨files.get?_nil, fun proper => absurd rfl proper.2.2, ih.1⟩, ih.2⟩

/-- The framework's directory below that many steps cannot even be looked up. -/
theorem upward_child_refused (world : World) :
    world.isDirectory (upward.child ".oh-my-zsh".toList) =
      .error (.refused .nameTooLong (upward.child ".oh-my-zsh".toList)) := by
  have clean : (upward.child ".oh-my-zsh".toList).hasNul = false := by decide +kernel
  have long : FileSystem.maxPathBytes < (upward.child ".oh-my-zsh".toList).text.byteCount := by
    decide +kernel
  rw [World.isDirectory, World.leadsTo, World.locate, clean, FileSystem.locate, if_pos long]
  rfl

theorem upward_isDirectory {world : World} (plain : world.Plain) :
    world.isDirectory upward = .ok true := by
  obtain ⟨passable, stays⟩ := upward_stays world.files 1363
  have spot : world.spot upward = [] := stays
  have clean : upward.hasNul = false := by decide +kernel
  have short : upward.text.byteCount ≤ FileSystem.maxPathBytes := by decide +kernel
  exact plain.isDirectory_iff.mpr ⟨⟨clean, short, passable⟩, Or.inl (spot ▸ world.files.get?_nil)⟩

/-- Where the home directory leaves no room for a name below it, a removal that is not told
the directory raises, and the block of the installation before it stays. -/
theorem startupFile_keeps_block :
    let settings : CompletionSettings := { autoConfigure := true, installDir := some "/home".toList }
    let base : Installer := ⟨upward, [("ZDOTDIR".toList, "/home".toList)], settings⟩
    let put : Step := ⟨.install "script".toList, settings, World.bareHome.draws⟩
    let remove : Step := ⟨.uninstall, { settings with installDir := none }, [.ofNat 1]⟩
    let start := World.homeWith (Utf8.encode "x\n".toList)
    let between := put.leave base start
    let location := ["home".toList, ".zshrc".toList]
    start.Plain ∧ start.isDirectory base.home = .ok true ∧
      start.locate .target base.startupFile =
        .ok (.taken location (.file 0o600 (Utf8.encode "x\n".toList))) ∧
      Run base start [(remove, between), (put, start)] (remove.leave base between) ∧
      (∀ content, (Disk.writeText base.startupFile content (remove.enter between)).1 = .ok ()) ∧
      ((remove.installer base).uninstall (remove.enter between)).1 =
        .error (.refused .nameTooLong base.framework) ∧
      Holds base location 0o600 (remove.leave base between)
        (Utf8.encode (Block.append markers (blockBody ⟨.root, ["home".toList]⟩) "x\n".toList)) ∧
      ¬ Holds base location 0o600 (remove.leave base between) (Utf8.encode "x\n".toList) := by
  intro settings base put remove start between location
  have plain : start.Plain := (World.homeWith_evolves _).plain
  have given : between = homeEdited (Utf8.encode "x\n".toList) "script".toList := by
    have run : base.install "script".toList start = _ :=
      install_appends rfl rfl rfl (Utf8.decode_encode "x\n".toList) rfl "script".toList
    exact congrArg Prod.snd run
  have long : (remove.enter between).isDirectory base.framework =
      .error (.refused .nameTooLong base.framework) :=
    upward_child_refused _
  have ended : (remove.installer base).uninstall (remove.enter between) =
      (.error (.refused .nameTooLong base.framework), remove.enter between) := by
    refine uninstall_unresolved (scriptPath_error ?_)
    rw [installDir_unnamed rfl]
    have same : (remove.installer base).framework = base.framework := rfl
    rw [same, long]
  have left : remove.leave base between = remove.enter between := congrArg Prod.snd ended
  refine ⟨plain, upward_isDirectory plain, World.homeWith_located _, (Run.start.next put).next remove,
    fun content => ?_, congrArg Prod.fst ended, ?_⟩
  · rw [given]
    exact homeEdited_writable _ _ content (.ofNat 1)
  · have blocked := homeEdited_located (Utf8.encode "x\n".toList) "script".toList
    rw [left, given]
    refine ⟨⟨0o600, blocked, rfl⟩, ?_⟩
    rintro ⟨current, located, -⟩
    cases blocked.symm.trans located

end TabCompletion.Installer
