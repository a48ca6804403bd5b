import Mathlib
import TabCompletion.CommandLine.Run
import TabCompletion.Proofs.CrashLog
import TabCompletion.Proofs.ScriptText
import TabCompletion.Proofs.ShellRequest

namespace TabCompletion

namespace Factory

variable {shell : Text}

theorem isSupported_iff : isSupported shell = true ↔ shell ∈ supportedShells := by
  rw [isSupported, supportedShells]
  induction makers with
  | nil => simp
  | cons entry rest ih =>
    rw [List.lookup_cons, List.map_cons, List.mem_cons, ← ih]
    cases same : shell == entry.1 with
    | true => simp [beq_iff_eq.mp same]
    | false => simp [beq_eq_false_iff_ne.mp same]

theorem lookup_supported (supported : shell ∈ supportedShells) : lookup shell = .ok zsh := by
  obtain rfl : shell = "zsh" := List.mem_singleton.mp supported
  rfl

theorem createGenerator_supported (supported : shell ∈ supportedShells) :
    createGenerator shell = .ok Zsh.Target.default := by
  rw [createGenerator, lookup_supported supported]
  rfl

end Factory

namespace CommandLine

open FileSystem (Furnished Logged)

/-- The script of the program's own commands. -/
def catalogScript : Text :=
  Zsh.Target.default.generate Catalog.commands

/-- The shell that is asked for, or else the one that the environment tells of. -/
def wanted? (host : Host) (named : Option Text) : Option Text :=
  (named.bind Shell.normalize).or (Shell.detected host.environment)

/-- Scripts can be compiled for the shell that is wanted. -/
def Served (host : Host) (named : Option Text) : Prop :=
  ∃ shell ∈ Factory.supportedShells, wanted? host named = some shell

instance (host : Host) (named : Option Text) : Decidable (Served host named) :=
  inferInstanceAs (Decidable (∃ shell ∈ Factory.supportedShells, wanted? host named = some shell))

variable {host : Host} {named : Option Text}

/-- A shell that is served is chosen, and no more than notes are taken on the way. -/
theorem chooseShell_served (served : Served host named) (operation : Text) (world : World) :
    ∃ shell ∈ Factory.supportedShells, ∃ notes, wanted? host named = some shell ∧
      chooseShell host named operation world = (.ok shell, { world with notes := notes }) := by
  obtain ⟨shell, supported, same⟩ := served
  unfold wanted? at same
  unfold wanted? chooseShell
  cases asked : named.bind Shell.normalize with
  | some other =>
    rw [asked] at same
    cases same
    refine ⟨shell, supported, world.notes, rfl, ?_⟩
    dsimp only
    rw [if_pos (Factory.isSupported_iff.mpr supported)]
    rfl
  | none =>
    rw [asked, Option.none_or] at same
    have found : Shell.detect Factory.supportedShells host.environment = ⟨some shell, some shell⟩ := by
      rw [Shell.detect, same, Option.filter, if_pos (List.contains_iff_mem.mpr supported)]
    refine ⟨shell, supported, world.notes ++ ["Detected shell: " ++ shell], same, ?_⟩
    dsimp only
    rw [found]
    rfl

theorem chooseShell_refused (refused : ¬ Served host named) (operation : Text) (world : World) :
    ∃ failure : Failure, failure.exitCode = 2 ∧
      chooseShell host named operation world = (.error (.failure failure), world) := by
  have unlisted {shell : Text} (same : wanted? host named = some shell) :
      shell ∉ Factory.supportedShells :=
    fun supported => refused ⟨shell, supported, same⟩
  unfold wanted? at unlisted
  unfold chooseShell
  cases asked : named.bind Shell.normalize with
  | some shell =>
    rw [asked] at unlisted
    refine ⟨.unsupportedShell shell Factory.supportedShells, rfl, ?_⟩
    dsimp only
    rw [if_neg fun supported => unlisted rfl (Factory.isSupported_iff.mp supported)]
    rfl
  | none =>
    rw [asked, Option.none_or] at unlisted
    cases told : Shell.detected host.environment with
    | some shell =>
      have found : Shell.detect Factory.supportedShells host.environment = ⟨none, some shell⟩ := by
        rw [Shell.detect, told, Option.filter,
          if_neg fun supported => unlisted told (List.contains_iff_mem.mp supported)]
      refine ⟨.unsupportedShell shell Factory.supportedShells, rfl, ?_⟩
      dsimp only
      rw [found]
      rfl
    | none =>
      have found : Shell.detect Factory.supportedShells host.environment = ⟨none, none⟩ := by
        rw [Shell.detect, told, Option.filter]
      refine ⟨_, ?_, by dsimp only; rw [found]; rfl⟩
      rfl

/-- What keeps a user from an installer: there is no home, or no settings can be told. -/
def Unready (host : Host) (world : World) (fault : Fault) : Prop :=
  host.home = .error fault ∨ (∃ home, host.home = .ok home) ∧ Settings.resolve host world = .error fault

theorem ready_or_unready (host : Host) (world : World) :
    (∃ home settings, host.home = .ok home ∧ Settings.resolve host world = .ok settings) ∨
      ∃ fault, Unready host world fault := by
  cases homely : host.home with
  | error fault => exact Or.inr ⟨fault, Or.inl homely⟩
  | ok home =>
    cases resolved : Settings.resolve host world with
    | error fault => exact Or.inr ⟨fault, Or.inr ⟨⟨home, homely⟩, resolved⟩⟩
    | ok settings => exact Or.inl ⟨home, settings, rfl, rfl⟩

variable {world : World} {fault : Fault} {shell : Text}

theorem userInstaller_ready {home : Path} {settings : Settings} (supported : shell ∈ Factory.supportedShells)
    (homely : host.home = .ok home) (resolved : Settings.resolve host world = .ok settings) (notes : List Text) :
    userInstaller host shell { world with notes := notes } =
      (.ok ⟨home, host.environment, settings.completion⟩, { world with notes := notes }) := by
  have again : Settings.resolve host { world with notes := notes } = .ok settings := resolved
  rw [userInstaller, Disk.run_look_bind (Factory.lookup_supported supported), Disk.run_look_bind homely,
    Disk.run_look_bind again]
  rfl

theorem userInstaller_unready (supported : shell ∈ Factory.supportedShells) (unready : Unready host world fault)
    (notes : List Text) :
    userInstaller host shell { world with notes := notes } = (.error fault, { world with notes := notes }) := by
  rw [userInstaller, Disk.run_look_bind (Factory.lookup_supported supported)]
  rcases unready with homeless | ⟨⟨home, homely⟩, failed⟩
  · rw [Disk.run_look_bind_error homeless]
  · have again : Settings.resolve host { world with notes := notes } = .error fault := failed
    rw [Disk.run_look_bind homely, Disk.run_look_bind_error again]

/-- The answer is the one of the first line that has one. -/
theorem confirm_answer (question : Text) (lines : List Text) :
    (confirm question lines).1 = lines.findSome? answer? := by
  induction lines with
  | nil => rfl
  | cons line rest ih =>
    rw [confirm, List.findSome?_cons]
    cases answer? line with
    | some answer => rfl
    | none => exact ih

/-- A run that came to its end by a rule, with nothing written for another program to read and
no file changed. -/
structure Stopped (exitCode : Int) (world : World) (run : Answer × World) : Prop where
  exit : run.1.exit = .ok exitCode
  silent : run.1.console.out = []
  unchanged : run.2.files = world.files

/-- A run that a fault ended which no rule foresees. Its log is all that changes the files,
and even that may not come to be written. -/
def Crashed (recorder : Recorder) (fault : Fault) (world : World) (run : Answer × World) : Prop :=
  run.1.exit = .ok 1 ∧ Logged (Utf8.encode (recorder.traceback fault)) world.files run.2.files ∨
    (∃ other, run.1.exit = .error other) ∧ Furnished world.files run.2.files

variable {recorder : Recorder} {verbosity : Verbosity} {α : Type} {opening : Disk α} {next : α → Action Int}
  {after : World}

theorem runAction_stopped {failure : Failure}
    (run : opening { world with notes := [] } = (.error (.failure failure), after))
    (kept : after.files = world.files) :
    Stopped failure.exitCode world
      (runAction host recorder verbosity (Action.onDisk verbosity opening >>= next) world) := by
  have ended : (Action.onDisk verbosity opening >>= next) { world := world } =
      (.error (.failure failure), Action.told verbosity {} after) := by
    rw [Action.run_bind, Action.run_onDisk, run]
  rw [runAction_failure ended]
  refine ⟨rfl, ?_, kept⟩
  rw [Console.out_report, Action.out_told]

/-- The log of a fault decides how the run ends and what it leaves. -/
theorem runAction_logs (unforeseen : ∀ failure, fault ≠ .failure failure)
    (run : opening { world with notes := [] } = (.error fault, after)) :
    let ended := runAction host recorder verbosity (Action.onDisk verbosity opening >>= next) world
    let logged := writeCrashLog host recorder fault { after with notes := [] }
    ended.1.exit = logged.1.map (fun _ => 1) ∧ ended.2 = logged.2 := by
  have failed : (Action.onDisk verbosity opening >>= next) { world := world } =
      (.error fault, Action.told verbosity {} after) := by
    rw [Action.run_bind, Action.run_onDisk, run]
  dsimp only
  rw [runAction_fault unforeseen failed]
  have same : (Action.told verbosity {} after).world = { after with notes := [] } := rfl
  rw [same]
  rcases writeCrashLog host recorder fault { after with notes := [] } with ⟨other | path, last⟩
  · exact ⟨rfl, rfl⟩
  · exact ⟨rfl, rfl⟩

theorem runAction_crashed (unforeseen : ∀ failure, fault ≠ .failure failure)
    (run : opening { world with notes := [] } = (.error fault, after)) (kept : after.files = world.files) :
    Crashed recorder fault world
      (runAction host recorder verbosity (Action.onDisk verbosity opening >>= next) world) := by
  obtain ⟨exit, left⟩ := @runAction_logs host world fault recorder verbosity _ _ next _ unforeseen run
  have leaves := writeCrashLog_leaves host recorder fault { after with notes := [] }
  rw [Crashed, exit, left, ← kept]
  rcases logged : writeCrashLog host recorder fault { after with notes := [] } with ⟨other | path, last⟩
  · rw [logged] at leaves
    exact Or.inr ⟨⟨other, rfl⟩, leaves⟩
  · rw [logged] at leaves
    exact Or.inl ⟨rfl, leaves⟩

/-- A script ends with the end of its last line, so that nothing is put after it. -/
theorem out_data_generate (console : Console) (target : Zsh.Target) (commands : List Command) :
    (console.data (target.generate commands)).out = console.out ++ target.generate commands := by
  have ended : (target.generate commands).getLast? = some '\n' := by
    change (Zsh.textOf (target.compile commands).lines).getLast? = _
    rcases List.eq_nil_or_concat (target.compile commands).lines with empty | ⟨lines, line, same⟩
    · simp [Zsh.Script.lines, Zsh.Script.preamble] at empty
    · rw [same, List.concat_eq_append, Zsh.textOf_append, Zsh.textOf_cons, Zsh.textOf_nil,
        ← List.append_assoc, List.getLast?_concat]
  simp [Console.data, ended]

theorem generate_served (served : Served host named) :
    ∃ session, generate host verbosity named { world := world } = (.ok 0, session) ∧
      session.console.out = catalogScript ∧ session.world.files = world.files := by
  obtain ⟨shell, supported, notes, -, chosen⟩ :=
    chooseShell_served served "generate" { world with notes := [] }
  refine ⟨{ Action.told verbosity {} { world with notes := notes } with
    console := (Action.told verbosity {} { world with notes := notes }).console.data catalogScript }, ?_, ?_, rfl⟩
  · rw [generate, Action.run_bind, Action.run_onDisk, Disk.run_bind_ok chosen, Disk.run_look,
      Factory.createGenerator_supported supported]
    rfl
  · exact (out_data_generate _ _ _).trans (by rw [Action.out_told, List.nil_append]; rfl)

/-- What was not said yes to is not removed. -/
theorem uninstall_unconfirmed (served : Served host named) {home : Path} {settings : Settings}
    (homely : host.home = .ok home) (resolved : Settings.resolve host world = .ok settings)
    {lines : List Text} (unconfirmed : lines.findSome? answer? ≠ some true) :
    ∃ session, uninstall host lines verbosity named false { world := world } =
        (.ok (if lines.findSome? answer? = some false then 0 else 1), session) ∧
      session.world.files = world.files := by
  obtain ⟨shell, supported, notes, -, chosen⟩ :=
    chooseShell_served served "uninstall" { world with notes := [] }
  have ready := userInstaller_ready supported homely resolved notes
  have opened := Disk.run_bind_ok chosen fun shell => do
    pure (shell, ← userInstaller host shell)
  rw [Disk.run_bind_ok ready] at opened
  rw [← confirm_answer (uninstallQuestion shell)] at unconfirmed ⊢
  rw [uninstall, Action.run_bind, Action.run_onDisk, opened]
  rcases asked : confirm (uninstallQuestion shell) lines with ⟨_ | _ | _, written⟩
  · simp only [Disk.run_pure, Bool.false_eq_true, if_false, asked]
    exact ⟨_, rfl, rfl⟩
  · simp only [Disk.run_pure, Bool.false_eq_true, if_false, asked]
    exact ⟨_, rfl, rfl⟩
  · rw [asked] at unconfirmed
    exact absurd rfl unconfirmed

theorem home_error (failed : host.home = .error fault) : fault = .homeless := by
  unfold Host.home at failed
  dsimp only at failed
  split at failed <;> cases failed
  rfl

/-- Where the settings are can be told once there is a home. -/
theorem settingsPath_error (failed : host.settingsPath = .error fault) : fault = .homeless := by
  have unplaced := error_of_map failed
  unfold Host.configDir at unplaced
  split at unplaced
  · have unbased := error_of_map unplaced
    unfold Host.baseDir at unbased
    split at unbased
    · cases unbased
    · exact home_error (error_of_map unbased)
  · exact home_error (error_of_map unplaced)

/-- A failure that comes of the settings is about them. -/
theorem resolve_failure {failure : Failure} (failed : Settings.resolve host world = .error (.failure failure)) :
    failure.exitCode = 1 := by
  rcases error_of_bind failed with unloaded | ⟨settings, -, never⟩
  · rcases error_of_bind unloaded with unplaced | ⟨path, -, unread⟩
    · cases settingsPath_error unplaced
    rcases error_of_bind unread with unseen | ⟨standing, -, unread⟩
    · rcases World.leadsTo_refused unseen with never | never <;> cases never
    cases standing with
    | false => cases unread
    | true =>
      rw [if_pos rfl] at unread
      split at unread
      · split at unread <;> cases unread
        rfl
      · cases unread
        rfl
      · rename_i failed
        cases unread
        rcases World.readText_error failed with (system | ⟨nul, -⟩) | undecodable
        · cases system
        · cases nul
        · cases undecodable
  · cases never

theorem opening_unready (served : Served host named) (operation : Text) {rest : Text → Disk α}
    (ended : ∀ shell ∈ Factory.supportedShells, ∀ notes, rest shell { world with notes := notes } =
      (.error fault, { world with notes := notes })) :
    ∃ notes, (chooseShell host named operation >>= rest) { world with notes := [] } =
      (.error fault, { world with notes := notes }) := by
  obtain ⟨shell, supported, notes, -, chosen⟩ := chooseShell_served served operation { world with notes := [] }
  exact ⟨notes, (Disk.run_bind_ok chosen rest).trans (ended shell supported notes)⟩

variable {input : Text}

section refused

variable (refused : ¬ Served host named)

include refused

theorem generate_refused : Stopped 2 world ((Request.generate verbosity named).run host recorder input world) := by
  obtain ⟨failure, code, run⟩ := chooseShell_refused refused "generate" { world with notes := [] }
  exact code ▸ runAction_stopped (Disk.run_bind_error run _) rfl

theorem install_refused (detailed : Bool) :
    Stopped 2 world ((Request.install verbosity named detailed).run host recorder input world) := by
  obtain ⟨failure, code, run⟩ := chooseShell_refused refused "install" { world with notes := [] }
  exact code ▸ runAction_stopped (Disk.run_bind_error run _) rfl

theorem uninstall_refused (confirmed : Bool) :
    Stopped 2 world ((Request.uninstall verbosity named confirmed).run host recorder input world) := by
  obtain ⟨failure, code, run⟩ := chooseShell_refused refused "uninstall" { world with notes := [] }
  exact code ▸ runAction_stopped (Disk.run_bind_error run _) rfl

end refused

section unready

variable (served : Served host named)

include served

theorem install_opening (unready : Unready host world fault) :
    ∃ notes, (chooseShell host named "install" >>= fun shell => do
        let target ← Disk.look fun _ => Factory.createGenerator shell
        pure (target, ← userInstaller host shell))
      { world with notes := [] } = (.error fault, { world with notes := notes }) := by
  refine opening_unready served "install" fun shell supported notes => ?_
  rw [Disk.run_look_bind (Factory.createGenerator_supported supported)]
  exact Disk.run_bind_error (userInstaller_unready supported unready notes) _

theorem install_unready {failure : Failure} (unready : Unready host world (.failure failure)) (detailed : Bool) :
    Stopped failure.exitCode world ((Request.install verbosity named detailed).run host recorder input world) := by
  obtain ⟨notes, run⟩ := install_opening served unready
  exact runAction_stopped run rfl

theorem uninstall_opening (unready : Unready host world fault) :
    ∃ notes, (chooseShell host named "uninstall" >>= fun shell => do pure (shell, ← userInstaller host shell))
      { world with notes := [] } = (.error fault, { world with notes := notes }) :=
  opening_unready served "uninstall" fun _ supported notes =>
    Disk.run_bind_error (userInstaller_unready supported unready notes) _

theorem uninstall_unready {failure : Failure} (unready : Unready host world (.failure failure)) (confirmed : Bool) :
    Stopped failure.exitCode world ((Request.uninstall verbosity named confirmed).run host recorder input world) := by
  obtain ⟨notes, run⟩ := uninstall_opening served unready
  exact runAction_stopped run rfl

theorem uninstall_logs (unforeseen : ∀ failure, fault ≠ .failure failure) (unready : Unready host world fault)
    (confirmed : Bool) :
    ((Request.uninstall verbosity named confirmed).run host recorder input world).2 =
      (writeCrashLog host recorder fault { world with notes := [] }).2 := by
  obtain ⟨notes, run⟩ := uninstall_opening served unready
  exact (runAction_logs unforeseen run).2

theorem uninstall_crashed (unforeseen : ∀ failure, fault ≠ .failure failure) (unready : Unready host world fault)
    (confirmed : Bool) :
    Crashed recorder fault world ((Request.uninstall verbosity named confirmed).run host recorder input world) := by
  obtain ⟨notes, run⟩ := uninstall_opening served unready
  exact runAction_crashed unforeseen run rfl

end unready

/-- A run that is not told to go on changes no file before it ends, unless a fault that no rule
foresees ends it. -/
theorem unconfirmed_leaves (named : Option Text) (unconfirmed : (inputLines input).findSome? answer? ≠ some true) :
    let run := (Request.uninstall verbosity named false).run host recorder input world
    ((∃ exitCode, run.1.exit = .ok exitCode) ∧ run.2.files = world.files) ∨
      ∃ fault, (∀ failure, fault ≠ .failure failure) ∧ Served host named ∧ Unready host world fault ∧
        Crashed recorder fault world run := by
  intro run
  by_cases served : Served host named
  · rcases ready_or_unready host world with ⟨home, settings, homely, resolved⟩ | ⟨fault, unready⟩
    · obtain ⟨session, ended, unchanged⟩ := uninstall_unconfirmed served homely resolved unconfirmed
      have answered : run = _ := runAction_ok ended
      rw [answered]
      exact Or.inl ⟨⟨_, rfl⟩, unchanged⟩
    · by_cases foreseen : ∃ failure, fault = .failure failure
      · obtain ⟨failure, rfl⟩ := foreseen
        have stopped : Stopped failure.exitCode world run := uninstall_unready served unready false
        exact Or.inl ⟨⟨_, stopped.exit⟩, stopped.unchanged⟩
      · have unforeseen : ∀ failure, fault ≠ .failure failure := fun failure same => foreseen ⟨failure, same⟩
        exact Or.inr ⟨fault, unforeseen, served, unready, uninstall_crashed served unforeseen unready false⟩
  · have stopped : Stopped 2 world run := uninstall_refused served false
    exact Or.inl ⟨⟨_, stopped.exit⟩, stopped.unchanged⟩

/-- Nothing is touched before every gate has been passed, save the log of a fault that no rule
foresees, and data is written whole or not at all. The gates are the shell, the settings, and for
a removal the answer to its question. -/
theorem gates_come_first (host : Host) (recorder : Recorder) (input : Text) (verbosity : Verbosity)
    (option argument : Option Text) (detailed confirmed : Bool) (world : World) :
    let named := shellNamed option argument
    let words := shellWords option argument
    let run (request : Request) := request.run host recorder input world
    let answer := (inputLines input).findSome? answer?
    (Request.ofArguments (verbosityWords verbosity ++ "completion".toList :: "generate".toList :: words) =
        .generate verbosity named ∧
      Request.ofArguments (verbosityWords verbosity ++ "completion".toList :: "install".toList ::
        (flagWords "--verbose" detailed ++ words)) = .install verbosity named detailed ∧
      Request.ofArguments (verbosityWords verbosity ++ "completion".toList :: "uninstall".toList ::
        (flagWords "--yes" confirmed ++ words)) = .uninstall verbosity named confirmed) ∧
    (¬ Served host named → ∀ request ∈ [Request.generate verbosity named, .install verbosity named detailed,
      .uninstall verbosity named confirmed], Stopped 2 world (run request)) ∧
    (Served host named → ∀ home failure, host.home = .ok home →
      Settings.resolve host world = .error (.failure failure) →
        ∀ request ∈ [Request.install verbosity named detailed, .uninstall verbosity named confirmed],
          Stopped 1 world (run request)) ∧
    (answer ≠ some true →
      ((∃ exitCode, (run (.uninstall verbosity named false)).1.exit = .ok exitCode) ∧
          (run (.uninstall verbosity named false)).2.files = world.files) ∨
        ∃ fault, (∀ failure, fault ≠ .failure failure) ∧ Served host named ∧ Unready host world fault ∧
          Crashed recorder fault world (run (.uninstall verbosity named false))) ∧
    (Served host named → ∀ home settings, host.home = .ok home → Settings.resolve host world = .ok settings →
      answer ≠ some true →
        (run (.uninstall verbosity named false)).1.exit = .ok (if answer = some false then 0 else 1)) ∧
    (Served host named → (run (.generate verbosity named)).1.exit = .ok 0) ∧
    ((run (.generate verbosity named)).1.exit = .ok 0 →
      (run (.generate verbosity named)).1.console.out = catalogScript ∧
        (run (.generate verbosity named)).2.files = world.files) := by
  intro named words run answer
  refine ⟨⟨Request.ofArguments_generate .., Request.ofArguments_install .., Request.ofArguments_uninstall ..⟩,
    fun refused => ?_, fun served home failure homely failed => ?_, unconfirmed_leaves named,
    fun served home settings homely resolved unconfirmed => ?_, fun served => ?_, fun ended => ?_⟩
  · rw [List.forall_mem_cons, List.forall_mem_cons, List.forall_mem_singleton]
    exact ⟨generate_refused refused, install_refused refused detailed, uninstall_refused refused confirmed⟩
  · have unready : Unready host world (.failure failure) := Or.inr ⟨⟨home, homely⟩, failed⟩
    rw [List.forall_mem_cons, List.forall_mem_singleton, ← resolve_failure failed]
    exact ⟨install_unready served unready detailed, uninstall_unready served unready confirmed⟩
  · obtain ⟨session, finished, -⟩ := uninstall_unconfirmed served homely resolved unconfirmed
    exact congrArg (fun answer => answer.1.exit) (runAction_ok finished)
  · obtain ⟨session, finished, -⟩ := generate_served served
    exact congrArg (fun answer => answer.1.exit) (runAction_ok finished)
  · by_cases served : Served host named
    · obtain ⟨session, finished, written, unchanged⟩ := generate_served served
      have answered : run (.generate verbosity named) = _ := runAction_ok finished
      rw [answered]
      exact ⟨written, unchanged⟩
    · have stopped : Stopped 2 world (run (.generate verbosity named)) := generate_refused served
      rw [stopped.exit] at ended
      cases ended

/-- A world with settings that end before they begin. -/
def brokenSettings : World where
  files := ((((FileSystem.empty.insert ["r".toList] .directory).insert ["r".toList, "home".toList]
    .directory).insert ["r".toList, "conf".toList] .directory).insert
    ["r".toList, "conf".toList, "spectest".toList] .directory).insert
    ["r".toList, "conf".toList, "spectest".toList, "config.json".toList] (.file 0o644 (Utf8.encode "\x7b"))
  cwd := ["r".toList]
  draws := []

/-- A user with that home directory, whose settings and data have places of their own. -/
def hostAt (home : Text) : Host :=
  ⟨[("HOME".toList, home), ("XDG_CONFIG_HOME".toList, "/r/conf".toList),
    ("XDG_DATA_HOME".toList, "/r/data".toList)], "Linux", "/", .full⟩

def brokenSettingsFailure : Failure :=
  .invalidSettings ⟨.root, ["r".toList, "conf".toList, "spectest".toList, "config.json".toList]⟩
    (.malformed ['{'] (.misread .expectingName 0))

theorem brokenSettings_resolve (home : Text) :
    Settings.resolve (hostAt home) brokenSettings = .error (.failure brokenSettingsFailure) := by
  cbv

theorem hostAt_served (home : Text) : Served (hostAt home) (some "zsh".toList) :=
  ⟨"zsh".toList, by decide, by cbv⟩

theorem declined_answer : (inputLines "n\n").findSome? answer? = some false := by
  cbv

/-- Broken settings stop an installation and a removal, a shell that is not served stops all three
operations, a removal that is declined changes nothing, and the script is written as a whole. -/
theorem gates_come_first_at_home :
    let host := hostAt "/r/home"
    let quiet : Verbosity := { quiet := true }
    let run (request : Request) (world : World) := request.run host ⟨[], Fault.message⟩ "n\n" world
    let plain : World := ⟨.empty, [], [], []⟩
    Served host (shellNamed (some []) (some "zsh".toList)) ∧ ¬ Served host (some "fish".toList) ∧
      Stopped 2 plain (run (.generate quiet (some "fish".toList)) plain) ∧
      Stopped 1 brokenSettings (run (.uninstall quiet (some "zsh".toList) true) brokenSettings) ∧
      (run (.uninstall quiet (some "zsh".toList) false) plain).1.exit = .ok 0 ∧
      (run (.generate quiet (some "zsh".toList)) plain).1.console.out = catalogScript := by
  intro host quiet run plain
  have served : Served host (shellNamed (some []) (some "zsh".toList)) := hostAt_served _
  have refused : ¬ Served host (shellNamed (some "fish".toList) none) := by decide +kernel
  have homely : host.home = .ok ⟨.root, ["r".toList, "home".toList]⟩ := by cbv
  have resolved : Settings.resolve host plain = .ok {} := by cbv
  have unconfirmed : (inputLines "n\n").findSome? answer? ≠ some true := by
    rw [declined_answer]
    decide
  obtain ⟨-, unserved, -⟩ := gates_come_first host ⟨[], Fault.message⟩ "n\n" quiet (some "fish".toList) none false true plain
  obtain ⟨-, -, broken, -⟩ :=
    gates_come_first host ⟨[], Fault.message⟩ "n\n" quiet (some []) (some "zsh".toList) false true brokenSettings
  obtain ⟨-, -, -, -, declined, generated, written⟩ :=
    gates_come_first host ⟨[], Fault.message⟩ "n\n" quiet (some []) (some "zsh".toList) false true plain
  refine ⟨served, refused, unserved refused _ List.mem_cons_self,
    broken served _ _ homely (brokenSettings_resolve _) _ (List.mem_cons_of_mem _ List.mem_cons_self), ?_,
    (written (generated served)).1⟩
  have ended := declined served _ _ homely resolved unconfirmed
  rwa [declined_answer] at ended

theorem writeCrashLog_homeless :
    (writeCrashLog (hostAt "~x") ⟨"T", Fault.message⟩ .homeless brokenSettings).2.files.get?
      ["r".toList, "data".toList] = some .directory := by
  unfold writeCrashLog
  -- The text of the log does not matter, and is long to spell out.
  generalize Utf8.encode _ = bytes
  cbv

/-- Without a home a run ends before the settings are read and before the question is asked. The
log of that changes the files, although the settings are broken and the answer is no. -/
theorem homeless_leaves_log :
    let host := hostAt "~x"
    let run := (Request.uninstall {} (some "zsh".toList) false).run host ⟨"T", Fault.message⟩ "n\n" brokenSettings
    (Served host (some "zsh".toList) ∧ (inputLines "n\n").findSome? answer? = some false ∧
      Settings.resolve host brokenSettings = .error (.failure brokenSettingsFailure)) ∧
    brokenSettings.files.get? ["r".toList, "data".toList] = none ∧
      run.2.files.get? ["r".toList, "data".toList] = some .directory := by
  intro host run
  have homeless : Unready host brokenSettings .homeless := Or.inl (by cbv)
  have left : run.2 = _ := uninstall_logs (hostAt_served "~x") (fun _ same => by cases same) homeless false
  refine ⟨⟨hostAt_served _, declined_answer, brokenSettings_resolve _⟩, by cbv, ?_⟩
  rw [left]
  exact writeCrashLog_homeless

end CommandLine

end TabCompletion
