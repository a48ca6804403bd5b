import TabCompletion.Proofs.BackupRun
import TabCompletion.Proofs.Clean

namespace TabCompletion

open World (Plain Evolves Reaches)
open Disk (FailsAt)

/-- What an outcome can tell of: a refusal of the system, a text that is no UTF-8, or a failure
that has words of its own. -/
def Fault.Told (fault : Fault) : Prop :=
  fault.isSystem = true ∨ fault.isUndecodable = true ∨ ∃ failure, fault = .failure failure

/-- What is not tolerated of what can be told has words of its own. -/
theorem Fault.Told.failure {fault : Fault} (told : fault.Told)
    (intolerable : ¬ (fault.isSystem || fault.isUndecodable) = true) :
    ∃ failure, fault = .failure failure := by
  simp only [Bool.or_eq_true, not_or] at intolerable
  rcases told with system | undecodable | failure
  · exact absurd system intolerable.1
  · exact absurd undecodable intolerable.2
  · exact failure

/-- A text that holds a NUL is no path, and nothing is said to be there. -/
theorem World.clean_of_leadsTo_ne {world : World} {test : Node → Bool} {path : Path}
    (answered : world.leadsTo test path ≠ .ok false) : path.hasNul = false := by
  cases nul : path.hasNul with
  | false => rfl
  | true =>
    refine absurd ?_ answered
    rw [World.leadsTo, World.locate, if_pos nul]

theorem World.clean_of_leadsTo {world : World} {test : Node → Bool} {path : Path}
    (passed : world.leadsTo test path = .ok true) : path.hasNul = false := by
  have answered : world.leadsTo test path ≠ .ok false := by simp [passed]
  exact World.clean_of_leadsTo_ne answered

theorem World.isOwned_ofPath {world : World} {path : Path} {fault : Fault}
    (failed : world.isOwned path = .error fault) : fault.OfPath path := by
  unfold World.isOwned at failed
  cases read : world.readBytes path with
  | ok bytes =>
    rw [read] at failed
    cases failed
  | error other =>
    rw [read] at failed
    cases failed
    exact World.readBytes_ofPath read

namespace Installer

variable {installer : Installer} {world : World} {directory : Path}

theorem expand_isAbsolute (absolute : installer.home.isAbsolute = true) (written : Text) :
    (installer.expand written).isAbsolute = true := by
  unfold expand
  split
  · exact absolute
  · exact Path.join_isAbsolute absolute _
  · exact Path.join_isAbsolute absolute _

theorem startupFile_isAbsolute (absolute : installer.home.isAbsolute = true) :
    installer.startupFile.isAbsolute = true := by
  unfold startupFile
  split
  · exact Path.join_isAbsolute (expand_isAbsolute absolute _) _
  · exact Path.join_isAbsolute absolute _

/-- The one fault for which the directory for the script is not told: nothing names it, and the
framework's directory, which then decides, cannot be looked up. -/
def Unplaced (installer : Installer) (fault : Fault) : Prop :=
  installer.namedDir? = none ∧ fault.Hides installer.framework

theorem installDir_unplaced {fault : Fault} (failed : installer.installDir world = .error fault) :
    installer.Unplaced fault := by
  cases named : installer.namedDir? with
  | some path =>
    rw [installDir_named named] at failed
    cases failed
  | none =>
    rw [installDir_unnamed named] at failed
    split at failed
    · cases failed
    · cases failed
    · rename_i refused
      cases failed
      exact ⟨named, World.leadsTo_refused refused⟩

/-- It is the system that keeps a foreign script from being copied aside. -/
theorem backUp_isSystem (resolved : installer.installDir world = .ok directory) :
    FailsAt world (·.isSystem = true) (installer.backUp (directory.child scriptName)) := by
  refine .look (fun _ failed => World.leadsTo_isSystem failed) fun present seen => ?_
  cases present with
  | false => exact .pure none
  | true =>
    have clean := World.clean_of_leadsTo seen
    refine .look (fun _ failed => (World.isOwned_ofPath failed).isSystem clean) fun owned _ => ?_
    cases owned with
    | true => exact .pure none
    | false =>
      have target := backupPath_eq resolved
      refine .look (fun _ failed => ?_) fun backup same => .bind (.change fun fault failed => ?_)
        fun _ _ _ => .note fun _ => .pure _
      · rw [target] at failed
        cases failed
      · rw [target] at same
        cases same
        rcases World.copyFile_error failed with ofPath | ofPath
        · exact ofPath.isSystem clean
        · exact ofPath.isSystem (hasNul_child (Path.hasNul_of_child clean) (by decide))

theorem writeScript_onDisk (target : Path) (script : Text) (world : World) :
    FailsAt world Fault.OnDisk (writeScript target script) :=
  .bind (Disk.makeDirectories_onDisk target.parent world) fun _ middle _ =>
    Disk.writeText_onDisk target script middle

/-- A file that is there is read, and what is made of its text is written. -/
theorem look_readText {path : Path} {α : Type} {next : Text → Disk α}
    (regular : world.isFile path = .ok true)
    (rest : ∀ content, FailsAt world Fault.Told (next content)) :
    FailsAt world Fault.Told (Disk.look (·.readText path) >>= next) := by
  refine .look (fun _ failed => ?_) fun content _ => rest content
  rcases World.readText_error failed with ofPath | undecodable
  · exact Or.inl (ofPath.isSystem (World.clean_of_leadsTo regular))
  · exact Or.inr (Or.inl undecodable)

theorem editStartup_told (clean : world.Clean) (absolute : installer.home.isAbsolute = true)
    (regular : world.isFile installer.startupFile = .ok true) :
    FailsAt world Fault.Told installer.editStartup := by
  have written := Disk.writeText_isSystem clean (startupFile_isAbsolute absolute) regular
  refine look_readText regular fun content => .look (fun _ failed => ?_) fun directory _ => ?_
  · rcases (installDir_unplaced failed).2 with rfl | rfl <;> exact Or.inl rfl
  refine .ofBlock (fun marker => Or.inr (Or.inr ⟨_, rfl⟩)) fun outcome => ?_
  cases outcome with
  | inr instructions => exact .pure _
  | inl updated =>
    dsimp only
    split
    · exact .pure none
    · exact .bind ((written updated).mono fun _ system => Or.inl system) fun _ _ _ => .pure none

/-- What may keep a configuration of the startup file from its end. -/
def ConfigureEscape (installer : Installer) (fault : Fault) : Prop :=
  (∃ failure, fault = .failure failure) ∨ installer.Unplaced fault ∨
    installer.settings.autoConfigure = true ∧ fault.Hides installer.startupFile

theorem configure_escape (clean : world.Clean) (absolute : installer.home.isAbsolute = true) :
    FailsAt world installer.ConfigureEscape installer.configure := by
  have hand (middle : World) : FailsAt middle installer.ConfigureEscape installer.handInstructions :=
    .look (fun _ failed => Or.inr (Or.inl (installDir_unplaced failed))) fun _ _ => .pure _
  unfold configure
  dsimp only
  split
  · exact hand world
  · rename_i on
    refine .look (fun _ failed => ?_) fun regular seen => ?_
    · exact Or.inr (Or.inr ⟨by simpa using on, World.leadsTo_refused failed⟩)
    cases regular with
    | false => exact .note hand
    | true =>
      -- A fault of the edit is tolerated or is thrown again, and only a failure is thrown again.
      refine .attempt (editStartup_told clean absolute seen) (fun instructions _ _ => .pure instructions)
        fun fault middle _ told => ?_
      dsimp only
      split
      · exact .note hand
      · rename_i intolerable
        exact .throw (Or.inl (told.failure intolerable))

theorem removeBlock_told (clean : world.Clean) {startup : Path} (absolute : startup.isAbsolute = true) :
    FailsAt world Fault.Told (removeBlock startup) := by
  refine .look (fun _ failed => Or.inl (World.leadsTo_isSystem failed)) fun regular seen => ?_
  cases regular with
  | false => exact .pure false
  | true =>
    have written := Disk.writeText_isSystem clean absolute seen
    refine look_readText seen fun content =>
      .ofBlock (fun marker => Or.inr (Or.inr ⟨_, rfl⟩)) fun updated => ?_
    split
    · exact .pure false
    · exact .bind ((written updated).mono fun _ system => Or.inl system) fun _ _ _ => .pure true

/-- It is the system that keeps a script from being removed. -/
theorem removeScript_isSystem (target : Path) (world : World) :
    FailsAt world (·.isSystem = true) (removeScript target) := by
  refine .look (fun _ failed => World.leadsTo_isSystem failed) fun present seen => ?_
  cases present with
  | false => exact .pure _
  | true =>
    have clean := World.clean_of_leadsTo seen
    refine .look (fun _ failed => (World.isOwned_ofPath failed).isSystem clean) fun owned _ => ?_
    cases owned with
    | false => exact .pure _
    | true =>
      exact .bind (.change fun _ failed => (World.removeFile_ofPath failed).isSystem clean)
        fun _ _ _ => .pure _

theorem removeAll_told (clean : world.Clean) {startup : Path} (absolute : startup.isAbsolute = true)
    (target : Path) : FailsAt world Fault.Told (removeAll startup target) :=
  .bind (removeBlock_told clean absolute) fun _ middle _ =>
    .bind ((removeScript_isSystem target middle).mono fun _ system => Or.inl system)
      fun _ _ _ => .pure _

/-- Only the directory for the script may keep a removal from an outcome. -/
theorem uninstall_unresolved_of_error (clean : world.Clean)
    (absolute : installer.home.isAbsolute = true) :
    FailsAt world (fun fault => installer.installDir world = .error fault) installer.uninstall := by
  refine .look (fun fault failed => ?_) fun target _ =>
    .attempt (removeAll_told clean (startupFile_isAbsolute absolute) target)
      (fun outcome _ _ => .pure outcome) fun fault middle _ told => ?_
  · rcases error_of_bind failed with unresolved | ⟨directory, -, never⟩
    · exact unresolved
    · cases never
  · cases fault with
    | failure failure => exact .pure _
    | _ =>
      dsimp only
      split
      · exact .pure _
      · rename_i intolerable
        obtain ⟨failure, never⟩ := told.failure intolerable
        cases never

theorem uninstall_unplaced (clean : world.Clean) (absolute : installer.home.isAbsolute = true) :
    FailsAt world installer.Unplaced installer.uninstall :=
  (uninstall_unresolved_of_error clean absolute).mono fun _ unresolved => installDir_unplaced unresolved

/-- A removal comes to an outcome wherever the directory for the script can be told. -/
theorem uninstall_answers (clean : world.Clean) (absolute : installer.home.isAbsolute = true) :
    (∃ outcome, (installer.uninstall world).1 = .ok outcome) ↔
      ∃ directory, installer.installDir world = .ok directory := by
  cases resolved : installer.installDir world with
  | error fault =>
    rw [uninstall_unresolved (scriptPath_error resolved)]
    simp
  | ok directory =>
    refine iff_of_true ?_ ⟨directory, rfl⟩
    cases answer : (installer.uninstall world).1 with
    | ok outcome => exact ⟨outcome, rfl⟩
    | error fault =>
      have unresolved := uninstall_unresolved_of_error clean absolute fault _ (Prod.ext answer rfl)
      rw [resolved] at unresolved
      cases unresolved

/-- What an installation may come to instead of an outcome: the directory for the script is not
told, or its way is no way for a path, or the script has its place and the startup file, which is
to be configured, cannot be looked up. -/
def InstallEscape (installer : Installer) (script : Text) (world : World) (fault : Fault) : Prop :=
  installer.Unplaced fault ∨
    ∃ directory, installer.installDir world = .ok directory ∧
      (fault.isWayward = true ∧ installer.puts directory script none world = false ∨
        installer.settings.autoConfigure = true ∧ installer.puts directory script none world = true ∧
          fault.Hides installer.startupFile)

theorem backUp_clean (installer : Installer) (target : Path) :
    Disk.Preserves World.Clean (installer.backUp target) := by
  refine .bind (.look _) fun present => ?_
  cases present with
  | false => exact .pure none
  | true =>
    refine .bind (.look _) fun owned => ?_
    cases owned with
    | true => exact .pure none
    | false =>
      refine .bind (.look _) fun backup => .bind (.change fun world after clean copied => ?_) fun _ =>
        .bind (.change fun world after clean noted => ?_) fun _ => .pure _
      · obtain ⟨bytes, -, written⟩ := copyFile_ok copied
        obtain ⟨location, mode, rfl⟩ := World.writeFile_set written
        exact clean.set location (by simp)
      · cases noted
        exact ⟨clean.cwd, clean.links⟩

theorem writeScript_clean (target : Path) (script : Text) :
    Disk.Preserves World.Clean (writeScript target script) :=
  .bind (Disk.makeDirectories_clean _) fun _ => Disk.writeText_clean target script

theorem notInstalled_error {backup : Option Path} {fault other : Fault} {after : World}
    (run : notInstalled backup fault world = (.error other, after)) :
    other = fault ∧ fault.isSystem = false := by
  unfold notInstalled at run
  split at run
  · cases run
  · rename_i intolerable
    cases run
    exact ⟨rfl, by simpa using intolerable⟩

theorem report_error {target : Path} {backup : Option Path} {fault : Fault}
    {configured : Except Fault (Option (List Text))}
    (reported : report target backup configured = .error fault) :
    configured = .error fault ∧ ∀ failure, fault ≠ .failure failure := by
  cases configured with
  | ok instructions => cases reported
  | error other =>
    cases other <;> cases reported
    all_goals exact ⟨rfl, fun _ same => by cases same⟩

theorem not_puts {script : Text} {middle after : World} {backup : Option Path} {fault : Fault}
    (backed : installer.backUp (directory.child scriptName) world = (.ok backup, middle))
    (refused : writeScript (directory.child scriptName) script middle = (.error fault, after)) :
    installer.puts directory script none world = false := by
  rw [puts, show installer.backUpBarring none _ _ = _ from backed]
  dsimp only
  rw [refused]
  rfl

/-- Wherever an installation comes to no outcome it is for one of few reasons. -/
theorem install_escape (clean : world.Clean) (absolute : installer.home.isAbsolute = true)
    (script : Text) : FailsAt world (installer.InstallEscape script world) (installer.install script) := by
  intro fault after run
  cases resolved : installer.installDir world with
  | error other =>
    rw [install_unresolved (scriptPath_error resolved)] at run
    cases run
    exact Or.inl (installDir_unplaced resolved)
  | ok directory =>
    rw [install_eq script (scriptPath_eq resolved)] at run
    have cleanMiddle := backUp_clean installer (directory.child scriptName) world clean
    cases backed : installer.backUp (directory.child scriptName) world with
    | mk answer middle =>
      rw [backed] at run cleanMiddle
      cases answer with
      | error other =>
        -- The copy fails for reasons of the system alone, and these are reported.
        have system := backUp_isSystem resolved _ _ backed
        obtain ⟨-, notSystem⟩ := notInstalled_error run
        rw [system] at notSystem
        cases notSystem
      | ok backup =>
        dsimp only at run
        have cleanPlaced := writeScript_clean (directory.child scriptName) script middle cleanMiddle
        cases written : writeScript (directory.child scriptName) script middle with
        | mk answer placed =>
          rw [written] at run cleanPlaced
          cases answer with
          | error other =>
            obtain ⟨rfl, notSystem⟩ := notInstalled_error run
            rcases writeScript_onDisk _ _ _ _ _ written with system | wayward
            · rw [system] at notSystem
              cases notSystem
            · exact Or.inr ⟨directory, resolved, Or.inl ⟨wayward, not_puts backed written⟩⟩
          | ok done =>
            dsimp only at run
            rw [Prod.mk.injEq] at run
            obtain ⟨configured, unfailing⟩ := report_error run.1
            rcases configure_escape cleanPlaced absolute fault _ (Prod.ext configured rfl) with
              ⟨failure, rfl⟩ | unplaced | ⟨on, refused⟩
            · exact absurd rfl (unfailing failure)
            · exact Or.inl unplaced
            · exact Or.inr ⟨directory, resolved, Or.inr ⟨on,
                puts_iff.mpr ⟨backup, middle, placed, backed, written⟩, refused⟩⟩

end Installer

end TabCompletion
