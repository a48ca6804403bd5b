import TabCompletion.Proofs.Answer
import TabCompletion.Proofs.Backup
import TabCompletion.Proofs.Restoration

namespace TabCompletion.Installer

open World (Plain Evolves Reaches SameFile)

/-- What may happen to the script of a directory: somebody installs one, removes it, or
changes its file by other means. The copy that an installation makes may be cut short after so
many bytes by a fault. -/
inductive Deed where
  | install (installer : Installer) (script : Text) (trouble : Option (Nat × Fault))
  | uninstall (installer : Installer)
  | overwrite

/-- Whether an installation gets as far as putting the script in its place. -/
def puts (installer : Installer) (directory : Path) (script : Text) (trouble : Option (Nat × Fault))
    (world : World) : Bool :=
  match installer.backUpBarring trouble (directory.child scriptName) world with
  | (.ok _, middle) => (writeScript (directory.child scriptName) script middle).1.toBool
  | (.error _, _) => false

/-- The bytes of the file in the script's place, when it is not ours. -/
def foreign? (directory : Path) (world : World) : Option Bytes :=
  match world.at? (world.spot (directory.child scriptName)) with
  | some (.file _ bytes) => if isOwnedBytes bytes then none else some bytes
  | _ => none

namespace Deed

/-- The bytes of a foreign file that a deed puts a script in the place of. -/
def displaced? (directory : Path) : Deed → World → Option Bytes
  | install installer script trouble, world =>
    if installer.puts directory script trouble world then foreign? directory world else none
  | uninstall _, _ | overwrite, _ => none

/-- The bytes that a deed leaves in the place of the backup when the copy of a foreign file is cut
short. The foreign file itself stays. -/
def cut? (directory : Path) : Deed → World → Option Bytes
  | install _ _ (some (count, _)), world =>
    match world.isOwned (directory.child scriptName),
      world.copyPart (·.take count) (directory.child scriptName) (directory.child backupName) with
    | .ok false, .ok _ => (foreign? directory world).map (·.take count)
    | _, _ => none
  | install _ _ none, _ | uninstall _, _ | overwrite, _ => none

/-- The bytes that a deed puts in the place of the backup: those of the file that it displaces, or
what a copy cut short has of them. -/
def shelved? (directory : Path) (deed : Deed) (world : World) : Option Bytes :=
  (deed.displaced? directory world).or (deed.cut? directory world)

/-- Whether a deed leads from one world to another. Installers may differ from deed to deed, as
long as the script's path is the same for all of them; by other means anything may come to
stand in the script's place. -/
def Takes (directory : Path) : Deed → World → World → Prop
  | install installer script trouble, before, after =>
    installer.scriptPath before = .ok (directory.child scriptName) ∧
      after = (installer.installBarring trouble script before).2
  | uninstall installer, before, after =>
    installer.scriptPath before = .ok (directory.child scriptName) ∧
      after = (installer.uninstall before).2
  | overwrite, before, after =>
    Evolves (Along before directory.anchor directory.parts)
      (· = before.spot (directory.child scriptName)) before after

/-- A script for which a copy was made is written. -/
def Whole (directory : Path) : Deed → World → Prop
  | install installer script trouble, before => ∀ backup middle,
    installer.backUpBarring trouble (directory.child scriptName) before = (.ok (some backup), middle) →
      (writeScript (directory.child scriptName) script middle).1 = .ok ()
  | uninstall _, _ | overwrite, _ => True

end Deed

/-- The worlds that deeds in a row lead to, each with names of its own for temporary files.
The history has each deed with the world that it found, the latest one first. -/
inductive Chronicle (directory : Path) (start : World) : List (Deed × World) → World → Prop
  | start : Chronicle directory start [] start
  | next {history world after} (deed : Deed) (draws : List Draw) :
      Chronicle directory start history world →
      deed.Takes directory (world.redraw draws) after →
      Chronicle directory start ((deed, world.redraw draws) :: history) after

/-- The bytes of the last foreign file that was displaced. -/
def lastDisplaced? (directory : Path) (history : List (Deed × World)) : Option Bytes :=
  history.findSome? fun (deed, before) => deed.displaced? directory before

/-- The bytes that were last put in the place of the backup. -/
def lastShelved? (directory : Path) (history : List (Deed × World)) : Option Bytes :=
  history.findSome? fun (deed, before) => deed.shelved? directory before

/-- A place that holds a file with given bytes afterwards, or without any is as it was. -/
def Shelved (bytes : Option Bytes) (location : Location) (before after : World) : Prop :=
  match bytes with
  | some bytes => ∃ mode, after.at? location = some (.file mode bytes)
  | none => after.at? location = before.at? location

theorem Shelved.trans {first second : Option Bytes} {location : Location}
    {before middle after : World} (shelved : Shelved first location before middle)
    (later : Shelved second location middle after) :
    Shelved (second.or first) location before after := by
  cases second with
  | some bytes => exact later
  | none =>
    cases first with
    | some bytes =>
      obtain ⟨mode, held⟩ := shelved
      exact ⟨mode, Eq.trans later held⟩
    | none => exact Eq.trans later shelved

/-- What an installation leaves of the files around the script, and tells of them. Where its
home is a directory, and no name has the character that no path can have, it comes to an
outcome unless the startup file is to be configured and cannot even be looked up. -/
structure InstallKeeps (installer : Installer) (directory : Path) (script : Text)
    (trouble : Option (Nat × Fault)) (before : World) (result : Except Fault InstallOutcome) (after : World) : Prop where
  elsewhere : ∀ location, ¬ ScriptPlace before directory location →
    location ≠ before.spot installer.startupFile → SameFile before after location
  put : installer.puts directory script trouble before = true →
    ∃ mode, after.at? (before.spot (directory.child scriptName)) =
      some (.file mode (Utf8.encode script))
  unput : installer.puts directory script trouble before = false →
    after.at? (before.spot (directory.child scriptName)) =
      before.at? (before.spot (directory.child scriptName))
  backup : Shelved ((Deed.install installer script trouble).shelved? directory before)
    (before.spot (directory.child backupName)) before after
  told : ∀ bytes, (Deed.install installer script trouble).displaced? directory before = some bytes →
    ∀ outcome, result = .ok outcome →
      outcome.backupPath = some (directory.child backupName).text
  answers : installer.puts directory script trouble before = true →
    before.isDirectory installer.home = .ok true → NulFree before.cwd →
    ((∃ outcome, result = .ok outcome) ↔ installer.settings.autoConfigure = false ∨
      ∃ regular, after.isFile installer.startupFile = .ok regular)

/-- What a removal leaves of the files around the script. -/
structure UninstallKeeps (installer : Installer) (directory : Path) (before after : World) :
    Prop where
  elsewhere : ∀ location, location ≠ before.spot (directory.child scriptName) →
    location ≠ before.spot installer.startupFile → SameFile before after location
  backup : after.at? (before.spot (directory.child backupName)) =
    before.at? (before.spot (directory.child backupName))
  script : after.at? (before.spot (directory.child scriptName)) =
      before.at? (before.spot (directory.child scriptName)) ∨
    ∃ mode bytes, before.at? (before.spot (directory.child scriptName)) = some (.file mode bytes) ∧
      isOwnedBytes bytes = true ∧ after.at? (before.spot (directory.child scriptName)) = none

section Install

variable {installer : Installer} {directory : Path} {script : Text} {trouble : Option (Nat × Fault)} {world : World}

theorem puts_iff :
    installer.puts directory script trouble world = true ↔ ∃ backup middle placed,
      installer.backUpBarring trouble (directory.child scriptName) world = (.ok backup, middle) ∧
        writeScript (directory.child scriptName) script middle = (.ok (), placed) := by
  unfold puts
  constructor
  · intro put
    split at put
    · rename_i backup middle backed
      cases written : writeScript (directory.child scriptName) script middle with
      | mk answer placed =>
        rw [written] at put
        cases answer with
        | ok done => exact ⟨backup, middle, placed, backed, written⟩
        | error fault => cases put
    · cases put
  · rintro ⟨backup, middle, placed, backed, written⟩
    rw [backed]
    dsimp only
    rw [written]
    rfl

theorem puts_whole (put : installer.puts directory script trouble world = true) :
    (Deed.install installer script trouble).Whole directory world := by
  obtain ⟨_, _, placed, backed, written⟩ := puts_iff.mp put
  intro backup middle again
  rw [backed] at again
  cases again
  rw [written]

theorem foreign?_eq_some {bytes : Bytes} :
    foreign? directory world = some bytes ↔
      ∃ mode, world.at? (world.spot (directory.child scriptName)) = some (.file mode bytes) ∧
        isOwnedBytes bytes = false := by
  unfold foreign?
  cases world.at? (world.spot (directory.child scriptName)) with
  | none => simp
  | some node =>
    cases node with
    | file mode old =>
      by_cases owned : isOwnedBytes old
      · simp only [owned, if_true, reduceCtorEq, Option.some.injEq, Node.file.injEq, false_iff]
        rintro ⟨_, ⟨-, rfl⟩, foreign⟩
        simp [owned] at foreign
      · simp only [owned, Bool.false_eq_true, if_false, Option.some.injEq, Node.file.injEq]
        exact ⟨fun same => ⟨mode, ⟨rfl, same⟩, same ▸ by simpa using owned⟩, fun ⟨_, same, _⟩ => same.2⟩
    | _ => simp

/-- Before a script takes the place of a foreign file that file is copied. -/
theorem backUp_foreign {middle placed : World} {backup : Option Path} {bytes : Bytes}
    (plain : world.Plain) (direct : ['.', '.'] ∉ directory.parts)
    (resolved : installer.installDir world = .ok directory)
    (backed : installer.backUpBarring trouble (directory.child scriptName) world = (.ok backup, middle))
    (written : writeScript (directory.child scriptName) script middle = (.ok (), placed))
    (foreign : foreign? directory world = some bytes) :
    backup = some (directory.child backupName) ∧
      ∃ mode, middle.at? (world.spot (directory.child backupName)) = some (.file mode bytes) := by
  obtain ⟨mode, standing, unowned⟩ := foreign?_eq_some.mp foreign
  cases backup with
  | some backup =>
    obtain ⟨_, _, copyMode, rfl, stood, -, copied⟩ := backUp_copied plain resolved backed
    rw [standing] at stood
    cases stood
    exact ⟨rfl, copyMode, copied⟩
  | none =>
    -- The script's path leads to the file, so that the file was seen and not taken for ours.
    have first := backUp_places plain resolved backed
    have placing := (writeScript_cases first.plain written).2 rfl
    obtain ⟨present, seen⟩ := backUp_seen backed
    obtain ⟨reachesDirectory, -⟩ := placing.evolves.plain.isDirectory_iff.mp placing.standing
    have short := World.short_of_leadsTo (hasNul_child reachesDirectory.clean (by decide)) seen
    have reaches := plain.reaches_before (placing_evolves plain resolved backed written)
      scriptName_isName direct (placing.installed short).reaches (by simp [standing])
    have located : world.locate .target (directory.child scriptName) =
        .ok (.taken (world.spot (directory.child scriptName)) (.file mode bytes)) :=
      (plain.locate_taken_iff (by simp)).mpr ⟨reaches, rfl, standing⟩
    rcases backUpBarring_cases resolved backed with ⟨-, quiet⟩ | ⟨_, _, -, never, -⟩ | ⟨_, _, -, never, -⟩
    · rcases (quiet none rfl).2 with absent | owned
      · rw [World.exists?, World.leadsTo, located] at absent
        cases absent
      · rw [World.isOwned, World.readBytes_of_located located] at owned
        have same := Except.ok.inj owned
        rw [unowned] at same
        cases same
    · cases never
    · cases never

/-- Configuring the startup file leaves the script and its backup as they are. -/
theorem configure_place {placed after : World} {answer : Except Fault (Option (List Text))}
    {location : Location} (plain : placed.Plain) (place : ScriptPlace placed directory location)
    (configured : installer.configure placed = (answer, after)) :
    after.at? location = placed.at? location :=
  (configure_evolves plain configured).same (by simp) place.apart

/-- Once a script has its place, the backup holds the foreign file that was there, or is what
it was. -/
theorem put_backup {middle placed : World} {backup : Option Path} (plain : world.Plain)
    (direct : ['.', '.'] ∉ directory.parts)
    (resolved : installer.installDir world = .ok directory)
    (backed : installer.backUpBarring trouble (directory.child scriptName) world = (.ok backup, middle))
    (written : writeScript (directory.child scriptName) script middle = (.ok (), placed)) :
    Shelved (foreign? directory world) (world.spot (directory.child backupName)) world placed := by
  have first := backUp_evolves plain resolved backed
  have second := (writeScript_cases first.plain written).1
  have differ := backup_ne_script world directory
  rw [first.spot] at second
  cases foreign : foreign? directory world with
  | some bytes =>
    obtain ⟨-, mode, copied⟩ := backUp_foreign plain direct resolved backed written foreign
    exact ⟨mode, second.untouched copied differ⟩
  | none =>
    rcases backUpBarring_cases resolved backed with ⟨rfl, -⟩ | ⟨_, _, -, copied, -⟩ | ⟨_, _, -, never, -⟩
    · exact second.same (fun along => along.ne_child backupName_isName direct rfl) differ
    · obtain rfl := Except.ok.inj copied
      obtain ⟨mode, bytes, -, -, standing, unowned, -⟩ := backUp_copied plain resolved backed
      rw [foreign?_eq_some.mpr ⟨mode, standing, unowned⟩] at foreign
      cases foreign
    · cases never

/-- A file that is seen not to be ours is the foreign one in the script's place. -/
theorem foreign?_of_isOwned (plain : world.Plain) (unowned : world.isOwned (directory.child scriptName) = .ok false) :
    ∃ bytes, world.readBytes (directory.child scriptName) = .ok bytes ∧ foreign? directory world = some bytes := by
  obtain ⟨location, mode, bytes, located, foreign⟩ := World.isOwned_ok unowned
  obtain ⟨-, rfl, standing⟩ := (plain.locate_taken_iff (by simp)).mp located
  exact ⟨bytes, World.readBytes_of_located located, foreign?_eq_some.mpr ⟨mode, standing, foreign⟩⟩

/-- A copy cut short leaves the part of the foreign file that it got to. -/
theorem cut?_eq_some {bytes : Bytes}
    (cut : (Deed.install installer script trouble).cut? directory world = some bytes) :
    ∃ count fault after, trouble = some (count, fault) ∧
      world.isOwned (directory.child scriptName) = .ok false ∧
      world.copyPart (·.take count) (directory.child scriptName) (directory.child backupName) = .ok after ∧
      (foreign? directory world).map (·.take count) = some bytes := by
  cases trouble with
  | none => cases cut
  | some part =>
    obtain ⟨count, fault⟩ := part
    simp only [Deed.cut?] at cut
    split at cut
    · rename_i after unowned copied
      exact ⟨count, fault, after, rfl, unowned, copied, cut⟩
    · cases cut

theorem backUpBarring_cut {count : Nat} {fault : Fault} {after : World}
    (resolved : installer.installDir world = .ok directory)
    (unowned : world.isOwned (directory.child scriptName) = .ok false)
    (copied : world.copyPart (·.take count) (directory.child scriptName) (directory.child backupName) = .ok after) :
    installer.backUpBarring (some (count, fault)) (directory.child scriptName) world = (.error fault, after) := by
  obtain ⟨location, mode, bytes, located, -⟩ := World.isOwned_ok unowned
  have present : world.exists? (directory.child scriptName) = .ok true :=
    World.leadsTo_eq_true_iff.mpr ⟨_, _, located, rfl⟩
  rw [backUpBarring, Disk.run_look_bind present]
  simp only [if_true]
  rw [Disk.run_look_bind unowned]
  simp only [Bool.false_eq_true, if_false]
  rw [Disk.run_look_bind (backupPath_eq resolved), Disk.run_bind, Disk.copyBarring, Disk.run_bind, Disk.run_change,
    copied]
  rfl

/-- An installation that put its script did not have its copy cut short. -/
theorem cut?_of_puts (resolved : installer.installDir world = .ok directory)
    (put : installer.puts directory script trouble world = true) :
    (Deed.install installer script trouble).cut? directory world = none := by
  obtain ⟨backup, middle, placed, backed, -⟩ := puts_iff.mp put
  cases cut : (Deed.install installer script trouble).cut? directory world with
  | none => rfl
  | some bytes =>
    obtain ⟨count, fault, after, rfl, unowned, copied, -⟩ := cut?_eq_some cut
    rw [backUpBarring_cut resolved unowned copied] at backed
    cases backed

/-- An installation that put its script did so after the copy, and before it turned to the
startup file. -/
theorem install_put (plain : world.Plain) (direct : ['.', '.'] ∉ directory.parts)
    (resolved : installer.installDir world = .ok directory)
    (put : installer.puts directory script trouble world = true) :
    InstallKeeps installer directory script trouble world (installer.installBarring trouble script world).1
      (installer.installBarring trouble script world).2 := by
  obtain ⟨backup, middle, placed, backed, written⟩ := puts_iff.mp put
  have run := install_placed (scriptPath_eq resolved) backed written
  have changes := install_evolves plain resolved (Prod.eta (installer.installBarring trouble script world)).symm
  have first := backUp_evolves plain resolved backed
  have placing := placing_evolves plain resolved backed written
  have shelved := put_backup plain direct resolved backed written
  have displaced : (Deed.install installer script trouble).displaced? directory world =
      foreign? directory world := if_pos put
  have kept : (Deed.install installer script trouble).shelved? directory world = foreign? directory world := by
    rw [Deed.shelved?, displaced, cut?_of_puts resolved put, Option.or_none]
  rw [run] at changes ⊢
  -- Configuring leaves both places of the script as they are, so that all is settled before it.
  cases configured : installer.configure placed with
  | mk answer after =>
    rw [configured] at changes
    refine ⟨fun location notPlace notStartup => changes.sameFile (by simp [notPlace, notStartup]),
      fun _ => ?_, fun unput => ?_, ?_, fun bytes foreign outcome reported => ?_,
      fun _ home cleanCwd => ?_⟩
    · obtain ⟨mode, standing, -⟩ := ((writeScript_cases first.plain written).2 rfl).script
      rw [first.spot] at standing
      have place : ScriptPlace placed directory (world.spot (directory.child scriptName)) :=
        Or.inl (placing.spot _).symm
      exact ⟨mode, (configure_place placing.plain place configured).trans standing⟩
    · rw [put] at unput
      cases unput
    · have place : ScriptPlace placed directory (world.spot (directory.child backupName)) :=
        Or.inr (placing.spot _).symm
      have still : Shelved none (world.spot (directory.child backupName)) placed after :=
        configure_place placing.plain place configured
      rw [kept]
      exact shelved.trans still
    · rw [displaced] at foreign
      obtain ⟨rfl, -⟩ := backUp_foreign plain direct resolved backed written foreign
      exact report_backup reported
    · have resolvedPlaced := installDir_evolves plain home resolved placing ScriptPlace.ne_framework
      have answers := configure_answers placing.plain resolvedPlaced (placing.cwd ▸ cleanCwd)
      rw [configured] at answers
      rw [report_answers, answers, configure_seen placing.plain configured]

/-- An installation whose copy is cut short leaves that copy and changes nothing else. -/
theorem install_cut {bytes : Bytes} (plain : world.Plain) (resolved : installer.installDir world = .ok directory)
    (cut : (Deed.install installer script trouble).cut? directory world = some bytes) :
    Evolves (fun _ => False) (· = world.spot (directory.child backupName)) world
        (installer.installBarring trouble script world).2 ∧
      ∃ mode, (installer.installBarring trouble script world).2.at? (world.spot (directory.child backupName)) =
        some (.file mode bytes) := by
  obtain ⟨count, fault, after, rfl, unowned, copied, part⟩ := cut?_eq_some cut
  obtain ⟨old, read, foreign⟩ := foreign?_of_isOwned plain unowned
  rw [foreign] at part
  cases part
  have backed : installer.backUpBarring (some (count, fault)) (directory.child scriptName) world = _ :=
    backUpBarring_cut resolved unowned copied
  have ended : (installer.installBarring (some (count, fault)) script world).2 = after := by
    rw [installBarring_eq _ script (scriptPath_eq resolved), backed]
    exact (notInstalled_cases (Prod.eta (notInstalled none fault after)).symm).1
  rw [ended]
  obtain ⟨again, readAgain, written⟩ := copyPart_ok copied
  rw [read] at readAgain
  cases readAgain
  exact ⟨writeFile_evolves plain written, plain.writeFile_holds written⟩

/-- Any other installation that put no script anywhere made directories at most. -/
theorem install_unput {after : World} {result : Except Fault InstallOutcome} (plain : world.Plain)
    (resolved : installer.installDir world = .ok directory)
    (whole : (Deed.install installer script trouble).Whole directory world)
    (unput : installer.puts directory script trouble world = false)
    (uncut : (Deed.install installer script trouble).cut? directory world = none)
    (run : installer.installBarring trouble script world = (result, after)) :
    Evolves (Along world directory.anchor directory.parts) (fun _ => False) world after := by
  rcases installBarring_cases (scriptPath_eq resolved) run with
    ⟨-, ⟨fault, backed⟩ | ⟨backup, middle, fault, backed, written⟩⟩ |
      ⟨backup, middle, placed, backed, written, -, -⟩
  · rcases backUpBarring_cases resolved backed with
      ⟨rfl, -⟩ | ⟨_, _, -, never, -⟩ | ⟨count, other, rfl, -, unowned, copied⟩
    · exact .refl plain
    · cases never
    · obtain ⟨old, -, foreign⟩ := foreign?_of_isOwned plain unowned
      simp only [Deed.cut?, unowned, copied, foreign] at uncut
      cases uncut
  · rcases backUpBarring_cases resolved backed with ⟨rfl, -⟩ | ⟨_, _, -, copied, -⟩ | ⟨_, _, -, never, -⟩
    · exact writeScript_refused plain written
    · rw [copied] at backed
      have done := whole _ _ backed
      rw [written] at done
      cases done
    · cases never
  · rw [puts_iff.mpr ⟨backup, middle, placed, backed, written⟩] at unput
    cases unput

theorem install_keeps (plain : world.Plain) (direct : ['.', '.'] ∉ directory.parts)
    (resolved : installer.installDir world = .ok directory)
    (whole : (Deed.install installer script trouble).Whole directory world) :
    InstallKeeps installer directory script trouble world (installer.installBarring trouble script world).1
      (installer.installBarring trouble script world).2 := by
  cases put : installer.puts directory script trouble world with
  | true => exact install_put plain direct resolved put
  | false =>
    have nothing : (Deed.install installer script trouble).displaced? directory world = none := by
      rw [Deed.displaced?, put]
      rfl
    have left : (Deed.install installer script trouble).shelved? directory world =
        (Deed.install installer script trouble).cut? directory world := by
      rw [Deed.shelved?, nothing, Option.none_or]
    cases cut : (Deed.install installer script trouble).cut? directory world with
    | some bytes =>
      obtain ⟨evolves, held⟩ := install_cut plain resolved cut
      have place : ScriptPlace world directory (world.spot (directory.child backupName)) := Or.inr rfl
      refine ⟨fun location apart _ => evolves.sameFile fun here => apart (here ▸ place), by simp [put],
        fun _ => evolves.same (by simp) (backup_ne_script world directory).symm, ?_, by simp [nothing], by simp [put]⟩
      rw [left, cut]
      exact held
    | none =>
      have evolves := install_unput plain resolved whole put cut
        (Prod.eta (installer.installBarring trouble script world)).symm
      have still {name : Text} (proper : IsName name) :
          (installer.installBarring trouble script world).2.at? (world.spot (directory.child name)) =
            world.at? (world.spot (directory.child name)) :=
        evolves.same (fun along => along.ne_child proper direct rfl) (by simp)
      refine ⟨fun location _ _ => evolves.sameFile (by simp), by simp [put],
        fun _ => still scriptName_isName, ?_, by simp [nothing], by simp [put]⟩
      rw [left, cut]
      exact still backupName_isName

end Install

theorem uninstall_keeps {installer : Installer} {directory : Path} {world : World}
    (plain : world.Plain) (resolved : installer.installDir world = .ok directory) :
    UninstallKeeps installer directory world (installer.uninstall world).2 := by
  obtain ⟨evolves, script⟩ := uninstall_changes plain resolved
  have place : ScriptPlace world directory (world.spot (directory.child backupName)) := Or.inr rfl
  refine ⟨fun location notScript notStartup => evolves.sameFile (by simp [notScript, notStartup]),
    evolves.same (by simp) ?_, script⟩
  rintro (same | same)
  · exact backup_ne_script world directory same
  · exact place.apart same

namespace Deed

/-- What a deed leaves of the files around the script. -/
def Keeps (directory : Path) : Deed → World → World → Prop
  | install installer script trouble, before, after =>
    InstallKeeps installer directory script trouble before (installer.installBarring trouble script before).1 after
  | uninstall installer, before, after => UninstallKeeps installer directory before after
  | overwrite, before, after =>
    after.at? (before.spot (directory.child backupName)) =
      before.at? (before.spot (directory.child backupName))

variable {directory : Path} {deed : Deed} {before after : World}

/-- A write by the script's path is one of the other means. -/
theorem overwrite_of_writeFile {bytes : Bytes} (plain : before.Plain)
    (written : before.writeFile (directory.child scriptName) bytes = .ok after) :
    overwrite.Takes directory before after :=
  (writeFile_evolves plain written).mono (by simp) (fun _ same => same)

theorem Takes.plain (takes : deed.Takes directory before after) (plain : before.Plain) :
    after.Plain ∧ after.cwd = before.cwd := by
  cases deed with
  | install installer script trouble =>
    obtain ⟨resolved, rfl⟩ := takes
    have evolves := install_evolves plain (scriptPath_iff.mp resolved)
      (Prod.eta (installer.installBarring trouble script before)).symm
    exact ⟨evolves.plain, evolves.cwd⟩
  | uninstall installer =>
    obtain ⟨resolved, rfl⟩ := takes
    have evolves := (uninstall_changes plain (scriptPath_iff.mp resolved)).1
    exact ⟨evolves.plain, evolves.cwd⟩
  | overwrite => exact ⟨World.Evolves.plain takes, World.Evolves.cwd takes⟩

theorem Takes.keeps (takes : deed.Takes directory before after) (plain : before.Plain)
    (direct : ['.', '.'] ∉ directory.parts) (whole : deed.Whole directory before) :
    deed.Keeps directory before after := by
  cases deed with
  | install installer script trouble =>
    obtain ⟨resolved, rfl⟩ := takes
    exact install_keeps plain direct (scriptPath_iff.mp resolved) whole
  | uninstall installer =>
    obtain ⟨resolved, rfl⟩ := takes
    exact uninstall_keeps plain (scriptPath_iff.mp resolved)
  | overwrite =>
    exact World.Evolves.same takes (fun along => along.ne_child backupName_isName direct rfl)
      (backup_ne_script before directory)

/-- The place of the backup gets the bytes that a deed displaces, or those of a copy cut short, and
changes by nothing else. -/
theorem Keeps.backup (keeps : deed.Keeps directory before after) :
    Shelved (deed.shelved? directory before) (before.spot (directory.child backupName))
      before after := by
  cases deed with
  | install installer script trouble => exact InstallKeeps.backup keeps
  | uninstall installer => exact UninstallKeeps.backup keeps
  | overwrite => exact keeps

end Deed

theorem lastShelved?_cons {directory : Path} (deed : Deed) (before : World)
    (history : List (Deed × World)) :
    lastShelved? directory ((deed, before) :: history) =
      (deed.shelved? directory before).or (lastShelved? directory history) := by
  rw [lastShelved?, List.findSome?_cons]
  cases shelved : deed.shelved? directory before <;> simp [shelved, lastShelved?]

/-- Where no copy was cut short the backup was last given what was last displaced. -/
theorem lastShelved?_uncut {directory : Path} {history : List (Deed × World)}
    (uncut : ∀ taken ∈ history, taken.1.cut? directory taken.2 = none) :
    lastShelved? directory history = lastDisplaced? directory history := by
  induction history with
  | nil => rfl
  | cons taken rest ih =>
    obtain ⟨deed, before⟩ := taken
    have here : deed.cut? directory before = none := uncut _ List.mem_cons_self
    have later := ih fun other member => uncut other (List.mem_cons_of_mem _ member)
    rw [lastShelved?_cons, later, Deed.shelved?, here, Option.or_none, lastDisplaced?, lastDisplaced?,
      List.findSome?_cons]
    cases displaced : deed.displaced? directory before <;> simp [displaced]

/-- A foreign file in the home directory gives way to a script after a copy was made of it. -/
theorem homeScript_puts (environment : Environment) (automatic : Bool) (script : Text)
    {bytes : Bytes} (foreign : isOwnedBytes bytes = false) :
    (homeInstaller environment automatic).puts ⟨.root, ["home".toList]⟩ script none
      (homeScript bytes) = true := by
  have resolved := homeInstaller_installDir environment automatic (homeScript bytes)
  have present : (homeScript bytes).exists? (Path.child ⟨.root, ["home".toList]⟩ scriptName) =
      .ok true := World.leadsTo_eq_true_iff.mpr ⟨_, _, homeScript_located bytes, rfl⟩
  have unowned : (homeScript bytes).isOwned (Path.child ⟨.root, ["home".toList]⟩ scriptName) =
      .ok false := by
    rw [World.isOwned, World.readBytes_of_located (homeScript_located bytes)]
    exact congrArg Except.ok foreign
  obtain ⟨notes, backed⟩ := backUp_copies resolved present unowned (homeScript_copied bytes)
  obtain ⟨placed, written⟩ := homeScript_written script
    (backUp_evolves (homeScript_evolves bytes).plain resolved backed)
  exact puts_iff.mpr ⟨_, _, _, backed, written⟩

theorem homeScript_displaced (environment : Environment) (automatic : Bool) (script : Text)
    {bytes : Bytes} (foreign : isOwnedBytes bytes = false) :
    (Deed.install (homeInstaller environment automatic) script none).displaced?
      ⟨.root, ["home".toList]⟩ (homeScript bytes) = some bytes := by
  rw [Deed.displaced?, if_pos (homeScript_puts environment automatic script foreign)]
  exact foreign?_eq_some.mpr ⟨0o600, World.bareHome.at?_set_self (by simp) _, foreign⟩

end TabCompletion.Installer
