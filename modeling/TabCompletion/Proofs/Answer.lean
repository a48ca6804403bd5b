import TabCompletion.Proofs.Installed

namespace TabCompletion

open World (Plain Evolves Reaches)

/-- No name has the character that no path can have. -/
def NulFree (location : Location) : Prop :=
  ∀ name ∈ location, '\x00' ∉ name

theorem NulFree.hasNul {location : Location} (clean : NulFree location) :
    location.toPath.hasNul = false := by
  simpa [Path.hasNul, Location.toPath, NulFree] using clean

theorem NulFree.of_path {path : Path} (clean : path.hasNul = false) : NulFree path.parts := by
  simpa [Path.hasNul, NulFree] using clean

theorem NulFree.dropLast {location : Location} (clean : NulFree location) :
    NulFree location.dropLast :=
  fun name member => clean name (List.dropLast_subset location member)

theorem NulFree.concat {location : Location} (clean : NulFree location) {name : Text}
    (cleanName : '\x00' ∉ name) : NulFree (location ++ [name]) := by
  intro other member
  rcases List.mem_append.mp member with old | new
  · exact clean other old
  · rwa [List.mem_singleton.mp new]

theorem NulFree.lexical {here : Location} (clean : NulFree here) {names : List Text}
    (cleanNames : NulFree names) : NulFree (FileSystem.lexical here names) := by
  induction names generalizing here with
  | nil => exact clean
  | cons name rest ih =>
    rw [FileSystem.lexical_cons]
    refine ih ?_ (fun other member => cleanNames other (List.mem_cons_of_mem name member))
    rcases FileSystem.stepTo_cases here name with ⟨same, -⟩ | ⟨same, -⟩ | ⟨same, -⟩ <;> rw [same]
    · exact clean
    · exact clean.dropLast
    · exact clean.concat (cleanNames name List.mem_cons_self)

theorem NulFree.spot {world : World} (clean : NulFree world.cwd) {path : Path}
    (cleanPath : path.hasNul = false) : NulFree (world.spot path) := by
  refine NulFree.lexical ?_ (NulFree.of_path cleanPath)
  split
  · exact fun _ member => by cases member
  · exact clean

theorem Draw.nulFree (draw : Draw) : '\x00' ∉ draw.text := fun member =>
  absurd (draw.letters _ member) (by decide)

theorem NulFree.beside {location : Location} (clean : NulFree location) (draw : Draw) :
    NulFree (location.beside draw) := by
  have cleanName : '\x00' ∉ location.toPath.name := by
    rcases List.eq_nil_or_concat location with rfl | ⟨names, name, rfl⟩
    · simp [Path.name, Location.toPath]
    · simpa [Path.name, Location.toPath] using clean name (by simp)
  refine clean.dropLast.concat ?_
  simpa using ⟨cleanName, draw.nulFree⟩

/-- A path cannot be looked up: it or a name in it is too long, or it leads through a directory that
may not be searched. -/
def Fault.Hides (fault : Fault) (path : Path) : Prop :=
  fault = .refused .nameTooLong path ∨ fault = .refused .denied path

namespace World

theorem locate_error {world : World} {ending : FileSystem.Ending} {path : Path} {fault : Fault}
    (failed : world.locate ending path = .error fault) :
    fault = .nulCharacter ∨ ∃ refusal, fault = .refused refusal path := by
  unfold World.locate at failed
  split at failed
  · exact Or.inl (Except.error.inj failed).symm
  · split at failed
    · cases failed
    · exact Or.inr ⟨_, (Except.error.inj failed).symm⟩

theorem leadsTo_refused {world : World} {test : Node → Bool} {path : Path} {fault : Fault}
    (failed : world.leadsTo test path = .error fault) : fault.Hides path := by
  cases located : world.locate .target path with
  | ok place => cases place <;> simp only [World.leadsTo, located, reduceCtorEq] at failed
  | error other =>
    rcases locate_error located with rfl | ⟨refusal, rfl⟩
    · simp only [World.leadsTo, located, reduceCtorEq] at failed
    · have way : refusal = .noEntry ∨ refusal = .notDirectory ∨ refusal = .linkLoop ∨
          refusal = .nameTooLong ∨ refusal = .denied := by
        unfold World.locate FileSystem.locate at located
        split at located
        · cases located
        · split at located <;> cases located
          rename_i refused
          split at refused
          · exact Or.inr (Or.inr (Or.inr (Or.inl (Except.error.inj refused).symm)))
          · exact FileSystem.walk_target_error refused
      rcases way with rfl | rfl | rfl | rfl | rfl <;>
        simp only [World.leadsTo, located, reduceCtorEq, Except.error.injEq] at failed
      · exact Or.inl failed.symm
      · exact Or.inr failed.symm

theorem leadsTo_isSystem {world : World} {test : Node → Bool} {path : Path} {fault : Fault}
    (failed : world.leadsTo test path = .error fault) : fault.isSystem = true := by
  rcases leadsTo_refused failed with rfl | rfl <;> rfl

theorem fault?_isSystem {location : Location} {fault : Fault} (clean : NulFree location)
    (refused : location.fault? = some fault) : fault.isSystem = true := by
  rcases Location.fault?_cases refused with rfl | rfl
  · have nul := Location.hasNul_of_fault refused
    rw [clean.hasNul] at nul
    cases nul
  · rfl

theorem beside_isSystem {world : World} {location : Location} {fault : Fault}
    (clean : NulFree location) (refused : world.beside location = .error fault) :
    fault.isSystem = true := by
  unfold World.beside at refused
  generalize world.draws = draws at refused
  induction draws with
  | nil =>
    cases refused
    rfl
  | cons draw more ih =>
    rw [besideFrom] at refused
    split at refused
    · rename_i unfit
      cases refused
      exact fault?_isSystem (clean.beside draw) unfit
    · split at refused
      · exact ih refused
      · cases refused

/-- Where no name has the forbidden character, it is the system that keeps a file from being
replaced. -/
theorem replaceFault?_isSystem {world : World} {location : Location} {fault : Fault}
    (clean : NulFree location) (refused : world.replaceFault? location = some fault) :
    fault.isSystem = true := by
  unfold World.replaceFault? at refused
  rw [clean.hasNul, if_neg (by simp)] at refused
  simp only [Option.or_eq_some_iff] at refused
  rcases refused with above | ⟨-, here | ⟨-, rest⟩⟩
  · exact fault?_isSystem clean.dropLast above
  · exact fault?_isSystem clean here
  · split at rest
    · rename_i unnamed
      cases rest
      exact beside_isSystem clean unnamed
    · split at rest <;> cases rest
      rfl

end World

namespace Installer

theorem report_answers {target : Path} {backup : Option Path}
    {configured : Except Fault (Option (List Text))} :
    (∃ outcome, report target backup configured = .ok outcome) ↔
      ∀ fault, configured = .error fault → ∃ failure, fault = .failure failure := by
  cases configured with
  | ok instructions => simp [report]
  | error fault => cases fault <;> simp [report]

theorem report_backup {target : Path} {backup : Option Path} {outcome : InstallOutcome}
    {configured : Except Fault (Option (List Text))}
    (reported : report target backup configured = .ok outcome) :
    outcome.backupPath = backup.map Path.text := by
  cases configured with
  | ok instructions =>
    cases reported
    rfl
  | error fault =>
    cases fault <;> cases reported
    rfl

/-- Whatever keeps an edit of the startup file from its end is told or tolerated. -/
theorem Edits.error {installer : Installer} {world after : World} {directory : Path}
    {location : Location} {mode : Nat} {bytes : Bytes} {fault : Fault} (clean : NulFree location)
    (edits : installer.Edits directory world location mode bytes (.error fault) after) :
    (fault.isSystem || fault.isUndecodable) = true ∨ ∃ failure, fault = .failure failure := by
  cases edits with
  | undecodable => exact Or.inl rfl
  | marked => exact Or.inr ⟨_, rfl⟩
  | refused _ _ _ refused =>
    rw [World.replaceFault?_isSystem clean refused]
    exact Or.inl rfl

/-- The startup file is configured, or left to the user with a word about it, unless it cannot
even be looked up. -/
theorem configure_answers {installer : Installer} {world : World} {directory : Path}
    (plain : world.Plain) (resolved : installer.installDir world = .ok directory)
    (cleanCwd : NulFree world.cwd) :
    (∀ fault, (installer.configure world).1 = .error fault → ∃ failure, fault = .failure failure) ↔
      (installer.settings.autoConfigure = false ∨
        ∃ regular, world.isFile installer.startupFile = .ok regular) := by
  cases run : installer.configure world with
  | mk result after =>
    cases configures_of_run plain resolved run with
    | off off => exact iff_of_true (by simp) (Or.inl off)
    | @unseen fault on unseen =>
      refine iff_of_false (fun told => ?_) (by simp [on, unseen])
      obtain ⟨failure, rfl⟩ := told fault rfl
      cases World.leadsTo_isSystem unseen
    | denied on located note =>
      exact iff_of_true (by simp) (Or.inr ⟨true, World.isFile_of_locked located⟩)
    | absent on absent note => exact iff_of_true (by simp) (Or.inr ⟨false, absent⟩)
    | edited on located edits =>
      exact iff_of_true (by simp) (Or.inr ⟨true, World.isFile_of_located located⟩)
    | tolerated on located edits tolerated note =>
      exact iff_of_true (by simp) (Or.inr ⟨true, World.isFile_of_located located⟩)
    | thrown on located edits grave =>
      refine iff_of_true (fun fault same => ?_) (Or.inr ⟨true, World.isFile_of_located located⟩)
      obtain ⟨reaches, rfl, -⟩ := (plain.locate_taken_iff (by simp)).mp located
      cases same
      exact (edits.error (cleanCwd.spot reaches.clean)).resolve_left grave

/-- Whether the startup file can be looked up is not changed by configuring it. -/
theorem configure_seen {installer : Installer} {world after : World}
    {result : Except Fault (Option (List Text))} (plain : world.Plain)
    (run : installer.configure world = (result, after)) :
    (∃ regular, after.isFile installer.startupFile = .ok regular) ↔
      ∃ regular, world.isFile installer.startupFile = .ok regular := by
  rcases configure_cases plain run with
    ⟨notes, rfl⟩ | ⟨-, _, location, mode, _, _, -, ⟨bytes, located, -⟩, -, -, -, rfl⟩
  · exact Iff.rfl
  · have edited := plain.located_set located
    exact iff_of_true ⟨true, World.isFile_of_located (edited _ _)⟩
      ⟨true, World.isFile_of_located located⟩

end Installer

end TabCompletion
