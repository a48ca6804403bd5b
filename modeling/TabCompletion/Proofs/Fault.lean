import TabCompletion.Proofs.Answer
import TabCompletion.Proofs.Except

namespace TabCompletion

namespace Fault

/-- Whether a path cannot be followed to its end: its links lead back to themselves, it has the
character that no path can have, or too many directories are missing in a row. -/
def isWayward : Fault → Bool
  | linkCycle _ | nulCharacter | nestedDirectories => true
  | _ => false

/-- What a way through the files comes to, whatever texts they have. -/
def OnDisk (fault : Fault) : Prop :=
  fault.isSystem = true ∨ fault.isWayward = true

/-- What an operation on a path may come to: the system refuses, or the path cannot be one. -/
def OfPath (path : Path) (fault : Fault) : Prop :=
  fault.isSystem = true ∨ fault = .nulCharacter ∧ path.hasNul = true

theorem OfPath.onDisk {path : Path} {fault : Fault} (ofPath : fault.OfPath path) :
    fault.OnDisk := by
  rcases ofPath with system | ⟨rfl, -⟩
  · exact Or.inl system
  · exact Or.inr rfl

theorem OfPath.isSystem {path : Path} {fault : Fault} (ofPath : fault.OfPath path)
    (clean : path.hasNul = false) : fault.isSystem = true := by
  rcases ofPath with system | ⟨-, nul⟩
  · exact system
  · rw [clean] at nul
    cases nul

end Fault

namespace World

variable {world : World} {path : Path} {fault : Fault}

theorem locate_ofPath {ending : FileSystem.Ending} (failed : world.locate ending path = .error fault) :
    fault.OfPath path := by
  unfold World.locate at failed
  split at failed
  · rename_i nul
    cases failed
    exact Or.inr ⟨rfl, nul⟩
  · split at failed <;> cases failed
    exact Or.inl rfl

/-- What looks a path up first fails in that, or by what it finds there. -/
theorem ofPath_of_bind {α : Type} {ending : FileSystem.Ending} {next : Place → Except Fault α}
    (failed : (world.locate ending path >>= next) = .error fault)
    (refused : ∀ place, next place = .error fault → fault.isSystem = true) : fault.OfPath path := by
  rcases error_of_bind failed with located | ⟨place, -, failed⟩
  · exact locate_ofPath located
  · exact Or.inl (refused place failed)

theorem readBytes_ofPath (failed : world.readBytes path = .error fault) : fault.OfPath path := by
  refine ofPath_of_bind failed fun place failed => ?_
  cases place with
  | free directory name =>
    cases failed
    rfl
  | taken location node => cases node <;> cases failed <;> rfl

theorem readText_error (failed : world.readText path = .error fault) :
    fault.OfPath path ∨ fault.isUndecodable = true := by
  rcases error_of_bind failed with unread | ⟨bytes, -, failed⟩
  · exact Or.inl (readBytes_ofPath unread)
  · split at failed
    · cases failed
    · cases failed
      exact Or.inr rfl

theorem makeDirectory_ofPath (failed : world.makeDirectory path = .error fault) :
    fault.OfPath path := by
  refine ofPath_of_bind failed fun place failed => ?_
  cases place <;> cases failed
  rfl

theorem writeFile_ofPath {bytes : Bytes} (failed : world.writeFile path bytes = .error fault) :
    fault.OfPath path := by
  refine ofPath_of_bind failed fun place failed => ?_
  cases place with
  | free directory name => cases failed
  | taken location node => cases node <;> cases failed <;> rfl

theorem removeFile_ofPath (failed : world.removeFile path = .error fault) : fault.OfPath path := by
  refine ofPath_of_bind failed fun place failed => ?_
  cases place with
  | free directory name =>
    cases failed
    rfl
  | taken location node => cases node <;> cases failed <;> rfl

theorem copyFile_error {source target : Path} (failed : world.copyFile source target = .error fault) :
    fault.OfPath source ∨ fault.OfPath target := by
  unfold World.copyFile World.copyPart at failed
  cases same : world.leadToSame source target with
  | true =>
    rw [same] at failed
    cases failed
    exact Or.inl (Or.inl rfl)
  | false =>
    simp only [same, Bool.false_eq_true, if_false] at failed
    rcases error_of_bind failed with unread | ⟨bytes, -, failed⟩
    · exact Or.inl (readBytes_ofPath unread)
    · split at failed
      · cases failed
        exact Or.inr (Or.inl rfl)
      · cases failed
        exact Or.inr (Or.inl rfl)
      · exact Or.inr (writeFile_ofPath failed)

theorem realPath_isWayward (failed : world.realPath path = .error fault) : fault.isWayward = true := by
  unfold World.realPath at failed
  split at failed
  · cases failed
    rfl
  · dsimp only at failed
    split at failed <;> cases failed <;> rfl

/-- The permission bits for a replacement are told wherever the file can be looked up. -/
theorem replacementMode_isSystem (failed : world.replacementMode path = .error fault) :
    fault.isSystem = true := by
  rcases error_of_bind failed with unseen | ⟨present, -, failed⟩
  · exact leadsTo_isSystem unseen
  · split at failed <;> cases failed

theorem temporary_ofPath (failed : world.temporary path = .error fault) :
    fault.isSystem = true ∨ ∃ draw, fault.OfPath (path.beside draw) := by
  unfold temporary at failed
  generalize world.draws = draws at failed
  induction draws with
  | nil =>
    cases failed
    exact Or.inl rfl
  | cons draw more ih =>
    rcases error_of_bind failed with refused | ⟨place, -, failed⟩
    · exact Or.inr ⟨draw, locate_ofPath refused⟩
    · cases place with
      | taken location node => exact ih failed
      | free directory name => cases failed

theorem renameSpot_error {source : Path} (failed : world.renameSpot source path = .error fault) :
    fault.OfPath path := by
  unfold World.renameSpot at failed
  split at failed
  · cases failed
    exact Or.inl rfl
  · cases failed
    exact Or.inl rfl
  · cases failed
    exact Or.inl rfl
  · cases failed
  · cases failed
  · cases failed
    exact Or.inl rfl
  · rename_i located
    cases failed
    exact locate_ofPath located

theorem replaceFile_error {bytes : Bytes} (failed : world.replaceFile path bytes = .error fault) :
    fault.OfPath path ∨ ∃ draw, fault.OfPath (path.beside draw) := by
  rcases error_of_bind failed with moded | ⟨mode, -, failed⟩
  · exact Or.inl (Or.inl (replacementMode_isSystem moded))
  rcases error_of_bind failed with unnamed | ⟨temporary, -, failed⟩
  · exact (temporary_ofPath unnamed).imp Or.inl id
  rcases error_of_bind failed with refused | ⟨spot, -, failed⟩
  · exact Or.inl (renameSpot_error refused)
  · cases failed

end World

namespace Disk

variable {α β : Type} {kind other : Fault → Prop}

/-- Whatever keeps an action from its end in a world is of one kind. -/
def FailsAt (world : World) (kind : Fault → Prop) (action : Disk α) : Prop :=
  ∀ fault after, action world = (.error fault, after) → kind fault

namespace FailsAt

variable {world : World}

theorem mono {action : Disk α} (fails : FailsAt world kind action)
    (wider : ∀ fault, kind fault → other fault) : FailsAt world other action :=
  fun fault after run => wider fault (fails fault after run)

theorem pure (value : α) : FailsAt world kind (Pure.pure value : Disk α) :=
  fun _ _ run => by cases run

theorem throw {fault : Fault} (holds : kind fault) : FailsAt world kind (throw fault : Disk α) :=
  fun _ _ run => by
    cases run
    exact holds

theorem change {step : World → Except Fault World}
    (fails : ∀ fault, step world = .error fault → kind fault) : FailsAt world kind (change step) := by
  intro fault after run
  rw [run_change] at run
  cases stepped : step world with
  | ok next =>
    rw [stepped] at run
    cases run
  | error fault =>
    rw [stepped] at run
    cases run
    exact fails _ stepped

/-- A sequence fails as its first part does, or as the rest does in the world that is left. -/
theorem bind {action : Disk α} {next : α → Disk β} (first : FailsAt world kind action)
    (rest : ∀ value middle, action world = (.ok value, middle) → FailsAt middle kind (next value)) :
    FailsAt world kind (action >>= next) := by
  intro fault after run
  rw [run_bind] at run
  cases begun : action world with
  | mk result middle =>
    rw [begun] at run
    cases result with
    | ok value => exact rest value middle begun fault after run
    | error failed =>
      cases run
      exact first _ _ begun

/-- A look leaves the world for the rest to fail in. -/
theorem look {view : World → Except Fault α} {next : α → Disk β}
    (first : ∀ fault, view world = .error fault → kind fault)
    (rest : ∀ value, view world = .ok value → FailsAt world kind (next value)) :
    FailsAt world kind (look view >>= next) := by
  refine bind (fun fault after run => ?_) fun value middle run => ?_
  · rw [run_look, Prod.mk.injEq] at run
    exact first fault run.1
  · rw [run_look, Prod.mk.injEq] at run
    obtain ⟨seen, rfl⟩ := run
    exact rest value seen

theorem note {text : Text} {next : Unit → Disk β}
    (rest : ∀ middle, FailsAt middle kind (next ())) : FailsAt world kind (note text >>= next) :=
  bind (change fun _ failed => by cases failed) fun _ middle _ => rest middle

/-- What goes on from the fault of an action knows of what kind it is. -/
theorem attempt {action : Disk α} {next : Except Fault α → Disk β} (tried : FailsAt world other action)
    (done : ∀ value middle, action world = (.ok value, middle) →
      FailsAt middle kind (next (.ok value)))
    (failed : ∀ fault middle, action world = (.error fault, middle) → other fault →
      FailsAt middle kind (next (.error fault))) :
    FailsAt world kind (attempt action >>= next) := by
  intro fault after run
  rw [run_bind, run_attempt] at run
  cases begun : action world with
  | mk result middle =>
    rw [begun] at run
    cases result with
    | ok value => exact done value middle begun fault after run
    | error first => exact failed first middle begun (tried first middle begun) fault after run

theorem ofBlock {path : Path} {result : Except Text α} {next : α → Disk β}
    (holds : ∀ marker, kind (.failure (.missingMarker (some path) marker)))
    (rest : ∀ value, FailsAt world kind (next value)) :
    FailsAt world kind (ofBlock path result >>= next) := by
  cases result with
  | ok value => exact bind (pure value) fun _ _ run => by cases run; exact rest value
  | error marker => exact bind (throw (holds marker)) fun _ _ run => by cases run

end FailsAt

theorem keepDirectory_failsAt {path : Path} {fault : Fault} (world : World)
    (ofPath : fault.OfPath path) : FailsAt world (·.OfPath path) (keepDirectory path fault) := by
  unfold keepDirectory
  split
  · refine .look (fun failed refused => ?_) fun standing _ => ?_
    · exact Or.inl (World.leadsTo_isSystem refused)
    · cases standing with
      | true => exact .pure ()
      | false => exact .throw ofPath
  · exact .throw ofPath

theorem makeDirectory_failsAt (path : Path) (world : World) :
    FailsAt world (·.OfPath path) (makeDirectory path) :=
  .attempt (.change fun _ failed => World.makeDirectory_ofPath failed) (fun _ _ _ => .pure ())
    fun _ middle _ ofPath => keepDirectory_failsAt middle ofPath

theorem MakesUp.ofPath {anchor : Anchor} {world after : World} {missing : Nat} {names : List Text}
    {result : Except Fault Unit} (makes : MakesUp anchor world missing names result after) (fault : Fault)
    (failed : result = .error fault) :
    fault.OfPath ⟨anchor, names.reverse⟩ ∨ fault = .nestedDirectories := by
  induction makes with
  | root run => exact Or.inl (makeDirectory_failsAt _ world _ _ (failed ▸ run))
  | made _ => cases failed
  | kept refused _ run =>
    exact Or.inl (keepDirectory_failsAt world (World.makeDirectory_ofPath refused) _ _ (failed ▸ run))
  | givenUp _ => exact Or.inr (Except.error.inj failed).symm
  | stopped _ _ ih =>
    rcases ih failed with (system | ⟨nul, inside⟩) | nested
    · exact Or.inl (Or.inl system)
    · refine Or.inl (Or.inr ⟨nul, ?_⟩)
      simp only [Path.hasNul, List.any_reverse, List.any_cons] at inside ⊢
      rw [inside, Bool.or_true]
    · exact Or.inr nested
  | onward _ _ last _ => exact Or.inl (makeDirectory_failsAt _ _ _ _ (failed ▸ last))

theorem makeDirectories_failsAt (path : Path) (world : World) :
    FailsAt world (fun fault => fault.OfPath path ∨ fault = .nestedDirectories)
      (makeDirectories path) := by
  intro fault after run
  have fails := (makesUp_of_run run).ofPath fault rfl
  rwa [List.reverse_reverse] at fails

theorem makeDirectories_onDisk (path : Path) (world : World) :
    FailsAt world Fault.OnDisk (makeDirectories path) := by
  refine (makeDirectories_failsAt path world).mono fun fault fails => ?_
  rcases fails with ofPath | rfl
  · exact ofPath.onDisk
  · exact Or.inr rfl

theorem writeText_onDisk (path : Path) (text : Text) (world : World) :
    FailsAt world Fault.OnDisk (writeText path text) := by
  refine .look (fun _ failed => Or.inr (World.realPath_isWayward failed)) fun real _ =>
    .bind (makeDirectories_onDisk real.parent world) fun _ _ _ => .change fun _ failed => ?_
  rcases World.replaceFile_error failed with ofPath | ⟨draw, ofPath⟩
  · exact ofPath.onDisk
  · exact ofPath.onDisk

theorem makeDirectory_ne_nested {path : Path} {world after : World} :
    makeDirectory path world ≠ (.error .nestedDirectories, after) := by
  intro nested
  rcases makeDirectory_failsAt path world _ _ nested with system | ⟨nul, -⟩
  · cases system
  · cases nul

/-- So many names in a row, from the last one up, have no directory to be made in. -/
def Missing (anchor : Anchor) (world : World) (missing : Nat) (names : List Text) : Prop :=
  missing < names.length ∧ ∀ count ≤ missing, ∃ path,
    world.makeDirectory ⟨anchor, (names.drop count).reverse⟩ = .error (.refused .noEntry path)

theorem missing_succ_iff {anchor : Anchor} {world : World} {missing : Nat} {name : Text}
    {above : List Text} {path : Path}
    (absent : world.makeDirectory ⟨anchor, (name :: above).reverse⟩ = .error (.refused .noEntry path)) :
    Missing anchor world (missing + 1) (name :: above) ↔ Missing anchor world missing above := by
  rw [Missing, List.length_cons, Nat.add_lt_add_iff_right]
  refine and_congr_right fun _ => ⟨fun given count within =>
    given (count + 1) (Nat.add_le_add_right within 1), fun given count within => ?_⟩
  cases count with
  | zero => exact ⟨path, absent⟩
  | succ count => exact given count (Nat.le_of_add_le_add_right within)

/-- Making directories is given up when each of so many has no directory to be made in. -/
theorem MakesUp.nested_iff {anchor : Anchor} {world after : World} {missing : Nat} {names : List Text}
    {result : Except Fault Unit} (makes : MakesUp anchor world missing names result after) :
    result = .error .nestedDirectories ↔ Missing anchor world missing names := by
  -- Each name that has no directory to be made in costs one of those that may be missing.
  induction makes with
  | root run => exact iff_of_false (fun nested => makeDirectory_ne_nested (nested ▸ run)) (by simp [Missing])
  | made made =>
    refine iff_of_false (by simp) fun given => ?_
    obtain ⟨path, absent⟩ := given.2 0 (Nat.zero_le _)
    rw [List.drop_zero, made] at absent
    cases absent
  | kept refused present run =>
    refine iff_of_false (fun nested => ?_) fun given => ?_
    · rcases keepDirectory_failsAt world (World.makeDirectory_ofPath refused) _ _ (nested ▸ run) with
        system | ⟨nul, -⟩
      · cases system
      · cases nul
    · obtain ⟨path, absent⟩ := given.2 0 (Nat.zero_le _)
      rw [List.drop_zero, refused] at absent
      exact present path (Except.error.inj absent)
  | @givenUp name above path absent =>
    refine iff_of_true rfl ⟨by simp, fun count none => ?_⟩
    rw [Nat.le_zero.mp none]
    exact ⟨path, absent⟩
  | stopped absent _ ih => exact ih.trans (missing_succ_iff absent).symm
  | onward absent _ last ih =>
    refine iff_of_false (fun nested => makeDirectory_ne_nested (nested ▸ last)) fun given => ?_
    cases ih.mpr ((missing_succ_iff absent).mp given)

/-- So many directories in a row are missing, up from a path, that none of them is made. -/
def TooDeep (world : World) (path : Path) : Prop :=
  maxMissing < path.parts.length ∧ ∀ count ≤ maxMissing, ∃ other,
    world.makeDirectory ⟨path.anchor, path.parts.take (path.parts.length - count)⟩ =
      .error (.refused .noEntry other)

theorem makeDirectories_nested_iff {path : Path} {world : World} :
    (makeDirectories path world).1 = .error .nestedDirectories ↔ TooDeep world path := by
  have makes := makesUp_of_run (Prod.eta (makeUpFrom path.anchor maxMissing path.parts.reverse world)).symm
  rw [makeDirectories, makes.nested_iff, Missing, List.length_reverse]
  simp only [List.drop_reverse, List.reverse_reverse, TooDeep]

theorem makeDirectories_nul {path : Path} (nul : path.hasNul = true) (world : World) :
    makeDirectories path world = (.error .nulCharacter, world) := by
  have refused : world.makeDirectory path = .error .nulCharacter := by
    rw [World.makeDirectory, World.locate, nul]
    rfl
  rw [makeDirectories_refused refused (by simp), keepDirectory, if_neg (by decide),
    run_throw]

/-- Directories that could be made have a path that can be one and are not too deep. -/
theorem makeDirectories_fits {path : Path} {world : World}
    (made : (makeDirectories path world).1 = .ok ()) :
    path.hasNul = false ∧ ¬ TooDeep world path := by
  constructor
  · cases nul : path.hasNul with
    | false => rfl
    | true =>
      rw [makeDirectories_nul nul] at made
      cases made
  · rw [← makeDirectories_nested_iff, made]
    simp

end Disk

end TabCompletion
