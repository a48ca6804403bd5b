import TabCompletion.Proofs.DirectoryChain

namespace TabCompletion

namespace FileSystem

/-- No link stands at a location or anywhere above it. -/
def Unlinked (files : FileSystem) (location : Location) : Prop :=
  ∀ above, above <+: location → ∀ target, files.get? above ≠ some (.link target)

namespace Unlinked

variable {files : FileSystem} {location : Location}

theorem root (files : FileSystem) : Unlinked files [] := by
  intro above within target
  rw [List.prefix_nil.mp within, get?_nil]
  simp

theorem dropLast (unlinked : Unlinked files location) : Unlinked files location.dropLast :=
  fun above within => unlinked above (within.trans (List.dropLast_prefix location))

theorem concat (unlinked : Unlinked files location) {name : Text}
    (last : ∀ target, files.get? (location ++ [name]) ≠ some (.link target)) :
    Unlinked files (location ++ [name]) := by
  intro above within
  rcases List.prefix_concat_iff.mp within with rfl | earlier
  · exact last
  · exact unlinked above earlier

theorem linkStart (unlinked : Unlinked files location) (target : Text) :
    Unlinked files (linkStart location target) := by
  unfold FileSystem.linkStart
  split
  · exact root files
  · exact unlinked

end Unlinked

theorem Rooted.unlinked {files : FileSystem} (rooted : files.Rooted) {location : Location}
    (standing : files.get? location = some .directory) : Unlinked files location := by
  rintro above ⟨below, rfl⟩ target link
  rw [rooted.directory_above standing] at link
  cases link

/-- Names resolve to a location without any link on the way. -/
theorem Resolves.unlinked {files : FileSystem} {location there : Location} {names : List Text} {count : Nat}
    (resolves : Resolves files location names count there) (start : Unlinked files location) :
    Unlinked files there := by
  induction resolves with
  | here => exact start
  | @stay location name _ _ _ improper _ ih =>
    refine ih ?_
    rcases stepTo_cases location name with ⟨same, -⟩ | ⟨same, -⟩ | ⟨-, proper⟩
    · rwa [same]
    · rw [same]
      exact start.dropLast
    · exact absurd proper improper
  | down _ last _ ih => exact ih (start.concat last)
  | follow target _ _ _ _ ihFirst ihLater => exact ihLater (ihFirst (start.linkStart target))

/-- Names without a link among them lead down by themselves. -/
theorem Leads.of_unlinked {files : FileSystem} {location there : Location} {names : List Text} {count : Nat}
    (leads : Leads files location names count there) (named : ∀ name ∈ names, IsName name)
    (unlinked : Unlinked files (location ++ names)) : there = location ++ names := by
  induction leads with
  | here => rw [List.append_nil]
  | stay _ improper => exact absurd (named _ List.mem_cons_self) improper
  | down node directory proper short standing _ _ ih =>
    rw [List.append_cons] at unlinked ⊢
    exact ih (fun other member => named other (List.mem_cons_of_mem _ member)) unlinked
  | @follow location name rest _ _ _ _ target _ _ _ link =>
    exact absurd link (unlinked (location ++ [name]) ⟨rest, List.append_assoc _ _ _⟩ target)

/-- A path is spelled from the root down once its links are followed. -/
theorem real_spelled (files : FileSystem) (cwd : Location) (path : Path) :
    ∃ reached : Path, files.real cwd path =
      ⟨if reached.isAbsolute then reached.anchor else .root, spelled cwd reached⟩ :=
  ⟨_, rfl⟩

theorem real_isAbsolute (files : FileSystem) (cwd : Location) (path : Path) :
    (files.real cwd path).isAbsolute = true := by
  obtain ⟨reached, same⟩ := real_spelled files cwd path
  rw [same]
  cases absolute : reached.isAbsolute with
  | true => exact absolute
  | false => rfl

theorem real_named (files : FileSystem) {cwd : Location} (named : ∀ name ∈ cwd, IsName name) (path : Path) :
    ∀ name ∈ (files.real cwd path).parts, IsName name := by
  obtain ⟨reached, same⟩ := real_spelled files cwd path
  rw [same]
  refine lexical_proper ?_ reached.parts
  cases reached.isAbsolute with
  | true => simp
  | false => exact named

end FileSystem

namespace World

/-- A world as systems keep it: whatever stands anywhere stands in a directory, and so does
whoever looks at it. -/
structure Grounded (world : World) : Prop where
  rooted : world.files.Rooted
  named : ∀ name ∈ world.cwd, IsName name
  standing : world.files.get? world.cwd = some .directory

theorem Grounded.unlinked {world : World} (grounded : world.Grounded) (absolute : Bool) :
    world.files.Unlinked (if absolute then [] else world.cwd) := by
  cases absolute
  · exact grounded.rooted.unlinked grounded.standing
  · exact .root world.files

theorem realPath_eq_ok {world : World} {path real : Path} (run : world.realPath path = .ok real) :
    real = world.files.real world.cwd path := by
  unfold World.realPath at run
  split at run
  · cases run
  · dsimp only at run
    split at run
    · cases run
    · cases run
    · exact (Except.ok.inj run).symm

end World

end TabCompletion
