import TabCompletion.Proofs.Fault
import TabCompletion.Proofs.RealPath

namespace TabCompletion

open FileSystem (Clear Leads linkStart)

theorem Text.mem_of_mem_splitOn {c separator : Char} {text piece : Text}
    (member : piece ∈ text.splitOn separator) (inside : c ∈ piece) : c ∈ text := by
  suffices every : ∀ pieces : List Text, piece ∈ pieces → c ∈ [separator].intercalate pieces by
    have whole := every (text.splitOn separator) member
    rwa [List.intercalate_splitOn] at whole
  intro pieces
  induction pieces with
  | nil => simp
  | cons first rest ih =>
    intro listed
    cases rest with
    | nil => simpa [List.mem_singleton.mp listed] using inside
    | cons next more =>
      rw [List.intercalate_cons_cons, List.mem_append]
      rcases List.mem_cons.mp listed with rfl | later
      · exact Or.inl (List.mem_append_left _ inside)
      · exact Or.inr (ih later)

/-- No name that a world itself gives has the character that no path can have. -/
structure World.Clean (world : World) : Prop where
  cwd : NulFree world.cwd
  links : ∀ location target, world.files.get? location = some (.link target) → '\x00' ∉ target

namespace World

variable {world after : World} {path : Path} {bytes : Bytes}

theorem makeDirectory_set (run : world.makeDirectory path = .ok after) :
    ∃ location, after = world.set location .directory := by
  obtain ⟨directory, name, -, rfl⟩ := makeDirectory_free run
  exact ⟨_, rfl⟩

theorem writeFile_set (run : world.writeFile path bytes = .ok after) :
    ∃ location mode, after = world.set location (.file mode bytes) := by
  rcases writeFile_cases run with ⟨directory, name, -, rfl⟩ | ⟨location, mode, old, -, rfl⟩
  · exact ⟨_, _, rfl⟩
  · exact ⟨_, _, rfl⟩

theorem replaceFile_set (run : world.replaceFile path bytes = .ok after) :
    ∃ location mode, after = world.set location (.file mode bytes) := by
  obtain ⟨mode, -, run⟩ := ok_of_bind run
  obtain ⟨temporary, -, run⟩ := ok_of_bind run
  obtain ⟨spot, -, run⟩ := ok_of_bind run
  cases run
  exact ⟨spot, mode, rfl⟩

end World

/-- Whatever is put into the files but a link leaves a world clean. -/
theorem World.Clean.set {world : World} (clean : world.Clean) (location : Location) {node : Node}
    (unlinked : ∀ target, node ≠ .link target) : (world.set location node).Clean := by
  refine ⟨clean.cwd, fun place target standing => ?_⟩
  have proper : place ≠ [] := by
    rintro rfl
    rw [FileSystem.get?_nil] at standing
    cases standing
  refine clean.links place target ?_
  rw [FileSystem.get?, if_neg proper] at standing ⊢
  rw [World.set, FileSystem.insert, Tree.get?_set] at standing
  split at standing
  · exact absurd (Option.some.inj standing) (unlinked target)
  · exact standing

theorem World.Clean.leads {world : World} (clean : world.Clean) {location there : Location}
    {names : List Text} {count : Nat} (leads : Leads world.files location names count there)
    (here : NulFree location) (along : NulFree names) : NulFree there := by
  induction leads with
  | here location => exact here
  | @stay location name rest count there _ improper _ ih =>
    refine ih ?_ fun other member => along other (List.mem_cons_of_mem name member)
    rcases FileSystem.stepTo_cases location name with ⟨same, -⟩ | ⟨same, -⟩ | ⟨-, proper⟩
    · rwa [same]
    · rw [same]
      exact here.dropLast
    · exact absurd proper improper
  | @down location name _ _ _ _ _ _ _ _ _ _ ih =>
    exact ih (here.concat (along name List.mem_cons_self)) fun other member =>
      along other (List.mem_cons_of_mem name member)
  | @follow location name _ _ _ _ _ target _ _ _ standing _ _ ihFirst ihLater =>
    have start : NulFree (linkStart location target) := by
      unfold linkStart
      split
      · exact fun _ member => by cases member
      · exact here
    have text : NulFree (target.splitOn '/') := fun piece member inside =>
      clean.links _ _ standing (Text.mem_of_mem_splitOn member inside)
    exact ihLater (ihFirst start text) fun other member => along other (List.mem_cons_of_mem name member)

/-- Making a directory that is there changes nothing, and it is the system that refuses it. -/
theorem Disk.makeDirectories_clear {world after : World} {location : Location}
    {result : Except Fault Unit} (clear : Clear world.files location)
    (standing : world.files.get? location = some .directory) (clean : NulFree location)
    (run : makeDirectories location.toPath world = (result, after)) :
    after = world ∧ ∀ fault, result = .error fault → fault.isSystem = true := by
  have located : world.locate .itself location.toPath = _ :=
    World.locate_of_clear clear standing clean.hasNul _
  obtain ⟨refusal, refused, present⟩ : ∃ refusal, world.makeDirectory location.toPath =
      .error (.refused refusal location.toPath) ∧ refusal ≠ .noEntry := by
    unfold World.makeDirectory
    rw [located]
    split
    · exact ⟨.nameTooLong, rfl, by simp⟩
    · exact ⟨.exists, rfl, by simp⟩
  rw [makeDirectories_refused refused (by simpa using present)] at run
  refine ⟨(keepDirectory_world run).1, ?_⟩
  rintro fault rfl
  exact (keepDirectory_failsAt world (Or.inl rfl) _ _ run).isSystem clean.hasNul

theorem World.replaceFile_isSystem {world : World} {location : Location} {bytes : Bytes} {fault : Fault}
    (clean : NulFree location) (failed : world.replaceFile location.toPath bytes = .error fault) :
    fault.isSystem = true := by
  rcases replaceFile_error failed with ofPath | ⟨draw, ofPath⟩
  · exact ofPath.isSystem clean.hasNul
  · exact ofPath.isSystem (clean.beside draw).hasNul

/-- It is the system that keeps a file from being written into a directory. -/
theorem Disk.writeText_spot_isSystem {world : World} (plain : world.Plain) {path : Path}
    (unmarked : path.hasNul = false) (clean : NulFree (world.spot path))
    (above : world.HasDirectory (world.spot path).dropLast) (text : Text) :
    FailsAt world (·.isSystem = true) (writeText path text) := by
  intro fault after run
  have named : ∀ name ∈ (world.spot path).dropLast, IsName name := fun name member =>
    plain.spot_named path name (List.dropLast_subset _ member)
  have made := makeDirectories_toPath plain named above
  have parent : (world.spot path).toPath.parent = Location.toPath (world.spot path).dropLast := rfl
  rw [writeText, run_bind, run_look, plain.realPath_eq unmarked, clean.hasNul, if_neg (by simp)] at run
  dsimp only at run
  rw [parent, run_bind, made] at run
  cases refused : Location.fault? (world.spot path).dropLast with
  | some other =>
    rw [refused] at run
    cases run
    rcases Location.fault?_cases refused with rfl | rfl
    · have nul := Location.hasNul_of_fault refused
      rw [clean.dropLast.hasNul] at nul
      cases nul
    · rfl
  | none =>
    rw [refused] at run
    dsimp only at run
    rw [run_change] at run
    cases replaced : world.replaceFile (world.spot path).toPath (Utf8.encode text) with
    | ok next =>
      rw [replaced] at run
      cases run
    | error other =>
      rw [replaced] at run
      cases run
      exact World.replaceFile_isSystem clean replaced

/-- It is the system that keeps a file from being written over. -/
theorem Disk.writeText_isSystem {world : World} (clean : world.Clean) {path : Path}
    (absolute : path.isAbsolute = true) (regular : world.isFile path = .ok true) (text : Text) :
    FailsAt world (·.isSystem = true) (writeText path text) := by
  intro fault after run
  obtain ⟨location, node, located, passes⟩ := World.leadsTo_eq_true_iff.mp regular
  obtain ⟨standing, count, leads⟩ := World.leads_of_located absolute located
  have clear := leads.clear (.root world.files)
  have cleanHere : NulFree location := clean.leads leads (fun _ member => by cases member)
    (NulFree.of_path (World.locate_eq_ok_iff.mp located).1)
  have proper : location ≠ [] := world.ne_nil_of_kept fun holds => by
    have directory := (World.hasDirectory_iff standing).mp holds
    cases node <;> simp [Node.isFile, Node.isDirectory] at passes directory
  rw [writeText, run_bind, run_look, World.realPath_of_located absolute located cleanHere.hasNul] at run
  dsimp only at run
  cases made : makeDirectories location.toPath.parent world with
  | mk answer middle =>
    obtain ⟨rfl, refused⟩ := makeDirectories_clear clear.dropLast (clear.directory proper)
      cleanHere.dropLast made
    cases answer with
    | error other =>
      rw [run_bind_error made] at run
      cases run
      exact refused _ rfl
    | ok done =>
      rw [run_bind_ok made, run_change] at run
      cases replaced : middle.replaceFile location.toPath (Utf8.encode text) with
      | ok next =>
        rw [replaced] at run
        cases run
      | error other =>
        rw [replaced] at run
        cases run
        exact World.replaceFile_isSystem cleanHere replaced

namespace Disk

variable {α β : Type} {holds : World → Prop}

/-- An action leaves what holds of the world it finds, whether it comes to its end or not. -/
def Preserves (holds : World → Prop) (action : Disk α) : Prop :=
  ∀ world, holds world → holds (action world).2

namespace Preserves

theorem still {action : Disk α} (same : ∀ world, (action world).2 = world) :
    Preserves holds action := by
  intro world held
  rwa [same]

theorem pure (value : α) : Preserves holds (Pure.pure value : Disk α) :=
  still fun _ => rfl

theorem throw (fault : Fault) : Preserves holds (throw fault : Disk α) :=
  still fun _ => rfl

theorem look (view : World → Except Fault α) : Preserves holds (look view) :=
  still fun _ => rfl

theorem change {step : World → Except Fault World}
    (kept : ∀ world after, holds world → step world = .ok after → holds after) :
    Preserves holds (change step) := by
  intro world held
  rw [run_change]
  cases stepped : step world with
  | ok next => exact kept world next held stepped
  | error fault => exact held

theorem bind {action : Disk α} {next : α → Disk β} (first : Preserves holds action)
    (rest : ∀ value, Preserves holds (next value)) : Preserves holds (action >>= next) := by
  intro world held
  have later := first world held
  rw [run_bind]
  cases begun : action world with
  | mk result middle =>
    rw [begun] at later
    cases result with
    | ok value => exact rest value middle later
    | error fault => exact later

theorem attempt {action : Disk α} (kept : Preserves holds action) :
    Preserves holds (attempt action) :=
  fun world held => kept world held

end Preserves

theorem keepDirectory_preserves (path : Path) (fault : Fault) :
    Preserves holds (keepDirectory path fault) :=
  .still fun world => (keepDirectory_world (Prod.eta (keepDirectory path fault world)).symm).1

section makeDirectories

variable (made : ∀ path, Preserves holds (change (·.makeDirectory path)))

include made

theorem makeDirectory_preserves (path : Path) : Preserves holds (makeDirectory path) := by
  refine .bind (.attempt (made path)) fun result => ?_
  cases result with
  | ok standing => exact .pure ()
  | error fault => exact keepDirectory_preserves path fault

theorem makeUpFrom_preserves (anchor : Anchor) (missing : Nat) (names : List Text) :
    Preserves holds (makeUpFrom anchor missing names) := by
  induction names generalizing missing with
  | nil =>
    rw [makeUpFrom]
    exact makeDirectory_preserves made _
  | cons name above ih =>
    rw [makeUpFrom]
    refine .bind (.attempt (made _)) fun result => ?_
    split
    · exact .pure ()
    · exact .throw _
    · exact .bind (ih _) fun _ => makeDirectory_preserves made _
    · exact keepDirectory_preserves _ _

/-- What each single directory leaves as it was, several of them leave so too. -/
theorem makeDirectories_preserves (path : Path) : Preserves holds (makeDirectories path) :=
  makeUpFrom_preserves made _ _ _

end makeDirectories

theorem change_makeDirectory_clean (path : Path) :
    Preserves World.Clean (change (·.makeDirectory path)) := by
  refine .change fun world after clean made => ?_
  obtain ⟨location, rfl⟩ := World.makeDirectory_set made
  exact clean.set location (by simp)

theorem makeDirectories_clean (path : Path) : Preserves World.Clean (makeDirectories path) :=
  makeDirectories_preserves change_makeDirectory_clean path

theorem writeText_clean (path : Path) (text : Text) : Preserves World.Clean (writeText path text) := by
  refine .bind (.look _) fun real => .bind (makeDirectories_clean _) fun _ =>
    .change fun world after clean replaced => ?_
  obtain ⟨location, mode, rfl⟩ := World.replaceFile_set replaced
  exact clean.set location (by simp)

end Disk

end TabCompletion
