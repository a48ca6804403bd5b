import TabCompletion.Proofs.Entry

namespace TabCompletion

namespace FileSystem

/-- Nothing has changed, or directories have been made where nothing stood, all of them on the
way to a directory that is new itself. -/
def MadeTo (before after : FileSystem) (directory : Location) : Prop :=
  after = before ∨ before.get? directory = none ∧ ∀ location, after.get? location = before.get? location ∨
    before.get? location = none ∧ after.get? location = some .directory ∧ location <+: directory

namespace MadeTo

variable {before after : FileSystem} {directory : Location}

theorem change (made : MadeTo before after directory) (location : Location) :
    after.get? location = before.get? location ∨
      before.get? location = none ∧ after.get? location = some .directory ∧ location <+: directory := by
  rcases made with rfl | ⟨-, every⟩
  · exact Or.inl rfl
  · exact every location

/-- In a new directory there is nothing. -/
theorem empty (made : MadeTo before after directory) (rooted : before.Rooted)
    (fresh : before.get? directory = none) (name : Text) : after.get? (directory ++ [name]) = none := by
  have nothing : before.get? (directory ++ [name]) = none := Classical.byContradiction fun standing => by
    rw [rooted directory name standing] at fresh
    cases fresh
  rcases made.change (directory ++ [name]) with same | ⟨-, -, within⟩
  · rwa [same]
  · have long := within.length_le
    rw [List.length_append, List.length_singleton] at long
    omega

/-- One more directory is made in the last one. -/
theorem concat (made : MadeTo before after directory) {name : Text}
    (absent : after.get? (directory ++ [name]) = none) :
    MadeTo before (after.insert (directory ++ [name]) .directory) (directory ++ [name]) := by
  have fresh : before.get? (directory ++ [name]) = none := by
    rcases made.change (directory ++ [name]) with same | ⟨fresh, -, -⟩
    · rwa [← same]
    · exact fresh
  refine Or.inr ⟨fresh, fun location => ?_⟩
  rw [get?_insert after (by simp)]
  split
  · rename_i here
    subst here
    exact Or.inr ⟨fresh, rfl, List.prefix_refl _⟩
  · rcases made.change location with same | ⟨free, new, within⟩
    · exact Or.inl same
    · exact Or.inr ⟨free, new, within.trans (List.prefix_append _ _)⟩

end MadeTo

end FileSystem

open FileSystem (Leads MadeTo Passed)

theorem World.leads_of_isDirectory {world : World} {path : Path} (absolute : path.isAbsolute = true)
    (standing : world.isDirectory path = .ok true) :
    ∃ count directory, Leads world.files [] path.parts count directory ∧ world.HasDirectory directory := by
  obtain ⟨directory, node, located, isDirectory⟩ := leadsTo_eq_true_iff.mp standing
  obtain ⟨there, count, leads⟩ := leads_of_located absolute located
  exact ⟨count, directory, leads, (World.hasDirectory_iff there).mpr isDirectory⟩

namespace Disk

theorem makeDirectory_cases {path : Path} {world after : World} (run : makeDirectory path world = (.ok (), after)) :
    world.makeDirectory path = .ok after ∨ after = world ∧ world.isDirectory path = .ok true := by
  unfold makeDirectory at run
  rw [run_bind, run_attempt, run_change] at run
  cases made : world.makeDirectory path with
  | ok next =>
    rw [made] at run
    cases run
    exact Or.inl rfl
  | error fault =>
    rw [made] at run
    obtain ⟨rfl, standing⟩ := keepDirectory_world run
    exact Or.inr ⟨rfl, standing rfl⟩

/-- The names lead to a directory, and whatever was made was made on the way to it. -/
structure Leading (names : List Text) (before after : World) (count : Nat) (directory : Location) : Prop where
  rooted : after.files.Rooted
  leads : Leads after.files [] names count directory
  standing : after.HasDirectory directory
  made : MadeTo before.files after.files directory

section MakeUpFrom

variable {anchor : Anchor} {above : List Text} {name : Text} {world middle after : World} {count : Nat}
  {directory : Location}

/-- A directory that is there is led to without a change. -/
theorem Leading.still {names : List Text} (absolute : anchor ≠ .relative) (rooted : world.files.Rooted)
    (there : world.isDirectory ⟨anchor, names⟩ = .ok true) :
    ∃ count directory, Leading names world world count directory := by
  obtain ⟨count, directory, leads, standing⟩ := World.leads_of_isDirectory (by simpa [Path.isAbsolute]) there
  exact ⟨count, directory, rooted, leads, standing, Or.inl rfl⟩

theorem leads_of_made (absolute : anchor ≠ .relative) (proper : IsName name)
    (run : world.makeDirectory ⟨anchor, above ++ [name]⟩ = .ok after) :
    ∃ count directory, Leads world.files [] above count directory ∧
      world.files.get? directory = some .directory := by
  obtain ⟨directory, enters, -, -⟩ := World.makeDirectory_entered rfl proper run
  obtain ⟨count, -, leads⟩ := enters.leads
  rw [Path.isAbsolute, bne_iff_ne.mpr absolute, List.dropLast_concat] at leads
  exact ⟨count, directory, leads, enters.standing⟩

/-- One more name leads to the directory that is made by it in the last one. -/
theorem Leading.concat (leading : Leading above world middle count directory)
    (absolute : anchor ≠ .relative) (proper : IsName name)
    (run : middle.makeDirectory ⟨anchor, above ++ [name]⟩ = .ok after) :
    ∃ count directory, Leading (above ++ [name]) world after count directory := by
  obtain ⟨there, enters, absent, rfl⟩ := World.makeDirectory_entered rfl proper run
  obtain ⟨links, -, leads⟩ := enters.leads
  rw [Path.isAbsolute, bne_iff_ne.mpr absolute, List.dropLast_concat] at leads
  obtain ⟨rfl, rfl⟩ := leading.leads.unique leads
  have kept : Passed middle.files (middle.set (directory ++ [name]) .directory).files :=
    .insert _ (by simp) (fun node standing => by rw [absent] at standing; cases standing) _
  have standing : (middle.set (directory ++ [name]) .directory).files.get? (directory ++ [name]) = some .directory :=
    middle.at?_set_self (by simp) _
  refine ⟨count + 0, directory ++ [name], leading.rooted.insert enters.standing (by simp [absent]) _, ?_,
    Or.inl standing, leading.made.concat absent⟩
  exact (leads.passed enters.standing kept).append
    (.down .directory (kept _ _ enters.standing rfl) proper enters.short standing (by simp) (.here _))

/-- One more name leads on to a directory that stands where nothing had to be made. -/
theorem Leading.onward (leading : Leading above world middle count directory) (rooted : world.files.Rooted)
    (absolute : anchor ≠ .relative) (proper : IsName name)
    (there : middle.isDirectory ⟨anchor, above ++ [name]⟩ = .ok true) :
    ∃ count directory, Leading (above ++ [name]) world middle count directory := by
  obtain ⟨links, last, leads, standing⟩ := World.leads_of_isDirectory (by simpa [Path.isAbsolute]) there
  refine ⟨links, last, leading.rooted, leads, standing, Or.inl ?_⟩
  rcases leading.made with same | ⟨fresh, -⟩
  · exact same
  · -- A name leads nowhere from a directory that has just been made.
    obtain ⟨early, late, between, first, second, -⟩ := leads.split
    obtain ⟨-, rfl⟩ := leading.leads.unique first
    have nothing := leading.made.empty rooted fresh name
    cases second with
    | stay _ improper => exact absurd proper improper
    | down node _ _ _ found =>
      rw [nothing] at found
      cases found
    | follow target _ _ _ found =>
      rw [nothing] at found
      cases found

end MakeUpFrom

/-- Whatever is made above a directory is made on the way to where its names lead in the end. -/
theorem MakesUp.leads {anchor : Anchor} (absolute : anchor ≠ .relative) {names : List Text} {missing : Nat}
    {world after : World} {result : Except Fault Unit} (rooted : world.files.Rooted)
    (proper : ∀ name ∈ names, IsName name) (makes : MakesUp anchor world missing names result after)
    (done : result = .ok ()) : ∃ count directory, Leading names.reverse world after count directory := by
  induction makes with
  | root run =>
    subst done
    rcases makeDirectory_cases run with made | ⟨rfl, there⟩
    · obtain ⟨place, located, run⟩ := ok_of_bind made
      obtain ⟨-, -, walked⟩ := World.locate_eq_ok_iff.mp located
      obtain ⟨node, -, rfl⟩ := FileSystem.walk_nil.mp walked
      cases run
    · exact Leading.still absolute rooted there
  | made made =>
    have isName := proper _ List.mem_cons_self
    rw [List.reverse_cons] at made ⊢
    obtain ⟨links, directory, leads, standing⟩ := leads_of_made absolute isName made
    exact Leading.concat ⟨rooted, leads, Or.inl standing, Or.inl rfl⟩ absolute isName made
  | kept _ _ run =>
    obtain ⟨rfl, standing⟩ := keepDirectory_world run
    exact Leading.still absolute rooted (standing done)
  | givenUp _ => cases done
  | stopped _ _ _ => cases done
  | @onward missing name above path middle result after absent up last ih =>
    subst done
    have isName := proper _ List.mem_cons_self
    obtain ⟨count, directory, leading⟩ :=
      ih (fun other member => proper other (List.mem_cons_of_mem name member)) rfl
    rw [List.reverse_cons] at last ⊢
    rcases makeDirectory_cases last with made | ⟨rfl, there⟩
    · exact leading.concat absolute isName made
    · exact leading.onward rooted absolute isName there

end Disk

end TabCompletion
