import TabCompletion.Installer.Layout
import TabCompletion.Proofs.Writing

namespace TabCompletion

open World (Plain Evolves Reaches)

/-- The path one name further down. -/
def Path.child (path : Path) (name : Text) : Path :=
  ⟨path.anchor, path.parts ++ [name]⟩

theorem Path.join_isAbsolute {base : Path} (absolute : base.isAbsolute = true) (path : Path) :
    (base.join path).isAbsolute = true := by
  unfold Path.join
  split
  · assumption
  · exact absolute

theorem Path.hasNul_of_child {path : Path} {name : Text} (clean : (path.child name).hasNul = false) :
    path.hasNul = false := by
  unfold Path.hasNul at clean ⊢
  rw [Path.child, List.any_append, Bool.or_eq_false_iff] at clean
  exact clean.1

theorem Path.div_eq_child {name : Text} (single : Path.ofText name = ⟨.relative, [name]⟩)
    (base : Path) : base / name = base.child name := by
  change Path.join base (Path.ofText name) = _
  rw [single]
  rfl

namespace World

theorem spot_child {name : Text} (proper : IsName name) (world : World) (path : Path) :
    world.spot (path.child name) = world.spot path ++ [name] := by
  rw [World.spot, Path.child, FileSystem.spelled_concat, FileSystem.stepTo_name proper]
  rfl

theorem spot_child_ne_nil {name : Text} (proper : IsName name) (world : World) (path : Path) :
    world.spot (path.child name) ≠ [] := by
  rw [spot_child proper]
  simp

theorem spot_child_ne {name other : Text} (proper : IsName name) (properOther : IsName other)
    (differ : name ≠ other) (world : World) (path otherPath : Path) :
    world.spot (path.child name) ≠ world.spot (otherPath.child other) := by
  rw [spot_child proper, spot_child properOther]
  intro same
  exact differ (List.singleton_inj.mp (List.append_inj' same rfl).2)

/-- A name below a directory is looked up alike in two worlds that have the same there. -/
theorem locate_child {before after : World} {path : Path} {name : Text} (plain : before.Plain)
    (plainAfter : after.Plain) (cwd : after.cwd = before.cwd) (reaches : before.Reaches path)
    (reachesAfter : after.Reaches path) (directory : before.HasDirectory (before.spot path))
    (there : after.at? (before.spot path) = before.at? (before.spot path)) (proper : IsName name)
    (same : after.at? (before.spot (path.child name)) = before.at? (before.spot (path.child name))) :
    after.locate .target (path.child name) = before.locate .target (path.child name) := by
  have passable := reaches.passable
  have passableAfter := reachesAfter.passable
  rw [cwd] at passableAfter
  rw [spot_child proper] at same
  have standing : before.at? (before.spot path) ≠ none := by
    rcases directory with standing | standing <;> simp [standing]
  have standingAfter : after.at? (before.spot path) ≠ none := there ▸ standing
  have walked : before.files.walk .target FileSystem.maxLinks
      (if (path.child name).isAbsolute then [] else before.cwd) (path.child name).parts =
        before.files.walk .target FileSystem.maxLinks (before.spot path) [name] :=
    passable.walk_append plain.linkFree (by simp) standing FileSystem.maxLinks [name]
  have walkedAfter : after.files.walk .target FileSystem.maxLinks
      (if (path.child name).isAbsolute then [] else before.cwd) (path.child name).parts =
        after.files.walk .target FileSystem.maxLinks (before.spot path) [name] :=
    passableAfter.walk_append plainAfter.linkFree (by simp) standingAfter FileSystem.maxLinks [name]
  have last : after.files.walk .target FileSystem.maxLinks (before.spot path) [name] =
      before.files.walk .target FileSystem.maxLinks (before.spot path) [name] := by
    simp only [World.at?] at there same
    have ended : after.files.walk .target FileSystem.maxLinks (before.spot path ++ [name]) [] =
        before.files.walk .target FileSystem.maxLinks (before.spot path ++ [name]) [] := by
      rw [FileSystem.walk, FileSystem.walk, same]
    rw [FileSystem.walk_cons plain.linkFree, FileSystem.walk_cons plainAfter.linkFree, there, same, ended]
    simp only [proper, if_true]
  simp only [World.locate, FileSystem.locate, cwd, walked, walkedAfter, last]

end World

namespace Installer

theorem scriptName_isName : IsName scriptName := by decide

theorem backupName_isName : IsName backupName := by decide

theorem scriptPath_eq {installer : Installer} {world : World} {directory : Path}
    (resolved : installer.installDir world = .ok directory) :
    installer.scriptPath world = .ok (directory.child scriptName) := by
  rw [scriptPath, resolved]
  exact congrArg Except.ok (Path.div_eq_child (by decide) directory)

theorem backupPath_eq {installer : Installer} {world : World} {directory : Path}
    (resolved : installer.installDir world = .ok directory) :
    installer.backupPath world = .ok (directory.child backupName) := by
  rw [backupPath, resolved]
  exact congrArg Except.ok (Path.div_eq_child (by decide) directory)

theorem scriptPath_error {installer : Installer} {world : World} {fault : Fault}
    (unresolved : installer.installDir world = .error fault) :
    installer.scriptPath world = .error fault := by
  rw [scriptPath, unresolved]
  rfl

/-- The name of the startup file. -/
def startupName : Text := ".zshrc"

theorem startupName_isName : IsName startupName := by decide

theorem startupFile_eq (installer : Installer) :
    ∃ directory : Path, installer.startupFile = directory.child startupName := by
  have single : Path.ofText startupName = ⟨.relative, [startupName]⟩ := by decide
  unfold startupFile
  split
  · exact ⟨_, Path.div_eq_child single _⟩
  · exact ⟨_, Path.div_eq_child single _⟩

/-- The directory whose presence in the home directory decides where scripts go. -/
def framework (installer : Installer) : Path :=
  installer.home.child ".oh-my-zsh"

theorem installDir_named {installer : Installer} {path : Path}
    (named : installer.namedDir? = some path) (world : World) :
    installer.installDir world = .ok path := by
  rw [installDir, named]
  rfl

theorem installDir_unnamed {installer : Installer} (unnamed : installer.namedDir? = none)
    (world : World) :
    installer.installDir world =
      match world.isDirectory installer.framework with
      | .ok true => .ok ((installer.framework.child "custom".toList).child "completions".toList)
      | .ok false => .ok ((installer.home.child ".zsh".toList).child "completions".toList)
      | .error fault => .error fault := by
  have main : installer.home / (".oh-my-zsh" : Text) = installer.framework :=
    Path.div_eq_child (by decide) installer.home
  simp only [installDir, unnamed, main]
  rw [Path.div_eq_child (by decide), Path.div_eq_child (by decide), Path.div_eq_child (by decide),
    Path.div_eq_child (by decide)]
  cases world.isDirectory installer.framework with
  | error fault => rfl
  | ok standing => cases standing <;> rfl

theorem installDir_choice {installer : Installer} {world : World} {directory : Path}
    (unnamed : installer.namedDir? = none) (resolved : installer.installDir world = .ok directory) :
    world.isDirectory installer.framework = .ok true ∧
        directory = (installer.framework.child "custom".toList).child "completions".toList ∨
      world.isDirectory installer.framework = .ok false ∧
        directory = (installer.home.child ".zsh".toList).child "completions".toList := by
  rw [installDir_unnamed unnamed] at resolved
  cases there : world.isDirectory installer.framework with
  | error fault =>
    rw [there] at resolved
    cases resolved
  | ok answer =>
    rw [there] at resolved
    cases answer with
    | true => exact Or.inl ⟨rfl, (Except.ok.inj resolved).symm⟩
    | false => exact Or.inr ⟨rfl, (Except.ok.inj resolved).symm⟩

theorem spot_main (installer : Installer) (world : World) :
    world.spot ((installer.framework.child "custom".toList).child "completions".toList) =
      world.spot installer.home ++ [".oh-my-zsh".toList, "custom".toList, "completions".toList] := by
  rw [World.spot_child (by decide), World.spot_child (by decide), framework,
    World.spot_child (by decide)]
  simp

theorem spot_own (installer : Installer) (world : World) :
    world.spot ((installer.home.child ".zsh".toList).child "completions".toList) =
      world.spot installer.home ++ [".zsh".toList, "completions".toList] := by
  rw [World.spot_child (by decide), World.spot_child (by decide)]
  simp

/-- The directory for the script is told by its location. -/
theorem installDir_spot {installer : Installer} {world later here : World} {directory other : Path}
    (resolved : installer.installDir world = .ok directory)
    (resolvedLater : installer.installDir later = .ok other)
    (same : here.spot directory = here.spot other) : other = directory := by
  cases named : installer.namedDir? with
  | some path =>
    rw [installDir_named named] at resolved resolvedLater
    cases resolved
    cases resolvedLater
    rfl
  | none =>
    rcases installDir_choice named resolved with ⟨-, rfl⟩ | ⟨-, rfl⟩ <;>
      rcases installDir_choice named resolvedLater with ⟨-, rfl⟩ | ⟨-, rfl⟩
    · rfl
    · rw [spot_main, spot_own] at same
      exact absurd (congrArg List.length (List.append_cancel_left same)) (by decide)
    · rw [spot_main, spot_own] at same
      exact absurd (congrArg List.length (List.append_cancel_left same)) (by decide)
    · rfl

/-- What is made for the script is not what decides where scripts go. -/
theorem framework_apart {installer : Installer} {world : World} {directory : Path}
    (plain : world.Plain) (home : world.isDirectory installer.home = .ok true)
    (unnamed : installer.namedDir? = none) (resolved : installer.installDir world = .ok directory)
    (empty : world.at? (world.spot installer.framework) = none) :
    ¬ Along world directory.anchor directory.parts (world.spot installer.framework) := by
  obtain ⟨reaches, standing⟩ := plain.isDirectory_iff.mp home
  -- Where the framework is not there scripts go to the other of the two places.
  have other : directory = (installer.home.child ".zsh".toList).child "completions".toList := by
    rcases installDir_choice unnamed resolved with ⟨there, -⟩ | ⟨-, same⟩
    · have standing := (plain.isDirectory_iff.mp there).2
      rw [World.HasDirectory, empty] at standing
      rcases standing with never | never <;> cases never
    · exact same
  have spot : world.spot installer.framework = world.spot installer.home ++ [".oh-my-zsh".toList] :=
    World.spot_child (by decide) world installer.home
  have first : world.spot (installer.home.child ".zsh".toList) =
      world.spot installer.home ++ [".zsh".toList] :=
    World.spot_child (by decide) world installer.home
  subst other
  intro made
  rcases made.of_concat with made | same
  · rcases made.of_concat with made | same
    · rcases reaches.along standing made with there | there <;> rw [there] at empty <;> cases empty
    · have names := List.append_cancel_left (spot.symm.trans (same.trans first))
      exact absurd names (by decide)
  · have second : world.spot ((installer.home.child ".zsh".toList).child "completions".toList) =
        world.spot installer.home ++ [".zsh".toList] ++ ["completions".toList] := by
      rw [World.spot_child (by decide), first]
    have names := spot.symm.trans (same.trans second)
    rw [List.append_assoc] at names
    exact absurd (List.append_cancel_left names) (by decide)

theorem installDir_congr {installer : Installer} {before after : World}
    {made touched : Location → Prop} (plain : before.Plain)
    (home : before.isDirectory installer.home = .ok true)
    (evolves : Evolves made touched before after)
    (same : installer.namedDir? = none → after.at? (before.spot installer.framework) =
      before.at? (before.spot installer.framework)) :
    installer.installDir after = installer.installDir before := by
  cases named : installer.namedDir? with
  | some path => rw [installDir_named named, installDir_named named]
  | none =>
    obtain ⟨reaches, standing⟩ := plain.isDirectory_iff.mp home
    have located := World.locate_child plain evolves.plain evolves.cwd reaches
      (evolves.reaches reaches) standing (evolves.same_directory standing)
      (by decide : IsName ".oh-my-zsh".toList) (same named)
    have there : after.isDirectory installer.framework = before.isDirectory installer.framework := by
      unfold World.isDirectory World.leadsTo
      rw [framework, located]
    rw [installDir_unnamed named, installDir_unnamed named, there]

/-- The directory for the script stays while it is made and nothing else is but files. -/
theorem installDir_evolves {installer : Installer} {before after : World} {directory : Path}
    {touched : Location → Prop} (plain : before.Plain)
    (home : before.isDirectory installer.home = .ok true)
    (resolved : installer.installDir before = .ok directory)
    (evolves : Evolves (Along before directory.anchor directory.parts) touched before after)
    (apart : ¬ touched (before.spot installer.framework)) :
    installer.installDir after = .ok directory := by
  rw [← resolved]
  refine installDir_congr plain home evolves fun unnamed => ?_
  rcases evolves.kept (before.spot installer.framework) with same | ⟨made, empty, -⟩ | ⟨changed, -⟩
  · exact same
  · exact absurd made (framework_apart plain home unnamed resolved empty)
  · exact absurd changed apart

/-- What is done to the startup file leaves the directory for the script what it was. -/
theorem installDir_edited {installer : Installer} {before after : World} (plain : before.Plain)
    (home : before.isDirectory installer.home = .ok true)
    (evolves : Evolves (fun _ => False) (· = before.spot installer.startupFile) before after) :
    installer.installDir after = installer.installDir before := by
  obtain ⟨above, startup⟩ := startupFile_eq installer
  refine installDir_congr plain home evolves fun _ => evolves.same (by simp) ?_
  rw [startup, framework]
  exact World.spot_child_ne (by decide) startupName_isName (by decide) before installer.home above

/-- An installer of scripts into the home directory itself. -/
def homeInstaller (environment : Environment) (automatic : Bool) : Installer where
  home := ⟨.root, ["home".toList]⟩
  environment := environment
  settings := { autoConfigure := automatic, installDir := some "~".toList }

theorem homeInstaller_installDir (environment : Environment) (automatic : Bool) (world : World) :
    (homeInstaller environment automatic).installDir world =
      .ok (homeInstaller environment automatic).home :=
  installDir_named rfl world

end Installer

end TabCompletion
