import Mathlib
import TabCompletion.Proofs.ReplacementSteps
import TabCompletion.Proofs.Resolution

namespace TabCompletion

open FileSystem (Furnished MadeTo Passed Resolves Unlinked)

namespace World

variable {world after : World} {path : Path} {directory : Location} {name : Text}

/-- A file that is put in the place of no link gets the permission bits of the file that was
there, or those of a new one. -/
theorem Enters.replacementMode (enters : world.Enters path directory name)
    (unlinked : ∀ target, world.files.get? (directory ++ [name]) ≠ some (.link target)) :
    world.replacementMode path = .ok (keptMode (world.files.get? (directory ++ [name]))) := by
  have located : world.locate .target path = _ := enters.located (.inr unlinked)
  unfold FileSystem.entry at located
  cases standing : world.files.get? (directory ++ [name]) with
  | none =>
    rw [standing] at located
    simp only [World.replacementMode, World.exists?, World.leadsTo, located]
    rfl
  | some node =>
    rw [standing] at located
    simp only [World.replacementMode, World.exists?, World.leadsTo, located]
    cases node with
    | link target => exact absurd standing (unlinked target)
    | _ => rfl

end World

namespace Disk

variable {world after : World} {path : Path} {text : Text}

/-- The bytes of a file have been replaced as a whole. The file is at the spot that the real path
leads to by its last name, once the directories above it are made; apart from it and from those
directories all is as it was. -/
structure Replaced (path : Path) (bytes : Bytes) (before after : World) (real : Path) (spot : Location)
    (mode : Nat) : Prop where
  resolved : before.realPath path = .ok real
  reached : ∃ middle directory, makeDirectories real.parent before = (.ok (), middle) ∧
    middle.Enters real directory real.name ∧ spot = directory ++ [real.name]
  written : after.at? spot = some (.file mode bytes)
  kept : (∀ target, before.at? spot ≠ some (.link target)) → mode = World.keptMode (before.at? spot)
  rest : ∀ location, location ≠ spot → after.at? location = before.at? location ∨
    before.at? location = none ∧ after.at? location = some .directory ∧ location <+: spot
  -- A link may be lost only where the real path still ends at one.
  links : (∀ location target, before.at? location = some (.link target) →
      after.at? location = some (.link target)) ↔ ∀ target, before.at? spot ≠ some (.link target)
  -- That does not happen to a path whose links can all be followed.
  whole : ∀ count there, Resolves before.files (if path.isAbsolute then [] else before.cwd) path.parts count there →
    real = there.toPath ∧ spot = there ∧ (∀ target, before.at? there ≠ some (.link target)) ∧
      after.locate .target real = .ok (.taken there (.file mode bytes))

/-- All or nothing: the file has been replaced as a whole, or nothing has changed but for
directories that are new. -/
def Whole (path : Path) (text : Text) (before : World) : Except Fault Unit × World → Prop
  | (.ok (), after) => ∃ real spot mode, Replaced path (Utf8.encode text) before after real spot mode
  | (.error _, after) => Furnished before.files after.files

section Replacing

variable {before middle : World} {real : Path} {above : List Text} {bytes : Bytes} {count mode : Nat}
  {directory : Location} {name : Text}

/-- What is no directory where others had to be made was there before. -/
theorem Leading.at?_eq (leading : Leading above before middle count directory) {location : Location}
    (other : ¬ middle.HasDirectory location) : middle.at? location = before.at? location := by
  rcases leading.made.change location with same | ⟨-, new, -⟩
  · exact same
  · exact absurd (Or.inl new) other

/-- Names that no link stands at are where they lead. -/
theorem Leading.directory_eq (leading : Leading above before middle count directory)
    (named : ∀ name ∈ above, IsName name) (unlinked : Unlinked before.files above) : directory = above := by
  refine leading.leads.of_unlinked named fun place within target link => ?_
  rcases leading.made.change place with same | ⟨-, new, -⟩
  · rw [same] at link
    exact unlinked place within target link
  · rw [new] at link
    cases link

variable (leading : Leading above before middle count directory)
include leading

/-- Apart from a file that is put into the last directory only directories above it are new. -/
theorem Leading.rest {location : Location} (apart : location ≠ directory ++ [name]) :
    (middle.set (directory ++ [name]) (.file mode bytes)).at? location = before.at? location ∨
      before.at? location = none ∧
        (middle.set (directory ++ [name]) (.file mode bytes)).at? location = some .directory ∧
        location <+: directory ++ [name] := by
  rw [World.at?_set (by simp), if_neg apart]
  rcases leading.made.change location with same | ⟨free, new, within⟩
  · exact Or.inl same
  · exact Or.inr ⟨free, new, within.trans (List.prefix_append _ _)⟩

/-- All links are kept where the file is not put in the place of one. -/
theorem Leading.links_kept_iff :
    (∀ location target, before.at? location = some (.link target) →
      (middle.set (directory ++ [name]) (.file mode bytes)).at? location = some (.link target)) ↔
      ∀ target, before.at? (directory ++ [name]) ≠ some (.link target) := by
  constructor
  · intro kept target link
    have lost := kept _ target link
    rw [World.at?_set_self _ (by simp)] at lost
    cases lost
  · intro unlinked location target link
    have apart : location ≠ directory ++ [name] := by
      rintro rfl
      exact unlinked target link
    rcases leading.rest apart with same | ⟨free, -, -⟩
    · rw [same, link]
    · rw [free] at link
      cases link

end Replacing

/-- What a replacement in the last of the directories that were made comes to. -/
theorem replaced_of_steps (grounded : world.Grounded) {real : Path} {middle : World} {bytes : Bytes}
    (resolved : world.realPath path = .ok real) (made : makeDirectories real.parent world = (.ok (), middle))
    (run : middle.replaceFile real bytes = .ok after) :
    ∃ spot mode, Replaced path bytes world after real spot mode := by
  have same := World.realPath_eq_ok resolved
  have absolute : real.isAbsolute = true := by
    rw [same]
    exact FileSystem.real_isAbsolute _ _ _
  have named : ∀ name ∈ real.parts, IsName name := by
    rw [same]
    exact FileSystem.real_named _ grounded.named _
  have namedAbove : ∀ name ∈ real.parts.dropLast, IsName name := fun name member =>
    named name (List.dropLast_subset _ member)
  obtain ⟨directory, mode, enters, moded, undirected, rfl⟩ := World.replaceFile_entered absolute named run
  obtain ⟨count, last, leading⟩ := (makesUp_of_run made).leads (bne_iff_ne.mp absolute) grounded.rooted
    (fun name member => namedAbove name (List.mem_reverse.mp member)) rfl
  rw [List.reverse_reverse] at leading
  obtain ⟨links, -, leads⟩ := enters.leads
  rw [absolute] at leads
  obtain ⟨rfl, rfl⟩ := leading.leads.unique leads
  have before := leading.at?_eq undirected
  refine ⟨last ++ [real.name], mode, resolved, ⟨middle, last, made, enters, rfl⟩, middle.at?_set_self (by simp) _,
    fun unlinked => ?_, fun location apart => leading.rest apart, leading.links_kept_iff,
    fun links there resolves => ?_⟩
  · rw [← before] at unlinked ⊢
    rw [enters.replacementMode unlinked] at moded
    exact (Except.ok.inj moded).symm
  · have real_eq : real = there.toPath := same.trans (FileSystem.real_of_resolves resolves)
    have unlinked := resolves.unlinked (grounded.unlinked _)
    have parts : there.dropLast ++ [real.name] = there := by
      have parts := enters.parts
      rw [real_eq] at parts ⊢
      exact parts.symm
    have above : real.parts.dropLast = there.dropLast := by rw [real_eq]; rfl
    rw [above] at leading namedAbove
    obtain rfl := leading.directory_eq namedAbove unlinked.dropLast
    have unlinkedHere : ∀ target, world.at? there ≠ some (.link target) := unlinked there (List.prefix_refl there)
    have losable : ∀ node, middle.files.get? (there.dropLast ++ [real.name]) = some node →
        node.isFile = true := by
      intro node standing
      cases node with
      | file mode bytes => rfl
      | locked mode bytes => rfl
      | directory => exact absurd (Or.inl standing) undirected
      | sealed => exact absurd (Or.inr standing) undirected
      | link target =>
        rw [parts] at before standing
        exact absurd (before.symm.trans standing) (unlinkedHere target)
    have kept := Passed.insert middle.files (by simp) losable (.file mode bytes)
    have entersAfter : (middle.set (there.dropLast ++ [real.name]) (.file mode bytes)).Enters real there.dropLast
        real.name := enters.passed kept rfl
    have written : (middle.set (there.dropLast ++ [real.name]) (.file mode bytes)).at?
        (there.dropLast ++ [real.name]) = some (.file mode bytes) := middle.at?_set_self (by simp) _
    have located := entersAfter.located_file written .target
    rw [parts] at located ⊢
    exact ⟨real_eq, rfl, unlinkedHere, located⟩

/-- What a replacement comes to is told by what stands at each location. -/
theorem Replaced.alike {before done : World} {bytes : Bytes} {real : Path} {spot : Location} {mode : Nat}
    (replaced : Replaced path bytes before done real spot mode) (alike : World.Alike done after) :
    Replaced path bytes before after real spot mode := by
  obtain ⟨resolved, reached, written, kept, rest, links, whole⟩ := replaced
  refine ⟨resolved, reached, ?_, kept, fun location apart => ?_, ?_, fun count there resolves => ?_⟩
  · rw [alike.same, written]
  · rw [alike.same]
    exact rest location apart
  · simp only [alike.same]
    exact links
  · rw [alike.locate]
    exact whole count there resolves

/-- A text that could not be written has left a temporary file beside its own. Apart from that nothing
has changed but for directories that are new. -/
def Litters (path : Path) (before : World) : Except Fault Unit × World → Prop
  | (.ok (), _) => False
  | (.error _, after) => ∃ real middle, before.realPath path = .ok real ∧
      Furnished before.files middle.files ∧ Stranded middle after real

theorem Whole.of_unchanged {fault : Fault} {middle : World} (furnished : Furnished world.files middle.files)
    (alike : World.Alike middle after) : Whole path text world (.error fault, after) := by
  intro location
  have same : after.files.get? location = middle.files.get? location := alike.same location
  rw [same]
  exact furnished location

/-- A text is written as the whole of a file, or nothing has changed but for directories that are
new, whatever goes wrong on the way; only trouble of the kind that leaves a temporary file may leave one. -/
theorem writeText_whole (grounded : world.Grounded) (path : Path) (text : Text) (trouble : Trouble) :
    Whole path text world (writeText path text world) ∧
      (Whole path text world (writeInSteps trouble path text world) ∨
        trouble.Strands ∧ Litters path world (writeInSteps trouble path text world)) ∧
      (writeInSteps {} path text world).1 = (writeText path text world).1 ∧
      World.Alike (writeText path text world).2 (writeInSteps {} path text world).2 := by
  rcases write_cases path world with ⟨fault, middle, furnished, ends⟩ | ⟨real, middle, resolved, made, furnished, goes⟩
  · have atOnce : writeText path text world = (.error fault, middle) := ends _
    have inSteps (trouble : Trouble) : writeInSteps trouble path text world = (.error fault, middle) := ends _
    rw [atOnce, inSteps, inSteps]
    exact ⟨furnished, Or.inl furnished, rfl, .refl middle⟩
  · have atOnce : writeText path text world = change (·.replaceFile real (Utf8.encode text)) middle := goes _
    have inSteps (trouble : Trouble) :
        writeInSteps trouble path text world = replaceInSteps trouble real (Utf8.encode text) middle := goes _
    have same := World.realPath_eq_ok resolved
    have absolute : real.isAbsolute = true := same ▸ FileSystem.real_isAbsolute _ _ _
    have named : ∀ name ∈ real.parts, IsName name := same ▸ FileSystem.real_named _ grounded.named _
    rw [atOnce, inSteps, inSteps, run_change]
    refine ⟨?_, ?_, ?_⟩
    · cases run : middle.replaceFile real (Utf8.encode text) with
      | error fault => exact furnished
      | ok done => exact ⟨real, replaced_of_steps grounded resolved made run⟩
    · rcases run : replaceInSteps trouble real (Utf8.encode text) middle with ⟨result, after⟩
      rcases replaceInSteps_cases absolute named run with
        ⟨fault, rfl, alike | ⟨strands, left⟩, -⟩ | ⟨rfl, done, replaced, alike⟩
      · exact Or.inl (.of_unchanged furnished alike)
      · exact Or.inr ⟨strands, real, middle, resolved, furnished, left⟩
      · obtain ⟨spot, mode, whole⟩ := replaced_of_steps grounded resolved made replaced
        exact Or.inl ⟨real, spot, mode, whole.alike alike⟩
    · rcases run : replaceInSteps {} real (Utf8.encode text) middle with ⟨result, after⟩
      rcases replaceInSteps_cases absolute named run with
        ⟨fault, rfl, alike | ⟨strands, -⟩, refused⟩ | ⟨rfl, done, replaced, alike⟩
      · rw [refused rfl]
        exact ⟨rfl, alike⟩
      · simp [Trouble.Strands] at strands
      · rw [replaced]
        exact ⟨rfl, alike⟩

section Home

/-- The home directory with a startup file that is a link. -/
def homeWithLink (target : Text) : World :=
  World.bareHome.set ["home".toList, ".zshrc".toList] (.link target)

def linkedFile : Path := ⟨.root, ["home".toList, ".zshrc".toList]⟩

theorem homeWithLink_grounded (target : Text) : (homeWithLink target).Grounded := by
  have home : World.bareHome.files.get? ["home".toList] = some .directory := rfl
  have absent : World.bareHome.files.get? (["home".toList] ++ [".zshrc".toList]) ≠ some .directory := by decide
  exact ⟨World.bareHome_plain.rooted.insert home absent _, by simp [homeWithLink, World.bareHome, World.set],
    FileSystem.get?_nil _⟩

theorem homeWithLink_at? (target : Text) :
    (homeWithLink target).at? ["home".toList, ".zshrc".toList] = some (.link target) :=
  World.bareHome.at?_set_self (by simp) _

/-- Where nothing stands yet a link leads by the names in its text. -/
theorem homeWithLink_resolves :
    Resolves (homeWithLink "dot/zshrc").files [] linkedFile.parts 1 ["home".toList, "dot".toList, "zshrc".toList] := by
  have home : (homeWithLink "dot/zshrc").files.get? ["home".toList] = some .directory := rfl
  have dot : (homeWithLink "dot/zshrc").files.get? ["home".toList, "dot".toList] = none := rfl
  have file : (homeWithLink "dot/zshrc").files.get? ["home".toList, "dot".toList, "zshrc".toList] = none := rfl
  have names : ("dot/zshrc".toList).splitOn '/' = ["dot".toList, "zshrc".toList] := by decide
  have followed : Resolves (homeWithLink "dot/zshrc").files ["home".toList] ["dot".toList, "zshrc".toList] 0
      ["home".toList, "dot".toList, "zshrc".toList] :=
    .down (by decide) (fun target link => by cases dot.symm.trans link)
      (.down (by decide) (fun target link => by cases file.symm.trans link) (.here _))
  have link : (homeWithLink "dot/zshrc").files.get? (["home".toList] ++ [".zshrc".toList]) =
      some (.link "dot/zshrc") := homeWithLink_at? _
  rw [← names] at followed
  exact .down (by decide) (fun target link => by cases home.symm.trans link)
    (.follow "dot/zshrc" (by decide) link followed (.here _))

/-- A link to a file in a directory that is missing is written through, and the link stays; so it does
when the last step goes wrong. -/
theorem writeText_whole_at_home :
    (homeWithLink "dot/zshrc").Grounded ∧
      (∃ after, writeText linkedFile "new" (homeWithLink "dot/zshrc") = (.ok (), after) ∧
        after.at? ["home".toList, "dot".toList, "zshrc".toList] = some (.file 0o644 (Utf8.encode "new")) ∧
        after.at? ["home".toList, ".zshrc".toList] = some (.link "dot/zshrc")) ∧
      Whole linkedFile "new" (homeWithLink "dot/zshrc")
        (writeInSteps { rename := some .nulCharacter } linkedFile "new" (homeWithLink "dot/zshrc")) := by
  have grounded := homeWithLink_grounded "dot/zshrc"
  obtain ⟨whole, troubled, -, -⟩ := writeText_whole grounded linkedFile "new" { rename := some .nulCharacter }
  refine ⟨grounded, ?_, troubled.resolve_right fun litters => by simp [Trouble.Strands] at litters⟩
  have ended : (writeText linkedFile "new" (homeWithLink "dot/zshrc")).1 = .ok () := by cbv
  rcases run : writeText linkedFile "new" (homeWithLink "dot/zshrc") with ⟨result, after⟩
  rw [run] at ended whole
  obtain rfl : result = .ok () := ended
  obtain ⟨real, spot, mode, replaced⟩ := whole
  obtain ⟨-, rfl, unlinked, -⟩ := replaced.whole 1 _ homeWithLink_resolves
  have moded : mode = 0o644 := replaced.kept unlinked
  refine ⟨after, rfl, moded ▸ replaced.written, replaced.links.mpr unlinked _ _ (homeWithLink_at? _)⟩

/-- A link that leads back to itself through a directory that is missing is not written through:
it is lost. -/
theorem writeText_loses_link :
    (homeWithLink "missing/../.zshrc").Grounded ∧
      (homeWithLink "missing/../.zshrc").at? ["home".toList, ".zshrc".toList] = some (.link "missing/../.zshrc") ∧
      ∃ after, writeText linkedFile "new" (homeWithLink "missing/../.zshrc") = (.ok (), after) ∧
        after.at? ["home".toList, ".zshrc".toList] = some (.file 0o644 (Utf8.encode "new")) := by
  refine ⟨homeWithLink_grounded _, homeWithLink_at? _, ?_⟩
  have ended : (writeText linkedFile "new" (homeWithLink "missing/../.zshrc")).1 = .ok () := by cbv
  have lost : (writeText linkedFile "new" (homeWithLink "missing/../.zshrc")).2.at?
      ["home".toList, ".zshrc".toList] = some (.file 0o644 (Utf8.encode "new")) := by cbv
  exact ⟨_, Prod.ext ended rfl, lost⟩

end Home

end Disk

end TabCompletion
