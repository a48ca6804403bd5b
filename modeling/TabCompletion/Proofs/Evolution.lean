import TabCompletion.Proofs.World

namespace TabCompletion.World

/-- How operations on files change a world. At the places that are made a directory may
appear where nothing stood, and at those that are touched whatever was no directory may
have become anything. Everything else stays. -/
structure Evolves (made touched : Location → Prop) (before after : World) : Prop where
  cwd : after.cwd = before.cwd
  draws : after.draws = before.draws
  plain : after.Plain
  kept : ∀ location, after.at? location = before.at? location ∨
    made location ∧ before.at? location = none ∧ after.at? location = some .directory ∨
    touched location ∧ ¬ before.HasDirectory location

namespace Evolves

theorem refl {made touched : Location → Prop} {world : World} (plain : world.Plain) :
    Evolves made touched world world :=
  ⟨rfl, rfl, plain, fun _ => Or.inl rfl⟩

theorem note {made touched : Location → Prop} {world : World} (plain : world.Plain)
    (notes : List Text) : Evolves made touched world { world with notes := notes } :=
  ⟨rfl, rfl, ⟨plain.linkFree, plain.rooted, plain.named⟩, fun _ => Or.inl rfl⟩

theorem mono {made touched more others : Location → Prop} {before after : World}
    (evolves : Evolves made touched before after) (made_more : ∀ place, made place → more place)
    (touched_others : ∀ place, touched place → others place) : Evolves more others before after := by
  refine ⟨evolves.cwd, evolves.draws, evolves.plain, fun location => ?_⟩
  rcases evolves.kept location with same | ⟨new, rest⟩ | ⟨changed, rest⟩
  · exact Or.inl same
  · exact Or.inr (Or.inl ⟨made_more location new, rest⟩)
  · exact Or.inr (Or.inr ⟨touched_others location changed, rest⟩)

/-- A directory stays what it is. -/
theorem same_directory {made touched : Location → Prop} {before after : World} {location : Location}
    (evolves : Evolves made touched before after) (standing : before.HasDirectory location) :
    after.at? location = before.at? location := by
  rcases evolves.kept location with same | ⟨-, empty, -⟩ | ⟨-, other⟩
  · exact same
  · rw [HasDirectory, empty] at standing
    rcases standing with never | never <;> cases never
  · exact absurd standing other

theorem directory {made touched : Location → Prop} {before after : World} {location : Location}
    (evolves : Evolves made touched before after)
    (standing : before.at? location = some .directory) : after.at? location = some .directory :=
  (evolves.same_directory (Or.inl standing)).trans standing

theorem hasDirectory {made touched : Location → Prop} {before after : World} {location : Location}
    (evolves : Evolves made touched before after) (standing : before.HasDirectory location) :
    after.HasDirectory location :=
  (hasDirectory_congr (evolves.same_directory standing)).mpr standing

theorem trans {made touched : Location → Prop} {before middle after : World}
    (first : Evolves made touched before middle) (second : Evolves made touched middle after) :
    Evolves made touched before after := by
  refine ⟨second.cwd.trans first.cwd, second.draws.trans first.draws, second.plain,
    fun location => ?_⟩
  rcases first.kept location with same | ⟨new, empty, now⟩ | ⟨changed, other⟩
  · rw [← same, ← hasDirectory_congr same]
    exact second.kept location
  · exact Or.inr (Or.inl ⟨new, empty, second.directory now⟩)
  · exact Or.inr (Or.inr ⟨changed, other⟩)

/-- What stands at a place that is not touched stays. -/
theorem untouched {made touched : Location → Prop} {before after : World} {location : Location}
    {node : Node} (evolves : Evolves made touched before after)
    (standing : before.at? location = some node) (apart : ¬ touched location) :
    after.at? location = some node := by
  rcases evolves.kept location with same | ⟨-, empty, -⟩ | ⟨changed, -⟩
  · rw [same, standing]
  · rw [standing] at empty
    cases empty
  · exact absurd changed apart

/-- A place that is neither made nor touched stays as it is. -/
theorem same {made touched : Location → Prop} {before after : World} {location : Location}
    (evolves : Evolves made touched before after) (unmade : ¬ made location)
    (apart : ¬ touched location) : after.at? location = before.at? location := by
  rcases evolves.kept location with same | ⟨new, -⟩ | ⟨changed, -⟩
  · exact same
  · exact absurd new unmade
  · exact absurd changed apart

theorem spot {made touched : Location → Prop} {before after : World}
    (evolves : Evolves made touched before after) (path : Path) :
    after.spot path = before.spot path := by
  rw [World.spot, evolves.cwd, World.spot]

theorem reaches {made touched : Location → Prop} {before after : World} {path : Path}
    (evolves : Evolves made touched before after) (reached : before.Reaches path) :
    after.Reaches path := by
  refine ⟨reached.clean, reached.short, ?_⟩
  rw [evolves.cwd]
  exact reached.passable.mono fun location standing => evolves.directory standing

theorem isDirectory {made touched : Location → Prop} {before after : World} {path : Path}
    (evolves : Evolves made touched before after) (plain : before.Plain)
    (standing : before.isDirectory path = .ok true) : after.isDirectory path = .ok true := by
  rw [plain.isDirectory_iff] at standing
  rw [evolves.plain.isDirectory_iff, evolves.spot]
  exact ⟨evolves.reaches standing.1, evolves.hasDirectory standing.2⟩

theorem located {made touched : Location → Prop} {before after : World} {path : Path}
    {location : Location} {node : Node} (evolves : Evolves made touched before after)
    (plain : before.Plain) (there : before.locate .target path = .ok (.taken location node))
    (apart : ¬ touched location) : after.locate .target path = .ok (.taken location node) := by
  obtain ⟨reaches, spot, standing⟩ := (plain.locate_taken_iff (by simp)).mp there
  exact (evolves.plain.locate_taken_iff (by simp)).mpr
    ⟨evolves.reaches reaches, by rw [evolves.spot, spot], evolves.untouched standing apart⟩

end Evolves

/-- A node put into a directory leaves a plain world when it is no link, and when no
directory is lost by it. -/
theorem Plain.set {world : World} (plain : world.Plain) {directory : Location} {name : Text}
    {node : Node} (parent : world.at? directory = some .directory)
    (unlinked : ∀ target, node ≠ .link target)
    (kept : ¬ world.HasDirectory (directory ++ [name])) :
    (world.set (directory ++ [name]) node).Plain := by
  refine ⟨fun location target => ?_, plain.rooted.insert parent (fun same => kept (Or.inl same)) node,
    plain.named⟩
  change (world.set (directory ++ [name]) node).at? location ≠ _
  rw [at?_set (by simp)]
  split
  · exact fun same => unlinked target (Option.some.inj same)
  · exact plain.linkFree location target

theorem Evolves.of_file {world : World} (plain : world.Plain) {directory : Location} {name : Text}
    (parent : world.at? directory = some .directory)
    (kept : ¬ world.HasDirectory (directory ++ [name])) (mode : Nat) (bytes : Bytes) :
    Evolves (fun _ => False) (· = directory ++ [name]) world
      (world.set (directory ++ [name]) (.file mode bytes)) := by
  refine ⟨rfl, rfl, plain.set parent (by simp) kept, fun location => ?_⟩
  by_cases here : location = directory ++ [name]
  · exact Or.inr (Or.inr ⟨here, here ▸ kept⟩)
  · exact Or.inl (by rw [at?_set (by simp), if_neg here])

/-- The root is a directory. -/
theorem ne_nil_of_kept (world : World) {location : Location}
    (kept : ¬ world.HasDirectory location) : location ≠ [] := by
  rintro rfl
  exact kept (Or.inl (FileSystem.get?_nil world.files))

/-- A file has a name in a directory. -/
theorem Plain.parent {world : World} (plain : world.Plain) {location : Location} {mode : Nat}
    {bytes : Bytes} (standing : world.at? location = some (.file mode bytes)) :
    world.at? location.dropLast = some .directory ∧
      ∃ name, location = location.dropLast ++ [name] := by
  have proper : location ≠ [] := world.ne_nil_of_kept (by simp [HasDirectory, standing])
  have whole := List.dropLast_concat_getLast proper
  refine ⟨plain.rooted _ (location.getLast proper) ?_, _, whole.symm⟩
  rw [whole]
  rw [World.at?] at standing
  simp [standing]

/-- Other bytes in a file that is there. -/
theorem Evolves.of_standing {world : World} (plain : world.Plain) {location : Location}
    {mode : Nat} {bytes : Bytes} (standing : world.at? location = some (.file mode bytes))
    (newMode : Nat) (newBytes : Bytes) :
    Evolves (fun _ => False) (· = location) world (world.set location (.file newMode newBytes)) := by
  obtain ⟨parent, name, whole⟩ := plain.parent standing
  rw [whole] at standing ⊢
  exact Evolves.of_file plain parent (by simp [HasDirectory, standing]) newMode newBytes

theorem Plain.located_set {world : World} (plain : world.Plain) {path : Path} {location : Location}
    {mode : Nat} {bytes : Bytes}
    (located : world.locate .target path = .ok (.taken location (.file mode bytes)))
    (newMode : Nat) (newBytes : Bytes) :
    (world.set location (.file newMode newBytes)).locate .target path =
      .ok (.taken location (.file newMode newBytes)) := by
  obtain ⟨reaches, spot, standing⟩ := (plain.locate_taken_iff (by simp)).mp located
  have evolves := Evolves.of_standing plain standing newMode newBytes
  have proper : location ≠ [] := world.ne_nil_of_kept (by simp [HasDirectory, standing])
  exact (evolves.plain.locate_taken_iff (by simp)).mpr
    ⟨evolves.reaches reaches, by rw [evolves.spot, spot], world.at?_set_self proper _⟩

theorem Evolves.of_directory {world : World} (plain : world.Plain) {directory : Location}
    {name : Text} (parent : world.at? directory = some .directory)
    (free : world.at? (directory ++ [name]) = none) :
    Evolves (· = directory ++ [name]) (fun _ => False) world
      (world.set (directory ++ [name]) .directory) := by
  refine ⟨rfl, rfl, plain.set parent (by simp) (by simp [HasDirectory, free]), fun location => ?_⟩
  by_cases here : location = directory ++ [name]
  · exact Or.inr (Or.inl ⟨here, here ▸ free, by rw [at?_set (by simp), if_pos here]⟩)
  · exact Or.inl (by rw [at?_set (by simp), if_neg here])

theorem at?_erase (world : World) {location : Location} (proper : location ≠ [])
    (other : Location) :
    World.at? { world with files := world.files.erase location } other =
      if other = location then none else world.at? other :=
  FileSystem.get?_erase world.files proper other

theorem Evolves.of_erase {world : World} (plain : world.Plain) {location : Location}
    (kept : ¬ world.HasDirectory location) :
    Evolves (fun _ => False) (· = location) world
      { world with files := world.files.erase location } := by
  have proper := world.ne_nil_of_kept kept
  refine ⟨rfl, rfl, ⟨?_, ?_, plain.named⟩, fun other => ?_⟩
  · intro other target
    change World.at? { world with files := world.files.erase location } other ≠ _
    rw [world.at?_erase proper]
    split
    · simp
    · exact plain.linkFree other target
  · intro above last standing
    change World.at? { world with files := world.files.erase location } (above ++ [last]) ≠ none
      at standing
    change World.at? { world with files := world.files.erase location } above = _
    rw [world.at?_erase proper] at standing ⊢
    by_cases here : above ++ [last] = location
    · exact absurd (if_pos here) standing
    · rw [if_neg here] at standing
      have parent := plain.rooted above last standing
      by_cases erased : above = location
      · exact absurd (Or.inl (erased ▸ parent)) kept
      · rw [if_neg erased]
        exact parent
  · by_cases here : other = location
    · exact Or.inr (Or.inr ⟨here, here ▸ kept⟩)
    · exact Or.inl (by rw [world.at?_erase proper, if_neg here])

theorem Plain.empty (draws : List Draw) : Plain ⟨FileSystem.empty, [], draws, []⟩ := by
  have absent {location : Location} (proper : location ≠ []) :
      FileSystem.empty.get? location = none := by
    rw [FileSystem.get?, if_neg proper]
    exact Tree.get?_empty location
  have root := FileSystem.get?_nil FileSystem.empty
  refine ⟨fun location target => ?_, fun directory name standing => ?_, by simp⟩
  · by_cases proper : location = []
    · rw [proper, root]
      simp
    · rw [absent proper]
      simp
  · exact absurd (absent (by simp)) standing

/-- A disk with nothing but an empty home directory. -/
def bareHome : World :=
  World.set ⟨FileSystem.empty, [], [.ofNat 0], []⟩ ["home".toList] .directory

theorem bareHome_plain : bareHome.Plain :=
  (Plain.empty _).set (FileSystem.get?_nil FileSystem.empty) (by simp) (by decide)

theorem bareHome_isDirectory : bareHome.isDirectory ⟨.root, ["home".toList]⟩ = .ok true :=
  bareHome_plain.isDirectory_iff.mpr ⟨⟨rfl, by decide, rfl, fun _ => by decide, trivial⟩, Or.inl rfl⟩

/-- The home directory with a startup file. -/
def homeWith (bytes : Bytes) : World :=
  bareHome.set ["home".toList, ".zshrc".toList] (.file 0o600 bytes)

theorem homeWith_evolves (bytes : Bytes) :
    Evolves (fun _ => False) (· = ["home".toList, ".zshrc".toList]) bareHome (homeWith bytes) :=
  have parent : bareHome.at? ["home".toList] = some .directory := rfl
  Evolves.of_file bareHome_plain parent (by decide) 0o600 bytes

theorem homeWith_located (bytes : Bytes) :
    (homeWith bytes).locate .target ⟨.root, ["home".toList, ".zshrc".toList]⟩ =
      .ok (.taken ["home".toList, ".zshrc".toList] (.file 0o600 bytes)) := by
  refine ((homeWith_evolves bytes).plain.locate_taken_iff (by simp)).mpr ⟨⟨rfl, by decide, ?_⟩, rfl, rfl⟩
  exact ⟨rfl, fun _ => by decide, rfl, fun _ => by decide, trivial⟩

end TabCompletion.World
