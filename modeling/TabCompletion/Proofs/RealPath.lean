import TabCompletion.Proofs.Leads

namespace TabCompletion

namespace FileSystem

/-- Names spell a location when each link among them is replaced by where it leads, with that
many links followed on the way. What does not exist is passed through by its name, and so is a
file. -/
inductive Resolves (files : FileSystem) : Location → List Text → Nat → Location → Prop
  | here (location) : Resolves files location [] 0 location
  | stay {location name rest count there} : ¬ IsName name →
      Resolves files (stepTo location name) rest count there →
      Resolves files location (name :: rest) count there
  | down {location name rest count there} : IsName name →
      (∀ target, files.get? (location ++ [name]) ≠ some (.link target)) →
      Resolves files (location ++ [name]) rest count there →
      Resolves files location (name :: rest) count there
  | follow {location name rest first middle later there} (target : Text) : IsName name →
      files.get? (location ++ [name]) = some (.link target) →
      Resolves files (linkStart location target) (target.splitOn '/') first middle →
      Resolves files middle rest later there →
      Resolves files location (name :: rest) (first + later + 1) there

theorem Leads.resolves {files : FileSystem} {location there : Location} {names : List Text}
    {count : Nat} (leads : Leads files location names count there) :
    Resolves files location names count there := by
  induction leads with
  | here location => exact .here location
  | stay _ improper _ ih => exact .stay improper ih
  | down node _ proper _ standing unlinked _ ih =>
    refine .down proper (fun target link => ?_) ih
    rw [standing] at link
    exact unlinked target (Option.some.inj link)
  | follow target _ proper _ standing _ _ ihFirst ihLater => exact .follow target proper standing ihFirst ihLater

/-- Names resolve to one location, in one way. -/
theorem Resolves.unique {files : FileSystem} {location there other : Location} {names : List Text}
    {count otherCount : Nat} (resolves : Resolves files location names count there)
    (resolvesOther : Resolves files location names otherCount other) :
    count = otherCount ∧ there = other := by
  induction resolves generalizing other otherCount with
  | here location =>
    cases resolvesOther
    exact ⟨rfl, rfl⟩
  | stay improper _ ih =>
    cases resolvesOther with
    | stay _ later => exact ih later
    | down proper => exact absurd proper improper
    | follow _ proper => exact absurd proper improper
  | down proper unlinked _ ih =>
    cases resolvesOther with
    | stay improper _ => exact absurd proper improper
    | down _ _ later => exact ih later
    | follow target _ link _ _ => exact absurd link (unlinked target)
  | follow target proper standing _ _ ihFirst ihLater =>
    cases resolvesOther with
    | stay improper _ => exact absurd proper improper
    | down _ unlinked _ => exact absurd standing (unlinked target)
    | follow target' _ link followed later =>
      rw [standing] at link
      cases link
      obtain ⟨rfl, rfl⟩ := ihFirst followed
      obtain ⟨rfl, rfl⟩ := ihLater later
      exact ⟨rfl, rfl⟩

/-- Where the link at a location leads, over so many other links. -/
def LinkResolves (files : FileSystem) (link : Location) (count : Nat) (there : Location) : Prop :=
  ∃ target, files.get? link = some (.link target) ∧
    Resolves files (linkStart link.dropLast target) (target.splitOn '/') count there

theorem LinkResolves.unique {files : FileSystem} {link there other : Location} {count otherCount : Nat}
    (resolves : LinkResolves files link count there) (resolvesOther : LinkResolves files link otherCount other) :
    count = otherCount ∧ there = other := by
  obtain ⟨target, standing, followed⟩ := resolves
  obtain ⟨targetOther, standingOther, followedOther⟩ := resolvesOther
  rw [standing] at standingOther
  cases standingOther
  exact followed.unique followedOther

/-- A path that links being followed have left stands for the location it spells. -/
structure Spells (cwd : Location) (path : Path) (location : Location) : Prop where
  settled : Settled path
  single : path.anchor ≠ .doubleRoot
  spelled_eq : spelled cwd path = location

namespace Spells

variable {cwd location : Location} {path : Path} {name : Text}

theorem start (cwd : Location) (absolute : Bool) :
    Spells cwd ⟨if absolute then .root else .relative, []⟩ (if absolute then [] else cwd) := by
  cases absolute
  · exact ⟨by simp [Settled], by simp, rfl⟩
  · exact ⟨by simp [Settled], by simp, rfl⟩

theorem above (spells : Spells cwd path location) : Spells cwd (above path) location.dropLast := by
  obtain ⟨settled, anchor, same⟩ := above_settled spells.settled cwd
  exact ⟨settled, by rw [anchor]; exact spells.single, by rw [same, spells.spelled_eq]⟩

theorem concat (spells : Spells cwd path location) (proper : IsName name) :
    Spells cwd ⟨path.anchor, path.parts ++ [name]⟩ (location ++ [name]) :=
  ⟨spells.settled.concat (.inl proper), spells.single, by
    rw [spelled_concat, spells.spelled_eq, stepTo_name proper]⟩

theorem linkStart (spells : Spells cwd path location) (target : Text) :
    Spells cwd (if isRooted target then ⟨.root, []⟩ else path) (linkStart location target) := by
  unfold FileSystem.linkStart
  split
  · exact start cwd true
  · exact spells

/-- A location is spelled from the root down by its own path alone. -/
theorem toPath_eq (spells : Spells cwd path location) :
    (⟨if path.isAbsolute then path.anchor else .root, spelled cwd path⟩ : Path) = location.toPath := by
  obtain ⟨anchor, parts⟩ := path
  rw [spells.spelled_eq]
  cases anchor with
  | relative => rfl
  | root => rfl
  | doubleRoot => exact absurd rfl spells.single

end Spells

/-- What was noted of links is where they lead. -/
def Truthful (files : FileSystem) (cwd : Location) (seen : Seen) : Prop :=
  ∀ path reached, seen.lookup path = some (some reached) →
    ∀ count there, LinkResolves files (spelled cwd path) count there → Spells cwd reached there

/-- The links that are being followed are among those at these locations. -/
def Opened (cwd : Location) (seen : Seen) (opened : List Location) : Prop :=
  ∀ path, seen.lookup path = some none → spelled cwd path ∈ opened

/-- A link that is being followed has as many links to follow as are left, so that it cannot
be among them. -/
def Pending (files : FileSystem) (opened : List Location) (left : Nat) : Prop :=
  ∀ link ∈ opened, ∀ count there, LinkResolves files link count there → left ≤ count

/-- The count of names in the texts of the links that are not being followed. -/
def unopened (files : FileSystem) (opened : List Location) : Nat :=
  countNames (files.toList.filter fun entry => entry.1 ∉ opened)

theorem countNames_cons (entry : Location × Node) (rest : List (Location × Node)) :
    countNames (entry :: rest) = countNames [entry] + countNames rest := by
  obtain ⟨location, node⟩ := entry
  cases node <;> simp [countNames]

theorem countNames_filter_le (keep : Location × Node → Bool) (entries : List (Location × Node)) :
    countNames (entries.filter keep) ≤ countNames entries := by
  induction entries with
  | nil => exact Nat.le_refl 0
  | cons entry rest ih =>
    rw [countNames_cons, List.filter_cons]
    split
    · rw [countNames_cons]
      exact Nat.add_le_add_left ih _
    · exact Nat.le_trans ih (Nat.le_add_left _ _)

theorem countNames_filter_ne {entries : List (Location × Node)} {link : Location} {target : Text}
    (member : (link, .link target) ∈ entries) :
    (target.splitOn '/').length + countNames (entries.filter fun entry => entry.1 ≠ link) ≤
      countNames entries := by
  induction entries with
  | nil => cases member
  | cons entry rest ih =>
    rw [countNames_cons entry rest]
    rcases List.mem_cons.mp member with rfl | later
    · have others := countNames_filter_le (fun entry => entry.1 ≠ link) rest
      simpa [countNames] using others
    · have further := ih later
      rw [List.filter_cons]
      split
      · rw [countNames_cons]
        omega
      · omega

/-- The names of a link are no longer to be counted once it is being followed. -/
theorem unopened_cons {files : FileSystem} {opened : List Location} {link : Location} {target : Text}
    (proper : link ≠ []) (standing : files.get? link = some (.link target)) (fresh : link ∉ opened) :
    (target.splitOn '/').length + unopened files (link :: opened) ≤ unopened files opened := by
  have listed : (link, Node.link target) ∈ files.toList := by
    rw [get?, if_neg proper] at standing
    exact Tree.mem_toList standing
  have within : (link, Node.link target) ∈ files.toList.filter fun entry => entry.1 ∉ opened := by
    simp [listed, fresh]
  have counted := countNames_filter_ne within
  rw [List.filter_filter] at counted
  unfold unopened
  simpa [List.mem_cons, not_or, Bool.and_comm] using counted

theorem Seen.lookup_cons (path other : Path) (reached : Option Path) (seen : Seen) :
    List.lookup other ((path, reached) :: seen) =
      if other = path then some reached else seen.lookup other := by
  by_cases same : other = path
  · simp [same]
  · simp [List.lookup_cons, beq_eq_false_iff_ne.mpr same, same]

section Following

variable {files : FileSystem} {cwd : Location} {seen : Seen} {opened : List Location} {path : Path}
  {link middle : Location} {count : Nat}

theorem Truthful.begin (truthful : Truthful files cwd seen) : Truthful files cwd ((path, none) :: seen) := by
  intro other reached noted
  rw [Seen.lookup_cons] at noted
  split at noted
  · cases noted
  · exact truthful other reached noted

theorem Truthful.finish (truthful : Truthful files cwd seen)
    (resolves : LinkResolves files (spelled cwd path) count middle) {reached : Path}
    (spells : Spells cwd reached middle) : Truthful files cwd ((path, some reached) :: seen) := by
  intro other known noted links there resolvesOther
  rw [Seen.lookup_cons] at noted
  split at noted
  · rename_i same
    cases noted
    subst same
    rwa [← (resolves.unique resolvesOther).2]
  · exact truthful other known noted links there resolvesOther

theorem Opened.begin (within : Opened cwd seen opened) :
    Opened cwd ((path, none) :: seen) (spelled cwd path :: opened) := by
  intro other noted
  rw [Seen.lookup_cons] at noted
  split at noted
  · rename_i same
    rw [same]
    exact List.mem_cons_self
  · exact List.mem_cons_of_mem _ (within other noted)

theorem Pending.begin {left : Nat} (pending : Pending files opened left)
    (resolves : LinkResolves files link count middle) (fewer : count ≤ left) :
    Pending files (link :: opened) count := by
  intro other member links there resolvesOther
  rcases List.mem_cons.mp member with rfl | older
  · exact Nat.le_of_eq (resolves.unique resolvesOther).1
  · exact Nat.le_trans fewer (pending other older links there resolvesOther)

theorem Pending.mono {left fewer : Nat} (pending : Pending files opened left) (le : fewer ≤ left) :
    Pending files opened fewer :=
  fun link member count there resolves => Nat.le_trans le (pending link member count there resolves)

/-- Once a link has been followed no more links are being followed than before. -/
theorem Seen.lookup_finish {after : Seen} {reached : Path}
    (within : ∀ other, after.lookup other = some none → List.lookup other ((path, none) :: seen) = some none)
    {other : Path} (noted : List.lookup other ((path, some reached) :: after) = some none) :
    seen.lookup other = some none := by
  rw [Seen.lookup_cons] at noted
  split at noted
  · cases noted
  · rename_i differ
    have before := within other noted
    rwa [Seen.lookup_cons, if_neg differ] at before

end Following

section Steps

variable {files : FileSystem} {cwd location : Location} {fuel : Nat} {seen between : Seen}
  {here known reached : Path} {name target : Text} {rest : List Text}

theorem realFrom_stay (improper : ¬ IsName name) :
    files.realFrom cwd fuel seen here (name :: rest) =
      files.realFrom cwd fuel seen (if name = ['.', '.'] then above here else here) rest := by
  rw [realFrom]
  by_cases stays : (name.isEmpty || name = ['.']) = true
  · have other : name ≠ ['.', '.'] := by
      rintro rfl
      simp at stays
    rw [if_pos stays, if_neg other]
  · obtain rfl : name = ['.', '.'] := Classical.byContradiction fun other =>
      improper (isName_iff.mpr ⟨stays, other⟩)
    rw [if_neg stays, if_pos rfl, if_pos rfl]

theorem Spells.stay (spells : Spells cwd here location) (improper : ¬ IsName name) :
    Spells cwd (if name = ['.', '.'] then FileSystem.above here else here) (stepTo location name) := by
  by_cases up : name = ['.', '.']
  · subst up
    exact spells.above
  · rw [if_neg up]
    rcases stepTo_cases location name with ⟨same, -⟩ | ⟨-, rfl⟩ | ⟨-, proper⟩
    · rwa [same]
    · exact absurd rfl up
    · exact absurd proper improper

theorem realFrom_down (spells : Spells cwd here location) (proper : IsName name)
    (unlinked : ∀ target, files.get? (location ++ [name]) ≠ some (.link target)) :
    files.realFrom cwd fuel seen here (name :: rest) =
      files.realFrom cwd fuel seen ⟨here.anchor, here.parts ++ [name]⟩ rest := by
  obtain ⟨moves, notUp⟩ := isName_iff.mp proper
  rw [realFrom]
  simp only [moves, notUp, if_false, (spells.concat proper).spelled_eq]
  cases standing : files.get? (location ++ [name]) with
  | none => rfl
  | some node =>
    cases node with
    | link target => exact absurd standing (unlinked target)
    | _ => rfl

theorem realFrom_known (spells : Spells cwd here location) (proper : IsName name)
    (standing : files.get? (location ++ [name]) = some (.link target))
    (noted : seen.lookup ⟨here.anchor, here.parts ++ [name]⟩ = some (some known)) :
    files.realFrom cwd fuel seen here (name :: rest) = files.realFrom cwd fuel seen known rest := by
  obtain ⟨moves, notUp⟩ := isName_iff.mp proper
  rw [realFrom]
  simp only [moves, notUp, Bool.false_eq_true, if_false, (spells.concat proper).spelled_eq, standing, noted]

theorem realFrom_follow (spells : Spells cwd here location) (proper : IsName name)
    (standing : files.get? (location ++ [name]) = some (.link target))
    (unknown : seen.lookup ⟨here.anchor, here.parts ++ [name]⟩ = none)
    (followed : files.realFrom cwd fuel ((⟨here.anchor, here.parts ++ [name]⟩, none) :: seen)
      (if isRooted target then ⟨.root, []⟩ else here) (target.splitOn '/') = (reached, true, between)) :
    files.realFrom cwd (fuel + 1) seen here (name :: rest) =
      files.realFrom cwd fuel ((⟨here.anchor, here.parts ++ [name]⟩, some reached) :: between) reached rest := by
  obtain ⟨moves, notUp⟩ := isName_iff.mp proper
  rw [realFrom]
  simp only [moves, notUp, Bool.false_eq_true, if_false, (spells.concat proper).spelled_eq, standing, unknown,
    followed, if_true]

end Steps

/-- The notes on links hold, and links that are being followed are not met while there are so many
links to follow. -/
structure Sound (files : FileSystem) (cwd : Location) (seen : Seen) (opened : List Location) (left : Nat) :
    Prop where
  truthful : Truthful files cwd seen
  within : Opened cwd seen opened
  pending : Pending files opened left

namespace Sound

variable {files : FileSystem} {cwd link middle : Location} {seen after : Seen} {opened : List Location}
  {left fewer count : Nat} {path reached : Path}

theorem mono (sound : Sound files cwd seen opened left) (le : fewer ≤ left) :
    Sound files cwd seen opened fewer :=
  ⟨sound.truthful, sound.within, sound.pending.mono le⟩

theorem begin (sound : Sound files cwd seen opened left) (spells : spelled cwd path = link)
    (resolves : LinkResolves files link count middle) (fewer : count ≤ left) :
    Sound files cwd ((path, none) :: seen) (link :: opened) count :=
  ⟨sound.truthful.begin, spells ▸ sound.within.begin, sound.pending.begin resolves fewer⟩

/-- A link that is met while it is being followed would have more links to follow than it has. -/
theorem fresh (sound : Sound files cwd seen opened left) (resolves : LinkResolves files link count middle)
    (fewer : count < left) : link ∉ opened :=
  fun member => Nat.not_le_of_lt fewer (sound.pending link member count middle resolves)

theorem finish (sound : Sound files cwd seen opened left) (truthful : Truthful files cwd after)
    (kept : ∀ other, after.lookup other = some none → List.lookup other ((path, none) :: seen) = some none)
    (resolves : LinkResolves files (spelled cwd path) count middle) (spells : Spells cwd reached middle) :
    Sound files cwd ((path, some reached) :: after) opened left :=
  ⟨truthful.finish resolves spells, fun other noted => sound.within other (Seen.lookup_finish kept noted),
    sound.pending⟩

end Sound

/-- Following links gets from a path along names to the path of a location, and leaves notes that
hold, with no more links that are being followed. -/
def Gets (files : FileSystem) (cwd : Location) (fuel : Nat) (seen : Seen) (here : Path) (names : List Text)
    (there : Location) : Prop :=
  ∃ reached after, files.realFrom cwd fuel seen here names = (reached, true, after) ∧
    Spells cwd reached there ∧ Truthful files cwd after ∧
    ∀ path, after.lookup path = some none → seen.lookup path = some none

/-- Following links by what was noted of them gets where the names resolve to. -/
theorem gets_of_resolves {files : FileSystem} {location there : Location} {names : List Text}
    {count : Nat} (resolves : Resolves files location names count there) {cwd : Location} {here : Path}
    (spells : Spells cwd here location) {fuel : Nat} {seen : Seen} {opened : List Location}
    (sound : Sound files cwd seen opened count) (enough : names.length + unopened files opened ≤ fuel) :
    Gets files cwd fuel seen here names there := by
  -- The notes on links grow on the way, so that all that is known of them is carried along.
  induction resolves generalizing here fuel seen opened with
  | here location =>
    exact ⟨here, seen, by rw [realFrom], spells, sound.truthful, fun _ noted => noted⟩
  | stay improper resolves ih =>
    rw [List.length_cons] at enough
    rw [Gets, realFrom_stay improper]
    exact ih (spells.stay improper) sound (by omega)
  | down proper unlinked resolves ih =>
    rw [List.length_cons] at enough
    rw [Gets, realFrom_down spells proper unlinked]
    exact ih (spells.concat proper) sound (by omega)
  | @follow location name rest first middle later there target proper standing followed resolves
      ihFirst ihLater =>
    rw [List.length_cons] at enough
    have next := spells.concat proper
    have link : LinkResolves files (location ++ [name]) first middle :=
      ⟨target, standing, by rwa [List.dropLast_concat]⟩
    have resolved : LinkResolves files (spelled cwd ⟨here.anchor, here.parts ++ [name]⟩) first middle := by
      rwa [next.spelled_eq]
    have fresh : location ++ [name] ∉ opened := sound.fresh link (by omega)
    cases noted : seen.lookup ⟨here.anchor, here.parts ++ [name]⟩ with
    | some known =>
      cases known with
      | some reached =>
        rw [Gets, realFrom_known spells proper standing noted]
        exact ihLater (sound.truthful _ reached noted first middle resolved) (sound.mono (by omega)) (by omega)
      | none => exact absurd (next.spelled_eq ▸ sound.within _ noted) fresh
    | none =>
      -- The names of the link are no longer counted while it is followed.
      have cheaper := unopened_cons (by simp) standing fresh
      obtain ⟨fuel, rfl⟩ : ∃ less, fuel = less + 1 := ⟨fuel - 1, by omega⟩
      have enoughFirst :
          (target.splitOn '/').length + unopened files ((location ++ [name]) :: opened) ≤ fuel := by omega
      have enoughLater : rest.length + unopened files opened ≤ fuel := by omega
      obtain ⟨reached, between, run, spellsMiddle, truthful, kept⟩ :=
        ihFirst (spells.linkStart target) (sound.begin next.spelled_eq link (by omega)) enoughFirst
      have soundLater := (sound.mono (by omega : later ≤ first + later + 1)).finish truthful kept resolved spellsMiddle
      obtain ⟨last, after, runLater, spellsThere, truthfulAfter, keptLater⟩ :=
        ihLater spellsMiddle soundLater enoughLater
      refine ⟨last, after, ?_, spellsThere, truthfulAfter,
        fun path noted => Seen.lookup_finish kept (keptLater path noted)⟩
      rw [realFrom_follow spells proper standing noted run, runLater]

/-- A path that resolves to a location is, once all links are followed, the path of the location. -/
theorem real_of_resolves {files : FileSystem} {cwd there : Location} {path : Path} {count : Nat}
    (resolves : Resolves files (if path.isAbsolute then [] else cwd) path.parts count there) :
    files.real cwd path = there.toPath := by
  have sound : Sound files cwd [] [] count :=
    ⟨fun _ _ noted => (by cases noted), fun _ noted => (by cases noted), fun _ member => (by cases member)⟩
  have enough : path.parts.length + unopened files [] ≤ files.followFuel cwd path := by
    have all : unopened files [] = countNames files.toList :=
      congrArg countNames (List.filter_eq_self.mpr (by simp))
    rw [all]
    exact Nat.le_mul_of_pos_right _ (by omega)
  obtain ⟨reached, after, run, spells, -, -⟩ :=
    gets_of_resolves resolves (.start cwd path.isAbsolute) sound enough
  rw [← spells.toPath_eq]
  simp only [real, run]

end FileSystem

namespace World

open FileSystem (Clear maxPathBytes)

variable {world : World} {path : Path} {location : Location} {node : Node}

/-- A path is followed to a location that has no links on the way. -/
theorem realPath_of_clear (clean : path.hasNul = false) (real : world.files.real world.cwd path = location.toPath)
    (clear : Clear world.files location) (standing : world.files.get? location = some node)
    (cleanThere : location.toPath.hasNul = false) : world.realPath path = .ok location.toPath := by
  have again : world.locate .target location.toPath = _ := locate_of_clear clear standing cleanThere _
  simp only [World.realPath, clean, Bool.false_eq_true, if_false, real, again]
  by_cases long : maxPathBytes < location.toPath.text.byteCount
  · simp only [long, if_true]
  · simp only [long, if_false]

/-- The real path of a path that leads to a node is that of the node's location. -/
theorem realPath_of_located (absolute : path.isAbsolute = true)
    (located : world.locate .target path = .ok (.taken location node))
    (clean : location.toPath.hasNul = false) : world.realPath path = .ok location.toPath := by
  obtain ⟨standing, count, leads⟩ := leads_of_located absolute located
  have real : world.files.real world.cwd path = location.toPath :=
    FileSystem.real_of_resolves (by rw [absolute]; exact leads.resolves)
  exact realPath_of_clear (locate_eq_ok_iff.mp located).1 real (leads.clear (.root world.files)) standing clean

end World

end TabCompletion
