import Mathlib.Data.List.Induction
import TabCompletion.Proofs.World

namespace TabCompletion

namespace FileSystem

/-- Where the text of a link starts from, when the link is in a directory. -/
def linkStart (directory : Location) (target : Text) : Location :=
  if isRooted target then [] else directory

/-- Names lead from one location to another, with that many links followed on the way. -/
inductive Leads (files : FileSystem) : Location → List Text → Nat → Location → Prop
  | here (location) : Leads files location [] 0 location
  | stay {location name rest count there} : files.get? location = some .directory →
      ¬ IsName name → Leads files (stepTo location name) rest count there →
      Leads files location (name :: rest) count there
  | down {location name rest count there} (node : Node) : files.get? location = some .directory →
      IsName name → name.byteCount ≤ maxNameBytes → files.get? (location ++ [name]) = some node →
      (∀ target, node ≠ .link target) → Leads files (location ++ [name]) rest count there →
      Leads files location (name :: rest) count there
  | follow {location name rest first middle later there} (target : Text) :
      files.get? location = some .directory → IsName name → name.byteCount ≤ maxNameBytes →
      files.get? (location ++ [name]) = some (.link target) →
      Leads files (linkStart location target) (target.splitOn '/') first middle →
      Leads files middle rest later there →
      Leads files location (name :: rest) (first + later + 1) there

namespace Leads

variable {files : FileSystem} {location there : Location} {names : List Text} {count : Nat}

/-- Names in a row lead on from where the first of them lead. -/
theorem split {first second : List Text} (leads : Leads files location (first ++ second) count there) :
    ∃ early late middle, Leads files location first early middle ∧
      Leads files middle second late there ∧ count = early + late := by
  induction first generalizing location count with
  | nil => exact ⟨0, count, location, .here location, leads, (Nat.zero_add count).symm⟩
  | cons name rest ih =>
    cases leads with
    | stay directory improper later =>
      obtain ⟨early, late, middle, start, finish, rfl⟩ := ih later
      exact ⟨early, late, middle, .stay directory improper start, finish, rfl⟩
    | down node directory proper short standing unlinked later =>
      obtain ⟨early, late, middle, start, finish, rfl⟩ := ih later
      exact ⟨early, late, middle, .down node directory proper short standing unlinked start, finish, rfl⟩
    | follow target directory proper short standing followed later =>
      obtain ⟨early, late, middle, start, finish, rfl⟩ := ih later
      exact ⟨_, late, middle, .follow target directory proper short standing followed start, finish, by omega⟩

theorem append {middle : Location} {more : List Text} {later : Nat} (leads : Leads files location names count middle)
    (onward : Leads files middle more later there) : Leads files location (names ++ more) (count + later) there := by
  induction leads with
  | here => rwa [Nat.zero_add]
  | stay directory improper _ ih => exact .stay directory improper (ih onward)
  | down node directory proper short standing unlinked _ ih =>
    exact .down node directory proper short standing unlinked (ih onward)
  | @follow location name rest first middle between last target directory proper short standing followed _ _ ihLater =>
    have whole := Leads.follow target directory proper short standing followed (ihLater onward)
    rwa [show first + between + 1 + later = first + (between + later) + 1 by omega]

/-- Names lead to one location, in one way. -/
theorem unique {other : Location} {otherCount : Nat} (leads : Leads files location names count there)
    (leadsOther : Leads files location names otherCount other) :
    count = otherCount ∧ there = other := by
  induction leads generalizing other otherCount with
  | here location =>
    cases leadsOther
    exact ⟨rfl, rfl⟩
  | stay _ improper _ ih =>
    cases leadsOther with
    | stay _ _ later => exact ih later
    | down _ _ proper => exact absurd proper improper
    | follow _ _ proper => exact absurd proper improper
  | down node _ proper _ standing unlinked _ ih =>
    cases leadsOther with
    | stay _ improper _ => exact absurd proper improper
    | down _ _ _ _ _ _ later => exact ih later
    | follow target _ _ _ link _ _ =>
      rw [standing] at link
      exact absurd (Option.some.inj link) (unlinked target)
  | follow target _ proper _ standing _ _ ihFirst ihLater =>
    cases leadsOther with
    | stay _ improper _ => exact absurd proper improper
    | down node _ _ _ other unlinked _ =>
      rw [standing] at other
      exact absurd (Option.some.inj other).symm (unlinked target)
    | follow target' _ _ _ link followed later =>
      rw [standing] at link
      cases link
      obtain ⟨rfl, rfl⟩ := ihFirst followed
      obtain ⟨rfl, rfl⟩ := ihLater later
      exact ⟨rfl, rfl⟩

end Leads

theorem isName_iff {name : Text} :
    IsName name ↔ ¬ (name.isEmpty || name = ['.']) = true ∧ name ≠ ['.', '.'] := by
  simp [IsName, and_assoc]

/-- A walk that ends at a node is led there. -/
theorem leads_of_walk {files : FileSystem} {links : Nat} {location there : Location}
    {names : List Text} {node : Node}
    (walked : files.walk .target links location names = .ok (.taken there node)) :
    files.get? there = some node ∧ ∃ count, Leads files location names count there := by
  fun_induction FileSystem.walk files .target links location names with
  | case1 links here other standing =>
    cases walked
    exact ⟨standing, 0, .here _⟩
  | case3 links here name rest directory stays ih =>
    obtain ⟨standing, count, leads⟩ := ih walked
    have step : stepTo here name = here := if_pos stays
    exact ⟨standing, count, .stay directory (fun proper => (isName_iff.mp proper).1 stays) (by rwa [step])⟩
  | case4 links here rest directory moves ih =>
    obtain ⟨standing, count, leads⟩ := ih walked
    exact ⟨standing, count, .stay directory (by decide) leads⟩
  | case9 links here name rest directory moves notUp reads short target standing through =>
    simp at through
  | case11 here name rest directory moves notUp reads short target standing through links ih =>
    obtain ⟨node_standing, count, leads⟩ := ih walked
    obtain ⟨first, later, middle, followed, leads, -⟩ := leads.split
    exact ⟨node_standing, _, .follow target directory (isName_iff.mpr ⟨moves, notUp⟩)
      (Nat.le_of_not_lt short) standing followed leads⟩
  | case12 links here name rest directory moves notUp reads short other unlinked standing ih =>
    obtain ⟨node_standing, count, leads⟩ := ih walked
    exact ⟨node_standing, count, .down other directory (isName_iff.mpr ⟨moves, notUp⟩)
      (Nat.le_of_not_lt short) standing unlinked leads⟩
  | _ => cases walked

/-- What a name in a directory is to whoever looks it up without following it. -/
def entry (files : FileSystem) (directory : Location) (name : Text) : Place :=
  match files.get? (directory ++ [name]) with
  | some node => .taken (directory ++ [name]) node
  | none => .free directory name

/-- A name in a directory is looked up unless it is too long, or a link to be followed. -/
theorem walk_entry {files : FileSystem} {directory : Location} {name : Text}
    (standing : files.get? directory = some .directory) (proper : IsName name) {ending : Ending}
    (unfollowed : ending = .itself ∨ ∀ target, files.get? (directory ++ [name]) ≠ some (.link target))
    (links : Nat) :
    files.walk ending links directory [name] =
      if maxNameBytes < name.byteCount then .error .nameTooLong else .ok (files.entry directory name) := by
  obtain ⟨moves, notUp⟩ := isName_iff.mp proper
  rw [walk, standing]
  simp only [moves, notUp, onlySlashes, List.isEmpty_nil, Bool.not_true, Bool.false_and, Bool.and_false, Bool.true_and,
    Bool.false_eq_true, if_false, if_true]
  split
  · rfl
  · unfold entry
    cases found : files.get? (directory ++ [name]) with
    | none => rfl
    | some node =>
      cases node with
      | link target =>
        rcases unfollowed with rfl | unlinked
        · rfl
        · exact absurd found (unlinked target)
      | _ => simp only [walk, found]

/-- A walk whose last part is followed, or has a name, does not end before it. -/
theorem goes_on {ending : Ending} {more : List Text} (further : ending = .target ∨ ∃ name ∈ more, name ≠ [])
    (names : List Text) :
    (decide (ending = .output) && onlySlashes (names ++ more)) = false ∧
      ((names ++ more).isEmpty && decide (ending = .itself)) = false := by
  rcases further with rfl | ⟨last, member, solid⟩
  · exact ⟨rfl, Bool.and_false _⟩
  · have inside : last ∈ names ++ more := List.mem_append_right names member
    have filled : (names ++ more).isEmpty = false := List.isEmpty_eq_false_iff.mpr (List.ne_nil_of_mem inside)
    have solidly : (names ++ more).all List.isEmpty = false :=
      List.all_eq_false.mpr ⟨last, inside, by simpa using solid⟩
    rw [onlySlashes, solidly, filled, Bool.and_false, Bool.and_false]
    exact ⟨rfl, rfl⟩

/-- A walk goes on from where its first names lead. -/
theorem Leads.walk {files : FileSystem} {here there : Location} {names more : List Text} {count links : Nat}
    {ending : Ending} (leads : Leads files here names count there) (within : count ≤ links)
    (further : ending = .target ∨ ∃ name ∈ more, name ≠ []) :
    files.walk ending links here (names ++ more) = files.walk ending (links - count) there more := by
  -- The rest of a walk is longer while a link is followed, so that the names after it are free.
  induction leads generalizing links more with
  | here location => rfl
  | @stay location name rest count there directory improper _ ih =>
    rw [List.cons_append, FileSystem.walk, directory, ← ih within further]
    by_cases stays : (name.isEmpty || name = ['.']) = true
    · have step : stepTo location name = location := if_pos stays
      simp only [stays, if_true, step]
    · obtain rfl : name = ['.', '.'] := Classical.byContradiction fun other =>
        improper (isName_iff.mpr ⟨stays, other⟩)
      have step : stepTo location ['.', '.'] = location.dropLast := rfl
      simp only [stays, step, Bool.false_eq_true, if_false, if_true]
  | @down location name rest count there node directory proper short standing unlinked _ ih =>
    obtain ⟨moves, notUp⟩ := isName_iff.mp proper
    rw [List.cons_append, FileSystem.walk, directory, ← ih within further]
    cases node with
    | link target => exact absurd rfl (unlinked target)
    | _ =>
      simp only [moves, notUp, (goes_on further rest).1, Nat.not_lt_of_le short, standing, Bool.false_eq_true,
        if_false]
  | @follow location name rest first middle later there target directory proper short standing _ _ ihFirst
      ihLater =>
    obtain ⟨moves, notUp⟩ := isName_iff.mp proper
    obtain ⟨unslashed, unended⟩ := goes_on further rest
    obtain ⟨links, rfl⟩ : ∃ less, links = less + 1 := ⟨links - 1, by omega⟩
    rw [List.cons_append, FileSystem.walk, directory]
    simp only [moves, notUp, unslashed, unended, Nat.not_lt_of_le short, standing, Bool.false_eq_true, if_false]
    have fewer : links + 1 - (first + later + 1) = links - first - later := by omega
    have early : first ≤ links := by omega
    have late : later ≤ links - first := by omega
    have between : ending = .target ∨ ∃ name ∈ rest ++ more, name ≠ [] :=
      further.imp_right fun ⟨last, member, solid⟩ => ⟨last, List.mem_append_right rest member, solid⟩
    rw [fewer, ← ihLater late further, ← ihFirst early between]
    rfl

/-- What is looked up by its last name is looked up in a directory that the names before it
lead to. -/
theorem leads_of_walk_concat {files : FileSystem} {ending : Ending} {links : Nat} {here : Location}
    {names : List Text} {name : Text} {place : Place} (proper : IsName name)
    (walked : files.walk ending links here (names ++ [name]) = .ok place) :
    ∃ count directory, count ≤ links ∧ Leads files here names count directory ∧
      files.get? directory = some .directory := by
  generalize whole : names ++ [name] = all at walked
  fun_induction FileSystem.walk files ending links here all generalizing names with
  | case1 links here node standing => simp at whole
  | case3 links here first rest directory stays ih =>
    cases names with
    | nil =>
      cases whole
      exact absurd stays (isName_iff.mp proper).1
    | cons other names =>
      cases whole
      obtain ⟨count, there, within, leads, standing⟩ := ih rfl walked
      have step : stepTo here first = here := if_pos stays
      exact ⟨count, there, within, .stay directory (fun named => (isName_iff.mp named).1 stays) (by rwa [step]),
        standing⟩
  | case4 links here rest directory moves ih =>
    cases names with
    | nil =>
      cases whole
      exact absurd rfl (isName_iff.mp proper).2
    | cons other names =>
      cases whole
      obtain ⟨count, there, within, leads, standing⟩ := ih rfl walked
      exact ⟨count, there, within, .stay directory (by decide) leads, standing⟩
  | case7 links here first rest directory moves notUp reads short absent last =>
    cases names with
    | nil => exact ⟨0, here, Nat.zero_le _, .here here, directory⟩
    | cons other names =>
      cases whole
      simp at last
  | case9 links here first rest directory moves notUp reads short target standing through =>
    cases names with
    | nil => exact ⟨0, here, Nat.zero_le _, .here here, directory⟩
    | cons other names =>
      cases whole
      simp at through
  | case11 here first rest directory moves notUp reads short target standing through links ih =>
    cases names with
    | nil => exact ⟨0, here, Nat.zero_le _, .here here, directory⟩
    | cons other names =>
      cases whole
      obtain ⟨count, there, within, leads, standing'⟩ := ih (List.append_assoc _ _ _) walked
      obtain ⟨early, late, middle, followed, onward, rfl⟩ := leads.split
      exact ⟨_, there, Nat.succ_le_succ within, .follow target directory (isName_iff.mpr ⟨moves, notUp⟩)
        (Nat.le_of_not_lt short) standing followed onward, standing'⟩
  | case12 links here first rest directory moves notUp reads short node unlinked standing ih =>
    cases names with
    | nil => exact ⟨0, here, Nat.zero_le _, .here here, directory⟩
    | cons other names =>
      cases whole
      obtain ⟨count, there, within, leads, standing'⟩ := ih rfl walked
      exact ⟨count, there, within, .down node directory (isName_iff.mpr ⟨moves, notUp⟩)
        (Nat.le_of_not_lt short) standing unlinked leads, standing'⟩
  | _ => cases walked

/-- What a name leads to stands in the directory that the names before it lead to. -/
theorem walk_above {files : FileSystem} {links : Nat} {here there : Location} {names : List Text}
    {name : Text} {node : Node} (proper : IsName name)
    (walked : files.walk .target links here (names ++ [name]) = .ok (.taken there node)) :
    ∃ directory, files.walk .target links here names = .ok (.taken directory .directory) ∧
      files.get? (directory ++ [name]) ≠ none := by
  obtain ⟨count, directory, within, leads, standing⟩ := leads_of_walk_concat proper walked
  have led : files.walk .target links here (names ++ []) = files.walk .target (links - count) directory [] :=
    leads.walk within (.inl rfl)
  rw [List.append_nil] at led
  refine ⟨directory, led.trans (walk_nil.mpr ⟨_, standing, rfl⟩), fun absent => ?_⟩
  rw [leads.walk within (.inl rfl), walk_entry standing proper (.inr (by simp [absent])), entry, absent] at walked
  split at walked <;> cases walked

/-- A location that is led to is passed through by its own names, the last one aside, without
any link on the way. -/
structure Clear (files : FileSystem) (location : Location) : Prop where
  named : ∀ name ∈ location, IsName name
  passable : files.Passable [] location
  unlinked : ∀ target, files.get? location ≠ some (.link target)

namespace Clear

variable {files : FileSystem} {location : Location}

theorem root (files : FileSystem) : Clear files [] :=
  ⟨by simp, trivial, by simp [get?_nil]⟩

theorem lexical_eq (clear : Clear files location) : lexical [] location = location := by
  rw [lexical_names clear.named, List.nil_append]

/-- The directory of a location, which is the root for the root itself. -/
theorem directory (clear : Clear files location) (proper : location ≠ []) :
    files.get? location.dropLast = some .directory := by
  obtain ⟨above, name, rfl⟩ : ∃ above name, location = above ++ [name] :=
    ⟨_, _, (List.dropLast_concat_getLast proper).symm⟩
  have named : ∀ other ∈ above, IsName other := fun other member =>
    clear.named other (List.mem_append_left _ member)
  have passable := (Passable.concat_iff.mp clear.passable).2.1
  rw [lexical_names named, List.nil_append] at passable
  rwa [List.dropLast_concat]

theorem dropLast (clear : Clear files location) : Clear files location.dropLast := by
  rcases List.eq_nil_or_concat location with rfl | ⟨above, name, same⟩
  · exact clear
  · have proper : location ≠ [] := by simp [same]
    have directory := clear.directory proper
    rw [List.concat_eq_append] at same
    refine ⟨fun other member => clear.named other (List.dropLast_subset _ member), ?_, ?_⟩
    · subst same
      rw [List.dropLast_concat]
      exact (Passable.concat_iff.mp clear.passable).1
    · rw [directory]
      simp

theorem concat (clear : Clear files location) {name : Text} {node : Node}
    (directory : files.get? location = some .directory) (proper : IsName name)
    (short : name.byteCount ≤ maxNameBytes) (standing : files.get? (location ++ [name]) = some node)
    (unlinked : ∀ target, node ≠ .link target) : Clear files (location ++ [name]) := by
  refine ⟨fun other member => ?_, ?_, fun target => ?_⟩
  · rcases List.mem_append.mp member with old | new
    · exact clear.named other old
    · rwa [List.mem_singleton.mp new]
  · rw [Passable.concat_iff, clear.lexical_eq]
    exact ⟨clear.passable, directory, fun _ => short⟩
  · rw [standing]
    exact fun same => unlinked target (Option.some.inj same)

/-- The last name of a location is looked up in a directory. -/
theorem last {above : Location} {name : Text} (clear : Clear files (above ++ [name])) :
    Clear files above ∧ files.get? above = some .directory ∧ IsName name ∧ name.byteCount ≤ maxNameBytes := by
  have upper := clear.dropLast
  have directory := clear.directory (by simp)
  rw [List.dropLast_concat] at upper directory
  have proper : IsName name := clear.named name (by simp)
  exact ⟨upper, directory, proper, (Passable.concat_iff.mp clear.passable).2.2 proper⟩

theorem leads (clear : Clear files location) {node : Node} (standing : files.get? location = some node) :
    Leads files [] location 0 location := by
  induction location using List.reverseRecOn generalizing node with
  | nil => exact .here []
  | append_singleton above name ih =>
    obtain ⟨upper, directory, proper, short⟩ := clear.last
    have unlinked (target : Text) : node ≠ .link target := fun same =>
      clear.unlinked target (standing.trans (congrArg some same))
    exact (ih upper directory).append (.down node directory proper short standing unlinked (.here _))

/-- A walk goes through a directory without links on the way to it as one from there. -/
theorem walk_append (clear : Clear files location) (directory : files.get? location = some .directory)
    (links : Nat) (names : List Text) :
    files.walk .target links [] (location ++ names) = files.walk .target links location names :=
  (clear.leads directory).walk (Nat.zero_le links) (.inl rfl)

/-- Where there is no link on the way a walk by names alone gets to the location they spell. -/
theorem walk (clear : Clear files location) {node : Node} (standing : files.get? location = some node)
    (ending : Ending) (links : Nat) : files.walk ending links [] location = .ok (.taken location node) := by
  rcases List.eq_nil_or_concat location with rfl | ⟨above, name, same⟩
  · exact walk_nil.mpr ⟨node, standing, rfl⟩
  · rw [List.concat_eq_append] at same
    subst same
    obtain ⟨upper, directory, proper, short⟩ := clear.last
    rw [(upper.leads directory).walk (Nat.zero_le links) (.inr ⟨name, List.mem_singleton_self name, proper.1⟩),
      walk_entry directory proper (.inr clear.unlinked), if_neg (Nat.not_lt_of_le short), entry, standing]

theorem linkStart (clear : Clear files location) (target : Text) :
    Clear files (linkStart location target) := by
  unfold FileSystem.linkStart
  split
  · exact .root files
  · exact clear

end Clear

theorem Leads.clear {files : FileSystem} {location there : Location} {names : List Text} {count : Nat}
    (leads : Leads files location names count there) (clear : Clear files location) :
    Clear files there := by
  induction leads with
  | here location => exact clear
  | @stay location name _ _ _ _ _ _ ih =>
    refine ih ?_
    rcases stepTo_cases location name with ⟨same, -⟩ | ⟨same, -⟩ | ⟨same, proper⟩
    · rwa [same]
    · rw [same]
      exact clear.dropLast
    · contradiction
  | down node directory proper short standing unlinked _ ih =>
    exact ih (clear.concat directory proper short standing unlinked)
  | follow target _ _ _ _ _ _ ihFirst ihLater => exact ihLater (ihFirst (clear.linkStart target))

end FileSystem

namespace World

open FileSystem (Clear maxPathBytes)

variable {world : World} {path : Path} {location : Location} {node : Node}

theorem leads_of_located (absolute : path.isAbsolute = true)
    (located : world.locate .target path = .ok (.taken location node)) :
    world.files.get? location = some node ∧
      ∃ count, FileSystem.Leads world.files [] path.parts count location := by
  obtain ⟨-, -, walked⟩ := locate_eq_ok_iff.mp located
  rw [absolute] at walked
  exact FileSystem.leads_of_walk walked

/-- A location without links on the way is looked up unless the text of its path is too long. -/
theorem locate_of_clear (clear : Clear world.files location)
    (standing : world.files.get? location = some node) (clean : location.toPath.hasNul = false)
    (ending : FileSystem.Ending) :
    world.locate ending location.toPath =
      if maxPathBytes < location.toPath.text.byteCount then
        .error (.refused .nameTooLong location.toPath)
      else .ok (.taken location node) := by
  have walked := clear.walk standing ending FileSystem.maxLinks
  by_cases long : maxPathBytes < location.toPath.text.byteCount
  · simp only [World.locate, clean, FileSystem.locate, long, Bool.false_eq_true, if_true, if_false]
  · rw [if_neg long]
    exact locate_eq_ok_iff.mpr ⟨clean, Nat.le_of_not_lt long, walked⟩

end World

end TabCompletion
