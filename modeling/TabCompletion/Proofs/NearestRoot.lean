import Mathlib
import TabCompletion.Proofs.Candidates
import TabCompletion.Proofs.Clean
import TabCompletion.Proofs.PathText

namespace TabCompletion

open FileSystem (Clear Leads)

namespace Path

theorem div_isAbsolute {path : Path} (absolute : path.isAbsolute = true) (name : Text) :
    (path / name).isAbsolute = true :=
  join_isAbsolute absolute _

theorem parents_nil (anchor : Anchor) : (⟨anchor, []⟩ : Path).parents = [] := rfl

theorem parents_child (path : Path) (name : Text) : (path.child name).parents = path :: path.parents := by
  obtain ⟨anchor, parts⟩ := path
  simp only [parents, child, List.length_append, List.length_singleton, List.range_succ_eq_map, List.map_cons,
    List.map_map, List.cons.injEq]
  refine ⟨by simp, List.map_congr_left fun count member => ?_⟩
  have upTo : parts.length + 1 - 1 - (count + 1) = parts.length - 1 - count := by omega
  rw [Function.comp, Nat.succ_eq_add_one, upTo, List.take_append_of_le_length (by omega)]

namespace AtOrAbove

theorem refl (path : Path) : path.AtOrAbove path :=
  ⟨rfl, List.prefix_rfl⟩

theorem trans {first second third : Path} (upper : first.AtOrAbove second) (lower : second.AtOrAbove third) :
    first.AtOrAbove third :=
  ⟨upper.anchor.trans lower.anchor, upper.parts.trans lower.parts⟩

theorem antisymm {first second : Path} (above : first.AtOrAbove second) (below : second.AtOrAbove first) :
    first = second := by
  obtain ⟨anchor, parts⟩ := first
  have anchors : anchor = second.anchor := above.anchor
  have same : parts = second.parts := above.parts.eq_of_length_le below.parts.length_le
  rw [anchors, same]

/-- Of two paths at or above a third one, one is at or above the other. -/
theorem total {first second path : Path} (above : first.AtOrAbove path) (other : second.AtOrAbove path) :
    first.AtOrAbove second ∨ second.AtOrAbove first :=
  (List.prefix_or_prefix_of_prefix above.parts other.parts).imp
    (⟨above.anchor.trans other.anchor.symm, ·⟩) (⟨other.anchor.trans above.anchor.symm, ·⟩)

theorem child_iff {above path : Path} {name : Text} :
    above.AtOrAbove (path.child name) ↔ above = path.child name ∨ above.AtOrAbove path := by
  constructor
  · intro upper
    rcases List.prefix_concat_iff.mp upper.parts with same | shorter
    · obtain ⟨anchor, parts⟩ := above
      have anchors : anchor = path.anchor := upper.anchor
      have parts : parts = _ := same
      exact Or.inl (by rw [anchors, parts]; rfl)
    · exact Or.inr ⟨upper.anchor, shorter⟩
  · rintro (rfl | upper)
    · exact refl _
    · exact ⟨upper.anchor, upper.parts.trans (List.prefix_append _ _)⟩

end AtOrAbove

/-- The paths from one up to the root. -/
def upward (path : Path) : List Path :=
  path :: path.parents

theorem isAbsolute_of_mem_upward {path other : Path} (member : other ∈ path.upward)
    (absolute : path.isAbsolute = true) : other.isAbsolute = true := by
  rcases List.mem_cons.mp member with rfl | above
  · exact absolute
  · obtain ⟨count, -, rfl⟩ := List.mem_map.mp above
    exact absolute

theorem upward_child (path : Path) (name : Text) : (path.child name).upward = path.child name :: path.upward := by
  rw [upward, parents_child, upward]

end Path

namespace Project

variable {world : World} {origin path : Path} {answer : Except Fault (Option Path)}

theorem standsIn_eq (world : World) (path : Path) :
    standsIn world path = world.isDirectory (path.child Product.name) :=
  congrArg world.isDirectory (Path.div_eq_child (by decide) path)

/-- A path that the search upward from another one comes to: no project stands in any deeper one. -/
structure Comes (world : World) (origin path : Path) : Prop where
  above : path.AtOrAbove origin
  deeper : ∀ other : Path, other.AtOrAbove origin → path.AtOrAbove other → other ≠ path →
    standsIn world other = .ok false

/-- How the search upward from a path ends: at the deepest directory that a project stands in, without
any, or where the system refuses to look. -/
inductive Search (world : World) (origin : Path) : Except Fault (Option Path) → Prop where
  | finds {path : Path} (comes : Comes world origin path) (stands : standsIn world path = .ok true) :
      Search world origin (.ok (some path))
  | nothing (bare : ∀ path : Path, path.AtOrAbove origin → standsIn world path = .ok false) :
      Search world origin (.ok none)
  | refused {path : Path} {refusal : Refusal} (comes : Comes world origin path)
      (refused : standsIn world path = .error (.refused refusal (path.child Product.name)))
      (kind : refusal = .nameTooLong ∨ refusal = .denied) :
      Search world origin (.error (.refused refusal (path.child Product.name)))

theorem Comes.refl (world : World) (origin : Path) : Comes world origin origin :=
  ⟨.refl origin, fun _ above below other => absurd (above.antisymm below) other⟩

theorem Comes.child {name : Text} (comes : Comes world origin path)
    (bare : standsIn world (origin.child name) = .ok false) : Comes world (origin.child name) path := by
  refine ⟨Path.AtOrAbove.child_iff.mpr (Or.inr comes.above), fun other above below differ => ?_⟩
  rcases Path.AtOrAbove.child_iff.mp above with rfl | above
  · exact bare
  · exact comes.deeper other above below differ

/-- The search comes to one path that stops it at most. -/
theorem Comes.unique {other : Path} (comes : Comes world origin path) (comesOther : Comes world origin other)
    (stops : standsIn world path ≠ .ok false) (stopsOther : standsIn world other ≠ .ok false) : path = other := by
  refine Classical.byContradiction fun differ => ?_
  rcases comes.above.total comesOther.above with above | below
  · exact stopsOther (comes.deeper other comesOther.above above (Ne.symm differ))
  · exact stops (comesOther.deeper path comes.above below differ)

theorem Search.child {name : Text} (search : Search world origin answer)
    (bare : standsIn world (origin.child name) = .ok false) : Search world (origin.child name) answer := by
  cases search with
  | finds comes stands => exact .finds (comes.child bare) stands
  | refused comes refused kind => exact .refused (comes.child bare) refused kind
  | nothing all =>
    refine .nothing fun path above => ?_
    rcases Path.AtOrAbove.child_iff.mp above with rfl | above
    · exact bare
    · exact all path above

theorem Search.unique {other : Except Fault (Option Path)} (search : Search world origin answer)
    (searchOther : Search world origin other) : answer = other := by
  cases search with
  | finds comes stands =>
    cases searchOther with
    | finds comesOther standsOther => rw [comes.unique comesOther (by simp [stands]) (by simp [standsOther])]
    | nothing bare => simp [bare _ comes.above] at stands
    | refused comesOther refused _ =>
      rw [comes.unique comesOther (by simp [stands]) (by simp [refused]), refused] at stands
      cases stands
  | nothing bare =>
    cases searchOther with
    | finds comes stands => simp [bare _ comes.above] at stands
    | nothing _ => rfl
    | refused comes refused _ => simp [bare _ comes.above] at refused
  | refused comes refused _ =>
    cases searchOther with
    | finds comesOther stands =>
      rw [comes.unique comesOther (by simp [refused]) (by simp [stands]), stands] at refused
      cases refused
    | nothing bare => simp [bare _ comes.above] at refused
    | refused comesOther refusedOther _ =>
      obtain rfl := comes.unique comesOther (by simp [refused]) (by simp [refusedOther])
      rw [Except.error.inj (refused.symm.trans refusedOther)]

/-- The search stops where it begins unless no project stands there. -/
theorem search_here (stops : standsIn world origin ≠ .ok false) (rest : List Path) :
    Search world origin (first? world (origin :: rest)) := by
  rw [first?]
  cases stood : standsIn world origin with
  | error fault =>
    rw [standsIn_eq] at stood
    rcases World.leadsTo_refused stood with rfl | rfl
    · exact .refused (.refl world origin) ((standsIn_eq world origin).trans stood) (Or.inl rfl)
    · exact .refused (.refl world origin) ((standsIn_eq world origin).trans stood) (Or.inr rfl)
  | ok stands =>
    cases stands with
    | true => exact .finds (.refl world origin) stood
    | false => exact absurd stood stops

theorem first?_past (bare : standsIn world path = .ok false) (rest : List Path) :
    first? world (path :: rest) = first? world rest := by
  rw [first?, bare]
  rfl

theorem search_upward (world : World) (origin : Path) : Search world origin (first? world origin.upward) := by
  obtain ⟨anchor, parts⟩ := origin
  -- From the last part on: what is above a child is its parent and what is above that.
  induction parts using List.reverseRecOn with
  | nil =>
    by_cases bare : standsIn world ⟨anchor, []⟩ = .ok false
    · rw [Path.upward, Path.parents_nil, first?_past bare]
      refine .nothing fun path above => ?_
      rwa [above.antisymm ⟨above.anchor.symm, List.nil_prefix⟩]
    · exact search_here bare _
  | append_singleton parts name ih =>
    by_cases bare : standsIn world (Path.child ⟨anchor, parts⟩ name) = .ok false
    · have past := ih.child bare
      rw [← first?_past bare, ← Path.upward_child] at past
      exact past
    · exact search_here bare _

/-- From anywhere between, the search comes to the same directory. -/
theorem Search.from_between {found : Path} (search : Search world origin (.ok (some found)))
    (above : path.AtOrAbove origin) (below : found.AtOrAbove path) : Search world path (.ok (some found)) := by
  cases search with
  | finds comes stands =>
    exact .finds ⟨below, fun other upper lower differ => comes.deeper other (upper.trans above) lower differ⟩ stands

end Project

namespace World

/-- A path names a directory, which need not be one that may be searched, however long its text is and
however many links are on its way. -/
structure Names (world : World) (path : Path) (location : Location) : Prop where
  clean : path.hasNul = false
  leads : ∃ count, Leads world.files (if path.isAbsolute then [] else world.cwd) path.parts count location
  directory : world.HasDirectory location

variable {world : World} {path : Path} {location : Location}

theorem HasDirectory.standing (directory : world.HasDirectory location) :
    ∃ node, world.files.get? location = some node :=
  directory.elim (⟨_, ·⟩) (⟨_, ·⟩)

theorem names_of_located (located : world.locate .target path = .ok (.taken location .directory)) :
    world.Names path location := by
  obtain ⟨clean, -, walked⟩ := locate_eq_ok_iff.mp located
  obtain ⟨directory, leads⟩ := FileSystem.leads_of_walk walked
  exact ⟨clean, leads, .inl directory⟩

theorem Names.clear (names : world.Names path location)
    (settled : path.isAbsolute = true ∨ Clear world.files world.cwd) : Clear world.files location := by
  obtain ⟨count, leads⟩ := names.leads
  refine leads.clear ?_
  split
  · exact .root world.files
  · rename_i relative
    exact settled.resolve_left relative

theorem Names.nulFree (names : world.Names path location) (clean : world.Clean) : NulFree location := by
  obtain ⟨count, leads⟩ := names.leads
  refine clean.leads leads ?_ ?_
  · split
    · exact fun _ member => by cases member
    · exact clean.cwd
  · exact NulFree.of_path names.clean

/-- The real path of a path that names a directory is that of the directory's location. -/
theorem Names.realPath (names : world.Names path location) (clean : world.Clean)
    (settled : path.isAbsolute = true ∨ Clear world.files world.cwd) : world.realPath path = .ok location.toPath := by
  obtain ⟨count, leads⟩ := names.leads
  obtain ⟨node, standing⟩ := names.directory.standing
  exact realPath_of_clear names.clean (FileSystem.real_of_resolves leads.resolves) (names.clear settled)
    standing (names.nulFree clean).hasNul

/-- A directory without links on the way to it is named by the path of its location. -/
theorem names_toPath (clear : Clear world.files location) (directory : world.HasDirectory location)
    (clean : NulFree location) : world.Names location.toPath location := by
  obtain ⟨node, standing⟩ := directory.standing
  exact ⟨clean.hasNul, ⟨0, clear.leads standing⟩, directory⟩

/-- What is above a directory is one too, and no link is on the way to it. -/
theorem HasDirectory.above {upper : Location} (directory : world.HasDirectory location)
    (clear : Clear world.files location) (above : upper <+: location) :
    Clear world.files upper ∧ world.HasDirectory upper := by
  induction location using List.reverseRecOn with
  | nil =>
    rw [List.prefix_nil.mp above]
    exact ⟨clear, directory⟩
  | append_singleton location name ih =>
    rcases List.prefix_concat_iff.mp above with rfl | above
    · exact ⟨clear, directory⟩
    · obtain ⟨higher, there, -⟩ := clear.last
      exact ih (.inl there) higher above

/-- What an absolute path leads to does not hang on the working directory. -/
theorem leadsTo_cwd (absolute : path.isAbsolute = true) (cwd : Location) (test : Node → Bool) :
    World.leadsTo { world with cwd := cwd } test path = world.leadsTo test path := by
  simp only [leadsTo, locate, FileSystem.locate, absolute, if_true]

theorem list_cwd (absolute : path.isAbsolute = true) (cwd : Location) :
    World.list { world with cwd := cwd } path = world.list path := by
  simp only [list, locate, FileSystem.locate, absolute, if_true]

end World

namespace FileSystem

variable {files : FileSystem} {here : Location} {name : Text}

/-- One step of a walk: to a directory below, to where a link there leads, or nowhere. -/
theorem walk_step (directory : files.get? here = some .directory) (proper : IsName name) (links : Nat)
    (rest : List Text) :
    files.walk .target links here (name :: rest) =
      if maxNameBytes < name.byteCount then .error .nameTooLong
      else
        match files.get? (here ++ [name]), links with
        | none, _ => if rest.isEmpty then .ok (.free here name) else .error .noEntry
        | some (.link _), 0 => .error .linkLoop
        | some (.link target), links + 1 =>
          files.walk .target links (linkStart here target) (target.splitOn '/' ++ rest)
        | some _, links => files.walk .target links (here ++ [name]) rest := by
  obtain ⟨moves, notUp⟩ := isName_iff.mp proper
  rw [walk, directory]
  simp only [moves, notUp, Bool.false_eq_true, if_false, reduceCtorEq, decide_false, Bool.false_and, Bool.and_false]
  split
  · rfl
  · cases files.get? (here ++ [name]) with
    | none => rfl
    | some node => cases node <;> cases links <;> rfl

theorem linkStart_entry {target : Text} (entry : IsEntry target) (directory : Location) :
    linkStart directory target = directory := by
  refine if_neg fun rooted => ?_
  unfold isRooted at rooted
  split at rooted
  · exact entry.single List.mem_cons_self
  · cases rooted

end FileSystem

namespace Project

variable {world : World}

section Elsewhere

variable {path : Path} (absolute : path.isAbsolute = true) (cwd : Location)

include absolute

theorem category_isAbsolute (category : Category) : (category.directory path).isAbsolute = true := by
  have base := Path.div_isAbsolute absolute Product.name
  cases category with
  | changes => exact Path.div_isAbsolute base _
  | specs => exact Path.div_isAbsolute base _
  | archivedChanges => exact Path.div_isAbsolute (Path.div_isAbsolute base _) _

theorem qualifies_cwd (category : Category) (name : Text) :
    qualifies { world with cwd := cwd } category path name = qualifies world category path name := by
  have entry := Path.div_isAbsolute absolute name
  have file (name : Text) := Path.div_isAbsolute entry name
  simp only [qualifies, World.isDirectory, World.isFile, World.leadsTo_cwd entry, World.leadsTo_cwd (file _)]

theorem qualified_cwd (category : Category) (names : List Text) :
    qualified { world with cwd := cwd } category path names = qualified world category path names := by
  induction names with
  | nil => rfl
  | cons name names ih => rw [qualified, qualified, qualifies_cwd absolute, ih]

/-- The candidates of a project do not hang on the directory in which one asks for them. -/
theorem candidates_cwd (word : Text) :
    candidates { world with cwd := cwd } path word = candidates world path word := by
  have names (category : Category) :
      identifiers { world with cwd := cwd } path category = identifiers world path category := by
    have directory := category_isAbsolute absolute category
    simp only [identifiers, World.isDirectory, World.leadsTo_cwd directory, World.list_cwd directory,
      qualified_cwd directory]
  simp only [candidates, names]

theorem standsIn_cwd : standsIn { world with cwd := cwd } path = standsIn world path :=
  World.leadsTo_cwd (Path.div_isAbsolute absolute Product.name) cwd _

end Elsewhere

theorem first?_cwd (cwd : Location) {paths : List Path} (absolute : ∀ path ∈ paths, path.isAbsolute = true) :
    first? { world with cwd := cwd } paths = first? world paths := by
  induction paths with
  | nil => rfl
  | cons path paths ih =>
    rw [first?, first?, standsIn_cwd (absolute path List.mem_cons_self),
      ih fun other member => absolute other (List.mem_cons_of_mem path member)]

theorem root_of_realPath {start origin : Path} (resolved : world.realPath start = .ok origin) :
    root world start = (first? world origin.upward).map (·.getD origin) := by
  rw [root, resolved]
  change (first? world origin.upward >>= fun found => .ok (found.getD origin)) = _
  cases first? world origin.upward <;> rfl

/-- A directory that no link is on the way to is where the search from it begins. -/
theorem root_toPath {location : Location} (clean : world.Clean)
    (names : world.Names location.toPath location) :
    root world location.toPath =
      (first? world location.toPath.upward).map (·.getD location.toPath) :=
  root_of_realPath (names.realPath clean (Or.inl rfl))

/-- In another directory the search from there goes on alike. -/
theorem found_elsewhere {location : Location} {nearest : Path} (clean : world.Clean)
    (clear : Clear world.files location) (directory : world.HasDirectory location)
    (nulFree : NulFree location) (absolute : nearest.isAbsolute = true)
    (searched : (first? world location.toPath.upward).map (·.getD location.toPath) = .ok nearest) (word : Text) :
    found { world with cwd := location } word = candidates world nearest word := by
  have there : World.Clean { world with cwd := location } := ⟨nulFree, clean.links⟩
  have names : World.Names { world with cwd := location } location.toPath location :=
    World.names_toPath clear directory nulFree
  have rooted : root { world with cwd := location } location.toPath = .ok nearest := by
    rw [root_toPath there names, first?_cwd location fun path member => Path.isAbsolute_of_mem_upward member rfl,
      searched]
  rw [found, rooted]
  exact candidates_cwd absolute location word

/-- The search from a directory between the beginning and the end of a search ends alike. -/
theorem search_from_between {origin nearest path : Path}
    (searched : (first? world origin.upward).map (·.getD origin) = .ok nearest) (above : path.AtOrAbove origin)
    (below : nearest.AtOrAbove path) : (first? world path.upward).map (·.getD path) = .ok nearest := by
  have search := search_upward world origin
  cases answer : first? world origin.upward with
  | error fault =>
    rw [answer] at searched
    cases searched
  | ok found =>
    rw [answer] at searched search
    cases found with
    | some found =>
      cases searched
      rw [(search_upward world path).unique (search.from_between above below)]
      rfl
    | none =>
      cases searched
      rw [above.antisymm below, answer]
      rfl

/-- A project with a directory in it, in which the program works. -/
def nestedProject : World :=
  let outside : World := { files := .empty, cwd := ["p".toList, "a".toList], draws := [] }
  ((outside.set ["p".toList] .directory).set ["p".toList, "spectest".toList] .directory).set
    ["p".toList, "a".toList] .directory

theorem nestedProject_clean : nestedProject.Clean := by
  have linkFree := (World.Plain.empty []).linkFree
  have outside : World.Clean { files := .empty, cwd := ["p".toList, "a".toList], draws := [] } :=
    ⟨by unfold NulFree; decide, fun location target standing => absurd standing (linkFree location target)⟩
  exact ((outside.set _ (by simp)).set _ (by simp)).set _ (by simp)

theorem nestedProject_settled : Clear nestedProject.files nestedProject.cwd := by
  have project : nestedProject.files.get? ["p".toList] = some .directory := rfl
  have inside : nestedProject.files.get? ["p".toList, "a".toList] = some .directory := rfl
  have above := (Clear.root nestedProject.files).concat rfl (by decide) (by decide) project (by simp)
  exact above.concat project (by decide) (by decide) inside (by simp)

/-- A link by the project's name keeps a directory from being looked at when the link's text is too
long for a name. -/
theorem standsIn_strayed {location : Location} {target : Text} (clear : Clear world.files location)
    (directory : world.files.get? location = some .directory) (nulFree : NulFree location)
    (link : world.files.get? (location ++ [Product.name]) = some (.link target)) (entry : IsEntry target)
    (long : FileSystem.maxNameBytes < target.byteCount) :
    standsIn world location.toPath = .error (.refused .nameTooLong (location.toPath.child Product.name)) := by
  have walked : world.files.walk .target FileSystem.maxLinks [] (location ++ [Product.name]) =
      .error .nameTooLong := by
    rw [clear.walk_append directory, FileSystem.walk_step directory (by decide), if_neg (by decide), link]
    change world.files.walk .target 39 _ (target.splitOn '/' ++ []) = _
    rw [FileSystem.linkStart_entry entry, List.splitOn_eq_singleton entry.single, List.append_nil,
      FileSystem.walk_step directory entry.proper, if_pos long]
  have clean : (location.toPath.child Product.name).hasNul = false :=
    (nulFree.concat (by decide)).hasNul
  have located : world.locate .target (location.toPath.child Product.name) =
      .error (.refused .nameTooLong (location.toPath.child Product.name)) := by
    rw [World.locate, clean, if_neg (by simp), FileSystem.locate]
    split
    · rename_i place found
      split at found
      · cases found
      · exact absurd (walked.symm.trans found) (by simp)
    · rename_i refusal failed
      split at failed
      · cases failed
        rfl
      · cases walked.symm.trans failed
        rfl
  rw [standsIn_eq, World.isDirectory, World.leadsTo, located]

/-- The project again with a link in its directory. -/
def strayedProject (target : Text) : World :=
  nestedProject.set ["p".toList, "a".toList, "spectest".toList] (.link target)

theorem strayedProject_clean {target : Text} (clean : '\x00' ∉ target) : (strayedProject target).Clean := by
  refine ⟨nestedProject_clean.cwd, fun location other standing => ?_⟩
  rw [strayedProject, World.set, FileSystem.get?_insert _ (by simp)] at standing
  split at standing
  · cases standing
    exact clean
  · exact nestedProject_clean.links location other standing

theorem strayedProject_stands (target : Text) : standsIn (strayedProject target) ⟨.root, ["p".toList]⟩ = .ok true := by
  cbv

theorem strayedProject_isDirectory (target : Text) :
    (strayedProject target).isDirectory ⟨.root, ["p".toList, "a".toList]⟩ = .ok true := by
  cbv

end Project

end TabCompletion
