import Mathlib.Data.List.Nodup
import TabCompletion.Command.Catalog
import TabCompletion.Proofs.Definition
import TabCompletion.Proofs.Siblings

namespace TabCompletion

theorem Command.prefix_of_mem_nodesAt {above path : List Text} {command node : Command}
    (inside : (path, node) ∈ nodesAt above command) : ∃ names, path = above ++ command.name :: names := by
  rw [nodesAt_eq, List.mem_cons] at inside
  rcases inside with same | deeper
  · cases same
    exact ⟨[], rfl⟩
  · obtain ⟨names, rfl, -⟩ := leads_of_mem_nodesBelow deeper
    exact ⟨names, by simp⟩

/-- In a clean tree no two nodes have the same sanitised names on the way to them. -/
theorem Command.Clean.nodup_paths {commands : List Command} (clean : Clean commands)
    (above : List Text) :
    ((nodesBelow above commands).map fun node => node.1.map sanitize).Nodup := by
  induction clean generalizing above with
  | @intro commands distinct decided deeper ih =>
    rw [nodesBelow_eq_flatMap, List.map_flatMap, List.nodup_flatMap]
    constructor
    · intro command member
      rw [nodesAt_eq, List.map_cons, List.nodup_cons]
      refine ⟨fun inside => ?_, ih command member _⟩
      obtain ⟨⟨path, node⟩, below, same⟩ := List.mem_map.mp inside
      obtain ⟨names, rfl, leads⟩ := leads_of_mem_nodesBelow below
      have length := congrArg List.length same
      simp only [List.length_map, List.length_append] at length
      exact leads.ne_nil (List.eq_nil_of_length_eq_zero (by omega))
    · refine (List.pairwise_map.mp distinct).imp fun {first second} differ key inFirst inSecond => ?_
      obtain ⟨⟨path, node⟩, here, rfl⟩ := List.mem_map.mp inFirst
      obtain ⟨⟨other, twin⟩, there, same⟩ := List.mem_map.mp inSecond
      obtain ⟨names, rfl⟩ := prefix_of_mem_nodesAt here
      obtain ⟨others, rfl⟩ := prefix_of_mem_nodesAt there
      simp only [List.map_append, List.map_cons] at same
      exact differ (List.cons.inj (List.append_cancel_left same)).1.symm

namespace Zsh

/-- The sanitised names of a path in one, as function names have them. -/
def spelling (path : List Text) : Text :=
  Text.join "_" (path.map sanitize)

/-- What the names of all functions but the root's begin with. -/
def Target.stem (target : Target) : Text :=
  '_' :: sanitize target.cli ++ ['_']

theorem Target.routineName_eq (target : Target) {path : List Text} (proper : path ≠ []) :
    target.routineName path = target.stem ++ spelling path := by
  obtain ⟨name, rest, rfl⟩ := List.exists_cons_of_ne_nil proper
  simp [routineName, stem, spelling, Text.join, List.intercalate_cons_cons]

/-- What the name of the function of a list of identifiers ends in. -/
def Lookup.ending (list : Lookup) : Text :=
  "complete_" ++ list.plural

theorem Lookup.ending_eq (list : Lookup) :
    list.ending = Text.join "_" ["complete".toList, list.plural] := by
  cases list <;> decide +kernel

theorem Lookup.splitOn_ending (list : Lookup) :
    List.splitOn '_' list.ending = ["complete".toList, list.plural] := by
  cases list <;> decide +kernel

theorem Lookup.mem_all (list : Lookup) : list ∈ all := by
  cases list <;> decide

theorem Target.helperName_eq (target : Target) (suffix : Text) :
    target.helperName suffix = target.stem ++ ("complete_".toList ++ suffix) := by
  rw [helperName, stem]
  simp

/-- Every function is named with letters, digits and underscores alone. -/
theorem Target.isNameChar_routineName (target : Target) {path : List Text} {c : Char}
    (member : c ∈ target.routineName path) : isNameChar c = true := by
  rcases List.mem_cons.mp member with rfl | inside
  · rfl
  · rcases Text.mem_join inside with separator | ⟨part, among, inside⟩
    · obtain rfl := List.mem_singleton.mp separator
      rfl
    · obtain ⟨name, -, rfl⟩ := List.mem_map.mp among
      exact isNameChar_of_mem_sanitize inside

theorem Target.isNameChar_helperName (target : Target) (list : Lookup) {c : Char}
    (member : c ∈ target.helperName list.plural) : isNameChar c = true := by
  have letters : ("_complete_".toList ++ list.plural).all isNameChar = true := by cases list <;> rfl
  rw [helperName, List.mem_append, List.mem_append, List.mem_cons] at member
  rcases member with ((rfl | inside) | word) | ending
  · rfl
  · exact isNameChar_of_mem_sanitize inside
  · exact List.all_eq_true.mp letters c (List.mem_append_left _ word)
  · exact List.all_eq_true.mp letters c (List.mem_append_right _ ending)

theorem Target.isNameChar_functionNames {target : Target} {commands : List Command} {name : Text} {c : Char}
    (member : name ∈ (target.compile commands).functionNames) (inside : c ∈ name) :
    isNameChar c = true := by
  rw [functionNames_compile, List.mem_cons, List.mem_append] at member
  rcases member with rfl | node | helper
  · exact target.isNameChar_routineName inside
  · obtain ⟨node, -, rfl⟩ := List.mem_map.mp node
    exact target.isNameChar_routineName inside
  · obtain ⟨list, -, rfl⟩ := List.mem_map.mp helper
    exact target.isNameChar_helperName list inside

theorem Target.stem_ne (target : Target) (suffix : Text) :
    target.routineName [] ≠ target.stem ++ suffix := by
  intro same
  have length := congrArg List.length same
  simp only [routineName, stem, Text.join, List.map_cons, List.map_nil, List.intercalate_singleton,
    List.length_cons, List.length_append, List.length_nil] at length
  omega

/-- The names of all functions but the root's differ in what they end in. -/
theorem Target.functionNames_nodup (target : Target) (commands : List Command) :
    (target.compile commands).functionNames.Nodup ↔
      ((Command.nodesBelow [] commands).map fun node => spelling node.1).Nodup ∧
        ∀ path node (list : Lookup), Command.Leads commands path node → spelling path ≠ list.ending := by
  have endings : (Lookup.all.map Lookup.ending).Nodup := by decide +kernel
  -- All names but the root's begin with the same stem, so that only what follows it is compared.
  have names : (target.compile commands).functionNames =
      target.routineName [] ::
        ((Command.nodesBelow [] commands).map (fun node => spelling node.1) ++
          Lookup.all.map Lookup.ending).map (target.stem ++ ·) := by
    rw [functionNames_compile, List.map_append, List.map_map, List.map_map]
    congr 2
    · refine List.map_congr_left fun node member => ?_
      exact target.routineName_eq (Command.mem_nodesBelow_iff.mp member).ne_nil
    · exact List.map_congr_left fun list _ => target.helperName_eq list.plural
  have root : target.routineName [] ∉ ((Command.nodesBelow [] commands).map
      (fun node => spelling node.1) ++ Lookup.all.map Lookup.ending).map (target.stem ++ ·) := by
    intro member
    obtain ⟨suffix, -, same⟩ := List.mem_map.mp member
    exact target.stem_ne suffix same.symm
  rw [names, List.nodup_cons, List.nodup_map_iff (List.append_right_injective _),
    List.nodup_append]
  constructor
  · rintro ⟨-, nodes, -, apart⟩
    refine ⟨nodes, fun path node list leads => ?_⟩
    have inside : spelling path ∈ (Command.nodesBelow [] commands).map fun node => spelling node.1 :=
      List.mem_map.mpr ⟨(path, node), Command.mem_nodesBelow_iff.mpr leads, rfl⟩
    exact apart _ inside _ (List.mem_map_of_mem list.mem_all)
  · rintro ⟨nodes, apart⟩
    refine ⟨root, nodes, endings, fun first inFirst second inSecond => ?_⟩
    obtain ⟨⟨path, node⟩, member, rfl⟩ := List.mem_map.mp inFirst
    obtain ⟨list, -, rfl⟩ := List.mem_map.mp inSecond
    exact apart path node list (Command.mem_nodesBelow_iff.mp member)

/-- Names without underscores can be read back from what they are spelled as. -/
theorem splitOn_spelling {path : List Text} (proper : path ≠ [])
    (solid : ∀ name ∈ path, '_' ∉ sanitize name) :
    List.splitOn '_' (spelling path) = path.map sanitize :=
  List.splitOn_intercalate '_' (by simpa using solid) (by simpa using proper)

theorem spelling_injective {path other : List Text} (proper : path ≠ []) (properOther : other ≠ [])
    (solid : ∀ name ∈ path, '_' ∉ sanitize name) (solidOther : ∀ name ∈ other, '_' ∉ sanitize name)
    (same : spelling path = spelling other) : path.map sanitize = other.map sanitize := by
  rw [← splitOn_spelling proper solid, same, splitOn_spelling properOther solidOther]

/-- No two nodes with different sanitised names on their paths are spelled alike, and no node
is spelled like a list of identifiers. -/
def SpelledApart (commands : List Command) : Prop :=
  (∀ path node other twin, Command.Leads commands path node → Command.Leads commands other twin →
    spelling path = spelling other → path.map sanitize = other.map sanitize) ∧
  ∀ path node (list : Lookup), Command.Leads commands path node → spelling path ≠ list.ending

theorem Target.functionNames_nodup_of_clean {target : Target} {commands : List Command}
    (clean : Problem.ofTree commands = []) :
    (target.compile commands).functionNames.Nodup ↔ SpelledApart commands := by
  have paths := (Problem.ofTree_eq_nil_iff.mp clean).nodup_paths []
  have alike : (Command.nodesBelow [] commands).map (fun node => spelling node.1) =
      ((Command.nodesBelow [] commands).map fun node => node.1.map sanitize).map (Text.join "_") := by
    rw [List.map_map]
    rfl
  rw [target.functionNames_nodup, alike, List.nodup_map_iff_inj_on paths]
  refine and_congr_left fun _ => ⟨fun injective path node other twin leads leadsOther same => ?_,
    fun apart first inFirst second inSecond same => ?_⟩
  · refine injective _ ?_ _ ?_ same
    · exact List.mem_map.mpr ⟨(path, node), Command.mem_nodesBelow_iff.mpr leads, rfl⟩
    · exact List.mem_map.mpr ⟨(other, twin), Command.mem_nodesBelow_iff.mpr leadsOther, rfl⟩
  · obtain ⟨⟨path, node⟩, member, rfl⟩ := List.mem_map.mp inFirst
    obtain ⟨⟨other, twin⟩, memberOther, rfl⟩ := List.mem_map.mp inSecond
    exact apart path node other twin (Command.mem_nodesBelow_iff.mp member)
      (Command.mem_nodesBelow_iff.mp memberOther) same

/-- Where no sanitised name has an underscore, only a command below one named complete can be
spelled like something else, a list of identifiers. -/
theorem spelledApart_iff {commands : List Command}
    (solid : ∀ path node, Command.Leads commands path node → ∀ name ∈ path, '_' ∉ sanitize name) :
    SpelledApart commands ↔ ∀ path node (list : Lookup), Command.Leads commands path node →
      path.map sanitize ≠ ["complete".toList, list.plural] := by
  constructor
  · intro apart path node list leads same
    refine apart.2 path node list leads ?_
    rw [spelling, same, list.ending_eq]
  · intro apart
    refine ⟨fun path node other twin leads leadsOther same => ?_, fun path node list leads same => ?_⟩
    · exact spelling_injective leads.ne_nil leadsOther.ne_nil (solid path node leads)
        (solid other twin leadsOther) same
    · refine apart path node list leads ?_
      have parted := splitOn_spelling leads.ne_nil (solid path node leads)
      rw [← parted, same, list.splitOn_ending]

/-- In a tree without problems two functions have the same name exactly when two nodes with
different sanitised names on their paths, or a node and a list of identifiers, are spelled
alike. Where no sanitised name has an underscore only a command below one named complete can
meet another function, that of a list of identifiers. -/
theorem functionNames_nodup_iff {target : Target} {commands : List Command}
    (clean : Problem.ofTree commands = []) :
    ((target.compile commands).functionNames.Nodup ↔ SpelledApart commands) ∧
    ((∀ path node, Command.Leads commands path node → ∀ name ∈ path, '_' ∉ sanitize name) →
      ((target.compile commands).functionNames.Nodup ↔
        ∀ path node (list : Lookup), Command.Leads commands path node →
          path.map sanitize ≠ ["complete".toList, list.plural])) := by
  have whole : (target.compile commands).functionNames.Nodup ↔ SpelledApart commands :=
    Target.functionNames_nodup_of_clean clean
  exact ⟨whole, fun solid => whole.trans (spelledApart_iff solid)⟩

/-- The tree that the installed script completes has no problems, and no two of its functions
have the same name. -/
theorem functionNames_catalog :
    Problem.ofTree Catalog.commands = [] ∧
      (Target.default.compile Catalog.commands).functionNames.Nodup := by
  have clean : Problem.ofTree Catalog.commands = [] := by decide +kernel
  have solid : ∀ node ∈ Command.nodesBelow [] Catalog.commands, ∀ name ∈ node.1,
      '_' ∉ sanitize name := by decide +kernel
  have apart : ∀ node ∈ Command.nodesBelow [] Catalog.commands, ∀ list ∈ Lookup.all,
      node.1.map sanitize ≠ ["complete".toList, list.plural] := by decide +kernel
  refine ⟨clean, ((functionNames_nodup_iff clean).2 fun path node leads => ?_).mpr
    fun path node list leads => ?_⟩
  · exact solid (path, node) (Command.mem_nodesBelow_iff.mpr leads)
  · exact apart (path, node) (Command.mem_nodesBelow_iff.mpr leads) list list.mem_all

/-- A command below another one, and one beside that has both names in its own. -/
def twice : List Command :=
  [Catalog.group "a" [] [Catalog.leaf "b" [] []], Catalog.leaf "a_b" [] []]

/-- A tree without problems whose script defines one function twice. -/
theorem functionNames_twice :
    Problem.ofTree twice = [] ∧ ¬ (Target.default.compile twice).functionNames.Nodup := by
  rw [Target.functionNames_compile]
  exact ⟨by decide +kernel, by decide +kernel⟩

end Zsh

end TabCompletion
