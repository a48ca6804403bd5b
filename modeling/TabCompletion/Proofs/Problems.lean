import TabCompletion.Proofs.References
import TabCompletion.Proofs.Siblings

namespace TabCompletion

/-- A node among its siblings: the path above them, the siblings before it in their order, and
the node itself. -/
structure Command.Seat where
  above : List Text
  before : List Command
  command : Command

namespace Command

namespace Seat

def path (seat : Seat) : List Text :=
  seat.above ++ [seat.command.name]

def node (seat : Seat) : List Text × Command :=
  (seat.path, seat.command)

/-- The first of the siblings before a node whose sanitised name is that of the node. -/
def rival? (seat : Seat) : Option Command :=
  seat.before.find? fun sibling => sanitize sibling.name = sanitize seat.command.name

/-- Whether the sanitised name of a node is that of a sibling before it. -/
def clashes (seat : Seat) : Bool :=
  seat.before.any fun sibling => sanitize sibling.name = sanitize seat.command.name

/-- Whether a node both dispatches and takes trailing values. -/
def isAmbiguous (seat : Seat) : Bool :=
  seat.command.isDispatch && seat.command.acceptsPositional

theorem clashes_eq (seat : Seat) : seat.clashes = seat.rival?.isSome := by
  rw [Bool.eq_iff_iff, rival?, List.find?_isSome, clashes, List.any_eq_true]

end Seat

/-- The seats of siblings that come after others. -/
def seatsAfter (above : List Text) (before : List Command) : List Command → List Seat
  | [] => []
  | command :: rest => ⟨above, before, command⟩ :: seatsAfter above (before ++ [command]) rest

/-- A group of siblings below a path, and all groups below it. -/
def groupsFrom (group : List Text × List Command) : List (List Text × List Command) :=
  group :: (nodesBelow group.1 group.2).map fun node => (node.1, node.2.subcommands)

/-- Every group of siblings of a tree: the top level, and the subcommands of each node. -/
def groups (commands : List Command) : List (List Text × List Command) :=
  groupsFrom ([], commands)

/-- Every node of a tree among its siblings. -/
def seats (commands : List Command) : List Seat :=
  (groups commands).flatMap fun group => seatsAfter group.1 [] group.2

theorem map_node_seatsAfter (above : List Text) (before siblings : List Command) :
    (seatsAfter above before siblings).map Seat.node = Zsh.below above siblings := by
  induction siblings generalizing before with
  | nil => rfl
  | cons command rest ih =>
    rw [seatsAfter, List.map_cons, ih]
    rfl

/-- Every node has one seat. -/
theorem map_node_seats (commands : List Command) :
    ((seats commands).map Seat.node).Perm (nodesBelow [] commands) := by
  have below : (seats commands).map Seat.node = Zsh.below [] commands ++
      (nodesBelow [] commands).flatMap fun node => Zsh.below node.1 node.2.subcommands := by
    rw [seats, List.map_flatMap]
    simp only [groups, groupsFrom, map_node_seatsAfter, List.flatMap_cons, List.flatMap_map]
  rw [below]
  exact (Zsh.nodesBelow_perm [] commands).symm

end Command

namespace Problem

open Command (Seat seats seatsAfter groups groupsFrom)

/-- The groups from one on are the group itself, and those from the groups right below it on. -/
theorem groupsFrom_perm (path : List Text) (siblings : List Command) :
    (groupsFrom (path, siblings)).Perm
      ((path, siblings) :: (groupsBelow path siblings).flatMap groupsFrom) := by
  have onward : (Command.nodesBelow path siblings).map (fun node => (node.1, node.2.subcommands)) =
      (siblings.map fun command => (path ++ [command.name], command.subcommands)).flatMap groupsFrom := by
    rw [Command.nodesBelow_eq_flatMap, List.map_flatMap, List.flatMap_map]
    refine congrArg (List.flatMap · siblings) (funext fun command => ?_)
    rw [Command.nodesAt_eq]
    rfl
  rw [groupsFrom, onward, groupsBelow]
  exact ((List.reverse_perm _).symm.flatMap_right groupsFrom).cons _

/-- Each group is looked at once, in whatever order. -/
theorem ofGroups_perm (pending : List (List Text × List Command)) :
    (ofGroups pending).Perm
      ((pending.flatMap groupsFrom).flatMap fun group => ofSiblings group.1 [] group.2) := by
  induction pending using ofGroups.induct with
  | case1 => simp [ofGroups]
  | case2 path siblings rest ih =>
    have split : (((path, siblings) :: rest).flatMap groupsFrom).Perm
        ((path, siblings) :: (groupsBelow path siblings ++ rest).flatMap groupsFrom) := by
      rw [List.flatMap_cons, List.flatMap_append]
      exact (groupsFrom_perm path siblings).append_right _
    have every := split.flatMap_right fun group => ofSiblings group.1 [] group.2
    rw [List.flatMap_cons] at every
    rw [ofGroups]
    exact (ih.append_left _).trans every.symm

theorem ofTree_perm_groups (commands : List Command) :
    (ofTree commands).Perm ((groups commands).flatMap fun group => ofSiblings group.1 [] group.2) := by
  have whole := ofGroups_perm [([], commands)]
  rwa [List.flatMap_singleton] at whole

/-- No problem is found when every group of siblings is in order by itself. -/
theorem ofTree_eq_nil_iff_groups {commands : List Command} :
    ofTree commands = [] ↔ ∀ group ∈ groups commands,
      (group.2.map (sanitize ·.name)).Nodup ∧
        ∀ command ∈ group.2, (command.isDispatch && command.acceptsPositional) = false := by
  have whole := ofTree_perm_groups commands
  have empty : ofTree commands = [] ↔
      (groups commands).flatMap (fun group => ofSiblings group.1 [] group.2) = [] := by
    constructor
    · intro none
      rw [none] at whole
      exact whole.symm.eq_nil
    · intro none
      rw [none] at whole
      exact whole.eq_nil
  rw [empty, List.flatMap_eq_nil_iff]
  simp [ofSiblings_eq_nil_iff]

/-- What is wrong with a node among its siblings. -/
def ofSeat (seat : Seat) : List Problem :=
  (seat.rival?.map fun sibling =>
    collision seat.path (seat.above ++ [sibling.name]) (sanitize seat.command.name)).toList ++
  if seat.isAmbiguous then [.ambiguous seat.path] else []

/-- The paths that are kept while siblings are gone through are those of the first sibling with
each sanitised name. -/
def Recalls (path : List Text) (seen : List (Text × List Text)) (before : List Command) : Prop :=
  ∀ key, seen.lookup key =
    (before.find? fun sibling => sanitize sibling.name = key).map fun sibling => path ++ [sibling.name]

theorem Recalls.next {path : List Text} {seen : List (Text × List Text)} {before : List Command}
    (recalls : Recalls path seen before) (command : Command) :
    Recalls path
      (if (seen.lookup (sanitize command.name)).isSome then seen
        else seen ++ [(sanitize command.name, path ++ [command.name])])
      (before ++ [command]) := by
  intro key
  have earlier := recalls key
  rw [List.find?_append, Option.map_or, ← earlier]
  by_cases own : sanitize command.name = key
  · subst own
    cases clash : seen.lookup (sanitize command.name) with
    | some first => simp [clash]
    | none => simp [List.lookup_append, clash]
  · have other : (key == sanitize command.name) = false := beq_false_of_ne fun same => own same.symm
    split <;> simp [List.lookup_append, List.lookup_cons, own, other]

theorem ofSiblings_eq {path : List Text} {seen : List (Text × List Text)} {before : List Command}
    (recalls : Recalls path seen before) (siblings : List Command) :
    ofSiblings path seen siblings = (seatsAfter path before siblings).flatMap ofSeat := by
  induction siblings generalizing seen before with
  | nil => rfl
  | cons command rest ih =>
    rw [ofSiblings, seatsAfter, List.flatMap_cons, ← ih (recalls.next command)]
    have first := recalls (sanitize command.name)
    simp only [ofSeat, Seat.rival?, first]
    cases before.find? fun sibling => sanitize sibling.name = sanitize command.name <;> rfl

/-- The problems of a tree are those of its nodes. -/
theorem ofTree_perm (commands : List Command) :
    (ofTree commands).Perm ((seats commands).flatMap ofSeat) := by
  have fresh (path : List Text) : Recalls path [] [] := fun _ => rfl
  have each : (fun group : List Text × List Command => ofSiblings group.1 [] group.2) =
      fun group => (seatsAfter group.1 [] group.2).flatMap ofSeat :=
    funext fun group => ofSiblings_eq (fresh group.1) group.2
  have whole := ofTree_perm_groups commands
  rw [each, ← List.flatMap_assoc] at whole
  exact whole

theorem length_flatMap_ofSeat (seats : List Seat) :
    (seats.flatMap ofSeat).length =
      seats.countP Seat.clashes + seats.countP Seat.isAmbiguous := by
  induction seats with
  | nil => rfl
  | cons seat rest ih =>
    have here : (ofSeat seat).length =
        (if seat.clashes then 1 else 0) + if seat.isAmbiguous then 1 else 0 := by
      rw [ofSeat, List.length_append, Seat.clashes_eq]
      cases seat.rival? <;> cases seat.isAmbiguous <;> rfl
    rw [List.flatMap_cons, List.length_append, ih, here, List.countP_cons, List.countP_cons]
    omega

/-- A collision tells of a node and of the first sibling with its sanitised name. -/
theorem collision_mem_iff {commands : List Command} {path first : List Text} {key : Text} :
    collision path first key ∈ ofTree commands ↔
      ∃ seat ∈ seats commands, ∃ sibling, seat.rival? = some sibling ∧ path = seat.path ∧
        first = seat.above ++ [sibling.name] ∧ key = sanitize seat.command.name := by
  rw [(ofTree_perm commands).mem_iff, List.mem_flatMap]
  refine exists_congr fun seat => and_congr_right fun _ => ?_
  have apart : collision path first key ∉ if seat.isAmbiguous then [ambiguous seat.path] else [] := by
    split <;> simp
  rw [ofSeat, List.mem_append, or_iff_left apart]
  cases seat.rival? <;> simp

theorem ambiguous_mem_iff {commands : List Command} {path : List Text} :
    ambiguous path ∈ ofTree commands ↔
      ∃ seat ∈ seats commands, seat.isAmbiguous = true ∧ path = seat.path := by
  rw [(ofTree_perm commands).mem_iff, List.mem_flatMap]
  refine exists_congr fun seat => and_congr_right fun _ => ?_
  rw [ofSeat, List.mem_append, or_iff_right (by cases seat.rival? <;> simp)]
  cases seat.isAmbiguous <;> simp

/-- There is one problem for each node whose sanitised name is that of a sibling before it, and one
for each node that both dispatches and takes trailing values; no other siblings and no other nodes
matter to a node. A collision is told with the path of its node and that of the first such sibling. -/
theorem problems_counted (commands : List Command) :
    (((seats commands).map Seat.node).Perm (Command.nodesBelow [] commands) ∧
      (ofTree commands).length =
        (seats commands).countP Seat.clashes + (seats commands).countP Seat.isAmbiguous) ∧
    (ofTree commands = [] ↔ ∀ group ∈ groups commands,
      (group.2.map (sanitize ·.name)).Nodup ∧
        ∀ command ∈ group.2, (command.isDispatch && command.acceptsPositional) = false) ∧
    (∀ path first key, collision path first key ∈ ofTree commands ↔
      ∃ seat ∈ seats commands, ∃ sibling, seat.rival? = some sibling ∧ path = seat.path ∧
        first = seat.above ++ [sibling.name] ∧ key = sanitize seat.command.name) ∧
    ∀ text ∈ (ofTree commands).map message,
      (∃ seat ∈ seats commands, ∃ sibling, seat.rival? = some sibling ∧
        text = "'" ++ Text.join " " seat.path ++ "' collides with '" ++
          Text.join " " (seat.above ++ [sibling.name]) ++ "' after sanitizing to '" ++
          sanitize seat.command.name ++ "'") ∨
      ∃ seat ∈ seats commands, seat.isAmbiguous = true ∧
        text = "'" ++ Text.join " " seat.path ++
          "' declares both subcommands and positional completion" := by
  refine ⟨⟨Command.map_node_seats commands, ?_⟩, ofTree_eq_nil_iff_groups,
    fun path first key => collision_mem_iff, fun text told => ?_⟩
  · rw [(ofTree_perm commands).length_eq, length_flatMap_ofSeat]
  · obtain ⟨problem, member, rfl⟩ := List.mem_map.mp told
    cases problem with
    | collision path first key =>
      obtain ⟨seat, among, sibling, rival, rfl, rfl, rfl⟩ := collision_mem_iff.mp member
      exact Or.inl ⟨seat, among, sibling, rival, rfl⟩
    | ambiguous path =>
      obtain ⟨seat, among, both, rfl⟩ := ambiguous_mem_iff.mp member
      exact Or.inr ⟨seat, among, both, rfl⟩

/-- A command with a name and subcommands alone, that takes trailing values or does not. -/
def named (name : Text) (subcommands : List Command) (positional : Bool) : Command :=
  ⟨name, [], [], subcommands, positional, none⟩

/-- Two commands that meet, of which the first is ambiguous and has three subcommands that meet; a
subcommand of the second has the name of those, and meets none. -/
def tangled : List Command :=
  [named "add-spec" [named "b.c" [] true, named "b-c" [] true, named "b c" [] false] true,
    named "add_spec" [named "b-c" [] true] false, named "b-c" [] false]

theorem problems_counted_tangled :
    (ofTree tangled).length = 4 ∧
      collision ["add-spec", "b c"] ["add-spec", "b.c"] "b_c" ∈ ofTree tangled := by
  obtain ⟨⟨-, count⟩, -, collisions, -⟩ := problems_counted tangled
  refine ⟨count.trans (by decide), (collisions _ _ _).mpr ?_⟩
  refine ⟨⟨["add-spec".toList], [named "b.c" [] true, named "b-c" [] true], named "b c" [] false⟩,
    ?_, named "b.c" [] true, rfl, rfl, rfl, rfl⟩
  refine List.mem_flatMap.mpr ⟨(["add-spec".toList], _), List.mem_cons_of_mem _ List.mem_cons_self, ?_⟩
  simp [seatsAfter]

end Problem

end TabCompletion
