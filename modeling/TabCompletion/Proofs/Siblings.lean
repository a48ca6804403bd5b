import Mathlib.Data.List.Nodup
import TabCompletion.Command.Problem
import TabCompletion.Proofs.CommandPath

namespace TabCompletion

/-- A tree in which the sanitised names of siblings differ, and no command both dispatches and
takes trailing values. -/
inductive Command.Clean : List Command → Prop
  | intro {commands : List Command} (distinct : (commands.map (sanitize ·.name)).Nodup)
      (decided : ∀ command ∈ commands, (command.isDispatch && command.acceptsPositional) = false)
      (deeper : ∀ command ∈ commands, Command.Clean command.subcommands) : Command.Clean commands

namespace Problem

theorem lookup_eq_none {seen : List (Text × List Text)} {key : Text} :
    seen.lookup key = none ↔ key ∉ seen.map Prod.fst := by
  rw [List.lookup_eq_none_iff, List.mem_map]
  constructor
  · rintro differ ⟨entry, member, rfl⟩
    simpa using differ entry member
  · intro unknown entry member
    have apart : key ≠ entry.1 := fun same => unknown ⟨entry, member, same.symm⟩
    simpa using apart

/-- Siblings are in order when their sanitised names differ from each other and from those
seen before, and none of them is ambiguous. -/
theorem ofSiblings_eq_nil_iff {path : List Text} {seen : List (Text × List Text)}
    {commands : List Command} :
    ofSiblings path seen commands = [] ↔
      (commands.map (sanitize ·.name)).Nodup ∧
        (∀ command ∈ commands, sanitize command.name ∉ seen.map Prod.fst) ∧
        ∀ command ∈ commands, (command.isDispatch && command.acceptsPositional) = false := by
  -- What was seen grows on the way, so that each name is compared with those before it in the end.
  induction commands generalizing seen with
  | nil => simp [ofSiblings]
  | cons command rest ih =>
    cases clash : seen.lookup (sanitize command.name) with
    | some first =>
      have known : sanitize command.name ∈ seen.map Prod.fst := by
        refine Classical.byContradiction fun unknown => ?_
        rw [lookup_eq_none.mpr unknown] at clash
        cases clash
      simp only [ofSiblings, clash, List.cons_append, List.nil_append, reduceCtorEq, false_iff]
      rintro ⟨-, apart, -⟩
      exact apart command List.mem_cons_self known
    | none =>
      have unknown := lookup_eq_none.mp clash
      have keys : (seen ++ [(sanitize command.name, path ++ [command.name])]).map Prod.fst =
          seen.map Prod.fst ++ [sanitize command.name] := by simp
      have ambiguous : (if (command.isDispatch && command.acceptsPositional) = true then
          [Problem.ambiguous (path ++ [command.name])] else []) = [] ↔
          (command.isDispatch && command.acceptsPositional) = false := by
        cases command.isDispatch && command.acceptsPositional <;> simp
      simp only [ofSiblings, clash, Option.isSome_none, Bool.false_eq_true, if_false,
        List.nil_append, List.append_eq_nil_iff, ih, keys, ambiguous, List.map_cons,
        List.nodup_cons, List.mem_cons, forall_eq_or_imp]
      constructor
      · rintro ⟨decided, distinct, apart, rest⟩
        refine ⟨⟨?_, distinct⟩, ⟨unknown, ?_⟩, decided, rest⟩
        · intro member
          obtain ⟨other, inside, same⟩ := List.mem_map.mp member
          exact apart other inside (List.mem_append_right _ (by simp [same]))
        · exact fun other inside member => apart other inside (List.mem_append_left _ member)
      · rintro ⟨⟨first, distinct⟩, ⟨-, apart⟩, decided, rest⟩
        refine ⟨decided, distinct, fun other inside member => ?_, rest⟩
        rcases List.mem_append.mp member with earlier | here
        · exact apart other inside earlier
        · exact first (List.mem_singleton.mp here ▸ List.mem_map_of_mem inside)

theorem ofGroups_eq_nil_iff {groups : List (List Text × List Command)} :
    ofGroups groups = [] ↔ ∀ group ∈ groups, Command.Clean group.2 := by
  induction groups using ofGroups.induct with
  | case1 => simp [ofGroups]
  | case2 path siblings rest ih =>
    rw [ofGroups, List.append_eq_nil_iff, ofSiblings_eq_nil_iff, ih]
    constructor
    · rintro ⟨⟨distinct, -, decided⟩, others⟩ group member
      rcases List.mem_cons.mp member with rfl | later
      · refine .intro distinct decided fun command inside => ?_
        refine others (path ++ [command.name], command.subcommands) (List.mem_append_left _ ?_)
        exact List.mem_reverse.mpr (List.mem_map_of_mem inside)
      · exact others group (List.mem_append_right _ later)
    · intro every
      obtain ⟨distinct, decided, deeper⟩ := every (path, siblings) List.mem_cons_self
      refine ⟨⟨distinct, by simp, decided⟩, fun group member => ?_⟩
      rcases List.mem_append.mp member with inside | later
      · obtain ⟨command, among, rfl⟩ := List.mem_map.mp (List.mem_reverse.mp inside)
        exact deeper command among
      · exact every group (List.mem_cons_of_mem _ later)

/-- No problem is found in exactly the clean trees. -/
theorem ofTree_eq_nil_iff {commands : List Command} :
    ofTree commands = [] ↔ Command.Clean commands := by
  rw [ofTree, ofGroups_eq_nil_iff]
  simp

end Problem

end TabCompletion
