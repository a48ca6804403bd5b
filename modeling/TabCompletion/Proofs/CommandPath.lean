import TabCompletion.Command.Basic

namespace TabCompletion.Command

/-- The names that lead from some commands to a node: that of one of them alone, or that of
one of them before names that lead on from its subcommands. -/
inductive Leads : List Command → List Text → Command → Prop
  | here {commands : List Command} {command : Command} (member : command ∈ commands) :
      Leads commands [command.name] command
  | through {commands : List Command} {command node : Command} {path : List Text}
      (member : command ∈ commands) (onward : Leads command.subcommands path node) :
      Leads commands (command.name :: path) node

theorem Leads.ne_nil {commands : List Command} {path : List Text} {node : Command}
    (leads : Leads commands path node) : path ≠ [] := by
  cases leads <;> simp

theorem Leads.child {commands : List Command} {path : List Text} {node child : Command}
    (leads : Leads commands path node) (below : child ∈ node.subcommands) :
    Leads commands (path ++ [child.name]) child := by
  induction leads with
  | here member => exact .through member (.here below)
  | through member _ ih => exact .through member (ih below)

/-- A node stands at the top or right below another one. -/
theorem Leads.top_or_below {commands : List Command} {path : List Text} {node : Command}
    (leads : Leads commands path node) :
    node ∈ commands ∨ ∃ above parent, Leads commands above parent ∧ node ∈ parent.subcommands := by
  induction leads with
  | here member => exact Or.inl member
  | @through commands command node path member onward ih =>
    rcases ih with below | ⟨above, parent, inside, below⟩
    · exact Or.inr ⟨_, command, .here member, below⟩
    · exact Or.inr ⟨_, parent, .through member inside, below⟩

theorem nodesAt_eq (path : List Text) (command : Command) :
    nodesAt path command =
      (path ++ [command.name], command) ::
        nodesBelow (path ++ [command.name]) command.subcommands := by
  cases command
  rw [nodesAt]

theorem nodesBelow_eq_flatMap (path : List Text) (commands : List Command) :
    nodesBelow path commands = commands.flatMap (nodesAt path) := by
  induction commands with
  | nil => rfl
  | cons command rest ih => rw [nodesBelow, ih, List.flatMap_cons]

theorem mem_nodesBelow_of_mem {path : List Text} {commands : List Command} {command : Command}
    (member : command ∈ commands) {node : List Text × Command} (inside : node ∈ nodesAt path command) :
    node ∈ nodesBelow path commands := by
  rw [nodesBelow_eq_flatMap]
  exact List.mem_flatMap.mpr ⟨command, member, inside⟩

theorem Leads.mem_nodesBelow {commands : List Command} {path : List Text} {node : Command}
    (leads : Leads commands path node) (above : List Text) :
    (above ++ path, node) ∈ nodesBelow above commands := by
  induction leads generalizing above with
  | here member =>
    refine mem_nodesBelow_of_mem member ?_
    rw [nodesAt_eq]
    exact List.mem_cons_self
  | @through commands command node path member onward ih =>
    refine mem_nodesBelow_of_mem member ?_
    have deeper := ih (above ++ [command.name])
    rw [List.append_assoc, List.singleton_append] at deeper
    rw [nodesAt_eq]
    exact List.mem_cons_of_mem _ deeper

/-- The listing of the nodes has no others than those that names lead to. -/
theorem leads_of_mem_nodesBelow {above path : List Text} {node : Command} {commands : List Command}
    (member : (path, node) ∈ nodesBelow above commands) :
    ∃ names, path = above ++ names ∧ Leads commands names node := by
  match commands with
  | [] => simp [nodesBelow] at member
  | command :: rest =>
    rw [nodesBelow, nodesAt_eq, List.cons_append, List.mem_cons, List.mem_append] at member
    rcases member with here | inside | later
    · cases here
      exact ⟨[node.name], rfl, .here List.mem_cons_self⟩
    · obtain ⟨names, rfl, leads⟩ := leads_of_mem_nodesBelow inside
      exact ⟨command.name :: names, by simp, .through List.mem_cons_self leads⟩
    · obtain ⟨names, rfl, leads⟩ := leads_of_mem_nodesBelow later
      refine ⟨names, rfl, ?_⟩
      cases leads with
      | here member => exact .here (List.mem_cons_of_mem _ member)
      | through member onward => exact .through (List.mem_cons_of_mem _ member) onward
termination_by sizes commands
decreasing_by
  · rw [sizes, size_eq]
    omega
  · rw [sizes, size_eq]
    omega

theorem mem_nodesBelow_iff {commands : List Command} {path : List Text} {node : Command} :
    (path, node) ∈ nodesBelow [] commands ↔ Leads commands path node := by
  constructor
  · intro member
    obtain ⟨names, rfl, leads⟩ := leads_of_mem_nodesBelow member
    exact leads
  · intro leads
    exact leads.mem_nodesBelow []

/-- What holds of all nodes can be looked at node by node. -/
theorem forall_leads_iff {commands : List Command} {p : Command → Prop} :
    (∀ path node, Leads commands path node → p node) ↔ ∀ node ∈ nodesBelow [] commands, p node.2 := by
  constructor
  · exact fun every node member => every node.1 node.2 (mem_nodesBelow_iff.mp member)
  · exact fun every path node leads => every (path, node) (mem_nodesBelow_iff.mpr leads)

end TabCompletion.Command
