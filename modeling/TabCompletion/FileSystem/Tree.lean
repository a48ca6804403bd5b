import TabCompletion.Text.Basic

namespace TabCompletion

/-- A tree whose branches have names: what stands at a place, and below it what stands
behind each name. -/
inductive Tree (α : Type) where
  | mk (content : Option α) (branches : List (Text × Tree α))

namespace Tree

variable {α : Type}

def empty : Tree α := ⟨none, []⟩

def content : Tree α → Option α
  | ⟨content, _⟩ => content

def branches : Tree α → List (Text × Tree α)
  | ⟨_, branches⟩ => branches

/-- The tree behind a name, an empty one when there is none. -/
def branch (tree : Tree α) (name : Text) : Tree α :=
  (tree.branches.lookup name).getD empty

/-- The tree behind several names in a row. -/
def descend (tree : Tree α) : List Text → Tree α
  | [] => tree
  | name :: rest => (tree.branch name).descend rest

/-- What stands behind several names in a row. -/
def get? (tree : Tree α) (names : List Text) : Option α :=
  (tree.descend names).content

/-- The tree with something else, or nothing, behind several names in a row. -/
def set (content : Option α) (tree : Tree α) : List Text → Tree α
  | [] => ⟨content, tree.branches⟩
  | name :: rest =>
    ⟨tree.content,
      (name, set content (tree.branch name) rest) ::
        tree.branches.filter fun branch => branch.1 != name⟩

theorem lookup_filter (branches : List (Text × Tree α)) (name other : Text) :
    (branches.filter fun branch => branch.1 != name).lookup other =
      if other = name then none else branches.lookup other := by
  have apart {a b : Text} (differ : a ≠ b) : (a == b) = false := beq_eq_false_iff_ne.mpr differ
  induction branches with
  | nil => simp
  | cons branch rest ih =>
    obtain ⟨key, tree⟩ := branch
    by_cases here : key = name
    · subst here
      by_cases same : other = key
      · simp only [same, if_true] at ih
        simpa [same] using ih
      · simp only [same, if_false] at ih
        simpa [List.lookup_cons, apart same, same] using ih
    · by_cases same : other = key
      · subst same
        simp [here]
      · simp [here, List.lookup_cons, apart same, ih]

theorem get?_cons (tree : Tree α) (name : Text) (rest : List Text) :
    tree.get? (name :: rest) = (tree.branch name).get? rest := rfl

theorem get?_empty (names : List Text) : (empty : Tree α).get? names = none := by
  induction names with
  | nil => rfl
  | cons name rest ih => exact ih

theorem branch_set_cons (content : Option α) (tree : Tree α) (name other : Text) (rest : List Text) :
    (tree.set content (name :: rest)).branch other =
      if other = name then (tree.branch name).set content rest else tree.branch other := by
  by_cases same : other = name
  · subst same
    simp [branch, branches, set]
  · have apart : (other == name) = false := beq_eq_false_iff_ne.mpr same
    simp [branch, branches, set, List.lookup_cons, apart, lookup_filter, same]

theorem get?_set (content : Option α) (tree : Tree α) (names others : List Text) :
    (tree.set content names).get? others = if others = names then content else tree.get? others := by
  induction names generalizing tree others with
  | nil =>
    cases others with
    | nil => rfl
    | cons other rest => simp [get?_cons, branch, branches, set]
  | cons name rest ih =>
    cases others with
    | nil => rfl
    | cons other others =>
      rw [get?_cons, get?_cons, branch_set_cons]
      by_cases same : other = name
      · subst same
        simp [ih]
      · simp [same]

mutual

/-- All that stands in a tree, each with the names that lead to it from the given ones on. -/
def listFrom (names : List Text) : Tree α → List (List Text × α)
  | ⟨content, branches⟩ =>
    content.toList.map (fun value => (names, value)) ++ listBranches names branches

def listBranches (names : List Text) : List (Text × Tree α) → List (List Text × α)
  | [] => []
  | branch :: rest => listBranch names branch ++ listBranches names rest

def listBranch (names : List Text) : Text × Tree α → List (List Text × α)
  | (name, tree) => listFrom (names ++ [name]) tree

end

def toList (tree : Tree α) : List (List Text × α) :=
  tree.listFrom []

theorem mem_listBranches {names : List Text} {branches : List (Text × Tree α)}
    {branch : Text × Tree α} {entry : List Text × α} (member : branch ∈ branches)
    (listed : entry ∈ listBranch names branch) : entry ∈ listBranches names branches := by
  induction branches with
  | nil => cases member
  | cons first rest ih =>
    rw [listBranches, List.mem_append]
    rcases List.mem_cons.mp member with rfl | later
    · exact Or.inl listed
    · exact Or.inr (ih later)

theorem mem_listFrom {tree : Tree α} {names : List Text} {value : α}
    (standing : tree.get? names = some value) (start : List Text) :
    (start ++ names, value) ∈ tree.listFrom start := by
  induction names generalizing tree start with
  | nil =>
    obtain ⟨content, branches⟩ := tree
    obtain rfl : content = some value := standing
    simp [listFrom]
  | cons name rest ih =>
    obtain ⟨content, branches⟩ := tree
    cases found : branches.lookup name with
    | none =>
      simp [get?_cons, branch, Tree.branches, found, get?_empty] at standing
    | some below =>
      have inner : (mk content branches).branch name = below := by
        simp [branch, Tree.branches, found]
      rw [get?_cons, inner] at standing
      obtain ⟨before, after, same, -⟩ := List.lookup_eq_some_iff.mp found
      have member : (name, below) ∈ branches := by simp [same]
      rw [listFrom, List.mem_append]
      refine Or.inr (mem_listBranches member ?_)
      rw [listBranch]
      simpa using ih standing (start ++ [name])

/-- All that stands behind names is listed with them. -/
theorem mem_toList {tree : Tree α} {names : List Text} {value : α}
    (standing : tree.get? names = some value) : (names, value) ∈ tree.toList :=
  mem_listFrom standing []

end Tree

end TabCompletion
