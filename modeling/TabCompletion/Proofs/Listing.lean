import TabCompletion.Proofs.Layout
import TabCompletion.Proofs.RealPath

namespace TabCompletion

/-- A name that something in a directory can have. -/
structure IsEntry (name : Text) : Prop where
  proper : IsName name
  single : '/' ∉ name

instance (name : Text) : Decidable (IsEntry name) :=
  decidable_of_iff (IsName name ∧ '/' ∉ name) ⟨fun both => ⟨both.1, both.2⟩, fun entry => ⟨entry.1, entry.2⟩⟩

theorem IsEntry.ofText {name : Text} (entry : IsEntry name) : Path.ofText name = ⟨.relative, [name]⟩ := by
  have anchor : Path.anchorOf name = .relative := by
    unfold Path.anchorOf
    split <;> first | rfl | exact absurd (by simp) entry.single
  have part : Path.isPart name = true := by simp [Path.isPart, entry.proper.1, entry.proper.2.1]
  rw [Path.ofText, anchor, List.splitOn_eq_singleton entry.single]
  simp [part]

namespace Tree

variable {α : Type}

/-- The names right below the root of a tree. -/
def childNames (tree : Tree α) : List Text :=
  tree.branches.filterMap fun (name, below) => if below.content.isSome then some name else none

theorem descend_append (tree : Tree α) (names more : List Text) :
    tree.descend (names ++ more) = (tree.descend names).descend more := by
  induction names generalizing tree with
  | nil => rfl
  | cons name rest ih => exact ih (tree.branch name)

theorem mem_childNames {tree : Tree α} {name : Text} {value : α} (standing : tree.get? [name] = some value) :
    name ∈ tree.childNames := by
  have content : (tree.branch name).content = some value := standing
  cases found : tree.branches.lookup name with
  | none => simp [branch, found, empty, Tree.content] at content
  | some below =>
    rw [branch, found, Option.getD_some] at content
    obtain ⟨before, after, same, -⟩ := List.lookup_eq_some_iff.mp found
    exact List.mem_filterMap.mpr ⟨(name, below), by simp [same], by simp [content]⟩

theorem childNames_set_cons (content : Option α) (tree : Tree α) (name : Text) (rest : List Text) :
    (tree.set content (name :: rest)).childNames =
      (if ((tree.branch name).set content rest).content.isSome then [name] else []) ++
        tree.childNames.filter (· != name) := by
  have others (branches : List (Text × Tree α)) :
      (branches.filter fun branch => branch.1 != name).filterMap
          (fun (other, below) => if below.content.isSome then some other else none) =
        (branches.filterMap fun (other, below) =>
          if below.content.isSome then some other else none).filter (· != name) := by
    induction branches with
    | nil => rfl
    | cons branch branches ih =>
      obtain ⟨other, below⟩ := branch
      by_cases same : other = name <;> by_cases standing : below.content.isSome <;>
        simp [same, standing, ih]
  cases standing : ((tree.branch name).set content rest).content.isSome <;>
    simp [childNames, set, branches, standing, others]

/-- The names in each directory of a tree are proper, and each stands there once. -/
def Tidy (tree : Tree α) : Prop :=
  ∀ names, (tree.descend names).childNames.Nodup ∧ ∀ name ∈ (tree.descend names).childNames, IsEntry name

theorem Tidy.branch {tree : Tree α} (tidy : tree.Tidy) (name : Text) : (tree.branch name).Tidy :=
  fun names => tidy (name :: names)

theorem Tidy.empty : (Tree.empty : Tree α).Tidy := by
  intro names
  induction names with
  | nil => simp [childNames, Tree.empty, descend, branches]
  | cons name rest ih => exact ih

theorem Tidy.set {tree : Tree α} (tidy : tree.Tidy) (content : Option α) {names : List Text}
    (proper : ∀ name ∈ names, IsEntry name) : (tree.set content names).Tidy := by
  induction names generalizing tree with
  | nil =>
    intro others
    cases others with
    | nil => exact tidy []
    | cons other others => exact tidy (other :: others)
  | cons name rest ih =>
    intro others
    cases others with
    | nil =>
      rw [descend, childNames_set_cons]
      obtain ⟨distinct, entries⟩ := tidy []
      have kept := distinct.filter (· != name)
      split
      · refine ⟨List.nodup_cons.mpr ⟨by simp, kept⟩, fun other member => ?_⟩
        rcases List.mem_cons.mp member with rfl | old
        · exact proper _ List.mem_cons_self
        · exact entries other (List.mem_filter.mp old).1
      · exact ⟨kept, fun other member => entries other (List.mem_filter.mp member).1⟩
    | cons other others =>
      rw [descend, branch_set_cons]
      split
      · exact ih (tidy.branch name) (fun next member => proper next (List.mem_cons_of_mem _ member)) others
      · exact tidy (other :: others)

end Tree

namespace FileSystem

/-- The names in each directory are proper, and each stands there once. -/
structure Tidy (files : FileSystem) : Prop where
  distinct : ∀ location, (files.childNames location).Nodup
  proper : ∀ location, ∀ name ∈ files.childNames location, IsEntry name

theorem tidy_iff {files : FileSystem} : files.Tidy ↔ files.tree.Tidy :=
  ⟨fun tidy names => ⟨tidy.distinct names, tidy.proper names⟩,
    fun tidy => ⟨fun location => (tidy location).1, fun location => (tidy location).2⟩⟩

theorem Tidy.empty : FileSystem.empty.Tidy :=
  tidy_iff.mpr Tree.Tidy.empty

theorem Tidy.insert {files : FileSystem} (tidy : files.Tidy) {location : Location}
    (proper : ∀ name ∈ location, IsEntry name) (node : Node) : (files.insert location node).Tidy :=
  tidy_iff.mpr ((tidy_iff.mp tidy).set (some node) proper)

/-- A name is read from a directory when something stands there by that name. -/
theorem mem_childNames {files : FileSystem} {location : Location} {name : Text} {node : Node}
    (standing : files.get? (location ++ [name]) = some node) : name ∈ files.childNames location := by
  rw [get?, if_neg (by simp), Tree.get?, Tree.descend_append] at standing
  exact Tree.mem_childNames standing

end FileSystem

theorem Text.byteCount_append (first second : Text) :
    (first ++ second).byteCount = first.byteCount + second.byteCount := by
  induction first with
  | nil => simp [byteCount]
  | cons c rest ih => simp [byteCount, ih, Nat.add_assoc]

theorem Text.byteCount_pos {text : Text} (some : text ≠ []) : 0 < text.byteCount := by
  obtain ⟨c, rest, rfl⟩ := List.exists_cons_of_ne_nil some
  exact Nat.lt_of_lt_of_le c.utf8Size_pos (Nat.le_add_right _ _)

theorem Text.join_concat (separator : Text) (parts : List Text) (last : Text) :
    join separator (parts ++ [last]) =
      if parts = [] then last else join separator parts ++ separator ++ last := by
  induction parts with
  | nil => simp [join]
  | cons part parts ih =>
    cases parts with
    | nil => simp [join, List.intercalate]
    | cons next parts =>
      simp only [join, List.cons_append, List.intercalate_cons_cons] at ih ⊢
      simp [ih]

/-- The text of a path is no longer than the one of a path below it. -/
theorem Path.byteCount_child {name : Text} (proper : IsName name) (path : Path) :
    path.text.byteCount ≤ (path.child name).text.byteCount := by
  have child : (path.child name).text =
      Anchor.text path.anchor ++ Text.join ['/'] (path.parts ++ [name]) := by
    unfold Path.text
    split
    · rename_i empty
      simp only [Path.child, Text.join_concat] at empty
      split at empty <;> simp [proper.1] at empty
    · rfl
  rw [child, Text.join_concat, Text.byteCount_append]
  unfold Path.text
  split
  · have positive := Text.byteCount_pos proper.1
    have dot : Text.byteCount ['.'] = 1 := rfl
    rw [dot]
    split
    · omega
    · simp only [Text.byteCount_append]
      omega
  · rw [Text.byteCount_append]
    split
    · rename_i empty
      simp [empty, Text.join, Text.byteCount]
    · simp only [Text.byteCount_append]
      omega

namespace World

variable {world : World} {path : Path}

/-- A directory's names are those of what stands in it. -/
theorem list_eq_ok_iff {names : List Text} :
    world.list path = .ok names ↔
      ∃ location, world.locate .target path = .ok (.taken location .directory) ∧
        names = world.files.childNames location := by
  constructor
  · intro read
    obtain ⟨place, located, read⟩ := ok_of_bind read
    cases place with
    | free directory name => cases read
    | taken location node =>
      cases node <;> cases read
      exact ⟨location, located, rfl⟩
  · rintro ⟨location, located, rfl⟩
    rw [World.list, located]
    rfl

theorem isDirectory_of_list {names : List Text} (read : world.list path = .ok names) :
    world.isDirectory path = .ok true := by
  obtain ⟨location, located, -⟩ := list_eq_ok_iff.mp read
  exact leadsTo_eq_true_iff.mpr ⟨location, _, located, rfl⟩

/-- A directory that a name leads to stands in a directory that has that name. -/
theorem isDirectory_above {name : Text} (proper : IsName name)
    (standing : world.isDirectory (path.child name) = .ok true) :
    ∃ location, world.locate .target path = .ok (.taken location .directory) ∧
      name ∈ world.files.childNames location := by
  obtain ⟨location, node, located, -⟩ := leadsTo_eq_true_iff.mp standing
  obtain ⟨clean, short, walked⟩ := locate_eq_ok_iff.mp located
  obtain ⟨directory, led, there⟩ := FileSystem.walk_above proper walked
  obtain ⟨node, node_there⟩ := Option.ne_none_iff_exists'.mp there
  refine ⟨directory, locate_eq_ok_iff.mpr ⟨Path.hasNul_of_child clean, ?_, led⟩,
    FileSystem.mem_childNames node_there⟩
  exact Nat.le_trans (path.byteCount_child proper) short

end World

end TabCompletion
