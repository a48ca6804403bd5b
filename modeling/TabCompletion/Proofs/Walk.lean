import TabCompletion.FileSystem.Walk

namespace TabCompletion

/-- A name that leads one step down. An empty name, a dot and two dots do not. -/
def IsName (name : Text) : Prop :=
  name ≠ [] ∧ name ≠ ['.'] ∧ name ≠ ['.', '.']

instance (name : Text) : Decidable (IsName name) :=
  inferInstanceAs (Decidable (_ ∧ _ ∧ _))

namespace FileSystem

/-- Where one name leads by its spelling. -/
def stepTo (here : Location) (name : Text) : Location :=
  if name.isEmpty || name = ['.'] then here
  else if name = ['.', '.'] then here.dropLast
  else here ++ [name]

/-- All that names pass through is a directory, and no name among them is too long. What
they lead to in the end may be anything. -/
def Passable (files : FileSystem) (here : Location) : List Text → Prop
  | [] => True
  | name :: rest =>
    files.get? here = some .directory ∧ (IsName name → name.byteCount ≤ maxNameBytes) ∧
      Passable files (stepTo here name) rest

theorem stepTo_name {name : Text} (proper : IsName name) (here : Location) :
    stepTo here name = here ++ [name] := by
  simp [stepTo, proper.1, proper.2.1, proper.2.2]

theorem stepTo_cases (here : Location) (name : Text) :
    stepTo here name = here ∧ ¬ IsName name ∨
      stepTo here name = here.dropLast ∧ name = ['.', '.'] ∨
      stepTo here name = here ++ [name] ∧ IsName name := by
  by_cases stays : name.isEmpty || name = ['.']
  · have improper : ¬ IsName name := by
      simp only [Bool.or_eq_true, List.isEmpty_iff, decide_eq_true_eq] at stays
      rintro ⟨nonempty, undotted, -⟩
      rcases stays with empty | dot
      · exact nonempty empty
      · exact undotted dot
    exact Or.inl ⟨by simp only [stepTo, stays, if_true], improper⟩
  · by_cases up : name = ['.', '.']
    · exact Or.inr (Or.inl ⟨by subst up; rfl, up⟩)
    · simp only [Bool.or_eq_true, List.isEmpty_iff, decide_eq_true_eq, not_or] at stays
      have proper : IsName name := ⟨stays.1, stays.2, up⟩
      exact Or.inr (Or.inr ⟨stepTo_name proper here, proper⟩)

theorem lexical_nil (here : Location) : lexical here [] = here := rfl

theorem lexical_cons (here : Location) (name : Text) (rest : List Text) :
    lexical here (name :: rest) = lexical (stepTo here name) rest := rfl

theorem lexical_append (here : Location) (names more : List Text) :
    lexical here (names ++ more) = lexical (lexical here names) more :=
  List.foldl_append

theorem lexical_concat {name : Text} (proper : IsName name) (here : Location) (names : List Text) :
    lexical here (names ++ [name]) = lexical here names ++ [name] := by
  rw [lexical_append, lexical_cons, lexical_nil, stepTo_name proper]

theorem lexical_names {names : List Text} (proper : ∀ name ∈ names, IsName name)
    (here : Location) : lexical here names = here ++ names := by
  induction names generalizing here with
  | nil => simp [lexical_nil]
  | cons name rest ih =>
    rw [lexical_cons, stepTo_name (proper name List.mem_cons_self),
      ih (fun other member => proper other (List.mem_cons_of_mem name member))]
    simp

/-- Going by spelling from a location of proper names ends at another one. -/
theorem lexical_proper {here : Location} (proper : ∀ name ∈ here, IsName name)
    (names : List Text) : ∀ name ∈ lexical here names, IsName name := by
  induction names generalizing here with
  | nil => exact proper
  | cons name rest ih =>
    rw [lexical_cons]
    refine ih ?_
    rcases stepTo_cases here name with ⟨same, -⟩ | ⟨same, -⟩ | ⟨same, isName⟩ <;> rw [same]
    · exact proper
    · exact fun other member => proper other (List.dropLast_subset here member)
    · intro other member
      rcases List.mem_append.mp member with old | new
      · exact proper other old
      · rwa [List.mem_singleton.mp new]

theorem Passable.append_iff {files : FileSystem} {here : Location} {names more : List Text} :
    files.Passable here (names ++ more) ↔
      files.Passable here names ∧ files.Passable (lexical here names) more := by
  induction names generalizing here with
  | nil => simp [Passable, lexical_nil]
  | cons name rest ih => simp only [List.cons_append, Passable, ih, lexical_cons, and_assoc]

theorem Passable.concat_iff {files : FileSystem} {here : Location} {names : List Text} {name : Text} :
    files.Passable here (names ++ [name]) ↔
      files.Passable here names ∧ files.get? (lexical here names) = some .directory ∧
        (IsName name → name.byteCount ≤ maxNameBytes) := by
  simp [Passable.append_iff, Passable]

/-- What names pass through stays so where all directories are kept. -/
theorem Passable.mono {files others : FileSystem} {here : Location} {names : List Text}
    (kept : ∀ location, files.get? location = some .directory →
      others.get? location = some .directory)
    (passable : files.Passable here names) : others.Passable here names := by
  induction names generalizing here with
  | nil => trivial
  | cons name rest ih => exact ⟨kept here passable.1, passable.2.1, ih passable.2.2⟩

/-- Why names lead no further from what is no directory to be searched. -/
def barrier : Option Node → Refusal
  | some .sealed => .denied
  | _ => .notDirectory

/-- One step of a walk where no link stands. -/
theorem walk_cons {files : FileSystem} (linkFree : files.LinkFree) (ending : Ending) (links : Nat)
    (here : Location) (name : Text) (rest : List Text) :
    files.walk ending links here (name :: rest) =
      if files.get? here = some .directory then
        if IsName name then
          if ending = .output && onlySlashes rest then .error .isDirectory
          else if maxNameBytes < name.byteCount then .error .nameTooLong
          else if files.get? (here ++ [name]) = none then
            if rest.isEmpty then .ok (.free here name) else .error .noEntry
          else files.walk ending links (here ++ [name]) rest
        else files.walk ending links (stepTo here name) rest
      else .error (barrier (files.get? here)) := by
  rw [walk]
  by_cases directory : files.get? here = some .directory
  · simp only [directory, if_true]
    by_cases proper : IsName name
    · obtain ⟨nonempty, undotted, undoubled⟩ := proper
      have filled : name.isEmpty = false := by simpa using nonempty
      have isName : IsName name := ⟨nonempty, undotted, undoubled⟩
      simp only [filled, undotted, undoubled, isName, decide_false, Bool.or_self, Bool.false_eq_true,
        if_false, if_true]
      cases found : files.get? (here ++ [name]) with
      | none => rfl
      | some node =>
        cases node with
        | link target => exact absurd found (linkFree _ target)
        | _ => simp only [reduceCtorEq, if_false]
    · by_cases stays : name.isEmpty || name = ['.']
      · simp only [stays, proper, stepTo, if_true, if_false]
      · have up : name = ['.', '.'] := by
          simp only [Bool.or_eq_true, List.isEmpty_iff, decide_eq_true_eq, not_or] at stays
          simpa [IsName, stays.1, stays.2] using proper
        subst up
        simp [stepTo, IsName]
  · cases standing : files.get? here with
    | none => rfl
    | some node =>
      cases node with
      | directory => exact absurd standing directory
      | _ => rfl

theorem walk_nil {files : FileSystem} {ending : Ending} {links : Nat} {here : Location} {place : Place} :
    files.walk ending links here [] = .ok place ↔
      ∃ node, files.get? here = some node ∧ place = .taken here node := by
  rw [walk]
  cases files.get? here with
  | none => simp
  | some node => simp [eq_comm]

/-- Where no link stands, names lead to a node exactly when they pass through directories
to where their spelling ends. -/
theorem walk_eq_taken_iff {files : FileSystem} {ending : Ending} {links : Nat}
    {here location : Location} {names : List Text} {node : Node} (linkFree : files.LinkFree)
    (read : ending ≠ .output) :
    files.walk ending links here names = .ok (.taken location node) ↔
      files.Passable here names ∧ location = lexical here names ∧
        files.get? location = some node := by
  induction names generalizing here with
  | nil =>
    rw [walk_nil]
    constructor
    · rintro ⟨found, standing, same⟩
      cases same
      exact ⟨trivial, rfl, standing⟩
    · rintro ⟨-, same, standing⟩
      exact ⟨node, by rwa [same] at standing, by rw [same]; rfl⟩
  | cons name rest ih =>
    rw [walk_cons linkFree, lexical_cons, Passable]
    by_cases directory : files.get? here = some .directory
    · simp only [directory, if_true, true_and]
      by_cases proper : IsName name
      · simp only [proper, read, stepTo_name proper, decide_false, Bool.false_and,
          Bool.false_eq_true, if_true, if_false, true_implies]
        by_cases long : maxNameBytes < name.byteCount
        · simp [long, Nat.not_le_of_lt long]
        · by_cases empty : files.get? (here ++ [name]) = none
          -- Nothing stands by the name, so that it leads nowhere however the names go on.
          · have nowhere : ¬ (files.Passable (here ++ [name]) rest ∧
                location = lexical (here ++ [name]) rest ∧ files.get? location = some node) := by
              rintro ⟨passable, same, standing⟩
              cases rest with
              | nil => rw [same, lexical_nil, empty] at standing; cases standing
              | cons next more => rw [passable.1] at empty; cases empty
            have stopped : (if rest.isEmpty then (.ok (.free here name) : Except Refusal Place)
                else .error .noEntry) ≠ .ok (.taken location node) := by
              split <;> simp
            simp only [long, empty, if_true, if_false, stopped, false_iff]
            exact fun ⟨⟨_, passable⟩, there⟩ => nowhere ⟨passable, there⟩
          · simp only [long, empty, if_false, ih, Nat.le_of_not_lt long, true_and]
      · simp only [proper, if_false, ih, false_implies, true_and]
    · simp [directory]

/-- Where no link stands, names lead to a free name exactly when they pass through
directories and nothing stands where their spelling ends. -/
theorem walk_eq_free_iff {files : FileSystem} {ending : Ending} {links : Nat}
    {here directory : Location} {names : List Text} {name : Text} (linkFree : files.LinkFree)
    (read : ending ≠ .output) :
    files.walk ending links here names = .ok (.free directory name) ↔
      files.Passable here names ∧ names.getLast? = some name ∧ IsName name ∧
        lexical here names = directory ++ [name] ∧ files.get? (directory ++ [name]) = none := by
  induction names generalizing here with
  | nil => simp [walk_nil]
  | cons next rest ih =>
    rw [walk_cons linkFree, lexical_cons, Passable]
    by_cases passed : files.get? here = some .directory
    · simp only [passed, if_true, true_and]
      by_cases proper : IsName next
      · simp only [proper, read, stepTo_name proper, decide_false, Bool.false_and,
          Bool.false_eq_true, if_true, if_false, true_implies]
        by_cases long : maxNameBytes < next.byteCount
        · simp [long, Nat.not_le_of_lt long]
        · simp only [long, if_false, Nat.le_of_not_lt long, true_and]
          cases rest with
          | nil =>
            by_cases empty : files.get? (here ++ [next]) = none
            · simp only [empty, if_true, List.isEmpty_nil, Passable, lexical_nil, true_and,
                List.getLast?_singleton, Option.some.injEq, Except.ok.injEq, Place.free.injEq]
              constructor
              · rintro ⟨rfl, rfl⟩
                exact ⟨rfl, proper, rfl, empty⟩
              · rintro ⟨rfl, -, same, -⟩
                exact ⟨List.append_cancel_right same, rfl⟩
            · simp only [empty, if_false, walk_nil, reduceCtorEq, and_false, exists_false,
                lexical_nil, false_iff]
              rintro ⟨-, -, -, same, none⟩
              exact empty (same ▸ none)
          | cons other more =>
            by_cases empty : files.get? (here ++ [next]) = none
            · have blocked : ¬ files.Passable (here ++ [next]) (other :: more) := by
                rintro ⟨standing, -⟩
                rw [empty] at standing
                cases standing
              simp [empty, blocked]
            · simp only [empty, if_false, ih, List.getLast?_cons_cons]
      · simp only [proper, if_false, ih, false_implies, true_and]
        cases rest with
        | nil =>
          simp only [List.getLast?_nil, reduceCtorEq, false_and, and_false, false_iff,
            List.getLast?_singleton, Option.some.injEq]
          rintro ⟨-, rfl, isName, -⟩
          exact proper isName
        | cons other more => simp only [List.getLast?_cons_cons]
    · simp [passed]

/-- A walk goes on from what its first names lead to. -/
theorem Passable.walk_append {files : FileSystem} {ending : Ending} {here : Location}
    {names : List Text} (passable : files.Passable here names) (linkFree : files.LinkFree)
    (read : ending ≠ .output) (standing : files.get? (lexical here names) ≠ none)
    (links : Nat) (more : List Text) :
    files.walk ending links here (names ++ more) =
      files.walk ending links (lexical here names) more := by
  induction names generalizing here with
  | nil => rfl
  | cons name rest ih =>
    have later := ih passable.2.2 standing
    rw [List.cons_append, walk_cons linkFree, lexical_cons, ← later]
    by_cases proper : IsName name
    · have next : files.get? (here ++ [name]) ≠ none := by
        rw [← stepTo_name proper]
        cases rest with
        | nil => exact standing
        | cons other more => simp [passable.2.2.1]
      simp only [passable.1, proper, read, next, stepTo_name proper,
        Nat.not_lt_of_le (passable.2.1 proper), decide_false, Bool.false_and, Bool.false_eq_true,
        if_true, if_false]
    · simp only [passable.1, proper, if_true, if_false]

/-- A path that may be written leads where it leads when it is read. -/
theorem walk_output {files : FileSystem} {links : Nat} {here : Location} {names : List Text}
    {place : Place} (linkFree : files.LinkFree)
    (reached : files.walk .output links here names = .ok place) :
    files.walk .target links here names = .ok place := by
  induction names generalizing here with
  | nil => rwa [walk_nil] at reached ⊢
  | cons name rest ih =>
    rw [walk_cons linkFree] at reached ⊢
    by_cases passed : files.get? here = some .directory
    · by_cases proper : IsName name
      · simp only [passed, proper, if_true] at reached ⊢
        split at reached
        · cases reached
        · simp only [reduceCtorEq, decide_false, Bool.false_and, Bool.false_eq_true, if_false]
          by_cases long : maxNameBytes < name.byteCount
          · simp only [long, if_true, reduceCtorEq] at reached
          · by_cases empty : files.get? (here ++ [name]) = none
            · simpa only [long, empty, if_true, if_false] using reached
            · simp only [long, empty, if_false] at reached ⊢
              exact ih reached
      · simp only [passed, proper, if_true, if_false] at reached ⊢
        exact ih reached
    · simp only [passed, if_false, reduceCtorEq] at reached

/-- Where no link stands no walk follows too many of them. -/
theorem walk_ne_linkLoop {files : FileSystem} (linkFree : files.LinkFree) (ending : Ending) (links : Nat)
    (here : Location) (names : List Text) : files.walk ending links here names ≠ .error .linkLoop := by
  induction names generalizing here with
  | nil =>
    rw [walk]
    cases files.get? here <;> simp
  | cons name rest ih =>
    rw [walk_cons linkFree]
    split
    · split
      · split
        · simp
        · split
          · simp
          · split
            · split <;> simp
            · exact ih _
      · exact ih _
    · unfold barrier
      split <;> simp

/-- What is followed to its end is refused for what stands on the way, for a directory that may
not be searched, or for a name that is too long. -/
theorem walk_target_error {files : FileSystem} {links : Nat} {here : Location}
    {names : List Text} {refusal : Refusal}
    (walked : files.walk .target links here names = .error refusal) :
    refusal = .noEntry ∨ refusal = .notDirectory ∨ refusal = .linkLoop ∨ refusal = .nameTooLong ∨
      refusal = .denied := by
  fun_induction walk files .target links here names <;> simp_all

/-- A walk sees no more of the files than what stands at each location. -/
theorem walk_congr {files others : FileSystem}
    (same : ∀ location, others.get? location = files.get? location) (ending : Ending) (links : Nat)
    (here : Location) (names : List Text) :
    others.walk ending links here names = files.walk ending links here names := by
  fun_induction walk files ending links here names with
  | case11 here name rest directory moves notUp reads short target standing through links ih =>
    rw [dite_eq_ite] at ih
    rw [walk]
    simp only [Bool.false_eq_true, if_false, *]
  | _ =>
    rw [walk]
    simp only [Bool.false_eq_true, if_true, if_false, *]

/-- Whatever stands anywhere stands in a directory. -/
def Rooted (files : FileSystem) : Prop :=
  ∀ directory name, files.get? (directory ++ [name]) ≠ none → files.get? directory = some .directory

theorem Rooted.above {files : FileSystem} (rooted : files.Rooted) {above below : Location}
    (standing : files.get? (above ++ below) ≠ none) (proper : below ≠ []) :
    files.get? above = some .directory := by
  induction below generalizing above with
  | nil => exact absurd rfl proper
  | cons name rest ih =>
    by_cases last : rest = []
    · exact rooted above name (last ▸ standing)
    · rw [List.append_cons] at standing
      exact rooted above name (by simp [ih standing last])

theorem Rooted.directory_above {files : FileSystem} (rooted : files.Rooted) {above below : Location}
    (directory : files.get? (above ++ below) = some .directory) :
    files.get? above = some .directory := by
  by_cases empty : below = []
  · rwa [empty, List.append_nil] at directory
  · exact rooted.above (by simp [directory]) empty

/-- What is put into a directory, but not in place of another directory, stands in a directory. -/
theorem Rooted.insert {files : FileSystem} (rooted : files.Rooted) {directory : Location} {name : Text}
    (parent : files.get? directory = some .directory)
    (kept : files.get? (directory ++ [name]) ≠ some .directory) (node : Node) :
    (files.insert (directory ++ [name]) node).Rooted := by
  have proper : directory ++ [name] ≠ [] := by simp
  intro above last standing
  rw [get?_insert files proper] at standing ⊢
  have parent_above : files.get? above = some .directory := by
    by_cases here : above ++ [last] = directory ++ [name]
    · rw [(List.append_inj' here rfl).1]
      exact parent
    · rw [if_neg here] at standing
      exact rooted above last standing
  by_cases covered : above = directory ++ [name]
  · exact absurd (covered ▸ parent_above) kept
  · rw [if_neg covered, parent_above]

/-- Names are passable by their spelling alone, two dots aside, when they lead to a
directory and none is too long. -/
theorem Rooted.passable {files : FileSystem} (rooted : files.Rooted) {here : Location}
    {names : List Text} (direct : ['.', '.'] ∉ names)
    (short : ∀ name ∈ names, IsName name → name.byteCount ≤ maxNameBytes)
    (directory : files.get? (lexical here names) = some .directory) :
    files.get? here = some .directory ∧ files.Passable here names := by
  induction names generalizing here with
  | nil => exact ⟨directory, trivial⟩
  | cons name rest ih =>
    obtain ⟨next, passable⟩ := ih (fun member => direct (List.mem_cons_of_mem name member))
      (fun other member => short other (List.mem_cons_of_mem name member))
      (lexical_cons here name rest ▸ directory)
    have standing : files.get? here = some .directory := by
      rcases stepTo_cases here name with ⟨same, -⟩ | ⟨-, up⟩ | ⟨same, -⟩
      · rwa [same] at next
      · exact absurd (up ▸ List.mem_cons_self) direct
      · rw [same] at next
        exact rooted.directory_above next
    exact ⟨standing, standing, short name List.mem_cons_self, passable⟩

theorem Passable.short {files : FileSystem} {here : Location} {names : List Text}
    (passable : files.Passable here names) :
    ∀ name ∈ names, IsName name → name.byteCount ≤ maxNameBytes := by
  induction names generalizing here with
  | nil => simp
  | cons name rest ih =>
    intro other member
    rcases List.mem_cons.mp member with rfl | later
    · exact passable.2.1
    · exact ih passable.2.2 other later

/-- The spelling of a location that stands in a directory fails only by its length. -/
theorem walk_names {files : FileSystem} (rooted : files.Rooted) (linkFree : files.LinkFree)
    {ending : Ending} (read : ending ≠ .output) (links : Nat) {here : Location} {names : List Text}
    (proper : ∀ name ∈ names, IsName name)
    (directory : files.get? (here ++ names.dropLast) = some .directory)
    (long : ∃ name ∈ names, maxNameBytes < name.byteCount) :
    files.walk ending links here names = .error .nameTooLong := by
  induction names generalizing here with
  | nil => simp at long
  | cons name rest ih =>
    have passed := rooted.directory_above directory
    rw [walk_cons linkFree]
    simp only [passed, proper name List.mem_cons_self, read, decide_false, Bool.false_and,
      Bool.false_eq_true, if_true, if_false]
    by_cases here_long : maxNameBytes < name.byteCount
    · simp only [here_long, if_true]
    · obtain ⟨other, member, otherLong⟩ := long
      rcases List.mem_cons.mp member with rfl | later
      · exact absurd otherLong here_long
      · have nonempty : rest ≠ [] := List.ne_nil_of_mem later
        rw [List.dropLast_cons_of_ne_nil nonempty, List.append_cons] at directory
        have next := rooted.directory_above directory
        simp only [here_long, next, reduceCtorEq, if_false]
        exact ih (fun other member => proper other (List.mem_cons_of_mem name member)) directory
          ⟨other, later, otherLong⟩

/-- A path as links being followed leave it: two dots remain only where a relative path
starts. -/
def Settled (path : Path) : Prop :=
  ∀ part ∈ path.parts, IsName part ∨ part = ['.', '.'] ∧ path.isAbsolute = false

theorem Settled.concat {path : Path} (settled : Settled path) {name : Text}
    (proper : IsName name ∨ name = ['.', '.'] ∧ path.isAbsolute = false) :
    Settled ⟨path.anchor, path.parts ++ [name]⟩ := by
  intro part member
  rcases List.mem_append.mp member with old | new
  · exact settled part old
  · rwa [List.mem_singleton.mp new]

theorem spelled_concat (cwd : Location) (path : Path) (name : Text) :
    spelled cwd ⟨path.anchor, path.parts ++ [name]⟩ = stepTo (spelled cwd path) name :=
  lexical_append _ path.parts [name]

theorem spelled_parent {cwd : Location} {path : Path} {name : Text}
    (last : path.parts.getLast? = some name) (proper : IsName name) :
    spelled cwd path.parent ++ [name] = spelled cwd path := by
  obtain ⟨names, parts⟩ := List.getLast?_eq_some_iff.mp last
  have whole : path = ⟨path.anchor, names ++ [name]⟩ := by rw [← parts]
  rw [whole, spelled_concat cwd ⟨path.anchor, names⟩, stepTo_name proper]
  simp [Path.parent]

theorem above_settled {path : Path} (settled : Settled path) (cwd : Location) :
    Settled (above path) ∧ (above path).anchor = path.anchor ∧
      spelled cwd (above path) = (spelled cwd path).dropLast := by
  obtain ⟨anchor, parts⟩ := path
  have parent_settled : Settled (Path.parent ⟨anchor, parts⟩) := fun part member =>
    settled part (List.dropLast_subset parts member)
  rcases List.eq_nil_or_concat parts with rfl | ⟨names, name, same⟩
  · cases absolute : Path.isAbsolute ⟨anchor, []⟩ with
    | true =>
      simp only [above, absolute, if_true]
      exact ⟨parent_settled, rfl, by simp [spelled, absolute, Path.parent, lexical_nil]⟩
    | false =>
      simp only [above, absolute, List.getLast?_nil, Bool.false_eq_true, if_false]
      exact ⟨settled.concat (.inr ⟨rfl, absolute⟩), trivial, spelled_concat cwd ⟨anchor, []⟩ _⟩
  · rw [List.concat_eq_append] at same
    subst same
    rcases settled name (by simp) with proper | ⟨rfl, relative⟩
    · have up : above ⟨anchor, names ++ [name]⟩ = Path.parent ⟨anchor, names ++ [name]⟩ := by
        simp [above, proper.2.2]
      have last : (Path.mk anchor (names ++ [name])).parts.getLast? = some name := by simp
      rw [up, ← spelled_parent last proper]
      exact ⟨parent_settled, rfl, by simp⟩
    · have up : above ⟨anchor, names ++ [['.', '.']]⟩ =
          ⟨anchor, (names ++ [['.', '.']]) ++ [['.', '.']]⟩ := by
        simp only [above, relative, List.getLast?_concat, Bool.false_eq_true, if_false, if_true]
      rw [up]
      exact ⟨settled.concat (.inr ⟨rfl, relative⟩), rfl,
        spelled_concat cwd ⟨anchor, names ++ [['.', '.']]⟩ _⟩

/-- Where no link stands, following links only resolves the spelling. -/
theorem realFrom_of_linkFree {files : FileSystem} (linkFree : files.LinkFree) (cwd : Location)
    (fuel : Nat) (seen : Seen) {here : Path} (settled : Settled here) (names : List Text) :
    (files.realFrom cwd fuel seen here names).1.anchor = here.anchor ∧
      spelled cwd (files.realFrom cwd fuel seen here names).1 = lexical (spelled cwd here) names := by
  -- The path resolved so far is settled, so that a step up takes its last name away.
  induction names generalizing here with
  | nil =>
    rw [realFrom]
    exact ⟨rfl, rfl⟩
  | cons name rest ih =>
    rw [realFrom, lexical_cons]
    by_cases stays : name.isEmpty || name = ['.']
    · simp only [stays, stepTo, if_true]
      exact ih settled
    · by_cases up : name = ['.', '.']
      · obtain ⟨next, anchor, location⟩ := above_settled settled cwd
        simp only [up, stepTo, if_true]
        rw [← anchor, ← location]
        exact ih next
      · have proper : IsName name := by
          simp only [Bool.or_eq_true, List.isEmpty_iff, decide_eq_true_eq, not_or] at stays
          exact ⟨stays.1, stays.2, up⟩
        have next := ih (settled.concat (.inl proper))
        rw [spelled_concat] at next
        simp only [stays, up, if_false]
        cases found : files.get? (spelled cwd ⟨here.anchor, here.parts ++ [name]⟩) with
        | none => exact next
        | some node =>
          cases node with
          | link target => exact absurd found (linkFree _ target)
          | _ => exact next

theorem real_of_linkFree {files : FileSystem} (linkFree : files.LinkFree) (cwd : Location)
    (path : Path) : files.real cwd path = (spelled cwd path).toPath := by
  have settled : Settled ⟨if path.isAbsolute then .root else .relative, []⟩ := by simp [Settled]
  have reached := realFrom_of_linkFree linkFree cwd (files.followFuel cwd path) [] settled path.parts
  simp only [real]
  generalize (realFrom files cwd (files.followFuel cwd path) []
    ⟨if path.isAbsolute then .root else .relative, []⟩ path.parts).1 = found at reached ⊢
  obtain ⟨anchor, location⟩ := reached
  have start : spelled cwd ⟨if path.isAbsolute then .root else .relative, []⟩ =
      if path.isAbsolute then [] else cwd := by
    cases path.isAbsolute <;> rfl
  have same : spelled cwd found = spelled cwd path := by rw [location, start]; rfl
  rw [same, Path.isAbsolute, anchor]
  cases path.isAbsolute <;> rfl

end FileSystem

end TabCompletion
