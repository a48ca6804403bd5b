import Mathlib
import TabCompletion.Proofs.CandidateText
import TabCompletion.Proofs.Except

namespace TabCompletion.Project

open CommandLine

variable {world : World} {root : Path} {category : Category} {parent : Path} {name : Text}

theorem qualifies_eq_true_iff :
    qualifies world category parent name = .ok true ↔
      world.isDirectory (parent / name) = .ok true ∧ category.admits name = true ∧
        ∀ file ∈ category.requiredFile?, world.isFile (parent / name / file) = .ok true := by
  unfold qualifies
  cases found : world.isDirectory (parent / name) with
  | error fault => simp [found, bind, Except.bind]
  | ok standing =>
    cases standing <;> cases category.admits name <;> cases category.requiredFile? <;>
      simp [found, bind, Except.bind, pure, Except.pure]

/-- Whether a name is an identifier can be told when each look that it takes is answered. -/
theorem qualifies_eq_ok_iff :
    (∃ keep, qualifies world category parent name = .ok keep) ↔
      (∃ standing, world.isDirectory (parent / name) = .ok standing) ∧
        (world.isDirectory (parent / name) = .ok true → category.admits name = true →
          ∀ file ∈ category.requiredFile?, ∃ standing, world.isFile (parent / name / file) = .ok standing) := by
  unfold qualifies
  cases found : world.isDirectory (parent / name) with
  | error fault => simp [found, bind, Except.bind]
  | ok standing =>
    cases standing <;> cases category.admits name <;> cases category.requiredFile? <;>
      simp [found, bind, Except.bind, pure, Except.pure]

theorem qualified_of_answers {names : List Text}
    (answers : ∀ name ∈ names, ∃ keep, qualifies world category parent name = .ok keep) :
    ∃ kept, qualified world category parent names = .ok kept ∧ kept.Sublist names ∧
      ∀ name, name ∈ kept ↔ name ∈ names ∧ qualifies world category parent name = .ok true := by
  induction names with
  | nil => exact ⟨[], rfl, .slnil, by simp⟩
  | cons name names ih =>
    obtain ⟨kept, run, sublist, member⟩ := ih fun other among => answers other (List.mem_cons_of_mem _ among)
    obtain ⟨keep, decided⟩ := answers name List.mem_cons_self
    cases keep with
    | true =>
      refine ⟨name :: kept, ?_, sublist.cons_cons name, fun other => ?_⟩
      · rw [qualified, decided, run]
        rfl
      · rw [List.mem_cons, List.mem_cons, member]
        constructor
        · rintro (rfl | ⟨among, passed⟩)
          · exact ⟨Or.inl rfl, decided⟩
          · exact ⟨Or.inr among, passed⟩
        · rintro ⟨rfl | among, passed⟩
          · exact Or.inl rfl
          · exact Or.inr ⟨among, passed⟩
    | false =>
      refine ⟨kept, ?_, sublist.cons name, fun other => ?_⟩
      · rw [qualified, decided, run]
        rfl
      · rw [List.mem_cons, member]
        constructor
        · rintro ⟨among, passed⟩
          exact ⟨Or.inr among, passed⟩
        · rintro ⟨rfl | among, passed⟩
          · rw [decided] at passed
            cases passed
          · exact ⟨among, passed⟩

theorem answers_of_qualified {names kept : List Text}
    (run : qualified world category parent names = .ok kept) :
    ∀ name ∈ names, ∃ keep, qualifies world category parent name = .ok keep := by
  induction names generalizing kept with
  | nil => simp
  | cons name names ih =>
    obtain ⟨keep, decided, run⟩ := ok_of_bind run
    obtain ⟨others, later, -⟩ := ok_of_bind run
    intro other among
    rcases List.mem_cons.mp among with rfl | among
    · exact ⟨keep, decided⟩
    · exact ih later other among

/-- The identifiers of a category: directories that are not hidden, with the file that makes
each what it is. The archive among the changes is no change. -/
inductive Qualifying (world : World) (root : Path) : Category → Text → Prop where
  | change {name : Text} (entry : IsEntry name) (visible : name.head? ≠ some '.')
      (active : name ≠ ("archive" : Text))
      (directory : world.isDirectory (root / ("spectest" : Text) / ("changes" : Text) / name) = .ok true)
      (proposal : world.isFile
        (root / ("spectest" : Text) / ("changes" : Text) / name / ("proposal.md" : Text)) = .ok true) :
      Qualifying world root .changes name
  | spec {name : Text} (entry : IsEntry name) (visible : name.head? ≠ some '.')
      (directory : world.isDirectory (root / ("spectest" : Text) / ("specs" : Text) / name) = .ok true)
      (text : world.isFile
        (root / ("spectest" : Text) / ("specs" : Text) / name / ("spec.md" : Text)) = .ok true) :
      Qualifying world root .specs name
  | archived {name : Text} (entry : IsEntry name) (visible : name.head? ≠ some '.')
      (directory : world.isDirectory
        (root / ("spectest" : Text) / ("changes" : Text) / ("archive" : Text) / name) = .ok true) :
      Qualifying world root .archivedChanges name

theorem qualifying_iff :
    Qualifying world root category name ↔
      IsEntry name ∧ qualifies world category (category.directory root) name = .ok true := by
  rw [qualifies_eq_true_iff]
  constructor
  · rintro (⟨entry, visible, active, directory, proposal⟩ | ⟨entry, visible, directory, text⟩ |
      ⟨entry, visible, directory⟩)
    · have admitted : Category.changes.admits name = true := by
        rw [Category.admits, decide_eq_false active]
        simp [visible]
      refine ⟨entry, directory, admitted, ?_⟩
      rintro file ⟨⟩
      exact proposal
    · refine ⟨entry, directory, by simp [Category.admits, visible], ?_⟩
      rintro file ⟨⟩
      exact text
    · refine ⟨entry, directory, by simp [Category.admits, visible], ?_⟩
      rintro file ⟨⟩
  · rintro ⟨entry, directory, admitted, required⟩
    cases category with
    | changes =>
      simp only [Category.admits, Bool.and_eq_true, bne_iff_ne, Bool.not_eq_true', Bool.and_eq_false_iff,
        decide_eq_false_iff_not, not_true, false_or] at admitted
      exact .change entry admitted.1 admitted.2 directory (required _ rfl)
    | specs => exact .spec entry (by simpa [Category.admits] using admitted) directory (required _ rfl)
    | archivedChanges => exact .archived entry (by simpa [Category.admits] using admitted) directory

/-- All that a category's list looks at is answered by the system, whatever the answer is. -/
structure Legible (world : World) (root : Path) (category : Category) : Prop where
  directory : ∃ standing, world.isDirectory (category.directory root) = .ok standing
  listed : world.isDirectory (category.directory root) = .ok true →
    ∃ names, world.list (category.directory root) = .ok names
  entry : ∀ names, world.list (category.directory root) = .ok names → ∀ name ∈ names,
    ∃ standing, world.isDirectory (category.directory root / name) = .ok standing
  file : ∀ names, world.list (category.directory root) = .ok names → ∀ name ∈ names,
    world.isDirectory (category.directory root / name) = .ok true → category.admits name = true →
      ∀ file ∈ category.requiredFile?,
        ∃ standing, world.isFile (category.directory root / name / file) = .ok standing

/-- An identifier is among the names of its category's directory. -/
theorem Qualifying.listed (qualifying : Qualifying world root category name) :
    ∃ names, world.isDirectory (category.directory root) = .ok true ∧
      world.list (category.directory root) = .ok names ∧ name ∈ names := by
  obtain ⟨entry, passed⟩ := qualifying_iff.mp qualifying
  have standing := (qualifies_eq_true_iff.mp passed).1
  rw [Path.div_eq_child entry.ofText] at standing
  obtain ⟨location, located, member⟩ := World.isDirectory_above entry.proper standing
  have read := World.list_eq_ok_iff.mpr ⟨location, located, rfl⟩
  exact ⟨_, World.isDirectory_of_list read, read, member⟩

/-- The identifiers of a category that can be read, each once and in order. -/
theorem identifiers_of_legible (tidy : world.files.Tidy) (legible : Legible world root category) :
    ∃ names, identifiers world root category = .ok names ∧ names.Pairwise Text.Before ∧
      ∀ name, name ∈ names ↔ Qualifying world root category name := by
  obtain ⟨standing, found⟩ := legible.directory
  cases standing with
  | false =>
    refine ⟨[], ?_, .nil, fun name => iff_of_false List.not_mem_nil fun qualifying => ?_⟩
    · rw [identifiers, found]
      rfl
    · obtain ⟨names, directory, -⟩ := qualifying.listed
      rw [found] at directory
      cases directory
  | true =>
    obtain ⟨listed, read⟩ := legible.listed found
    obtain ⟨location, located, rfl⟩ := World.list_eq_ok_iff.mp read
    have answers : ∀ name ∈ world.files.childNames location,
        ∃ keep, qualifies world category (category.directory root) name = .ok keep :=
      fun name member =>
        qualifies_eq_ok_iff.mpr ⟨legible.entry _ read name member, legible.file _ read name member⟩
    obtain ⟨kept, run, sublist, member⟩ := qualified_of_answers answers
    refine ⟨kept.mergeSort Text.atMost, ?_,
      Text.mergeSort_before (sublist.nodup (tidy.distinct location)), fun name => ?_⟩
    · rw [identifiers, found]
      simp only [bind, Except.bind, if_true, read, run]
      rfl
    · rw [List.mem_mergeSort, member, qualifying_iff]
      constructor
      · rintro ⟨among, passed⟩
        exact ⟨tidy.proper location name among, passed⟩
      · rintro ⟨entry, passed⟩
        obtain ⟨names, -, readAgain, among⟩ := (qualifying_iff.mpr ⟨entry, passed⟩).listed
        rw [read] at readAgain
        cases readAgain
        exact ⟨among, passed⟩

theorem legible_of_identifiers {names : List Text}
    (run : identifiers world root category = .ok names) : Legible world root category := by
  obtain ⟨standing, found, run⟩ := ok_of_bind run
  have answers : ∀ listed, world.list (category.directory root) = .ok listed → ∀ name ∈ listed,
      ∃ keep, qualifies world category (category.directory root) name = .ok keep := by
    intro listed read
    obtain rfl : true = standing := Except.ok.inj ((World.isDirectory_of_list read).symm.trans found)
    rw [if_pos rfl] at run
    obtain ⟨again, readAgain, run⟩ := ok_of_bind run
    obtain rfl := Except.ok.inj (read.symm.trans readAgain)
    obtain ⟨kept, run, -⟩ := ok_of_bind run
    exact answers_of_qualified run
  refine ⟨⟨standing, found⟩, fun there => ?_, fun listed read name member => ?_,
    fun listed read name member => ?_⟩
  · obtain rfl := Except.ok.inj (there.symm.trans found)
    rw [if_pos rfl] at run
    obtain ⟨listed, read, -⟩ := ok_of_bind run
    exact ⟨listed, read⟩
  · exact (qualifies_eq_ok_iff.mp (answers listed read name member)).1
  · exact (qualifies_eq_ok_iff.mp (answers listed read name member)).2

theorem category_eq_ok_iff {word : Text} {category : Category} :
    Project.category word = .ok category ↔ word = category.word := by
  unfold Project.category
  constructor
  · intro found
    split at found
    · rename_i known
      cases found
      have matched := List.find?_some known
      exact (of_decide_eq_true matched).symm
    · cases found
  · rintro rfl
    cases category <;> rfl

theorem candidates_eq_ok_iff {world : World} {root : Path} {word : Text} {listed : List (Text × Text)} :
    candidates world root word = .ok listed ↔
      ∃ category names, word = category.word ∧ identifiers world root category = .ok names ∧
        listed = names.map fun name => (name, category.label) := by
  constructor
  · intro run
    obtain ⟨category, known, run⟩ := ok_of_bind run
    obtain ⟨names, found, same⟩ := ok_of_bind run
    cases same
    exact ⟨category, names, category_eq_ok_iff.mp known, found, rfl⟩
  · rintro ⟨category, names, same, found, rfl⟩
    rw [candidates, category_eq_ok_iff.mpr same]
    simp only [bind, Except.bind, found]
    rfl

theorem Category.label_ne_nil (category : Category) : category.label ≠ [] := by
  cases category <;> decide

theorem Category.label_unbroken (category : Category) : '\n' ∉ category.label := by
  cases category <;> decide

theorem Category.label_ascii (category : Category) : ∀ character ∈ category.label, character.toNat < 128 := by
  have all : category.label.all (fun character => decide (character.toNat < 128)) = true := by
    cases category <;> decide
  exact fun character member => of_decide_eq_true (List.all_eq_true.mp all character member)

/-- A line of a list can be written where its name can be. -/
theorem spells_candidateLine_iff {charset : Charset} :
    charset.Spells (candidateLine category.label name) ↔ charset.Spells name := by
  have tab : charset.has '\t' = true := charset.ascii '\t' (by decide)
  have label : charset.Spells category.label := fun character member =>
    charset.ascii character (category.label_ascii character member)
  simp only [Charset.Spells, candidateLine, List.mem_append, List.mem_cons, or_imp, forall_and, forall_eq, tab]
  exact ⟨fun all => all.1, fun spelled => ⟨spelled, trivial, label⟩⟩

/-- What is found for a word: all the candidates, or why there are none. -/
def found (world : World) (word : Text) : Except Fault (List (Text × Text)) := do
  let root ← Project.root world world.cwd.toPath
  candidates world root word

variable (world : World) (notes : List Text)

theorem first?_notes (paths : List Path) : first? { world with notes := notes } paths = first? world paths := by
  induction paths with
  | nil => rfl
  | cons path paths ih =>
    rw [first?, first?, ih]
    rfl

theorem qualified_notes (category : Category) (parent : Path) (names : List Text) :
    qualified { world with notes := notes } category parent names = qualified world category parent names := by
  induction names with
  | nil => rfl
  | cons name names ih =>
    rw [qualified, qualified, ih]
    rfl

/-- What is found does not hang on the notes taken. -/
theorem found_notes (word : Text) : found { world with notes := notes } word = found world word := by
  have sameRoot (start : Path) : Project.root { world with notes := notes } start = Project.root world start := by
    unfold Project.root
    simp only [first?_notes]
    rfl
  have sameNames (root : Path) (category : Category) :
      identifiers { world with notes := notes } root category = identifiers world root category := by
    unfold identifiers
    simp only [qualified_notes]
    rfl
  unfold found candidates
  simp only [sameRoot, sameNames]

end TabCompletion.Project

namespace TabCompletion.CommandLine

open Project (Category Qualifying Legible readCandidates candidateLine)

variable {host : Host} {verbosity : Verbosity} {written : Text} {world : World} {category : Category}
  {names : List Text}

theorem run_found {α : Type} (word : Text) (next : Except Fault (List (Text × Text)) → Action α) :
    (Action.onDisk verbosity (Disk.attempt (Disk.look fun world => Project.found world word)) >>= next)
        { world := world } =
      next (Project.found world word) { world := { world with notes := [] } } := by
  rw [Action.run_bind, Action.run_onDisk]
  simp only [Disk.run_attempt, Disk.run_look, Project.found_notes]
  rfl

/-- Candidates that were found are joined and written, each on a line of its own, if they can be. -/
theorem listCandidates_found {name : Text}
    (found : Project.found world written.trim.lowerCase =
      .ok ((name :: names).map fun name => (name, category.label))) :
    listCandidates host verbosity written { world := world } =
      (Action.print host.charset (Text.join "\n" ((name :: names).map (candidateLine category.label))) >>=
        fun _ => pure 0) { world := { world with notes := [] } } := by
  have run : listCandidates host verbosity written { world := world } = _ := run_found _ _
  rw [run, found]
  simp only [List.map_cons, List.map_map]
  rfl

theorem spells_lines_iff :
    host.charset.Spells (Text.join "\n" (names.map (candidateLine category.label))) ↔
      ∀ name ∈ names, host.charset.Spells name := by
  refine Charset.spells_join_iff.trans ?_
  simp only [List.forall_mem_map, Project.spells_candidateLine_iff]

theorem listCandidates_names (plain : ∀ name ∈ names, '\n' ∉ name)
    (spelled : ∀ name ∈ names, host.charset.Spells name)
    (found : Project.found world written.trim.lowerCase = .ok (names.map fun name => (name, category.label))) :
    ∃ session, listCandidates host verbosity written { world := world } = (.ok 0, session) ∧
      session.console.out = ((names.map (candidateLine category.label)).map (· ++ ['\n'])).flatten := by
  cases names with
  | nil =>
    have run : listCandidates host verbosity written { world := world } = _ := run_found _ _
    rw [run, found]
    exact ⟨_, rfl, rfl⟩
  | cons name names =>
    have whole : ∀ line ∈ (name :: names).map (candidateLine category.label), line ≠ [] ∧ '\n' ∉ line := by
      intro line member
      obtain ⟨other, among, rfl⟩ := List.mem_map.mp member
      exact ⟨by simp [candidateLine], by simp [candidateLine, plain other among, category.label_unbroken]⟩
    rw [listCandidates_found found, Action.run_bind, Action.run_print (spells_lines_iff.mpr spelled)]
    exact ⟨_, rfl, (Console.out_data_lines whole (by simp) {}).trans (List.nil_append _)⟩

/-- Where one of the candidates cannot be written, none is. -/
theorem listCandidates_unspelled (unspelled : ∃ name ∈ names, ¬ host.charset.Spells name)
    (found : Project.found world written.trim.lowerCase = .ok (names.map fun name => (name, category.label))) :
    ∃ character session, listCandidates host verbosity written { world := world } =
        (.error (.unencodable character), session) ∧ session.console.out = [] := by
  obtain ⟨other, among, strange⟩ := unspelled
  cases names with
  | nil => cases among
  | cons name names =>
    have whole : ¬ host.charset.Spells
        (Text.join "\n" ((name :: names).map (candidateLine category.label))) :=
      fun all => strange (spells_lines_iff.mp all other among)
    obtain ⟨character, stopped⟩ := Action.run_print_unspelled whole { world := { world with notes := [] } }
    rw [listCandidates_found found, Action.run_bind, stopped]
    exact ⟨character, _, rfl, rfl⟩

theorem listCandidates_fault {fault : Fault}
    (found : Project.found world written.trim.lowerCase = .error fault) :
    ∃ session, listCandidates host verbosity written { world := world } = (.ok 1, session) ∧
      session.console.out = [] := by
  have run : listCandidates host verbosity written { world := world } = _ := run_found _ _
  rw [run, found]
  exact ⟨_, rfl, Console.out_debug ..⟩

end TabCompletion.CommandLine

namespace TabCompletion.Project

open CommandLine

/-- No name that a list is made from breaks a line or has a tab. -/
def Unbroken (world : World) (root : Path) : Prop :=
  ∀ category : Category, ∀ names, world.list (category.directory root) = .ok names →
    ∀ name ∈ names, '\t' ∉ name ∧ '\n' ∉ name

theorem found_names {world : World} {root : Path} {category : Category} {names : List Text} {written : Text}
    (rooted : Project.root world world.cwd.toPath = .ok root) (known : written.trim.lowerCase = category.word)
    (run : identifiers world root category = .ok names) :
    found world written.trim.lowerCase = .ok (names.map fun name => (name, category.label)) := by
  unfold Project.found
  rw [rooted]
  exact candidates_eq_ok_iff.mpr ⟨category, names, known, run, rfl⟩

/-- A list with a name that cannot be written is not written at all, and the exit code does not
tell of a success. -/
theorem candidates_unspelled {world : World} {root : Path} {category : Category}
    (tidy : world.files.Tidy) (host : Host) (recorder : Recorder)
    (input written : Text) (verbosity : Verbosity)
    (rooted : Project.root world world.cwd.toPath = .ok root) (known : written.trim.lowerCase = category.word)
    (legible : Legible world root category)
    (unspelled : ∃ name, Qualifying world root category name ∧ ¬ host.charset.Spells name) :
    let answer := ((Request.candidates verbosity written).run host recorder input world).1
    (answer.exit = .ok 1 ∨ ∃ fault, answer.exit = .error fault) ∧ answer.console.out = [] := by
  obtain ⟨names, run, -, member⟩ := identifiers_of_legible tidy legible
  obtain ⟨name, qualifying, strange⟩ := unspelled
  obtain ⟨character, session, stopped, empty⟩ :=
    listCandidates_unspelled ⟨name, (member name).mpr qualifying, strange⟩ (found_names rooted known run)
  rw [← empty]
  exact runAction_fault_out (fun _ same => by cases same) stopped

/-- A project with two entries among its changes, one of which has a proposal. -/
def draftProject : World :=
  let project : Location := ["p".toList]
  let changes : Location := ["p".toList, "spectest".toList, "changes".toList]
  { files := (((((FileSystem.empty.insert project .directory).insert
      (project ++ ["spectest".toList]) .directory).insert changes .directory).insert
      (changes ++ ["é".toList]) .directory).insert
      (changes ++ ["é".toList, "proposal.md".toList]) (.file 0 [])).insert
      (changes ++ ["a".toList]) .directory,
    cwd := project, draws := [] }

theorem draftProject_tidy : draftProject.files.Tidy :=
  (((((FileSystem.Tidy.empty.insert (by decide) _).insert (by decide) _).insert (by decide) _).insert
    (by decide) _).insert (by decide) _).insert (by decide) _

theorem draftProject_root : Project.root draftProject draftProject.cwd.toPath = .ok ⟨.root, ["p".toList]⟩ := by
  cbv

theorem draftProject_changes :
    draftProject.list (Category.changes.directory ⟨.root, ["p".toList]⟩) =
      .ok ["a".toList, "é".toList] := by
  cbv

theorem draftProject_unbroken (root : Path)
    (rooted : Project.root draftProject draftProject.cwd.toPath = .ok root) : Unbroken draftProject root := by
  rw [draftProject_root] at rooted
  cases rooted
  intro category names listed
  cases category with
  | changes =>
    rw [draftProject_changes] at listed
    cases listed
    decide
  | specs =>
    have absent : ∃ fault, draftProject.list (Category.specs.directory ⟨.root, ["p".toList]⟩) =
      .error fault := ⟨.refused .noEntry _, by cbv⟩
    obtain ⟨fault, refused⟩ := absent
    rw [refused] at listed
    cases listed
  | archivedChanges =>
    have absent : ∃ fault, draftProject.list (Category.archivedChanges.directory ⟨.root, ["p".toList]⟩) =
      .error fault := ⟨.refused .noEntry _, by cbv⟩
    obtain ⟨fault, refused⟩ := absent
    rw [refused] at listed
    cases listed

theorem draftProject_legible : Legible draftProject ⟨.root, ["p".toList]⟩ .changes := by
  have names {names : List Text} {name : Text}
      (listed : draftProject.list (Category.changes.directory ⟨.root, ["p".toList]⟩) = .ok names)
      (member : name ∈ names) : name = "a".toList ∨ name = "é".toList := by
    rw [draftProject_changes] at listed
    cases listed
    simpa using member
  refine ⟨⟨true, by cbv⟩, fun _ => ⟨_, draftProject_changes⟩, fun _ listed name member => ?_,
    fun _ listed name member => ?_⟩
  · rcases names listed member with rfl | rfl
    · exact ⟨true, by cbv⟩
    · exact ⟨true, by cbv⟩
  · rcases names listed member with rfl | rfl
    · rintro - - file ⟨⟩
      exact ⟨false, by cbv⟩
    · rintro - - file ⟨⟩
      exact ⟨true, by cbv⟩

/-- Just the characters of ASCII. -/
def narrow : Charset :=
  ⟨fun character => character.toNat < 128, fun _ low => decide_eq_true low⟩

end TabCompletion.Project
