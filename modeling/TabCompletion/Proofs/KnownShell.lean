import TabCompletion.Proofs.PathText
import TabCompletion.Shell

namespace TabCompletion

theorem Text.dropWhile_kept {cut : Char → Bool} {text : Text} (kept : ∀ c ∈ text.head?, cut c = false) :
    text.dropWhile cut = text := by
  cases text with
  | nil => rfl
  | cons c rest => exact List.dropWhile_cons_of_neg (by simp [kept c rfl])

/-- What is cut off at the front of a text is cut off alike when something else comes after it that
does not begin with a character to cut. -/
theorem Text.dropWhile_append {cut : Char → Bool} {rest : Text} (kept : ∀ c ∈ rest.head?, cut c = false)
    (text : Text) : (text ++ rest).dropWhile cut = text.dropWhile cut ++ rest := by
  rw [List.dropWhile_append]
  split
  · rename_i gone
    rw [dropWhile_kept kept, List.isEmpty_iff.mp gone, List.nil_append]
  · rfl

/-- Blank characters go around a text that has none at its end, and from the front of it. -/
theorem Text.trim_around {before text last after : Text} (blankBefore : ∀ c ∈ before, isBlank c = true)
    (blankAfter : ∀ c ∈ after, isBlank c = true) (solid : ∀ c ∈ last, isBlank c = false) (nonempty : last ≠ []) :
    (before ++ text ++ last ++ after).trim = text.dropWhile isBlank ++ last := by
  have front : ∀ c ∈ (last ++ after).head?, isBlank c = false := by
    obtain ⟨c, rest, rfl⟩ := List.exists_cons_of_ne_nil nonempty
    simpa using solid c List.mem_cons_self
  have back : ∀ c ∈ (text.dropWhile isBlank ++ last).reverse.head?, isBlank c = false := by
    obtain ⟨c, rest, same⟩ := List.exists_cons_of_ne_nil (mt List.reverse_eq_nil_iff.mp nonempty)
    have final : c ∈ last := List.mem_reverse.mp (by simp [same])
    simpa [same] using solid c final
  have cut : (before ++ text ++ last ++ after).dropWhile isBlank = text.dropWhile isBlank ++ last ++ after := by
    rw [List.append_assoc, List.append_assoc, List.dropWhile_append_of_pos blankBefore, dropWhile_append front,
      List.append_assoc]
  rw [trim, trimWith, cut, List.reverse_append,
    List.dropWhile_append_of_pos fun c member => blankAfter c (List.mem_reverse.mp member), dropWhile_kept back,
    List.reverse_reverse]

namespace LowerCase

theorem ofTextAfter_append {text : Text} (ascii : ∀ c ∈ text, c.toNat < 128) (before rest : Text) :
    ofTextAfter before (text ++ rest) = text.map Char.toLower ++ ofTextAfter (text.reverse ++ before) rest := by
  induction text generalizing before with
  | nil => rfl
  | cons c text ih =>
    have small := ascii c List.mem_cons_self
    have notSigma : c ≠ 'Σ' := by
      rintro rfl
      exact absurd small (by decide)
    simp [ofTextAfter, notSigma, ofChar, small, ih fun d member => ascii d (List.mem_cons_of_mem _ member)]

theorem toNat_of_toLower {c : Char} (ascii : c.toLower.toNat < 128) : c.toNat < 128 := by
  unfold Char.toLower at ascii
  split at ascii
  · rename_i capital
    have bound : c.val.toNat ≤ 90 := capital.2
    exact Nat.lt_of_le_of_lt bound (by decide)
  · exact ascii

theorem isBlank_toLower (c : Char) : isBlank c.toLower = isBlank c := by
  have letter {c : Char} (least : 65 ≤ c.toNat) (most : c.toNat ≤ 122) : isBlank c = false := by
    simp [isBlank, inRanges, blankRanges]
    omega
  unfold Char.toLower
  split
  · rename_i capital
    have least : 65 ≤ c.val.toNat := capital.1
    have most : c.val.toNat ≤ 90 := capital.2
    have same : (c.val + ('a'.val - 'A'.val)).toNat = c.val.toNat + 32 := by
      rw [UInt32.toNat_add]
      have step : ('a'.val - 'A'.val).toNat = 32 := by decide
      omega
    rw [letter least (by change c.val.toNat ≤ 122; omega)]
    refine letter ?_ ?_ <;> simp only [Char.toNat] <;> omega
  · rfl

theorem toLower_slash {c : Char} (other : c.toLower ≠ '/') : c ≠ '/' := by
  rintro rfl
  exact other rfl

/-- A text whose small letters are those of an ASCII text has none but such characters. -/
theorem ascii_of_map {text small : Text} (same : text.map Char.toLower = small)
    (ascii : ∀ c ∈ small, c.toNat < 128) : ∀ c ∈ text, c.toNat < 128 := by
  subst same
  exact fun c member => toNat_of_toLower (ascii _ (List.mem_map_of_mem member))

end LowerCase

namespace Shell

/-- Without a dash in its own name, a shell is told from what comes before the first dash. -/
theorem isVersionOf_iff {shell : Text} (dashless : '-' ∉ shell) {program : Text} :
    isVersionOf program shell = true ↔ program.takeWhile (· != '-') = shell := by
  have stem (rest : Text) : (shell ++ rest).takeWhile (· != '-') = shell ++ rest.takeWhile (· != '-') :=
    List.takeWhile_append_of_pos fun c member => bne_iff_ne.mpr (ne_of_mem_of_not_mem member dashless)
  simp only [isVersionOf, Bool.or_eq_true, decide_eq_true_eq, List.isPrefixOf_iff_prefix]
  constructor
  · rintro (rfl | ⟨version, rfl⟩)
    · simpa using stem []
    · rw [List.append_assoc, stem]
      simp
  · intro same
    have parts := List.takeWhile_append_dropWhile (p := (· != '-')) (l := program)
    cases left : program.dropWhile (· != '-') with
    | nil =>
      rw [left, same, List.append_nil] at parts
      exact Or.inl parts.symm
    | cons c rest =>
      have dash : c = '-' := by
        have first := List.head?_dropWhile_not (· != '-') program
        simpa [left] using first
      rw [left, same, dash] at parts
      exact Or.inr ⟨rest, by rw [← parts, List.append_assoc]; rfl⟩

/-- An ASCII character that is neither blank nor a slash. -/
def isPlain (c : Char) : Bool :=
  c.toNat < 128 && !isBlank c && c != '/'

theorem plain_of_all {text : Text} (all : text.all isPlain = true) :
    ∀ c ∈ text, c.toNat < 128 ∧ isBlank c = false ∧ c ≠ '/' := by
  simpa [isPlain, and_assoc] using all

theorem ending_plain : (".exe".toList).all isPlain = true := by decide

/-- A name with nothing in it that a version, a path or the ending of executables could be told by. -/
structure IsPlainName (shell : Text) : Prop where
  nonempty : shell ≠ []
  dashless : '-' ∉ shell
  undotted : '.' ∉ shell
  plain : shell.all isPlain = true
  endless : withoutExe shell = shell

theorem known_plain {shell : Text} (among : shell ∈ known) : IsPlainName shell := by
  have every : ∀ shell ∈ known, shell ≠ [] ∧ '-' ∉ shell ∧ '.' ∉ shell ∧ shell.all isPlain = true ∧
      withoutExe shell = shell := by decide
  obtain ⟨nonempty, dashless, undotted, plain, endless⟩ := every shell among
  exact ⟨nonempty, dashless, undotted, plain, endless⟩

/-- No program is a version of two shells. -/
theorem known_unique {program shell other : Text} (among : shell ∈ known) (amongOther : other ∈ known)
    (version : isVersionOf program shell = true) (versionOther : isVersionOf program other = true) :
    shell = other := by
  rw [isVersionOf_iff (known_plain among).dashless] at version
  rw [isVersionOf_iff (known_plain amongOther).dashless] at versionOther
  rw [← version, ← versionOther]

/-- The search ends at the one shell that the program is a version of, in whatever order the shells come. -/
theorem find?_eq_some_iff {table : List Text} (reordered : table.Perm known) {program shell : Text} :
    table.find? (isVersionOf program) = some shell ↔ shell ∈ known ∧ isVersionOf program shell = true := by
  constructor
  · intro found
    exact ⟨reordered.mem_iff.mp (List.mem_of_find?_eq_some found), List.find?_some found⟩
  · rintro ⟨among, version⟩
    cases found : table.find? (isVersionOf program) with
    | none => exact absurd version (List.find?_eq_none.mp found shell (reordered.mem_iff.mpr among))
    | some other =>
      have amongOther := reordered.mem_iff.mp (List.mem_of_find?_eq_some found)
      rw [known_unique amongOther among (List.find?_some found) version]

theorem withoutExe_append (program : Text) : withoutExe (program ++ ".exe".toList) = program := by
  rw [withoutExe, if_pos (List.isSuffixOf_iff_suffix.mpr (List.suffix_append _ _))]
  simp

/-- The ending of executables takes nothing from before a dash. -/
theorem withoutExe_dash (shell version : Text) :
    ∃ rest, withoutExe (shell ++ '-' :: version) = shell ++ '-' :: rest := by
  by_cases ended : ".exe".toList <:+ shell ++ '-' :: version
  · have dashed : '-' :: version <:+ shell ++ '-' :: version := List.suffix_append _ _
    have inside : ".exe".toList <:+ '-' :: version := by
      refine (List.suffix_or_suffix_of_suffix ended dashed).resolve_right fun within => ?_
      exact absurd (within.subset List.mem_cons_self) (by decide)
    rcases List.suffix_cons_iff.mp inside with whole | ⟨rest, rfl⟩
    · cases whole
    · refine ⟨rest, ?_⟩
      rw [← List.cons_append, ← List.append_assoc, withoutExe_append]
  · exact ⟨version, by rw [withoutExe, if_neg (mt List.isSuffixOf_iff_suffix.mp ended)]⟩

/-- A way to write the program of a shell in the environment: in a directory, with capitals, with a
version after a dash and with the ending of executables, and with blank characters around all of it. -/
structure Spelling (shell : Text) where
  before : Text
  directory : Text
  name : Text
  version : Text
  ending : Text
  after : Text
  blankBefore : ∀ c ∈ before, isBlank c = true
  blankAfter : ∀ c ∈ after, isBlank c = true
  closed : directory = [] ∨ directory.getLast? = some '/'
  cased : name.map Char.toLower = shell
  versioned : version = [] ∨ ∃ rest, version = '-' :: rest ∧ ∀ c ∈ rest, c ≠ '/' ∧ isBlank c = false
  executable : ending = [] ∨ ending.map Char.toLower = ".exe"

namespace Spelling

variable {shell : Text} (spelling : Spelling shell)

def program : Text :=
  spelling.name ++ spelling.version ++ spelling.ending

def text : Text :=
  spelling.before ++ spelling.directory ++ spelling.program ++ spelling.after

/-- All of the program is one part of a path. -/
theorem program_solid (among : shell ∈ known) : ∀ c ∈ spelling.program, isBlank c = false ∧ c ≠ '/' := by
  have small {text small : Text} (same : text.map Char.toLower = small)
      (plain : ∀ c ∈ small, isBlank c = false ∧ c ≠ '/') : ∀ c ∈ text, isBlank c = false ∧ c ≠ '/' := by
    subst same
    intro c member
    obtain ⟨solid, single⟩ := plain _ (List.mem_map_of_mem member)
    rw [LowerCase.isBlank_toLower] at solid
    exact ⟨solid, LowerCase.toLower_slash single⟩
  intro c member
  rcases List.mem_append.mp member with stem | ending
  · rcases List.mem_append.mp stem with name | version
    · exact small spelling.cased (fun c member => (plain_of_all (known_plain among).plain c member).2) c name
    · rcases spelling.versioned with bare | ⟨rest, versioned, solid⟩
      · rw [bare] at version
        cases version
      · rw [versioned] at version
        rcases List.mem_cons.mp version with rfl | inside
        · decide
        · exact (solid c inside).symm
  · rcases spelling.executable with bare | executable
    · rw [bare] at ending
      cases ending
    · exact small executable (fun c member => (plain_of_all ending_plain c member).2) c ending

theorem program_isEntry (among : shell ∈ known) : IsEntry spelling.program := by
  have name := known_plain among
  have single : '/' ∉ spelling.program := fun slash => (spelling.program_solid among _ slash).2 rfl
  have first : ∃ c rest, spelling.program = c :: rest ∧ c ≠ '.' := by
    cases spelt : spelling.name with
    | nil => exact absurd spelling.cased (by rw [spelt]; exact name.nonempty.symm)
    | cons c rest =>
      refine ⟨c, rest ++ spelling.version ++ spelling.ending, by simp [program, spelt], ?_⟩
      rintro rfl
      refine name.undotted ?_
      rw [← spelling.cased, spelt]
      exact List.mem_cons_self
  obtain ⟨c, rest, program, other⟩ := first
  refine ⟨⟨?_, ?_, ?_⟩, single⟩ <;> simp [program, other]

end Spelling

/-- The last part of a path that a program comes last in. -/
theorem name_ofText {directory program : Text} (entry : IsEntry program)
    (closed : directory = [] ∨ directory.getLast? = some '/') : (Path.ofText (directory ++ program)).name = program := by
  rcases closed with rfl | closed
  · rw [List.nil_append, entry.ofText]
    rfl
  · obtain ⟨above, rfl⟩ := List.getLast?_eq_some_iff.mp closed
    rw [Path.name, List.append_assoc, List.singleton_append, Path.parts_append_slash, entry.ofText]
    simp

namespace Spelling

variable {shell : Text} (spelling : Spelling shell)

theorem name_trim (among : shell ∈ known) : (Path.ofText spelling.text.trim).name = spelling.program := by
  have entry := spelling.program_isEntry among
  have trimmed : spelling.text.trim = spelling.directory.dropWhile isBlank ++ spelling.program :=
    Text.trim_around spelling.blankBefore spelling.blankAfter
      (fun c member => (spelling.program_solid among c member).1) entry.proper.1
  rw [trimmed]
  refine name_ofText entry ?_
  rcases spelling.closed with bare | closed
  · exact Or.inl (by rw [bare]; rfl)
  · obtain ⟨above, same⟩ := List.getLast?_eq_some_iff.mp closed
    have slash : ∀ c ∈ ['/'].head?, isBlank c = false := by
      rintro c ⟨⟩
      decide
    rw [same, Text.dropWhile_append slash]
    exact Or.inr List.getLast?_concat

theorem isVersionOf_program (among : shell ∈ known) :
    isVersionOf (withoutExe spelling.program.lowerCase) shell = true := by
  have name := known_plain among
  have ascii := LowerCase.ascii_of_map spelling.cased fun c member => (plain_of_all name.plain c member).1
  rcases spelling.versioned with bare | ⟨rest, versioned, -⟩
  · have asciiEnding : ∀ c ∈ spelling.ending, c.toNat < 128 := by
      rcases spelling.executable with unended | executable
      · simp [unended]
      · exact LowerCase.ascii_of_map executable fun c member => (plain_of_all ending_plain c member).1
    have small : spelling.program.lowerCase = shell ++ spelling.ending.map Char.toLower := by
      rw [program, bare, List.append_nil, Text.lowerCase, LowerCase.ofTextAfter_append ascii, spelling.cased,
        LowerCase.ofTextAfter_ascii _ _ asciiEnding]
    rw [small]
    rcases spelling.executable with unended | executable
    · rw [unended, List.map_nil, List.append_nil, name.endless]
      simp [isVersionOf]
    · rw [executable, withoutExe_append]
      simp [isVersionOf]
  -- What the ending makes of a version is a version again, so that it need not be told.
  · have small : ∃ version, spelling.program.lowerCase = shell ++ '-' :: version := by
      refine ⟨LowerCase.ofTextAfter ('-' :: spelling.name.reverse) (rest ++ spelling.ending), ?_⟩
      rw [program, versioned, List.append_assoc, Text.lowerCase, LowerCase.ofTextAfter_append ascii, spelling.cased,
        List.cons_append, ← List.singleton_append, LowerCase.ofTextAfter_append (by simp), List.append_nil]
      rfl
    obtain ⟨version, small⟩ := small
    obtain ⟨rest, kept⟩ := withoutExe_dash shell version
    rw [small, kept]
    simp [isVersionOf]

/-- Whatever stands around the name of a known shell, the shell is told. -/
theorem ofProgramPath_text (among : shell ∈ known) : ofProgramPath spelling.text = some shell := by
  have version := spelling.isVersionOf_program among
  have nonempty : (withoutExe spelling.program.lowerCase).isEmpty = false := by
    refine Bool.eq_false_iff.mpr fun empty => (known_plain among).nonempty ?_
    rw [List.isEmpty_iff.mp empty, isVersionOf_iff (known_plain among).dashless] at version
    exact version.symm
  rw [ofProgramPath, spelling.name_trim among, nonempty,
    (find?_eq_some_iff (List.Perm.refl known)).mpr ⟨among, version⟩]
  rfl

end Spelling

/-- A shell is told from its program in whatever way that is written, the order of the table never
matters, and the shell to serve is the told one if it is supported. -/
theorem detect_known :
    (∀ shell ∈ known, ∀ (spelling : Spelling shell) (supported : List Text) (environment : Environment),
        environment.get? "SHELL" = some spelling.text →
          (detect supported environment).detected = some shell) ∧
      (∀ program, known.Pairwise fun shell other =>
        ¬ (isVersionOf program shell = true ∧ isVersionOf program other = true)) ∧
      (∀ table : List Text, table.Perm known → ∀ program,
        table.find? (isVersionOf program) = known.find? (isVersionOf program)) ∧
      ∀ (supported : List Text) (environment : Environment) (shell : Text),
        (detect supported environment).shell = some shell ↔
          (detect supported environment).detected = some shell ∧ shell ∈ supported := by
  refine ⟨fun shell among spelling supported environment given => ?_, fun program => ?_,
    fun table reordered program => ?_, fun supported environment shell => ?_⟩
  · have nonempty : spelling.text ≠ [] := by
      simp [Spelling.text, (spelling.program_isEntry among).proper.1]
    have told : environment.nonempty? "SHELL" = some spelling.text := by
      rw [Environment.nonempty?, given]
      simp [nonempty]
    rw [detect, detected, told]
    exact spelling.ofProgramPath_text among
  · have distinct : known.Nodup := by decide
    refine distinct.imp_of_mem fun among amongOther differ both => differ ?_
    exact known_unique among amongOther both.1 both.2
  · refine Option.ext fun shell => ?_
    rw [find?_eq_some_iff reordered, find?_eq_some_iff (List.Perm.refl known)]
  · simp [detect, Option.filter_eq_some_iff]

/-- A version that ends like an executable, and the ending after it. -/
theorem detect_known_versioned :
    let environment : Environment := [("HOME", "/"), ("SHELL", " \t/bin//ZsH-5.9.EXE.exe\n")]
    (detect ["bash"] environment).detected = some "zsh" ∧ (detect ["bash"] environment).shell ≠ some "zsh" ∧
      (detect ["bash", "zsh"] environment).shell = some "zsh" := by
  intro environment
  let spelling : Spelling "zsh" :=
    { before := " \t", directory := "/bin//", name := "ZsH", version := "-5.9.EXE", ending := ".exe", after := "\n",
      blankBefore := List.all_eq_true.mp (by decide), blankAfter := List.all_eq_true.mp (by decide),
      closed := by decide, cased := by decide, executable := by decide,
      versioned := Or.inr ⟨"5.9.EXE", rfl, fun c member => (plain_of_all (by decide) c member).2.symm⟩ }
  obtain ⟨told, -, -, supported⟩ := detect_known
  have detected (names : List Text) : (detect names environment).detected = some "zsh" :=
    told _ (by decide) spelling names environment rfl
  refine ⟨detected _, fun served => ?_, (supported _ _ _).mpr ⟨detected _, by decide⟩⟩
  exact absurd ((supported _ _ _).mp served).2 (by decide)

end Shell

end TabCompletion
