import TabCompletion.Proofs.Line
import TabCompletion.Proofs.Startup

namespace TabCompletion

/-- Blanks before a text that neither begins nor ends with one are all that is cut off. -/
theorem Text.trim_indented {indent text : Text} (blank : ∀ c ∈ indent, isBlank c = true)
    (first : ∀ c ∈ text.head?, isBlank c = false) (last : ∀ c ∈ text.getLast?, isBlank c = false) :
    (indent ++ text).trim = text := by
  have kept {text : Text} (first : ∀ c ∈ text.head?, isBlank c = false) :
      text.dropWhile isBlank = text := by
    cases text with
    | nil => rfl
    | cons c rest => exact List.dropWhile_cons_of_neg (by simp [first c rfl])
  rw [trim, trimWith, List.dropWhile_append_of_pos blank, kept first, kept, List.reverse_reverse]
  rwa [List.head?_reverse]

/-- A text with no character that ends a line. -/
def Text.Unbroken (text : Text) : Prop :=
  ∀ c ∈ text, isLineBreak c = false

instance (text : Text) : Decidable text.Unbroken :=
  decidable_of_iff (text.any isLineBreak = false) (by simp [Text.Unbroken])

theorem Text.Unbroken.append {first second : Text} (begins : first.Unbroken) (ends : second.Unbroken) :
    (first ++ second).Unbroken := fun c member =>
  (List.mem_append.mp member).elim (begins c) (ends c)

theorem Zsh.flatMap_quoteChar {text : Text} (unquoted : '\'' ∉ text) :
    text.flatMap quoteChar = text := by
  induction text with
  | nil => rfl
  | cons c rest ih =>
    simp only [List.mem_cons, not_or] at unquoted
    rw [List.flatMap_cons, ih unquoted.2, quoteChar, if_neg (Ne.symm unquoted.1)]
    rfl

/-- What a text has in it occurs in its quoted form when it has no quotes. -/
theorem Zsh.occursIn_quote {part text : Text} (unquoted : '\'' ∉ part)
    (inside : part.occursIn text = true) : part.occursIn (quote text) = true := by
  obtain ⟨before, after, rfl⟩ := (Text.occursIn_iff part text).mp inside
  refine (Text.occursIn_iff _ _).mpr
    ⟨'\'' :: before.flatMap quoteChar, after.flatMap quoteChar ++ ['\''], ?_⟩
  simp [quote, flatMap_quoteChar unquoted]

/-- A line that is no comment and sets the search path. -/
def SetsSearchPath (line : Text) : Prop :=
  line.trim.head? ≠ some '#' ∧ ∃ before after, line.trim = before ++ "fpath".toList ++ after

theorem lineReferences_iff {spellings : List Text} {line : Text} :
    lineReferences spellings line = true ↔
      SetsSearchPath line ∧ ∃ spelling ∈ spellings, spelling.occursIn line.trim = true := by
  have comment : (!line.trim.head?.any (· = '#')) = true ↔ line.trim.head? ≠ some '#' := by
    cases line.trim.head? <;> simp
  rw [lineReferences, Bool.and_eq_true, Bool.and_eq_true, comment, List.any_eq_true, SetsSearchPath,
    Text.occursIn_iff]

theorem referencesDirectory_iff {content : Text} {directory home : Path} :
    referencesDirectory content directory home = true ↔
      ∃ line ∈ content.lines, SetsSearchPath line ∧
        ∃ spelling ∈ spellings directory home, spelling.occursIn line.trim = true := by
  simp only [referencesDirectory, List.any_eq_true, lineReferences_iff]

theorem Path.relativeTo?_eq_some_iff {path base rest : Path} :
    path.relativeTo? base = some rest ↔
      ∃ parts, rest = ⟨.relative, parts⟩ ∧ path = ⟨base.anchor, base.parts ++ parts⟩ := by
  unfold relativeTo?
  constructor
  · intro found
    split at found
    · rename_i within
      simp only [Bool.and_eq_true, decide_eq_true_eq, List.isPrefixOf_iff_prefix] at within
      obtain ⟨anchors, parts, same⟩ := within
      cases found
      refine ⟨parts, by rw [← same, List.drop_left], ?_⟩
      rw [same, ← anchors]
    · cases found
  · rintro ⟨parts, rfl, rfl⟩
    rw [if_pos (by simp), List.drop_left]

/-- A directory is spelled in full, and where it is the home directory or lies below it also by
the rest of its path after a tilde or the variable. -/
theorem mem_spellings_iff {directory home : Path} {spelling : Text} :
    spelling ∈ spellings directory home ↔ spelling = directory.text ∨
      ∃ parts, directory = ⟨home.anchor, home.parts ++ parts⟩ ∧
        ∃ start ∈ ["~/", "$HOME/", "$\x7bHOME\x7d/"],
          spelling = start.toList ++ Path.text ⟨.relative, parts⟩ := by
  unfold spellings
  cases found : directory.relativeTo? home with
  | none =>
    have apart (parts : List Text) : directory ≠ ⟨home.anchor, home.parts ++ parts⟩ := fun same => by
      rw [Path.relativeTo?_eq_some_iff.mpr ⟨parts, rfl, same⟩] at found
      cases found
    simp [apart]
  | some rest =>
    obtain ⟨parts, rfl, same⟩ := Path.relativeTo?_eq_some_iff.mp found
    have only (others : List Text) : directory = ⟨home.anchor, home.parts ++ others⟩ ↔ others = parts := by
      rw [same]
      simp [eq_comm]
    simp [only, eq_comm]

namespace Installer

/-- A startup file with the lines of the block as they are shown to a user who has to add them by
hand: each of them a line of its own, after blanks of its own. -/
structure HandEdit where
  before : Text
  first : Text
  second : Text
  after : Text
  begins : before = [] ∨ ∃ above : Text, before = above ++ ['\n']
  ends : after = [] ∨ ∃ below : Text, after = '\n' :: below
  indented : ∀ indent ∈ [first, second], indent.Unbroken ∧ ∀ c ∈ indent, isBlank c = true

def HandEdit.text (edit : HandEdit) (directory : Path) : Text :=
  edit.before ++ ((edit.first ++ searchPathLine directory) ++ '\n' ::
    ((edit.second ++ initLine) ++ edit.after))

theorem searchPathLine_unbroken {directory : Path} (whole : directory.text.Unbroken) :
    (searchPathLine directory).Unbroken := by
  have marks : ("fpath=('\\ $)".toList.all fun c => !isLineBreak c) = true := by decide
  intro c member
  cases ends : isLineBreak c with
  | false => rfl
  | true =>
    refine absurd member (not_mem_searchPathLine (fun inside => ?_) fun inside => ?_)
    · rw [whole c inside] at ends
      cases ends
    · have unbroken := List.all_eq_true.mp marks c inside
      rw [ends] at unbroken
      cases unbroken

theorem initLine_unbroken : initLine.Unbroken := by decide

/-- Of the two lines it is the first that refers to a directory. -/
theorem lineReferences_searchPathLine {indent : Text} (blank : ∀ c ∈ indent, isBlank c = true)
    (spellings : List Text) (other : Path) :
    lineReferences spellings (indent ++ searchPathLine other) = true ↔
      ∃ spelling ∈ spellings, spelling.occursIn (searchPathLine other) = true := by
  have last : (searchPathLine other).getLast? = some ')' := by
    unfold searchPathLine
    rw [List.getLast?_append]
    rfl
  have trimmed : (indent ++ searchPathLine other).trim = searchPathLine other :=
    Text.trim_indented blank (fun c first => by cases first; rfl) fun c final => by
      rw [last] at final
      cases final
      rfl
  have sets : SetsSearchPath (indent ++ searchPathLine other) := by
    rw [SetsSearchPath, trimmed]
    exact ⟨fun comment => absurd (Option.some.inj comment) (by decide), [], _, rfl⟩
  rw [lineReferences_iff, trimmed, and_iff_right sets]

theorem lineReferences_initLine {indent : Text} (blank : ∀ c ∈ indent, isBlank c = true)
    (spellings : List Text) : lineReferences spellings (indent ++ initLine) = false := by
  have last : initLine.getLast? = some 't' := by decide
  have trimmed : (indent ++ initLine).trim = initLine :=
    Text.trim_indented blank (fun c first => by cases first; rfl) fun c final => by
      rw [last] at final
      cases final
      rfl
  have other : Text.occursIn "fpath" initLine = false := by decide
  rw [lineReferences, trimmed, other]
  rfl

namespace HandEdit

theorem indented_first (edit : HandEdit) :
    edit.first.Unbroken ∧ ∀ c ∈ edit.first, isBlank c = true :=
  edit.indented _ List.mem_cons_self

theorem indented_second (edit : HandEdit) :
    edit.second.Unbroken ∧ ∀ c ∈ edit.second, isBlank c = true :=
  edit.indented _ (List.mem_cons_of_mem _ List.mem_cons_self)

variable (edit : HandEdit) {other : Path} (whole : other.text.Unbroken)
include whole

/-- The lines of the block are lines of the file, between those of the texts around them. -/
theorem lines_text :
    ∃ below, (edit.text other).lines = edit.before.lines ++
        (edit.first ++ searchPathLine other) :: (edit.second ++ initLine) :: below ∧
      (edit.after.lines = below ∨ edit.after.lines = [] :: below) := by
  have path := edit.indented_first.1.append (searchPathLine_unbroken whole)
  have init := edit.indented_second.1.append initLine_unbroken
  have begun (rest : Text) : (edit.before ++ rest).lines = edit.before.lines ++ rest.lines := by
    rcases edit.begins with none | ⟨above, ended⟩
    · rw [none]
      rfl
    · rw [ended, List.append_assoc]
      exact Text.lines_append_newline above rest
  rw [text, begun, Text.lines_of_line path]
  rcases edit.ends with none | ⟨below, ended⟩
  · have filled : edit.second ++ initLine ≠ [] :=
      List.append_ne_nil_of_right_ne_nil _ (List.cons_ne_nil _ _)
    refine ⟨[], ?_, Or.inl (by rw [none]; rfl)⟩
    rw [none, List.append_nil, Text.lines_single filled init]
  · have empty : Text.Unbroken [] := by decide
    exact ⟨below.lines, by rw [ended, Text.lines_of_line init], Or.inr (by
      rw [ended]
      exact Text.lines_of_line empty below)⟩

/-- With the lines for a directory added by hand, a file refers to all that it referred to, and to
the directories of which a spelling occurs in the first of the lines. -/
theorem referencesDirectory_iff (directory home : Path) :
    referencesDirectory (edit.text other) directory home = true ↔
      referencesDirectory edit.before directory home = true ∨
        (∃ spelling ∈ spellings directory home, spelling.occursIn (searchPathLine other) = true) ∨
        referencesDirectory edit.after directory home = true := by
  obtain ⟨below, lines, after⟩ := edit.lines_text whole
  have path := lineReferences_searchPathLine edit.indented_first.2 (spellings directory home) other
  have init := lineReferences_initLine edit.indented_second.2 (spellings directory home)
  have empty : lineReferences (spellings directory home) [] = false := rfl
  have rest : referencesDirectory edit.after directory home =
      below.any (lineReferences (spellings directory home)) := by
    rcases after with same | same <;> rw [referencesDirectory, same]
    rw [List.any_cons, empty, Bool.false_or]
  rw [rest, referencesDirectory, referencesDirectory, lines, List.any_append, List.any_cons,
    List.any_cons, init, Bool.false_or, Bool.or_eq_true, Bool.or_eq_true, path]

end HandEdit

/-- A directory is spelled in the line of every directory whose text has its own in it. -/
theorem occursIn_searchPathLine {directory other : Path} (unquoted : '\'' ∉ directory.text)
    (inside : directory.text.occursIn other.text = true) :
    directory.text.occursIn (searchPathLine other) = true := by
  obtain ⟨before, after, same⟩ := (Text.occursIn_iff _ _).mp (Zsh.occursIn_quote unquoted inside)
  refine (Text.occursIn_iff _ _).mpr ⟨"fpath=(".toList ++ before, after ++ " $fpath)".toList, ?_⟩
  unfold searchPathLine
  rw [same]
  simp only [List.append_assoc]

/-- A startup file without a block that refers to the directory is left to the user. -/
theorem configuredText_referenced {startup directory home : Path} {text : Text}
    (unmarked : Block.find markers text = .ok none)
    (referenced : referencesDirectory text directory home = true) :
    configuredText startup directory home text = .ok (.inr
      [startup.text ++ " already adds " ++ directory.text ++ " to fpath; it was left unchanged.",
        restartHint]) := by
  unfold configuredText
  rw [unmarked]
  simp only [bind, Except.bind, referenced, if_true]
  rfl

theorem configuredText_unreferenced {startup directory home : Path} {text : Text}
    (unmarked : Block.find markers text = .ok none)
    (missed : referencesDirectory text directory home = false) :
    configuredText startup directory home text =
      .ok (.inl (Block.append markers (blockBody directory) text)) := by
  unfold configuredText
  rw [unmarked]
  simp only [bind, Except.bind, missed]
  rfl

/-- A startup file refers to a directory when one of its spellings occurs in a line that is no
comment and sets the search path, whatever stands before it and after it there. So it does when the
line is that of any other directory in whose text the directory's own occurs, such as one below it
or one with a longer name, and an installation takes the directory for one that is searched. -/
theorem references_by_occurrence (directory home : Path) :
    (∀ content, referencesDirectory content directory home = true ↔
      ∃ line ∈ content.lines, SetsSearchPath line ∧ ∃ spelling ∈ spellings directory home,
        ∃ before after, line.trim = before ++ spelling ++ after) ∧
    (∀ spelling, spelling ∈ spellings directory home ↔ spelling = directory.text ∨
      ∃ parts, directory = ⟨home.anchor, home.parts ++ parts⟩ ∧
        ∃ start ∈ ["~/", "$HOME/", "$\x7bHOME\x7d/"],
          spelling = start.toList ++ Path.text ⟨.relative, parts⟩) ∧
    ∀ (edit : HandEdit) (other : Path), other.text.Unbroken →
      '\'' ∉ directory.text → directory.text.occursIn other.text = true →
      referencesDirectory (edit.text other) directory home = true ∧
        (Block.find markers (edit.text other) = .ok none → ∀ startup,
          configuredText startup directory home (edit.text other) = .ok (.inr
            [startup.text ++ " already adds " ++ directory.text ++ " to fpath; it was left unchanged.",
              restartHint])) := by
  refine ⟨fun content => ?_, fun spelling => mem_spellings_iff,
    fun edit other whole unquoted inside => ?_⟩
  · simp only [TabCompletion.referencesDirectory_iff, Text.occursIn_iff]
  · have spelled : directory.text ∈ spellings directory home := mem_spellings_iff.mpr (Or.inl rfl)
    have referenced := (edit.referencesDirectory_iff whole directory home).mpr
      (Or.inr (Or.inl ⟨directory.text, spelled, occursIn_searchPathLine unquoted inside⟩))
    exact ⟨referenced, fun unmarked startup => configuredText_referenced unmarked referenced⟩

/-- The two lines alone, as they are shown. -/
def shownLines : HandEdit where
  before := []
  first := "  "
  second := "  "
  after := ['\n']
  begins := Or.inl rfl
  ends := Or.inr ⟨[], rfl⟩
  indented indent member := by
    obtain rfl : indent = "  ".toList := by simpa using member
    exact ⟨by decide, List.all_eq_true.mp (by decide)⟩

/-- The line of a directory with a longer name, and that of a directory below it. -/
theorem references_by_occurrence_neighbours :
    let directory : Path := "/h/site"
    '\'' ∉ directory.text ∧
      referencesDirectory (shownLines.text ("/h/site-old" : Path)) directory ("/h" : Path) = true ∧
      referencesDirectory (shownLines.text ("/srv/h/site/f" : Path)) directory ("/h" : Path) = true := by
  intro directory
  have unquoted : '\'' ∉ directory.text := by decide
  have referenced := (references_by_occurrence directory ("/h" : Path)).2.2 shownLines
  exact ⟨unquoted, (referenced ("/h/site-old" : Path) (by decide) unquoted (by decide)).1,
    (referenced ("/srv/h/site/f" : Path) (by decide) unquoted (by decide)).1⟩

/-- The characters that names in a path go on with. -/
def continuesName (c : Char) : Bool :=
  c.isAlphanum || c = '_' || c = '-' || c = '.'

/-- Between two texts a path stands by itself when the first does not end inside a path, and the
second goes on neither with the last name nor with one below it. -/
def StandsAlone (before after : Text) : Prop :=
  (∀ c ∈ before.getLast?, (continuesName c || c = '/') = false) ∧
    (∀ c ∈ after.head?, continuesName c = false) ∧
    ∀ c rest, after = '/' :: c :: rest → continuesName c = false

/-- A file that has only a directory with a longer name refers to the directory, though no spelling
of it stands by itself. -/
theorem longer_name_referenced :
    ¬ ∀ (content : Text) (directory home : Path), directory.isAbsolute = true →
      referencesDirectory content directory home = true →
      ∃ line ∈ content.lines, SetsSearchPath line ∧ ∃ spelling ∈ spellings directory home,
        ∃ before after, line = before ++ spelling ++ after ∧ StandsAlone before after := by
  intro every
  obtain ⟨line, member, -, spelling, spelled, before, after, same, -, ends, -⟩ :=
    every "fpath=(/h/site-old $fpath)" ("/h/site" : Path) ("/h" : Path) (by decide) (by decide)
  have single : Text.lines "fpath=(/h/site-old $fpath)" = ["fpath=(/h/site-old $fpath)".toList] := by
    decide
  rw [single, List.mem_singleton] at member
  -- Wherever a spelling occurs the line goes on with the hyphen.
  have hyphen : ∀ count < 27, ∀ spelling ∈ spellings ("/h/site" : Path) ("/h" : Path),
      spelling <+: ("fpath=(/h/site-old $fpath)".toList.drop count) →
      ("fpath=(/h/site-old $fpath)".toList.drop (count + spelling.length)).head? = some '-' := by
    decide
  rw [member] at same
  have rest : "fpath=(/h/site-old $fpath)".toList.drop before.length = spelling ++ after := by
    rw [same, List.append_assoc, List.drop_left]
  have within : before.length < 27 := by
    have length := congrArg List.length same
    simp only [List.length_append] at length
    have short : "fpath=(/h/site-old $fpath)".toList.length = 26 := by decide
    omega
  have goesOn := hyphen before.length within spelling spelled ⟨after, rest.symm⟩
  rw [← List.drop_drop, rest, List.drop_left] at goesOn
  exact absurd (ends '-' goesOn) (by decide)

end Installer

end TabCompletion
