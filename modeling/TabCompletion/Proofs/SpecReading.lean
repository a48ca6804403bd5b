import TabCompletion.Proofs.Word
import TabCompletion.Zsh.Spec

namespace TabCompletion.Zsh

/-- The characters of option names: letters and digits of every script, the hyphen and the
underscore. Beyond ASCII no character means anything to the shell, and all of them count. -/
def isOptionChar (c : Char) : Bool :=
  c.isAlphanum || 127 < c.toNat || c = '-' || c = '_'

theorem ne_of_isOptionChar {c mark : Char} (letter : isOptionChar c = true)
    (other : isOptionChar mark = false) : c ≠ mark := by
  rintro rfl
  simp [letter] at other

/-- What a list of candidates offers. -/
def candidates (list : Text) : List Text :=
  (splitUnescaped ' ' list).map unescape

theorem candidates_join {values : List Text} (filled : values ≠ []) :
    candidates (Text.join " " (values.map escapeValue)) = values := by
  have pieces : splitUnescaped ' ' (Text.join " " (values.map escapeValue)) =
      values.map escapeValue := splitUnescaped_join rfl rfl (by decide) filled
  have each : unescape ∘ escapeValue = id := funext unescape_escapeValue
  rw [candidates, pieces, List.map_map, each, List.map_id]

/-- The parenthesis after a list of candidates is the first that no backslash stands before. -/
theorem cut_candidates (values : List Text) :
    cutUnescaped ')' (Text.join " " (values.map escapeValue) ++ ")") =
      some (Text.join " " (values.map escapeValue), []) := by
  have passed : Passed ')' (Text.join " " (values.map escapeValue)) := by
    refine Passed.join (Passed.char (by decide) (by decide)) fun part member => ?_
    obtain ⟨value, _, rfl⟩ := List.mem_map.mp member
    exact Passed.escapeWhere rfl rfl value
  exact passed.cut (by decide) []

/-- What the word of an option says after its description: that no value follows, that any
value does, or that one of the candidates does. -/
inductive Ending where
  | bare
  | free
  | among (list : Text)

namespace Ending

def Reads : Ending → Text → Prop
  | bare, text => text = []
  | free, text => text = ":value:"
  | among list, text => ∃ rest, text = ":value:(" ++ rest ∧ cutUnescaped ')' rest = some (list, [])

/-- An ending tells of an option whether a value follows its name, and which ones may. -/
def Tells (flag : Flag) : Ending → Prop
  | bare => flag.takesValue = false
  | free => flag.takesValue = true ∧ flag.values.getD [] = []
  | among list =>
    flag.takesValue = true ∧ flag.values.getD [] ≠ [] ∧ candidates list = flag.values.getD []

theorem Reads.unique {ending other : Ending} {text : Text} (reads : ending.Reads text)
    (otherReads : other.Reads text) : other = ending := by
  cases ending <;> cases other <;> simp only [Reads] at reads otherReads
  case among.among =>
    obtain ⟨rest, rfl, cut⟩ := reads
    obtain ⟨otherRest, same, otherCut⟩ := otherReads
    obtain rfl := List.append_cancel_left same
    simpa [cut, eq_comm] using otherCut
  all_goals simp_all

theorem exists_valuePart (flag : Flag) :
    ∃ ending : Ending, ending.Reads (valuePart flag) ∧ ending.Tells flag := by
  by_cases takes : flag.takesValue = true
  · rcases values : flag.values with _ | (_ | ⟨value, more⟩)
    · exact ⟨free, by simp [Reads, valuePart, takes, values], by simp [Tells, takes, values]⟩
    · exact ⟨free, by simp [Reads, valuePart, takes, values], by simp [Tells, takes, values]⟩
    · have filled : value :: more ≠ [] := List.cons_ne_nil value more
      refine ⟨among (Text.join " " ((value :: more).map escapeValue)), ?_, ?_⟩
      · refine ⟨_, ?_, cut_candidates (value :: more)⟩
        simp [valuePart, takes, values]
      · exact ⟨takes, by simp [values], by simpa [values] using candidates_join filled⟩
  · exact ⟨bare, by simp [Reads, valuePart, takes], by simpa [Tells] using takes⟩

end Ending

/-- What the word of an option says to the one that completes the command line. The
description is the one between the brackets, with its backslashes. -/
structure OptionReading where
  short : Option Char
  name : Text
  description : Text
  ending : Ending

namespace OptionReading

/-- The names before the bracket. With two of them each excludes the other. -/
def heading (short : Option Char) (name : Text) : Text :=
  match short with
  | some short => "(-" ++ [short] ++ " --" ++ name ++ ")\x7b-" ++ [short] ++ ",--" ++ name ++ "\x7d"
  | none => "--" ++ name

theorem heading_none (name : Text) : heading none name = "--" ++ name := rfl

theorem heading_some (short : Char) (name : Text) :
    heading (some short) name =
      "(-" ++ [short] ++ " --" ++ name ++ ")\x7b-" ++ [short] ++ ",--" ++ name ++ "\x7d" := rfl

structure Reads (reading : OptionReading) (text : Text) : Prop where
  short : ∀ c ∈ reading.short, isOptionChar c = true
  name : ∀ c ∈ reading.name, isOptionChar c = true
  body : ∃ inside rest, text = heading reading.short reading.name ++ '[' :: inside ∧
    cutUnescaped ']' inside = some (reading.description, rest) ∧ reading.ending.Reads rest

/-- A reading that gives back everything that the option was declared with. -/
structure Tells (flag : Flag) (reading : OptionReading) : Prop where
  short : reading.short = flag.short
  name : reading.name = flag.name
  description : unescape reading.description = flag.description
  ending : reading.ending.Tells flag

section Heading

variable {short : Option Char} {name : Text} (shortChar : ∀ c ∈ short, isOptionChar c = true)
  (nameChar : ∀ c ∈ name, isOptionChar c = true)
include shortChar nameChar

/-- Around the names a heading has a few marks only. -/
theorem mem_heading {c : Char} (member : c ∈ heading short name) :
    isOptionChar c = true ∨ c ∈ ['(', ' ', ')', '\x7b', ',', '\x7d'] := by
  have hyphen : isOptionChar '-' = true := rfl
  cases short with
  | none =>
    simp [heading_none] at member
    rcases member with rfl | inName
    · exact Or.inl hyphen
    · exact Or.inl (nameChar c inName)
  | some short =>
    have letter := shortChar short rfl
    simp [heading_some] at member
    simp only [List.mem_cons]
    grind

theorem plain_of_mem_heading {c : Char} (member : c ∈ heading short name) :
    c ≠ '\'' ∧ c ≠ '\\' ∧ c ≠ '[' := by
  rcases mem_heading shortChar nameChar member with letter | mark
  · exact ⟨ne_of_isOptionChar letter rfl, ne_of_isOptionChar letter rfl,
      ne_of_isOptionChar letter rfl⟩
  · refine ⟨?_, ?_, ?_⟩ <;> rintro rfl <;> exact absurd mark (by decide)

/-- The bracket after the names is the first bracket of the word. -/
theorem cut_heading (inside : Text) :
    cutUnescaped '[' (heading short name ++ '[' :: inside) = some (heading short name, inside) := by
  have passed : Passed '[' (heading short name) := Passed.of_plain fun c member =>
    (plain_of_mem_heading shortChar nameChar member).2
  exact passed.cut (by decide) inside

end Heading

theorem heading_injective {short otherShort : Option Char} {name otherName : Text}
    (nameChar : ∀ c ∈ name, isOptionChar c = true)
    (otherChar : ∀ c ∈ otherName, isOptionChar c = true)
    (same : heading otherShort otherName = heading short name) :
    otherShort = short ∧ otherName = name := by
  -- A name ends at the parenthesis, which is no character of it.
  have cut {text : Text} (letters : ∀ c ∈ text, isOptionChar c = true) (rest : Text) :
      cutUnescaped ')' (text ++ ')' :: rest) = some (text, rest) := by
    have passed : Passed ')' text := Passed.of_plain fun c member =>
      ⟨ne_of_isOptionChar (letters c member) rfl, ne_of_isOptionChar (letters c member) rfl⟩
    exact passed.cut (by decide) rest
  cases short <;> cases otherShort <;> simp [heading_none, heading_some] at same
  case none.none => exact ⟨rfl, same⟩
  case some.some =>
    obtain ⟨rfl, names⟩ := same
    have pieces := congrArg (cutUnescaped ')') names
    rw [cut otherChar, cut nameChar] at pieces
    simp_all

theorem Reads.unique {reading other : OptionReading} {text : Text} (reads : reading.Reads text)
    (otherReads : other.Reads text) : other = reading := by
  obtain ⟨inside, rest, rfl, cut, ending⟩ := reads.body
  obtain ⟨otherInside, otherRest, same, otherCut, otherEnding⟩ := otherReads.body
  have pieces := congrArg (cutUnescaped '[') same
  rw [cut_heading reads.short reads.name, cut_heading otherReads.short otherReads.name] at pieces
  obtain ⟨headings, rfl⟩ : heading reading.short reading.name = heading other.short other.name ∧
      inside = otherInside := by simpa using pieces
  obtain ⟨descriptions, rfl⟩ : reading.description = other.description ∧ rest = otherRest := by
    simpa [cut] using otherCut
  obtain ⟨shorts, names⟩ := heading_injective otherReads.name reads.name headings
  have endings := ending.unique otherEnding
  cases reading
  cases other
  simp_all

theorem unquote_flagSpec {flag : Flag} (shortChar : ∀ c ∈ flag.short, isOptionChar c = true)
    (nameChar : ∀ c ∈ flag.name, isOptionChar c = true) :
    unquote (flagSpec flag) =
      some (heading flag.short flag.name ++
        '[' :: (escapeDescription flag.description ++ ']' :: valuePart flag)) := by
  rcases shape : flag.short with _ | short
  · simp [flagSpec, shape, unquote_quote, heading_none]
  · -- Between its two quoted parts the word has the names once more.
    have plain : ∀ c ∈ "\x7b-".toList ++ [short] ++ ",--" ++ flag.name ++ "\x7d",
        c ≠ '\'' ∧ c ≠ '\\' := fun c member => by
      have inHeading : c ∈ heading flag.short flag.name := by
        simp only [shape, heading_some, List.mem_append] at member ⊢
        grind
      obtain ⟨unquoted, unescaped, _⟩ := plain_of_mem_heading shortChar nameChar inHeading
      exact ⟨unquoted, unescaped⟩
    have body := unquote_quote ("[" ++ escapeDescription flag.description ++ "]" ++ valuePart flag)
    have names := unquoteFrom_plain plain
      (quote ("[" ++ escapeDescription flag.description ++ "]" ++ valuePart flag))
    rw [unquote] at body
    rw [body] at names
    simp only [unquote, flagSpec, shape, List.append_assoc] at names ⊢
    rw [unquoteFrom_quote, names]
    simp [heading_some]

theorem exists_flagSpec {flag : Flag} (shortChar : ∀ c ∈ flag.short, isOptionChar c = true)
    (nameChar : ∀ c ∈ flag.name, isOptionChar c = true) :
    ∃ text, ∃ reading : OptionReading,
      unquote (flagSpec flag) = some text ∧ reading.Reads text ∧ reading.Tells flag := by
  obtain ⟨ending, reads, tells⟩ := Ending.exists_valuePart flag
  have passed : Passed ']' (escapeDescription flag.description) :=
    Passed.escapeWhere rfl rfl flag.description
  refine ⟨_, ⟨flag.short, flag.name, escapeDescription flag.description, ending⟩,
    unquote_flagSpec shortChar nameChar, ?_, ?_⟩
  · exact ⟨shortChar, nameChar, _, _, rfl, passed.cut (by decide) _, reads⟩
  · exact ⟨rfl, rfl, unescape_escapeDescription flag.description, tells⟩

end OptionReading

/-- What the word of trailing values has them completed by: a shell function, or a list of
candidates. -/
inductive Action where
  | call (function : Text)
  | among (list : Text)

def Action.Reads : Action → Text → Prop
  | call function, text => text = function ∧ function.head? ≠ some '('
  | among list, text => ∃ rest, text = '(' :: rest ∧ cutUnescaped ')' rest = some (list, [])

theorem Action.Reads.unique {action other : Action} {text : Text} (reads : action.Reads text)
    (otherReads : other.Reads text) : other = action := by
  cases action <;> cases other <;> simp only [Action.Reads] at reads otherReads
  case call.call => simp_all
  case call.among =>
    obtain ⟨rfl, starts⟩ := reads
    obtain ⟨rest, rfl, _⟩ := otherReads
    simp at starts
  case among.call =>
    obtain ⟨rest, rfl, _⟩ := reads
    obtain ⟨rfl, starts⟩ := otherReads
    simp at starts
  case among.among =>
    obtain ⟨rest, rfl, cut⟩ := reads
    obtain ⟨otherRest, same, otherCut⟩ := otherReads
    obtain rfl := (List.cons.inj same).2
    simpa [cut, eq_comm] using otherCut

/-- What the word of trailing values says: the label that the menu shows, and the action. -/
structure PositionalReading where
  label : Text
  action : Action

namespace PositionalReading

def Reads (reading : PositionalReading) (text : Text) : Prop :=
  ∃ inside rest, text = "*:" ++ inside ∧ cutUnescaped ':' inside = some (reading.label, rest) ∧
    reading.action.Reads rest

/-- A reading that gives back how values of a kind are completed. Identifiers are asked for by
a helper; no shells at all are offered as one empty candidate. -/
def Tells (target : Target) : Option Positional → PositionalReading → Prop
  | none, reading => reading = ⟨" ", .call "_default"⟩
  | some .changeId, reading => reading = ⟨" ", .call (target.helperName "changes")⟩
  | some .specId, reading => reading = ⟨" ", .call (target.helperName "specs")⟩
  | some .changeOrSpecId, reading => reading = ⟨" ", .call (target.helperName "items")⟩
  | some .path, reading => reading = ⟨"path", .call "_files"⟩
  | some .shell, reading => ∃ list, reading = ⟨"shell", .among list⟩ ∧
      candidates list = if target.shells = [] then [[]] else target.shells

theorem Reads.unique {reading other : PositionalReading} {text : Text} (reads : reading.Reads text)
    (otherReads : other.Reads text) : other = reading := by
  obtain ⟨inside, rest, rfl, cut, action⟩ := reads
  obtain ⟨otherInside, otherRest, same, otherCut, otherAction⟩ := otherReads
  obtain rfl := List.append_cancel_left same
  obtain ⟨labels, rfl⟩ : reading.label = other.label ∧ rest = otherRest := by
    simpa [cut] using otherCut
  have actions := action.unique otherAction
  cases reading
  cases other
  simp_all

theorem reads_call {label function : Text} (plain : ∀ c ∈ label, c ≠ '\\' ∧ c ≠ ':')
    (starts : function.head? ≠ some '(') :
    Reads ⟨label, .call function⟩ ("*:" ++ label ++ ':' :: function) :=
  ⟨label ++ ':' :: function, function, by simp, (Passed.of_plain plain).cut (by decide) function,
    rfl, starts⟩

theorem reads_shells (target : Target) :
    Reads ⟨"shell", .among (Text.join " " (target.shells.map escapeValue))⟩
      ("*:shell:(" ++ Text.join " " (target.shells.map escapeValue) ++ ")") :=
  have passed : Passed ':' "shell" := Passed.of_plain (by simp)
  ⟨_, _, by simp, passed.cut (by decide) _, _, rfl, cut_candidates target.shells⟩

theorem candidates_shells (target : Target) :
    candidates (Text.join " " (target.shells.map escapeValue)) =
      if target.shells = [] then [[]] else target.shells := by
  by_cases empty : target.shells = []
  · rw [empty]
    rfl
  · rw [if_neg empty, candidates_join empty]

theorem exists_positionalSpec (target : Target) (kind : Option Positional) :
    ∃ text, ∃ reading : PositionalReading, unquote (positionalSpec target kind) = some text ∧
      reading.Reads text ∧ reading.Tells target kind := by
  cases kind with
  | none => exact ⟨_, _, unquote_quote _, reads_call (by simp) (by simp), rfl⟩
  | some kind =>
    have helper (list : Lookup) : Reads ⟨" ", .call (target.helperName list.plural)⟩
        ("*: :" ++ target.helperName list.plural) :=
      reads_call (by simp) (by simp [Target.helperName])
    cases kind with
    | changeId => exact ⟨_, _, unquote_quote _, helper .changes, rfl⟩
    | specId => exact ⟨_, _, unquote_quote _, helper .specs, rfl⟩
    | changeOrSpecId => exact ⟨_, _, unquote_quote _, helper .items, rfl⟩
    | path => exact ⟨_, _, unquote_quote _, reads_call (by simp) (by simp), rfl⟩
    | shell =>
      exact ⟨_, _, unquote_quote _, reads_shells target, _, rfl, candidates_shells target⟩

end PositionalReading

/-- The words that declare options and trailing values are whole shell words, each with one
reading, and that reading gives back what was declared, whatever stands in descriptions and
candidates. -/
theorem specs_read_back :
    (∀ flag : Flag, (∀ c ∈ flag.short, isOptionChar c = true) →
      (∀ c ∈ flag.name, isOptionChar c = true) →
      ∃ text, ∃ reading : OptionReading, unquote (flagSpec flag) = some text ∧
        reading.Reads text ∧ reading.Tells flag ∧
        ∀ other : OptionReading, other.Reads text → other = reading) ∧
    (∀ (target : Target) (kind : Option Positional),
      ∃ text, ∃ reading : PositionalReading, unquote (positionalSpec target kind) = some text ∧
        reading.Reads text ∧ reading.Tells target kind ∧
        ∀ other : PositionalReading, other.Reads text → other = reading) := by
  constructor
  · intro flag shortChar nameChar
    obtain ⟨text, reading, word, reads, tells⟩ := OptionReading.exists_flagSpec shortChar nameChar
    exact ⟨text, reading, word, reads, tells, fun _ => reads.unique⟩
  · intro target kind
    obtain ⟨text, reading, word, reads, tells⟩ :=
      PositionalReading.exists_positionalSpec target kind
    exact ⟨text, reading, word, reads, tells, fun _ => reads.unique⟩

/-- An option with a short alias, every mark of both layers in its description, and candidates
that have to be told apart. -/
def knotted : Flag :=
  ⟨"key-file", 'k', "it's [a]: b\\", true, some ["a b", "", "c)\\", "d'"]⟩

theorem specs_read_back_knotted :
    (∀ c ∈ knotted.short, isOptionChar c = true) ∧ (∀ c ∈ knotted.name, isOptionChar c = true) ∧
      ∃ text, ∃ reading : OptionReading, unquote (flagSpec knotted) = some text ∧
        reading.Reads text ∧ reading.Tells knotted ∧
        ∀ other : OptionReading, other.Reads text → other = reading := by
  have shortChar : ∀ c ∈ knotted.short, isOptionChar c = true := by
    intro c member
    cases member
    rfl
  have nameChar : ∀ c ∈ knotted.name, isOptionChar c = true := by
    have letters : knotted.name.all isOptionChar = true := rfl
    exact List.all_eq_true.mp letters
  exact ⟨shortChar, nameChar, specs_read_back.1 knotted shortChar nameChar⟩

end TabCompletion.Zsh
