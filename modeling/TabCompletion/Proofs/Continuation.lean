import Mathlib.Data.List.SplitBy
import TabCompletion.Proofs.FunctionName
import TabCompletion.Proofs.Line
import TabCompletion.Proofs.Lossless
import TabCompletion.Text.Blank

namespace TabCompletion.Zsh

/-- Whether a backslash takes away the end of a line, so that it goes on with the next one. -/
def goesOn (line : Text) : Bool :=
  line.getLast? == some '\\'

/-- The runs of lines that the shell takes for one line each. -/
def joined (lines : List Text) : List (List Text) :=
  lines.splitBy fun line _ => goesOn line

theorem goesOn_append {first second : Text} (filled : second ≠ []) :
    goesOn (first ++ second) = goesOn second := by
  rw [goesOn, goesOn, List.getLast?_append_of_ne_nil _ filled]

/-- A line that does not go on. -/
structure Plain (line : Text) : Prop where
  single : '\n' ∉ line
  ends : goesOn line = false

/-- A word on one line that shows, and after which a line ends. -/
structure Solid (word : Text) : Prop where
  plain : Plain word
  shows : ∃ c ∈ word, isBlank c = false

theorem Solid.ne_nil {word : Text} (solid : Solid word) : word ≠ [] := by
  obtain ⟨c, member, -⟩ := solid.shows
  exact List.ne_nil_of_mem member

namespace Plain

variable {first second : Text}

theorem after (single : '\n' ∉ first) (plain : Plain second) (filled : second ≠ []) :
    Plain (first ++ second) :=
  ⟨List.not_mem_append single plain.single, (goesOn_append filled).trans plain.ends⟩

theorem word (single : '\n' ∉ first) (solid : Solid second) : Plain (first ++ second) :=
  after single solid.plain solid.ne_nil

theorem of_check {line : Text} (check : (decide ('\n' ∉ line) && !goesOn line) = true) : Plain line := by
  simp only [Bool.and_eq_true, decide_eq_true_eq, Bool.not_eq_true'] at check
  exact ⟨check.1, check.2⟩

end Plain

/-- A line that goes on stands in one run with the next one. -/
theorem joined_neighbours (lines : List Text) :
    lines.IsChain fun line next => goesOn line = true → ∃ run ∈ joined lines, [line, next] <:+: run := by
  have whole : (joined lines).flatten = lines := List.flatten_splitBy _ lines
  have filled : [] ∉ joined lines := List.nil_notMem_splitBy _ lines
  have between := List.isChain_getLast_head_splitBy (fun line _ => goesOn line) lines
  rw [← whole]
  refine (List.isChain_flatten filled).mpr ⟨fun run member => ?_, ?_⟩
  · refine (List.isChain_isInfix run).imp fun line next side _ => ⟨run, ?_, side⟩
    rwa [whole]
  · refine between.imp fun first second ⟨kept, _, ends⟩ line last next _ goes => ?_
    rw [List.getLast?_eq_some_getLast kept] at last
    cases last
    rw [ends] at goes
    cases goes

theorem mem_of_neighbours {α : Type} {first second head : α} {rest : List α}
    (side : [first, second] <:+: head :: rest) : second ∈ rest := by
  obtain ⟨before, after, same⟩ := side
  cases before with
  | nil =>
    cases same
    exact List.mem_cons_self
  | cons other before =>
    obtain ⟨-, rfl⟩ := List.cons.inj same
    simp

/-- Whole lines of which the last one does not go on, and in which the commands that take more
than one line are the given ones. -/
structure Wraps (lines : List Text) (calls : List (List Text)) : Prop where
  single : ∀ line ∈ lines, '\n' ∉ line
  closed : ∀ line ∈ lines.getLast?, goesOn line = false
  runs : (joined lines).filter (fun run => 1 < run.length) = calls

namespace Wraps

variable {lines others : List Text} {calls otherCalls : List (List Text)}

theorem nil : Wraps [] [] := ⟨by simp, by simp, rfl⟩

theorem append (wraps : Wraps lines calls) (wrapsOther : Wraps others otherCalls) :
    Wraps (lines ++ others) (calls ++ otherCalls) where
  single line member := by
    rcases List.mem_append.mp member with first | second
    · exact wraps.single line first
    · exact wrapsOther.single line second
  closed line last := by
    rw [List.getLast?_append] at last
    rcases Option.or_eq_some_iff.mp last with second | ⟨-, first⟩
    · exact wrapsOther.closed line second
    · exact wraps.closed line first
  runs := by
    have split : joined (lines ++ others) = joined lines ++ joined others :=
      List.splitBy_append fun line last _ _ => wraps.closed line last
    rw [split, List.filter_append, wraps.runs, wrapsOther.runs]

theorem line {line : Text} (plain : Plain line) : Wraps [line] [] where
  single := by simp [plain.single]
  closed := by simp [plain.ends]
  runs := rfl

theorem of_plain (plain : ∀ line ∈ lines, Plain line) : Wraps lines [] := by
  induction lines with
  | nil => exact nil
  | cons first rest ih =>
    exact (line (plain first List.mem_cons_self)).append
      (ih fun other member => plain other (List.mem_cons_of_mem first member))

theorem flatMap {α : Type} {items : List α} {lines : α → List Text} {calls : α → List (List Text)}
    (each : ∀ item ∈ items, Wraps (lines item) (calls item)) :
    Wraps (items.flatMap lines) (items.flatMap calls) := by
  induction items with
  | nil => exact nil
  | cons item rest ih =>
    exact (each item List.mem_cons_self).append
      (ih fun other member => each other (List.mem_cons_of_mem item member))

end Wraps

theorem continued_concat (specs : List Text) (last : Text) :
    continued (specs ++ [last]) =
      specs.map (fun spec => "    ".toList ++ spec ++ " \\".toList) ++ ["    ".toList ++ last] := by
  induction specs with
  | nil => rfl
  | cons spec specs ih =>
    rw [List.map_cons, List.cons_append, List.cons_append, ← ih]
    obtain ⟨next, more, shape⟩ : ∃ next more, specs ++ [last] = next :: more :=
      List.exists_cons_of_ne_nil (by simp)
    rw [shape]
    rfl

/-- A command is one run when all of its lines go on but the last. -/
theorem Wraps.command {above : List Text} {last : Text} (filled : above ≠ [])
    (each : ∀ line ∈ above, '\n' ∉ line ∧ goesOn line = true) (plain : Plain last) :
    Wraps (above ++ [last]) [above ++ [last]] where
  single line member := by
    rcases List.mem_append.mp member with inside | final
    · exact (each line inside).1
    · exact List.mem_singleton.mp final ▸ plain.single
  closed := by simp [plain.ends]
  runs := by
    have chain : (above ++ [last]).IsChain fun line _ => goesOn line = true := by
      clear filled
      induction above with
      | nil => exact .singleton last
      | cons line above ih =>
        refine List.isChain_cons.mpr ⟨fun _ _ => (each line List.mem_cons_self).2, ih ?_⟩
        exact fun other member => each other (List.mem_cons_of_mem line member)
    have length := List.length_pos_iff.mpr filled
    rw [joined, List.splitBy_of_isChain (by simp) chain]
    simp [length]

theorem wraps_continued (head : Text) (single : '\n' ∉ head) {specs : List Text} (filled : specs ≠ [])
    (solid : ∀ spec ∈ specs, Solid spec) :
    Wraps ((head ++ " \\") :: continued specs) [(head ++ " \\") :: continued specs] := by
  have going {text : Text} (whole : '\n' ∉ text) :
      '\n' ∉ text ++ " \\".toList ∧ goesOn (text ++ " \\".toList) = true :=
    ⟨List.not_mem_append whole (by decide), goesOn_append (by simp)⟩
  obtain ⟨above, last, rfl⟩ := (List.eq_nil_or_concat specs).resolve_left filled
  rw [List.concat_eq_append] at solid ⊢
  rw [continued_concat, ← List.cons_append]
  refine .command (List.cons_ne_nil _ _) (fun line member => ?_) (.word (by decide) (solid last (by simp)))
  rcases List.mem_cons.mp member with rfl | inside
  · exact going single
  · obtain ⟨spec, among, rfl⟩ := List.mem_map.mp inside
    exact going (List.not_mem_append (by decide) (solid spec (List.mem_append_left _ among)).plain.single)

/-- The words of an `_arguments` call. -/
def Routine.specs : Routine → List Text
  | ⟨_, .dispatcher menu⟩ => menu.specs ++ Dispatcher.choiceSpecs menu.state
  | ⟨_, .leaf specs⟩ => specs

/-- The `_arguments` calls of a function. There is none where there is nothing to say. -/
def Routine.argumentCalls : Routine → List (List Text)
  | ⟨_, .dispatcher menu⟩ => [menu.argumentLines]
  | ⟨_, .leaf []⟩ => []
  | ⟨_, .leaf (spec :: specs)⟩ => ["  _arguments \\" :: continued (spec :: specs)]

/-- The `_arguments` calls of all functions together. -/
def Script.argumentCalls (script : Script) : List (List Text) :=
  (script.root :: script.routines).flatMap Routine.argumentCalls

/-- A dispatcher whose texts all stay on their lines. -/
structure Dispatcher.Tidy (menu : Dispatcher) : Prop where
  array : Solid menu.array
  state : '\n' ∉ menu.state
  label : '\n' ∉ menu.label
  entries : ∀ entry ∈ menu.entries, Solid entry
  specs : ∀ spec ∈ menu.specs, Solid spec
  choices : ∀ choice ∈ menu.choices, '\n' ∉ choice.word ∧ Solid choice.routine

namespace Dispatcher.Tidy

variable {menu : Dispatcher}

theorem wraps_menuLines (tidy : menu.Tidy) : Wraps menu.menuLines [] := by
  refine .of_plain fun line member => ?_
  simp only [menuLines, List.mem_append, List.mem_cons, List.mem_map, List.not_mem_nil, or_false] at member
  rcases member with ((rfl | rfl | rfl | rfl | rfl) | ⟨entry, among, rfl⟩) | rfl
  · exact .of_check rfl
  · exact .of_check rfl
  · exact .of_check rfl
  · exact .word (by decide) tidy.array
  · exact .after (List.not_mem_append (by decide) tidy.array.plain.single) (.of_check rfl) (by simp)
  · exact .word (by decide) (tidy.entries entry among)
  · exact .of_check rfl

theorem solid_specs (tidy : menu.Tidy) : ∀ spec ∈ menu.specs ++ choiceSpecs menu.state, Solid spec := by
  intro spec member
  simp only [List.mem_append, choiceSpecs, List.mem_cons, List.not_mem_nil, or_false] at member
  rcases member with own | rfl | rfl
  · exact tidy.specs spec own
  · exact ⟨.after (List.not_mem_append (by decide) tidy.state) (.of_check rfl) (by simp), '"',
      by simp, rfl⟩
  · exact ⟨.of_check rfl, '"', by simp, rfl⟩

theorem wraps_argumentLines (tidy : menu.Tidy) : Wraps menu.argumentLines [menu.argumentLines] :=
  wraps_continued "  _arguments -C" (by decide) (by simp [choiceSpecs]) tidy.solid_specs

theorem wraps_choiceLines (tidy : menu.Tidy) : Wraps menu.choiceLines [] := by
  refine .of_plain fun line member => ?_
  simp only [choiceLines, List.mem_append, List.mem_cons, List.mem_flatMap, Choice.lines,
    List.not_mem_nil, or_false] at member
  rcases member with ((rfl | rfl | rfl | rfl | rfl | rfl) | ⟨choice, among, rfl | rfl | rfl⟩) |
    rfl | rfl | rfl
  case inl.inl.inr.inl =>
    exact .after (List.not_mem_append (by decide) tidy.state) (.of_check rfl) (by simp)
  case inl.inl.inr.inr.inl =>
    have label : '\n' ∉ "      _describe \"".toList ++ menu.label ++ "\" ".toList :=
      List.not_mem_append (List.not_mem_append (by decide) tidy.label) (by decide)
    exact .word label tidy.array
  case inl.inr.inl =>
    exact .after (List.not_mem_append (by decide) (tidy.choices choice among).1) (.of_check rfl) (by simp)
  case inl.inr.inr.inl => exact .word (by decide) (tidy.choices choice among).2
  all_goals exact .of_check rfl

/-- The lines of a dispatcher have one command that takes more than one of them. -/
theorem wraps_lines (tidy : menu.Tidy) : Wraps menu.lines [menu.argumentLines] := by
  have blank : Wraps [[]] [] := .line (.of_check rfl)
  exact (tidy.wraps_menuLines.append (blank.append tidy.wraps_argumentLines)).append
    (blank.append tidy.wraps_choiceLines)

end Dispatcher.Tidy

/-- A function whose texts all stay on their lines. -/
structure Routine.Tidy (routine : Routine) : Prop where
  name : Solid routine.name
  menu : ∀ menu, routine.body = .dispatcher menu → menu.Tidy
  specs : ∀ specs, routine.body = .leaf specs → ∀ spec ∈ specs, Solid spec

theorem Routine.Tidy.wraps_lines {routine : Routine} (tidy : routine.Tidy) :
    Wraps routine.lines routine.argumentCalls := by
  have opening : Wraps [routine.name ++ "() \x7b"] [] :=
    .line (.after tidy.name.plain.single (.of_check rfl) (by simp))
  have closing : Wraps ["\x7d".toList] [] := .line (.of_check rfl)
  have body : Wraps routine.body.lines routine.argumentCalls := by
    obtain ⟨name, body⟩ := routine
    cases body with
    | dispatcher menu => exact (tidy.menu menu rfl).wraps_lines
    | leaf specs =>
      cases specs with
      | nil => exact .line (.of_check rfl)
      | cons spec specs =>
        exact wraps_continued "  _arguments" (by decide) (List.cons_ne_nil _ _)
          (tidy.specs _ rfl)
  have whole := opening.append (body.append closing)
  rwa [List.append_nil, List.nil_append] at whole

theorem Routine.Tidy.solid_specs {routine : Routine} (tidy : routine.Tidy) :
    ∀ spec ∈ routine.specs, Solid spec := by
  obtain ⟨name, body⟩ := routine
  cases body with
  | dispatcher menu => exact (tidy.menu menu rfl).solid_specs
  | leaf specs => exact tidy.specs specs rfl

/-- A call is a line of its own for each of its words, after the line that begins it. -/
theorem Routine.mem_argumentCalls {routine : Routine} {call : List Text} (member : call ∈ routine.argumentCalls) :
    routine.specs ≠ [] ∧ ∃ head, call = head :: continued routine.specs := by
  obtain ⟨name, body⟩ := routine
  cases body with
  | dispatcher menu =>
    obtain rfl := List.mem_singleton.mp member
    exact ⟨List.append_ne_nil_of_right_ne_nil _ (List.cons_ne_nil _ _), _, rfl⟩
  | leaf specs =>
    cases specs with
    | nil => cases member
    | cons spec specs =>
      obtain rfl := List.mem_singleton.mp member
      exact ⟨List.cons_ne_nil _ _, _, rfl⟩

theorem mem_continued {specs : List Text} {line : Text} (member : line ∈ continued specs) :
    ∃ spec ∈ specs, line = "    ".toList ++ spec ∨ line = "    ".toList ++ spec ++ " \\".toList := by
  rcases List.eq_nil_or_concat specs with rfl | ⟨above, last, rfl⟩
  · cases member
  · rw [List.concat_eq_append] at member ⊢
    rw [continued_concat, List.mem_append, List.mem_singleton, List.mem_map] at member
    rcases member with ⟨spec, among, rfl⟩ | rfl
    · exact ⟨spec, List.mem_append_left _ among, Or.inr rfl⟩
    · exact ⟨last, by simp, Or.inl rfl⟩

/-- A quoted text is a word, whatever the line has before it. -/
theorem Solid.quote {first text : Text} (singleFirst : '\n' ∉ first) (single : '\n' ∉ text) :
    Solid (first ++ quote text) := by
  have ending : Zsh.quote text = '\'' :: text.flatMap quoteChar ++ ['\''] := rfl
  refine ⟨.after singleFirst ⟨not_mem_quote single (by decide), ?_⟩ (by simp [ending]), '\'', ?_, rfl⟩
  · rw [ending, goesOn_append (by simp)]
    rfl
  · simp [ending]

theorem not_mem_escapeWhere {special : Char → Bool} {c : Char} {text : Text} (absent : c ∉ text)
    (other : c ≠ '\\') : c ∉ escapeWhere special text := by
  intro member
  obtain ⟨d, inside, among⟩ := List.mem_flatMap.mp member
  split at among
  · rcases List.mem_cons.mp among with rfl | same
    · exact other rfl
    · exact absent (List.mem_singleton.mp same ▸ inside)
  · exact absent (List.mem_singleton.mp among ▸ inside)

theorem not_mem_join_escaped {texts : List Text} (single : ∀ text ∈ texts, '\n' ∉ text) :
    '\n' ∉ Text.join " " (texts.map escapeValue) := by
  intro member
  rcases Text.mem_join member with between | ⟨part, among, inside⟩
  · exact absurd between (by decide)
  · obtain ⟨text, known, rfl⟩ := List.mem_map.mp among
    exact not_mem_escapeWhere (single text known) (by decide) inside

/-- An option of which no text has a line end. -/
structure FlatFlag (flag : Flag) : Prop where
  name : '\n' ∉ flag.name
  short : flag.short ≠ some '\n'
  description : '\n' ∉ flag.description
  values : ∀ value ∈ flag.values.getD [], '\n' ∉ value

instance (flag : Flag) : Decidable (FlatFlag flag) :=
  decidable_of_iff ('\n' ∉ flag.name ∧ flag.short ≠ some '\n' ∧ '\n' ∉ flag.description ∧
      ∀ value ∈ flag.values.getD [], '\n' ∉ value)
    ⟨fun ⟨name, short, description, values⟩ => ⟨name, short, description, values⟩,
      fun flat => ⟨flat.name, flat.short, flat.description, flat.values⟩⟩

namespace FlatFlag

variable {flag : Flag}

theorem not_mem_valuePart (flat : FlatFlag flag) : '\n' ∉ valuePart flag := by
  unfold valuePart
  split
  · split
    · decide
    · decide
    · rename_i values _ shape
      have single : ∀ value ∈ values, '\n' ∉ value := by simpa [shape] using flat.values
      exact List.not_mem_append (List.not_mem_append (by decide) (not_mem_join_escaped single)) (by decide)
  · simp

theorem not_mem_flagBody (flat : FlatFlag flag) : '\n' ∉ flagBody flag := by
  have description : '\n' ∉ escapeDescription flag.description :=
    not_mem_escapeWhere flat.description (by decide)
  simp [flagBody, description, flat.not_mem_valuePart]

theorem flagSpec (flat : FlatFlag flag) : Solid (flagSpec flag) := by
  cases shape : flag.short with
  | none =>
    rw [flagSpec_none shape]
    have single : '\n' ∉ "--".toList ++ (flag.name ++ flagBody flag) :=
      List.not_mem_append (by decide) (List.not_mem_append flat.name flat.not_mem_flagBody)
    exact .quote List.not_mem_nil single
  | some short =>
    have letter : '\n' ≠ short := fun same => flat.short (same ▸ shape)
    have excluded : '\n' ∉ "(-".toList ++ [short] ++ " --" ++ flag.name ++ ")" := by
      simp [letter, flat.name]
    have names : '\n' ∉ "\x7b-".toList ++ [short] ++ ",--" ++ flag.name ++ "\x7d" := by
      simp [letter, flat.name]
    rw [flagSpec_some shape, ← List.append_assoc]
    exact .quote (List.not_mem_append (not_mem_quote excluded (by decide)) names) flat.not_mem_flagBody

end FlatFlag

/-- A command of which no text of its own has a line end. -/
structure FlatCommand (command : Command) : Prop where
  name : '\n' ∉ command.name
  description : '\n' ∉ command.description
  flags : ∀ flag ∈ command.flags, FlatFlag flag

instance (command : Command) : Decidable (FlatCommand command) :=
  decidable_of_iff ('\n' ∉ command.name ∧ '\n' ∉ command.description ∧
      ∀ flag ∈ command.flags, FlatFlag flag)
    ⟨fun ⟨name, description, flags⟩ => ⟨name, description, flags⟩,
      fun flat => ⟨flat.name, flat.description, flat.flags⟩⟩

/-- A target that is called by a word, and of which no text has a line end. -/
structure FlatTarget (target : Target) : Prop where
  cli : Solid target.cli
  shells : ∀ shell ∈ target.shells, '\n' ∉ shell

theorem FlatCommand.menuEntry {command : Command} (flat : FlatCommand command) :
    Solid (menuEntry command) := by
  have name : '\n' ∉ escapeDescription command.name := not_mem_escapeWhere flat.name (by decide)
  have description : '\n' ∉ escapeDescription command.description :=
    not_mem_escapeWhere flat.description (by decide)
  exact .quote List.not_mem_nil (List.not_mem_append (List.not_mem_append name (by decide)) description)

/-- The name of a function is a word. -/
theorem Solid.of_name {name rest : Text} (begins : name = '_' :: rest)
    (letters : ∀ c ∈ name, isNameChar c = true) : Solid name := by
  have filled : name ≠ [] := by simp [begins]
  have other {c : Char} (member : c ∈ name) {mark : Char} (apart : isNameChar mark = false) : c ≠ mark := by
    rintro rfl
    simp [letters c member] at apart
  refine ⟨⟨fun member => other member rfl rfl, ?_⟩, '_', by simp [begins], rfl⟩
  rw [goesOn, List.getLast?_eq_some_getLast filled]
  simpa using other (List.getLast_mem filled) rfl

namespace Target

variable {target : Target} {command : Command}

theorem solid_routineName (target : Target) (path : List Text) : Solid (target.routineName path) :=
  .of_name rfl fun _ => target.isNameChar_routineName

theorem solid_helperName (target : Target) (list : Lookup) : Solid (target.helperName list.plural) :=
  .of_name rfl fun _ => target.isNameChar_helperName list

theorem solid_positionalSpec (flat : FlatTarget target) (kind : Option Positional) :
    Solid (positionalSpec target kind) := by
  cases kind with
  | none => exact .quote List.not_mem_nil (by decide)
  | some kind =>
    have helper (list : Lookup) : Solid (quote ("*: :" ++ target.helperName list.plural)) :=
      .quote List.not_mem_nil (List.not_mem_append (by decide) (target.solid_helperName list).plain.single)
    cases kind with
    | changeId => exact helper .changes
    | specId => exact helper .specs
    | changeOrSpecId => exact helper .items
    | path => exact .quote List.not_mem_nil (by decide)
    | shell =>
      have shells := not_mem_join_escaped flat.shells
      exact .quote List.not_mem_nil
        (List.not_mem_append (List.not_mem_append (by decide) shells) (by decide))

theorem tidy_dispatcher (path : List Text) {array state label : Text} {flags : List Flag}
    {commands : List Command} (solid : Solid array) (single : '\n' ∉ state ∧ '\n' ∉ label)
    (flatFlags : ∀ flag ∈ flags, FlatFlag flag) (flat : ∀ command ∈ commands, FlatCommand command) :
    (target.dispatcher path array state label flags commands).Tidy where
  array := solid
  state := single.1
  label := single.2
  entries := List.forall_mem_map.mpr fun command among => (flat command among).menuEntry
  specs := List.forall_mem_map.mpr fun flag among => (flatFlags flag among).flagSpec
  choices := List.forall_mem_map.mpr fun command among =>
    ⟨(flat command among).name, target.solid_routineName _⟩

theorem tidy_root (flatTarget : FlatTarget target) {commands : List Command}
    (flat : ∀ command ∈ commands, FlatCommand command) : (target.rootRoutine commands).Tidy where
  name := target.solid_routineName []
  menu menu body := by
    cases body
    have label : '\n' ∉ target.cli ++ " command".toList :=
      List.not_mem_append flatTarget.cli.plain.single (by decide)
    exact tidy_dispatcher [] ⟨.of_check rfl, 'c', by decide, rfl⟩ ⟨by decide, label⟩ (by simp) flat
  specs specs body := by cases body

theorem solid_leafSpecs (flatTarget : FlatTarget target) (flat : FlatCommand command) :
    ∀ spec ∈ target.leafSpecs command, Solid spec := by
  intro spec member
  rcases List.mem_append.mp member with option | trailing
  · obtain ⟨flag, among, rfl⟩ := List.mem_map.mp option
    exact (flat.flags flag among).flagSpec
  · split at trailing
    · obtain rfl := List.mem_singleton.mp trailing
      exact solid_positionalSpec flatTarget _
    · cases trailing

theorem tidy_routine (flatTarget : FlatTarget target) (path : List Text) (flat : FlatCommand command)
    (below : ∀ child ∈ command.subcommands, FlatCommand child) : (target.routine path command).Tidy where
  name := target.solid_routineName path
  menu menu body := by
    simp only [routine] at body
    split at body
    · cases body
      exact tidy_dispatcher path ⟨.of_check rfl, 's', by decide, rfl⟩ ⟨by decide, by decide⟩ flat.flags below
    · cases body
  specs specs body := by
    simp only [routine] at body
    split at body
    · cases body
    · cases body
      exact solid_leafSpecs flatTarget flat

/-- No helper has a command of more than one line. -/
theorem wraps_helper (flatTarget : FlatTarget target) (list : Lookup) :
    Wraps (Helper.lines target.cli ⟨target.helperName list.plural, list⟩) [] := by
  have single := (target.solid_helperName list).plain.single
  have plural : Solid list.plural := by cases list <;> exact ⟨.of_check rfl, 's', by decide, rfl⟩
  have singular : '\n' ∉ list.singular := by cases list <;> decide
  have categories : ∀ category ∈ list.categories, '\n' ∉ category := by cases list <;> decide
  refine .of_plain fun line member => ?_
  simp only [Helper.lines, Helper.loopLines, List.mem_append, List.mem_cons, List.mem_flatMap,
    List.not_mem_nil, or_false] at member
  rcases member with ((rfl | rfl | rfl) | ⟨category, among, rfl | rfl | rfl | rfl⟩) | rfl | rfl
  · exact .after single (.of_check rfl) (by simp)
  · exact .word (by decide) plural
  · exact .of_check rfl
  · exact .of_check rfl
  · exact .of_check rfl
  · exact .after (List.not_mem_append (by decide) plural.plain.single) (.of_check rfl) (by simp)
  · have query : '\n' ∉ "  done < <(".toList ++ target.cli ++ " __complete --type ".toList ++ category :=
      List.not_mem_append (List.not_mem_append (List.not_mem_append (by decide)
        flatTarget.cli.plain.single) (by decide)) (categories category among)
    exact .after query (.of_check rfl) (by simp)
  · have label : '\n' ∉ "  _describe \"".toList ++ list.singular ++ "\" ".toList :=
      List.not_mem_append (List.not_mem_append (by decide) singular) (by decide)
    exact .word label plural
  · exact .of_check rfl

variable {commands : List Command}

theorem tidy_of_mem (flatTarget : FlatTarget target)
    (flat : ∀ path node, Command.Leads commands path node → FlatCommand node) {routine : Routine}
    (member : routine ∈ (target.compile commands).root :: (target.compile commands).routines) :
    routine.Tidy := by
  rcases List.mem_cons.mp member with rfl | inside
  · exact tidy_root flatTarget fun command among => flat _ command (.here among)
  · rw [routines_below] at inside
    obtain ⟨⟨path, node⟩, among, rfl⟩ := List.mem_map.mp inside
    have leads := Command.mem_nodesBelow_iff.mp among
    exact tidy_routine flatTarget path (flat path node leads) fun child below =>
      flat _ child (leads.child below)

/-- Of all lines of a script only those of the `_arguments` calls go on. -/
theorem wraps_compile (flatTarget : FlatTarget target)
    (flat : ∀ path node, Command.Leads commands path node → FlatCommand node) :
    Wraps (target.compile commands).lines (target.compile commands).argumentCalls := by
  have blank : Wraps [[]] [] := .line (.of_check rfl)
  have cli := flatTarget.cli
  have preamble : Wraps (target.compile commands).preamble [] := by
    refine .of_plain fun line member => ?_
    simp only [Script.preamble, List.mem_cons, List.not_mem_nil, or_false] at member
    rcases member with rfl | rfl | rfl | rfl | rfl
    · exact .word (by decide) cli
    · exact .of_check rfl
    · exact .after (List.not_mem_append (by decide) cli.plain.single) (.of_check rfl) (by simp)
    · exact .of_check rfl
    · exact .of_check rfl
  have root := (tidy_of_mem flatTarget flat List.mem_cons_self).wraps_lines
  have nodes : Wraps ((target.compile commands).routines.flatMap fun routine => [] :: routine.lines)
      ((target.compile commands).routines.flatMap Routine.argumentCalls) :=
    .flatMap fun routine member =>
      blank.append (tidy_of_mem flatTarget flat (List.mem_cons_of_mem _ member)).wraps_lines
  have heading : Wraps [[], "# Dynamic completion helpers".toList] [] := blank.append (.line (.of_check rfl))
  have helpers : Wraps ((target.compile commands).helpers.flatMap fun helper =>
      [] :: helper.lines target.cli) ((target.compile commands).helpers.flatMap fun _ => []) :=
    .flatMap fun helper member => by
      obtain ⟨list, -, rfl⟩ := List.mem_map.mp member
      exact blank.append (wraps_helper flatTarget list)
  have registration : Plain ("compdef " ++ target.routineName [] ++ " " ++ target.cli) := by
    have name := (target.solid_routineName []).plain.single
    exact .word (List.not_mem_append (List.not_mem_append (by decide) name) (by decide)) cli
  have closing := blank.append (.line registration)
  -- The parts of the script one after another; the calls of each follow those of the parts before.
  have whole := ((((preamble.append root).append nodes).append heading).append helpers).append closing
  have calls : (target.compile commands).argumentCalls = (target.compile commands).root.argumentCalls ++
      (target.compile commands).routines.flatMap Routine.argumentCalls := List.flatMap_cons
  simp only [List.nil_append, List.append_nil, List.flatMap_eq_nil_iff.mpr fun _ _ => rfl] at whole
  rw [calls]
  exact whole

/-- No line of a script dangles. A line that goes on is followed by one of the words of an
`_arguments` call, indented; all that the shell takes for one line but is more than one are these
calls, in their order; and the line that has the last word of a call does not go on. -/
theorem no_line_dangles (flatTarget : FlatTarget target)
    (flat : ∀ path node, Command.Leads commands path node → FlatCommand node) :
    let script := target.compile commands
    let lines := (target.generate commands).newlinePieces
    (∀ before line after, lines = before ++ line :: after → goesOn line = true →
      ∃ routine ∈ script.root :: script.routines, ∃ spec ∈ routine.specs,
        (∃ c ∈ spec, isBlank c = false) ∧ ∃ next more, after = next :: more ∧
          (next = "    ".toList ++ spec ∨ next = "    ".toList ++ spec ++ " \\".toList)) ∧
    (joined lines).filter (fun run => 1 < run.length) = script.argumentCalls ∧
    ∀ routine ∈ script.root :: script.routines, ∀ call ∈ routine.argumentCalls, ∃ above last,
      call = above ++ ["    ".toList ++ last] ∧ routine.specs.getLast? = some last ∧
        goesOn ("    ".toList ++ last) = false := by
  intro script lines
  have wraps := wraps_compile flatTarget flat
  have pieces : lines = script.lines ++ [[]] := by
    have text : target.generate commands = (script.lines.map (· ++ ['\n'])).flatten := List.flatMap_def ..
    change (target.generate commands).newlinePieces = _
    rw [text, Text.newlinePieces_lines wraps.single]
  have whole := wraps.append (.line (.of_check rfl) : Wraps [[]] [])
  rw [← pieces, List.append_nil] at whole
  refine ⟨fun before line after split goes => ?_, whole.runs, fun routine member call among => ?_⟩
  · cases after with
    | nil =>
      have ended := whole.closed line (by simp [split])
      rw [goes] at ended
      cases ended
    | cons next more =>
      -- A line that goes on and the next one stand side by side in one call.
      have neighbours := joined_neighbours lines
      rw [split, List.isChain_append_cons_cons] at neighbours
      obtain ⟨run, inside, side⟩ := neighbours.2.1 goes
      have long : run ∈ script.argumentCalls := by
        rw [← whole.runs, List.mem_filter, split]
        exact ⟨inside, decide_eq_true side.length_le⟩
      obtain ⟨routine, member, among⟩ := List.mem_flatMap.mp long
      obtain ⟨-, head, rfl⟩ := Routine.mem_argumentCalls among
      obtain ⟨spec, word, printed⟩ := mem_continued (mem_of_neighbours side)
      exact ⟨routine, member, spec, word, ((tidy_of_mem flatTarget flat member).solid_specs spec word).shows,
        next, more, rfl, printed⟩
  · obtain ⟨filled, head, rfl⟩ := Routine.mem_argumentCalls among
    obtain ⟨above, last, shape⟩ := (List.eq_nil_or_concat routine.specs).resolve_left filled
    rw [List.concat_eq_append] at shape
    have solid := (tidy_of_mem flatTarget flat member).solid_specs last (by simp [shape])
    rw [shape, continued_concat, ← List.cons_append]
    exact ⟨_, last, rfl, by simp, (Plain.word (by decide) solid).ends⟩

end Target

theorem flatTarget_default : FlatTarget Target.default where
  cli := ⟨.of_check rfl, 's', by decide, rfl⟩
  shells := by decide

/-- A tree whose texts end in backslashes, with dispatchers and commands of every kind. -/
def backslashed : List Command :=
  [⟨"a\\", "b\\", [⟨"c\\", some '\\', "d\\", true, some ["e\\"]⟩],
      [⟨"f", "\\", [⟨"g\\", none, "\\", false, none⟩], [], true, some .shell⟩, ⟨"h\\", [], [], [], false, none⟩],
      false, none⟩,
    ⟨"i", [], [], [⟨"j\\", [], [⟨"k", some '\\', [], false, none⟩], [], false, none⟩, ⟨"l", [], [], [], true, none⟩],
      false, none⟩]

/-- Every function calls `_arguments` but that of the command which has nothing to say. -/
theorem no_line_dangles_backslashed :
    let script := Target.default.compile backslashed
    FlatTarget Target.default ∧ (∀ path node, Command.Leads backslashed path node → FlatCommand node) ∧
      (joined (Target.default.generate backslashed).newlinePieces).filter (fun run => 1 < run.length) =
        script.argumentCalls ∧
      script.argumentCalls.map List.length = [3, 4, 3, 3, 2, 2] := by
  intro script
  have flat : ∀ path node, Command.Leads backslashed path node → FlatCommand node :=
    Command.forall_leads_iff.mpr (by decide)
  obtain ⟨-, runs, -⟩ := Target.no_line_dangles flatTarget_default flat
  refine ⟨flatTarget_default, flat, runs, ?_⟩
  rw [Script.argumentCalls, List.flatMap_cons, Target.routines_below]
  rfl

end TabCompletion.Zsh
