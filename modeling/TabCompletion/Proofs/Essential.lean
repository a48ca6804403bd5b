import TabCompletion.Proofs.ScriptText
import TabCompletion.Proofs.SpecReading

namespace TabCompletion

/-- An option without what its word does not say: the candidates where no value follows its
name, and the difference between no candidates and an empty list of them. -/
def Flag.essential (flag : Flag) : Flag where
  name := flag.name
  short := flag.short
  description := flag.description
  takesValue := flag.takesValue
  values := if flag.takesValue then flag.values.filter (!·.isEmpty) else none

namespace Command

mutual

/-- A tree without what no script says of it: the ignored parts of its options, the trailing
values of commands with subcommands, and their kind where there are none. -/
def essential : Command → Command
  | ⟨name, description, flags, subcommands, acceptsPositional, positional⟩ =>
    ⟨name, description, flags.map Flag.essential, essentials subcommands,
      subcommands.isEmpty && acceptsPositional,
      if subcommands.isEmpty && acceptsPositional then positional else none⟩

def essentials : List Command → List Command
  | [] => []
  | command :: rest => essential command :: essentials rest

end

/-- What a menu says of a command. -/
def menu (command : Command) : Text × Text :=
  (command.name, command.description)

/-- The kind of the trailing values that a script completes for a command, when it does. -/
def trailing? (command : Command) : Option (Option Positional) :=
  if !command.isDispatch && command.acceptsPositional then some command.positional else none

theorem essentials_eq_map (commands : List Command) :
    essentials commands = commands.map essential := by
  induction commands with
  | nil => rfl
  | cons command rest ih => rw [essentials, ih, List.map_cons]

@[simp]
theorem essential_name (command : Command) : command.essential.name = command.name := by
  cases command
  rfl

@[simp]
theorem essential_description (command : Command) :
    command.essential.description = command.description := by
  cases command
  rfl

@[simp]
theorem essential_flags (command : Command) :
    command.essential.flags = command.flags.map Flag.essential := by
  cases command
  rfl

@[simp]
theorem essential_subcommands (command : Command) :
    command.essential.subcommands = essentials command.subcommands := by
  cases command
  rfl

theorem essential_isDispatch (command : Command) :
    command.essential.isDispatch = command.isDispatch := by
  obtain ⟨_, _, _, subcommands, _, _⟩ := command
  cases subcommands <;> rfl

theorem essential_trailing? (command : Command) :
    command.essential.trailing? = command.trailing? := by
  obtain ⟨_, _, _, subcommands, accepts, _⟩ := command
  cases subcommands <;> cases accepts <;> rfl

/-- Trees are alike when their roots are, and the trees below these. -/
theorem essential_eq_iff {command other : Command} :
    command.essential = other.essential ↔
      command.menu = other.menu ∧
        command.flags.map Flag.essential = other.flags.map Flag.essential ∧
        essentials command.subcommands = essentials other.subcommands ∧
        command.trailing? = other.trailing? := by
  constructor
  · intro same
    have menus : command.essential.menu = other.essential.menu := by rw [same]
    rw [menu, menu, essential_name, essential_description, essential_name,
      essential_description] at menus
    rw [← essential_flags, ← essential_flags, ← essential_subcommands, ← essential_subcommands,
      ← essential_trailing? command, ← essential_trailing? other, same]
    exact ⟨menus, rfl, rfl, rfl⟩
  · obtain ⟨name, description, _, below, accepts, kind⟩ := command
    obtain ⟨otherName, otherDescription, _, belowOther, acceptsOther, otherKind⟩ := other
    rintro ⟨menus, flags, subcommands, trailing⟩
    obtain ⟨rfl, rfl⟩ : name = otherName ∧ description = otherDescription := by
      simpa [menu] using menus
    have ends : (below.isEmpty && accepts) = (belowOther.isEmpty && acceptsOther) ∧
        (if below.isEmpty && accepts then kind else none) =
          if belowOther.isEmpty && acceptsOther then otherKind else none := by
      simp only [trailing?, isDispatch, Bool.not_not] at trailing
      generalize (below.isEmpty && accepts) = trails at trailing ⊢
      generalize (belowOther.isEmpty && acceptsOther) = trailsOther at trailing ⊢
      cases trails <;> cases trailsOther <;> simp_all
    simp only [essential, mk.injEq, true_and]
    exact ⟨flags, subcommands, ends⟩

end Command

/-- Where equal images under one function have equal images under another, so do lists. -/
theorem map_eq_map_of_tells {α β γ : Type} {f : α → β} {g : α → γ} {first second : List α}
    (tells : ∀ x ∈ first, ∀ y ∈ second, f x = f y → g x = g y)
    (same : first.map f = second.map f) : first.map g = second.map g := by
  induction first generalizing second with
  | nil =>
    obtain rfl := List.map_eq_nil_iff.mp same.symm
    rfl
  | cons x first ih =>
    cases second with
    | nil => simp at same
    | cons y second =>
      simp only [List.map_cons, List.cons.injEq] at same ⊢
      exact ⟨tells x List.mem_cons_self y List.mem_cons_self same.1,
        ih (fun x member y inside => tells x (List.mem_cons_of_mem _ member) y
          (List.mem_cons_of_mem _ inside)) same.2⟩

namespace Zsh

/-- The characters of names: those of options and the dot. -/
def isNameMark (c : Char) : Bool :=
  isOptionChar c || c = '.'

theorem ne_of_isNameMark {c mark : Char} (letter : isNameMark c = true)
    (other : isNameMark mark = false) : c ≠ mark := by
  rintro rfl
  simp [letter] at other

theorem isWordEnd_of_isNameMark {c : Char} (letter : isNameMark c = true) :
    isWordEnd c = false := by
  have blank : c ≠ ' ' := ne_of_isNameMark letter rfl
  have tab : c ≠ '\t' := ne_of_isNameMark letter rfl
  have newline : c ≠ '\n' := ne_of_isNameMark letter rfl
  simp [isWordEnd, blank, tab, newline]

/-- An option whose names are made of letters, digits and a few marks. -/
structure Named (flag : Flag) : Prop where
  short : ∀ c ∈ flag.short, isNameMark c = true
  name : ∀ c ∈ flag.name, isNameMark c = true

instance (flag : Flag) : Decidable (Named flag) :=
  decidable_of_iff (flag.short.toList.all isNameMark = true ∧ flag.name.all isNameMark = true)
    ⟨fun named => ⟨by simpa using named.1, by simpa using named.2⟩,
      fun named => ⟨by simpa using named.short, by simpa using named.name⟩⟩

/-- A quoted text and what comes after it are told apart, unless a backslash comes first. -/
theorem quoted_unique {text other rest otherRest : Text} (plain : rest.head? ≠ some '\\')
    (plainOther : otherRest.head? ≠ some '\\')
    (same : text.flatMap quoteChar ++ '\'' :: rest = other.flatMap quoteChar ++ '\'' :: otherRest) :
    text = other ∧ rest = otherRest := by
  -- A quote inside is written with a backslash after it, and the closing one has none.
  have ends {c : Char} {more after later : Text} (plain : after.head? ≠ some '\\') :
      '\'' :: after ≠ (c :: more).flatMap quoteChar ++ later := by
    intro same
    by_cases quote : c = '\''
    · simp [quoteChar, quote] at same
      simp [same] at plain
    · simp [quoteChar, quote] at same
      exact quote same.1.symm
  induction text generalizing other with
  | nil =>
    cases other with
    | nil => exact ⟨rfl, (List.cons.inj same).2⟩
    | cons d other => exact absurd same (ends plain)
  | cons c text ih =>
    cases other with
    | nil => exact absurd same.symm (ends plainOther)
    | cons d other =>
      have heads : c = d := by
        by_cases quote : c = '\'' <;> by_cases quoteOther : d = '\'' <;>
          simp [quoteChar, quote, quoteOther] at same
        · rw [quote, quoteOther]
        · exact absurd same.1.symm quoteOther
        · exact same.1
      subst heads
      simp only [List.flatMap_cons, List.append_assoc] at same
      obtain ⟨rfl, rests⟩ := ih (List.append_cancel_left same)
      exact ⟨rfl, rests⟩

theorem quote_unique {text other rest otherRest : Text} (plain : rest.head? ≠ some '\\')
    (plainOther : otherRest.head? ≠ some '\\')
    (same : quote text ++ rest = quote other ++ otherRest) : text = other ∧ rest = otherRest := by
  refine quoted_unique plain plainOther ?_
  simpa [quote] using same

theorem quote_injective {text other : Text} (same : quote text = quote other) : text = other :=
  (quote_unique (by simp) (by simp) (congrArg (· ++ []) same)).1

theorem escapeDescription_injective {text other : Text}
    (same : escapeDescription text = escapeDescription other) : text = other := by
  rw [← unescape_escapeDescription text, same, unescape_escapeDescription]

/-- The first unescaped mark after a description ends it. -/
theorem description_unique {stop : Char} (stops : isDescriptionSpecial stop = true)
    (proper : stop ≠ '\\') {text other rest otherRest : Text}
    (same : escapeDescription text ++ stop :: rest = escapeDescription other ++ stop :: otherRest) :
    text = other ∧ rest = otherRest := by
  have cut (text rest : Text) :
      cutUnescaped stop (escapeDescription text ++ stop :: rest) =
        some (escapeDescription text, rest) :=
    (Passed.escapeWhere rfl stops text).cut proper rest
  have pieces := congrArg (cutUnescaped stop) same
  rw [cut, cut, Option.some.injEq, Prod.mk.injEq] at pieces
  exact ⟨escapeDescription_injective pieces.1, pieces.2⟩

/-- The entry of a command in a menu tells its name and its description. -/
theorem menuEntry_eq_iff {command other : Command} :
    menuEntry command = menuEntry other ↔ command.menu = other.menu := by
  constructor
  · intro same
    have inside := quote_injective same
    simp only [List.append_assoc] at inside
    obtain ⟨names, descriptions⟩ := description_unique rfl (by decide) inside
    rw [Command.menu, Command.menu, names, escapeDescription_injective descriptions]
  · intro same
    obtain ⟨names, descriptions⟩ := Prod.mk.inj same
    rw [menuEntry, menuEntry, names, descriptions]

/-- What the word of an option says after its names. -/
def flagBody (flag : Flag) : Text :=
  '[' :: (escapeDescription flag.description ++ ']' :: valuePart flag)

theorem flagSpec_none {flag : Flag} (short : flag.short = none) :
    flagSpec flag = quote ("--" ++ (flag.name ++ flagBody flag)) := by
  simp [flagSpec, short, flagBody]

theorem flagSpec_some {flag : Flag} {short : Char} (shape : flag.short = some short) :
    flagSpec flag =
      quote ("(-" ++ [short] ++ " --" ++ flag.name ++ ")") ++
        ("\x7b-" ++ [short] ++ ",--" ++ flag.name ++ "\x7d" ++ quote (flagBody flag)) := by
  simp [flagSpec, shape, flagBody]

theorem valuePart_essential (flag : Flag) : valuePart flag.essential = valuePart flag := by
  unfold valuePart Flag.essential
  by_cases takes : flag.takesValue = true
  · rcases values : flag.values with _ | (_ | ⟨value, more⟩) <;>
      simp [takes, Option.filter]
  · simp [takes]

theorem flagSpec_essential (flag : Flag) : flagSpec flag.essential = flagSpec flag := by
  unfold flagSpec
  rw [valuePart_essential]
  rfl

/-- The end of a word tells whether a value follows, and the candidates for it. -/
theorem valuePart_unique {flag other : Flag} (same : valuePart flag = valuePart other) :
    flag.takesValue = other.takesValue ∧ flag.essential.values = other.essential.values := by
  obtain ⟨ending, reads, tells⟩ := Ending.exists_valuePart flag
  obtain ⟨otherEnding, otherReads, otherTells⟩ := Ending.exists_valuePart other
  obtain rfl := reads.unique (same ▸ otherReads)
  -- No candidates and an empty list of them are read alike, and kept alike.
  have offered (flag : Flag) (takes : flag.takesValue = true) :
      flag.essential.values = if flag.values.getD [] = [] then none else some (flag.values.getD []) := by
    rcases values : flag.values with _ | (_ | ⟨value, more⟩) <;>
      simp [Flag.essential, takes, values]
  cases otherEnding with
  | bare =>
    simp only [Ending.Tells] at tells otherTells
    simp [Flag.essential, tells, otherTells]
  | free =>
    obtain ⟨takes, none⟩ := tells
    obtain ⟨takesOther, noneOther⟩ := otherTells
    rw [offered flag takes, offered other takesOther, takes, takesOther, none, noneOther]
    exact ⟨rfl, rfl⟩
  | among list =>
    obtain ⟨takes, -, values⟩ := tells
    obtain ⟨takesOther, -, valuesOther⟩ := otherTells
    rw [offered flag takes, offered other takesOther, takes, takesOther, ← values, ← valuesOther]
    exact ⟨rfl, rfl⟩

theorem flagBody_unique {flag other : Flag} (same : flagBody flag = flagBody other) :
    flag.description = other.description ∧ flag.takesValue = other.takesValue ∧
      flag.essential.values = other.essential.values := by
  obtain ⟨descriptions, ends⟩ := description_unique rfl (by decide) (List.cons.inj same).2
  exact ⟨descriptions, valuePart_unique ends⟩

theorem Named.isWord {flag : Flag} (named : Named flag) : IsWord (flagSpec flag) := by
  rcases shape : flag.short with _ | short
  · rw [flagSpec_none shape]
    exact IsWord.quote _
  · have letter : isNameMark short = true := named.short short shape
    have hyphen : isNameMark '-' = true := rfl
    -- Between its two quoted parts the word has the names once more.
    have marks : ∀ c ∈ "\x7b-".toList ++ [short] ++ ",--" ++ flag.name ++ "\x7d",
        c ≠ '\'' ∧ c ≠ '\\' ∧ isWordEnd c = false := fun c member => by
      have known : isNameMark c = true ∨ c = '\x7b' ∨ c = ',' ∨ c = '\x7d' := by
        simp at member
        have inName := named.name c
        grind
      rcases known with letter | rfl | rfl | rfl
      · exact ⟨ne_of_isNameMark letter rfl, ne_of_isNameMark letter rfl,
          isWordEnd_of_isNameMark letter⟩
      all_goals decide
    rw [flagSpec_some shape]
    exact ⟨(Unbroken.quote _).append ((Unbroken.of_plain marks).append (Unbroken.quote _)), _, rfl⟩

/-- The bracket after the name of an option is the first one. -/
theorem Named.name_unique {flag other : Flag} (named : Named flag) (namedOther : Named other)
    {rest otherRest : Text} (same : flag.name ++ '[' :: rest = other.name ++ '[' :: otherRest) :
    flag.name = other.name ∧ rest = otherRest := by
  have cut {flag : Flag} (named : Named flag) (rest : Text) :
      cutUnescaped '[' (flag.name ++ '[' :: rest) = some (flag.name, rest) := by
    have passed : Passed '[' flag.name := Passed.of_plain fun c member =>
      ⟨ne_of_isNameMark (named.name c member) rfl, ne_of_isNameMark (named.name c member) rfl⟩
    exact passed.cut (by decide) rest
  have pieces := congrArg (cutUnescaped '[') same
  rw [cut named, cut namedOther, Option.some.injEq, Prod.mk.injEq] at pieces
  exact pieces

/-- The names of an option are told by its word, and what comes after them. -/
theorem flagSpec_unique {flag other : Flag} (named : Named flag) (namedOther : Named other)
    (same : flagSpec flag = flagSpec other) :
    flag.short = other.short ∧ flag.name = other.name ∧ flagBody flag = flagBody other := by
  have apart {flag other : Flag} {short : Char} (none : flag.short = none)
      (some : other.short = some short) : flagSpec flag ≠ flagSpec other := by
    rw [flagSpec_none none, flagSpec_some some]
    intro same
    have first := (quote_unique (by simp) (by simp) ((List.append_nil _).trans same)).1
    simp at first
  rcases shape : flag.short with _ | short <;> rcases shapeOther : other.short with _ | otherShort
  · rw [flagSpec_none shape, flagSpec_none shapeOther] at same
    have inside := List.append_cancel_left (quote_injective same)
    obtain ⟨names, bodies⟩ := named.name_unique namedOther inside
    exact ⟨rfl, names, congrArg ('[' :: ·) bodies⟩
  · exact absurd same (apart shape shapeOther)
  · exact absurd same.symm (apart shapeOther shape)
  · rw [flagSpec_some shape, flagSpec_some shapeOther] at same
    obtain ⟨exclusion, later⟩ := quote_unique (by simp) (by simp) same
    obtain ⟨rfl, names⟩ : short = otherShort ∧ flag.name = other.name := by simpa using exclusion
    rw [names] at later
    exact ⟨rfl, names, quote_injective (List.append_cancel_left later)⟩

/-- The word of an option tells everything that is essential about it. -/
theorem flagSpec_eq_iff {flag other : Flag} (named : Named flag) (namedOther : Named other) :
    flagSpec flag = flagSpec other ↔ flag.essential = other.essential := by
  constructor
  · intro same
    obtain ⟨shorts, names, bodies⟩ := flagSpec_unique named namedOther same
    obtain ⟨descriptions, takes, values⟩ := flagBody_unique bodies
    simp only [Flag.essential] at values ⊢
    rw [shorts, names, descriptions, takes]
    rw [takes] at values
    rw [values]
  · intro same
    rw [← flagSpec_essential flag, same, flagSpec_essential]

theorem map_flagSpec_unique {flags others : List Flag} (named : ∀ flag ∈ flags, Named flag)
    (namedOther : ∀ flag ∈ others, Named flag)
    (same : flags.map flagSpec = others.map flagSpec) :
    flags.map Flag.essential = others.map Flag.essential :=
  map_eq_map_of_tells (fun flag member other inside =>
    (flagSpec_eq_iff (named flag member) (namedOther other inside)).mp) same

theorem Target.helperName_inj {target : Target} {suffix other : Text} :
    target.helperName suffix = target.helperName other ↔ suffix = other :=
  List.append_right_inj _

/-- The name of a helper is longer than that of the function for any words. -/
theorem Target.helperName_ne_default (target : Target) (suffix : Text) :
    target.helperName suffix ≠ "_default" := fun same => by
  have lengths := congrArg List.length same
  simp [helperName] at lengths
  omega

/-- A reading tells the kind of trailing values. -/
theorem PositionalReading.Tells.kind_unique {target : Target} {kind other : Option Positional}
    {reading : PositionalReading} (tells : reading.Tells target kind)
    (tellsOther : reading.Tells target other) : kind = other := by
  have unlike (suffix : Text) := target.helperName_ne_default suffix
  have unlikeToo (suffix : Text) := (target.helperName_ne_default suffix).symm
  rcases kind with _ | kind <;> rcases other with _ | other
  case none.none => rfl
  case none.some =>
    cases other <;> simp only [PositionalReading.Tells] at tells tellsOther <;> simp_all
  case some.none =>
    cases kind <;> simp only [PositionalReading.Tells] at tells tellsOther <;> simp_all
  case some.some =>
    cases kind <;> cases other <;> simp only [PositionalReading.Tells] at tells tellsOther <;>
      simp_all [Target.helperName_inj]

theorem positionalSpec_injective {target : Target} {kind other : Option Positional}
    (same : positionalSpec target kind = positionalSpec target other) : kind = other := by
  obtain ⟨text, reading, word, reads, tells⟩ :=
    PositionalReading.exists_positionalSpec target kind
  obtain ⟨otherText, otherReading, otherWord, otherReads, tellsOther⟩ :=
    PositionalReading.exists_positionalSpec target other
  obtain rfl : text = otherText := by
    rw [same, otherWord, Option.some.injEq] at word
    exact word.symm
  obtain rfl := reads.unique otherReads
  exact tells.kind_unique tellsOther

theorem isWord_positionalSpec (target : Target) (kind : Option Positional) :
    IsWord (positionalSpec target kind) := by
  cases kind with
  | none => exact IsWord.quote _
  | some kind => cases kind <;> exact IsWord.quote _

/-- The words of trailing values are told from those of options by the character after the
quote. -/
def isTrailing (word : Text) : Bool :=
  word[1]? = some '*'

theorem isTrailing_flagSpec (flag : Flag) : isTrailing (flagSpec flag) = false := by
  rcases shape : flag.short with _ | short
  · rw [flagSpec_none shape]
    rfl
  · rw [flagSpec_some shape]
    rfl

theorem isTrailing_positionalSpec (target : Target) (kind : Option Positional) :
    isTrailing (positionalSpec target kind) = true := by
  cases kind with
  | none => rfl
  | some kind => cases kind <;> rfl

/-- Where one kind of words comes before another, the two parts are told apart. -/
theorem append_unique_of_marked {mark : Text → Bool} {first second other otherSecond : List Text}
    (unmarked : ∀ word ∈ first, mark word = false) (unmarkedOther : ∀ word ∈ other, mark word = false)
    (marked : ∀ word ∈ second, mark word = true) (markedOther : ∀ word ∈ otherSecond, mark word = true)
    (same : first ++ second = other ++ otherSecond) : first = other ∧ second = otherSecond := by
  have parts {first second : List Text} (unmarked : ∀ word ∈ first, mark word = false)
      (marked : ∀ word ∈ second, mark word = true) : (first ++ second).filter mark = second := by
    have none : first.filter mark = [] :=
      List.filter_eq_nil_iff.mpr fun word member => by simp [unmarked word member]
    rw [List.filter_append, none, List.nil_append, List.filter_eq_self.mpr marked]
  obtain rfl : second = otherSecond := by
    rw [← parts unmarked marked, same, parts unmarkedOther markedOther]
  exact ⟨List.append_cancel_right same, rfl⟩

theorem Target.leafSpecs_eq (target : Target) {command : Command}
    (leaf : command.isDispatch = false) :
    target.leafSpecs command =
      command.flags.map flagSpec ++ command.trailing?.toList.map (positionalSpec target) := by
  rw [leafSpecs, Command.trailing?, leaf]
  cases command.acceptsPositional <;> rfl

theorem Target.isWord_of_mem_leafSpecs {target : Target} {command : Command} {word : Text}
    (leaf : command.isDispatch = false) (named : ∀ flag ∈ command.flags, Named flag)
    (member : word ∈ target.leafSpecs command) : IsWord word := by
  rw [target.leafSpecs_eq leaf, List.mem_append, List.mem_map, List.mem_map] at member
  rcases member with ⟨flag, inside, rfl⟩ | ⟨kind, _, rfl⟩
  · exact (named flag inside).isWord
  · exact isWord_positionalSpec target kind

/-- The words of a command without subcommands tell those of its options from that of its
trailing values, and the kind of these. -/
theorem Target.leafSpecs_unique {target : Target} {command other : Command}
    (leaf : command.isDispatch = false) (leafOther : other.isDispatch = false)
    (same : target.leafSpecs command = target.leafSpecs other) :
    command.flags.map flagSpec = other.flags.map flagSpec ∧ command.trailing? = other.trailing? := by
  have options (flags : List Flag) : ∀ word ∈ flags.map flagSpec, isTrailing word = false := by
    intro word member
    obtain ⟨flag, _, rfl⟩ := List.mem_map.mp member
    exact isTrailing_flagSpec flag
  have values (kinds : List (Option Positional)) :
      ∀ word ∈ kinds.map (positionalSpec target), isTrailing word = true := by
    intro word member
    obtain ⟨kind, _, rfl⟩ := List.mem_map.mp member
    exact isTrailing_positionalSpec target kind
  rw [target.leafSpecs_eq leaf, target.leafSpecs_eq leafOther] at same
  obtain ⟨flags, trailing⟩ := append_unique_of_marked (options _) (options _) (values _) (values _) same
  refine ⟨flags, ?_⟩
  cases kind : command.trailing? <;> cases kindOther : other.trailing? <;>
    simp only [kind, kindOther, Option.toList, List.map_cons, List.map_nil, reduceCtorEq,
      List.cons.injEq, and_true] at trailing
  case none.none => rfl
  case some.some => rw [positionalSpec_injective trailing]

end Zsh

end TabCompletion
