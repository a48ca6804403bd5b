import TabCompletion.Proofs.Essential

namespace TabCompletion.Zsh

/-- A text that is one word from its beginning to its end, with its quotes closed. -/
def OneWord (text : Text) : Prop :=
  cutWord text = some (text, [])

instance (text : Text) : Decidable (OneWord text) :=
  inferInstanceAs (Decidable (_ = _))

/-- Where a shell stands inside a word: outside of quotes, there right after a backslash, or in
quotes. -/
inductive Standing where
  | outside
  | escaped
  | quoted
deriving DecidableEq, Repr

namespace Standing

/-- Where one more character of the word leads. There is no way on where it ends the word. -/
def next : Standing → Char → Option Standing
  | quoted, c => some (if c = '\'' then outside else quoted)
  | escaped, _ => some outside
  | outside, c =>
    if c = '\'' then some quoted
    else if c = '\\' then some escaped
    else if isWordEnd c then none
    else some outside

def read (standing : Standing) : Text → Option Standing
  | [] => some standing
  | c :: rest => (standing.next c).bind fun later => later.read rest

theorem read_append (standing : Standing) (first second : Text) :
    standing.read (first ++ second) = (standing.read first).bind fun later => later.read second := by
  induction first generalizing standing with
  | nil => rfl
  | cons c first ih =>
    rw [List.cons_append, read, read]
    cases standing.next c with
    | none => rfl
    | some later => exact ih later

/-- Where a word is read on with its quotes open or closed. -/
def ofQuoted : Bool → Standing
  | true => quoted
  | false => outside

theorem next_outside {c : Char} (unquoted : c ≠ '\'') (unescaped : c ≠ '\\') :
    outside.next c = if isWordEnd c then none else some outside := by
  rw [next, if_neg unquoted, if_neg unescaped]

theorem map_cons_eq_some_iff {c : Char} {rest : Text} {cut : Option (Text × Text)} :
    cut.map (Prod.map (c :: ·) id) = some (c :: rest, []) ↔ cut = some (rest, []) := by
  cases cut with
  | none => simp
  | some parts => simp [Prod.map, Prod.ext_iff]

/-- A whole text is one word when reading it ends outside of quotes. -/
theorem cutWordFrom_eq_iff (isQuoted : Bool) (text : Text) :
    cutWordFrom isQuoted text = some (text, []) ↔ (ofQuoted isQuoted).read text = some outside := by
  -- A blank outside of quotes, where the word is cut, is what the reading comes to a halt at.
  fun_induction cutWordFrom isQuoted text with
  | case1 => simp [ofQuoted, read]
  | case2 isQuoted closed =>
    rw [Bool.not_eq_true] at closed
    subst closed
    simp [ofQuoted, read]
  | case3 isQuoted rest ih =>
    rw [map_cons_eq_some_iff, ih]
    cases isQuoted <;> rfl
  | case4 => simp [ofQuoted, read, next]
  | case5 c rest ih =>
    have prepended : (Prod.map ('\\' :: c :: ·) id : Text × Text → Text × Text) =
        Prod.map ('\\' :: ·) id ∘ Prod.map (c :: ·) id := rfl
    rw [prepended, ← Option.map_map, map_cons_eq_some_iff, map_cons_eq_some_iff, ih]
    rfl
  | case6 isQuoted c rest unquoted alone pair ends =>
    simp only [Bool.and_eq_true, Bool.not_eq_true'] at ends
    obtain ⟨rfl, ends⟩ := ends
    have unescaped : c ≠ '\\' := by
      rintro rfl
      cases ends
    have ended : outside.next c = none := by rw [next_outside unquoted unescaped, if_pos ends]
    simp [ofQuoted, read, ended]
  | case7 isQuoted c rest unquoted alone pair inside ih =>
    have passed : (ofQuoted isQuoted).next c = some (ofQuoted isQuoted) := ?_
    · rw [map_cons_eq_some_iff, ih, read, passed]
      rfl
    cases isQuoted with
    | true => exact congrArg some (if_neg unquoted)
    | false =>
      have unescaped : c ≠ '\\' := by
        rintro rfl
        cases rest with
        | nil => exact alone rfl rfl rfl
        | cons d more => exact pair d more rfl rfl rfl
      exact (next_outside unquoted unescaped).trans (if_neg inside)

/-- Inside quotes a quoted text is passed over. -/
theorem read_quoteChars (text : Text) : quoted.read (text.flatMap quoteChar) = some quoted := by
  induction text with
  | nil => rfl
  | cons c text ih =>
    rw [List.flatMap_cons, read_append]
    by_cases quote : c = '\''
    · subst quote
      exact ih
    · simp [quoteChar, quote, read, next, ih]

theorem read_quote (text : Text) : outside.read (quote text) = some outside := by
  have opened : quote text = '\'' :: (text.flatMap quoteChar ++ ['\'']) := rfl
  have first : outside.next '\'' = some quoted := rfl
  rw [opened, read, first, Option.bind_some, read_append, read_quoteChars]
  rfl

/-- Where nothing is quoted or escaped, a word goes on until a character ends it. -/
theorem read_plain {text : Text} (plain : ∀ c ∈ text, c ≠ '\'' ∧ c ≠ '\\') :
    outside.read text = if text.any isWordEnd then none else some outside := by
  induction text with
  | nil => rfl
  | cons c text ih =>
    obtain ⟨unquoted, unescaped⟩ := plain c List.mem_cons_self
    rw [read, next_outside unquoted unescaped, List.any_cons]
    cases isWordEnd c with
    | true => rfl
    | false => simpa using ih fun d member => plain d (List.mem_cons_of_mem c member)

end Standing

open Standing (outside escaped quoted)

theorem oneWord_iff (text : Text) : OneWord text ↔ outside.read text = some outside :=
  Standing.cutWordFrom_eq_iff false text

theorem oneWord_quote_append (text rest : Text) : OneWord (quote text ++ rest) ↔ OneWord rest := by
  rw [oneWord_iff, oneWord_iff, Standing.read_append, Standing.read_quote]
  rfl

/-- Before a quoted text stands a word of its own, or one whose last quote is closed by the one that
should open the text; then the text has to be a word from there. -/
theorem oneWord_append_quote {first : Text} (settled : outside.read first ≠ some escaped) (text : Text) :
    OneWord (first ++ quote text) ↔ OneWord first ∨
      OneWord (first ++ ['\'']) ∧ OneWord (text.flatMap quoteChar ++ ['\'']) := by
  have opened : quote text = '\'' :: (text.flatMap quoteChar ++ ['\'']) := rfl
  simp only [oneWord_iff, Standing.read_append]
  cases stands : outside.read first with
  | none => simp
  | some standing =>
    cases standing with
    | outside => simp [Standing.read_quote]
    | escaped => exact absurd stands settled
    | quoted => simp [opened, Standing.read, Standing.next, Standing.read_append]

/-- The two names of an option that stand outside of quotes. -/
def nameList (short : Char) (name : Text) : Text :=
  "\x7b-" ++ [short] ++ ",--" ++ name ++ "\x7d"

theorem nameList_settled (short : Char) (name : Text) :
    outside.read (nameList short name) ≠ some escaped := by
  rw [nameList, Standing.read_append]
  cases outside.read ("\x7b-".toList ++ [short] ++ ",--" ++ name) with
  | none => simp
  | some standing => cases standing <;> decide

theorem read_nameList {short : Char} {name : Text} (plain : ∀ c ∈ short :: name, c ≠ '\'' ∧ c ≠ '\\') :
    outside.read (nameList short name) =
      if (short :: name).any isWordEnd then none else some outside := by
  have marks : ∀ c ∈ nameList short name, c ≠ '\'' ∧ c ≠ '\\' := fun c member => by
    simp [nameList] at member
    grind
  have ends : (nameList short name).any isWordEnd = (short :: name).any isWordEnd := by
    simp [nameList, isWordEnd]
  rw [Standing.read_plain marks, ends]

/-- An option without an alias is declared by one word. With one the names stand outside of quotes a
second time: the text is one word when they are, or when they leave a quote open that is closed where
the description should open its own, and the description is a word from there. Names without quotes
and backslashes are one word when none of their characters ends a word. -/
theorem flagSpec_oneWord (flag : Flag) :
    (flag.short = none → OneWord (flagSpec flag)) ∧
    ∀ short, flag.short = some short →
      (OneWord (flagSpec flag) ↔ OneWord (nameList short flag.name) ∨
        OneWord (nameList short flag.name ++ ['\'']) ∧
          OneWord ((flagBody flag).flatMap quoteChar ++ ['\''])) ∧
      ((∀ c ∈ short :: flag.name, c ≠ '\'' ∧ c ≠ '\\') →
        (OneWord (flagSpec flag) ↔ ∀ c ∈ short :: flag.name, isWordEnd c = false)) := by
  constructor
  · intro plain
    rw [flagSpec_none plain, oneWord_iff]
    exact Standing.read_quote _
  · intro short shape
    have whole : OneWord (flagSpec flag) ↔ OneWord (nameList short flag.name) ∨
        OneWord (nameList short flag.name ++ ['\'']) ∧
          OneWord ((flagBody flag).flatMap quoteChar ++ ['\'']) := by
      rw [flagSpec_some shape, oneWord_quote_append]
      exact oneWord_append_quote (nameList_settled short flag.name) (flagBody flag)
    refine ⟨whole, fun plain => ?_⟩
    have endless : (∀ c ∈ short :: flag.name, isWordEnd c = false) ↔
        (short :: flag.name).any isWordEnd = false := by
      simp only [List.any_eq_false, Bool.not_eq_true]
    rw [whole, endless, oneWord_iff, oneWord_iff, Standing.read_append, read_nameList plain]
    cases (short :: flag.name).any isWordEnd <;> simp [Standing.read, Standing.next]

/-- A blank in a name that has an alias, and a quote in one, make no single word. -/
theorem flagSpec_breaks :
    cutWord (flagSpec ⟨"dry run", some 'n', [], false, none⟩) =
        some ("'(-n --dry run)'\x7b-n,--dry".toList, " run\x7d'[]'".toList) ∧
      cutWord (flagSpec ⟨"it's", some 'i', [], false, none⟩) = none ∧
      ¬ ∀ flag : Flag, OneWord (flagSpec flag) := by
  have spaced : cutWord (flagSpec ⟨"dry run", some 'n', [], false, none⟩) =
      some ("'(-n --dry run)'\x7b-n,--dry".toList, " run\x7d'[]'".toList) := by decide
  refine ⟨spaced, by decide, fun every => ?_⟩
  have one := every ⟨"dry run", some 'n', [], false, none⟩
  rw [OneWord, spaced] at one
  exact absurd one (by decide)

/-- The quote in the name is closed by the one before the description, in which there is another. -/
theorem flagSpec_oneWord_quotes :
    let flag : Flag := ⟨"it's", some 'i', "isn't", false, none⟩
    flag.short = some 'i' ∧ OneWord (flagSpec flag) ∧ ¬ OneWord (nameList 'i' flag.name) := by
  intro flag
  refine ⟨rfl, ?_, by decide⟩
  exact (((flagSpec_oneWord flag).2 'i' rfl).1).mpr (Or.inr ⟨by decide, by decide⟩)

end TabCompletion.Zsh
