import TabCompletion.Proofs.FlagWord
import TabCompletion.Proofs.ScriptText

namespace TabCompletion.Zsh

/-- How a shell takes the next character of a script: as it stands outside of quotes, there right
after a backslash, in quotes of either kind, in double ones right after a backslash, or in a
comment. -/
inductive Mode where
  | bare
  | escaped
  | single
  | double
  | doubleEscaped
  | comment
deriving DecidableEq, Repr

/-- What has been read of a script: whole lines of words, and of the line that has not come to its
end the words and the characters of one more. The latest of each comes first. -/
structure Reader where
  lines : List (List Text)
  line : List Text
  word : Text
  mode : Mode
deriving DecidableEq, Repr

/-- The characters that are words of their own. -/
def isOperator (c : Char) : Bool :=
  ";&|<>()".toList.contains c

namespace Reader

/-- A reader at the beginning of a line. -/
def fresh (lines : List (List Text)) : Reader :=
  ⟨lines, [], [], .bare⟩

def take (mode : Mode) (c : Char) (reader : Reader) : Reader :=
  { reader with word := c :: reader.word, mode := mode }

/-- A word keeps its quotes and backslashes. -/
def endWord (reader : Reader) : Reader :=
  match reader.word with
  | [] => reader
  | c :: word => { reader with line := (c :: word).reverse :: reader.line, word := [] }

/-- A line without words is none. -/
def endLine (reader : Reader) : Reader :=
  match reader.line with
  | [] => { reader with mode := .bare }
  | word :: line =>
    { reader with lines := (word :: line).reverse :: reader.lines, line := [], mode := .bare }

/-- One more character outside of quotes. -/
def stepBare (reader : Reader) (c : Char) : Reader :=
  if c = '\n' then reader.endWord.endLine
  else if isWordEnd c then reader.endWord
  else if isOperator c then (reader.endWord.take .bare c).endWord
  else if c = '\\' then { reader with mode := .escaped }
  else if c = '\'' then reader.take .single c
  else if c = '"' then reader.take .double c
  else if c = '#' && reader.word.isEmpty then { reader with mode := .comment }
  else reader.take .bare c

/-- One more character. A backslash at the end of a line takes the end away. -/
def step (reader : Reader) (c : Char) : Reader :=
  match reader.mode with
  | .bare => reader.stepBare c
  | .escaped =>
    if c = '\n' then { reader with mode := .bare } else (reader.take .bare '\\').take .bare c
  | .single => reader.take (if c = '\'' then .bare else .single) c
  | .double =>
    if c = '\\' then { reader with mode := .doubleEscaped }
    else reader.take (if c = '"' then .bare else .double) c
  | .doubleEscaped =>
    if c = '\n' then { reader with mode := .double } else (reader.take .double '\\').take .double c
  | .comment => if c = '\n' then reader.endLine else reader

def read (reader : Reader) (text : Text) : Reader :=
  text.foldl step reader

theorem read_append (reader : Reader) (first second : Text) :
    reader.read (first ++ second) = (reader.read first).read second :=
  List.foldl_append

theorem read_cons (reader : Reader) (c : Char) (text : Text) :
    reader.read (c :: text) = (reader.step c).read text := rfl

end Reader

/-- The lines of a script, each as its words. There are none when the script ends in the middle of
a line or in quotes. -/
def shellLines (text : Text) : Option (List (List Text)) :=
  let reader := (Reader.fresh []).read text
  if reader = .fresh reader.lines then some reader.lines.reverse else none

/-- The characters that have a meaning of their own in a script. -/
def isMeta (c : Char) : Bool :=
  isWordEnd c || isOperator c || "\\'\"#$`*?[]\x7b\x7d~^=!,".toList.contains c

/-- A text of characters that all stand for themselves. -/
structure Bare (text : Text) : Prop where
  filled : text ≠ []
  plain : ∀ c ∈ text, isMeta c = false

theorem bare_iff {text : Text} : Bare text ↔ text ≠ [] ∧ (text.all fun c => !isMeta c) = true := by
  rw [List.all_eq_true]
  constructor
  · exact fun bare => ⟨bare.filled, fun c member => by rw [bare.plain c member]; rfl⟩
  · exact fun ⟨filled, plain⟩ => ⟨filled, fun c member => by simpa using plain c member⟩

instance (text : Text) : Decidable (Bare text) :=
  decidable_of_iff _ bare_iff.symm

/-- A text that goes on a word and does not end it. -/
structure Inside (text : Text) : Prop where
  filled : text ≠ []
  read : ∀ lines line word, (⟨lines, line, word, .bare⟩ : Reader).read text =
    ⟨lines, line, text.reverse ++ word, .bare⟩

/-- A character that a word goes on with wherever it stands. -/
def isInner (c : Char) : Bool :=
  !(isWordEnd c || isOperator c || "\\'\"#".toList.contains c)

theorem Reader.step_inner {c : Char} (inner : isInner c = true) (lines : List (List Text))
    (line : List Text) (word : Text) :
    (⟨lines, line, word, .bare⟩ : Reader).step c = ⟨lines, line, c :: word, .bare⟩ := by
  have apart {d : Char} (special : isInner d = false) : c ≠ d := by
    rintro rfl
    rw [inner] at special
    cases special
  obtain ⟨⟨end_, operator⟩, -⟩ : (isWordEnd c = false ∧ isOperator c = false) ∧ _ := by
    simpa [isInner] using inner
  have bare : (⟨lines, line, word, .bare⟩ : Reader).step c =
      (⟨lines, line, word, .bare⟩ : Reader).stepBare c := rfl
  have marked : c ≠ '#' := apart rfl
  rw [bare, Reader.stepBare, if_neg (apart rfl), end_, operator, if_neg Bool.false_ne_true,
    if_neg Bool.false_ne_true, if_neg (apart rfl), if_neg (apart rfl), if_neg (apart rfl),
    if_neg (by simp [marked])]
  rfl

theorem Bare.all_inner {text : Text} (bare : Bare text) : text.all isInner = true := by
  refine List.all_eq_true.mpr fun c member => ?_
  have plain := bare.plain c member
  simp only [isMeta, Bool.or_eq_false_iff, List.contains_eq_mem, decide_eq_false_iff_not] at plain
  obtain ⟨⟨ends, operator⟩, other⟩ := plain
  have marked : "\\'\"#".toList.contains c = false := by
    rw [List.contains_eq_mem, decide_eq_false_iff_not]
    exact fun inside => other (List.mem_append_left _ inside)
  rw [isInner, ends, operator, marked]
  rfl

namespace Inside

variable {first second text : Text}

theorem append (inside : Inside first) (insideSecond : Inside second) : Inside (first ++ second) where
  filled := List.append_ne_nil_of_left_ne_nil inside.filled second
  read lines line word := by
    rw [Reader.read_append, inside.read, insideSecond.read, List.reverse_append, List.append_assoc]

theorem of_inner (filled : text ≠ []) (inner : text.all isInner = true) : Inside text where
  filled := filled
  read lines line word := by
    clear filled
    induction text generalizing word with
    | nil => rfl
    | cons c rest ih =>
      rw [List.all_cons, Bool.and_eq_true] at inner
      rw [Reader.read_cons, Reader.step_inner inner.1, ih inner.2, List.reverse_cons, List.append_assoc,
        List.singleton_append]

theorem of_bare (bare : Bare text) : Inside text :=
  of_inner bare.filled bare.all_inner

/-- In quotes nothing ends a word, and a quote that stands for itself leaves them and comes back. -/
theorem read_quoted (text : Text) (lines : List (List Text)) (line : List Text) (word : Text) :
    (⟨lines, line, word, .single⟩ : Reader).read (text.flatMap quoteChar) =
      ⟨lines, line, (text.flatMap quoteChar).reverse ++ word, .single⟩ := by
  induction text generalizing word with
  | nil => rfl
  | cons c rest ih =>
    have first : (⟨lines, line, word, .single⟩ : Reader).read (quoteChar c) =
        ⟨lines, line, (quoteChar c).reverse ++ word, .single⟩ := by
      by_cases closes : c = '\''
      · subst closes
        rfl
      · have kept : quoteChar c = [c] := if_neg closes
        rw [kept, Reader.read_cons]
        simp [Reader.step, closes, Reader.take, Reader.read]
    rw [List.flatMap_cons, Reader.read_append, first, ih, List.reverse_append, List.append_assoc]

theorem quote (text : Text) : Inside (Zsh.quote text) where
  filled := List.cons_ne_nil _ _
  read lines line word := by
    have opened : Zsh.quote text = '\'' :: (text.flatMap quoteChar ++ ['\'']) := rfl
    have opening : (⟨lines, line, word, .bare⟩ : Reader).step '\'' =
        ⟨lines, line, '\'' :: word, .single⟩ := rfl
    have closing (word : Text) : (⟨lines, line, word, .single⟩ : Reader).read ['\''] =
        ⟨lines, line, '\'' :: word, .bare⟩ := rfl
    rw [opened, Reader.read_cons, opening, Reader.read_append, read_quoted, closing]
    simp

/-- Double quotes keep blanks together. -/
theorem doubleQuoted (literal : ∀ c ∈ text, c ≠ '"' ∧ c ≠ '\\') : Inside ("\"" ++ text ++ "\"") where
  filled := List.cons_ne_nil _ _
  read lines line word := by
    have opening (word : Text) : (⟨lines, line, word, .bare⟩ : Reader).read ['"'] =
        ⟨lines, line, '"' :: word, .double⟩ := rfl
    have inner (word : Text) : (⟨lines, line, word, .double⟩ : Reader).read text =
        ⟨lines, line, text.reverse ++ word, .double⟩ := by
      induction text generalizing word with
      | nil => rfl
      | cons c rest ih =>
        obtain ⟨unquoted, unescaped⟩ := literal c List.mem_cons_self
        have stays : (⟨lines, line, word, .double⟩ : Reader).step c = ⟨lines, line, c :: word, .double⟩ := by
          simp [Reader.step, unquoted, unescaped, Reader.take]
        rw [Reader.read_cons, stays, ih fun d member => literal d (List.mem_cons_of_mem c member)]
        simp
    have closing (word : Text) : (⟨lines, line, word, .double⟩ : Reader).read ['"'] =
        ⟨lines, line, '"' :: word, .bare⟩ := rfl
    have split : ("\"" ++ text ++ "\"" : Text) = ['"'] ++ text ++ ['"'] := rfl
    rw [split, Reader.read_append, Reader.read_append, opening, inner, closing]
    simp

/-- An option is declared by one word when the names that stand outside of quotes are bare. -/
theorem flagSpec {flag : Flag} (bare : ∀ short, flag.short = some short → Bare (short :: flag.name)) :
    Inside (flagSpec flag) := by
  cases shape : flag.short with
  | none =>
    rw [flagSpec_none shape]
    exact quote _
  | some short =>
    have names := (bare short shape).all_inner
    have inner : (nameList short flag.name).all isInner = true := by
      simp only [nameList, List.all_append, List.all_cons, Bool.and_eq_true] at names ⊢
      exact ⟨⟨⟨⟨rfl, names.1, rfl⟩, rfl⟩, names.2⟩, rfl⟩
    rw [flagSpec_some shape]
    exact (quote _).append ((of_inner (List.cons_ne_nil _ _) inner).append (quote _))

theorem positionalSpec (target : Target) (kind : Option Positional) :
    Inside (positionalSpec target kind) := by
  unfold Zsh.positionalSpec
  cases kind with
  | none => exact quote _
  | some kind => cases kind <;> exact quote _

end Inside

/-- A text of words and what parts them, from between two words to between two words. -/
def Spaced (text : Text) (words : List Text) : Prop :=
  ∀ lines line, (⟨lines, line, [], .bare⟩ : Reader).read text =
    ⟨lines, words.reverse ++ line, [], .bare⟩

/-- A text of whole lines. -/
def Reads (text : Text) (read : List (List Text)) : Prop :=
  ∀ lines, (Reader.fresh lines).read text = .fresh (read.reverse ++ lines)

namespace Reader

/-- The reader with further lines before those that it has read. -/
def after (before : List (List Text)) (reader : Reader) : Reader :=
  { reader with lines := reader.lines ++ before }

theorem endWord_after (reader : Reader) (before : List (List Text)) :
    (reader.after before).endWord = reader.endWord.after before := by
  obtain ⟨lines, line, word, mode⟩ := reader
  cases word <;> rfl

theorem endLine_after (reader : Reader) (before : List (List Text)) :
    (reader.after before).endLine = reader.endLine.after before := by
  obtain ⟨lines, line, word, mode⟩ := reader
  cases line <;> rfl

theorem stepBare_after (reader : Reader) (before : List (List Text)) (c : Char) :
    (reader.after before).stepBare c = (reader.stepBare c).after before := by
  have taken (mode : Mode) (reader : Reader) :
      (reader.after before).take mode c = (reader.take mode c).after before := rfl
  have word : (reader.after before).word = reader.word := rfl
  simp only [stepBare, endWord_after, endLine_after, taken, word, apply_ite (after before)]
  rfl

theorem step_after (reader : Reader) (before : List (List Text)) (c : Char) :
    (reader.after before).step c = (reader.step c).after before := by
  obtain ⟨lines, line, word, mode⟩ := reader
  cases mode with
  | bare => exact stepBare_after _ before c
  | single => rfl
  | escaped | double | doubleEscaped =>
    simp only [step, after, take]
    split <;> rfl
  | comment =>
    have ended := endLine_after ⟨lines, line, word, .comment⟩ before
    simp only [step, after] at ended ⊢
    split
    · exact ended
    · rfl

theorem read_after (reader : Reader) (before : List (List Text)) (text : Text) :
    (reader.after before).read text = (reader.read text).after before := by
  induction text generalizing reader with
  | nil => rfl
  | cons c rest ih => rw [read_cons, read_cons, step_after, ih]

theorem endWord_filled {word : Text} (filled : word ≠ []) (lines : List (List Text))
    (line : List Text) :
    (⟨lines, line, word, .bare⟩ : Reader).endWord = ⟨lines, word.reverse :: line, [], .bare⟩ := by
  obtain ⟨c, rest, rfl⟩ := List.exists_cons_of_ne_nil filled
  rfl

theorem endLine_filled {line : List Text} (filled : line ≠ []) (lines : List (List Text)) :
    (⟨lines, line, [], .bare⟩ : Reader).endLine = .fresh (line.reverse :: lines) := by
  obtain ⟨word, rest, rfl⟩ := List.exists_cons_of_ne_nil filled
  rfl

end Reader

namespace Spaced

variable {first second text word : Text} {words more : List Text}

theorem append (spaced : Spaced first words) (spacedSecond : Spaced second more) :
    Spaced (first ++ second) (words ++ more) := fun lines line => by
  rw [Reader.read_append, spaced, spacedSecond, List.reverse_append, List.append_assoc]

/-- A word and a blank after it. -/
theorem of_word (inside : Inside word) : Spaced (word ++ [' ']) [word] := fun lines line => by
  have filled : word.reverse ++ [] ≠ [] := by simpa using inside.filled
  have ended := Reader.endWord_filled filled lines line
  rw [Reader.read_append, inside.read]
  exact ended.trans (by simp)

theorem blanks (count : Nat) : Spaced (List.replicate count ' ') [] := by
  induction count with
  | zero => exact fun _ _ => rfl
  | succ count ih =>
    have first : Spaced [' '] [] := fun _ _ => rfl
    exact first.append ih

/-- Words of plain characters after an indentation. -/
theorem plain (count : Nat) (same : text = List.replicate count ' ' ++ words.flatMap fun word => word ++ [' '])
    (inner : (words.all fun word => !word.isEmpty && word.all isInner) = true) : Spaced text words := by
  rw [same]
  refine (blanks count).append ?_
  clear same
  induction words with
  | nil => exact fun _ _ => rfl
  | cons word words ih =>
    rw [List.all_cons, Bool.and_eq_true, Bool.and_eq_true, Bool.not_eq_true', List.isEmpty_eq_false_iff] at inner
    obtain ⟨⟨filled, first⟩, others⟩ := inner
    exact (of_word (.of_inner filled first)).append (ih others)

/-- A word right after which another one begins that is a single character. -/
theorem of_operator (inside : Inside word) {c : Char} (operator : isOperator c = true) :
    Spaced (word ++ [c]) [word, [c]] := fun lines line => by
  have filled : word.reverse ++ [] ≠ [] := by simpa using inside.filled
  have ended := Reader.endWord_filled filled lines line
  have apart {d : Char} (other : isOperator d = false) : c ≠ d := by
    rintro rfl
    rw [operator] at other
    cases other
  have blank : c ≠ ' ' := apart rfl
  have tab : c ≠ '\t' := apart rfl
  have newline : c ≠ '\n' := apart rfl
  have closed : (⟨lines, line, word.reverse ++ [], .bare⟩ : Reader).read [c] =
      (Reader.endWord (.take .bare c (.endWord ⟨lines, line, word.reverse ++ [], .bare⟩))) := by
    simp [Reader.read, Reader.step, Reader.stepBare, isWordEnd, blank, tab, newline, operator]
  rw [Reader.read_append, inside.read, closed, ended]
  simp [Reader.take, Reader.endWord]

theorem newline (spaced : Spaced text words) (filled : words ≠ []) :
    Reads (text ++ ['\n']) [words] := fun lines => by
  have reversed : words.reverse ++ [] ≠ [] := by simpa using filled
  rw [Reader.read_append, Reader.fresh, spaced]
  exact (Reader.endLine_filled reversed lines).trans (by simp)

/-- A line that ends in a word. -/
theorem line (spaced : Spaced text words) (inside : Inside word) :
    Reads (text ++ word ++ ['\n']) [words ++ [word]] := fun lines => by
  have filled : word.reverse ++ [] ≠ [] := by simpa using inside.filled
  have ended := Reader.endWord_filled filled lines (words.reverse ++ [])
  have closed : (⟨lines, words.reverse ++ [], word.reverse ++ [], .bare⟩ : Reader).read ['\n'] =
      (Reader.endWord ⟨lines, words.reverse ++ [], word.reverse ++ [], .bare⟩).endLine := rfl
  rw [Reader.read_append, Reader.read_append, Reader.fresh, spaced, inside.read, closed, ended,
    Reader.endLine_filled (List.cons_ne_nil _ _)]
  simp

/-- Words with a line for each of them, all but the last one continued, are on one line. -/
theorem row {rest : List Text} (spaced : Spaced text words) (inside : Inside word)
    (every : ∀ other ∈ rest, Inside other) :
    Reads (text ++ word ++ (chain continuation rest ++ ['\n'])) [words ++ word :: rest] := by
  induction rest generalizing text words word with
  | nil => exact spaced.line inside
  | cons next rest ih =>
    have split (after : Text) : continuation ++ after = [' '] ++ ("\\\n    ".toList ++ after) := rfl
    have onward : Spaced "\\\n    " [] := fun lines line => rfl
    have reads := ih ((spaced.append (of_word inside)).append onward) (every next List.mem_cons_self)
      fun other member => every other (List.mem_cons_of_mem next member)
    rw [chain_cons, split]
    simpa only [List.append_assoc, List.append_nil, List.cons_append, List.nil_append] using reads

end Spaced

namespace Reads

variable {first second : Text} {lines more : List (List Text)}

theorem append (reads : Reads first lines) (readsSecond : Reads second more) :
    Reads (first ++ second) (lines ++ more) := fun before => by
  rw [Reader.read_append, reads, readsSecond, List.reverse_append, List.append_assoc]

theorem cons {line : Text} {rest : List Text} (reads : Reads (line ++ ['\n']) lines)
    (readsRest : Reads (textOf rest) more) : Reads (textOf (line :: rest)) (lines ++ more) := by
  have split : textOf (line :: rest) = (line ++ ['\n']) ++ textOf rest := by simp
  rw [split]
  exact reads.append readsRest

theorem nil : Reads [] [] := fun _ => rfl

theorem blank {rest : List Text} (reads : Reads (textOf rest) lines) : Reads (textOf ([] :: rest)) lines := by
  have empty : Reads ([] ++ ['\n']) [] := fun _ => rfl
  exact empty.cons reads

theorem flatMap {α : Type} {items : List α} {text : α → List Text} {read : α → List (List Text)}
    (each : ∀ item ∈ items, Reads (textOf (text item)) (read item)) :
    Reads (textOf (items.flatMap text)) (items.flatMap read) := by
  induction items with
  | nil => exact fun lines => rfl
  | cons item items ih =>
    rw [List.flatMap_cons, List.flatMap_cons, textOf_append]
    exact (each item List.mem_cons_self).append
      (ih fun other member => each other (List.mem_cons_of_mem item member))

theorem map {α : Type} {items : List α} {text : α → Text} {words : α → List Text}
    (each : ∀ item ∈ items, Reads (text item ++ ['\n']) [words item]) :
    Reads (textOf (items.map text)) (items.map words) := by
  rw [List.map_eq_flatMap, List.map_eq_flatMap]
  exact .flatMap fun item member => .cons (each item member) .nil

theorem shellLines (reads : Reads first lines) : shellLines first = some lines := by
  have whole : (Reader.fresh []).read first = .fresh lines.reverse := by simpa using reads []
  unfold Zsh.shellLines
  rw [whole]
  simp [Reader.fresh]

/-- A comment goes to the end of its line. -/
theorem comment {text : Text} (inLine : '\n' ∉ text) : Reads ('#' :: text ++ ['\n']) [] := fun lines => by
  have passed : (⟨lines, [], [], .comment⟩ : Reader).read text = ⟨lines, [], [], .comment⟩ := by
    induction text with
    | nil => rfl
    | cons c rest ih =>
      rw [List.mem_cons, not_or] at inLine
      have stays : (⟨lines, [], [], .comment⟩ : Reader).step c = ⟨lines, [], [], .comment⟩ :=
        if_neg (Ne.symm inLine.1)
      rw [Reader.read_cons, stays, ih inLine.2]
  have opened : (Reader.fresh lines).step '#' = ⟨lines, [], [], .comment⟩ := rfl
  rw [List.cons_append, Reader.read_cons, opened, Reader.read_append, passed]
  rfl

/-- What is read of a text does not depend on the lines before it. -/
theorem of_shellLines (whole : Zsh.shellLines first = some lines) : Reads first lines := fun before => by
  unfold Zsh.shellLines at whole
  obtain ⟨ended, same⟩ : (Reader.fresh []).read first = .fresh ((Reader.fresh []).read first).lines ∧
      ((Reader.fresh []).read first).lines.reverse = lines := by simpa using whole
  have framed := Reader.read_after (.fresh []) before first
  rw [ended] at framed
  rw [← same, List.reverse_reverse]
  exact framed

end Reads

end TabCompletion.Zsh
