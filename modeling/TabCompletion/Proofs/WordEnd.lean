import TabCompletion.Proofs.Word
import TabCompletion.Zsh.Spec

namespace TabCompletion.Zsh

/-- The characters that end a word outside of quotes. -/
def isWordEnd (c : Char) : Bool :=
  c = ' ' || c = '\t' || c = '\n'

/-- The first word of a text as it is written, with its quotes and backslashes, and the text
after it. There is none when quotes stay open or the text ends in a backslash. -/
def cutWordFrom : Bool → Text → Option (Text × Text)
  | quoted, [] => if quoted then none else some ([], [])
  | quoted, '\'' :: rest => (cutWordFrom (!quoted) rest).map (Prod.map ('\'' :: ·) id)
  | false, ['\\'] => none
  | false, '\\' :: c :: rest => (cutWordFrom false rest).map (Prod.map ('\\' :: c :: ·) id)
  | quoted, c :: rest =>
    if !quoted && isWordEnd c then some ([], c :: rest)
    else (cutWordFrom quoted rest).map (Prod.map (c :: ·) id)

def cutWord (text : Text) : Option (Text × Text) :=
  cutWordFrom false text

theorem cutWordFrom_cons {quoted : Bool} {c : Char} (plain : c ≠ '\'')
    (literal : quoted = true ∨ c ≠ '\\') (rest : Text) :
    cutWordFrom quoted (c :: rest) =
      if !quoted && isWordEnd c then some ([], c :: rest)
      else (cutWordFrom quoted rest).map (Prod.map (c :: ·) id) := by
  rw [cutWordFrom]
  · exact plain
  · rintro rfl rfl
    simp at literal
  · rintro d more rfl rfl
    simp at literal

/-- A text over which a word goes on: its quotes are closed, and outside of them no character
ends the word. -/
def Unbroken (text : Text) : Prop :=
  ∀ rest, cutWord (text ++ rest) = (cutWord rest).map (Prod.map (text ++ ·) id)

namespace Unbroken

theorem append {first second : Text} (unbroken : Unbroken first) (unbrokenSecond : Unbroken second) :
    Unbroken (first ++ second) := fun rest => by
  rw [List.append_assoc, unbroken, unbrokenSecond, Option.map_map]
  cases cutWord rest <;> simp [Prod.map]

theorem of_plain {text : Text} (plain : ∀ c ∈ text, c ≠ '\'' ∧ c ≠ '\\' ∧ isWordEnd c = false) :
    Unbroken text := by
  induction text with
  | nil =>
    intro rest
    cases found : cutWord rest <;> simp [found, Prod.map]
  | cons c text ih =>
    obtain ⟨unquoted, unescaped, inside⟩ := plain c List.mem_cons_self
    have later := ih fun d member => plain d (List.mem_cons_of_mem c member)
    intro rest
    have step := later rest
    rw [cutWord] at step ⊢
    rw [List.cons_append, cutWordFrom_cons unquoted (Or.inr unescaped), step, inside]
    cases cutWord rest <;> simp [Prod.map]

theorem quoted (text rest : Text) :
    cutWordFrom true (text.flatMap quoteChar ++ '\'' :: rest) =
      (cutWord rest).map (Prod.map (text.flatMap quoteChar ++ ['\''] ++ ·) id) := by
  induction text with
  | nil => simp [cutWordFrom, cutWord]
  | cons c text ih =>
    by_cases quote : c = '\''
    · subst quote
      cases found : cutWord rest <;>
        simp [quoteChar, cutWordFrom, ih, found, Prod.map]
    · cases found : cutWord rest <;>
        simp [quoteChar, quote, cutWordFrom_cons, ih, found, Prod.map]

/-- In quotes nothing ends a word. -/
theorem quote (text : Text) : Unbroken (Zsh.quote text) := fun rest => by
  have opened : Zsh.quote text ++ rest = '\'' :: (text.flatMap quoteChar ++ '\'' :: rest) := by
    simp [Zsh.quote]
  rw [opened, cutWord, cutWordFrom, Bool.not_false, quoted]
  cases cutWord rest <;> simp [Zsh.quote, Prod.map]

/-- The word ends at the first character after it that ends words. -/
theorem cut {word : Text} (unbroken : Unbroken word) {c : Char} (ends : isWordEnd c = true)
    (rest : Text) : cutWord (word ++ c :: rest) = some (word, c :: rest) := by
  have here : cutWord (c :: rest) = some ([], c :: rest) := by
    rw [cutWord, cutWordFrom_cons (by rintro rfl; cases ends) (Or.inr (by rintro rfl; cases ends))]
    simp [ends]
  rw [unbroken, here]
  simp

end Unbroken

/-- A text that begins with a character that ends words. -/
def Parts (text : Text) : Prop :=
  ∃ c rest, text = c :: rest ∧ isWordEnd c = true

theorem Parts.append {text : Text} (parts : Parts text) (rest : Text) : Parts (text ++ rest) := by
  obtain ⟨c, more, rfl, ends⟩ := parts
  exact ⟨c, more ++ rest, rfl, ends⟩

/-- One word is read from a text, and one rest. -/
theorem Unbroken.unique {word other rest otherRest : Text} (unbroken : Unbroken word)
    (unbrokenOther : Unbroken other) (parts : Parts rest) (partsOther : Parts otherRest)
    (same : word ++ rest = other ++ otherRest) : word = other ∧ rest = otherRest := by
  obtain ⟨c, more, rfl, ends⟩ := parts
  obtain ⟨d, others, rfl, endsOther⟩ := partsOther
  have cut := congrArg cutWord same
  rw [unbroken.cut ends, unbrokenOther.cut endsOther, Option.some.injEq, Prod.mk.injEq] at cut
  exact cut

end TabCompletion.Zsh
