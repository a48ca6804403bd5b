import TabCompletion.Zsh.Escape

namespace TabCompletion.Zsh

/-- The text that a shell takes a word for, read inside single quotes or outside of them. In
quotes each character stands for itself, and outside a backslash for the character after it.
A word with open quotes, or with a backslash at its end, stands for nothing. -/
def unquoteFrom : Bool → Text → Option Text
  | quoted, [] => if quoted then none else some []
  | quoted, '\'' :: rest => unquoteFrom (!quoted) rest
  | false, ['\\'] => none
  | false, '\\' :: c :: rest => (unquoteFrom false rest).map (c :: ·)
  | quoted, c :: rest => (unquoteFrom quoted rest).map (c :: ·)

def unquote (word : Text) : Option Text :=
  unquoteFrom false word

theorem unquoteFrom_mark (quoted : Bool) (rest : Text) :
    unquoteFrom quoted ('\'' :: rest) = unquoteFrom (!quoted) rest := rfl

theorem unquoteFrom_escaped (c : Char) (rest : Text) :
    unquoteFrom false ('\\' :: c :: rest) = (unquoteFrom false rest).map (c :: ·) := rfl

theorem unquoteFrom_cons {quoted : Bool} {c : Char} (plain : c ≠ '\'')
    (literal : quoted = true ∨ c ≠ '\\') (rest : Text) :
    unquoteFrom quoted (c :: rest) = (unquoteFrom quoted rest).map (c :: ·) := by
  rw [unquoteFrom]
  · exact plain
  · rintro rfl rfl
    simp at literal
  · rintro d more rfl rfl
    simp at literal

theorem unquoteFrom_plain {text : Text} (plain : ∀ c ∈ text, c ≠ '\'' ∧ c ≠ '\\') (rest : Text) :
    unquoteFrom false (text ++ rest) = (unquoteFrom false rest).map (text ++ ·) := by
  induction text with
  | nil => simp
  | cons c text ih =>
    obtain ⟨unquoted, unescaped⟩ := plain c List.mem_cons_self
    rw [List.cons_append, unquoteFrom_cons unquoted (Or.inr unescaped),
      ih fun d member => plain d (List.mem_cons_of_mem c member), Option.map_map]
    rfl

theorem unquoteFrom_quoted (text rest : Text) :
    unquoteFrom true (text.flatMap quoteChar ++ '\'' :: rest) =
      (unquoteFrom false rest).map (text ++ ·) := by
  induction text with
  | nil => simp [unquoteFrom_mark]
  | cons c text ih =>
    by_cases quote : c = '\''
    · subst quote
      simp [quoteChar, unquoteFrom_mark, unquoteFrom_escaped, ih, Function.comp_def]
    · simp [quoteChar, quote, unquoteFrom_cons, ih, Function.comp_def]

/-- A quoted text stands for itself, whatever comes after it in the word. -/
theorem unquoteFrom_quote (text rest : Text) :
    unquoteFrom false (quote text ++ rest) = (unquoteFrom false rest).map (text ++ ·) := by
  have opened : quote text ++ rest = '\'' :: (text.flatMap quoteChar ++ '\'' :: rest) := by
    simp [quote]
  rw [opened, unquoteFrom_mark]
  exact unquoteFrom_quoted text rest

theorem unquote_quote (text : Text) : unquote (quote text) = some text := by
  have whole := unquoteFrom_quote text []
  have ended : unquoteFrom false [] = some [] := rfl
  simpa [unquote, ended] using whole

theorem not_mem_quote {c : Char} {text : Text} (absent : c ∉ text) (other : c ∉ "'\\".toList) :
    c ∉ quote text := by
  have apart : c ≠ '\'' ∧ c ≠ '\\' := by simpa using other
  simp only [quote, List.cons_append, List.mem_cons, List.mem_append, List.mem_flatMap,
    List.not_mem_nil, or_false, not_or, not_exists, not_and]
  refine ⟨apart.1, fun d member inside => ?_, apart.1⟩
  unfold quoteChar at inside
  split at inside
  · simp [apart] at inside
  · exact absent (List.mem_singleton.mp inside ▸ member)

/-- The text before the first unescaped character of a kind and the text after it, when there
is one. -/
def cutUnescaped (stop : Char) : Text → Option (Text × Text)
  | [] => none
  | '\\' :: c :: rest => (cutUnescaped stop rest).map (Prod.map ('\\' :: c :: ·) id)
  | c :: rest =>
    if c = stop then some ([], rest) else (cutUnescaped stop rest).map (Prod.map (c :: ·) id)

/-- The pieces of a text between the unescaped characters of a kind. -/
def splitUnescaped (separator : Char) : Text → List Text
  | [] => [[]]
  | '\\' :: c :: rest => (splitUnescaped separator rest).modifyHead ('\\' :: c :: ·)
  | c :: rest =>
    if c = separator then [] :: splitUnescaped separator rest
    else (splitUnescaped separator rest).modifyHead (c :: ·)

theorem cutUnescaped_cons {stop c : Char} (unescaped : c ≠ '\\') (rest : Text) :
    cutUnescaped stop (c :: rest) =
      if c = stop then some ([], rest) else (cutUnescaped stop rest).map (Prod.map (c :: ·) id) := by
  rw [cutUnescaped]
  rintro d more rfl
  exact absurd rfl unescaped

/-- Where a text is passed over no unescaped character of the kind is met. -/
def Passed (stop : Char) (text : Text) : Prop :=
  ∀ rest, cutUnescaped stop (text ++ rest) = (cutUnescaped stop rest).map (Prod.map (text ++ ·) id)

namespace Passed

theorem nil (stop : Char) : Passed stop [] := fun rest => by
  cases found : cutUnescaped stop rest <;> simp [found, Prod.map]

theorem append {stop : Char} {first second : Text} (passed : Passed stop first)
    (passedSecond : Passed stop second) : Passed stop (first ++ second) := fun rest => by
  rw [List.append_assoc, passed, passedSecond, Option.map_map]
  cases cutUnescaped stop rest <;> simp [Prod.map]

theorem char {stop c : Char} (unescaped : c ≠ '\\') (other : c ≠ stop) : Passed stop [c] := by
  intro rest
  rw [List.singleton_append, cutUnescaped_cons unescaped, if_neg other]
  rfl

theorem of_plain {stop : Char} {text : Text} (plain : ∀ c ∈ text, c ≠ '\\' ∧ c ≠ stop) :
    Passed stop text := by
  induction text with
  | nil => exact nil stop
  | cons c text ih =>
    obtain ⟨unescaped, other⟩ := plain c List.mem_cons_self
    exact (char unescaped other).append (ih fun d member => plain d (List.mem_cons_of_mem c member))

theorem escaped (stop c : Char) : Passed stop ['\\', c] := fun _ => rfl

theorem escapeWhere {special : Char → Bool} {stop : Char} (backslash : special '\\' = true)
    (stops : special stop = true) (text : Text) : Passed stop (Zsh.escapeWhere special text) := by
  induction text with
  | nil => exact nil stop
  | cons c text ih =>
    have first : Passed stop (if special c then ['\\', c] else [c]) := by
      by_cases marked : special c = true
      · rw [if_pos marked]
        exact escaped stop c
      · rw [if_neg marked]
        exact char (fun same => marked (same ▸ backslash)) (fun same => marked (same ▸ stops))
    exact first.append ih

theorem join {stop : Char} {separator : Text} (passed : Passed stop separator) {parts : List Text}
    (every : ∀ part ∈ parts, Passed stop part) : Passed stop (Text.join separator parts) := by
  induction parts with
  | nil => exact nil stop
  | cons part rest ih =>
    have later := ih fun other member => every other (List.mem_cons_of_mem part member)
    cases rest with
    | nil =>
      rw [Text.join, List.intercalate_singleton]
      exact every part List.mem_cons_self
    | cons next more =>
      rw [Text.join, List.intercalate_cons_cons]
      exact ((every part List.mem_cons_self).append passed).append later

/-- What is passed over comes before the first unescaped character after it. -/
theorem cut {stop : Char} {text : Text} (passed : Passed stop text) (proper : stop ≠ '\\')
    (rest : Text) : cutUnescaped stop (text ++ stop :: rest) = some (text, rest) := by
  rw [passed, cutUnescaped_cons proper, if_pos rfl]
  simp

end Passed

theorem splitUnescaped_cons {separator c : Char} (unescaped : c ≠ '\\') (rest : Text) :
    splitUnescaped separator (c :: rest) =
      if c = separator then [] :: splitUnescaped separator rest
      else (splitUnescaped separator rest).modifyHead (c :: ·) := by
  rw [splitUnescaped]
  rintro d more rfl
  exact absurd rfl unescaped

theorem splitUnescaped_escapeWhere {special : Char → Bool} {separator : Char}
    (backslash : special '\\' = true) (separates : special separator = true) (text rest : Text) :
    splitUnescaped separator (escapeWhere special text ++ rest) =
      (splitUnescaped separator rest).modifyHead (escapeWhere special text ++ ·) := by
  induction text with
  | nil => exact (congrFun List.modifyHead_id _).symm
  | cons c text ih =>
    by_cases marked : special c = true
    · have escaped : escapeWhere special (c :: text) = '\\' :: c :: escapeWhere special text := by
        simp [escapeWhere, marked]
      rw [escaped, List.cons_append, List.cons_append, splitUnescaped, ih, List.modifyHead_modifyHead]
      rfl
    · have plain : escapeWhere special (c :: text) = c :: escapeWhere special text := by
        simp [escapeWhere, marked]
      have unescaped : c ≠ '\\' := fun same => marked (same ▸ backslash)
      have other : c ≠ separator := fun same => marked (same ▸ separates)
      rw [plain, List.cons_append, splitUnescaped_cons unescaped, if_neg other, ih,
        List.modifyHead_modifyHead]
      rfl

/-- Escaped texts with separators between them are the pieces that the separators leave. -/
theorem splitUnescaped_join {special : Char → Bool} {separator : Char}
    (backslash : special '\\' = true) (separates : special separator = true)
    (proper : separator ≠ '\\') {texts : List Text} (filled : texts ≠ []) :
    splitUnescaped separator (Text.join [separator] (texts.map (escapeWhere special))) =
      texts.map (escapeWhere special) := by
  induction texts with
  | nil => exact absurd rfl filled
  | cons text later ih =>
    cases later with
    | nil =>
      have alone := splitUnescaped_escapeWhere backslash separates text []
      simpa [Text.join, splitUnescaped] using alone
    | cons next more =>
      have tail := ih (List.cons_ne_nil next more)
      rw [Text.join] at tail ⊢
      rw [List.map_cons, List.map_cons, List.intercalate_cons_cons, List.append_assoc,
        splitUnescaped_escapeWhere backslash separates, List.singleton_append,
        splitUnescaped_cons proper, if_pos rfl]
      rw [List.map_cons] at tail
      rw [tail]
      simp

end TabCompletion.Zsh
