import TabCompletion.Text.Basic

namespace TabCompletion.Zsh

/-- A backslash before every character that is special. -/
def escapeWhere (special : Char → Bool) (text : Text) : Text :=
  text.flatMap fun c => if special c then ['\\', c] else [c]

/-- The characters that end or split the description of an option or a menu entry, and
the backslash. -/
def isDescriptionSpecial (c : Char) : Bool :=
  c = '\\' || c = '[' || c = ']' || c = ':'

/-- The characters that end or split a list of candidates, and the backslash. -/
def isValueSpecial (c : Char) : Bool :=
  c = '\\' || c = ' ' || c = '(' || c = ')'

def escapeDescription (text : Text) : Text :=
  escapeWhere isDescriptionSpecial text

def escapeValue (text : Text) : Text :=
  escapeWhere isValueSpecial text

/-- A quote inside single quotes closes them, stands escaped, and opens them again. -/
def quoteChar (c : Char) : Text :=
  if c = '\'' then "'\\''" else [c]

/-- One shell word that stands for the text as it is. -/
def quote (text : Text) : Text :=
  '\'' :: text.flatMap quoteChar ++ ['\'']

/-- The text without the backslashes of an escape. A lone backslash at the end is kept. -/
def unescape : Text → Text
  | [] => []
  | '\\' :: c :: rest => c :: unescape rest
  | c :: rest => c :: unescape rest

theorem unescape_escapeWhere (special : Char → Bool) (backslash : special '\\' = true) (text : Text) :
    unescape (escapeWhere special text) = text := by
  induction text with
  | nil => rfl
  | cons c rest ih =>
    by_cases h : special c = true
    · simpa [escapeWhere, h, unescape] using ih
    · have other : c ≠ '\\' := by
        rintro rfl
        exact h backslash
      have step (tail : Text) : unescape (c :: tail) = c :: unescape tail := by
        rw [unescape]
        rintro d rest rfl
        exact absurd rfl other
      simpa [escapeWhere, h, step] using ih

theorem unescape_escapeDescription (text : Text) : unescape (escapeDescription text) = text :=
  unescape_escapeWhere _ rfl text

theorem unescape_escapeValue (text : Text) : unescape (escapeValue text) = text :=
  unescape_escapeWhere _ rfl text

end TabCompletion.Zsh
