import TabCompletion.Text.Printable

namespace TabCompletion

namespace Text

/-- The hexadecimal digits of a number, filled up with zeros to a least width. -/
def hex (width n : Nat) : Text :=
  let digits := Nat.toDigits 16 n
  List.replicate (width - digits.length) '0' ++ digits

/-- One character inside a quoted text with the given quotation mark. -/
def quotedChar (mark c : Char) : Text :=
  if c = mark || c = '\\' then ['\\', c]
  else if c = '\n' then "\\n"
  else if c = '\r' then "\\r"
  else if c = '\t' then "\\t"
  else if isPrintable c then [c]
  else if c.toNat < 0x100 then "\\x" ++ hex 2 c.toNat
  else if c.toNat < 0x10000 then "\\u" ++ hex 4 c.toNat
  else "\\U" ++ hex 8 c.toNat

/-- The mark that a quoted text stands between: the single one, unless the text
has a single and no double quotation mark. -/
def quotationMark (text : Text) : Char :=
  if text.contains '\'' && !text.contains '"' then '"' else '\''

/-- A text as messages show it: between quotation marks, on one line, in
printable characters only. -/
def quoted (text : Text) : Text :=
  let mark := text.quotationMark
  mark :: text.flatMap (quotedChar mark) ++ [mark]

end Text

end TabCompletion
