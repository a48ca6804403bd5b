import TabCompletion.Json.Basic
import TabCompletion.Number.Shortest
import TabCompletion.Text.Quoted

namespace TabCompletion

/-- A step from a JSON value to one of its parts. -/
inductive Step where
  | field (name : Text)
  | item (index : Nat)
deriving DecidableEq, Repr

def Step.text : Step → Text
  | .field name => name
  | .item index => Text.ofNat index

/-- What is wrong with a value that a record cannot be read from. -/
inductive Flaw where
  | notRecord (record : Text)
  | missing
  | notString
  | tooShort
  | tooLong
  | notBoolean
  | unclearBoolean
  | notList
  | notTuple
  | notAmong (choices : List Text)
  | tooDeep
deriving DecidableEq, Repr

/-- A flaw, the way to the value that has it, and that value. -/
structure Issue where
  flaw : Flaw
  location : List Step
  value : Json
deriving Repr

namespace Flaw

def code : Flaw → Text
  | .notRecord _ => "model_type"
  | .missing => "missing"
  | .notString => "string_type"
  | .tooShort => "string_too_short"
  | .tooLong => "string_too_long"
  | .notBoolean => "bool_type"
  | .unclearBoolean => "bool_parsing"
  | .notList => "list_type"
  | .notTuple => "tuple_type"
  | .notAmong _ => "enum"
  | .tooDeep => "recursion_depth_exceeded"

/-- Choices in words: quoted, with commas between them and `or` before the last. -/
def alternatives : List Text → Text
  | [] => []
  | [choice] => choice.quoted
  | [choice, last] => choice.quoted ++ " or " ++ last.quoted
  | choice :: rest => choice.quoted ++ ", " ++ alternatives rest

def message : Flaw → Text
  | .notRecord record => "Input should be a valid dictionary or instance of " ++ record
  | .missing => "Field required"
  | .notString => "Input should be a valid string"
  | .tooShort => "String should have at least 1 character"
  | .tooLong => "String should have at most 1 character"
  | .notBoolean => "Input should be a valid boolean"
  | .unclearBoolean => "Input should be a valid boolean, unable to interpret input"
  | .notList => "Input should be a valid list"
  | .notTuple => "Input should be a valid tuple"
  | .notAmong choices => "Input should be " ++ alternatives choices
  | .tooDeep => "Recursion error - maximum validation depth exceeded"

end Flaw

namespace Json

mutual

/-- A value as issues quote it, all on one line. -/
def literal : Json → Text
  | .null => "None"
  | .bool value => if value then "True" else "False"
  | .int value => Text.ofInt value
  | .double value => value.text
  | .string value => value.quoted
  | .array items => "[" ++ literalItems items ++ "]"
  | .object fields => "\x7b" ++ literalFields fields ++ "\x7d"

def literalItems : List Json → Text
  | [] => []
  | [item] => literal item
  | item :: items => literal item ++ ", " ++ literalItems items

def literalField : Text × Json → Text
  | (name, value) => name.quoted ++ ": " ++ literal value

def literalFields : List (Text × Json) → Text
  | [] => []
  | [field] => literalField field
  | field :: fields => literalField field ++ ", " ++ literalFields fields

end

/-- The word for a value's type in an issue. -/
def typeWord : Json → Text
  | .null => "NoneType"
  | .bool _ => "bool"
  | .int _ => "int"
  | .double _ => "float"
  | .string _ => "str"
  | .array _ => "list"
  | .object _ => "dict"

end Json

namespace Text

/-- The longest beginning of at most that many UTF-8 bytes. -/
def takeBytes : Nat → Text → Text
  | _, [] => []
  | limit, c :: rest =>
    if c.utf8Size ≤ limit then c :: takeBytes (limit - c.utf8Size) rest else []

/-- A text of more than fifty bytes is cut in its middle: twenty-five bytes and
twenty-four remain, and no character is split. -/
def abridge (text : Text) : Text :=
  if text.byteCount ≤ 50 then text
  else takeBytes 25 text ++ "..." ++ (takeBytes 24 text.reverse).reverse

end Text

namespace Issue

/-- An issue on the console: the way to the value, if any, on a line of its own, then
the flaw with the value quoted. -/
def describe (issue : Issue) : Text :=
  let place : Text :=
    if issue.location.isEmpty then []
    else Text.join "." (issue.location.map Step.text) ++ "\n"
  place ++ "  " ++ issue.flaw.message ++ " [type=" ++ issue.flaw.code ++ ", input_value=" ++
    issue.value.literal.abridge ++ ", input_type=" ++ issue.value.typeWord ++ "]"

/-- The first line about a list of issues. -/
def headline (record : Text) (issues : List Issue) : Text :=
  Text.ofNat issues.length ++
    (if issues.length = 1 then " validation error for " else " validation errors for ").toList ++ record

def report (record : Text) (issues : List Issue) : Text :=
  Text.join "\n" (headline record issues :: issues.map describe)

end Issue

end TabCompletion
