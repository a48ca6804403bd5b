import TabCompletion.Json.Basic
import TabCompletion.Number.Shortest
import TabCompletion.Text.Quoted

namespace TabCompletion.Json

/-- The escape of one unit of sixteen bits. -/
def unitEscape (unit : Nat) : Text :=
  "\\u" ++ Text.hex 4 unit

/-- One character inside a written string. All that is not printable ASCII is written
by its units of sixteen bits, so a character past U+FFFF is a pair. -/
def stringChar (c : Char) : Text :=
  if c = '"' then "\\\""
  else if c = '\\' then "\\\\"
  else if c = '\n' then "\\n"
  else if c = '\r' then "\\r"
  else if c = '\t' then "\\t"
  else if c = '\x08' then "\\b"
  else if c = '\x0C' then "\\f"
  else if 0x20 ≤ c.toNat && c.toNat < 0x7F then [c]
  else if c.toNat < 0x10000 then unitEscape c.toNat
  else
    let offset := c.toNat - 0x10000
    unitEscape (0xD800 + offset / 0x400) ++ unitEscape (0xDC00 + offset % 0x400)

def writeString (text : Text) : Text :=
  '"' :: text.flatMap stringChar ++ ['"']

/-- Numbers that are not finite are written as null. -/
def writeDouble : Double → Text
  | .finite negative mantissa exponent => (Double.finite negative mantissa exponent).text
  | _ => "null"

/-- A line end and the indentation of that depth. -/
def newLine (depth : Nat) : Text :=
  '\n' :: List.replicate (2 * depth) ' '

mutual

/-- The text of a value that begins at the given depth: each item and each field on a
line of its own, two spaces further in. -/
def writeAt (depth : Nat) : Json → Text
  | .null => "null"
  | .bool value => if value then "true" else "false"
  | .int value => Text.ofInt value
  | .double value => writeDouble value
  | .string value => writeString value
  | .array [] => "[]"
  | .array (item :: items) =>
    "[" ++ newLine (depth + 1) ++ writeAt (depth + 1) item ++ writeItems depth items
  | .object [] => "\x7b\x7d"
  | .object (field :: fields) =>
    "\x7b" ++ newLine (depth + 1) ++ writeField depth field ++ writeFields depth fields

/-- The items after the first one, and the end of the array. -/
def writeItems (depth : Nat) : List Json → Text
  | [] => newLine depth ++ "]"
  | item :: items =>
    "," ++ newLine (depth + 1) ++ writeAt (depth + 1) item ++ writeItems depth items

def writeField (depth : Nat) : Text × Json → Text
  | (name, value) => writeString name ++ ": " ++ writeAt (depth + 1) value

/-- The fields after the first one, and the end of the object. -/
def writeFields (depth : Nat) : List (Text × Json) → Text
  | [] => newLine depth ++ "\x7d"
  | field :: fields =>
    "," ++ newLine (depth + 1) ++ writeField depth field ++ writeFields depth fields

end

def write (value : Json) : Text :=
  writeAt 0 value

end TabCompletion.Json
