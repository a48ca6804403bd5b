import TabCompletion.Json.Basic

namespace TabCompletion.Json

inductive Cause where
  | byteOrderMark
  | expectingValue
  | expectingName
  | expectingColon
  | expectingComma
  | extraData
  | unterminatedString
  | controlCharacter
  | invalidEscape
  | invalidUnitEscape
deriving DecidableEq, Repr

/-- The values that hold others. -/
inductive Container where
  | array
  | object
deriving DecidableEq, Repr

def Container.word : Container → Text
  | .array => "array"
  | .object => "object"

/-- Why a text is no JSON text. A place is told by the count of characters from there
to the end of the text. -/
inductive Fault where
  | misread (cause : Cause) (remaining : Nat)
  | tooManyDigits (count : Nat)
  | tooDeep (container : Container)
deriving DecidableEq, Repr

def fail {α : Type} (cause : Cause) (rest : Text) : Except Fault α :=
  .error (.misread cause rest.length)

def isSpace (c : Char) : Bool :=
  c = ' ' || c = '\t' || c = '\n' || c = '\r'

def skipSpace (text : Text) : Text :=
  text.dropWhile isSpace

def hexDigit? (c : Char) : Option Nat :=
  if '0' ≤ c && c ≤ '9' then some (c.toNat - 48)
  else if 'a' ≤ c && c ≤ 'f' then some (c.toNat - 87)
  else if 'A' ≤ c && c ≤ 'F' then some (c.toNat - 55)
  else none

/-- The unit that four hexadecimal digits stand for, and the text after them. -/
def hexUnit? : Text → Option (Nat × Text)
  | a :: b :: c :: d :: rest => do
    let unit := (((← hexDigit? a) * 16 + (← hexDigit? b)) * 16 + (← hexDigit? c)) * 16 + (← hexDigit? d)
    some (unit, rest)
  | _ => none

/-- The character of a unit that stands alone. A lone half of a pair is no character
and is replaced. -/
def unitChar (unit : Nat) : Char :=
  if 0xD800 ≤ unit && unit < 0xE000 then '\uFFFD' else Char.ofNat unit

def isHighUnit (unit : Nat) : Bool :=
  0xD800 ≤ unit && unit < 0xDC00

def isLowUnit (unit : Nat) : Bool :=
  0xDC00 ≤ unit && unit < 0xE000

/-- The text after a backslash and the letter u, when one begins there. -/
def unitMark? : Text → Option Text
  | '\\' :: 'u' :: rest => some rest
  | _ => none

/-- The character of an escape by units; the text begins with the letter u. A string
cannot end inside it, so a character must follow the digits. -/
def readUnits (text : Text) : Except Fault (Char × Text) :=
  match hexUnit? (text.drop 1) with
  | none | some (_, []) => fail .invalidUnitEscape text
  | some (high, rest) =>
    match unitMark? rest with
    | none => .ok (unitChar high, rest)
    | some second =>
      if isHighUnit high && !(second.drop 4).isEmpty then
        match hexUnit? second with
        | none => fail .invalidUnitEscape (rest.drop 1)
        | some (low, after) =>
          if isLowUnit low then
            .ok (Char.ofNat (0x10000 + (high - 0xD800) * 0x400 + (low - 0xDC00)), after)
          else .ok (unitChar high, rest)
      else .ok (unitChar high, rest)

/-- What a backslash and a letter other than u stand for. -/
def escapedChar? : Char → Option Char
  | '"' => some '"'
  | '\\' => some '\\'
  | '/' => some '/'
  | 'b' => some '\x08'
  | 'f' => some '\x0C'
  | 'n' => some '\n'
  | 'r' => some '\r'
  | 't' => some '\t'
  | _ => none

/-- The rest of a string whose opening quotation mark begins the given text. -/
def readStringFrom (opening : Text) : Nat → Text → Except Fault (Text × Text)
  | 0, _ => fail .unterminatedString opening
  | fuel + 1, text =>
    let more (c : Char) (rest : Text) : Except Fault (Text × Text) := do
      let (tail, after) ← readStringFrom opening fuel rest
      pure (c :: tail, after)
    match text with
    | [] => fail .unterminatedString opening
    | '"' :: rest => .ok ([], rest)
    | '\\' :: [] => fail .unterminatedString opening
    | '\\' :: 'u' :: rest => do
      let (c, after) ← readUnits ('u' :: rest)
      more c after
    | '\\' :: letter :: rest =>
      match escapedChar? letter with
      | some c => more c rest
      | none => fail .invalidEscape text
    | c :: rest => if c.toNat < 0x20 then fail .controlCharacter text else more c rest

/-- The string that begins the text, its opening quotation mark included. -/
def readString (text : Text) : Except Fault (Text × Text) :=
  readStringFrom text text.length (text.drop 1)

def isDigit (c : Char) : Bool :=
  '0' ≤ c && c ≤ '9'

def digitsValue (digits : Text) : Nat :=
  digits.foldl (fun n c => n * 10 + (c.toNat - 48)) 0

/-- The digits before the point: a zero stands alone. -/
def wholeDigits : Text → Text
  | '0' :: _ => "0"
  | text => text.takeWhile isDigit

/-- The point and the digits after it; without digits there is no fraction. -/
def fractionDigits : Text → Text
  | '.' :: rest => rest.takeWhile isDigit
  | _ => []

/-- The sign and the digits of an exponent, and the text after it; without digits
there is no exponent. -/
def exponent? : Text → Option (Int × Text)
  | e :: rest =>
    if e = 'e' || e = 'E' then
      let (negative, rest) : Bool × Text :=
        match rest with
        | '-' :: rest => (true, rest)
        | '+' :: rest => (false, rest)
        | rest => (false, rest)
      let digits := rest.takeWhile isDigit
      if digits.isEmpty then none
      else
        let size : Int := digitsValue digits
        some (if negative then -size else size, rest.drop digits.length)
    else none
  | [] => none

/-- Whole numbers have at most this many digits. -/
def maxDigits : Nat := 4300

/-- A number that begins the text. -/
def readNumber (text : Text) : Except Fault (Json × Text) :=
  let (negative, unsigned) : Bool × Text :=
    match text with
    | '-' :: rest => (true, rest)
    | _ => (false, text)
  let whole := wholeDigits unsigned
  if whole.isEmpty then fail .expectingValue text
  else
    let rest := unsigned.drop whole.length
    let fraction := fractionDigits rest
    let rest := if fraction.isEmpty then rest else rest.drop (fraction.length + 1)
    match exponent? rest, fraction with
    | none, [] =>
      if maxDigits < whole.length then .error (.tooManyDigits whole.length)
      else
        let size : Int := digitsValue whole
        .ok (.int (if negative then -size else size), rest)
    | exponent, fraction =>
      let (power, rest) := exponent.getD (0, rest)
      .ok (.double (Double.ofDecimal negative (digitsValue (whole ++ fraction)) (power - fraction.length)),
        rest)

/-- The words that stand for values. -/
def words : List (Text × Json) :=
  [("null", .null), ("true", .bool true), ("false", .bool false), ("NaN", .double .nan),
    ("Infinity", .double (.infinite false)), ("-Infinity", .double (.infinite true))]

def word? (text : Text) : Option (Json × Text) :=
  words.findSome? fun (word, value) => (text.rest? word).map (value, ·)

/-- At most this many arrays and objects stand one inside the other. -/
def maxNesting : Nat := 980

mutual

/-- A value that begins the text. The first number bounds the count of containers inside
one another. The fuel bounds the count of nested and neighbouring values, and no text
holds more of them than characters. -/
def readValue : Nat → Nat → Text → Except Fault (Json × Text)
  | _, 0, text => fail .expectingValue text
  | nesting, fuel + 1, text =>
    match nesting, text with
    | _, [] => fail .expectingValue text
    | _, '"' :: _ => do
      let (value, rest) ← readString text
      pure (.string value, rest)
    | 0, '[' :: _ => .error (.tooDeep .array)
    | 0, '{' :: _ => .error (.tooDeep .object)
    | nesting + 1, '[' :: rest =>
      match skipSpace rest with
      | ']' :: rest => .ok (.array [], rest)
      | rest => do
        let (items, rest) ← readItems nesting fuel rest
        pure (.array items, rest)
    | nesting + 1, '{' :: rest =>
      match skipSpace rest with
      | '}' :: rest => .ok (.object [], rest)
      | rest => do
        let (fields, rest) ← readFields nesting fuel [] rest
        pure (.object fields, rest)
    | _, text =>
      match word? text with
      | some (value, rest) => .ok (value, rest)
      | none => readNumber text

/-- The items of an array from one on that begins the text. -/
def readItems : Nat → Nat → Text → Except Fault (List Json × Text)
  | _, 0, text => fail .expectingValue text
  | nesting, fuel + 1, text => do
    let (item, rest) ← readValue nesting fuel text
    match skipSpace rest with
    | ']' :: rest => pure ([item], rest)
    | ',' :: rest => do
      let (items, rest) ← readItems nesting fuel (skipSpace rest)
      pure (item :: items, rest)
    | rest => fail .expectingComma rest

/-- The fields of an object: those read so far, and those from one on that begins the
text. A name that comes again sets its field anew. -/
def readFields : Nat → Nat → List (Text × Json) → Text → Except Fault (List (Text × Json) × Text)
  | _, 0, _, text => fail .expectingName text
  | nesting, fuel + 1, fields, text =>
    match text with
    | '"' :: _ => do
      let (name, rest) ← readString text
      match skipSpace rest with
      | ':' :: rest => do
        let (value, rest) ← readValue nesting fuel (skipSpace rest)
        let fields := setField name value fields
        match skipSpace rest with
        | '}' :: rest => pure (fields, rest)
        | ',' :: rest => readFields nesting fuel fields (skipSpace rest)
        | rest => fail .expectingComma rest
      | rest => fail .expectingColon rest
    | text => fail .expectingName text

end

/-- The value that a whole text stands for. -/
def read (text : Text) : Except Fault Json :=
  match text with
  | '\uFEFF' :: _ => fail .byteOrderMark text
  | _ => do
    let (value, rest) ← readValue maxNesting (text.length + 1) (skipSpace text)
    match skipSpace rest with
    | [] => pure value
    | rest => fail .extraData rest

def Cause.message : Cause → Text
  | .byteOrderMark => "Unexpected UTF-8 BOM (decode using utf-8-sig)"
  | .expectingValue => "Expecting value"
  | .expectingName => "Expecting property name enclosed in double quotes"
  | .expectingColon => "Expecting ':' delimiter"
  | .expectingComma => "Expecting ',' delimiter"
  | .extraData => "Extra data"
  | .unterminatedString => "Unterminated string starting at"
  | .controlCharacter => "Invalid control character at"
  | .invalidEscape => "Invalid \\escape"
  | .invalidUnitEscape => "Invalid \\uXXXX escape"

/-- The text of a fault in the given text. Lines and columns count from one, characters
from zero. -/
def Fault.message (text : Text) : Fault → Text
  | .misread cause remaining =>
    let before := text.take (text.length - remaining)
    let line := before.count '\n' + 1
    let column := (before.reverse.takeWhile (· != '\n')).length + 1
    cause.message ++ ": line " ++ Text.ofNat line ++ " column " ++ Text.ofNat column ++
      " (char " ++ Text.ofNat before.length ++ ")"
  | .tooManyDigits count =>
    "Exceeds the limit (" ++ Text.ofNat maxDigits ++
      " digits) for integer string conversion: value has " ++ Text.ofNat count ++
      " digits; use sys.set_int_max_str_digits() to increase the limit"
  | .tooDeep container =>
    "maximum recursion depth exceeded while decoding a JSON " ++ container.word ++
      " from a unicode string"

end TabCompletion.Json
