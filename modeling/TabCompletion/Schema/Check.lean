import TabCompletion.Schema.Issue

namespace TabCompletion

/-- A value read from JSON, or every issue that stands in its way. -/
def Checked (α : Type) : Type := Except (List Issue) α

namespace Checked

variable {α β : Type}

def ok (value : α) : Checked α := Except.ok value

def issues (list : List Issue) : Checked α := Except.error list

def issue (flaw : Flaw) (value : Json) : Checked α := issues [⟨flaw, [], value⟩]

/-- Both parts are checked, and the issues of the first part come first. -/
def both (f : Checked (α → β)) (x : Checked α) : Checked β :=
  match f, x with
  | .ok f, .ok x => ok (f x)
  | .ok _, .error later => issues later
  | .error first, .ok _ => issues first
  | .error first, .error later => issues (first ++ later)

instance : Functor Checked where
  map f x := both (ok f) x

instance : Applicative Checked where
  pure := ok
  seq f x := both f (x ())

/-- The issues of a part, seen from the whole. -/
def under (step : Step) : Checked α → Checked α
  | .ok value => ok value
  | .error list => issues (list.map fun i => { i with location := step :: i.location })

end Checked

namespace Schema

variable {α : Type}

def text : Json → Checked Text
  | .string value => .ok value
  | value => .issue .notString value

/-- A text of exactly one character. -/
def character : Json → Checked Char
  | .string [c] => .ok c
  | .string [] => .issue .tooShort (.string [])
  | .string long => .issue .tooLong (.string long)
  | value => .issue .notString value

def falseWords : List Text := ["0", "off", "f", "false", "n", "no"]

def trueWords : List Text := ["1", "on", "t", "true", "y", "yes"]

/-- Zero and one are booleans. Other whole numbers are unclear, and those outside 64
bits are no booleans at all. -/
def wholeAsBool (value : Json) (number : Int) : Checked Bool :=
  if number = 0 then .ok false
  else if number = 1 then .ok true
  else .issue .unclearBoolean value

/-- Two to the 63rd: a signed number of 64 bits is below it, and not below its negative. -/
def wordBound : Int := 9223372036854775808

/-- Booleans are also read from zero and one and from a few words in either case. -/
def bool (value : Json) : Checked Bool :=
  match value with
  | .bool truth => .ok truth
  | .string word =>
    let word := word.map Char.toLower
    if falseWords.contains word then .ok false
    else if trueWords.contains word then .ok true
    else .issue .unclearBoolean value
  | .int number =>
    if -wordBound ≤ number && number < wordBound then wholeAsBool value number
    else .issue .notBoolean value
  | .double number =>
    match number.toInt? with
    | some number =>
      if -wordBound < number && number < wordBound then wholeAsBool value number
      else .issue .notBoolean value
    | none => .issue .notBoolean value
  | _ => .issue .notBoolean value

def nullable (check : Json → Checked α) : Json → Checked (Option α)
  | .null => .ok none
  | value => some <$> check value

/-- Each item is checked, and its issues tell its place. -/
def items (check : Json → Checked α) (index : Nat) : List Json → Checked (List α)
  | [] => .ok []
  | item :: rest =>
    List.cons <$> (check item).under (.item index) <*> items check (index + 1) rest

def list (check : Json → Checked α) : Json → Checked (List α)
  | .array values => items check 0 values
  | value => .issue .notList value

def tuple (check : Json → Checked α) : Json → Checked (List α)
  | .array values => items check 0 values
  | value => .issue .notTuple value

/-- A field that may be absent. -/
def optional (fields : List (Text × Json)) (name : Text) (absent : α) (check : Json → Checked α) :
    Checked α :=
  match Json.field? name fields with
  | some value => (check value).under (.field name)
  | none => .ok absent

/-- A field that may not be absent. -/
def required (fields : List (Text × Json)) (name : Text) (check : Json → Checked α) : Checked α :=
  match Json.field? name fields with
  | some value => (check value).under (.field name)
  | none => (Checked.issue .missing (.object fields)).under (.field name)

/-- The fields of a record; unknown ones are passed over. -/
def record (name : Text) (read : List (Text × Json) → Checked α) : Json → Checked α
  | .object fields => read fields
  | value => .issue (.notRecord name) value

end Schema

end TabCompletion
