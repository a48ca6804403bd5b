import TabCompletion.Number.Double
import TabCompletion.Text.Basic

namespace TabCompletion

/-- A JSON value. Whole numbers are kept apart from numbers with a fraction or an
exponent, and the fields of an object keep their order. -/
inductive Json where
  | null
  | bool (value : Bool)
  | int (value : Int)
  | double (value : Double)
  | string (value : Text)
  | array (items : List Json)
  | object (fields : List (Text × Json))
deriving Repr, BEq, Inhabited

namespace Json

mutual

/-- How many values stand one inside the other at most, the value itself counted. -/
def levels : Json → Nat
  | .array items => 1 + levelsOfItems items
  | .object fields => 1 + levelsOfFields fields
  | _ => 1

def levelsOfItems : List Json → Nat
  | [] => 0
  | item :: items => max (levels item) (levelsOfItems items)

def levelsOfField : Text × Json → Nat
  | (_, value) => levels value

def levelsOfFields : List (Text × Json) → Nat
  | [] => 0
  | field :: fields => max (levelsOfField field) (levelsOfFields fields)

end

/-- The value of the first field of that name. -/
def field? (name : Text) (fields : List (Text × Json)) : Option Json :=
  fields.lookup name

/-- A field set in an object: a new one goes to the end, an old one keeps its place. -/
def setField (name : Text) (value : Json) : List (Text × Json) → List (Text × Json)
  | [] => [(name, value)]
  | (other, old) :: rest =>
    if other = name then (name, value) :: rest else (other, old) :: setField name value rest

end Json

end TabCompletion
