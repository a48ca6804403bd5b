import TabCompletion.Command.Basic
import TabCompletion.Schema.Check

namespace TabCompletion

namespace Positional

def ofJson : Json → Checked Positional
  | .string word =>
    match ofWord? word with
    | some kind => .ok kind
    | none => .issue (.notAmong (all.map Positional.word)) (.string word)
  | value => .issue (.notAmong (all.map Positional.word)) value

def toJson (kind : Positional) : Json :=
  .string kind.word

end Positional

namespace Json

/-- The value of an optional part, or null. -/
def ofOption {α : Type} (write : α → Json) : Option α → Json
  | some value => write value
  | none => .null

def texts (list : List Text) : Json :=
  .array (list.map .string)

end Json

namespace Flag

def record : Text := "FlagDefinition"

def ofJson : Json → Checked Flag :=
  Schema.record record fun fields =>
    Flag.mk <$> Schema.required fields "name" Schema.text
      <*> Schema.optional fields "short" none (Schema.nullable Schema.character)
      <*> Schema.optional fields "description" [] Schema.text
      <*> Schema.optional fields "takes_value" false Schema.bool
      <*> Schema.optional fields "values" none (Schema.nullable (Schema.tuple Schema.text))

def toJson (flag : Flag) : Json :=
  .object
    [("name", .string flag.name),
      ("short", .ofOption (fun c => .string [c]) flag.short),
      ("description", .string flag.description),
      ("takes_value", .bool flag.takesValue),
      ("values", .ofOption .texts flag.values)]

end Flag

namespace Command

def record : Text := "CommandDefinition"

/-- The most commands that may stand one inside the other. -/
def maxLevels : Nat := 255

/-- A command with at most that many levels, its own counted. -/
def ofJsonWithin : Nat → Json → Checked Command
  | 0, value => .issue .tooDeep value
  | levels + 1, value =>
    Schema.record record
      (fun fields =>
        Command.mk <$> Schema.required fields "name" Schema.text
          <*> Schema.optional fields "description" [] Schema.text
          <*> Schema.optional fields "flags" [] (Schema.tuple Flag.ofJson)
          <*> Schema.optional fields "subcommands" [] (Schema.tuple (ofJsonWithin levels))
          <*> Schema.optional fields "accepts_positional" false Schema.bool
          <*> Schema.optional fields "positional_type" none (Schema.nullable Positional.ofJson))
      value

def ofJson : Json → Checked Command :=
  ofJsonWithin maxLevels

mutual

def toJson : Command → Json
  | ⟨name, description, flags, subcommands, acceptsPositional, positional⟩ =>
    .object
      [("name", .string name),
        ("description", .string description),
        ("flags", .array (flags.map Flag.toJson)),
        ("subcommands", .array (toItems subcommands)),
        ("accepts_positional", .bool acceptsPositional),
        ("positional_type", .ofOption Positional.toJson positional)]

def toItems : List Command → List Json
  | [] => []
  | command :: rest => toJson command :: toItems rest

end

end Command

end TabCompletion
