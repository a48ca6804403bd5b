import TabCompletion.Command.Schema

namespace TabCompletion

/-- What the user decides about the installation: whether the startup file may be edited,
and where the script goes. -/
structure CompletionSettings where
  autoConfigure : Bool := true
  installDir : Option Text := none
deriving DecidableEq, Repr

/-- All settings. Fields that mean nothing yet are kept in their order. -/
structure Settings where
  completion : CompletionSettings := {}
  others : List (Text × Json) := []
deriving Repr

namespace CompletionSettings

def record : Text := "CompletionConfig"

def ofJson : Json → Checked CompletionSettings :=
  Schema.record record fun fields =>
    CompletionSettings.mk <$> Schema.optional fields "auto_configure" true Schema.bool
      <*> Schema.optional fields "install_dir" none (Schema.nullable Schema.text)

def toJson (settings : CompletionSettings) : Json :=
  .object
    [("auto_configure", .bool settings.autoConfigure),
      ("install_dir", .ofOption .string settings.installDir)]

end CompletionSettings

namespace Settings

def record : Text := "GlobalConfig"

def completionField : Text := "completion"

def ofJson : Json → Checked Settings :=
  Schema.record record fun fields =>
    Settings.mk <$> Schema.optional fields completionField {} CompletionSettings.ofJson
      <*> pure (fields.filter fun field => field.1 != completionField)

def toJson (settings : Settings) : Json :=
  .object ((completionField, settings.completion.toJson) :: settings.others)

end Settings

end TabCompletion
