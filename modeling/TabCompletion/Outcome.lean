import TabCompletion.Command.Schema

namespace TabCompletion

/-- What an installation came to. The installed path is set once the script is written,
the backup path once a foreign script is copied aside, and the instructions when the
startup file is left to the user. -/
structure InstallOutcome where
  success : Bool
  message : Text
  installedPath : Option Text := none
  backupPath : Option Text := none
  configured : Option Bool := none
  instructions : Option (List Text) := none
deriving DecidableEq, Repr

/-- What a removal came to. -/
structure UninstallOutcome where
  success : Bool
  message : Text
deriving DecidableEq, Repr

/-- The shell found in the environment, and that shell again when it is supported. -/
structure Detection where
  shell : Option Text
  detected : Option Text
deriving DecidableEq, Repr

namespace InstallOutcome

def record : Text := "InstallationResult"

def ofJson : Json → Checked InstallOutcome :=
  Schema.record record fun fields =>
    InstallOutcome.mk <$> Schema.required fields "success" Schema.bool
      <*> Schema.required fields "message" Schema.text
      <*> Schema.optional fields "installed_path" none (Schema.nullable Schema.text)
      <*> Schema.optional fields "backup_path" none (Schema.nullable Schema.text)
      <*> Schema.optional fields "configured" none (Schema.nullable Schema.bool)
      <*> Schema.optional fields "instructions" none (Schema.nullable (Schema.list Schema.text))

def toJson (outcome : InstallOutcome) : Json :=
  .object
    [("success", .bool outcome.success),
      ("message", .string outcome.message),
      ("installed_path", .ofOption .string outcome.installedPath),
      ("backup_path", .ofOption .string outcome.backupPath),
      ("configured", .ofOption .bool outcome.configured),
      ("instructions", .ofOption .texts outcome.instructions)]

end InstallOutcome

namespace UninstallOutcome

def record : Text := "UninstallResult"

def ofJson : Json → Checked UninstallOutcome :=
  Schema.record record fun fields =>
    UninstallOutcome.mk <$> Schema.required fields "success" Schema.bool
      <*> Schema.required fields "message" Schema.text

def toJson (outcome : UninstallOutcome) : Json :=
  .object [("success", .bool outcome.success), ("message", .string outcome.message)]

end UninstallOutcome

namespace Detection

def record : Text := "ShellDetectionResult"

def ofJson : Json → Checked Detection :=
  Schema.record record fun fields =>
    Detection.mk <$> Schema.optional fields "shell" none (Schema.nullable Schema.text)
      <*> Schema.optional fields "detected" none (Schema.nullable Schema.text)

def toJson (detection : Detection) : Json :=
  .object
    [("shell", .ofOption .string detection.shell),
      ("detected", .ofOption .string detection.detected)]

end Detection

end TabCompletion
