import TabCompletion.Text.Basic

namespace TabCompletion

/-- The environment variables by their names. -/
abbrev Environment := List (Text × Text)

namespace Environment

def get? (environment : Environment) (name : Text) : Option Text :=
  environment.lookup name

/-- The value of a variable, unless it is unset or empty. -/
def nonempty? (environment : Environment) (name : Text) : Option Text :=
  (environment.get? name).filter fun value => !value.isEmpty

end Environment

end TabCompletion
