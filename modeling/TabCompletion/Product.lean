import TabCompletion.Text.Basic

namespace TabCompletion.Product

/-- The name of the command that the scripts complete. -/
def name : Text := "spectest"

def version : Text := "0.4.0"

/-- The line that tells a script of ours from a foreign one. -/
def ownershipHeader : Text := "# Auto-generated by " ++ name ++ " - do not edit manually"

end TabCompletion.Product
