import TabCompletion.Text.Basic

namespace TabCompletion

/-- The characters that the name of a shell function may have. -/
def isNameChar (c : Char) : Bool :=
  c.isAlphanum || c = '_'

/-- A name that is safe inside the name of a shell function. Different names may become
the same. -/
def sanitize (name : Text) : Text :=
  name.map fun c => if isNameChar c then c else '_'

theorem isNameChar_of_mem_sanitize {name : Text} {c : Char} (member : c ∈ sanitize name) :
    isNameChar c = true := by
  obtain ⟨d, _, rfl⟩ := List.mem_map.mp member
  split
  · assumption
  · rfl

end TabCompletion
