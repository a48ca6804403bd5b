namespace TabCompletion

variable {ε α β : Type} {first : Except ε α} {next : α → Except ε β}

/-- A sequence that came to a result did so in each of its parts. -/
theorem ok_of_bind {result : β} (run : (first >>= next) = .ok result) :
    ∃ value, first = .ok value ∧ next value = .ok result := by
  cases first with
  | error other => cases run
  | ok value => exact ⟨value, rfl, run⟩

/-- A sequence fails by its first part, or by the rest with what that came to. -/
theorem error_of_bind {fault : ε} (failed : (first >>= next) = .error fault) :
    first = .error fault ∨ ∃ value, first = .ok value ∧ next value = .error fault := by
  cases first with
  | error other =>
    cases failed
    exact Or.inl rfl
  | ok value => exact Or.inr ⟨value, rfl, failed⟩

/-- What is done to a result is no reason to fail. -/
theorem error_of_map {f : α → β} {fault : ε} (failed : f <$> first = .error fault) : first = .error fault := by
  cases first with
  | error other =>
    cases failed
    rfl
  | ok value => cases failed

end TabCompletion
