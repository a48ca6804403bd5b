import TabCompletion.Proofs.BlockRemoval
import TabCompletion.Proofs.BlockRest
import TabCompletion.Proofs.Except

namespace TabCompletion.Block

variable {markers : Markers} {body text : Text} {span : Span}

theorem replace_of_find (found : find markers text = .ok (some span)) :
    replace markers body text = .ok (splice text span (render markers body)) := by
  rw [replace, found]
  rfl

theorem find_of_replace {replaced : Text} (put : replace markers body text = .ok replaced) :
    ∃ span, find markers text = .ok (some span) ∧ replaced = splice text span (render markers body) := by
  obtain ⟨span?, found, put⟩ := ok_of_bind put
  cases span? with
  | none => cases put
  | some span =>
    cases put
    exact ⟨span, found, rfl⟩

theorem free_of_unended (proper : markers.Proper)
    (unended : ∀ line ∈ body.newlinePieces, ¬ Marks markers.finish line) :
    findLine? markers.finish (inner body) = none :=
  findLine?_inner proper.finish.1 ((findLine?_eq_none_iff proper.finish.1).mpr unended)

/-- What is put in the place of a block that was put there is as if it had been put there at once. -/
theorem replace_splice (proper : markers.Proper) (found : find markers text = .ok (some span))
    (free : findLine? markers.finish (inner body) = none) (other : Text) :
    replace markers other (splice text span (render markers body)) = replace markers other text := by
  obtain ⟨-, ordered, within, -⟩ := find_eq_some proper.start.1 proper.finish.1 found
  rw [replace_of_find (find_splice proper found free), replace_of_find found,
    splice_splice (Nat.le_trans ordered within)]

/-- A body that was put into a block is there already when it is put there again. -/
theorem replace_again {replaced : Text} (proper : markers.Proper)
    (unended : ∀ line ∈ body.newlinePieces, ¬ Marks markers.finish line)
    (put : replace markers body text = .ok replaced) : replace markers body replaced = .ok replaced := by
  obtain ⟨span, found, rfl⟩ := find_of_replace put
  exact (replace_splice proper found (free_of_unended proper unended) body).trans put

/-- Taking out a block that was put in the place of another one leaves what taking out that one does. -/
theorem remove_splice (proper : markers.Proper) (found : find markers text = .ok (some span))
    (free : findLine? markers.finish (inner body) = none) :
    remove markers (splice text span (render markers body)) = remove markers text := by
  obtain ⟨-, ordered, within, -⟩ := find_eq_some proper.start.1 proper.finish.1 found
  obtain ⟨parts, length⟩ := length_splice (Nat.le_trans ordered within) (render markers body)
  rw [remove_of_find proper.start.1 proper.finish.1 (find_splice proper found free),
    remove_of_find proper.start.1 proper.finish.1 found]
  congr 2
  · rw [parts, List.take_left' length]
  · rw [splice, List.drop_left' (by rw [List.length_append, length])]

/-- Giving a block another body is a lawful update: the text outside of the block stays, the new
block is where the old one began, what is put there later is as if it had been put there at once,
putting the same body once more changes nothing, and taking the block out leaves what taking out
the old one does. -/
theorem replace_lawful (proper : markers.Proper)
    (unended : ∀ line ∈ body.newlinePieces, ¬ Marks markers.finish line)
    (found : find markers text = .ok (some span)) :
    ∃ replaced, replace markers body text = .ok replaced ∧
      replaced = text.take span.first ++ render markers body ++ text.drop span.last ∧
      find markers replaced = .ok (some ⟨span.first, span.first + (render markers body).length⟩) ∧
      (∀ other, replace markers other replaced = replace markers other text) ∧
      replace markers body replaced = .ok replaced ∧
      remove markers replaced = remove markers text := by
  have free := free_of_unended proper unended
  have put : replace markers body text = .ok (splice text span (render markers body)) := replace_of_find found
  exact ⟨_, put, rfl, find_splice proper found free, replace_splice proper found free,
    replace_again proper unended put, remove_splice proper found free⟩

/-- A body with the start marker and newlines at its end, put into the first of two blocks. -/
theorem replace_lawful_knotted :
    let markers : Markers := ⟨">>", "<<"⟩
    let body : Text := ">>\n<< c\n\n"
    let text : Text := "a\n>>\nb\n<<\n\n>>\n<<"
    markers.Proper ∧ (∀ line ∈ body.newlinePieces, ¬ Marks markers.finish line) ∧
      find markers text = .ok (some ⟨2, 9⟩) ∧
      ∃ replaced, replace markers body text = .ok replaced ∧ replaced = "a\n>>\n>>\n<< c\n<<\n\n>>\n<<".toList ∧
        find markers replaced = .ok (some ⟨2, 15⟩) ∧ remove markers replaced = remove markers text := by
  intro markers body text
  have proper : markers.Proper := ⟨by decide, by decide, by decide⟩
  have unended : ∀ line ∈ body.newlinePieces, ¬ Marks markers.finish line := by decide
  have found : find markers text = .ok (some ⟨2, 9⟩) := rfl
  obtain ⟨replaced, put, whole, refound, -, -, removed⟩ := replace_lawful proper unended found
  exact ⟨proper, unended, found, replaced, put, whole, refound, removed⟩

end TabCompletion.Block
