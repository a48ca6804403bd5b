import TabCompletion.Proofs.Block

namespace TabCompletion.Block

/-- Only newlines at the end of a body are left out of the block. -/
theorem inner_append (body : Text) :
    ∃ feeds : Text, body = inner body ++ feeds ∧ ∀ c ∈ feeds, c = '\n' := by
  refine ⟨(body.reverse.takeWhile (· == '\n')).reverse, ?_, fun c member => ?_⟩
  · rw [inner, Text.dropFinal, ← List.reverse_append, List.takeWhile_append_dropWhile,
      List.reverse_reverse]
  · have final := List.all_takeWhile (l := body.reverse) (p := (· == '\n'))
    exact beq_iff_eq.mp (List.all_eq_true.mp final c (List.mem_reverse.mp member))

theorem findLine?_inner {line body : Text} (single : '\n' ∉ line)
    (missing : findLine? line body = none) : findLine? line (inner body) = none := by
  obtain ⟨feeds, whole, every⟩ := inner_append body
  cases feeds with
  | nil => rwa [whole, List.append_nil] at missing
  | cons c rest =>
    obtain rfl := every c List.mem_cons_self
    rw [whole, findLine?_append_newline single, Option.or_eq_none_iff] at missing
    exact missing.1

/-- Taking out a block that was put at the end of a text gives back the text and whatever was
added after the block, also where the text has a line that counts as the end marker. Between
the two a newline stays, unless one of them is empty or the text ends in a newline anyway. -/
theorem remove_appended {markers : Markers} {body text : Text} (proper : markers.Proper)
    (unmarked : ∀ line ∈ text.newlinePieces, ¬ Marks markers.start line)
    (unended : ∀ line ∈ body.newlinePieces, ¬ Marks markers.finish line) (later : Text) :
    remove markers (append markers body text ++ later) =
        .ok (if text = [] ∨ text.getLast? = some '\n' ∨ later = [] then text ++ later
          else text ++ '\n' :: later) ∧
      remove markers (append markers body text) = .ok text := by
  have start := (findLine?_eq_none_iff proper.start.1).mpr unmarked
  have free := findLine?_inner proper.finish.1 ((findLine?_eq_none_iff proper.finish.1).mpr unended)
  exact ⟨remove_append_later proper start free later, remove_append proper start free⟩

/-- A text with a lone end marker and both markers inside of lines, a body with the end marker
inside of a line, and a line that was added later. -/
theorem remove_appended_knotted :
    let markers : Markers := ⟨">>>", "<<<"⟩
    let text : Text := "a\n<<<\r\n>>> <<<"
    let body : Text := "b <<<\n<<< c\n\n"
    markers.Proper ∧ (∀ line ∈ text.newlinePieces, ¬ Marks markers.start line) ∧
      (∀ line ∈ body.newlinePieces, ¬ Marks markers.finish line) ∧
      remove markers (append markers body text ++ "d") = .ok "a\n<<<\r\n>>> <<<\nd" := by
  intro markers text body
  have proper : markers.Proper := ⟨by decide, by decide, by decide⟩
  have unmarked : ∀ line ∈ text.newlinePieces, ¬ Marks markers.start line := by decide
  have unended : ∀ line ∈ body.newlinePieces, ¬ Marks markers.finish line := by decide
  exact ⟨proper, unmarked, unended, (remove_appended proper unmarked unended "d").1⟩

end TabCompletion.Block
