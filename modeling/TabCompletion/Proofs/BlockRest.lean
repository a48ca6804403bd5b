import TabCompletion.Proofs.BlockSearch

namespace TabCompletion.Block

variable {markers : Markers} {text : Text} {span : Span}

/-- The lines that have anything in them, in order. -/
def filled (lines : List Text) : List Text :=
  lines.filter fun line => line ≠ []

theorem filled_append (lines others : List Text) : filled (lines ++ others) = filled lines ++ filled others :=
  List.filter_append ..

theorem filled_newline (text : Text) : filled (Text.newlinePieces (text ++ ['\n'])) = filled text.newlinePieces := by
  rw [Text.newlinePieces_append_newline, filled_append]
  exact List.append_nil _

theorem filled_afterLine (after : Text) :
    filled (afterLine after).newlinePieces = filled after.newlinePieces := by
  rcases afterLine_cases after with feed | ⟨-, same⟩
  · rw [feed, ← List.nil_append ('\n' :: afterLine after), Text.newlinePieces_append_newline, filled_append, ← feed]
    rfl
  · rw [same]

/-- Whole lines before a block and whole lines after it are neither joined nor lost. -/
theorem filled_rejoin {before after : Text} (ended : before = [] ∨ before.getLast? = some '\n') :
    filled (rejoin before after).newlinePieces = filled before.newlinePieces ++ filled after.newlinePieces := by
  rw [← filled_afterLine after]
  unfold rejoin
  rcases ended with rfl | feed
  · rw [if_neg (by simp [Separate])]
    rfl
  · obtain ⟨above, rfl⟩ := List.getLast?_eq_some_iff.mp feed
    split
    · rename_i separate
      rw [filled_newline, List.dropLast_concat]
      obtain ⟨-, empty | alone | blank⟩ := separate
      · rw [empty, List.append_nil]
        exact (List.append_nil _).symm
      · obtain rfl : above = [] := by simpa using alone
        rfl
      · rw [List.dropLast_concat] at blank
        obtain ⟨top, rfl⟩ := List.getLast?_eq_some_iff.mp blank
        rw [filled_newline, List.append_assoc, List.singleton_append, Text.newlinePieces_append_newline,
          filled_append]
    · rw [filled_newline, List.append_assoc, List.singleton_append, Text.newlinePieces_append_newline, filled_append]

theorem newlinePieces_take {text : Text} {number : Nat} (within : number < text.newlinePieces.length) :
    Text.newlinePieces (text.take (lineStart text.newlinePieces number)) = text.newlinePieces.take number ++ [[]] := by
  induction text using Text.newlineInduction generalizing number with
  | single line whole =>
    rw [Text.newlinePieces_single whole] at within ⊢
    obtain rfl : number = 0 := by simpa using within
    rfl
  | line line rest whole ih =>
    rw [Text.newlinePieces_line whole] at within ⊢
    cases number with
    | zero => rfl
    | succ number =>
      have taken : (line ++ '\n' :: rest).take (line.length + 1 + lineStart rest.newlinePieces number) =
          line ++ '\n' :: rest.take (lineStart rest.newlinePieces number) := by
        rw [List.take_append, List.take_of_length_le (by omega), Nat.add_assoc, Nat.add_sub_cancel_left,
          Nat.add_comm 1, List.take_succ_cons]
      rw [lineStart_succ, taken, Text.newlinePieces_line whole, ih (by simpa using within), List.take_succ_cons,
        List.cons_append]

/-- In a text without carriage returns the line that counts as a marker is the marker. -/
theorem newlinePieces_drop_mark {marker text : Text} {start number : Nat} (plain : '\r' ∉ text)
    (found : FirstMark marker text.newlinePieces start number) :
    Text.newlinePieces (text.drop (lineStart text.newlinePieces number + marker.length)) =
      [] :: text.newlinePieces.drop (number + 1) := by
  obtain ⟨line, here, marks⟩ := found.marks
  obtain ⟨within, same⟩ := List.getElem?_eq_some_iff.mp here
  have marker_eq : line = marker := by
    rcases marks with same | ⟨rest, rfl⟩
    · exact same
    · exact absurd (Text.mem_of_mem_newlinePieces (List.mem_of_getElem? here) (by simp)) plain
  have pieces := newlinePieces_drop within
  rw [List.drop_eq_getElem_cons within, same, marker_eq] at pieces
  rw [← List.drop_drop]
  generalize text.drop (lineStart text.newlinePieces number) = rest at pieces
  rcases Text.newlinePieces_cases rest with ⟨single, alone⟩ | ⟨first, more, rfl, -, parts⟩
  · rw [alone, List.cons.injEq] at pieces
    rw [pieces.1, ← pieces.2, List.drop_length]
    rfl
  · rw [parts, List.cons.injEq] at pieces
    rw [pieces.1, List.drop_left, ← pieces.2, ← List.nil_append ('\n' :: more),
      Text.newlinePieces_append_newline]
    rfl

/-- Taking a block out of a text without carriage returns neither joins nor loses lines: those
with anything in them that are left are the ones before the line of the start marker and after
that of the end marker. What is taken out beside the block is at most a newline on either side. -/
theorem remove_keeps_lines {markers : Markers} {text : Text} {span : Span} (startSingle : '\n' ∉ markers.start)
    (finishSingle : '\n' ∉ markers.finish) (plain : '\r' ∉ text) (found : find markers text = .ok (some span)) :
    ∃ first last rest,
      (FirstMark markers.start text.newlinePieces 0 first ∧ FirstMark markers.finish text.newlinePieces first last ∧
        span = ⟨lineStart text.newlinePieces first,
          lineStart text.newlinePieces last + markers.finish.length⟩) ∧
      remove markers text = .ok rest ∧
      filled rest.newlinePieces =
        filled (text.newlinePieces.take first ++ text.newlinePieces.drop (last + 1)) ∧
      ∃ cut : Span, rest = text.take cut.first ++ text.drop cut.last ∧
        (cut.first = span.first ∨ cut.first + 1 = span.first) ∧
        (cut.last = span.last ∨ cut.last = span.last + 1) ∧
        ∀ offset, cut.first ≤ offset → offset < cut.last → offset < span.first ∨ span.last ≤ offset →
          text[offset]? = some '\n' := by
  have removed := remove_of_find startSingle finishSingle found
  obtain ⟨lead, -, -, -⟩ := find_eq_some startSingle finishSingle found
  obtain ⟨first, last, starts, ends, rfl⟩ := ((find_by_lines startSingle finishSingle text).2.2.2 span).mp found
  have ended : text.take (lineStart text.newlinePieces first) = [] ∨
      (text.take (lineStart text.newlinePieces first)).getLast? = some '\n' := by
    rcases lead with none | ⟨lines, whole, -⟩
    · exact Or.inl none
    · exact Or.inr (by rw [whole, List.getLast?_concat])
  have lines : filled (rejoin (text.take (lineStart text.newlinePieces first))
      (text.drop (lineStart text.newlinePieces last + markers.finish.length))).newlinePieces = _ :=
    filled_rejoin ended
  rw [newlinePieces_take starts.lt_length, newlinePieces_drop_mark plain ends, filled_append, List.append_assoc] at lines
  rw [← splice_widen startSingle finishSingle found] at removed lines
  refine ⟨first, last, _, ⟨starts, ends, rfl⟩, removed, ?_, widen text _, by rw [splice, List.append_nil], ?_⟩
  · rw [lines, filled_append]
    rfl
  · exact widen_newlines startSingle finishSingle found

/-- A block after a blank line, with the start marker once more inside and a lone end marker at the
end of the text. -/
theorem remove_keeps_lines_knotted :
    let markers : Markers := ⟨">>", "<<"⟩
    let text : Text := "a\n\n>>\n>>\n<<\nb\n<<"
    '\n' ∉ markers.start ∧ '\n' ∉ markers.finish ∧ '\r' ∉ text ∧ find markers text = .ok (some ⟨3, 11⟩) ∧
      ∃ rest, remove markers text = .ok rest ∧ filled rest.newlinePieces = ["a".toList, "b".toList, "<<".toList] := by
  intro markers text
  have startSingle : '\n' ∉ markers.start := by decide
  have finishSingle : '\n' ∉ markers.finish := by decide
  have plain : '\r' ∉ text := by decide
  have found : find markers text = .ok (some ⟨3, 11⟩) := rfl
  obtain ⟨first, last, rest, ⟨starts, ends, -⟩, removed, lines, -⟩ :=
    remove_keeps_lines startSingle finishSingle plain found
  obtain rfl : first = 2 := starts.unique (firstMark_succ_iff.mpr
    ⟨by decide, firstMark_succ_iff.mpr ⟨by decide, firstMark_zero_iff.mpr (by decide)⟩⟩)
  obtain rfl : last = 2 + 2 := ends.unique (firstMark_add_iff.mpr (firstMark_succ_iff.mpr
    ⟨by decide, firstMark_succ_iff.mpr ⟨by decide, firstMark_zero_iff.mpr (by decide)⟩⟩))
  exact ⟨startSingle, finishSingle, plain, found, rest, removed, lines⟩

end TabCompletion.Block
