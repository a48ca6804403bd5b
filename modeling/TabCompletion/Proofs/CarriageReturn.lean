import TabCompletion.Proofs.BlockSearch

namespace TabCompletion

namespace Text

/-- The text with a carriage return before each line feed, as some systems end lines. -/
def withReturns (text : Text) : Text :=
  text.flatMap fun c => if c = '\n' then ['\r', '\n'] else [c]

theorem withReturns_append (text rest : Text) :
    (text ++ rest).withReturns = text.withReturns ++ rest.withReturns :=
  List.flatMap_append

theorem withReturns_newline (rest : Text) : withReturns ('\n' :: rest) = '\r' :: '\n' :: rest.withReturns := rfl

theorem withReturns_single {line : Text} (whole : '\n' ∉ line) : line.withReturns = line := by
  induction line with
  | nil => rfl
  | cons c line ih =>
    simp only [List.mem_cons, not_or] at whole
    rw [withReturns, List.flatMap_cons, if_neg (Ne.symm whole.1)]
    exact congrArg (c :: ·) (ih whole.2)

theorem withReturns_line {line : Text} (whole : '\n' ∉ line) (rest : Text) :
    (line ++ '\n' :: rest).withReturns = line ++ ['\r'] ++ '\n' :: rest.withReturns := by
  rw [withReturns_append, withReturns_single whole, withReturns_newline, List.append_assoc]
  rfl

theorem length_withReturns_dropLast (text : Text) :
    (withReturns text.dropLast).length ≤ text.withReturns.length := by
  rcases List.eq_nil_or_concat text with rfl | ⟨above, c, rfl⟩
  · exact Nat.le_refl _
  · rw [List.concat_eq_append, List.dropLast_concat, withReturns_append, List.length_append]
    exact Nat.le_add_right _ _

/-- A text is cut at an offset where its counterpart with carriage returns is cut as well. -/
theorem take_withReturns (text : Text) (offset : Nat) :
    text.withReturns.take (withReturns (text.take offset)).length = withReturns (text.take offset) := by
  have whole := withReturns_append (text.take offset) (text.drop offset)
  rw [List.take_append_drop] at whole
  rw [whole, List.take_left]

theorem drop_withReturns (text : Text) (offset : Nat) :
    text.withReturns.drop (withReturns (text.take offset)).length = withReturns (text.drop offset) := by
  have whole := withReturns_append (text.take offset) (text.drop offset)
  rw [List.take_append_drop] at whole
  rw [whole, List.drop_left]

end Text

/-- A span of a text as it stands in the text with carriage returns. -/
def Span.withReturns (text : Text) (span : Span) : Span :=
  ⟨(Text.withReturns (text.take span.first)).length, (Text.withReturns (text.take span.last)).length⟩

namespace Block

variable {marker line text : Text} {markers : Markers} {span : Span}

/-- A line counts as a marker with a carriage return at its end as it does without one. -/
theorem marks_return_iff (plain : '\r' ∉ line) (markerPlain : '\r' ∉ marker) :
    Marks marker (line ++ ['\r']) ↔ Marks marker line := by
  constructor
  · rintro (same | ⟨rest, same⟩)
    · exact absurd (by rw [← same]; simp) markerPlain
    · obtain ⟨more, parts⟩ | ⟨more, parts⟩ := List.append_eq_append_iff.mp same
      · cases more with
        | nil => exact Or.inl (by simpa using parts.1.symm)
        | cons c more => exact absurd (by rw [parts.1]; simp_all) markerPlain
      · cases more with
        | nil => exact Or.inl (by simpa using parts.1)
        | cons c more =>
          simp only [List.cons_append, List.cons.injEq] at parts
          exact absurd (by rw [parts.1, ← parts.2.1]; simp) plain
  · rintro (rfl | ⟨rest, rfl⟩)
    · exact Or.inr ⟨[], rfl⟩
    · exact absurd (by simp) plain

/-- A marker is found in the same line, carriage returns or not. -/
theorem findLine?_withReturns (single : '\n' ∉ marker) (markerPlain : '\r' ∉ marker) (plain : '\r' ∉ text) :
    findLine? marker text.withReturns =
      (findLine? marker text).map fun offset => (Text.withReturns (text.take offset)).length := by
  induction text using Text.newlineInduction with
  | single line whole =>
    rw [Text.withReturns_single whole, findLine?_single whole]
    split <;> rfl
  | line line rest whole ih =>
    simp only [List.mem_append, List.mem_cons, not_or] at plain
    have wholeReturn : '\n' ∉ line ++ ['\r'] := by simp [whole]
    rw [Text.withReturns_line whole, findLine?_append_newline single, findLine?_append_newline single,
      findLine?_single wholeReturn, findLine?_single whole, ih plain.2.2]
    simp only [marks_return_iff plain.1 markerPlain]
    by_cases marks : Marks marker line
    · simp [marks, Text.withReturns]
    · have past (offset : Nat) : (line ++ '\n' :: rest).take (offset + (line.length + 1)) =
          line ++ '\n' :: rest.take offset := by
        rw [List.take_append, List.take_of_length_le (by omega), Nat.add_comm, Nat.add_assoc,
          Nat.add_sub_cancel_left, Nat.add_comm 1, List.take_succ_cons]
      simp only [marks, if_false, Option.none_or, Option.map_map]
      congr 1
      funext offset
      simp [past, Text.withReturns_line whole]
      omega

/-- What is missing of a block is missing with carriage returns too, and a block stands in the same
lines. -/
theorem find_withReturns (proper : markers.Proper) (plain : '\r' ∉ text) :
    find markers text.withReturns = (find markers text).map (Option.map (Span.withReturns text)) := by
  rw [find, find, findLine?_withReturns proper.start.1 proper.start.2 plain,
    findLine?_withReturns proper.finish.1 proper.finish.2 plain]
  cases findLine? markers.start text with
  | none => cases findLine? markers.finish text <;> rfl
  | some first =>
    have plainRest : '\r' ∉ text.drop first := fun inside => plain (List.mem_of_mem_drop inside)
    simp only [Option.map_some, Text.drop_withReturns,
      findLine?_withReturns proper.finish.1 proper.finish.2 plainRest]
    cases finishes : findLine? markers.finish (text.drop first) with
    | none => rfl
    | some distance =>
      obtain ⟨rest, begins, -⟩ := beginsWithLine_iff.mp (lineOffset?_begins finishes)
      rw [List.drop_drop] at begins
      have parts : text.take (first + distance + markers.finish.length) =
          text.take first ++ (text.drop first).take distance ++ markers.finish := by
        rw [List.take_add, List.take_add, begins, List.take_left]
      simp only [Option.map_some, Except.map, Span.withReturns, parts, Text.withReturns_append,
        Text.withReturns_single proper.finish.1, List.length_append]

/-- What is left of a text with carriage returns once its block is taken out, by the texts before and
after the block: the line feed before a block that ends the text goes, and nothing else does. -/
def rejoinReturns (before after : Text) : Text :=
  if after = [] then before.withReturns.dropLast else before.withReturns ++ after.withReturns

/-- A line feed after a carriage return neither comes first after a block nor ends a blank line. -/
theorem rejoin_withReturns {before after : Text} (ended : before = [] ∨ before.getLast? = some '\n')
    (closed : after = [] ∨ after.head? = some '\n') :
    rejoin before.withReturns after.withReturns = rejoinReturns before after := by
  -- The character before a line feed is a carriage return, which no rule for the newlines looks for.
  have shape : before.withReturns = [] ∨ ∃ above : Text, before.withReturns = above ++ ['\r'] ++ ['\n'] := by
    rcases ended with rfl | feed
    · exact Or.inl rfl
    · obtain ⟨above, rfl⟩ := List.getLast?_eq_some_iff.mp feed
      exact Or.inr ⟨Text.withReturns above, by rw [Text.withReturns_append, List.append_assoc]; rfl⟩
  rcases closed with rfl | feed
  · have last : afterLine (Text.withReturns []) = [] := rfl
    rw [rejoin, rejoinReturns, if_pos rfl, last, List.append_nil]
    rcases shape with empty | ⟨above, same⟩
    · rw [empty]
      split <;> rfl
    · rw [same, if_pos ⟨List.getLast?_concat, Or.inl rfl⟩]
  · obtain ⟨rest, rfl⟩ := List.head?_eq_some_iff.mp feed
    have line : afterLine (Text.withReturns ('\n' :: rest)) = Text.withReturns ('\n' :: rest) := rfl
    have joined : ¬ Separate before.withReturns (Text.withReturns ('\n' :: rest)) := by
      rintro ⟨last, other⟩
      rw [line, Text.withReturns_newline] at other
      rcases shape with empty | ⟨above, same⟩
      · simp [empty] at last
      · rw [same] at other
        simp only [List.dropLast_concat, List.getLast?_concat, reduceCtorEq, false_or, Option.some.injEq,
          Char.reduceEq, or_false] at other
        exact absurd (congrArg List.length other) (by simp)
    rw [rejoin, rejoinReturns, if_neg (List.cons_ne_nil _ _), if_neg joined, line]

/-- A removal fails where the search for the block does. -/
theorem remove_eq_error_iff {missing : Text} :
    remove markers text = .error missing ↔ find markers text = .error missing := by
  have told : remove markers text =
      (find markers text).map fun found => found.elim text fun span => splice text (widen text span) [] := by
    rw [remove]
    cases find markers text with
    | error other => rfl
    | ok found => cases found <;> rfl
  rw [told]
  cases find markers text <;> simp [Except.map]

/-- What is left of a text with carriage returns is longer than it would be if line ends counted
alike, unless the block is the whole of the text. -/
theorem rejoinReturns_eq_iff {before after : Text} (ended : before = [] ∨ before.getLast? = some '\n')
    (closed : after = [] ∨ after.head? = some '\n') :
    rejoinReturns before after = (rejoin before after).withReturns ↔ before = [] ∧ after = [] := by
  refine ⟨fun same => ?_, fun ⟨first, last⟩ => by subst first last; rfl⟩
  have lengths := congrArg List.length same
  rcases closed with rfl | feed
  · rcases ended with rfl | feed
    · exact ⟨rfl, rfl⟩
    · obtain ⟨above, rfl⟩ := List.getLast?_eq_some_iff.mp feed
      have separate : Separate (above ++ ['\n']) [] := ⟨feed, Or.inl rfl⟩
      have returned : Text.withReturns (above ++ ['\n']) = Text.withReturns above ++ ['\r'] ++ ['\n'] := by
        rw [Text.withReturns_append, List.append_assoc]
        rfl
      rw [rejoinReturns, if_pos rfl, returned, rejoin, if_pos separate] at lengths
      simp [afterLine] at lengths
  · obtain ⟨rest, rfl⟩ := List.head?_eq_some_iff.mp feed
    have kept : (Text.withReturns (if Separate before ('\n' :: rest) then before.dropLast else before)).length ≤
        before.withReturns.length := by
      split
      · exact Text.length_withReturns_dropLast before
      · exact Nat.le_refl _
    have line : afterLine ('\n' :: rest) = rest := rfl
    rw [rejoinReturns, if_neg (List.cons_ne_nil _ _), Text.withReturns_newline, rejoin, line,
      Text.withReturns_append] at lengths
    simp only [List.length_append, List.length_cons] at lengths
    omega

/-- In a text without carriage returns a block that is found has line feeds around it, or the ends of
the text. -/
theorem newlines_around (proper : markers.Proper) (plain : '\r' ∉ text)
    (found : find markers text = .ok (some span)) :
    (text.take span.first = [] ∨ (text.take span.first).getLast? = some '\n') ∧
      (text.drop span.last = [] ∨ (text.drop span.last).head? = some '\n') := by
  obtain ⟨lead, -, -, closes⟩ := find_eq_some proper.start.1 proper.finish.1 found
  constructor
  · rcases lead with none | ⟨lines, whole, -⟩
    · exact Or.inl none
    · exact Or.inr (by rw [whole, List.getLast?_concat])
  · cases same : text.drop span.last with
    | nil => exact Or.inl rfl
    | cons c rest =>
      have inside : c ∈ text := List.mem_of_mem_drop (same ▸ List.mem_cons_self)
      rw [same, atLineEnd, Bool.or_eq_true, decide_eq_true_eq, decide_eq_true_eq] at closes
      rcases closes with feed | carriage
      · exact Or.inr (congrArg some feed)
      · exact absurd (carriage ▸ inside) plain

theorem remove_withReturns_of_find (proper : markers.Proper) (plain : '\r' ∉ text)
    (found : find markers text = .ok (some span)) :
    remove markers text.withReturns =
      .ok (rejoinReturns (text.take span.first) (text.drop span.last)) := by
  obtain ⟨ended, closed⟩ := newlines_around proper plain found
  have foundHere : find markers text.withReturns = .ok (some (span.withReturns text)) := by
    rw [find_withReturns proper plain, found]
    rfl
  rw [remove_of_find proper.start.1 proper.finish.1 foundHere, Span.withReturns, Text.take_withReturns,
    Text.drop_withReturns, rejoin_withReturns ended closed]

/-- Taking a block out of a text whose lines end in carriage returns and line feeds fails for the
same marker as without the carriage returns and leaves a text without a block as it is. Where there
is a block the line end after it stays, so that a blank line is left in its place, and at the end of
the text a lone carriage return: the two texts are treated alike only where the block is all there is. -/
theorem remove_withReturns (proper : markers.Proper) (plain : '\r' ∉ text) :
    (∀ missing, remove markers text.withReturns = .error missing ↔ remove markers text = .error missing) ∧
      (find markers text = .ok none →
        remove markers text = .ok text ∧ remove markers text.withReturns = .ok text.withReturns) ∧
      (∀ span, find markers text = .ok (some span) →
        remove markers text.withReturns =
          .ok (rejoinReturns (text.take span.first) (text.drop span.last))) ∧
      (remove markers text.withReturns = (remove markers text).map Text.withReturns ↔
        ∀ span, find markers text = .ok (some span) → text.take span.first = [] ∧ text.drop span.last = []) := by
  have searched := find_withReturns proper plain
  have errors (missing : Text) :
      remove markers text.withReturns = .error missing ↔ remove markers text = .error missing := by
    rw [remove_eq_error_iff, remove_eq_error_iff, searched]
    cases find markers text <;> simp [Except.map]
  refine ⟨errors, fun absent => ?_, fun span found => remove_withReturns_of_find proper plain found, ?_⟩
  · rw [absent] at searched
    exact ⟨remove_of_find_none absent, remove_of_find_none searched⟩
  · cases found : find markers text with
    | error missing =>
      have failed := remove_eq_error_iff.mpr found
      rw [failed, (errors missing).mpr failed]
      exact iff_of_true rfl (by simp)
    | ok span? =>
      cases span? with
      | none =>
        rw [found] at searched
        rw [remove_of_find_none found, remove_of_find_none searched]
        exact iff_of_true rfl (by simp)
      | some span =>
        obtain ⟨ended, closed⟩ := newlines_around proper plain found
        rw [remove_withReturns_of_find proper plain found, remove_of_find proper.start.1 proper.finish.1 found]
        simpa [Except.map] using rejoinReturns_eq_iff ended closed

/-- A block after a blank line at the end of the text, with a marker inside of a line before it. -/
theorem remove_withReturns_last :
    let markers : Markers := ⟨">>", "<<"⟩
    let text : Text := "a >>\n\n>>\nb\n<<"
    markers.Proper ∧ '\r' ∉ text ∧ find markers text = .ok (some ⟨6, 13⟩) ∧
      remove markers text.withReturns = .ok "a >>\r\n\r" ∧
      remove markers text.withReturns ≠ (remove markers text).map Text.withReturns := by
  intro markers text
  have proper : markers.Proper := ⟨by decide, by decide, by decide⟩
  have plain : '\r' ∉ text := by decide
  have found : find markers text = .ok (some ⟨6, 13⟩) := rfl
  obtain ⟨-, -, left, alike⟩ := remove_withReturns proper plain
  refine ⟨proper, plain, found, left _ found, fun same => ?_⟩
  exact absurd (alike.mp same _ found).1 (by decide)

/-- A block between two lines leaves a blank line behind when carriage returns end the lines. -/
theorem remove_leaves_blank_line :
    let markers : Markers := ⟨">", "<"⟩
    let text : Text := "a\n>\nb\n<\nc\n"
    markers.Proper ∧ markers.start ≠ [] ∧ markers.finish ≠ [] ∧ '\r' ∉ text ∧
      (remove markers text).map Text.withReturns = .ok "a\r\nc\r\n" ∧
      remove markers text.withReturns = .ok "a\r\n\r\nc\r\n" := by
  intro markers text
  exact ⟨⟨by decide, by decide, by decide⟩, by decide, by decide, by decide, rfl, rfl⟩

end Block

end TabCompletion
