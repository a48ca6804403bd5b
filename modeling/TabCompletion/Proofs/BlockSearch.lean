import TabCompletion.Proofs.Block

namespace TabCompletion.Block

/-- The offset at which a line begins; a newline stands after each line before it. -/
def lineStart : List Text → Nat → Nat
  | line :: rest, number + 1 => line.length + 1 + lineStart rest number
  | _, _ => 0

/-- The line of a number is the first one at or after another that counts as a marker. -/
structure FirstMark (marker : Text) (lines : List Text) (start number : Nat) : Prop where
  notBefore : start ≤ number
  marks : ∃ line, lines[number]? = some line ∧ Marks marker line
  first : ∀ earlier line, start ≤ earlier → earlier < number → lines[earlier]? = some line →
    ¬ Marks marker line

variable {marker line : Text} {lines : List Text} {start number : Nat}

theorem firstMark_zero_iff : FirstMark marker (line :: lines) 0 0 ↔ Marks marker line := by
  constructor
  · intro found
    obtain ⟨same, here, marks⟩ := found.marks
    rwa [← Option.some.inj here] at marks
  · intro marks
    exact ⟨Nat.le_refl 0, ⟨line, rfl, marks⟩, fun earlier _ _ before => absurd before (by omega)⟩

theorem firstMark_succ_iff : FirstMark marker (line :: lines) 0 (number + 1) ↔
    ¬ Marks marker line ∧ FirstMark marker lines 0 number := by
  constructor
  · intro found
    have later : FirstMark marker lines 0 number := by
      refine ⟨Nat.zero_le number, by simpa using found.marks, fun earlier other _ before there => ?_⟩
      exact found.first (earlier + 1) other (Nat.zero_le _) (by omega) (by simpa using there)
    exact ⟨found.first 0 line (Nat.le_refl 0) (Nat.succ_pos number) rfl, later⟩
  · rintro ⟨other, found⟩
    refine ⟨Nat.zero_le _, by simpa using found.marks, fun earlier next _ before there => ?_⟩
    cases earlier with
    | zero => rwa [← Option.some.inj there]
    | succ earlier =>
      exact found.first earlier next (Nat.zero_le _) (by omega) (by simpa using there)

/-- The first such line from a line on is the first one of the lines that are left there. -/
theorem firstMark_add_iff : FirstMark marker lines start (start + number) ↔
    FirstMark marker (lines.drop start) 0 number := by
  constructor
  · intro found
    refine ⟨Nat.zero_le _, by simpa using found.marks, fun earlier next _ before there => ?_⟩
    exact found.first (start + earlier) next (by omega) (by omega) (by simpa using there)
  · intro found
    refine ⟨by omega, by simpa using found.marks, fun earlier next after before there => ?_⟩
    obtain ⟨between, rfl⟩ := Nat.exists_eq_add_of_le after
    exact found.first between next (Nat.zero_le _) (by omega) (by simpa using there)

theorem exists_firstMark_cons {claim : Nat → Prop} :
    (∃ number, FirstMark marker (line :: lines) 0 number ∧ claim number) ↔
      Marks marker line ∧ claim 0 ∨
        ¬ Marks marker line ∧ ∃ number, FirstMark marker lines 0 number ∧ claim (number + 1) := by
  constructor
  · rintro ⟨number, found, claimed⟩
    cases number with
    | zero => exact Or.inl ⟨firstMark_zero_iff.mp found, claimed⟩
    | succ number =>
      obtain ⟨other, later⟩ := firstMark_succ_iff.mp found
      exact Or.inr ⟨other, number, later, claimed⟩
  · rintro (⟨marks, claimed⟩ | ⟨other, number, found, claimed⟩)
    · exact ⟨0, firstMark_zero_iff.mpr marks, claimed⟩
    · exact ⟨number + 1, firstMark_succ_iff.mpr ⟨other, found⟩, claimed⟩

theorem FirstMark.lt_length (found : FirstMark marker lines start number) : number < lines.length := by
  obtain ⟨line, here, -⟩ := found.marks
  exact (List.getElem?_eq_some_iff.mp here).1

@[simp]
theorem lineStart_zero (lines : List Text) : lineStart lines 0 = 0 := by
  cases lines <;> rfl

theorem lineStart_succ (line : Text) (lines : List Text) (number : Nat) :
    lineStart (line :: lines) (number + 1) = line.length + 1 + lineStart lines number := rfl

theorem lineStart_add (lines : List Text) (start number : Nat) (within : start ≤ lines.length) :
    lineStart lines (start + number) = lineStart lines start + lineStart (lines.drop start) number := by
  induction start generalizing lines with
  | zero => simp
  | succ start ih =>
    cases lines with
    | nil => simp at within
    | cons line rest =>
      have below := ih rest (by simpa using within)
      rw [show start + 1 + number = start + number + 1 by omega, lineStart, lineStart, below,
        List.drop_succ_cons]
      omega

/-- What stands from the beginning of a line on has the lines from that one on. -/
theorem newlinePieces_drop {text : Text} (within : number < text.newlinePieces.length) :
    Text.newlinePieces (text.drop (lineStart text.newlinePieces number)) =
      text.newlinePieces.drop number := by
  induction text using Text.newlineInduction generalizing number with
  | single line whole =>
    rw [Text.newlinePieces_single whole] at within ⊢
    obtain rfl : number = 0 := by simpa using within
    simp [Text.newlinePieces_single whole]
  | line line rest whole ih =>
    rw [Text.newlinePieces_line whole] at within ⊢
    cases number with
    | zero => simp [Text.newlinePieces_line whole]
    | succ number =>
      have past : (line ++ '\n' :: rest).drop (line.length + 1 + lineStart rest.newlinePieces number) =
          rest.drop (lineStart rest.newlinePieces number) := by
        rw [← List.drop_drop, List.append_cons]
        congr 1
        exact List.drop_left' (by simp)
      rw [lineStart_succ, past, List.drop_succ_cons]
      exact ih (by simpa using within)

/-- In a single line a marker is found at its beginning or not at all. -/
theorem findLine?_single (whole : '\n' ∉ line) :
    findLine? marker line = if Marks marker line then some 0 else none := by
  split
  next marks => exact findLine?_of_begins ((beginsWithLine_iff_marks whole).mpr marks)
  next other =>
    exact findLine?_eq_none whole (by rwa [Bool.eq_false_iff, ne_eq, beginsWithLine_iff_marks whole])

/-- A marker is found at the beginning of the first line that counts as it. -/
theorem findLine?_eq_some_iff (single : '\n' ∉ marker) {text : Text} {offset : Nat} :
    findLine? marker text = some offset ↔
      ∃ number, FirstMark marker text.newlinePieces 0 number ∧
        lineStart text.newlinePieces number = offset := by
  induction text using Text.newlineInduction generalizing offset with
  | single line whole =>
    have absent (number : Nat) : ¬ FirstMark marker [] 0 number := fun found =>
      absurd found.lt_length (by simp)
    rw [Text.newlinePieces_single whole, findLine?_single whole, exists_firstMark_cons]
    by_cases marks : Marks marker line <;> simp [marks, absent]
  | line line rest whole ih =>
    rw [Text.newlinePieces_line whole, findLine?_append_newline single, findLine?_single whole,
      exists_firstMark_cons]
    by_cases marks : Marks marker line
    · simp [marks]
    · simp only [marks, if_false, Option.none_or, Option.map_eq_some_iff, false_and, false_or,
        not_false_eq_true, true_and, lineStart_succ, ih]
      constructor
      · rintro ⟨_, ⟨number, first, rfl⟩, rfl⟩
        exact ⟨number, first, Nat.add_comm ..⟩
      · rintro ⟨number, first, rfl⟩
        exact ⟨_, ⟨number, first, rfl⟩, Nat.add_comm ..⟩

/-- The end marker is looked for from the line of the start marker on. -/
theorem findLine?_drop_eq_some_iff (single : '\n' ∉ marker) {text : Text} {first offset : Nat}
    (within : first < text.newlinePieces.length) :
    findLine? marker (text.drop (lineStart text.newlinePieces first)) = some offset ↔
      ∃ last, FirstMark marker text.newlinePieces first last ∧
        lineStart text.newlinePieces last = lineStart text.newlinePieces first + offset := by
  rw [findLine?_eq_some_iff single, newlinePieces_drop within]
  constructor
  · rintro ⟨between, found, rfl⟩
    exact ⟨first + between, firstMark_add_iff.mpr found, lineStart_add _ _ _ (Nat.le_of_lt within)⟩
  · rintro ⟨last, found, same⟩
    obtain ⟨between, rfl⟩ := Nat.exists_eq_add_of_le found.notBefore
    rw [lineStart_add _ _ _ (Nat.le_of_lt within)] at same
    exact ⟨between, firstMark_add_iff.mp found, Nat.add_left_cancel same⟩

/-- The line is among those that are left where the search for it begins. -/
theorem FirstMark.marks_drop (found : FirstMark marker lines start number) :
    ∃ line, (lines.drop start)[number - start]? = some line ∧ Marks marker line := by
  obtain ⟨between, rfl⟩ := Nat.exists_eq_add_of_le found.notBefore
  simpa using found.marks

theorem FirstMark.from_itself (found : FirstMark marker lines start number) :
    FirstMark marker lines number number :=
  ⟨Nat.le_refl number, found.marks, fun earlier _ after before => absurd before (by omega)⟩

theorem FirstMark.unique {other : Nat} (found : FirstMark marker lines start number)
    (again : FirstMark marker lines start other) : number = other := by
  obtain ⟨line, here, marks⟩ := found.marks
  obtain ⟨line', here', marks'⟩ := again.marks
  rcases Nat.lt_trichotomy number other with before | same | after
  · exact absurd marks (again.first number line found.notBefore before here)
  · exact same
  · exact absurd marks' (found.first other line' again.notBefore after here')

theorem FirstMark.marked_from (found : FirstMark marker lines start number) :
    ∃ line ∈ lines.drop start, Marks marker line := by
  obtain ⟨line, here, marks⟩ := found.marks_drop
  exact ⟨line, List.mem_of_getElem? here, marks⟩

/-- The outcomes of a search, each with the lines that it comes of. -/
theorem find_outcomes {markers : Markers} (startSingle : '\n' ∉ markers.start)
    (finishSingle : '\n' ∉ markers.finish) (text : Text) :
    let lines := text.newlinePieces
    ((∀ line ∈ lines, ¬ Marks markers.start line) ∧ (∀ line ∈ lines, ¬ Marks markers.finish line) ∧
        find markers text = .ok none) ∨
      ((∀ line ∈ lines, ¬ Marks markers.start line) ∧ (∃ line ∈ lines, Marks markers.finish line) ∧
        find markers text = .error markers.start) ∨
      (∃ first, FirstMark markers.start lines 0 first ∧
        (∀ line ∈ lines.drop first, ¬ Marks markers.finish line) ∧ find markers text = .error markers.finish) ∨
      ∃ first last, FirstMark markers.start lines 0 first ∧ FirstMark markers.finish lines first last ∧
        find markers text = .ok (some ⟨lineStart lines first, lineStart lines last + markers.finish.length⟩) := by
  intro lines
  cases starts : findLine? markers.start text with
  | none =>
    have unstarted := (findLine?_eq_none_iff startSingle).mp starts
    cases finishes : findLine? markers.finish text with
    | none =>
      have unfinished := (findLine?_eq_none_iff finishSingle).mp finishes
      exact Or.inl ⟨unstarted, unfinished, by simp [find, starts, finishes]⟩
    | some offset =>
      obtain ⟨last, found, -⟩ := (findLine?_eq_some_iff finishSingle).mp finishes
      exact Or.inr (Or.inl ⟨unstarted, found.marked_from, by simp [find, starts, finishes]⟩)
  | some offset =>
    obtain ⟨first, found, rfl⟩ := (findLine?_eq_some_iff startSingle).mp starts
    cases finishes : findLine? markers.finish (text.drop (lineStart text.newlinePieces first)) with
    | none =>
      have absent := (findLine?_eq_none_iff finishSingle).mp finishes
      rw [newlinePieces_drop found.lt_length] at absent
      exact Or.inr (Or.inr (Or.inl ⟨first, found, absent, by simp [find, starts, finishes]⟩))
    | some distance =>
      obtain ⟨last, foundLast, past⟩ :=
        (findLine?_drop_eq_some_iff finishSingle found.lt_length).mp finishes
      exact Or.inr (Or.inr (Or.inr ⟨first, last, found, foundLast, by simp [find, starts, finishes, past, lines]⟩))

/-- The search for a block is a search for lines. There is no block where no line counts as
either marker; a marker is missing where only a line for the other one is there, or where none
for the end marker comes at or after the first one for the start marker; and a block goes from
the first line for the start marker to the end marker of the first line for it from there on. -/
theorem find_by_lines {markers : Markers} (startSingle : '\n' ∉ markers.start)
    (finishSingle : '\n' ∉ markers.finish) (text : Text) :
    let lines := text.newlinePieces
    (find markers text = .ok none ↔
        (∀ line ∈ lines, ¬ Marks markers.start line) ∧ ∀ line ∈ lines, ¬ Marks markers.finish line) ∧
      (find markers text = .error markers.start ↔
        (∃ line ∈ lines, Marks markers.finish line) ∧ ∀ line ∈ lines, ¬ Marks markers.start line) ∧
      (find markers text = .error markers.finish ↔
        ∃ first, FirstMark markers.start lines 0 first ∧
          ∀ line ∈ lines.drop first, ¬ Marks markers.finish line) ∧
      ∀ span, find markers text = .ok (some span) ↔
        ∃ first last, FirstMark markers.start lines 0 first ∧ FirstMark markers.finish lines first last ∧
          span = ⟨lineStart lines first, lineStart lines last + markers.finish.length⟩ := by
  intro lines
  have unmarked {marker : Text} (absent : ∀ line ∈ lines, ¬ Marks marker line) (first : Nat) :
      ¬ FirstMark marker lines 0 first := fun found => by
    obtain ⟨line, member, marks⟩ := found.marked_from
    exact absent line member marks
  -- The outcomes shut each other out, so that whichever comes about settles all that is said.
  rcases find_outcomes startSingle finishSingle text with ⟨unstarted, unfinished, result⟩ |
    ⟨unstarted, ⟨line, member, marks⟩, result⟩ | ⟨first, found, absent, result⟩ |
    ⟨first, last, found, foundLast, result⟩
  · have unfound := unmarked unstarted
    have unended : ¬ ∃ line ∈ lines, Marks markers.finish line := fun ⟨line, member, marks⟩ =>
      unfinished line member marks
    rw [result]
    exact ⟨by simpa using ⟨unstarted, unfinished⟩, by simp [unended], by simp [unfound], by simp [unfound]⟩
  · have unfound := unmarked unstarted
    have differ : markers.start ≠ markers.finish := fun same => unstarted line member (same ▸ marks)
    have ended : ¬ ∀ line ∈ lines, ¬ Marks markers.finish line := fun absent => absent line member marks
    rw [result]
    exact ⟨by simp [ended], by simpa using ⟨⟨line, member, marks⟩, unstarted⟩, by simp [unfound, differ],
      by simp [unfound]⟩
  · have started : ¬ ∀ line ∈ lines, ¬ Marks markers.start line := fun unstarted => unmarked unstarted first found
    have unended (other last : Nat) (again : FirstMark markers.start lines 0 other) :
        ¬ FirstMark markers.finish lines other last := fun foundLast => by
      obtain ⟨line, member, marks⟩ := foundLast.marked_from
      rw [again.unique found] at member
      exact absent line member marks
    have differ : markers.finish ≠ markers.start := fun same =>
      unended first first found (same ▸ found.from_itself)
    rw [result]
    refine ⟨by simp [started], by simp [differ, started], by simpa using ⟨first, found, absent⟩, fun span => ?_⟩
    exact iff_of_false (by simp) fun ⟨other, last, again, foundLast, _⟩ => unended other last again foundLast
  · have started : ¬ ∀ line ∈ lines, ¬ Marks markers.start line := fun unstarted => unmarked unstarted first found
    rw [result]
    refine ⟨by simp [started], by simp [started], ?_, fun span => ?_⟩
    · refine iff_of_false (by simp) fun ⟨other, again, absent⟩ => ?_
      obtain ⟨line, member, marks⟩ := foundLast.marked_from
      rw [found.unique again] at member
      exact absent line member marks
    · rw [Except.ok.injEq, Option.some.injEq]
      constructor
      · rintro rfl
        exact ⟨first, last, found, foundLast, rfl⟩
      · rintro ⟨other, otherLast, again, againLast, rfl⟩
        obtain rfl := again.unique found
        obtain rfl := againLast.unique foundLast
        rfl

/-- An empty end marker, and a start marker that goes on, stands inside of a line and is followed
by a carriage return. -/
theorem find_by_lines_knotted :
    let markers : Markers := ⟨">>", ""⟩
    let text : Text := "> >>\n>>>\n>>\rx\n\n"
    '\n' ∉ markers.start ∧ '\n' ∉ markers.finish ∧ find markers text = .ok (some ⟨9, 14⟩) := by
  intro markers text
  have startSingle : '\n' ∉ markers.start := by decide
  have finishSingle : '\n' ∉ markers.finish := by decide
  have starts : FirstMark markers.start text.newlinePieces 0 2 :=
    firstMark_succ_iff.mpr ⟨by decide, firstMark_succ_iff.mpr
      ⟨by decide, firstMark_zero_iff.mpr (by decide)⟩⟩
  have ends : FirstMark markers.finish text.newlinePieces 2 (2 + 1) :=
    firstMark_add_iff.mpr (firstMark_succ_iff.mpr ⟨by decide, firstMark_zero_iff.mpr (by decide)⟩)
  obtain ⟨-, -, -, found⟩ := find_by_lines startSingle finishSingle text
  exact ⟨startSingle, finishSingle, (found _).mpr ⟨2, 3, starts, ends, rfl⟩⟩

end TabCompletion.Block
