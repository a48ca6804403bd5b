import TabCompletion.Text.Line

namespace TabCompletion.Text

theorem lines_pair (rest : Text) : lines ('\r' :: '\n' :: rest) = [] :: lines rest := by
  rw [lines]

theorem lines_cons {c : Char} {rest : Text} (single : ∀ tail, c = '\r' → rest ≠ '\n' :: tail) :
    lines (c :: rest) = if isLineBreak c then [] :: lines rest else consFirst c (lines rest) := by
  rw [lines]
  rintro tail same rfl
  exact single tail same rfl

theorem consFirst_ne_nil (c : Char) (lines : List Text) : consFirst c lines ≠ [] := by
  cases lines <;> exact List.cons_ne_nil _ _

theorem lines_ne_nil {text : Text} (filled : text ≠ []) : lines text ≠ [] := by
  fun_cases lines text with
  | case1 => exact absurd rfl filled
  | case2 rest => exact List.cons_ne_nil _ _
  | case3 c rest => exact List.cons_ne_nil _ _
  | case4 c rest => exact consFirst_ne_nil _ _

/-- A line feed ends a line, and what comes after it has lines of its own. -/
theorem lines_append_newline (before rest : Text) :
    lines (before ++ '\n' :: rest) = lines (before ++ ['\n']) ++ lines rest := by
  induction before using unifyNewlines.induct with
  | case1 =>
    have ended (rest : Text) : lines ('\n' :: rest) = [] :: lines rest :=
      lines_cons fun _ same => absurd same (by decide)
    rw [List.nil_append, List.nil_append, ended, ended]
    rfl
  | case2 before ih =>
    simp only [List.cons_append, lines_pair]
    rw [ih]
  | case3 c before single ih =>
    by_cases pair : c = '\r' ∧ before = []
    · obtain ⟨rfl, rfl⟩ := pair
      rw [List.cons_append, List.cons_append, List.nil_append, List.nil_append, lines_pair, lines_pair]
      rfl
    · have apart (more tail : Text) (carriage : c = '\r') : before ++ '\n' :: more ≠ '\n' :: tail := by
        cases before with
        | nil => exact absurd ⟨carriage, rfl⟩ pair
        | cons d before =>
          intro h
          simp only [List.cons_append, List.cons.injEq] at h
          exact single before carriage (by rw [h.1])
      have filled : before ++ ['\n'] ≠ [] := by simp
      obtain ⟨line, others, same⟩ := List.exists_cons_of_ne_nil (lines_ne_nil filled)
      rw [List.cons_append, List.cons_append, lines_cons (apart rest), lines_cons (apart []), ih, same]
      split <;> rfl

/-- A line that no character of its own breaks is one of the lines. -/
theorem lines_of_line {line : Text} (whole : ∀ c ∈ line, isLineBreak c = false) (rest : Text) :
    lines (line ++ '\n' :: rest) = line :: lines rest := by
  induction line with
  | nil =>
    rw [List.nil_append, lines_cons (fun _ same => absurd same (by decide))]
    rfl
  | cons c line ih =>
    have inner := whole c (List.mem_cons_self ..)
    have carriage (tail : Text) (same : c = '\r') : line ++ '\n' :: rest ≠ '\n' :: tail := by
      rw [same] at inner
      exact absurd inner (by decide)
    rw [List.cons_append, lines_cons carriage, ih fun d member => whole d (List.mem_cons_of_mem _ member),
      if_neg (by simp [inner])]
    rfl

/-- A text that no character of its own breaks is one line. -/
theorem lines_single {line : Text} (filled : line ≠ []) (whole : ∀ c ∈ line, isLineBreak c = false) :
    lines line = [line] := by
  induction line with
  | nil => exact absurd rfl filled
  | cons c rest ih =>
    have inner := whole c List.mem_cons_self
    have alone (tail : Text) (carriage : c = '\r') : rest ≠ '\n' :: tail := by
      rw [carriage] at inner
      exact absurd inner (by decide)
    rw [lines_cons alone, if_neg (by simp [inner])]
    cases rest with
    | nil => rfl
    | cons d more =>
      rw [ih (List.cons_ne_nil d more) fun e member => whole e (List.mem_cons_of_mem c member)]
      rfl

theorem unifyNewlines_append_newline (before rest : Text) :
    ∃ first, unifyNewlines (before ++ '\n' :: rest) = first ++ '\n' :: unifyNewlines rest := by
  induction before using unifyNewlines.induct with
  | case1 => exact ⟨[], by rw [List.nil_append, unifyNewlines]; rfl; simp⟩
  | case2 before ih =>
    obtain ⟨first, same⟩ := ih
    exact ⟨'\n' :: first, by rw [List.cons_append, List.cons_append, unifyNewlines, same]; rfl⟩
  | case3 c before single ih =>
    by_cases pair : c = '\r' ∧ before = []
    · obtain ⟨rfl, rfl⟩ := pair
      exact ⟨[], by rw [List.cons_append, List.nil_append, unifyNewlines]; rfl⟩
    · obtain ⟨first, same⟩ := ih
      refine ⟨(if c = '\r' then '\n' else c) :: first, ?_⟩
      rw [List.cons_append, unifyNewlines, same]
      · rfl
      · intro tail carriage h
        cases before with
        | nil => exact absurd ⟨carriage, rfl⟩ pair
        | cons d before =>
          simp only [List.cons_append, List.cons.injEq] at h
          exact single before carriage (by rw [h.1])

/-- Text without carriage returns stands unchanged before whatever follows. -/
theorem unifyNewlines_append {plain : Text} (without : '\r' ∉ plain) (rest : Text) :
    unifyNewlines (plain ++ rest) = plain ++ unifyNewlines rest := by
  induction plain with
  | nil => rfl
  | cons c plain ih =>
    simp only [List.mem_cons, not_or] at without
    rw [List.cons_append, unifyNewlines, ih without.2, if_neg (fun same => without.1 same.symm)]
    · rfl
    · exact fun _ same => absurd same.symm without.1

/-- A text is one piece, or a piece and a line feed before the others. -/
theorem newlinePieces_cases (text : Text) :
    '\n' ∉ text ∧ text.newlinePieces = [text] ∨
      ∃ first rest : Text, text = first ++ '\n' :: rest ∧ '\n' ∉ first ∧
        text.newlinePieces = first :: rest.newlinePieces := by
  by_cases feed : '\n' ∈ text
  · obtain ⟨first, rest, rfl, whole⟩ := List.eq_append_cons_of_mem feed
    exact Or.inr ⟨first, rest, rfl, whole, List.splitOn_append_cons_self_of_not_mem whole rest⟩
  · exact Or.inl ⟨feed, List.splitOn_eq_singleton feed⟩

/-- A law of texts holds when it holds of each text without line feeds and is kept by a line
put before a text. -/
@[elab_as_elim]
theorem newlineInduction {motive : Text → Prop} (single : ∀ line, '\n' ∉ line → motive line)
    (line : ∀ line rest, '\n' ∉ line → motive rest → motive (line ++ '\n' :: rest)) (text : Text) :
    motive text := by
  induction size : text.length using Nat.strongRecOn generalizing text with
  | ind n ih =>
    rcases text.newlinePieces_cases with ⟨whole, -⟩ | ⟨first, rest, rfl, whole, -⟩
    · exact single text whole
    · have shorter : rest.length < n := by
        rw [← size, List.length_append, List.length_cons]
        omega
      exact line first rest whole (ih rest.length shorter rest rfl)

theorem newlinePieces_single {line : Text} (whole : '\n' ∉ line) : line.newlinePieces = [line] :=
  List.splitOn_eq_singleton whole

theorem newlinePieces_line {line : Text} (whole : '\n' ∉ line) (rest : Text) :
    newlinePieces (line ++ '\n' :: rest) = line :: rest.newlinePieces :=
  List.splitOn_append_cons_self_of_not_mem whole rest

theorem newlinePieces_lines {lines : List Text} (whole : ∀ line ∈ lines, '\n' ∉ line) :
    newlinePieces (lines.map (· ++ ['\n'])).flatten = lines ++ [[]] := by
  induction lines with
  | nil => rfl
  | cons line lines ih =>
    have rest : newlinePieces (line ++ '\n' :: (lines.map (· ++ ['\n'])).flatten) = _ :=
      newlinePieces_line (whole line List.mem_cons_self) _
    rw [ih fun other member => whole other (List.mem_cons_of_mem _ member)] at rest
    simpa using rest

/-- The pieces on both sides of a line feed are those of the whole. -/
theorem newlinePieces_append_newline (text rest : Text) :
    newlinePieces (text ++ '\n' :: rest) = text.newlinePieces ++ rest.newlinePieces := by
  induction text using newlineInduction with
  | single line whole => rw [newlinePieces_line whole, newlinePieces_single whole, List.singleton_append]
  | line line more whole ih =>
    rw [List.append_assoc, List.cons_append, newlinePieces_line whole, newlinePieces_line whole, ih,
      List.cons_append]

theorem mem_of_mem_newlinePieces {text piece : Text} {c : Char}
    (member : piece ∈ text.newlinePieces) (inside : c ∈ piece) : c ∈ text := by
  induction text using newlineInduction with
  | single line whole =>
    rw [newlinePieces_single whole] at member
    rwa [← List.mem_singleton.mp member]
  | line line rest whole ih =>
    rw [newlinePieces_line whole] at member
    rcases List.mem_cons.mp member with rfl | later
    · exact List.mem_append_left _ inside
    · exact List.mem_append_right _ (List.mem_cons_of_mem _ (ih later))

end TabCompletion.Text
