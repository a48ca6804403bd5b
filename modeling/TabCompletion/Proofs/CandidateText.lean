import TabCompletion.CommandLine.Run
import TabCompletion.Proofs.Line
import TabCompletion.Proofs.Listing
import TabCompletion.Proofs.Session

namespace TabCompletion

namespace Text

/-- The order of texts by their code points, in which no text stands before itself. -/
abbrev Before : Text → Text → Prop :=
  List.Lex fun c d => c.toNat < d.toNat

theorem atMost_iff {first second : Text} :
    atMost first second = true ↔ first = second ∨ Before first second := by
  fun_induction atMost first second with
  | case1 second =>
    cases second with
    | nil => simp
    | cons d others => simp
  | case2 c rest =>
    simp only [Bool.false_eq_true, reduceCtorEq, false_or, false_iff]
    rintro ⟨⟩
  | case3 c rest d others ih =>
    simp only [Bool.or_eq_true, decide_eq_true_eq, Bool.and_eq_true, beq_iff_eq, ih]
    constructor
    · rintro (less | ⟨rfl, rfl | before⟩)
      · exact Or.inr (.rel less)
      · exact Or.inl rfl
      · exact Or.inr (.cons before)
    · rintro (same | before)
      · obtain ⟨rfl, rfl⟩ := List.cons.inj same
        exact Or.inr ⟨rfl, Or.inl rfl⟩
      · cases before with
        | rel less => exact Or.inl less
        | cons before => exact Or.inr ⟨rfl, Or.inr before⟩

theorem atMost_trans {first second third : Text} (low : atMost first second = true)
    (high : atMost second third = true) : atMost first third = true := by
  induction first generalizing second third with
  | nil => rfl
  | cons c rest ih =>
    obtain _ | ⟨d, others⟩ := second
    · cases low
    · obtain _ | ⟨e, more⟩ := third
      · cases high
      · simp only [atMost, Bool.or_eq_true, decide_eq_true_eq, Bool.and_eq_true, beq_iff_eq] at low high ⊢
        rcases low with less | ⟨rfl, low⟩
        · rcases high with further | ⟨rfl, -⟩
          · exact Or.inl (Nat.lt_trans less further)
          · exact Or.inl less
        · rcases high with less | ⟨rfl, high⟩
          · exact Or.inl less
          · exact Or.inr ⟨rfl, ih low high⟩

/-- Distinct texts put in order stand strictly before one another. -/
theorem mergeSort_before {names : List Text} (distinct : names.Nodup) :
    (names.mergeSort atMost).Pairwise Before := by
  have sorted : (names.mergeSort atMost).Pairwise fun first second => atMost first second = true :=
    @List.pairwise_mergeSort Text atMost (fun _ _ _ => atMost_trans)
      (fun first second => by simpa using atMost_total first second) names
  have apart := (List.mergeSort_perm names atMost).nodup_iff.mpr distinct
  refine (sorted.and apart).imp fun {first second} both => ?_
  exact (atMost_iff.mp both.1).resolve_left both.2

theorem join_newline {lines : List Text} (nonempty : lines ≠ []) :
    join ['\n'] lines ++ ['\n'] = (lines.map (· ++ ['\n'])).flatten := by
  induction lines with
  | nil => exact absurd rfl nonempty
  | cons line lines ih =>
    cases lines with
    | nil => simp [join, List.intercalate]
    | cons next lines =>
      rw [join, List.intercalate_cons_cons, List.map_cons, List.flatten_cons, ← ih (by simp), join]
      simp

end Text

/-- Lines that are joined can be written where each of them can be. -/
theorem Charset.spells_join_iff {charset : Charset} {lines : List Text} :
    charset.Spells (Text.join ['\n'] lines) ↔ ∀ line ∈ lines, charset.Spells line := by
  have newline : charset.has '\n' = true := charset.ascii '\n' (by decide)
  by_cases nonempty : lines = []
  · subst nonempty
    simp [Charset.Spells, Text.join]
  · have whole : charset.Spells (Text.join ['\n'] lines) ↔
        charset.Spells ((lines.map (· ++ ['\n'])).flatten) := by
      rw [← Text.join_newline nonempty]
      simp [Charset.Spells, or_imp, forall_and, newline]
    rw [whole]
    constructor
    · intro all line among character inside
      exact all character (List.mem_flatten.mpr
        ⟨_, List.mem_map_of_mem among, List.mem_append_left _ inside⟩)
    · intro all character inside
      obtain ⟨piece, member, inside⟩ := List.mem_flatten.mp inside
      obtain ⟨line, among, rfl⟩ := List.mem_map.mp member
      rcases List.mem_append.mp inside with inside | last
      · exact all line among character inside
      · rwa [List.mem_singleton.mp last]

/-- Lines that are joined get one more line end, which the last of them lacks. -/
theorem Console.out_data_lines {lines : List Text} (whole : ∀ line ∈ lines, line ≠ [] ∧ '\n' ∉ line)
    (nonempty : lines ≠ []) (console : Console) :
    (console.data (Text.join ['\n'] lines)).out =
      console.out ++ (lines.map (· ++ ['\n'])).flatten := by
  have unended : (Text.join ['\n'] lines).getLast? ≠ some '\n' := by
    obtain ⟨before, last, rfl⟩ := (List.eq_nil_or_concat lines).resolve_left nonempty
    rw [List.concat_eq_append] at whole ⊢
    obtain ⟨written, single⟩ := whole last (by simp)
    obtain ⟨start, final, rfl⟩ := (List.eq_nil_or_concat last).resolve_left written
    rw [List.concat_eq_append] at single ⊢
    have differ : final ≠ '\n' := fun same => single (by simp [same])
    rw [Text.join_concat]
    split
    · simp [differ]
    · rw [← List.append_assoc, List.getLast?_concat]
      simp [differ]
  rw [Console.data, if_neg unended, ← Text.join_newline nonempty, List.append_assoc]

namespace Project

/-- What the completion takes from one line of a list: what is before the first tab, and what
is after it. -/
def readCandidate (line : Text) : Text × Text :=
  let name := line.takeWhile (· != '\t')
  (name, line.drop (name.length + 1))

/-- What the completion reads from a list. Only what a line end follows is a line, and a line
that leaves one of its parts empty is passed over. -/
def readCandidates (written : Text) : List (Text × Text) :=
  (written.newlinePieces.dropLast.map readCandidate).filter fun (name, label) =>
    !name.isEmpty && !label.isEmpty

theorem readCandidate_line {name : Text} (single : '\t' ∉ name) (label : Text) :
    readCandidate (name ++ '\t' :: label) = (name, label) := by
  have taken : (name ++ '\t' :: label).takeWhile (· != '\t') = name := by
    have inside (c : Char) (member : c ∈ name) : (c != '\t') = true := by
      have differ : c ≠ '\t' := fun same => single (same ▸ member)
      simp [differ]
    rw [List.takeWhile_append_of_pos inside]
    simp
  simp [readCandidate, taken]

/-- One name on a line, with the label after a tab. -/
def candidateLine (label name : Text) : Text :=
  name ++ '\t' :: label

theorem readCandidates_lines {names : List Text} {label : Text} (labelled : label ≠ [])
    (unbroken : '\n' ∉ label) (plain : ∀ name ∈ names, name ≠ [] ∧ '\t' ∉ name ∧ '\n' ∉ name) :
    readCandidates ((names.map (candidateLine label)).map (· ++ ['\n'])).flatten =
      names.map fun name => (name, label) := by
  have whole : ∀ line ∈ names.map (candidateLine label), '\n' ∉ line := by
    intro line member
    obtain ⟨name, among, rfl⟩ := List.mem_map.mp member
    simp [candidateLine, (plain name among).2.2, unbroken]
  have read : (names.map (candidateLine label)).map readCandidate = names.map fun name => (name, label) := by
    rw [List.map_map]
    exact List.map_congr_left fun name among => readCandidate_line (plain name among).2.1 label
  rw [readCandidates, Text.newlinePieces_lines whole, List.dropLast_concat, read, List.filter_eq_self]
  intro entry member
  obtain ⟨name, among, rfl⟩ := List.mem_map.mp member
  simp [(plain name among).1, labelled]

end Project

end TabCompletion
