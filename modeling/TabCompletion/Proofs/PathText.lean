import TabCompletion.Proofs.Listing

namespace TabCompletion

/-- No piece between the separators of a text has a separator in it. -/
theorem Text.not_mem_of_mem_splitOn {separator : Char} {text piece : Text}
    (member : piece ∈ text.splitOn separator) : separator ∉ piece := by
  by_cases separated : separator ∈ text
  · obtain ⟨before, after, whole, unseparated⟩ := List.eq_append_cons_of_mem separated
    rw [whole, List.splitOn_append_cons_self_of_not_mem unseparated] at member
    rcases List.mem_cons.mp member with rfl | later
    · exact unseparated
    · have shorter : after.length < text.length := by
        rw [whole, List.length_append, List.length_cons]
        omega
      exact not_mem_of_mem_splitOn later
  · rw [List.splitOn_eq_singleton separated, List.mem_singleton] at member
    rwa [member]
termination_by text.length

namespace Path

/-- One path is another or stands above it, by their parts alone. -/
structure AtOrAbove (above path : Path) : Prop where
  anchor : above.anchor = path.anchor
  parts : above.parts <+: path.parts

/-- A path with more parts after its own. -/
def under (path : Path) (parts : List Text) : Path :=
  ⟨path.anchor, path.parts ++ parts⟩

theorem under_nil (path : Path) : path.under [] = path := by
  rw [under, List.append_nil]

theorem under_under (path : Path) (parts more : List Text) :
    (path.under parts).under more = path.under (parts ++ more) := by
  rw [under, under, under, List.append_assoc]

theorem under_isAbsolute (path : Path) (parts : List Text) : (path.under parts).isAbsolute = path.isAbsolute := rfl

theorem under_inj {path other : Path} {parts : List Text} : path.under parts = other.under parts ↔ path = other := by
  constructor
  · intro same
    obtain ⟨anchor, names⟩ := path
    obtain ⟨otherAnchor, otherNames⟩ := other
    simp only [under, mk.injEq, List.append_cancel_right_eq] at same
    rw [same.1, same.2]
  · rintro rfl
    rfl

theorem div_eq_under {name : Text} (entry : IsEntry name) (base : Path) : base / name = base.under [name] :=
  div_eq_child entry.ofText base

theorem join_relative {path : Path} (relative : path.isAbsolute = false) (base : Path) :
    base.join path = base.under path.parts := by
  rw [join, relative]
  rfl

theorem join_absolute {path : Path} (absolute : path.isAbsolute = true) (base : Path) : base.join path = path := by
  rw [join, absolute]
  rfl

/-- The text of a path is absolute when it begins with a slash. -/
theorem ofText_isAbsolute {text : Text} (rooted : text.head? = some '/') : (ofText text).isAbsolute = true := by
  rw [ofText, isAbsolute, bne_iff_ne]
  fun_cases anchorOf text with
  | case4 text _ _ unrooted =>
    obtain ⟨rest, rfl⟩ := List.head?_eq_some_iff.mp rooted
    exact absurd rfl (unrooted rest)
  | _ => simp

theorem ofText_relative {text : Text} (unrooted : text.head? ≠ some '/') : (ofText text).isAbsolute = false := by
  rw [ofText, isAbsolute, bne_eq_false_iff_eq]
  fun_cases anchorOf text with
  | case4 => rfl
  | _ => exact absurd rfl unrooted

/-- The parts of a text are those before a slash in it and those after it. -/
theorem parts_append_slash (before after : Text) :
    (ofText (before ++ '/' :: after)).parts = (ofText before).parts ++ (ofText after).parts := by
  simp only [ofText, List.splitOn_append_cons_self, List.filter_append]

theorem parts_slash (text : Text) : (ofText ('/' :: text)).parts = (ofText text).parts :=
  parts_append_slash [] text

/-- A part that a text spells is not empty, is no dot and has no slash in it. -/
theorem mem_parts_ofText {text part : Text} (member : part ∈ (ofText text).parts) :
    isPart part = true ∧ '/' ∉ part := by
  obtain ⟨piece, proper⟩ := List.mem_filter.mp member
  exact ⟨proper, Text.not_mem_of_mem_splitOn piece⟩

/-- Parts joined by slashes are read back as they are. -/
theorem parts_join {parts : List Text} (proper : ∀ part ∈ parts, isPart part = true ∧ '/' ∉ part) :
    (ofText (Text.join ['/'] parts)).parts = parts := by
  cases parts with
  | nil => rfl
  | cons part rest =>
    rw [ofText, Text.join, List.splitOn_intercalate '/' (fun _ member => (proper _ member).2) (by simp)]
    exact List.filter_eq_self.mpr fun _ member => (proper _ member).1

/-- Joined parts begin with what the first part begins with. -/
theorem join_eq_cons {parts : List Text} (some : parts ≠ [])
    (proper : ∀ part ∈ parts, isPart part = true ∧ '/' ∉ part) :
    ∃ c rest, c ≠ '/' ∧ Text.join ['/'] parts = c :: rest := by
  obtain ⟨part, more, rfl⟩ := List.exists_cons_of_ne_nil some
  obtain ⟨isPart, unslashed⟩ := proper part List.mem_cons_self
  cases part with
  | nil => cases isPart
  | cons c rest =>
    refine ⟨c, ?_⟩
    have other : c ≠ '/' := by
      rintro rfl
      exact unslashed List.mem_cons_self
    cases more with
    | nil => exact ⟨rest, other, by simp [Text.join]⟩
    | cons next more => exact ⟨_, other, by rw [Text.join, List.intercalate_cons_cons, List.cons_append, List.cons_append]⟩

theorem anchorOf_text {c : Char} (other : c ≠ '/') (anchor : Anchor) (rest : Text) :
    anchorOf (Anchor.text anchor ++ c :: rest) = anchor := by
  cases anchor <;> simp [anchorOf, Anchor.text, other]

theorem parts_anchor (anchor : Anchor) (text : Text) :
    (ofText (Anchor.text anchor ++ text)).parts = (ofText text).parts := by
  cases anchor with
  | relative => rfl
  | root => exact parts_slash text
  | doubleRoot => exact (parts_slash _).trans (parts_slash text)

/-- A path that a text spells, and that has parts, begins as its own text does. -/
theorem text_eq_cons {text : Text} (some : (ofText text).parts ≠ []) :
    ∃ c rest, c ≠ '/' ∧ Text.join ['/'] (ofText text).parts = c :: rest ∧
      (ofText text).text = Anchor.text (ofText text).anchor ++ c :: rest := by
  obtain ⟨c, rest, other, joined⟩ := join_eq_cons some fun _ member => mem_parts_ofText member
  refine ⟨c, rest, other, joined, ?_⟩
  rw [Path.text, joined]
  split
  · rename_i empty
    simp at empty
  · rfl

/-- The text of a path spells it again. -/
theorem ofText_text (text : Text) : ofText (ofText text).text = ofText text := by
  by_cases bare : (ofText text).parts = []
  · have same : ofText text = ⟨(ofText text).anchor, []⟩ := by rw [← bare]
    rw [same]
    cases (ofText text).anchor <;> decide
  · obtain ⟨c, rest, other, joined, spelled⟩ := text_eq_cons bare
    have parts : (ofText (Anchor.text (ofText text).anchor ++ c :: rest)).parts = (ofText text).parts := by
      rw [parts_anchor, ← joined, parts_join fun _ member => mem_parts_ofText member]
    calc ofText (ofText text).text
        = ⟨anchorOf (Anchor.text (ofText text).anchor ++ c :: rest), (ofText text).parts⟩ := by
          rw [spelled, ← parts]
          rfl
      _ = ofText text := by rw [anchorOf_text other]

/-- More text after that of a path, from a slash on, spells what is below the path. -/
theorem ofText_text_append {text : Text} (some : (ofText text).parts ≠ []) (rest : Text) :
    ofText ((ofText text).text ++ '/' :: rest) = (ofText text).under (ofText rest).parts := by
  obtain ⟨c, more, other, -, spelled⟩ := text_eq_cons some
  have anchor : anchorOf ((ofText text).text ++ '/' :: rest) = (ofText text).anchor := by
    rw [spelled, List.append_assoc, List.cons_append, anchorOf_text other]
  have parts := parts_append_slash (ofText text).text rest
  rw [ofText_text] at parts
  rw [under, ← parts, ← anchor]
  rfl

end Path

end TabCompletion
