namespace TabCompletion

/-- A text is the list of its characters, so that offsets and lengths count
characters and a law about all texts is an induction. -/
abbrev Text := List Char

instance : Coe String Text := ⟨String.toList⟩

namespace Text

/-- The parts in order, with the separator between neighbours. -/
def join (separator : Text) (parts : List Text) : Text :=
  separator.intercalate parts

theorem mem_join {separator : Text} {parts : List Text} {c : Char} (member : c ∈ join separator parts) :
    c ∈ separator ∨ ∃ part ∈ parts, c ∈ part := by
  induction parts with
  | nil => simp [join] at member
  | cons part rest ih =>
    cases rest with
    | nil => exact Or.inr ⟨part, List.mem_cons_self, by simpa [join] using member⟩
    | cons next more =>
      rw [join, List.intercalate_cons_cons, List.mem_append, List.mem_append] at member
      rcases member with (first | between) | later
      · exact Or.inr ⟨part, List.mem_cons_self, first⟩
      · exact Or.inl between
      · exact (ih later).imp id fun ⟨other, among, inside⟩ =>
          ⟨other, List.mem_cons_of_mem _ among, inside⟩

/-- The decimal digits of a natural number. -/
def ofNat (n : Nat) : Text :=
  Nat.toDigits 10 n

/-- The decimal digits of an integer, after a minus sign when it is negative. -/
def ofInt (n : Int) : Text :=
  if n < 0 then '-' :: ofNat n.natAbs else ofNat n.natAbs

/-- The text without the characters to cut at its two ends. -/
def trimWith (cut : Char → Bool) (text : Text) : Text :=
  ((text.dropWhile cut).reverse.dropWhile cut).reverse

/-- The text without its longest run of the given character at the end. -/
def dropFinal (c : Char) (text : Text) : Text :=
  (text.reverse.dropWhile (· == c)).reverse

/-- The rest of the text after the given beginning, when the text begins so. -/
def rest? (text beginning : Text) : Option Text :=
  beginning.isPrefixOf? text

/-- The count of bytes that the text has in UTF-8. -/
def byteCount : Text → Nat
  | [] => 0
  | c :: rest => c.utf8Size + byteCount rest

/-- Whether one text comes before the other in the order of their characters, or is it. -/
def atMost : Text → Text → Bool
  | [], _ => true
  | _ :: _, [] => false
  | c :: rest, d :: others => c.toNat < d.toNat || (c == d && atMost rest others)

theorem atMost_total (first second : Text) :
    atMost first second = true ∨ atMost second first = true := by
  induction first generalizing second with
  | nil => exact Or.inl rfl
  | cons c rest ih =>
    cases second with
    | nil => exact Or.inr rfl
    | cons d others =>
      rcases Nat.lt_trichotomy c.toNat d.toNat with less | same | more
      · simp [atMost, less]
      · have same := Char.toNat_inj.1 same
        subst same
        simpa [atMost] using ih others
      · simp [atMost, more]

/-- Whether one text occurs in the other as a run of neighbouring characters. -/
def occursIn (part : Text) : Text → Bool
  | [] => part.isEmpty
  | c :: rest => part.isPrefixOf (c :: rest) || occursIn part rest

theorem occursIn_iff (part text : Text) :
    occursIn part text = true ↔ ∃ before after, text = before ++ part ++ after := by
  induction text with
  | nil =>
    simp only [occursIn, List.isEmpty_iff]
    constructor
    · rintro rfl
      exact ⟨[], [], rfl⟩
    · rintro ⟨before, after, h⟩
      simp_all
  | cons c rest ih =>
    simp only [occursIn, Bool.or_eq_true, List.isPrefixOf_iff_prefix, ih]
    constructor
    · rintro (⟨after, h⟩ | ⟨before, after, h⟩)
      · exact ⟨[], after, by simp [h]⟩
      · exact ⟨c :: before, after, by simp [h]⟩
    · rintro ⟨before, after, h⟩
      cases before with
      | nil => exact Or.inl ⟨after, by simpa using h.symm⟩
      | cons d before =>
        simp only [List.cons_append, List.cons.injEq] at h
        exact Or.inr ⟨before, after, h.2⟩

end Text

/-- Whether a number lies in one of the ranges, both ends included. -/
def inRanges (ranges : List (Nat × Nat)) (n : Nat) : Bool :=
  ranges.any fun range => range.1 ≤ n && n ≤ range.2

end TabCompletion
