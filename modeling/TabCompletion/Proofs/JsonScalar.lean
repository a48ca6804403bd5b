import TabCompletion.Json.Reader
import TabCompletion.Json.Writer

namespace TabCompletion

namespace Text

/-- The last of several hexadecimal digits. -/
theorem hex_succ {width : Nat} (wide : 0 < width) (n : Nat) :
    hex (width + 1) n = hex width (n / 16) ++ [(n % 16).digitChar] := by
  unfold hex
  by_cases small : n < 16
  · have none : n / 16 = 0 := Nat.div_eq_of_lt small
    have zero : Nat.toDigits 16 0 = ['0'] := rfl
    simp only [Nat.toDigits_of_lt_base small, none, Nat.mod_eq_of_lt small, zero,
      List.length_singleton, Nat.add_sub_cancel]
    rw [← List.replicate_succ', Nat.sub_add_cancel wide]
  · simp only [Nat.toDigits_of_base_le (by decide : 1 < 16) (Nat.le_of_not_lt small),
      List.length_append, List.length_singleton, Nat.add_sub_add_right, List.append_assoc]

theorem hex_four {n : Nat} (bound : n < 0x10000) :
    hex 4 n = [(n / 16 / 16 / 16).digitChar, (n / 16 / 16 % 16).digitChar, (n / 16 % 16).digitChar,
      (n % 16).digitChar] := by
  have top : n / 16 / 16 / 16 < 16 := by omega
  have single : hex 1 (n / 16 / 16 / 16) = [(n / 16 / 16 / 16).digitChar] := by
    rw [hex, Nat.toDigits_of_lt_base top]
    rfl
  rw [hex_succ (by decide), hex_succ (by decide), hex_succ (by decide), single]
  rfl

end Text

namespace Json

theorem hexDigit?_digitChar {digit : Nat} (bound : digit < 16) :
    hexDigit? digit.digitChar = some digit := by
  have every : ∀ digit < 16, hexDigit? digit.digitChar = some digit := by decide
  exact every digit bound

section Units

variable {unit : Nat} {rest : Text}

/-- A unit is read from its four digits, whatever follows them. -/
theorem hexUnit?_hex (bound : unit < 0x10000) (rest : Text) :
    hexUnit? (Text.hex 4 unit ++ rest) = some (unit, rest) := by
  have top : unit / 16 / 16 / 16 < 16 := by omega
  have place (n : Nat) : n % 16 < 16 := Nat.mod_lt n (by decide)
  rw [Text.hex_four bound]
  simp only [List.cons_append, List.nil_append, hexUnit?, hexDigit?_digitChar top,
    hexDigit?_digitChar (place _), Option.bind_eq_bind, Option.bind_some]
  congr 2
  omega

theorem drop_hex (bound : unit < 0x10000) (rest : Text) :
    (Text.hex 4 unit ++ rest).drop 4 = rest := by
  rw [Text.hex_four bound]
  rfl

/-- A unit that begins no pair is a character of its own. -/
theorem readUnits_single (bound : unit < 0x10000) (low : isHighUnit unit = false) (follows : rest ≠ []) :
    readUnits ('u' :: (Text.hex 4 unit ++ rest)) = .ok (unitChar unit, rest) := by
  obtain ⟨c, others, rfl⟩ := List.exists_cons_of_ne_nil follows
  simp only [readUnits, List.drop_one, List.tail_cons, hexUnit?_hex bound, low, Bool.false_and,
    Bool.false_eq_true, if_false]
  split <;> rfl

/-- The two units of a pair are read as one character. -/
theorem readUnits_pair {high low : Nat} (isHigh : isHighUnit high = true) (isLow : isLowUnit low = true)
    (follows : rest ≠ []) :
    readUnits ('u' :: (Text.hex 4 high ++ (unitEscape low ++ rest))) =
      .ok (Char.ofNat (0x10000 + (high - 0xD800) * 0x400 + (low - 0xDC00)), rest) := by
  have highBound : high < 0x10000 := by
    simp only [isHighUnit, Bool.and_eq_true, decide_eq_true_eq] at isHigh
    omega
  have lowBound : low < 0x10000 := by
    simp only [isLowUnit, Bool.and_eq_true, decide_eq_true_eq] at isLow
    omega
  obtain ⟨c, others, rfl⟩ := List.exists_cons_of_ne_nil follows
  have mark : unitEscape low ++ c :: others = '\\' :: 'u' :: (Text.hex 4 low ++ c :: others) := rfl
  simp only [readUnits, List.drop_one, List.tail_cons, hexUnit?_hex highBound, mark, unitMark?, isHigh,
    drop_hex lowBound, List.isEmpty_cons, Bool.not_false, Bool.and_self, if_true, hexUnit?_hex lowBound,
    isLow]

end Units

/-- A character is written as a letter after a backslash, as itself, as one unit, or as two. -/
theorem stringChar_cases (c : Char) :
    (∃ letter, stringChar c = ['\\', letter] ∧ escapedChar? letter = some c) ∨
      (stringChar c = [c] ∧ 0x20 ≤ c.toNat ∧ c.toNat < 0x7F ∧ c ≠ '"' ∧ c ≠ '\\') ∨
      (stringChar c = unitEscape c.toNat ∧ c.toNat < 0x10000 ∧ isHighUnit c.toNat = false ∧
        unitChar c.toNat = c) ∨
      ∃ high low, stringChar c = unitEscape high ++ unitEscape low ∧ isHighUnit high = true ∧
        isLowUnit low = true ∧ Char.ofNat (0x10000 + (high - 0xD800) * 0x400 + (low - 0xDC00)) = c := by
  have valid : c.toNat < 0xD800 ∨ 0xDFFF < c.toNat ∧ c.toNat < 0x110000 := c.valid
  have same : Char.ofNat c.toNat = c := Char.ofNat_toNat c
  by_cases special : c ∈ ['"', '\\', '\n', '\r', '\t', '\x08', '\x0C']
  · refine Or.inl ?_
    simp only [List.mem_cons, List.not_mem_nil, or_false] at special
    rcases special with rfl | rfl | rfl | rfl | rfl | rfl | rfl <;> exact ⟨_, rfl, rfl⟩
  · refine Or.inr ?_
    simp only [List.mem_cons, List.not_mem_nil, or_false, not_or] at special
    unfold stringChar
    simp only [special, if_false, Bool.and_eq_true, decide_eq_true_eq]
    split
    · rename_i printable
      exact Or.inl ⟨rfl, printable.1, printable.2, special.1, special.2.1⟩
    · refine Or.inr ?_
      split
      · rename_i bound
        have proper : ¬ (0xD800 ≤ c.toNat ∧ c.toNat < 0xE000) := by omega
        refine Or.inl ⟨rfl, bound, ?_, ?_⟩
        · simp only [isHighUnit, Bool.and_eq_false_iff, decide_eq_false_iff_not]
          omega
        · simp only [unitChar, Bool.and_eq_true, decide_eq_true_eq, proper, if_false, same]
      · rename_i large
        refine Or.inr ⟨_, _, rfl, ?_, ?_, ?_⟩
        · simp only [isHighUnit, Bool.and_eq_true, decide_eq_true_eq]
          omega
        · simp only [isLowUnit, Bool.and_eq_true, decide_eq_true_eq]
          omega
        · refine Eq.trans (congrArg Char.ofNat ?_) same
          omega

section Strings

variable (opening : Text) (fuel : Nat) {rest : Text}

/-- A string that goes on after one of its characters. -/
def afterChar (c : Char) : Except Fault (Text × Text) → Except Fault (Text × Text)
  | .ok (tail, after) => .ok (c :: tail, after)
  | .error fault => .error fault

theorem readStringFrom_escaped {letter c : Char} (escape : escapedChar? letter = some c) (rest : Text) :
    readStringFrom opening (fuel + 1) ('\\' :: letter :: rest) =
      afterChar c (readStringFrom opening fuel rest) := by
  have unlike : letter ≠ 'u' := by
    rintro rfl
    cases escape
  rw [readStringFrom]
  · simp only [escape]
    cases readStringFrom opening fuel rest <;> rfl
  · exact unlike

theorem readStringFrom_units {c : Char} {units : Text}
    (read : readUnits ('u' :: units) = .ok (c, rest)) :
    readStringFrom opening (fuel + 1) ('\\' :: 'u' :: units) =
      afterChar c (readStringFrom opening fuel rest) := by
  rw [readStringFrom]
  simp only [read, bind, Except.bind]
  cases readStringFrom opening fuel rest <;> rfl

theorem readStringFrom_plain {c : Char} (printable : 0x20 ≤ c.toNat) (unquoted : c ≠ '"')
    (unescaped : c ≠ '\\') (rest : Text) :
    readStringFrom opening (fuel + 1) (c :: rest) = afterChar c (readStringFrom opening fuel rest) := by
  rw [readStringFrom]
  · rw [if_neg (Nat.not_lt_of_le printable)]
    dsimp only
    cases readStringFrom opening fuel rest <;> rfl
  · exact unquoted
  · exact fun same _ => unescaped same
  · exact fun _ same _ => unescaped same
  · exact fun _ _ same _ => unescaped same

/-- A written character is read back, whatever it takes to write it. -/
theorem readStringFrom_char (c : Char) (follows : rest ≠ []) :
    readStringFrom opening (fuel + 1) (stringChar c ++ rest) =
      afterChar c (readStringFrom opening fuel rest) := by
  rcases stringChar_cases c with ⟨letter, written, escape⟩ | ⟨written, printable, -, unquoted, unescaped⟩ |
    ⟨written, bound, single, whole⟩ | ⟨high, low, written, isHigh, isLow, whole⟩ <;> rw [written]
  · exact readStringFrom_escaped opening fuel escape rest
  · exact readStringFrom_plain opening fuel printable unquoted unescaped rest
  · have read := readUnits_single bound single follows
    rw [whole] at read
    exact readStringFrom_units opening fuel read
  · have read := readUnits_pair isHigh isLow follows
    rw [whole] at read
    rw [List.append_assoc]
    exact readStringFrom_units opening fuel read

theorem readStringFrom_written {fuel : Nat} {text : Text} (enough : text.length < fuel) (rest : Text) :
    readStringFrom opening fuel (text.flatMap stringChar ++ '"' :: rest) = .ok (text, rest) := by
  obtain ⟨fuel, rfl⟩ := Nat.exists_eq_add_one_of_ne_zero (Nat.ne_zero_of_lt enough)
  induction text generalizing fuel with
  | nil => rw [List.flatMap_nil, List.nil_append, readStringFrom]
  | cons c text ih =>
    rw [List.length_cons, Nat.add_lt_add_iff_right] at enough
    obtain ⟨fuel, rfl⟩ := Nat.exists_eq_add_one_of_ne_zero (Nat.ne_zero_of_lt enough)
    rw [List.flatMap_cons, List.append_assoc, readStringFrom_char opening _ c (by simp), ih _ enough]
    rfl

theorem length_le_length_flatMap (text : Text) : text.length ≤ (text.flatMap stringChar).length := by
  induction text with
  | nil => exact Nat.le_refl 0
  | cons c text ih =>
    have one : 1 ≤ (stringChar c).length := by
      rcases stringChar_cases c with ⟨_, written, -⟩ | ⟨written, -⟩ | ⟨written, -⟩ | ⟨_, _, written, -⟩ <;>
        rw [written] <;> simp [unitEscape]
    rw [List.flatMap_cons, List.length_append, List.length_cons]
    omega

/-- A written string is read back, whatever follows it. -/
theorem readString_written (text rest : Text) :
    readString (writeString text ++ rest) = .ok (text, rest) := by
  have whole : writeString text ++ rest = '"' :: (text.flatMap stringChar ++ '"' :: rest) := by
    simp [writeString]
  have shorter := length_le_length_flatMap text
  rw [readString, whole, List.drop_one, List.tail_cons]
  refine readStringFrom_written _ ?_ rest
  rw [List.length_cons, List.length_append, List.length_cons]
  omega

end Strings

section Numbers

theorem isDigit_of_mem_ofNat {n : Nat} {c : Char} (member : c ∈ Text.ofNat n) : isDigit c = true :=
  Nat.isDigit_of_mem_toDigits (by decide) (by decide) member

theorem ne_of_isDigit {c other : Char} (digit : isDigit c = true) (letter : isDigit other = false) :
    other ≠ c := by
  rintro rfl
  rw [digit] at letter
  cases letter

theorem ofNat_head (n : Nat) : ∃ c rest, Text.ofNat n = c :: rest ∧ isDigit c = true := by
  obtain ⟨c, rest, digits⟩ := List.exists_cons_of_ne_nil (@Nat.toDigits_ne_nil n 10)
  exact ⟨c, rest, digits, isDigit_of_mem_ofNat (by rw [Text.ofNat, digits]; exact List.mem_cons_self)⟩

/-- A whole number begins with a digit, or with one after a minus sign. -/
theorem ofInt_head (n : Int) :
    ∃ c rest, (Text.ofInt n = c :: rest ∨ Text.ofInt n = '-' :: c :: rest) ∧ isDigit c = true := by
  obtain ⟨c, rest, digits, digit⟩ := ofNat_head n.natAbs
  refine ⟨c, rest, ?_, digit⟩
  rw [Text.ofInt, digits]
  split
  · exact Or.inr rfl
  · exact Or.inl rfl

theorem digitsValue_ofNat (n : Nat) : digitsValue (Text.ofNat n) = n := by
  have value : digitsValue (Text.ofNat n) = Nat.ofDigitChars 10 (Text.ofNat n) 0 := by
    have step : (fun n (c : Char) => n * 10 + (c.toNat - 48)) =
        fun n (c : Char) => 10 * n + (c.toNat - '0'.toNat) := by
      funext n c
      rw [Nat.mul_comm]
      rfl
    exact congrArg (fun step => (Text.ofNat n).foldl step 0) step
  rw [value]
  exact Nat.ofDigitChars_ten_toDigits

/-- Only zero is written with a zero in front. -/
theorem head?_ofNat {n : Nat} (positive : 0 < n) : (Text.ofNat n).head? ≠ some '0' := by
  induction n using Nat.strongRecOn with
  | ind n ih =>
    unfold Text.ofNat
    by_cases small : n < 10
    · have every : ∀ n < 10, 0 < n → [n.digitChar].head? ≠ some '0' := by decide
      rw [Nat.toDigits_of_lt_base small]
      exact every n small positive
    · have front : 0 < n / 10 := Nat.div_pos (Nat.le_of_not_lt small) (by decide)
      obtain ⟨first, others, digits, -⟩ := ofNat_head (n / 10)
      have above := ih (n / 10) (Nat.div_lt_self positive (by decide)) front
      rw [digits] at above
      rw [Text.ofNat] at digits
      rw [Nat.toDigits_of_base_le (by decide) (Nat.le_of_not_lt small), digits]
      exact above

/-- What may follow a written value: an end, a comma or a line end. -/
def Stops (rest : Text) : Prop :=
  ∀ c ∈ rest.head?, c = ',' ∨ c = '\n'

theorem Stops.nil : Stops [] := by
  rintro c ⟨⟩

theorem Stops.comma (rest : Text) : Stops (',' :: rest) := by
  rintro c ⟨⟩
  exact Or.inl rfl

theorem Stops.newline (rest : Text) : Stops ('\n' :: rest) := by
  rintro c ⟨⟩
  exact Or.inr rfl

theorem Stops.not_digit {rest : Text} (stops : Stops rest) : rest.takeWhile isDigit = [] := by
  cases rest with
  | nil => rfl
  | cons c rest => rcases stops c rfl with rfl | rfl <;> rfl

theorem wholeDigits_ofNat (n : Nat) {rest : Text} (stops : Stops rest) :
    wholeDigits (Text.ofNat n ++ rest) = Text.ofNat n := by
  rcases Nat.eq_zero_or_pos n with rfl | positive
  · rfl
  · obtain ⟨first, others, digits, -⟩ := ofNat_head n
    have nonzero : first ≠ '0' := by
      have head := head?_ofNat positive
      rw [digits] at head
      simpa using head
    have taken : (Text.ofNat n ++ rest).takeWhile isDigit = Text.ofNat n := by
      rw [List.takeWhile_append_of_pos fun c => isDigit_of_mem_ofNat, stops.not_digit, List.append_nil]
    rw [digits, List.cons_append, wholeDigits]
    · rw [digits, List.cons_append] at taken
      exact taken
    · exact fun _ same => nonzero (List.cons.inj same).1

theorem Stops.no_fraction {rest : Text} (stops : Stops rest) : fractionDigits rest = [] := by
  cases rest with
  | nil => rfl
  | cons c rest => rcases stops c rfl with rfl | rfl <;> rfl

theorem Stops.no_exponent {rest : Text} (stops : Stops rest) : exponent? rest = none := by
  cases rest with
  | nil => rfl
  | cons c rest => rcases stops c rfl with rfl | rfl <;> rfl

/-- A whole number is read back when it is not too long. -/
theorem readNumber_written {n : Int} (short : (Text.ofNat n.natAbs).length ≤ maxDigits) {rest : Text}
    (stops : Stops rest) : readNumber (Text.ofInt n ++ rest) = .ok (.int n, rest) := by
  have nonempty : (Text.ofNat n.natAbs).isEmpty = false :=
    List.isEmpty_eq_false_iff.mpr Nat.toDigits_ne_nil
  unfold Text.ofInt
  split
  · rename_i below
    have value : -(n.natAbs : Int) = n := by omega
    generalize n.natAbs = magnitude at short nonempty value ⊢
    simp [readNumber, wholeDigits_ofNat _ stops, nonempty, stops.no_fraction,
      stops.no_exponent, Nat.not_lt_of_le short, digitsValue_ofNat, value]
  · rename_i above
    have value : (n.natAbs : Int) = n := by omega
    generalize n.natAbs = magnitude at short nonempty value ⊢
    obtain ⟨first, others, digits, digit⟩ := ofNat_head magnitude
    unfold readNumber
    split
    rename_i negative plain same
    split at same
    · rename_i tail here
      rw [digits] at here
      exact absurd (List.cons.inj here).1.symm (ne_of_isDigit digit rfl)
    · cases same
      simp [wholeDigits_ofNat _ stops, nonempty, stops.no_fraction,
        stops.no_exponent, Nat.not_lt_of_le short, digitsValue_ofNat, value]

end Numbers

end Json

end TabCompletion
