import Mathlib
import TabCompletion.Proofs.Except
import TabCompletion.Proofs.JsonRoundTrip

namespace TabCompletion

namespace Json

/-- No number in the value has a fraction or an exponent. -/
inductive Fractionless : Json → Prop where
  | null : Fractionless .null
  | bool (value : Bool) : Fractionless (.bool value)
  | int (value : Int) : Fractionless (.int value)
  | string (value : Text) : Fractionless (.string value)
  | array {items : List Json} (each : ∀ item ∈ items, Fractionless item) : Fractionless (.array items)
  | object {fields : List (Text × Json)} (each : ∀ field ∈ fields, Fractionless field.2) :
      Fractionless (.object fields)

/-- The values that a text can hold: whole numbers of no more digits than are read, and no name
twice in an object. -/
inductive Readable : Json → Prop where
  | null : Readable .null
  | bool (value : Bool) : Readable (.bool value)
  | int {value : Int} (short : (Text.ofNat value.natAbs).length ≤ maxDigits) : Readable (.int value)
  | double (value : Double) : Readable (.double value)
  | string (value : Text) : Readable (.string value)
  | array {items : List Json} (each : ∀ item ∈ items, Readable item) : Readable (.array items)
  | object {fields : List (Text × Json)} (distinct : (fields.map Prod.fst).Nodup)
      (each : ∀ field ∈ fields, Readable field.2) : Readable (.object fields)

/-- Only fractions stand between what can be read and what can be written. -/
theorem Readable.writable {value : Json} (readable : Readable value) (whole : Fractionless value) :
    Writable value := by
  induction readable with
  | null => exact .null
  | bool truth => exact .bool truth
  | int short => exact .int short
  | double number => cases whole
  | string text => exact .string text
  | array _ ih =>
    cases whole with
    | array each => exact .array fun item member => ih item member (each item member)
  | object distinct _ ih =>
    cases whole with
    | object each => exact .object distinct fun field member => ih field member (each field member)

theorem digitsValue_concat (digits : Text) (c : Char) :
    digitsValue (digits ++ [c]) = digitsValue digits * 10 + (c.toNat - 48) := by
  rw [digitsValue, List.foldl_append]
  rfl

theorem digitsValue_lt {digits : Text} (each : ∀ c ∈ digits, isDigit c = true) :
    digitsValue digits < 10 ^ digits.length := by
  induction digits using List.reverseRecOn with
  | nil => decide
  | append_singleton digits c ih =>
    have before := ih fun other member => each other (List.mem_append_left _ member)
    have last : c.toNat ≤ 57 := by
      have digit := each c (by simp)
      simp only [isDigit, Bool.and_eq_true, decide_eq_true_eq] at digit
      exact digit.2
    rw [digitsValue_concat, List.length_append, List.length_singleton, Nat.pow_succ]
    omega

theorem isDigit_of_mem_wholeDigits {text : Text} {c : Char} (member : c ∈ wholeDigits text) :
    isDigit c = true := by
  unfold wholeDigits at member
  split at member
  · rw [List.mem_singleton.mp member]
    rfl
  · exact List.all_eq_true.mp List.all_takeWhile c member

/-- A whole number that is read has no more digits than it was written with. -/
theorem readNumber_readable {text rest : Text} {value : Json}
    (read : readNumber text = .ok (value, rest)) : Readable value := by
  unfold readNumber at read
  split at read
  rename_i negative unsigned _
  dsimp only at read
  split at read
  · cases read
  · rename_i nonempty
    split at read
    · split at read
      · cases read
      · rename_i short
        cases read
        refine .int (Nat.le_trans ?_ (Nat.le_of_not_lt short))
        have size : (if negative then -(digitsValue (wholeDigits unsigned) : Int)
            else digitsValue (wholeDigits unsigned)).natAbs = digitsValue (wholeDigits unsigned) := by
          split <;> omega
        have positive : 0 < (wholeDigits unsigned).length :=
          List.length_pos_iff.mpr (by simpa using nonempty)
        rw [size]
        exact (Nat.length_toDigits_le_iff (by decide) positive).mpr
          (digitsValue_lt fun c => isDigit_of_mem_wholeDigits)
    · cases read
      exact .double _

theorem word?_readable {text rest : Text} {value : Json} (read : word? text = some (value, rest)) :
    Readable value := by
  obtain ⟨entry, member, found⟩ := List.exists_of_findSome?_eq_some read
  obtain ⟨after, -, same⟩ := Option.map_eq_some_iff.mp found
  cases same
  simp only [words, List.mem_cons, List.not_mem_nil, or_false] at member
  rcases member with rfl | rfl | rfl | rfl | rfl | rfl
  · exact .null
  · exact .bool true
  · exact .bool false
  all_goals exact .double _

/-- Fields as they have been read so far, none of them twice. -/
structure Gathered (fields : List (Text × Json)) : Prop where
  distinct : (fields.map Prod.fst).Nodup
  each : ∀ field ∈ fields, Readable field.2

theorem mem_setField {name : Text} {value : Json} {fields : List (Text × Json)} {field : Text × Json}
    (member : field ∈ setField name value fields) : field = (name, value) ∨ field ∈ fields := by
  induction fields with
  | nil => exact Or.inl (List.mem_singleton.mp member)
  | cons first fields ih =>
    obtain ⟨other, old⟩ := first
    rw [setField] at member
    split at member
    · rcases List.mem_cons.mp member with same | later
      · exact Or.inl same
      · exact Or.inr (List.mem_cons_of_mem _ later)
    · rcases List.mem_cons.mp member with rfl | later
      · exact Or.inr List.mem_cons_self
      · exact (ih later).imp id (List.mem_cons_of_mem _)

theorem Gathered.setField {fields : List (Text × Json)} (gathered : Gathered fields) {value : Json}
    (readable : Readable value) (name : Text) : Gathered (setField name value fields) := by
  refine ⟨?_, fun field member => ?_⟩
  · have distinct := gathered.distinct
    clear gathered
    induction fields with
    | nil => simp [Json.setField]
    | cons first fields ih =>
      obtain ⟨other, old⟩ := first
      obtain ⟨fresh, later⟩ := List.nodup_cons.mp distinct
      rw [Json.setField]
      split
      · rename_i same
        subst same
        exact List.nodup_cons.mpr ⟨fresh, later⟩
      · rename_i differ
        refine List.nodup_cons.mpr ⟨fun among => ?_, ih later⟩
        obtain ⟨field, member, same⟩ := List.mem_map.mp among
        rcases mem_setField member with rfl | old
        · exact differ same.symm
        · exact fresh (List.mem_map.mpr ⟨field, old, same⟩)
  · rcases mem_setField member with rfl | old
    · exact readable
    · exact gathered.each field old

/-- All that is read with some fuel can be read. -/
structure ReadsReadable (fuel : Nat) : Prop where
  value : ∀ {nesting text result rest}, readValue nesting fuel text = .ok (result, rest) → Readable result
  items : ∀ {nesting text results rest}, readItems nesting fuel text = .ok (results, rest) →
    ∀ item ∈ results, Readable item
  fields : ∀ {nesting before text results rest}, Gathered before →
    readFields nesting fuel before text = .ok (results, rest) → Gathered results

namespace ReadsReadable

variable {fuel nesting : Nat} {text rest : Text}

theorem ofValue (ih : ReadsReadable fuel) {result : Json}
    (read : readValue nesting (fuel + 1) text = .ok (result, rest)) : Readable result := by
  unfold readValue at read
  split at read
  · cases read
  · obtain ⟨⟨text, after⟩, -, same⟩ := ok_of_bind read
    cases same
    exact .string text
  · cases read
  · cases read
  · split at read
    · cases read
      exact .array (by simp)
    · obtain ⟨⟨items, after⟩, inner, same⟩ := ok_of_bind read
      cases same
      exact .array (ih.items inner)
  · split at read
    · cases read
      exact .object (by simp) (by simp)
    · obtain ⟨⟨fields, after⟩, inner, same⟩ := ok_of_bind read
      cases same
      have gathered := ih.fields ⟨by simp, by simp⟩ inner
      exact .object gathered.distinct gathered.each
  · split at read
    · rename_i word
      cases read
      exact word?_readable word
    · exact readNumber_readable read

theorem ofItems (ih : ReadsReadable fuel) {results : List Json}
    (read : readItems nesting (fuel + 1) text = .ok (results, rest)) : ∀ item ∈ results, Readable item := by
  rw [readItems] at read
  obtain ⟨⟨item, after⟩, first, read⟩ := ok_of_bind read
  dsimp only at read
  split at read
  · cases read
    intro other member
    rw [List.mem_singleton.mp member]
    exact ih.value first
  · obtain ⟨⟨items, after⟩, later, same⟩ := ok_of_bind read
    cases same
    intro other member
    rcases List.mem_cons.mp member with rfl | among
    · exact ih.value first
    · exact ih.items later other among
  · cases read

theorem ofFields (ih : ReadsReadable fuel) {before results : List (Text × Json)} (gathered : Gathered before)
    (read : readFields nesting (fuel + 1) before text = .ok (results, rest)) : Gathered results := by
  unfold readFields at read
  split at read
  · obtain ⟨⟨name, after⟩, -, read⟩ := ok_of_bind read
    dsimp only at read
    split at read
    · obtain ⟨⟨value, after⟩, inner, read⟩ := ok_of_bind read
      have grown := gathered.setField (ih.value inner) name
      dsimp only at read
      split at read
      · cases read
        exact grown
      · exact ih.fields grown read
      · cases read
    · cases read
  · cases read

end ReadsReadable

theorem readsReadable (fuel : Nat) : ReadsReadable fuel := by
  induction fuel with
  | zero =>
    refine ⟨fun read => ?_, fun read => ?_, fun _ read => ?_⟩
    · rw [readValue] at read; cases read
    · rw [readItems] at read; cases read
    · rw [readFields] at read; cases read
  | succ fuel ih => exact ⟨ih.ofValue, ih.ofItems, ih.ofFields⟩

theorem readable_of_read {text : Text} {value : Json} (run : read text = .ok value) : Readable value := by
  unfold read at run
  split at run
  · cases run
  · obtain ⟨⟨result, rest⟩, inner, run⟩ := ok_of_bind run
    dsimp only at run
    split at run
    · cases run
      exact (readsReadable _).value inner
    · cases run

end Json

end TabCompletion
