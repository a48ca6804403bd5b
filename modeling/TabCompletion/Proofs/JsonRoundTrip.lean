import TabCompletion.Proofs.JsonScalar

namespace TabCompletion.Json

/-- The values that a text holds as they are: no fractions, no whole numbers of more digits
than are read, and no name twice in an object. -/
inductive Writable : Json → Prop where
  | null : Writable .null
  | bool (value : Bool) : Writable (.bool value)
  | int {value : Int} (short : (Text.ofNat value.natAbs).length ≤ maxDigits) : Writable (.int value)
  | string (value : Text) : Writable (.string value)
  | array {items : List Json} (each : ∀ item ∈ items, Writable item) : Writable (.array items)
  | object {fields : List (Text × Json)} (distinct : (fields.map Prod.fst).Nodup)
      (each : ∀ field ∈ fields, Writable field.2) : Writable (.object fields)

theorem levels_le_of_mem {item : Json} {items : List Json} (member : item ∈ items) :
    levels item ≤ levelsOfItems items := by
  induction items with
  | nil => cases member
  | cons first items ih =>
    rw [levelsOfItems]
    rcases List.mem_cons.mp member with rfl | later
    · exact Nat.le_max_left ..
    · exact Nat.le_trans (ih later) (Nat.le_max_right ..)

theorem levels_le_of_mem_fields {field : Text × Json} {fields : List (Text × Json)}
    (member : field ∈ fields) : levels field.2 ≤ levelsOfFields fields := by
  induction fields with
  | nil => cases member
  | cons first fields ih =>
    rw [levelsOfFields]
    rcases List.mem_cons.mp member with rfl | later
    · obtain ⟨name, value⟩ := field
      rw [levelsOfField]
      exact Nat.le_max_left ..
    · exact Nat.le_trans (ih later) (Nat.le_max_right ..)

/-- A written value begins with a character that is no space and ends no array. -/
theorem writeAt_head {value : Json} (writable : Writable value) (depth : Nat) :
    ∃ c rest, writeAt depth value = c :: rest ∧ isSpace c = false ∧ c ≠ ']' ∧ c ≠ '\uFEFF' := by
  cases writable with
  | null => exact ⟨'n', _, rfl, by decide⟩
  | bool truth => cases truth <;> exact ⟨_, _, rfl, by decide⟩
  | @int n short =>
    obtain ⟨c, rest, begins, digit⟩ := ofInt_head n
    rcases begins with begins | begins
    · refine ⟨c, rest, begins, ?_, (ne_of_isDigit digit rfl).symm, (ne_of_isDigit digit rfl).symm⟩
      refine Bool.eq_false_iff.mpr fun space => ?_
      simp only [isSpace, Bool.or_eq_true, decide_eq_true_eq] at space
      rcases space with ((rfl | rfl) | rfl) | rfl <;> cases digit
    · exact ⟨'-', c :: rest, begins, by decide⟩
  | string text => exact ⟨'"', _, rfl, by decide⟩
  | @array items each => cases items <;> exact ⟨'[', _, rfl, by decide⟩
  | @object fields distinct each => cases fields <;> exact ⟨'\x7b', _, rfl, by decide⟩

section Reading

variable {nesting fuel : Nat} {text rest after : Text}

theorem readValue_string (nesting fuel : Nat) (text rest : Text) :
    readValue nesting (fuel + 1) (writeString text ++ rest) = .ok (.string text, rest) := by
  have whole : writeString text ++ rest = '"' :: (text.flatMap stringChar ++ '"' :: rest) := by
    simp [writeString]
  have read := readString_written text rest
  rw [whole] at read ⊢
  rw [readValue, read]
  rfl

theorem readValue_bare {c : Char} (unquoted : c ≠ '"') (noArray : c ≠ '[') (noObject : c ≠ '\x7b')
    (nesting fuel : Nat) (text : Text) :
    readValue nesting (fuel + 1) (c :: text) =
      match word? (c :: text) with
      | some (value, rest) => .ok (value, rest)
      | none => readNumber (c :: text) := by
  unfold readValue
  split
  · rename_i empty
    exact absurd empty (List.cons_ne_nil c text)
  · rename_i same
    exact absurd (List.cons.inj same).1 unquoted
  · rename_i same
    exact absurd (List.cons.inj same).1 noArray
  · rename_i same
    exact absurd (List.cons.inj same).1 noObject
  · rename_i same
    exact absurd (List.cons.inj same).1 noArray
  · rename_i same
    exact absurd (List.cons.inj same).1 noObject
  · rfl

theorem readValue_array {items : List Json} (goesOn : ∀ more, skipSpace text ≠ ']' :: more)
    (read : readItems nesting fuel (skipSpace text) = .ok (items, after)) :
    readValue (nesting + 1) (fuel + 1) ('[' :: text) = .ok (.array items, after) := by
  rw [readValue]
  split
  · rename_i more closed
    exact absurd closed (goesOn more)
  · rw [read]
    rfl

theorem readValue_object {fields : List (Text × Json)} (goesOn : ∀ more, skipSpace text ≠ '\x7d' :: more)
    (read : readFields nesting fuel [] (skipSpace text) = .ok (fields, after)) :
    readValue (nesting + 1) (fuel + 1) ('\x7b' :: text) = .ok (.object fields, after) := by
  rw [readValue]
  split
  · rename_i more closed
    exact absurd closed (goesOn more)
  · rw [read]
    rfl

theorem readItems_last {item : Json} (read : readValue nesting fuel text = .ok (item, rest))
    (closed : skipSpace rest = ']' :: after) :
    readItems nesting (fuel + 1) text = .ok ([item], after) := by
  rw [readItems, read]
  simp only [bind, Except.bind, closed]
  rfl

theorem readItems_more {item : Json} {items : List Json} {more : Text}
    (read : readValue nesting fuel text = .ok (item, rest)) (comma : skipSpace rest = ',' :: more)
    (others : readItems nesting fuel (skipSpace more) = .ok (items, after)) :
    readItems nesting (fuel + 1) text = .ok (item :: items, after) := by
  rw [readItems, read]
  simp only [bind, Except.bind, comma, others]
  rfl

variable {name : Text} {value : Json} {fields : List (Text × Json)}

theorem readFields_name (name : Text) (read : readValue nesting fuel text = .ok (value, rest))
    (begins : skipSpace text = text) :
    readFields nesting (fuel + 1) fields (writeString name ++ ':' :: ' ' :: text) =
      match skipSpace rest with
      | '\x7d' :: rest => .ok (setField name value fields, rest)
      | ',' :: rest => readFields nesting fuel (setField name value fields) (skipSpace rest)
      | rest => fail .expectingComma rest := by
  have whole : writeString name ++ ':' :: ' ' :: text =
      '"' :: (name.flatMap stringChar ++ '"' :: ':' :: ' ' :: text) := by
    simp [writeString]
  have readName := readString_written name (':' :: ' ' :: text)
  have colon : skipSpace (':' :: ' ' :: text) = ':' :: ' ' :: text := rfl
  have space : skipSpace (' ' :: text) = text := begins
  rw [whole] at readName ⊢
  rw [readFields, readName]
  simp only [bind, Except.bind, colon, space, read]
  rfl

theorem readFields_last (read : readValue nesting fuel text = .ok (value, rest))
    (begins : skipSpace text = text) (closed : skipSpace rest = '\x7d' :: after) :
    readFields nesting (fuel + 1) fields (writeString name ++ ':' :: ' ' :: text) =
      .ok (setField name value fields, after) := by
  rw [readFields_name name read begins, closed]
  rfl

theorem readFields_more {more : Text} {result : Except Fault (List (Text × Json) × Text)}
    (read : readValue nesting fuel text = .ok (value, rest)) (begins : skipSpace text = text)
    (comma : skipSpace rest = ',' :: more)
    (others : readFields nesting fuel (setField name value fields) (skipSpace more) = result) :
    readFields nesting (fuel + 1) fields (writeString name ++ ':' :: ' ' :: text) = result := by
  rw [readFields_name name read begins, comma]
  exact others

end Reading

theorem skipSpace_of_head {c : Char} (plain : isSpace c = false) (rest : Text) :
    skipSpace (c :: rest) = c :: rest := by
  rw [skipSpace, List.dropWhile_cons_of_neg (by simp [plain])]

theorem skipSpace_newLine (depth : Nat) (rest : Text) :
    skipSpace (newLine depth ++ rest) = skipSpace rest := by
  have every : ∀ c ∈ newLine depth, isSpace c = true := by
    intro c member
    rcases List.mem_cons.mp member with rfl | later
    · rfl
    · rw [List.eq_of_mem_replicate later]
      rfl
  rw [skipSpace, List.dropWhile_append_of_pos every]
  rfl

theorem skipSpace_string (text rest : Text) :
    skipSpace (writeString text ++ rest) = writeString text ++ rest :=
  skipSpace_of_head rfl _

theorem setField_fresh {name : Text} {fields : List (Text × Json)} (fresh : name ∉ fields.map Prod.fst)
    (value : Json) : setField name value fields = fields ++ [(name, value)] := by
  induction fields with
  | nil => rfl
  | cons field fields ih =>
    obtain ⟨other, old⟩ := field
    simp only [List.map_cons, List.mem_cons, not_or] at fresh
    rw [setField, if_neg (Ne.symm fresh.1), ih fresh.2]
    rfl

/-- A value is read back from where it was written, and no more than its own text is taken. -/
def ReadsBack (nesting depth : Nat) (value : Json) : Prop :=
  ∀ fuel rest, (writeAt depth value).length ≤ fuel → Stops rest →
    readValue nesting fuel (writeAt depth value ++ rest) = .ok (value, rest)

theorem skipSpace_written {value : Json} (writable : Writable value) (depth : Nat) (rest : Text) :
    skipSpace (writeAt depth value ++ rest) = writeAt depth value ++ rest := by
  obtain ⟨c, text, written, plain, -⟩ := writeAt_head writable depth
  rw [written, List.cons_append, skipSpace_of_head plain]

theorem writeItems_cons (depth : Nat) (item : Json) (items : List Json) :
    writeItems depth (item :: items) =
      ',' :: (newLine (depth + 1) ++ (writeAt (depth + 1) item ++ writeItems depth items)) := by
  simp [writeItems]

theorem writeFields_cons (depth : Nat) (name : Text) (value : Json) (fields : List (Text × Json)) :
    writeFields depth ((name, value) :: fields) =
      ',' :: (newLine (depth + 1) ++
        (writeString name ++ ':' :: ' ' :: (writeAt (depth + 1) value ++ writeFields depth fields))) := by
  simp [writeFields, writeField]

theorem readItems_written {nesting depth fuel : Nat} {item : Json} {items : List Json}
    (each : ∀ value ∈ item :: items, Writable value ∧ ReadsBack nesting (depth + 1) value)
    (enough : (writeAt (depth + 1) item).length + (writeItems depth items).length < fuel) (rest : Text) :
    readItems nesting fuel (writeAt (depth + 1) item ++ (writeItems depth items ++ rest)) =
      .ok (item :: items, rest) := by
  obtain ⟨fuel, rfl⟩ := Nat.exists_eq_add_one_of_ne_zero (Nat.ne_zero_of_lt enough)
  induction items generalizing item fuel with
  | nil =>
    have read := (each item List.mem_cons_self).2 fuel (writeItems depth [] ++ rest) (by omega) (.newline _)
    refine readItems_last read ?_
    rw [writeItems, List.append_assoc, skipSpace_newLine]
    rfl
  | cons next items ih =>
    have read := (each item List.mem_cons_self).2 fuel (writeItems depth (next :: items) ++ rest) (by omega) (.comma _)
    have following : ∀ value ∈ next :: items, Writable value ∧ ReadsBack nesting (depth + 1) value :=
      fun value member => each value (List.mem_cons_of_mem _ member)
    have text : writeItems depth (next :: items) ++ rest = ',' :: (newLine (depth + 1) ++
        (writeAt (depth + 1) next ++ (writeItems depth items ++ rest))) := by
      simp [writeItems_cons]
    simp only [writeItems_cons, List.length_cons, List.length_append] at enough
    obtain ⟨fuel, rfl⟩ : ∃ less, fuel = less + 1 := ⟨fuel - 1, by omega⟩
    rw [text] at read ⊢
    refine readItems_more read (skipSpace_of_head rfl _) ?_
    rw [skipSpace_newLine, skipSpace_written (following next List.mem_cons_self).1]
    exact ih following fuel (by omega)

theorem fresh_of_distinct {name : Text} {value : Json} {before fields : List (Text × Json)}
    (distinct : ((before ++ (name, value) :: fields).map Prod.fst).Nodup) : name ∉ before.map Prod.fst := by
  intro member
  rw [List.map_append, List.map_cons] at distinct
  exact (List.nodup_append.mp distinct).2.2 name member name List.mem_cons_self rfl

theorem readFields_written {nesting depth fuel : Nat} {name : Text} {value : Json}
    {fields before : List (Text × Json)}
    (each : ∀ field ∈ (name, value) :: fields, Writable field.2 ∧ ReadsBack nesting (depth + 1) field.2)
    (distinct : ((before ++ (name, value) :: fields).map Prod.fst).Nodup)
    (enough : (writeString name).length + (writeAt (depth + 1) value).length +
      (writeFields depth fields).length < fuel) (rest : Text) :
    readFields nesting fuel before
        (writeString name ++ ':' :: ' ' :: (writeAt (depth + 1) value ++ (writeFields depth fields ++ rest))) =
      .ok (before ++ (name, value) :: fields, rest) := by
  obtain ⟨fuel, rfl⟩ := Nat.exists_eq_add_one_of_ne_zero (Nat.ne_zero_of_lt enough)
  induction fields generalizing name value before fuel with
  | nil =>
    obtain ⟨writable, back⟩ := each (name, value) List.mem_cons_self
    have read := back fuel (writeFields depth [] ++ rest) (by simp only; omega) (.newline _)
    rw [← setField_fresh (fresh_of_distinct distinct)]
    refine readFields_last read (skipSpace_written writable (depth + 1) _) ?_
    rw [writeFields, List.append_assoc, skipSpace_newLine]
    rfl
  | cons next fields ih =>
    obtain ⟨nextName, nextValue⟩ := next
    obtain ⟨writable, back⟩ := each (name, value) List.mem_cons_self
    have read := back fuel (writeFields depth ((nextName, nextValue) :: fields) ++ rest)
      (by simp only; omega) (.comma _)
    have following : ∀ field ∈ (nextName, nextValue) :: fields,
        Writable field.2 ∧ ReadsBack nesting (depth + 1) field.2 :=
      fun field member => each field (List.mem_cons_of_mem _ member)
    have text : writeFields depth ((nextName, nextValue) :: fields) ++ rest =
        ',' :: (newLine (depth + 1) ++ (writeString nextName ++
          ':' :: ' ' :: (writeAt (depth + 1) nextValue ++ (writeFields depth fields ++ rest)))) := by
      simp [writeFields_cons]
    have grown : before ++ (name, value) :: (nextName, nextValue) :: fields =
        setField name value before ++ (nextName, nextValue) :: fields := by
      rw [setField_fresh (fresh_of_distinct distinct)]
      simp
    simp only [writeFields_cons, List.length_cons, List.length_append] at enough
    obtain ⟨fuel, rfl⟩ : ∃ less, fuel = less + 1 := ⟨fuel - 1, by omega⟩
    rw [text] at read ⊢
    rw [grown] at distinct ⊢
    refine readFields_more read (skipSpace_written writable (depth + 1) _) (skipSpace_of_head rfl _) ?_
    rw [skipSpace_newLine, skipSpace_string]
    exact ih following distinct fuel (by omega)

theorem rest?_cons (c other : Char) (text beginning : Text) :
    Text.rest? (c :: text) (other :: beginning) =
      if other == c then Text.rest? text beginning else none := rfl

/-- No word that stands for a value begins like a number. -/
theorem word?_number (n : Int) (rest : Text) : word? (Text.ofInt n ++ rest) = none := by
  obtain ⟨c, others, begins, digit⟩ := ofInt_head n
  have unlike (other : Char) (letter : isDigit other = false) := ne_of_isDigit digit letter
  rcases begins with begins | begins <;> rw [begins] <;>
    simp [word?, words, rest?_cons, unlike 'n' rfl, unlike 't' rfl, unlike 'f' rfl,
      unlike 'N' rfl, unlike 'I' rfl, unlike '-' rfl]

theorem readValue_int {n : Int} (short : (Text.ofNat n.natAbs).length ≤ maxDigits) {rest : Text}
    (stops : Stops rest) (nesting fuel : Nat) :
    readValue nesting (fuel + 1) (Text.ofInt n ++ rest) = .ok (.int n, rest) := by
  have read := readNumber_written short stops
  have none := word?_number n rest
  obtain ⟨c, others, begins, digit⟩ := ofInt_head n
  rcases begins with begins | begins <;> rw [begins, List.cons_append] at read none ⊢
  · rw [readValue_bare (ne_of_isDigit digit rfl).symm (ne_of_isDigit digit rfl).symm
      (ne_of_isDigit digit rfl).symm, none]
    exact read
  · rw [readValue_bare (by decide) (by decide) (by decide), none]
    exact read

theorem Writable.fuel_pos {value : Json} (writable : Writable value) {depth fuel : Nat}
    (enough : (writeAt depth value).length ≤ fuel) : ∃ less, fuel = less + 1 := by
  obtain ⟨c, text, begins, -⟩ := writeAt_head writable depth
  rw [begins, List.length_cons] at enough
  exact ⟨fuel - 1, by omega⟩

theorem readsBack_array {nesting depth : Nat} {items : List Json}
    (each : ∀ value ∈ items, Writable value ∧ ReadsBack nesting (depth + 1) value) :
    ReadsBack (nesting + 1) depth (.array items) := by
  intro fuel rest enough _
  obtain ⟨fuel, rfl⟩ := (Writable.array fun item member => (each item member).1).fuel_pos enough
  cases items with
  | nil => rw [writeAt, readValue.eq_def]; rfl
  | cons item items =>
    obtain ⟨writable, -⟩ := each item List.mem_cons_self
    have text : writeAt depth (.array (item :: items)) ++ rest = '[' :: (newLine (depth + 1) ++
        (writeAt (depth + 1) item ++ (writeItems depth items ++ rest))) := by
      simp [writeAt]
    have begins := (skipSpace_newLine (depth + 1) _).trans
      (skipSpace_written writable (depth + 1) (writeItems depth items ++ rest))
    have size := congrArg List.length text
    rw [List.length_append] at size
    simp only [newLine, List.length_cons, List.length_append] at size
    rw [text]
    refine readValue_array (fun more closed => ?_) ?_
    · obtain ⟨c, others, written, -, opens, -⟩ := writeAt_head writable (depth + 1)
      rw [begins, written] at closed
      exact opens (List.cons.inj closed).1
    · rw [begins]
      exact readItems_written each (by omega) rest

theorem readsBack_object {nesting depth : Nat} {fields : List (Text × Json)}
    (distinct : (fields.map Prod.fst).Nodup)
    (each : ∀ field ∈ fields, Writable field.2 ∧ ReadsBack nesting (depth + 1) field.2) :
    ReadsBack (nesting + 1) depth (.object fields) := by
  intro fuel rest enough _
  obtain ⟨fuel, rfl⟩ :=
    (Writable.object distinct fun field member => (each field member).1).fuel_pos enough
  cases fields with
  | nil => rw [writeAt, readValue.eq_def]; rfl
  | cons field fields =>
    obtain ⟨name, value⟩ := field
    have text : writeAt depth (.object ((name, value) :: fields)) ++ rest = '\x7b' :: (newLine (depth + 1) ++
        (writeString name ++ ':' :: ' ' ::
          (writeAt (depth + 1) value ++ (writeFields depth fields ++ rest)))) := by
      simp [writeAt, writeField]
    have begins := (skipSpace_newLine (depth + 1) _).trans
      (skipSpace_string name (':' :: ' ' :: (writeAt (depth + 1) value ++ (writeFields depth fields ++ rest))))
    have size := congrArg List.length text
    rw [List.length_append] at size
    simp only [List.length_cons, List.length_append] at size
    rw [text]
    refine readValue_object (fun more closed => ?_) ?_
    · rw [begins] at closed
      cases closed
    · rw [begins]
      exact @readFields_written nesting depth fuel name value fields [] each distinct (by omega) rest

/-- What can be written is read back at whatever depth it stands, unless it is nested too deeply. -/
theorem Writable.readsBack {value : Json} (writable : Writable value) :
    ∀ {nesting : Nat}, levels value ≤ nesting → ∀ depth, ReadsBack nesting depth value := by
  -- The members of a list or an object are read one level down, with that much less nesting left.
  induction writable with
  | null =>
    intro nesting _ depth fuel rest enough _
    obtain ⟨fuel, rfl⟩ := Writable.null.fuel_pos enough
    exact readValue_bare (by decide) (by decide) (by decide) nesting fuel ("ull".toList ++ rest)
  | bool truth =>
    intro nesting _ depth fuel rest enough _
    obtain ⟨fuel, rfl⟩ := (Writable.bool truth).fuel_pos enough
    cases truth with
    | true => exact readValue_bare (by decide) (by decide) (by decide) nesting fuel ("rue".toList ++ rest)
    | false => exact readValue_bare (by decide) (by decide) (by decide) nesting fuel ("alse".toList ++ rest)
  | int short =>
    intro nesting _ depth fuel rest enough stops
    obtain ⟨fuel, rfl⟩ := (Writable.int short).fuel_pos enough
    exact readValue_int short stops nesting fuel
  | string text =>
    intro nesting _ depth fuel rest enough _
    obtain ⟨fuel, rfl⟩ := (Writable.string text).fuel_pos enough
    exact readValue_string nesting fuel text rest
  | @array items each ih =>
    intro nesting shallow depth
    rw [levels] at shallow
    obtain ⟨nesting, rfl⟩ : ∃ less, nesting = less + 1 := ⟨nesting - 1, by omega⟩
    refine readsBack_array fun item member => ⟨each item member, ih item member ?_ (depth + 1)⟩
    have within := levels_le_of_mem member
    omega
  | @object fields distinct each ih =>
    intro nesting shallow depth
    rw [levels] at shallow
    obtain ⟨nesting, rfl⟩ : ∃ less, nesting = less + 1 := ⟨nesting - 1, by omega⟩
    refine readsBack_object distinct fun field member => ⟨each field member, ih field member ?_ (depth + 1)⟩
    have within := levels_le_of_mem_fields member
    omega

/-- The text of a value is read back as that value, a line end after it or not. -/
theorem read_write {value : Json} (writable : Writable value) (shallow : levels value ≤ maxNesting)
    {rest : Text} (ends : Stops rest) (blank : skipSpace rest = []) :
    read (value.write ++ rest) = .ok value := by
  have back := writable.readsBack shallow 0 ((value.write ++ rest).length + 1) rest
    (by rw [List.length_append, write]; omega) ends
  have begins := skipSpace_written writable 0 rest
  obtain ⟨c, others, written, -, -, mark⟩ := writeAt_head writable 0
  unfold read
  split
  · rename_i more same
    rw [write, written] at same
    exact absurd (List.cons.inj same).1 mark
  · rw [write] at back ⊢
    rw [begins, back]
    simp only [bind, Except.bind, blank]
    rfl

section LineEnds

theorem carriage_notMem_unitEscape {unit : Nat} (bound : unit < 0x10000) : '\r' ∉ unitEscape unit := by
  have digit (n : Nat) : '\r' ≠ n.digitChar := (Nat.digitChar_ne '\r' rfl).symm
  simp [unitEscape, Text.hex_four bound, digit]

theorem carriage_notMem_writeString (text : Text) : '\r' ∉ writeString text := by
  have char (c : Char) : '\r' ∉ stringChar c := by
    rcases stringChar_cases c with ⟨letter, written, escape⟩ | ⟨written, printable, -⟩ |
      ⟨written, bound, -⟩ | ⟨high, low, written, isHigh, isLow, -⟩ <;> rw [written]
    · have differ : letter ≠ '\r' := by
        rintro rfl
        cases escape
      simp [differ.symm]
    · have differ : c ≠ '\r' := by
        rintro rfl
        exact absurd printable (by decide)
      simp [differ.symm]
    · exact carriage_notMem_unitEscape bound
    · simp only [isHighUnit, isLowUnit, Bool.and_eq_true, decide_eq_true_eq] at isHigh isLow
      exact List.not_mem_append (carriage_notMem_unitEscape (by omega)) (carriage_notMem_unitEscape (by omega))
  simp [writeString, char]

theorem carriage_notMem_newLine (depth : Nat) : '\r' ∉ newLine depth := by
  simp [newLine, List.mem_replicate]

theorem carriage_notMem_ofInt (n : Int) : '\r' ∉ Text.ofInt n := by
  have digits : '\r' ∉ Text.ofNat n.natAbs := fun member =>
    ne_of_isDigit (isDigit_of_mem_ofNat member) rfl rfl
  unfold Text.ofInt
  split
  · simp [digits]
  · exact digits

theorem carriage_notMem_writeItems {depth : Nat} {items : List Json}
    (each : ∀ item ∈ items, '\r' ∉ writeAt (depth + 1) item) : '\r' ∉ writeItems depth items := by
  induction items with
  | nil => simp [writeItems, carriage_notMem_newLine]
  | cons item items ih =>
    have first := each item List.mem_cons_self
    have later := ih fun other member => each other (List.mem_cons_of_mem _ member)
    simp [writeItems_cons, carriage_notMem_newLine, first, later]

theorem carriage_notMem_writeFields {depth : Nat} {fields : List (Text × Json)}
    (each : ∀ field ∈ fields, '\r' ∉ writeAt (depth + 1) field.2) : '\r' ∉ writeFields depth fields := by
  induction fields with
  | nil => simp [writeFields, carriage_notMem_newLine]
  | cons field fields ih =>
    obtain ⟨name, value⟩ := field
    have first := each (name, value) List.mem_cons_self
    have later := ih fun other member => each other (List.mem_cons_of_mem _ member)
    simp [writeFields_cons, carriage_notMem_newLine, carriage_notMem_writeString, first, later]

/-- Lines of a written value end in line feeds alone. -/
theorem carriage_notMem_writeAt {value : Json} (writable : Writable value) (depth : Nat) :
    '\r' ∉ writeAt depth value := by
  induction writable generalizing depth with
  | null =>
    rw [writeAt]
    decide
  | bool truth =>
    rw [writeAt]
    revert truth
    decide
  | int short => exact carriage_notMem_ofInt _
  | string text => exact carriage_notMem_writeString text
  | @array items each ih =>
    cases items with
    | nil =>
      rw [writeAt]
      decide
    | cons item items =>
      have first := ih item List.mem_cons_self (depth + 1)
      have later := @carriage_notMem_writeItems depth items fun other member =>
        ih other (List.mem_cons_of_mem _ member) (depth + 1)
      simp [writeAt, carriage_notMem_newLine, first, later]
  | @object fields distinct each ih =>
    cases fields with
    | nil =>
      rw [writeAt]
      decide
    | cons field fields =>
      obtain ⟨name, value⟩ := field
      have first := ih (name, value) List.mem_cons_self (depth + 1)
      have later := @carriage_notMem_writeFields depth fields fun other member =>
        ih other (List.mem_cons_of_mem _ member) (depth + 1)
      simp [writeAt, writeField, carriage_notMem_newLine, carriage_notMem_writeString, first, later]

end LineEnds

end TabCompletion.Json
