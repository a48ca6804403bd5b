import TabCompletion.Block.Basic
import TabCompletion.Proofs.Line

namespace TabCompletion

theorem Text.rest?_eq_some_iff {text beginning rest : Text} :
    text.rest? beginning = some rest ↔ text = beginning ++ rest := by
  induction beginning generalizing text with
  | nil =>
    have whole : text.rest? [] = some text := rfl
    simp [whole]
  | cons c beginning ih =>
    cases text with
    | nil =>
      have refused : Text.rest? [] (c :: beginning) = none := rfl
      simp [refused]
    | cons d text =>
      have next : Text.rest? (d :: text) (c :: beginning) =
          if c == d then Text.rest? text beginning else none := rfl
      rw [next]
      by_cases same : c = d
      · simp [same, ih]
      · simp [same, Ne.symm same]

namespace Block

theorem beginsWithLine_iff {line text : Text} :
    beginsWithLine line text = true ↔ ∃ rest, text = line ++ rest ∧ atLineEnd rest = true := by
  rw [beginsWithLine, Option.any_eq_true]
  constructor
  · rintro ⟨rest, found, closed⟩
    exact ⟨rest, Text.rest?_eq_some_iff.mp found, closed⟩
  · rintro ⟨rest, split, closed⟩
    exact ⟨rest, Text.rest?_eq_some_iff.mpr split, closed⟩

theorem beginsWithLine_self {line rest : Text} (closed : atLineEnd rest = true) :
    beginsWithLine line (line ++ rest) = true :=
  beginsWithLine_iff.mpr ⟨rest, rfl, closed⟩

/-- Whether a line begins a text is decided before the first line feed. -/
theorem beginsWithLine_append_newline {line : Text} (single : '\n' ∉ line) (text rest : Text) :
    beginsWithLine line (text ++ '\n' :: rest) = beginsWithLine line text := by
  rw [Bool.eq_iff_iff, beginsWithLine_iff, beginsWithLine_iff]
  constructor
  · rintro ⟨after, split, closed⟩
    obtain ⟨more, parts⟩ | ⟨more, parts⟩ := List.append_eq_append_iff.mp split
    · cases more with
      | nil => exact ⟨[], by simpa using parts.1.symm, rfl⟩
      | cons c more =>
        simp only [List.cons_append, List.cons.injEq] at parts
        exact absurd (by rw [parts.1, ← parts.2.1]; simp) single
    · refine ⟨more, parts.1, ?_⟩
      cases more with
      | nil => rfl
      | cons c more =>
        rw [parts.2] at closed
        exact closed
  · rintro ⟨after, rfl, closed⟩
    refine ⟨after ++ '\n' :: rest, by simp, ?_⟩
    cases after with
    | nil => rfl
    | cons c after => exact closed

/-- A line is looked for in the text before a line feed, and then after it. -/
theorem lineOffset?_append_newline {line : Text} (single : '\n' ∉ line) (atStart : Bool) (text rest : Text) :
    lineOffset? line atStart (text ++ '\n' :: rest) =
      (lineOffset? line atStart text).or ((findLine? line rest).map (· + (text.length + 1))) := by
  induction text generalizing atStart with
  | nil =>
    have begins := beginsWithLine_append_newline single [] rest
    rw [List.nil_append] at begins
    rw [List.nil_append, lineOffset?, lineOffset?, begins]
    split
    · rfl
    · simp [findLine?]
  | cons c text ih =>
    have begins := beginsWithLine_append_newline single (c :: text) rest
    rw [List.cons_append] at begins
    rw [List.cons_append, lineOffset?, lineOffset?, begins]
    split
    · rfl
    · rw [ih]
      cases lineOffset? line (c = '\n') text with
      | none => simp [Function.comp_def, Nat.add_assoc]
      | some n => simp

theorem findLine?_append_newline {line : Text} (single : '\n' ∉ line) (text rest : Text) :
    findLine? line (text ++ '\n' :: rest) =
      (findLine? line text).or ((findLine? line rest).map (· + (text.length + 1))) :=
  lineOffset?_append_newline single true text rest

theorem findLine?_of_begins {line text : Text} (begins : beginsWithLine line text = true) :
    findLine? line text = some 0 := by
  cases text <;> simp [findLine?, lineOffset?, begins]

/-- Inside a line no other line begins. -/
theorem lineOffset?_inside {line text : Text} (single : '\n' ∉ text) :
    lineOffset? line false text = none := by
  induction text with
  | nil => rfl
  | cons c text ih =>
    simp only [List.mem_cons, not_or] at single
    have other : (decide (c = '\n')) = false := decide_eq_false (Ne.symm single.1)
    rw [lineOffset?, other, ih single.2]
    rfl

theorem findLine?_eq_none {line text : Text} (single : '\n' ∉ text)
    (begins : beginsWithLine line text = false) : findLine? line text = none := by
  cases text with
  | nil => simp [findLine?, lineOffset?, begins]
  | cons c text =>
    simp only [List.mem_cons, not_or] at single
    have other : (decide (c = '\n')) = false := decide_eq_false (Ne.symm single.1)
    simp [findLine?, lineOffset?, begins, other, lineOffset?_inside single.2]

theorem lineOffset?_begins {line : Text} {atStart : Bool} {text : Text} {offset : Nat}
    (found : lineOffset? line atStart text = some offset) : beginsWithLine line (text.drop offset) = true := by
  induction text generalizing atStart offset with
  | nil =>
    rw [lineOffset?] at found
    split at found
    · rename_i here
      cases found
      exact (Bool.and_eq_true_iff.mp here).2
    · cases found
  | cons c text ih =>
    rw [lineOffset?] at found
    split at found
    · rename_i here
      cases found
      exact (Bool.and_eq_true_iff.mp here).2
    · obtain ⟨before, later, rfl⟩ := Option.map_eq_some_iff.mp found
      exact ih later

/-- The line that is found begins the text or follows a line feed, and before it there is none. -/
theorem lineOffset?_eq_some {line : Text} (single : '\n' ∉ line) {atStart : Bool} {text : Text} {n : Nat}
    (found : lineOffset? line atStart text = some n) :
    beginsWithLine line (text.drop n) = true ∧
      (n = 0 ∧ atStart = true ∨
        ∃ before, text.take n = before ++ ['\n'] ∧ lineOffset? line atStart before = none) := by
  refine ⟨lineOffset?_begins found, ?_⟩
  -- Whether a line may begin here depends on the character passed last, so that it is left free.
  induction text generalizing atStart n with
  | nil =>
    rw [lineOffset?] at found
    split at found
    next here =>
      cases found
      exact Or.inl ⟨rfl, (Bool.and_eq_true_iff.mp here).1⟩
    next => cases found
  | cons c text ih =>
    rw [lineOffset?] at found
    split at found
    next here =>
      cases found
      exact Or.inl ⟨rfl, (Bool.and_eq_true_iff.mp here).1⟩
    next other =>
      obtain ⟨k, later, rfl⟩ := Option.map_eq_some_iff.mp found
      refine Or.inr ?_
      rcases ih later with ⟨rfl, feed⟩ | ⟨before, taken, free⟩
      · have feed : c = '\n' := of_decide_eq_true feed
        subst feed
        refine ⟨[], rfl, ?_⟩
        have begins := beginsWithLine_append_newline single [] text
        rw [List.nil_append] at begins
        rw [lineOffset?, ← begins, if_neg other]
      · refine ⟨c :: before, by rw [List.take_succ_cons, taken]; rfl, ?_⟩
        have parts := List.take_append_drop k text
        rw [taken, List.append_assoc] at parts
        rw [← parts] at other
        have begins := beginsWithLine_append_newline single (c :: before) (text.drop k)
        rw [show (c :: (before ++ (['\n'] ++ text.drop k))) = (c :: before) ++ '\n' :: text.drop k from rfl,
          begins] at other
        rw [lineOffset?, if_neg other, free]
        rfl

theorem lineOffset?_le {line : Text} {atStart : Bool} {text : Text} {n : Nat}
    (found : lineOffset? line atStart text = some n) : n ≤ text.length := by
  induction text generalizing atStart n with
  | nil =>
    rw [lineOffset?] at found
    split at found <;> cases found
    exact Nat.le_refl _
  | cons c text ih =>
    rw [lineOffset?] at found
    split at found
    next =>
      cases found
      exact Nat.zero_le _
    next =>
      obtain ⟨k, later, rfl⟩ := Option.map_eq_some_iff.mp found
      exact Nat.succ_le_succ (ih later)

end Block

/-- Markers that are two different lines. -/
structure Markers.Proper (markers : Markers) : Prop where
  start : '\n' ∉ markers.start ∧ '\r' ∉ markers.start
  finish : '\n' ∉ markers.finish ∧ '\r' ∉ markers.finish
  differ : markers.start ≠ markers.finish

namespace Block

variable {markers : Markers} {body text before after : Text} {span : Span}

theorem findLine?_of_ne {line other : Text} (single : '\n' ∉ other ∧ '\r' ∉ other) (differ : other ≠ line) :
    findLine? line other = none := by
  refine findLine?_eq_none single.1 ?_
  rw [Bool.eq_false_iff, ne_eq, beginsWithLine_iff]
  rintro ⟨rest, rfl, closed⟩
  cases rest with
  | nil => simp at differ
  | cons c rest =>
    simp only [atLineEnd, Bool.or_eq_true, decide_eq_true_eq] at closed
    rcases closed with rfl | rfl <;> simp at single

/-- What may stand before the block that is found: whole lines, none of them the start marker. -/
def Leads (markers : Markers) (before : Text) : Prop :=
  before = [] ∨ ∃ lines, before = lines ++ ['\n'] ∧ findLine? markers.start lines = none

theorem Leads.findLine? (lead : Leads markers before) (proper : markers.Proper) {rest : Text}
    (begins : beginsWithLine markers.start rest = true) :
    findLine? markers.start (before ++ rest) = some before.length := by
  rcases lead with rfl | ⟨lines, rfl, free⟩
  · exact findLine?_of_begins begins
  · rw [List.append_assoc, List.singleton_append, findLine?_append_newline proper.start.1, free,
      findLine?_of_begins begins]
    simp

/-- The lines of a body as they stand in the block. -/
def inner (body : Text) : Text :=
  body.dropFinal '\n'

theorem render_eq (markers : Markers) (body : Text) :
    ∃ lines, render markers body = markers.start ++ '\n' :: (lines ++ markers.finish) ∧
      (lines = [] ∨ lines = inner body ++ ['\n']) := by
  rw [render]
  by_cases empty : (inner body).isEmpty = true
  · exact ⟨[], by simp [inner] at empty; simp [empty], Or.inl rfl⟩
  · exact ⟨inner body ++ ['\n'], by simp [inner] at empty; simp [inner, empty], Or.inr rfl⟩

/-- A block whose body has no end marker is found where it stands. -/
theorem find_render (proper : markers.Proper) (lead : Leads markers before)
    (free : findLine? markers.finish (inner body) = none) (closed : atLineEnd after = true) :
    find markers (before ++ (render markers body ++ after)) =
      .ok (some ⟨before.length, before.length + (render markers body).length⟩) := by
  obtain ⟨lines, block, shape⟩ := render_eq markers body
  have begins : beginsWithLine markers.start (render markers body ++ after) = true := by
    rw [block, List.append_assoc]
    exact beginsWithLine_self rfl
  have ends : findLine? markers.finish (render markers body ++ after) =
      some (markers.start.length + 1 + lines.length) := by
    have last : findLine? markers.finish (lines ++ (markers.finish ++ after)) = some lines.length := by
      have here : findLine? markers.finish (markers.finish ++ after) = some 0 :=
        findLine?_of_begins (beginsWithLine_self closed)
      rcases shape with rfl | rfl
      · exact here
      · rw [List.append_assoc, List.singleton_append, findLine?_append_newline proper.finish.1, free, here]
        simp
    rw [block, List.append_assoc, List.cons_append, List.append_assoc,
      findLine?_append_newline proper.finish.1, findLine?_of_ne proper.start proper.differ, last]
    simp [Nat.add_comm]
  rw [find, lead.findLine? proper begins]
  simp only [List.drop_left, ends]
  simp only [block, List.length_append, List.length_cons]
  congr 3
  omega

/-- A block that is found goes from a start marker to the end of an end marker after it. -/
theorem markers_of_find (found : find markers text = .ok (some span)) :
    ∃ distance, Block.findLine? markers.start text = some span.first ∧
      Block.findLine? markers.finish (text.drop span.first) = some distance ∧
      span.last = span.first + distance + markers.finish.length := by
  rw [find] at found
  cases starts : Block.findLine? markers.start text with
  | none =>
    rw [starts] at found
    cases finishes : Block.findLine? markers.finish text <;> rw [finishes] at found <;> cases found
  | some first =>
    rw [starts] at found
    cases finishes : Block.findLine? markers.finish (text.drop first) with
    | none =>
      simp only [finishes] at found
      cases found
    | some distance =>
      simp only [finishes, Except.ok.injEq, Option.some.injEq] at found
      subst found
      exact ⟨distance, rfl, finishes, rfl⟩

/-- Where a block is found whole lines end before it and the line of its end marker ends. -/
theorem find_eq_some (startSingle : '\n' ∉ markers.start) (finishSingle : '\n' ∉ markers.finish)
    (found : find markers text = .ok (some span)) :
    Leads markers (text.take span.first) ∧ span.first ≤ span.last ∧ span.last ≤ text.length ∧
      atLineEnd (text.drop span.last) = true := by
  obtain ⟨distance, starts, finishes, last⟩ := markers_of_find found
  obtain ⟨-, origin⟩ := lineOffset?_eq_some startSingle starts
  obtain ⟨ends, -⟩ := lineOffset?_eq_some finishSingle finishes
  obtain ⟨rest, split, closed⟩ := beginsWithLine_iff.mp ends
  rw [List.drop_drop] at split
  refine ⟨?_, by omega, ?_, ?_⟩
  · rcases origin with ⟨start, -⟩ | ⟨lines, taken, free⟩
    · exact Or.inl (by rw [start, List.take_zero])
    · exact Or.inr ⟨lines, taken, free⟩
  · have upToFirst := lineOffset?_le starts
    have upToLast := lineOffset?_le finishes
    have length := congrArg List.length split
    rw [List.length_drop, List.length_append] at length
    rw [List.length_drop] at upToLast
    omega
  · have past := congrArg (List.drop markers.finish.length) split
    rw [List.drop_drop, List.drop_left] at past
    rw [last, past]
    exact closed

theorem length_splice (within : span.first ≤ text.length) (middle : Text) :
    splice text span middle = text.take span.first ++ (middle ++ text.drop span.last) ∧
      (text.take span.first).length = span.first :=
  ⟨List.append_assoc .., List.length_take_of_le within⟩

/-- A block put in the place of another one is found there. -/
theorem find_splice (proper : markers.Proper) (found : find markers text = .ok (some span))
    (free : findLine? markers.finish (inner body) = none) :
    find markers (splice text span (render markers body)) =
      .ok (some ⟨span.first, span.first + (render markers body).length⟩) := by
  obtain ⟨lead, ordered, within, closed⟩ := find_eq_some proper.start.1 proper.finish.1 found
  obtain ⟨parts, length⟩ := length_splice (Nat.le_trans ordered within) (render markers body)
  have there := find_render proper lead free closed
  rwa [← parts, length] at there

/-- What was put in the place of a span can be replaced in its turn. -/
theorem splice_splice (within : span.first ≤ text.length) (middle other : Text) :
    splice (splice text span middle) ⟨span.first, span.first + middle.length⟩ other =
      splice text span other := by
  obtain ⟨parts, length⟩ := length_splice within middle
  have before : (splice text span middle).take span.first = text.take span.first := by
    rw [parts, List.take_left' length]
  have after : (splice text span middle).drop (span.first + middle.length) = text.drop span.last := by
    rw [splice, List.drop_left' (by rw [List.length_append, length])]
  rw [splice, before, after]
  rfl

/-- The text after a block without the newline that ends the line of its end marker. -/
def afterLine (after : Text) : Text :=
  if after.head? = some '\n' then after.tail else after

/-- Whether a newline before a block separates it from the rest: nothing comes after the
block, or the newline ends a blank line. -/
def Separate (before after : Text) : Prop :=
  before.getLast? = some '\n' ∧
    (afterLine after = [] ∨ before = ['\n'] ∨ before.dropLast.getLast? = some '\n')

instance (before after : Text) : Decidable (Separate before after) :=
  inferInstanceAs (Decidable (_ ∧ _))

/-- What is left of the texts before and after a block once it is taken out. -/
def rejoin (before after : Text) : Text :=
  (if Separate before after then before.dropLast else before) ++ afterLine after

theorem afterLine_cases (after : Text) :
    after = '\n' :: afterLine after ∨ after.head? ≠ some '\n' ∧ afterLine after = after := by
  unfold afterLine
  split
  · rename_i feed
    obtain ⟨rest, rfl⟩ := List.head?_eq_some_iff.mp feed
    exact Or.inl rfl
  · rename_i other
    exact Or.inr ⟨other, rfl⟩

/-- The newlines that go with a block are told by the texts before and after it. -/
theorem widen_around (before block after : Text) :
    widen (before ++ (block ++ after)) ⟨before.length, before.length + block.length⟩ =
      ⟨if Separate before after then before.length - 1 else before.length,
        if after.head? = some '\n' then before.length + block.length + 1 else before.length + block.length⟩ := by
  have feed : (before ++ (block ++ after))[before.length + block.length]? = after.head? := by
    rw [← List.append_assoc, ← List.length_append, List.getElem?_append_right (Nat.le_refl _),
      Nat.sub_self, List.head?_eq_getElem?]
  have atEnd : (if after.head? = some '\n' then before.length + block.length + 1 else before.length + block.length) =
      (before ++ (block ++ after)).length ↔ afterLine after = [] := by
    rw [← List.length_eq_zero_iff, afterLine]
    simp only [List.length_append]
    cases after with
    | nil => simp
    | cons c rest =>
      by_cases same : c = '\n'
      · simp only [same, List.head?_cons, if_true, List.length_cons, List.tail_cons]
        omega
      · simp [same]
  rw [widen]
  simp only [feed, atEnd]
  -- Two characters are looked at before the block, so that the text there is taken apart from its end.
  rcases List.eq_nil_or_concat before with rfl | ⟨above, c, same⟩
  · simp [Separate]
  · rw [List.concat_eq_append] at same
    subst same
    have final : (above ++ [c] ++ (block ++ after))[above.length]? = some c := by simp
    have blank : above ≠ [] → (above ++ [c] ++ (block ++ after))[above.length - 1]? = above.getLast? := by
      intro filled
      have positive := List.length_pos_iff.mpr filled
      rw [List.getLast?_eq_getElem?, List.append_assoc, List.getElem?_append_left (by omega)]
    have one : above ++ [c] = ['\n'] ↔ above = [] ∧ c = '\n' := by
      cases above <;> simp
    simp only [Separate, List.length_append, List.length_singleton, Nat.add_sub_cancel, final, one,
      Nat.add_eq_right, List.length_eq_zero_iff, List.getLast?_concat, Option.some.injEq, List.dropLast_concat,
      Nat.zero_lt_succ, decide_true, Bool.true_and, Bool.and_eq_true, Bool.or_eq_true, decide_eq_true_eq]
    by_cases empty : above = []
    · by_cases feed : c = '\n' <;> simp [empty, feed]
    · rw [show above.length + 1 - 2 = above.length - 1 from rfl, blank empty]
      by_cases feed : c = '\n'
      · simp only [feed, empty, true_and, false_and, or_false, false_or]
        split <;> rfl
      · simp [feed]

/-- A text by the three parts that a span divides it into. -/
theorem span_parts (ordered : span.first ≤ span.last) (within : span.last ≤ text.length) :
    ∃ block, text = text.take span.first ++ (block ++ text.drop span.last) ∧
      (text.take span.first).length = span.first ∧
      (text.take span.first).length + block.length = span.last := by
  have length := List.length_take_of_le (Nat.le_trans ordered within)
  refine ⟨(text.drop span.first).take (span.last - span.first), ?_, length, ?_⟩
  · have rest := List.take_append_drop (span.last - span.first) (text.drop span.first)
    rw [List.drop_drop, Nat.add_sub_cancel' ordered] at rest
    rw [rest, List.take_append_drop]
  · rw [length, List.length_take_of_le (by rw [List.length_drop]; omega), Nat.add_sub_cancel' ordered]

theorem widen_of_find (startSingle : '\n' ∉ markers.start) (finishSingle : '\n' ∉ markers.finish)
    (found : find markers text = .ok (some span)) :
    widen text span =
      ⟨if Separate (text.take span.first) (text.drop span.last) then span.first - 1 else span.first,
        if (text.drop span.last).head? = some '\n' then span.last + 1 else span.last⟩ := by
  obtain ⟨-, ordered, within, -⟩ := find_eq_some startSingle finishSingle found
  obtain ⟨block, whole, first, last⟩ := span_parts ordered within
  have widened := widen_around (text.take span.first) block (text.drop span.last)
  rwa [← whole, last, first] at widened

/-- Beside a block at most the newline right before it and the one right after it are taken out. -/
theorem widen_newlines (startSingle : '\n' ∉ markers.start) (finishSingle : '\n' ∉ markers.finish)
    (found : find markers text = .ok (some span)) :
    ((widen text span).first = span.first ∨ (widen text span).first + 1 = span.first) ∧
      ((widen text span).last = span.last ∨ (widen text span).last = span.last + 1) ∧
      ∀ offset, (widen text span).first ≤ offset → offset < (widen text span).last →
        offset < span.first ∨ span.last ≤ offset → text[offset]? = some '\n' := by
  obtain ⟨-, ordered, within, -⟩ := find_eq_some startSingle finishSingle found
  have length := List.length_take_of_le (Nat.le_trans ordered within)
  have before (separate : Separate (text.take span.first) (text.drop span.last)) :
      0 < span.first ∧ text[span.first - 1]? = some '\n' := by
    have feed := separate.1
    have filled : 0 < span.first := by
      rw [← length]
      exact List.length_pos_iff.mpr fun none => by simp [none] at feed
    rw [List.getLast?_eq_getElem?, length, List.getElem?_take_of_lt (by omega)] at feed
    exact ⟨filled, feed⟩
  have after (feed : (text.drop span.last).head? = some '\n') : text[span.last]? = some '\n' := by
    rwa [List.head?_drop] at feed
  rw [widen_of_find startSingle finishSingle found]
  dsimp only
  refine ⟨?_, ?_, fun offset lower upper outside => ?_⟩
  · split
    · rename_i separate
      exact Or.inr (Nat.sub_add_cancel (before separate).1)
    · exact Or.inl rfl
  · split
    · exact Or.inr rfl
    · exact Or.inl rfl
  · rcases outside with early | late
    · split at lower
      · rename_i separate
        rw [show offset = span.first - 1 by omega]
        exact (before separate).2
      · omega
    · split at upper
      · rename_i feed
        rw [show offset = span.last by omega]
        exact after feed
      · omega

/-- Taking a block out rejoins the texts before and after it. -/
theorem splice_widen (startSingle : '\n' ∉ markers.start) (finishSingle : '\n' ∉ markers.finish)
    (found : find markers text = .ok (some span)) :
    splice text (widen text span) [] = rejoin (text.take span.first) (text.drop span.last) := by
  obtain ⟨-, ordered, within, -⟩ := find_eq_some startSingle finishSingle found
  have first := List.length_take_of_le (Nat.le_trans ordered within)
  have past : text.drop (if (text.drop span.last).head? = some '\n' then span.last + 1 else span.last) =
      afterLine (text.drop span.last) := by
    rw [afterLine, apply_ite text.drop, List.tail_drop]
  have kept : text.take (if Separate (text.take span.first) (text.drop span.last) then span.first - 1
      else span.first) = if Separate (text.take span.first) (text.drop span.last) then
        (text.take span.first).dropLast else text.take span.first := by
    rw [apply_ite text.take, List.dropLast_eq_take, first, List.take_take, Nat.min_eq_left (Nat.sub_le _ _)]
  rw [widen_of_find startSingle finishSingle found, splice, List.append_nil, past, kept]
  rfl

theorem remove_of_find (startSingle : '\n' ∉ markers.start) (finishSingle : '\n' ∉ markers.finish)
    (found : find markers text = .ok (some span)) :
    remove markers text = .ok (rejoin (text.take span.first) (text.drop span.last)) := by
  rw [← splice_widen startSingle finishSingle found, remove, found]
  rfl

/-- A block that was put at the end of a text is found there, whatever was added later. -/
theorem find_append_later (proper : markers.Proper) (unmarked : findLine? markers.start text = none)
    (free : findLine? markers.finish (inner body) = none) (later : Text) :
    find markers (append markers body text ++ later) =
      .ok (some ⟨text.length + 1, text.length + 1 + (render markers body).length⟩) := by
  have lead : Leads markers (text ++ ['\n']) := Or.inr ⟨text, rfl, unmarked⟩
  have closed : atLineEnd ('\n' :: later) = true := rfl
  have found := find_render proper lead free closed
  simpa [append] using found

theorem find_append (proper : markers.Proper) (unmarked : findLine? markers.start text = none)
    (free : findLine? markers.finish (inner body) = none) :
    find markers (append markers body text) =
      .ok (some ⟨text.length + 1, text.length + 1 + (render markers body).length⟩) := by
  have found := find_append_later proper unmarked free []
  rwa [List.append_nil] at found

/-- Taking out a block that was put at the end of a text gives the text back, with what was added
later. A newline stays between the two unless one of them is empty or the text ends in one. -/
theorem remove_append_later (proper : markers.Proper) (unmarked : findLine? markers.start text = none)
    (free : findLine? markers.finish (inner body) = none) (later : Text) :
    remove markers (append markers body text ++ later) =
      .ok (if text = [] ∨ text.getLast? = some '\n' ∨ later = [] then text ++ later
        else text ++ '\n' :: later) := by
  have whole : append markers body text ++ later =
      text ++ ['\n'] ++ (render markers body ++ '\n' :: later) := by simp [append]
  have before : (text ++ ['\n'] ++ (render markers body ++ '\n' :: later)).take (text.length + 1) = text ++ ['\n'] :=
    List.take_left' (by simp)
  have after : (text ++ ['\n'] ++ (render markers body ++ '\n' :: later)).drop
      (text.length + 1 + (render markers body).length) = '\n' :: later := by
    rw [← List.append_assoc]
    exact List.drop_left' (by simp only [List.length_append, List.length_singleton])
  have separate : Separate (text ++ ['\n']) ('\n' :: later) ↔
      text = [] ∨ text.getLast? = some '\n' ∨ later = [] := by
    simp only [Separate, List.getLast?_concat, List.dropLast_concat, true_and]
    rw [show text ++ ['\n'] = ['\n'] ↔ text = [] by simp, or_left_comm, or_comm (a := afterLine _ = [])]
    exact Iff.rfl
  rw [remove_of_find proper.start.1 proper.finish.1 (find_append_later proper unmarked free later), whole, before,
    after, rejoin, List.dropLast_concat]
  simp only [separate]
  split
  · rfl
  · rw [List.append_assoc]
    rfl

theorem remove_append (proper : markers.Proper) (unmarked : findLine? markers.start text = none)
    (free : findLine? markers.finish (inner body) = none) :
    remove markers (append markers body text) = .ok text := by
  have removed := remove_append_later proper unmarked free []
  simpa using removed

/-- A text with neither marker has no block. -/
theorem find_eq_none (start : findLine? markers.start text = none)
    (finish : findLine? markers.finish text = none) : find markers text = .ok none := by
  rw [find, start]
  simp only [finish]

theorem findLine?_of_find_none (found : find markers text = .ok none) :
    findLine? markers.start text = none ∧ findLine? markers.finish text = none := by
  rw [find] at found
  cases starts : findLine? markers.start text with
  | none =>
    rw [starts] at found
    cases finishes : findLine? markers.finish text with
    | none => exact ⟨rfl, rfl⟩
    | some _ =>
      simp only [finishes] at found
      cases found
  | some first =>
    rw [starts] at found
    cases finishes : findLine? markers.finish (text.drop first) <;> simp only [finishes] at found <;>
      cases found

theorem remove_of_find_none (found : find markers text = .ok none) : remove markers text = .ok text := by
  rw [remove, found]
  rfl

/-- A text without its block is the text itself, or what stands around the block. -/
theorem remove_cases {updated : Text} (removed : remove markers text = .ok updated) :
    find markers text = .ok none ∧ updated = text ∨
      ∃ span, find markers text = .ok (some span) ∧ updated = splice text (widen text span) [] := by
  rw [remove] at removed
  cases found : find markers text with
  | error marker =>
    rw [found] at removed
    cases removed
  | ok span? =>
    rw [found] at removed
    cases span? <;> cases removed
    · exact Or.inl ⟨rfl, rfl⟩
    · exact Or.inr ⟨_, rfl, rfl⟩

/-- Whether a line counts as a marker: it is the marker, or goes on with a carriage return. -/
def Marks (marker line : Text) : Prop :=
  line = marker ∨ ∃ rest, line = marker ++ '\r' :: rest

instance (marker line : Text) : Decidable (Marks marker line) :=
  decidable_of_iff (line = marker ∨ marker ++ ['\r'] <+: line) <| by
    simp only [Marks, List.prefix_iff_eq_append, List.append_assoc, List.singleton_append]
    exact or_congr_right ⟨fun same => ⟨_, same.symm⟩, by rintro ⟨rest, rfl⟩; simp⟩

theorem beginsWithLine_iff_marks {marker line : Text} (single : '\n' ∉ line) :
    beginsWithLine marker line = true ↔ Marks marker line := by
  rw [beginsWithLine_iff]
  constructor
  · rintro ⟨rest, rfl, closed⟩
    cases rest with
    | nil => exact Or.inl (List.append_nil marker)
    | cons c rest =>
      simp only [atLineEnd, Bool.or_eq_true, decide_eq_true_eq] at closed
      rcases closed with rfl | rfl
      · exact absurd (by simp) single
      · exact Or.inr ⟨rest, rfl⟩
  · rintro (rfl | ⟨rest, rfl⟩)
    · exact ⟨[], by simp, rfl⟩
    · exact ⟨'\r' :: rest, rfl, rfl⟩

/-- A marker is not found exactly where none of the lines counts as it. -/
theorem findLine?_eq_none_iff {marker text : Text} (single : '\n' ∉ marker) :
    findLine? marker text = none ↔ ∀ line ∈ text.newlinePieces, ¬ Marks marker line := by
  have alone {line : Text} (whole : '\n' ∉ line) : findLine? marker line = none ↔ ¬ Marks marker line := by
    rw [← beginsWithLine_iff_marks whole, Bool.not_eq_true]
    refine ⟨fun missing => Bool.eq_false_iff.mpr fun begins => ?_, findLine?_eq_none whole⟩
    rw [findLine?_of_begins begins] at missing
    cases missing
  induction text using Text.newlineInduction with
  | single line whole => rw [Text.newlinePieces_single whole, List.forall_mem_singleton, alone whole]
  | line line rest whole ih =>
    rw [Text.newlinePieces_line whole, findLine?_append_newline single, List.forall_mem_cons,
      ← alone whole, Option.or_eq_none_iff, Option.map_eq_none_iff]
    exact and_congr_right fun _ => ih

/-- A line that none of the lines of a text is, is not found in it. -/
theorem findLine?_eq_none_of_pieces {line text : Text} (single : '\n' ∉ line) (plain : '\r' ∉ text)
    (absent : line ∉ text.newlinePieces) : findLine? line text = none := by
  refine (findLine?_eq_none_iff single).mpr fun piece member marks => ?_
  rcases marks with rfl | ⟨rest, rfl⟩
  · exact absent member
  · exact plain (Text.mem_of_mem_newlinePieces member (by simp))

end Block

end TabCompletion
