import TabCompletion.Text.Utf8

namespace TabCompletion.Utf8

section Beginning

variable {b : UInt8}

theorem beginning_one (upper : b.toNat < 0x80) : beginning b = .whole (Char.ofNat b.toNat) := by
  simp [beginning, UInt8.lt_iff_toNat_lt, upper]

theorem beginning_two (lower : 0xC2 ≤ b.toNat) (upper : b.toNat < 0xE0) :
    beginning b = .started ⟨[b], b.toNat - 0xC0, 0, 0x80, 0xBF⟩ := by
  simp only [beginning, UInt8.lt_iff_toNat_lt, ← UInt8.toNat_inj, UInt8.toNat_ofNat, Nat.reducePow,
    Nat.reduceMod]
  rw [if_neg (by omega), if_neg (by omega), if_pos upper]

/-- The second byte of three is bounded so that no form is too long and none a surrogate. -/
theorem beginning_three (lower : 0xE0 ≤ b.toNat) (upper : b.toNat < 0xF0) :
    beginning b = .started ⟨[b], b.toNat - 0xE0, 1, if b.toNat = 0xE0 then 0xA0 else 0x80,
      if b.toNat = 0xED then 0x9F else 0xBF⟩ := by
  simp only [beginning, UInt8.lt_iff_toNat_lt, ← UInt8.toNat_inj, UInt8.toNat_ofNat, Nat.reducePow,
    Nat.reduceMod]
  rw [if_neg (by omega), if_neg (by omega), if_neg (by omega)]
  grind

/-- The second byte of four is bounded so that no form is too long and none past the last
character. -/
theorem beginning_four (lower : 0xF0 ≤ b.toNat) (upper : b.toNat ≤ 0xF4) :
    beginning b = .started ⟨[b], b.toNat - 0xF0, 2, if b.toNat = 0xF0 then 0x90 else 0x80,
      if b.toNat = 0xF4 then 0x8F else 0xBF⟩ := by
  simp only [beginning, UInt8.lt_iff_toNat_lt, ← UInt8.toNat_inj, UInt8.toNat_ofNat, Nat.reducePow,
    Nat.reduceMod]
  rw [if_neg (by omega), if_neg (by omega), if_neg (by omega), if_neg (by omega), if_neg (by omega),
    if_neg (by omega)]
  grind

theorem beginning_invalid (lower : 0x80 ≤ b.toNat) (outside : b.toNat < 0xC2 ∨ 0xF4 < b.toNat) :
    beginning b = .invalid := by
  simp only [beginning, UInt8.lt_iff_toNat_lt, ← UInt8.toNat_inj, UInt8.toNat_ofNat, Nat.reducePow,
    Nat.reduceMod]
  rw [if_neg (by omega)]
  rcases outside with before | past
  · rw [if_pos before]
  · rw [if_neg (by omega), if_neg (by omega), if_neg (by omega), if_neg (by omega), if_neg (by omega),
      if_neg (by omega), if_neg (by omega), if_neg (by omega)]

end Beginning

theorem step_continuing {pending : Pending} {b : UInt8} (lower : pending.low.toNat ≤ b.toNat)
    (upper : b.toNat ≤ pending.high.toNat) :
    step (some pending) b =
      match pending.following with
      | 0 => ([.char (Char.ofNat (pending.number * 64 + (b.toNat - 0x80)))], none)
      | following + 1 =>
        ([], some ⟨pending.bytes ++ [b], pending.number * 64 + (b.toNat - 0x80), following, 0x80, 0xBF⟩) := by
  have within : (decide (pending.low ≤ b) && decide (b ≤ pending.high)) = true := by
    simp only [UInt8.le_iff_toNat_le, lower, upper, decide_true, Bool.and_self]
  refine (if_pos within).trans ?_
  cases pending.following <;> rfl

theorem piecesAfter_cons (state : Option Pending) (b : UInt8) (rest : Bytes) :
    piecesAfter state (b :: rest) = (step state b).1 ++ piecesAfter (step state b).2 rest := rfl

theorem piecesAfter_started {b : UInt8} {pending : Pending} (first : beginning b = .started pending)
    (rest : Bytes) : piecesAfter none (b :: rest) = piecesAfter (some pending) rest := by
  simp only [piecesAfter_cons, step, begun, first, List.nil_append]

theorem piecesAfter_last {bytes : Bytes} {number : Nat} {low high b : UInt8}
    (lower : low.toNat ≤ b.toNat) (upper : b.toNat ≤ high.toNat) (rest : Bytes) :
    piecesAfter (some ⟨bytes, number, 0, low, high⟩) (b :: rest) =
      .char (Char.ofNat (number * 64 + (b.toNat - 0x80))) :: piecesAfter none rest := by
  rw [piecesAfter_cons, step_continuing lower upper]
  rfl

theorem piecesAfter_more {bytes : Bytes} {number following : Nat} {low high b : UInt8}
    (lower : low.toNat ≤ b.toNat) (upper : b.toNat ≤ high.toNat) (rest : Bytes) :
    piecesAfter (some ⟨bytes, number, following + 1, low, high⟩) (b :: rest) =
      piecesAfter (some ⟨bytes ++ [b], number * 64 + (b.toNat - 0x80), following, 0x80, 0xBF⟩) rest := by
  rw [piecesAfter_cons, step_continuing lower upper]
  rfl

/-- The bytes that may follow the first one of a character. -/
def Continues (b : UInt8) : Prop :=
  (0x80 : UInt8).toNat ≤ b.toNat ∧ b.toNat ≤ (0xBF : UInt8).toNat

theorem continues_iff (b : UInt8) : Continues b ↔ 0x80 ≤ b.toNat ∧ b.toNat ≤ 0xBF := Iff.rfl

/-- A byte in a narrowed range continues a character within the narrower bounds. -/
theorem narrowed_iff {p q : Prop} [Decidable p] [Decidable q] (low high : UInt8) {b : UInt8}
    (inner : (0x80 : UInt8).toNat ≤ low.toNat ∧ high.toNat ≤ (0xBF : UInt8).toNat) :
    ((if p then low else 0x80).toNat ≤ b.toNat ∧ b.toNat ≤ (if q then high else 0xBF).toNat) ↔
      Continues b ∧ (p → low.toNat ≤ b.toNat) ∧ (q → b.toNat ≤ high.toNat) := by
  constructor
  · rintro ⟨lower, upper⟩
    refine ⟨⟨?_, ?_⟩, fun holds => by rwa [if_pos holds] at lower,
      fun holds => by rwa [if_pos holds] at upper⟩
    · split at lower
      · exact Nat.le_trans inner.1 lower
      · exact lower
    · split at upper
      · exact Nat.le_trans upper inner.2
      · exact upper
  · rintro ⟨⟨lower, upper⟩, long, scalar⟩
    constructor
    · split
      · exact long ‹_›
      · exact lower
    · split
      · exact scalar ‹_›
      · exact upper

theorem piecesAfter_two {a b : UInt8} (lower : 0xC2 ≤ a.toNat) (upper : a.toNat < 0xE0)
    (second : Continues b) (rest : Bytes) :
    piecesAfter none (a :: b :: rest) =
      .char (Char.ofNat ((a.toNat - 0xC0) * 64 + (b.toNat - 0x80))) :: piecesAfter none rest := by
  rw [piecesAfter_started (beginning_two lower upper), piecesAfter_last second.1 second.2]

theorem piecesAfter_three {a b c : UInt8} (lower : 0xE0 ≤ a.toNat) (upper : a.toNat < 0xF0)
    (second : Continues b) (long : a.toNat = 0xE0 → 0xA0 ≤ b.toNat)
    (scalar : a.toNat = 0xED → b.toNat ≤ 0x9F) (third : Continues c) (rest : Bytes) :
    piecesAfter none (a :: b :: c :: rest) =
      .char (Char.ofNat (((a.toNat - 0xE0) * 64 + (b.toNat - 0x80)) * 64 + (c.toNat - 0x80))) ::
        piecesAfter none rest := by
  obtain ⟨low, high⟩ := (narrowed_iff 0xA0 0x9F (by decide)).mpr
    ⟨second, long, scalar⟩
  rw [piecesAfter_started (beginning_three lower upper), piecesAfter_more low high,
    piecesAfter_last third.1 third.2]

theorem piecesAfter_four {a b c d : UInt8} (lower : 0xF0 ≤ a.toNat) (upper : a.toNat ≤ 0xF4)
    (second : Continues b) (long : a.toNat = 0xF0 → 0x90 ≤ b.toNat)
    (scalar : a.toNat = 0xF4 → b.toNat ≤ 0x8F) (third : Continues c) (fourth : Continues d) (rest : Bytes) :
    piecesAfter none (a :: b :: c :: d :: rest) =
      .char (Char.ofNat ((((a.toNat - 0xF0) * 64 + (b.toNat - 0x80)) * 64 + (c.toNat - 0x80)) * 64 +
        (d.toNat - 0x80))) :: piecesAfter none rest := by
  obtain ⟨low, high⟩ := (narrowed_iff 0x90 0x8F (by decide)).mpr
    ⟨second, long, scalar⟩
  rw [piecesAfter_started (beginning_four lower upper), piecesAfter_more low high,
    piecesAfter_more third.1 third.2, piecesAfter_last fourth.1 fourth.2]

theorem toNat_ofNat_of_lt {n : Nat} (bound : n < 0x100) : (UInt8.ofNat n).toNat = n := by
  rw [UInt8.toNat_ofNat']
  exact Nat.mod_eq_of_lt bound

/-- The bytes of a character are read back as that character. -/
theorem piecesAfter_encodeChar (c : Char) (rest : Bytes) :
    piecesAfter none (String.utf8EncodeChar c ++ rest) = .char c :: piecesAfter none rest := by
  have valid := c.valid
  have same : Char.ofNat c.val.toNat = c := Char.ofNat_toNat c
  simp only [UInt32.isValidChar, Nat.isValidChar] at valid
  unfold String.utf8EncodeChar
  generalize c.val.toNat = n at valid same
  have byte (k : Nat) (bound : k < 0x100) := toNat_ofNat_of_lt bound
  have tail (k : Nat) : Continues (UInt8.ofNat (k % 0x40 + 0x80)) := by
    have number := byte (k % 0x40 + 0x80) (by omega)
    exact (continues_iff _).mpr (by omega)
  have last := byte (n % 0x40 + 0x80) (by omega)
  dsimp only
  by_cases one : n ≤ 0x7f
  · have first := beginning_one (b := UInt8.ofNat n) (by rw [byte n (by omega)]; omega)
    rw [byte n (by omega), same] at first
    rw [if_pos one]
    simp only [List.cons_append, List.nil_append, piecesAfter_cons, step, begun, first]
  by_cases two : n ≤ 0x7ff
  · have first := byte (n / 64 % 0x20 + 0xc0) (by omega)
    rw [if_neg one, if_pos two]
    simp only [List.cons_append, List.nil_append]
    rw [piecesAfter_two (by omega) (by omega) (tail n), first, last]
    rw [show (n / 64 % 0x20 + 0xc0 - 0xC0) * 64 + (n % 0x40 + 0x80 - 0x80) = n by omega, same]
  have second := byte (n / 64 % 0x40 + 0x80) (by omega)
  by_cases three : n ≤ 0xffff
  · have first := byte (n / 4096 % 0x10 + 0xe0) (by omega)
    rw [if_neg one, if_neg two, if_pos three]
    simp only [List.cons_append, List.nil_append]
    rw [piecesAfter_three (by omega) (by omega) (tail (n / 64)) (by omega) (by omega) (tail n), first,
      second, last]
    rw [show ((n / 4096 % 0x10 + 0xe0 - 0xE0) * 64 + (n / 64 % 0x40 + 0x80 - 0x80)) * 64 +
      (n % 0x40 + 0x80 - 0x80) = n by omega, same]
  · have first := byte (n / 262144 % 0x08 + 0xf0) (by omega)
    have next := byte (n / 4096 % 0x40 + 0x80) (by omega)
    rw [if_neg one, if_neg two, if_neg three]
    simp only [List.cons_append, List.nil_append]
    rw [piecesAfter_four (by omega) (by omega) (tail (n / 4096)) (by omega) (by omega) (tail (n / 64))
      (tail n), first, next, second, last]
    rw [show (((n / 262144 % 0x08 + 0xf0 - 0xF0) * 64 + (n / 4096 % 0x40 + 0x80 - 0x80)) * 64 +
      (n / 64 % 0x40 + 0x80 - 0x80)) * 64 + (n % 0x40 + 0x80 - 0x80) = n by omega, same]

theorem pieces_encode (text : Text) : pieces (encode text) = text.map .char := by
  induction text with
  | nil => rfl
  | cons c rest ih =>
    rw [pieces, encode, List.flatMap_cons, piecesAfter_encodeChar, List.map_cons]
    exact congrArg _ ih

theorem decodeLossy_encode (text : Text) : decodeLossy (encode text) = text := by
  rw [decodeLossy, pieces_encode, List.map_map]
  exact List.map_id _

theorem ofPieces_map_char (position : Nat) (text : Text) :
    ofPieces position (text.map .char) = .ok text := by
  induction text generalizing position with
  | nil => rfl
  | cons c rest ih =>
    rw [List.map_cons, ofPieces, ih]
    rfl

theorem decode_encode (text : Text) : decode (encode text) = .ok text := by
  rw [decode, pieces_encode, ofPieces_map_char]

theorem ofPieces_eq_ok {position : Nat} {pieces : List Piece} {text : Text}
    (read : ofPieces position pieces = .ok text) : pieces = text.map .char := by
  induction pieces generalizing position text with
  | nil =>
    cases read
    rfl
  | cons piece rest ih =>
    cases piece with
    | fault reason bytes => cases read
    | char c =>
      rw [ofPieces] at read
      cases following : ofPieces (position + c.utf8Size) rest with
      | error fault =>
        rw [following] at read
        cases read
      | ok tail =>
        rw [following] at read
        cases read
        rw [ih following, List.map_cons]

theorem toNat_charOfNat {n : Nat} (valid : n.isValidChar) : (Char.ofNat n).val.toNat = n := by
  have char : Char.ofNat n = ⟨⟨⟨n, _⟩⟩, _⟩ := dif_pos valid
  rw [char]
  rfl

theorem ofNat_eq {b : UInt8} {n : Nat} (same : n = b.toNat) : UInt8.ofNat n = b := by
  rw [same, UInt8.ofNat_toNat]

theorem encodeChar_one {a : UInt8} (upper : a.toNat < 0x80) :
    String.utf8EncodeChar (Char.ofNat a.toNat) = [a] := by
  have number := toNat_charOfNat (n := a.toNat) (Or.inl (by omega))
  unfold String.utf8EncodeChar
  dsimp only
  rw [number, if_pos (by omega), ofNat_eq rfl]

theorem encodeChar_two {a b : UInt8} (lower : 0xC2 ≤ a.toNat) (upper : a.toNat < 0xE0)
    (second : Continues b) :
    String.utf8EncodeChar (Char.ofNat ((a.toNat - 0xC0) * 64 + (b.toNat - 0x80))) = [a, b] := by
  rw [continues_iff] at second
  have number := toNat_charOfNat (n := (a.toNat - 0xC0) * 64 + (b.toNat - 0x80)) (Or.inl (by omega))
  unfold String.utf8EncodeChar
  dsimp only
  rw [number, if_neg (by omega), if_pos (by omega), ofNat_eq (b := a) (by omega), ofNat_eq (b := b) (by omega)]

theorem encodeChar_three {a b c : UInt8} (lower : 0xE0 ≤ a.toNat) (upper : a.toNat < 0xF0)
    (second : Continues b) (long : a.toNat = 0xE0 → 0xA0 ≤ b.toNat)
    (scalar : a.toNat = 0xED → b.toNat ≤ 0x9F) (third : Continues c) :
    String.utf8EncodeChar (Char.ofNat (((a.toNat - 0xE0) * 64 + (b.toNat - 0x80)) * 64 +
      (c.toNat - 0x80))) = [a, b, c] := by
  rw [continues_iff] at second third
  have valid : (((a.toNat - 0xE0) * 64 + (b.toNat - 0x80)) * 64 + (c.toNat - 0x80)).isValidChar := by
    rw [Nat.isValidChar]
    omega
  unfold String.utf8EncodeChar
  dsimp only
  rw [toNat_charOfNat valid, if_neg (by omega), if_neg (by omega), if_pos (by omega),
    ofNat_eq (b := a) (by omega), ofNat_eq (b := b) (by omega), ofNat_eq (b := c) (by omega)]

theorem encodeChar_four {a b c d : UInt8} (lower : 0xF0 ≤ a.toNat) (upper : a.toNat ≤ 0xF4)
    (second : Continues b) (long : a.toNat = 0xF0 → 0x90 ≤ b.toNat)
    (scalar : a.toNat = 0xF4 → b.toNat ≤ 0x8F) (third : Continues c) (fourth : Continues d) :
    String.utf8EncodeChar (Char.ofNat ((((a.toNat - 0xF0) * 64 + (b.toNat - 0x80)) * 64 +
      (c.toNat - 0x80)) * 64 + (d.toNat - 0x80))) = [a, b, c, d] := by
  rw [continues_iff] at second third fourth
  have valid : ((((a.toNat - 0xF0) * 64 + (b.toNat - 0x80)) * 64 + (c.toNat - 0x80)) * 64 +
      (d.toNat - 0x80)).isValidChar := by
    rw [Nat.isValidChar]
    omega
  unfold String.utf8EncodeChar
  dsimp only
  rw [toNat_charOfNat valid, if_neg (by omega), if_neg (by omega), if_neg (by omega),
    ofNat_eq (b := a) (by omega), ofNat_eq (b := b) (by omega), ofNat_eq (b := c) (by omega),
    ofNat_eq (b := d) (by omega)]

/-- An open character that comes to no fault is continued by a byte in its range. -/
theorem continued_of_char {bytes : Bytes} {number following : Nat} {low high : UInt8} {rest : Bytes}
    {text : Text}
    (read : piecesAfter (some ⟨bytes, number, following, low, high⟩) rest = text.map .char) :
    ∃ b tail, rest = b :: tail ∧ low.toNat ≤ b.toNat ∧ b.toNat ≤ high.toNat := by
  cases rest with
  | nil => cases text <;> simp [piecesAfter] at read
  | cons b tail =>
    by_cases range : low.toNat ≤ b.toNat ∧ b.toNat ≤ high.toNat
    · exact ⟨b, tail, rfl, range⟩
    · have outside : ¬ (low ≤ b ∧ b ≤ high) := by rwa [UInt8.le_iff_toNat_le, UInt8.le_iff_toNat_le]
      rw [piecesAfter_cons] at read
      cases text <;> simp [step, outside] at read

/-- Bytes that are read without a fault begin with those of their first character. -/
theorem first_of_pieces {bytes : Bytes} {text : Text} (some : bytes ≠ [])
    (read : piecesAfter none bytes = text.map .char) :
    ∃ c rest tail, bytes = String.utf8EncodeChar c ++ rest ∧ text = c :: tail ∧
      piecesAfter none rest = tail.map .char := by
  have parted {c : Char} {pieces : List Piece} (h : Piece.char c :: pieces = text.map .char) :
      ∃ tail, text = c :: tail ∧ pieces = tail.map .char := by
    cases text with
    | nil => cases h
    | cons d tail =>
      simp only [List.map_cons, List.cons.injEq, Piece.char.injEq] at h
      exact ⟨tail, by rw [h.1], h.2⟩
  obtain ⟨a, rest, rfl⟩ := List.exists_cons_of_ne_nil some
  -- The first byte tells how many come after it, and each of them was read without a fault.
  by_cases one : a.toNat < 0x80
  · rw [piecesAfter_cons] at read
    simp only [step, begun, beginning_one one, List.cons_append, List.nil_append] at read
    obtain ⟨tail, head, follows⟩ := parted read
    exact ⟨_, rest, tail, by rw [encodeChar_one one]; rfl, head, follows⟩
  by_cases two : 0xC2 ≤ a.toNat ∧ a.toNat < 0xE0
  · have started := read
    rw [piecesAfter_started (beginning_two two.1 two.2)] at started
    obtain ⟨b, rest, rfl, second⟩ := continued_of_char started
    rw [piecesAfter_two two.1 two.2 second] at read
    obtain ⟨tail, head, follows⟩ := parted read
    exact ⟨_, rest, tail, by rw [encodeChar_two two.1 two.2 second]; rfl, head, follows⟩
  by_cases three : 0xE0 ≤ a.toNat ∧ a.toNat < 0xF0
  · have started := read
    rw [piecesAfter_started (beginning_three three.1 three.2)] at started
    obtain ⟨b, rest, rfl, low, high⟩ := continued_of_char started
    rw [piecesAfter_more low high] at started
    obtain ⟨c, rest, rfl, third⟩ := continued_of_char started
    obtain ⟨second, long, scalar⟩ := (narrowed_iff _ _ (by decide)).mp ⟨low, high⟩
    rw [piecesAfter_three three.1 three.2 second long scalar third] at read
    obtain ⟨tail, head, follows⟩ := parted read
    exact ⟨_, rest, tail, by rw [encodeChar_three three.1 three.2 second long scalar third]; rfl,
      head, follows⟩
  by_cases four : 0xF0 ≤ a.toNat ∧ a.toNat ≤ 0xF4
  · have started := read
    rw [piecesAfter_started (beginning_four four.1 four.2)] at started
    obtain ⟨b, rest, rfl, low, high⟩ := continued_of_char started
    rw [piecesAfter_more low high] at started
    obtain ⟨c, rest, rfl, third⟩ := continued_of_char started
    rw [piecesAfter_more third.1 third.2] at started
    obtain ⟨d, rest, rfl, fourth⟩ := continued_of_char started
    obtain ⟨second, long, scalar⟩ := (narrowed_iff _ _ (by decide)).mp ⟨low, high⟩
    rw [piecesAfter_four four.1 four.2 second long scalar third fourth] at read
    obtain ⟨tail, head, follows⟩ := parted read
    exact ⟨_, rest, tail,
      by rw [encodeChar_four four.1 four.2 second long scalar third fourth]; rfl, head, follows⟩
  rw [piecesAfter_cons] at read
  cases text <;> simp [step, begun, beginning_invalid (b := a) (by omega) (by omega)] at read

theorem encode_of_pieces {bytes : Bytes} {text : Text}
    (read : piecesAfter none bytes = text.map .char) : encode text = bytes := by
  induction text generalizing bytes with
  | nil =>
    by_cases some : bytes = []
    · rw [some]
      rfl
    · obtain ⟨_, _, _, _, head, _⟩ := first_of_pieces some read
      cases head
  | cons c tail ih =>
    have some : bytes ≠ [] := by
      rintro rfl
      cases read
    obtain ⟨d, rest, others, rfl, head, follows⟩ := first_of_pieces some read
    cases head
    rw [encode, List.flatMap_cons, ← ih follows]
    rfl

/-- Each text has one form in UTF-8, the one that it is written in. -/
theorem decode_eq_ok_iff {bytes : Bytes} {text : Text} : decode bytes = .ok text ↔ bytes = encode text := by
  constructor
  · intro read
    exact (encode_of_pieces (ofPieces_eq_ok read)).symm
  · rintro rfl
    exact decode_encode text

end TabCompletion.Utf8
