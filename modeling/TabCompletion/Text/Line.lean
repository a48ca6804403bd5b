import TabCompletion.Text.Basic

namespace TabCompletion

/-- The characters that end a line. -/
def isLineBreak (c : Char) : Bool :=
  inRanges [(0x0A, 0x0D), (0x1C, 0x1E), (0x85, 0x85), (0x2028, 0x2029)] c.toNat

namespace Text

/-- One more character at the front of the first line. -/
def consFirst (c : Char) : List Text → List Text
  | [] => [[c]]
  | line :: lines => (c :: line) :: lines

/-- The lines of a text without their ends. A carriage return and the line feed
after it end one line, and nothing after the last line end is no line. -/
def lines : Text → List Text
  | [] => []
  | '\r' :: '\n' :: rest => [] :: lines rest
  | c :: rest => if isLineBreak c then [] :: lines rest else consFirst c (lines rest)

/-- A carriage return, alone or before a line feed, becomes one line feed. -/
def unifyNewlines : Text → Text
  | [] => []
  | '\r' :: '\n' :: rest => '\n' :: unifyNewlines rest
  | c :: rest => (if c = '\r' then '\n' else c) :: unifyNewlines rest

/-- The text up to each line feed; a text that ends in one has a last empty piece. -/
def newlinePieces (text : Text) : List Text :=
  text.splitOn '\n'

theorem unifyNewlines_of_not_mem {text : Text} (plain : '\r' ∉ text) :
    unifyNewlines text = text := by
  fun_induction unifyNewlines text with
  | case1 => rfl
  | case2 rest ih => simp at plain
  | case3 c rest notPair ih =>
    simp only [List.mem_cons, not_or] at plain
    rw [if_neg (fun h => plain.1 h.symm), ih plain.2]

theorem not_mem_unifyNewlines (text : Text) : '\r' ∉ unifyNewlines text := by
  fun_induction unifyNewlines text with
  | case1 => simp
  | case2 rest ih => simp [ih]
  | case3 c rest notPair ih =>
    simp only [List.mem_cons, not_or]
    refine ⟨?_, ih⟩
    split
    · decide
    · rename_i h
      exact fun same => h same.symm

theorem unifyNewlines_idem (text : Text) :
    unifyNewlines (unifyNewlines text) = unifyNewlines text :=
  unifyNewlines_of_not_mem (not_mem_unifyNewlines text)

end Text

end TabCompletion
