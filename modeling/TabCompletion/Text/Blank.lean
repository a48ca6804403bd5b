import TabCompletion.Text.Basic

namespace TabCompletion

/-- The blank characters: the white space of Unicode and the four information
separators. Zero-width characters are not blank. -/
def blankRanges : List (Nat × Nat) :=
  [(0x09, 0x0D), (0x1C, 0x20), (0x85, 0x85), (0xA0, 0xA0), (0x1680, 0x1680), (0x2000, 0x200A),
    (0x2028, 0x2029), (0x202F, 0x202F), (0x205F, 0x205F), (0x3000, 0x3000)]

def isBlank (c : Char) : Bool :=
  inRanges blankRanges c.toNat

/-- The text without the blank characters at its two ends. -/
def Text.trim (text : Text) : Text :=
  text.trimWith isBlank

end TabCompletion
