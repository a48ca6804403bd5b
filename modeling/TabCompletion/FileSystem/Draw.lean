import TabCompletion.Text.Basic

namespace TabCompletion

/-- The characters that names of temporary files are drawn from. -/
def drawnFrom : Text := "abcdefghijklmnopqrstuvwxyz0123456789_"

/-- The random part of the name of a temporary file. -/
structure Draw where
  text : Text
  length : text.length = 8
  letters : ∀ letter ∈ text, letter ∈ drawnFrom
deriving DecidableEq, Repr

namespace Draw

def letter (number : Nat) : Char := drawnFrom[number % 37]?.getD 'a'

theorem letter_mem (number : Nat) : letter number ∈ drawnFrom := by
  have within : number % 37 < drawnFrom.length := Nat.mod_lt number (by decide)
  rw [letter, List.getElem?_eq_getElem within]
  exact List.getElem_mem within

/-- The letters that stand for the last digits of a number, the last one first. -/
def spell : Nat → Nat → Text
  | 0, _ => []
  | places + 1, number => letter number :: spell places (number / 37)

theorem length_spell (places number : Nat) : (spell places number).length = places := by
  induction places generalizing number with
  | zero => rfl
  | succ places ih => rw [spell, List.length_cons, ih]

theorem spell_mem (places number : Nat) : ∀ c ∈ spell places number, c ∈ drawnFrom := by
  induction places generalizing number with
  | zero => exact fun c member => absurd member List.not_mem_nil
  | succ places ih =>
    intro c member
    rcases List.mem_cons.mp member with rfl | later
    · exact letter_mem number
    · exact ih (number / 37) c later

/-- A number by eight letters. -/
def ofNat (number : Nat) : Draw :=
  ⟨spell 8 number, length_spell 8 number, spell_mem 8 number⟩

end Draw

end TabCompletion
