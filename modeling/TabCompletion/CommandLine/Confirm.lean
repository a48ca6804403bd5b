import TabCompletion.Text.Blank
import TabCompletion.Text.Line
import TabCompletion.Text.LowerCase

namespace TabCompletion.CommandLine

/-- What a line says to a question that is answered with no when nothing is said. -/
def answer? (line : Text) : Option Bool :=
  let word := line.lowerCase.trim
  if word = ("y" : Text) || word = ("yes" : Text) then some true
  else if word.isEmpty || word = ("n" : Text) || word = ("no" : Text) then some false
  else none

/-- The first line that is an answer, if there is one, and what was written to get it:
the question once for each line read and once more at the end of the input. -/
def confirm (question : Text) : List Text → Option Bool × Text
  | [] => (none, question)
  | line :: rest =>
    match answer? line with
    | some answer => (some answer, question)
    | none =>
      let (answer, written) := confirm question rest
      (answer, question ++ "Error: invalid input\n" ++ written)

/-- The lines of an input; nothing after its last line end is no line. -/
def inputLines (input : Text) : List Text :=
  let pieces := input.unifyNewlines.newlinePieces
  if pieces.getLast? = some [] then pieces.dropLast else pieces

end TabCompletion.CommandLine
