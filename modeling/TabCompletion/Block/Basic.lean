import TabCompletion.Text.Line

namespace TabCompletion

/-- The lines that a managed block begins and ends with. -/
structure Markers where
  start : Text
  finish : Text
deriving DecidableEq, Repr

/-- A stretch of a text, from the first offset to before the second. -/
structure Span where
  first : Nat
  last : Nat
deriving DecidableEq, Repr

namespace Block

/-- Whether a line ends before the text: at its own end, or at a line end. -/
def atLineEnd : Text → Bool
  | [] => true
  | c :: _ => c = '\n' || c = '\r'

/-- Whether the text begins with that whole line. -/
def beginsWithLine (line text : Text) : Bool :=
  (text.rest? line).any atLineEnd

/-- The offset of the first whole line equal to the given one; whether the text itself
begins a line is told beside it. -/
def lineOffset? (line : Text) (atLineStart : Bool) : Text → Option Nat
  | [] => if atLineStart && beginsWithLine line [] then some 0 else none
  | c :: rest =>
    if atLineStart && beginsWithLine line (c :: rest) then some 0
    else (lineOffset? line (c = '\n') rest).map (· + 1)

def findLine? (line text : Text) : Option Nat :=
  lineOffset? line true text

/-- Where the block stands: from the first start marker to the end of the first end
marker at or after it, or nowhere when there is neither marker. With only one of them
the text is ambiguous, and the other marker is the error. -/
def find (markers : Markers) (text : Text) : Except Text (Option Span) :=
  match findLine? markers.start text with
  | none =>
    match findLine? markers.finish text with
    | none => .ok none
    | some _ => .error markers.start
  | some first =>
    match findLine? markers.finish (text.drop first) with
    | none => .error markers.finish
    | some distance => .ok (some ⟨first, first + distance + markers.finish.length⟩)

/-- The text of a block: the start marker, the lines of the body, and the end marker. -/
def render (markers : Markers) (body : Text) : Text :=
  let inner := body.dropFinal '\n'
  if inner.isEmpty then markers.start ++ '\n' :: markers.finish
  else markers.start ++ '\n' :: inner ++ '\n' :: markers.finish

/-- The text outside a span with something in its place. -/
def splice (text : Text) (span : Span) (middle : Text) : Text :=
  text.take span.first ++ middle ++ text.drop span.last

/-- The text with another body in its block, which must be there. -/
def replace (markers : Markers) (body text : Text) : Except Text Text := do
  match ← find markers text with
  | none => throw markers.start
  | some span => pure (splice text span (render markers body))

/-- The text with a new block at its end. -/
def append (markers : Markers) (body text : Text) : Text :=
  text ++ '\n' :: render markers body ++ ['\n']

/-- The span of a block with the newlines that go with it: the one after it, and the one
before it when it separates the block from the rest, that is at the end of the text and
after a blank line. -/
def widen (text : Text) (span : Span) : Span :=
  let last := if text[span.last]? = some '\n' then span.last + 1 else span.last
  let separate := last = text.length || span.first = 1 || text[span.first - 2]? = some '\n'
  if 0 < span.first && text[span.first - 1]? = some '\n' && separate then ⟨span.first - 1, last⟩
  else ⟨span.first, last⟩

/-- The text without its block, if it has one. -/
def remove (markers : Markers) (text : Text) : Except Text Text := do
  match ← find markers text with
  | none => pure text
  | some span => pure (splice text (widen text span) [])

end Block

end TabCompletion
