import TabCompletion.Text.Basic
import TabCompletion.Text.LowerCase.Table

namespace TabCompletion

namespace LowerCase

def isCased (c : Char) : Bool :=
  inRanges casedRanges c.toNat

def isIgnorable (c : Char) : Bool :=
  inRanges ignorableRanges c.toNat

/-- The small letters of one character, its neighbours left aside. Only the
capital i with a dot above has two. -/
def ofChar (c : Char) : Text :=
  if c.toNat < 128 then [c.toLower]
  else if c = 'İ' then ['i', '\u0307']
  else
    match runs.find? fun (first, last, step, _) =>
        first ≤ c.toNat && c.toNat ≤ last && (c.toNat - first) % step == 0 with
    | some (first, _, _, small) => [Char.ofNat (small + (c.toNat - first))]
    | none => [c]

/-- Whether the next character that is not passed over is a cased letter. -/
def meetsCased (text : Text) : Bool :=
  (text.dropWhile isIgnorable).head?.any isCased

/-- Lower case of a text whose earlier characters are given nearest first. A
capital sigma becomes a final one exactly at the right end of a word. -/
def ofTextAfter (before : Text) : Text → Text
  | [] => []
  | c :: rest =>
    (if c = 'Σ' then [if meetsCased before && !meetsCased rest then 'ς' else 'σ'] else ofChar c) ++
      ofTextAfter (c :: before) rest

end LowerCase

def Text.lowerCase (text : Text) : Text :=
  LowerCase.ofTextAfter [] text

theorem LowerCase.ofTextAfter_ascii (before text : Text) (ascii : ∀ c ∈ text, c.toNat < 128) :
    LowerCase.ofTextAfter before text = text.map Char.toLower := by
  induction text generalizing before with
  | nil => rfl
  | cons c rest ih =>
    have small := ascii c List.mem_cons_self
    have notSigma : c ≠ 'Σ' := by
      rintro rfl
      exact absurd small (by decide)
    simp [ofTextAfter, notSigma, ofChar, small, ih (c :: before) fun d h => ascii d (List.mem_cons_of_mem _ h)]

end TabCompletion
