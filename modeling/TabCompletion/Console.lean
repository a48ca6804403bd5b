import TabCompletion.Environment

namespace TabCompletion

/-- How much a run tells of what it does. -/
structure Verbosity where
  noColor : Bool := false
  quiet : Bool := false
  verbose : Bool := false
deriving DecidableEq, Repr

/-- The environment asks for plain text with a variable of any value, or with a terminal
that can do no more. -/
def Environment.forbidsColor (environment : Environment) : Bool :=
  (environment.get? "NO_COLOR").isSome || environment.get? "TERM" == some "dumb".toList

/-- What a run has written so far: data on one stream, all else on the other. Colours
are for terminals alone, so neither stream has any. -/
structure Console where
  out : Text := []
  err : Text := []
deriving DecidableEq, Repr

namespace Console

/-- Data, with a line end after it if it has none. -/
def data (console : Console) (text : Text) : Console :=
  { console with
    out := console.out ++ text ++ if text.getLast? = some '\n' then [] else ['\n'] }

/-- A line that is no data. -/
def line (console : Console) (text : Text) : Console :=
  { console with err := console.err ++ text ++ ['\n'] }

def info (console : Console) (verbosity : Verbosity) (text : Text) : Console :=
  if verbosity.quiet then console else console.line text

def success (console : Console) (verbosity : Verbosity) (text : Text) : Console :=
  console.info verbosity ("✓ " ++ text)

def suggestion (console : Console) (verbosity : Verbosity) (text : Text) : Console :=
  console.info verbosity ("→ " ++ text)

def warning (console : Console) (text : Text) : Console :=
  console.line ("Warning: " ++ text)

def error (console : Console) (text : Text) : Console :=
  console.line ("Error: " ++ text)

/-- Only a verbose run shows its notes, a quiet one too when it is verbose. -/
def debug (console : Console) (verbosity : Verbosity) (text : Text) : Console :=
  if verbosity.verbose then console.line ("[debug] " ++ text) else console

end Console

end TabCompletion
