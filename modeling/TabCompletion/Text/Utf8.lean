import TabCompletion.Text.Quoted

namespace TabCompletion

abbrev Bytes := List UInt8

namespace Utf8

def encode (text : Text) : Bytes :=
  text.flatMap String.utf8EncodeChar

inductive Reason where
  | invalidStart
  | invalidContinuation
  | unexpectedEnd
deriving DecidableEq, Repr

/-- A character that is not complete yet: its bytes so far, its number so far, how
many bytes follow the next one, and the range that the next one must lie in. -/
structure Pending where
  bytes : Bytes
  number : Nat
  following : Nat
  low : UInt8
  high : UInt8
deriving DecidableEq, Repr

/-- What a byte is that begins a character. -/
inductive Beginning where
  | whole (c : Char)
  | started (pending : Pending)
  | invalid
deriving DecidableEq, Repr

/-- A character starts with an ASCII byte or with a byte that tells how many follow.
The range of the second byte keeps out long forms, surrogates and numbers past the
last character. -/
def beginning (b : UInt8) : Beginning :=
  let startedWith (lead following : Nat) (low high : UInt8) :=
    Beginning.started ⟨[b], b.toNat - lead, following, low, high⟩
  if b < 0x80 then .whole (Char.ofNat b.toNat)
  else if b < 0xC2 then .invalid
  else if b < 0xE0 then startedWith 0xC0 0 0x80 0xBF
  else if b = 0xE0 then startedWith 0xE0 1 0xA0 0xBF
  else if b = 0xED then startedWith 0xE0 1 0x80 0x9F
  else if b < 0xF0 then startedWith 0xE0 1 0x80 0xBF
  else if b = 0xF0 then startedWith 0xF0 2 0x90 0xBF
  else if b < 0xF4 then startedWith 0xF0 2 0x80 0xBF
  else if b = 0xF4 then startedWith 0xF0 2 0x80 0x8F
  else .invalid

/-- A stretch of bytes: a character, or bytes that are none. -/
inductive Piece where
  | char (c : Char)
  | fault (reason : Reason) (bytes : Bytes)
deriving DecidableEq, Repr

/-- The pieces that a byte completes when no character is open, and the character that it
opens, if it does. -/
def begun (b : UInt8) : List Piece × Option Pending :=
  match beginning b with
  | .whole c => ([.char c], none)
  | .started pending => ([], some pending)
  | .invalid => ([.fault .invalidStart [b]], none)

/-- The pieces that a byte completes after a possibly open character, and the character
that is open after it. A byte that cannot continue the open character starts anew. -/
def step : Option Pending → UInt8 → List Piece × Option Pending
  | none, b => begun b
  | some pending, b =>
    if pending.low ≤ b && b ≤ pending.high then
      let number := pending.number * 64 + (b.toNat - 0x80)
      match pending.following with
      | 0 => ([.char (Char.ofNat number)], none)
      | following + 1 => ([], some ⟨pending.bytes ++ [b], number, following, 0x80, 0xBF⟩)
    else
      let (done, state) := begun b
      (.fault .invalidContinuation pending.bytes :: done, state)

/-- The pieces of the bytes after a possibly open character. -/
def piecesAfter (state : Option Pending) : Bytes → List Piece
  | [] =>
    match state with
    | none => []
    | some pending => [.fault .unexpectedEnd pending.bytes]
  | b :: rest =>
    let (done, state) := step state b
    done ++ piecesAfter state rest

def pieces (bytes : Bytes) : List Piece :=
  piecesAfter none bytes

/-- The replacement character stands for each stretch of bytes that is no character. -/
def decodeLossy (bytes : Bytes) : Text :=
  (pieces bytes).map fun
    | .char c => c
    | .fault .. => '\uFFFD'

/-- The first stretch of bytes that is no character, and the place where it begins. -/
structure Fault where
  reason : Reason
  position : Nat
  bytes : Bytes
deriving DecidableEq, Repr

def ofPieces (position : Nat) : List Piece → Except Fault Text
  | [] => .ok []
  | .char c :: rest => (c :: ·) <$> ofPieces (position + c.utf8Size) rest
  | .fault reason bytes :: _ => .error ⟨reason, position, bytes⟩

def decode (bytes : Bytes) : Except Fault Text :=
  ofPieces 0 (pieces bytes)

def Reason.message : Reason → Text
  | .invalidStart => "invalid start byte"
  | .invalidContinuation => "invalid continuation byte"
  | .unexpectedEnd => "unexpected end of data"

def Fault.message (fault : Fault) : Text :=
  let what : Text :=
    match fault.bytes with
    | [b] => "byte 0x" ++ Text.hex 2 b.toNat ++ " in position " ++ Text.ofNat fault.position
    | bytes =>
      "bytes in position " ++ Text.ofNat fault.position ++ "-" ++
        Text.ofNat (fault.position + bytes.length - 1)
  "'utf-8' codec can't decode " ++ what ++ ": " ++ fault.reason.message

end Utf8

end TabCompletion
