import PatternGrammar.Reader.Level

/-!
# Reading a pattern

A reader takes the tokens of a pattern one at a time. It keeps the level being read, the levels
around it with the openings that suspended them, the number of capture groups opened so far and the
table of those already closed. Groups are numbered where they open and entered where they close.
Each step either gives the next reader or refuses the token, and the end of the tokens is checked
last.

Depth is limited twice: every finished node is checked against the limit, and so is the number of
open brackets, which keeps the reader from following brackets that could not be closed within the
limit.
-/

namespace PatternGrammar

/-- What kind of bracket is open. -/
inductive Opening where
  /-- A capture group with its number. -/
  | capture (id : Nat)
  /-- A bracket that captures nothing. -/
  | plain
  /-- A lookahead. -/
  | lookahead
  deriving DecidableEq

/-- The expression that a bracket makes of its body. -/
def Opening.around : Opening → Expr → Expr
  | .capture id, body => .capture id body
  | .plain, body => .plain body
  | .lookahead, body => .lookahead body

/-- The table after a bracket around the given body is closed. -/
def Opening.record : Opening → Expr → CaptureTable → CaptureTable
  | .capture id, body, table => table.insert id body
  | .plain, _, table => table
  | .lookahead, _, table => table

/-- An open bracket and the level that it suspended. -/
structure Frame where
  /-- What kind of bracket it is. -/
  opening : Opening
  /-- Offset of the opening token. -/
  offset : Nat
  /-- What had been read of the level around the bracket. -/
  outer : Level

/-- A reader in the midst of a pattern. -/
structure Reader where
  /-- What has been read of the innermost level. -/
  level : Level
  /-- The open brackets, the innermost first. -/
  frames : List Frame
  /-- Number of capture groups opened so far. -/
  opened : Nat
  /-- What the closed capture groups hold. -/
  captures : CaptureTable
  /-- The reference whose closing bracket is awaited. -/
  pending : Option Token

namespace Reader

/-- The reader before the first token. -/
def start : Reader := ⟨.empty, [], 0, .empty, none⟩

/-- Whether a lookahead is open. -/
def insideLookahead (reader : Reader) : Bool :=
  reader.frames.any (·.opening == .lookahead)

/-- The reader with one more operand in its level. -/
def push (reader : Reader) (part : Part) : Reader :=
  { reader with level := reader.level.push part }

/-- Enter a bracket. -/
def enter (limits : Limits) (reader : Reader) (opening : Opening) (offset : Nat) :
    Except SyntaxError Reader :=
  if limits.depth ≤ reader.frames.length then .error (.tooDeep offset limits.depth)
  else .ok
    { reader with level := .empty, frames := ⟨opening, offset, reader.level⟩ :: reader.frames }

/-- Enter a capture group under the next number. -/
def enterCapture (limits : Limits) (reader : Reader) (offset : Nat) : Except SyntaxError Reader :=
  if reader.insideLookahead then .error (.captureInLookahead offset)
  else if limits.groups ≤ reader.opened then .error (.tooManyGroups offset limits.groups)
  else enter limits { reader with opened := reader.opened + 1 }
    (.capture (reader.opened + 1)) offset

/-- Enter a lookahead. -/
def enterLookahead (limits : Limits) (reader : Reader) (offset : Nat) : Except SyntaxError Reader :=
  if reader.insideLookahead then .error (.nestedLookahead offset)
  else reader.enter limits .lookahead offset

/-- Take a letter token as an operand. -/
def takeLetter (reader : Reader) (token : Token) : Except SyntaxError Reader :=
  match token.payload with
  | none => .error (.unexpectedToken .literal token.kind token.offset)
  | some c => .ok (reader.push ⟨.char c, 1, token.offset⟩)

/-- End the branch being read at a bar. -/
def takeBar (limits : Limits) (reader : Reader) (offset : Nat) : Except SyntaxError Reader := do
  let branch ← reader.level.branch limits (.missingOperand offset)
  return { reader with level := ⟨(branch, offset) :: reader.level.branches, []⟩ }

/-- Repeat the latest operand. -/
def takeStar (limits : Limits) (reader : Reader) (offset : Nat) : Except SyntaxError Reader :=
  match reader.level.operands with
  | [] => .error (.unexpectedToken .atom .star offset)
  | part :: others => do
    let depth ← limits.enclose part.depth offset
    return { reader with
      level := { reader.level with operands := ⟨.star part.expr, depth, part.offset⟩ :: others } }

/-- Close the innermost bracket. -/
def takeClose (limits : Limits) (reader : Reader) (offset : Nat) : Except SyntaxError Reader := do
  let body ← reader.level.whole limits (.unexpectedToken .atom .close offset)
  match reader.frames with
  | [] => .error (.trailingToken .close offset)
  | frame :: outer => do
    let depth ← limits.enclose body.depth frame.offset
    return { reader with
      level := frame.outer.push ⟨frame.opening.around body.expr, depth, frame.offset⟩
      frames := outer
      captures := frame.opening.record body.expr reader.captures }

/-- The number that the payload of a reference token names. -/
def groupNumber? (token : Token) : Option Nat :=
  match token.payload with
  | none => none
  | some digit => if digit.isDigit then some (digit.toNat - '0'.toNat) else none

/-- End a reference with the token after it. The closing bracket is asked for before the digit. -/
def endReference (reader : Reader) (reference token : Token) : Except SyntaxError Reader :=
  if token.kind ≠ .close then .error (.unexpectedToken .closing token.kind token.offset)
  else
    match groupNumber? reference with
    | none => .error (.unexpectedToken .groupDigit reference.kind reference.offset)
    | some id => .ok { reader.push ⟨.reference id, 1, reference.offset⟩ with pending := none }

/-- The reader after one more token. -/
def step (limits : Limits) (reader : Reader) (token : Token) : Except SyntaxError Reader :=
  match reader.pending with
  | some reference => reader.endReference reference token
  | none =>
    match token.kind with
    | .openCapture => reader.enterCapture limits token.offset
    | .openPlain => reader.enter limits .plain token.offset
    | .openLookahead => reader.enterLookahead limits token.offset
    | .openReference => .ok { reader with pending := some token }
    | .letter => reader.takeLetter token
    | .bar => reader.takeBar limits token.offset
    | .star => reader.takeStar limits token.offset
    | .close => reader.takeClose limits token.offset

/-- The pattern read when the tokens end here. -/
def finish (limits : Limits) (reader : Reader) : Except SyntaxError Pattern :=
  match reader.pending with
  | some _ => .error (.unexpectedEnd .closing)
  | none => do
    let whole ← reader.level.whole limits (.unexpectedEnd .atom)
    if reader.frames.isEmpty then return ⟨whole.expr, reader.captures⟩
    else .error (.unexpectedEnd .closing)

/-- Read a list of tokens within the given limits. -/
def read (limits : Limits) (tokens : List Token) : Except SyntaxError Pattern := do
  let reader ← tokens.foldlM (step limits) start
  reader.finish limits

end Reader

/-- The pattern that a list of tokens spells, within the standard limits. -/
def Pattern.ofTokens (tokens : List Token) : Except SyntaxError Pattern :=
  Reader.read .standard tokens

end PatternGrammar
