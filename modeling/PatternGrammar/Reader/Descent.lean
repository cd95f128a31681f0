import PatternGrammar.Procedure
import PatternGrammar.Reader.Basic

/-!
# Reading by descent

A pattern can also be read from its grammar: a procedure for each kind of phrase, the looser ones
calling the tighter ones, and brackets calling the loosest again. What a reader that takes one token
at a time keeps on a stack is then kept by the calls under way, and the state holds only the place
in the tokens, the groups and what the calls have to know of the brackets around them. Errors come
from the middle of a call and leave that state as it is found, but for what the callers put back on
their way out.

Each procedure gives the expression it has read and the depth of that expression. What stands in a
bracket is read by a procedure that is handed down, for which as many rounds are enough as there are
levels of brackets. A loop takes a token in each round, and one round more to see that it is done.
-/

namespace PatternGrammar

/-- The state of a reading by descent. -/
structure Descent where
  /-- Number of tokens read. -/
  position : Nat
  /-- Number of capture groups opened so far. -/
  opened : Nat
  /-- Whether a lookahead is open. -/
  insideLookahead : Bool
  /-- Number of open brackets. -/
  openBrackets : Nat
  /-- What the closed capture groups hold. -/
  captures : CaptureTable

/-- A part of a reading by descent. -/
abbrev DescentM := Procedure SyntaxError Descent

namespace Descent

/-- The state before the first token. -/
def start : Descent := ⟨0, 0, false, 0, .empty⟩

/-- The next token, if there is one. -/
def current (tokens : List Token) : DescentM (Option Token) :=
  return tokens[(← get).position]?

/-- Go on to the token after the next. -/
def advance : DescentM PUnit :=
  modify fun state => { state with position := state.position + 1 }

/-- Take a closing bracket. -/
def takeClosing (tokens : List Token) : DescentM PUnit := do
  match ← current tokens with
  | none => throw (.unexpectedEnd .closing)
  | some token =>
    if token.kind = .close then advance
    else throw (.unexpectedToken .closing token.kind token.offset)

/-- The depth of a node around a tree of the given depth. -/
def enclose (limits : Limits) (depth offset : Nat) : DescentM Nat :=
  MonadExcept.ofExcept (limits.enclose depth offset)

/-- One expression for several: a single one is left as it is, others are put under one node. -/
def gather (limits : Limits) (node : List Expr → Expr) (offset : Nat) (exprs : List Expr)
    (depth : Nat) : DescentM (Expr × Nat) :=
  match exprs with
  | [expr] => return (expr, depth)
  | exprs => return (node exprs, ← enclose limits depth offset)

/-- Whether a branch ends before a token, or where the tokens end. -/
def endsBranch : Option Token → Bool
  | none => true
  | some token => token.kind == .close || token.kind == .bar

/-- Take the opening of a capture group and give the group its number. -/
def openCapture (limits : Limits) (offset : Nat) : DescentM Nat := do
  if (← get).insideLookahead then throw (.captureInLookahead offset)
  else
    advance
    if (← get).opened = limits.groups then throw (.tooManyGroups offset limits.groups)
    else
      modify fun state => { state with opened := state.opened + 1 }
      return (← get).opened

/-- Take the opening of a lookahead. -/
def openLookahead (offset : Nat) : DescentM PUnit := do
  if (← get).insideLookahead then throw (.nestedLookahead offset)
  else advance

/-- Take a reference, its closing bracket included. -/
def reference (tokens : List Token) (token : Token) : DescentM (Expr × Nat) := do
  advance
  takeClosing tokens
  match Reader.groupNumber? token with
  | none => throw (.unexpectedToken .groupDigit token.kind token.offset)
  | some id => return (.reference id, 1)

/-- Take a letter. -/
def letter (token : Token) : DescentM (Expr × Nat) := do
  advance
  match token.payload with
  | none => throw (.unexpectedToken .literal token.kind token.offset)
  | some c => return (.char c, 1)

/-- Put what has been read under the stars after it. -/
def stars (limits : Limits) (tokens : List Token) : Nat → Expr → Nat → DescentM (Expr × Nat)
  | 0, _, _ => .stuck
  | rounds + 1, expr, depth => do
    match (← current tokens).filter (·.kind == .star) with
    | none => return (expr, depth)
    | some star =>
      advance
      let around ← enclose limits depth star.offset
      stars limits tokens rounds (.star expr) around

section Brackets

variable (limits : Limits) (tokens : List Token) (inner : DescentM (Expr × Nat))

/-- Read what stands in a bracket. The bracket is counted as open until that is read or has
failed. -/
def inside : DescentM (Expr × Nat) :=
  inner.around (fun state => { state with openBrackets := state.openBrackets + 1 })
    fun state => { state with openBrackets := state.openBrackets - 1 }

/-- Read what stands in a bracket and the end of the bracket. -/
def body (offset : Nat) : DescentM (Expr × Nat) := do
  if limits.depth ≤ (← get).openBrackets then throw (.tooDeep offset limits.depth)
  else
    let sub ← inside inner
    takeClosing tokens
    return sub

/-- Read the body of a lookahead, which is open until the body is read or has failed. -/
def ahead (offset : Nat) : DescentM (Expr × Nat) :=
  (body limits tokens inner offset).around (fun state => { state with insideLookahead := true })
    fun state => { state with insideLookahead := false }

/-- Read a capture group and enter it in the table. -/
def capture (offset : Nat) : DescentM (Expr × Nat) := do
  let id ← openCapture limits offset
  let (expr, depth) ← body limits tokens inner offset
  let around ← enclose limits depth offset
  modify fun state => { state with captures := state.captures.insert id expr }
  return (.capture id expr, around)

/-- Read a bracket that captures nothing. -/
def plain (offset : Nat) : DescentM (Expr × Nat) := do
  advance
  let (expr, depth) ← body limits tokens inner offset
  return (.plain expr, ← enclose limits depth offset)

/-- Read a lookahead. -/
def lookahead (offset : Nat) : DescentM (Expr × Nat) := do
  openLookahead offset
  let (expr, depth) ← ahead limits tokens inner offset
  return (.lookahead expr, ← enclose limits depth offset)

/-- Read a letter, a reference or a bracket. -/
def atom : DescentM (Expr × Nat) := do
  match ← current tokens with
  | none => throw (.unexpectedEnd .atom)
  | some token =>
    match token.kind with
    | .openCapture => capture limits tokens inner token.offset
    | .openPlain => plain limits tokens inner token.offset
    | .openLookahead => lookahead limits tokens inner token.offset
    | .openReference => reference tokens token
    | .letter => letter token
    | .bar | .star | .close => throw (.unexpectedToken .atom token.kind token.offset)

/-- Read an atom and the stars after it. -/
def repetition : DescentM (Expr × Nat) := do
  let (expr, depth) ← atom limits tokens inner
  stars limits tokens (tokens.length + 1) expr depth

/-- Read the operands after those that have been read. -/
def operands (offset : Nat) : Nat → List Expr → Nat → DescentM (Expr × Nat)
  | 0, _, _ => .stuck
  | rounds + 1, exprs, depth => do
    if endsBranch (← current tokens) then gather limits .concat offset exprs depth
    else
      let (expr, other) ← repetition limits tokens inner
      operands offset rounds (exprs ++ [expr]) (max depth other)

/-- Read the operands of a branch, one at least. -/
def concatenation : DescentM (Expr × Nat) := do
  let first ← current tokens
  let (expr, depth) ← repetition limits tokens inner
  operands limits tokens inner (first.elim 0 Token.offset) (tokens.length + 1) [expr] depth

/-- Read the branches after those that have been read. -/
def branches (offset : Nat) : Nat → List Expr → Nat → DescentM (Expr × Nat)
  | 0, _, _ => .stuck
  | rounds + 1, exprs, depth => do
    match (← current tokens).filter (·.kind == .bar) with
    | none => gather limits .alternation offset exprs depth
    | some bar =>
      advance
      if endsBranch (← current tokens) then throw (.missingOperand bar.offset)
      else
        let (expr, other) ← concatenation limits tokens inner
        branches offset rounds (exprs ++ [expr]) (max depth other)

end Brackets

/-- Read branches with bars between them. The number is how many brackets may be open inside another
one. -/
def alternation (limits : Limits) (tokens : List Token) : Nat → DescentM (Expr × Nat)
  | 0 => .stuck
  | rounds + 1 => do
    let first ← current tokens
    match first.filter (·.kind == .bar) with
    | some bar => throw (.missingOperand bar.offset)
    | none =>
      let (expr, depth) ← concatenation limits tokens (alternation limits tokens rounds)
      branches limits tokens (alternation limits tokens rounds) (first.elim 0 Token.offset)
        (tokens.length + 1) [expr] depth

/-- Read a whole pattern. -/
def whole (limits : Limits) (tokens : List Token) : DescentM Pattern := do
  let (root, _) ← alternation limits tokens (limits.depth + 1)
  match ← current tokens with
  | some token => throw (.trailingToken token.kind token.offset)
  | none => return ⟨root, (← get).captures⟩

/-- Read a list of tokens within the given limits, if the reading comes to an end. -/
def read (limits : Limits) (tokens : List Token) : Option (Except SyntaxError Pattern) :=
  (whole limits tokens start).map Prod.fst

end Descent

end PatternGrammar
