/-!
# Tokens of a pattern

A pattern is made of letters, bars, stars, closing brackets and four kinds of opening: a capture
group, a plain bracket, a lookahead and a numbered reference. A token records its kind, a character
where the kind has one to carry, and the place where it starts. Nothing here ties the payload to the
kind: token lists built by hand may hold a letter without its character.
-/

namespace PatternGrammar

/-- What a token is. -/
inductive TokenKind where
  /-- `(`, the start of a capture group. -/
  | openCapture
  /-- `(?:`, the start of a bracket that captures nothing. -/
  | openPlain
  /-- `(?=`, the start of a lookahead. -/
  | openLookahead
  /-- `(?` and a digit, the start of a reference to a group. -/
  | openReference
  /-- A lower-case letter. -/
  | letter
  /-- `|`, between two branches. -/
  | bar
  /-- `*`, after what it repeats. -/
  | star
  /-- `)`, the end of whatever was opened last. -/
  | close
  deriving DecidableEq

/-- The name of a kind of token in messages. -/
def TokenKind.describe : TokenKind → String
  | .openCapture => "'('"
  | .openPlain => "'(?:'"
  | .openLookahead => "'(?='"
  | .openReference => "back-reference"
  | .letter => "character"
  | .bar => "'|'"
  | .star => "'*'"
  | .close => "')'"

/-- A token of a pattern. -/
structure Token where
  /-- What the token is. -/
  kind : TokenKind
  /-- The letter of a letter token and the digit of a reference. -/
  payload : Option Char
  /-- Number of bytes of the pattern before the token. -/
  offset : Nat
  deriving DecidableEq

end PatternGrammar
