import PatternGrammar.Token.Basic

/-!
# Syntax errors

Why a list of tokens is not a pattern. Each cause carries the offset of the token to blame, taken
from the token itself; only an early end has no token to point at.
-/

namespace PatternGrammar

/-- What the reader was waiting for. -/
inductive Expectation where
  /-- Something that can stand as an operand. -/
  | atom
  /-- A closing bracket. -/
  | closing
  /-- The digit of a reference. -/
  | groupDigit
  /-- The character of a letter token. -/
  | literal
  deriving DecidableEq

/-- What was waited for, in messages. -/
def Expectation.describe : Expectation → String
  | .atom => "an atom"
  | .closing => TokenKind.describe .close
  | .groupDigit => "a group digit"
  | .literal => "a literal character"

/-- Why a list of tokens is not a pattern. -/
inductive SyntaxError where
  /-- A token of another kind, or without the payload its kind needs. -/
  | unexpectedToken (expected : Expectation) (found : TokenKind) (offset : Nat)
  /-- The tokens end too early. -/
  | unexpectedEnd (expected : Expectation)
  /-- A token after a complete pattern. -/
  | trailingToken (found : TokenKind) (offset : Nat)
  /-- A bar without a branch on one of its sides. -/
  | missingOperand (offset : Nat)
  /-- A capture group beyond the greatest number of groups. -/
  | tooManyGroups (offset : Nat) (limit : Nat)
  /-- A capture group inside a lookahead. -/
  | captureInLookahead (offset : Nat)
  /-- A lookahead inside a lookahead. -/
  | nestedLookahead (offset : Nat)
  /-- A tree beyond the greatest depth. -/
  | tooDeep (offset : Nat) (limit : Nat)
  deriving DecidableEq

/-- The message of a syntax error. -/
def SyntaxError.message : SyntaxError → String
  | .unexpectedToken expected found offset =>
    "expected " ++ expected.describe ++ ", found " ++ found.describe ++
      " at offset " ++ toString offset
  | .unexpectedEnd expected => "unexpected end of input, expected " ++ expected.describe
  | .trailingToken found offset =>
    "unconsumed " ++ found.describe ++ " at offset " ++ toString offset ++
      " after a complete pattern"
  | .missingOperand offset => "'|' at offset " ++ toString offset ++ " is missing an operand"
  | .tooManyGroups offset limit =>
    "capture group at offset " ++ toString offset ++ " exceeds the limit of " ++
      toString limit ++ " groups"
  | .captureInLookahead offset =>
    "capture group at offset " ++ toString offset ++ " is not allowed inside a lookahead"
  | .nestedLookahead offset =>
    "lookahead at offset " ++ toString offset ++ " is nested inside another lookahead"
  | .tooDeep offset limit =>
    "pattern nests deeper than " ++ toString limit ++ " levels at offset " ++ toString offset

end PatternGrammar
