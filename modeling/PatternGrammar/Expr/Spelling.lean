import PatternGrammar.Expr.Basic
import PatternGrammar.Token.Spelling

/-!
# How expressions are spelled

The tokens that write an expression down, without their offsets and without payloads that nobody
looks at. Group numbers of captures are not written; they follow from the order of the openings.
-/

namespace PatternGrammar

/-- A token without its place: the kind and, where the kind carries one, the payload. -/
structure Lexeme where
  /-- What the token is. -/
  kind : TokenKind
  /-- The letter or the digit, for kinds that carry one. -/
  payload : Option Char
  deriving DecidableEq

/-- A token without its place and without a payload that its kind does not carry. -/
def Token.lexeme (token : Token) : Lexeme :=
  ⟨token.kind, if token.kind.carriesPayload then token.payload else none⟩

/-- The decimal digit of a number below ten. -/
def groupDigit (id : Nat) : Char :=
  Char.ofNat ('0'.toNat + id)

namespace Expr

mutual
/-- The lexemes of an expression. -/
def lexemes : Expr → List Lexeme
  | .char c => [⟨.letter, some c⟩]
  | .concat operands => rowLexemes operands
  | .alternation operands => branchLexemes operands
  | .star body => body.lexemes ++ [⟨.star, none⟩]
  | .capture _ body => ⟨.openCapture, none⟩ :: (body.lexemes ++ [⟨.close, none⟩])
  | .plain body => ⟨.openPlain, none⟩ :: (body.lexemes ++ [⟨.close, none⟩])
  | .lookahead body => ⟨.openLookahead, none⟩ :: (body.lexemes ++ [⟨.close, none⟩])
  | .reference id => [⟨.openReference, some (groupDigit id)⟩, ⟨.close, none⟩]

/-- The lexemes of operands one after another. -/
def rowLexemes : List Expr → List Lexeme
  | [] => []
  | operand :: rest => operand.lexemes ++ rowLexemes rest

/-- The lexemes of operands with bars between them. -/
def branchLexemes : List Expr → List Lexeme
  | [] => []
  | [operand] => operand.lexemes
  | operand :: rest => operand.lexemes ++ ⟨.bar, none⟩ :: branchLexemes rest
end

end Expr

end PatternGrammar
