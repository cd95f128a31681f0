import PatternGrammar.Token.Scan

/-!
# How tokens are spelled

The text that each token stands for. A token is proper if its payload is what its kind needs; only
proper tokens come out of a scan. A list of tokens is laid out from an offset if each token starts
where the spelling of the one before it ends.
-/

namespace PatternGrammar

/-- Whether tokens of a kind carry a character. -/
def TokenKind.carriesPayload : TokenKind → Bool
  | .letter | .openReference => true
  | _ => false

namespace Token

/-- The text of a token. -/
def spelling (token : Token) : List Char :=
  match token.kind with
  | .openCapture => ['(']
  | .openPlain => ['(', '?', ':']
  | .openLookahead => ['(', '?', '=']
  | .openReference => '(' :: '?' :: token.payload.toList
  | .letter => token.payload.toList
  | .bar => ['|']
  | .star => ['*']
  | .close => [')']

/-- The text of a list of tokens. -/
def spellings (tokens : List Token) : List Char :=
  tokens.flatMap spelling

/-- A token whose payload is what its kind needs: a letter, a digit, or nothing. -/
def Proper (token : Token) : Prop :=
  match token.kind with
  | .letter => ∃ c, token.payload = some c ∧ isLetter c = true
  | .openReference => ∃ digit, token.payload = some digit ∧ digit.isDigit = true
  | _ => token.payload = none

/-- Number of bytes of a text in UTF-8. -/
def byteLength : List Char → Nat
  | [] => 0
  | c :: rest => c.utf8Size + byteLength rest

/-- Tokens that follow each other from an offset without gaps. -/
def LaidOut : Nat → List Token → Prop
  | _, [] => True
  | offset, token :: rest =>
    token.offset = offset ∧ LaidOut (offset + byteLength token.spelling) rest

end Token

end PatternGrammar
