import PatternGrammar.Text.Quote
import PatternGrammar.Token.Basic

/-!
# Scanning a pattern

The text of a pattern is cut into tokens from left to right. Every token is spelled in ASCII, so the
offset of the next token in bytes is found by counting characters; a character outside ASCII ends
the scan where it stands. Whether the tokens form a pattern is not decided here.
-/

namespace PatternGrammar

/-- Why a text cannot be cut into tokens. -/
inductive ScanError where
  /-- The text is empty. -/
  | emptyPattern
  /-- A character that no token starts with, at its offset. -/
  | unexpectedChar (c : Char) (offset : Nat)
  /-- A character after `(?` that continues no opening, at its offset. -/
  | badOpening (c : Char) (offset : Nat)
  /-- The text, of the given number of bytes, ends inside an opening. -/
  | unfinishedOpening (offset : Nat)
  deriving DecidableEq

/-- The message of a scan error. -/
def ScanError.message : ScanError → String
  | .emptyPattern => "pattern is empty"
  | .unexpectedChar c offset =>
    "unexpected character " ++ Text.quote c ++ " at offset " ++ toString offset
  | .badOpening c offset =>
    "expected ':', '=' or a digit after \"(?\", found " ++ Text.quote c ++
      " at offset " ++ toString offset
  | .unfinishedOpening offset => "unexpected end of input at offset " ++ toString offset

/-- Whether a character is one of the letters `a` to `z`, the only ones of a pattern. -/
def isLetter (c : Char) : Bool :=
  'a' ≤ c && c ≤ 'z'

namespace Token

/-- The tokens of a text that starts at the given offset. An opening bracket is a capture group
unless `?` follows, and needs some character after it either way. -/
def scanFrom (offset : Nat) : List Char → Except ScanError (List Token)
  | [] => .ok []
  | '(' :: [] => .error (.unfinishedOpening (offset + 1))
  | '(' :: '?' :: [] => .error (.unfinishedOpening (offset + 2))
  | '(' :: '?' :: c :: rest =>
    if c = ':' then (scanFrom (offset + 3) rest).map (⟨.openPlain, none, offset⟩ :: ·)
    else if c = '=' then (scanFrom (offset + 3) rest).map (⟨.openLookahead, none, offset⟩ :: ·)
    else if c.isDigit then
      (scanFrom (offset + 3) rest).map (⟨.openReference, some c, offset⟩ :: ·)
    else .error (.badOpening c (offset + 2))
  | '(' :: rest => (scanFrom (offset + 1) rest).map (⟨.openCapture, none, offset⟩ :: ·)
  | ')' :: rest => (scanFrom (offset + 1) rest).map (⟨.close, none, offset⟩ :: ·)
  | '|' :: rest => (scanFrom (offset + 1) rest).map (⟨.bar, none, offset⟩ :: ·)
  | '*' :: rest => (scanFrom (offset + 1) rest).map (⟨.star, none, offset⟩ :: ·)
  | c :: rest =>
    if isLetter c then (scanFrom (offset + 1) rest).map (⟨.letter, some c, offset⟩ :: ·)
    else .error (.unexpectedChar c offset)

/-- The tokens of a pattern. The empty text is refused. -/
def scan (pattern : String) : Except ScanError (List Token) :=
  match pattern.toList with
  | [] => .error .emptyPattern
  | text => scanFrom 0 text

end Token

end PatternGrammar
