import PatternGrammar.Text.DefaultIgnorable
import PatternGrammar.Text.ExtendingMark
import PatternGrammar.Text.Invisible

/-!
# Quoted characters

How a single character is shown inside a message: between single quotes, as itself where a reader
can see it, and by an escape where not. The double quote needs no escape.
-/

namespace PatternGrammar.Text

/-- Whether a character can be shown as itself: it does not attach to the character before it, is
not shown as nothing, and has a visible form by its category. -/
def isReadable (c : Char) : Bool :=
  !extendingMark.contains c && !defaultIgnorable.contains c && !invisible.contains c

/-- The escape of a character by its code point, in lower-case hexadecimal without leading zeros. -/
def codeEscape (c : Char) : String :=
  "\\u\x7b" ++ String.ofList (Nat.toDigits 16 c.toNat) ++ "\x7d"

/-- A character as it stands between the quotes. -/
def escape (c : Char) : String :=
  match c with
  | '\x00' => "\\0"
  | '\t' => "\\t"
  | '\n' => "\\n"
  | '\r' => "\\r"
  | '\x27' => "\\'"
  | '\\' => "\\\\"
  | c => if isReadable c then String.singleton c else codeEscape c

/-- A character between single quotes. -/
def quote (c : Char) : String :=
  "'" ++ escape c ++ "'"

end PatternGrammar.Text
