import PatternGrammar.Lowering.Basic
import PatternGrammar.Reader.Basic
import PatternGrammar.Token.Scan

/-!
# From the text of a pattern to its grammar

The text is scanned, the tokens are read and the pattern is lowered, each only if the one before it
succeeded. A conversion keeps everything that was found on the way, because tokens and trees are
shown to the user also when a later part fails.
-/

namespace PatternGrammar

/-- Why a text has no grammar. -/
inductive ConversionError where
  /-- It cannot be cut into tokens. -/
  | scan (error : ScanError)
  /-- Its tokens are not a pattern. -/
  | reading (error : SyntaxError)
  /-- Its pattern cannot be lowered. -/
  | lowering (error : LowerError)
  deriving DecidableEq

/-- The message of a conversion error. -/
def ConversionError.message : ConversionError → String
  | .scan error => "tokenization failed: " ++ error.message
  | .reading error => "syntax error: " ++ error.message
  | .lowering error => "compilation failed: " ++ error.message

/-- How far the conversion of a text came. -/
inductive Conversion where
  /-- The text could not be scanned. -/
  | unscanned (error : ScanError)
  /-- The tokens could not be read. -/
  | unread (tokens : List Token) (error : SyntaxError)
  /-- The pattern could not be lowered. -/
  | unlowered (tokens : List Token) (pattern : Pattern) (error : LowerError)
  /-- There is a grammar. -/
  | complete (tokens : List Token) (pattern : Pattern) (grammar : Grammar)

namespace Conversion

/-- Convert a text as far as it goes. -/
def ofText (text : String) : Conversion :=
  match Token.scan text with
  | .error error => .unscanned error
  | .ok tokens =>
    match Pattern.ofTokens tokens with
    | .error error => .unread tokens error
    | .ok pattern =>
      match pattern.toGrammar with
      | .error error => .unlowered tokens pattern error
      | .ok grammar => .complete tokens pattern grammar

/-- The tokens, if the text could be scanned. -/
def tokens? : Conversion → Option (List Token)
  | .unscanned _ => none
  | .unread tokens _ | .unlowered tokens _ _ | .complete tokens _ _ => some tokens

/-- The pattern, if the tokens could be read. -/
def pattern? : Conversion → Option Pattern
  | .unscanned _ | .unread _ _ => none
  | .unlowered _ pattern _ | .complete _ pattern _ => some pattern

/-- The grammar, or why there is none. -/
def result : Conversion → Except ConversionError Grammar
  | .unscanned error => .error (.scan error)
  | .unread _ error => .error (.reading error)
  | .unlowered _ _ error => .error (.lowering error)
  | .complete _ _ grammar => .ok grammar

end Conversion

/-- The grammar of a text. -/
def Grammar.ofText (text : String) : Except ConversionError Grammar :=
  (Conversion.ofText text).result

end PatternGrammar
