import PatternGrammar.Pattern.Basic
import PatternGrammar.Report.Document
import PatternGrammar.Text.Quote
import PatternGrammar.Token.Basic

/-!
# Dumps of tokens and trees

What the command shows of a pattern on request: a line for each token, the tree over several lines
and a line for each capture group, in ascending order of the group numbers.
-/

namespace PatternGrammar

/-- The name of a kind of token in a dump. -/
def TokenKind.label : TokenKind → String
  | .openCapture => "CaptureStart"
  | .openPlain => "NonCaptureStart"
  | .openLookahead => "LookaheadStart"
  | .openReference => "ReferenceStart"
  | .letter => "Char"
  | .bar => "Or"
  | .star => "Star"
  | .close => "Close"

namespace Report

/-- The payload of a token in a dump. -/
def payloadText : Option Char → String
  | none => "None"
  | some c => "Some(" ++ Text.quote c ++ ")"

/-- A token in a dump. -/
def tokenText (token : Token) : String :=
  "Token \x7b kind: " ++ token.kind.label ++ ", payload: " ++ payloadText token.payload ++
    ", offset: " ++ toString token.offset ++ " \x7d"

/-- A line for each token. -/
def tokenLines (tokens : List Token) : List String :=
  tokens.map fun token => tokenText token ++ "\n"

mutual
/-- An expression as a document. -/
def exprDocument : Expr → Document
  | .char c => .enclosed "Char(" ")" [.text (Text.quote c)]
  | .concat operands => .enclosed "Concat(" ")" [.enclosed "[" "]" (exprDocuments operands)]
  | .alternation operands =>
    .enclosed "Alternation(" ")" [.enclosed "[" "]" (exprDocuments operands)]
  | .star body => .enclosed "Star(" ")" [exprDocument body]
  | .capture id body => .enclosed "Capture(" ")" [.text (toString id), exprDocument body]
  | .plain body => .enclosed "NonCapture(" ")" [exprDocument body]
  | .lookahead body => .enclosed "Lookahead(" ")" [exprDocument body]
  | .reference id => .enclosed "Reference(" ")" [.text (toString id)]

/-- Every expression of a list as a document. -/
def exprDocuments : List Expr → List Document
  | [] => []
  | expr :: rest => exprDocument expr :: exprDocuments rest
end

/-- The line of a capture group. -/
def groupLine (id : Nat) (body : Expr) : String :=
  "group " ++ toString id ++ ": " ++ (exprDocument body).inline ++ "\n"

/-- The tree of a pattern and a line for each of its capture groups. -/
def patternLines (pattern : Pattern) : List String :=
  ((exprDocument pattern.root).block ++ "\n") ::
    pattern.captures.entries.map fun entry => groupLine entry.1 entry.2

end Report

end PatternGrammar
