import PatternGrammar.Grammar.Basic

/-!
# The text of a grammar

One line for each alternative: the nonterminal, an arrow and the symbols with spaces between them.
The empty alternative is written as a word of its own, since nothing would be seen of it otherwise.
-/

namespace PatternGrammar

/-- A symbol as it is written. -/
def Symbol.text : Symbol → String
  | .terminal c => String.singleton c
  | .nonterminal name => name

/-- An alternative as it is written. -/
def Alternative.text (alternative : Alternative) : String :=
  match alternative with
  | [] => "eps"
  | symbols => " ".intercalate (symbols.map Symbol.text)

/-- One line of the text of a grammar. -/
def Rule.line (name : String) (alternative : Alternative) : String :=
  name ++ " --> " ++ alternative.text ++ "\n"

/-- The text of a grammar. -/
def Grammar.text (grammar : Grammar) : String :=
  String.join (grammar.rules.flatMap fun rule => rule.alternatives.map (Rule.line rule.name))

end PatternGrammar
