import PatternGrammar.Grammar.Text

/-!
# Listings of a grammar

A listing is the text of a grammar as the command prints it: with a heading on request, and with the
nonterminal at the start of each line in colour on request. Names on right-hand sides have no
colour.
-/

namespace PatternGrammar.Report

/-- How a listing looks. -/
structure Style where
  /-- Whether left-hand sides are coloured. -/
  color : Bool
  /-- Whether a heading comes first. -/
  header : Bool

/-- What switches the colour of left-hand sides on. -/
def colorStart : String := "\x1b[01;31m"

/-- What switches the colour off. -/
def colorReset : String := "\x1b[m"

/-- The heading. -/
def heading : String := "Context-free grammar:"

/-- A left-hand side, coloured or not. -/
def paint (color : Bool) (name : String) : String :=
  if color then colorStart ++ name ++ colorReset else name

/-- The lines of a rule. -/
def ruleLines (color : Bool) (rule : Rule) : String :=
  String.join (rule.alternatives.map fun alternative =>
    paint color rule.name ++ " --> " ++ alternative.text ++ "\n")

/-- The listing of a grammar. -/
def listing (style : Style) (grammar : Grammar) : String :=
  (if style.header then heading ++ "\n" else "") ++
    String.join (grammar.rules.map (ruleLines style.color))

end PatternGrammar.Report
