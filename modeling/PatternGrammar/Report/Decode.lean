import PatternGrammar.Report.Listing
import PatternGrammar.Token.Scan

/-!
# Reading a listing back

The rules are recovered from a listing line by line, whether or not it has a heading or colours. A
line is cut at its first arrow; the left-hand side loses its colour and the alternative falls into
words at the spaces. A word of one lower-case letter is a terminal and every other word is a
nonterminal. Lines that follow each other and begin with the same nonterminal make one rule.
-/

namespace PatternGrammar.Report

/-- What stands between a left-hand side and an alternative. -/
def arrow : String := " --> "

/-- The parts of a text before and after the first place where a separator begins. -/
def cutAt? (separator : List Char) : List Char → Option (List Char × List Char)
  | [] => none
  | c :: rest =>
    match separator.isPrefixOf? (c :: rest) with
    | some after => some ([], after)
    | none => (cutAt? separator rest).map fun (before, after) => (c :: before, after)

/-- A left-hand side without the colour around it, if it has one. -/
def uncolored (side : List Char) : List Char :=
  match colorStart.toList.isPrefixOf? side with
  | some rest => (colorReset.toList.isSuffixOf? rest).getD side
  | none => side

/-- The symbol that a word stands for. -/
def decodeSymbol : List Char → Symbol
  | [c] => if isLetter c then .terminal c else .nonterminal (String.singleton c)
  | word => .nonterminal (String.ofList word)

/-- The alternative that a text stands for. -/
def decodeAlternative (text : List Char) : Alternative :=
  if text = "eps".toList then [] else (text.splitOn ' ').map decodeSymbol

/-- The nonterminal and the alternative of a line, if it has an arrow. -/
def decodeLine? (line : List Char) : Option (String × Alternative) :=
  (cutAt? arrow.toList line).map fun (side, text) =>
    (String.ofList (uncolored side), decodeAlternative text)

/-- Put an alternative before the first rule, if that has the same nonterminal, or into a rule of
its own. -/
def joinFirst (entry : String × Alternative) : List Rule → List Rule
  | [] => [⟨entry.1, [entry.2]⟩]
  | rule :: rest =>
    if rule.name = entry.1 then ⟨rule.name, entry.2 :: rule.alternatives⟩ :: rest
    else ⟨entry.1, [entry.2]⟩ :: rule :: rest

/-- The rules of alternatives with their nonterminals: one for each run of the same nonterminal. -/
def gather (entries : List (String × Alternative)) : List Rule :=
  entries.foldr joinFirst []

/-- The lines of a text. What follows the last line break is not a line. -/
def textLines (text : List Char) : List (List Char) :=
  (text.splitOn '\n').dropLast

/-- Lines without the heading, if they begin with one. -/
def withoutHeading : List (List Char) → List (List Char)
  | [] => []
  | first :: rest => if first = heading.toList then rest else first :: rest

/-- The rules that a text lists. A text with a line that has no arrow lists none. -/
def decode (text : String) : Option (List Rule) :=
  ((withoutHeading (textLines text.toList)).mapM decodeLine?).map gather

end PatternGrammar.Report
