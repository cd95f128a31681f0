/-!
# Documents with two layouts

A nested value is shown either on one line or over several. Both layouts come from one document: a
text, or a row of documents between an opening and a closing text.
-/

namespace PatternGrammar.Report

/-- A value to be shown. -/
inductive Document where
  /-- A text that is never broken. -/
  | text (content : String)
  /-- Documents between an opening and a closing text. -/
  | enclosed (opening closing : String) (content : List Document)

namespace Document

mutual
/-- The document on one line, with a comma and a space between neighbours. -/
def inline : Document → String
  | .text content => content
  | .enclosed opening closing content =>
    opening ++ ", ".intercalate (inlineAll content) ++ closing

/-- Every document of a list on one line. -/
def inlineAll : List Document → List String
  | [] => []
  | document :: rest => document.inline :: inlineAll rest
end

/-- Lines moved four places to the right, the last of them with a comma. -/
def nested : List String → List String
  | [] => []
  | [last] => ["    " ++ last ++ ","]
  | line :: rest => ("    " ++ line) :: nested rest

mutual
/-- The document over several lines: each member on lines of its own, indented and followed by a
comma. An enclosed document without members stays on one line. -/
def lines : Document → List String
  | .text content => [content]
  | .enclosed opening closing [] => [opening ++ closing]
  | .enclosed opening closing (first :: rest) =>
    opening :: nested first.lines ++ nestedAll rest ++ [closing]

/-- The indented lines of every document of a list. -/
def nestedAll : List Document → List String
  | [] => []
  | document :: rest => nested document.lines ++ nestedAll rest
end

/-- The document over several lines, without a line break at the end. -/
def block (document : Document) : String :=
  "\n".intercalate document.lines

end Document

end PatternGrammar.Report
