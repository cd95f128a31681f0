import PatternGrammar.Expr.Captures

/-!
# Words of an expression

The words that an expression stands for, given what the capture groups hold. A capture adds nothing
to its body, a lookahead stands for the empty word, and a reference stands for every word of its
group, whichever word the group itself matched. Groups may refer to themselves and to each other; a
word belongs to the expression if finitely many steps show it.
-/

namespace PatternGrammar.Expr

/-- A word belongs to an expression. -/
inductive HasWord (table : CaptureTable) : Expr → List Char → Prop where
  /-- A character is its only word. -/
  | char (c : Char) : HasWord table (.char c) [c]
  /-- The empty row has the empty word. -/
  | concatNil : HasWord table (.concat []) []
  /-- A row has a word of its first operand followed by one of the others. -/
  | concatCons {operand : Expr} {rest : List Expr} {first others : List Char}
    (head : HasWord table operand first) (tail : HasWord table (.concat rest) others) :
    HasWord table (.concat (operand :: rest)) (first ++ others)
  /-- An alternation has the words of each operand. -/
  | alternation {operands : List Expr} {operand : Expr} {word : List Char}
    (member : operand ∈ operands) (has : HasWord table operand word) :
    HasWord table (.alternation operands) word
  /-- A repetition has the empty word. -/
  | starNil (body : Expr) : HasWord table (.star body) []
  /-- A repetition has its words followed by a word of the body. -/
  | starSnoc {body : Expr} {before last : List Char}
    (init : HasWord table (.star body) before) (again : HasWord table body last) :
    HasWord table (.star body) (before ++ last)
  /-- A capture group has the words of its body. -/
  | capture {id : Nat} {body : Expr} {word : List Char} (has : HasWord table body word) :
    HasWord table (.capture id body) word
  /-- A plain bracket has the words of its body. -/
  | plain {body : Expr} {word : List Char} (has : HasWord table body word) :
    HasWord table (.plain body) word
  /-- A lookahead has the empty word. -/
  | lookahead (body : Expr) : HasWord table (.lookahead body) []
  /-- A reference has the words of what its group holds. -/
  | reference {id : Nat} {body : Expr} {word : List Char}
    (holds : table.get? id = some body) (has : HasWord table body word) :
    HasWord table (.reference id) word

end PatternGrammar.Expr
