import PatternGrammar.Expr.Basic

/-!
# Exact matching

How an expression matches a text when captures remember what they consumed. A match starts with a
text and a memory of captured texts, and leaves the rest of the text and the memory after it. A
reference consumes exactly what its group consumed last and fails before that. A lookahead looks at
the text and gives back both the text and the memory as they were.
-/

namespace PatternGrammar

/-- What each group consumed last, if anything. -/
abbrev Memory := Nat → Option (List Char)

/-- The memory before anything is captured. -/
def Memory.empty : Memory := fun _ => none

/-- The memory after a group has consumed a text. -/
def Memory.set (memory : Memory) (id : Nat) (text : List Char) : Memory :=
  fun other => if other = id then some text else memory other

namespace Expr

/-- `Matches expr memory text memory' rest`: the expression matches a beginning of the text and
leaves the rest, with the memory changed as given. -/
inductive Matches : Expr → Memory → List Char → Memory → List Char → Prop where
  /-- A character consumes itself. -/
  | char (c : Char) (memory : Memory) (rest : List Char) :
    Matches (.char c) memory (c :: rest) memory rest
  /-- The empty row consumes nothing. -/
  | concatNil (memory : Memory) (text : List Char) : Matches (.concat []) memory text memory text
  /-- A row matches its operands in turn. -/
  | concatCons {operand : Expr} {operands : List Expr} {before between after : Memory}
    {text middle rest : List Char} (head : Matches operand before text between middle)
    (tail : Matches (.concat operands) between middle after rest) :
    Matches (.concat (operand :: operands)) before text after rest
  /-- An alternation matches as one of its operands. -/
  | alternation {operands : List Expr} {operand : Expr} {before after : Memory}
    {text rest : List Char}
    (member : operand ∈ operands) (matched : Matches operand before text after rest) :
    Matches (.alternation operands) before text after rest
  /-- A repetition may consume nothing. -/
  | starNil (body : Expr) (memory : Memory) (text : List Char) :
    Matches (.star body) memory text memory text
  /-- A repetition may match its body and go on. -/
  | starCons {body : Expr} {before between after : Memory} {text middle rest : List Char}
    (once : Matches body before text between middle)
    (again : Matches (.star body) between middle after rest) :
    Matches (.star body) before text after rest
  /-- A capture group remembers what its body consumed. -/
  | capture {id : Nat} {body : Expr} {before after : Memory} {consumed rest : List Char}
    (matched : Matches body before (consumed ++ rest) after rest) :
    Matches (.capture id body) before (consumed ++ rest) (after.set id consumed) rest
  /-- A plain bracket matches as its body. -/
  | plain {body : Expr} {before after : Memory} {text rest : List Char}
    (matched : Matches body before text after rest) : Matches (.plain body) before text after rest
  /-- A lookahead needs its body to match here and consumes nothing. -/
  | lookahead {body : Expr} {before after : Memory} {text rest : List Char}
    (matched : Matches body before text after rest) :
    Matches (.lookahead body) before text before text
  /-- A reference consumes what its group consumed last. -/
  | reference {id : Nat} {memory : Memory} {consumed rest : List Char}
    (remembered : memory id = some consumed) :
    Matches (.reference id) memory (consumed ++ rest) memory rest

end Expr

end PatternGrammar
