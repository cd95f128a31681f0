/-!
# Expressions

The tree of a pattern. Operands of a concatenation and of an alternation stand in a list; trees
built by hand may leave that list empty or nest the same operation. Group numbers are natural
numbers, with no upper bound in the type.
-/

namespace PatternGrammar

/-- An expression over characters. -/
inductive Expr where
  /-- One character. -/
  | char (c : Char)
  /-- The operands one after another. -/
  | concat (operands : List Expr)
  /-- Any one of the operands. -/
  | alternation (operands : List Expr)
  /-- The body any number of times. -/
  | star (body : Expr)
  /-- The body, kept under a group number. -/
  | capture (id : Nat) (body : Expr)
  /-- The body in a bracket that captures nothing. -/
  | plain (body : Expr)
  /-- The body looked for without consuming anything. -/
  | lookahead (body : Expr)
  /-- What the group of that number holds. -/
  | reference (id : Nat)
  deriving Inhabited

/-- Induction on expressions, with the claim assumed of every operand of a list. -/
@[elab_as_elim, induction_eliminator]
theorem Expr.induction {motive : Expr → Prop}
    (char : ∀ c, motive (.char c))
    (concat : ∀ operands, (∀ operand ∈ operands, motive operand) → motive (.concat operands))
    (alternation : ∀ operands, (∀ operand ∈ operands, motive operand) →
      motive (.alternation operands))
    (star : ∀ body, motive body → motive (.star body))
    (capture : ∀ id body, motive body → motive (.capture id body))
    (plain : ∀ body, motive body → motive (.plain body))
    (lookahead : ∀ body, motive body → motive (.lookahead body))
    (reference : ∀ id, motive (.reference id)) (expr : Expr) : motive expr :=
  @Expr.rec motive (fun operands => ∀ operand ∈ operands, motive operand)
    char concat alternation star capture plain lookahead reference
    (fun _ member => nomatch member)
    (fun _ _ first rest operand member =>
      match member with
      | .head _ => first
      | .tail _ inRest => rest operand inRest)
    expr

mutual
/-- Depth of the tree: one for a leaf, one more than the deepest child otherwise. -/
def Expr.depth : Expr → Nat
  | .char _ | .reference _ => 1
  | .concat operands | .alternation operands => Expr.listDepth operands + 1
  | .star body | .capture _ body | .plain body | .lookahead body => body.depth + 1

/-- Greatest depth of the trees of a list, zero for none. -/
def Expr.listDepth : List Expr → Nat
  | [] => 0
  | expr :: rest => max expr.depth (Expr.listDepth rest)
end

end PatternGrammar
