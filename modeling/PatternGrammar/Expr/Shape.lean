import PatternGrammar.Pattern.Basic

/-!
# The shape of expressions that can be written down

An expression that a list of tokens can spell has its operands grouped by the precedence of the
operations: a repetition binds closer than a row, and a row closer than an alternation. Captures are
numbered by their openings, nothing is captured or looked ahead for inside a lookahead, and the tree
stays within the limits.
-/

namespace PatternGrammar.Expr

/-- An expression that can be repeated without a bracket: neither a row nor an alternation. -/
def IsOperand : Expr → Prop
  | .concat _ | .alternation _ => False
  | _ => True

/-- An expression that can be a branch without a bracket: no alternation. -/
def IsBranch : Expr → Prop
  | .alternation _ => False
  | _ => True

/-- Operations are nested by precedence, rows and alternations have at least two operands, and
references have one digit. -/
inductive Grouped : Expr → Prop where
  /-- A character. -/
  | char (c : Char) : Grouped (.char c)
  /-- A row of at least two operands. -/
  | concat {operands : List Expr} (several : 2 ≤ operands.length)
    (operand : ∀ expr ∈ operands, expr.IsOperand) (grouped : ∀ expr ∈ operands, Grouped expr) :
    Grouped (.concat operands)
  /-- At least two branches. -/
  | alternation {operands : List Expr} (several : 2 ≤ operands.length)
    (branch : ∀ expr ∈ operands, expr.IsBranch) (grouped : ∀ expr ∈ operands, Grouped expr) :
    Grouped (.alternation operands)
  /-- A repeated operand. -/
  | star {body : Expr} (operand : body.IsOperand) (grouped : Grouped body) : Grouped (.star body)
  /-- A capture group. -/
  | capture {id : Nat} {body : Expr} (grouped : Grouped body) : Grouped (.capture id body)
  /-- A plain bracket. -/
  | plain {body : Expr} (grouped : Grouped body) : Grouped (.plain body)
  /-- A lookahead. -/
  | lookahead {body : Expr} (grouped : Grouped body) : Grouped (.lookahead body)
  /-- A reference to a number of one digit. -/
  | reference {id : Nat} (digit : id ≤ 9) : Grouped (.reference id)

mutual
/-- Group numbers of the captures, in the order of their openings. -/
def captureIds : Expr → List Nat
  | .char _ | .reference _ => []
  | .concat operands | .alternation operands => listCaptureIds operands
  | .capture id body => id :: body.captureIds
  | .star body | .plain body | .lookahead body => body.captureIds

/-- Group numbers of the captures of a list of expressions, in order. -/
def listCaptureIds : List Expr → List Nat
  | [] => []
  | expr :: rest => expr.captureIds ++ listCaptureIds rest
end

/-- An expression without captures and lookaheads. -/
inductive Bare : Expr → Prop where
  /-- A character. -/
  | char (c : Char) : Bare (.char c)
  /-- A row. -/
  | concat {operands : List Expr} (bare : ∀ expr ∈ operands, Bare expr) : Bare (.concat operands)
  /-- An alternation. -/
  | alternation {operands : List Expr} (bare : ∀ expr ∈ operands, Bare expr) :
    Bare (.alternation operands)
  /-- A repetition. -/
  | star {body : Expr} (bare : Bare body) : Bare (.star body)
  /-- A plain bracket. -/
  | plain {body : Expr} (bare : Bare body) : Bare (.plain body)
  /-- A reference. -/
  | reference (id : Nat) : Bare (.reference id)

/-- An expression inside whose lookaheads nothing is captured or looked ahead for. -/
inductive FlatLookaheads : Expr → Prop where
  /-- A character. -/
  | char (c : Char) : FlatLookaheads (.char c)
  /-- A row. -/
  | concat {operands : List Expr} (flat : ∀ expr ∈ operands, FlatLookaheads expr) :
    FlatLookaheads (.concat operands)
  /-- An alternation. -/
  | alternation {operands : List Expr} (flat : ∀ expr ∈ operands, FlatLookaheads expr) :
    FlatLookaheads (.alternation operands)
  /-- A repetition. -/
  | star {body : Expr} (flat : FlatLookaheads body) : FlatLookaheads (.star body)
  /-- A capture group. -/
  | capture {id : Nat} {body : Expr} (flat : FlatLookaheads body) :
    FlatLookaheads (.capture id body)
  /-- A plain bracket. -/
  | plain {body : Expr} (flat : FlatLookaheads body) : FlatLookaheads (.plain body)
  /-- A lookahead with a bare body. -/
  | lookahead {body : Expr} (bare : Bare body) : FlatLookaheads (.lookahead body)
  /-- A reference. -/
  | reference (id : Nat) : FlatLookaheads (.reference id)

/-- An expression that obeys every rule of writing except the limit on depth. -/
structure Writable (limits : Limits) (expr : Expr) : Prop where
  /-- Operations are nested by precedence. -/
  grouped : expr.Grouped
  /-- Captures are numbered from one by their openings. -/
  numbered : expr.captureIds = List.range' 1 expr.captureIds.length
  /-- There are no more captures than allowed. -/
  fewGroups : expr.captureIds.length ≤ limits.groups
  /-- Nothing is captured or looked ahead for inside a lookahead. -/
  flat : expr.FlatLookaheads

/-- An expression that obeys every rule of writing. -/
structure WellFormed (limits : Limits) (expr : Expr) : Prop extends Writable limits expr where
  /-- The tree is not too deep. -/
  shallow : expr.depth ≤ limits.depth

end PatternGrammar.Expr
