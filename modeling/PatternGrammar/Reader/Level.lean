import PatternGrammar.Pattern.Basic
import PatternGrammar.Reader.SyntaxError

/-!
# One bracket level of a pattern

Between a bracket and its end, or between the two ends of the pattern, stand branches divided by
bars, and each branch is a row of operands. A level holds what has been read of that so far and
knows how to turn it into one expression: a single operand stands for its row, and a single branch
for its level.
-/

namespace PatternGrammar

/-- A finished part of a pattern. -/
structure Part where
  /-- The expression read. -/
  expr : Expr
  /-- Its depth. -/
  depth : Nat
  /-- Offset of the first token of the part. -/
  offset : Nat

/-- The depth of a node around a tree of the given depth, refused beyond the greatest depth with the
offset to blame. -/
def Limits.enclose (limits : Limits) (depth offset : Nat) : Except SyntaxError Nat :=
  if limits.depth ≤ depth then .error (.tooDeep offset limits.depth) else .ok (depth + 1)

namespace Part

/-- Greatest depth of the parts of a list, zero for none. -/
def maxDepth : List Part → Nat
  | [] => 0
  | part :: rest => max part.depth (maxDepth rest)

/-- One part for a row of parts: a single part is left as it is, several are put under one node. -/
def join (limits : Limits) (node : List Expr → Expr) (first : Part) (others : List Part) :
    Except SyntaxError Part :=
  match others with
  | [] => .ok first
  | _ :: _ => do
    let depth ← limits.enclose (maxDepth (first :: others)) first.offset
    return ⟨node ((first :: others).map Part.expr), depth, first.offset⟩

end Part

/-- What has been read of one bracket level. -/
structure Level where
  /-- Finished branches, the latest first, each with the offset of the bar after it. -/
  branches : List (Part × Nat)
  /-- Operands of the branch being read, the latest first. -/
  operands : List Part

namespace Level

/-- A level of which nothing has been read. -/
def empty : Level := ⟨[], []⟩

/-- The level with one more operand. -/
def push (level : Level) (part : Part) : Level :=
  { level with operands := part :: level.operands }

/-- The error of a branch without operands: the bar before the branch lacks its right operand, and
where no bar stands before it the error is the given one. -/
def emptyBranch (level : Level) (atStart : SyntaxError) : SyntaxError :=
  match level.branches with
  | [] => atStart
  | (_, bar) :: _ => .missingOperand bar

/-- The branch being read, as one part. -/
def branch (limits : Limits) (level : Level) (atStart : SyntaxError) : Except SyntaxError Part :=
  match level.operands.reverse with
  | [] => .error (level.emptyBranch atStart)
  | first :: others => Part.join limits .concat first others

/-- The whole level, as one part. -/
def whole (limits : Limits) (level : Level) (atStart : SyntaxError) : Except SyntaxError Part := do
  let last ← level.branch limits atStart
  match level.branches.reverse with
  | [] => return last
  | (first, _) :: others => Part.join limits .alternation first (others.map (·.1) ++ [last])

end Level

end PatternGrammar
