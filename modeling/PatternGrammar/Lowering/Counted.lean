import PatternGrammar.Lowering.Basic
import PatternGrammar.Procedure

/-!
# Lowering with a count of levels

The same lowering with its bookkeeping in sight. The level that a lowering is at is counted up when
an expression is begun and down when it is left, with a nonterminal or with an error, and the name
of each capture group is written down where the group first receives it. An expression is refused at
a level beyond the greatest, and that alone ends the recursion, since a reference goes on with what
the table holds. The recursion is given a number of rounds all the same; there are enough of them if
there are as many as levels.
-/

namespace PatternGrammar.Lowering

/-- What has been lowered so far, the level that the lowering is at and the names of the groups. -/
structure Counted where
  /-- The rules so far. -/
  grammar : Grammar
  /-- The capture groups that have a name, each with its name. -/
  groupNames : List (Nat × String)
  /-- How many fresh names of each kind have been made. -/
  counters : Counters
  /-- Number of expressions begun and not yet left. -/
  depth : Nat

namespace Counted

/-- A computation that keeps the count of levels. -/
abbrev CountedM := Procedure LowerError Counted

/-- Nothing lowered and nothing begun. -/
def start : Counted := ⟨.empty, [], .zero, 0⟩

/-- Make a fresh name of a kind. -/
def fresh (kind : NameKind) : CountedM String :=
  modifyGet fun state =>
    (kind.name (state.counters.get kind), { state with counters := state.counters.bump kind })

/-- The given name, or a fresh one of a kind. -/
def nameOr (given : Option String) (kind : NameKind) : CountedM String :=
  match given with
  | some name => return name
  | none => fresh kind

/-- Add an alternative to the rules. -/
def addRule (name : String) (alternative : Alternative) : CountedM Unit :=
  modify fun state => { state with grammar := state.grammar.add name alternative }

/-- The name written down for a capture group, which is written down now if there is none. -/
def nameGroup (id : Nat) : CountedM String :=
  modifyGet fun state =>
    match state.groupNames.lookup id with
    | some name => (name, state)
    | none => (groupName id, { state with groupNames := (id, groupName id) :: state.groupNames })

/-- Begin an expression, lower it and leave it again with whatever comes of it, unless the level is
beyond the greatest. -/
def begun (limits : Limits) (lowered : CountedM String) : CountedM String := do
  if limits.loweringDepth ≤ (← get).depth then throw (.tooDeep limits.loweringDepth)
  else
    lowered.around (fun state => { state with depth := state.depth + 1 })
      fun state => { state with depth := state.depth - 1 }

/-- Lower an expression that has been begun and return its nonterminal. What stands below it is
lowered by the given procedure. -/
def expand (limits : Limits) (table : CaptureTable) (visit : Expr → Option String → CountedM String)
    (expr : Expr) (given : Option String) : CountedM String :=
  match expr with
  | .char c => do
    let name ← nameOr given .char
    addRule name [.terminal c]
    return name
  | .concat operands => do
    if operands.isEmpty then throw (.malformed .emptyConcat)
    let name ← nameOr given .concat
    let inner ← operands.mapM fun operand => visit operand none
    addRule name (inner.map .nonterminal)
    return name
  | .alternation operands => do
    if operands.isEmpty then throw (.malformed .emptyAlternation)
    let name ← nameOr given .alternation
    operands.forM fun operand => do
      let inner ← visit operand none
      addRule name [.nonterminal inner]
    return name
  | .star body => do
    let name ← nameOr given .star
    let inner ← visit body none
    addRule name []
    addRule name [.nonterminal name, .nonterminal inner]
    return name
  | .capture id body => do
    if id = 0 ∨ limits.groups < id then throw (.malformed .groupOutOfRange)
    let name ← nameGroup id
    let inner ← visit body none
    addRule name [.nonterminal inner]
    return name
  | .plain body => do
    let name ← nameOr given .plain
    let inner ← visit body none
    addRule name [.nonterminal inner]
    return name
  | .lookahead _ => do
    let name ← nameOr given .lookahead
    addRule name []
    return name
  | .reference id => do
    match (← get).groupNames.lookup id with
    | some name => return name
    | none =>
      match table.get? id with
      | none => throw (.undefinedGroup id)
      | some body =>
        let name ← nameGroup id
        let inner ← visit body none
        addRule name [.nonterminal inner]
        return name

/-- Begin an expression, lower it and leave it again. The first number is how often an expression
may be begun inside another one. -/
def visit (limits : Limits) (table : CaptureTable) : Nat → Expr → Option String → CountedM String
  | 0, _, _ => begun limits .stuck
  | rounds + 1, expr, given =>
    begun limits (expand limits table (visit limits table rounds) expr given)

/-- Lower an expression under a chosen name. -/
def define (limits : Limits) (table : CaptureTable) (state : Counted) (name : String)
    (expr : Expr) : Option (Except LowerError String × Counted) :=
  visit limits table limits.loweringDepth expr (some name) state

/-- Lower expressions under chosen names one after another, whether or not the earlier ones
succeed. -/
def defineAll (limits : Limits) (table : CaptureTable) (state : Counted) :
    List (String × Expr) → Option (List (Except LowerError String) × Counted)
  | [] => some ([], state)
  | (name, expr) :: rest => do
    let (answer, next) ← define limits table state name expr
    let (answers, last) ← defineAll limits table next rest
    return (answer :: answers, last)

end Counted

end PatternGrammar.Lowering
