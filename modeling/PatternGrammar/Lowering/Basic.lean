import PatternGrammar.Grammar.Basic
import PatternGrammar.Lowering.Name
import PatternGrammar.Pattern.Basic

/-!
# Lowering expressions to rules

An expression becomes a nonterminal whose rules derive its words. The work is done on a state that
holds the rules so far, the capture groups that already have a name and the counters of fresh names.
The name of an expression is made before its children are lowered and its rules are added after
them.

A group and every reference to it share one nonterminal. A reference to a group that has no name yet
lowers what the table holds for it on the spot; since the group is registered first, this happens at
most once per group, also where groups refer to each other in circles. The rules say that both
derive from the same nonterminal and cannot say that both derive the same word.

A failure keeps the state it was met in, so that later definitions on the same state are well
defined.
-/

namespace PatternGrammar

/-- What is wrong with a tree that no reader builds. -/
inductive Malformation where
  /-- A concatenation of nothing. -/
  | emptyConcat
  /-- An alternation between nothing. -/
  | emptyAlternation
  /-- A capture group whose number is zero or beyond the greatest. -/
  | groupOutOfRange
  deriving DecidableEq

/-- What is wrong with a tree, in messages. -/
def Malformation.describe : Malformation → String
  | .emptyConcat => "concatenation without operands"
  | .emptyAlternation => "alternation without operands"
  | .groupOutOfRange => "capture group id out of range"

/-- Why an expression cannot be lowered. -/
inductive LowerError where
  /-- A reference to a group that the table does not hold. -/
  | undefinedGroup (id : Nat)
  /-- More levels of expressions within expressions than the limit. -/
  | tooDeep (limit : Nat)
  /-- A tree that no reader builds. -/
  | malformed (fault : Malformation)
  deriving DecidableEq

/-- The message of a lowering error. -/
def LowerError.message : LowerError → String
  | .undefinedGroup id => "capture group " ++ toString id ++ " is not defined"
  | .tooDeep limit => "syntax tree is nested deeper than " ++ toString limit ++ " levels"
  | .malformed fault => "malformed syntax tree: " ++ fault.describe

/-- Greatest number of levels that lowering follows. A pattern within the limits has its own depth
and, for each group, at most the depth of that group once more. -/
def Limits.loweringDepth (limits : Limits) : Nat :=
  limits.depth * (limits.groups + 1)

/-- What has been lowered so far. -/
structure Lowering where
  /-- The rules so far. -/
  grammar : Grammar
  /-- Numbers of the capture groups that have their name. -/
  registered : List Nat
  /-- How many fresh names of each kind have been made. -/
  counters : Counters

/-- A computation on the state of a lowering. A failure keeps the state it was met in. -/
abbrev LowerM := EStateM LowerError Lowering

namespace Lowering

/-- Nothing lowered. -/
def start : Lowering := ⟨.empty, [], .zero⟩

/-- Make a fresh name of a kind. -/
def fresh (kind : NameKind) : LowerM String :=
  modifyGet fun state =>
    (kind.name (state.counters.get kind), { state with counters := state.counters.bump kind })

/-- The given name, or a fresh one of a kind. -/
def nameOr (given : Option String) (kind : NameKind) : LowerM String :=
  match given with
  | some name => return name
  | none => fresh kind

/-- Add an alternative to the rules. -/
def addRule (name : String) (alternative : Alternative) : LowerM Unit :=
  modify fun state => { state with grammar := state.grammar.add name alternative }

/-- Give a capture group its name. -/
def register (id : Nat) : LowerM Unit :=
  modify fun state =>
    if id ∈ state.registered then state else { state with registered := id :: state.registered }

/-- Lower an expression and return its nonterminal. The first number is how many levels may still be
followed, and none may be left for nothing to be done. A given name is used in place of a fresh one;
capture groups and references keep the name of their group. -/
def lower (limits : Limits) (table : CaptureTable) : Nat → Expr → Option String → LowerM String
  | 0, _, _ => throw (.tooDeep limits.loweringDepth)
  | levels + 1, expr, given =>
    match expr with
    | .char c => do
      let name ← nameOr given .char
      addRule name [.terminal c]
      return name
    | .concat operands => do
      if operands.isEmpty then throw (.malformed .emptyConcat)
      let name ← nameOr given .concat
      let inner ← operands.mapM fun operand => lower limits table levels operand none
      addRule name (inner.map .nonterminal)
      return name
    | .alternation operands => do
      if operands.isEmpty then throw (.malformed .emptyAlternation)
      let name ← nameOr given .alternation
      operands.forM fun operand => do
        let inner ← lower limits table levels operand none
        addRule name [.nonterminal inner]
      return name
    | .star body => do
      let name ← nameOr given .star
      let inner ← lower limits table levels body none
      addRule name []
      addRule name [.nonterminal name, .nonterminal inner]
      return name
    | .capture id body => do
      if id = 0 ∨ limits.groups < id then throw (.malformed .groupOutOfRange)
      register id
      let inner ← lower limits table levels body none
      addRule (groupName id) [.nonterminal inner]
      return groupName id
    | .plain body => do
      let name ← nameOr given .plain
      let inner ← lower limits table levels body none
      addRule name [.nonterminal inner]
      return name
    | .lookahead _ => do
      let name ← nameOr given .lookahead
      addRule name []
      return name
    | .reference id => do
      if id ∈ (← get).registered then return groupName id
      match table.get? id with
      | none => throw (.undefinedGroup id)
      | some body =>
        register id
        let inner ← lower limits table levels body none
        addRule (groupName id) [.nonterminal inner]
        return groupName id

/-- Lower an expression under a chosen name. The answer is the nonterminal that stands for it, and
the state goes on to the next definition whether or not there is one. -/
def define (limits : Limits) (table : CaptureTable) (state : Lowering) (name : String)
    (expr : Expr) : Except LowerError String × Lowering :=
  match (lower limits table limits.loweringDepth expr (some name)).run state with
  | .ok result next => (.ok result, next)
  | .error error next => (.error error, next)

/-- Lower expressions under chosen names one after another on one state. -/
def defineAll (limits : Limits) (table : CaptureTable) (state : Lowering) :
    List (String × Expr) → List (Except LowerError String) × Lowering
  | [] => ([], state)
  | (name, expr) :: rest =>
    let (answer, next) := define limits table state name expr
    let (answers, last) := defineAll limits table next rest
    (answer :: answers, last)

end Lowering

/-- The grammar of a pattern, whose start symbol leads to the nonterminal of the whole
expression. -/
def Pattern.toGrammar (pattern : Pattern) : Except LowerError Grammar :=
  let limits := Limits.standard
  let run := Lowering.lower limits pattern.captures limits.loweringDepth pattern.root none
  match run.run .start with
  | .ok top state => .ok (state.grammar.add Grammar.startName [.nonterminal top])
  | .error error _ => .error error

end PatternGrammar
