import Mathlib.Logic.Function.Iterate
import PatternGrammar.Proofs.Lowering.Run

/-!
# Lowering does not look into lookaheads

Veiling an expression puts one and the same character in the place of every lookahead body. A run on
veiled expressions and a veiled table takes every step that the run on the originals takes: it makes
the same names in the same order, adds the same rules, and ends with the same names or is cut short
by the same error. Two patterns that differ only inside lookaheads therefore cannot be told apart by
their grammars or errors, whatever is in there: references to groups that are not there, rows of
nothing, trees beyond every limit.
-/

namespace PatternGrammar

namespace Expr

mutual
/-- The expression with a character in the place of every lookahead body. -/
def veiled (veil : Char) : Expr → Expr
  | .char c => .char c
  | .concat operands => .concat (listVeiled veil operands)
  | .alternation operands => .alternation (listVeiled veil operands)
  | .star body => .star (body.veiled veil)
  | .capture id body => .capture id (body.veiled veil)
  | .plain body => .plain (body.veiled veil)
  | .lookahead _ => .lookahead (.char veil)
  | .reference id => .reference id

/-- The expressions of a list, each of them veiled. -/
def listVeiled (veil : Char) : List Expr → List Expr
  | [] => []
  | expr :: rest => expr.veiled veil :: listVeiled veil rest
end

/-- Veiling takes no operand away. -/
theorem listVeiled_ne_nil {veil : Char} {operands : List Expr} (hnonempty : operands ≠ []) :
    listVeiled veil operands ≠ [] := by
  cases operands with
  | nil => exact absurd rfl hnonempty
  | cons operand rest => exact List.cons_ne_nil _ _

end Expr

namespace CaptureTable

/-- The second table holds for each group what the first one holds for it, veiled. -/
def VeiledBy (veil : Char) (table veiled : CaptureTable) : Prop :=
  ∀ id, veiled.get? id = (table.get? id).map (Expr.veiled veil)

/-- The table with everything that it holds veiled. -/
def veiled (veil : Char) (table : CaptureTable) : CaptureTable where
  entries := table.entries.map fun entry => (entry.1, entry.2.veiled veil)
  ascending := List.pairwise_map.mpr table.ascending

/-- A veiled table holds veiled expressions for the same groups. -/
theorem veiledBy_veiled (veil : Char) (table : CaptureTable) :
    table.VeiledBy veil (table.veiled veil) := by
  intro id
  simp only [get?, veiled, List.find?_map, Option.map_map]
  rfl

variable {veil : Char} {table hidden : CaptureTable} {id : Nat}

/-- A veiled table holds the veiled body of a group that the table holds. -/
theorem VeiledBy.get?_eq_some {body : Expr} (hveiled : table.VeiledBy veil hidden)
    (hholds : table.get? id = some body) : hidden.get? id = some (body.veiled veil) := by
  rw [hveiled id, hholds, Option.map_some]

/-- A veiled table holds nothing for a group that the table does not hold. -/
theorem VeiledBy.get?_eq_none (hveiled : table.VeiledBy veil hidden)
    (habsent : table.get? id = none) : hidden.get? id = none := by
  rw [hveiled id, habsent, Option.map_none]

end CaptureTable

namespace Lowering

namespace Job

/-- The job with its expressions veiled. -/
def veiled (veil : Char) : Job → Job
  | .one expr given => .one (expr.veiled veil) given
  | .row operands => .row (Expr.listVeiled veil operands)
  | .branches name operands => .branches name (Expr.listVeiled veil operands)

variable {veil : Char} {limits : Limits} {table hidden : CaptureTable} {levels : Nat} {job : Job}
  {before after : Lowering}

/-- A successful run succeeds in the same way behind a veil. -/
theorem Succeeds.veiled {names : List String}
    (hrun : Succeeds limits table levels job before names after)
    (hveiled : table.VeiledBy veil hidden) :
    Succeeds limits hidden levels (job.veiled veil) before names after := by
  induction hrun with
  | char levels c given before => exact .char levels c given before
  | lookahead levels body given before => exact .lookahead levels _ given before
  | concat hnonempty _ ih => exact .concat (Expr.listVeiled_ne_nil hnonempty) ih
  | alternation hnonempty _ ih => exact .alternation (Expr.listVeiled_ne_nil hnonempty) ih
  | star _ ih => exact .star ih
  | plain _ ih => exact .plain ih
  | capture hrange _ ih => exact .capture hrange ih
  | known hregistered => exact .known hregistered
  | forward hunregistered hholds _ ih =>
    exact .forward hunregistered (hveiled.get?_eq_some hholds) ih
  | rowNil levels before => exact .rowNil levels before
  | rowCons _ _ ihhead ihtail => exact .rowCons ihhead ihtail
  | branchesNil levels name before => exact .branchesNil levels name before
  | branchesCons _ _ ihhead ihtail => exact .branchesCons ihhead ihtail

/-- A run that fails meets the same error behind a veil and leaves the same behind. -/
theorem Fails.veiled {error : LowerError}
    (hfails : Fails limits table levels job before error after)
    (hveiled : table.VeiledBy veil hidden) :
    Fails limits hidden levels (job.veiled veil) before error after := by
  induction hfails with
  | tooDeep expr given before => exact .tooDeep _ given before
  | emptyConcat levels given before => exact .emptyConcat levels given before
  | emptyAlternation levels given before => exact .emptyAlternation levels given before
  | outOfRange body given before houtside => exact .outOfRange _ given before houtside
  | undefined hunregistered habsent => exact .undefined hunregistered (hveiled.get?_eq_none habsent)
  | concat _ ih => exact .concat ih
  | alternation _ ih => exact .alternation ih
  | star _ ih => exact .star ih
  | plain _ ih => exact .plain ih
  | capture hrange _ ih => exact .capture hrange ih
  | forward hunregistered hholds _ ih =>
    exact .forward hunregistered (hveiled.get?_eq_some hholds) ih
  | rowHead operands _ ih => exact .rowHead _ ih
  | rowTail hhead _ ih => exact .rowTail (hhead.veiled hveiled) ih
  | branchesHead name operands _ ih => exact .branchesHead name _ ih
  | branchesTail hhead _ ih => exact .branchesTail (hhead.veiled hveiled) ih

end Job

/-- An expression is lowered as it is behind a veil, from every state and also where this fails. -/
theorem lower_veiled {veil : Char} {table hidden : CaptureTable}
    (hveiled : table.VeiledBy veil hidden)
    (limits : Limits) (levels : Nat) (expr : Expr) (given : Option String) :
    lower limits hidden levels (expr.veiled veil) given = lower limits table levels expr given := by
  funext before
  cases hrun : lower limits table levels expr given before with
  | ok name after =>
    have hsucceeds := (Job.succeeds_of_lower hrun).veiled hveiled
    exact Job.lower_of_perform_ok hsucceeds.perform_eq
  | error error after =>
    have hfails := (Job.fails_of_lower hrun).veiled hveiled
    exact Job.lower_of_perform_error hfails.perform_eq

end Lowering

namespace Pattern

/-- A pattern and what is left of it behind a veil have the same grammar or fail with the same
error. -/
theorem toGrammar_veiled {veil : Char} {table hidden : CaptureTable}
    (hveiled : table.VeiledBy veil hidden)
    (root : Expr) : toGrammar ⟨root.veiled veil, hidden⟩ = toGrammar ⟨root, table⟩ := by
  unfold toGrammar
  dsimp only
  rw [Lowering.lower_veiled hveiled]

/-- Patterns that are the same behind a veil have the same grammar, rules and alternatives in the
same order, or fail with the same error. -/
theorem toGrammar_eq_of_veiled_eq (veil : Char) {left right : Pattern}
    (hroot : left.root.veiled veil = right.root.veiled veil)
    (htable : ∀ id, (left.captures.get? id).map (Expr.veiled veil) =
      (right.captures.get? id).map (Expr.veiled veil)) :
    left.toGrammar = right.toGrammar := by
  have hright := CaptureTable.veiledBy_veiled veil right.captures
  have hleft : left.captures.VeiledBy veil (right.captures.veiled veil) := by
    intro id
    rw [hright id, htable id]
  calc left.toGrammar
      = toGrammar ⟨left.root.veiled veil, right.captures.veiled veil⟩ :=
        (toGrammar_veiled hleft left.root).symm
    _ = toGrammar ⟨right.root.veiled veil, right.captures.veiled veil⟩ := by rw [hroot]
    _ = right.toGrammar := toGrammar_veiled hright right.root

/-- A reference to a group that is not there and a tree of six hundred levels over a row of nothing,
each in a lookahead, one of them in the table. -/
theorem toGrammar_eq_of_veiled_eq_ruinous :
    ∃ grammar, toGrammar ⟨.concat [.lookahead (.reference 9), .reference 1],
        CaptureTable.empty.insert 1 (.plain (.lookahead (Expr.star^[600] (.concat []))))⟩ =
          .ok grammar ∧
      toGrammar ⟨.concat [.lookahead (.char 'b'), .reference 1],
        CaptureTable.empty.insert 1 (.plain (.lookahead (.char 'c')))⟩ = .ok grammar := by
  refine ⟨?grammar, (toGrammar_eq_of_veiled_eq 'a' ?root ?table).trans ?lowered, ?lowered⟩
  case lowered => rfl
  case root => rfl
  case table =>
    intro id
    rw [CaptureTable.get?_insert, CaptureTable.get?_insert]
    split
    · simp only [Option.map_some, Expr.veiled]
    · rfl

end Pattern

end PatternGrammar
