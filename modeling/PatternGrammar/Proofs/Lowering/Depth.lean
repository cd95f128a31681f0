import Mathlib.Algebra.Group.Action.Defs
import Mathlib.Algebra.GroupWithZero.Nat
import Mathlib.Algebra.Order.BigOperators.Group.List
import Mathlib.Algebra.Order.Group.Nat
import PatternGrammar.Proofs.Lowering.Run

/-!
# How deep a lowering goes

A run follows an expression down to its leaves and, at a reference to a group without a name, goes
on with what the table holds for the group. Each group is entered that way once at most. The levels
that a run can still need are therefore bounded by the depth of its expressions and the depths of
all table entries whose groups have no name yet. A run with that many levels left is never cut short
for want of levels, and a run with fewer levels left than its expressions are deep never succeeds.
Neither depends on the table agreeing with the expressions or being free of circles.
-/

namespace PatternGrammar

namespace Expr

mutual
/-- Depth of what stands outside lookaheads: a lookahead counts as a leaf. -/
def shownDepth : Expr → Nat
  | .char _ | .reference _ | .lookahead _ => 1
  | .concat operands | .alternation operands => listShownDepth operands + 1
  | .star body | .capture _ body | .plain body => body.shownDepth + 1

/-- Greatest such depth of the expressions of a list, zero for none. -/
def listShownDepth : List Expr → Nat
  | [] => 0
  | expr :: rest => max expr.shownDepth (listShownDepth rest)
end

/-- No expression is without depth. -/
theorem shownDepth_pos (expr : Expr) : 0 < expr.shownDepth := by
  cases expr <;> simp only [shownDepth] <;> omega

/-- The depth of a list is bounded if those of its members are. -/
theorem listShownDepth_le {exprs : List Expr}
    (hle : ∀ expr ∈ exprs, expr.shownDepth ≤ expr.depth) :
    listShownDepth exprs ≤ listDepth exprs := by
  induction exprs with
  | nil => exact Nat.le_refl 0
  | cons expr rest ih =>
    have hhead := hle expr List.mem_cons_self
    have htail := ih fun other hmem => hle other (List.mem_cons_of_mem _ hmem)
    simp only [listShownDepth, listDepth]
    omega

/-- Lookaheads can only add to the depth of a tree. -/
theorem shownDepth_le_depth (expr : Expr) : expr.shownDepth ≤ expr.depth := by
  induction expr with
  | char c => exact Nat.le_refl 1
  | reference id => exact Nat.le_refl 1
  | concat operands ih | alternation operands ih =>
    have hlist := listShownDepth_le ih
    simp only [shownDepth, depth]
    omega
  | star body ih | capture id body ih | plain body ih =>
    simp only [shownDepth, depth]
    omega
  | lookahead body ih =>
    simp only [shownDepth, depth]
    omega

/-- A member of a list is no deeper than the list. -/
theorem depth_le_listDepth {exprs : List Expr} {expr : Expr} (hmem : expr ∈ exprs) :
    expr.depth ≤ listDepth exprs := by
  induction exprs with
  | nil => cases hmem
  | cons other rest ih =>
    simp only [listDepth]
    rcases List.mem_cons.mp hmem with rfl | hmem
    · omega
    · have hrest := ih hmem
      omega

/-- What stands in an expression is no deeper than the expression. -/
theorem Exposes.depth_le {expr inner : Expr} (hexposes : expr.Exposes inner) :
    inner.depth ≤ expr.depth := by
  induction hexposes with
  | here => exact Nat.le_refl _
  | concat hmem _ ih | alternation hmem _ ih =>
    have hmember := depth_le_listDepth hmem
    simp only [depth]
    omega
  | star _ ih | capture _ ih | plain _ ih =>
    simp only [depth]
    omega

end Expr

namespace CaptureTable

/-- Depth of an entry whose group has no name, zero for the others. -/
def pendingEntry (registered : List Nat) (entry : Nat × Expr) : Nat :=
  if entry.1 ∈ registered then 0 else entry.2.shownDepth

/-- Sum of the depths of what the table holds for groups without a name. -/
def pendingDepth (table : CaptureTable) (registered : List Nat) : Nat :=
  (table.entries.map (pendingEntry registered)).sum

variable {table : CaptureTable} {registered larger : List Nat}

/-- An entry can only stop to count when more groups have their name. -/
theorem pendingEntry_mono (hsubset : registered ⊆ larger) (entry : Nat × Expr) :
    pendingEntry larger entry ≤ pendingEntry registered entry := by
  unfold pendingEntry
  by_cases hmem : entry.1 ∈ registered
  · rw [if_pos hmem, if_pos (hsubset hmem)]
  · rw [if_neg hmem]
    split <;> omega

/-- The sum can only fall when more groups have their name. -/
theorem pendingDepth_mono (table : CaptureTable) (hsubset : registered ⊆ larger) :
    table.pendingDepth larger ≤ table.pendingDepth registered :=
  List.sum_le_sum fun entry _ => pendingEntry_mono hsubset entry

/-- When a group receives its name, the depth of what it holds leaves the sum. -/
theorem pendingDepth_add_le {id : Nat} {body : Expr} (hnew : id ∉ registered)
    (hholds : table.get? id = some body) (hsubset : registered ⊆ larger) (hmem : id ∈ larger) :
    body.shownDepth + table.pendingDepth larger ≤ table.pendingDepth registered := by
  have hentry := get?_eq_some.mp hholds
  obtain ⟨front, back, hsplit⟩ := List.append_of_mem hentry
  have hfront := List.sum_le_sum fun entry (_ : entry ∈ front) => pendingEntry_mono hsubset entry
  have hback := List.sum_le_sum fun entry (_ : entry ∈ back) => pendingEntry_mono hsubset entry
  have hbefore : pendingEntry registered (id, body) = body.shownDepth := if_neg hnew
  have hafter : pendingEntry larger (id, body) = 0 := if_pos hmem
  unfold pendingDepth
  rw [hsplit, List.map_append, List.map_append, List.map_cons, List.map_cons, List.sum_append,
    List.sum_append, List.sum_cons, List.sum_cons, hbefore, hafter]
  omega

/-- While no group has its name, every entry counts. -/
theorem pendingDepth_nil (table : CaptureTable) :
    table.pendingDepth [] = (table.entries.map fun entry => entry.2.shownDepth).sum := by
  have hentry : pendingEntry [] = fun entry => entry.2.shownDepth :=
    funext fun entry => if_neg List.not_mem_nil
  rw [pendingDepth, hentry]

/-- The sum is bounded by the number of entries and a bound on their depths. -/
theorem pendingDepth_le {bound : Nat} (registered : List Nat)
    (hbound : ∀ entry ∈ table.entries, entry.2.shownDepth ≤ bound) :
    table.pendingDepth registered ≤ table.entries.length * bound := by
  have hentries : ∀ depth ∈ table.entries.map (pendingEntry registered), depth ≤ bound := by
    intro depth hmem
    obtain ⟨entry, hentry, rfl⟩ := List.mem_map.mp hmem
    have hdepth := hbound entry hentry
    unfold pendingEntry
    split <;> omega
  have hsum := List.sum_le_card_nsmul _ bound hentries
  rwa [List.length_map, smul_eq_mul] at hsum

end CaptureTable

namespace Lowering.Job

/-- Depth of the expressions of a job. -/
def depth : Job → Nat
  | .one expr _ => expr.shownDepth
  | .row operands | .branches _ operands => Expr.listShownDepth operands

variable {limits : Limits} {table : CaptureTable} {levels : Nat}

/-- A run is not cut short for want of levels if there are as many as the depth of the job and the
depths of what the table holds for groups without a name. -/
theorem Fails.error_ne_tooDeep {job : Job} {before after : Lowering} {error : LowerError}
    (hfails : Fails limits table levels job before error after)
    (hlevels : job.depth + table.pendingDepth before.registered ≤ levels) (limit : Nat) :
    error ≠ .tooDeep limit := by
  induction hfails with
  | tooDeep expr given before =>
    have hpos := expr.shownDepth_pos
    simp only [depth] at hlevels
    omega
  | emptyConcat | emptyAlternation | outOfRange | undefined => exact nofun
  | concat _ ih | alternation _ ih | star _ ih | plain _ ih =>
    refine ih ?_
    simp only [depth, Expr.shownDepth, registered_named] at hlevels ⊢
    omega
  | @capture _ id _ _ before _ _ _ _ ih =>
    have hsubset : before.registered ⊆ (before.enrolled id).registered :=
      fun _ hmem => (mem_registered_enrolled ..).mpr (.inr hmem)
    have hmono := table.pendingDepth_mono hsubset
    refine ih ?_
    simp only [depth, Expr.shownDepth] at hlevels ⊢
    omega
  | @forward _ id body _ before _ _ hnew hholds _ ih =>
    have hsubset : before.registered ⊆ (before.enrolled id).registered :=
      fun _ hmem => (mem_registered_enrolled ..).mpr (.inr hmem)
    have henrolled := CaptureTable.pendingDepth_add_le hnew hholds hsubset
      ((mem_registered_enrolled ..).mpr (.inl rfl))
    refine ih ?_
    simp only [depth, Expr.shownDepth] at hlevels ⊢
    omega
  | rowHead _ _ ih | branchesHead _ _ _ ih =>
    refine ih ?_
    simp only [depth, Expr.listShownDepth] at hlevels ⊢
    omega
  | rowTail hhead _ ih | branchesTail hhead _ ih =>
    have hmono := table.pendingDepth_mono hhead.registered_mono
    refine ih ?_
    simp only [depth, Expr.listShownDepth, added] at hlevels ⊢
    omega

/-- A run that succeeds has at least as many levels left as its expressions are deep. -/
theorem Succeeds.depth_le {job : Job} {before after : Lowering} {names : List String}
    (hrun : Succeeds limits table levels job before names after) : job.depth ≤ levels := by
  induction hrun with
  | char | lookahead | known | forward =>
    simp only [depth, Expr.shownDepth]
    omega
  | concat _ _ ih | alternation _ _ ih | star _ ih | plain _ ih | capture _ _ ih =>
    simp only [depth, Expr.shownDepth] at ih ⊢
    omega
  | rowNil | branchesNil =>
    simp only [depth, Expr.listShownDepth]
    omega
  | rowCons _ _ ihhead ihtail | branchesCons _ _ ihhead ihtail =>
    simp only [depth, Expr.listShownDepth] at ihhead ihtail ⊢
    omega

end Lowering.Job

namespace Pattern

/-- How deep a pattern may be for its grammar, whatever its table: if its expression and all table
entries together are at most five hundred levels deep, the limit on levels is not met, and if the
expression alone is deeper than that, there is no grammar. -/
theorem toGrammar_depth_guard (pattern : Pattern) :
    (pattern.root.shownDepth +
        (pattern.captures.entries.map fun entry => entry.2.shownDepth).sum ≤ 500 →
      ∀ limit, pattern.toGrammar ≠ .error (.tooDeep limit)) ∧
    (500 < pattern.root.shownDepth → ∀ grammar, pattern.toGrammar ≠ .ok grammar) := by
  have hlimit : Limits.standard.loweringDepth = 500 := rfl
  constructor
  · intro hwithin limit herror
    obtain ⟨state, hfails⟩ := fails_of_toGrammar herror
    have hpending : pattern.captures.pendingDepth Lowering.start.registered =
        (pattern.captures.entries.map fun entry => entry.2.shownDepth).sum :=
      pattern.captures.pendingDepth_nil
    have hlevels : (Lowering.Job.one pattern.root none).depth +
        pattern.captures.pendingDepth Lowering.start.registered ≤
          Limits.standard.loweringDepth := by
      simp only [Lowering.Job.depth]
      omega
    exact hfails.error_ne_tooDeep hlevels limit rfl
  · intro hbeyond grammar hgrammar
    obtain ⟨top, state, -, hrun⟩ := succeeds_of_toGrammar hgrammar
    have hdepth := hrun.depth_le
    simp only [Lowering.Job.depth] at hdepth
    omega

/-- A group that holds a reference to itself, at the limit together with the expression around it,
and a tree of one level beyond the limit. -/
theorem toGrammar_depth_guard_circular :
    (∀ limit, toGrammar ⟨Expr.star^[249] (.reference 1),
      CaptureTable.empty.insert 1 (Expr.star^[249] (.reference 1))⟩ ≠ .error (.tooDeep limit)) ∧
    ∀ grammar, toGrammar ⟨Expr.star^[500] (.char 'a'), .empty⟩ ≠ .ok grammar := by
  constructor
  · exact (toGrammar_depth_guard _).1 (by decide +kernel)
  · exact (toGrammar_depth_guard _).2 (by decide +kernel)

end Pattern

end PatternGrammar
