import PatternGrammar.Lowering.Counted
import PatternGrammar.Proofs.Lowering.Run

/-!
# The count of levels and the levels left

A lowering that counts the level it is at does what a lowering does that is told how many levels are
left: both give the same answers and make the same rules. On the way this shows that the counting
one always ends, that it comes back to the level at which it started, also where an error cuts it
short, and that it writes down for each group no other name than that of the group.
-/

namespace PatternGrammar.Lowering.Counted

/-- The state of a lowering at a level, with the name of each of its groups written down. -/
def ofLowering (state : Lowering) (depth : Nat) : Counted :=
  ⟨state.grammar, state.registered.map fun id => (id, groupName id), state.counters, depth⟩

/-- What is left of a state without the level and the names of the groups. -/
def toLowering (state : Counted) : Lowering :=
  ⟨state.grammar, state.groupNames.map Prod.fst, state.counters⟩

/-- The end of a lowering, as it is met at a level. -/
def carry {α : Type} (depth : Nat) :
    EStateM.Result LowerError Lowering α → Option (Except LowerError α × Counted)
  | .ok value state => some (.ok value, ofLowering state depth)
  | .error error state => some (.error error, ofLowering state depth)

/-- The level and the names can be left away again. -/
@[simp] theorem toLowering_ofLowering (state : Lowering) (depth : Nat) :
    (ofLowering state depth).toLowering = state := by
  have hids : (fun id => (id, groupName id).1) = (id : Nat → Nat) := rfl
  rw [toLowering, ofLowering, List.map_map, Function.comp_def, hids, List.map_id]

/-- The name written down for a group is its own, and there is one exactly for the groups that have
it. -/
theorem lookup_ofLowering (state : Lowering) (depth id : Nat) :
    (ofLowering state depth).groupNames.lookup id =
      if id ∈ state.registered then some (groupName id) else none := by
  unfold ofLowering
  dsimp only
  induction state.registered with
  | nil => rfl
  | cons other rest ih =>
    rw [List.map_cons, List.lookup_cons, ih]
    by_cases hsame : id = other
    · subst hsame
      simp
    · rw [beq_false_of_ne hsame]
      simp [hsame]

/-- At a level, the first program ends as the second one does, and at that level again. -/
def Follows {α : Type} (depth : Nat) (program : CountedM α) (plain : LowerM α) : Prop :=
  ∀ state, program (ofLowering state depth) = carry depth (plain state)

section Programs

variable {α β : Type} {depth : Nat}

/-- Nothing is done. -/
theorem follows_pure (value : α) : Follows depth (pure value) (pure value) := fun _ => rfl

/-- Both fail at once. -/
theorem follows_throw (error : LowerError) :
    Follows depth (throw error : CountedM α) (throw error) := fun _ => rfl

/-- One after another. -/
theorem Follows.bind {program : CountedM α} {plain : LowerM α} {rest : α → CountedM β}
    {plainRest : α → LowerM β} (hfirst : Follows depth program plain)
    (hrest : ∀ value, Follows depth (rest value) (plainRest value)) :
    Follows depth (program >>= rest) (plain >>= plainRest) := by
  intro state
  have hstate := hfirst state
  cases hplain : plain state with
  | ok value next =>
    rw [hplain] at hstate
    rw [Procedure.bind_of_ok hstate, Job.bind_of_ok hplain]
    exact hrest value next
  | error error next =>
    rw [hplain] at hstate
    rw [Procedure.bind_of_error hstate, Job.bind_of_error hplain]
    rfl

/-- Both make the same name. -/
theorem follows_nameOr (given : Option String) (kind : NameKind) :
    Follows depth (nameOr given kind) (Lowering.nameOr given kind) := by
  intro state
  cases given <;> rfl

/-- Both add the same rule. -/
theorem follows_addRule (name : String) (alternative : Alternative) :
    Follows depth (addRule name alternative) (Lowering.addRule name alternative) := fun _ => rfl

/-- A group that is registered has its own name written down. -/
theorem follows_nameGroup (id : Nat) :
    Follows depth (nameGroup id) (register id >>= fun _ => pure (groupName id)) := by
  intro state
  have hlookup := lookup_ofLowering state depth id
  rw [Job.bind_of_ok (register_apply ..)]
  show some _ = _
  unfold enrolled
  by_cases hmem : id ∈ state.registered
  · rw [if_pos hmem] at hlookup ⊢
    rw [hlookup]
    rfl
  · rw [if_neg hmem] at hlookup ⊢
    rw [hlookup]
    rfl

/-- Both go through a list of operands. -/
theorem follows_mapM {program : Expr → CountedM α} {plain : Expr → LowerM α}
    (hone : ∀ expr, Follows depth (program expr) (plain expr)) (exprs : List Expr) :
    Follows depth (exprs.mapM program) (exprs.mapM plain) := by
  induction exprs with
  | nil => exact follows_pure []
  | cons expr rest ih =>
    rw [List.mapM_cons, List.mapM_cons]
    exact (hone expr).bind fun first => ih.bind fun others => follows_pure (first :: others)

/-- Both go through a list of branches. -/
theorem follows_forM {program : Expr → CountedM PUnit} {plain : Expr → LowerM PUnit}
    (hone : ∀ expr, Follows depth (program expr) (plain expr)) (exprs : List Expr) :
    Follows depth (exprs.forM program) (exprs.forM plain) := by
  induction exprs with
  | nil => exact follows_pure ()
  | cons expr rest ih => exact (hone expr).bind fun _ => ih

end Programs

variable {limits : Limits} {table : CaptureTable}

section AtOneLevel

variable {depth levels : Nat} {visit : Expr → Option String → CountedM String}
  (hvisit :
    ∀ expr given, Follows depth (visit expr given) (Lowering.lower limits table levels expr given))
include hvisit

/-- Both lower the body of a group after the group has its name. -/
theorem follows_group (id : Nat) (body : Expr) :
    Follows depth
      (do
        let name ← nameGroup id
        let inner ← visit body none
        addRule name [.nonterminal inner]
        return name)
      (do
        register id
        let inner ← Lowering.lower limits table levels body none
        Lowering.addRule (groupName id) [.nonterminal inner]
        return groupName id) := by
  -- The name that the counting program has written down is the one that the other one makes again.
  have hplain :
      (do
        register id
        let inner ← Lowering.lower limits table levels body none
        Lowering.addRule (groupName id) [.nonterminal inner]
        return groupName id : LowerM String) =
      (do
        let name ← (register id >>= fun _ => pure (groupName id))
        let inner ← Lowering.lower limits table levels body none
        Lowering.addRule name [.nonterminal inner]
        return name) := by
    simp only [bind_assoc, pure_bind]
  rw [hplain]
  exact (follows_nameGroup id).bind fun name => (hvisit body none).bind fun inner =>
    (follows_addRule name _).bind fun _ => follows_pure name

/-- Both lower an expression if they lower everything below it. -/
theorem follows_expand (expr : Expr) (given : Option String) :
    Follows depth (expand limits table visit expr given)
      (Lowering.lower limits table (levels + 1) expr given) := by
  cases expr with
  | char c =>
    rw [expand, Lowering.lower]
    exact (follows_nameOr given .char).bind fun name =>
      (follows_addRule name _).bind fun _ => follows_pure name
  | lookahead body =>
    rw [expand, Lowering.lower]
    exact (follows_nameOr given .lookahead).bind fun name =>
      (follows_addRule name _).bind fun _ => follows_pure name
  | concat operands =>
    rw [expand, Lowering.lower]
    split
    next => exact follows_throw _
    next =>
      have hrow := follows_mapM (fun operand => hvisit operand none) operands
      exact (follows_nameOr given .concat).bind fun name => hrow.bind fun inner =>
        (follows_addRule name _).bind fun _ => follows_pure name
  | alternation operands =>
    rw [expand, Lowering.lower]
    split
    next => exact follows_throw _
    next =>
      have hbranch (name : String) (operand : Expr) :=
        (hvisit operand none).bind fun inner => follows_addRule name [.nonterminal inner]
      exact (follows_nameOr given .alternation).bind fun name =>
        (follows_forM (hbranch name) operands).bind fun _ => follows_pure name
  | star body =>
    rw [expand, Lowering.lower]
    exact (follows_nameOr given .star).bind fun name => (hvisit body none).bind fun inner =>
      (follows_addRule name _).bind fun _ => (follows_addRule name _).bind fun _ =>
        follows_pure name
  | plain body =>
    rw [expand, Lowering.lower]
    exact (follows_nameOr given .plain).bind fun name => (hvisit body none).bind fun inner =>
      (follows_addRule name _).bind fun _ => follows_pure name
  | capture id body =>
    rw [expand, Lowering.lower]
    split
    next => exact follows_throw _
    next => exact follows_group hvisit id body
  | reference id =>
    intro state
    have hget : (get : CountedM Counted) (ofLowering state depth) =
      some (.ok (ofLowering state depth), ofLowering state depth) := rfl
    have hplain : (get : LowerM Lowering) state = .ok state state := rfl
    rw [expand, Lowering.lower, Procedure.bind_of_ok hget, Job.bind_of_ok hplain, lookup_ofLowering]
    by_cases hmem : id ∈ state.registered
    · rw [if_pos hmem, if_pos hmem]
      rfl
    · rw [if_neg hmem, if_neg hmem]
      cases table.get? id with
      | none => rfl
      | some body => exact follows_group hvisit id body state

end AtOneLevel

/-- Nothing is begun at a level beyond the greatest. -/
theorem begun_of_deep {lowered : CountedM String} {state : Counted}
    (hdeep : limits.loweringDepth ≤ state.depth) :
    begun limits lowered state = some (.error (.tooDeep limits.loweringDepth), state) := by
  have hget : (get : CountedM Counted) state = some (.ok state, state) := rfl
  rw [begun, Procedure.bind_of_ok hget, if_pos hdeep]
  rfl

/-- An expression that has been begun is left with the answer that it comes to. -/
theorem begun_of_lowered {lowered : CountedM String} {state next : Counted}
    {answer : Except LowerError String} (hshallow : state.depth < limits.loweringDepth)
    (hlowered : lowered { state with depth := state.depth + 1 } = some (answer, next)) :
    begun limits lowered state = some (answer, { next with depth := next.depth - 1 }) := by
  have hget : (get : CountedM Counted) state = some (.ok state, state) := rfl
  rw [begun, Procedure.bind_of_ok hget, if_neg (Nat.not_le.mpr hshallow), Procedure.around,
    hlowered]
  rfl

/-- The counting lowering ends at every level as the other one does with the levels that are left,
if it has as many rounds. -/
theorem follows_visit (expr : Expr) (given : Option String) (depth : Nat) {rounds : Nat}
    (hrounds : limits.loweringDepth - depth ≤ rounds) :
    Follows depth (visit limits table rounds expr given)
      (Lowering.lower limits table (limits.loweringDepth - depth) expr given) := by
  generalize hlevels : limits.loweringDepth - depth = levels at hrounds
  induction levels generalizing depth expr given rounds with
  | zero =>
    intro state
    have hdeep : limits.loweringDepth ≤ depth := by omega
    cases rounds with
    | zero => exact begun_of_deep hdeep
    | succ rounds => exact begun_of_deep hdeep
  | succ levels ih =>
    intro state
    obtain ⟨rounds, rfl⟩ := Nat.exists_eq_add_one_of_ne_zero (show rounds ≠ 0 by omega)
    have hbelow : limits.loweringDepth - (depth + 1) = levels := by omega
    have hshallow : (ofLowering state depth).depth < limits.loweringDepth := by
      show depth < limits.loweringDepth
      omega
    have hexpand := follows_expand
      (fun expr given => ih expr given (depth + 1) hbelow (Nat.le_of_succ_le_succ hrounds))
      expr given state
    cases hplain : Lowering.lower limits table (levels + 1) expr given state with
    | ok name next =>
      rw [hplain] at hexpand
      exact begun_of_lowered hshallow hexpand
    | error error next =>
      rw [hplain] at hexpand
      exact begun_of_lowered hshallow hexpand

/-- A definition that counts its levels is a definition. -/
theorem define_ofLowering (limits : Limits) (table : CaptureTable) (state : Lowering)
    (name : String) (expr : Expr) :
    define limits table (ofLowering state 0) name expr =
      some ((Lowering.define limits table state name expr).1,
        ofLowering (Lowering.define limits table state name expr).2 0) := by
  rw [define, follows_visit expr (some name) 0 (Nat.sub_le _ _) state, Nat.sub_zero]
  unfold Lowering.define
  dsimp only [EStateM.run]
  cases Lowering.lower limits table limits.loweringDepth expr (some name) state <;> rfl

/-- Definitions that count their levels are definitions, and each starts where nothing is begun. -/
theorem defineAll_ofLowering (limits : Limits) (table : CaptureTable) (state : Lowering)
    (steps : List (String × Expr)) :
    defineAll limits table (ofLowering state 0) steps =
      some ((Lowering.defineAll limits table state steps).1,
        ofLowering (Lowering.defineAll limits table state steps).2 0) := by
  induction steps generalizing state with
  | nil => rfl
  | cons step rest ih =>
    obtain ⟨name, expr⟩ := step
    rw [defineAll, define_ofLowering, Option.bind_eq_bind, Option.bind_some]
    dsimp only
    rw [ih]
    rfl

end PatternGrammar.Lowering.Counted
