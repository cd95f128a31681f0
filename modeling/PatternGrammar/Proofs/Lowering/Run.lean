import PatternGrammar.Grammar.Derivation
import PatternGrammar.Lowering.Basic
import PatternGrammar.Proofs.Expr.Exposure

/-!
# Runs of a lowering

What one lowering can do, said once and for all later statements. A job is an expression to be
lowered, the operands of a row or the branches of a nonterminal. `Job.Succeeds` lists every way in
which a job comes to an end and the names and the state it leaves; `Job.Fails` lists every way in
which it is cut short and the state it was met in. `outcome_perform_one` says that each run of the
program is one of these.
-/

namespace PatternGrammar.Lowering

/-- The name that an expression of a kind receives. -/
def nameFor (state : Lowering) (given : Option String) (kind : NameKind) : String :=
  match given with
  | some name => name
  | none => kind.name (state.counters.get kind)

/-- The state after an expression of a kind has received its name. -/
def named (state : Lowering) (given : Option String) (kind : NameKind) : Lowering :=
  match given with
  | some _ => state
  | none => { state with counters := state.counters.bump kind }

/-- The state with one more alternative among its rules. -/
def added (state : Lowering) (name : String) (alternative : Alternative) : Lowering :=
  { state with grammar := state.grammar.add name alternative }

/-- The state in which a capture group has its name. -/
def enrolled (state : Lowering) (id : Nat) : Lowering :=
  if id ∈ state.registered then state else { state with registered := id :: state.registered }

/-- Naming an expression changes no rule. -/
@[simp] theorem grammar_named (state : Lowering) (given : Option String) (kind : NameKind) :
    (state.named given kind).grammar = state.grammar := by
  cases given <;> rfl

/-- Naming an expression registers no group. -/
@[simp] theorem registered_named (state : Lowering) (given : Option String) (kind : NameKind) :
    (state.named given kind).registered = state.registered := by
  cases given <;> rfl

/-- Giving a group its name changes no rule. -/
@[simp] theorem grammar_enrolled (state : Lowering) (id : Nat) :
    (state.enrolled id).grammar = state.grammar := by
  unfold enrolled
  split <;> rfl

/-- The groups that have their name after one more has received it. -/
@[simp] theorem mem_registered_enrolled (state : Lowering) (id other : Nat) :
    other ∈ (state.enrolled id).registered ↔ other = id ∨ other ∈ state.registered := by
  unfold enrolled
  split
  next hmem =>
    refine ⟨.inr, fun hother => ?_⟩
    rcases hother with rfl | hother
    · exact hmem
    · exact hother
  next => exact List.mem_cons

/-- A property of states that every change of a lowering keeps. -/
structure Stable (P : Lowering → Prop) : Prop where
  /-- It is kept when an expression receives its name. -/
  named : ∀ state given kind, P state → P (state.named given kind)
  /-- It is kept when a rule is added. -/
  added : ∀ state name alternative, P state → P (state.added name alternative)
  /-- It is kept when a group receives its name. -/
  enrolled : ∀ state id, P state → P (state.enrolled id)

/-- Groups keep their names. -/
theorem stable_registered (ids : List Nat) : Stable fun state => ids ⊆ state.registered where
  named := by
    intro state given kind hstate
    rwa [registered_named]
  added := fun _ _ _ hstate => hstate
  enrolled := fun _ _ hstate _ hmem => (mem_registered_enrolled ..).mpr (.inr (hstate hmem))

/-- Alternatives stay. -/
theorem stable_produces (name : String) (alternative : Alternative) :
    Stable fun state => state.grammar.Produces name alternative where
  named := by
    intro state given kind hstate
    rwa [grammar_named]
  added := fun _ _ _ hstate => Grammar.produces_add.mpr (.inl hstate)
  enrolled := by
    intro state id hstate
    rwa [grammar_enrolled]

/-- Naming an expression cannot fail. -/
@[simp] theorem nameOr_apply (given : Option String) (kind : NameKind) (state : Lowering) :
    nameOr given kind state = .ok (state.nameFor given kind) (state.named given kind) := by
  cases given <;> rfl

/-- Adding a rule cannot fail. -/
@[simp] theorem addRule_apply (name : String) (alternative : Alternative) (state : Lowering) :
    addRule name alternative state = .ok () (state.added name alternative) := rfl

/-- Giving a group its name cannot fail. -/
@[simp] theorem register_apply (id : Nat) (state : Lowering) :
    register id state = .ok () (state.enrolled id) := rfl

/-- What there is to lower at one level. -/
inductive Job where
  /-- An expression, under a given name or a fresh one. -/
  | one (expr : Expr) (given : Option String)
  /-- The operands of a row, one after another. -/
  | row (operands : List Expr)
  /-- The branches of a nonterminal, each of which becomes an alternative of it at once. -/
  | branches (name : String) (operands : List Expr)

namespace Job

/-- The name that a job was given. -/
def given : Job → Option String
  | .one _ given => given
  | .row _ | .branches _ _ => none

/-- A job shows what its expressions show. -/
def Exposes (inner : Expr) : Job → Prop
  | .one expr _ => expr.Exposes inner
  | .row operands | .branches _ operands => ∃ operand ∈ operands, operand.Exposes inner

section Exposes

variable {operand inner : Expr} {operands : List Expr}

/-- A row shows what its operands show. -/
theorem exposes_concat {given : Option String} (hexposes : (Job.row operands).Exposes inner) :
    (Job.one (.concat operands) given).Exposes inner := by
  obtain ⟨_, hmem, hinner⟩ := hexposes
  exact .concat hmem hinner

/-- An alternation shows what its branches show. -/
theorem exposes_alternation {name : String} {given : Option String}
    (hexposes : (Job.branches name operands).Exposes inner) :
    (Job.one (.alternation operands) given).Exposes inner := by
  obtain ⟨_, hmem, hinner⟩ := hexposes
  exact .alternation hmem hinner

/-- Operands show what the first of them shows. -/
theorem exposes_head {given : Option String} (hexposes : (Job.one operand given).Exposes inner) :
    (Job.row (operand :: operands)).Exposes inner :=
  ⟨operand, List.mem_cons_self, hexposes⟩

/-- Operands show what those after the first show. -/
theorem exposes_tail (hexposes : (Job.row operands).Exposes inner) :
    (Job.row (operand :: operands)).Exposes inner := by
  obtain ⟨other, hmem, hinner⟩ := hexposes
  exact ⟨other, List.mem_cons_of_mem _ hmem, hinner⟩

end Exposes

/-- The table agrees with the expressions of a job. -/
def Agrees (table : CaptureTable) : Job → Prop
  | .one expr _ => table.Agrees expr
  | .row operands | .branches _ operands => ∀ operand ∈ operands, table.Agrees operand

/-- Do a job with so many levels left and return the nonterminals of the expressions. -/
def perform (limits : Limits) (table : CaptureTable) (levels : Nat) : Job → LowerM (List String)
  | .one expr given => do
    let name ← lower limits table levels expr given
    return [name]
  | .row operands => operands.mapM fun operand => lower limits table levels operand none
  | .branches name operands => do
    operands.forM fun operand => do
      let inner ← lower limits table levels operand none
      addRule name [.nonterminal inner]
    return []

/-- `Succeeds limits table levels job before names after`: with so many levels left the job ends,
returns the names and turns the first state into the second. -/
inductive Succeeds (limits : Limits) (table : CaptureTable) :
    Nat → Job → Lowering → List String → Lowering → Prop where
  /-- A character gets its one alternative. -/
  | char (levels : Nat) (c : Char) (given : Option String) (before : Lowering) :
    Succeeds limits table (levels + 1) (.one (.char c) given) before [before.nameFor given .char]
      ((before.named given .char).added (before.nameFor given .char) [.terminal c])
  /-- A lookahead gets the empty alternative, whatever its body. -/
  | lookahead (levels : Nat) (body : Expr) (given : Option String) (before : Lowering) :
    Succeeds limits table (levels + 1) (.one (.lookahead body) given) before
      [before.nameFor given .lookahead]
      ((before.named given .lookahead).added (before.nameFor given .lookahead) [])
  /-- A row is added after its operands. -/
  | concat {levels : Nat} {operands : List Expr} {given : Option String} {before after : Lowering}
    {names : List String} (nonempty : operands ≠ [])
    (row : Succeeds limits table levels (.row operands) (before.named given .concat) names after) :
    Succeeds limits table (levels + 1) (.one (.concat operands) given) before
      [before.nameFor given .concat]
      (after.added (before.nameFor given .concat) (names.map .nonterminal))
  /-- An alternation has all its alternatives when its branches are done. -/
  | alternation {levels : Nat} {operands : List Expr} {given : Option String}
    {before after : Lowering} {names : List String} (nonempty : operands ≠ [])
    (branches : Succeeds limits table levels
      (.branches (before.nameFor given .alternation) operands) (before.named given .alternation)
      names after) :
    Succeeds limits table (levels + 1) (.one (.alternation operands) given) before
      [before.nameFor given .alternation] after
  /-- A repetition gets its two alternatives after its body. -/
  | star {levels : Nat} {body : Expr} {given : Option String} {before after : Lowering}
    {inner : String}
    (inside :
      Succeeds limits table levels (.one body none) (before.named given .star) [inner] after) :
    Succeeds limits table (levels + 1) (.one (.star body) given) before [before.nameFor given .star]
      ((after.added (before.nameFor given .star) []).added (before.nameFor given .star)
        [.nonterminal (before.nameFor given .star), .nonterminal inner])
  /-- A plain bracket leads to its body. -/
  | plain {levels : Nat} {body : Expr} {given : Option String} {before after : Lowering}
    {inner : String}
    (inside :
      Succeeds limits table levels (.one body none) (before.named given .plain) [inner] after) :
    Succeeds limits table (levels + 1) (.one (.plain body) given) before
      [before.nameFor given .plain]
      (after.added (before.nameFor given .plain) [.nonterminal inner])
  /-- A capture group with a number in range leads to its body. -/
  | capture {levels id : Nat} {body : Expr} {given : Option String} {before after : Lowering}
    {inner : String} (inRange : ¬(id = 0 ∨ limits.groups < id))
    (inside : Succeeds limits table levels (.one body none) (before.enrolled id) [inner] after) :
    Succeeds limits table (levels + 1) (.one (.capture id body) given) before [groupName id]
      (after.added (groupName id) [.nonterminal inner])
  /-- A reference to a group that has its name changes nothing. -/
  | known {levels id : Nat} {given : Option String} {before : Lowering}
    (registered : id ∈ before.registered) :
    Succeeds limits table (levels + 1) (.one (.reference id) given) before [groupName id] before
  /-- A reference to a group without a name lowers what the table holds for it. -/
  | forward {levels id : Nat} {body : Expr} {given : Option String} {before after : Lowering}
    {inner : String} (unregistered : id ∉ before.registered) (holds : table.get? id = some body)
    (inside : Succeeds limits table levels (.one body none) (before.enrolled id) [inner] after) :
    Succeeds limits table (levels + 1) (.one (.reference id) given) before [groupName id]
      (after.added (groupName id) [.nonterminal inner])
  /-- No operands. -/
  | rowNil (levels : Nat) (before : Lowering) :
    Succeeds limits table levels (.row []) before [] before
  /-- The first operand, then the others. -/
  | rowCons {levels : Nat} {operand : Expr} {operands : List Expr} {before between after : Lowering}
    {first : String} {names : List String}
    (head : Succeeds limits table levels (.one operand none) before [first] between)
    (tail : Succeeds limits table levels (.row operands) between names after) :
    Succeeds limits table levels (.row (operand :: operands)) before (first :: names) after
  /-- No branches. -/
  | branchesNil (levels : Nat) (name : String) (before : Lowering) :
    Succeeds limits table levels (.branches name []) before [] before
  /-- The first branch and its alternative, then the others. -/
  | branchesCons {levels : Nat} {name : String} {operand : Expr} {operands : List Expr}
    {before between after : Lowering} {first : String} {names : List String}
    (head : Succeeds limits table levels (.one operand none) before [first] between)
    (tail : Succeeds limits table levels (.branches name operands)
      (between.added name [.nonterminal first]) names after) :
    Succeeds limits table levels (.branches name (operand :: operands)) before names after

/-- `Fails limits table levels job before error after`: with so many levels left the job is cut
short by the error, and the second state is what it leaves behind. -/
inductive Fails (limits : Limits) (table : CaptureTable) :
    Nat → Job → Lowering → LowerError → Lowering → Prop where
  /-- No level is left. -/
  | tooDeep (expr : Expr) (given : Option String) (before : Lowering) :
    Fails limits table 0 (.one expr given) before (.tooDeep limits.loweringDepth) before
  /-- A row of nothing. -/
  | emptyConcat (levels : Nat) (given : Option String) (before : Lowering) :
    Fails limits table (levels + 1) (.one (.concat []) given) before
      (.malformed .emptyConcat) before
  /-- An alternation between nothing. -/
  | emptyAlternation (levels : Nat) (given : Option String) (before : Lowering) :
    Fails limits table (levels + 1) (.one (.alternation []) given) before
      (.malformed .emptyAlternation) before
  /-- A capture group with a number out of range. -/
  | outOfRange {levels id : Nat} (body : Expr) (given : Option String) (before : Lowering)
    (outside : id = 0 ∨ limits.groups < id) :
    Fails limits table (levels + 1) (.one (.capture id body) given) before
      (.malformed .groupOutOfRange) before
  /-- A reference to a group that has no name and that the table does not hold. -/
  | undefined {levels id : Nat} {given : Option String} {before : Lowering}
    (unregistered : id ∉ before.registered) (absent : table.get? id = none) :
    Fails limits table (levels + 1) (.one (.reference id) given) before (.undefinedGroup id) before
  /-- An operand of a row fails. -/
  | concat {levels : Nat} {operands : List Expr} {given : Option String} {before after : Lowering}
    {error : LowerError}
    (row : Fails limits table levels (.row operands) (before.named given .concat) error after) :
    Fails limits table (levels + 1) (.one (.concat operands) given) before error after
  /-- A branch fails. -/
  | alternation {levels : Nat} {operands : List Expr} {given : Option String}
    {before after : Lowering} {error : LowerError}
    (branches : Fails limits table levels
      (.branches (before.nameFor given .alternation) operands) (before.named given .alternation)
      error after) :
    Fails limits table (levels + 1) (.one (.alternation operands) given) before error after
  /-- The body of a repetition fails. -/
  | star {levels : Nat} {body : Expr} {given : Option String} {before after : Lowering}
    {error : LowerError}
    (inside : Fails limits table levels (.one body none) (before.named given .star) error after) :
    Fails limits table (levels + 1) (.one (.star body) given) before error after
  /-- The body of a plain bracket fails. -/
  | plain {levels : Nat} {body : Expr} {given : Option String} {before after : Lowering}
    {error : LowerError}
    (inside : Fails limits table levels (.one body none) (before.named given .plain) error after) :
    Fails limits table (levels + 1) (.one (.plain body) given) before error after
  /-- The body of a capture group fails after the group has received its name. -/
  | capture {levels id : Nat} {body : Expr} {given : Option String} {before after : Lowering}
    {error : LowerError} (inRange : ¬(id = 0 ∨ limits.groups < id))
    (inside : Fails limits table levels (.one body none) (before.enrolled id) error after) :
    Fails limits table (levels + 1) (.one (.capture id body) given) before error after
  /-- What the table holds for a group fails after the group has received its name. -/
  | forward {levels id : Nat} {body : Expr} {given : Option String} {before after : Lowering}
    {error : LowerError} (unregistered : id ∉ before.registered) (holds : table.get? id = some body)
    (inside : Fails limits table levels (.one body none) (before.enrolled id) error after) :
    Fails limits table (levels + 1) (.one (.reference id) given) before error after
  /-- The first operand fails. -/
  | rowHead {levels : Nat} {operand : Expr} (operands : List Expr) {before after : Lowering}
    {error : LowerError} (head : Fails limits table levels (.one operand none) before error after) :
    Fails limits table levels (.row (operand :: operands)) before error after
  /-- A later operand fails. -/
  | rowTail {levels : Nat} {operand : Expr} {operands : List Expr} {before between after : Lowering}
    {first : String} {error : LowerError}
    (head : Succeeds limits table levels (.one operand none) before [first] between)
    (tail : Fails limits table levels (.row operands) between error after) :
    Fails limits table levels (.row (operand :: operands)) before error after
  /-- The first branch fails. -/
  | branchesHead {levels : Nat} (name : String) {operand : Expr} (operands : List Expr)
    {before after : Lowering} {error : LowerError}
    (head : Fails limits table levels (.one operand none) before error after) :
    Fails limits table levels (.branches name (operand :: operands)) before error after
  /-- A later branch fails. -/
  | branchesTail {levels : Nat} {name : String} {operand : Expr} {operands : List Expr}
    {before between after : Lowering} {first : String} {error : LowerError}
    (head : Succeeds limits table levels (.one operand none) before [first] between)
    (tail : Fails limits table levels (.branches name operands)
      (between.added name [.nonterminal first]) error after) :
    Fails limits table levels (.branches name (operand :: operands)) before error after

/-- A result is one of the listed ends of a job. -/
def Outcome (limits : Limits) (table : CaptureTable) (levels : Nat) (job : Job)
    (before : Lowering) : EStateM.Result LowerError Lowering (List String) → Prop
  | .ok names after => Succeeds limits table levels job before names after
  | .error error after => Fails limits table levels job before error after

/-- A program goes on from where its first part ended. -/
theorem bind_of_ok {α β : Type} {first : LowerM α} {value : α} {before between : Lowering}
    (hfirst : first before = .ok value between) (rest : α → LowerM β) :
    (first >>= rest) before = rest value between := by
  show EStateM.bind first rest before = _
  rw [EStateM.bind, hfirst]

/-- A program ends where its first part fails. -/
theorem bind_of_error {α β : Type} {first : LowerM α} {error : LowerError} {before after : Lowering}
    (hfirst : first before = .error error after) (rest : α → LowerM β) :
    (first >>= rest) before = .error error after := by
  show EStateM.bind first rest before = _
  rw [EStateM.bind, hfirst]

variable {limits : Limits} {table : CaptureTable} {levels : Nat}

/-- The lowering of an expression ends as a job of one expression does. -/
theorem lower_cases {expr : Expr} {given : Option String} {before : Lowering}
    (houtcome : Outcome limits table levels (.one expr given) before
      (perform limits table levels (.one expr given) before)) :
    (∃ name after, lower limits table levels expr given before = .ok name after ∧
        Succeeds limits table levels (.one expr given) before [name] after) ∨
      ∃ error after, lower limits table levels expr given before = .error error after ∧
        Fails limits table levels (.one expr given) before error after := by
  rw [perform] at houtcome
  cases hrun : lower limits table levels expr given before with
  | ok name after =>
    rw [bind_of_ok hrun] at houtcome
    exact .inl ⟨name, after, rfl, houtcome⟩
  | error error after =>
    rw [bind_of_error hrun] at houtcome
    exact .inr ⟨error, after, rfl, houtcome⟩

section AtOneLevel

variable (hone : ∀ expr given before, Outcome limits table levels (.one expr given) before
  (perform limits table levels (.one expr given) before))
include hone

/-- A row ends as listed if each of its operands does. -/
theorem outcome_row (operands : List Expr) (before : Lowering) :
    Outcome limits table levels (.row operands) before
      (perform limits table levels (.row operands) before) := by
  induction operands generalizing before with
  | nil => exact .rowNil levels before
  | cons operand operands ih =>
    have hstep : perform limits table levels (.row (operand :: operands)) =
        (do
          let first ← lower limits table levels operand none
          let names ← perform limits table levels (.row operands)
          return first :: names) := by
      rw [perform, perform, List.mapM_cons]
    rw [hstep]
    rcases lower_cases (hone operand none before) with
      ⟨first, between, hrun, hhead⟩ | ⟨error, after, hrun, hhead⟩
    · have htail := ih between
      rw [bind_of_ok hrun]
      cases hrest : perform limits table levels (.row operands) between with
      | ok names after =>
        rw [bind_of_ok hrest]
        rw [hrest] at htail
        exact .rowCons hhead htail
      | error error after =>
        rw [bind_of_error hrest]
        rw [hrest] at htail
        exact .rowTail hhead htail
    · rw [bind_of_error hrun]
      exact .rowHead operands hhead

/-- Branches end as listed if each of them does. -/
theorem outcome_branches (name : String) (operands : List Expr) (before : Lowering) :
    Outcome limits table levels (.branches name operands) before
      (perform limits table levels (.branches name operands) before) := by
  induction operands generalizing before with
  | nil => exact .branchesNil levels name before
  | cons operand operands ih =>
    have hstep : perform limits table levels (.branches name (operand :: operands)) =
        (do
          let first ← lower limits table levels operand none
          addRule name [.nonterminal first]
          perform limits table levels (.branches name operands)) := by
      simp only [perform, List.forM, bind_assoc]
    rw [hstep]
    rcases lower_cases (hone operand none before) with
      ⟨first, between, hrun, hhead⟩ | ⟨error, after, hrun, hhead⟩
    · have htail := ih (between.added name [.nonterminal first])
      rw [bind_of_ok hrun, bind_of_ok (addRule_apply ..)]
      cases hrest : perform limits table levels (.branches name operands)
          (between.added name [.nonterminal first]) with
      | ok names after =>
        rw [hrest] at htail
        exact .branchesCons hhead htail
      | error error after =>
        rw [hrest] at htail
        exact .branchesTail hhead htail
    · rw [bind_of_error hrun]
      exact .branchesHead name operands hhead

/-- An expression ends as listed if everything below it does. -/
theorem outcome_one_succ (expr : Expr) (given : Option String) (before : Lowering) :
    Outcome limits table (levels + 1) (.one expr given) before
      (perform limits table (levels + 1) (.one expr given) before) := by
  rw [perform]
  cases expr with
  | char c =>
    rw [lower]
    rw [bind_assoc, bind_of_ok (nameOr_apply ..), bind_assoc, bind_of_ok (addRule_apply ..)]
    exact .char levels c given before
  | lookahead body =>
    rw [lower]
    rw [bind_assoc, bind_of_ok (nameOr_apply ..), bind_assoc, bind_of_ok (addRule_apply ..)]
    exact .lookahead levels body given before
  | concat operands =>
    cases operands with
    | nil => exact .emptyConcat levels given before
    | cons operand rest =>
      have hrow := outcome_row hone (operand :: rest) (before.named given .concat)
      rw [lower, if_neg (by simp), bind_assoc, bind_of_ok (nameOr_apply ..), bind_assoc]
      cases hrun :
        perform limits table levels (.row (operand :: rest)) (before.named given .concat) with
      | ok names after =>
        rw [hrun] at hrow
        rw [perform] at hrun
        rw [bind_of_ok hrun, bind_assoc, bind_of_ok (addRule_apply ..)]
        exact .concat (by simp) hrow
      | error error after =>
        rw [hrun] at hrow
        rw [perform] at hrun
        rw [bind_of_error hrun]
        exact .concat hrow
  | alternation operands =>
    cases operands with
    | nil => exact .emptyAlternation levels given before
    | cons operand rest =>
      have hbranches := outcome_branches hone (before.nameFor given .alternation) (operand :: rest)
        (before.named given .alternation)
      rw [lower, if_neg (by simp), bind_assoc, bind_of_ok (nameOr_apply ..), bind_assoc]
      rw [perform] at hbranches
      generalize (List.forM _ _ : LowerM PUnit) = program at hbranches ⊢
      cases hrun : program (before.named given .alternation) with
      | ok done after =>
        rw [bind_of_ok hrun] at hbranches ⊢
        exact .alternation (by simp) hbranches
      | error error after =>
        rw [bind_of_error hrun] at hbranches ⊢
        exact .alternation hbranches
  | star body =>
    rw [lower]
    rw [bind_assoc, bind_of_ok (nameOr_apply ..), bind_assoc]
    rcases lower_cases (hone body none (before.named given .star)) with
      ⟨inner, after, hrun, hinside⟩ | ⟨error, after, hrun, hinside⟩
    · rw [bind_of_ok hrun, bind_assoc, bind_of_ok (addRule_apply ..), bind_assoc,
        bind_of_ok (addRule_apply ..)]
      exact .star hinside
    · rw [bind_of_error hrun]
      exact .star hinside
  | plain body =>
    rw [lower]
    rw [bind_assoc, bind_of_ok (nameOr_apply ..), bind_assoc]
    rcases lower_cases (hone body none (before.named given .plain)) with
      ⟨inner, after, hrun, hinside⟩ | ⟨error, after, hrun, hinside⟩
    · rw [bind_of_ok hrun, bind_assoc, bind_of_ok (addRule_apply ..)]
      exact .plain hinside
    · rw [bind_of_error hrun]
      exact .plain hinside
  | capture id body =>
    rw [lower]
    by_cases hrange : id = 0 ∨ limits.groups < id
    · rw [if_pos hrange]
      exact .outOfRange body given before hrange
    · rw [if_neg hrange, bind_assoc, bind_of_ok (register_apply ..), bind_assoc]
      rcases lower_cases (hone body none (before.enrolled id)) with
        ⟨inner, after, hrun, hinside⟩ | ⟨error, after, hrun, hinside⟩
      · rw [bind_of_ok hrun, bind_assoc, bind_of_ok (addRule_apply ..)]
        exact .capture hrange hinside
      · rw [bind_of_error hrun]
        exact .capture hrange hinside
  | reference id =>
    have hget : (get : LowerM Lowering) before = .ok before before := rfl
    rw [lower, bind_assoc, bind_of_ok hget]
    by_cases hknown : id ∈ before.registered
    · rw [if_pos hknown]
      exact .known hknown
    · rw [if_neg hknown]
      cases hheld : table.get? id with
      | none => exact .undefined hknown hheld
      | some body =>
        dsimp only
        rw [bind_assoc, bind_of_ok (register_apply ..), bind_assoc]
        rcases lower_cases (hone body none (before.enrolled id)) with
          ⟨inner, after, hrun, hinside⟩ | ⟨error, after, hrun, hinside⟩
        · rw [bind_of_ok hrun, bind_assoc, bind_of_ok (addRule_apply ..)]
          exact .forward hknown hheld hinside
        · rw [bind_of_error hrun]
          exact .forward hknown hheld hinside

end AtOneLevel

/-- Every run of a job on one expression is one of those listed. -/
theorem outcome_perform_one (limits : Limits) (table : CaptureTable) (levels : Nat) (expr : Expr)
    (given : Option String) (before : Lowering) :
    Outcome limits table levels (.one expr given) before
      (perform limits table levels (.one expr given) before) := by
  -- A level is used up at every expression, also where a reference goes on to the table.
  induction levels generalizing expr given before with
  | zero => exact .tooDeep expr given before
  | succ levels ih => exact outcome_one_succ ih expr given before

/-- A successful run of the program is a listed success. -/
theorem succeeds_of_lower {expr : Expr} {given : Option String} {before after : Lowering}
    {name : String} (hrun : lower limits table levels expr given before = .ok name after) :
    Succeeds limits table levels (.one expr given) before [name] after := by
  have houtcome := outcome_perform_one limits table levels expr given before
  rwa [perform, bind_of_ok hrun] at houtcome

/-- A failed run of the program is a listed failure. -/
theorem fails_of_lower {expr : Expr} {given : Option String} {before after : Lowering}
    {error : LowerError} (hrun : lower limits table levels expr given before = .error error after) :
    Fails limits table levels (.one expr given) before error after := by
  have houtcome := outcome_perform_one limits table levels expr given before
  rwa [perform, bind_of_error hrun] at houtcome

/-- What a job of one expression returns is what the lowering of the expression returns. -/
theorem lower_of_perform_ok {expr : Expr} {given : Option String} {before after : Lowering}
    {name : String}
    (hperform : perform limits table levels (.one expr given) before = .ok [name] after) :
    lower limits table levels expr given before = .ok name after := by
  rw [perform] at hperform
  cases hrun : lower limits table levels expr given before with
  | ok other between =>
    rw [bind_of_ok hrun] at hperform
    cases hperform
    rfl
  | error error between =>
    rw [bind_of_error hrun] at hperform
    cases hperform

/-- A job of one expression fails where the lowering of the expression fails. -/
theorem lower_of_perform_error {expr : Expr} {given : Option String} {before after : Lowering}
    {error : LowerError}
    (hperform : perform limits table levels (.one expr given) before = .error error after) :
    lower limits table levels expr given before = .error error after := by
  rw [perform] at hperform
  cases hrun : lower limits table levels expr given before with
  | ok other between =>
    rw [bind_of_ok hrun] at hperform
    cases hperform
  | error other between =>
    rw [bind_of_error hrun] at hperform
    cases hperform
    rfl

/-- A listed success is a run of the program. -/
theorem Succeeds.perform_eq {job : Job} {before after : Lowering} {names : List String}
    (hrun : Succeeds limits table levels job before names after) :
    perform limits table levels job before = .ok names after := by
  induction hrun with
  | char levels c given before | lookahead levels body given before =>
    rw [perform, lower]
    rw [bind_assoc, bind_of_ok (nameOr_apply ..), bind_assoc, bind_of_ok (addRule_apply ..)]
    rfl
  | concat hnonempty _ ih =>
    rw [perform] at ih
    rw [perform, lower, if_neg (by simpa using hnonempty)]
    rw [bind_assoc, bind_of_ok (nameOr_apply ..), bind_assoc, bind_of_ok ih, bind_assoc,
      bind_of_ok (addRule_apply ..)]
    rfl
  | @alternation levels operands given before after names hnonempty _ ih =>
    rw [perform] at ih
    rw [perform, lower, if_neg (by simpa using hnonempty)]
    rw [bind_assoc, bind_of_ok (nameOr_apply ..), bind_assoc]
    generalize (List.forM _ _ : LowerM PUnit) = program at ih ⊢
    cases hbranches : program (before.named given .alternation) with
    | ok done between =>
      rw [bind_of_ok hbranches] at ih ⊢
      cases ih
      rfl
    | error error between =>
      rw [bind_of_error hbranches] at ih
      cases ih
  | star _ ih =>
    rw [perform, lower, bind_assoc, bind_of_ok (nameOr_apply ..), bind_assoc,
      bind_of_ok (lower_of_perform_ok ih),
      bind_assoc, bind_of_ok (addRule_apply ..), bind_assoc, bind_of_ok (addRule_apply ..)]
    rfl
  | plain _ ih =>
    rw [perform, lower, bind_assoc, bind_of_ok (nameOr_apply ..), bind_assoc,
      bind_of_ok (lower_of_perform_ok ih),
      bind_assoc, bind_of_ok (addRule_apply ..)]
    rfl
  | capture hrange _ ih =>
    rw [perform, lower, if_neg hrange, bind_assoc, bind_of_ok (register_apply ..), bind_assoc,
      bind_of_ok (lower_of_perform_ok ih), bind_assoc, bind_of_ok (addRule_apply ..)]
    rfl
  | @known levels id given before hregistered =>
    have hget : (get : LowerM Lowering) before = .ok before before := rfl
    rw [perform, lower, bind_assoc, bind_of_ok hget, if_pos hregistered]
    rfl
  | @forward levels id body given before after inner hunregistered hholds _ ih =>
    have hget : (get : LowerM Lowering) before = .ok before before := rfl
    rw [perform, lower, bind_assoc, bind_of_ok hget, if_neg hunregistered, hholds]
    dsimp only
    rw [bind_assoc, bind_of_ok (register_apply ..), bind_assoc,
      bind_of_ok (lower_of_perform_ok ih), bind_assoc, bind_of_ok (addRule_apply ..)]
    rfl
  | rowNil | branchesNil => rfl
  | rowCons _ _ ihhead ihtail =>
    rw [perform] at ihtail
    rw [perform, List.mapM_cons, bind_of_ok (lower_of_perform_ok ihhead), bind_of_ok ihtail]
    rfl
  | branchesCons _ _ ihhead ihtail =>
    rw [perform] at ihtail
    simp only [perform, List.forM, bind_assoc]
    rw [bind_of_ok (lower_of_perform_ok ihhead), bind_of_ok (addRule_apply ..)]
    exact ihtail

/-- A listed failure is a run of the program. -/
theorem Fails.perform_eq {job : Job} {before after : Lowering} {error : LowerError}
    (hfails : Fails limits table levels job before error after) :
    perform limits table levels job before = .error error after := by
  induction hfails with
  | tooDeep | emptyConcat | emptyAlternation => rfl
  | outOfRange body given before houtside =>
    rw [perform, lower, if_pos houtside]
    rfl
  | @undefined levels id given before hunregistered habsent =>
    have hget : (get : LowerM Lowering) before = .ok before before := rfl
    rw [perform, lower, bind_assoc, bind_of_ok hget, if_neg hunregistered, habsent]
    rfl
  | @concat levels operands given before after error hrow ih =>
    have hnonempty : operands ≠ [] := by
      rintro rfl
      cases hrow
    rw [perform] at ih
    rw [perform, lower, if_neg (by simpa using hnonempty)]
    rw [bind_assoc, bind_of_ok (nameOr_apply ..), bind_assoc, bind_of_error ih]
  | @alternation levels operands given before after error hbranches ih =>
    have hnonempty : operands ≠ [] := by
      rintro rfl
      cases hbranches
    rw [perform] at ih
    rw [perform, lower, if_neg (by simpa using hnonempty)]
    rw [bind_assoc, bind_of_ok (nameOr_apply ..), bind_assoc]
    generalize (List.forM _ _ : LowerM PUnit) = program at ih ⊢
    cases hbranches : program (before.named given .alternation) with
    | ok done between =>
      rw [bind_of_ok hbranches] at ih
      cases ih
    | error error between =>
      rw [bind_of_error hbranches] at ih ⊢
      exact ih
  | star _ ih | plain _ ih =>
    rw [perform, lower, bind_assoc, bind_of_ok (nameOr_apply ..), bind_assoc,
      bind_of_error (lower_of_perform_error ih)]
  | capture hrange _ ih =>
    rw [perform, lower, if_neg hrange, bind_assoc, bind_of_ok (register_apply ..), bind_assoc,
      bind_of_error (lower_of_perform_error ih)]
  | @forward levels id body given before after error hunregistered hholds _ ih =>
    have hget : (get : LowerM Lowering) before = .ok before before := rfl
    rw [perform, lower, bind_assoc, bind_of_ok hget, if_neg hunregistered, hholds]
    dsimp only
    rw [bind_assoc, bind_of_ok (register_apply ..), bind_assoc,
      bind_of_error (lower_of_perform_error ih)]
  | rowHead _ _ ih =>
    rw [perform, List.mapM_cons, bind_of_error (lower_of_perform_error ih)]
  | rowTail hhead _ ih =>
    rw [perform] at ih
    rw [perform, List.mapM_cons, bind_of_ok (lower_of_perform_ok hhead.perform_eq),
      bind_of_error ih]
  | branchesHead _ _ _ ih =>
    simp only [perform, List.forM, bind_assoc]
    rw [bind_of_error (lower_of_perform_error ih)]
  | branchesTail hhead _ ih =>
    rw [perform] at ih
    simp only [perform, List.forM, bind_assoc]
    rw [bind_of_ok (lower_of_perform_ok hhead.perform_eq), bind_of_ok (addRule_apply ..)]
    exact ih

/-- What every change of the state keeps is kept by a successful run. -/
theorem Succeeds.preserves {P : Lowering → Prop} {job : Job} {before after : Lowering}
    {names : List String} (hrun : Succeeds limits table levels job before names after)
    (hstable : Stable P) (hbefore : P before) : P after := by
  induction hrun with
  | char | lookahead => exact hstable.added _ _ _ (hstable.named _ _ _ hbefore)
  | concat _ _ ih | plain _ ih => exact hstable.added _ _ _ (ih (hstable.named _ _ _ hbefore))
  | alternation _ _ ih => exact ih (hstable.named _ _ _ hbefore)
  | star _ ih =>
    exact hstable.added _ _ _ (hstable.added _ _ _ (ih (hstable.named _ _ _ hbefore)))
  | capture _ _ ih | forward _ _ _ ih =>
    exact hstable.added _ _ _ (ih (hstable.enrolled _ _ hbefore))
  | known | rowNil | branchesNil => exact hbefore
  | rowCons _ _ ihhead ihtail => exact ihtail (ihhead hbefore)
  | branchesCons _ _ ihhead ihtail => exact ihtail (hstable.added _ _ _ (ihhead hbefore))

/-- What every change of the state keeps is kept by a run that fails. -/
theorem Fails.preserves {P : Lowering → Prop} {job : Job} {before after : Lowering}
    {error : LowerError} (hfails : Fails limits table levels job before error after)
    (hstable : Stable P) (hbefore : P before) : P after := by
  induction hfails with
  | tooDeep | emptyConcat | emptyAlternation | outOfRange | undefined => exact hbefore
  | concat _ ih | alternation _ ih | star _ ih | plain _ ih =>
    exact ih (hstable.named _ _ _ hbefore)
  | capture _ _ ih | forward _ _ _ ih => exact ih (hstable.enrolled _ _ hbefore)
  | rowHead _ _ ih | branchesHead _ _ _ ih => exact ih hbefore
  | rowTail hhead _ ih => exact ih (hhead.preserves hstable hbefore)
  | branchesTail hhead _ ih => exact ih (hstable.added _ _ _ (hhead.preserves hstable hbefore))

/-- A successful run leaves every group its name. -/
theorem Succeeds.registered_mono {job : Job} {before after : Lowering} {names : List String}
    (hrun : Succeeds limits table levels job before names after) :
    before.registered ⊆ after.registered :=
  hrun.preserves (stable_registered before.registered) fun _ hmem => hmem

/-- A run that fails leaves every group its name. -/
theorem Fails.registered_mono {job : Job} {before after : Lowering} {error : LowerError}
    (hfails : Fails limits table levels job before error after) :
    before.registered ⊆ after.registered :=
  hfails.preserves (stable_registered before.registered) fun _ hmem => hmem

/-- A successful run takes no alternative away. -/
theorem Succeeds.produces_mono {job : Job} {before after : Lowering} {names : List String}
    (hrun : Succeeds limits table levels job before names after) {name : String}
    {alternative : Alternative} (hproduces : before.grammar.Produces name alternative) :
    after.grammar.Produces name alternative :=
  hrun.preserves (stable_produces name alternative) hproduces

end Job

/-- The first definition, then the others on the state that it leaves. -/
theorem defineAll_cons (limits : Limits) (table : CaptureTable) (state : Lowering) (name : String)
    (expr : Expr) (rest : List (String × Expr)) :
    defineAll limits table state ((name, expr) :: rest) =
      ((define limits table state name expr).1 ::
          (defineAll limits table (define limits table state name expr).2 rest).1,
        (defineAll limits table (define limits table state name expr).2 rest).2) := rfl

variable {limits : Limits} {table : CaptureTable} {state next : Lowering} {name result : String}
  {expr : Expr}

/-- The answers of several definitions come from the first and from the others after it. -/
theorem define_of_defineAll_cons {rest : List (String × Expr)} {answer : Except LowerError String}
    {answers : List (Except LowerError String)} {last : Lowering}
    (hdefine : defineAll limits table state ((name, expr) :: rest) = (answer :: answers, last)) :
    ∃ next, define limits table state name expr = (answer, next) ∧
      defineAll limits table next rest = (answers, last) := by
  rw [defineAll_cons] at hdefine
  obtain ⟨hanswers, hlast⟩ := Prod.mk.inj hdefine
  obtain ⟨hanswer, hothers⟩ := List.cons.inj hanswers
  exact ⟨_, Prod.ext hanswer rfl, Prod.ext hothers hlast⟩

/-- A definition with an answer is a successful run. -/
theorem succeeds_of_define (hdefine : define limits table state name expr = (.ok result, next)) :
    Job.Succeeds limits table limits.loweringDepth (.one expr (some name)) state [result] next := by
  unfold define at hdefine
  split at hdefine
  next hrun =>
    cases hdefine
    exact Job.succeeds_of_lower hrun
  next => cases hdefine

/-- A definition with an error is a failed run. -/
theorem fails_of_define {error : LowerError}
    (hdefine : define limits table state name expr = (.error error, next)) :
    Job.Fails limits table limits.loweringDepth (.one expr (some name)) state error next := by
  unfold define at hdefine
  split at hdefine
  next => cases hdefine
  next hrun =>
    cases hdefine
    exact Job.fails_of_lower hrun

/-- What every change of the state keeps is kept by definitions, whether or not they succeed. -/
theorem defineAll_preserves (limits : Limits) (table : CaptureTable) {P : Lowering → Prop}
    (hstable : Stable P) (steps : List (String × Expr)) (hstate : P state) :
    P (defineAll limits table state steps).2 := by
  induction steps generalizing state with
  | nil => exact hstate
  | cons step rest ih =>
    obtain ⟨name, expr⟩ := step
    rw [defineAll_cons]
    refine ih ?_
    cases hdefine : define limits table state name expr with
    | mk answer next =>
      cases answer with
      | ok result => exact (succeeds_of_define hdefine).preserves hstable hstate
      | error error => exact (fails_of_define hdefine).preserves hstable hstate

end PatternGrammar.Lowering

namespace PatternGrammar.Pattern

/-- A grammar comes from a successful run on the whole expression. -/
theorem succeeds_of_toGrammar {pattern : Pattern} {grammar : Grammar}
    (hgrammar : pattern.toGrammar = .ok grammar) :
    ∃ top state, grammar = state.grammar.add Grammar.startName [.nonterminal top] ∧
      Lowering.Job.Succeeds .standard pattern.captures Limits.standard.loweringDepth
        (.one pattern.root none) .start [top] state := by
  unfold toGrammar at hgrammar
  dsimp only [EStateM.run] at hgrammar
  split at hgrammar
  next top state hrun =>
    cases hgrammar
    exact ⟨top, state, rfl, Lowering.Job.succeeds_of_lower hrun⟩
  next => cases hgrammar

/-- An error comes from a failed run on the whole expression. -/
theorem fails_of_toGrammar {pattern : Pattern} {error : LowerError}
    (herror : pattern.toGrammar = .error error) :
    ∃ state, Lowering.Job.Fails .standard pattern.captures Limits.standard.loweringDepth
      (.one pattern.root none) .start error state := by
  unfold toGrammar at herror
  dsimp only [EStateM.run] at herror
  split at herror
  next => cases herror
  next other state hrun =>
    cases herror
    exact ⟨state, Lowering.Job.fails_of_lower hrun⟩

end PatternGrammar.Pattern
