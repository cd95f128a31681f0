import PatternGrammar.Proofs.Lowering.Closure

/-!
# What failed definitions leave behind

A group receives its name before its body is lowered and keeps it when the body fails. Later
definitions on the same state find the name and use it, so a nonterminal without a rule can come to
stand on right-hand sides or be returned by a definition that succeeds. This is all that can go
wrong: the lowering of such a group was begun by a definition that failed, and an error cut it
short. Nothing is assumed about the expressions, the table or the chosen names, which may be names
that lowering makes by itself.
-/

namespace PatternGrammar.Lowering

/-- A call of the lowering on one expression. -/
structure Call where
  /-- The levels that may still be followed. -/
  levels : Nat
  /-- The expression. -/
  expr : Expr
  /-- The name given to it. -/
  given : Option String
  /-- The state on which it is lowered. -/
  state : Lowering

namespace Call

/-- What the call comes to. -/
def result (limits : Limits) (table : CaptureTable) (call : Call) :
    EStateM.Result LowerError Lowering String :=
  lower limits table call.levels call.expr call.given call.state

/-- `Enters limits table outer inner`: the first call makes the second one for a part of its
expression, or for what the table holds for the group that it refers to. -/
inductive Enters (limits : Limits) (table : CaptureTable) : Call → Call → Prop where
  /-- An operand of a row, when those before it have been lowered. -/
  | operand {levels : Nat} {front back : List Expr} {operand : Expr} {given : Option String}
    {before between : Lowering} {names : List String}
    (lowered : Job.perform limits table levels (.row front) (before.named given .concat) =
      .ok names between) :
    Enters limits table ⟨levels + 1, .concat (front ++ operand :: back), given, before⟩
      ⟨levels, operand, none, between⟩
  /-- A branch, when those before it have been lowered. -/
  | branch {levels : Nat} {front back : List Expr} {operand : Expr} {given : Option String}
    {before between : Lowering} {names : List String}
    (lowered : Job.perform limits table levels (.branches (before.nameFor given .alternation) front)
      (before.named given .alternation) = .ok names between) :
    Enters limits table ⟨levels + 1, .alternation (front ++ operand :: back), given, before⟩
      ⟨levels, operand, none, between⟩
  /-- The body of a repetition. -/
  | star (levels : Nat) (body : Expr) (given : Option String) (before : Lowering) :
    Enters limits table ⟨levels + 1, .star body, given, before⟩
      ⟨levels, body, none, before.named given .star⟩
  /-- The body of a plain bracket. -/
  | plain (levels : Nat) (body : Expr) (given : Option String) (before : Lowering) :
    Enters limits table ⟨levels + 1, .plain body, given, before⟩
      ⟨levels, body, none, before.named given .plain⟩
  /-- The body of a capture group, when the group has received its name. -/
  | capture {levels id : Nat} (body : Expr) (given : Option String) (before : Lowering)
    (inRange : ¬(id = 0 ∨ limits.groups < id)) :
    Enters limits table ⟨levels + 1, .capture id body, given, before⟩
      ⟨levels, body, none, before.enrolled id⟩
  /-- What the table holds for a group that had no name, when the group has received it. -/
  | forward {levels id : Nat} {body : Expr} (given : Option String) {before : Lowering}
    (unregistered : id ∉ before.registered) (holds : table.get? id = some body) :
    Enters limits table ⟨levels + 1, .reference id, given, before⟩
      ⟨levels, body, none, before.enrolled id⟩

/-- `Opens limits table call id`: the call lowers the group, because its expression captures the
group or is the first reference to it. -/
inductive Opens (limits : Limits) (table : CaptureTable) : Call → Nat → Prop where
  /-- A capture group with a number in range. -/
  | capture {levels id : Nat} (body : Expr) (given : Option String) (before : Lowering)
    (inRange : ¬(id = 0 ∨ limits.groups < id)) :
    Opens limits table ⟨levels + 1, .capture id body, given, before⟩ id
  /-- A reference to a group that has no name and that the table holds. -/
  | forward {levels id : Nat} {body : Expr} (given : Option String) {before : Lowering}
    (unregistered : id ∉ before.registered) (holds : table.get? id = some body) :
    Opens limits table ⟨levels + 1, .reference id, given, before⟩ id

/-- In the course of the call the lowering of the group is begun, and an error cuts it short. -/
def CutsShort (limits : Limits) (table : CaptureTable) (call : Call) (id : Nat) : Prop :=
  ∃ inner error after, Relation.ReflTransGen (Enters limits table) call inner ∧
    inner.Opens limits table id ∧ inner.result limits table = .error error after

/-- What an inner call cuts short is cut short in the course of the outer one. -/
theorem CutsShort.of_enters {limits : Limits} {table : CaptureTable} {outer inner : Call} {id : Nat}
    (henters : Enters limits table outer inner) (hcut : inner.CutsShort limits table id) :
    outer.CutsShort limits table id := by
  obtain ⟨innermost, error, after, hreaches, hopens, hresult⟩ := hcut
  exact ⟨innermost, error, after, .head henters hreaches, hopens, hresult⟩

end Call

namespace Job

/-- In the course of a job the lowering of the group is begun, and an error cuts it short. -/
def CutsShort (limits : Limits) (table : CaptureTable) (levels : Nat) (before : Lowering)
    (id : Nat) : Job → Prop
  | .one expr given => Call.CutsShort limits table ⟨levels, expr, given, before⟩ id
  | .row operands => ∃ front operand back names between, operands = front ++ operand :: back ∧
      Succeeds limits table levels (.row front) before names between ∧
      Call.CutsShort limits table ⟨levels, operand, none, between⟩ id
  | .branches name operands => ∃ front operand back names between,
      operands = front ++ operand :: back ∧
      Succeeds limits table levels (.branches name front) before names between ∧
      Call.CutsShort limits table ⟨levels, operand, none, between⟩ id

variable {limits : Limits} {table : CaptureTable} {levels id : Nat}
  {before between after : Lowering} {error : LowerError} {pending among : Set String}

/-- What is cut short in a row is cut short in the concatenation. -/
theorem cutsShort_concat {operands : List Expr} {given : Option String}
    (hcut : (Job.row operands).CutsShort limits table levels (before.named given .concat) id) :
    (Job.one (.concat operands) given).CutsShort limits table (levels + 1) before id := by
  obtain ⟨front, operand, back, names, between, rfl, hfront, hcut⟩ := hcut
  exact hcut.of_enters (.operand hfront.perform_eq)

/-- What is cut short in the branches is cut short in the alternation. -/
theorem cutsShort_alternation {operands : List Expr} {given : Option String}
    (hcut : (Job.branches (before.nameFor given .alternation) operands).CutsShort limits table
      levels (before.named given .alternation) id) :
    (Job.one (.alternation operands) given).CutsShort limits table (levels + 1) before id := by
  obtain ⟨front, operand, back, names, between, rfl, hfront, hcut⟩ := hcut
  exact hcut.of_enters (.branch hfront.perform_eq)

/-- What is cut short in later operands is cut short in the row, if the first operand succeeds. -/
theorem cutsShort_rowTail {operand : Expr} {operands : List Expr} {first : String}
    (hhead : Succeeds limits table levels (.one operand none) before [first] between)
    (hcut : (Job.row operands).CutsShort limits table levels between id) :
    (Job.row (operand :: operands)).CutsShort limits table levels before id := by
  obtain ⟨front, other, back, names, last, rfl, hfront, hcut⟩ := hcut
  exact ⟨operand :: front, other, back, first :: names, last, rfl, .rowCons hhead hfront, hcut⟩

/-- What is cut short in later branches is cut short in the branches, if the first branch
succeeds. -/
theorem cutsShort_branchesTail {name : String} {operand : Expr} {operands : List Expr}
    {first : String}
    (hhead : Succeeds limits table levels (.one operand none) before [first] between)
    (hcut : (Job.branches name operands).CutsShort limits table levels
      (between.added name [.nonterminal first]) id) :
    (Job.branches name (operand :: operands)).CutsShort limits table levels before id := by
  obtain ⟨front, other, back, names, last, rfl, hfront, hcut⟩ := hcut
  exact ⟨operand :: front, other, back, names, last, rfl, .branchesCons hhead hfront, hcut⟩

/-- A run that fails leaves nothing pending that was not pending before it, except groups that have
their name and whose lowering it cut short. -/
theorem Fails.closed {job : Job} (hfails : Fails limits table levels job before error after)
    (hclosed : Closed pending before) (hpending : pending ⊆ among)
    (hcut : ∀ id ∈ after.registered, job.CutsShort limits table levels before id →
      groupName id ∈ among) :
    Closed among after := by
  -- The set that is allowed in the end is fixed, what is pending grows by each group on the way to
  -- the error.
  induction hfails generalizing pending with
  | tooDeep | emptyConcat | emptyAlternation | outOfRange | undefined => exact hclosed.mono hpending
  | concat _ ih =>
    exact ih (hclosed.named _ _) hpending fun id hmem hpart => hcut id hmem (cutsShort_concat hpart)
  | alternation _ ih =>
    exact ih (hclosed.named _ _) hpending fun id hmem hpart =>
      hcut id hmem (cutsShort_alternation hpart)
  | star _ ih =>
    exact ih (hclosed.named _ _) hpending fun id hmem hpart =>
      hcut id hmem (hpart.of_enters (.star ..))
  | plain _ ih =>
    exact ih (hclosed.named _ _) hpending fun id hmem hpart =>
      hcut id hmem (hpart.of_enters (.plain ..))
  | @capture levels id body given before after error hrange hinside ih =>
    have hself : groupName id ∈ among := by
      refine hcut id (hinside.registered_mono ((mem_registered_enrolled ..).mpr (.inl rfl))) ?_
      exact ⟨_, error, after, .refl, .capture _ _ _ hrange,
        lower_of_perform_error (Fails.capture hrange hinside).perform_eq⟩
    refine ih (hclosed.enrolled id) (Set.insert_subset hself hpending) fun other hmem hpart => ?_
    exact hcut other hmem (hpart.of_enters (.capture _ _ _ hrange))
  | @forward levels id body given before after error hnew hholds hinside ih =>
    have hself : groupName id ∈ among := by
      refine hcut id (hinside.registered_mono ((mem_registered_enrolled ..).mpr (.inl rfl))) ?_
      exact ⟨_, error, after, .refl, .forward _ hnew hholds,
        lower_of_perform_error (Fails.forward hnew hholds hinside).perform_eq⟩
    refine ih (hclosed.enrolled id) (Set.insert_subset hself hpending) fun other hmem hpart => ?_
    exact hcut other hmem (hpart.of_enters (.forward _ hnew hholds))
  | @rowHead levels operand operands before after error _ ih =>
    exact ih hclosed hpending fun id hmem hpart =>
      hcut id hmem ⟨[], operand, operands, [], before, rfl, .rowNil .., hpart⟩
  | rowTail hhead _ ih =>
    exact ih (hhead.closed hclosed).1 hpending fun id hmem hpart =>
      hcut id hmem (cutsShort_rowTail hhead hpart)
  | @branchesHead levels name operand operands before after error _ ih =>
    exact ih hclosed hpending fun id hmem hpart =>
      hcut id hmem ⟨[], operand, operands, [], before, rfl, .branchesNil .., hpart⟩
  | @branchesTail levels name operand operands before between after first error hhead _ ih =>
    obtain ⟨hbetween, hfirst⟩ := hhead.closed hclosed
    exact ih (hbetween.added_row hfirst name) hpending fun id hmem hpart =>
      hcut id hmem (cutsShort_branchesTail hhead hpart)

end Job

/-- A definition of the sequence fails, and in its course the lowering of the group is cut short. -/
def Interrupted (limits : Limits) (table : CaptureTable) (state : Lowering)
    (steps : List (String × Expr)) (id : Nat) : Prop :=
  ∃ front name expr back error, steps = front ++ (name, expr) :: back ∧
    (define limits table (defineAll limits table state front).2 name expr).1 = .error error ∧
    Call.CutsShort limits table
      ⟨limits.loweringDepth, expr, some name, (defineAll limits table state front).2⟩ id

variable {limits : Limits} {table : CaptureTable} {state : Lowering} {name : String} {expr : Expr}
  {rest steps : List (String × Expr)} {id : Nat} {pending : Set String}

/-- A later definition is also one of the whole sequence. -/
theorem Interrupted.cons
    (hrest : Interrupted limits table (define limits table state name expr).2 rest id) :
    Interrupted limits table state ((name, expr) :: rest) id := by
  obtain ⟨front, other, inner, back, error, rfl, herror, hcut⟩ := hrest
  exact ⟨(name, expr) :: front, other, inner, back, error, rfl, herror, hcut⟩

/-- Where the lowering of a group is interrupted, one of the answers is an error. -/
theorem Interrupted.error_mem (hinterrupted : Interrupted limits table state steps id) :
    ∃ error, .error error ∈ (defineAll limits table state steps).1 := by
  obtain ⟨front, name, expr, back, error, rfl, herror, -⟩ := hinterrupted
  refine ⟨error, ?_⟩
  induction front generalizing state with
  | nil =>
    rw [List.nil_append, defineAll_cons]
    exact List.mem_cons.mpr (.inl herror.symm)
  | cons step front ih =>
    rw [List.cons_append, defineAll_cons]
    exact List.mem_cons_of_mem _ (ih herror)

/-- Definitions leave nothing pending that was not pending before them, except groups whose lowering
was interrupted, and the same is true of the names that they return. -/
theorem closed_defineAll (limits : Limits) (table : CaptureTable) (steps : List (String × Expr))
    (among : Set String) (hclosed : Closed pending state) (hpending : pending ⊆ among)
    (hinterrupted : ∀ id ∈ (defineAll limits table state steps).2.registered,
      Interrupted limits table state steps id → groupName id ∈ among) :
    Closed among (defineAll limits table state steps).2 ∧
      ∀ name, .ok name ∈ (defineAll limits table state steps).1 →
        Known among (defineAll limits table state steps).2 name := by
  induction steps generalizing state pending with
  | nil => exact ⟨hclosed.mono hpending, nofun⟩
  | cons step rest ih =>
    obtain ⟨name, expr⟩ := step
    rw [defineAll_cons] at hinterrupted ⊢
    have hlater :
        ∀ id ∈ (defineAll limits table (define limits table state name expr).2 rest).2.registered,
          Interrupted limits table (define limits table state name expr).2 rest id →
            groupName id ∈ among :=
      fun id hmem hrest => hinterrupted id hmem hrest.cons
    cases hdefine : define limits table state name expr with
    | mk answer next =>
      rw [hdefine] at hinterrupted hlater
      cases answer with
      | ok result =>
        obtain ⟨hnext, hresult⟩ := (succeeds_of_define hdefine).closed hclosed
        obtain ⟨hlast, hnames⟩ := ih hnext hpending hlater
        refine ⟨hlast, fun other hmem => ?_⟩
        rcases List.mem_cons.mp hmem with heq | hmem
        · cases heq
          have hknown := (hresult result (List.mem_singleton_self result)).mono hpending
          exact hknown.imp_left fun hrule =>
            defineAll_preserves limits table (stable_nonterminals next.grammar.nonterminals) rest
              (fun _ hmem => hmem) hrule
        · exact hnames other hmem
      | error error =>
        -- What the failed definition cut short is among the groups interrupted in the sequence.
        have hnext : Closed among next := by
          refine (fails_of_define hdefine).closed hclosed hpending fun id hmem hcut => ?_
          have hregistered :=
            defineAll_preserves limits table (stable_registered next.registered) rest
              (fun _ hmem => hmem) hmem
          refine hinterrupted id hregistered ⟨[], name, expr, rest, error, rfl, ?_, hcut⟩
          exact congrArg Prod.fst hdefine
        obtain ⟨hlast, hnames⟩ := ih hnext (Set.Subset.refl among) hlater
        refine ⟨hlast, fun other hmem => ?_⟩
        rcases List.mem_cons.mp hmem with heq | hmem
        · cases heq
        · exact hnames other hmem

/-- Whatever definitions leave without a rule, although it stands on a right-hand side or was
returned, is the nonterminal of a group that has its name and whose lowering was cut short by an
error in a definition that failed. If no definition failed, nothing is left without a rule. -/
theorem ruleless_defineAll {limits : Limits} {table : CaptureTable} {steps : List (String × Expr)}
    {answers : List (Except LowerError String)} {last : Lowering}
    (hdefine : defineAll limits table .start steps = (answers, last)) :
    ((∀ error, .error error ∉ answers) →
      (∀ name, .ok name ∈ answers → name ∈ last.grammar.nonterminals) ∧
        last.grammar.dangling = []) ∧
    ∀ name, name ∈ last.grammar.dangling ∨ .ok name ∈ answers ∧ name ∉ last.grammar.nonterminals →
      ∃ id, name = groupName id ∧ id ∈ last.registered ∧
        Interrupted limits table .start steps id := by
  have hall := closed_defineAll limits table steps
    {name | ∃ id, name = groupName id ∧ id ∈ last.registered ∧
      Interrupted limits table .start steps id}
    closed_start (Set.empty_subset _)
    fun id hmem hinterrupted => ⟨id, rfl, by rwa [hdefine] at hmem, hinterrupted⟩
  rw [hdefine] at hall
  obtain ⟨hclosed, hreturned⟩ := hall
  have hresidue : ∀ name, name ∈ last.grammar.dangling ∨
      .ok name ∈ answers ∧ name ∉ last.grammar.nonterminals →
      ∃ id, name = groupName id ∧ id ∈ last.registered ∧
        Interrupted limits table .start steps id := by
    rintro name (hdangling | ⟨hanswer, hruleless⟩)
    · obtain ⟨hsymbol, hruleless⟩ := (Grammar.mem_dangling ..).mp hdangling
      exact (hclosed.symbols name hsymbol).resolve_left hruleless
    · exact (hreturned name hanswer).resolve_left hruleless
  refine ⟨fun hsucceed => ?_, hresidue⟩
  have hnone (id : Nat) : ¬Interrupted limits table .start steps id := by
    intro hinterrupted
    obtain ⟨error, hmem⟩ := hinterrupted.error_mem
    rw [hdefine] at hmem
    exact hsucceed error hmem
  constructor
  · intro name hanswer
    by_contra hruleless
    obtain ⟨id, -, -, hinterrupted⟩ := hresidue name (.inr ⟨hanswer, hruleless⟩)
    exact hnone id hinterrupted
  · refine List.eq_nil_iff_forall_not_mem.mpr fun name hdangling => ?_
    obtain ⟨id, -, -, hinterrupted⟩ := hresidue name (.inl hdangling)
    exact hnone id hinterrupted

/-- A group fails behind a reference to itself in the first definition. The second puts its
nonterminal on a right-hand side and the third returns it, although it has no rule. -/
theorem ruleless_defineAll_abandoned :
    ∃ (table : CaptureTable) (steps : List (String × Expr)) (last : Lowering),
      table = .ofList [(2, .concat [.reference 2, .reference 5])] ∧
      steps = [("First", .plain (.reference 2)), ("Second", .star (.reference 2)),
        ("Third", .reference 2)] ∧
      defineAll .standard table .start steps =
        ([.error (.undefinedGroup 5), .ok "Second", .ok "Group2"], last) ∧
      last.grammar.dangling = ["Group2"] ∧
      ∃ id, "Group2" = groupName id ∧ id ∈ last.registered ∧
        Interrupted .standard table .start steps id := by
  refine ⟨_, _, ?last, rfl, rfl, ?defined, ?dangling,
    (ruleless_defineAll ?defined).2 "Group2" (.inl ?_)⟩
  case defined => rfl
  case dangling => decide +kernel
  decide +kernel

end PatternGrammar.Lowering
