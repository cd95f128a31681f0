import Mathlib.Data.List.Infix
import PatternGrammar.Proofs.Lowering.Counted
import PatternGrammar.Proofs.Lowering.Definitions
import PatternGrammar.Proofs.Lowering.Forms

/-!
# What a lowering cannot undo

A lowering only ever adds to its state: rules and alternatives come after those that are there,
counters rise and groups keep their names. This is true of every change that a run makes, and so of
runs that end with an error as well. What earlier definitions have left behind can therefore be felt
only through the groups that have a name already. An expression that refers to no group comes to the
same answer whatever was defined before it, although the names that are made on the way differ.
-/

namespace PatternGrammar.Lowering

/-- The second state has all that the first has, in the same order, and possibly more. -/
structure Extends (before after : Lowering) : Prop where
  /-- Nonterminals keep their places. -/
  nonterminals : before.grammar.nonterminals <+: after.grammar.nonterminals
  /-- Alternatives keep their places. -/
  alternatives : ∀ name alternatives, before.grammar.alternatives? name = some alternatives →
    ∃ extended, after.grammar.alternatives? name = some extended ∧ alternatives <+: extended
  /-- No counter falls. -/
  counters : ∀ kind, before.counters.get kind ≤ after.counters.get kind
  /-- Groups keep their names. -/
  registered : before.registered ⊆ after.registered

/-- Every state has what it has. -/
theorem extends_refl (state : Lowering) : state.Extends state where
  nonterminals := List.prefix_rfl
  alternatives := fun _ alternatives hsome => ⟨alternatives, hsome, List.prefix_rfl⟩
  counters := fun _ => Nat.le_refl _
  registered := List.Subset.refl _

/-- No change of a lowering takes anything away. -/
theorem stable_extends (before : Lowering) : Stable before.Extends where
  named := by
    intro state given kind hextends
    constructor
    · rw [grammar_named]
      exact hextends.nonterminals
    · rw [grammar_named]
      exact hextends.alternatives
    · intro other
      exact Nat.le_trans (hextends.counters other) (counters_named_le state given kind other)
    · rw [registered_named]
      exact hextends.registered
  added := by
    intro state name alternative hextends
    constructor
    · rw [added, Grammar.nonterminals_add]
      split
      · exact hextends.nonterminals
      · exact hextends.nonterminals.trans (List.prefix_append _ _)
    · intro other alternatives hsome
      obtain ⟨extended, hextended, hprefix⟩ := hextends.alternatives other alternatives hsome
      rw [added, Grammar.alternatives?_add]
      split
      next hsame =>
        subst hsame
        rw [hextended]
        exact ⟨_, rfl, hprefix.trans (List.prefix_append _ _)⟩
      next => exact ⟨extended, hextended, hprefix⟩
    · exact hextends.counters
    · exact hextends.registered
  enrolled := by
    intro state id hextends
    constructor
    · rw [grammar_enrolled]
      exact hextends.nonterminals
    · rw [grammar_enrolled]
      exact hextends.alternatives
    · rw [counters_enrolled]
      exact hextends.counters
    · exact (stable_registered before.registered).enrolled state id hextends.registered

namespace Job

variable {limits : Limits} {table : CaptureTable} {levels : Nat} {job other : Job}
  {before after : Lowering}

/-- Two jobs on the same expressions, whatever the names. -/
inductive Alike : Job → Job → Prop where
  /-- One expression under two names. -/
  | one (expr : Expr) (given other : Option String) : Alike (.one expr given) (.one expr other)
  /-- The same operands. -/
  | row (operands : List Expr) : Alike (.row operands) (.row operands)
  /-- The branches of two nonterminals. -/
  | branches (name other : String) (operands : List Expr) :
    Alike (.branches name operands) (.branches other operands)

/-- A job on one expression returns one name. -/
theorem Succeeds.one_names {expr : Expr} {given : Option String} {names : List String}
    (hrun : Succeeds limits table levels (.one expr given) before names after) :
    ∃ name, names = [name] := by
  cases hrun <;> exact ⟨_, rfl⟩

/-- What refers to no group and succeeds on one state succeeds on every state. -/
theorem Succeeds.anywhere {names : List String}
    (hrun : Succeeds limits table levels job before names after)
    (hclosed : ∀ id, ¬job.Exposes (.reference id)) (halike : job.Alike other) (state : Lowering) :
    ∃ returned last, Succeeds limits table levels other state returned last := by
  -- The other job and the state are general: names and states differ more with every step.
  induction hrun generalizing other state with
  | char levels c given before =>
    cases halike
    exact ⟨_, _, .char levels c _ state⟩
  | lookahead levels body given before =>
    cases halike
    exact ⟨_, _, .lookahead levels body _ state⟩
  | @concat levels operands _ _ _ _ hnonempty _ ih =>
    cases halike with
    | one _ _ given =>
      obtain ⟨_, _, hrow⟩ :=
        ih (fun id hexposes => hclosed id (exposes_concat hexposes)) (.row operands)
          (state.named given .concat)
      exact ⟨_, _, .concat hnonempty hrow⟩
  | @alternation levels operands _ _ _ _ hnonempty _ ih =>
    cases halike with
    | one _ _ given =>
      obtain ⟨_, _, hbranches⟩ := ih (fun id hexposes => hclosed id (exposes_alternation hexposes))
        (.branches _ _ operands) (state.named given .alternation)
      exact ⟨_, _, .alternation hnonempty hbranches⟩
  | @star levels body _ _ _ _ _ ih =>
    cases halike with
    | one _ _ given =>
      obtain ⟨_, _, hinside⟩ :=
        ih (fun id hexposes => hclosed id (.star hexposes)) (.one body none none)
          (state.named given .star)
      obtain ⟨inner, rfl⟩ := hinside.one_names
      exact ⟨_, _, .star hinside⟩
  | @plain levels body _ _ _ _ _ ih =>
    cases halike with
    | one _ _ given =>
      obtain ⟨_, _, hinside⟩ :=
        ih (fun id hexposes => hclosed id (.plain hexposes)) (.one body none none)
          (state.named given .plain)
      obtain ⟨inner, rfl⟩ := hinside.one_names
      exact ⟨_, _, .plain hinside⟩
  | @capture levels id body _ _ _ _ hrange _ ih =>
    cases halike
    obtain ⟨_, _, hinside⟩ :=
      ih (fun id hexposes => hclosed id (.capture hexposes)) (.one body none none)
        (state.enrolled id)
    obtain ⟨inner, rfl⟩ := hinside.one_names
    exact ⟨_, _, .capture hrange hinside⟩
  | @known levels id | @forward levels id => exact absurd (.here _) (hclosed id)
  | rowNil levels before =>
    cases halike
    exact ⟨_, _, .rowNil levels state⟩
  | @rowCons levels operand operands _ _ _ _ _ _ _ ihhead ihtail =>
    cases halike
    obtain ⟨_, between, hhead⟩ := ihhead (fun id hexposes => hclosed id (exposes_head hexposes))
      (.one operand none none) state
    obtain ⟨first, rfl⟩ := hhead.one_names
    obtain ⟨_, _, htail⟩ :=
      ihtail (fun id hexposes => hclosed id (exposes_tail hexposes)) (.row operands) between
    exact ⟨_, _, .rowCons hhead htail⟩
  | branchesNil levels name before =>
    cases halike
    exact ⟨_, _, .branchesNil levels _ state⟩
  | @branchesCons levels name operand operands _ _ _ _ _ _ _ ihhead ihtail =>
    cases halike with
    | branches _ other =>
      obtain ⟨_, between, hhead⟩ := ihhead (fun id hexposes => hclosed id (exposes_head hexposes))
        (.one operand none none) state
      obtain ⟨first, rfl⟩ := hhead.one_names
      obtain ⟨_, _, htail⟩ := ihtail (fun id hexposes => hclosed id (exposes_tail hexposes))
        (.branches name other operands) (between.added other [.nonterminal first])
      exact ⟨_, _, .branchesCons hhead htail⟩

/-- What refers to no group and fails on one state fails on every state, and with the same error. -/
theorem Fails.anywhere {error : LowerError}
    (hfails : Fails limits table levels job before error after)
    (hclosed : ∀ id, ¬job.Exposes (.reference id)) (halike : job.Alike other) (state : Lowering) :
    ∃ last, Fails limits table levels other state error last := by
  induction hfails generalizing other state with
  | tooDeep expr given before =>
    cases halike
    exact ⟨_, .tooDeep expr _ state⟩
  | emptyConcat levels given before =>
    cases halike
    exact ⟨_, .emptyConcat levels _ state⟩
  | emptyAlternation levels given before =>
    cases halike
    exact ⟨_, .emptyAlternation levels _ state⟩
  | outOfRange body given before houtside =>
    cases halike
    exact ⟨_, .outOfRange body _ state houtside⟩
  | @undefined levels id | @forward levels id => exact absurd (.here _) (hclosed id)
  | @concat levels operands _ _ _ _ _ ih =>
    cases halike with
    | one _ _ given =>
      obtain ⟨_, hrow⟩ :=
        ih (fun id hexposes => hclosed id (exposes_concat hexposes)) (.row operands)
          (state.named given .concat)
      exact ⟨_, .concat hrow⟩
  | @alternation levels operands _ _ _ _ _ ih =>
    cases halike with
    | one _ _ given =>
      obtain ⟨_, hbranches⟩ := ih (fun id hexposes => hclosed id (exposes_alternation hexposes))
        (.branches _ _ operands) (state.named given .alternation)
      exact ⟨_, .alternation hbranches⟩
  | @star levels body _ _ _ _ _ ih =>
    cases halike with
    | one _ _ given =>
      obtain ⟨_, hinside⟩ :=
        ih (fun id hexposes => hclosed id (.star hexposes)) (.one body none none)
          (state.named given .star)
      exact ⟨_, .star hinside⟩
  | @plain levels body _ _ _ _ _ ih =>
    cases halike with
    | one _ _ given =>
      obtain ⟨_, hinside⟩ :=
        ih (fun id hexposes => hclosed id (.plain hexposes)) (.one body none none)
          (state.named given .plain)
      exact ⟨_, .plain hinside⟩
  | @capture levels id body _ _ _ _ hrange _ ih =>
    cases halike
    obtain ⟨_, hinside⟩ :=
      ih (fun id hexposes => hclosed id (.capture hexposes)) (.one body none none)
        (state.enrolled id)
    exact ⟨_, .capture hrange hinside⟩
  | @rowHead levels operand operands _ _ _ _ ih =>
    cases halike
    obtain ⟨_, hhead⟩ :=
      ih (fun id hexposes => hclosed id (exposes_head hexposes)) (.one operand none none) state
    exact ⟨_, .rowHead operands hhead⟩
  | @rowTail levels operand operands _ _ _ _ _ hhead _ ih =>
    cases halike
    obtain ⟨_, between, hhead⟩ :=
      hhead.anywhere (fun id hexposes => hclosed id (exposes_head hexposes))
        (.one operand none none) state
    obtain ⟨first, rfl⟩ := hhead.one_names
    obtain ⟨_, htail⟩ :=
      ih (fun id hexposes => hclosed id (exposes_tail hexposes)) (.row operands) between
    exact ⟨_, .rowTail hhead htail⟩
  | @branchesHead levels name operand operands _ _ _ _ ih =>
    cases halike with
    | branches _ other =>
      obtain ⟨_, hhead⟩ :=
        ih (fun id hexposes => hclosed id (exposes_head hexposes)) (.one operand none none) state
      exact ⟨_, .branchesHead other operands hhead⟩
  | @branchesTail levels name operand operands _ _ _ _ _ hhead _ ih =>
    cases halike with
    | branches _ other =>
      obtain ⟨_, between, hhead⟩ :=
        hhead.anywhere (fun id hexposes => hclosed id (exposes_head hexposes))
          (.one operand none none) state
      obtain ⟨first, rfl⟩ := hhead.one_names
      obtain ⟨_, htail⟩ := ih (fun id hexposes => hclosed id (exposes_tail hexposes))
        (.branches name other operands) (between.added other [.nonterminal first])
      exact ⟨_, .branchesTail hhead htail⟩

end Job

variable {limits : Limits} {table : CaptureTable}

/-- A run adds to its state, whether or not it succeeds. -/
theorem extends_of_lower (limits : Limits) (table : CaptureTable) (levels : Nat) (expr : Expr)
    (given : Option String) (before : Lowering) :
    (∀ name after, lower limits table levels expr given before = .ok name after →
      before.Extends after) ∧
    ∀ error after, lower limits table levels expr given before = .error error after →
      before.Extends after := by
  constructor
  · intro name after hrun
    exact (Job.succeeds_of_lower hrun).preserves (stable_extends before) (extends_refl before)
  · intro error after hrun
    exact (Job.fails_of_lower hrun).preserves (stable_extends before) (extends_refl before)

/-- The answer to a definition that refers to no group does not depend on the state. -/
theorem define_eq_of_closed {expr : Expr} (hclosed : ∀ id, ¬expr.Exposes (.reference id))
    (name : String) (state other : Lowering) :
    (define limits table state name expr).1 = (define limits table other name expr).1 := by
  cases hdefine : define limits table state name expr with
  | mk answer next =>
    cases answer with
    | ok result =>
      have hrun := succeeds_of_define hdefine
      obtain ⟨_, last, hother⟩ := hrun.anywhere hclosed (.one expr (some name) (some name)) other
      obtain ⟨returned, rfl⟩ := hother.one_names
      have hlower := Job.lower_of_perform_ok hother.perform_eq
      have hresult := hrun.eq_definedName
      have hreturned := hother.eq_definedName
      simp only [define, EStateM.run, hlower]
      rw [hresult, hreturned]
    | error error =>
      obtain ⟨last, hother⟩ :=
        (fails_of_define hdefine).anywhere hclosed (.one expr (some name) (some name)) other
      have hlower := Job.lower_of_perform_error hother.perform_eq
      simp only [define, EStateM.run, hlower]

namespace Counted

/-- The second state is at the level of the first, has all that the first has, in the same order,
and no other name is written down in it for a group than that of the group. -/
structure Grows (before after : Counted) : Prop where
  /-- What was begun has been left. -/
  depth : after.depth = before.depth
  /-- Rules, counters and groups are at most more. -/
  content : before.toLowering.Extends after.toLowering
  /-- The names of groups stay as they were written down. -/
  groupNames : ∀ id name, before.groupNames.lookup id = some name →
    after.groupNames.lookup id = some name
  /-- Each of them is the name of its group. -/
  named : ∀ id name, after.groupNames.lookup id = some name → name = groupName id

/-- A state that has all that another one has does so at every level. -/
theorem grows_of_extends {before after : Lowering} (hextends : before.Extends after) (depth : Nat) :
    (ofLowering before depth).Grows (ofLowering after depth) where
  depth := rfl
  content := by rwa [toLowering_ofLowering, toLowering_ofLowering]
  groupNames := by
    intro id name hname
    rw [lookup_ofLowering] at hname ⊢
    split at hname
    next hmem =>
      rw [if_pos (hextends.registered hmem)]
      exact hname
    next => cases hname
  named := by
    intro id name hname
    rw [lookup_ofLowering] at hname
    split at hname
    next => exact (Option.some.inj hname).symm
    next => cases hname

/-- At every level a lowering ends, as it does with the levels that are left, and its state has
grown. -/
theorem grows_visit (limits : Limits) (table : CaptureTable) (expr : Expr) (given : Option String)
    (state : Lowering) (depth : Nat) {rounds : Nat}
    (hrounds : limits.loweringDepth - depth ≤ rounds) :
    ∃ answer next,
      visit limits table rounds expr given (ofLowering state depth) = some (answer, next) ∧
      carry depth (lower limits table (limits.loweringDepth - depth) expr given state) =
        some (answer, next) ∧
      (ofLowering state depth).Grows next := by
  have hvisit : visit limits table rounds expr given (ofLowering state depth) = _ :=
    follows_visit expr given depth hrounds state
  obtain ⟨hok, herror⟩ :=
    extends_of_lower limits table (limits.loweringDepth - depth) expr given state
  cases hplain : lower limits table (limits.loweringDepth - depth) expr given state with
  | ok name after =>
    rw [hplain] at hvisit
    exact ⟨_, _, hvisit, rfl, grows_of_extends (hok name after hplain) depth⟩
  | error error after =>
    rw [hplain] at hvisit
    exact ⟨_, _, hvisit, rfl, grows_of_extends (herror error after hplain) depth⟩

/-- The state only grows. After any definitions, failed ones among them, an expression is lowered to
an end, and with an answer or with an error the level is the one before, nonterminals and
alternatives are where they were, no counter has fallen and every group keeps its own name. An
expression that refers to no group outside lookaheads is answered after these definitions as it is
when nothing has been defined. -/
theorem defineAll_grows (limits : Limits) (table : CaptureTable) (steps : List (String × Expr)) :
    ∃ answers state, defineAll limits table .start steps = some (answers, state) ∧
      Lowering.defineAll limits table .start steps = (answers, state.toLowering) ∧
      (∀ rounds expr given, limits.loweringDepth ≤ rounds →
        ∃ answer next, visit limits table rounds expr given state = some (answer, next) ∧
          carry state.depth (lower limits table limits.loweringDepth expr given state.toLowering) =
            some (answer, next) ∧
          state.Grows next) ∧
      ∀ name expr, (∀ id, ¬expr.Exposes (.reference id)) →
        ∃ answer next first, define limits table state name expr = some (answer, next) ∧
          define limits table .start name expr = some (answer, first) := by
  refine ⟨_, _, defineAll_ofLowering limits table .start steps, ?_, ?_, ?_⟩
  · rw [toLowering_ofLowering]
  · intro rounds expr given hrounds
    rw [toLowering_ofLowering]
    exact grows_visit limits table expr given _ 0 hrounds
  · intro name expr hclosed
    have hfirst := define_ofLowering limits table .start name expr
    rw [define_eq_of_closed hclosed name .start
      (Lowering.defineAll limits table .start steps).2] at hfirst
    exact ⟨_, _, _, define_ofLowering .., hfirst⟩

/-- A group is given up half done and then named by the next definition. A capture of that group
over nothing to choose from meets the same error after both as it does at the start. -/
theorem defineAll_grows_abandoned :
    ∃ (table : CaptureTable) (steps : List (String × Expr)) (expr : Expr)
        (state next first : Counted) (answer : Except LowerError String),
      table = .ofList [(2, .concat [.char 'a', .reference 5])] ∧
      steps = [("First", .plain (.reference 2)), ("Second", .star (.reference 2))] ∧
      expr = .concat [.char 'b', .capture 2 (.alternation [])] ∧
      defineAll .standard table .start steps =
        some ([.error (.undefinedGroup 5), .ok "Second"], state) ∧
      (∀ id, ¬expr.Exposes (.reference id)) ∧
      define .standard table state "Third" expr = some (answer, next) ∧
      define .standard table .start "Third" expr = some (answer, first) := by
  obtain ⟨answers, state, hdefine, hplain, -, hclosed⟩ := defineAll_grows .standard
    (.ofList [(2, .concat [.char 'a', .reference 5])])
    [("First", .plain (.reference 2)), ("Second", .star (.reference 2))]
  have hanswers : answers = [.error (.undefinedGroup 5), .ok "Second"] :=
    (congrArg Prod.fst hplain).symm
  have hexpr :
      ∀ id, ¬(Expr.concat [.char 'b', .capture 2 (.alternation [])]).Exposes (.reference id) := by
    intro id hexposes
    cases hexposes with
    | concat hmem hinner =>
      rcases List.mem_pair.mp hmem with rfl | rfl
      · cases hinner
      · cases hinner with
        | capture hinner =>
          cases hinner with
          | alternation hmem => cases hmem
  obtain ⟨answer, next, first, hafter, hfirst⟩ := hclosed "Third" _ hexpr
  rw [hanswers] at hdefine
  exact ⟨_, _, _, state, next, first, answer, rfl, rfl, rfl, hdefine, hexpr, hafter, hfirst⟩

end Counted

end PatternGrammar.Lowering
