import PatternGrammar.Proofs.Lowering.Failure
import PatternGrammar.Proofs.Lowering.Residue

/-!
# Groups out of range

The number of a capture group is checked where the group itself is lowered. A reference is not
checked: what the table holds for it is followed, whatever its number is. So a number out of range
comes into a grammar only by a reference, and only if the table holds something under it. Everywhere
else such a number ends the run: the group itself is refused, and a reference to it finds neither a
name nor an entry. The groups of a grammar are those that its run came to, so that nothing else has
to be checked.
-/

namespace PatternGrammar

namespace Lowering

namespace Job

variable {limits : Limits} {table : CaptureTable} {levels id : Nat} {before after : Lowering}
  {names : List String} {operand : Expr} {operands front back : List Expr} {name : String}

/-- Every result of a job is one of the listed ones. -/
theorem succeeds_of_perform {job : Job}
    (hperform : perform limits table levels job before = .ok names after) :
    Succeeds limits table levels job before names after := by
  have hone := outcome_perform_one limits table levels
  have houtcome :
      Outcome limits table levels job before (perform limits table levels job before) := by
    cases job with
    | one expr given => exact hone expr given before
    | row operands => exact outcome_row hone operands before
    | branches name operands => exact outcome_branches hone name operands before
  rwa [hperform] at houtcome

/-- A row that succeeds has lowered each operand after those before it, and groups have kept their
names since. -/
theorem Succeeds.row_operand
    (hrun : Succeeds limits table levels (.row (front ++ operand :: back)) before names after) :
    ∃ earlier between first middle,
      Succeeds limits table levels (.row front) before earlier between ∧
      Succeeds limits table levels (.one operand none) between [first] middle ∧
      middle.registered ⊆ after.registered := by
  induction front generalizing before names with
  | nil =>
    cases hrun with
    | rowCons hhead htail => exact ⟨[], before, _, _, .rowNil .., hhead, htail.registered_mono⟩
  | cons other front ih =>
    cases hrun with
    | rowCons hhead htail =>
      obtain ⟨earlier, between, first, middle, hfront, hoperand, hkept⟩ := ih htail
      exact ⟨_, between, first, middle, .rowCons hhead hfront, hoperand, hkept⟩

/-- Branches that succeed have lowered each branch after those before it, and groups have kept their
names since. -/
theorem Succeeds.branches_operand
    (hrun :
      Succeeds limits table levels (.branches name (front ++ operand :: back)) before names after) :
    ∃ earlier between first middle,
      Succeeds limits table levels (.branches name front) before earlier between ∧
      Succeeds limits table levels (.one operand none) between [first] middle ∧
      middle.registered ⊆ after.registered := by
  induction front generalizing before with
  | nil =>
    cases hrun with
    | branchesCons hhead htail =>
      exact ⟨[], before, _, _, .branchesNil .., hhead, htail.registered_mono⟩
  | cons other front ih =>
    cases hrun with
    | branchesCons hhead htail =>
      obtain ⟨earlier, between, first, middle, hfront, hoperand, hkept⟩ := ih htail
      exact ⟨earlier, between, first, middle, .branchesCons hhead hfront, hoperand, hkept⟩

/-- A group that receives its name in a row receives it in one of the operands. -/
theorem Succeeds.row_enrols (hrun : Succeeds limits table levels (.row operands) before names after)
    (hmem : id ∈ after.registered) :
    id ∈ before.registered ∨ ∃ front operand back earlier between first middle,
      operands = front ++ operand :: back ∧
      Succeeds limits table levels (.row front) before earlier between ∧
      Succeeds limits table levels (.one operand none) between [first] middle ∧
      id ∉ between.registered ∧ id ∈ middle.registered := by
  induction operands generalizing before names with
  | nil =>
    cases hrun
    exact .inl hmem
  | cons operand operands ih =>
    cases hrun with
    | @rowCons _ _ _ _ between _ first _ hhead htail =>
      by_cases hbefore : id ∈ before.registered
      · exact .inl hbefore
      rcases ih htail with hbetween |
        ⟨front, other, back, earlier, last, second, middle, rfl, hfront, hother, hnew, hmiddle⟩
      · exact .inr ⟨[], operand, operands, [], before, first, between, rfl, .rowNil .., hhead,
          hbefore, hbetween⟩
      · exact .inr ⟨operand :: front, other, back, _, last, second, middle, rfl,
          .rowCons hhead hfront, hother, hnew, hmiddle⟩

/-- A group that receives its name in branches receives it in one of them. -/
theorem Succeeds.branches_enrols
    (hrun : Succeeds limits table levels (.branches name operands) before names after)
    (hmem : id ∈ after.registered) :
    id ∈ before.registered ∨ ∃ front operand back earlier between first middle,
      operands = front ++ operand :: back ∧
      Succeeds limits table levels (.branches name front) before earlier between ∧
      Succeeds limits table levels (.one operand none) between [first] middle ∧
      id ∉ between.registered ∧ id ∈ middle.registered := by
  induction operands generalizing before with
  | nil =>
    cases hrun
    exact .inl hmem
  | cons operand operands ih =>
    cases hrun with
    | @branchesCons _ _ _ _ _ between _ first _ hhead htail =>
      by_cases hbefore : id ∈ before.registered
      · exact .inl hbefore
      rcases ih htail with hbetween |
        ⟨front, other, back, earlier, last, second, middle, rfl, hfront, hother, hnew, hmiddle⟩
      · exact .inr ⟨[], operand, operands, [], before, first, between, rfl, .branchesNil .., hhead,
          hbefore, hbetween⟩
      · exact .inr ⟨operand :: front, other, back, earlier, last, second, middle, rfl,
          .branchesCons hhead hfront, hother, hnew, hmiddle⟩

end Job

variable {limits : Limits} {table : CaptureTable} {id : Nat} {after : Lowering} {outer inner : Call}

/-- The number of a group that may have a name: it is in range, or the table holds something under
it. -/
def Permitted (limits : Limits) (table : CaptureTable) (id : Nat) : Prop :=
  ¬(id = 0 ∨ limits.groups < id) ∨ ∃ body, table.get? id = some body

namespace Call

/-- The call comes to an end without an error and leaves the state. -/
def Ends (limits : Limits) (table : CaptureTable) (call : Call) (after : Lowering) : Prop :=
  ∃ names, Job.Succeeds limits table call.levels (.one call.expr call.given) call.state names after

/-- In the course of the call a group receives its name, because it is captured or for the first
time referred to. -/
def Begins (limits : Limits) (table : CaptureTable) (call : Call) (id : Nat) : Prop :=
  ∃ inner, Relation.ReflTransGen (Enters limits table) call inner ∧ inner.Opens limits table id

/-- Inside a call that ends, every call that it makes ends, and the groups keep the names that they
received. -/
theorem Enters.ends (henters : Enters limits table outer inner)
    (hends : outer.Ends limits table after) :
    ∃ between, inner.Ends limits table between ∧ between.registered ⊆ after.registered := by
  obtain ⟨names, hrun⟩ := hends
  cases henters with
  | operand hlowered =>
    cases hrun with
    | concat _ hrow =>
      obtain ⟨_, _, first, middle, hfront, hoperand, hkept⟩ := hrow.row_operand
      cases hlowered.symm.trans hfront.perform_eq
      exact ⟨middle, ⟨[first], hoperand⟩, hkept⟩
  | branch hlowered =>
    cases hrun with
    | alternation _ hbranches =>
      obtain ⟨_, _, first, middle, hfront, hoperand, hkept⟩ := hbranches.branches_operand
      cases hlowered.symm.trans hfront.perform_eq
      exact ⟨middle, ⟨[first], hoperand⟩, hkept⟩
  | star =>
    cases hrun with
    | star hinside => exact ⟨_, ⟨_, hinside⟩, fun _ hmem => hmem⟩
  | plain =>
    cases hrun with
    | plain hinside => exact ⟨_, ⟨_, hinside⟩, fun _ hmem => hmem⟩
  | capture =>
    cases hrun with
    | capture _ hinside => exact ⟨_, ⟨_, hinside⟩, fun _ hmem => hmem⟩
  | forward _ hnew hholds =>
    cases hrun with
    | known hregistered => exact absurd hregistered hnew
    | forward _ hfound hinside =>
      cases hholds.symm.trans hfound
      exact ⟨_, ⟨_, hinside⟩, fun _ hmem => hmem⟩

/-- Inside a call that ends, the calls that are made in any depth end too. -/
theorem ends_of_reaches (hreaches : Relation.ReflTransGen (Enters limits table) outer inner)
    (hends : outer.Ends limits table after) :
    ∃ between, inner.Ends limits table between ∧ between.registered ⊆ after.registered := by
  induction hreaches with
  | refl => exact ⟨after, hends, fun _ hmem => hmem⟩
  | tail _ henters ih =>
    obtain ⟨between, hbetween, hkept⟩ := ih
    obtain ⟨last, hlast, hinner⟩ := henters.ends hbetween
    exact ⟨last, hlast, fun _ hmem => hkept (hinner hmem)⟩

/-- What an inner call begins is begun in the course of the outer one. -/
theorem Begins.of_enters (hbegins : inner.Begins limits table id)
    (henters : Enters limits table outer inner) : outer.Begins limits table id := by
  obtain ⟨innermost, hreaches, hopens⟩ := hbegins
  exact ⟨innermost, .head henters hreaches, hopens⟩

/-- A call that opens a group has checked its number or has found it in the table. -/
theorem Begins.permitted (hbegins : outer.Begins limits table id) : Permitted limits table id := by
  obtain ⟨innermost, -, hopens⟩ := hbegins
  cases hopens with
  | capture _ _ _ hrange => exact .inl hrange
  | forward _ _ hholds => exact .inr ⟨_, hholds⟩

/-- What has its name inside a group that is opened had it before, or is begun in the course of the
call that opens the group, which may be that group itself. -/
theorem Opens.begins {opened : Nat} (hopens : outer.Opens limits table opened)
    (henters : Enters limits table outer inner)
    (hinside : id ∈ (outer.state.enrolled opened).registered ∨ inner.Begins limits table id) :
    id ∈ outer.state.registered ∨ outer.Begins limits table id := by
  rcases hinside with hmem | hbegins
  · rcases (mem_registered_enrolled ..).mp hmem with rfl | hmem
    · exact .inr ⟨outer, .refl, hopens⟩
    · exact .inl hmem
  · exact .inr (hbegins.of_enters henters)

end Call

/-- A group that has its name when the lowering of an expression is over had it before, or its
lowering was begun in the course of that. -/
theorem Job.Succeeds.begins {levels : Nat} {expr : Expr} {given : Option String}
    {names : List String}
    {before : Lowering} (hrun : Succeeds limits table levels (.one expr given) before names after)
    (hmem : id ∈ after.registered) :
    id ∈ before.registered ∨ Call.Begins limits table ⟨levels, expr, given, before⟩ id := by
  -- The levels fall with every call, also where a reference leads to what the table holds.
  induction levels generalizing expr given names before after with
  | zero => cases hrun
  | succ levels ih =>
    cases hrun with
    | char | lookahead => exact .inl (by simpa [added] using hmem)
    | concat _ hrow =>
      rcases hrow.row_enrols hmem with hbefore |
        ⟨front, operand, back, earlier, between, first, middle, rfl, hfront, hoperand, hnew,
          hmiddle⟩
      · exact .inl (by simpa using hbefore)
      · have hinside := (ih hoperand hmiddle).resolve_left hnew
        exact .inr (hinside.of_enters (.operand hfront.perform_eq))
    | alternation _ hbranches =>
      rcases hbranches.branches_enrols hmem with hbefore |
        ⟨front, operand, back, earlier, between, first, middle, rfl, hfront, hoperand, hnew,
          hmiddle⟩
      · exact .inl (by simpa using hbefore)
      · have hinside := (ih hoperand hmiddle).resolve_left hnew
        exact .inr (hinside.of_enters (.branch hfront.perform_eq))
    | star hinside =>
      refine (ih hinside hmem).imp (fun hbefore => ?_) (·.of_enters (.star ..))
      rwa [registered_named] at hbefore
    | plain hinside =>
      refine (ih hinside hmem).imp (fun hbefore => ?_) (·.of_enters (.plain ..))
      rwa [registered_named] at hbefore
    | capture hrange hinside =>
      exact Call.Opens.begins (.capture _ _ _ hrange) (.capture _ _ _ hrange) (ih hinside hmem)
    | known => exact .inl hmem
    | forward hnew hholds hinside =>
      exact Call.Opens.begins (.forward _ hnew hholds) (.forward _ hnew hholds) (ih hinside hmem)

namespace Call

/-- Where a call is made inside another one, the groups that have names had them before or are
permitted. -/
theorem Enters.permitted (henters : Enters limits table outer inner)
    (hmem : id ∈ inner.state.registered) :
    id ∈ outer.state.registered ∨ Permitted limits table id := by
  cases henters with
  | operand hlowered =>
    rcases (Job.succeeds_of_perform hlowered).row_enrols hmem with hbefore |
      ⟨_, _, _, _, _, _, _, _, _, hoperand, hnew, hmiddle⟩
    · exact .inl (by simpa using hbefore)
    · exact .inr ((hoperand.begins hmiddle).resolve_left hnew).permitted
  | branch hlowered =>
    rcases (Job.succeeds_of_perform hlowered).branches_enrols hmem with hbefore |
      ⟨_, _, _, _, _, _, _, _, _, hoperand, hnew, hmiddle⟩
    · exact .inl (by simpa using hbefore)
    · exact .inr ((hoperand.begins hmiddle).resolve_left hnew).permitted
  | star | plain => exact .inl (by simpa using hmem)
  | capture _ _ _ hrange =>
    rcases (mem_registered_enrolled ..).mp hmem with rfl | hmem
    · exact .inr (.inl hrange)
    · exact .inl hmem
  | forward _ _ hholds =>
    rcases (mem_registered_enrolled ..).mp hmem with rfl | hmem
    · exact .inr (.inr ⟨_, hholds⟩)
    · exact .inl hmem

/-- If only permitted groups have names where a call begins, then this is so in any depth inside
it. -/
theorem permitted_of_reaches (hreaches : Relation.ReflTransGen (Enters limits table) outer inner)
    (houter : ∀ id ∈ outer.state.registered, Permitted limits table id)
    (hmem : id ∈ inner.state.registered) : Permitted limits table id := by
  induction hreaches with
  | refl => exact houter id hmem
  | tail _ henters ih =>
    rcases henters.permitted hmem with hbetween | hpermitted
    · exact ih hbetween
    · exact hpermitted

end Call

/-- If a group has a rule, then it has its name. -/
def Enlists (id : Nat) (state : Lowering) : Prop :=
  groupName id ∈ state.grammar.nonterminals → id ∈ state.registered

section Enlists

variable {state : Lowering}

/-- Naming an expression gives no rule to a group. -/
theorem Enlists.named (henlists : Enlists id state) (given : Option String) (kind : NameKind) :
    Enlists id (state.named given kind) := by
  rwa [Enlists, grammar_named, registered_named]

/-- Groups that have their names keep them when another one receives its name. -/
theorem Enlists.enrolled (henlists : Enlists id state) (other : Nat) :
    Enlists id (state.enrolled other) := by
  intro hmem
  rw [grammar_enrolled] at hmem
  exact (mem_registered_enrolled ..).mpr (.inr (henlists hmem))

/-- An alternative of another nonterminal gives no rule to the group. -/
theorem Enlists.added {name : String} (henlists : Enlists id state) (hne : groupName id ≠ name)
    (alternative : Alternative) : Enlists id (state.added name alternative) :=
  fun hmem => henlists ((Grammar.mem_nonterminals_add.mp hmem).resolve_left hne)

/-- A group that has its name may receive an alternative. -/
theorem Enlists.added_group {other : Nat} (henlists : Enlists id state)
    (hregistered : other ∈ state.registered)
    (alternative : Alternative) : Enlists id (state.added (groupName other) alternative) := by
  intro hmem
  rcases Grammar.mem_nonterminals_add.mp hmem with heq | hmem
  · cases groupName_inj heq
    exact hregistered
  · exact henlists hmem

/-- An expression has the name of a group only if it was given that. -/
theorem groupName_ne_nameFor {given : Option String} (hgiven : given ≠ some (groupName id))
    (state : Lowering) (kind : NameKind) : groupName id ≠ state.nameFor given kind := by
  cases given with
  | some name => exact fun heq => hgiven (congrArg some heq.symm)
  | none => exact (kind.name_ne_groupName _ id).symm

end Enlists

/-- Groups receive their names before their rules. -/
theorem Job.Succeeds.enlists {levels : Nat} {job : Job} {before : Lowering} {names : List String}
    (hrun : Succeeds limits table levels job before names after)
    (hown : job.own ≠ some (groupName id)) (henlists : Enlists id before) : Enlists id after := by
  induction hrun with
  | char levels c given before | lookahead levels body given before =>
    exact (henlists.named given _).added (groupName_ne_nameFor hown before _) _
  | @concat levels operands given before after names _ _ ih =>
    exact (ih nofun (henlists.named given .concat)).added
      (groupName_ne_nameFor hown before .concat) _
  | @alternation levels operands given before after names _ _ ih =>
    refine ih ?_ (henlists.named given .alternation)
    exact fun heq => groupName_ne_nameFor hown before .alternation (Option.some.inj heq).symm
  | @star levels body given before after inner _ ih =>
    have hself := groupName_ne_nameFor hown before .star
    exact ((ih nofun (henlists.named given .star)).added hself _).added hself _
  | @plain levels body given before after inner _ ih =>
    exact (ih nofun (henlists.named given .plain)).added (groupName_ne_nameFor hown before .plain) _
  | @capture levels other body given before after inner _ hinside ih
  | @forward levels other body given before after inner _ _ hinside ih =>
    have hregistered :=
      hinside.registered_mono ((mem_registered_enrolled before other other).mpr (.inl rfl))
    exact (ih nofun (henlists.enrolled other)).added_group hregistered _
  | known | rowNil | branchesNil => exact henlists
  | rowCons _ _ ihhead ihtail => exact ihtail nofun (ihhead nofun henlists)
  | @branchesCons levels name operand operands before between after first names _ _ ihhead ihtail =>
    have hne : groupName id ≠ name := fun heq => hown (congrArg some heq.symm)
    exact ihtail hown ((ihhead nofun henlists).added hne _)

end Lowering

namespace Pattern

open Lowering (Call Job)

/-- The lowering of the pattern makes a call for the expression. -/
def Lowers (pattern : Pattern) (expr : Expr) : Prop :=
  ∃ call, Relation.ReflTransGen (Call.Enters .standard pattern.captures)
    ⟨Limits.standard.loweringDepth, pattern.root, none, .start⟩ call ∧ call.expr = expr

/-- The lowering of the pattern comes to the group, by its capture or by a reference. -/
def LowersGroup (pattern : Pattern) (id : Nat) : Prop :=
  (∃ body, pattern.Lowers (.capture id body)) ∨ pattern.Lowers (.reference id)

variable {pattern : Pattern} {grammar : Grammar} {id : Nat}

/-- What is lowered in a run that succeeds is lowered without an error, on a state in which only
permitted groups have names, and the groups keep the names that they have then. -/
theorem Lowers.succeeds {expr : Expr} {names : List String} {last : Lowering}
    (hlowers : pattern.Lowers expr)
    (hrun : Job.Succeeds .standard pattern.captures Limits.standard.loweringDepth
      (.one pattern.root none) .start names last) :
    ∃ levels given before inner after,
      Job.Succeeds .standard pattern.captures levels (.one expr given) before inner after ∧
      (∀ id ∈ before.registered, Lowering.Permitted .standard pattern.captures id) ∧
      after.registered ⊆ last.registered := by
  obtain ⟨⟨levels, _, given, before⟩, hreaches, rfl⟩ := hlowers
  obtain ⟨after, ⟨inner, hinner⟩, hkept⟩ := Call.ends_of_reaches hreaches ⟨names, hrun⟩
  exact ⟨levels, given, before, inner, after, hinner,
    fun _ hmem => Call.permitted_of_reaches hreaches nofun hmem, hkept⟩

/-- A group to which a run comes that succeeds has its name in the end. -/
theorem LowersGroup.mem_registered {names : List String} {last : Lowering}
    (hlowers : pattern.LowersGroup id)
    (hrun : Job.Succeeds .standard pattern.captures Limits.standard.loweringDepth
      (.one pattern.root none) .start names last) : id ∈ last.registered := by
  rcases hlowers with ⟨body, hcapture⟩ | hreference
  · obtain ⟨_, _, before, _, _, hinner, -, hkept⟩ := hcapture.succeeds hrun
    cases hinner with
    | capture _ hinside =>
      exact hkept
        (hinside.registered_mono ((Lowering.mem_registered_enrolled before id id).mpr (.inl rfl)))
  · obtain ⟨_, _, _, _, _, hinner, -, hkept⟩ := hreference.succeeds hrun
    exact hkept (hinner.reference_registered (.here _))

/-- The groups that have rules in a grammar are those to which its run came. -/
theorem groupName_mem_nonterminals_iff (hgrammar : pattern.toGrammar = .ok grammar) :
    groupName id ∈ grammar.nonterminals ↔ pattern.LowersGroup id := by
  obtain ⟨top, last, rfl, hrun⟩ := succeeds_of_toGrammar hgrammar
  rw [Grammar.mem_nonterminals_add]
  constructor
  · rintro (heq | hmem)
    · exact absurd (.inr ⟨id, heq.symm⟩) not_generated_startName
    · have hregistered : id ∈ last.registered := hrun.enlists nofun nofun hmem
      obtain ⟨inner, hreaches, hopens⟩ := (hrun.begins hregistered).resolve_left nofun
      cases hopens with
      | capture body => exact .inl ⟨body, _, hreaches, rfl⟩
      | forward => exact .inr ⟨_, hreaches, rfl⟩
  · intro hlowers
    have hclosed := (hrun.closed Lowering.closed_start).1
    exact .inr
      ((hclosed.registered id (hlowers.mem_registered hrun)).resolve_right (Set.notMem_empty _))

/-- What stands on right-hand sides of a grammar has rules in it. -/
theorem mem_nonterminals_of_mem_symbols {name : String} (hgrammar : pattern.toGrammar = .ok grammar)
    (hsymbol : .nonterminal name ∈ grammar.symbols) : name ∈ grammar.nonterminals := by
  obtain ⟨top, last, rfl, hrun⟩ := succeeds_of_toGrammar hgrammar
  obtain ⟨hclosed, hreturned⟩ := hrun.closed Lowering.closed_start
  have hknown : Lowering.Known ∅ last name := by
    rcases Grammar.mem_symbols_add.mp hsymbol with hmem | hmem
    · exact hclosed.symbols name hmem
    · cases List.mem_singleton.mp hmem
      exact hreturned name (List.mem_singleton_self name)
  exact Grammar.mem_nonterminals_add.mpr (.inr (hknown.resolve_right (Set.notMem_empty name)))

/-- In a run that succeeds, the capture groups that are lowered are in range. -/
theorem inRange_of_lowers_capture {body : Expr} (hgrammar : pattern.toGrammar = .ok grammar)
    (hlowers : pattern.Lowers (.capture id body)) : 1 ≤ id ∧ id ≤ 9 := by
  obtain ⟨top, last, -, hrun⟩ := succeeds_of_toGrammar hgrammar
  obtain ⟨_, _, _, _, _, hinner, -, -⟩ := hlowers.succeeds hrun
  have hgroups : Limits.standard.groups = 9 := rfl
  cases hinner with
  | capture hrange => omega

/-- In a run that succeeds, the references that are lowered are in range, or the table holds
something for them. -/
theorem inRange_or_held_of_lowers_reference (hgrammar : pattern.toGrammar = .ok grammar)
    (hlowers : pattern.Lowers (.reference id)) :
    (1 ≤ id ∧ id ≤ 9) ∨ ∃ body, pattern.captures.get? id = some body := by
  obtain ⟨top, last, -, hrun⟩ := succeeds_of_toGrammar hgrammar
  obtain ⟨_, _, _, _, _, hinner, hpermitted, -⟩ := hlowers.succeeds hrun
  have hgroups : Limits.standard.groups = 9 := rfl
  cases hinner with
  | known hregistered => exact (hpermitted id hregistered).imp_left fun hrange => by omega
  | forward _ hholds => exact .inr ⟨_, hholds⟩

/-- Groups out of range stay out of the grammar of a pattern. -/
structure Ranged (pattern : Pattern) : Prop where
  /-- If there is a grammar, then all captures and references that were lowered for it are in
  range. -/
  met : ∀ grammar, pattern.toGrammar = .ok grammar → ∀ id, pattern.LowersGroup id → 1 ≤ id ∧ id ≤ 9
  /-- If there is a grammar, then all groups that have rules in it or stand on right-hand sides are
  in range. -/
  named : ∀ grammar, pattern.toGrammar = .ok grammar → ∀ id,
    groupName id ∈ grammar.nonterminals ∨ .nonterminal (groupName id) ∈ grammar.symbols →
      1 ≤ id ∧ id ≤ 9
  /-- If lowering comes to a group out of range, then it fails. -/
  refused : ∀ id, pattern.LowersGroup id → ¬(1 ≤ id ∧ id ≤ 9) →
    ∃ error, pattern.toGrammar = .error error

/-- Groups out of range stay out of a grammar if no reference follows an entry of the table that is
out of range. -/
theorem ranged_of_references (hreferences : ∀ grammar id body, pattern.toGrammar = .ok grammar →
      pattern.captures.get? id = some body → pattern.Lowers (.reference id) → 1 ≤ id ∧ id ≤ 9) :
    pattern.Ranged := by
  have hmet (grammar : Grammar) (hgrammar : pattern.toGrammar = .ok grammar) (id : Nat)
      (hlowers : pattern.LowersGroup id) : 1 ≤ id ∧ id ≤ 9 := by
    rcases hlowers with ⟨body, hcapture⟩ | hreference
    · exact inRange_of_lowers_capture hgrammar hcapture
    · rcases inRange_or_held_of_lowers_reference hgrammar hreference with hrange | ⟨body, hheld⟩
      · exact hrange
      · exact hreferences grammar id body hgrammar hheld hreference
  refine ⟨hmet, fun grammar hgrammar id hgroup => ?_, fun id hlowers houtside => ?_⟩
  · have hmem := hgroup.elim (fun hmem => hmem) (mem_nonterminals_of_mem_symbols hgrammar)
    exact hmet grammar hgrammar id ((groupName_mem_nonterminals_iff hgrammar).mp hmem)
  · cases hresult : pattern.toGrammar with
    | ok grammar => exact absurd (hmet grammar hresult id hlowers) houtside
    | error error => exact ⟨error, rfl⟩

/-- Groups out of range stay out of the grammar of every pattern that was read. -/
theorem ranged_of_ofTokens {tokens : List Token} (hread : ofTokens tokens = .ok pattern) :
    pattern.Ranged := by
  refine ranged_of_references fun _ id body _ hheld _ => ?_
  have hsome : (pattern.captures.get? id).isSome = true := by rw [hheld, Option.isSome_some]
  have hgroup := (isSome_get?_captures hread id).mp hsome
  have hfew : pattern.root.captureIds.length ≤ 9 := (wellFormed_of_ofTokens hread).fewGroups
  omega

/-- Groups out of range stay out of the grammar of a pattern exactly if no reference that is lowered
for it follows an entry of the table that is out of range. -/
theorem ranged_iff_references (pattern : Pattern) :
    pattern.Ranged ↔ ∀ grammar id body, pattern.toGrammar = .ok grammar →
      pattern.captures.get? id = some body → pattern.Lowers (.reference id) → 1 ≤ id ∧ id ≤ 9 := by
  constructor
  · intro hranged grammar id body hgrammar _ hlowers
    exact hranged.met grammar hgrammar id (.inr hlowers)
  · exact ranged_of_references

/-- A reference out of range to an entry of the table gives its group a rule. -/
theorem not_ranged_reference_ten :
    ∃ grammar, toGrammar ⟨.reference 10, .ofList [(10, .char 'b')]⟩ = .ok grammar ∧
      "Group10" ∈ grammar.nonterminals ∧ ¬Ranged ⟨.reference 10, .ofList [(10, .char 'b')]⟩ := by
  refine ⟨?grammar, ?lowered, ?rule, fun hranged => ?_⟩
  case lowered => rfl
  case rule => decide +kernel
  have hrange := hranged.met _ rfl 10 (.inr ⟨_, .refl, rfl⟩)
  omega

end Pattern

end PatternGrammar
