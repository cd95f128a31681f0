import PatternGrammar.Proofs.Grammar.Occurrence
import PatternGrammar.Proofs.Lowering.Names
import PatternGrammar.Proofs.Lowering.Run

/-!
# The rules that a lowering makes

Names are made in the order of their numbers, and a run gives alternatives only to the names that it
makes, to the name that it was given and to groups. So the rule of a numbered name is complete when
the run that made it is over, and has the form of its kind for good. A run returns a name once,
whoever asked for it uses it once, and nobody else knows of it: what a run makes and returns is
accounted for by what stands on right-hand sides.
-/

namespace PatternGrammar

/-- How often a nonterminal of a kind stands on its own right-hand sides. -/
def NameKind.selfUses : NameKind → Nat
  | .star => 1
  | .char | .plain | .lookahead | .concat | .alternation => 0

/-- One or more alternatives, each of them a single nonterminal. -/
def Branching (alternatives : List Alternative) : Prop :=
  ∃ inner : List String, inner ≠ [] ∧ alternatives = inner.map fun name => [.nonterminal name]

/-- The alternatives that a numbered name of a kind has. -/
def NameKind.HasForm (name : String) : NameKind → List Alternative → Prop
  | .char, alternatives => ∃ c, alternatives = [[.terminal c]]
  | .plain, alternatives => ∃ inner, alternatives = [[.nonterminal inner]]
  | .lookahead, alternatives => alternatives = [[]]
  | .concat, alternatives =>
    ∃ inner : List String, inner ≠ [] ∧ alternatives = [inner.map .nonterminal]
  | .alternation, alternatives => Branching alternatives
  | .star, alternatives =>
    ∃ inner, inner ≠ name ∧ alternatives = [[], [.nonterminal name, .nonterminal inner]]

/-- One more alternative with a single nonterminal. -/
theorem Branching.concat {alternatives : List Alternative} (hbranching : Branching alternatives)
    (name : String) : Branching (alternatives ++ [[.nonterminal name]]) := by
  obtain ⟨inner, -, rfl⟩ := hbranching
  exact ⟨inner ++ [name], by simp, by simp⟩

/-- Every rule belongs to a numbered name, or to a group and has only single nonterminals. -/
def Grammar.Formed (grammar : Grammar) : Prop :=
  ∀ name alternatives, grammar.alternatives? name = some alternatives →
    (∃ (kind : NameKind) (number : Nat), name = kind.name number) ∨
      ∃ id, name = groupName id ∧ Branching alternatives

namespace Grammar.Formed

variable {grammar : Grammar}

/-- All nonterminals with rules are made by lowering. -/
theorem generated (hformed : grammar.Formed) {name : String} (hmem : name ∈ grammar.nonterminals) :
    Generated name := by
  obtain ⟨alternatives, hfound⟩ := exists_alternatives?_iff.mpr hmem
  rcases hformed name alternatives hfound with hnumbered | ⟨id, rfl, -⟩
  · exact .inl hnumbered
  · exact .inr ⟨id, rfl⟩

/-- The start symbol has no rule. -/
theorem startName_notMem (hformed : grammar.Formed) : startName ∉ grammar.nonterminals :=
  fun hmem => not_generated_startName (hformed.generated hmem)

/-- The alternatives of a group are single nonterminals. -/
theorem branching (hformed : grammar.Formed) {id : Nat} {alternatives : List Alternative}
    (hfound : grammar.alternatives? (groupName id) = some alternatives) :
    Branching alternatives := by
  rcases hformed _ alternatives hfound with ⟨kind, number, heq⟩ | ⟨_, -, hbranching⟩
  · exact absurd heq.symm (kind.name_ne_groupName number id)
  · exact hbranching

/-- A numbered name may receive any alternative. -/
theorem add_numbered (hformed : grammar.Formed) {name : String}
    (hname : ∃ (kind : NameKind) (number : Nat), name = kind.name number)
    (alternative : Alternative) :
    (grammar.add name alternative).Formed := by
  intro other alternatives hfound
  rw [alternatives?_add] at hfound
  split at hfound
  next heq => exact .inl (heq ▸ hname)
  next => exact hformed other alternatives hfound

/-- A group may receive a single nonterminal. -/
theorem add_group (hformed : grammar.Formed) (id : Nat) (inner : String) :
    (grammar.add (groupName id) [.nonterminal inner]).Formed := by
  intro other alternatives hfound
  rw [alternatives?_add] at hfound
  split at hfound
  next heq =>
    refine .inr ⟨id, heq, ?_⟩
    cases hfound
    cases hold : grammar.alternatives? (groupName id) with
    | none => exact ⟨[inner], by simp, rfl⟩
    | some earlier => exact (hformed.branching hold).concat inner
  next => exact hformed other alternatives hfound

end Grammar.Formed

namespace Lowering

/-- Adding a rule makes no name. -/
@[simp] theorem counters_added (state : Lowering) (name : String) (alternative : Alternative) :
    (state.added name alternative).counters = state.counters := rfl

/-- Giving a group its name makes no numbered name. -/
@[simp] theorem counters_enrolled (state : Lowering) (id : Nat) :
    (state.enrolled id).counters = state.counters := by
  unfold enrolled
  split <;> rfl

/-- Naming an expression unmakes no name. -/
theorem counters_named_le (state : Lowering) (given : Option String) (kind other : NameKind) :
    state.counters.get other ≤ (state.named given kind).counters.get other := by
  cases given with
  | some name => exact Nat.le_refl _
  | none =>
    simp only [named, Counters.get_bump]
    split
    next heq =>
      subst heq
      omega
    next => omega

/-- The name of an expression that was given none is made when the expression is named. -/
theorem counters_named_self (state : Lowering) (kind : NameKind) :
    (state.named none kind).counters.get kind = state.counters.get kind + 1 := by
  rw [named, Counters.get_bump, if_pos rfl]

/-- A name that was still to be made before an expression was named is the name of that expression
or is still to be made. -/
theorem nameFor_or_later (state : Lowering) (given : Option String) (kind : NameKind)
    {other : NameKind} {number : Nat} (hlater : state.counters.get other ≤ number) :
    (other = kind ∧ given = none ∧ number = state.counters.get kind) ∨
      (state.named given kind).counters.get other ≤ number := by
  cases given with
  | some name => exact .inr hlater
  | none =>
    rw [named, Counters.get_bump]
    split
    next heq =>
      subst heq
      by_cases hnow : number = state.counters.get other
      · exact .inl ⟨rfl, rfl, hnow⟩
      · exact .inr (by omega)
    next => exact .inr hlater

/-- The name of an expression is numbered if it was not given, or if the given one is. -/
theorem numbered_nameFor (state : Lowering) {given : Option String}
    (hgiven : ∀ name, given = some name → ∃ (kind : NameKind) (number : Nat),
      name = kind.name number)
    (kind : NameKind) :
    ∃ (other : NameKind) (number : Nat), state.nameFor given kind = other.name number := by
  cases given with
  | some name => exact hgiven name rfl
  | none => exact ⟨kind, state.counters.get kind, rfl⟩

/-- A numbered name is the name of an expression only if it was given or is made with it. -/
theorem name_ne_nameFor {state : Lowering} {given : Option String} {kind other : NameKind}
    {number : Nat} (hgiven : given ≠ some (other.name number))
    (hmade :
      ¬(state.counters.get other ≤ number ∧ number < (state.named given kind).counters.get other)) :
    other.name number ≠ state.nameFor given kind := by
  cases given with
  | some name => exact fun heq => hgiven (congrArg some heq.symm)
  | none =>
    intro heq
    obtain ⟨rfl, rfl⟩ := NameKind.name_inj heq
    rw [counters_named_self] at hmade
    omega

/-- What is not made from before an expression is named until its parts are done is not the name of
the expression, and is not made by the parts. -/
theorem unmade_parts (before : Lowering) {after : Lowering} (given : Option String)
    (kind : NameKind) {other : NameKind} {number : Nat} (hgiven : given ≠ some (other.name number))
    (hmono : (before.named given kind).counters.get other ≤ after.counters.get other)
    (hmade : ¬(before.counters.get other ≤ number ∧ number < after.counters.get other)) :
    other.name number ≠ before.nameFor given kind ∧
      ¬((before.named given kind).counters.get other ≤ number ∧
        number < after.counters.get other) := by
  have hnamed := counters_named_le before given kind other
  exact ⟨name_ne_nameFor hgiven (by omega), by omega⟩

/-- The alternatives of another name stay after an addition. -/
theorem alternatives?_added_of_ne (state : Lowering) {name wanted : String} (hne : wanted ≠ name)
    (alternative : Alternative) :
    (state.added name alternative).grammar.alternatives? wanted =
      state.grammar.alternatives? wanted := by
  rw [added, Grammar.alternatives?_add, if_neg hne]

/-- The uses after an addition. -/
theorem uses_added (state : Lowering) (name : String) (alternative : Alternative) (other : String) :
    (state.added name alternative).grammar.uses other =
      state.grammar.uses other + alternative.count (.nonterminal other) :=
  Grammar.uses_add ..

/-- How often a numbered name has to be used, or be about to be used, if it is made in between. -/
def dues (before after : Lowering) (kind : NameKind) (number : Nat) : Nat :=
  if before.counters.get kind ≤ number ∧ number < after.counters.get kind then kind.selfUses +
    1 else 0

/-- What is due after two runs is due after one of them. -/
theorem dues_trans {before between after : Lowering} {kind : NameKind} (number : Nat)
    (hfirst : before.counters.get kind ≤ between.counters.get kind)
    (hsecond : between.counters.get kind ≤ after.counters.get kind) :
    dues before after kind number =
      dues before between kind number + dues between after kind number := by
  unfold dues
  split <;> split <;> split <;> omega

/-- Adding a rule makes nothing due. -/
@[simp] theorem dues_added (before after : Lowering) (name : String) (alternative : Alternative)
    (kind : NameKind) (number : Nat) :
    dues before (after.added name alternative) kind number = dues before after kind number := rfl

/-- Nothing is due if nothing is done. -/
@[simp] theorem dues_self (state : Lowering) (kind : NameKind) (number : Nat) :
    dues state state kind number = 0 := by
  rw [dues, if_neg (by omega)]

/-- Giving a group its name makes nothing due. -/
@[simp] theorem dues_enrolled (before after : Lowering) (id : Nat) (kind : NameKind)
    (number : Nat) :
    dues (before.enrolled id) after kind number = dues before after kind number := by
  rw [dues, dues, counters_enrolled]

/-- When an expression is named, its name is due, unless it was given. -/
theorem dues_named (before : Lowering) (given : Option String) (kind : NameKind) {other : NameKind}
    {number : Nat} (hgiven : given ≠ some (other.name number)) :
    dues before (before.named given kind) other number =
      [before.nameFor given kind].count (other.name number) * (kind.selfUses + 1) := by
  rw [List.count_singleton]
  cases given with
  | some name =>
    have hne : name ≠ other.name number := fun heq => hgiven (congrArg some heq)
    rw [dues, if_neg (by simp only [named]; omega), nameFor, beq_false_of_ne hne]
    simp
  | none =>
    by_cases hsame : kind = other ∧ before.counters.get kind = number
    · obtain ⟨rfl, rfl⟩ := hsame
      rw [dues, named, Counters.get_bump, if_pos rfl, if_pos (by omega), nameFor]
      simp
    · have hne : kind.name (before.counters.get kind) ≠ other.name number :=
        fun heq => hsame (NameKind.name_inj heq)
      rw [dues, nameFor, beq_false_of_ne hne, if_neg]
      · simp
      · rintro ⟨hlater, hearlier⟩
        rcases nameFor_or_later before none kind hlater with ⟨rfl, -, heq⟩ | hlater
        · exact hsame ⟨rfl, heq.symm⟩
        · omega

/-- What is due when the parts of an expression are done: its name, unless it was given, and what
the parts made due. -/
theorem dues_parts (before : Lowering) {after : Lowering} (given : Option String) (kind : NameKind)
    {other : NameKind} {number : Nat} (hgiven : given ≠ some (other.name number))
    (hmono : (before.named given kind).counters.get other ≤ after.counters.get other) :
    dues before after other number =
      [before.nameFor given kind].count (other.name number) * (kind.selfUses + 1) +
        dues (before.named given kind) after other number := by
  rw [← dues_named before given kind hgiven]
  exact dues_trans number (counters_named_le before given kind other) hmono

/-- A name is in a list as often as it is first and among the others. -/
theorem count_first (first : String) (names : List String) (wanted : String) :
    (first :: names).count wanted = [first].count wanted + names.count wanted := by
  rw [← List.singleton_append, List.count_append]

/-- A row of nonterminals uses a name as often as the name is in it. -/
theorem count_nonterminals (names : List String) (name : String) :
    (names.map Symbol.nonterminal).count (.nonterminal name) = names.count name := by
  induction names with
  | nil => rfl
  | cons first names ih => simp [List.count_cons, ih]

/-- The name of a group is no numbered name. -/
theorem count_groupName (kind : NameKind) (number id : Nat) :
    [groupName id].count (kind.name number) = 0 := by
  rw [List.count_eq_zero, List.mem_singleton]
  exact kind.name_ne_groupName number id

/-- Names that are still to be made have no rules. -/
def Untouched (state : Lowering) : Prop :=
  ∀ (kind : NameKind) (number : Nat), state.counters.get kind ≤ number →
    state.grammar.alternatives? (kind.name number) = none

/-- Naming an expression gives nothing a rule. -/
theorem Untouched.named {state : Lowering} (huntouched : state.Untouched) (given : Option String)
    (kind : NameKind) : (state.named given kind).Untouched := by
  intro other number hlater
  have hnamed := counters_named_le state given kind other
  rw [grammar_named]
  exact huntouched other number (by omega)

/-- An expression that is only just named has no rule. -/
theorem Untouched.alternatives?_named {state : Lowering} (huntouched : state.Untouched)
    {given : Option String} (kind : NameKind) :
    (state.named given kind).grammar.alternatives? (state.nameFor none kind) = none := by
  rw [grammar_named]
  exact huntouched kind _ (Nat.le_refl _)

/-- Giving a group its name gives nothing a rule. -/
theorem Untouched.enrolled {state : Lowering} (huntouched : state.Untouched) (id : Nat) :
    (state.enrolled id).Untouched := by
  intro other number hlater
  rw [counters_enrolled] at hlater
  rw [grammar_enrolled]
  exact huntouched other number hlater

/-- Adding to a name that was made before touches none that is still to be made. -/
theorem Untouched.added {state : Lowering} (huntouched : state.Untouched) {name : String}
    (hname : ∀ kind number, state.counters.get kind ≤ number → kind.name number ≠ name)
    (alternative : Alternative) : (state.added name alternative).Untouched := by
  intro kind number hlater
  rw [alternatives?_added_of_ne _ (hname kind number hlater)]
  exact huntouched kind number hlater

/-- A name has one more alternative after an addition. -/
theorem alternatives?_added_self {state : Lowering} {name : String}
    {earlier : Option (List Alternative)}
    (hearlier : state.grammar.alternatives? name = earlier) (alternative : Alternative) :
    (state.added name alternative).grammar.alternatives? name =
      some (earlier.getD [] ++ [alternative]) := by
  rw [added, Grammar.alternatives?_add, if_pos rfl, hearlier]

/-- A numbered name has its rule, in the form of its kind. -/
def Complete (state : Lowering) (kind : NameKind) (number : Nat) : Prop :=
  ∃ alternatives, state.grammar.alternatives? (kind.name number) = some alternatives ∧
    kind.HasForm (kind.name number) alternatives

/-- An expression whose parts are complete is complete, if its own name is and no other has changed
since. -/
theorem complete_named (before after : Lowering) (given : Option String) (kind : NameKind)
    {last : Lowering} {other : NameKind} {number : Nat}
    (hself : given = none → last.Complete kind (before.counters.get kind))
    (hparts : (before.named given kind).counters.get other ≤ number → after.Complete other number)
    (hlast : ∀ wanted, wanted ≠ before.nameFor given kind →
      last.grammar.alternatives? wanted = after.grammar.alternatives? wanted)
    (hgiven : given ≠ some (other.name number)) (hlater : before.counters.get other ≤ number) :
    last.Complete other number := by
  rcases nameFor_or_later before given kind hlater with ⟨rfl, hnone, rfl⟩ | hlater
  · exact hself hnone
  · have hne : other.name number ≠ before.nameFor given kind := name_ne_nameFor hgiven (by omega)
    rw [Complete, hlast _ hne]
    exact hparts hlater

/-- An expression that has one alternative is complete with it. -/
theorem complete_added (before after : Lowering) {given : Option String} {kind other : NameKind}
    {number : Nat} {alternative : Alternative}
    (hform : kind.HasForm (before.nameFor given kind) [alternative])
    (hself : given = none → after.grammar.alternatives? (before.nameFor none kind) = none)
    (hparts : (before.named given kind).counters.get other ≤ number → after.Complete other number)
    (hgiven : given ≠ some (other.name number)) (hlater : before.counters.get other ≤ number) :
    (after.added (before.nameFor given kind) alternative).Complete other number := by
  refine complete_named before after given kind ?_ hparts
    (fun _ hne => alternatives?_added_of_ne _ hne _) hgiven hlater
  rintro rfl
  exact ⟨_, alternatives?_added_self (hself rfl) alternative, hform⟩

namespace Job

/-- The name that a job was given to add alternatives to. -/
def own : Job → Option String
  | .one _ given => given
  | .row _ => none
  | .branches name _ => some name

/-- The job was not given a name that is still to be made. -/
def Clear (state : Lowering) (job : Job) : Prop :=
  ∀ kind number, state.counters.get kind ≤ number → job.own ≠ some (kind.name number)

/-- Nothing is wrong with a job that was given no name. -/
theorem clear_of_none {job : Job} (hown : job.own = none) (state : Lowering) : job.Clear state := by
  intro kind number _
  rw [hown]
  exact nofun

variable {limits : Limits} {table : CaptureTable} {levels : Nat} {job : Job}
  {before after : Lowering} {names : List String}

/-- A successful run unmakes no name. -/
theorem Succeeds.counters_mono (hrun : Succeeds limits table levels job before names after)
    (kind : NameKind) : before.counters.get kind ≤ after.counters.get kind := by
  refine hrun.preserves (P := fun state => before.counters.get kind ≤ state.counters.get kind)
    ⟨?_, ?_, ?_⟩ (Nat.le_refl _)
  · intro state given other hstate
    exact Nat.le_trans hstate (counters_named_le state given other kind)
  · exact fun _ _ _ hstate => hstate
  · intro state id hstate
    rwa [counters_enrolled]

/-- A successful run makes rules for numbered names and for groups, unless it was given another
name. -/
theorem Succeeds.formed (hrun : Succeeds limits table levels job before names after)
    (hown : ∀ name, job.own = some name → ∃ (kind : NameKind) (number : Nat),
      name = kind.name number)
    (hformed : before.grammar.Formed) : after.grammar.Formed := by
  induction hrun with
  | char levels c given before | lookahead levels body given before =>
    refine Grammar.Formed.add_numbered ?_ (numbered_nameFor before hown _) _
    rwa [grammar_named]
  | @concat levels operands given before after names _ _ ih =>
    have hafter := ih nofun (by rwa [grammar_named])
    exact hafter.add_numbered (numbered_nameFor before hown .concat) _
  | @alternation levels operands given before after names _ _ ih =>
    refine ih ?_ (by rwa [grammar_named])
    rintro name heq
    cases heq
    exact numbered_nameFor before hown .alternation
  | @star levels body given before after inner _ ih =>
    have hafter := ih nofun (by rwa [grammar_named])
    have hself := numbered_nameFor before hown .star
    exact (hafter.add_numbered hself _).add_numbered hself _
  | @plain levels body given before after inner _ ih =>
    have hafter := ih nofun (by rwa [grammar_named])
    exact hafter.add_numbered (numbered_nameFor before hown .plain) _
  | @capture levels id body given before after inner _ _ ih
  | @forward levels id body given before after inner _ _ _ ih =>
    have hafter := ih nofun (by rwa [grammar_enrolled])
    exact hafter.add_group id inner
  | known | rowNil | branchesNil => exact hformed
  | rowCons _ _ ihhead ihtail => exact ihtail nofun (ihhead nofun hformed)
  | branchesCons _ _ ihhead ihtail =>
    exact ihtail hown ((ihhead nofun hformed).add_numbered (hown _ rfl) _)

/-- A numbered name that a run neither makes nor was given keeps its alternatives. -/
theorem Succeeds.alternatives?_eq (hrun : Succeeds limits table levels job before names after)
    {kind : NameKind} {number : Nat} (hown : job.own ≠ some (kind.name number))
    (hmade : ¬(before.counters.get kind ≤ number ∧ number < after.counters.get kind)) :
    after.grammar.alternatives? (kind.name number) =
      before.grammar.alternatives? (kind.name number) := by
  induction hrun with
  | char levels c given before | lookahead levels body given before =>
    obtain ⟨hne, -⟩ := unmade_parts before given _ hown (Nat.le_refl _) hmade
    rw [alternatives?_added_of_ne _ hne, grammar_named]
  | @concat levels operands given before after names _ hrow ih =>
    obtain ⟨hne, hparts⟩ := unmade_parts before given .concat hown (hrow.counters_mono kind) hmade
    rw [alternatives?_added_of_ne _ hne, ih nofun hparts, grammar_named]
  | @alternation levels operands given before after names _ hbranches ih =>
    obtain ⟨hne, hparts⟩ :=
      unmade_parts before given .alternation hown (hbranches.counters_mono kind) hmade
    rw [ih (fun heq => hne (Option.some.inj heq).symm) hparts, grammar_named]
  | @star levels body given before after inner hinside ih =>
    obtain ⟨hne, hparts⟩ := unmade_parts before given .star hown (hinside.counters_mono kind) hmade
    rw [alternatives?_added_of_ne _ hne, alternatives?_added_of_ne _ hne, ih nofun hparts,
      grammar_named]
  | @plain levels body given before after inner hinside ih =>
    obtain ⟨hne, hparts⟩ := unmade_parts before given .plain hown (hinside.counters_mono kind) hmade
    rw [alternatives?_added_of_ne _ hne, ih nofun hparts, grammar_named]
  | @capture levels id body given before after inner _ _ ih
  | @forward levels id body given before after inner _ _ _ ih =>
    rw [counters_added, ← counters_enrolled before id] at hmade
    rw [alternatives?_added_of_ne _ (kind.name_ne_groupName number id), ih nofun hmade,
      grammar_enrolled]
  | known | rowNil | branchesNil => rfl
  | rowCons hhead htail ihhead ihtail =>
    have hfirst := hhead.counters_mono kind
    have hothers := htail.counters_mono kind
    rw [ihtail nofun (by omega), ihhead nofun (by omega)]
  | @branchesCons levels name operand operands before between after first names hhead htail ihhead
    ihtail =>
    have hfirst := hhead.counters_mono kind
    have hothers := htail.counters_mono kind
    rw [counters_added] at hothers
    have hne : kind.name number ≠ name := fun heq => hown (congrArg some heq.symm)
    rw [ihtail hown (by rw [counters_added]; omega), alternatives?_added_of_ne _ hne,
      ihhead nofun (by omega)]

/-- Branches return no names. -/
theorem Succeeds.branches_names {name : String} {operands : List Expr}
    (hrun : Succeeds limits table levels (.branches name operands) before names after) :
    names = [] := by
  induction operands generalizing before with
  | nil =>
    cases hrun with
    | branchesNil => rfl
  | cons operand operands ih =>
    cases hrun with
    | branchesCons _ htail => exact ih htail

/-- A name that is made by a run is used or returned as often as it is due, and the uses of other
names do not change. -/
theorem Succeeds.uses_add_count (hrun : Succeeds limits table levels job before names after)
    {kind : NameKind} {number : Nat} (hgiven : job.given ≠ some (kind.name number)) :
    after.grammar.uses (kind.name number) + names.count (kind.name number) =
      before.grammar.uses (kind.name number) + dues before after kind number := by
  -- A returned name is owed a use. In every case the names that the parts return are used right
  -- away, and the name of the expression itself is returned in their place.
  induction hrun with
  | char levels c given before =>
    have hdues := dues_named before given .char hgiven
    have hnone : [Symbol.terminal c].count (.nonterminal (kind.name number)) = 0 := rfl
    rw [uses_added, grammar_named, dues_added, hdues, hnone, NameKind.selfUses]
    omega
  | lookahead levels body given before =>
    have hdues := dues_named before given .lookahead hgiven
    rw [uses_added, grammar_named, dues_added, hdues, List.count_nil, NameKind.selfUses]
    omega
  | @concat levels operands given before after names _ hrow ih =>
    have hinside := ih nofun
    have hdues := dues_parts before given .concat hgiven (hrow.counters_mono kind)
    rw [grammar_named] at hinside
    rw [uses_added, count_nonterminals, dues_added, hdues, NameKind.selfUses]
    omega
  | @alternation levels operands given before after names _ hbranches ih =>
    have hinside := ih nofun
    have hdues := dues_parts before given .alternation hgiven (hbranches.counters_mono kind)
    rw [hbranches.branches_names, List.count_nil, grammar_named] at hinside
    rw [hdues, NameKind.selfUses]
    omega
  | @star levels body given before after inner hinside ih =>
    have hbody := ih nofun
    have hdues := dues_parts before given .star hgiven (hinside.counters_mono kind)
    have hrow := count_nonterminals [before.nameFor given .star, inner] (kind.name number)
    rw [grammar_named] at hbody
    rw [List.map_cons, List.map_singleton, count_first] at hrow
    rw [uses_added, uses_added, List.count_nil, hrow, dues_added, dues_added, hdues,
      NameKind.selfUses]
    omega
  | @plain levels body given before after inner hinside ih =>
    have hbody := ih nofun
    have hdues := dues_parts before given .plain hgiven (hinside.counters_mono kind)
    have hrow := count_nonterminals [inner] (kind.name number)
    rw [grammar_named] at hbody
    rw [List.map_singleton] at hrow
    rw [uses_added, hrow, dues_added, hdues, NameKind.selfUses]
    omega
  | @capture levels id body given before after inner _ _ ih
  | @forward levels id body given before after inner _ _ _ ih =>
    have hbody := ih nofun
    have hrow := count_nonterminals [inner] (kind.name number)
    have hgroup : [groupName id].count (kind.name number) = 0 := count_groupName kind number id
    rw [grammar_enrolled, dues_enrolled] at hbody
    rw [List.map_singleton] at hrow
    rw [uses_added, hrow, dues_added, hgroup]
    omega
  | @known levels id given before _ =>
    rw [count_groupName, dues_self]
  | rowNil levels before | branchesNil levels name before => rw [List.count_nil, dues_self]
  | @rowCons levels operand operands before between after first names hhead htail ihhead ihtail =>
    have hfirst := ihhead nofun
    have hothers := ihtail nofun
    have hdues := dues_trans number (hhead.counters_mono kind) (htail.counters_mono kind)
    rw [count_first, hdues]
    omega
  | @branchesCons levels name operand operands before between after first names hhead htail ihhead
    ihtail =>
    have hfirst := ihhead nofun
    have hothers := ihtail nofun
    have hdues := dues_trans number (hhead.counters_mono kind) (htail.counters_mono kind)
    have hrow := count_nonterminals [first] (kind.name number)
    have hsame : dues (between.added name [.nonterminal first]) after kind number =
      dues between after kind number := rfl
    rw [List.map_singleton] at hrow
    rw [uses_added, hrow, hsame] at hothers
    rw [hdues]
    omega

/-- A numbered name that is returned by a run and was not given to it is made by the run. -/
theorem Succeeds.made_of_mem (hrun : Succeeds limits table levels job before names after)
    {kind : NameKind} {number : Nat} (hgiven : job.given ≠ some (kind.name number))
    (hmem : kind.name number ∈ names) :
    before.counters.get kind ≤ number ∧ number < after.counters.get kind := by
  have hgrows : before.grammar.uses (kind.name number) ≤ after.grammar.uses (kind.name number) := by
    refine hrun.preserves
      (P := fun state =>
        before.grammar.uses (kind.name number) ≤ state.grammar.uses (kind.name number))
      ⟨?_, ?_, ?_⟩ (Nat.le_refl _)
    · intro state given other hstate
      rwa [grammar_named]
    · intro state name alternative hstate
      rw [uses_added]
      omega
    · intro state id hstate
      rwa [grammar_enrolled]
  have hcount := List.count_pos_iff.mpr hmem
  have hdues := hrun.uses_add_count hgiven
  by_contra hunmade
  rw [dues, if_neg hunmade] at hdues
  omega

/-- The name of an expression has no rule before the expression is done. -/
theorem Succeeds.alternatives?_self {kind : NameKind}
    (hparts : Succeeds limits table levels job (before.named none kind) names after)
    (hown : job.own = none) (huntouched : before.Untouched) :
    after.grammar.alternatives? (kind.name (before.counters.get kind)) = none := by
  have hmade := counters_named_self before kind
  rw [hparts.alternatives?_eq (by rw [hown]; exact nofun) (by omega), grammar_named]
  exact huntouched kind _ (Nat.le_refl _)

/-- The branches of a numbered name become its alternatives, in order. -/
theorem Succeeds.branches_alternatives {kind : NameKind} {number : Nat} {operands : List Expr}
    (hrun : Succeeds limits table levels (.branches (kind.name number) operands) before names after)
    (hmade : number < before.counters.get kind) :
    ∃ inner : List String, inner.length = operands.length ∧
      (after.grammar.alternatives? (kind.name number)).getD [] =
        (before.grammar.alternatives? (kind.name number)).getD [] ++
          inner.map fun name => [.nonterminal name] := by
  induction operands generalizing before with
  | nil =>
    cases hrun with
    | branchesNil => exact ⟨[], rfl, by simp⟩
  | cons operand operands ih =>
    cases hrun with
    | @branchesCons _ _ _ _ _ between _ first _ hhead htail =>
      have hfirst := hhead.counters_mono kind
      obtain ⟨inner, hlength, hothers⟩ := ih htail (by rw [counters_added]; omega)
      have hsame : between.grammar.alternatives? (kind.name number) =
        before.grammar.alternatives? (kind.name number) := hhead.alternatives?_eq nofun (by omega)
      refine ⟨first :: inner, by simp [hlength], ?_⟩
      rw [hothers, added, Grammar.alternatives?_add, if_pos rfl, hsame]
      simp

/-- A run leaves the names that are still to be made without rules. -/
theorem Succeeds.untouched (hrun : Succeeds limits table levels job before names after)
    (huntouched : before.Untouched) (hclear : job.Clear before) : after.Untouched := by
  intro kind number hlater
  have hmono := hrun.counters_mono kind
  rw [hrun.alternatives?_eq (hclear kind number (by omega)) (by omega)]
  exact huntouched kind number (by omega)

/-- The branches of an alternation that was given no name are its alternatives. -/
theorem Succeeds.branching_self {operands : List Expr} (hnonempty : operands ≠ [])
    (hrun : Succeeds limits table levels (.branches (before.nameFor none .alternation) operands)
      (before.named none .alternation) names after)
    (huntouched : before.Untouched) :
    after.Complete .alternation (before.counters.get .alternation) := by
  have hmade := counters_named_self before .alternation
  obtain ⟨inner, hlength, hbranched⟩ := hrun.branches_alternatives (by omega)
  rw [grammar_named, huntouched .alternation _ (Nat.le_refl _), Option.getD_none, List.nil_append]
    at hbranched
  have hsome : inner ≠ [] := by
    rintro rfl
    exact hnonempty (List.eq_nil_of_length_eq_zero hlength.symm)
  cases hfound : after.grammar.alternatives?
    (NameKind.alternation.name (before.counters.get .alternation)) with
  | none =>
    rw [hfound, Option.getD_none] at hbranched
    exact absurd (List.map_eq_nil_iff.mp hbranched.symm) hsome
  | some alternatives =>
    rw [hfound, Option.getD_some] at hbranched
    exact ⟨alternatives, hfound, inner, hsome, hbranched⟩

/-- A numbered name that was made by a run is complete after it. -/
theorem Succeeds.complete (hrun : Succeeds limits table levels job before names after)
    (huntouched : before.Untouched) (hclear : job.Clear before) {kind : NameKind} {number : Nat}
    (hlater : before.counters.get kind ≤ number) (hmade : number < after.counters.get kind) :
    after.Complete kind number := by
  -- Each expression has its own name and the names made by its parts; the first is read off the
  -- alternatives that are added at the end, the others are complete before that.
  induction hrun with
  | char levels c given before =>
    refine complete_added before _ ⟨c, rfl⟩ (fun _ => huntouched.alternatives?_named .char)
      (fun hparts => ?_) (hclear kind number hlater) hlater
    exact absurd hmade (Nat.not_lt.mpr hparts)
  | lookahead levels body given before =>
    refine complete_added before _ rfl (fun _ => huntouched.alternatives?_named .lookahead)
      (fun hparts => ?_) (hclear kind number hlater) hlater
    exact absurd hmade (Nat.not_lt.mpr hparts)
  | @concat levels operands given before after names hnonempty hrow ih =>
    have hsome : names ≠ [] := by
      rintro rfl
      cases hrow
      exact hnonempty rfl
    refine complete_added before after ⟨names, hsome, rfl⟩ ?_ (fun hparts => ?_)
      (hclear kind number hlater) hlater
    · rintro rfl
      exact hrow.alternatives?_self rfl huntouched
    · exact ih (huntouched.named given .concat) (clear_of_none rfl _) hparts hmade
  | @alternation levels operands given before after names hnonempty hbranches ih =>
    refine complete_named before after given .alternation ?_ (fun hparts => ?_) (fun _ _ => rfl)
      (hclear kind number hlater) hlater
    · rintro rfl
      exact hbranches.branching_self hnonempty huntouched
    · refine ih (huntouched.named given .alternation) (fun other wanted hwanted heq => ?_)
        hparts hmade
      have hnamed := counters_named_le before given .alternation other
      have hne : other.name wanted ≠ before.nameFor given .alternation :=
        name_ne_nameFor (hclear other wanted (by omega)) (by omega)
      exact hne (Option.some.inj heq).symm
  | @star levels body given before after inner hinside ih =>
    refine complete_named before after given .star ?_ (fun hparts => ?_) ?_
      (hclear kind number hlater) hlater
    · rintro rfl
      have hnone := hinside.alternatives?_self rfl huntouched
      have hempty := alternatives?_added_self hnone []
      refine ⟨_, alternatives?_added_self hempty _, inner, ?_, rfl⟩
      -- The name of the body is made after that of the repetition.
      rintro rfl
      have hlate := (hinside.made_of_mem nofun (List.mem_singleton_self _)).1
      rw [counters_named_self] at hlate
      omega
    · exact ih (huntouched.named given .star) (clear_of_none rfl _) hparts hmade
    · intro wanted hne
      rw [alternatives?_added_of_ne _ hne, alternatives?_added_of_ne _ hne]
  | @plain levels body given before after inner hinside ih =>
    refine complete_added before after ⟨inner, rfl⟩ ?_ (fun hparts => ?_)
      (hclear kind number hlater) hlater
    · rintro rfl
      exact hinside.alternatives?_self rfl huntouched
    · exact ih (huntouched.named given .plain) (clear_of_none rfl _) hparts hmade
  | @capture levels id body given before after inner _ _ ih
  | @forward levels id body given before after inner _ _ _ ih =>
    have hinside :=
      ih (huntouched.enrolled id) (clear_of_none rfl _) (by rwa [counters_enrolled]) hmade
    rw [Complete, alternatives?_added_of_ne _ (kind.name_ne_groupName number id)]
    exact hinside
  | known | rowNil | branchesNil => omega
  | @rowCons levels operand operands before between after first names hhead htail ihhead ihtail =>
    have hbetween := hhead.untouched huntouched (clear_of_none rfl _)
    by_cases hfirst : number < between.counters.get kind
    · rw [Complete, htail.alternatives?_eq nofun (by omega)]
      exact ihhead huntouched (clear_of_none rfl _) hlater hfirst
    · exact ihtail hbetween (clear_of_none rfl _) (by omega) hmade
  | @branchesCons levels name operand operands before between after first names hhead htail ihhead
    ihtail =>
    have hbetween := hhead.untouched huntouched (clear_of_none rfl _)
    have hmono := hhead.counters_mono
    have hname : ∀ other wanted, between.counters.get other ≤ wanted → other.name wanted ≠ name :=
      fun other wanted hwanted heq =>
        hclear other wanted (Nat.le_trans (hmono other) hwanted) (congrArg some heq.symm)
    by_cases hfirst : number < between.counters.get kind
    · have hne : kind.name number ≠ name :=
        fun heq => hclear kind number hlater (congrArg some heq.symm)
      rw [Complete,
        htail.alternatives?_eq (hclear kind number hlater) (by rw [counters_added]; omega),
        alternatives?_added_of_ne _ hne]
      exact ihhead huntouched (clear_of_none rfl _) hlater hfirst
    · refine ihtail (hbetween.added hname _) (fun other wanted hwanted => ?_)
        (by rw [counters_added]; omega) hmade
      exact hclear other wanted (Nat.le_trans (hmono other) hwanted)

end Job

/-- Nothing has a rule at the start. -/
theorem untouched_start : Untouched .start := fun _ _ _ => rfl

/-- Nothing has a rule at the start, so there is nothing to be said of the rules. -/
theorem formed_start : Lowering.start.grammar.Formed := nofun

/-- No name has been made at the start. -/
theorem counters_start_le (kind : NameKind) (number : Nat) :
    Lowering.start.counters.get kind ≤ number := by
  rw [start, Counters.get_zero]
  exact Nat.zero_le number

namespace Job

variable {limits : Limits} {table : CaptureTable} {levels : Nat} {job : Job} {after : Lowering}
  {names : List String} {kind : NameKind} {number : Nat}

/-- After a run from the start, every name that has been made is complete. -/
theorem Succeeds.complete_of_start (hrun : Succeeds limits table levels job .start names after)
    (hown : job.own = none) (hmade : number < after.counters.get kind) :
    after.Complete kind number :=
  hrun.complete untouched_start (clear_of_none hown _) (counters_start_le kind number) hmade

/-- After a run from the start, the numbered names that have rules are those that have been made. -/
theorem Succeeds.mem_nonterminals_iff (hrun : Succeeds limits table levels job .start names after)
    (hown : job.own = none) :
    kind.name number ∈ after.grammar.nonterminals ↔ number < after.counters.get kind := by
  rw [← Grammar.exists_alternatives?_iff]
  constructor
  · rintro ⟨alternatives, hfound⟩
    by_contra hlater
    rw [hrun.untouched untouched_start (clear_of_none hown _) kind number (by omega)] at hfound
    cases hfound
  · intro hmade
    obtain ⟨alternatives, hfound, -⟩ := hrun.complete_of_start hown hmade
    exact ⟨alternatives, hfound⟩

/-- After a run from the start, a name that has been made is used or returned once by others than
itself. -/
theorem Succeeds.uses_of_start (hrun : Succeeds limits table levels job .start names after)
    (hown : job.given = none) (hmade : number < after.counters.get kind) :
    after.grammar.uses (kind.name number) + names.count (kind.name number) = kind.selfUses + 1 := by
  have hgiven : job.given ≠ some (kind.name number) := by
    rw [hown]
    exact nofun
  rw [hrun.uses_add_count hgiven, dues, if_pos ⟨counters_start_le kind number, hmade⟩, start,
    Grammar.uses_empty, Nat.zero_add]

end Job

end Lowering

/-- What holds of the nonterminals that are numbered after a stem. -/
structure Grammar.Numbered (grammar : Grammar) (stem : String) (times : Nat)
    (form : String → List Alternative → Prop) : Prop where
  /-- The numbers begin at zero and have no gaps. -/
  numbers : ∃ count, ∀ number : Nat,
    stem ++ toString number ∈ grammar.nonterminals ↔ number < count
  /-- The alternatives are of the form. -/
  forms : ∀ (number : Nat) (alternatives : List Alternative),
    grammar.alternatives? (stem ++ toString number) = some alternatives →
      form (stem ++ toString number) alternatives
  /-- Each is used as many times. -/
  uses : ∀ number : Nat, stem ++ toString number ∈ grammar.nonterminals →
    grammar.uses (stem ++ toString number) = times

/-- What the rules of a grammar look like, and how often each nonterminal is used. A repetition is
used once by others and once by itself, every other numbered name just once. -/
structure Grammar.Orderly (grammar : Grammar) : Prop where
  /-- No nonterminal is repeated. -/
  nodup : grammar.nonterminals.Nodup
  /-- The start symbol came in last, and only numbered names and groups came in before it. -/
  last : ∃ earlier, grammar.nonterminals = earlier ++ ["S"] ∧ ∀ name ∈ earlier,
    (∃ stem ∈ ["CHAR", "NonCapt", "LookAh", "Concat", "Or", "KleeneSt"],
      ∃ number : Nat, name = stem ++ toString number) ∨ ∃ id : Nat, name = "Group" ++ toString id
  /-- A character has one alternative, a terminal. -/
  chars : grammar.Numbered "CHAR" 1 fun _ alternatives => ∃ c, alternatives = [[.terminal c]]
  /-- A bracket that captures nothing has one alternative, a nonterminal. -/
  plains : grammar.Numbered "NonCapt" 1 fun _ alternatives =>
    ∃ inner, alternatives = [[.nonterminal inner]]
  /-- A lookahead has one alternative, and nothing is in it. -/
  lookaheads : grammar.Numbered "LookAh" 1 fun _ alternatives => alternatives = [[]]
  /-- A concatenation has one alternative, of one or more nonterminals. -/
  concats : grammar.Numbered "Concat" 1 fun _ alternatives =>
    ∃ inner : List String, inner ≠ [] ∧ alternatives = [inner.map .nonterminal]
  /-- An alternation has one or more alternatives, all of them single nonterminals. -/
  alternations : grammar.Numbered "Or" 1 fun _ alternatives => Branching alternatives
  /-- A repetition is over, or goes on with another nonterminal after itself. -/
  repetitions : grammar.Numbered "KleeneSt" 2 fun name alternatives =>
    ∃ inner, inner ≠ name ∧ alternatives = [[], [.nonterminal name, .nonterminal inner]]
  /-- A group has one or more alternatives, all of them single nonterminals. -/
  groups : ∀ (id : Nat) (alternatives : List Alternative),
    grammar.alternatives? ("Group" ++ toString id) = some alternatives → Branching alternatives

/-- A name that is made by a lowering is a stem with a number, or a group. -/
theorem exists_stem_of_generated {name : String} (hgenerated : Generated name) :
    (∃ stem ∈ ["CHAR", "NonCapt", "LookAh", "Concat", "Or", "KleeneSt"],
      ∃ number : Nat, name = stem ++ toString number) ∨
        ∃ id : Nat, name = "Group" ++ toString id := by
  refine hgenerated.imp_left ?_
  rintro ⟨kind, number, rfl⟩
  refine ⟨kind.stem, ?_, number, rfl⟩
  cases kind <;> decide

namespace Pattern

/-- Every grammar that a pattern is lowered to is orderly, whatever its table holds. -/
theorem orderly_toGrammar {pattern : Pattern} {grammar : Grammar}
    (hgrammar : pattern.toGrammar = .ok grammar) : grammar.Orderly := by
  obtain ⟨top, state, rfl, hrun⟩ := succeeds_of_toGrammar hgrammar
  have hformed := hrun.formed nofun Lowering.formed_start
  have hnonterminals := Grammar.nonterminals_add state.grammar Grammar.startName [.nonterminal top]
  rw [if_neg hformed.startName_notMem] at hnonterminals
  -- The start symbol is no numbered name and no group, so their rules are those before it came in.
  have hearlier {name : String} (hgenerated : Generated name) :
      (state.grammar.add Grammar.startName [.nonterminal top]).alternatives? name =
        state.grammar.alternatives? name := by
    rw [Grammar.alternatives?_add, if_neg]
    rintro rfl
    exact not_generated_startName hgenerated
  have hmem (kind : NameKind) (number : Nat) :
      kind.name number ∈ (state.grammar.add Grammar.startName [.nonterminal top]).nonterminals ↔
        number < state.counters.get kind := by
    rw [← Grammar.exists_alternatives?_iff, hearlier (.inl ⟨kind, number, rfl⟩),
      Grammar.exists_alternatives?_iff, hrun.mem_nonterminals_iff rfl]
  have hnumbered (kind : NameKind) :
      (state.grammar.add Grammar.startName [.nonterminal top]).Numbered kind.stem
        (kind.selfUses + 1) fun name alternatives => kind.HasForm name alternatives := by
    refine ⟨⟨_, hmem kind⟩, fun number alternatives hfound => ?forms, fun number hnumber => ?uses⟩
    case forms =>
      have hmade := (hmem kind number).mp (Grammar.exists_alternatives?_iff.mp ⟨_, hfound⟩)
      obtain ⟨others, hothers, hform⟩ := hrun.complete_of_start rfl hmade
      cases hothers.symm.trans ((hearlier (.inl ⟨kind, number, rfl⟩)).symm.trans hfound)
      exact hform
    case uses =>
      have hmade := (hmem kind number).mp hnumber
      have hrow := Lowering.count_nonterminals [top] (kind.name number)
      rw [List.map_singleton] at hrow
      have huses :=
        Grammar.uses_add state.grammar Grammar.startName [.nonterminal top] (kind.name number)
      rw [hrow, hrun.uses_of_start rfl hmade] at huses
      exact huses
  exact {
    nodup := Grammar.distinct _
    last := ⟨_, hnonterminals, fun _ hname => exists_stem_of_generated (hformed.generated hname)⟩
    chars := hnumbered .char
    plains := hnumbered .plain
    lookaheads := hnumbered .lookahead
    concats := hnumbered .concat
    alternations := hnumbered .alternation
    repetitions := hnumbered .star
    groups := fun id alternatives hfound =>
      hformed.branching ((hearlier (.inr ⟨id, rfl⟩)).symm.trans hfound) }

/-- A table that disagrees with the expression and whose groups refer to each other. -/
theorem orderly_toGrammar_disagreeing :
    ∃ grammar, toGrammar ⟨.concat [.reference 1, .star (.capture 1 (.char 'a'))],
      .ofList [(1, .star (.reference 2)), (2, .plain (.reference 1))]⟩ = .ok grammar ∧
        grammar.Orderly := by
  refine ⟨?grammar, ?lowered, orderly_toGrammar ?lowered⟩
  case lowered => rfl

end Pattern

end PatternGrammar
