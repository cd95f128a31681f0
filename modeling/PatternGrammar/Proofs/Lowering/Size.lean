import Mathlib.Algebra.GroupWithZero.Nat
import Mathlib.Algebra.Order.BigOperators.Group.List
import Mathlib.Algebra.Order.Group.Nat
import PatternGrammar.Proofs.Lowering.Run

/-!
# How large a lowered grammar is

Lowering an expression adds a number of alternatives that can be read off the expression, and a
reference adds none by itself. Only the first reference to a group that has no name yet adds more:
it follows the table, and what the table holds may follow it further. Each run therefore follows a
list of table entries, none of them twice, and adds exactly the weight of its own expressions and of
the entries that it followed. Nothing is assumed about the table, which may disagree with the
expression and have circles.
-/

namespace PatternGrammar

namespace Grammar

/-- Number of alternatives of all rules. -/
def alternativeCount (grammar : Grammar) : Nat :=
  (grammar.rules.map fun rule => rule.alternatives.length).sum

/-- An addition to a list of rules is one more alternative, whether or not it makes a new rule. -/
theorem sum_length_addTo (name : String) (alternative : Alternative) (rules : List Rule) :
    ((addTo name alternative rules).map fun rule => rule.alternatives.length).sum =
      (rules.map fun rule => rule.alternatives.length).sum + 1 := by
  induction rules with
  | nil => rfl
  | cons rule rest ih =>
    unfold addTo
    split
    next =>
      simp only [List.map_cons, List.sum_cons, List.length_append, List.length_singleton]
      omega
    next =>
      simp only [List.map_cons, List.sum_cons, ih]
      omega

/-- Every addition counts once. -/
theorem alternativeCount_add (grammar : Grammar) (name : String) (alternative : Alternative) :
    (grammar.add name alternative).alternativeCount = grammar.alternativeCount + 1 :=
  sum_length_addTo name alternative grammar.rules

end Grammar

namespace Expr

mutual
/-- Number of alternatives that an expression stands for by itself, without those of the groups it
refers to. -/
def weight : Expr → Nat
  | .char _ | .lookahead _ => 1
  | .reference _ => 0
  | .concat operands => 1 + rowWeight operands
  | .alternation operands => branchesWeight operands
  | .star body => 2 + body.weight
  | .capture _ body | .plain body => 1 + body.weight

/-- Sum of the weights of the operands of a row. -/
def rowWeight : List Expr → Nat
  | [] => 0
  | expr :: rest => expr.weight + rowWeight rest

/-- Sum of the weights of branches, with one more alternative for each of them. -/
def branchesWeight : List Expr → Nat
  | [] => 0
  | expr :: rest => 1 + expr.weight + branchesWeight rest
end

end Expr

namespace CaptureTable

/-- Number of alternatives that following an entry stands for: those of what it holds and the one
that leads there. -/
def entryWeight (entry : Nat × Expr) : Nat :=
  1 + entry.2.weight

/-- Entries that are followed once at most weigh no more than the whole table. -/
theorem sum_entryWeight_le {table : CaptureTable} {followed : List (Nat × Expr)}
    (honce : followed.Nodup) (hheld : followed ⊆ table.entries) :
    (followed.map entryWeight).sum ≤ (table.entries.map entryWeight).sum := by
  obtain ⟨arranged, hperm, hsublist⟩ := List.subperm_of_subset honce hheld
  calc (followed.map entryWeight).sum
      = (arranged.map entryWeight).sum := ((hperm.map entryWeight).sum_eq).symm
    _ ≤ (table.entries.map entryWeight).sum :=
        (hsublist.map entryWeight).sum_le_sum fun _ _ => Nat.zero_le _

end CaptureTable

namespace Lowering.Job

/-- Weight of the expressions of a job. -/
def weight : Job → Nat
  | .one expr _ => expr.weight
  | .row operands => Expr.rowWeight operands
  | .branches _ operands => Expr.branchesWeight operands

/-- What a run adds to the rules, given the table entries that it followed. -/
structure Charges (table : CaptureTable) (job : Job) (before after : Lowering)
    (followed : List (Nat × Expr)) : Prop where
  /-- The run adds the alternatives of its expressions and of the entries that it followed. -/
  count : after.grammar.alternativeCount =
    before.grammar.alternativeCount + job.weight + (followed.map CaptureTable.entryWeight).sum
  /-- Only entries of the table are followed. -/
  held : followed ⊆ table.entries
  /-- No entry is followed twice. -/
  once : followed.Nodup
  /-- A group whose entry is followed had no name before the run. -/
  unnamed : ∀ entry ∈ followed, entry.1 ∉ before.registered
  /-- It has its name after the run. -/
  named : ∀ entry ∈ followed, entry.1 ∈ after.registered
  /-- Only references make the run follow an entry. -/
  idle : (∀ id, ¬job.Exposes (.reference id)) → followed = []

variable {limits : Limits} {table : CaptureTable} {levels : Nat} {job : Job}
  {before after : Lowering} {names : List String}

/-- A run that follows nothing and adds the weight of its job. -/
theorem charges_nil
    (hcount : after.grammar.alternativeCount = before.grammar.alternativeCount + job.weight) :
    Charges table job before after [] where
  count := hcount
  held := List.nil_subset _
  once := .nil
  unnamed := nofun
  named := nofun
  idle := fun _ => rfl

/-- A job around another one follows what the inner one follows and adds the alternatives of its
own. -/
theorem Charges.around {followed : List (Nat × Expr)} {outer : Job} {start finish : Lowering}
    (hinner : Charges table job before after followed)
    (hstart : before.grammar = start.grammar) (hearlier : start.registered ⊆ before.registered)
    (hfinish : finish.grammar.alternativeCount + job.weight =
      after.grammar.alternativeCount + outer.weight)
    (hlater : finish.registered = after.registered)
    (hexposes : ∀ id, job.Exposes (.reference id) → outer.Exposes (.reference id)) :
    Charges table outer start finish followed where
  count := by
    have hcount := hinner.count
    rw [hstart] at hcount
    omega
  held := hinner.held
  once := hinner.once
  unnamed := fun entry hmem hregistered => hinner.unnamed entry hmem (hearlier hregistered)
  named := by
    intro entry hmem
    rw [hlater]
    exact hinner.named entry hmem
  idle := fun hnone => hinner.idle fun id hreference => hnone id (hexposes id hreference)

/-- A job that only makes a name before the one inside it. -/
theorem Charges.around_named {followed : List (Nat × Expr)} {outer : Job} {given : Option String}
    {kind : NameKind} {finish : Lowering}
    (hinner : Charges table job (before.named given kind) after followed)
    (hfinish : finish.grammar.alternativeCount + job.weight =
      after.grammar.alternativeCount + outer.weight)
    (hlater : finish.registered = after.registered)
    (hexposes : ∀ id, job.Exposes (.reference id) → outer.Exposes (.reference id)) :
    Charges table outer before finish followed := by
  refine hinner.around (grammar_named ..) ?_ hfinish hlater hexposes
  rw [registered_named]
  exact List.Subset.refl _

/-- The first reference to a group follows its entry and then what the entry makes it follow. -/
theorem Charges.forward {followed : List (Nat × Expr)} {id : Nat} {body : Expr} {inner : String}
    (hbody : Charges table (.one body none) (before.enrolled id) after followed)
    (hholds : table.get? id = some body) (hunregistered : id ∉ before.registered)
    (hregistered : id ∈ after.registered) (given : Option String) :
    Charges table (.one (.reference id) given) before
      (after.added (groupName id) [.nonterminal inner]) ((id, body) :: followed) where
  count := by
    have hcount := hbody.count
    rw [grammar_enrolled] at hcount
    simp only [added, Grammar.alternativeCount_add, hcount, weight, Expr.weight,
      CaptureTable.entryWeight, List.map_cons, List.sum_cons]
    omega
  held := List.cons_subset.mpr ⟨CaptureTable.get?_eq_some.mp hholds, hbody.held⟩
  once := by
    refine List.nodup_cons.mpr ⟨fun hmem => ?_, hbody.once⟩
    exact hbody.unnamed _ hmem ((mem_registered_enrolled ..).mpr (.inl rfl))
  unnamed := by
    refine List.forall_mem_cons.mpr ⟨hunregistered, fun entry hmem hbefore => ?_⟩
    exact hbody.unnamed entry hmem ((mem_registered_enrolled ..).mpr (.inr hbefore))
  named := List.forall_mem_cons.mpr ⟨hregistered, hbody.named⟩
  idle := fun hnone => absurd (.here _) (hnone id)

/-- A job that comes after another one follows none of the entries that the first one followed. -/
theorem Charges.append {followed later : List (Nat × Expr)} {first rest whole : Job}
    {between next : Lowering} (hfirst : Charges table first before between followed)
    (hrest : Charges table rest next after later)
    (hcount : next.grammar.alternativeCount + first.weight + rest.weight =
      between.grammar.alternativeCount + whole.weight)
    (hearlier : before.registered ⊆ between.registered)
    (hnext : next.registered = between.registered) (hlater : next.registered ⊆ after.registered)
    (hhead : ∀ id, first.Exposes (.reference id) → whole.Exposes (.reference id))
    (htail : ∀ id, rest.Exposes (.reference id) → whole.Exposes (.reference id)) :
    Charges table whole before after (followed ++ later) where
  count := by
    have hbetween := hfirst.count
    have hafter := hrest.count
    rw [List.map_append, List.sum_append]
    omega
  held := List.append_subset.mpr ⟨hfirst.held, hrest.held⟩
  once := by
    refine List.nodup_append'.mpr ⟨hfirst.once, hrest.once, fun entry hmem hagain => ?_⟩
    have hnamed := hfirst.named entry hmem
    rw [← hnext] at hnamed
    exact hrest.unnamed entry hagain hnamed
  unnamed := by
    refine List.forall_mem_append.mpr ⟨hfirst.unnamed, fun entry hmem hbefore => ?_⟩
    have hbetween := hearlier hbefore
    rw [← hnext] at hbetween
    exact hrest.unnamed entry hmem hbetween
  named := by
    refine List.forall_mem_append.mpr ⟨fun entry hmem => ?_, hrest.named⟩
    have hnamed := hfirst.named entry hmem
    rw [← hnext] at hnamed
    exact hlater hnamed
  idle := by
    intro hnone
    rw [hfirst.idle fun id hreference => hnone id (hhead id hreference),
      hrest.idle fun id hreference => hnone id (htail id hreference), List.append_nil]

/-- Every successful run adds exactly the weight of its expressions and of table entries that it
follows, each of them once at most. -/
theorem Succeeds.charges (hrun : Succeeds limits table levels job before names after) :
    ∃ followed, Charges table job before after followed := by
  induction hrun with
  | char levels c given before | lookahead levels body given before =>
    refine ⟨[], charges_nil ?_⟩
    simp only [added, Grammar.alternativeCount_add, grammar_named, weight, Expr.weight]
  | concat _ _ ih =>
    obtain ⟨followed, hrow⟩ := ih
    refine ⟨followed, hrow.around_named ?_ rfl fun _ => exposes_concat⟩
    simp only [added, Grammar.alternativeCount_add, weight, Expr.weight]
    omega
  | alternation _ _ ih =>
    obtain ⟨followed, hbranches⟩ := ih
    exact ⟨followed, hbranches.around_named rfl rfl fun _ => exposes_alternation⟩
  | star _ ih =>
    obtain ⟨followed, hbody⟩ := ih
    refine ⟨followed, hbody.around_named ?_ rfl fun _ => .star⟩
    simp only [added, Grammar.alternativeCount_add, weight, Expr.weight]
    omega
  | plain _ ih =>
    obtain ⟨followed, hbody⟩ := ih
    refine ⟨followed, hbody.around_named ?_ rfl fun _ => .plain⟩
    simp only [added, Grammar.alternativeCount_add, weight, Expr.weight]
    omega
  | capture _ _ ih =>
    -- The group receives its name here, so its entry is not followed afterwards.
    obtain ⟨followed, hbody⟩ := ih
    refine ⟨followed, hbody.around (grammar_enrolled ..) ?_ ?_ rfl fun _ => .capture⟩
    · exact fun other hmem => (mem_registered_enrolled ..).mpr (.inr hmem)
    · simp only [added, Grammar.alternativeCount_add, weight, Expr.weight]
      omega
  | known | rowNil | branchesNil => exact ⟨[], charges_nil rfl⟩
  | @forward levels id body given before after inner hunregistered hholds hinside ih =>
    obtain ⟨followed, hbody⟩ := ih
    have hregistered := hinside.registered_mono ((mem_registered_enrolled ..).mpr (.inl rfl))
    exact ⟨_, hbody.forward hholds hunregistered hregistered given⟩
  | @rowCons levels operand operands before between after first names hhead htail ihhead ihtail =>
    obtain ⟨followed, hfirst⟩ := ihhead
    obtain ⟨later, hrest⟩ := ihtail
    refine ⟨_, hfirst.append hrest ?_ hhead.registered_mono rfl htail.registered_mono
      (fun _ => exposes_head) fun _ => exposes_tail⟩
    simp only [weight, Expr.rowWeight]
    omega
  | @branchesCons levels name operand operands before between after first names hhead htail ihhead
    ihtail =>
    obtain ⟨followed, hfirst⟩ := ihhead
    obtain ⟨later, hrest⟩ := ihtail
    refine ⟨_, hfirst.append hrest ?_ hhead.registered_mono rfl htail.registered_mono
      (fun _ => exposes_head) fun _ => exposes_tail⟩
    simp only [added, Grammar.alternativeCount_add, weight, Expr.branchesWeight]
    omega

end Lowering.Job

namespace Pattern

/-- A grammar has at most as many alternatives as its expression and all table entries weigh, and
exactly as many as its expression if that refers to nothing. -/
theorem alternativeCount_toGrammar {pattern : Pattern} {grammar : Grammar}
    (hgrammar : pattern.toGrammar = .ok grammar) :
    grammar.alternativeCount ≤ 1 + pattern.root.weight +
        (pattern.captures.entries.map fun entry => 1 + entry.2.weight).sum ∧
      ((∀ id, ¬pattern.root.Exposes (.reference id)) →
        grammar.alternativeCount = 1 + pattern.root.weight) := by
  obtain ⟨top, state, rfl, hrun⟩ := succeeds_of_toGrammar hgrammar
  obtain ⟨followed, hcharges⟩ := hrun.charges
  have hcount : (state.grammar.add Grammar.startName [.nonterminal top]).alternativeCount =
      1 + pattern.root.weight + (followed.map CaptureTable.entryWeight).sum := by
    have hstart : Lowering.start.grammar.alternativeCount = 0 := rfl
    have hstate := hcharges.count
    simp only [Lowering.Job.weight] at hstate
    rw [Grammar.alternativeCount_add]
    omega
  constructor
  · have htable := CaptureTable.sum_entryWeight_le hcharges.once hcharges.held
    rw [hcount]
    exact Nat.add_le_add_left htable _
  · intro hnone
    rw [hcount, hcharges.idle hnone]
    rfl

/-- Two groups of the table that refer to each other are both followed once, which is as much as the
table allows. A capture group is not followed through the table, whatever the table holds for it,
and the body of a lookahead makes no difference. -/
theorem alternativeCount_toGrammar_circular :
    (∃ grammar, toGrammar ⟨.concat [.reference 1, .reference 2, .char 'b'],
        .ofList [(1, .concat [.char 'a', .reference 2]), (2, .star (.reference 1))]⟩ = .ok grammar ∧
      grammar.alternativeCount = 9 ∧ grammar.alternativeCount ≤ 1 + 2 + (1 + 2 + (1 + 2))) ∧
    ∃ grammar, toGrammar ⟨.concat [.capture 1 (.star (.char 'a')), .lookahead (.reference 7)],
        .ofList [(1, .reference 7)]⟩ = .ok grammar ∧ grammar.alternativeCount = 1 + 6 := by
  constructor
  · refine ⟨?circular, ?followed, ?count, (alternativeCount_toGrammar ?followed).1⟩
    case followed => rfl
    case count => rfl
  · refine ⟨?closed, ?lowered, (alternativeCount_toGrammar ?lowered).2 fun id hexposes => ?_⟩
    case lowered => rfl
    cases hexposes with
    | concat hmem hexposes =>
      rcases List.mem_pair.mp hmem with rfl | rfl
      · cases hexposes with
        | capture hexposes =>
          cases hexposes with
          | star hexposes => cases hexposes
      · cases hexposes

end Pattern

end PatternGrammar
