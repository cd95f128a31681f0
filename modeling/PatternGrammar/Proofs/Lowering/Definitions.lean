import PatternGrammar.Proofs.Lowering.Meaning

/-!
# Definitions one after another

Expressions can be lowered under chosen names one after another on the same state. Each definition
finds the counters and the groups as the earlier ones left them, so whether a reference lowers its
group depends on everything that came before, and later definitions go on adding alternatives to
groups that earlier ones use. None of this changes a meaning: the lexicon only grows from one
definition to the next and leaves nothing pending in between. If the table agrees with all
expressions, every name that was returned derives the words of its own expression in the grammar at
the end.
-/

namespace PatternGrammar

/-- The nonterminal of an expression that is lowered under a name: groups and references to them
keep the name of the group. -/
def Expr.definedName (name : String) : Expr → String
  | .capture id _ | .reference id => groupName id
  | .char _ | .concat _ | .alternation _ | .star _ | .plain _ | .lookahead _ => name

namespace Lowering

/-- A run under a given name returns that name, or the name of the group. -/
theorem Job.Succeeds.eq_definedName {limits : Limits} {table : CaptureTable} {levels : Nat}
    {state next : Lowering} {name result : String} {expr : Expr}
    (hrun : Succeeds limits table levels (.one expr (some name)) state [result] next) :
    result = expr.definedName name := by
  cases hrun <;> rfl

end Lowering

namespace Lexicon

variable {limits : Limits} {table : CaptureTable} {lexicon : Lexicon} {state : Lowering}

/-- One successful definition under an unused name: the lexicon grows, nothing is pending after it,
and of the names that lowering does not make only the chosen one receives a meaning. -/
theorem Describes.define {next : Lowering} {name result : String} {expr : Expr}
    (hdescribes : Describes table lexicon ∅ state) (hcoherent : table.Coherent)
    (hagrees : table.Agrees expr) (hunused : lexicon name = none) (hname : ¬Generated name)
    (hdefine : Lowering.define limits table state name expr = (.ok result, next)) :
    ∃ larger, lexicon.Extends larger ∧ Describes table larger ∅ next ∧ larger.Stands result expr ∧
      ∀ other, ¬Generated other → other ≠ name → larger other = lexicon other := by
  have hrun := Lowering.succeeds_of_define hdefine
  have hadmits : lexicon.Admits (some name) := by
    intro given heq
    cases heq
    exact ⟨hunused, hname⟩
  obtain ⟨larger, hcontinues⟩ := hrun.continues hcoherent hagrees hdescribes hadmits
  obtain ⟨returned, hreturned, hstands⟩ := hcontinues.done
  cases hreturned
  refine ⟨larger, hcontinues.keeps, hcontinues.describes, hstands, fun other hother hne => ?_⟩
  exact hcontinues.frame other hother fun heq => hne (Option.some.inj heq).symm

/-- Successful definitions under different unused names: at the end every name that was returned
stands for its expression. -/
theorem Describes.defineAll {steps : List (String × Expr)} {names : List String} {last : Lowering}
    (hdescribes : Describes table lexicon ∅ state) (hcoherent : table.Coherent)
    (hagrees : ∀ step ∈ steps, table.Agrees step.2)
    (hunused : ∀ step ∈ steps, lexicon step.1 = none ∧ ¬Generated step.1)
    (hdistinct : (steps.map Prod.fst).Nodup)
    (hdefine : Lowering.defineAll limits table state steps = (names.map .ok, last)) :
    ∃ larger, lexicon.Extends larger ∧ Describes table larger ∅ last ∧
      List.Forall₂ (fun step result => result = step.2.definedName step.1 ∧
        larger.Stands result step.2)
        steps names := by
  -- The lexicon and the state are general: a definition starts from what the earlier ones have made
  -- of both.
  induction steps generalizing lexicon state names with
  | nil =>
    cases names with
    | cons result names => cases hdefine
    | nil =>
      cases hdefine
      exact ⟨lexicon, fun _ _ heq => heq, hdescribes, .nil⟩
  | cons step rest ih =>
    obtain ⟨name, expr⟩ := step
    cases names with
    | nil => cases hdefine
    | cons result names =>
      obtain ⟨next, hfirst, hothers⟩ := Lowering.define_of_defineAll_cons hdefine
      obtain ⟨hagree, hagrees⟩ := List.forall_mem_cons.mp hagrees
      obtain ⟨hhead, hunused⟩ := List.forall_mem_cons.mp hunused
      obtain ⟨hnew, hdistinct⟩ := List.nodup_cons.mp hdistinct
      obtain ⟨between, hextends, hbetween, hstands, hframe⟩ :=
        hdescribes.define hcoherent hagree hhead.1 hhead.2 hfirst
      -- The names that are still to come have no meaning yet, because the first name is not among
      -- them.
      have hstill : ∀ step ∈ rest, between step.1 = none ∧ ¬Generated step.1 := by
        intro step hmem
        obtain ⟨hnone, hgenerated⟩ := hunused step hmem
        have hne : step.1 ≠ name := by
          rintro rfl
          exact hnew (List.mem_map.mpr ⟨step, hmem, rfl⟩)
        rw [hframe step.1 hgenerated hne]
        exact ⟨hnone, hgenerated⟩
      obtain ⟨larger, hgrows, hlarger, hnames⟩ := ih hbetween hagrees hstill hdistinct hothers
      have hname := (Lowering.succeeds_of_define hfirst).eq_definedName
      exact ⟨larger, hextends.trans hgrows, hlarger, .cons ⟨hname, hstands.mono hgrows⟩ hnames⟩

end Lexicon

namespace Lowering

/-- Definitions do not interfere. If all of them succeed, under different names that lowering does
not make by itself, and the table agrees with the expressions and with what it holds, then each
returned name is the chosen one or that of a group, and derives the words of its expression in the
grammar at the end. -/
theorem derives_defineAll_iff {limits : Limits} {table : CaptureTable}
    {steps : List (String × Expr)} {names : List String} {last : Lowering}
    (hdefine : defineAll limits table .start steps = (names.map .ok, last))
    (hdistinct : (steps.map Prod.fst).Nodup) (hchosen : ∀ step ∈ steps, ¬Generated step.1)
    (hagrees : ∀ step ∈ steps, table.Agrees step.2) (hcoherent : table.Coherent) :
    List.Forall₂ (fun step result => result = step.2.definedName step.1 ∧
      ∀ word, last.grammar.Derives [.nonterminal result] word ↔ step.2.HasWord table word)
      steps names := by
  obtain ⟨lexicon, -, hdescribes, hnames⟩ :=
    (Lexicon.describes_start table).defineAll hcoherent hagrees
      (fun step hmem => ⟨rfl, hchosen step hmem⟩) hdistinct hdefine
  have hagreed := (List.forall₂_and_left steps names).mpr ⟨hagrees, hnames⟩
  refine hagreed.imp fun step result ⟨hagree, hname, hstands⟩ => ⟨hname, fun word => ?_⟩
  exact hdescribes.toExplains.derives_iff hcoherent hstands hagree word

/-- A group refers to itself, is lowered through a reference in the first definition and receives
one more alternative in the second. -/
theorem derives_defineAll_iff_repeated :
    ∃ (body : Expr) (table : CaptureTable) (steps : List (String × Expr)) (last : Lowering),
      body = .concat [.char 'a', .star (.reference 1)] ∧ table = .ofList [(1, body)] ∧
      steps = [("Left", .star (.reference 1)), ("Right", .capture 1 body), ("Last", .char 'b')] ∧
      defineAll .standard table .start steps = (["Left", "Group1", "Last"].map .ok, last) ∧
      List.Forall₂ (fun step result => result = step.2.definedName step.1 ∧
        ∀ word, last.grammar.Derives [.nonterminal result] word ↔ step.2.HasWord table word)
        steps ["Left", "Group1", "Last"] := by
  have hbody (table : CaptureTable) : table.Agrees (.concat [.char 'a', .star (.reference 1)]) := by
    intro id inner hexposes
    cases hexposes with
    | concat hmem hexposes =>
      rcases List.mem_pair.mp hmem with rfl | rfl
      · cases hexposes
      · cases hexposes with
        | star hexposes => cases hexposes
  refine ⟨_, _, _, ?last, rfl, rfl, rfl, ?defined,
    derives_defineAll_iff ?defined (by decide) ?chosen ?agrees ?coherent⟩
  case defined => rfl
  case chosen =>
    intro step hmem hgenerated
    have hletters := hgenerated.take_mem
    simp only [List.mem_cons, List.not_mem_nil, or_false] at hmem
    rcases hmem with rfl | rfl | rfl <;> exact absurd hletters (by decide)
  case agrees =>
    intro step hmem id inner hexposes
    simp only [List.mem_cons, List.not_mem_nil, or_false] at hmem
    rcases hmem with rfl | rfl | rfl
    · cases hexposes with
      | star hexposes => cases hexposes
    · cases hexposes with
      | here => rfl
      | capture hexposes => exact hbody _ id inner hexposes
    · cases hexposes
  case coherent =>
    intro id held hheld
    have htable : CaptureTable.ofList [(1, .concat [.char 'a', .star (.reference 1)])] =
      CaptureTable.empty.insert 1 (.concat [.char 'a', .star (.reference 1)]) := rfl
    rw [htable, CaptureTable.get?_insert] at hheld
    split at hheld
    next =>
      cases hheld
      exact hbody _
    next => cases hheld

end Lowering

end PatternGrammar
