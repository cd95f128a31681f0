import PatternGrammar.Grammar.Basic

/-!
# What grammars hold

How adding an alternative shows in the views of a grammar: its nonterminals in order, the
alternatives of each, and the names on right-hand sides. Every later statement about a grammar goes
through these.
-/

namespace PatternGrammar.Grammar

/-- A nonterminal has a rule exactly if it is listed. -/
theorem contains_iff_mem (grammar : Grammar) (name : String) :
    grammar.contains name = true ↔ name ∈ grammar.nonterminals := by
  simp [contains, nonterminals]

/-- The nonterminals after an addition: the new one comes last, a known one keeps its place. -/
theorem nonterminals_add (grammar : Grammar) (name : String) (alternative : Alternative) :
    (grammar.add name alternative).nonterminals =
      if name ∈ grammar.nonterminals then grammar.nonterminals
      else grammar.nonterminals ++ [name] :=
  names_addTo name alternative grammar.rules

/-- The rule found under a name after an addition to a list of rules. -/
theorem find?_addTo (name : String) (alternative : Alternative) (wanted : String)
    (rules : List Rule) :
    ((addTo name alternative rules).find? (·.name == wanted)).map Rule.alternatives =
      if wanted = name then
        some (((rules.find? (·.name == name)).map Rule.alternatives).getD [] ++ [alternative])
      else (rules.find? (·.name == wanted)).map Rule.alternatives := by
  induction rules with
  | nil => by_cases same : name = wanted <;> grind [addTo]
  | cons rule rest ih =>
    by_cases here : rule.name = name <;> by_cases same : wanted = name <;> grind [addTo]

/-- The alternatives after an addition: one more at the end under its own name, the same under
others. -/
theorem alternatives?_add (grammar : Grammar) (name : String) (alternative : Alternative)
    (wanted : String) :
    (grammar.add name alternative).alternatives? wanted =
      if wanted = name then some ((grammar.alternatives? name).getD [] ++ [alternative])
      else grammar.alternatives? wanted :=
  find?_addTo name alternative wanted grammar.rules

/-- A name has alternatives exactly if it is listed. -/
theorem isSome_alternatives?_iff (grammar : Grammar) (name : String) :
    (grammar.alternatives? name).isSome = true ↔ name ∈ grammar.nonterminals := by
  simp [alternatives?, nonterminals]

/-- The members of a list of names after an insertion. -/
theorem mem_insertName (name : String) (names : List String) (other : String) :
    other ∈ insertName name names ↔ other = name ∨ other ∈ names := by
  induction names with
  | nil => simp [insertName]
  | cons head rest ih => grind [insertName]

/-- An insertion keeps a list of names strictly ascending. -/
theorem pairwise_insertName (name : String) {names : List String}
    (ascending : names.Pairwise (· < ·)) : (insertName name names).Pairwise (· < ·) := by
  induction names with
  | nil => simp [insertName]
  | cons head rest ih =>
    obtain ⟨below, tail⟩ := List.pairwise_cons.mp ascending
    unfold insertName
    split
    next smaller =>
      refine List.pairwise_cons.mpr ⟨fun other member => ?_, ascending⟩
      rcases List.mem_cons.mp member with rfl | member
      · exact smaller
      · exact String.lt_trans smaller (below other member)
    next notSmaller =>
      split
      next => exact ascending
      next different =>
        refine List.pairwise_cons.mpr ⟨fun other member => ?_, ih tail⟩
        rcases (mem_insertName name rest other).mp member with rfl | member
        · grind
        · exact below other member

/-- The members of names put together by insertion. -/
theorem mem_foldr_insertName (names : List String) (other : String) :
    other ∈ names.foldr insertName [] ↔ other ∈ names := by
  induction names with
  | nil => simp
  | cons name rest ih => simp [mem_insertName, ih]

/-- Names put together by insertion are strictly ascending. -/
theorem pairwise_foldr_insertName (names : List String) :
    (names.foldr insertName []).Pairwise (· < ·) := by
  induction names with
  | nil => exact .nil
  | cons name rest ih => exact pairwise_insertName name ih

/-- A name is referenced exactly if it stands on a right-hand side. -/
theorem mem_referenced (grammar : Grammar) (name : String) :
    name ∈ grammar.referenced ↔ Symbol.nonterminal name ∈ grammar.symbols := by
  rw [referenced, mem_foldr_insertName, List.mem_filterMap]
  constructor
  · rintro ⟨symbol, member, isName⟩
    cases symbol with
    | terminal c => cases isName
    | nonterminal other => cases isName; exact member
  · exact fun member => ⟨_, member, rfl⟩

/-- Referenced names are strictly ascending, so none is repeated. -/
theorem pairwise_referenced (grammar : Grammar) : grammar.referenced.Pairwise (· < ·) :=
  pairwise_foldr_insertName _

/-- A name dangles exactly if it stands on a right-hand side and has no rule. -/
theorem mem_dangling (grammar : Grammar) (name : String) :
    name ∈ grammar.dangling ↔
      Symbol.nonterminal name ∈ grammar.symbols ∧ name ∉ grammar.nonterminals := by
  rw [dangling, List.mem_filter, mem_referenced, ← contains_iff_mem]
  simp

end PatternGrammar.Grammar
