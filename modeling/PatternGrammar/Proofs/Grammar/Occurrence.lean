import Mathlib.Data.List.Nodup
import Mathlib.Logic.Relation
import PatternGrammar.Grammar.Derivation

/-!
# Where nonterminals stand

A nonterminal has a rule, stands on right-hand sides, or both. How often it stands there is counted
by its uses, which grow by the uses in each alternative that is added. A nonterminal leads to those
on its own right-hand sides and reaches whatever can be come to in this way.
-/

namespace PatternGrammar.Grammar

/-- Number of times that a nonterminal stands on right-hand sides. -/
def uses (grammar : Grammar) (name : String) : Nat :=
  grammar.symbols.count (.nonterminal name)

/-- The empty grammar uses nothing. -/
@[simp] theorem uses_empty (name : String) : empty.uses name = 0 := rfl

/-- A symbol occurs in an extended list of rules as often as before and in the new alternative. -/
theorem count_addTo (name : String) (alternative : Alternative) (symbol : Symbol)
    (rules : List Rule) :
    ((addTo name alternative rules).flatMap Rule.alternatives).flatten.count symbol =
      (rules.flatMap Rule.alternatives).flatten.count symbol + alternative.count symbol := by
  induction rules with
  | nil => simp [addTo]
  | cons rule rest ih =>
    unfold addTo
    split
    next =>
      simp only [List.flatMap_cons, List.flatten_append, List.count_append, List.flatten_singleton]
      omega
    next =>
      simp only [List.flatMap_cons, List.flatten_append, List.count_append, ih]
      omega

/-- The uses after an addition. -/
theorem uses_add (grammar : Grammar) (name : String) (alternative : Alternative) (other : String) :
    (grammar.add name alternative).uses other =
      grammar.uses other + alternative.count (.nonterminal other) :=
  count_addTo name alternative (.nonterminal other) grammar.rules

/-- The symbols on right-hand sides after an addition. -/
theorem mem_symbols_add {grammar : Grammar} {name : String} {alternative : Alternative}
    {symbol : Symbol} :
    symbol ∈ (grammar.add name alternative).symbols ↔
      symbol ∈ grammar.symbols ∨ symbol ∈ alternative := by
  have hcount : (grammar.add name alternative).symbols.count symbol =
      grammar.symbols.count symbol + alternative.count symbol :=
    count_addTo name alternative symbol grammar.rules
  simp only [← List.count_pos_iff, hcount]
  omega

/-- The nonterminals after an addition are the new one and those before. -/
theorem mem_nonterminals_add {grammar : Grammar} {name other : String} {alternative : Alternative} :
    other ∈ (grammar.add name alternative).nonterminals ↔
      other = name ∨ other ∈ grammar.nonterminals := by
  rw [nonterminals_add]
  split
  next hmem =>
    refine ⟨.inr, fun hother => ?_⟩
    rcases hother with rfl | hother
    · exact hmem
    · exact hother
  next => rw [List.mem_append, List.mem_singleton, or_comm]

/-- A nonterminal has its rule. -/
theorem exists_alternatives?_iff {grammar : Grammar} {name : String} :
    (∃ alternatives, grammar.alternatives? name = some alternatives) ↔
      name ∈ grammar.nonterminals := by
  rw [← isSome_alternatives?_iff, Option.isSome_iff_exists]

/-- A rule is found under its name. -/
theorem alternatives?_of_mem {grammar : Grammar} {rule : Rule} (hmem : rule ∈ grammar.rules) :
    grammar.alternatives? rule.name = some rule.alternatives := by
  unfold alternatives?
  cases hfound : grammar.rules.find? (·.name == rule.name) with
  | none => simpa using List.find?_eq_none.mp hfound rule hmem
  | some found =>
    have hname : found.name = rule.name := by simpa using List.find?_some hfound
    have hsame :=
      List.inj_on_of_nodup_map grammar.distinct (List.mem_of_find?_eq_some hfound) hmem hname
    rw [Option.map_some, hsame]

/-- The symbols on right-hand sides are those of the alternatives that are produced. -/
theorem mem_symbols_iff {grammar : Grammar} {symbol : Symbol} :
    symbol ∈ grammar.symbols ↔
      ∃ name alternative, grammar.Produces name alternative ∧ symbol ∈ alternative := by
  unfold symbols
  constructor
  · intro hmem
    obtain ⟨alternative, halternative, hsymbol⟩ := List.mem_flatten.mp hmem
    obtain ⟨rule, hrule, halternative⟩ := List.mem_flatMap.mp halternative
    exact ⟨rule.name, alternative, ⟨rule.alternatives, alternatives?_of_mem hrule, halternative⟩,
      hsymbol⟩
  · rintro ⟨name, alternative, ⟨alternatives, hfound, halternative⟩, hsymbol⟩
    obtain ⟨rule, hrule, rfl⟩ := Option.map_eq_some_iff.mp hfound
    have hmem := List.mem_of_find?_eq_some hrule
    exact List.mem_flatten.mpr ⟨alternative, List.mem_flatMap.mpr ⟨rule, hmem, halternative⟩,
      hsymbol⟩

/-- The second nonterminal stands on a right-hand side of the first. -/
def LeadsTo (grammar : Grammar) (name other : String) : Prop :=
  ∃ alternative, grammar.Produces name alternative ∧ .nonterminal other ∈ alternative

/-- The second nonterminal can be come to from the first through right-hand sides. -/
def Reaches (grammar : Grammar) : String → String → Prop :=
  Relation.ReflTransGen grammar.LeadsTo

/-- More alternatives reach no less. -/
theorem Reaches.mono {grammar larger : Grammar} {name other : String}
    (hgrows : ∀ name alternative, grammar.Produces name alternative →
      larger.Produces name alternative)
    (hreaches : grammar.Reaches name other) : larger.Reaches name other := by
  refine Relation.ReflTransGen.mono ?_ _ _ hreaches
  rintro first second ⟨alternative, hproduces, hmem⟩
  exact ⟨alternative, hgrows first alternative hproduces, hmem⟩

/-- An addition takes nothing out of reach. -/
theorem Reaches.add {grammar : Grammar} {first last : String}
    (hreaches : grammar.Reaches first last) (name : String) (alternative : Alternative) :
    (grammar.add name alternative).Reaches first last :=
  hreaches.mono fun _ _ hproduces => produces_add.mpr (.inl hproduces)

/-- What is reached from a nonterminal of a new alternative is reached from where the alternative is
added. -/
theorem Reaches.through {grammar : Grammar} {inner other : String}
    (hreaches : grammar.Reaches inner other)
    {alternative : Alternative} (hmem : .nonterminal inner ∈ alternative) (name : String) :
    (grammar.add name alternative).Reaches name other := by
  have hproduces : (grammar.add name alternative).Produces name alternative :=
    produces_add.mpr (.inr ⟨rfl, rfl⟩)
  exact Relation.ReflTransGen.head ⟨alternative, hproduces, hmem⟩ (hreaches.add name alternative)

/-- If everything on right-hand sides has a rule, only what has a rule is reached from what has
one. -/
theorem Reaches.mem_nonterminals {grammar : Grammar} {name other : String}
    (hclosed : ∀ name, Symbol.nonterminal name ∈ grammar.symbols → name ∈ grammar.nonterminals)
    (hname : name ∈ grammar.nonterminals) (hreaches : grammar.Reaches name other) :
    other ∈ grammar.nonterminals := by
  induction hreaches with
  | refl => exact hname
  | tail _ hleads _ =>
    obtain ⟨alternative, hproduces, hmem⟩ := hleads
    exact hclosed _ (mem_symbols_iff.mpr ⟨_, alternative, hproduces, hmem⟩)

end PatternGrammar.Grammar
