import PatternGrammar.Grammar.Lemmas

/-!
# Words derived by a grammar

A row of symbols derives a word if every nonterminal in it can be replaced by one of its
alternatives, and so on, until only the characters of the word are left.
-/

namespace PatternGrammar.Grammar

/-- A nonterminal may be replaced by an alternative. -/
def Produces (grammar : Grammar) (name : String) (alternative : Alternative) : Prop :=
  ∃ alternatives, grammar.alternatives? name = some alternatives ∧ alternative ∈ alternatives

/-- What a grammar with one more alternative produces. -/
theorem produces_add {grammar : Grammar} {name wanted : String}
    {alternative other : Alternative} :
    (grammar.add name alternative).Produces wanted other ↔
      grammar.Produces wanted other ∨ wanted = name ∧ other = alternative := by
  unfold Produces
  rw [alternatives?_add]
  by_cases hsame : wanted = name
  · subst hsame
    cases grammar.alternatives? wanted <;> simp
  · simp [hsame]

/-- A row of symbols derives a word. -/
inductive Derives (grammar : Grammar) : List Symbol → List Char → Prop where
  /-- The empty row derives the empty word. -/
  | nil : Derives grammar [] []
  /-- A terminal derives its character. -/
  | terminal {c : Char} {symbols : List Symbol} {word : List Char}
    (rest : Derives grammar symbols word) : Derives grammar (.terminal c :: symbols) (c :: word)
  /-- A nonterminal derives what one of its alternatives derives. -/
  | nonterminal {name : String} {alternative : Alternative} {symbols : List Symbol}
    {first others : List Char} (produces : grammar.Produces name alternative)
    (inner : Derives grammar alternative first) (rest : Derives grammar symbols others) :
    Derives grammar (.nonterminal name :: symbols) (first ++ others)

/-- A word of a grammar is one derived from its start symbol. -/
def HasWord (grammar : Grammar) (word : List Char) : Prop :=
  grammar.Derives [.nonterminal startName] word

variable {grammar : Grammar}

/-- The empty row derives only the empty word. -/
@[simp] theorem derives_nil_iff {word : List Char} : grammar.Derives [] word ↔ word = [] := by
  constructor
  · intro derives
    cases derives
    rfl
  · rintro rfl
    exact .nil

/-- Derivations of two rows side by side. -/
theorem Derives.append {left right : List Symbol} {first second : List Char}
    (derivesLeft : grammar.Derives left first) (derivesRight : grammar.Derives right second) :
    grammar.Derives (left ++ right) (first ++ second) := by
  induction derivesLeft with
  | nil => exact derivesRight
  | terminal _ ih => exact .terminal ih
  | nonterminal produces inner _ _ ih =>
    rw [List.append_assoc]
    exact .nonterminal produces inner ih

/-- A nonterminal alone derives what its alternatives derive. -/
theorem derives_nonterminal_iff {name : String} {word : List Char} :
    grammar.Derives [.nonterminal name] word ↔
      ∃ alternative, grammar.Produces name alternative ∧ grammar.Derives alternative word := by
  constructor
  · intro derives
    cases derives with
    | nonterminal produces inner rest =>
      cases rest
      exact ⟨_, produces, by simpa using inner⟩
  · rintro ⟨alternative, produces, inner⟩
    simpa using Derives.nonterminal produces inner .nil

end PatternGrammar.Grammar
