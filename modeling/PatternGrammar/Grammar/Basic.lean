/-!
# Context-free grammars

A grammar is a list of rules in the order in which their nonterminals were first given an
alternative, and each rule keeps its alternatives in the order in which they were added. The order
of rules is shown but does not tell two grammars apart; the order of alternatives does.
-/

namespace PatternGrammar

/-- A symbol on the right-hand side of a rule. -/
inductive Symbol where
  /-- A character of the derived word. -/
  | terminal (c : Char)
  /-- A symbol to be replaced by one of its alternatives. -/
  | nonterminal (name : String)
  deriving DecidableEq

/-- The name of a nonterminal. -/
def Symbol.name? : Symbol → Option String
  | .terminal _ => none
  | .nonterminal name => some name

/-- One right-hand side; the empty one derives the empty word. -/
abbrev Alternative := List Symbol

/-- A nonterminal with its alternatives. -/
structure Rule where
  /-- The nonterminal. -/
  name : String
  /-- Its alternatives, in the order in which they were added. -/
  alternatives : List Alternative
  deriving DecidableEq

/-- A context-free grammar. -/
structure Grammar where
  /-- The rules, in the order in which their nonterminals came in. -/
  rules : List Rule
  /-- No two rules have the same nonterminal. -/
  distinct : (rules.map Rule.name).Nodup

namespace Grammar

/-- The nonterminal that stands for the whole pattern. -/
def startName : String := "S"

/-- The grammar without rules. -/
def empty : Grammar := ⟨[], .nil⟩

/-- Add an alternative to the rule of its nonterminal, or a new rule at the end. -/
def addTo (name : String) (alternative : Alternative) : List Rule → List Rule
  | [] => [⟨name, [alternative]⟩]
  | rule :: rest =>
    if rule.name = name then ⟨name, rule.alternatives ++ [alternative]⟩ :: rest
    else rule :: addTo name alternative rest

/-- Adding an alternative keeps the order of nonterminals and puts a new one last. -/
theorem names_addTo (name : String) (alternative : Alternative) (rules : List Rule) :
    (addTo name alternative rules).map Rule.name =
      if name ∈ rules.map Rule.name then rules.map Rule.name
      else rules.map Rule.name ++ [name] := by
  induction rules with
  | nil => simp [addTo]
  | cons rule rest ih =>
    by_cases same : rule.name = name
    · simp [addTo, same]
    · have other : ¬name = rule.name := fun eq => same eq.symm
      by_cases member : name ∈ rest.map Rule.name
      · simpa [addTo, same, member] using ih
      · simpa [addTo, same, other, member] using ih

/-- Adding an alternative repeats no nonterminal. -/
theorem nodup_addTo (name : String) (alternative : Alternative) {rules : List Rule}
    (distinct : (rules.map Rule.name).Nodup) :
    ((addTo name alternative rules).map Rule.name).Nodup := by
  rw [names_addTo]
  split
  next => exact distinct
  next absent =>
    refine List.nodup_append.mpr ⟨distinct, List.pairwise_singleton _ _, ?_⟩
    intro other member last inLast same
    rw [List.mem_singleton.mp inLast] at same
    exact absent (same ▸ member)

/-- The grammar with one more alternative, which also makes its nonterminal known. -/
def add (grammar : Grammar) (name : String) (alternative : Alternative) : Grammar :=
  ⟨addTo name alternative grammar.rules, nodup_addTo name alternative grammar.distinct⟩

/-- The grammar built from a list of alternatives with their nonterminals. -/
def ofList (additions : List (String × Alternative)) : Grammar :=
  additions.foldl (fun grammar addition => grammar.add addition.1 addition.2) empty

/-- The alternatives of a nonterminal, if it has a rule. -/
def alternatives? (grammar : Grammar) (name : String) : Option (List Alternative) :=
  (grammar.rules.find? (·.name == name)).map Rule.alternatives

/-- Whether a nonterminal has a rule. -/
def contains (grammar : Grammar) (name : String) : Bool :=
  grammar.rules.any (·.name == name)

/-- The nonterminals that have rules, in the order in which they came in. -/
def nonterminals (grammar : Grammar) : List String :=
  grammar.rules.map Rule.name

/-- Number of nonterminals that have rules. -/
def size (grammar : Grammar) : Nat :=
  grammar.rules.length

/-- Whether there are no rules. -/
def isEmpty (grammar : Grammar) : Bool :=
  grammar.rules.isEmpty

/-- The one nonterminal to which the start symbol leads, if its rule has that form. -/
def start? (grammar : Grammar) : Option String :=
  match grammar.alternatives? startName with
  | some [[symbol]] => symbol.name?
  | _ => none

/-- Every symbol on a right-hand side, in order. -/
def symbols (grammar : Grammar) : List Symbol :=
  (grammar.rules.flatMap Rule.alternatives).flatten

/-- Put a name into an ascending list without repetitions. -/
def insertName (name : String) : List String → List String
  | [] => [name]
  | head :: rest =>
    if name < head then name :: head :: rest
    else if name = head then head :: rest
    else head :: insertName name rest

/-- The nonterminals on right-hand sides, ascending by code points and without repetitions. -/
def referenced (grammar : Grammar) : List String :=
  (grammar.symbols.filterMap Symbol.name?).foldr insertName []

/-- The nonterminals on right-hand sides that have no rule, ascending by code points. -/
def dangling (grammar : Grammar) : List String :=
  grammar.referenced.filter fun name => !grammar.contains name

/-- Whether two grammars have the same rules, whatever their order. -/
def sameRules (left right : Grammar) : Bool :=
  left.size == right.size &&
    left.rules.all fun rule => right.alternatives? rule.name == some rule.alternatives

end Grammar

end PatternGrammar
