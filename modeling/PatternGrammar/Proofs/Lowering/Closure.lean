import Mathlib.Data.Set.Insert
import PatternGrammar.Proofs.Grammar.Occurrence
import PatternGrammar.Proofs.Lowering.Forms

/-!
# Lowered grammars are closed and connected

A group has its name before it has a rule, so while it is being lowered its nonterminal may stand on
right-hand sides without one. Such groups are pending. A run leaves nothing pending that was not
pending before it, and everything that it gives a rule can be reached from the nonterminals that it
returns. When the whole run is over, the nonterminals with rules are those that can be reached from
the start symbol, for every expression and for every table, also one that has nothing to do with the
expression.
-/

namespace PatternGrammar

namespace Lowering

/-- A nonterminal has a rule or is pending. -/
def Known (pending : Set String) (state : Lowering) (name : String) : Prop :=
  name ∈ state.grammar.nonterminals ∨ name ∈ pending

/-- Nonterminals without rules are pending, wherever they stand or may come to stand. -/
structure Closed (pending : Set String) (state : Lowering) : Prop where
  /-- What stands on a right-hand side is known. -/
  symbols : ∀ name, .nonterminal name ∈ state.grammar.symbols → Known pending state name
  /-- Groups that have their name are known. -/
  registered : ∀ id ∈ state.registered, Known pending state (groupName id)

variable {pending : Set String} {state : Lowering}

/-- Nothing is known or needed at the start. -/
theorem closed_start : Closed ∅ .start := ⟨nofun, nofun⟩

/-- More nonterminals may be pending. -/
theorem Known.mono {larger : Set String} {name : String} (hknown : Known pending state name)
    (hsubset : pending ⊆ larger) : Known larger state name :=
  hknown.imp_right fun hmem => hsubset hmem

/-- Nothing is wrong with more pending nonterminals. -/
theorem Closed.mono {larger : Set String} (hclosed : Closed pending state)
    (hsubset : pending ⊆ larger) : Closed larger state where
  symbols := fun name hmem => (hclosed.symbols name hmem).mono hsubset
  registered := fun id hmem => (hclosed.registered id hmem).mono hsubset

/-- One more nonterminal may be pending. -/
theorem Known.insert_pending {other : String} (hknown : Known pending state other) (name : String) :
    Known (insert name pending) state other :=
  hknown.mono (Set.subset_insert name pending)

/-- Nothing is wrong with one more pending nonterminal. -/
theorem Closed.insert_pending (hclosed : Closed pending state) (name : String) :
    Closed (insert name pending) state :=
  hclosed.mono (Set.subset_insert name pending)

/-- Naming an expression changes nothing. -/
theorem Closed.named (hclosed : Closed pending state) (given : Option String) (kind : NameKind) :
    Closed pending (state.named given kind) := by
  obtain ⟨hsymbols, hregistered⟩ := hclosed
  constructor
  · simpa only [Known, grammar_named] using hsymbols
  · simpa only [Known, grammar_named, registered_named] using hregistered

/-- A group that receives its name is pending. -/
theorem Closed.enrolled (hclosed : Closed pending state) (id : Nat) :
    Closed (insert (groupName id) pending) (state.enrolled id) where
  symbols := by
    intro name hmem
    rw [grammar_enrolled] at hmem
    have hknown := (hclosed.symbols name hmem).insert_pending (groupName id)
    rwa [Known, grammar_enrolled]
  registered := by
    intro other hmem
    rcases (mem_registered_enrolled ..).mp hmem with rfl | hmem
    · exact .inr (Set.mem_insert ..)
    · have hknown := (hclosed.registered other hmem).insert_pending (groupName id)
      rwa [Known, grammar_enrolled]

/-- What is known stays known, except that a nonterminal with an alternative need not be pending. -/
theorem Known.added {name other : String} (hknown : Known (insert name pending) state other)
    (alternative : Alternative) : Known pending (state.added name alternative) other := by
  rcases hknown with hmem | hmem
  · exact .inl (Grammar.mem_nonterminals_add.mpr (.inr hmem))
  · rcases Set.mem_insert_iff.mp hmem with rfl | hmem
    · exact .inl (Grammar.mem_nonterminals_add.mpr (.inl rfl))
    · exact .inr hmem

/-- A nonterminal is no longer pending once it has an alternative, if what stands in it is known. -/
theorem Closed.added {name : String} {alternative : Alternative}
    (hclosed : Closed (insert name pending) state)
    (halternative : ∀ other, .nonterminal other ∈ alternative →
      Known (insert name pending) state other) :
    Closed pending (state.added name alternative) where
  symbols := by
    intro other hmem
    rcases Grammar.mem_symbols_add.mp hmem with hmem | hmem
    · exact (hclosed.symbols other hmem).added alternative
    · exact (halternative other hmem).added alternative
  registered := fun id hmem => (hclosed.registered id hmem).added alternative

/-- A nonterminal may have an alternative of nonterminals that are known. -/
theorem Closed.added_row (hclosed : Closed pending state) {names : List String}
    (hnames : ∀ name ∈ names, Known pending state name) (self : String) :
    Closed pending (state.added self (names.map .nonterminal)) := by
  refine (hclosed.insert_pending self).added fun other hmem => ?_
  obtain ⟨name, hname, heq⟩ := List.mem_map.mp hmem
  cases heq
  exact (hnames other hname).insert_pending self

/-- A nonterminal to which an alternative was added has a rule. -/
theorem known_added_self (pending : Set String) (state : Lowering) (name : String)
    (alternative : Alternative) : Known pending (state.added name alternative) name :=
  .inl (Grammar.mem_nonterminals_add.mpr (.inl rfl))

/-- What is reached from the nonterminals of an alternative is reached from the one that it was
added to. -/
theorem reaches_added {earlier : Prop} {name other : String} (names : List String)
    {alternative : Alternative} (hinside : other ∈ state.grammar.nonterminals →
      earlier ∨ ∃ inner ∈ names, state.grammar.Reaches inner other)
    (hnames : ∀ inner ∈ names, .nonterminal inner ∈ alternative)
    (hmem : other ∈ (state.added name alternative).grammar.nonterminals) :
    earlier ∨ ∃ top ∈ [name], (state.added name alternative).grammar.Reaches top other := by
  rcases Grammar.mem_nonterminals_add.mp hmem with rfl | hmem
  · exact .inr ⟨other, List.mem_singleton_self other, .refl⟩
  · rcases hinside hmem with hearlier | ⟨inner, hinner, hreaches⟩
    · exact .inl hearlier
    · exact .inr ⟨name, List.mem_singleton_self name, hreaches.through (hnames inner hinner) name⟩

/-- Nonterminals that have rules keep them. -/
theorem stable_nonterminals (names : List String) :
    Stable fun state => names ⊆ state.grammar.nonterminals where
  named := by
    intro state given kind hstate
    rwa [grammar_named]
  added := fun _ _ _ hstate _ hmem => Grammar.mem_nonterminals_add.mpr (.inr (hstate hmem))
  enrolled := by
    intro state id hstate
    rwa [grammar_enrolled]

namespace Job

/-- The nonterminals from which the rules of a job are reached. -/
def tops (names : List String) : Job → List String
  | .one _ _ | .row _ => names
  | .branches name _ => [name]

variable {limits : Limits} {table : CaptureTable} {levels : Nat} {job : Job}
  {before after : Lowering} {names : List String}

/-- A successful run takes no rule away. -/
theorem Succeeds.nonterminals_mono (hrun : Succeeds limits table levels job before names after) :
    before.grammar.nonterminals ⊆ after.grammar.nonterminals :=
  hrun.preserves (stable_nonterminals _) fun _ hmem => hmem

/-- What is known stays known. -/
theorem Succeeds.known_mono (hrun : Succeeds limits table levels job before names after)
    {name : String} (hknown : Known pending before name) : Known pending after name :=
  hknown.imp_left fun hmem => hrun.nonterminals_mono hmem

/-- A nonterminal with branches has a rule when they are done. -/
theorem Succeeds.known_branches {name : String} {operands : List Expr} (hnonempty : operands ≠ [])
    (hrun : Succeeds limits table levels (.branches name operands) before names after)
    (pending : Set String) : Known pending after name := by
  cases hrun with
  | branchesNil => exact absurd rfl hnonempty
  | branchesCons _ htail => exact htail.known_mono (known_added_self ..)

/-- A run leaves nothing pending that was not pending before, and returns nonterminals that are
known. -/
theorem Succeeds.closed (hrun : Succeeds limits table levels job before names after)
    (hclosed : Closed pending before) :
    Closed pending after ∧ ∀ name ∈ names, Known pending after name := by
  -- Inside a group one more nonterminal is pending, until the alternative that ends the group is
  -- added.
  induction hrun generalizing pending with
  | char levels c given before =>
    have hnamed := hclosed.named given .char
    exact ⟨(hnamed.insert_pending _).added (by simp),
      List.forall_mem_singleton.mpr (known_added_self ..)⟩
  | lookahead levels body given before =>
    have hnamed := hclosed.named given .lookahead
    exact ⟨(hnamed.insert_pending _).added nofun,
      List.forall_mem_singleton.mpr (known_added_self ..)⟩
  | @concat levels operands given before after names _ _ ih =>
    obtain ⟨hafter, hnames⟩ := ih (hclosed.named given .concat)
    exact ⟨hafter.added_row hnames _, List.forall_mem_singleton.mpr (known_added_self ..)⟩
  | @alternation levels operands given before after names hnonempty hbranches ih =>
    obtain ⟨hafter, -⟩ := ih (hclosed.named given .alternation)
    exact ⟨hafter, List.forall_mem_singleton.mpr (hbranches.known_branches hnonempty pending)⟩
  | @star levels body given before after inner _ ih =>
    obtain ⟨hafter, hinner⟩ := ih (hclosed.named given .star)
    have hempty : Closed pending (after.added (before.nameFor given .star) []) :=
      (hafter.insert_pending _).added nofun
    have hrow : ∀ name ∈ [before.nameFor given .star, inner],
        Known pending (after.added (before.nameFor given .star) []) name :=
      List.forall_mem_cons.mpr ⟨known_added_self .., fun name hname =>
        ((hinner name hname).insert_pending _).added []⟩
    exact ⟨hempty.added_row hrow _, List.forall_mem_singleton.mpr (known_added_self ..)⟩
  | @plain levels body given before after inner _ ih =>
    obtain ⟨hafter, hnames⟩ := ih (hclosed.named given .plain)
    exact ⟨hafter.added_row hnames _, List.forall_mem_singleton.mpr (known_added_self ..)⟩
  | @capture levels id body given before after inner _ _ ih
  | @forward levels id body given before after inner _ _ _ ih =>
    obtain ⟨hafter, hinner⟩ := ih (hclosed.enrolled id)
    exact ⟨hafter.added (by simpa using hinner),
      List.forall_mem_singleton.mpr (known_added_self ..)⟩
  | @known levels id given before hregistered =>
    exact ⟨hclosed, List.forall_mem_singleton.mpr (hclosed.registered id hregistered)⟩
  | rowNil | branchesNil => exact ⟨hclosed, by simp⟩
  | @rowCons levels operand operands before between after first names _ htail ihhead ihtail =>
    obtain ⟨hbetween, hfirst⟩ := ihhead hclosed
    obtain ⟨hafter, hnames⟩ := ihtail hbetween
    refine ⟨hafter, List.forall_mem_cons.mpr ⟨?_, hnames⟩⟩
    exact htail.known_mono (hfirst first (List.mem_singleton_self first))
  | @branchesCons levels name operand operands before between after first names _ _ ihhead ihtail =>
    obtain ⟨hbetween, hfirst⟩ := ihhead hclosed
    exact ihtail (hbetween.added_row hfirst name)

/-- Every nonterminal that a run gives a rule is reached from the nonterminals that it returns, or
from the one whose branches it lowers. -/
theorem Succeeds.reaches (hrun : Succeeds limits table levels job before names after)
    {other : String} (hmem : other ∈ after.grammar.nonterminals) :
    other ∈ before.grammar.nonterminals ∨
      ∃ top ∈ job.tops names, after.grammar.Reaches top other := by
  induction hrun with
  | char levels c given before | lookahead levels body given before =>
    refine reaches_added [] (fun hmem => .inl ?_) nofun hmem
    rwa [grammar_named] at hmem
  | @concat levels operands given before after names _ _ ih =>
    rw [grammar_named] at ih
    exact reaches_added names ih (fun _ => List.mem_map_of_mem) hmem
  | @alternation levels operands given before after names _ _ ih =>
    rw [grammar_named] at ih
    exact ih hmem
  | @star levels body given before after inner _ ih =>
    rw [grammar_named] at ih
    -- The empty alternative leads nowhere; the other one leads to the repetition itself and to its
    -- body.
    refine reaches_added [before.nameFor given .star, inner] (fun hmem => ?_)
      (fun _ => List.mem_map_of_mem) hmem
    rcases Grammar.mem_nonterminals_add.mp hmem with rfl | hmem
    · exact .inr ⟨_, List.mem_cons_self, .refl⟩
    · rcases ih hmem with hmem | ⟨top, htop, hreaches⟩
      · exact .inl hmem
      · exact .inr ⟨top, List.mem_cons_of_mem _ htop, hreaches.add ..⟩
  | @plain levels body given before after inner _ ih =>
    rw [grammar_named] at ih
    exact reaches_added [inner] ih (fun _ => List.mem_map_of_mem) hmem
  | @capture levels id body given before after inner _ _ ih
  | @forward levels id body given before after inner _ _ _ ih =>
    rw [grammar_enrolled] at ih
    exact reaches_added [inner] ih (fun _ => List.mem_map_of_mem) hmem
  | known | rowNil | branchesNil => exact .inl hmem
  | @rowCons levels operand operands before between after first names _ htail ihhead ihtail =>
    rcases ihtail hmem with hmem | ⟨top, htop, hreaches⟩
    · rcases ihhead hmem with hmem | ⟨top, htop, hreaches⟩
      · exact .inl hmem
      · have hgrown := hreaches.mono fun _ _ => htail.produces_mono
        exact .inr ⟨top, List.mem_append_left names htop, hgrown⟩
    · exact .inr ⟨top, List.mem_cons_of_mem first htop, hreaches⟩
  | @branchesCons levels name operand operands before between after first names _ htail ihhead
    ihtail =>
    rcases ihtail hmem with hmem | hreached
    · rcases reaches_added [first] ihhead (fun _ => List.mem_map_of_mem) hmem with
        hmem | ⟨top, htop, hreaches⟩
      · exact .inl hmem
      · have hgrown := hreaches.mono fun _ _ => htail.produces_mono
        exact .inr ⟨top, htop, hgrown⟩
    · exact .inr hreached

end Job

end Lowering

/-- A grammar in which everything that is needed has a rule and everything that has a rule is
needed. -/
structure Grammar.Connected (grammar : Grammar) : Prop where
  /-- The start symbol has one alternative, which is the nonterminal that it is said to lead to. -/
  start : ∃ top, grammar.alternatives? startName = some [[.nonterminal top]] ∧
    grammar.start? = some top
  /-- The start symbol stands on no right-hand side. -/
  unused : .nonterminal startName ∉ grammar.symbols
  /-- What stands on right-hand sides has rules. -/
  dangling : grammar.dangling = []
  /-- The nonterminals with rules are those that can be reached from the start symbol. -/
  reached : ∀ name, name ∈ grammar.nonterminals ↔ grammar.Reaches startName name

/-- A start symbol connects a grammar without it, in which nothing dangles and which is reached from
the nonterminal that the start symbol leads to. -/
theorem Grammar.connected_add {grammar : Grammar} {top : String}
    (habsent : startName ∉ grammar.nonterminals)
    (hclosed : ∀ name, .nonterminal name ∈ grammar.symbols → name ∈ grammar.nonterminals)
    (htop : top ∈ grammar.nonterminals)
    (hreached : ∀ name ∈ grammar.nonterminals, grammar.Reaches top name) :
    (grammar.add startName [.nonterminal top]).Connected := by
  have hnone : grammar.alternatives? startName = none := by
    rw [← Option.not_isSome_iff_eq_none, isSome_alternatives?_iff]
    exact habsent
  have hstart : (grammar.add startName [.nonterminal top]).alternatives? startName =
      some [[.nonterminal top]] := by
    rw [alternatives?_add, if_pos rfl, hnone]
    rfl
  have hsymbols (name : String)
      (hmem : .nonterminal name ∈ (grammar.add startName [.nonterminal top]).symbols) :
      name ∈ grammar.nonterminals := by
    rcases mem_symbols_add.mp hmem with hmem | hmem
    · exact hclosed name hmem
    · cases List.mem_singleton.mp hmem
      exact htop
  have hgrows {name : String} (hmem : name ∈ grammar.nonterminals) :
      name ∈ (grammar.add startName [.nonterminal top]).nonterminals :=
        mem_nonterminals_add.mpr (.inr hmem)
  refine ⟨⟨top, hstart, by rw [start?, hstart]; rfl⟩, fun hmem => habsent (hsymbols _ hmem),
    ?dangling, ?reached⟩
  case dangling =>
    refine List.eq_nil_iff_forall_not_mem.mpr fun name hmem => ?_
    obtain ⟨hsymbol, hruleless⟩ := (mem_dangling _ name).mp hmem
    exact hruleless (hgrows (hsymbols name hsymbol))
  case reached =>
    intro name
    constructor
    · intro hmem
      rcases mem_nonterminals_add.mp hmem with rfl | hmem
      · exact .refl
      · exact (hreached name hmem).through (List.mem_singleton_self _) startName
    · exact fun hreaches => hreaches.mem_nonterminals (fun name hmem => hgrows (hsymbols name hmem))
        (mem_nonterminals_add.mpr (.inl rfl))

namespace Pattern

/-- Every grammar that a pattern is lowered to is connected, whatever its table holds. -/
theorem connected_toGrammar {pattern : Pattern} {grammar : Grammar}
    (hgrammar : pattern.toGrammar = .ok grammar) : grammar.Connected := by
  obtain ⟨top, state, rfl, hrun⟩ := succeeds_of_toGrammar hgrammar
  obtain ⟨hclosed, hnames⟩ := hrun.closed Lowering.closed_start
  -- Nothing is pending when the run is over, so what is known has a rule.
  have hsettled {name : String} (hknown : Lowering.Known ∅ state name) :
      name ∈ state.grammar.nonterminals :=
    hknown.resolve_right (Set.notMem_empty name)
  refine Grammar.connected_add ?absent (fun name hmem => hsettled (hclosed.symbols name hmem))
    (hsettled (hnames top (List.mem_singleton_self top))) ?reached
  case absent => exact (hrun.formed nofun Lowering.formed_start).startName_notMem
  case reached =>
    intro name hmem
    rcases hrun.reaches hmem with hmem | ⟨other, hother, hreaches⟩
    · cases hmem
    · cases List.mem_singleton.mp hother
      exact hreaches

/-- Groups of the table that refer to each other, and a group inside itself for which the table
holds something else. -/
theorem connected_toGrammar_cyclic :
    ∃ grammar,
      toGrammar ⟨.alternation [.reference 3, .capture 2 (.concat [.reference 2, .char 'b'])],
        .ofList [(2, .char 'a'), (3, .concat [.reference 4, .reference 3]),
          (4, .star (.reference 3))]⟩ = .ok grammar ∧
        grammar.Connected := by
  refine ⟨?grammar, ?lowered, connected_toGrammar ?lowered⟩
  case lowered => rfl

end Pattern

end PatternGrammar
