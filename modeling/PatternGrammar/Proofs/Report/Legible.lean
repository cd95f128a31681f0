import PatternGrammar.Proofs.Language
import PatternGrammar.Proofs.Lowering.Closure
import PatternGrammar.Proofs.Reader.Numbering
import PatternGrammar.Proofs.Report.Decode
import PatternGrammar.Proofs.Token.RoundTrip

/-!
# Grammars of texts are shown for what they are

The names that lowering makes are a stem and a number, and the only other left-hand side is the
start symbol. A terminal of a grammar is a character that the expression or the table shows; in a
pattern that was read these are tokens, and a scan makes tokens of lower-case letters only. So the
grammar of a text can be read back from its listing, whatever the style.
-/

namespace PatternGrammar

/-- A legible stem with a number is a legible name. -/
theorem LegibleName.append_toString {stem : String} (hstem : LegibleName stem) (number : Nat) :
    LegibleName (stem ++ toString number) := by
  obtain ⟨first, rest, hname, hupper, hrest⟩ := hstem
  refine ⟨first, rest ++ (toString number).toList, ?_, hupper,
    List.forall_mem_append.mpr ⟨hrest, ?_⟩⟩
  · rw [String.toList_append, hname, List.cons_append]
  · intro c hmem
    rw [Nat.toString_eq_repr, Nat.toList_repr] at hmem
    exact isAlphanum_iff.mpr
      (.inr (.inr (Nat.isDigit_of_mem_toDigits (by decide) (by decide) hmem)))

/-- The names that lowering makes are legible. -/
theorem Generated.legible {name : String} (hgenerated : Generated name) : LegibleName name := by
  rcases hgenerated with ⟨kind, number, rfl⟩ | ⟨id, rfl⟩
  · have hstem : LegibleName kind.stem := by
      cases kind <;> simp [LegibleName, NameKind.stem]
    exact hstem.append_toString number
  · have hstem : LegibleName "Group" := by simp [LegibleName]
    exact hstem.append_toString id

/-- The start symbol is legible. -/
theorem legible_startName : LegibleName Grammar.startName := ⟨_, _, rfl, rfl, nofun⟩

namespace Expr

/-- The tokens of a branch are tokens of the whole alternation. -/
theorem lexemes_subset_branchLexemes {operands : List Expr} {operand : Expr}
    (hmem : operand ∈ operands) : operand.lexemes ⊆ branchLexemes operands := by
  induction operands with
  | nil => cases hmem
  | cons first others ih =>
    cases others with
    | nil =>
      cases List.mem_singleton.mp hmem
      exact List.Subset.refl _
    | cons second others =>
      rw [branchLexemes_cons_cons]
      rcases List.mem_cons.mp hmem with rfl | hmem
      · exact List.subset_append_left _ _
      · intro lexeme hlexeme
        exact List.mem_append_right _ (List.mem_cons_of_mem _ (ih hmem hlexeme))

/-- The tokens of what an expression shows are tokens of the expression. -/
theorem Exposes.lexemes_subset {expr inner : Expr} (hexposes : expr.Exposes inner) :
    inner.lexemes ⊆ expr.lexemes := by
  induction hexposes with
  | here => exact List.Subset.refl _
  | concat hmem _ ih =>
    rw [lexemes, rowLexemes_eq]
    exact fun lexeme hlexeme => List.mem_flatMap.mpr ⟨_, hmem, ih hlexeme⟩
  | alternation hmem _ ih =>
    rw [lexemes]
    exact List.Subset.trans ih (lexemes_subset_branchLexemes hmem)
  | star _ ih =>
    rw [lexemes]
    exact List.subset_append_of_subset_left _ ih
  | capture _ ih | plain _ ih =>
    rw [lexemes]
    exact List.subset_cons_of_subset _ (List.subset_append_of_subset_left _ ih)

end Expr

/-- Every character that a scanned and read pattern shows is a lower-case letter. -/
theorem Pattern.isLetter_of_exposes {text : String} {tokens : List Token} {pattern : Pattern}
    (hscan : Token.scan text = .ok tokens) (hread : Pattern.ofTokens tokens = .ok pattern)
    {c : Char} (hexposes : pattern.root.Exposes (.char c)) : isLetter c = true := by
  have hlexemes := (Reader.wellFormed_of_read (by decide) hread).2.1
  have hmem : ⟨.letter, some c⟩ ∈ tokens.map Token.lexeme := by
    rw [← hlexemes]
    exact hexposes.lexemes_subset List.mem_cons_self
  obtain ⟨token, htoken, hlexeme⟩ := List.mem_map.mp hmem
  have hproper : token.Proper := by
    unfold Token.scan at hscan
    split at hscan
    next => cases hscan
    next => exact (Token.spelled_of_scanFrom hscan).2.2.1 token htoken
  obtain ⟨kind, payload, offset⟩ := token
  simp only [Token.lexeme, Lexeme.mk.injEq] at hlexeme
  obtain ⟨rfl, hpayload⟩ := hlexeme
  obtain ⟨letter, hletter, hlower⟩ := hproper
  cases hletter.symm.trans hpayload
  exact hlower

namespace Grammar

/-- Every terminal has a property. -/
def TerminalsIn (P : Char → Prop) (grammar : Grammar) : Prop :=
  ∀ c, .terminal c ∈ grammar.symbols → P c

/-- A grammar keeps its property if the new alternative has it. -/
theorem TerminalsIn.add {P : Char → Prop} {grammar : Grammar} (hterminals : grammar.TerminalsIn P)
    {alternative : Alternative} (hnew : ∀ c, .terminal c ∈ alternative → P c) (name : String) :
    (grammar.add name alternative).TerminalsIn P := by
  intro c hmem
  rcases mem_symbols_add.mp hmem with hmem | hmem
  · exact hterminals c hmem
  · exact hnew c hmem

/-- An alternative of nonterminals adds no terminal. -/
theorem TerminalsIn.add_row {P : Char → Prop} {grammar : Grammar}
    (hterminals : grammar.TerminalsIn P) (name : String) (names : List String) :
    (grammar.add name (names.map .nonterminal)).TerminalsIn P :=
  hterminals.add (by simp) name

end Grammar

namespace Lowering

/-- Every rule has an alternative, since a nonterminal comes in with one. -/
theorem stable_alternatives :
    Stable fun state => ∀ name, state.grammar.alternatives? name ≠ some [] where
  named := by
    intro state given kind hstate
    rwa [grammar_named]
  added := by
    intro state name alternative hstate wanted
    rw [added, Grammar.alternatives?_add]
    split
    next => simp
    next => exact hstate wanted
  enrolled := by
    intro state id hstate
    rwa [grammar_enrolled]

/-- The terminals that a run adds are characters that the job shows or the table holds. -/
theorem Job.Succeeds.terminalsIn {limits : Limits} {table : CaptureTable} {levels : Nat} {job : Job}
    {before after : Lowering} {names : List String} {P : Char → Prop}
    (hrun : Succeeds limits table levels job before names after)
    (htable : ∀ id body c, table.get? id = some body → body.Exposes (.char c) → P c)
    (hjob : ∀ c, job.Exposes (.char c) → P c) (hbefore : before.grammar.TerminalsIn P) :
    after.grammar.TerminalsIn P := by
  induction hrun with
  | char levels c given before =>
    refine Grammar.TerminalsIn.add (by rwa [grammar_named]) ?_ _
    intro letter hmem
    cases List.mem_singleton.mp hmem
    exact hjob c (.here _)
  | lookahead levels body given before =>
    exact Grammar.TerminalsIn.add_row (by rwa [grammar_named]) _ []
  | concat _ _ ih =>
    have hafter := ih (fun c hexposes => hjob c (exposes_concat hexposes)) (by rwa [grammar_named])
    exact hafter.add_row _ _
  | alternation _ _ ih =>
    exact ih (fun c hexposes => hjob c (exposes_alternation hexposes)) (by rwa [grammar_named])
  | @star _ _ given before _ inner _ ih =>
    have hafter := ih (fun c hexposes => hjob c (.star hexposes)) (by rwa [grammar_named])
    exact (hafter.add_row _ []).add_row _ [before.nameFor given .star, inner]
  | @plain _ _ _ _ _ inner _ ih =>
    have hafter := ih (fun c hexposes => hjob c (.plain hexposes)) (by rwa [grammar_named])
    exact hafter.add_row _ [inner]
  | @capture _ _ _ _ _ _ inner _ _ ih =>
    have hafter := ih (fun c hexposes => hjob c (.capture hexposes)) (by rwa [grammar_enrolled])
    exact hafter.add_row _ [inner]
  | @forward _ _ _ _ _ _ inner _ hholds _ ih =>
    have hafter := ih (htable _ _ · hholds) (by rwa [grammar_enrolled])
    exact hafter.add_row _ [inner]
  | known | rowNil | branchesNil => exact hbefore
  | rowCons _ _ ihhead ihtail =>
    have hbetween := ihhead (fun c hexposes => hjob c (exposes_head hexposes)) hbefore
    exact ihtail (fun c hexposes => hjob c (exposes_tail hexposes)) hbetween
  | @branchesCons _ _ _ _ _ _ _ first _ _ _ ihhead ihtail =>
    have hbetween := ihhead (fun c hexposes => hjob c (exposes_head hexposes)) hbefore
    exact ihtail (fun c hexposes => hjob c (exposes_tail hexposes)) (hbetween.add_row _ [first])

end Lowering

/-- The grammar of a text is legible. -/
theorem Grammar.legible_ofText {text : String} {grammar : Grammar}
    (hgrammar : Grammar.ofText text = .ok grammar) : grammar.Legible := by
  obtain ⟨tokens, pattern, hscan, hread, hlowered⟩ := ofText_eq_ok_iff.mp hgrammar
  obtain ⟨top, state, rfl, hrun⟩ := Pattern.succeeds_of_toGrammar hlowered
  have hformed := hrun.formed nofun Lowering.formed_start
  obtain ⟨hclosed, hnames⟩ := hrun.closed Lowering.closed_start
  have hknown {name : String} (hname : Lowering.Known ∅ state name) : LegibleName name :=
    (hformed.generated (hname.resolve_right (Set.notMem_empty name))).legible
  refine ⟨?listed, ?names, ?symbols⟩
  case listed =>
    have hstate := hrun.preserves Lowering.stable_alternatives nofun
    have hgrammar := Lowering.stable_alternatives.added state startName [.nonterminal top] hstate
    intro rule hmem hempty
    exact hgrammar rule.name ((alternatives?_of_mem hmem).trans (congrArg some hempty))
  case names =>
    intro rule hmem
    rcases mem_nonterminals_add.mp (List.mem_map_of_mem hmem) with hstart | hmem
    · rw [hstart]
      exact legible_startName
    · exact (hformed.generated hmem).legible
  case symbols =>
    have hletter {c : Char} (hexposes : pattern.root.Exposes (.char c)) : isLetter c = true :=
      Pattern.isLetter_of_exposes hscan hread hexposes
    have hterminals : state.grammar.TerminalsIn (isLetter · = true) :=
      hrun.terminalsIn
        (fun _ _ _ hholds hexposes => hletter (Pattern.exposes_of_get? hread hholds hexposes))
        (fun _ hexposes => hletter hexposes) nofun
    intro symbol hmem
    rcases mem_symbols_add.mp hmem with hmem | hmem
    · cases symbol with
      | terminal c => exact hterminals c hmem
      | nonterminal name => exact hknown (hclosed.symbols name hmem)
    · cases List.mem_singleton.mp hmem
      exact hknown (hnames top (List.mem_singleton_self top))

namespace Report

/-- The grammar of a text is read back from its listing in every style, and the plain listing of any
grammar is its text. -/
theorem decode_listing :
    (∀ (text : String) (grammar : Grammar) (style : Style), Grammar.ofText text = .ok grammar →
      decode (listing style grammar) = some grammar.rules) ∧
    ∀ grammar : Grammar, listing ⟨false, false⟩ grammar = grammar.text := by
  refine ⟨?_, listing_plain⟩
  intro text grammar style hgrammar
  exact decode_listing_of_legible (Grammar.legible_ofText hgrammar) style

/-- A coloured listing with a heading, of rules with an empty alternative, a group that a reference
lowers and a lookahead. -/
theorem decode_listing_colored :
    ∃ grammar, Grammar.ofText "(?2)*|(a(b))(?=c)" = .ok grammar ∧
      decode (listing ⟨true, true⟩ grammar) = some grammar.rules ∧
      listing ⟨false, false⟩ grammar = grammar.text := by
  have hok : (Grammar.ofText "(?2)*|(a(b))(?=c)").isOk = true := by decide +kernel
  cases hgrammar : Grammar.ofText "(?2)*|(a(b))(?=c)" with
  | error error =>
    rw [hgrammar] at hok
    cases hok
  | ok grammar =>
    exact ⟨grammar, rfl, decode_listing.1 _ grammar _ hgrammar, decode_listing.2 grammar⟩

end Report

end PatternGrammar
