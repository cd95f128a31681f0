import Mathlib.Data.List.Forall2
import Mathlib.Data.Set.Insert
import PatternGrammar.Expr.Language
import PatternGrammar.Grammar.Derivation
import PatternGrammar.Proofs.Expr.Exposure

/-!
# What nonterminals stand for

A lexicon says of nonterminals which expression each of them stands for. A capture group and every
reference to it have one nonterminal between them, which stands for the reference. If every
alternative of a grammar fits what its nonterminal stands for, and no alternative is missing, then a
nonterminal derives exactly the words of its expression, however the groups refer to each other.
-/

namespace PatternGrammar

/-- The expression under which a nonterminal is known: a capture group goes by the reference to
it. -/
def Expr.label : Expr → Expr
  | .capture id _ => .reference id
  | expr => expr

/-- The expression that each nonterminal stands for, if any. -/
abbrev Lexicon := String → Option Expr

namespace Lexicon

/-- A nonterminal stands for an expression. -/
def Stands (lexicon : Lexicon) (name : String) (expr : Expr) : Prop :=
  lexicon name = some expr.label

/-- An alternative that a nonterminal standing for the expression may have. -/
def Fits (table : CaptureTable) (lexicon : Lexicon) : Expr → Alternative → Prop
  | .char c, alternative => alternative = [.terminal c]
  | .concat operands, alternative =>
    ∃ names : List String, alternative = names.map .nonterminal ∧
      List.Forall₂ lexicon.Stands names operands
  | .alternation operands, alternative =>
    ∃ inner, ∃ operand ∈ operands, alternative = [.nonterminal inner] ∧ lexicon.Stands inner operand
  | .star body, alternative =>
    alternative = [] ∨ ∃ self inner, alternative = [.nonterminal self, .nonterminal inner] ∧
      lexicon.Stands self (.star body) ∧ lexicon.Stands inner body
  | .capture _ _, _ => False
  | .plain body, alternative =>
    ∃ inner, alternative = [.nonterminal inner] ∧ lexicon.Stands inner body
  | .lookahead _, alternative => alternative = []
  | .reference id, alternative =>
    ∃ inner body, table.get? id = some body ∧ alternative = [.nonterminal inner] ∧
      lexicon.Stands inner body

/-- The alternatives that a nonterminal standing for the expression needs are there. -/
def Covers (table : CaptureTable) (lexicon : Lexicon) (grammar : Grammar) (name : String) :
    Expr → Prop
  | .char c => grammar.Produces name [.terminal c]
  | .concat operands =>
    ∃ names : List String, grammar.Produces name (names.map .nonterminal) ∧
      List.Forall₂ lexicon.Stands names operands
  | .alternation operands =>
    ∀ operand ∈ operands, ∃ inner, grammar.Produces name [.nonterminal inner] ∧
      lexicon.Stands inner operand
  | .star body =>
    grammar.Produces name [] ∧
      ∃ inner, grammar.Produces name [.nonterminal name, .nonterminal inner] ∧
        lexicon.Stands inner body
  | .capture _ _ => False
  | .plain body => ∃ inner, grammar.Produces name [.nonterminal inner] ∧ lexicon.Stands inner body
  | .lookahead _ => grammar.Produces name []
  | .reference id =>
    ∃ inner body, table.get? id = some body ∧ grammar.Produces name [.nonterminal inner] ∧
      lexicon.Stands inner body

/-- The lexicon accounts for every rule of a grammar, and the grammar for every entry of the
lexicon, except that pending nonterminals may still lack alternatives. -/
structure Explains (table : CaptureTable) (lexicon : Lexicon) (pending : Set String)
    (grammar : Grammar) : Prop where
  /-- Every alternative fits what its nonterminal stands for. -/
  fits : ∀ name alternative, grammar.Produces name alternative →
    ∃ expr, lexicon name = some expr ∧ Fits table lexicon expr alternative
  /-- Only pending nonterminals lack alternatives. -/
  covers : ∀ name expr, lexicon name = some expr → name ∉ pending →
    Covers table lexicon grammar name expr
  /-- The table agrees with everything that a nonterminal stands for. -/
  agrees : ∀ name expr, lexicon name = some expr → table.Agrees expr

variable {table : CaptureTable} {lexicon : Lexicon} {grammar : Grammar}

/-- With nothing pending, a nonterminal lacks no alternative. -/
theorem Explains.covered (hexplains : Explains table lexicon ∅ grammar) {name : String}
    {expr : Expr} (hname : lexicon name = some expr) : Covers table lexicon grammar name expr :=
  hexplains.covers name expr hname (Set.notMem_empty name)

/-- The words of a symbol, for a nonterminal those of what it stands for. -/
def SymbolHasWord (table : CaptureTable) (lexicon : Lexicon) : Symbol → List Char → Prop
  | .terminal c, word => word = [c]
  | .nonterminal name, word => ∃ expr, lexicon name = some expr ∧ expr.HasWord table word

/-- The words of a row of symbols. -/
def RowHasWord (table : CaptureTable) (lexicon : Lexicon) : List Symbol → List Char → Prop
  | [], word => word = []
  | symbol :: symbols, word =>
    ∃ first others, word = first ++ others ∧ SymbolHasWord table lexicon symbol first ∧
      RowHasWord table lexicon symbols others

/-- A capture group and the reference to it have the same words if the table holds its body. -/
theorem hasWord_of_label {expr : Expr} {word : List Char} (hagrees : table.Agrees expr)
    (hword : expr.label.HasWord table word) : expr.HasWord table word := by
  cases expr with
  | capture id body =>
    cases hword with
    | reference hholds hbody =>
      have hsame := hholds.symm.trans (hagrees id body (.here _))
      cases hsame
      exact .capture hbody
  | _ => exact hword

/-- A nonterminal has only words of an expression that it stands for. -/
theorem SymbolHasWord.of_stands {name : String} {expr : Expr} {word : List Char}
    (hword : SymbolHasWord table lexicon (.nonterminal name) word)
    (hstands : lexicon.Stands name expr)
    (hagrees : table.Agrees expr) : expr.HasWord table word := by
  obtain ⟨label, hlabel, hhas⟩ := hword
  have hsame := hlabel.symm.trans hstands
  cases hsame
  exact hasWord_of_label hagrees hhas

/-- One nonterminal has the words of the row that holds it alone. -/
theorem RowHasWord.single {symbol : Symbol} {word : List Char}
    (hrow : RowHasWord table lexicon [symbol] word) : SymbolHasWord table lexicon symbol word := by
  obtain ⟨first, others, rfl, hsymbol, rfl⟩ := hrow
  rwa [List.append_nil]

/-- A row of nonterminals that stand for operands has only words of the operands in a row. -/
theorem RowHasWord.concat {names : List String} {operands : List Expr} {word : List Char}
    (hstands : List.Forall₂ lexicon.Stands names operands)
    (hagrees : ∀ operand ∈ operands, table.Agrees operand)
    (hrow : RowHasWord table lexicon (names.map .nonterminal) word) :
    (Expr.concat operands).HasWord table word := by
  induction hstands generalizing word with
  | nil =>
    cases hrow
    exact .concatNil
  | cons hhead _ ih =>
    obtain ⟨first, others, rfl, hfirst, hothers⟩ := hrow
    refine .concatCons (hfirst.of_stands hhead (hagrees _ List.mem_cons_self)) ?_
    exact ih (fun operand hmem => hagrees operand (List.mem_cons_of_mem _ hmem)) hothers

/-- A fitting alternative has only words of the expression that it fits. -/
theorem Fits.hasWord {expr : Expr} {alternative : Alternative} {word : List Char}
    (hfits : Fits table lexicon expr alternative) (hagrees : table.Agrees expr)
    (hcoherent : table.Coherent) (hrow : RowHasWord table lexicon alternative word) :
    expr.HasWord table word := by
  cases expr with
  | char c =>
    cases hfits
    have hsymbol := hrow.single
    cases hsymbol
    exact .char c
  | concat operands =>
    obtain ⟨names, rfl, hstands⟩ := hfits
    exact RowHasWord.concat hstands (fun _ hmem => hagrees.row_operand hmem) hrow
  | alternation operands =>
    obtain ⟨inner, operand, hmem, rfl, hstands⟩ := hfits
    exact .alternation hmem (hrow.single.of_stands hstands (hagrees.branch hmem))
  | star body =>
    obtain rfl | ⟨self, inner, rfl, hself, hstands⟩ := hfits
    · cases hrow
      exact .starNil body
    · obtain ⟨before, last, rfl, hbefore, hlast⟩ := hrow
      have hwords := hlast.single.of_stands hstands hagrees.star_body
      exact .starSnoc (hbefore.of_stands hself hagrees) hwords
  | capture id body => exact hfits.elim
  | plain body =>
    obtain ⟨inner, rfl, hstands⟩ := hfits
    exact .plain (hrow.single.of_stands hstands hagrees.plain_body)
  | lookahead body =>
    cases hfits
    cases hrow
    exact .lookahead body
  | reference id =>
    obtain ⟨inner, body, hholds, rfl, hstands⟩ := hfits
    exact .reference hholds (hrow.single.of_stands hstands (hcoherent id body hholds))

/-- A row of symbols derives only words of what its symbols stand for. -/
theorem Explains.rowHasWord (hexplains : Explains table lexicon ∅ grammar)
    (hcoherent : table.Coherent)
    {symbols : List Symbol} {word : List Char} (hderives : grammar.Derives symbols word) :
    RowHasWord table lexicon symbols word := by
  induction hderives with
  | nil => rfl
  | terminal _ ih => exact ⟨[_], _, rfl, rfl, ih⟩
  | nonterminal hproduces _ _ ihinner ihrest =>
    obtain ⟨expr, hlabel, hfits⟩ := hexplains.fits _ _ hproduces
    have hword := hfits.hasWord (hexplains.agrees _ _ hlabel) hcoherent ihinner
    exact ⟨_, _, rfl, ⟨expr, hlabel, hword⟩, ihrest⟩

/-- A word can be derived for an expression: from the nonterminals of its operands in the case of a
row, from every nonterminal that stands for it otherwise. -/
def Derivable (lexicon : Lexicon) (grammar : Grammar) (word : List Char) : Expr → Prop
  | .concat operands =>
    ∀ names : List String, List.Forall₂ lexicon.Stands names operands →
      grammar.Derives (names.map .nonterminal) word
  | expr => ∀ name, lexicon.Stands name expr → grammar.Derives [.nonterminal name] word

/-- What can be derived for an expression is derived by every nonterminal that stands for it. -/
theorem Derivable.derives (hexplains : Explains table lexicon ∅ grammar) {expr : Expr}
    {name : String} {word : List Char} (hderivable : Derivable lexicon grammar word expr)
    (hstands : lexicon.Stands name expr) : grammar.Derives [.nonterminal name] word := by
  cases expr with
  | concat operands =>
    obtain ⟨names, hproduces, hnames⟩ := hexplains.covered hstands
    exact Grammar.derives_nonterminal_iff.mpr ⟨_, hproduces, hderivable names hnames⟩
  | _ => exact hderivable name hstands

/-- A nonterminal derives what one nonterminal on its right-hand side derives. -/
theorem derives_through {name inner : String} {word : List Char}
    (hproduces : grammar.Produces name [.nonterminal inner])
    (hinner : grammar.Derives [.nonterminal inner] word) :
    grammar.Derives [.nonterminal name] word :=
  Grammar.derives_nonterminal_iff.mpr ⟨_, hproduces, hinner⟩

/-- Every word of an expression can be derived for it. -/
theorem Explains.derivable (hexplains : Explains table lexicon ∅ grammar)
    (hcoherent : table.Coherent)
    {expr : Expr} {word : List Char} (hword : expr.HasWord table word)
    (hagrees : table.Agrees expr) : Derivable lexicon grammar word expr := by
  -- The induction follows the word and not the expression: a group may refer to itself, and only
  -- the derivation of a word is sure to get smaller on the way through the table.
  induction hword with
  | char c =>
    intro name hstands
    exact Grammar.derives_nonterminal_iff.mpr ⟨_, hexplains.covered hstands, .terminal .nil⟩
  | concatNil =>
    intro names hnames
    cases hnames
    exact .nil
  | concatCons _ _ ihhead ihtail =>
    intro names hnames
    cases hnames with
    | cons hfirst hothers =>
      have hhead := ihhead (hagrees.row_operand List.mem_cons_self)
      have htail := ihtail hagrees.row_tail
      exact (hhead.derives hexplains hfirst).append (htail _ hothers)
  | alternation hmem _ ih =>
    intro name hstands
    obtain ⟨inner, hproduces, hinner⟩ := hexplains.covered hstands _ hmem
    have hbranch := ih (hagrees.branch hmem)
    exact derives_through hproduces (hbranch.derives hexplains hinner)
  | starNil body =>
    intro name hstands
    exact Grammar.derives_nonterminal_iff.mpr ⟨_, (hexplains.covered hstands).1, .nil⟩
  | starSnoc _ _ ihinit ihlast =>
    intro name hstands
    obtain ⟨-, inner, hproduces, hinner⟩ := hexplains.covered hstands
    have hinit := ihinit hagrees name hstands
    have hlast := ihlast hagrees.star_body
    have hboth := hinit.append (hlast.derives hexplains hinner)
    exact Grammar.derives_nonterminal_iff.mpr ⟨_, hproduces, hboth⟩
  | @capture id body word _ ih =>
    intro name hstands
    obtain ⟨inner, held, hholds, hproduces, hinner⟩ := hexplains.covered hstands
    have hsame := hholds.symm.trans (hagrees id body (.here _))
    cases hsame
    have hbody := ih hagrees.capture_body
    exact derives_through hproduces (hbody.derives hexplains hinner)
  | plain _ ih =>
    intro name hstands
    obtain ⟨inner, hproduces, hinner⟩ := hexplains.covered hstands
    have hbody := ih hagrees.plain_body
    exact derives_through hproduces (hbody.derives hexplains hinner)
  | lookahead body =>
    intro name hstands
    exact Grammar.derives_nonterminal_iff.mpr ⟨_, hexplains.covered hstands, .nil⟩
  | @reference id body word hholds _ ih =>
    intro name hstands
    obtain ⟨inner, held, hheld, hproduces, hinner⟩ := hexplains.covered hstands
    have hsame := hheld.symm.trans hholds
    cases hsame
    exact derives_through hproduces ((ih (hcoherent id body hholds)).derives hexplains hinner)

/-- A nonterminal derives exactly the words of an expression that it stands for. -/
theorem Explains.derives_iff (hexplains : Explains table lexicon ∅ grammar)
    (hcoherent : table.Coherent)
    {expr : Expr} {name : String} (hstands : lexicon.Stands name expr) (hagrees : table.Agrees expr)
    (word : List Char) : grammar.Derives [.nonterminal name] word ↔ expr.HasWord table word := by
  constructor
  · intro hderives
    exact (hexplains.rowHasWord hcoherent hderives).single.of_stands hstands hagrees
  · intro hword
    exact (hexplains.derivable hcoherent hword hagrees).derives hexplains hstands

section Growth

variable {larger : Lexicon}

/-- The second lexicon says of every name what the first one says of it. -/
def Extends (lexicon larger : Lexicon) : Prop :=
  ∀ name expr, lexicon name = some expr → larger name = some expr

/-- Growing in two steps. -/
theorem Extends.trans {largest : Lexicon} (hfirst : lexicon.Extends larger)
    (hsecond : larger.Extends largest) : lexicon.Extends largest :=
  fun name expr hname => hsecond name expr (hfirst name expr hname)

/-- An entry for a name without one. -/
theorem extends_update {name : String} (hunused : lexicon name = none) (expr : Expr) :
    lexicon.Extends (Function.update lexicon name (some expr)) := by
  intro other label hother
  have hne : other ≠ name := by
    rintro rfl
    rw [hunused] at hother
    cases hother
  rwa [Function.update_of_ne hne]

/-- A name keeps standing for what it stands for. -/
theorem Stands.mono {name : String} {expr : Expr} (hstands : lexicon.Stands name expr)
    (hextends : lexicon.Extends larger) : larger.Stands name expr :=
  hextends name expr.label hstands

/-- An alternative keeps fitting. -/
theorem Fits.mono {expr : Expr} {alternative : Alternative}
    (hfits : Fits table lexicon expr alternative) (hextends : lexicon.Extends larger) :
    Fits table larger expr alternative := by
  cases expr with
  | char c => exact hfits
  | concat operands =>
    obtain ⟨names, heq, hstands⟩ := hfits
    exact ⟨names, heq, hstands.imp fun _ _ hone => hone.mono hextends⟩
  | alternation operands =>
    obtain ⟨inner, operand, hmem, heq, hstands⟩ := hfits
    exact ⟨inner, operand, hmem, heq, hstands.mono hextends⟩
  | star body =>
    obtain heq | ⟨self, inner, heq, hself, hinner⟩ := hfits
    · exact .inl heq
    · exact .inr ⟨self, inner, heq, hself.mono hextends, hinner.mono hextends⟩
  | capture id body => exact hfits
  | plain body =>
    obtain ⟨inner, heq, hstands⟩ := hfits
    exact ⟨inner, heq, hstands.mono hextends⟩
  | lookahead body => exact hfits
  | reference id =>
    obtain ⟨inner, body, hholds, heq, hstands⟩ := hfits
    exact ⟨inner, body, hholds, heq, hstands.mono hextends⟩

/-- A nonterminal that lacks no alternative never does again. -/
theorem Covers.mono {name : String} {expr : Expr} {larger : Lexicon} {after : Grammar}
    (hcovers : Covers table lexicon grammar name expr) (hextends : lexicon.Extends larger)
    (hgrows : ∀ alternative, grammar.Produces name alternative → after.Produces name alternative) :
    Covers table larger after name expr := by
  cases expr with
  | char c => exact hgrows _ hcovers
  | concat operands =>
    obtain ⟨names, hproduces, hstands⟩ := hcovers
    exact ⟨names, hgrows _ hproduces, hstands.imp fun _ _ hone => hone.mono hextends⟩
  | alternation operands =>
    intro operand hmem
    obtain ⟨inner, hproduces, hstands⟩ := hcovers operand hmem
    exact ⟨inner, hgrows _ hproduces, hstands.mono hextends⟩
  | star body =>
    obtain ⟨hempty, inner, hproduces, hstands⟩ := hcovers
    exact ⟨hgrows _ hempty, inner, hgrows _ hproduces, hstands.mono hextends⟩
  | capture id body => exact hcovers
  | plain body =>
    obtain ⟨inner, hproduces, hstands⟩ := hcovers
    exact ⟨inner, hgrows _ hproduces, hstands.mono hextends⟩
  | lookahead body => exact hgrows _ hcovers
  | reference id =>
    obtain ⟨inner, body, hholds, hproduces, hstands⟩ := hcovers
    exact ⟨inner, body, hholds, hgrows _ hproduces, hstands.mono hextends⟩

variable {pending : Set String}

/-- A name without an entry receives one, and its alternatives are pending. -/
theorem Explains.update (hexplains : Explains table lexicon pending grammar) {name : String}
    (hunused : lexicon name = none) {expr : Expr} (hagrees : table.Agrees expr) :
    Explains table (Function.update lexicon name (some expr)) (insert name pending) grammar where
  fits := by
    intro wanted alternative hproduces
    obtain ⟨label, hlabel, hfits⟩ := hexplains.fits wanted alternative hproduces
    have hextends := extends_update hunused expr
    exact ⟨label, hextends wanted label hlabel, hfits.mono hextends⟩
  covers := by
    intro wanted label hwanted hsettled
    have hne : wanted ≠ name := fun heq => hsettled (heq ▸ Set.mem_insert ..)
    rw [Function.update_of_ne hne] at hwanted
    have hcovers := hexplains.covers wanted label hwanted fun hmem =>
      hsettled (Set.mem_insert_of_mem _ hmem)
    exact hcovers.mono (extends_update hunused expr) fun _ hold => hold
  agrees := by
    intro wanted label hwanted
    by_cases hsame : wanted = name
    · rw [hsame, Function.update_self] at hwanted
      cases hwanted
      exact hagrees
    · rw [Function.update_of_ne hsame] at hwanted
      exact hexplains.agrees wanted label hwanted

/-- One more alternative that fits its nonterminal. -/
theorem Explains.add (hexplains : Explains table lexicon pending grammar) {name : String}
    {expr : Expr} {alternative : Alternative} (hname : lexicon name = some expr)
    (hfits : Fits table lexicon expr alternative) :
    Explains table lexicon pending (grammar.add name alternative) where
  fits := by
    intro wanted other hproduces
    rcases Grammar.produces_add.mp hproduces with hold | ⟨rfl, rfl⟩
    · exact hexplains.fits wanted other hold
    · exact ⟨expr, hname, hfits⟩
  covers := by
    intro wanted label hwanted hsettled
    have hcovers := hexplains.covers wanted label hwanted hsettled
    exact hcovers.mono (fun _ _ heq => heq) fun _ hold => Grammar.produces_add.mpr (.inl hold)
  agrees := hexplains.agrees

/-- A nonterminal that lacks no alternative is no longer pending. -/
theorem Explains.settle {name : String}
    (hexplains : Explains table lexicon (insert name pending) grammar)
    {expr : Expr} (hname : lexicon name = some expr)
    (hcovers : Covers table lexicon grammar name expr) :
    Explains table lexicon pending grammar where
  fits := hexplains.fits
  covers := by
    intro wanted label hwanted hsettled
    by_cases hsame : wanted = name
    · subst hsame
      rw [hname] at hwanted
      cases hwanted
      exact hcovers
    · exact hexplains.covers wanted label hwanted fun hmem =>
        (Set.mem_insert_iff.mp hmem).elim hsame hsettled
  agrees := hexplains.agrees

/-- More nonterminals may be held to be pending. -/
theorem Explains.insert_pending (hexplains : Explains table lexicon pending grammar)
    (name : String) : Explains table lexicon (insert name pending) grammar where
  fits := hexplains.fits
  covers := fun wanted expr hwanted hsettled =>
    hexplains.covers wanted expr hwanted fun hmem => hsettled (Set.mem_insert_of_mem _ hmem)
  agrees := hexplains.agrees

end Growth

end Lexicon

end PatternGrammar
