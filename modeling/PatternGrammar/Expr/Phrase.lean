import PatternGrammar.Expr.Spelling
import PatternGrammar.Pattern.Basic

/-!
# The grammar of patterns

Which lists of tokens are patterns, by the rules that make a phrase out of shorter ones and without
any tree: an alternation is one or more concatenations with bars between them, a concatenation one
or more repetitions, a repetition an atom and its stars, and an atom a bracket around an
alternation, a reference or a letter. No capture and no lookahead is an atom inside a lookahead. How
deep brackets and stars are nested does not matter here.
-/

namespace PatternGrammar

/-- What kind of phrase a list of lexemes can be, the loosest first. -/
inductive PhraseKind where
  /-- Concatenations with bars between them. -/
  | alternation
  /-- Repetitions one after another. -/
  | concatenation
  /-- An atom with any number of stars after it. -/
  | repetition
  /-- A bracket, a reference or a letter. -/
  | atom

/-- `Phrase inside kind lexemes`: the lexemes are a phrase of the kind, for use in a lookahead if
`inside`. -/
inductive Phrase : Bool → PhraseKind → List Lexeme → Prop where
  /-- A single branch. -/
  | branch {inside : Bool} {lexemes : List Lexeme} (only : Phrase inside .concatenation lexemes) :
    Phrase inside .alternation lexemes
  /-- A branch, a bar and the other branches. -/
  | bar {inside : Bool} {front back : List Lexeme} (first : Phrase inside .concatenation front)
    (others : Phrase inside .alternation back) :
    Phrase inside .alternation (front ++ ⟨.bar, none⟩ :: back)
  /-- A single operand. -/
  | operand {inside : Bool} {lexemes : List Lexeme} (only : Phrase inside .repetition lexemes) :
    Phrase inside .concatenation lexemes
  /-- An operand and the other operands. -/
  | row {inside : Bool} {front back : List Lexeme} (first : Phrase inside .repetition front)
    (others : Phrase inside .concatenation back) : Phrase inside .concatenation (front ++ back)
  /-- An atom without stars. -/
  | once {inside : Bool} {lexemes : List Lexeme} (only : Phrase inside .atom lexemes) :
    Phrase inside .repetition lexemes
  /-- One more star. -/
  | star {inside : Bool} {lexemes : List Lexeme} (body : Phrase inside .repetition lexemes) :
    Phrase inside .repetition (lexemes ++ [⟨.star, none⟩])
  /-- A capture group, outside lookaheads only. -/
  | capture {lexemes : List Lexeme} (body : Phrase false .alternation lexemes) :
    Phrase false .atom (⟨.openCapture, none⟩ :: (lexemes ++ [⟨.close, none⟩]))
  /-- A bracket that captures nothing. -/
  | plain {inside : Bool} {lexemes : List Lexeme} (body : Phrase inside .alternation lexemes) :
    Phrase inside .atom (⟨.openPlain, none⟩ :: (lexemes ++ [⟨.close, none⟩]))
  /-- A lookahead, outside lookaheads only. -/
  | lookahead {lexemes : List Lexeme} (body : Phrase true .alternation lexemes) :
    Phrase false .atom (⟨.openLookahead, none⟩ :: (lexemes ++ [⟨.close, none⟩]))
  /-- A reference and its closing bracket. -/
  | reference {inside : Bool} {digit : Char} (isDigit : digit.isDigit = true) :
    Phrase inside .atom [⟨.openReference, some digit⟩, ⟨.close, none⟩]
  /-- A letter. -/
  | letter {inside : Bool} (c : Char) : Phrase inside .atom [⟨.letter, some c⟩]

namespace Token

/-- Tokens that are a pattern by the grammar, with no more captures than allowed. -/
def Sentence (limits : Limits) (tokens : List Token) : Prop :=
  Phrase false .alternation (tokens.map Token.lexeme) ∧
    tokens.countP (·.kind = .openCapture) ≤ limits.groups

/-- Tokens that some more tokens make a sentence of. -/
def Viable (limits : Limits) (tokens : List Token) : Prop :=
  ∃ rest, Sentence limits (tokens ++ rest)

end Token

end PatternGrammar
