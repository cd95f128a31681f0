/-!
# Names of nonterminals

Each kind of expression has a stem, and the nonterminals made for expressions of that kind are
numbered from zero, independently of the other kinds. A capture group has one name for ever, made of
its number.
-/

namespace PatternGrammar

/-- The kinds of expression whose nonterminals are numbered. -/
inductive NameKind where
  /-- A character. -/
  | char
  /-- A bracket that captures nothing. -/
  | plain
  /-- A lookahead. -/
  | lookahead
  /-- A concatenation. -/
  | concat
  /-- An alternation. -/
  | alternation
  /-- A repetition. -/
  | star
  deriving DecidableEq

/-- The stem of the names of a kind. -/
def NameKind.stem : NameKind → String
  | .char => "CHAR"
  | .plain => "NonCapt"
  | .lookahead => "LookAh"
  | .concat => "Concat"
  | .alternation => "Or"
  | .star => "KleeneSt"

/-- The name of a kind with the given number. -/
def NameKind.name (kind : NameKind) (number : Nat) : String :=
  kind.stem ++ toString number

/-- The nonterminal of a capture group. -/
def groupName (id : Nat) : String :=
  "Group" ++ toString id

/-- How many names of each kind have been made. -/
structure Counters where
  /-- Names of characters. -/
  char : Nat
  /-- Names of plain brackets. -/
  plain : Nat
  /-- Names of lookaheads. -/
  lookahead : Nat
  /-- Names of concatenations. -/
  concat : Nat
  /-- Names of alternations. -/
  alternation : Nat
  /-- Names of repetitions. -/
  star : Nat
  deriving DecidableEq

namespace Counters

/-- No names made. -/
def zero : Counters := ⟨0, 0, 0, 0, 0, 0⟩

/-- How many names of a kind have been made. -/
def get (counters : Counters) : NameKind → Nat
  | .char => counters.char
  | .plain => counters.plain
  | .lookahead => counters.lookahead
  | .concat => counters.concat
  | .alternation => counters.alternation
  | .star => counters.star

/-- One more name of a kind. -/
def bump (counters : Counters) : NameKind → Counters
  | .char => { counters with char := counters.char + 1 }
  | .plain => { counters with plain := counters.plain + 1 }
  | .lookahead => { counters with lookahead := counters.lookahead + 1 }
  | .concat => { counters with concat := counters.concat + 1 }
  | .alternation => { counters with alternation := counters.alternation + 1 }
  | .star => { counters with star := counters.star + 1 }

/-- No name of any kind has been made at the start. -/
@[simp] theorem get_zero (kind : NameKind) : zero.get kind = 0 := by
  cases kind <;> rfl

/-- One more name of a kind changes the count of that kind only. -/
theorem get_bump (counters : Counters) (kind other : NameKind) :
    (counters.bump kind).get other =
      if other = kind then counters.get kind + 1 else counters.get other := by
  cases kind <;> cases other <;> rfl

end Counters

end PatternGrammar
