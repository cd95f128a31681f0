import PatternGrammar.Expr.Captures

/-!
# Patterns

A pattern that has been read: its expression and what each of its capture groups holds. The two are
kept side by side because a reference may stand before the group it names, so its meaning is found
in the table and not on the way through the tree. Trees and tables built by hand need not agree.
-/

namespace PatternGrammar

/-- How large a pattern may be. -/
structure Limits where
  /-- Greatest number of capture groups. -/
  groups : Nat
  /-- Greatest depth of the tree. -/
  depth : Nat

/-- Nine capture groups, one for each digit that a reference can name, and fifty levels. -/
def Limits.standard : Limits := ⟨9, 50⟩

/-- An expression with the table of its capture groups. -/
structure Pattern where
  /-- The whole expression. -/
  root : Expr
  /-- What each capture group holds. -/
  captures : CaptureTable

end PatternGrammar
