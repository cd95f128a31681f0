/-!
# Sets of characters

A property of characters is held as a list of closed intervals of code points. Membership looks at
the intervals one after another; nothing here depends on their order.
-/

namespace PatternGrammar.Text

/-- A closed interval of code points. -/
structure CodeRange where
  /-- Least code point of the interval. -/
  first : Nat
  /-- Greatest code point of the interval. -/
  last : Nat

/-- Whether a code point lies in the interval. -/
def CodeRange.contains (range : CodeRange) (code : Nat) : Bool :=
  range.first ≤ code && code ≤ range.last

/-- A set of characters, as the union of intervals of code points. -/
structure CharSet where
  /-- The intervals, in ascending order in every set of this library. -/
  ranges : List CodeRange

/-- Whether a character belongs to the set. -/
def CharSet.contains (set : CharSet) (c : Char) : Bool :=
  set.ranges.any (·.contains c.toNat)

end PatternGrammar.Text
