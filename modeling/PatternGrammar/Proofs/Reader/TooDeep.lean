import Mathlib.Algebra.GroupWithZero.Nat
import PatternGrammar.Expr.Spelling
import PatternGrammar.Reader.Basic

/-!
# Where a tree is too deep

The tokens that spell an expression are those of its parts in order, so every part has its place
among them. A tree that exceeds a limit on depth can be blamed on one of its places: on the opening
of a bracket inside as many brackets as the limit allows levels, or on a part that is exactly one
level too deep.
-/

namespace PatternGrammar

namespace Expr

/-- `root.Places brackets position inner`: the expression `inner` stands in `root` inside so many
brackets, after so many tokens of `root`. -/
inductive Places : Expr → Nat → Nat → Expr → Prop where
  /-- The whole expression. -/
  | here (expr : Expr) : Places expr 0 0 expr
  /-- In an operand of a row, after the tokens of the operands before it. -/
  | concat {before after : List Expr} {operand inner : Expr} {brackets position : Nat}
    (inside : Places operand brackets position inner) :
    Places (.concat (before ++ operand :: after)) brackets
      ((before.map fun expr => expr.lexemes.length).sum + position) inner
  /-- In a branch, after the tokens of the branches before it and a bar after each of them. -/
  | alternation {before after : List Expr} {operand inner : Expr} {brackets position : Nat}
    (inside : Places operand brackets position inner) :
    Places (.alternation (before ++ operand :: after)) brackets
      ((before.map fun expr => expr.lexemes.length + 1).sum + position) inner
  /-- In what is repeated. -/
  | star {body inner : Expr} {brackets position : Nat}
    (inside : Places body brackets position inner) :
    Places (.star body) brackets position inner
  /-- In a capture group, after its opening. -/
  | capture {id : Nat} {body inner : Expr} {brackets position : Nat}
    (inside : Places body brackets position inner) :
    Places (.capture id body) (brackets + 1) (1 + position) inner
  /-- In a plain bracket, after its opening. -/
  | plain {body inner : Expr} {brackets position : Nat}
    (inside : Places body brackets position inner) :
    Places (.plain body) (brackets + 1) (1 + position) inner
  /-- In a lookahead, after its opening. -/
  | lookahead {body inner : Expr} {brackets position : Nat}
    (inside : Places body brackets position inner) :
    Places (.lookahead body) (brackets + 1) (1 + position) inner

/-- The depth of two lists in a row. -/
theorem listDepth_append (front back : List Expr) :
    listDepth (front ++ back) = max (listDepth front) (listDepth back) := by
  induction front with
  | nil => rw [List.nil_append, listDepth, Nat.zero_max]
  | cons expr rest ih => rw [List.cons_append, listDepth, listDepth, ih, Nat.max_assoc]

/-- What stands in the body of a bracket. -/
theorem Places.around {body inner : Expr} {brackets position : Nat}
    (hinside : body.Places brackets position inner) (opening : Opening) :
    (opening.around body).Places (brackets + 1) (1 + position) inner := by
  cases opening with
  | capture id => exact .capture hinside
  | plain => exact .plain hinside
  | lookahead => exact .lookahead hinside

/-- The offset of a token at which the tree spelled by the tokens, itself inside so many brackets,
is found to be deeper than the limit. -/
inductive TooDeepAt (limit outer : Nat) (root : Expr) (tokens : List Token) : Nat → Prop where
  /-- The opening of a bracket inside as many brackets as the limit. -/
  | opening {brackets position : Nat} {opening : Opening} {body : Expr} {token : Token}
    (places : root.Places brackets position (opening.around body)) (full : outer + brackets = limit)
    (found : tokens[position]? = some token) : TooDeepAt limit outer root tokens token.offset
  /-- The star of a repetition that is one level too deep. -/
  | star {brackets position : Nat} {body : Expr} {token : Token}
    (places : root.Places brackets position (.star body))
    (deep : (Expr.star body).depth = limit + 1)
    (found : tokens[position + body.lexemes.length]? = some token) :
    TooDeepAt limit outer root tokens token.offset
  /-- The first token of any other expression that is one level too deep. -/
  | node {brackets position : Nat} {inner : Expr} {token : Token}
    (places : root.Places brackets position inner) (deep : inner.depth = limit + 1)
    (other : ∀ body, inner ≠ .star body) (found : tokens[position]? = some token) :
    TooDeepAt limit outer root tokens token.offset

/-- What stands inside so many brackets is by as much less deep than the whole. -/
theorem Places.depth_le {root inner : Expr} {brackets position : Nat}
    (hplaces : root.Places brackets position inner) : inner.depth + brackets ≤ root.depth := by
  induction hplaces with
  | here => exact Nat.le_refl _
  | concat _ ih | alternation _ ih =>
    simp only [depth, listDepth_append, listDepth]
    omega
  | star _ ih | capture _ ih | plain _ ih | lookahead _ ih =>
    simp only [depth]
    omega

/-- A tree that can be blamed exceeds the limit together with the brackets around it. -/
theorem TooDeepAt.limit_lt {limit outer offset : Nat} {root : Expr} {tokens : List Token}
    (hdeep : root.TooDeepAt limit outer tokens offset) : limit < outer + root.depth := by
  cases hdeep with
  | @opening brackets position opening body token places full found =>
    have hle := places.depth_le
    have hpositive : 0 < (opening.around body).depth := by
      cases opening <;> simp only [Opening.around, depth] <;> omega
    omega
  | star places deep found =>
    have hle := places.depth_le
    omega
  | node places deep other found =>
    have hle := places.depth_le
    omega

/-- A token among others is found after those before them. -/
theorem getElem?_between {front inside back : List Token} {position : Nat} {token : Token}
    (hfound : inside[position]? = some token) :
    (front ++ inside ++ back)[front.length + position]? = some token := by
  have hbound : position < inside.length := (List.getElem?_eq_some_iff.mp hfound).1
  rw [List.append_assoc, List.getElem?_append_right (Nat.le_add_right ..), Nat.add_sub_cancel_left,
    List.getElem?_append_left hbound, hfound]

/-- What is too deep in a part of a tree is too deep in the tree. -/
theorem TooDeepAt.embed (extra : Nat) (front back : List Token) {limit outer offset : Nat}
    {part whole : Expr} {inside : List Token}
    (hpart : part.TooDeepAt limit (outer + extra) inside offset)
    (hplaces : ∀ brackets position inner, part.Places brackets position inner →
      whole.Places (brackets + extra) (front.length + position) inner) :
    whole.TooDeepAt limit outer (front ++ inside ++ back) offset := by
  cases hpart with
  | opening places full found =>
    exact .opening (hplaces _ _ _ places) (by omega) (getElem?_between found)
  | star places deep found =>
    refine .star (hplaces _ _ _ places) deep ?_
    rw [Nat.add_assoc]
    exact getElem?_between found
  | node places deep other found =>
    exact .node (hplaces _ _ _ places) deep other (getElem?_between found)

/-- One of the expressions of a list, each written with so many tokens after it, is too deep. -/
def TooDeepAmong (limit outer gap : Nat) (exprs : List Expr) (tokens : List Token) (offset : Nat) :
    Prop :=
  ∃ before expr after front inside back, exprs = before ++ expr :: after ∧
    tokens = front ++ inside ++ back ∧
    front.length = (before.map fun expr => expr.lexemes.length + gap).sum ∧
    expr.TooDeepAt limit outer inside offset

section Among

variable {limit outer gap offset : Nat} {expr : Expr} {exprs : List Expr}
  {first others : List Token}

/-- The first expression of a list is too deep. -/
theorem TooDeepAt.among (hfirst : expr.TooDeepAt limit outer first offset) (exprs : List Expr)
    (others : List Token) : TooDeepAmong limit outer gap (expr :: exprs) (first ++ others) offset :=
  ⟨[], expr, exprs, [], first, others, rfl, rfl, rfl, hfirst⟩

/-- One of the expressions after the first is too deep. -/
theorem TooDeepAmong.cons (hothers : TooDeepAmong limit outer gap exprs others offset)
    (hfirst : first.length = expr.lexemes.length + gap) :
    TooDeepAmong limit outer gap (expr :: exprs) (first ++ others) offset := by
  obtain ⟨before, inner, after, front, inside, back, rfl, rfl, hfront, hdeep⟩ := hothers
  refine ⟨expr :: before, inner, after, first ++ front, inside, back, rfl, ?_, ?_, hdeep⟩
  · simp only [List.append_assoc]
  · simp only [List.length_append, List.map_cons, List.sum_cons]
    omega

/-- One of the first expressions of a list is too deep. -/
theorem TooDeepAmong.append (hfirst : TooDeepAmong limit outer gap exprs first offset)
    (later : List Expr) (others : List Token) :
    TooDeepAmong limit outer gap (exprs ++ later) (first ++ others) offset := by
  obtain ⟨before, inner, after, front, inside, back, rfl, rfl, hfront, hdeep⟩ := hfirst
  refine ⟨before, inner, after ++ later, front, inside, back ++ others, ?_, ?_, hfront, hdeep⟩
  · rw [List.append_assoc, List.cons_append]
  · simp only [List.append_assoc]

/-- An operand of a row is too deep. -/
theorem TooDeepAmong.concat {tokens : List Token}
    (hamong : TooDeepAmong limit outer 0 exprs tokens offset) :
    (Expr.concat exprs).TooDeepAt limit outer tokens offset := by
  obtain ⟨before, inner, after, front, inside, back, rfl, rfl, hfront, hdeep⟩ := hamong
  refine hdeep.embed 0 front back fun _ _ _ hplaces => ?_
  rw [hfront]
  exact .concat hplaces

/-- A branch is too deep. -/
theorem TooDeepAmong.alternation {tokens : List Token}
    (hamong : TooDeepAmong limit outer 1 exprs tokens offset) :
    (Expr.alternation exprs).TooDeepAt limit outer tokens offset := by
  obtain ⟨before, inner, after, front, inside, back, rfl, rfl, hfront, hdeep⟩ := hamong
  refine hdeep.embed 0 front back fun _ _ _ hplaces => ?_
  rw [hfront]
  exact .alternation hplaces

end Among

end Expr

/-- The tokens start at an offset. -/
def Token.StartsAt (tokens : List Token) (offset : Nat) : Prop :=
  ∃ token rest, tokens = token :: rest ∧ token.offset = offset

/-- Tokens start where the first of them do. -/
theorem Token.StartsAt.append {first : List Token} {offset : Nat} (hstarts : StartsAt first offset)
    (others : List Token) : StartsAt (first ++ others) offset := by
  obtain ⟨token, rest, rfl, hoffset⟩ := hstarts
  exact ⟨token, rest ++ others, List.cons_append, hoffset⟩

/-- An expression that is one level too deep, and no repetition, is blamed on its first token. -/
theorem Expr.tooDeepAt_self {limit outer offset : Nat} {expr : Expr} {tokens : List Token}
    (hdeep : expr.depth = limit + 1) (hother : ∀ body, expr ≠ .star body)
    (hstarts : Token.StartsAt tokens offset) : expr.TooDeepAt limit outer tokens offset := by
  obtain ⟨token, rest, rfl, rfl⟩ := hstarts
  exact .node (.here expr) hdeep hother rfl

end PatternGrammar
