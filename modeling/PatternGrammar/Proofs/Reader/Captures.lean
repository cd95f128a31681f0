import PatternGrammar.Proofs.Reader.Written

/-!
# The captures of a pattern that was read

The table of a pattern that was read and its expression tell the same: a group holds a body exactly
if the expression shows a capture of that number with that body, and the numbers are those from one
to the number of captures. References that are followed through the table therefore never leave the
expression.
-/

namespace PatternGrammar.Pattern

variable {tokens : List Token} {pattern : Pattern}

section OfTokens

variable (hread : Pattern.ofTokens tokens = .ok pattern)
include hread

/-- A pattern that was read obeys every rule of writing. -/
theorem wellFormed_of_ofTokens : pattern.root.WellFormed .standard :=
  (Reader.wellFormed_of_read (by decide) hread).1

/-- The table lists the captures of the expression in the order of their openings. -/
theorem entries_of_ofTokens : pattern.captures.entries = pattern.root.captureEntries :=
  (Reader.wellFormed_of_read (by decide) hread).2.2

/-- A group holds a body exactly if the expression shows it as a capture. -/
theorem get?_captures {id : Nat} {body : Expr} :
    pattern.captures.get? id = some body ↔ pattern.root.Exposes (.capture id body) := by
  rw [CaptureTable.get?_eq_some, entries_of_ofTokens hread]
  exact (wellFormed_of_ofTokens hread).flat.mem_captureEntries id body

/-- The table agrees with the expression. -/
theorem agrees_captures : pattern.captures.Agrees pattern.root :=
  fun _ _ hexposes => (get?_captures hread).mpr hexposes

/-- What a group shows is shown by the expression. -/
theorem exposes_of_get? {id : Nat} {body inner : Expr}
    (hholds : pattern.captures.get? id = some body)
    (hexposes : body.Exposes inner) : pattern.root.Exposes inner :=
  ((get?_captures hread).mp hholds).trans (.capture hexposes)

/-- The table agrees with everything that it holds. -/
theorem coherent_captures : pattern.captures.Coherent :=
  fun _ _ hholds _ _ hexposes => (get?_captures hread).mpr (exposes_of_get? hread hholds hexposes)

/-- The groups of a pattern are numbered from one to the number of its captures. -/
theorem isSome_get?_captures (id : Nat) :
    (pattern.captures.get? id).isSome = true ↔ 1 ≤ id ∧ id ≤ pattern.root.captureIds.length := by
  have hnumbered := (wellFormed_of_ofTokens hread).numbered
  have hmem : (pattern.captures.get? id).isSome = true ↔ id ∈ pattern.root.captureIds := by
    rw [Option.isSome_iff_exists, ← Expr.map_fst_captureEntries, ← entries_of_ofTokens hread]
    simp only [CaptureTable.get?_eq_some, List.mem_map]
    constructor
    · rintro ⟨body, hentry⟩
      exact ⟨(id, body), hentry, rfl⟩
    · rintro ⟨⟨_, body⟩, hentry, rfl⟩
      exact ⟨body, hentry⟩
  rw [hmem, hnumbered, List.mem_range'_1, List.length_range']
  omega

end OfTokens

end PatternGrammar.Pattern
