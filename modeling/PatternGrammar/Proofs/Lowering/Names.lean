import PatternGrammar.Grammar.Basic
import PatternGrammar.Lowering.Name

/-!
# Names are told apart

The names that lowering makes are a stem and a number. No two stems begin with the same two letters
and a number can be read off its digits, so two names are the same only if they were made for the
same purpose and have the same number. The start symbol is none of them.
-/

namespace PatternGrammar

/-- A number is determined by its digits. -/
theorem toString_nat_injective {left right : Nat} (heq : toString left = toString right) :
    left = right := by
  have hdigits := congrArg String.toList heq
  simp only [Nat.toString_eq_repr, Nat.toList_repr] at hdigits
  have hvalue := congrArg (fun digits => Nat.ofDigitChars 10 digits 0) hdigits
  simpa only [Nat.ofDigitChars_ten_toDigits] using hvalue

/-- A numbered name of a kind begins with the first two letters of its stem. -/
theorem NameKind.take_name (kind : NameKind) (number : Nat) :
    (kind.name number).toList.take 2 = kind.stem.toList.take 2 := by
  rw [NameKind.name, String.toList_append, List.take_append_of_le_length]
  cases kind <;> decide

/-- The name of a group begins with the same two letters for every group. -/
theorem take_groupName (id : Nat) : (groupName id).toList.take 2 = ['G', 'r'] := by
  rw [groupName, String.toList_append, List.take_append_of_le_length (by decide)]
  decide

/-- Numbered names are the same only if kind and number are. -/
theorem NameKind.name_inj {kind other : NameKind} {number count : Nat}
    (heq : kind.name number = other.name count) : kind = other ∧ number = count := by
  have hletters := congrArg (fun name => name.toList.take 2) heq
  simp only [take_name] at hletters
  have hkind : kind = other := by
    cases kind <;> cases other <;> first | rfl | exact absurd hletters (by decide)
  subst hkind
  exact ⟨rfl, toString_nat_injective ((String.append_right_inj kind.stem).mp heq)⟩

/-- Two groups have the same name only if they have the same number. -/
theorem groupName_inj {id other : Nat} (heq : groupName id = groupName other) : id = other :=
  toString_nat_injective ((String.append_right_inj "Group").mp heq)

/-- No numbered name is the name of a group. -/
theorem NameKind.name_ne_groupName (kind : NameKind) (number id : Nat) :
    kind.name number ≠ groupName id := by
  intro heq
  have hletters := congrArg (fun name => name.toList.take 2) heq
  simp only [take_name, take_groupName] at hletters
  cases kind <;> exact absurd hletters (by decide)

/-- A name that lowering makes by itself. -/
def Generated (name : String) : Prop :=
  (∃ (kind : NameKind) (number : Nat), name = kind.name number) ∨ ∃ id, name = groupName id

/-- A name that lowering makes begins with the first two letters of a stem or of the names of
groups. -/
theorem Generated.take_mem {name : String} (hgenerated : Generated name) :
    name.toList.take 2 ∈ [['C', 'H'], ['N', 'o'], ['L', 'o'], ['C', 'o'], ['O', 'r'], ['K', 'l'],
      ['G', 'r']] := by
  rcases hgenerated with ⟨kind, number, rfl⟩ | ⟨id, rfl⟩
  · rw [NameKind.take_name]
    cases kind <;> decide
  · rw [take_groupName]
    decide

/-- The start symbol is not made by lowering. -/
theorem not_generated_startName : ¬Generated Grammar.startName :=
  fun hgenerated => absurd hgenerated.take_mem (by decide)

end PatternGrammar
