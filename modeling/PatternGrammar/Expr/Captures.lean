import PatternGrammar.Expr.Basic

/-!
# Capture tables

What each capture group holds, kept in ascending order of the group numbers. The order is part of
the type, so a table lists its groups the way reports show them whatever order they were entered in.
-/

namespace PatternGrammar

/-- The expressions held by capture groups, by group number. -/
structure CaptureTable where
  /-- Group numbers with what they hold. -/
  entries : List (Nat × Expr)
  /-- Group numbers ascend, so none occurs twice. -/
  ascending : entries.Pairwise (·.1 < ·.1)

namespace CaptureTable

/-- The table without groups. -/
def empty : CaptureTable := ⟨[], .nil⟩

/-- Place an entry in ascending order, in the stead of an entry with its number. -/
def place (id : Nat) (expr : Expr) : List (Nat × Expr) → List (Nat × Expr)
  | [] => [(id, expr)]
  | entry :: rest =>
    if id < entry.1 then (id, expr) :: entry :: rest
    else if id = entry.1 then (id, expr) :: rest
    else entry :: place id expr rest

/-- An entry after placing is the new one or an earlier one of another number. -/
theorem mem_place {entries : List (Nat × Expr)} (id : Nat) (expr : Expr)
    (ascending : entries.Pairwise (·.1 < ·.1)) (entry : Nat × Expr) :
    entry ∈ place id expr entries ↔ entry = (id, expr) ∨ entry ∈ entries ∧ entry.1 ≠ id := by
  induction entries with
  | nil => simp [place]
  | cons head rest ih =>
    have below := (List.pairwise_cons.mp ascending).1
    have ih := ih (List.pairwise_cons.mp ascending).2
    grind [place]

/-- Placing keeps the ascending order. -/
theorem pairwise_place {entries : List (Nat × Expr)} (id : Nat) (expr : Expr)
    (ascending : entries.Pairwise (·.1 < ·.1)) : (place id expr entries).Pairwise (·.1 < ·.1) := by
  induction entries with
  | nil => simp [place]
  | cons head rest ih =>
    obtain ⟨below, tail⟩ := List.pairwise_cons.mp ascending
    unfold place
    split
    next smaller =>
      refine List.pairwise_cons.mpr ⟨fun entry member => ?_, ascending⟩
      rcases List.mem_cons.mp member with rfl | member
      · exact smaller
      · exact Nat.lt_trans smaller (below entry member)
    next =>
      split
      next same =>
        exact List.pairwise_cons.mpr ⟨fun entry member => same ▸ below entry member, tail⟩
      next =>
        refine List.pairwise_cons.mpr ⟨fun entry member => ?_, ih tail⟩
        rcases (mem_place id expr tail entry).mp member with rfl | ⟨member, _⟩
        · show head.1 < id
          omega
        · exact below entry member

/-- The table with a group entered; an earlier entry of that number is replaced. -/
def insert (table : CaptureTable) (id : Nat) (expr : Expr) : CaptureTable :=
  ⟨place id expr table.entries, pairwise_place id expr table.ascending⟩

/-- What a group holds. -/
def get? (table : CaptureTable) (id : Nat) : Option Expr :=
  (table.entries.find? (·.1 == id)).map Prod.snd

/-- The table of a list of entries, later ones replacing earlier ones of the same number. -/
def ofList (entries : List (Nat × Expr)) : CaptureTable :=
  entries.foldl (fun table entry => table.insert entry.1 entry.2) empty

/-- What is found under a number in a list after placing an entry in it. -/
theorem find?_place (id : Nat) (expr : Expr) (wanted : Nat) (entries : List (Nat × Expr)) :
    ((place id expr entries).find? (·.1 == wanted)).map Prod.snd =
      if wanted = id then some expr else (entries.find? (·.1 == wanted)).map Prod.snd := by
  induction entries with
  | nil => by_cases same : wanted = id <;> grind [place]
  | cons head rest ih => by_cases same : wanted = id <;> grind [place]

/-- A lookup after an insertion. -/
theorem get?_insert (table : CaptureTable) (id : Nat) (expr : Expr) (wanted : Nat) :
    (table.insert id expr).get? wanted = if wanted = id then some expr else table.get? wanted :=
  find?_place id expr wanted table.entries

end CaptureTable

end PatternGrammar
