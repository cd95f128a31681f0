import Mathlib.Data.List.Nodup
import PatternGrammar.Expr.Shape

/-!
# What an expression shows

The body of a lookahead is never lowered, so what counts about an expression is what stands in it
outside lookaheads. The captures of an expression are listed with their bodies in the order of their
openings. In an expression whose lookaheads capture nothing, both views of the captures agree. A
table agrees with an expression if it holds the shown captures.
-/

namespace PatternGrammar.Expr

/-- `Exposes expr inner`: the second expression stands somewhere in the first, outside
lookaheads. -/
inductive Exposes : Expr → Expr → Prop where
  /-- The expression itself. -/
  | here (expr : Expr) : Exposes expr expr
  /-- In an operand of a row. -/
  | concat {operands : List Expr} {operand inner : Expr} (member : operand ∈ operands)
    (exposes : Exposes operand inner) : Exposes (.concat operands) inner
  /-- In an operand of an alternation. -/
  | alternation {operands : List Expr} {operand inner : Expr} (member : operand ∈ operands)
    (exposes : Exposes operand inner) : Exposes (.alternation operands) inner
  /-- In the body of a repetition. -/
  | star {body inner : Expr} (exposes : Exposes body inner) : Exposes (.star body) inner
  /-- In the body of a capture group. -/
  | capture {id : Nat} {body inner : Expr} (exposes : Exposes body inner) :
    Exposes (.capture id body) inner
  /-- In the body of a plain bracket. -/
  | plain {body inner : Expr} (exposes : Exposes body inner) : Exposes (.plain body) inner

/-- What is shown by a shown part is shown by the whole. -/
theorem Exposes.trans {expr middle inner : Expr} (houter : expr.Exposes middle)
    (hinner : middle.Exposes inner) : expr.Exposes inner := by
  induction houter with
  | here => exact hinner
  | concat hmem _ ih => exact .concat hmem (ih hinner)
  | alternation hmem _ ih => exact .alternation hmem (ih hinner)
  | star _ ih => exact .star (ih hinner)
  | capture _ ih => exact .capture (ih hinner)
  | plain _ ih => exact .plain (ih hinner)

/-- What stands in an expression is nested by precedence if the expression is. -/
theorem Grouped.of_exposes {expr inner : Expr} (hgrouped : expr.Grouped)
    (hexposes : expr.Exposes inner) : inner.Grouped := by
  induction hexposes with
  | here => exact hgrouped
  | concat hmem _ ih =>
    cases hgrouped with
    | concat _ _ hoperands => exact ih (hoperands _ hmem)
  | alternation hmem _ ih =>
    cases hgrouped with
    | alternation _ _ hoperands => exact ih (hoperands _ hmem)
  | star _ ih =>
    cases hgrouped with
    | star _ hbody => exact ih hbody
  | capture _ ih =>
    cases hgrouped with
    | capture hbody => exact ih hbody
  | plain _ ih =>
    cases hgrouped with
    | plain hbody => exact ih hbody

mutual
/-- The captures with their bodies, in the order of their openings. -/
def captureEntries : Expr → List (Nat × Expr)
  | .char _ | .reference _ => []
  | .concat operands | .alternation operands => listCaptureEntries operands
  | .capture id body => (id, body) :: body.captureEntries
  | .star body | .plain body | .lookahead body => body.captureEntries

/-- The captures of a list of expressions with their bodies, in order. -/
def listCaptureEntries : List Expr → List (Nat × Expr)
  | [] => []
  | expr :: rest => expr.captureEntries ++ listCaptureEntries rest
end

/-- The captures of a list are those of its members, one after another. -/
@[simp] theorem listCaptureEntries_eq (exprs : List Expr) :
    listCaptureEntries exprs = exprs.flatMap captureEntries := by
  induction exprs with
  | nil => rfl
  | cons expr rest ih => rw [listCaptureEntries, ih, List.flatMap_cons]

/-- The group numbers of a list are those of its members, one after another. -/
@[simp] theorem listCaptureIds_eq (exprs : List Expr) :
    listCaptureIds exprs = exprs.flatMap captureIds := by
  induction exprs with
  | nil => rfl
  | cons expr rest ih => rw [listCaptureIds, ih, List.flatMap_cons]

/-- Captures are listed in the order of their numbers' list. -/
theorem map_fst_captureEntries (expr : Expr) :
    expr.captureEntries.map Prod.fst = expr.captureIds := by
  induction expr with
  | char c => rfl
  | reference id => rfl
  | concat operands ih | alternation operands ih =>
    simp only [captureEntries, captureIds, listCaptureEntries_eq, listCaptureIds_eq,
      List.map_flatMap]
    exact List.flatMap_congr ih
  | capture id body ih => simp only [captureEntries, captureIds, List.map_cons, ih]
  | star body ih | plain body ih | lookahead body ih =>
    simpa only [captureEntries, captureIds] using ih

/-- A bare expression captures nothing. -/
theorem Bare.captureEntries_eq {expr : Expr} (hbare : expr.Bare) : expr.captureEntries = [] := by
  induction hbare with
  | char c => rfl
  | reference id => rfl
  | concat _ ih | alternation _ ih =>
    simp only [captureEntries, listCaptureEntries_eq, List.flatMap_eq_nil_iff]
    exact ih
  | star _ ih | plain _ ih => simpa only [captureEntries] using ih

/-- If lookaheads capture nothing, the listed captures are exactly the shown ones. -/
theorem FlatLookaheads.mem_captureEntries {expr : Expr} (hflat : expr.FlatLookaheads) (id : Nat)
    (body : Expr) : (id, body) ∈ expr.captureEntries ↔ expr.Exposes (.capture id body) := by
  induction hflat with
  | char c =>
    simp only [captureEntries, List.not_mem_nil, false_iff]
    intro hexposes
    cases hexposes
  | reference other =>
    simp only [captureEntries, List.not_mem_nil, false_iff]
    intro hexposes
    cases hexposes
  | concat _ ih =>
    simp only [captureEntries, listCaptureEntries_eq, List.mem_flatMap]
    constructor
    · rintro ⟨operand, hmem, hentry⟩
      exact .concat hmem ((ih operand hmem).mp hentry)
    · intro hexposes
      cases hexposes with
      | concat hmem hexposes => exact ⟨_, hmem, (ih _ hmem).mpr hexposes⟩
  | alternation _ ih =>
    simp only [captureEntries, listCaptureEntries_eq, List.mem_flatMap]
    constructor
    · rintro ⟨operand, hmem, hentry⟩
      exact .alternation hmem ((ih operand hmem).mp hentry)
    · intro hexposes
      cases hexposes with
      | alternation hmem hexposes => exact ⟨_, hmem, (ih _ hmem).mpr hexposes⟩
  | star _ ih =>
    rw [captureEntries, ih]
    refine ⟨.star, fun hexposes => ?_⟩
    cases hexposes with
    | star hexposes => exact hexposes
  | capture _ ih =>
    rw [captureEntries, List.mem_cons, ih]
    constructor
    · rintro (heq | hexposes)
      · cases heq
        exact .here _
      · exact .capture hexposes
    · intro hexposes
      cases hexposes with
      | here => exact .inl rfl
      | capture hexposes => exact .inr hexposes
  | plain _ ih =>
    rw [captureEntries, ih]
    refine ⟨.plain, fun hexposes => ?_⟩
    cases hexposes with
    | plain hexposes => exact hexposes
  | lookahead hbare =>
    simp only [captureEntries, hbare.captureEntries_eq, List.not_mem_nil, false_iff]
    intro hexposes
    cases hexposes

end PatternGrammar.Expr

namespace PatternGrammar.CaptureTable

/-- The captures of an expression have the bodies that the table holds for their numbers. -/
def Agrees (table : CaptureTable) (expr : Expr) : Prop :=
  ∀ id body, expr.Exposes (.capture id body) → table.get? id = some body

section Agrees

variable {table : CaptureTable} {expr inner operand body : Expr} {operands : List Expr}

/-- A table that agrees with an expression agrees with what the expression shows. -/
theorem Agrees.of_exposes (hagrees : table.Agrees expr) (hexposes : expr.Exposes inner) :
    table.Agrees inner :=
  fun id captured hinner => hagrees id captured (hexposes.trans hinner)

/-- A table that agrees with a row agrees with each operand. -/
theorem Agrees.row_operand (hagrees : table.Agrees (.concat operands)) (hmem : operand ∈ operands) :
    table.Agrees operand :=
  hagrees.of_exposes (.concat hmem (.here operand))

/-- A table that agrees with a row agrees with the row after the first operand. -/
theorem Agrees.row_tail (hagrees : table.Agrees (.concat (operand :: operands))) :
    table.Agrees (.concat operands) := by
  intro id captured hexposes
  cases hexposes with
  | concat hmem hinner => exact hagrees id captured (.concat (List.mem_cons_of_mem _ hmem) hinner)

/-- A table that agrees with an alternation agrees with each branch. -/
theorem Agrees.branch (hagrees : table.Agrees (.alternation operands)) (hmem : operand ∈ operands) :
    table.Agrees operand :=
  hagrees.of_exposes (.alternation hmem (.here operand))

/-- A table that agrees with a repetition agrees with its body. -/
theorem Agrees.star_body (hagrees : table.Agrees (.star body)) : table.Agrees body :=
  hagrees.of_exposes (.star (.here body))

/-- A table that agrees with a capture group agrees with its body. -/
theorem Agrees.capture_body {id : Nat} (hagrees : table.Agrees (.capture id body)) :
    table.Agrees body :=
  hagrees.of_exposes (.capture (.here body))

/-- A table that agrees with a plain bracket agrees with its body. -/
theorem Agrees.plain_body (hagrees : table.Agrees (.plain body)) : table.Agrees body :=
  hagrees.of_exposes (.plain (.here body))

end Agrees

/-- The table agrees with everything that it holds. -/
def Coherent (table : CaptureTable) : Prop :=
  ∀ id body, table.get? id = some body → table.Agrees body

/-- No group number occurs twice. -/
theorem nodup_ids (table : CaptureTable) : (table.entries.map Prod.fst).Nodup :=
  List.pairwise_map.mpr (table.ascending.imp Nat.ne_of_lt)

/-- A lookup finds exactly the entries. -/
theorem get?_eq_some {table : CaptureTable} {id : Nat} {body : Expr} :
    table.get? id = some body ↔ (id, body) ∈ table.entries := by
  unfold get?
  rw [Option.map_eq_some_iff]
  constructor
  · rintro ⟨entry, hfound, rfl⟩
    have hid : entry.1 = id := by simpa using List.find?_some hfound
    rw [← hid]
    exact List.mem_of_find?_eq_some hfound
  · intro hmem
    cases hfound : table.entries.find? (·.1 == id) with
    | none => simpa using List.find?_eq_none.mp hfound (id, body) hmem
    | some entry =>
      have hid : entry.1 = id := by simpa using List.find?_some hfound
      have hentry := List.mem_of_find?_eq_some hfound
      have hsame := List.inj_on_of_nodup_map table.nodup_ids hentry hmem hid
      exact ⟨entry, rfl, by rw [hsame]⟩

end PatternGrammar.CaptureTable
