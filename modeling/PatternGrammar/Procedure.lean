/-!
# Procedures

A procedure works on a state and ends with a value or with an error. An error keeps the state that
it was met in. A recursion is given a number of rounds, and a procedure that needs more of them than
it has comes to no end at all, so that the number decides nothing else.
-/

namespace PatternGrammar

/-- A computation on a state that ends with a value or an error, if it ends. -/
abbrev Procedure (ε σ : Type) := ExceptT ε (StateT σ Option)

namespace Procedure

variable {ε σ α β : Type}

/-- The procedure that comes to no end. -/
def stuck : Procedure ε σ α := fun _ => none

/-- A procedure between two changes of the state, the second of which is made at an end of either
kind. -/
def around (enter leave : σ → σ) (program : Procedure ε σ α) : Procedure ε σ α :=
  fun state => (program (enter state)).map fun ending => (ending.1, leave ending.2)

variable {first : Procedure ε σ α} {before between : σ}

/-- A procedure goes on from where its first part ended. -/
theorem bind_of_ok {value : α} (hfirst : first before = some (.ok value, between))
    (rest : α → Procedure ε σ β) : (first >>= rest) before = rest value between := by
  show ExceptT.bind first rest before = _
  simp only [ExceptT.bind, ExceptT.mk, bind, StateT.bind, hfirst, Option.bind_some,
    ExceptT.bindCont]

/-- A procedure ends where its first part fails. -/
theorem bind_of_error {error : ε} (hfirst : first before = some (.error error, between))
    (rest : α → Procedure ε σ β) : (first >>= rest) before = some (.error error, between) := by
  show ExceptT.bind first rest before = _
  simp only [ExceptT.bind, ExceptT.mk, bind, StateT.bind, hfirst, Option.bind_some,
    ExceptT.bindCont]
  rfl

/-- A procedure has come to an end, with a value as described or with an error as described. -/
inductive Meets (done : α → σ → Prop) (failed : ε → σ → Prop) : Option (Except ε α × σ) → Prop where
  /-- There is a value. -/
  | done {value : α} {after : σ} (holds : done value after) :
    Meets done failed (some (.ok value, after))
  /-- There is an error. -/
  | failed {error : ε} {after : σ} (holds : failed error after) :
    Meets done failed (some (.error error, after))

namespace Meets

variable {done : α → σ → Prop} {failed : ε → σ → Prop}

/-- A procedure ends as its second part does, or where its first part fails. -/
theorem bind {rest : α → Procedure ε σ β} {later : β → σ → Prop} {broken : ε → σ → Prop}
    (hfirst : Meets done failed (first before))
    (hfailed : ∀ error after, failed error after → broken error after)
    (hrest : ∀ value after, done value after → Meets later broken (rest value after)) :
    Meets later broken ((first >>= rest) before) := by
  generalize hresult : first before = result at hfirst
  cases hfirst with
  | done holds =>
    rw [bind_of_ok hresult]
    exact hrest _ _ holds
  | failed holds =>
    rw [bind_of_error hresult]
    exact .failed (hfailed _ _ holds)

/-- An end may be described in weaker words. -/
theorem imp {result : Option (Except ε α × σ)} {weaker : α → σ → Prop} {broken : ε → σ → Prop}
    (hmeets : Meets done failed result)
    (hdone : ∀ value after, done value after → weaker value after)
    (hfailed : ∀ error after, failed error after → broken error after) :
    Meets weaker broken result := by
  cases hmeets with
  | done holds => exact .done (hdone _ _ holds)
  | failed holds => exact .failed (hfailed _ _ holds)

/-- Two descriptions of one end hold together. -/
theorem and {result : Option (Except ε α × σ)} {also : α → σ → Prop} {broken : ε → σ → Prop}
    (hmeets : Meets done failed result) (halso : Meets also broken result) :
    Meets (fun value after => done value after ∧ also value after)
      (fun error after => failed error after ∧ broken error after) result := by
  cases hmeets with
  | done holds => cases halso with | done other => exact .done ⟨holds, other⟩
  | failed holds => cases halso with | failed other => exact .failed ⟨holds, other⟩

/-- What holds at an end after the second change holds of a procedure between two changes. -/
theorem around {enter leave : σ → σ} (hmeets : Meets (fun value after => done value (leave after))
      (fun error after => failed error (leave after)) (first (enter before))) :
    Meets done failed (Procedure.around enter leave first before) := by
  unfold Procedure.around
  generalize first (enter before) = result at hmeets
  cases hmeets with
  | done holds => exact .done holds
  | failed holds => exact .failed holds

/-- The end with a value is as described. -/
theorem of_eq_ok {result : Option (Except ε α × σ)} {value : α} {after : σ}
    (hmeets : Meets done failed result)
    (hresult : result = some (.ok value, after)) : done value after := by
  subst hresult
  cases hmeets with | done holds => exact holds

end Meets

end Procedure

end PatternGrammar
