import PatternGrammar.Expr.Spelling
import PatternGrammar.Reader.Basic

/-!
# What a reader can do with a token

For each way of taking a token, when it succeeds and which reader it gives. Later statements about
runs of a reader go through these and look into none of the definitions again.
-/

namespace PatternGrammar

/-- A program in two parts gives a value exactly if both parts do. -/
theorem bind_eq_ok {ε α β : Type} {first : Except ε α} {rest : α → Except ε β} {value : β} :
    (first >>= rest) = .ok value ↔ ∃ middle, first = .ok middle ∧ rest middle = .ok value := by
  cases first with
  | error error => exact ⟨nofun, fun ⟨_, heq, _⟩ => nomatch heq⟩
  | ok middle =>
    constructor
    · exact fun heq => ⟨middle, rfl, heq⟩
    · rintro ⟨_, hmiddle, heq⟩
      cases hmiddle
      exact heq

/-- A program in two parts fails exactly if one of the parts does. -/
theorem bind_eq_error {ε α β : Type} {first : Except ε α} {rest : α → Except ε β} {error : ε} :
    (first >>= rest) = .error error ↔
      first = .error error ∨ ∃ middle, first = .ok middle ∧ rest middle = .error error := by
  cases first with
  | error other =>
    constructor
    · intro heq
      cases heq
      exact .inl rfl
    · rintro (heq | ⟨_, heq, _⟩)
      · cases heq
        rfl
      · cases heq
  | ok middle =>
    constructor
    · exact fun heq => .inr ⟨middle, rfl, heq⟩
    · rintro (heq | ⟨_, hmiddle, heq⟩)
      · cases heq
      · cases hmiddle
        exact heq

/-- A node is allowed around a tree exactly if the tree is below the greatest depth. -/
theorem Limits.enclose_eq_ok {limits : Limits} {depth offset around : Nat} :
    limits.enclose depth offset = .ok around ↔ depth < limits.depth ∧ around = depth + 1 := by
  unfold enclose
  split
  next hdeep => exact ⟨nofun, fun ⟨hshallow, _⟩ => by omega⟩
  next hshallow =>
    rw [Except.ok.injEq]
    constructor
    · intro heq
      exact ⟨by omega, heq.symm⟩
    · intro heq
      exact heq.2.symm

/-- Several parts are joined exactly if a node around them is allowed. -/
theorem Part.join_cons_eq_ok {limits : Limits} {node : List Expr → Expr} {first second part : Part}
    {others : List Part} :
    Part.join limits node first (second :: others) = .ok part ↔
      maxDepth (first :: second :: others) < limits.depth ∧
        part = ⟨node ((first :: second :: others).map Part.expr),
          maxDepth (first :: second :: others) + 1, first.offset⟩ := by
  unfold join
  simp only [bind_eq_ok, Limits.enclose_eq_ok]
  constructor
  · rintro ⟨depth, ⟨hshallow, rfl⟩, heq⟩
    cases heq
    exact ⟨hshallow, rfl⟩
  · rintro ⟨hshallow, rfl⟩
    exact ⟨_, ⟨hshallow, rfl⟩, rfl⟩

namespace Level

variable {limits : Limits} {level : Level} {atStart : SyntaxError} {part : Part}

/-- A branch is finished exactly if it has operands that can be joined. -/
theorem branch_eq_ok :
    level.branch limits atStart = .ok part ↔
      ∃ first others, level.operands.reverse = first :: others ∧
        Part.join limits .concat first others = .ok part := by
  unfold branch
  cases level.operands.reverse with
  | nil => exact ⟨nofun, fun ⟨_, _, heq, _⟩ => nomatch heq⟩
  | cons first others =>
    constructor
    · exact fun heq => ⟨first, others, rfl, heq⟩
    · rintro ⟨_, _, heq, hjoin⟩
      cases heq
      exact hjoin

/-- A level is finished exactly if its last branch is and the branches can be joined. -/
theorem whole_eq_ok :
    level.whole limits atStart = .ok part ↔
      ∃ last, level.branch limits atStart = .ok last ∧
        (level.branches.reverse = [] ∧ part = last ∨
          ∃ first bar others, level.branches.reverse = (first, bar) :: others ∧
            Part.join limits .alternation first (others.map Prod.fst ++ [last]) = .ok part) := by
  unfold whole
  rw [bind_eq_ok]
  refine exists_congr fun last => and_congr_right fun _ => ?_
  cases level.branches.reverse with
  | nil =>
    constructor
    · intro heq
      cases heq
      exact .inl ⟨rfl, rfl⟩
    · rintro (⟨_, rfl⟩ | ⟨_, _, _, heq, _⟩)
      · rfl
      · cases heq
  | cons branch others =>
    obtain ⟨first, bar⟩ := branch
    constructor
    · exact fun heq => .inr ⟨first, bar, others, rfl, heq⟩
    · rintro (⟨heq, _⟩ | ⟨_, _, _, heq, hjoin⟩)
      · cases heq
      · cases heq
        exact hjoin

end Level

namespace Reader

variable {limits : Limits} {reader next : Reader} {offset : Nat}

/-- A bracket can be entered exactly if fewer brackets are open than the greatest depth. -/
theorem enter_eq_ok {opening : Opening} :
    reader.enter limits opening offset = .ok next ↔
      reader.frames.length < limits.depth ∧
        next = { reader with
          level := .empty, frames := ⟨opening, offset, reader.level⟩ :: reader.frames } := by
  unfold enter
  split
  next hdeep => exact ⟨nofun, fun ⟨hshallow, _⟩ => by omega⟩
  next hshallow =>
    rw [Except.ok.injEq]
    constructor
    · intro heq
      exact ⟨by omega, heq.symm⟩
    · intro heq
      exact heq.2.symm

/-- A capture group can be entered outside lookaheads while there are numbers left. -/
theorem enterCapture_eq_ok :
    reader.enterCapture limits offset = .ok next ↔
      reader.insideLookahead = false ∧ reader.opened < limits.groups ∧
        reader.frames.length < limits.depth ∧
        next = { reader with
          level := .empty, opened := reader.opened + 1,
          frames := ⟨.capture (reader.opened + 1), offset, reader.level⟩ :: reader.frames } := by
  unfold enterCapture
  split
  next hinside => exact ⟨nofun, fun ⟨houtside, _⟩ => by simp [houtside] at hinside⟩
  next houtside =>
    split
    next hmany => exact ⟨nofun, fun ⟨_, hfew, _⟩ => by omega⟩
    next hfew =>
      rw [enter_eq_ok]
      constructor
      · intro hnext
        exact ⟨eq_false_of_ne_true houtside, by omega, hnext⟩
      · intro hnext
        exact hnext.2.2

/-- A lookahead can be entered outside lookaheads. -/
theorem enterLookahead_eq_ok :
    reader.enterLookahead limits offset = .ok next ↔
      reader.insideLookahead = false ∧ reader.frames.length < limits.depth ∧
        next = { reader with
          level := .empty, frames := ⟨.lookahead, offset, reader.level⟩ :: reader.frames } := by
  unfold enterLookahead
  split
  next hinside => exact ⟨nofun, fun ⟨houtside, _⟩ => by simp [houtside] at hinside⟩
  next houtside =>
    rw [enter_eq_ok]
    constructor
    · intro hnext
      exact ⟨eq_false_of_ne_true houtside, hnext⟩
    · intro hnext
      exact hnext.2

/-- A letter token with its character is an operand. -/
theorem takeLetter_eq_ok {token : Token} :
    reader.takeLetter token = .ok next ↔
      ∃ c, token.payload = some c ∧ next = reader.push ⟨.char c, 1, token.offset⟩ := by
  unfold takeLetter
  cases token.payload with
  | none => exact ⟨nofun, fun ⟨_, heq, _⟩ => nomatch heq⟩
  | some c =>
    rw [Except.ok.injEq]
    constructor
    · intro heq
      exact ⟨c, rfl, heq.symm⟩
    · rintro ⟨_, heq, rfl⟩
      cases heq
      rfl

/-- A bar ends a branch that can be finished. -/
theorem takeBar_eq_ok :
    reader.takeBar limits offset = .ok next ↔
      ∃ branch, reader.level.branch limits (.missingOperand offset) = .ok branch ∧
        next = { reader with level := ⟨(branch, offset) :: reader.level.branches, []⟩ } := by
  unfold takeBar
  rw [bind_eq_ok]
  refine exists_congr fun branch => and_congr_right fun _ => ?_
  constructor
  · intro heq
    cases heq
    rfl
  · rintro rfl
    rfl

/-- A star repeats the latest operand if a node around it is allowed. -/
theorem takeStar_eq_ok :
    reader.takeStar limits offset = .ok next ↔
      ∃ part others, reader.level.operands = part :: others ∧ part.depth < limits.depth ∧
        next = { reader with level := { reader.level with
          operands := ⟨.star part.expr, part.depth + 1, part.offset⟩ :: others } } := by
  unfold takeStar
  cases reader.level.operands with
  | nil => exact ⟨nofun, fun ⟨_, _, heq, _⟩ => nomatch heq⟩
  | cons part others =>
    simp only [bind_eq_ok, Limits.enclose_eq_ok]
    constructor
    · rintro ⟨depth, ⟨hshallow, rfl⟩, heq⟩
      cases heq
      exact ⟨part, others, rfl, hshallow, rfl⟩
    · rintro ⟨_, _, heq, hshallow, rfl⟩
      cases heq
      exact ⟨_, ⟨hshallow, rfl⟩, rfl⟩

/-- A closing bracket ends a level that can be finished, if a bracket is open and a node around the
level is allowed. -/
theorem takeClose_eq_ok :
    reader.takeClose limits offset = .ok next ↔
      ∃ body frame outer,
        reader.level.whole limits (.unexpectedToken .atom .close offset) = .ok body ∧
        reader.frames = frame :: outer ∧ body.depth < limits.depth ∧
        next = { reader with
          level := frame.outer.push ⟨frame.opening.around body.expr, body.depth + 1, frame.offset⟩
          frames := outer
          captures := frame.opening.record body.expr reader.captures } := by
  unfold takeClose
  rw [bind_eq_ok]
  refine exists_congr fun body => ?_
  cases reader.frames with
  | nil => exact ⟨fun ⟨_, heq⟩ => (nomatch heq), fun ⟨_, _, _, heq, _⟩ => nomatch heq⟩
  | cons frame outer =>
    simp only [bind_eq_ok, Limits.enclose_eq_ok]
    constructor
    · rintro ⟨hbody, depth, ⟨hshallow, rfl⟩, heq⟩
      cases heq
      exact ⟨frame, outer, hbody, rfl, hshallow, rfl⟩
    · rintro ⟨_, _, hbody, heq, hshallow, rfl⟩
      cases heq
      exact ⟨hbody, _, ⟨hshallow, rfl⟩, rfl⟩

/-- A closing bracket ends a reference that names a group. -/
theorem endReference_eq_ok {reference token : Token} :
    reader.endReference reference token = .ok next ↔
      token.kind = .close ∧ ∃ id, groupNumber? reference = some id ∧
        next = { reader.push ⟨.reference id, 1, reference.offset⟩ with pending := none } := by
  unfold endReference
  split
  next hother => exact ⟨nofun, fun ⟨hclose, _⟩ => absurd hclose hother⟩
  next hclose =>
    have hkind : token.kind = .close := Decidable.of_not_not hclose
    cases groupNumber? reference with
    | none => exact ⟨nofun, fun ⟨_, _, heq, _⟩ => nomatch heq⟩
    | some id =>
      rw [Except.ok.injEq]
      constructor
      · intro heq
        exact ⟨hkind, id, rfl, heq.symm⟩
      · rintro ⟨_, _, heq, rfl⟩
        cases heq
        rfl

/-- The tokens may end where no bracket and no reference is open and the level can be finished. -/
theorem finish_eq_ok {pattern : Pattern} :
    reader.finish limits = .ok pattern ↔
      reader.pending = none ∧ reader.frames = [] ∧
        ∃ whole, reader.level.whole limits (.unexpectedEnd .atom) = .ok whole ∧
          pattern = ⟨whole.expr, reader.captures⟩ := by
  unfold finish
  cases reader.pending with
  | some reference => exact ⟨nofun, fun ⟨heq, _⟩ => nomatch heq⟩
  | none =>
    rw [bind_eq_ok]
    cases reader.frames with
    | nil =>
      constructor
      · rintro ⟨whole, hwhole, heq⟩
        cases heq
        exact ⟨rfl, rfl, whole, hwhole, rfl⟩
      · rintro ⟨_, _, whole, hwhole, rfl⟩
        exact ⟨whole, hwhole, rfl⟩
    | cons frame outer => exact ⟨fun ⟨_, _, heq⟩ => (nomatch heq), fun ⟨_, heq, _⟩ => nomatch heq⟩

end Reader

end PatternGrammar
