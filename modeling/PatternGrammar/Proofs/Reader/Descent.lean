import PatternGrammar.Proofs.Reader.Discipline
import PatternGrammar.Proofs.Reader.Written

/-!
# The two readings of a pattern

A reading by descent and a reader that takes one token at a time come to the same end on all tokens.
The reader is compared with a call of the descent at the place where the call begins, whatever
brackets are open there: a call that gives an expression brings the reader to the place where the
call ends, with the expression in its level, and a call that fails shows the error that the reader
ends with.
-/

namespace PatternGrammar

/-- The greatest depth after one more part. -/
theorem Part.maxDepth_append_singleton (parts : List Part) (last : Part) :
    maxDepth (parts ++ [last]) = max (maxDepth parts) last.depth := by
  induction parts with
  | nil => exact Nat.max_comm _ _
  | cons part rest ih => rw [List.cons_append, maxDepth, maxDepth, ih, Nat.max_assoc]

/-- A level is finished by joining its branches, the last one included. -/
theorem Level.whole_eq_join {limits : Limits} {level : Level} {atStart : SyntaxError}
    {last first : Part} {others : List Part} (hlast : level.branch limits atStart = .ok last)
    (hparts : level.branches.reverse.map Prod.fst ++ [last] = first :: others) :
    level.whole limits atStart = Part.join limits .alternation first others := by
  unfold whole
  rw [hlast]
  cases hbranches : level.branches.reverse with
  | nil =>
    rw [hbranches] at hparts
    cases hparts
    rfl
  | cons branch rest =>
    rw [hbranches] at hparts
    cases hparts
    rfl

/-- What a reader makes of the tokens before it. -/
def Reader.resume (limits : Limits) (reader : Reader) (tokens : List Token) :
    Except SyntaxError Pattern := do
  let last ← tokens.foldlM (step limits) reader
  last.finish limits

section Resume

variable {limits : Limits} {tokens : List Token} {position : Nat}

/-- A reader takes the next token and goes on. -/
theorem Reader.resume_of_token (reader : Reader) {token : Token}
    (htoken : tokens[position]? = some token) :
    reader.resume limits (tokens.drop position) =
      (reader.step limits token >>= fun next =>
        next.resume limits (tokens.drop (position + 1))) := by
  obtain ⟨hlength, rfl⟩ := List.getElem?_eq_some_iff.mp htoken
  unfold resume
  rw [List.drop_eq_getElem_cons hlength, List.foldlM_cons, bind_assoc]

/-- A reader is at the end of the tokens. -/
theorem Reader.resume_of_end (reader : Reader) (hend : tokens[position]? = none) :
    reader.resume limits (tokens.drop position) = reader.finish limits := by
  rw [List.drop_eq_nil_of_le (List.getElem?_eq_none_iff.mp hend)]
  rfl

end Resume

namespace Descent

open Procedure

/-- The reader that has read as much, with the given brackets around it and the given level. -/
def reader (state : Descent) (frames : List Frame) (level : Level) : Reader :=
  ⟨level, frames, state.opened, state.captures, none⟩

/-- What such a reader makes of the tokens that are left. -/
def outcome (limits : Limits) (tokens : List Token) (frames : List Frame) (level : Level)
    (state : Descent) : Except SyntaxError Pattern :=
  (state.reader frames level).resume limits (tokens.drop state.position)

/-- The state knows of the brackets around it what it has to. -/
structure Under (frames : List Frame) (state : Descent) : Prop where
  /-- Their number. -/
  length_eq : frames.length = state.openBrackets
  /-- Whether one is a lookahead. -/
  inLookahead_eq : Frame.inLookahead frames = state.insideLookahead

/-- A level in which an operand is called for before the given token. -/
structure Awaits (level : Level) (next : Option Token) : Prop where
  /-- Branches do not begin with a bar. -/
  not_bar : ∀ token, next = some token → token.kind ≠ .bar
  /-- An end is met at the start of a level only. -/
  of_end : endsBranch next = true → level = .empty
  /-- A star is met at the start of a branch only. -/
  of_star : ∀ token, next = some token → token.kind = .star → level.operands = []

/-- The offset of the next token, zero at the end. -/
def offset (tokens : List Token) (state : Descent) : Nat :=
  tokens[state.position]?.elim 0 Token.offset

variable {limits : Limits} {tokens : List Token} {frames : List Frame} {level : Level}
  {state before after : Descent} {token : Token} {error : SyntaxError}

/-- What is around a call is around it at its end. -/
theorem Under.kept (hunder : Under frames before) (hkeeps : Keeps limits tokens before after) :
    Under frames after :=
  ⟨hunder.length_eq.trans hkeeps.openBrackets_eq.symm,
    hunder.inLookahead_eq.trans hkeeps.insideLookahead_eq.symm⟩

/-- The reader refuses the next token. -/
theorem outcome_of_step_error (htoken : tokens[state.position]? = some token)
    (hstep : (state.reader frames level).step limits token = .error error) :
    outcome limits tokens frames level state = .error error := by
  unfold outcome
  rw [Reader.resume_of_token _ htoken, hstep]
  rfl

/-- A level ends at a closing bracket or where the tokens end. -/
theorem close_of_ends (hends : endsBranch tokens[state.position]? = true)
    (hbar : tokens[state.position]?.filter (·.kind == .bar) = none)
    (htoken : tokens[state.position]? = some token) : token.kind = .close := by
  rw [htoken] at hends hbar
  simp only [endsBranch, Bool.or_eq_true, beq_iff_eq] at hends
  simp only [Option.filter_eq_none_iff, Option.some.injEq, beq_iff_eq] at hbar
  exact hends.resolve_right (hbar token rfl)

/-- A level that cannot be finished where it ends is refused. -/
theorem outcome_of_whole_error
    (hclose : ∀ token, tokens[state.position]? = some token → token.kind = .close)
    (hwhole : ∀ atStart, level.whole limits atStart = .error error) :
    outcome limits tokens frames level state = .error error := by
  cases htoken : tokens[state.position]? with
  | none =>
    unfold outcome
    rw [Reader.resume_of_end _ htoken]
    exact bind_eq_error.mpr (.inl (hwhole _))
  | some token =>
    refine outcome_of_step_error htoken ?_
    simp only [Reader.step, reader, hclose token htoken]
    exact bind_eq_error.mpr (.inl (hwhole _))

/-- A branch that cannot be finished where it ends is refused. -/
theorem outcome_of_branch_error (hends : endsBranch tokens[state.position]? = true)
    (hbranch : ∀ atStart, level.branch limits atStart = .error error) :
    outcome limits tokens frames level state = .error error := by
  cases hbar : tokens[state.position]?.filter (·.kind == .bar) with
  | none =>
    refine outcome_of_whole_error (fun token htoken => close_of_ends hends hbar htoken)
      fun atStart => ?_
    exact bind_eq_error.mpr (.inl (hbranch atStart))
  | some bar =>
    obtain ⟨htoken, hkind⟩ := Option.filter_eq_some_iff.mp hbar
    refine outcome_of_step_error htoken ?_
    simp only [Reader.step, reader, eq_of_beq hkind]
    exact bind_eq_error.mpr (.inl (hbranch _))

/-- Parts are gathered as a reader joins them. -/
theorem meets_gather (node : List Expr → Expr) (first : Part) (others : List Part)
    (state : Descent) :
    Meets
      (fun sub after => after = state ∧
        Part.join limits node first others = .ok ⟨sub.1, sub.2, first.offset⟩)
      (fun error _ => Part.join limits node first others = .error error)
      (gather limits node first.offset ((first :: others).map Part.expr)
        (Part.maxDepth (first :: others)) state) := by
  cases others with
  | nil =>
    have hdepth : Part.maxDepth [first] = first.depth := Nat.max_zero _
    rw [hdepth]
    exact .done ⟨rfl, rfl⟩
  | cons second rest =>
    refine (meets_enclose state _ first.offset).bind ?_ ?_
    · rintro error _ ⟨-, hdeep⟩
      exact bind_eq_error.mpr (.inl hdeep)
    · rintro around _ ⟨rfl, -, haround⟩
      exact .done ⟨rfl, bind_eq_ok.mpr ⟨around, haround, rfl⟩⟩

/-- An operand has been read: a reader goes on where the call ends, with the operand in its
level. -/
def Pushes (limits : Limits) (tokens : List Token) (frames : List Frame) (level : Level)
    (before : Descent) (sub : Expr × Nat) (after : Descent) : Prop :=
  outcome limits tokens frames level before =
    outcome limits tokens frames (level.push ⟨sub.1, sub.2, before.offset tokens⟩) after

/-- A branch has been read: a reader goes on where the call ends, with a level in which the branch
can be finished. -/
def Rows (limits : Limits) (tokens : List Token) (frames : List Frame) (level : Level)
    (before : Descent) (offset : Nat) (sub : Expr × Nat) (after : Descent) : Prop :=
  endsBranch tokens[after.position]? = true ∧
    ∃ last : Level, last.branches = level.branches ∧
      (∀ atStart, last.branch limits atStart = .ok ⟨sub.1, sub.2, offset⟩) ∧
      outcome limits tokens frames level before = outcome limits tokens frames last after

/-- A level has been read: a reader goes on where the call ends, with a level that can be
finished. -/
def Levels (limits : Limits) (tokens : List Token) (frames : List Frame) (level : Level)
    (before : Descent) (offset : Nat) (sub : Expr × Nat) (after : Descent) : Prop :=
  (∀ token, tokens[after.position]? = some token → token.kind = .close) ∧
    ∃ last : Level, (∀ atStart, last.whole limits atStart = .ok ⟨sub.1, sub.2, offset⟩) ∧
      outcome limits tokens frames level before = outcome limits tokens frames last after

/-- A call fails as a reader does. -/
def Refused (limits : Limits) (tokens : List Token) (frames : List Frame) (level : Level)
    (before : Descent) (error : SyntaxError) (_ : Descent) : Prop :=
  outcome limits tokens frames level before = .error error

/-- Stars are taken as long as there are any. -/
theorem agrees_stars {rounds : Nat} (hrounds : tokens.length - state.position < rounds)
    (expr : Expr) (depth offset : Nat) :
    Meets
      (fun sub after => tokens[after.position]?.filter (·.kind == .star) = none ∧
        outcome limits tokens frames (level.push ⟨expr, depth, offset⟩) state =
          outcome limits tokens frames (level.push ⟨sub.1, sub.2, offset⟩) after)
      (Refused limits tokens frames (level.push ⟨expr, depth, offset⟩) state)
      (stars limits tokens rounds expr depth state) := by
  induction rounds generalizing state expr depth with
  | zero => exact absurd hrounds (Nat.not_lt_zero _)
  | succ rounds ih =>
    rw [stars, current_bind]
    cases hstar : tokens[state.position]?.filter (·.kind == .star) with
    | none => exact .done ⟨hstar, rfl⟩
    | some star =>
      obtain ⟨htoken, hkind⟩ := Option.filter_eq_some_iff.mp hstar
      have hlength := (List.getElem?_eq_some_iff.mp htoken).1
      have hstep : (state.reader frames (level.push ⟨expr, depth, offset⟩)).step limits star =
          (limits.enclose depth star.offset >>= fun around =>
            .ok (state.reader frames (level.push ⟨.star expr, around, offset⟩))) := by
        simp only [Reader.step, reader, eq_of_beq hkind]
        rfl
      dsimp only
      rw [advance_bind]
      refine (meets_enclose _ depth star.offset).bind ?_ ?_
      · rintro error _ ⟨-, hdeep⟩
        refine outcome_of_step_error htoken ?_
        rw [hstep, hdeep]
        rfl
      · rintro around _ ⟨rfl, -, haround⟩
        have htaken : outcome limits tokens frames (level.push ⟨expr, depth, offset⟩) state =
            outcome limits tokens frames (level.push ⟨.star expr, around, offset⟩)
              { state with position := state.position + 1 } := by
          unfold outcome
          rw [Reader.resume_of_token _ htoken, hstep, haround]
          rfl
        unfold Refused
        rw [htaken]
        exact ih (by dsimp only; omega) (.star expr) around

/-- A letter is taken as an operand. -/
theorem agrees_letter (htoken : tokens[state.position]? = some token)
    (hkind : token.kind = .letter) :
    Meets (Pushes limits tokens frames level state) (Refused limits tokens frames level state)
      (letter token state) := by
  have hstep : (state.reader frames level).step limits token =
      (state.reader frames level).takeLetter token := by
    simp only [Reader.step, reader, hkind]
  have hoffset : state.offset tokens = token.offset := by rw [offset, htoken, Option.elim_some]
  unfold letter
  rw [advance_bind]
  cases hpayload : token.payload with
  | none =>
    refine .failed (outcome_of_step_error htoken ?_)
    rw [hstep, Reader.takeLetter, hpayload]
  | some c =>
    refine .done ?_
    unfold Pushes outcome
    rw [Reader.resume_of_token _ htoken, hstep, Reader.takeLetter, hpayload, hoffset]
    rfl

/-- A reference is taken as an operand with its end. -/
theorem agrees_reference (htoken : tokens[state.position]? = some token)
    (hkind : token.kind = .openReference) :
    Meets (Pushes limits tokens frames level state) (Refused limits tokens frames level state)
      (reference tokens token state) := by
  have hwaits : outcome limits tokens frames level state =
      ({ state.reader frames level with pending := some token } : Reader).resume limits
        (tokens.drop (state.position + 1)) := by
    unfold outcome
    rw [Reader.resume_of_token _ htoken]
    simp only [Reader.step, reader, hkind]
    rfl
  have hoffset : state.offset tokens = token.offset := by rw [offset, htoken, Option.elim_some]
  unfold reference Refused Pushes
  rw [advance_bind, hwaits, hoffset]
  refine (meets_takeClosing _).bind ?_ ?_
  · rintro _ _ ⟨-, ⟨hend, rfl⟩ | ⟨other, hother, hnot, rfl⟩⟩
    · rw [Reader.resume_of_end _ hend]
      rfl
    · rw [Reader.resume_of_token _ hother]
      refine bind_eq_error.mpr (.inl ?_)
      simp only [Reader.step, Reader.endReference, if_pos hnot]
  · rintro _ _ ⟨rfl, closing, hclosing, hclose⟩
    have hnot : ¬closing.kind ≠ .close := not_not_intro hclose
    rw [Reader.resume_of_token _ hclosing]
    simp only [Reader.step, Reader.endReference, if_neg hnot]
    cases Reader.groupNumber? token with
    | none => exact .failed rfl
    | some id => exact .done rfl

/-- What a reader makes of the tokens after an opening bracket that has been taken. -/
def entering (limits : Limits) (tokens : List Token) (frames : List Frame) (level : Level)
    (opening : Opening) (offset : Nat) (state : Descent) : Except SyntaxError Pattern :=
  (state.reader frames level).enter limits opening offset >>= fun next =>
    next.resume limits (tokens.drop state.position)

/-- A node around what has been read is allowed or refused by both. -/
theorem agrees_enclosed {node : Expr → Expr} {inner : Expr} {depth : Nat}
    (hread : outcome limits tokens frames level before =
      (limits.enclose depth (before.offset tokens) >>= fun around =>
        outcome limits tokens frames
          (level.push ⟨node inner, around, before.offset tokens⟩) after)) :
    Meets (Pushes limits tokens frames level before) (Refused limits tokens frames level before)
      ((do return (node inner, ← enclose limits depth (before.offset tokens)) :
        DescentM (Expr × Nat)) after) := by
  refine (meets_enclose after depth (before.offset tokens)).bind ?_ ?_
  · rintro _ _ ⟨-, hdeep⟩
    unfold Refused
    rw [hread, hdeep]
    rfl
  · rintro around _ ⟨rfl, -, haround⟩
    refine .done ?_
    unfold Pushes
    rw [hread, haround]
    rfl

section Brackets

variable {inner : DescentM (Expr × Nat)} {brackets : Nat}
  (hagrees : ∀ frames state, Sound limits tokens state → Under frames state →
    state.openBrackets = brackets + 1 →
      Meets (Levels limits tokens frames .empty state (state.offset tokens))
        (Refused limits tokens frames .empty state) (inner state))
include hagrees

/-- What stands in a bracket is read as a level. -/
theorem agrees_inside (hsound : state.Sound limits tokens)
    (hbrackets : state.openBrackets = brackets)
    (hunder : Under frames { state with openBrackets := state.openBrackets + 1 })
    (hfew : state.openBrackets < limits.depth) :
    Meets
      (Levels limits tokens frames .empty { state with openBrackets := state.openBrackets + 1 }
        (state.offset tokens))
      (Refused limits tokens frames .empty { state with openBrackets := state.openBrackets + 1 })
      (inside inner state) := by
  have hentered : Sound limits tokens { state with openBrackets := state.openBrackets + 1 } :=
    { hsound with openBrackets_le := hfew }
  exact Meets.around (hagrees frames _ hentered hunder (congrArg (· + 1) hbrackets))

/-- The body of a bracket is read with its end. -/
theorem agrees_body (level : Level) (opening : Opening) (offset : Nat)
    (hsound : state.Sound limits tokens)
    (hbrackets : state.openBrackets = brackets) (hlength : frames.length = state.openBrackets)
    (hahead : Frame.inLookahead (⟨opening, offset, level⟩ :: frames) = state.insideLookahead) :
    Meets
      (fun sub after => entering limits tokens frames level opening offset state =
        (limits.enclose sub.2 offset >>= fun around =>
          outcome limits tokens frames (level.push ⟨opening.around sub.1, around, offset⟩)
            { after with captures := opening.record sub.1 after.captures }))
      (fun error _ => entering limits tokens frames level opening offset state = .error error)
      (body limits tokens inner offset state) := by
  rw [body, get_bind]
  by_cases hfew : limits.depth ≤ state.openBrackets
  · rw [if_pos hfew]
    refine .failed ?_
    unfold entering Reader.enter reader
    dsimp only
    rw [hlength, if_pos hfew]
    rfl
  · rw [if_neg hfew]
    have hentering : entering limits tokens frames level opening offset state =
        outcome limits tokens (⟨opening, offset, level⟩ :: frames) .empty
          { state with openBrackets := state.openBrackets + 1 } := by
      unfold entering Reader.enter reader
      dsimp only
      rw [hlength, if_neg hfew]
      rfl
    rw [hentering]
    have hunder : Under (⟨opening, offset, level⟩ :: frames)
        { state with openBrackets := state.openBrackets + 1 } :=
      ⟨congrArg (· + 1) hlength, hahead⟩
    refine (agrees_inside hagrees hsound hbrackets hunder (Nat.not_le.mp hfew)).bind
      (fun _ _ hrefused => hrefused) ?_
    rintro sub between ⟨hclose, last, hwhole, hreached⟩
    rw [hreached]
    refine (meets_takeClosing between).bind ?_ ?_
    · -- The level was finished, so a token that is left here can only be the closing one.
      rintro _ _ ⟨-, ⟨hend, rfl⟩ | ⟨other, hother, hnot, -⟩⟩
      · unfold outcome
        rw [Reader.resume_of_end _ hend]
        exact bind_eq_error.mpr (.inr ⟨_, hwhole _, rfl⟩)
      · exact absurd (hclose other hother) hnot
    · rintro _ _ ⟨rfl, token, htoken, hkind⟩
      refine .done ?_
      unfold outcome
      rw [Reader.resume_of_token _ htoken]
      simp only [Reader.step, reader, hkind, Reader.takeClose, hwhole]
      exact bind_assoc (limits.enclose sub.2 offset) _ _

/-- The body of a lookahead is read with its end. -/
theorem agrees_ahead (level : Level) (offset : Nat) (hsound : state.Sound limits tokens)
    (hbrackets : state.openBrackets = brackets) (hlength : frames.length = state.openBrackets) :
    Meets
      (fun sub after =>
        entering limits tokens frames level .lookahead offset
          { state with insideLookahead := true } =
          (limits.enclose sub.2 offset >>= fun around =>
            outcome limits tokens frames (level.push ⟨.lookahead sub.1, around, offset⟩) after))
      (fun error _ =>
        entering limits tokens frames level .lookahead offset
          { state with insideLookahead := true } = .error error)
      (ahead limits tokens inner offset state) := by
  have hentered : Sound limits tokens { state with insideLookahead := true } := { hsound with }
  exact Meets.around (agrees_body hagrees level .lookahead offset hentered hbrackets hlength rfl)

/-- A capture group is read as an operand. -/
theorem agrees_capture (hsound : state.Sound limits tokens)
    (hbrackets : state.openBrackets = brackets)
    (hunder : Under frames state) (htoken : tokens[state.position]? = some token)
    (hkind : token.kind = .openCapture) :
    Meets (Pushes limits tokens frames level state) (Refused limits tokens frames level state)
      (capture limits tokens inner (state.offset tokens) state) := by
  have hstep : (state.reader frames level).step limits token =
      (state.reader frames level).enterCapture limits (state.offset tokens) := by
    simp only [Reader.step, reader, hkind, offset, htoken, Option.elim_some]
  have hinside : (state.reader frames level).insideLookahead = state.insideLookahead :=
    hunder.inLookahead_eq
  rw [capture]
  refine (meets_openCapture state hsound htoken (state.offset tokens)).bind ?_ ?_
  · rintro _ _ ⟨-, ⟨hahead, rfl⟩ | ⟨houtside, hmany, rfl⟩⟩
    · refine outcome_of_step_error htoken ?_
      rw [hstep, Reader.enterCapture, hinside, if_pos hahead]
    · refine outcome_of_step_error htoken ?_
      rw [hstep, Reader.enterCapture, hinside, houtside]
      exact if_pos (Nat.le_of_eq hmany.symm)
  rintro _ _ ⟨rfl, rfl, hopened, houtside, hfew⟩
  have hfree : ¬limits.groups ≤ (state.reader frames level).opened := Nat.not_le.mpr hfew
  have hentering : outcome limits tokens frames level state =
      entering limits tokens frames level (.capture (state.opened + 1)) (state.offset tokens)
        { state with position := state.position + 1, opened := state.opened + 1 } := by
    unfold outcome
    rw [Reader.resume_of_token _ htoken, hstep, Reader.enterCapture, hinside, houtside]
    rw [if_neg Bool.false_ne_true, if_neg hfree]
    rfl
  unfold Refused
  rw [hentering]
  refine (agrees_body hagrees level (.capture (state.opened + 1)) _ hopened hbrackets
    hunder.length_eq hunder.inLookahead_eq).bind (fun _ _ hrefused => hrefused) ?_
  rintro ⟨inner, depth⟩ after hread
  refine (meets_enclose after depth (state.offset tokens)).bind ?_ ?_
  · rintro _ _ ⟨-, hdeep⟩
    rw [hread, hdeep]
    rfl
  · rintro around _ ⟨rfl, -, haround⟩
    refine .done ?_
    unfold Pushes
    rw [hentering, hread, haround]
    rfl

/-- A bracket that captures nothing is read as an operand. -/
theorem agrees_plain (hsound : state.Sound limits tokens)
    (hbrackets : state.openBrackets = brackets)
    (hunder : Under frames state) (htoken : tokens[state.position]? = some token)
    (hkind : token.kind = .openPlain) :
    Meets (Pushes limits tokens frames level state) (Refused limits tokens frames level state)
      (plain limits tokens inner (state.offset tokens) state) := by
  have hadvanced := (hsound.passes_token htoken (by simp [hkind])).sound
  have hentering : outcome limits tokens frames level state =
      entering limits tokens frames level .plain (state.offset tokens)
        { state with position := state.position + 1 } := by
    unfold outcome
    rw [Reader.resume_of_token _ htoken]
    simp only [Reader.step, reader, hkind, offset, htoken, Option.elim_some]
    rfl
  rw [plain, advance_bind]
  refine (agrees_body hagrees level .plain _ hadvanced hbrackets hunder.length_eq
    hunder.inLookahead_eq).bind ?_ ?_
  · exact fun _ _ hrefused => hentering.trans hrefused
  · exact fun _ _ hread => agrees_enclosed (hentering.trans hread)

/-- A lookahead is read as an operand. -/
theorem agrees_lookahead (hsound : state.Sound limits tokens)
    (hbrackets : state.openBrackets = brackets)
    (hunder : Under frames state) (htoken : tokens[state.position]? = some token)
    (hkind : token.kind = .openLookahead) :
    Meets (Pushes limits tokens frames level state) (Refused limits tokens frames level state)
      (lookahead limits tokens inner (state.offset tokens) state) := by
  have hadvanced := (hsound.passes_token htoken (by simp [hkind])).sound
  have hstep : (state.reader frames level).step limits token =
      (state.reader frames level).enterLookahead limits (state.offset tokens) := by
    simp only [Reader.step, reader, hkind, offset, htoken, Option.elim_some]
  have hinside : (state.reader frames level).insideLookahead = state.insideLookahead :=
    hunder.inLookahead_eq
  rw [lookahead]
  refine (meets_openLookahead state (state.offset tokens)).bind ?_ ?_
  · rintro _ _ ⟨-, hahead, rfl⟩
    refine outcome_of_step_error htoken ?_
    rw [hstep, Reader.enterLookahead, hinside, if_pos hahead]
  rintro _ _ ⟨rfl, houtside⟩
  have hentering : outcome limits tokens frames level state =
      entering limits tokens frames level .lookahead (state.offset tokens)
        { state with position := state.position + 1, insideLookahead := true } := by
    unfold outcome
    rw [Reader.resume_of_token _ htoken, hstep, Reader.enterLookahead, hinside, houtside]
    rw [if_neg Bool.false_ne_true]
    rfl
  refine (agrees_ahead hagrees level _ hadvanced hbrackets hunder.length_eq).bind ?_ ?_
  · exact fun _ _ hrefused => hentering.trans hrefused
  · exact fun _ _ hread => agrees_enclosed (hentering.trans hread)

/-- An atom is read as an operand where one is called for. -/
theorem agrees_atom (hsound : state.Sound limits tokens) (hbrackets : state.openBrackets = brackets)
    (hunder : Under frames state) (hawaits : Awaits level tokens[state.position]?) :
    Meets (Pushes limits tokens frames level state) (Refused limits tokens frames level state)
      (atom limits tokens inner state) := by
  rw [atom, current_bind]
  cases htoken : tokens[state.position]? with
  | none =>
    cases hawaits.of_end (by rw [htoken]; rfl)
    refine .failed ?_
    unfold Refused outcome
    rw [Reader.resume_of_end _ htoken]
    rfl
  | some token =>
    have hoffset : token.offset = state.offset tokens := by rw [offset, htoken, Option.elim_some]
    dsimp only
    cases hkind : token.kind with
    | openCapture =>
      rw [hoffset]
      exact agrees_capture hagrees hsound hbrackets hunder htoken hkind
    | openPlain =>
      rw [hoffset]
      exact agrees_plain hagrees hsound hbrackets hunder htoken hkind
    | openLookahead =>
      rw [hoffset]
      exact agrees_lookahead hagrees hsound hbrackets hunder htoken hkind
    | openReference => exact agrees_reference htoken hkind
    | letter => exact agrees_letter htoken hkind
    | bar => exact absurd hkind (hawaits.not_bar token htoken)
    | star =>
      refine .failed (outcome_of_step_error htoken ?_)
      simp only [Reader.step, reader, hkind, Reader.takeStar, hawaits.of_star token htoken hkind]
    | close =>
      cases hawaits.of_end (by simp [htoken, endsBranch, hkind])
      refine .failed (outcome_of_step_error htoken ?_)
      simp only [Reader.step, reader, hkind]
      rfl

/-- An operand is read with its stars. -/
theorem agrees_repetition (hsound : state.Sound limits tokens)
    (hbrackets : state.openBrackets = brackets)
    (hunder : Under frames state) (hawaits : Awaits level tokens[state.position]?) :
    Meets
      (fun sub after => tokens[after.position]?.filter (·.kind == .star) = none ∧
        Pushes limits tokens frames level state sub after)
      (Refused limits tokens frames level state) (repetition limits tokens inner state) := by
  rw [repetition]
  refine (agrees_atom hagrees hsound hbrackets hunder hawaits).bind
    (fun _ _ hrefused => hrefused) ?_
  intro sub between hpushes
  unfold Refused Pushes
  rw [hpushes]
  exact agrees_stars (by omega) sub.1 sub.2 (state.offset tokens)

section Loops

variable (hdisciplined : ∀ state, Sound limits tokens state → state.openBrackets = brackets + 1 →
  Disciplined limits tokens state (inner state))
include hdisciplined

/-- The operands of a branch are read up to its end. -/
theorem agrees_operands (branches : List (Part × Nat)) (first : Part) (others : List Part)
    (hsound : state.Sound limits tokens) (hbrackets : state.openBrackets = brackets)
    (hunder : Under frames state)
    (hstar : tokens[state.position]?.filter (·.kind == .star) = none) {rounds : Nat}
    (hrounds : tokens.length - state.position < rounds) :
    Meets (Rows limits tokens frames ⟨branches, (first :: others).reverse⟩ state first.offset)
      (Refused limits tokens frames ⟨branches, (first :: others).reverse⟩ state)
      (operands limits tokens inner first.offset rounds ((first :: others).map Part.expr)
        (Part.maxDepth (first :: others)) state) := by
  -- Each operand takes a token, so that the rounds last as long as the tokens; the level of the
  -- reader has the operands that the call holds, the last one first.
  induction rounds generalizing state others with
  | zero => exact absurd hrounds (Nat.not_lt_zero _)
  | succ rounds ih =>
    have hbranch : ∀ atStart, Level.branch limits ⟨branches, (first :: others).reverse⟩ atStart =
        Part.join limits .concat first others := by
      intro atStart
      unfold Level.branch
      rw [List.reverse_reverse]
    rw [operands, current_bind]
    by_cases hends : endsBranch tokens[state.position]? = true
    · rw [if_pos hends]
      refine (meets_gather .concat first others state).imp ?_ ?_
      · rintro sub _ ⟨rfl, hjoin⟩
        exact ⟨hends, _, rfl, fun atStart => (hbranch atStart).trans hjoin, rfl⟩
      · intro error _ hjoin
        exact outcome_of_branch_error hends fun atStart => (hbranch atStart).trans hjoin
    · rw [if_neg hends]
      have hawaits : Awaits ⟨branches, (first :: others).reverse⟩ tokens[state.position]? := by
        refine ⟨fun token htoken hbar => ?_, fun hend => absurd hend hends,
          fun token htoken hkind => ?_⟩
        · exact hends (by simp [htoken, endsBranch, hbar])
        · simp [htoken, hkind] at hstar
      have hoperand := (disciplined_repetition hdisciplined hsound hbrackets).and
        (agrees_repetition hagrees hsound hbrackets hunder hawaits)
      refine hoperand.bind (fun _ _ hrefused => hrefused.2) ?_
      rintro ⟨expr, depth⟩ between ⟨⟨hforward, hreads⟩, hstar, hpushes⟩
      have hbetween := hreads.sound.position_le
      have hpushed :
          (⟨branches, (first :: others).reverse⟩ : Level).push ⟨expr, depth, state.offset tokens⟩ =
            ⟨branches, (first :: (others ++ [⟨expr, depth, state.offset tokens⟩])).reverse⟩ := by
        simp [Level.push]
      have hrest := ih (others ++ [⟨expr, depth, state.offset tokens⟩]) hreads.sound
        (hreads.openBrackets_eq.trans hbrackets) (hunder.kept hreads.toKeeps) hstar (by omega)
      unfold Pushes at hpushes
      rw [hpushed] at hpushes
      rw [← List.cons_append, List.map_append, Part.maxDepth_append_singleton] at hrest
      unfold Refused Rows
      rw [hpushes]
      exact hrest

/-- The operands of a branch are read from its start to its end. -/
theorem agrees_concatenation {branches : List (Part × Nat)} (hsound : state.Sound limits tokens)
    (hbrackets : state.openBrackets = brackets) (hunder : Under frames state)
    (hawaits : Awaits ⟨branches, []⟩ tokens[state.position]?) :
    Meets (Rows limits tokens frames ⟨branches, []⟩ state (state.offset tokens))
      (Refused limits tokens frames ⟨branches, []⟩ state)
        (concatenation limits tokens inner state) := by
  rw [concatenation, current_bind]
  have hoperand := (disciplined_repetition hdisciplined hsound hbrackets).and
    (agrees_repetition hagrees hsound hbrackets hunder hawaits)
  refine hoperand.bind (fun _ _ hrefused => hrefused.2) ?_
  rintro ⟨expr, depth⟩ between ⟨⟨hforward, hreads⟩, hstar, hpushes⟩
  have hdepth : Part.maxDepth [⟨expr, depth, state.offset tokens⟩] = depth := Nat.max_zero _
  have hrest :=
    agrees_operands hagrees hdisciplined branches ⟨expr, depth, state.offset tokens⟩ [] hreads.sound
      (hreads.openBrackets_eq.trans hbrackets) (hunder.kept hreads.toKeeps) hstar
      (show _ < tokens.length + 1 by omega)
  rw [hdepth] at hrest
  unfold Refused Rows
  rw [hpushes]
  exact hrest

/-- The branches of a level are read up to its end. -/
theorem agrees_branches {last first : Part} {others : List Part}
    (hsound : state.Sound limits tokens)
    (hbrackets : state.openBrackets = brackets) (hunder : Under frames state)
    (hends : endsBranch tokens[state.position]? = true)
    (hlast : ∀ atStart, level.branch limits atStart = .ok last)
    (hparts : level.branches.reverse.map Prod.fst ++ [last] = first :: others) {rounds : Nat}
    (hrounds : tokens.length - state.position < rounds) :
    Meets (Levels limits tokens frames level state first.offset)
      (Refused limits tokens frames level state)
      (branches limits tokens inner first.offset rounds ((first :: others).map Part.expr)
        (Part.maxDepth (first :: others)) state) := by
  induction rounds generalizing state level last others with
  | zero => exact absurd hrounds (Nat.not_lt_zero _)
  | succ rounds ih =>
    have hwhole : ∀ atStart, level.whole limits atStart =
        Part.join limits .alternation first others :=
      fun atStart => Level.whole_eq_join (hlast atStart) hparts
    rw [branches, current_bind]
    cases hbar : tokens[state.position]?.filter (·.kind == .bar) with
    | none =>
      have hclose : ∀ token, tokens[state.position]? = some token → token.kind = .close :=
        fun _ htoken => close_of_ends hends hbar htoken
      refine (meets_gather .alternation first others state).imp ?_ ?_
      · rintro sub _ ⟨rfl, hjoin⟩
        exact ⟨hclose, _, fun atStart => (hwhole atStart).trans hjoin, rfl⟩
      · intro error _ hjoin
        exact outcome_of_whole_error hclose fun atStart => (hwhole atStart).trans hjoin
    | some bar =>
      obtain ⟨htoken, hkind⟩ := Option.filter_eq_some_iff.mp hbar
      have hpasses := hsound.passes_token htoken (by simp [eq_of_beq hkind])
      have htaken : outcome limits tokens frames level state =
          outcome limits tokens frames ⟨(last, bar.offset) :: level.branches, []⟩
            { state with position := state.position + 1 } := by
        unfold outcome
        rw [Reader.resume_of_token _ htoken]
        simp only [Reader.step, reader, eq_of_beq hkind, Reader.takeBar, hlast]
        rfl
      dsimp only
      rw [advance_bind, current_bind]
      unfold Refused Levels
      rw [htaken]
      split
      next hempty =>
        refine .failed (outcome_of_branch_error hempty ?_)
        exact fun _ => rfl
      next hmore =>
        have hawaits :
            Awaits ⟨(last, bar.offset) :: level.branches, []⟩ tokens[state.position + 1]? := by
          refine ⟨fun token htoken hbar => ?_, fun hend => absurd hend hmore, fun _ _ _ => rfl⟩
          exact hmore (by simp [htoken, endsBranch, hbar])
        have hbranch := (disciplined_concatenation hdisciplined hpasses.sound hbrackets).and
          (agrees_concatenation hagrees hdisciplined hpasses.sound hbrackets
            (hunder.kept hpasses.toKeeps) hawaits)
        refine hbranch.bind (fun _ _ hrefused => hrefused.2) ?_
        rintro ⟨expr, depth⟩ between ⟨⟨hforward, hreads⟩, hends, next, hbranches, hnext, hreached⟩
        have hbetween := hreads.sound.position_le
        have hkept := hpasses.toKeeps.trans hreads.toKeeps
        have hlonger : ∀ part : Part, next.branches.reverse.map Prod.fst ++ [part] =
            first :: (others ++ [part]) := by
          intro part
          rw [hbranches, List.reverse_cons, List.map_append, ← List.cons_append, ← hparts]
          rfl
        have hrest :=
          ih hreads.sound (hkept.openBrackets_eq.trans hbrackets) (hunder.kept hkept) hends hnext
            (hlonger _) (by dsimp only at hforward; omega)
        rw [← List.cons_append, List.map_append, Part.maxDepth_append_singleton] at hrest
        rw [hreached]
        exact hrest

end Loops

end Brackets

/-- A level is read as a reader reads it, whatever brackets are open around it. -/
theorem agrees_alternation (frames : List Frame) (hsound : state.Sound limits tokens)
    (hunder : Under frames state)
    {rounds : Nat} (hrounds : limits.depth < rounds + state.openBrackets) :
    Meets (Levels limits tokens frames .empty state (state.offset tokens))
      (Refused limits tokens frames .empty state) (alternation limits tokens rounds state) := by
  -- The frames are general because what stands in a bracket is read with one frame more.
  induction rounds generalizing state frames with
  | zero =>
    have hbrackets := hsound.openBrackets_le
    omega
  | succ rounds ih =>
    have hdisciplined : ∀ other, Sound limits tokens other →
      other.openBrackets = state.openBrackets + 1 →
        Disciplined limits tokens other (alternation limits tokens rounds other) :=
      fun other hother hbrackets => disciplined_alternation hother (by omega)
    have hagrees : ∀ frames other, Sound limits tokens other → Under frames other →
        other.openBrackets = state.openBrackets + 1 →
        Meets (Levels limits tokens frames .empty other (other.offset tokens))
          (Refused limits tokens frames .empty other) (alternation limits tokens rounds other) :=
      fun frames other hother hunder hbrackets => ih frames hother hunder (by omega)
    rw [alternation, current_bind]
    cases hbar : tokens[state.position]?.filter (·.kind == .bar) with
    | some bar =>
      obtain ⟨htoken, hkind⟩ := Option.filter_eq_some_iff.mp hbar
      refine .failed (outcome_of_step_error htoken ?_)
      simp only [Reader.step, reader, eq_of_beq hkind]
      rfl
    | none =>
      have hawaits : Awaits .empty tokens[state.position]? := by
        refine ⟨fun token htoken hkind => ?_, fun _ => rfl, fun _ _ _ => rfl⟩
        simp [htoken, hkind] at hbar
      have hbranch := (disciplined_concatenation hdisciplined hsound rfl).and
        (agrees_concatenation hagrees hdisciplined hsound rfl hunder hawaits)
      refine hbranch.bind (fun _ _ hrefused => hrefused.2) ?_
      rintro ⟨expr, depth⟩ between ⟨⟨hforward, hreads⟩, hends, next, hbranches, hnext, hreached⟩
      have hdepth : Part.maxDepth [⟨expr, depth, state.offset tokens⟩] = depth := Nat.max_zero _
      have hparts : next.branches.reverse.map Prod.fst ++ [⟨expr, depth, state.offset tokens⟩] =
          [⟨expr, depth, state.offset tokens⟩] := by
        rw [hbranches]
        rfl
      have hrest := agrees_branches hagrees hdisciplined hreads.sound hreads.openBrackets_eq
        (hunder.kept hreads.toKeeps) hends hnext hparts (show _ < tokens.length + 1 by omega)
      rw [hdepth] at hrest
      unfold Refused Levels
      rw [show Level.empty = ⟨[], []⟩ from rfl, hreached]
      exact hrest

/-- The two readings come to the same end. -/
theorem read_eq (limits : Limits) (tokens : List Token) :
    Descent.read limits tokens = some (Reader.read limits tokens) := by
  have hwhole : Meets (fun pattern _ => Reader.read limits tokens = .ok pattern)
      (fun error _ => Reader.read limits tokens = .error error) (whole limits tokens start) := by
    unfold whole
    have hroot :=
      agrees_alternation [] (sound_start limits tokens) ⟨rfl, rfl⟩ (Nat.lt_succ_self limits.depth)
    refine hroot.bind (fun _ _ hrefused => hrefused) ?_
    rintro ⟨root, depth⟩ after ⟨hclose, last, hlast, hreached⟩
    have hread : Reader.read limits tokens = outcome limits tokens [] last after := hreached
    dsimp only
    rw [hread, current_bind]
    cases htoken : tokens[after.position]? with
    | none =>
      refine .done ?_
      unfold outcome
      rw [Reader.resume_of_end _ htoken]
      exact bind_eq_ok.mpr ⟨_, hlast _, rfl⟩
    | some token =>
      refine .failed (outcome_of_step_error htoken ?_)
      simp only [Reader.step, reader, hclose token htoken]
      exact bind_eq_error.mpr (.inr ⟨_, hlast _, rfl⟩)
  unfold Descent.read
  generalize whole limits tokens start = result at hwhole
  cases hwhole with
  | done hread =>
    rw [hread]
    rfl
  | failed hread =>
    rw [hread]
    rfl

end Descent

end PatternGrammar
