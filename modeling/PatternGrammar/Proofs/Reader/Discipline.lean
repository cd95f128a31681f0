import PatternGrammar.Proofs.Reader.TooDeep
import PatternGrammar.Reader.Descent

/-!
# What the calls of a descent keep

Every call of a reading by descent comes to an end. It leaves the open brackets and the open
lookahead as it found them, whether it gives an expression or an error, and it stays within the
tokens and within the limits. A call that gives an expression has moved on, has opened as many
groups as the tokens it took open, has entered just these groups in the table, and tells the depth
of the expression.

The calls are treated from the inside out, with a hypothesis on what stands in brackets; one
induction on the rounds that are left for these then removes it.
-/

namespace PatternGrammar.Descent

open Procedure

/-- How many of the tokens before a position open a capture group. -/
def captureStarts (tokens : List Token) (position : Nat) : Nat :=
  (tokens.take position).countP (·.kind == .openCapture)

/-- A state within the tokens and the limits whose table has no number that is yet to be given. -/
structure Sound (limits : Limits) (tokens : List Token) (state : Descent) : Prop where
  /-- No more tokens are read than there are. -/
  position_le : state.position ≤ tokens.length
  /-- No more groups are opened than are allowed. -/
  opened_le : state.opened ≤ limits.groups
  /-- No more brackets are open than are allowed. -/
  openBrackets_le : state.openBrackets ≤ limits.depth
  /-- The groups in the table have been opened. -/
  numbered : ∀ id, (state.captures.get? id).isSome = true → id ≤ state.opened

/-- What a call leaves as it was, with an error or without. -/
structure Keeps (limits : Limits) (tokens : List Token) (before after : Descent) : Prop where
  /-- The state is sound. -/
  sound : after.Sound limits tokens
  /-- As many brackets are open. -/
  openBrackets_eq : after.openBrackets = before.openBrackets
  /-- A lookahead is open if one was. -/
  insideLookahead_eq : after.insideLookahead = before.insideLookahead

/-- What lies between two states if the tokens between them were read without an error. -/
structure Passes (limits : Limits) (tokens : List Token) (before after : Descent) : Prop
    extends Keeps limits tokens before after where
  /-- No token is given back. -/
  position_mono : before.position ≤ after.position
  /-- Each token that opens a group has opened one. -/
  counted : after.opened + captureStarts tokens before.position =
    before.opened + captureStarts tokens after.position
  /-- The groups opened before hold what they held. -/
  earlier : ∀ id ≤ before.opened, after.captures.get? id = before.captures.get? id
  /-- The groups opened since are in the table. -/
  later : ∀ id, before.opened < id → id ≤ after.opened → (after.captures.get? id).isSome = true

/-- What a call gives that reads an expression. -/
structure Reads (limits : Limits) (tokens : List Token) (before : Descent) (sub : Expr × Nat)
    (after : Descent) : Prop extends Passes limits tokens before after where
  /-- The depth is that of the expression. -/
  depth_eq : sub.2 = sub.1.depth

/-- A call that may fail, keeps what is to be kept and otherwise reads an expression of a token at
least. -/
def Disciplined (limits : Limits) (tokens : List Token) (before : Descent) :
    Option (Except SyntaxError (Expr × Nat) × Descent) → Prop :=
  Meets (fun sub after => before.position < after.position ∧ Reads limits tokens before sub after)
    fun _ after => Keeps limits tokens before after

/-- The rest of such a call. Nothing may be left for it to read. -/
def Proceeds (limits : Limits) (tokens : List Token) (before : Descent) :
    Option (Except SyntaxError (Expr × Nat) × Descent) → Prop :=
  Meets (Reads limits tokens before) fun _ after => Keeps limits tokens before after

variable {limits : Limits} {tokens : List Token} {before between after state : Descent}
  {token : Token} {result : Option (Except SyntaxError (Expr × Nat) × Descent)}

section States

/-- A token counts if it opens a capture group. -/
theorem captureStarts_succ {position : Nat} (htoken : tokens[position]? = some token) :
    captureStarts tokens (position + 1) =
      captureStarts tokens position + if token.kind = .openCapture then 1 else 0 := by
  obtain ⟨hlength, hget⟩ := List.getElem?_eq_some_iff.mp htoken
  unfold captureStarts
  rw [List.take_succ_eq_append_getElem hlength, List.countP_append, hget, List.countP_singleton]
  simp only [beq_iff_eq]

/-- The openings before a position and those after it up to another. -/
theorem captureStarts_add_countP (tokens : List Token) {first last : Nat} (hle : first ≤ last) :
    captureStarts tokens first + ((tokens.take last).drop first).countP (·.kind == .openCapture) =
      captureStarts tokens last := by
  have htake : tokens.take first = (tokens.take last).take first := by
    rw [List.take_take, Nat.min_eq_left hle]
  unfold captureStarts
  rw [htake, ← List.countP_append, List.take_append_drop]

/-- The start is sound. -/
theorem sound_start (limits : Limits) (tokens : List Token) : Sound limits tokens start where
  position_le := Nat.zero_le _
  opened_le := Nat.zero_le _
  openBrackets_le := Nat.zero_le _
  numbered := nofun

/-- One call after another keeps what both keep. -/
theorem Keeps.trans (hfirst : Keeps limits tokens before between)
    (hsecond : Keeps limits tokens between after) : Keeps limits tokens before after where
  sound := hsecond.sound
  openBrackets_eq := hsecond.openBrackets_eq.trans hfirst.openBrackets_eq
  insideLookahead_eq := hsecond.insideLookahead_eq.trans hfirst.insideLookahead_eq

/-- A sound state keeps its own. -/
theorem Sound.keeps (hsound : state.Sound limits tokens) : Keeps limits tokens state state :=
  ⟨hsound, rfl, rfl⟩

/-- Nothing is read between a state and itself. -/
theorem Sound.passes (hsound : state.Sound limits tokens) : Passes limits tokens state state where
  toKeeps := hsound.keeps
  position_mono := Nat.le_refl _
  counted := rfl
  earlier := fun _ _ => rfl
  later := fun _ hlater hopened => by omega

/-- As many groups are opened as there are openings between the two places. -/
theorem Passes.opened_eq (hpasses : Passes limits tokens before after) :
    after.opened = before.opened +
      ((tokens.take after.position).drop before.position).countP (·.kind == .openCapture) := by
  have hcounted := hpasses.counted
  have hadd := captureStarts_add_countP tokens hpasses.position_mono
  omega

/-- No group is taken back. -/
theorem Passes.opened_mono (hpasses : Passes limits tokens before after) :
    before.opened ≤ after.opened := by
  rw [hpasses.opened_eq]
  exact Nat.le_add_right _ _

/-- The table has the groups it had and those opened since. -/
theorem Passes.isSome_get?_iff (hpasses : Passes limits tokens before after)
    (hsound : before.Sound limits tokens) (id : Nat) :
    (after.captures.get? id).isSome = true ↔
      (before.captures.get? id).isSome = true ∨ before.opened < id ∧ id ≤ after.opened := by
  by_cases hearlier : id ≤ before.opened
  · rw [hpasses.earlier id hearlier]
    constructor
    · exact .inl
    · rintro (hsome | ⟨hlater, -⟩)
      · exact hsome
      · omega
  · constructor
    · exact fun hsome => .inr ⟨by omega, hpasses.sound.numbered id hsome⟩
    · rintro (hsome | ⟨hlater, hopened⟩)
      · exact absurd (hsound.numbered id hsome) hearlier
      · exact hpasses.later id hlater hopened

/-- What is read in two parts is read as a whole. -/
theorem Passes.trans (hfirst : Passes limits tokens before between)
    (hsecond : Passes limits tokens between after) : Passes limits tokens before after where
  toKeeps := hfirst.toKeeps.trans hsecond.toKeeps
  position_mono := Nat.le_trans hfirst.position_mono hsecond.position_mono
  counted := by
    have hcounted := hfirst.counted
    have hrest := hsecond.counted
    omega
  earlier := by
    intro id hid
    rw [hsecond.earlier id (Nat.le_trans hid hfirst.opened_mono), hfirst.earlier id hid]
  later := by
    intro id hlater hopened
    by_cases hbetween : id ≤ between.opened
    · rw [hsecond.earlier id hbetween]
      exact hfirst.later id hlater hbetween
    · exact hsecond.later id (by omega) hopened

/-- What is read after a part counts as read with the part. -/
theorem Passes.reads {sub : Expr × Nat} (hpasses : Passes limits tokens before between)
    (hreads : Reads limits tokens between sub after) : Reads limits tokens before sub after :=
  ⟨hpasses.trans hreads.toPasses, hreads.depth_eq⟩

/-- A token that opens no group is passed. -/
theorem Sound.passes_token (hsound : state.Sound limits tokens)
    (htoken : tokens[state.position]? = some token) (hother : token.kind ≠ .openCapture) :
    Passes limits tokens state { state with position := state.position + 1 } where
  sound := { hsound with position_le := (List.getElem?_eq_some_iff.mp htoken).1 }
  openBrackets_eq := rfl
  insideLookahead_eq := rfl
  position_mono := Nat.le_succ _
  counted := by
    rw [captureStarts_succ htoken, if_neg hother]
    rfl
  earlier := fun _ _ => rfl
  later := fun _ hlater hopened => absurd hopened (Nat.not_le.mpr hlater)

/-- The table gets the group that was opened last before the passage. -/
theorem Passes.captured (inner : Expr) (htoken : tokens[before.position]? = some token)
    (hkind : token.kind = .openCapture)
    (hpasses : Passes limits tokens
      { before with position := before.position + 1, opened := before.opened + 1 } after) :
    Passes limits tokens before
      { after with captures := after.captures.insert (before.opened + 1) inner } where
  sound := by
    refine { hpasses.sound with numbered := fun id hsome => ?_ }
    rw [CaptureTable.get?_insert] at hsome
    split at hsome
    next hsame => exact hsame ▸ hpasses.opened_mono
    next hother => exact hpasses.sound.numbered id hsome
  openBrackets_eq := hpasses.openBrackets_eq
  insideLookahead_eq := hpasses.insideLookahead_eq
  position_mono := Nat.le_trans (Nat.le_succ _) hpasses.position_mono
  counted := by
    have hcounted := hpasses.counted
    rw [captureStarts_succ htoken, if_pos hkind] at hcounted
    dsimp only at hcounted ⊢
    omega
  earlier := by
    intro id hid
    rw [CaptureTable.get?_insert, if_neg (by omega)]
    exact hpasses.earlier id (Nat.le_succ_of_le hid)
  later := by
    intro id hlater hopened
    rw [CaptureTable.get?_insert]
    split
    · rfl
    · exact hpasses.later id (show before.opened + 1 < id by omega) hopened

end States

section Steps

variable {α : Type} (state)

/-- A call begins with a look at the next token. -/
theorem current_bind (rest : Option Token → DescentM α) :
    (current tokens >>= rest) state = rest tokens[state.position]? state := rfl

/-- A token is passed and the call goes on. -/
theorem advance_bind (rest : PUnit → DescentM α) :
    (advance >>= rest) state = rest ⟨⟩ { state with position := state.position + 1 } := rfl

/-- A call looks at its state. -/
theorem get_bind (rest : Descent → DescentM α) : (get >>= rest) state = rest state state := rfl

/-- A node around a tree changes nothing in the state. -/
theorem meets_enclose (depth offset : Nat) :
    Meets
      (fun around after => after = state ∧ around = depth + 1 ∧
        limits.enclose depth offset = .ok around)
      (fun error after => after = state ∧ limits.enclose depth offset = .error error)
      (enclose limits depth offset state) := by
  unfold enclose Limits.enclose
  split
  · exact .failed ⟨rfl, rfl⟩
  · exact .done ⟨rfl, rfl, rfl⟩

/-- A closing bracket is taken where one is. -/
theorem meets_takeClosing :
    Meets
      (fun _ after => after = { state with position := state.position + 1 } ∧
        ∃ token, tokens[state.position]? = some token ∧ token.kind = .close)
      (fun error after => after = state ∧
        (tokens[state.position]? = none ∧ error = .unexpectedEnd .closing ∨
          ∃ token, tokens[state.position]? = some token ∧ token.kind ≠ .close ∧
            error = .unexpectedToken .closing token.kind token.offset))
      (takeClosing tokens state) := by
  unfold takeClosing
  rw [current_bind]
  cases htoken : tokens[state.position]? with
  | none => exact .failed ⟨rfl, .inl ⟨rfl, rfl⟩⟩
  | some token =>
    dsimp only
    by_cases hkind : token.kind = .close
    · rw [if_pos hkind]
      exact .done ⟨rfl, token, rfl, hkind⟩
    · rw [if_neg hkind]
      exact .failed ⟨rfl, .inr ⟨token, rfl, hkind, rfl⟩⟩

/-- A capture group takes the next number, outside lookaheads and while there are numbers left. -/
theorem meets_openCapture (hsound : state.Sound limits tokens)
    (htoken : tokens[state.position]? = some token) (offset : Nat) :
    Meets
      (fun id after => id = state.opened + 1 ∧
        after = { state with position := state.position + 1, opened := state.opened + 1 } ∧
        Sound limits tokens after ∧ state.insideLookahead = false ∧ state.opened < limits.groups)
      (fun error after => Keeps limits tokens state after ∧
        (state.insideLookahead = true ∧ error = .captureInLookahead offset ∨
          state.insideLookahead = false ∧ state.opened = limits.groups ∧
            error = .tooManyGroups offset limits.groups))
      (openCapture limits offset state) := by
  have hlength := (List.getElem?_eq_some_iff.mp htoken).1
  unfold openCapture
  rw [get_bind]
  by_cases hinside : state.insideLookahead = true
  · rw [if_pos hinside]
    exact .failed ⟨hsound.keeps, .inl ⟨hinside, rfl⟩⟩
  have houtside : state.insideLookahead = false := eq_false_of_ne_true hinside
  rw [if_neg hinside, advance_bind, get_bind]
  by_cases hmany : state.opened = limits.groups
  · rw [if_pos hmany]
    have hadvanced : Sound limits tokens { state with position := state.position + 1 } :=
      { hsound with position_le := hlength }
    exact .failed ⟨⟨hadvanced, rfl, rfl⟩, .inr ⟨houtside, hmany, rfl⟩⟩
  · rw [if_neg hmany]
    have hfew : state.opened < limits.groups := Nat.lt_of_le_of_ne hsound.opened_le hmany
    refine .done ⟨rfl, rfl, ?_, houtside, hfew⟩
    exact { hsound with
      position_le := hlength, opened_le := hfew
      numbered := fun id hsome => Nat.le_succ_of_le (hsound.numbered id hsome) }

/-- A lookahead is opened outside lookaheads. -/
theorem meets_openLookahead (offset : Nat) :
    Meets
      (fun _ after => after = { state with position := state.position + 1 } ∧
        state.insideLookahead = false)
      (fun error after => after = state ∧ state.insideLookahead = true ∧
        error = .nestedLookahead offset)
      (openLookahead offset state) := by
  unfold openLookahead
  rw [get_bind]
  by_cases hinside : state.insideLookahead = true
  · rw [if_pos hinside]
    exact .failed ⟨rfl, hinside, rfl⟩
  · rw [if_neg hinside]
    exact .done ⟨rfl, eq_false_of_ne_true hinside⟩

end Steps

/-- A call after a passage keeps to its rules from the start of the passage. -/
theorem Passes.disciplined (hpasses : Passes limits tokens before between)
    (hresult : Disciplined limits tokens between result) :
    Disciplined limits tokens before result := by
  refine hresult.imp ?_ fun _ _ hkeeps => hpasses.toKeeps.trans hkeeps
  rintro _ _ ⟨hforward, hreads⟩
  exact ⟨Nat.lt_of_le_of_lt hpasses.position_mono hforward, hpasses.reads hreads⟩

/-- A call that keeps to the rules comes to an end. -/
theorem Disciplined.exists_end (hresult : Disciplined limits tokens before result) :
    ∃ answer after, result = some (answer, after) ∧ Keeps limits tokens before after ∧
      ∀ sub, answer = .ok sub → before.position < after.position ∧
        Reads limits tokens before sub after := by
  cases hresult with
  | done holds => exact ⟨_, _, rfl, holds.2.toKeeps, fun _ heq => Except.ok.inj heq ▸ holds⟩
  | failed holds => exact ⟨_, _, rfl, holds, nofun⟩

/-- The rest of a call after a passage is the rest from the start of the passage. -/
theorem Passes.proceeds (hpasses : Passes limits tokens before between)
    (hresult : Proceeds limits tokens between result) : Proceeds limits tokens before result :=
  hresult.imp (fun _ _ hreads => hpasses.reads hreads) fun _ _ hkeeps =>
    hpasses.toKeeps.trans hkeeps

/-- A passage over a token at least and the rest after it are a call. -/
theorem Passes.disciplined_of_proceeds (hpasses : Passes limits tokens before between)
    (hforward : before.position < between.position)
    (hresult : Proceeds limits tokens between result) :
    Disciplined limits tokens before result := by
  refine hresult.imp ?_ fun _ _ hkeeps => hpasses.toKeeps.trans hkeeps
  exact fun _ _ hreads => ⟨Nat.lt_of_lt_of_le hforward hreads.position_mono, hpasses.reads hreads⟩

/-- The expressions of a call are gathered at its end. -/
theorem Sound.proceeds_gather (hsound : state.Sound limits tokens) {node : List Expr → Expr}
    (hnode : ∀ exprs, (node exprs).depth = Expr.listDepth exprs + 1) (offset : Nat)
    (exprs : List Expr) :
    Proceeds limits tokens state
      (gather limits node offset exprs (Expr.listDepth exprs) state) := by
  unfold gather
  split
  next expr => exact .done ⟨hsound.passes, Nat.max_zero _⟩
  next =>
    refine (meets_enclose state _ offset).bind ?_ ?_
    · rintro _ _ ⟨rfl, -⟩
      exact hsound.keeps
    · rintro _ _ ⟨rfl, rfl, -⟩
      exact .done ⟨hsound.passes, (hnode _).symm⟩

/-- The greatest depth after one more expression. -/
theorem Reads.max_depth_eq {expr : Expr} {depth : Nat}
    (hreads : Reads limits tokens before (expr, depth) after)
    (exprs : List Expr) : max (Expr.listDepth exprs) depth = Expr.listDepth (exprs ++ [expr]) := by
  have hdepth : depth = expr.depth := hreads.depth_eq
  rw [Expr.listDepth_append, hdepth, Expr.listDepth, Expr.listDepth, Nat.max_zero]

/-- A node around what a call has read. -/
theorem Reads.enclosed {node : Expr → Expr} (hnode : ∀ expr, (node expr).depth = expr.depth + 1)
    {inner : Expr} {depth : Nat} (hforward : before.position < after.position)
    (hreads : Reads limits tokens before (inner, depth) after) (offset : Nat) :
    Disciplined limits tokens before
      ((do return (node inner, ← enclose limits depth offset) : DescentM (Expr × Nat)) after) := by
  refine (meets_enclose after depth offset).bind ?_ ?_
  · rintro _ _ ⟨rfl, -⟩
    exact hreads.toKeeps
  · rintro _ _ ⟨rfl, rfl, -⟩
    have hdepth : depth = inner.depth := hreads.depth_eq
    exact .done ⟨hforward, hreads.toPasses, by rw [hdepth, hnode]⟩

/-- A reference is taken with its end. -/
theorem disciplined_reference (hsound : state.Sound limits tokens)
    (htoken : tokens[state.position]? = some token) (hkind : token.kind = .openReference) :
    Disciplined limits tokens state (reference tokens token state) := by
  have hpasses := hsound.passes_token htoken (by simp [hkind])
  unfold reference
  rw [advance_bind]
  refine (meets_takeClosing _).bind ?_ ?_
  · rintro _ _ ⟨rfl, -⟩
    exact hpasses.toKeeps
  · rintro _ _ ⟨rfl, closing, hclosing, hclose⟩
    have hend := hpasses.trans (hpasses.sound.passes_token hclosing (by simp [hclose]))
    cases Reader.groupNumber? token with
    | none => exact .failed hend.toKeeps
    | some id => exact .done ⟨Nat.lt_succ_of_lt (Nat.lt_succ_self _), hend, rfl⟩

/-- A letter is taken. -/
theorem disciplined_letter (hsound : state.Sound limits tokens)
    (htoken : tokens[state.position]? = some token)
    (hkind : token.kind = .letter) : Disciplined limits tokens state (letter token state) := by
  have hpasses := hsound.passes_token htoken (by simp [hkind])
  unfold letter
  rw [advance_bind]
  cases token.payload with
  | none => exact .failed hpasses.toKeeps
  | some c => exact .done ⟨Nat.lt_succ_self _, hpasses, rfl⟩

/-- Stars are taken as long as there are any. -/
theorem proceeds_stars (hsound : state.Sound limits tokens) {rounds : Nat}
    (hrounds : tokens.length - state.position < rounds) {expr : Expr} {depth : Nat}
    (hdepth : depth = expr.depth) :
    Proceeds limits tokens state (stars limits tokens rounds expr depth state) := by
  induction rounds generalizing state expr depth with
  | zero => exact absurd hrounds (Nat.not_lt_zero _)
  | succ rounds ih =>
    rw [stars, current_bind]
    cases hstar : tokens[state.position]?.filter (·.kind == .star) with
    | none => exact .done ⟨hsound.passes, hdepth⟩
    | some star =>
      obtain ⟨htoken, hkind⟩ := Option.filter_eq_some_iff.mp hstar
      have hlength := (List.getElem?_eq_some_iff.mp htoken).1
      have hpasses := hsound.passes_token htoken (by simp [eq_of_beq hkind])
      dsimp only
      rw [advance_bind]
      refine (meets_enclose _ depth star.offset).bind ?_ ?_
      · rintro _ _ ⟨rfl, -⟩
        exact hpasses.toKeeps
      · rintro _ _ ⟨rfl, rfl, -⟩
        have haround : depth + 1 = (Expr.star expr).depth := congrArg (· + 1) hdepth
        exact hpasses.proceeds (ih hpasses.sound (by dsimp only; omega) haround)

section Brackets

variable {inner : DescentM (Expr × Nat)} {brackets : Nat}
  (hinner : ∀ state, Sound limits tokens state → state.openBrackets = brackets + 1 →
    Disciplined limits tokens state (inner state))
include hinner

/-- What stands in a bracket is read with the bracket open, and the bracket is open no longer after
it. -/
theorem disciplined_inside (hsound : state.Sound limits tokens)
    (hbrackets : state.openBrackets = brackets)
    (hfew : state.openBrackets < limits.depth) :
    Disciplined limits tokens state (inside inner state) := by
  have hentered : Sound limits tokens { state with openBrackets := state.openBrackets + 1 } :=
    { hsound with openBrackets_le := hfew }
  have hkeeps :
      ∀ after, Keeps limits tokens { state with openBrackets := state.openBrackets + 1 } after →
        Keeps limits tokens state { after with openBrackets := after.openBrackets - 1 } := by
    intro after hkeeps
    refine ⟨{ hkeeps.sound with openBrackets_le := ?_ }, ?_, hkeeps.insideLookahead_eq⟩
    · exact Nat.le_trans (Nat.sub_le _ _) hkeeps.sound.openBrackets_le
    · exact Nat.sub_eq_of_eq_add hkeeps.openBrackets_eq
  refine Meets.around ((hinner _ hentered (congrArg (· + 1) hbrackets)).imp ?_ ?_)
  · rintro sub after ⟨hforward, hreads⟩
    exact ⟨hforward, { hreads with toKeeps := hkeeps after hreads.toKeeps }⟩
  · exact fun _ after hbroken => hkeeps after hbroken

/-- The body of a bracket is read with its end. -/
theorem disciplined_body (hsound : state.Sound limits tokens)
    (hbrackets : state.openBrackets = brackets)
    (offset : Nat) : Disciplined limits tokens state (body limits tokens inner offset state) := by
  rw [body, get_bind]
  by_cases hmany : limits.depth ≤ state.openBrackets
  · rw [if_pos hmany]
    exact .failed hsound.keeps
  rw [if_neg hmany]
  refine (disciplined_inside hinner hsound hbrackets (Nat.not_le.mp hmany)).bind
    (fun _ _ hkeeps => hkeeps) ?_
  rintro sub between ⟨hforward, hreads⟩
  refine (meets_takeClosing between).bind ?_ ?_
  · rintro _ _ ⟨rfl, -⟩
    exact hreads.toKeeps
  · rintro _ _ ⟨rfl, token, htoken, hkind⟩
    have hclosing := hreads.sound.passes_token htoken (by simp [hkind])
    exact .done ⟨Nat.lt_succ_of_lt hforward, hreads.toPasses.trans hclosing, hreads.depth_eq⟩

/-- The body of a lookahead is read with the lookahead open, and it is open no longer after it. -/
theorem disciplined_ahead (hsound : state.Sound limits tokens)
    (hbrackets : state.openBrackets = brackets)
    (houtside : state.insideLookahead = false) (offset : Nat) :
    Disciplined limits tokens state (ahead limits tokens inner offset state) := by
  have hentered : Sound limits tokens { state with insideLookahead := true } := { hsound with }
  -- The lookahead is closed and not put back as it was; both are the same where none was open.
  have hkeeps : ∀ after, Keeps limits tokens { state with insideLookahead := true } after →
      Keeps limits tokens state { after with insideLookahead := false } :=
    fun after hkeeps => ⟨{ hkeeps.sound with }, hkeeps.openBrackets_eq, houtside.symm⟩
  refine Meets.around ((disciplined_body hinner hentered hbrackets offset).imp ?_ ?_)
  · rintro sub after ⟨hforward, hreads⟩
    exact ⟨hforward, { hreads with toKeeps := hkeeps after hreads.toKeeps }⟩
  · exact fun _ after hbroken => hkeeps after hbroken

/-- A capture group is read with its end and entered under its number. -/
theorem disciplined_capture (hsound : state.Sound limits tokens)
    (hbrackets : state.openBrackets = brackets)
    (htoken : tokens[state.position]? = some token) (hkind : token.kind = .openCapture)
    (offset : Nat) :
    Disciplined limits tokens state (capture limits tokens inner offset state) := by
  rw [capture]
  refine (meets_openCapture state hsound htoken offset).bind (fun _ _ hbroken => hbroken.1) ?_
  rintro _ _ ⟨rfl, rfl, hopened, -, -⟩
  have hkept : Keeps limits tokens state
    { state with position := state.position + 1, opened := state.opened + 1 } := ⟨hopened, rfl, rfl⟩
  refine (disciplined_body hinner hopened hbrackets offset).bind ?_ ?_
  · exact fun _ _ hbroken => hkept.trans hbroken
  rintro ⟨expr, depth⟩ after ⟨hforward, hreads⟩
  refine (meets_enclose after depth offset).bind ?_ ?_
  · rintro _ _ ⟨rfl, -⟩
    exact hkept.trans hreads.toKeeps
  · rintro _ _ ⟨rfl, rfl, -⟩
    have hcaptured := hreads.toPasses.captured expr htoken hkind
    exact .done ⟨Nat.lt_of_succ_lt hforward, hcaptured, congrArg (· + 1) hreads.depth_eq⟩

/-- A bracket that captures nothing is read with its end. -/
theorem disciplined_plain (hsound : state.Sound limits tokens)
    (hbrackets : state.openBrackets = brackets)
    (htoken : tokens[state.position]? = some token) (hkind : token.kind = .openPlain)
    (offset : Nat) :
    Disciplined limits tokens state (plain limits tokens inner offset state) := by
  have hpasses := hsound.passes_token htoken (by simp [hkind])
  rw [plain, advance_bind]
  refine (hpasses.disciplined (disciplined_body hinner hpasses.sound hbrackets offset)).bind
    (fun _ _ hkeeps => hkeeps) ?_
  exact fun _ _ ⟨hforward, hreads⟩ => hreads.enclosed (fun _ => rfl) hforward offset

/-- A lookahead is read with its end. -/
theorem disciplined_lookahead (hsound : state.Sound limits tokens)
    (hbrackets : state.openBrackets = brackets)
    (htoken : tokens[state.position]? = some token) (hkind : token.kind = .openLookahead)
    (offset : Nat) :
    Disciplined limits tokens state (lookahead limits tokens inner offset state) := by
  have hpasses := hsound.passes_token htoken (by simp [hkind])
  rw [lookahead]
  refine (meets_openLookahead state offset).bind ?_ ?_
  · rintro _ _ ⟨rfl, -⟩
    exact hsound.keeps
  rintro _ _ ⟨rfl, houtside⟩
  refine (hpasses.disciplined
    (disciplined_ahead hinner hpasses.sound hbrackets houtside offset)).bind
    (fun _ _ hkeeps => hkeeps) ?_
  exact fun _ _ ⟨hforward, hreads⟩ => hreads.enclosed (fun _ => rfl) hforward offset

/-- An atom is a letter, a reference or a bracket. -/
theorem disciplined_atom (hsound : state.Sound limits tokens)
    (hbrackets : state.openBrackets = brackets) :
    Disciplined limits tokens state (atom limits tokens inner state) := by
  rw [atom, current_bind]
  cases htoken : tokens[state.position]? with
  | none => exact .failed hsound.keeps
  | some token =>
    dsimp only
    cases hkind : token.kind with
    | openCapture => exact disciplined_capture hinner hsound hbrackets htoken hkind token.offset
    | openPlain => exact disciplined_plain hinner hsound hbrackets htoken hkind token.offset
    | openLookahead => exact disciplined_lookahead hinner hsound hbrackets htoken hkind token.offset
    | openReference => exact disciplined_reference hsound htoken hkind
    | letter => exact disciplined_letter hsound htoken hkind
    | bar => exact .failed hsound.keeps
    | star => exact .failed hsound.keeps
    | close => exact .failed hsound.keeps

/-- An atom is read and the stars after it. -/
theorem disciplined_repetition (hsound : state.Sound limits tokens)
    (hbrackets : state.openBrackets = brackets) :
    Disciplined limits tokens state (repetition limits tokens inner state) := by
  rw [repetition]
  refine (disciplined_atom hinner hsound hbrackets).bind (fun _ _ hkeeps => hkeeps) ?_
  rintro ⟨expr, depth⟩ between ⟨hforward, hreads⟩
  exact hreads.disciplined_of_proceeds hforward
    (proceeds_stars hreads.sound (by omega) hreads.depth_eq)

/-- Operands are read until the branch ends. -/
theorem proceeds_operands (hsound : state.Sound limits tokens)
    (hbrackets : state.openBrackets = brackets)
    (offset : Nat) {rounds : Nat} (hrounds : tokens.length - state.position < rounds)
    (exprs : List Expr) :
    Proceeds limits tokens state
      (operands limits tokens inner offset rounds exprs (Expr.listDepth exprs) state) := by
  induction rounds generalizing state exprs with
  | zero => exact absurd hrounds (Nat.not_lt_zero _)
  | succ rounds ih =>
    rw [operands, current_bind]
    by_cases hends : endsBranch tokens[state.position]? = true
    · rw [if_pos hends]
      exact hsound.proceeds_gather (fun _ => rfl) offset exprs
    · rw [if_neg hends]
      refine (disciplined_repetition hinner hsound hbrackets).bind (fun _ _ hkeeps => hkeeps) ?_
      rintro ⟨expr, depth⟩ between ⟨hforward, hreads⟩
      have hbetween := hreads.sound.position_le
      dsimp only
      rw [hreads.max_depth_eq]
      exact hreads.proceeds
        (ih hreads.sound (hreads.openBrackets_eq.trans hbrackets) (by omega) (exprs ++ [expr]))

/-- The operands of a branch are read up to its end. -/
theorem disciplined_concatenation (hsound : state.Sound limits tokens)
    (hbrackets : state.openBrackets = brackets) :
    Disciplined limits tokens state (concatenation limits tokens inner state) := by
  rw [concatenation, current_bind]
  refine (disciplined_repetition hinner hsound hbrackets).bind (fun _ _ hkeeps => hkeeps) ?_
  rintro ⟨expr, depth⟩ between ⟨hforward, hreads⟩
  have hdepth : depth = Expr.listDepth [expr] := hreads.depth_eq.trans (Nat.max_zero _).symm
  dsimp only
  rw [hdepth]
  exact hreads.disciplined_of_proceeds hforward
    (proceeds_operands hinner hreads.sound (hreads.openBrackets_eq.trans hbrackets) _
      (by omega) [expr])

/-- Branches are read as long as bars follow. -/
theorem proceeds_branches (hsound : state.Sound limits tokens)
    (hbrackets : state.openBrackets = brackets)
    (offset : Nat) {rounds : Nat} (hrounds : tokens.length - state.position < rounds)
    (exprs : List Expr) :
    Proceeds limits tokens state
      (branches limits tokens inner offset rounds exprs (Expr.listDepth exprs) state) := by
  induction rounds generalizing state exprs with
  | zero => exact absurd hrounds (Nat.not_lt_zero _)
  | succ rounds ih =>
    rw [branches, current_bind]
    cases hbar : tokens[state.position]?.filter (·.kind == .bar) with
    | none => exact hsound.proceeds_gather (fun _ => rfl) offset exprs
    | some bar =>
      obtain ⟨htoken, hkind⟩ := Option.filter_eq_some_iff.mp hbar
      have hpasses := hsound.passes_token htoken (by simp [eq_of_beq hkind])
      dsimp only
      rw [advance_bind, current_bind]
      split
      next hends => exact .failed hpasses.toKeeps
      next hmore =>
        refine (hpasses.disciplined (disciplined_concatenation hinner hpasses.sound hbrackets)).bind
          (fun _ _ hkeeps => hkeeps) ?_
        rintro ⟨expr, depth⟩ between ⟨hforward, hreads⟩
        have hbetween := hreads.sound.position_le
        dsimp only
        rw [hreads.max_depth_eq]
        exact hreads.proceeds
          (ih hreads.sound (hreads.openBrackets_eq.trans hbrackets) (by omega) (exprs ++ [expr]))

end Brackets

/-- Branches and bars are read up to what can be neither, if there are rounds for the brackets among
them. -/
theorem disciplined_alternation (hsound : state.Sound limits tokens) {rounds : Nat}
    (hrounds : limits.depth < rounds + state.openBrackets) :
    Disciplined limits tokens state (alternation limits tokens rounds state) := by
  induction rounds generalizing state with
  | zero =>
    -- Without rounds more brackets would be open than a sound state has.
    have hbrackets := hsound.openBrackets_le
    omega
  | succ rounds ih =>
    have hinner : ∀ other, Sound limits tokens other → other.openBrackets = state.openBrackets + 1 →
        Disciplined limits tokens other (alternation limits tokens rounds other) :=
      fun other hother hbrackets => ih hother (by omega)
    rw [alternation, current_bind]
    cases tokens[state.position]?.filter (·.kind == .bar) with
    | some bar => exact .failed hsound.keeps
    | none =>
      refine (disciplined_concatenation hinner hsound rfl).bind (fun _ _ hkeeps => hkeeps) ?_
      rintro ⟨expr, depth⟩ between ⟨hforward, hreads⟩
      have hdepth : depth = Expr.listDepth [expr] := hreads.depth_eq.trans (Nat.max_zero _).symm
      dsimp only
      rw [hdepth]
      exact hreads.disciplined_of_proceeds hforward
        (proceeds_branches hinner hreads.sound hreads.openBrackets_eq _ (by omega) [expr])

end PatternGrammar.Descent
