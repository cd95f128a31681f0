import PatternGrammar.Proofs.Reader.Descent

/-!
# The calls of a reading

Which calls a reading by descent makes, and in which states it makes them. A call is made at the
start of the pattern, in a bracket that has been opened, for the first part of what another call
reads, and for each further part that follows when an earlier one has been read. All these states
are sound, so every call keeps what a call has to keep.
-/

namespace PatternGrammar.Descent

open Procedure

/-- What a call is to read. -/
inductive Call where
  /-- Branches with bars between them. -/
  | alternation
  /-- A branch. -/
  | concatenation
  /-- An operand with its stars. -/
  | repetition
  /-- An operand without its stars. -/
  | atom
  deriving DecidableEq

/-- The procedure that is called, with a number of rounds for the brackets inside it. -/
def Call.run (limits : Limits) (tokens : List Token) (rounds : Nat) : Call → DescentM (Expr × Nat)
  | .alternation => Descent.alternation limits tokens (rounds + 1)
  | .concatenation => Descent.concatenation limits tokens (Descent.alternation limits tokens rounds)
  | .repetition => Descent.repetition limits tokens (Descent.alternation limits tokens rounds)
  | .atom => Descent.atom limits tokens (Descent.alternation limits tokens rounds)

/-- The calls made while the tokens are read, each with its rounds and with the state in which it is
made. -/
inductive Calls (limits : Limits) (tokens : List Token) : Call → Nat → Descent → Prop where
  /-- The whole pattern is read. -/
  | whole : Calls limits tokens .alternation limits.depth start
  /-- The first branch is read unless a bar stands before it. -/
  | firstBranch {rounds : Nat} {state : Descent}
    (caller : Calls limits tokens .alternation rounds state)
    (noBar : tokens[state.position]?.filter (·.kind == .bar) = none) :
    Calls limits tokens .concatenation rounds state
  /-- After a branch and a bar another branch is read if there is any. -/
  | laterBranch {rounds : Nat} {state after : Descent} {sub : Expr × Nat} {bar : Token}
    (earlier : Calls limits tokens .concatenation rounds state)
    (read : Call.concatenation.run limits tokens rounds state = some (.ok sub, after))
    (isNext : tokens[after.position]? = some bar) (isBar : bar.kind = .bar)
    (more : endsBranch tokens[after.position + 1]? = false) :
    Calls limits tokens .concatenation rounds { after with position := after.position + 1 }
  /-- The first operand of a branch is read. -/
  | firstOperand {rounds : Nat} {state : Descent}
    (caller : Calls limits tokens .concatenation rounds state) :
    Calls limits tokens .repetition rounds state
  /-- After an operand another is read unless the branch ends. -/
  | laterOperand {rounds : Nat} {state after : Descent} {sub : Expr × Nat}
    (earlier : Calls limits tokens .repetition rounds state)
    (read : Call.repetition.run limits tokens rounds state = some (.ok sub, after))
    (more : endsBranch tokens[after.position]? = false) :
    Calls limits tokens .repetition rounds after
  /-- What stands before the stars is read. -/
  | operand {rounds : Nat} {state : Descent}
    (caller : Calls limits tokens .repetition rounds state) :
    Calls limits tokens .atom rounds state
  /-- What stands in a capture group is read. -/
  | capture {rounds : Nat} {state after : Descent} {id : Nat} {token : Token}
    (caller : Calls limits tokens .atom (rounds + 1) state)
    (isNext : tokens[state.position]? = some token) (isOpening : token.kind = .openCapture)
    (entered : openCapture limits token.offset state = some (.ok id, after))
    (shallow : after.openBrackets < limits.depth) :
    Calls limits tokens .alternation rounds { after with openBrackets := after.openBrackets + 1 }
  /-- What stands in a bracket that captures nothing is read. -/
  | plain {rounds : Nat} {state : Descent} {token : Token}
    (caller : Calls limits tokens .atom (rounds + 1) state)
    (isNext : tokens[state.position]? = some token) (isOpening : token.kind = .openPlain)
    (shallow : state.openBrackets < limits.depth) :
    Calls limits tokens .alternation rounds
      { state with position := state.position + 1, openBrackets := state.openBrackets + 1 }
  /-- What stands in a lookahead is read. -/
  | lookahead {rounds : Nat} {state after : Descent} {token : Token}
    (caller : Calls limits tokens .atom (rounds + 1) state)
    (isNext : tokens[state.position]? = some token) (isOpening : token.kind = .openLookahead)
    (entered : openLookahead token.offset state = some (.ok ⟨⟩, after))
    (shallow : after.openBrackets < limits.depth) :
    Calls limits tokens .alternation rounds
      { after with insideLookahead := true, openBrackets := after.openBrackets + 1 }

variable {limits : Limits} {tokens : List Token} {call : Call} {rounds : Nat} {state : Descent}

/-- Every call keeps to the rules in a sound state, if it has rounds for the brackets that may yet
be opened. -/
theorem disciplined_run (call : Call) (hsound : state.Sound limits tokens)
    (hrounds : rounds + state.openBrackets = limits.depth) :
    Disciplined limits tokens state (call.run limits tokens rounds state) := by
  have hinner : ∀ other, Sound limits tokens other → other.openBrackets = state.openBrackets + 1 →
      Disciplined limits tokens other (alternation limits tokens rounds other) :=
    fun other hother hbrackets => disciplined_alternation hother (by omega)
  cases call with
  | alternation => exact disciplined_alternation hsound (by omega)
  | concatenation => exact disciplined_concatenation hinner hsound rfl
  | repetition => exact disciplined_repetition hinner hsound rfl
  | atom => exact disciplined_atom hinner hsound rfl

/-- Calls are made in sound states, with a round for each bracket that may yet be opened. -/
theorem Calls.sound (hcalls : Calls limits tokens call rounds state) :
    state.Sound limits tokens ∧ rounds + state.openBrackets = limits.depth := by
  induction hcalls with
  | whole => exact ⟨sound_start limits tokens, rfl⟩
  | firstBranch _ _ ih => exact ih
  | laterBranch _ hread hnext hbar _ ih =>
    obtain ⟨hsound, hrounds⟩ := ih
    have hreads := ((disciplined_run .concatenation hsound hrounds).of_eq_ok hread).2
    refine ⟨(hreads.sound.passes_token hnext (by simp [hbar])).sound, ?_⟩
    exact (congrArg _ hreads.openBrackets_eq).trans hrounds
  | firstOperand _ ih => exact ih
  | laterOperand _ hread _ ih =>
    obtain ⟨hsound, hrounds⟩ := ih
    have hreads := ((disciplined_run .repetition hsound hrounds).of_eq_ok hread).2
    exact ⟨hreads.sound, (congrArg _ hreads.openBrackets_eq).trans hrounds⟩
  | operand _ ih => exact ih
  | capture _ hnext _ hentered hshallow ih =>
    obtain ⟨hsound, hrounds⟩ := ih
    obtain ⟨-, rfl, hopened, -⟩ := (meets_openCapture _ hsound hnext _).of_eq_ok hentered
    exact ⟨{ hopened with openBrackets_le := hshallow }, by dsimp only; omega⟩
  | plain _ hnext hopening hshallow ih =>
    obtain ⟨hsound, hrounds⟩ := ih
    have hadvanced := (hsound.passes_token hnext (by simp [hopening])).sound
    exact ⟨{ hadvanced with openBrackets_le := hshallow }, by dsimp only; omega⟩
  | lookahead _ hnext hopening hentered hshallow ih =>
    obtain ⟨hsound, hrounds⟩ := ih
    obtain ⟨rfl, -⟩ := (meets_openLookahead _ _).of_eq_ok hentered
    have hadvanced := (hsound.passes_token hnext (by simp [hopening])).sound
    exact ⟨{ hadvanced with openBrackets_le := hshallow }, by dsimp only; omega⟩

/-- Reading by descent gives what the tokens spell, and each call that it makes ends and leaves the
open brackets and the open lookahead as they were. At most fifty brackets are open and at most nine
groups opened when a call is made and when it ends, and no token is read that is not there. A call
that gives an expression has taken a token at least, has opened one group for each opening that it
took, has entered in the table just the groups that it opened, and tells the depth of the
expression. -/
theorem calls_disciplined (tokens : List Token) :
    Descent.read .standard tokens = some (Pattern.ofTokens tokens) ∧
      ∀ call rounds before, Calls .standard tokens call rounds before →
        before.position ≤ tokens.length ∧ before.opened ≤ 9 ∧ before.openBrackets ≤ 50 ∧
          (∀ id, (before.captures.get? id).isSome = true → id ≤ before.opened) ∧
          ∃ answer after, call.run .standard tokens rounds before = some (answer, after) ∧
            after.openBrackets = before.openBrackets ∧
              after.insideLookahead = before.insideLookahead ∧
            after.position ≤ tokens.length ∧ after.opened ≤ 9 ∧ after.openBrackets ≤ 50 ∧
            ∀ expr depth, answer = .ok (expr, depth) →
              before.position < after.position ∧
              after.opened = before.opened +
                ((tokens.take after.position).drop before.position).countP
                  (·.kind == .openCapture) ∧
              (∀ id, (before.captures.get? id).isSome = true →
                after.captures.get? id = before.captures.get? id) ∧
              (∀ id, (after.captures.get? id).isSome = true ↔
                (before.captures.get? id).isSome = true ∨ before.opened < id ∧ id ≤ after.opened) ∧
              depth = expr.depth := by
  refine ⟨read_eq .standard tokens, fun call rounds before hcalls => ?_⟩
  obtain ⟨hsound, hrounds⟩ := hcalls.sound
  refine ⟨hsound.position_le, hsound.opened_le, hsound.openBrackets_le, hsound.numbered, ?_⟩
  obtain ⟨answer, after, hrun, hkeeps, hdone⟩ := (disciplined_run call hsound hrounds).exists_end
  refine ⟨answer, after, hrun, hkeeps.openBrackets_eq, hkeeps.insideLookahead_eq,
    hkeeps.sound.position_le,
    hkeeps.sound.opened_le, hkeeps.sound.openBrackets_le, fun expr depth hok => ?_⟩
  obtain ⟨hforward, hreads⟩ := hdone (expr, depth) hok
  refine ⟨hforward, hreads.opened_eq, fun id hsome => ?_, hreads.isSome_get?_iff hsound,
    hreads.depth_eq⟩
  exact hreads.earlier id (hsound.numbered id hsome)

/-- In `a|(b`, which lacks its last bracket, what stands in the bracket is read with one bracket
open and one group opened; the call ends and leaves the bracket open for its caller to close. -/
theorem calls_disciplined_unclosed :
    Calls .standard
        [⟨.letter, some 'a', 0⟩, ⟨.bar, none, 1⟩, ⟨.openCapture, none, 2⟩, ⟨.letter, some 'b', 3⟩]
        .alternation 49 ⟨3, 1, false, 1, .empty⟩ ∧
      ∃ answer after,
        alternation .standard
          [⟨.letter, some 'a', 0⟩, ⟨.bar, none, 1⟩, ⟨.openCapture, none, 2⟩, ⟨.letter, some 'b', 3⟩]
          50 ⟨3, 1, false, 1, .empty⟩ = some (answer, after) ∧
        after.openBrackets = 1 ∧ after.insideLookahead = false := by
  have hwhole : Calls .standard
    [⟨.letter, some 'a', 0⟩, ⟨.bar, none, 1⟩, ⟨.openCapture, none, 2⟩, ⟨.letter, some 'b', 3⟩]
    .alternation 50 start := .whole
  have hsecond := (hwhole.firstBranch rfl).laterBranch rfl rfl rfl rfl
  have hinside := hsecond.firstOperand.operand.capture rfl rfl rfl (by decide)
  obtain ⟨-, -, -, -, answer, after, hrun, hbrackets, hlookahead, -⟩ :=
    (calls_disciplined _).2 _ _ _ hinside
  exact ⟨hinside, answer, after, hrun, hbrackets, hlookahead⟩

end PatternGrammar.Descent
