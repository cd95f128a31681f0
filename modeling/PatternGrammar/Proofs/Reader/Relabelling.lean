import Mathlib.Data.List.Forall2
import Mathlib.Tactic.Simps.Basic
import PatternGrammar.Reader.Basic

/-!
# Offsets and idle payloads do not matter to a reader

A reader looks at the kinds of tokens and at the payloads of letters and references. Offsets it only
hands on into errors, and other payloads it does not look at. Moving all offsets by a function and
changing idle payloads as one likes therefore moves the reader along with the tokens, step by step:
the same tokens are taken, the same expressions are built, and an error blames the moved offset. A
function that moves every offset except those of the tokens shows that no error blames anything but
a token.
-/

namespace PatternGrammar

namespace SyntaxError

/-- The offset that an error blames; an early end blames none. -/
def offset? : SyntaxError → Option Nat
  | .unexpectedToken _ _ offset | .trailingToken _ offset | .missingOperand offset
  | .tooManyGroups offset _ | .captureInLookahead offset | .nestedLookahead offset
  | .tooDeep offset _ => some offset
  | .unexpectedEnd _ => none

/-- The error with the offset that it blames moved. -/
def moved (move : Nat → Nat) : SyntaxError → SyntaxError
  | .unexpectedToken expected found offset => .unexpectedToken expected found (move offset)
  | .unexpectedEnd expected => .unexpectedEnd expected
  | .trailingToken found offset => .trailingToken found (move offset)
  | .missingOperand offset => .missingOperand (move offset)
  | .tooManyGroups offset limit => .tooManyGroups (move offset) limit
  | .captureInLookahead offset => .captureInLookahead (move offset)
  | .nestedLookahead offset => .nestedLookahead (move offset)
  | .tooDeep offset limit => .tooDeep (move offset) limit

/-- A moved error blames the moved offset. -/
theorem offset?_moved (move : Nat → Nat) (error : SyntaxError) :
    (error.moved move).offset? = error.offset?.map move := by
  cases error <;> rfl

/-- A result whose value is turned into another one and whose error is moved. -/
def movedIn {α β : Type} (move : Nat → Nat) (turn : α → β) (result : Except SyntaxError α) :
    Except SyntaxError β :=
  (result.map turn).mapError (moved move)

/-- A program in two parts is moved by moving both parts. -/
theorem movedIn_bind {α β γ δ : Type} {move : Nat → Nat} {first : Except SyntaxError α}
    {rest : α → Except SyntaxError γ} {turn : α → β} {last : γ → δ}
    {others : β → Except SyntaxError δ}
    (hrest : ∀ value, others (turn value) = movedIn move last (rest value)) :
    movedIn move turn first >>= others = movedIn move last (first >>= rest) := by
  cases first with
  | ok value => exact hrest value
  | error error => rfl

end SyntaxError

open SyntaxError (movedIn movedIn_bind)

namespace Token

/-- The token with its offset moved. -/
@[simps] def moved (move : Nat → Nat) (token : Token) : Token :=
  { token with offset := move token.offset }

/-- The second token is the first one with its offset moved, up to a payload that no reader looks
at. -/
structure Relabelled (move : Nat → Nat) (token other : Token) : Prop where
  /-- The kind stays. -/
  kind : other.kind = token.kind
  /-- Letters and references keep their payload. -/
  payload : token.kind = .letter ∨ token.kind = .openReference → other.payload = token.payload
  /-- The offset is moved. -/
  offset : other.offset = move token.offset

/-- A letter or a reference is only moved. -/
theorem Relabelled.eq_moved {move : Nat → Nat} {token other : Token}
    (hother : token.Relabelled move other)
    (hkind : token.kind = .letter ∨ token.kind = .openReference) : other = token.moved move := by
  cases other
  obtain ⟨rfl, hpayload, rfl⟩ := hother
  rw [moved, ← hpayload hkind]

end Token

/-- Whether a node is allowed does not depend on the offset to blame. -/
theorem Limits.enclose_moved (limits : Limits) (move : Nat → Nat) (depth offset : Nat) :
    limits.enclose depth (move offset) = movedIn move id (limits.enclose depth offset) := by
  unfold enclose
  split <;> rfl

namespace Part

/-- The part with its offset moved. -/
@[simps] def moved (move : Nat → Nat) (part : Part) : Part :=
  { part with offset := move part.offset }

/-- Moved parts are as deep as before. -/
theorem maxDepth_moved (move : Nat → Nat) (parts : List Part) :
    maxDepth (parts.map (moved move)) = maxDepth parts := by
  induction parts with
  | nil => rfl
  | cons part rest ih => rw [List.map_cons, maxDepth, maxDepth, ih, moved_depth]

/-- Moved parts hold the same expressions. -/
theorem map_expr_moved (move : Nat → Nat) (parts : List Part) :
    (parts.map (moved move)).map Part.expr = parts.map Part.expr := by
  rw [List.map_map]
  rfl

/-- Moved parts are joined to the moved part. -/
theorem join_moved (limits : Limits) (move : Nat → Nat) (node : List Expr → Expr) (first : Part)
    (others : List Part) :
    join limits node (first.moved move) (others.map (moved move)) =
      movedIn move (moved move) (join limits node first others) := by
  cases others with
  | nil => rfl
  | cons second others =>
    have hdepth := maxDepth_moved move (first :: second :: others)
    have hexprs := map_expr_moved move (first :: second :: others)
    rw [List.map_cons, List.map_cons] at hdepth
    rw [List.map_cons (l := _ :: _), List.map_cons (l := others)] at hexprs
    rw [List.map_cons, join, join, hdepth, hexprs, moved_offset, limits.enclose_moved]
    exact movedIn_bind fun depth => rfl

end Part

namespace Level

/-- The level with all its offsets moved. -/
@[simps] def moved (move : Nat → Nat) (level : Level) : Level where
  branches := level.branches.map fun branch => (branch.1.moved move, move branch.2)
  operands := level.operands.map (Part.moved move)

/-- An empty branch of a moved level blames the moved bar. -/
theorem emptyBranch_moved (move : Nat → Nat) (level : Level) (atStart : SyntaxError) :
    (level.moved move).emptyBranch (atStart.moved move) =
      (level.emptyBranch atStart).moved move := by
  rw [emptyBranch, emptyBranch, moved_branches]
  cases level.branches <;> rfl

/-- The branch of a moved level is the moved branch. -/
theorem branch_moved (limits : Limits) (move : Nat → Nat) (level : Level) (atStart : SyntaxError) :
    (level.moved move).branch limits (atStart.moved move) =
      movedIn move (Part.moved move) (level.branch limits atStart) := by
  rw [branch, branch, emptyBranch_moved, moved_operands, ← List.map_reverse]
  cases level.operands.reverse with
  | nil => rfl
  | cons first others => exact Part.join_moved limits move .concat first others

/-- A moved level makes the moved part. -/
theorem whole_moved (limits : Limits) (move : Nat → Nat) (level : Level) (atStart : SyntaxError) :
    (level.moved move).whole limits (atStart.moved move) =
      movedIn move (Part.moved move) (level.whole limits atStart) := by
  rw [whole, whole, branch_moved]
  refine movedIn_bind fun last => ?_
  rw [moved_branches, ← List.map_reverse]
  cases level.branches.reverse with
  | nil => rfl
  | cons first others =>
    have hothers : (others.map fun branch => (branch.1.moved move, move branch.2)).map Prod.fst ++
        [last.moved move] = (others.map Prod.fst ++ [last]).map (Part.moved move) := by
      rw [List.map_append, List.map_map, List.map_map]
      rfl
    have hjoin := Part.join_moved limits move .alternation first.1 (others.map Prod.fst ++ [last])
    rwa [← hothers] at hjoin

end Level

/-- The open bracket with all its offsets moved. -/
@[simps] def Frame.moved (move : Nat → Nat) (frame : Frame) : Frame where
  opening := frame.opening
  offset := move frame.offset
  outer := frame.outer.moved move

namespace Reader

/-- The reader with all its offsets moved. -/
@[simps] def moved (move : Nat → Nat) (reader : Reader) : Reader where
  level := reader.level.moved move
  frames := reader.frames.map (Frame.moved move)
  opened := reader.opened
  captures := reader.captures
  pending := reader.pending.map (Token.moved move)

section Steps

variable (limits : Limits) (move : Nat → Nat) (reader : Reader)

/-- Moving opens no lookahead and closes none. -/
theorem insideLookahead_moved : (reader.moved move).insideLookahead = reader.insideLookahead := by
  rw [insideLookahead, insideLookahead, moved_frames, List.any_map]
  rfl

/-- A moved reader enters a bracket as it did before. -/
theorem enter_moved (opening : Opening) (offset : Nat) :
    (reader.moved move).enter limits opening (move offset) =
      movedIn move (moved move) (reader.enter limits opening offset) := by
  rw [enter, enter, moved_frames, List.length_map]
  split <;> rfl

/-- A moved reader enters a capture group under the same number. -/
theorem enterCapture_moved (offset : Nat) :
    (reader.moved move).enterCapture limits (move offset) =
      movedIn move (moved move) (reader.enterCapture limits offset) := by
  rw [enterCapture, enterCapture, insideLookahead_moved, moved_opened]
  split
  next => rfl
  next =>
    split
    next => rfl
    next => exact enter_moved limits move { reader with opened := reader.opened + 1 } _ offset

/-- A moved reader enters a lookahead as it did before. -/
theorem enterLookahead_moved (offset : Nat) :
    (reader.moved move).enterLookahead limits (move offset) =
      movedIn move (moved move) (reader.enterLookahead limits offset) := by
  rw [enterLookahead, enterLookahead, insideLookahead_moved]
  split
  next => rfl
  next => exact enter_moved limits move reader .lookahead offset

/-- A moved letter is taken as it was before. -/
theorem takeLetter_moved (token : Token) :
    (reader.moved move).takeLetter (token.moved move) =
      movedIn move (moved move) (reader.takeLetter token) := by
  rw [takeLetter, takeLetter, Token.moved_payload]
  cases token.payload <;> rfl

/-- A moved bar ends the moved branch. -/
theorem takeBar_moved (offset : Nat) :
    (reader.moved move).takeBar limits (move offset) =
      movedIn move (moved move) (reader.takeBar limits offset) := by
  have hbranch := reader.level.branch_moved limits move (.missingOperand offset)
  rw [SyntaxError.moved] at hbranch
  rw [takeBar, takeBar, moved_level, hbranch]
  exact movedIn_bind fun branch => rfl

/-- A moved star repeats the moved operand. -/
theorem takeStar_moved (offset : Nat) :
    (reader.moved move).takeStar limits (move offset) =
      movedIn move (moved move) (reader.takeStar limits offset) := by
  rw [takeStar, takeStar, moved_level, Level.moved_operands]
  cases reader.level.operands with
  | nil => rfl
  | cons part others =>
    rw [List.map_cons]
    dsimp only
    rw [Part.moved_depth, limits.enclose_moved]
    exact movedIn_bind fun depth => rfl

/-- A moved closing bracket closes the moved bracket. -/
theorem takeClose_moved (offset : Nat) :
    (reader.moved move).takeClose limits (move offset) =
      movedIn move (moved move) (reader.takeClose limits offset) := by
  have hwhole := reader.level.whole_moved limits move (.unexpectedToken .atom .close offset)
  rw [SyntaxError.moved] at hwhole
  rw [takeClose, takeClose, moved_level, hwhole]
  refine movedIn_bind fun body => ?_
  rw [moved_frames]
  cases reader.frames with
  | nil => rfl
  | cons frame outer =>
    rw [List.map_cons]
    dsimp only
    rw [Part.moved_depth, Frame.moved_offset, limits.enclose_moved]
    exact movedIn_bind fun depth => rfl

/-- A moved reference is ended by a token of the same kind. -/
theorem endReference_moved (reference : Token) {token other : Token}
    (hother : token.Relabelled move other) :
    (reader.moved move).endReference (reference.moved move) other =
      movedIn move (moved move) (reader.endReference reference token) := by
  rw [endReference, endReference, hother.kind, hother.offset]
  split
  next => rfl
  next =>
    rw [groupNumber?, Token.moved_payload, ← groupNumber?]
    cases groupNumber? reference <;> rfl

/-- A moved reader does with a relabelled token what it did with the token. -/
theorem step_moved {token other : Token} (hother : token.Relabelled move other) :
    (reader.moved move).step limits other =
      movedIn move (moved move) (reader.step limits token) := by
  rw [step, step, moved_pending]
  cases reader.pending with
  | some reference => exact endReference_moved move reader reference hother
  | none =>
    dsimp only [Option.map_none]
    rw [hother.kind, hother.offset]
    cases hkind : token.kind with
    | openCapture => exact enterCapture_moved limits move reader token.offset
    | openPlain => exact enter_moved limits move reader .plain token.offset
    | openLookahead => exact enterLookahead_moved limits move reader token.offset
    | openReference =>
      rw [hother.eq_moved (.inr hkind)]
      rfl
    | letter =>
      rw [hother.eq_moved (.inl hkind)]
      exact takeLetter_moved move reader token
    | bar => exact takeBar_moved limits move reader token.offset
    | star => exact takeStar_moved limits move reader token.offset
    | close => exact takeClose_moved limits move reader token.offset

/-- A moved reader goes along with relabelled tokens. -/
theorem run_moved {tokens others : List Token}
    (hothers : List.Forall₂ (Token.Relabelled move) tokens others) :
    others.foldlM (step limits) (reader.moved move) =
      movedIn move (moved move) (tokens.foldlM (step limits) reader) := by
  induction hothers generalizing reader with
  | nil => rfl
  | cons hother _ ih =>
    rw [List.foldlM_cons, List.foldlM_cons, step_moved limits move reader hother]
    exact movedIn_bind ih

/-- Where the tokens end, a moved reader has read the same pattern. -/
theorem finish_moved :
    (reader.moved move).finish limits = movedIn move id (reader.finish limits) := by
  have hwhole := reader.level.whole_moved limits move (.unexpectedEnd .atom)
  rw [SyntaxError.moved] at hwhole
  rw [finish, finish, moved_pending]
  cases reader.pending with
  | some reference => rfl
  | none =>
    dsimp only [Option.map_none]
    rw [moved_level, hwhole, moved_frames, List.isEmpty_map]
    refine movedIn_bind fun whole => ?_
    split <;> rfl

end Steps

/-- Relabelled tokens spell the same pattern, or are refused with the moved error. -/
theorem read_relabelled (limits : Limits) {move : Nat → Nat} {tokens others : List Token}
    (hothers : List.Forall₂ (Token.Relabelled move) tokens others) :
    read limits others = (read limits tokens).mapError (SyntaxError.moved move) := by
  have hrun : others.foldlM (step limits) start =
      movedIn move (moved move) (tokens.foldlM (step limits) start) :=
    run_moved limits move start hothers
  have hread : read limits others = movedIn move id (read limits tokens) := by
    rw [read, hrun]
    exact movedIn_bind (finish_moved limits move)
  rw [hread, movedIn, Except.map_id, id]

/-- An error blames the offset of one of the tokens. -/
theorem exists_token_of_read {limits : Limits} {tokens : List Token} {error : SyntaxError}
    {offset : Nat}
    (hread : read limits tokens = .error error) (hoffset : error.offset? = some offset) :
    ∃ token ∈ tokens, token.offset = offset := by
  by_contra hforeign
  -- The tokens do not change if only other offsets are moved, so neither does the error.
  let move (place : Nat) : Nat :=
    if ∃ token ∈ tokens, token.offset = place then place else place + 1
  have hsame : List.Forall₂ (Token.Relabelled move) tokens tokens := by
    refine List.forall₂_same.mpr fun token hmem => ⟨rfl, fun _ => rfl, ?_⟩
    exact (if_pos ⟨token, hmem, rfl⟩).symm
  have herror := read_relabelled limits hsame
  rw [hread] at herror
  have hmoved := congrArg SyntaxError.offset? (Except.error.inj herror)
  rw [SyntaxError.offset?_moved, hoffset, Option.map_some, Option.some.injEq] at hmoved
  have hplace : move offset = offset + 1 := if_neg hforeign
  omega

end Reader

namespace Pattern

/-- Tokens with moved offsets and other idle payloads spell the same pattern with the same captures,
or are refused with the moved error. So every offset in an error is that of a token, and zero is
reported only where a token has it. -/
theorem ofTokens_relabelled (tokens : List Token) :
    (∀ move others, List.Forall₂ (Token.Relabelled move) tokens others →
      ofTokens others = (ofTokens tokens).mapError (SyntaxError.moved move)) ∧
    (∀ error offset, ofTokens tokens = .error error → error.offset? = some offset →
      ∃ token ∈ tokens, token.offset = offset) ∧
    ((∀ token ∈ tokens, token.offset ≠ 0) →
      ∀ error, ofTokens tokens = .error error → error.offset? ≠ some 0) := by
  refine ⟨?relabelled, ?blamed, ?nonzero⟩
  case relabelled =>
    intro move others hothers
    exact Reader.read_relabelled .standard hothers
  case blamed =>
    intro error offset herror hoffset
    exact Reader.exists_token_of_read herror hoffset
  case nonzero =>
    intro hnonzero error herror hoffset
    obtain ⟨token, hmem, hzero⟩ := Reader.exists_token_of_read herror hoffset
    exact hnonzero token hmem hzero

/-- A bar without its right operand among tokens with repeated offsets and payloads that nobody
asked for. -/
theorem ofTokens_relabelled_repeated :
    ofTokens [⟨.openCapture, some 'x', 7⟩, ⟨.letter, some 'a', 7⟩, ⟨.bar, none, 3⟩,
      ⟨.close, some 'y', 3⟩] = .error (.missingOperand 3) ∧
      ofTokens [⟨.openCapture, none, 1⟩, ⟨.letter, some 'a', 1⟩, ⟨.bar, some 'z', 9⟩,
        ⟨.close, none, 9⟩] = .error (.missingOperand 9) := by
  obtain ⟨hrelabelled, -, -⟩ := ofTokens_relabelled
    [⟨.openCapture, some 'x', 7⟩, ⟨.letter, some 'a', 7⟩, ⟨.bar, none, 3⟩, ⟨.close, some 'y', 3⟩]
  refine ⟨rfl, hrelabelled (fun place => if place = 3 then 9 else 1) _ ?_⟩
  exact .cons ⟨rfl, by decide, rfl⟩ (.cons ⟨rfl, by decide, rfl⟩
    (.cons ⟨rfl, by decide, rfl⟩ (.cons ⟨rfl, by decide, rfl⟩ .nil)))

end Pattern

end PatternGrammar
