import PatternGrammar.Proofs.Reader.Viability
import PatternGrammar.Proofs.Token.RoundTrip

/-!
# Where a reader refuses

A syntax error points at the first token that no pattern goes on with. What was read before that
token can be completed, and with the token it cannot; the token is known by its offset, which no
other token has. An error about a bar without an operand may also come one token late and then
points at the bar, after which the reader looked for an operand in vain.
-/

namespace PatternGrammar

/-- The offset of the token that an error refuses, where the error names it. -/
def SyntaxError.refused? : SyntaxError → Option Nat
  | .unexpectedToken _ _ offset | .trailingToken _ offset | .tooManyGroups offset _
  | .captureInLookahead offset | .nestedLookahead offset => some offset
  | .unexpectedEnd _ | .missingOperand _ | .tooDeep _ _ => none

namespace Token

/-- The token at the index, and no other one, has the offset. -/
def OnlyAt (tokens : List Token) (offset index : Nat) : Prop :=
  ∀ other, tokens[other]?.map Token.offset = some offset ↔ other = index

/-- The tokens before the index are viable, and with the one there they are not. -/
structure Breaks (limits : Limits) (tokens : List Token) (index : Nat) : Prop where
  /-- Something can follow what stands before the index. -/
  before : Viable limits (tokens.take index)
  /-- The token at the index cannot. -/
  after : ¬Viable limits (tokens.take (index + 1))

end Token

/-- The error points at what is wrong with the tokens, unless it is about their depth. -/
def SyntaxError.Pinpoints (limits : Limits) (tokens : List Token) : SyntaxError → Prop
  | .unexpectedEnd _ => Token.Viable limits tokens ∧ ¬Token.Sentence limits tokens
  | .unexpectedToken _ _ offset | .trailingToken _ offset | .tooManyGroups offset _
  | .captureInLookahead offset | .nestedLookahead offset =>
    ∃ index, Token.OnlyAt tokens offset index ∧ Token.Breaks limits tokens index
  | .missingOperand offset =>
    ∃ index, Token.OnlyAt tokens offset index ∧ tokens[index]?.map Token.kind = some .bar ∧
      (Token.Breaks limits tokens index ∨
        Token.Viable limits (tokens.take (index + 1)) ∧
          (index + 1 = tokens.length ∨ ¬Token.Viable limits (tokens.take (index + 2))))
  | .tooDeep _ _ => True

namespace Token

variable {limits : Limits} {tokens front back : List Token} {token : Token}

/-- Tokens laid out from an offset do not start before it. -/
theorem LaidOut.le_offset {offset : Nat} (hlaidOut : LaidOut offset tokens) :
    ∀ token ∈ tokens, offset ≤ token.offset := by
  induction tokens generalizing offset with
  | nil => exact nofun
  | cons first others ih =>
    obtain ⟨hfirst, hothers⟩ := hlaidOut
    refine List.forall_mem_cons.mpr ⟨Nat.le_of_eq hfirst.symm, fun token hmem => ?_⟩
    have hlater := ih hothers token hmem
    omega

/-- No two proper tokens that are laid out have the same offset. -/
theorem LaidOut.nodup {offset : Nat} (hlaidOut : LaidOut offset tokens)
    (hpropers : ∀ token ∈ tokens, token.Proper) : (tokens.map Token.offset).Nodup := by
  induction tokens generalizing offset with
  | nil => exact List.nodup_nil
  | cons first others ih =>
    obtain ⟨hfirst, hothers⟩ := hlaidOut
    obtain ⟨hproper, hrest⟩ := List.forall_mem_cons.mp hpropers
    obtain ⟨c, rest, hspelling, -⟩ := hproper.head_spelling
    have hpositive : 0 < byteLength first.spelling := by
      rw [hspelling, byteLength]
      exact Nat.add_pos_left c.utf8Size_pos _
    rw [List.map_cons, List.nodup_cons]
    refine ⟨fun hmem => ?_, ih hothers hrest⟩
    obtain ⟨token, hmem, hsame⟩ := List.mem_map.mp hmem
    have hlater := hothers.le_offset token hmem
    omega

/-- Scanned tokens are proper and have different offsets. -/
theorem proper_and_nodup {text : String} (hscan : scan text = .ok tokens) :
    (∀ token ∈ tokens, token.Proper) ∧ (tokens.map Token.offset).Nodup := by
  unfold scan at hscan
  split at hscan
  next => cases hscan
  next =>
    obtain ⟨-, hlaidOut, hpropers, -⟩ := spelled_of_scanFrom hscan
    exact ⟨hpropers, hlaidOut.nodup hpropers⟩

/-- A token stands after those before it. -/
theorem getElem?_middle (front back : List Token) (token : Token) :
    (front ++ token :: back)[front.length]? = some token := by
  rw [List.getElem?_append_right (Nat.le_refl _), Nat.sub_self, List.getElem?_cons_zero]

/-- A token in the midst of others is found by its offset if all offsets are different. -/
theorem onlyAt_append (hnodup : ((front ++ token :: back).map Token.offset).Nodup) :
    OnlyAt (front ++ token :: back) token.offset front.length := by
  intro other
  have hfound : ((front ++ token :: back).map Token.offset)[front.length]? = some token.offset := by
    rw [List.getElem?_map, getElem?_middle, Option.map_some]
  have hbound : front.length < ((front ++ token :: back).map Token.offset).length :=
    (List.getElem?_eq_some_iff.mp hfound).1
  rw [← List.getElem?_map, ← hfound, eq_comm, List.getElem?_inj hbound hnodup, eq_comm]

/-- What stands before the first impossible token is where the tokens break. -/
theorem breaks_append (hfront : Viable limits front) (htoken : ¬Viable limits (front ++ [token]))
    (back : List Token) : Breaks limits (front ++ token :: back) front.length where
  before := by rwa [List.take_left]
  after := by rwa [List.take_length_add_append, List.take_succ_cons, List.take_zero]

end Token

/-- A node is refused for its depth only. -/
theorem Limits.enclose_eq_error {limits : Limits} {depth offset : Nat} {error : SyntaxError}
    (henclose : limits.enclose depth offset = .error error) :
    error = .tooDeep offset limits.depth := by
  unfold enclose at henclose
  split at henclose
  · exact (Except.error.inj henclose).symm
  · cases henclose

/-- Parts are not joined for the depth of the node only. -/
theorem Part.join_eq_error {limits : Limits} {node : List Expr → Expr} {first : Part}
    {others : List Part}
    {error : SyntaxError} (hjoin : Part.join limits node first others = .error error) :
    ∃ offset, error = .tooDeep offset limits.depth := by
  unfold join at hjoin
  split at hjoin
  · cases hjoin
  · rcases bind_eq_error.mp hjoin with henclose | ⟨_, _, hpart⟩
    · exact ⟨_, Limits.enclose_eq_error henclose⟩
    · cases hpart

namespace Level

/-- Why a level cannot be finished. -/
inductive Unfinished (limits : Limits) (level : Level) (atStart : SyntaxError) :
    SyntaxError → Prop where
  /-- It is too deep. -/
  | tooDeep (offset : Nat) : Unfinished limits level atStart (.tooDeep offset limits.depth)
  /-- Nothing stands after its latest bar. -/
  | atBar {offset : Nat} (bar : level.AtBar offset) :
    Unfinished limits level atStart (.missingOperand offset)
  /-- Nothing stands in it. -/
  | atStart : Unfinished limits level atStart atStart

variable {limits : Limits} {level : Level} {atStart error : SyntaxError}

/-- A branch that cannot be finished. -/
theorem unfinished_of_branch (hbranch : level.branch limits atStart = .error error) :
    level.Unfinished limits atStart error := by
  unfold branch at hbranch
  split at hbranch
  next hempty =>
    have hoperands : level.operands = [] := List.reverse_eq_nil_iff.mp hempty
    cases hbranch
    unfold emptyBranch
    split
    next => exact .atStart
    next hbranches => exact .atBar ⟨hoperands, by rw [hbranches]; rfl⟩
  next =>
    obtain ⟨offset, rfl⟩ := Part.join_eq_error hbranch
    exact .tooDeep offset

/-- A level that cannot be finished. -/
theorem unfinished_of_whole (hwhole : level.whole limits atStart = .error error) :
    level.Unfinished limits atStart error := by
  unfold whole at hwhole
  rcases bind_eq_error.mp hwhole with hbranch | ⟨last, -, hjoin⟩
  · exact unfinished_of_branch hbranch
  · split at hjoin
    · cases hjoin
    · obtain ⟨offset, rfl⟩ := Part.join_eq_error hjoin
      exact .tooDeep offset

end Level

namespace Reader

/-- Why a reader refuses a token. -/
inductive Refuses (limits : Limits) (reader : Reader) (token : Token) : SyntaxError → Prop where
  /-- The tree is too deep. -/
  | tooDeep (offset : Nat) : Refuses limits reader token (.tooDeep offset limits.depth)
  /-- The token cannot stand here. -/
  | here {error : SyntaxError} (refused : error.refused? = some token.offset) :
    Refuses limits reader token error
  /-- A bar stands where a branch should start. -/
  | bar (isBar : token.kind = .bar) : Refuses limits reader token (.missingOperand token.offset)
  /-- The token ends a branch that is empty after a bar. -/
  | afterBar {offset : Nat} (settled : reader.pending = none) (bar : reader.level.AtBar offset) :
    Refuses limits reader token (.missingOperand offset)

variable {limits : Limits} {reader : Reader} {token : Token} {error : SyntaxError}

/-- A bracket is not entered for the depth only. -/
theorem enter_eq_error {opening : Opening} {offset : Nat}
    (henter : reader.enter limits opening offset = .error error) :
    error = .tooDeep offset limits.depth := by
  unfold enter at henter
  split at henter
  · exact (Except.error.inj henter).symm
  · cases henter

/-- Every refusal has one of four reasons, provided that a pending reference has its digit. -/
theorem refuses_of_step (hdigit : ∀ reference, reader.pending = some reference →
      ∃ id, groupNumber? reference = some id)
    (hstep : reader.step limits token = .error error) : reader.Refuses limits token error := by
  unfold Reader.step at hstep
  cases hpending : reader.pending with
  | some reference =>
    obtain ⟨id, hnumber⟩ := hdigit reference hpending
    simp only [hpending, endReference, hnumber] at hstep
    split at hstep
    · cases hstep
      exact .here rfl
    · cases hstep
  | none =>
    rw [hpending] at hstep
    cases hkind : token.kind with
    | openCapture =>
      simp only [hkind, enterCapture] at hstep
      split at hstep
      · cases hstep
        exact .here rfl
      · split at hstep
        · cases hstep
          exact .here rfl
        · cases enter_eq_error hstep
          exact .tooDeep token.offset
    | openPlain =>
      rw [hkind] at hstep
      cases enter_eq_error hstep
      exact .tooDeep token.offset
    | openLookahead =>
      simp only [hkind, enterLookahead] at hstep
      split at hstep
      · cases hstep
        exact .here rfl
      · cases enter_eq_error hstep
        exact .tooDeep token.offset
    | openReference =>
      rw [hkind] at hstep
      cases hstep
    | letter =>
      simp only [hkind, takeLetter] at hstep
      split at hstep
      · cases hstep
        exact .here rfl
      · cases hstep
    | bar =>
      rw [hkind] at hstep
      rcases bind_eq_error.mp hstep with hbranch | ⟨_, _, hnext⟩
      · cases Level.unfinished_of_branch hbranch with
        | tooDeep offset => exact .tooDeep offset
        | atBar hbar => exact .afterBar hpending hbar
        | atStart => exact .bar hkind
      · cases hnext
    | star =>
      simp only [hkind, takeStar] at hstep
      split at hstep
      · cases hstep
        exact .here rfl
      · rcases bind_eq_error.mp hstep with henclose | ⟨_, _, hnext⟩
        · cases Limits.enclose_eq_error henclose
          exact .tooDeep token.offset
        · cases hnext
    | close =>
      rw [hkind] at hstep
      rcases bind_eq_error.mp hstep with hwhole | ⟨body, -, hclose⟩
      · cases Level.unfinished_of_whole hwhole with
        | tooDeep offset => exact .tooDeep offset
        | atBar hbar => exact .afterBar hpending hbar
        | atStart => exact .here rfl
      · split at hclose
        · cases hclose
          exact .here rfl
        · rcases bind_eq_error.mp hclose with henclose | ⟨_, _, hnext⟩
          · cases Limits.enclose_eq_error henclose
            exact .tooDeep _
          · cases hnext

/-- Why the tokens may not end where a reader is. -/
inductive RefusesEnd (limits : Limits) (reader : Reader) : SyntaxError → Prop where
  /-- The tree is too deep. -/
  | tooDeep (offset : Nat) : RefusesEnd limits reader (.tooDeep offset limits.depth)
  /-- Something is still awaited. -/
  | early (expected : Expectation) : RefusesEnd limits reader (.unexpectedEnd expected)
  /-- A branch is empty after a bar. -/
  | afterBar {offset : Nat} (settled : reader.pending = none) (bar : reader.level.AtBar offset) :
    RefusesEnd limits reader (.missingOperand offset)

/-- Every refusal of the end has one of three reasons. -/
theorem refusesEnd_of_finish (hfinish : reader.finish limits = .error error) :
    reader.RefusesEnd limits error := by
  unfold Reader.finish at hfinish
  split at hfinish
  next =>
    cases hfinish
    exact .early .closing
  next hpending =>
    rcases bind_eq_error.mp hfinish with hwhole | ⟨whole, -, hend⟩
    · cases Level.unfinished_of_whole hwhole with
      | tooDeep offset => exact .tooDeep offset
      | atBar hbar => exact .afterBar hpending hbar
      | atStart => exact .early .atom
    · split at hend
      · cases hend
      · cases hend
        exact .early .closing

/-- Nothing that could be an operand stands after the latest bar. -/
theorem pinpoints_bar {front back : List Token} {offset : Nat}
    (hfront : front.foldlM (step limits) start = .ok reader) (hsettled : reader.pending = none)
    (hbar : reader.level.AtBar offset) (hnodup : ((front ++ back).map Token.offset).Nodup)
    (hviable : Token.Viable limits front)
    (hlast : back = [] ∨ ¬Token.Viable limits ((front ++ back).take (front.length + 1))) :
    (SyntaxError.missingOperand offset).Pinpoints limits (front ++ back) := by
  obtain ⟨before, bar, rfl, hkind, rfl⟩ := ends_in_bar hfront hsettled hbar
  rw [List.append_assoc, List.singleton_append] at hnodup hlast ⊢
  rw [List.length_append, List.length_singleton] at hlast
  refine ⟨before.length, Token.onlyAt_append hnodup, ?_, .inr ⟨?_, hlast.imp_left fun hnone => ?_⟩⟩
  · rw [Token.getElem?_middle, Option.map_some, hkind]
  · rwa [List.take_length_add_append, List.take_succ_cons, List.take_zero]
  · rw [hnone, List.length_append, List.length_singleton]

section Run

variable {tokens front back : List Token} (hpositive : 0 < limits.depth)
include hpositive

/-- Proper tokens are refused for the reasons that a reader has. -/
theorem refuses_of_run (hpropers : ∀ token ∈ front, token.Proper)
    (hfront : front.foldlM (step limits) start = .ok reader)
    (hstep : reader.step limits token = .error error) : reader.Refuses limits token error := by
  obtain ⟨hvalid, hlexemes⟩ := (valid_start limits).run hpositive hfront
  refine refuses_of_step (fun reference hpending => ?_) hstep
  obtain ⟨digit, hdigit, hlexeme⟩ := hvalid.pending_digit hpropers hlexemes hpending
  rw [Token.lexeme_of_payload (hvalid.pending reference hpending) rfl] at hlexeme
  have hpayload : reference.payload = some digit := congrArg Lexeme.payload hlexeme
  refine ⟨digit.toNat - '0'.toNat, ?_⟩
  simp only [groupNumber?, hpayload]
  exact if_pos hdigit

/-- An error at a token points at what is wrong. -/
theorem pinpoints_of_step (hpropers : ∀ other ∈ front ++ token :: back, other.Proper)
    (hnodup : ((front ++ token :: back).map Token.offset).Nodup)
    (hfront : front.foldlM (step limits) start = .ok reader)
    (hstep : reader.step limits token = .error error) :
    error.Pinpoints limits (front ++ token :: back) := by
  have hearlier : ∀ other ∈ front, other.Proper := fun other hmem =>
    hpropers other (List.mem_append_left _ hmem)
  have hviable := viable_of_run hpositive hearlier hfront
  -- If depth is not the reason, the token would be refused before whatever else.
  have hbreaks : (∀ offset, error ≠ .tooDeep offset limits.depth) →
      Token.Breaks limits (front ++ token :: back) front.length := fun hother =>
    Token.breaks_append hviable (not_viable_of_step hpositive hfront hstep hother) back
  have honly : Token.OnlyAt (front ++ token :: back) token.offset front.length :=
    Token.onlyAt_append hnodup
  cases refuses_of_run hpositive hearlier hfront hstep with
  | tooDeep offset => exact trivial
  | here hrefused =>
    cases error with
    | unexpectedEnd | missingOperand | tooDeep => cases hrefused
    | _ =>
      cases hrefused
      exact ⟨front.length, honly, hbreaks nofun⟩
  | bar hbar =>
    refine ⟨front.length, honly, ?_, .inl (hbreaks nofun)⟩
    rw [Token.getElem?_middle, Option.map_some, hbar]
  | afterBar hsettled hbar =>
    exact pinpoints_bar hfront hsettled hbar hnodup hviable (.inr (hbreaks nofun).after)

/-- An error at the end points at what is wrong. -/
theorem pinpoints_of_finish (hpropers : ∀ other ∈ tokens, other.Proper)
    (hnodup : (tokens.map Token.offset).Nodup)
    (hrun : tokens.foldlM (step limits) start = .ok reader)
    (hfinish : reader.finish limits = .error error) : error.Pinpoints limits tokens := by
  have hviable := viable_of_run hpositive hpropers hrun
  have hread : Reader.read limits tokens = .error error :=
    bind_eq_error.mpr (.inr ⟨reader, hrun, hfinish⟩)
  cases refusesEnd_of_finish hfinish with
  | tooDeep offset => exact trivial
  | early expected => exact ⟨hviable, not_sentence_of_read hpositive hread nofun⟩
  | afterBar hsettled hbar =>
    rw [← List.append_nil tokens] at hnodup ⊢
    exact pinpoints_bar hrun hsettled hbar hnodup hviable (.inl rfl)

end Run

end Reader

/-- A syntax error points at the first token that no pattern goes on with: the tokens before it can
be completed, however deep, and with it they cannot. The end is refused where the tokens can be
completed but are no pattern yet, and a bar where nothing that could be its operand stands before or
after it. -/
theorem Pattern.pinpoints_of_ofTokens {text : String} {tokens : List Token} {error : SyntaxError}
    (hscan : Token.scan text = .ok tokens) (hread : Pattern.ofTokens tokens = .error error) :
    error.Pinpoints .standard tokens := by
  obtain ⟨hpropers, hnodup⟩ := Token.proper_and_nodup hscan
  have hpositive : 0 < Limits.standard.depth := by decide
  unfold Pattern.ofTokens Reader.read at hread
  rcases bind_eq_error.mp hread with hrun | ⟨reader, hrun, hfinish⟩
  · obtain ⟨front, token, back, reader, rfl, hfront, hstep⟩ := Reader.run_eq_error.mp hrun
    exact Reader.pinpoints_of_step hpositive hpropers hnodup hfront hstep
  · exact Reader.pinpoints_of_finish hpositive hpropers hnodup hrun hfinish

/-- A capture inside a bracket inside a lookahead, after a bar. -/
theorem Pattern.pinpoints_of_ofTokens_capture :
    ∃ tokens, Token.scan "a(?=b|(?:c(d)))" = .ok tokens ∧
      Pattern.ofTokens tokens = .error (.captureInLookahead 10) ∧
      (SyntaxError.captureInLookahead 10).Pinpoints .standard tokens := by
  have hrefused : ∃ tokens, Token.scan "a(?=b|(?:c(d)))" = .ok tokens ∧
      Pattern.ofTokens tokens = .error (.captureInLookahead 10) := ⟨_, rfl, rfl⟩
  obtain ⟨tokens, hscan, hread⟩ := hrefused
  exact ⟨tokens, hscan, hread, pinpoints_of_ofTokens hscan hread⟩

end PatternGrammar
