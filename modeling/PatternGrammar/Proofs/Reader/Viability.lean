import PatternGrammar.Proofs.Reader.Phrases

/-!
# What has been read can be completed

A reader in the midst of a pattern holds phrases of the grammar, and open brackets with phrases
before them. One more operand and a closing bracket for each open one make a sentence of that, so
tokens that a reader has taken are viable. Conversely a reader refuses sentences for their depth
only: where it refuses a token for another reason, the tokens up to that one are not viable.
-/

namespace PatternGrammar

/-- Nothing has been read of a level since the bar at the offset. -/
def Level.AtBar (level : Level) (offset : Nat) : Prop :=
  level.operands = [] ∧ level.branches.head?.map Prod.snd = some offset

/-- What has been read of a level and one more operand make an alternation. -/
theorem Level.Valid.phrase_append {limits : Limits} {inside : Bool} {level : Level}
    {last : List Lexeme}
    (hvalid : level.Valid limits inside) (hlast : Phrase inside .repetition last) :
    Phrase inside .alternation (level.lexemes ++ last) := by
  have hbranches : ∀ branch ∈ level.branches.reverse,
      Phrase inside .concatenation branch.1.expr.lexemes := by
    intro branch hmem
    have hmem := List.mem_reverse.mp hmem
    have hpart := hvalid.branches branch hmem
    exact hpart.grouped.isPhrase.2.1 (hvalid.isBranch branch hmem) inside hpart.flat hpart.bare
  have hoperands :
      ∀ part ∈ level.operands.reverse, Phrase inside .repetition part.expr.lexemes := by
    intro part hmem
    have hmem := List.mem_reverse.mp hmem
    have hpart := hvalid.operands part hmem
    exact hpart.grouped.isPhrase.1 (hvalid.isOperand part hmem) inside hpart.flat hpart.bare
  rw [Level.lexemes, List.append_assoc]
  exact .bar_flatMap hbranches (.branch (.row_flatMap hoperands (.operand hlast)))

namespace Frame

variable {limits : Limits} {inside : Bool} {body : List Lexeme}

/-- An open bracket, its body and a closing bracket are an atom where the bracket stands. -/
theorem phrase_bracket {frame : Frame} {outer : List Frame}
    (hopening : frame.opening ≠ .plain → inLookahead outer = false)
    (hbody : Phrase (inLookahead (frame :: outer)) .alternation body) :
    Phrase (inLookahead outer) .atom (frame.opening.lexeme :: (body ++ [⟨.close, none⟩])) := by
  rw [inLookahead_cons] at hbody
  cases hkind : frame.opening with
  | capture id =>
    rw [hkind] at hopening hbody
    have houter := hopening (by simp)
    rw [houter] at hbody ⊢
    exact .capture hbody
  | plain =>
    rw [hkind] at hbody
    exact .plain hbody
  | lookahead =>
    rw [hkind] at hopening hbody
    have houter := hopening (by simp)
    rw [houter] at hbody ⊢
    exact .lookahead hbody

/-- Closing all open brackets makes an alternation of what stands in the innermost one. -/
theorem AllValid.phrase_closed {frames : List Frame} (hvalid : AllValid limits frames)
    (hbody : Phrase (inLookahead frames) .alternation body) :
    Phrase false .alternation
      (lexemes frames ++ body ++ List.replicate frames.length ⟨.close, none⟩) := by
  induction frames generalizing body with
  | nil =>
    rw [lexemes, List.nil_append, List.length_nil, List.replicate_zero, List.append_nil]
    exact hbody
  | cons frame outer ih =>
    obtain ⟨hlevel, hopening, houter⟩ := hvalid
    -- The innermost bracket becomes the last operand of the level around it.
    have hclosed := ih houter (hlevel.phrase_append (.once (phrase_bracket hopening hbody)))
    rw [lexemes, List.length_cons, List.replicate_succ]
    simpa only [List.append_assoc, List.cons_append, List.nil_append] using hclosed

end Frame

namespace Reader

variable {limits : Limits} {reader next : Reader} {tokens : List Token}

/-- What a step tells of the number of groups opened and of the latest bar. -/
structure Follows (reader : Reader) (token : Token) (next : Reader) : Prop where
  /-- A group is opened exactly by the opening of a capture. -/
  opened : next.opened = reader.opened + [token].countP (·.kind = .openCapture)
  /-- If nothing was read since a bar, the token is the bar. -/
  bar : next.pending = none → ∀ offset, next.level.AtBar offset →
    token.kind = .bar ∧ token.offset = offset

/-- Every step opens what its token opens, and only a bar leaves an empty branch after a bar. -/
theorem follows_of_step {token : Token} (hstep : reader.step limits token = .ok next) :
    reader.Follows token next := by
  unfold Reader.step at hstep
  cases hpending : reader.pending with
  | some reference =>
    rw [hpending] at hstep
    obtain ⟨hclose, id, -, rfl⟩ := endReference_eq_ok.mp hstep
    refine ⟨by simp [hclose, Reader.push], fun _ _ hbar => ?_⟩
    cases hbar.1
  | none =>
    rw [hpending] at hstep
    cases hkind : token.kind with
    | openCapture =>
      rw [hkind] at hstep
      obtain ⟨-, -, -, rfl⟩ := enterCapture_eq_ok.mp hstep
      refine ⟨by simp [hkind], fun _ _ hbar => ?_⟩
      cases hbar.2
    | openPlain =>
      rw [hkind] at hstep
      obtain ⟨-, rfl⟩ := enter_eq_ok.mp hstep
      refine ⟨by simp [hkind], fun _ _ hbar => ?_⟩
      cases hbar.2
    | openLookahead =>
      rw [hkind] at hstep
      obtain ⟨-, -, rfl⟩ := enterLookahead_eq_ok.mp hstep
      refine ⟨by simp [hkind], fun _ _ hbar => ?_⟩
      cases hbar.2
    | openReference =>
      rw [hkind] at hstep
      cases hstep
      refine ⟨by simp [hkind], fun hsettled => ?_⟩
      cases hsettled
    | letter =>
      rw [hkind] at hstep
      obtain ⟨c, -, rfl⟩ := takeLetter_eq_ok.mp hstep
      refine ⟨by simp [hkind, Reader.push], fun _ _ hbar => ?_⟩
      cases hbar.1
    | bar =>
      rw [hkind] at hstep
      obtain ⟨branch, -, rfl⟩ := takeBar_eq_ok.mp hstep
      exact ⟨by simp [hkind], fun _ _ hbar => ⟨hkind, Option.some.inj hbar.2⟩⟩
    | star =>
      rw [hkind] at hstep
      obtain ⟨part, others, -, -, rfl⟩ := takeStar_eq_ok.mp hstep
      refine ⟨by simp [hkind], fun _ _ hbar => ?_⟩
      cases hbar.1
    | close =>
      rw [hkind] at hstep
      obtain ⟨body, frame, outer, -, -, -, rfl⟩ := takeClose_eq_ok.mp hstep
      refine ⟨by simp [hkind], fun _ _ hbar => ?_⟩
      cases hbar.1

/-- A run opens as many groups as its tokens open captures. -/
theorem opened_of_run (hrun : tokens.foldlM (step limits) reader = .ok next) :
    next.opened = reader.opened + tokens.countP (·.kind = .openCapture) := by
  induction tokens generalizing reader with
  | nil =>
    cases hrun
    rfl
  | cons token tokens ih =>
    rw [List.foldlM_cons] at hrun
    obtain ⟨between, hstep, hrest⟩ := bind_eq_ok.mp hrun
    have hopened := (follows_of_step hstep).opened
    rw [ih hrest, hopened, Nat.add_assoc, ← List.countP_append, List.singleton_append]

/-- A reader that has read nothing since a bar has taken that bar last. -/
theorem ends_in_bar (hrun : tokens.foldlM (step limits) start = .ok next)
    (hpending : next.pending = none) {offset : Nat} (hbar : next.level.AtBar offset) :
    ∃ front token, tokens = front ++ [token] ∧ token.kind = .bar ∧ token.offset = offset := by
  rcases List.eq_nil_or_concat' tokens with rfl | ⟨front, token, rfl⟩
  · cases hrun
    cases hbar.2
  · rw [List.foldlM_append] at hrun
    obtain ⟨between, -, hlast⟩ := bind_eq_ok.mp hrun
    rw [run_singleton] at hlast
    obtain ⟨hkind, hoffset⟩ := (follows_of_step hlast).bar hpending offset hbar
    exact ⟨front, token, rfl, hkind, hoffset⟩

/-- One more operand, which a pending reference is the start of, and a closing bracket for each open
one make an alternation of what has been read. -/
theorem Valid.phrase_completed (hvalid : reader.Valid limits) {last : List Lexeme}
    (hlast : Phrase (Frame.inLookahead reader.frames) .atom
      ((reader.pending.map Token.lexeme).toList ++ last)) :
    Phrase false .alternation
      (reader.lexemes ++ (last ++ List.replicate reader.frames.length ⟨.close, none⟩)) := by
  have hclosed := hvalid.frames.phrase_closed (hvalid.level.phrase_append (.once hlast))
  rw [Reader.lexemes]
  simpa only [List.append_assoc] using hclosed

/-- A pending reference among proper tokens has its digit. -/
theorem Valid.pending_digit (hvalid : reader.Valid limits)
    (hpropers : ∀ token ∈ tokens, token.Proper)
    (hlexemes : reader.lexemes = tokens.map Token.lexeme) {reference : Token}
    (hpending : reader.pending = some reference) :
    ∃ digit, digit.isDigit = true ∧ reference.lexeme = ⟨.openReference, some digit⟩ := by
  have hlast : reference.lexeme ∈ tokens.map Token.lexeme := by
    rw [← hlexemes, lexemes, hpending]
    simp
  obtain ⟨token, hmem, heq⟩ := List.mem_map.mp hlast
  have hkind : token.kind = .openReference :=
    (congrArg Lexeme.kind heq).trans (hvalid.pending reference hpending)
  have hproper := hpropers token hmem
  unfold Token.Proper at hproper
  rw [hkind] at hproper
  obtain ⟨digit, hpayload, hdigit⟩ := hproper
  refine ⟨digit, hdigit, ?_⟩
  rw [← heq, Token.lexeme_of_payload hkind rfl, hpayload]

/-- Proper tokens that a reader has taken are viable. -/
theorem viable_of_run (hpositive : 0 < limits.depth) (hpropers : ∀ token ∈ tokens, token.Proper)
    (hrun : tokens.foldlM (step limits) start = .ok reader) : Token.Viable limits tokens := by
  obtain ⟨hvalid, hlexemes⟩ := (valid_start limits).run hpositive hrun
  have hread : reader.lexemes = tokens.map Token.lexeme := hlexemes
  have hopened := opened_of_run hrun
  have hstart : start.opened = 0 := rfl
  have hfew := hvalid.fewGroups
  -- A letter is the next operand, unless a reference waits for its end.
  have hlast : ∃ last : Token, last.kind ≠ .openCapture ∧
      Phrase (Frame.inLookahead reader.frames) .atom
        ((reader.pending.map Token.lexeme).toList ++ [last.lexeme]) := by
    cases hpending : reader.pending with
    | none => exact ⟨⟨.letter, some 'a', 0⟩, by simp, .letter 'a'⟩
    | some reference =>
      obtain ⟨digit, hdigit, hreference⟩ := hvalid.pending_digit hpropers hread hpending
      refine ⟨⟨.close, none, 0⟩, by simp, ?_⟩
      rw [Option.map_some, hreference]
      exact .reference hdigit
  obtain ⟨last, hother, hphrase⟩ := hlast
  have hcompleted := hvalid.phrase_completed hphrase
  refine ⟨last :: List.replicate reader.frames.length ⟨.close, none, 0⟩, ?_, ?_⟩
  · rw [hread] at hcompleted
    rw [List.map_append, List.map_cons, List.map_replicate]
    exact hcompleted
  · have hcloses : (List.replicate reader.frames.length (⟨.close, none, 0⟩ : Token)).countP
        (·.kind = .openCapture) = 0 := by simp [List.countP_replicate]
    rw [List.countP_append, List.countP_cons_of_neg (by simp [hother]), hcloses]
    omega

/-- A run fails exactly if it comes to a token that is refused. -/
theorem run_eq_error {error : SyntaxError} :
    tokens.foldlM (step limits) reader = .error error ↔
      ∃ front token back between, tokens = front ++ token :: back ∧
        front.foldlM (step limits) reader = .ok between ∧
          between.step limits token = .error error := by
  constructor
  · intro hrun
    induction tokens generalizing reader with
    | nil => cases hrun
    | cons token tokens ih =>
      rw [List.foldlM_cons] at hrun
      rcases bind_eq_error.mp hrun with hstep | ⟨middle, hstep, hrest⟩
      · exact ⟨[], token, tokens, reader, rfl, rfl, hstep⟩
      · obtain ⟨front, refused, back, between, rfl, hfront, hrefused⟩ := ih hrest
        exact ⟨token :: front, refused, back, between, rfl, run_cons hstep hfront, hrefused⟩
  · rintro ⟨front, token, back, between, rfl, hfront, hstep⟩
    have hrest : (token :: back).foldlM (step limits) between = .error error := by
      rw [List.foldlM_cons]
      exact bind_eq_error.mpr (.inl hstep)
    rw [List.foldlM_append]
    exact bind_eq_error.mpr (.inr ⟨between, hfront, hrest⟩)

/-- What a reader refuses for another reason than its depth is no sentence. -/
theorem not_sentence_of_read (hpositive : 0 < limits.depth) {error : SyntaxError}
    (hread : Reader.read limits tokens = .error error)
    (hother : ∀ offset, error ≠ .tooDeep offset limits.depth) : ¬Token.Sentence limits tokens := by
  intro hsentence
  obtain ⟨root, hwritable, hlexemes⟩ := Token.sentence_iff.mp hsentence
  have hends := ends_read hpositive hwritable hlexemes
  rw [hread] at hends
  cases hends with
  | tooDeep => exact hother _ rfl

/-- Tokens up to one that a reader refuses for another reason than its depth are not viable. -/
theorem not_viable_of_step (hpositive : 0 < limits.depth) {token : Token} {error : SyntaxError}
    (hrun : tokens.foldlM (step limits) start = .ok reader)
    (hstep : reader.step limits token = .error error)
    (hother : ∀ offset, error ≠ .tooDeep offset limits.depth) :
    ¬Token.Viable limits (tokens ++ [token]) := by
  rintro ⟨rest, hsentence⟩
  have hfails : (tokens ++ [token] ++ rest).foldlM (step limits) start = .error error :=
    run_eq_error.mpr ⟨tokens, token, rest, reader, List.append_assoc .., hrun, hstep⟩
  exact not_sentence_of_read hpositive (bind_eq_error.mpr (.inl hfails)) hother hsentence

end Reader

end PatternGrammar
