import PatternGrammar.Proofs.Reader.TooDeep
import PatternGrammar.Proofs.Reader.Written

/-!
# Reading an expression from its tokens

A reader meets the tokens of an expression which may stand where the reader is, but for the limit on
depth. It takes them all and holds the expression afterwards: as its latest operand, as the branch
being read or as its whole level, depending on how tightly the expression binds. Or it refuses one
of them for the depth of the tree, and for nothing else; the refusal comes when a bracket is entered
or when an expression is finished, and names a place of the tree that is to blame.
-/

namespace PatternGrammar

/-- A bare expression has no lookaheads to look into. -/
theorem Expr.Bare.flatLookaheads {expr : Expr} (hbare : expr.Bare) : expr.FlatLookaheads := by
  induction hbare with
  | char c => exact .char c
  | concat _ ih => exact .concat ih
  | alternation _ ih => exact .alternation ih
  | star _ ih => exact .star ih
  | plain _ ih => exact .plain ih
  | reference id => exact .reference id

/-- Numbers that follow each other do so in both parts of a list. -/
theorem numbered_append {front back : List Nat} {start : Nat}
    (hnumbered : front ++ back = List.range' start (front ++ back).length) :
    front = List.range' start front.length ∧
      back = List.range' (start + front.length) back.length := by
  rw [List.length_append, ← List.range'_append_1] at hnumbered
  exact List.append_inj hnumbered (by rw [List.length_range'])

/-- The group numbers of a bracket and its body. -/
theorem Opening.captureIds_around (opening : Opening) (body : Expr) :
    (opening.around body).captureIds = opening.ids ++ body.captureIds := by
  cases opening <;> rfl

/-- A result is as described or a refusal for depth at an offset as described. -/
inductive Ends (limits : Limits) {α : Type} (done : α → Prop) (blamed : Nat → Prop) :
    Except SyntaxError α → Prop where
  /-- There is a value. -/
  | done {value : α} (holds : done value) : Ends limits done blamed (.ok value)
  /-- The limit on depth is exceeded. -/
  | tooDeep {offset : Nat} (blame : blamed offset) :
    Ends limits done blamed (.error (.tooDeep offset limits.depth))

section Ends

variable {limits : Limits} {α β : Type} {done : α → Prop} {blamed : Nat → Prop}

/-- A program in two parts ends as its second part does, or its first part is refused. -/
theorem Ends.bind {first : Except SyntaxError α} {rest : α → Except SyntaxError β}
    {after : β → Prop} (hfirst : Ends limits done blamed first)
    (hrest : ∀ value, done value → Ends limits after blamed (rest value)) :
    Ends limits after blamed (first >>= rest) := by
  cases hfirst with
  | done holds => exact hrest _ holds
  | tooDeep blame => exact .tooDeep blame

/-- An end may be described in weaker words. -/
theorem Ends.imp {result : Except SyntaxError α} {after : α → Prop} {other : Nat → Prop}
    (hends : Ends limits done blamed result) (hdone : ∀ value, done value → after value)
    (hblamed : ∀ offset, blamed offset → other offset) : Ends limits after other result := by
  cases hends with
  | done holds => exact .done (hdone _ holds)
  | tooDeep blame => exact .tooDeep (hblamed _ blame)

/-- A node around a tree within the limit is allowed or is one level too deep. -/
theorem Limits.ends_enclose {depth offset : Nat} (hshallow : depth ≤ limits.depth)
    (hblamed : depth + 1 = limits.depth + 1 → blamed offset) :
    Ends limits (fun around => around = depth + 1 ∧ depth + 1 ≤ limits.depth) blamed
      (limits.enclose depth offset) := by
  unfold enclose
  split
  next hdeep => exact .tooDeep (hblamed (by omega))
  next hbelow => exact .done ⟨rfl, by omega⟩

/-- Several parts with their true depths within the limit are joined, or the node around them is one
level too deep. -/
theorem Part.ends_join (node : List Expr → Expr) {first : Part} {others : List Part}
    (hothers : others ≠ []) (hdepths : ∀ part ∈ first :: others, part.depth = part.expr.depth)
    (hshallow : Expr.listDepth ((first :: others).map Part.expr) ≤ limits.depth)
    (hblamed : Expr.listDepth ((first :: others).map Part.expr) + 1 = limits.depth + 1 →
      blamed first.offset) :
    Ends limits (fun part =>
        Expr.listDepth ((first :: others).map Part.expr) + 1 ≤ limits.depth ∧
        part = ⟨node ((first :: others).map Part.expr),
          Expr.listDepth ((first :: others).map Part.expr) + 1, first.offset⟩)
      blamed (Part.join limits node first others) := by
  obtain ⟨second, rest, rfl⟩ := List.exists_cons_of_ne_nil hothers
  rw [← Part.maxDepth_eq hdepths] at hshallow hblamed ⊢
  exact (Limits.ends_enclose hshallow hblamed).bind fun around ⟨haround, hbelow⟩ =>
    .done ⟨hbelow, by rw [haround]⟩

end Ends

namespace Reader

variable {limits : Limits} {reader : Reader}

/-- The reader with another level, so many more groups opened and another table. -/
def resumed (reader : Reader) (level : Level) (count : Nat) (captures : CaptureTable) : Reader :=
  { reader with level := level, opened := reader.opened + count, captures := captures }

/-- Only the last level and table count, and the numbers of groups add up. -/
theorem resumed_resumed (reader : Reader) (first second : Level) (count more : Nat)
    (between after : CaptureTable) :
    (reader.resumed first count between).resumed second more after =
      reader.resumed second (count + more) after := by
  simp only [resumed, Nat.add_assoc]

/-- The expressions may be written next, one after another. -/
structure Admits (limits : Limits) (reader : Reader) (exprs : List Expr) : Prop where
  /-- No reference waits for its end. -/
  pending : reader.pending = none
  /-- The open brackets leave enough levels. -/
  shallow : reader.frames.length + Expr.listDepth exprs ≤ limits.depth
  /-- Operations are nested by precedence. -/
  grouped : ∀ expr ∈ exprs, expr.Grouped
  /-- Nothing is captured or looked ahead for inside a lookahead. -/
  flat : ∀ expr ∈ exprs, expr.FlatLookaheads
  /-- Nothing is captured or looked ahead for if a lookahead is open. -/
  bare : reader.insideLookahead = true → ∀ expr ∈ exprs, expr.Bare
  /-- Captures go on with the next number. -/
  numbered : exprs.flatMap Expr.captureIds =
    List.range' (reader.opened + 1) (exprs.flatMap Expr.captureIds).length
  /-- There are enough numbers left. -/
  fewGroups : reader.opened + (exprs.flatMap Expr.captureIds).length ≤ limits.groups

/-- The first expressions of a list may be written if all may. -/
theorem Admits.append_left {front back : List Expr}
    (hadmits : reader.Admits limits (front ++ back)) : reader.Admits limits front where
  pending := hadmits.pending
  shallow := by
    have hshallow := hadmits.shallow
    rw [Expr.listDepth_append] at hshallow
    omega
  grouped := fun expr hmem => hadmits.grouped expr (List.mem_append_left _ hmem)
  flat := fun expr hmem => hadmits.flat expr (List.mem_append_left _ hmem)
  bare := fun hinside expr hmem => hadmits.bare hinside expr (List.mem_append_left _ hmem)
  numbered := by
    have hnumbered := hadmits.numbered
    rw [List.flatMap_append] at hnumbered
    exact (numbered_append hnumbered).1
  fewGroups := by
    have hfew := hadmits.fewGroups
    rw [List.flatMap_append, List.length_append] at hfew
    omega

/-- The last expressions of a list may be written once the first have been read. -/
theorem Admits.append_right {front back : List Expr}
    (hadmits : reader.Admits limits (front ++ back)) (level : Level) (captures : CaptureTable) :
    (reader.resumed level (front.flatMap Expr.captureIds).length captures).Admits limits back where
  pending := hadmits.pending
  shallow := by
    have hshallow := hadmits.shallow
    rw [Expr.listDepth_append] at hshallow
    simp only [resumed]
    omega
  grouped := fun expr hmem => hadmits.grouped expr (List.mem_append_right _ hmem)
  flat := fun expr hmem => hadmits.flat expr (List.mem_append_right _ hmem)
  bare := fun hinside expr hmem => hadmits.bare hinside expr (List.mem_append_right _ hmem)
  numbered := by
    have hnumbered := hadmits.numbered
    rw [List.flatMap_append] at hnumbered
    have hback := (numbered_append hnumbered).2
    rwa [Nat.add_right_comm] at hback
  fewGroups := by
    have hfew := hadmits.fewGroups
    rw [List.flatMap_append, List.length_append] at hfew
    simp only [resumed]
    omega

/-- What an expression is made of may be written if the expression may. -/
theorem Admits.of_parts {expr : Expr} {parts : List Expr} (hadmits : reader.Admits limits [expr])
    (hdepth : expr.depth = Expr.listDepth parts + 1)
    (hgrouped : expr.Grouped → ∀ part ∈ parts, part.Grouped)
    (hflat : expr.FlatLookaheads → ∀ part ∈ parts, part.FlatLookaheads)
    (hbare : expr.Bare → ∀ part ∈ parts, part.Bare)
    (hids : expr.captureIds = parts.flatMap Expr.captureIds) : reader.Admits limits parts where
  pending := hadmits.pending
  shallow := by
    have hshallow := hadmits.shallow
    simp only [Expr.listDepth, hdepth] at hshallow
    omega
  grouped := hgrouped (hadmits.grouped expr List.mem_cons_self)
  flat := hflat (hadmits.flat expr List.mem_cons_self)
  bare := fun hinside => hbare (hadmits.bare hinside expr List.mem_cons_self)
  numbered := by
    have hnumbered := hadmits.numbered
    rwa [List.flatMap_singleton, hids] at hnumbered
  fewGroups := by
    have hfew := hadmits.fewGroups
    rwa [List.flatMap_singleton, hids] at hfew

/-- The operands of a row may be written if the row may. -/
theorem Admits.concat {operands : List Expr} (hadmits : reader.Admits limits [.concat operands]) :
    reader.Admits limits operands := by
  refine hadmits.of_parts rfl (fun hgrouped => ?_) (fun hflat => ?_) (fun hbare => ?_)
    (Expr.listCaptureIds_eq operands)
  · cases hgrouped with | concat _ _ hoperands => exact hoperands
  · cases hflat with | concat hoperands => exact hoperands
  · cases hbare with | concat hoperands => exact hoperands

/-- The branches of an alternation may be written if the alternation may. -/
theorem Admits.alternation {operands : List Expr}
    (hadmits : reader.Admits limits [.alternation operands]) : reader.Admits limits operands := by
  refine hadmits.of_parts rfl (fun hgrouped => ?_) (fun hflat => ?_) (fun hbare => ?_)
    (Expr.listCaptureIds_eq operands)
  · cases hgrouped with | alternation _ _ hoperands => exact hoperands
  · cases hflat with | alternation hoperands => exact hoperands
  · cases hbare with | alternation hoperands => exact hoperands

/-- The body of a repetition may be written if the repetition may. -/
theorem Admits.star {body : Expr} (hadmits : reader.Admits limits [.star body]) :
    reader.Admits limits [body] := by
  refine hadmits.of_parts ?_ (fun hgrouped => ?_) (fun hflat => ?_) (fun hbare => ?_) ?_
  · simp only [Expr.depth, Expr.listDepth, Nat.max_zero]
  · cases hgrouped with | star _ hbody => exact List.forall_mem_singleton.mpr hbody
  · cases hflat with | star hbody => exact List.forall_mem_singleton.mpr hbody
  · cases hbare with | star hbody => exact List.forall_mem_singleton.mpr hbody
  · rw [List.flatMap_singleton, Expr.captureIds]

/-- The reader inside a bracket that it has just entered. -/
def entered (reader : Reader) (opening : Opening) (offset : Nat) : Reader :=
  { reader with
    level := .empty
    opened := reader.opened + opening.ids.length
    frames := ⟨opening, offset, reader.level⟩ :: reader.frames }

/-- The body of a bracket may be written inside the bracket if the bracket may be written. -/
theorem Admits.around {opening : Opening} {body : Expr}
    (hadmits : reader.Admits limits [opening.around body]) (offset : Nat) :
    (reader.entered opening offset).Admits limits [body] where
  pending := hadmits.pending
  shallow := by
    have hshallow := hadmits.shallow
    simp only [Expr.listDepth, Opening.depth_around] at hshallow
    simp only [entered, List.length_cons, Expr.listDepth]
    omega
  grouped := by
    have hgrouped := hadmits.grouped _ List.mem_cons_self
    rw [List.forall_mem_singleton]
    cases opening with
    | capture id => cases hgrouped with | capture hbody => exact hbody
    | plain => cases hgrouped with | plain hbody => exact hbody
    | lookahead => cases hgrouped with | lookahead hbody => exact hbody
  flat := by
    have hflat := hadmits.flat _ List.mem_cons_self
    rw [List.forall_mem_singleton]
    cases opening with
    | capture id => cases hflat with | capture hbody => exact hbody
    | plain => cases hflat with | plain hbody => exact hbody
    | lookahead => cases hflat with | lookahead hbody => exact hbody.flatLookaheads
  bare := by
    intro hinside
    rw [List.forall_mem_singleton]
    cases opening with
    | capture id => cases hadmits.bare hinside _ List.mem_cons_self
    | plain => cases hadmits.bare hinside _ List.mem_cons_self with | plain hbody => exact hbody
    | lookahead =>
      cases hadmits.flat _ List.mem_cons_self with | lookahead hbody => exact hbody
  numbered := by
    have hnumbered := hadmits.numbered
    rw [List.flatMap_singleton, Opening.captureIds_around] at hnumbered
    have hbody := (numbered_append hnumbered).2
    rwa [Nat.add_right_comm, ← List.flatMap_singleton Expr.captureIds body] at hbody
  fewGroups := by
    have hfew := hadmits.fewGroups
    rw [List.flatMap_singleton, Opening.captureIds_around, List.length_append] at hfew
    rw [List.flatMap_singleton]
    simp only [entered]
    omega

/-- A step and the run after it. -/
theorem run_cons {token : Token} {tokens : List Token} {between next : Reader}
    (hstep : reader.step limits token = .ok between)
    (hrun : tokens.foldlM (step limits) between = .ok next) :
    (token :: tokens).foldlM (step limits) reader = .ok next := by
  rw [List.foldlM_cons]
  exact bind_eq_ok.mpr ⟨between, hstep, hrun⟩

/-- A bracket that may be written but for the depth of its body is entered unless too many are
open. -/
theorem Admits.step_opening {opening : Opening} {body : Expr} {token : Token} {depth : Nat}
    (hadmits : reader.Admits { limits with depth := depth } [opening.around body])
    (hlexeme : token.lexeme = opening.lexeme) :
    reader.step limits token =
      if limits.depth ≤ reader.frames.length then .error (.tooDeep token.offset limits.depth)
      else .ok (reader.entered opening token.offset) := by
  have hkind : token.kind = opening.lexeme.kind := congrArg Lexeme.kind hlexeme
  have houtside : opening ≠ .plain → reader.insideLookahead = false := by
    intro hother
    refine eq_false_of_ne_true fun hinside => ?_
    have hbare := hadmits.bare hinside _ List.mem_cons_self
    cases opening with
    | plain => exact hother rfl
    | capture id => cases hbare
    | lookahead => cases hbare
  unfold step
  simp only [hadmits.pending, hkind]
  cases opening with
  | capture id =>
    have hnumbered := hadmits.numbered
    have hfew := hadmits.fewGroups
    rw [List.flatMap_singleton, Opening.captureIds_around] at hnumbered hfew
    have hid : [id] = [reader.opened + 1] := (numbered_append hnumbered).1
    cases hid
    simp only [Opening.ids, List.length_append, List.length_singleton] at hfew
    have hinside : ¬reader.insideLookahead = true := by simp [houtside (by simp)]
    simp only [Opening.lexeme, enterCapture, if_neg hinside,
      if_neg (show ¬limits.groups ≤ reader.opened by omega)]
    rfl
  | plain => rfl
  | lookahead =>
    have hinside : ¬reader.insideLookahead = true := by simp [houtside (by simp)]
    simp only [Opening.lexeme, enterLookahead, if_neg hinside]
    rfl

/-- One token is one step. -/
theorem run_singleton (limits : Limits) (reader : Reader) (token : Token) :
    [token].foldlM (step limits) reader = reader.step limits token := by
  rw [List.foldlM_cons]
  exact bind_pure _

/-- A finished expression is the given one, at the offset of its first token, or is too deep. -/
def Yields (limits : Limits) (outer : Nat) (expr : Expr) (tokens : List Token)
    (result : Except SyntaxError Part) : Prop :=
  Ends limits (fun part => expr.depth ≤ limits.depth ∧
      ∃ offset, Token.StartsAt tokens offset ∧ part = ⟨expr, expr.depth, offset⟩)
    (expr.TooDeepAt limits.depth outer tokens) result

/-- The tokens of the expression become the latest operand of the reader, or something is too
deep. -/
def ReadsOperand (limits : Limits) (expr : Expr) : Prop :=
  ∀ (depth : Nat) (reader : Reader) (tokens : List Token),
    reader.Admits { limits with depth := depth } [expr] → reader.frames.length ≤ limits.depth →
    tokens.map Token.lexeme = expr.lexemes →
      Ends limits (fun next => expr.depth ≤ limits.depth ∧ ∃ offset captures,
          Token.StartsAt tokens offset ∧
          next = reader.resumed (reader.level.push ⟨expr, expr.depth, offset⟩)
            expr.captureIds.length captures)
        (expr.TooDeepAt limits.depth reader.frames.length tokens)
        (tokens.foldlM (step limits) reader)

/-- The tokens of the expression become the branch that the reader is at the start of, or something
is too deep, at the latest when the branch is finished. -/
def ReadsBranch (limits : Limits) (expr : Expr) : Prop :=
  ∀ (depth : Nat) (reader : Reader) (tokens : List Token),
    reader.Admits { limits with depth := depth } [expr] → reader.frames.length ≤ limits.depth →
    reader.level.operands = [] → tokens.map Token.lexeme = expr.lexemes →
      Ends limits (fun next => ∃ operands captures,
          next = reader.resumed ⟨reader.level.branches, operands⟩ expr.captureIds.length captures ∧
          ∀ branches atStart, Yields limits reader.frames.length expr tokens
            (Level.branch limits ⟨branches, operands⟩ atStart))
        (expr.TooDeepAt limits.depth reader.frames.length tokens)
        (tokens.foldlM (step limits) reader)

/-- The tokens of the expression become the level that the reader is at the start of, or something
is too deep, at the latest when the level is finished. -/
def ReadsLevel (limits : Limits) (expr : Expr) : Prop :=
  ∀ (depth : Nat) (reader : Reader) (tokens : List Token),
    reader.Admits { limits with depth := depth } [expr] → reader.frames.length ≤ limits.depth →
    reader.level = .empty → tokens.map Token.lexeme = expr.lexemes →
      Ends limits (fun next => ∃ level captures,
          next = reader.resumed level expr.captureIds.length captures ∧
          ∀ atStart, Yields limits reader.frames.length expr tokens (level.whole limits atStart))
        (expr.TooDeepAt limits.depth reader.frames.length tokens)
        (tokens.foldlM (step limits) reader)

/-- A single operand is the branch. -/
theorem ReadsOperand.readsBranch {expr : Expr} (hreads : ReadsOperand limits expr) :
    ReadsBranch limits expr := by
  intro depth reader tokens hadmits hopen hempty hlexemes
  refine (hreads depth reader tokens hadmits hopen hlexemes).imp ?_ fun _ hdeep => hdeep
  rintro _ ⟨hshallow, offset, captures, hstarts, rfl⟩
  refine ⟨[⟨expr, expr.depth, offset⟩], captures, ?_, fun _ _ => ?_⟩
  · rw [Level.push, hempty]
  · exact .done ⟨hshallow, offset, hstarts, rfl⟩

/-- A single branch is the level. -/
theorem ReadsBranch.readsLevel {expr : Expr} (hreads : ReadsBranch limits expr) :
    ReadsLevel limits expr := by
  intro depth reader tokens hadmits hopen hempty hlexemes
  have hoperands : reader.level.operands = [] := by rw [hempty, Level.empty]
  have hbranches : reader.level.branches = [] := by rw [hempty, Level.empty]
  refine (hreads depth reader tokens hadmits hopen hoperands hlexemes).imp ?_ fun _ hdeep => hdeep
  rintro _ ⟨operands, captures, rfl, hyields⟩
  rw [hbranches]
  exact ⟨_, captures, rfl, fun atStart => (hyields [] atStart).bind fun _ hpart => .done hpart⟩

/-- A letter is an operand. -/
theorem readsOperand_char (hpositive : 0 < limits.depth) (c : Char) :
    ReadsOperand limits (.char c) := by
  intro depth reader tokens hadmits hopen hlexemes
  obtain ⟨token, rfl, hlexeme⟩ := List.map_eq_singleton_iff.mp hlexemes
  have hkind : token.kind = .letter := congrArg Lexeme.kind hlexeme
  rw [Token.lexeme_of_payload hkind rfl] at hlexeme
  have hpayload : token.payload = some c := congrArg Lexeme.payload hlexeme
  have hstep : reader.step limits token =
      .ok (reader.resumed (reader.level.push ⟨.char c, 1, token.offset⟩) 0 reader.captures) := by
    simp only [step, hadmits.pending, hkind]
    exact takeLetter_eq_ok.mpr ⟨c, hpayload, rfl⟩
  rw [run_singleton, hstep]
  exact .done ⟨hpositive, token.offset, reader.captures, ⟨token, [], rfl, rfl⟩, rfl⟩

/-- A reference is an operand. -/
theorem readsOperand_reference (hpositive : 0 < limits.depth) (id : Nat) :
    ReadsOperand limits (.reference id) := by
  intro depth reader tokens hadmits hopen hlexemes
  obtain ⟨reference, others, rfl, hreference, hothers⟩ := List.map_eq_cons_iff.mp hlexemes
  obtain ⟨closing, rfl, hclosing⟩ := List.map_eq_singleton_iff.mp hothers
  have hkind : reference.kind = .openReference := congrArg Lexeme.kind hreference
  have hclose : closing.kind = .close := congrArg Lexeme.kind hclosing
  rw [Token.lexeme_of_payload hkind rfl] at hreference
  have hpayload : reference.payload = some (groupDigit id) := congrArg Lexeme.payload hreference
  have hdigit : id ≤ 9 := by
    cases hadmits.grouped _ List.mem_cons_self with | reference hdigit => exact hdigit
  have hopening : reader.step limits reference = .ok { reader with pending := some reference } := by
    simp only [step, hadmits.pending, hkind]
  have hend : step limits { reader with pending := some reference } closing =
      .ok (reader.resumed (reader.level.push ⟨.reference id, 1, reference.offset⟩) 0
        reader.captures) := by
    refine endReference_eq_ok.mpr ⟨hclose, id, groupNumber?_eq_some.mpr ⟨hdigit, hpayload⟩, ?_⟩
    simp only [resumed, push, hadmits.pending, Nat.add_zero]
  rw [run_cons hopening (run_cons hend rfl)]
  exact .done ⟨hpositive, reference.offset, reader.captures, ⟨reference, [closing], rfl, rfl⟩, rfl⟩

/-- A repetition is an operand if its body is one. -/
theorem ReadsOperand.star {body : Expr} (hreads : ReadsOperand limits body) :
    ReadsOperand limits (.star body) := by
  intro depth reader tokens hadmits hopen hlexemes
  rw [Expr.lexemes] at hlexemes
  obtain ⟨inner, last, rfl, hinner, hlast⟩ := List.map_eq_append_iff.mp hlexemes
  obtain ⟨token, rfl, hlexeme⟩ := List.map_eq_singleton_iff.mp hlast
  have hkind : token.kind = .star := congrArg Lexeme.kind hlexeme
  have hlength : inner.length = body.lexemes.length := by rw [← hinner, List.length_map]
  have hbody := hreads depth reader inner hadmits.star hopen hinner
  rw [List.foldlM_append]
  refine (hbody.imp (fun _ hdone => hdone) fun offset hdeep => ?_).bind ?_
  · refine hdeep.embed 0 [] [token] fun _ _ _ hplaces => ?_
    rw [List.length_nil, Nat.zero_add]
    exact .star hplaces
  rintro _ ⟨hshallow, offset, captures, hstarts, rfl⟩
  rw [run_singleton]
  simp only [step, resumed, hadmits.pending, hkind, takeStar, Level.push]
  refine (Limits.ends_enclose hshallow fun hdeep => ?_).bind ?_
  · refine .star (.here _) hdeep ?_
    rw [Nat.zero_add, ← hlength, List.getElem?_concat_length]
  · rintro _ ⟨rfl, hbelow⟩
    exact .done ⟨hbelow, offset, captures, hstarts.append _, rfl⟩

/-- A bracket is an operand, whatever its body. -/
theorem ReadsLevel.around {body : Expr} (hreads : ReadsLevel limits body) (opening : Opening) :
    ReadsOperand limits (opening.around body) := by
  intro depth reader tokens hadmits hopen hlexemes
  rw [Opening.lexemes_around] at hlexemes
  obtain ⟨token, others, rfl, hopening, hothers⟩ := List.map_eq_cons_iff.mp hlexemes
  obtain ⟨inner, last, rfl, hinner, hlast⟩ := List.map_eq_append_iff.mp hothers
  obtain ⟨closing, rfl, hclosing⟩ := List.map_eq_singleton_iff.mp hlast
  have hkind : closing.kind = .close := congrArg Lexeme.kind hclosing
  have hstarts : Token.StartsAt (token :: (inner ++ [closing])) token.offset := ⟨token, _, rfl, rfl⟩
  have hentered := hadmits.around token.offset
  rw [List.foldlM_cons, hadmits.step_opening hopening]
  split
  next hfull => exact .tooDeep (.opening (.here _) (by omega) rfl)
  next hroom =>
    have hinside : (reader.entered opening token.offset).frames.length ≤ limits.depth := by
      simp only [entered, List.length_cons]
      omega
    have hbody :=
      hreads depth (reader.entered opening token.offset) inner hentered hinside rfl hinner
    show Ends limits _ _
      ((inner ++ [closing]).foldlM (step limits) (reader.entered opening token.offset))
    -- What is too deep in the body is too deep in the bracket, one token later and one bracket
    -- further in.
    have hembed : ∀ offset, body.TooDeepAt limits.depth (reader.frames.length + 1) inner offset →
        (opening.around body).TooDeepAt limits.depth reader.frames.length
          (token :: (inner ++ [closing])) offset :=
      fun offset hdeep => hdeep.embed 1 [token] [closing] fun _ _ _ hplaces =>
        hplaces.around opening
    rw [List.foldlM_append]
    refine (hbody.imp (fun _ hdone => hdone) hembed).bind ?_
    rintro _ ⟨level, captures, rfl, hyields⟩
    rw [run_singleton]
    simp only [step, resumed, hentered.pending, hkind, takeClose]
    refine ((hyields _).imp (fun _ hdone => hdone) hembed).bind ?_
    rintro _ ⟨hshallow, offset, -, rfl⟩
    simp only [entered]
    refine (Limits.ends_enclose hshallow fun hdeep => ?_).bind ?_
    · refine Expr.tooDeepAt_self ?_ ?_ hstarts
      · rw [Opening.depth_around]
        exact hdeep
      · cases opening <;> exact nofun
    · rintro _ ⟨rfl, hbelow⟩
      refine .done ⟨?_, token.offset, opening.record body captures, hstarts, ?_⟩
      · rw [Opening.depth_around]
        exact hbelow
      · simp only [hadmits.pending, Opening.depth_around, Opening.captureIds_around,
          List.length_append, Nat.add_assoc]

/-- Parts with their true depths within the limit that were read from tokens, the first of them from
their start. -/
structure Spans (limits : Limits) (tokens : List Token) (exprs : List Expr) (parts : List Part) :
    Prop where
  /-- The parts hold the expressions. -/
  exprs_eq : parts.map Part.expr = exprs
  /-- The depths are those of the expressions. -/
  depths : ∀ part ∈ parts, part.depth = part.expr.depth
  /-- The expressions are not too deep. -/
  shallow : Expr.listDepth exprs ≤ limits.depth
  /-- The first part starts where the tokens do. -/
  starts : ∀ first others, parts = first :: others → Token.StartsAt tokens first.offset

/-- One more part before others. -/
theorem Spans.cons {expr : Expr} {exprs : List Expr} {parts : List Part} {first others : List Token}
    {offset : Nat} (hspans : Spans limits others exprs parts) (hshallow : expr.depth ≤ limits.depth)
    (hstarts : Token.StartsAt first offset) :
    Spans limits (first ++ others) (expr :: exprs) (⟨expr, expr.depth, offset⟩ :: parts) where
  exprs_eq := by rw [List.map_cons, hspans.exprs_eq]
  depths := List.forall_mem_cons.mpr ⟨rfl, hspans.depths⟩
  shallow := by
    have hrest := hspans.shallow
    rw [Expr.listDepth]
    omega
  starts := by
    rintro _ _ heq
    cases heq
    exact hstarts.append others

/-- One more part after others. -/
theorem Spans.snoc {expr : Expr} {exprs : List Expr} {parts : List Part} {first : List Token}
    (hspans : Spans limits first exprs parts) (hnonempty : parts ≠ [])
    (hshallow : expr.depth ≤ limits.depth) (others : List Token) (offset : Nat) :
    Spans limits (first ++ others) (exprs ++ [expr]) (parts ++ [⟨expr, expr.depth, offset⟩]) where
  exprs_eq := by rw [List.map_append, hspans.exprs_eq, List.map_singleton]
  depths := by
    intro part hmem
    rcases List.mem_append.mp hmem with hmem | hmem
    · exact hspans.depths part hmem
    · cases List.mem_singleton.mp hmem
      rfl
  shallow := by
    have hfirst := hspans.shallow
    rw [Expr.listDepth_append, Expr.listDepth, Expr.listDepth]
    omega
  starts := by
    obtain ⟨part, rest, rfl⟩ := List.exists_cons_of_ne_nil hnonempty
    rintro _ _ heq
    cases heq
    exact (hspans.starts _ _ rfl).append others

/-- Several parts are finished as one node, or the node is too deep. -/
theorem Spans.yields_join {node : List Expr → Expr} {tokens : List Token} {exprs : List Expr}
    {first : Part} {others : List Part} (hspans : Spans limits tokens exprs (first :: others))
    (hothers : others ≠ []) (hdepth : (node exprs).depth = Expr.listDepth exprs + 1)
    (hnode : ∀ body, node exprs ≠ .star body) (outer : Nat) :
    Yields limits outer (node exprs) tokens (Part.join limits node first others) := by
  have hexprs := hspans.exprs_eq
  have hstarts := hspans.starts first others rfl
  subst hexprs
  have hblamed : Expr.listDepth ((first :: others).map Part.expr) + 1 = limits.depth + 1 →
      (node ((first :: others).map Part.expr)).TooDeepAt limits.depth outer tokens first.offset :=
    fun hdeep => Expr.tooDeepAt_self (hdepth.trans hdeep) hnode hstarts
  refine (Part.ends_join node hothers hspans.depths hspans.shallow hblamed).imp ?_ fun _ hdeep =>
    hdeep
  rintro _ ⟨hbelow, rfl⟩
  refine ⟨hdepth.trans_le hbelow, first.offset, hstarts, ?_⟩
  rw [hdepth]

/-- Operands one after another are taken one after another, or one of them is too deep. -/
theorem ends_row {exprs : List Expr} (hreads : ∀ expr ∈ exprs, ReadsOperand limits expr)
    {tokens : List Token} {depth : Nat}
    (hadmits : reader.Admits { limits with depth := depth } exprs)
    (hopen : reader.frames.length ≤ limits.depth)
    (hlexemes : tokens.map Token.lexeme = exprs.flatMap Expr.lexemes) :
    Ends limits (fun next => ∃ (parts : List Part) (captures : CaptureTable),
        next = reader.resumed ⟨reader.level.branches, parts.reverse ++ reader.level.operands⟩
          (exprs.flatMap Expr.captureIds).length captures ∧ Spans limits tokens exprs parts)
      (Expr.TooDeepAmong limits.depth reader.frames.length 0 exprs tokens)
      (tokens.foldlM (step limits) reader) := by
  -- The reader is general, since each operand meets the reader that the ones before it left.
  induction exprs generalizing reader tokens with
  | nil =>
    cases List.map_eq_nil_iff.mp hlexemes
    exact .done ⟨[], reader.captures, rfl, rfl, nofun, Nat.zero_le _, nofun⟩
  | cons expr rest ih =>
    rw [List.flatMap_cons] at hlexemes
    obtain ⟨first, others, rfl, hfirst, hothers⟩ := List.map_eq_append_iff.mp hlexemes
    have hsplit : reader.Admits { limits with depth := depth } ([expr] ++ rest) := hadmits
    have hhead := hreads expr List.mem_cons_self depth reader first hsplit.append_left hopen hfirst
    have hlength : first.length = expr.lexemes.length + 0 := by
      rw [← hfirst, List.length_map, Nat.add_zero]
    rw [List.foldlM_append]
    refine (hhead.imp (fun _ hdone => hdone) fun _ hdeep => hdeep.among rest others).bind ?_
    rintro _ ⟨hshallow, offset, captures, hstarts, rfl⟩
    have hrest := hsplit.append_right (reader.level.push ⟨expr, expr.depth, offset⟩) captures
    rw [List.flatMap_singleton] at hrest
    have htail :=
      ih (fun other hmem => hreads other (List.mem_cons_of_mem _ hmem)) hrest hopen hothers
    refine htail.imp ?_ fun _ hdeep => hdeep.cons hlength
    rintro _ ⟨parts, after, rfl, hspans⟩
    refine ⟨⟨expr, expr.depth, offset⟩ :: parts, after, ?_, hspans.cons hshallow hstarts⟩
    rw [resumed_resumed, List.flatMap_cons, List.length_append, List.reverse_cons,
      List.append_assoc]
    rfl

/-- A row is a branch if its operands can be taken. -/
theorem readsBranch_concat {operands : List Expr}
    (hreads : ∀ operand ∈ operands, ReadsOperand limits operand) :
    ReadsBranch limits (.concat operands) := by
  intro depth reader tokens hadmits hopen hempty hlexemes
  rw [Expr.lexemes, Expr.rowLexemes_eq] at hlexemes
  have hseveral : 2 ≤ operands.length := by
    cases hadmits.grouped _ List.mem_cons_self with | concat hseveral => exact hseveral
  refine (ends_row hreads hadmits.concat hopen hlexemes).imp ?_ fun _ hdeep => hdeep.concat
  rintro _ ⟨parts, captures, rfl, hspans⟩
  refine ⟨parts.reverse, captures, ?_, fun branches atStart => ?_⟩
  · rw [hempty, List.append_nil, Expr.captureIds, Expr.listCaptureIds_eq]
  · have hlength : parts.length = operands.length := by rw [← hspans.exprs_eq, List.length_map]
    have hpositive : 0 < parts.length := by omega
    obtain ⟨first, others, rfl⟩ := List.exists_cons_of_length_pos hpositive
    have hothers : others ≠ [] := by
      rintro rfl
      rw [List.length_singleton] at hlength
      omega
    rw [Level.branch, List.reverse_reverse]
    refine hspans.yields_join hothers rfl (fun body heq => ?_) reader.frames.length
    cases heq

/-- Branches each with a bar after it are taken one after another, or one of them is too deep. -/
theorem ends_branches {exprs : List Expr} (hreads : ∀ expr ∈ exprs, ReadsBranch limits expr)
    {tokens : List Token} {depth : Nat}
    (hadmits : reader.Admits { limits with depth := depth } exprs)
    (hopen : reader.frames.length ≤ limits.depth) (hempty : reader.level.operands = [])
    (hlexemes : tokens.map Token.lexeme =
      exprs.flatMap fun expr => expr.lexemes ++ [⟨.bar, none⟩]) :
    Ends limits (fun next => ∃ (branches : List (Part × Nat)) (captures : CaptureTable),
        next = reader.resumed ⟨branches.reverse ++ reader.level.branches, []⟩
          (exprs.flatMap Expr.captureIds).length captures ∧
        Spans limits tokens exprs (branches.map Prod.fst))
      (Expr.TooDeepAmong limits.depth reader.frames.length 1 exprs tokens)
      (tokens.foldlM (step limits) reader) := by
  induction exprs generalizing reader tokens with
  | nil =>
    cases List.map_eq_nil_iff.mp hlexemes
    refine .done ⟨[], reader.captures, ?_, rfl, nofun, Nat.zero_le _, nofun⟩
    have hsame : (⟨reader.level.branches, []⟩ : Level) = reader.level := by rw [← hempty]
    rw [List.reverse_nil, List.nil_append, hsame]
    rfl
  | cons expr rest ih =>
    rw [List.flatMap_cons] at hlexemes
    obtain ⟨front, others, rfl, hfront, hothers⟩ := List.map_eq_append_iff.mp hlexemes
    obtain ⟨first, last, rfl, hfirst, hlast⟩ := List.map_eq_append_iff.mp hfront
    obtain ⟨bar, rfl, hlexeme⟩ := List.map_eq_singleton_iff.mp hlast
    have hkind : bar.kind = .bar := congrArg Lexeme.kind hlexeme
    have hsplit : reader.Admits { limits with depth := depth } ([expr] ++ rest) := hadmits
    have hhead :=
      hreads expr List.mem_cons_self depth reader first hsplit.append_left hopen hempty hfirst
    have hlength : (first ++ [bar]).length = expr.lexemes.length + 1 := by
      rw [← hfirst, List.length_append, List.length_map, List.length_singleton]
    have hembed : ∀ offset, expr.TooDeepAt limits.depth reader.frames.length first offset →
        Expr.TooDeepAmong limits.depth reader.frames.length 1 (expr :: rest)
          (first ++ ([bar] ++ others)) offset :=
      fun offset hdeep => hdeep.among rest ([bar] ++ others)
    rw [List.append_assoc, List.foldlM_append]
    refine (hhead.imp (fun _ hdone => hdone) hembed).bind ?_
    rintro _ ⟨operands, captures, rfl, hyields⟩
    have hbar : step limits (reader.resumed ⟨reader.level.branches, operands⟩
        expr.captureIds.length captures) bar =
        Level.branch limits ⟨reader.level.branches, operands⟩ (.missingOperand bar.offset) >>=
          fun part => .ok (reader.resumed ⟨(part, bar.offset) :: reader.level.branches, []⟩
            expr.captureIds.length captures) := by
      simp only [step, resumed, hadmits.pending, hkind, takeBar]
      rfl
    rw [List.singleton_append, List.foldlM_cons, hbar, bind_assoc]
    refine ((hyields _ _).imp (fun _ hdone => hdone) hembed).bind ?_
    rintro _ ⟨hshallow, offset, hstarts, rfl⟩
    have hrest := hsplit.append_right
      ⟨(⟨expr, expr.depth, offset⟩, bar.offset) :: reader.level.branches, []⟩ captures
    rw [List.flatMap_singleton] at hrest
    have htail :=
      ih (fun other hmem => hreads other (List.mem_cons_of_mem _ hmem)) hrest hopen rfl hothers
    rw [List.append_cons]
    refine htail.imp ?_ fun _ hdeep => List.append_assoc .. ▸ hdeep.cons hlength
    rintro _ ⟨branches, after, rfl, hspans⟩
    refine ⟨(⟨expr, expr.depth, offset⟩, bar.offset) :: branches, after, ?_, ?_⟩
    · rw [resumed_resumed, List.flatMap_cons, List.length_append, List.reverse_cons,
        List.append_assoc]
      rfl
    · exact hspans.cons hshallow (hstarts.append [bar])

/-- An alternation is a level if its branches can be taken. -/
theorem readsLevel_alternation {operands : List Expr}
    (hreads : ∀ operand ∈ operands, ReadsBranch limits operand) :
    ReadsLevel limits (.alternation operands) := by
  intro depth reader tokens hadmits hopen hempty hlexemes
  have hseveral : 2 ≤ operands.length := by
    cases hadmits.grouped _ List.mem_cons_self with | alternation hseveral => exact hseveral
  rcases List.eq_nil_or_concat' operands with rfl | ⟨front, last, rfl⟩
  · cases hseveral
  -- The last branch has no bar after it and is still being read when the level ends.
  rw [Expr.lexemes, Expr.branchLexemes_append_singleton] at hlexemes
  obtain ⟨barred, final, rfl, hbarred, hfinal⟩ := List.map_eq_append_iff.mp hlexemes
  have hparts := hadmits.alternation
  have hoperands : reader.level.operands = [] := by rw [hempty, Level.empty]
  have hlength : barred.length = (front.map fun expr => expr.lexemes.length + 1).sum := by
    rw [← List.length_map Token.lexeme, hbarred, List.length_flatMap]
    simp only [List.length_append, List.length_singleton]
  have hembed : ∀ offset, last.TooDeepAt limits.depth reader.frames.length final offset →
      (Expr.alternation (front ++ [last])).TooDeepAt limits.depth reader.frames.length
        (barred ++ final) offset := by
    intro offset hdeep
    refine Expr.TooDeepAmong.alternation ⟨front, last, [], barred, final, [], rfl, ?_,
      hlength, hdeep⟩
    rw [List.append_nil]
  have hfront := ends_branches (fun expr hmem => hreads expr (List.mem_append_left _ hmem))
    hparts.append_left hopen hoperands hbarred
  rw [List.foldlM_append]
  refine (hfront.imp (fun _ hdone => hdone) fun _ hdeep =>
    (hdeep.append [last] final).alternation).bind ?_
  rintro _ ⟨branches, captures, rfl, hspans⟩
  simp only [hempty, Level.empty, List.append_nil]
  have hlast := hreads last List.mem_concat_self depth _ final
    (hparts.append_right ⟨branches.reverse, []⟩ captures) hopen rfl hfinal
  refine hlast.imp ?_ hembed
  rintro _ ⟨operands, after, rfl, hyields⟩
  refine ⟨⟨branches.reverse, operands⟩, after, ?_, fun atStart => ?_⟩
  · rw [resumed_resumed, Expr.captureIds, Expr.listCaptureIds_eq, List.flatMap_append,
      List.length_append, List.flatMap_singleton]
    rfl
  · refine ((hyields _ atStart).imp (fun _ hdone => hdone) hembed).bind ?_
    rintro _ ⟨hshallow, offset, -, rfl⟩
    have hnonempty : branches.map Prod.fst ≠ [] := by
      intro hnil
      have hexprs := hspans.exprs_eq
      rw [hnil, List.map_nil] at hexprs
      rw [← hexprs] at hseveral
      simp at hseveral
    have hall := hspans.snoc hnonempty hshallow final offset
    obtain ⟨⟨first, bar⟩, others, rfl⟩ :=
      List.exists_cons_of_ne_nil (List.map_eq_nil_iff.not.mp hnonempty)
    simp only [List.reverse_reverse]
    refine hall.yields_join (by simp) rfl (fun body heq => ?_) reader.frames.length
    cases heq

/-- What can be taken as an operand can be taken as a branch and as a level. -/
theorem ReadsOperand.everywhere {expr : Expr} (hreads : ReadsOperand limits expr) :
    (expr.IsOperand → ReadsOperand limits expr) ∧ (expr.IsBranch → ReadsBranch limits expr) ∧
      ReadsLevel limits expr :=
  ⟨fun _ => hreads, fun _ => hreads.readsBranch, hreads.readsBranch.readsLevel⟩

/-- An expression is taken as an operand or as a branch where precedence allows, and always as a
level. -/
theorem reads_of_grouped (hpositive : 0 < limits.depth) {expr : Expr} (hgrouped : expr.Grouped) :
    (expr.IsOperand → ReadsOperand limits expr) ∧ (expr.IsBranch → ReadsBranch limits expr) ∧
      ReadsLevel limits expr := by
  induction hgrouped with
  | char c => exact (readsOperand_char hpositive c).everywhere
  | concat _ hoperand _ ih =>
    have hbranch :=
      readsBranch_concat fun operand hmem => (ih operand hmem).1 (hoperand operand hmem)
    exact ⟨nofun, fun _ => hbranch, hbranch.readsLevel⟩
  | alternation _ hbranch _ ih =>
    exact ⟨nofun, nofun,
      readsLevel_alternation fun operand hmem => (ih operand hmem).2.1 (hbranch operand hmem)⟩
  | star hoperand _ ih => exact (ih.1 hoperand).star.everywhere
  | @capture id body _ ih => exact (ih.2.2.around (.capture id)).everywhere
  | plain _ ih => exact (ih.2.2.around .plain).everywhere
  | lookahead _ ih => exact (ih.2.2.around .lookahead).everywhere
  | reference => exact (readsOperand_reference hpositive _).everywhere

end Reader

end PatternGrammar
