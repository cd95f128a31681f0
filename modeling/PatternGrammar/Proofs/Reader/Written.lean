import Mathlib.Data.List.Sort
import Mathlib.Tactic.IntervalCases
import PatternGrammar.Proofs.Expr.Exposure
import PatternGrammar.Proofs.Reader.Steps

/-!
# What a reader has read

A reader in the midst of a pattern still holds everything that it has read: the tokens can be
spelled again from its finished parts, bars and open brackets, and the captures met so far can be
listed from them. Each step adds its token to that spelling. A reader at the end therefore holds an
expression that spells exactly the tokens, obeys every rule of writing, and has its captures in the
table.
-/

namespace PatternGrammar

namespace Expr

/-- The lexemes of a row are those of its operands, one after another. -/
@[simp] theorem rowLexemes_eq (exprs : List Expr) : rowLexemes exprs = exprs.flatMap lexemes := by
  induction exprs with
  | nil => rfl
  | cons expr rest ih => rw [rowLexemes, ih, List.flatMap_cons]

/-- The lexemes of branches: each but the last has a bar after it. -/
theorem branchLexemes_append_singleton (exprs : List Expr) (last : Expr) :
    branchLexemes (exprs ++ [last]) =
      exprs.flatMap (fun expr => expr.lexemes ++ [⟨.bar, none⟩]) ++ last.lexemes := by
  induction exprs with
  | nil => rfl
  | cons expr rest ih =>
    have hrest : rest ++ [last] ≠ [] := by simp
    rw [List.cons_append, branchLexemes, ih, List.flatMap_cons]
    · simp only [List.append_assoc, List.cons_append, List.nil_append]
    · exact hrest

/-- What can be repeated can be a branch. -/
theorem IsOperand.isBranch {expr : Expr} (hoperand : expr.IsOperand) : expr.IsBranch := by
  cases expr <;> trivial

end Expr

/-- The greatest depth of parts with their true depths is that of their expressions. -/
theorem Part.maxDepth_eq {parts : List Part}
    (htrue : ∀ part ∈ parts, part.depth = part.expr.depth) :
    maxDepth parts = Expr.listDepth (parts.map Part.expr) := by
  induction parts with
  | nil => rfl
  | cons part rest ih =>
    have hhead := htrue part List.mem_cons_self
    have htail := ih fun other hmem => htrue other (List.mem_cons_of_mem _ hmem)
    rw [List.map_cons, maxDepth, Expr.listDepth, hhead, htail]

/-- A finished part holds an expression that may be written where it stands. -/
structure Part.Valid (limits : Limits) (inLookahead : Bool) (part : Part) : Prop where
  /-- The depth is that of the expression. -/
  depth_eq : part.depth = part.expr.depth
  /-- The expression is not too deep. -/
  shallow : part.expr.depth ≤ limits.depth
  /-- Operations are nested by precedence. -/
  grouped : part.expr.Grouped
  /-- Nothing is captured or looked ahead for inside its lookaheads. -/
  flat : part.expr.FlatLookaheads
  /-- In a lookahead nothing is captured or looked ahead for. -/
  bare : inLookahead = true → part.expr.Bare

section Join

variable {limits : Limits} {inLookahead : Bool} {first part : Part} {others : List Part}

/-- Several valid parts make a valid node, provided that the node itself is grouped. -/
theorem Part.valid_join {node : List Expr → Expr} {second : Part}
    (hvalid : ∀ other ∈ first :: second :: others, other.Valid limits inLookahead)
    (hdepth : ∀ exprs, (node exprs).depth = Expr.listDepth exprs + 1)
    (hgrouped : (node ((first :: second :: others).map Part.expr)).Grouped)
    (hflat : ∀ exprs : List Expr, (∀ expr ∈ exprs, expr.FlatLookaheads) →
      (node exprs).FlatLookaheads)
    (hbare : ∀ exprs : List Expr, (∀ expr ∈ exprs, expr.Bare) → (node exprs).Bare)
    (hjoin : join limits node first (second :: others) = .ok part) :
    part.Valid limits inLookahead := by
  obtain ⟨hshallow, rfl⟩ := join_cons_eq_ok.mp hjoin
  have htrue := maxDepth_eq fun other hmem => (hvalid other hmem).depth_eq
  constructor
  · show maxDepth _ + 1 = (node _).depth
    rw [hdepth, htrue]
  · show (node _).depth ≤ limits.depth
    rw [hdepth]
    omega
  · exact hgrouped
  · refine hflat _ fun expr hmem => ?_
    obtain ⟨other, hother, rfl⟩ := List.mem_map.mp hmem
    exact (hvalid other hother).flat
  · intro hinside
    refine hbare _ fun expr hmem => ?_
    obtain ⟨other, hother, rfl⟩ := List.mem_map.mp hmem
    exact (hvalid other hother).bare hinside

/-- Operands in a row make a branch with their lexemes and captures. -/
theorem Part.join_concat (hvalid : ∀ other ∈ first :: others, other.Valid limits inLookahead)
    (hoperand : ∀ other ∈ first :: others, other.expr.IsOperand)
    (hjoin : join limits .concat first others = .ok part) :
    part.Valid limits inLookahead ∧ part.expr.IsBranch ∧
      part.expr.lexemes = (first :: others).flatMap (·.expr.lexemes) ∧
      part.expr.captureEntries = (first :: others).flatMap (·.expr.captureEntries) := by
  cases others with
  | nil =>
    cases hjoin
    have hself := List.mem_singleton_self first
    refine ⟨hvalid first hself, (hoperand first hself).isBranch, ?_, ?_⟩ <;> simp
  | cons second others =>
    have hgrouped : (Expr.concat ((first :: second :: others).map Part.expr)).Grouped := by
      refine .concat (by simp) (fun expr hmem => ?_) fun expr hmem => ?_
      · obtain ⟨other, hother, rfl⟩ := List.mem_map.mp hmem
        exact hoperand other hother
      · obtain ⟨other, hother, rfl⟩ := List.mem_map.mp hmem
        exact (hvalid other hother).grouped
    have hpart :=
      valid_join hvalid (fun _ => rfl) hgrouped (fun _ => .concat) (fun _ => .concat) hjoin
    obtain ⟨_, rfl⟩ := join_cons_eq_ok.mp hjoin
    refine ⟨hpart, trivial, ?_, ?_⟩
    · simp only [Expr.lexemes, Expr.rowLexemes_eq, List.flatMap_map]
    · simp only [Expr.captureEntries, Expr.listCaptureEntries_eq, List.flatMap_map]

/-- Branches make an expression with their lexemes, bars between them, and their captures. -/
theorem Part.join_alternation {last : Part}
    (hvalid : ∀ other ∈ first :: (others ++ [last]), other.Valid limits inLookahead)
    (hbranch : ∀ other ∈ first :: (others ++ [last]), other.expr.IsBranch)
    (hjoin : join limits .alternation first (others ++ [last]) = .ok part) :
    part.Valid limits inLookahead ∧
      part.expr.lexemes =
        (first :: others).flatMap (fun other => other.expr.lexemes ++ [⟨.bar, none⟩]) ++
          last.expr.lexemes ∧
      part.expr.captureEntries =
        (first :: others).flatMap (·.expr.captureEntries) ++ last.expr.captureEntries := by
  obtain ⟨second, rest, hrest⟩ : ∃ second rest, others ++ [last] = second :: rest := by
    cases others <;> simp
  have hgrouped : (Expr.alternation ((first :: second :: rest).map Part.expr)).Grouped := by
    rw [← hrest]
    refine .alternation (by simp) (fun expr hmem => ?_) fun expr hmem => ?_
    · obtain ⟨other, hother, rfl⟩ := List.mem_map.mp hmem
      exact hbranch other hother
    · obtain ⟨other, hother, rfl⟩ := List.mem_map.mp hmem
      exact (hvalid other hother).grouped
  rw [hrest] at hvalid hjoin
  have hpart := valid_join hvalid (fun _ => rfl) hgrouped (fun _ => .alternation)
    (fun _ => .alternation) hjoin
  obtain ⟨_, rfl⟩ := join_cons_eq_ok.mp hjoin
  have hparts : (first :: second :: rest).map Part.expr =
      (first :: others).map Part.expr ++ [last.expr] := by
    rw [← hrest, ← List.cons_append, List.map_append, List.map_singleton]
  refine ⟨hpart, ?_, ?_⟩
  · simp only [hparts, Expr.lexemes, Expr.branchLexemes_append_singleton, List.flatMap_map]
  · simp only [hparts, Expr.captureEntries, Expr.listCaptureEntries_eq, List.flatMap_append,
      List.flatMap_map, List.flatMap_singleton]

end Join

namespace Level

/-- The lexemes read of a level. -/
def lexemes (level : Level) : List Lexeme :=
  level.branches.reverse.flatMap (fun branch => branch.1.expr.lexemes ++ [⟨.bar, none⟩]) ++
    level.operands.reverse.flatMap (·.expr.lexemes)

/-- The captures closed in a level, in the order of their openings. -/
def entries (level : Level) : List (Nat × Expr) :=
  level.branches.reverse.flatMap (·.1.expr.captureEntries) ++
    level.operands.reverse.flatMap (·.expr.captureEntries)

/-- All parts of a level may be written where they stand. -/
structure Valid (limits : Limits) (inLookahead : Bool) (level : Level) : Prop where
  /-- Finished branches are valid. -/
  branches : ∀ branch ∈ level.branches, branch.1.Valid limits inLookahead
  /-- Finished branches are no alternations. -/
  isBranch : ∀ branch ∈ level.branches, branch.1.expr.IsBranch
  /-- Operands are valid. -/
  operands : ∀ part ∈ level.operands, part.Valid limits inLookahead
  /-- Operands are neither rows nor alternations. -/
  isOperand : ∀ part ∈ level.operands, part.expr.IsOperand

variable {limits : Limits} {inLookahead : Bool} {level : Level} {atStart : SyntaxError}
  {part : Part}

/-- Nothing is wrong with a level of which nothing has been read. -/
theorem valid_empty (limits : Limits) (inLookahead : Bool) :
    Level.empty.Valid limits inLookahead := by
  constructor <;> exact fun _ hmem => nomatch hmem

/-- One more operand. -/
theorem Valid.push (hvalid : level.Valid limits inLookahead) (hpart : part.Valid limits inLookahead)
    (hoperand : part.expr.IsOperand) : (level.push part).Valid limits inLookahead where
  branches := hvalid.branches
  isBranch := hvalid.isBranch
  operands := List.forall_mem_cons.mpr ⟨hpart, hvalid.operands⟩
  isOperand := List.forall_mem_cons.mpr ⟨hoperand, hvalid.isOperand⟩

/-- The lexemes after one more operand. -/
@[simp] theorem lexemes_push (level : Level) (part : Part) :
    (level.push part).lexemes = level.lexemes ++ part.expr.lexemes := by
  simp [push, lexemes]

/-- The captures after one more operand. -/
@[simp] theorem entries_push (level : Level) (part : Part) :
    (level.push part).entries = level.entries ++ part.expr.captureEntries := by
  simp [push, entries]

/-- A finished branch has the lexemes and captures of the operands read since the last bar. -/
theorem Valid.branch (hvalid : level.Valid limits inLookahead)
    (hbranch : level.branch limits atStart = .ok part) :
    part.Valid limits inLookahead ∧ part.expr.IsBranch ∧
      part.expr.lexemes = level.operands.reverse.flatMap (·.expr.lexemes) ∧
      part.expr.captureEntries = level.operands.reverse.flatMap (·.expr.captureEntries) := by
  obtain ⟨first, others, hparts, hjoin⟩ := branch_eq_ok.mp hbranch
  rw [hparts]
  refine Part.join_concat (fun other hmem => ?_) (fun other hmem => ?_) hjoin
  · exact hvalid.operands other (List.mem_reverse.mp (hparts ▸ hmem))
  · exact hvalid.isOperand other (List.mem_reverse.mp (hparts ▸ hmem))

/-- A finished level has all its lexemes and captures. -/
theorem Valid.whole (hvalid : level.Valid limits inLookahead)
    (hwhole : level.whole limits atStart = .ok part) :
    part.Valid limits inLookahead ∧ part.expr.lexemes = level.lexemes ∧
      part.expr.captureEntries = level.entries := by
  obtain ⟨last, hlast, hbranches⟩ := whole_eq_ok.mp hwhole
  obtain ⟨hvalidLast, hisBranch, hlexemes, hentries⟩ := hvalid.branch hlast
  unfold lexemes entries
  rcases hbranches with ⟨hnone, rfl⟩ | ⟨first, bar, others, hsome, hjoin⟩
  · rw [hnone, hlexemes, hentries]
    exact ⟨hvalidLast, rfl, rfl⟩
  · have hmem : ∀ other ∈ first :: (others.map Prod.fst ++ [last]),
        other = last ∨ ∃ branch ∈ level.branches, branch.1 = other := by
      intro other hother
      rw [← List.cons_append, List.mem_append, List.mem_singleton] at hother
      rcases hother with hother | rfl
      · have hfirst : first :: others.map Prod.fst = level.branches.reverse.map Prod.fst := by
          rw [hsome, List.map_cons]
        rw [hfirst] at hother
        obtain ⟨branch, hbranch, rfl⟩ := List.mem_map.mp hother
        exact .inr ⟨branch, List.mem_reverse.mp hbranch, rfl⟩
      · exact .inl rfl
    have hvalids : ∀ other ∈ first :: (others.map Prod.fst ++ [last]),
        other.Valid limits inLookahead := by
      intro other hother
      rcases hmem other hother with rfl | ⟨branch, hbranch, rfl⟩
      · exact hvalidLast
      · exact hvalid.branches branch hbranch
    have hisBranches : ∀ other ∈ first :: (others.map Prod.fst ++ [last]), other.expr.IsBranch := by
      intro other hother
      rcases hmem other hother with rfl | ⟨branch, hbranch, rfl⟩
      · exact hisBranch
      · exact hvalid.isBranch branch hbranch
    have hjoined := Part.join_alternation hvalids hisBranches hjoin
    rw [hsome, ← hlexemes, ← hentries]
    simpa only [List.flatMap_cons, List.flatMap_map] using hjoined

/-- A bar ends the branch. -/
theorem Valid.barred (hvalid : level.Valid limits inLookahead)
    (hbranch : level.branch limits atStart = .ok part) (offset : Nat) :
    Valid limits inLookahead ⟨(part, offset) :: level.branches, []⟩ := by
  obtain ⟨hpart, hisBranch, -, -⟩ := hvalid.branch hbranch
  constructor
  · exact List.forall_mem_cons.mpr ⟨hpart, hvalid.branches⟩
  · exact List.forall_mem_cons.mpr ⟨hisBranch, hvalid.isBranch⟩
  · exact fun _ hmem => nomatch hmem
  · exact fun _ hmem => nomatch hmem

/-- The lexemes after a bar. -/
theorem Valid.lexemes_barred (hvalid : level.Valid limits inLookahead)
    (hbranch : level.branch limits atStart = .ok part) (offset : Nat) :
    lexemes ⟨(part, offset) :: level.branches, []⟩ = level.lexemes ++ [⟨.bar, none⟩] := by
  obtain ⟨-, -, hlexemes, -⟩ := hvalid.branch hbranch
  simp [lexemes, hlexemes]

/-- A bar closes no capture. -/
theorem Valid.entries_barred (hvalid : level.Valid limits inLookahead)
    (hbranch : level.branch limits atStart = .ok part) (offset : Nat) :
    entries ⟨(part, offset) :: level.branches, []⟩ = level.entries := by
  obtain ⟨-, -, -, hentries⟩ := hvalid.branch hbranch
  simp [entries, hentries]

section Star

variable {others : List Part} (hoperands : level.operands = part :: others)
include hoperands

/-- The latest operand is repeated. -/
theorem Valid.starred (hvalid : level.Valid limits inLookahead)
    (hshallow : part.depth < limits.depth) :
    Valid limits inLookahead
      { level with operands := ⟨.star part.expr, part.depth + 1, part.offset⟩ :: others } := by
  have hoperandsValid := hvalid.operands
  have hisOperand := hvalid.isOperand
  rw [hoperands] at hoperandsValid hisOperand
  obtain ⟨hpart, hothers⟩ := List.forall_mem_cons.mp hoperandsValid
  obtain ⟨hoperand, hotherOperands⟩ := List.forall_mem_cons.mp hisOperand
  have hdepth := hpart.depth_eq
  refine ⟨hvalid.branches, hvalid.isBranch, List.forall_mem_cons.mpr ⟨?_, hothers⟩,
    List.forall_mem_cons.mpr ⟨trivial, hotherOperands⟩⟩
  constructor
  · show part.depth + 1 = part.expr.depth + 1
    omega
  · show part.expr.depth + 1 ≤ limits.depth
    omega
  · exact .star hoperand hpart.grouped
  · exact .star hpart.flat
  · exact fun hinside => .star (hpart.bare hinside)

/-- The lexemes after a star. -/
theorem lexemes_starred (depth offset : Nat) :
    lexemes { level with operands := ⟨.star part.expr, depth, offset⟩ :: others } =
      level.lexemes ++ [⟨.star, none⟩] := by
  simp [lexemes, hoperands, Expr.lexemes]

/-- A star closes no capture. -/
theorem entries_starred (depth offset : Nat) :
    entries { level with operands := ⟨.star part.expr, depth, offset⟩ :: others } =
      level.entries := by
  simp [entries, hoperands, Expr.captureEntries]

end Star

end Level

namespace Opening

/-- The lexeme that opens a bracket. -/
def lexeme : Opening → Lexeme
  | .capture _ => ⟨.openCapture, none⟩
  | .plain => ⟨.openPlain, none⟩
  | .lookahead => ⟨.openLookahead, none⟩

/-- The group number that a bracket takes, if any. -/
def ids : Opening → List Nat
  | .capture id => [id]
  | .plain | .lookahead => []

/-- A bracket and its body are spelled by the opening, the body and the closing bracket. -/
theorem lexemes_around (opening : Opening) (body : Expr) :
    (opening.around body).lexemes = opening.lexeme :: (body.lexemes ++ [⟨.close, none⟩]) := by
  cases opening <;> rfl

/-- The group numbers of a bracket and its body. -/
theorem map_fst_around (opening : Opening) (body : Expr) :
    (opening.around body).captureEntries.map Prod.fst =
      opening.ids ++ body.captureEntries.map Prod.fst := by
  cases opening <;> rfl

/-- The captures of a bracket and its body. -/
theorem mem_around {opening : Opening} {body : Expr} {entry : Nat × Expr} :
    entry ∈ (opening.around body).captureEntries ↔
      (∃ id, opening = .capture id ∧ entry = (id, body)) ∨ entry ∈ body.captureEntries := by
  cases opening <;> simp [around, Expr.captureEntries]

/-- A bracket is one level deeper than its body. -/
theorem depth_around (opening : Opening) (body : Expr) :
    (opening.around body).depth = body.depth + 1 := by
  cases opening <;> rfl

/-- A bracket is an operand. -/
theorem isOperand_around (opening : Opening) (body : Expr) : (opening.around body).IsOperand := by
  cases opening <;> trivial

/-- The table after a bracket is closed: a capture is new, and everything else stays if no other
capture has its number. -/
theorem mem_record {opening : Opening} {table : CaptureTable} {entry : Nat × Expr} (body : Expr)
    (hnew : ∀ other ∈ table.entries, other.1 ∉ opening.ids) :
    entry ∈ (opening.record body table).entries ↔
      entry ∈ table.entries ∨ ∃ id, opening = .capture id ∧ entry = (id, body) := by
  cases opening with
  | capture id =>
    simp only [record, CaptureTable.insert, CaptureTable.mem_place id body table.ascending]
    constructor
    · rintro (rfl | ⟨hmem, _⟩)
      · exact .inr ⟨id, rfl, rfl⟩
      · exact .inl hmem
    · rintro (hmem | ⟨_, heq, rfl⟩)
      · exact .inr ⟨hmem, fun heq => hnew entry hmem (List.mem_singleton.mpr heq)⟩
      · cases heq
        exact .inl rfl
  | plain => simp [record]
  | lookahead => simp [record]

end Opening

namespace Frame

/-- The lexemes of open brackets and of the levels around them, the outermost first. -/
def lexemes : List Frame → List Lexeme
  | [] => []
  | frame :: outer => lexemes outer ++ frame.outer.lexemes ++ [frame.opening.lexeme]

/-- The captures closed in the levels around open brackets, in the order of their openings. -/
def entries : List Frame → List (Nat × Expr)
  | [] => []
  | frame :: outer => entries outer ++ frame.outer.entries

/-- The group numbers of open brackets and of the levels around them, in the order of their
openings. -/
def ids : List Frame → List Nat
  | [] => []
  | frame :: outer => ids outer ++ frame.outer.entries.map Prod.fst ++ frame.opening.ids

/-- Whether one of the brackets is a lookahead. -/
def inLookahead (frames : List Frame) : Bool :=
  frames.any (·.opening == .lookahead)

/-- A bracket inside brackets is in a lookahead if it is one or they are. -/
theorem inLookahead_cons (frame : Frame) (outer : List Frame) :
    inLookahead (frame :: outer) = (frame.opening == .lookahead || inLookahead outer) := rfl

/-- The levels around open brackets are valid, and captures and lookaheads are opened outside
lookaheads. -/
def AllValid (limits : Limits) : List Frame → Prop
  | [] => True
  | frame :: outer =>
    frame.outer.Valid limits (inLookahead outer) ∧
      (frame.opening ≠ .plain → inLookahead outer = false) ∧ AllValid limits outer

/-- The number of a closed capture is among the group numbers. -/
theorem mem_ids_of_mem_entries {frames : List Frame} {entry : Nat × Expr}
    (hmem : entry ∈ entries frames) : entry.1 ∈ ids frames := by
  induction frames with
  | nil => cases hmem
  | cons frame outer ih =>
    rw [ids, List.mem_append, List.mem_append]
    rcases List.mem_append.mp hmem with hmem | hmem
    · exact .inl (.inl (ih hmem))
    · exact .inl (.inr (List.mem_map_of_mem hmem))

/-- A bracket around the finished level may be written where the bracket stands. -/
theorem valid_around {limits : Limits} {frame : Frame} {outer : List Frame} {body : Part}
    (hopening : frame.opening ≠ .plain → inLookahead outer = false)
    (hbody : body.Valid limits (inLookahead (frame :: outer)))
    (hshallow : body.depth < limits.depth) :
    Part.Valid limits (inLookahead outer)
      ⟨frame.opening.around body.expr, body.depth + 1, frame.offset⟩ where
  depth_eq := by rw [Opening.depth_around, hbody.depth_eq]
  shallow := by
    rw [Opening.depth_around, ← hbody.depth_eq]
    omega
  grouped := by
    cases frame.opening with
    | capture id => exact .capture hbody.grouped
    | plain => exact .plain hbody.grouped
    | lookahead => exact .lookahead hbody.grouped
  flat := by
    cases hkind : frame.opening with
    | capture id => exact .capture hbody.flat
    | plain => exact .plain hbody.flat
    | lookahead => exact .lookahead (hbody.bare (by rw [inLookahead_cons, hkind]; rfl))
  bare := by
    intro hinside
    have hplain : frame.opening = .plain := by
      by_contra hother
      rw [hopening hother] at hinside
      cases hinside
    rw [hplain]
    refine .plain (hbody.bare ?_)
    rw [inLookahead_cons, hinside, Bool.or_true]

end Frame

/-- A token of a kind that carries no payload has the lexeme of its kind. -/
theorem Token.lexeme_of_kind {token : Token} {kind : TokenKind} (hkind : token.kind = kind)
    (hbare : kind.carriesPayload = false) : token.lexeme = ⟨kind, none⟩ := by
  rw [Token.lexeme, hkind, hbare]
  rfl

/-- A token of a kind that carries a payload has its payload in its lexeme. -/
theorem Token.lexeme_of_payload {token : Token} {kind : TokenKind} (hkind : token.kind = kind)
    (hcarries : kind.carriesPayload = true) : token.lexeme = ⟨kind, token.payload⟩ := by
  rw [Token.lexeme, hkind, hcarries]
  rfl

namespace Reader

/-- The number of a reference is below ten and its digit is the payload of the token. -/
theorem groupNumber?_eq_some {token : Token} {id : Nat} :
    groupNumber? token = some id ↔ id ≤ 9 ∧ token.payload = some (groupDigit id) := by
  unfold groupNumber?
  cases token.payload with
  | none => simp
  | some digit =>
    constructor
    · intro hnumber
      simp only [Option.ite_none_right_eq_some, Option.some.injEq] at hnumber
      obtain ⟨hdigit, rfl⟩ := hnumber
      have hrange := Char.isDigit_iff_toNat.mp hdigit
      have hzero : '0'.toNat = 48 := rfl
      have hnine : '9'.toNat = 57 := rfl
      refine ⟨by omega, ?_⟩
      rw [groupDigit, Nat.add_sub_cancel' (by omega), Char.ofNat_toNat]
    · rintro ⟨hsmall, heq⟩
      cases heq
      interval_cases id <;> rfl

/-- The lexemes that a reader has read. -/
def lexemes (reader : Reader) : List Lexeme :=
  Frame.lexemes reader.frames ++ reader.level.lexemes ++ (reader.pending.map Token.lexeme).toList

/-- What is true of a reader in the midst of a pattern. -/
structure Valid (limits : Limits) (reader : Reader) : Prop where
  /-- The innermost level is valid. -/
  level : reader.level.Valid limits (Frame.inLookahead reader.frames)
  /-- The levels around open brackets are valid. -/
  frames : Frame.AllValid limits reader.frames
  /-- Captures are numbered from one by their openings. -/
  numbered : Frame.ids reader.frames ++ reader.level.entries.map Prod.fst =
    List.range' 1 reader.opened
  /-- There are no more captures than allowed. -/
  fewGroups : reader.opened ≤ limits.groups
  /-- The table holds exactly the closed captures. -/
  recorded : ∀ entry, entry ∈ reader.captures.entries ↔
    entry ∈ Frame.entries reader.frames ++ reader.level.entries
  /-- Only references are awaited to be closed. -/
  pending : ∀ token, reader.pending = some token → token.kind = .openReference

variable {limits : Limits} {reader next : Reader}

/-- The reader before the first token. -/
theorem valid_start (limits : Limits) : Reader.start.Valid limits where
  level := Level.valid_empty limits _
  frames := trivial
  numbered := rfl
  fewGroups := Nat.zero_le _
  recorded := fun _ => .rfl
  pending := fun _ hpending => nomatch hpending

/-- One more operand that captures nothing. -/
theorem Valid.push (hvalid : reader.Valid limits) {part : Part}
    (hpart : part.Valid limits (Frame.inLookahead reader.frames)) (hoperand : part.expr.IsOperand)
    (hnone : part.expr.captureEntries = []) : (reader.push part).Valid limits where
  level := hvalid.level.push hpart hoperand
  frames := hvalid.frames
  numbered := by
    rw [Reader.push, Level.entries_push, hnone, List.append_nil]
    exact hvalid.numbered
  fewGroups := hvalid.fewGroups
  recorded := by
    rw [Reader.push, Level.entries_push, hnone, List.append_nil]
    exact hvalid.recorded
  pending := hvalid.pending

/-- A leaf of the tree may stand anywhere. -/
theorem valid_leaf (hdepth : 0 < limits.depth) (inLookahead : Bool) (offset : Nat) (expr : Expr)
    (hleaf : expr.depth = 1) (hgrouped : expr.Grouped) (hflat : expr.FlatLookaheads)
    (hbare : expr.Bare) : Part.Valid limits inLookahead ⟨expr, 1, offset⟩ :=
  ⟨hleaf.symm, by rw [hleaf]; omega, hgrouped, hflat, fun _ => hbare⟩

/-- A bracket is entered: the level around it is kept in its frame. -/
theorem Valid.entered (hvalid : reader.Valid limits) {opening : Opening} {offset opened : Nat}
    (hopening : opening ≠ .plain → Frame.inLookahead reader.frames = false)
    (hids : List.range' 1 reader.opened ++ opening.ids = List.range' 1 opened)
    (hfew : opened ≤ limits.groups) :
    Valid limits { reader with
      level := .empty, opened := opened,
      frames := ⟨opening, offset, reader.level⟩ :: reader.frames } where
  level := Level.valid_empty limits _
  frames := ⟨hvalid.level, hopening, hvalid.frames⟩
  numbered := by
    show Frame.ids reader.frames ++ reader.level.entries.map Prod.fst ++ opening.ids ++ [] = _
    rw [hvalid.numbered, List.append_nil, hids]
  fewGroups := hfew
  recorded := by
    intro entry
    show _ ↔ entry ∈ Frame.entries reader.frames ++ reader.level.entries ++ []
    rw [List.append_nil]
    exact hvalid.recorded entry
  pending := hvalid.pending

/-- A bracket is closed: the finished level becomes an operand of the level around it. -/
theorem Valid.closed (hvalid : reader.Valid limits) {frame : Frame} {outer : List Frame}
    {body : Part} {atStart : SyntaxError} (hframes : reader.frames = frame :: outer)
    (hwhole : reader.level.whole limits atStart = .ok body) (hshallow : body.depth < limits.depth) :
    Valid limits { reader with
      level := frame.outer.push ⟨frame.opening.around body.expr, body.depth + 1, frame.offset⟩
      frames := outer
      captures := frame.opening.record body.expr reader.captures } := by
  obtain ⟨hbody, -, hentries⟩ := hvalid.level.whole hwhole
  have hframesValid := hvalid.frames
  have hnumbered := hvalid.numbered
  have hrecorded := hvalid.recorded
  rw [hframes] at hbody hframesValid hnumbered hrecorded
  obtain ⟨houterLevel, hopening, houter⟩ := hframesValid
  -- The numbers of all captures are different, so the one closed now is in no earlier entry.
  have hdistinct : (Frame.ids (frame :: outer) ++ reader.level.entries.map Prod.fst).Nodup := by
    rw [hnumbered]
    exact List.nodup_range'
  have hnew : ∀ other ∈ reader.captures.entries, other.1 ∉ frame.opening.ids := by
    intro other hmem hid
    obtain ⟨hleft, -, hright⟩ := List.nodup_append.mp hdistinct
    obtain ⟨-, -, hinner⟩ := List.nodup_append.mp hleft
    rcases List.mem_append.mp ((hrecorded other).mp hmem) with hmem | hmem
    · have hbefore : other.1 ∈ Frame.ids outer ++ frame.outer.entries.map Prod.fst := by
        rcases List.mem_append.mp hmem with hmem | hmem
        · exact List.mem_append_left _ (Frame.mem_ids_of_mem_entries hmem)
        · exact List.mem_append_right _ (List.mem_map_of_mem hmem)
      exact hinner _ hbefore _ hid rfl
    · exact hright _ (List.mem_append_right _ hid) _ (List.mem_map_of_mem hmem) rfl
  constructor
  · exact houterLevel.push (Frame.valid_around hopening hbody hshallow)
      (Opening.isOperand_around frame.opening body.expr)
  · exact houter
  · rw [Level.entries_push, List.map_append, Opening.map_fst_around, hentries, ← List.append_assoc,
      ← List.append_assoc]
    exact hnumbered
  · exact hvalid.fewGroups
  · intro entry
    rw [Opening.mem_record _ hnew, hrecorded, Level.entries_push, Frame.entries]
    simp only [List.mem_append, Opening.mem_around, hentries, or_assoc]
    exact or_congr_right (or_congr_right or_comm)
  · exact hvalid.pending

/-- A bar ends a branch. -/
theorem Valid.barred (hvalid : reader.Valid limits) {branch : Part} {atStart : SyntaxError}
    (hbranch : reader.level.branch limits atStart = .ok branch) (offset : Nat) :
    Valid limits { reader with level := ⟨(branch, offset) :: reader.level.branches, []⟩ } where
  level := hvalid.level.barred hbranch offset
  frames := hvalid.frames
  numbered := by
    rw [hvalid.level.entries_barred hbranch]
    exact hvalid.numbered
  fewGroups := hvalid.fewGroups
  recorded := by
    rw [hvalid.level.entries_barred hbranch]
    exact hvalid.recorded
  pending := hvalid.pending

/-- The latest operand is repeated. -/
theorem Valid.starred (hvalid : reader.Valid limits) {part : Part} {others : List Part}
    (hoperands : reader.level.operands = part :: others) (hshallow : part.depth < limits.depth) :
    Valid limits { reader with level := { reader.level with
      operands := ⟨.star part.expr, part.depth + 1, part.offset⟩ :: others } } where
  level := hvalid.level.starred hoperands hshallow
  frames := hvalid.frames
  numbered := by
    rw [Level.entries_starred hoperands]
    exact hvalid.numbered
  fewGroups := hvalid.fewGroups
  recorded := by
    rw [Level.entries_starred hoperands]
    exact hvalid.recorded
  pending := hvalid.pending

/-- The lexemes after one more operand. -/
theorem lexemes_push {part : Part} (hpending : reader.pending = none) :
    (reader.push part).lexemes = reader.lexemes ++ part.expr.lexemes := by
  simp [lexemes, Reader.push, hpending]

/-- The lexemes after a bracket was entered. -/
theorem lexemes_entered (hpending : reader.pending = none) (opening : Opening)
    (offset opened : Nat) :
    lexemes { reader with
      level := .empty, opened := opened,
      frames := ⟨opening, offset, reader.level⟩ :: reader.frames } =
      reader.lexemes ++ [opening.lexeme] := by
  simp [lexemes, Frame.lexemes, hpending, Level.lexemes, Level.empty]

/-- A step keeps a reader valid and adds its token to what was read. -/
theorem Valid.step (hvalid : reader.Valid limits) (hdepth : 0 < limits.depth) {token : Token}
    (hstep : reader.step limits token = .ok next) :
    next.Valid limits ∧ next.lexemes = reader.lexemes ++ [token.lexeme] := by
  unfold Reader.step at hstep
  cases hpending : reader.pending with
  | some reference =>
    rw [hpending] at hstep
    obtain ⟨hclose, id, hnumber, rfl⟩ := endReference_eq_ok.mp hstep
    obtain ⟨hdigit, hpayload⟩ := groupNumber?_eq_some.mp hnumber
    have hreference := Token.lexeme_of_payload (hvalid.pending reference hpending) rfl
    have hleaf := valid_leaf hdepth (Frame.inLookahead reader.frames) reference.offset
      (.reference id) rfl (.reference hdigit) (.reference id) (.reference id)
    have hpushed := hvalid.push hleaf trivial rfl
    constructor
    · exact ⟨hpushed.level, hpushed.frames, hpushed.numbered, hpushed.fewGroups, hpushed.recorded,
        fun _ heq => nomatch heq⟩
    · rw [Token.lexeme_of_kind hclose rfl]
      simp [lexemes, Reader.push, hpending, hreference, hpayload, Expr.lexemes]
  | none =>
    rw [hpending] at hstep
    cases hkind : token.kind with
    | openCapture =>
      rw [hkind] at hstep
      obtain ⟨houtside, hfew, _, rfl⟩ := enterCapture_eq_ok.mp hstep
      rw [Token.lexeme_of_kind hkind rfl]
      refine ⟨hvalid.entered (fun _ => houtside) ?_ hfew, lexemes_entered hpending _ _ _⟩
      rw [Opening.ids, List.range'_1_concat, Nat.add_comm]
    | openPlain =>
      rw [hkind] at hstep
      obtain ⟨_, rfl⟩ := enter_eq_ok.mp hstep
      rw [Token.lexeme_of_kind hkind rfl]
      refine ⟨hvalid.entered (fun hother => absurd rfl hother) ?_ hvalid.fewGroups,
        lexemes_entered hpending _ _ _⟩
      rw [Opening.ids, List.append_nil]
    | openLookahead =>
      rw [hkind] at hstep
      obtain ⟨houtside, _, rfl⟩ := enterLookahead_eq_ok.mp hstep
      rw [Token.lexeme_of_kind hkind rfl]
      refine ⟨hvalid.entered (fun _ => houtside) ?_ hvalid.fewGroups,
        lexemes_entered hpending _ _ _⟩
      rw [Opening.ids, List.append_nil]
    | openReference =>
      rw [hkind] at hstep
      cases hstep
      constructor
      · refine ⟨hvalid.level, hvalid.frames, hvalid.numbered, hvalid.fewGroups, hvalid.recorded, ?_⟩
        intro other heq
        cases heq
        exact hkind
      · simp [lexemes, hpending]
    | letter =>
      rw [hkind] at hstep
      obtain ⟨c, hpayload, rfl⟩ := takeLetter_eq_ok.mp hstep
      have hleaf := valid_leaf hdepth (Frame.inLookahead reader.frames) token.offset
        (.char c) rfl (.char c) (.char c) (.char c)
      refine ⟨hvalid.push hleaf trivial rfl, ?_⟩
      rw [lexemes_push hpending, Token.lexeme_of_payload hkind rfl, hpayload]
      rfl
    | bar =>
      rw [hkind] at hstep
      obtain ⟨branch, hbranch, rfl⟩ := takeBar_eq_ok.mp hstep
      refine ⟨hvalid.barred hbranch token.offset, ?_⟩
      rw [Token.lexeme_of_kind hkind rfl]
      simp [lexemes, hpending, hvalid.level.lexemes_barred hbranch]
    | star =>
      rw [hkind] at hstep
      obtain ⟨part, others, hoperands, hshallow, rfl⟩ := takeStar_eq_ok.mp hstep
      refine ⟨hvalid.starred hoperands hshallow, ?_⟩
      rw [Token.lexeme_of_kind hkind rfl]
      simp [lexemes, hpending, Level.lexemes_starred hoperands]
    | close =>
      rw [hkind] at hstep
      obtain ⟨body, frame, outer, hwhole, hframes, hshallow, rfl⟩ := takeClose_eq_ok.mp hstep
      refine ⟨hvalid.closed hframes hwhole hshallow, ?_⟩
      obtain ⟨-, hlexemes, -⟩ := hvalid.level.whole hwhole
      rw [Token.lexeme_of_kind hkind rfl]
      simp [lexemes, hpending, hframes, Frame.lexemes, Opening.lexemes_around, hlexemes]

/-- A run keeps a reader valid and adds its tokens to what was read. -/
theorem Valid.run (hvalid : reader.Valid limits) (hdepth : 0 < limits.depth) {tokens : List Token}
    (hrun : tokens.foldlM (Reader.step limits) reader = .ok next) :
    next.Valid limits ∧ next.lexemes = reader.lexemes ++ tokens.map Token.lexeme := by
  induction tokens generalizing reader with
  | nil =>
    cases hrun
    exact ⟨hvalid, (List.append_nil _).symm⟩
  | cons token tokens ih =>
    rw [List.foldlM_cons] at hrun
    obtain ⟨between, hstep, hrest⟩ := bind_eq_ok.mp hrun
    obtain ⟨hbetween, hlexemes⟩ := hvalid.step hdepth hstep
    obtain ⟨hnext, hrestLexemes⟩ := ih hbetween hrest
    refine ⟨hnext, ?_⟩
    rw [hrestLexemes, hlexemes, List.map_cons, List.append_assoc, List.singleton_append]

/-- Two lists of entries in ascending order of their numbers are the same if they have the same
members. -/
theorem entries_ext {left right : List (Nat × Expr)} (hleft : left.Pairwise (·.1 < ·.1))
    (hright : right.Pairwise (·.1 < ·.1)) (hmem : ∀ entry, entry ∈ left ↔ entry ∈ right) :
    left = right := by
  have hirrefl : Std.Irrefl fun first second : Nat × Expr => first.1 < second.1 :=
    ⟨fun _ => Nat.lt_irrefl _⟩
  have hasymm : Std.Antisymm fun first second : Nat × Expr => first.1 < second.1 :=
    ⟨fun _ _ hlt hgt => absurd hlt (Nat.lt_asymm hgt)⟩
  exact hleft.eq_of_mem_iff hright hmem

/-- What has been read is a well-formed expression that spells the tokens, and the table lists its
captures in the order of their openings. -/
theorem wellFormed_of_read (hdepth : 0 < limits.depth) {tokens : List Token} {pattern : Pattern}
    (hread : Reader.read limits tokens = .ok pattern) :
    pattern.root.WellFormed limits ∧ pattern.root.lexemes = tokens.map Token.lexeme ∧
      pattern.captures.entries = pattern.root.captureEntries := by
  unfold Reader.read at hread
  obtain ⟨reader, hrun, hfinish⟩ := bind_eq_ok.mp hread
  obtain ⟨hpending, hframes, whole, hwhole, rfl⟩ := finish_eq_ok.mp hfinish
  obtain ⟨hvalid, hlexemes⟩ := (valid_start limits).run hdepth hrun
  obtain ⟨hpart, hwholeLexemes, hentries⟩ := hvalid.level.whole hwhole
  have hnumbered := hvalid.numbered
  have hrecorded := hvalid.recorded
  simp only [hframes, Frame.ids, Frame.entries, List.nil_append, ← hentries] at hnumbered hrecorded
  have hids : whole.expr.captureIds = List.range' 1 reader.opened := by
    rw [← Expr.map_fst_captureEntries, hnumbered]
  have hcount : whole.expr.captureIds.length = reader.opened := by
    rw [hids, List.length_range']
  refine ⟨⟨⟨hpart.grouped, ?_, ?_, hpart.flat⟩, hpart.shallow⟩, ?_, ?_⟩
  · rw [hcount, hids]
  · rw [hcount]
    exact hvalid.fewGroups
  · rw [hwholeLexemes]
    simpa [lexemes, hframes, hpending, Frame.lexemes, Reader.start, Level.lexemes, Level.empty]
      using hlexemes
  · refine entries_ext reader.captures.ascending ?_ hrecorded
    have hascending : (whole.expr.captureEntries.map Prod.fst).Pairwise (· < ·) := by
      rw [hnumbered]
      exact List.pairwise_lt_range'
    exact List.pairwise_map.mp hascending

end Reader

end PatternGrammar
