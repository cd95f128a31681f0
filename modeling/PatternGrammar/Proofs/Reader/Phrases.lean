import PatternGrammar.Expr.Phrase
import PatternGrammar.Proofs.Reader.Numbering

/-!
# Phrases and expressions

The grammar of patterns and the trees describe the same token lists. The tokens of an expression
that is nested by precedence are phrases, of a kind that says how tightly the expression binds; and
every phrase can be put into a tree with its captures numbered on from any number. Sentences are
therefore exactly what is spelled by expressions that obey all rules but the limit on depth.
-/

namespace PatternGrammar

namespace Phrase

variable {inside : Bool} {α : Type} {items : List α} {write : α → List Lexeme} {last : List Lexeme}

/-- Operands before a concatenation. -/
theorem row_flatMap (hitems : ∀ item ∈ items, Phrase inside .repetition (write item))
    (hlast : Phrase inside .concatenation last) :
    Phrase inside .concatenation (items.flatMap write ++ last) := by
  induction items with
  | nil => exact hlast
  | cons item items ih =>
    obtain ⟨hitem, hothers⟩ := List.forall_mem_cons.mp hitems
    rw [List.flatMap_cons, List.append_assoc]
    exact .row hitem (ih hothers)

/-- Branches, each with a bar after it, before an alternation. -/
theorem bar_flatMap (hitems : ∀ item ∈ items, Phrase inside .concatenation (write item))
    (hlast : Phrase inside .alternation last) :
    Phrase inside .alternation
      (items.flatMap (fun item => write item ++ [⟨.bar, none⟩]) ++ last) := by
  induction items with
  | nil => exact hlast
  | cons item items ih =>
    obtain ⟨hitem, hothers⟩ := List.forall_mem_cons.mp hitems
    rw [List.flatMap_cons, List.append_assoc, List.append_assoc, List.singleton_append]
    exact .bar hitem (ih hothers)

end Phrase

/-- The digits are the characters of the numbers below ten. -/
theorem isDigit_iff_groupDigit {digit : Char} :
    digit.isDigit = true ↔ ∃ id, id ≤ 9 ∧ groupDigit id = digit := by
  constructor
  · intro hdigit
    have hnumber : Reader.groupNumber? ⟨.openReference, some digit, 0⟩ =
        some (digit.toNat - '0'.toNat) := if_pos hdigit
    obtain ⟨hsmall, hpayload⟩ := Reader.groupNumber?_eq_some.mp hnumber
    exact ⟨_, hsmall, (Option.some.inj hpayload).symm⟩
  · rintro ⟨id, hsmall, rfl⟩
    interval_cases id <;> rfl

namespace Expr

/-- The tokens of the expression are a phrase wherever the expression may stand. -/
def IsPhrase (kind : PhraseKind) (expr : Expr) : Prop :=
  ∀ inside, expr.FlatLookaheads → (inside = true → expr.Bare) → Phrase inside kind expr.lexemes

/-- What is a repetition is a phrase of every looser kind. -/
theorem IsPhrase.everywhere {expr : Expr} (hphrase : expr.IsPhrase .repetition) :
    (expr.IsOperand → expr.IsPhrase .repetition) ∧ (expr.IsBranch → expr.IsPhrase .concatenation) ∧
      expr.IsPhrase .alternation :=
  ⟨fun _ => hphrase, fun _ inside hflat hbare => .operand (hphrase inside hflat hbare),
    fun inside hflat hbare => .branch (.operand (hphrase inside hflat hbare))⟩

/-- A bracket is an atom if its body is an alternation. -/
theorem IsPhrase.around {body : Expr} (hphrase : body.IsPhrase .alternation) (opening : Opening) :
    (opening.around body).IsPhrase .repetition := by
  intro inside hflat hbare
  rw [Opening.lexemes_around]
  refine .once ?_
  cases opening with
  | capture id =>
    cases hflat with
    | capture hbody =>
      cases inside with
      | false => exact .capture (hphrase false hbody nofun)
      | true => cases hbare rfl
  | plain =>
    cases hflat with
    | plain hbody =>
      refine .plain (hphrase inside hbody fun hinside => ?_)
      cases hbare hinside with | plain hbare => exact hbare
  | lookahead =>
    cases hflat with
    | lookahead hbody =>
      cases inside with
      | false => exact .lookahead (hphrase true hbody.flatLookaheads fun _ => hbody)
      | true => cases hbare rfl

/-- A row is a concatenation if its operands are repetitions. -/
theorem isPhrase_concat {operands : List Expr} (hseveral : 2 ≤ operands.length)
    (hoperands : ∀ operand ∈ operands, operand.IsPhrase .repetition) :
    (Expr.concat operands).IsPhrase .concatenation := by
  intro inside hflat hbare
  have hphrases : ∀ operand ∈ operands, Phrase inside .repetition operand.lexemes := by
    intro operand hmem
    refine hoperands operand hmem inside ?_ fun hinside => ?_
    · cases hflat with | concat hflat => exact hflat operand hmem
    · cases hbare hinside with | concat hbare => exact hbare operand hmem
  rcases List.eq_nil_or_concat' operands with rfl | ⟨front, last, rfl⟩
  · cases hseveral
  · rw [lexemes, rowLexemes_eq, List.flatMap_append, List.flatMap_singleton]
    exact .row_flatMap (fun operand hmem => hphrases operand (List.mem_append_left _ hmem))
      (.operand (hphrases last List.mem_concat_self))

/-- An alternation is one if its branches are concatenations. -/
theorem isPhrase_alternation {operands : List Expr} (hseveral : 2 ≤ operands.length)
    (hoperands : ∀ operand ∈ operands, operand.IsPhrase .concatenation) :
    (Expr.alternation operands).IsPhrase .alternation := by
  intro inside hflat hbare
  have hphrases : ∀ operand ∈ operands, Phrase inside .concatenation operand.lexemes := by
    intro operand hmem
    refine hoperands operand hmem inside ?_ fun hinside => ?_
    · cases hflat with | alternation hflat => exact hflat operand hmem
    · cases hbare hinside with | alternation hbare => exact hbare operand hmem
  rcases List.eq_nil_or_concat' operands with rfl | ⟨front, last, rfl⟩
  · cases hseveral
  · rw [lexemes, branchLexemes_append_singleton]
    exact .bar_flatMap (fun operand hmem => hphrases operand (List.mem_append_left _ hmem))
      (.branch (hphrases last List.mem_concat_self))

/-- The tokens of an expression nested by precedence are a repetition or a concatenation where
precedence allows, and always an alternation. -/
theorem Grouped.isPhrase {expr : Expr} (hgrouped : expr.Grouped) :
    (expr.IsOperand → expr.IsPhrase .repetition) ∧ (expr.IsBranch → expr.IsPhrase .concatenation) ∧
      expr.IsPhrase .alternation := by
  induction hgrouped with
  | char c =>
    have hphrase : (Expr.char c).IsPhrase .repetition := fun _ _ _ => .once (.letter c)
    exact hphrase.everywhere
  | concat hseveral hoperand _ ih =>
    have hphrase :=
      isPhrase_concat hseveral fun operand hmem => (ih operand hmem).1 (hoperand operand hmem)
    exact ⟨nofun, fun _ => hphrase, fun inside hflat hbare => .branch (hphrase inside hflat hbare)⟩
  | alternation hseveral hbranch _ ih =>
    exact ⟨nofun, nofun,
      isPhrase_alternation hseveral fun operand hmem =>
        (ih operand hmem).2.1 (hbranch operand hmem)⟩
  | @star body hoperand _ ih =>
    have hphrase : (Expr.star body).IsPhrase .repetition := by
      intro inside hflat hbare
      refine .star (ih.1 hoperand inside ?_ fun hinside => ?_)
      · cases hflat with | star hbody => exact hbody
      · cases hbare hinside with | star hbody => exact hbody
    exact hphrase.everywhere
  | @capture id body _ ih => exact (ih.2.2.around (.capture id)).everywhere
  | plain _ ih => exact (ih.2.2.around .plain).everywhere
  | lookahead _ ih => exact (ih.2.2.around .lookahead).everywhere
  | @reference id hsmall =>
    have hdigit : (groupDigit id).isDigit = true := isDigit_iff_groupDigit.mpr ⟨id, hsmall, rfl⟩
    have hphrase : (Expr.reference id).IsPhrase .repetition :=
      fun _ _ _ => .once (.reference hdigit)
    exact hphrase.everywhere

/-- The expressions may stand one after another where so many captures were opened before, in a
lookahead if `inside`. -/
structure Fit (inside : Bool) (opened : Nat) (exprs : List Expr) : Prop where
  /-- Operations are nested by precedence. -/
  grouped : ∀ expr ∈ exprs, expr.Grouped
  /-- Nothing is captured or looked ahead for inside a lookahead. -/
  flat : ∀ expr ∈ exprs, expr.FlatLookaheads
  /-- Nothing is captured or looked ahead for if a lookahead is open. -/
  bare : inside = true → ∀ expr ∈ exprs, expr.Bare
  /-- Captures go on with the next number. -/
  numbered : exprs.flatMap captureIds = List.range' (opened + 1) (exprs.flatMap captureIds).length

section Fit

variable {inside : Bool} {opened : Nat} {expr body : Expr} {exprs : List Expr}

/-- An expression that captures nothing. -/
theorem Fit.of_bare (hgrouped : expr.Grouped) (hbare : expr.Bare) (hnone : expr.captureIds = []) :
    Fit inside opened [expr] where
  grouped := List.forall_mem_singleton.mpr hgrouped
  flat := List.forall_mem_singleton.mpr hbare.flatLookaheads
  bare := fun _ => List.forall_mem_singleton.mpr hbare
  numbered := by
    rw [List.flatMap_singleton, hnone]
    rfl

/-- One more expression before others. -/
theorem Fit.cons (hexpr : Fit inside opened [expr])
    (hexprs : Fit inside (opened + expr.captureIds.length) exprs) :
    Fit inside opened (expr :: exprs) where
  grouped := List.forall_mem_cons.mpr ⟨hexpr.grouped expr List.mem_cons_self, hexprs.grouped⟩
  flat := List.forall_mem_cons.mpr ⟨hexpr.flat expr List.mem_cons_self, hexprs.flat⟩
  bare := fun hinside =>
    List.forall_mem_cons.mpr ⟨hexpr.bare hinside expr List.mem_cons_self, hexprs.bare hinside⟩
  numbered := by
    have hfirst := hexpr.numbered
    have hothers := hexprs.numbered
    rw [List.flatMap_singleton] at hfirst
    rw [Nat.add_right_comm] at hothers
    rw [List.flatMap_cons, List.length_append, ← List.range'_append_1, ← hfirst, ← hothers]

/-- A node that captures nothing itself, around expressions that may stand there. -/
theorem Fit.node (hfit : Fit inside opened exprs) (hgrouped : expr.Grouped)
    (hflat : (∀ part ∈ exprs, part.FlatLookaheads) → expr.FlatLookaheads)
    (hbare : (∀ part ∈ exprs, part.Bare) → expr.Bare)
    (hids : expr.captureIds = exprs.flatMap captureIds) : Fit inside opened [expr] where
  grouped := List.forall_mem_singleton.mpr hgrouped
  flat := List.forall_mem_singleton.mpr (hflat hfit.flat)
  bare := fun hinside => List.forall_mem_singleton.mpr (hbare (hfit.bare hinside))
  numbered := by
    rw [List.flatMap_singleton, hids]
    exact hfit.numbered

/-- A capture takes the next number and its body goes on after it. -/
theorem Fit.capture (hfit : Fit false (opened + 1) [body]) :
    Fit false opened [.capture (opened + 1) body] where
  grouped := List.forall_mem_singleton.mpr (.capture (hfit.grouped body List.mem_cons_self))
  flat := List.forall_mem_singleton.mpr (.capture (hfit.flat body List.mem_cons_self))
  bare := nofun
  numbered := by
    have hbody := hfit.numbered
    rw [List.flatMap_singleton] at hbody ⊢
    rw [captureIds, List.length_cons, List.range'_succ, ← hbody]

/-- A lookahead may stand outside lookaheads if its body may stand in one. -/
theorem Fit.lookahead (hfit : Fit true opened [body]) : Fit false opened [.lookahead body] where
  grouped := List.forall_mem_singleton.mpr (.lookahead (hfit.grouped body List.mem_cons_self))
  flat := List.forall_mem_singleton.mpr (.lookahead (hfit.bare rfl body List.mem_cons_self))
  bare := nofun
  numbered := by
    have hbody := hfit.numbered
    rw [List.flatMap_singleton] at hbody ⊢
    exact hbody

end Fit

end Expr

/-- What the lexemes of a phrase of the kind spell where so many captures were opened before. -/
def PhraseKind.Spells (inside : Bool) (opened : Nat) (lexemes : List Lexeme) : PhraseKind → Prop
  | .alternation => ∃ branches : List Expr, branches ≠ [] ∧ (∀ branch ∈ branches, branch.IsBranch) ∧
      Expr.Fit inside opened branches ∧ Expr.branchLexemes branches = lexemes
  | .concatenation =>
    ∃ operands : List Expr, operands ≠ [] ∧ (∀ operand ∈ operands, operand.IsOperand) ∧
      Expr.Fit inside opened operands ∧ operands.flatMap Expr.lexemes = lexemes
  | .repetition | .atom => ∃ expr : Expr, expr.IsOperand ∧ Expr.Fit inside opened [expr] ∧
      expr.lexemes = lexemes

namespace PhraseKind.Spells

variable {inside : Bool} {opened : Nat} {lexemes : List Lexeme}

/-- The operands of a concatenation make one branch: a single one is the branch, several stand in a
row. -/
theorem exists_branch (hspells : PhraseKind.Spells inside opened lexemes .concatenation) :
    ∃ branch : Expr, branch.IsBranch ∧ Expr.Fit inside opened [branch] ∧
      branch.lexemes = lexemes := by
  obtain ⟨operands, hsome, hoperand, hfit, rfl⟩ := hspells
  obtain ⟨first, others, rfl⟩ := List.exists_cons_of_ne_nil hsome
  cases others with
  | nil =>
    have hfirst := hoperand first List.mem_cons_self
    exact ⟨first, hfirst.isBranch, hfit, (List.flatMap_singleton ..).symm⟩
  | cons second others =>
    have hgrouped : (Expr.concat (first :: second :: others)).Grouped :=
      .concat (by simp) hoperand hfit.grouped
    refine ⟨.concat (first :: second :: others), trivial, ?_, Expr.rowLexemes_eq _⟩
    exact hfit.node hgrouped .concat .concat (Expr.listCaptureIds_eq _)

/-- The branches of an alternation make one expression: a single one is the expression. -/
theorem exists_level (hspells : PhraseKind.Spells inside opened lexemes .alternation) :
    ∃ level : Expr, Expr.Fit inside opened [level] ∧ level.lexemes = lexemes := by
  obtain ⟨branches, hsome, hbranch, hfit, rfl⟩ := hspells
  obtain ⟨first, others, rfl⟩ := List.exists_cons_of_ne_nil hsome
  cases others with
  | nil => exact ⟨first, hfit, rfl⟩
  | cons second others =>
    have hgrouped : (Expr.alternation (first :: second :: others)).Grouped :=
      .alternation (by simp) hbranch hfit.grouped
    refine ⟨.alternation (first :: second :: others), ?_, rfl⟩
    exact hfit.node hgrouped .alternation .alternation (Expr.listCaptureIds_eq _)

end PhraseKind.Spells

/-- Every phrase can be put into a tree, with its captures numbered on from any number. -/
theorem Phrase.spells {inside : Bool} {kind : PhraseKind} {lexemes : List Lexeme}
    (hphrase : Phrase inside kind lexemes) (opened : Nat) : kind.Spells inside opened lexemes := by
  -- The captures of what stands further right are numbered after those on the left.
  induction hphrase generalizing opened with
  | branch _ ih =>
    obtain ⟨branch, hbranch, hfit, rfl⟩ := (ih opened).exists_branch
    exact ⟨[branch], by simp, List.forall_mem_singleton.mpr hbranch, hfit, rfl⟩
  | bar _ _ ihfirst ihothers =>
    obtain ⟨branch, hbranch, hfit, rfl⟩ := (ihfirst opened).exists_branch
    obtain ⟨branches, hsome, hbranches, hfits, rfl⟩ := ihothers (opened + branch.captureIds.length)
    obtain ⟨second, others, rfl⟩ := List.exists_cons_of_ne_nil hsome
    exact ⟨branch :: second :: others, by simp, List.forall_mem_cons.mpr ⟨hbranch, hbranches⟩,
      hfit.cons hfits, Expr.branchLexemes_cons_cons ..⟩
  | operand _ ih =>
    obtain ⟨operand, hoperand, hfit, rfl⟩ := ih opened
    exact ⟨[operand], by simp, List.forall_mem_singleton.mpr hoperand, hfit,
      List.flatMap_singleton ..⟩
  | row _ _ ihfirst ihothers =>
    obtain ⟨operand, hoperand, hfit, rfl⟩ := ihfirst opened
    obtain ⟨operands, -, hoperands, hfits, rfl⟩ := ihothers (opened + operand.captureIds.length)
    exact ⟨operand :: operands, by simp, List.forall_mem_cons.mpr ⟨hoperand, hoperands⟩,
      hfit.cons hfits, List.flatMap_cons⟩
  | once _ ih => exact ih opened
  | star _ ih =>
    obtain ⟨body, hoperand, hfit, rfl⟩ := ih opened
    have hgrouped : (Expr.star body).Grouped :=
      .star hoperand (hfit.grouped body List.mem_cons_self)
    refine ⟨.star body, trivial, hfit.node hgrouped ?_ ?_ ?_, rfl⟩
    · exact fun hflat => .star (hflat body List.mem_cons_self)
    · exact fun hbare => .star (hbare body List.mem_cons_self)
    · rw [List.flatMap_singleton, Expr.captureIds]
  | capture _ ih =>
    obtain ⟨body, hfit, rfl⟩ := (ih (opened + 1)).exists_level
    exact ⟨.capture (opened + 1) body, trivial, hfit.capture, rfl⟩
  | plain _ ih =>
    obtain ⟨body, hfit, rfl⟩ := (ih opened).exists_level
    have hgrouped : (Expr.plain body).Grouped := .plain (hfit.grouped body List.mem_cons_self)
    refine ⟨.plain body, trivial, hfit.node hgrouped ?_ ?_ ?_, rfl⟩
    · exact fun hflat => .plain (hflat body List.mem_cons_self)
    · exact fun hbare => .plain (hbare body List.mem_cons_self)
    · rw [List.flatMap_singleton, Expr.captureIds]
  | lookahead _ ih =>
    obtain ⟨body, hfit, rfl⟩ := (ih opened).exists_level
    exact ⟨.lookahead body, trivial, hfit.lookahead, rfl⟩
  | reference hdigit =>
    obtain ⟨id, hsmall, rfl⟩ := isDigit_iff_groupDigit.mp hdigit
    exact ⟨.reference id, trivial, .of_bare (.reference hsmall) (.reference id) rfl, rfl⟩
  | letter c => exact ⟨.char c, trivial, .of_bare (.char c) (.char c) rfl, rfl⟩

/-- Sentences are exactly the token lists that spell an expression which obeys all rules but the
limit on depth. -/
theorem Token.sentence_iff {limits : Limits} {tokens : List Token} :
    Token.Sentence limits tokens ↔
      ∃ root : Expr, root.Writable limits ∧ root.lexemes = tokens.map Token.lexeme := by
  constructor
  · rintro ⟨hphrase, hfew⟩
    obtain ⟨root, hfit, hlexemes⟩ := (hphrase.spells 0).exists_level
    have hnumbered := hfit.numbered
    rw [List.flatMap_singleton] at hnumbered
    rw [Expr.countP_openCapture hlexemes] at hfew
    exact ⟨root, ⟨hfit.grouped root List.mem_cons_self, hnumbered, hfew,
      hfit.flat root List.mem_cons_self⟩, hlexemes⟩
  · rintro ⟨root, hwritable, hlexemes⟩
    constructor
    · rw [← hlexemes]
      exact hwritable.grouped.isPhrase.2.2 false hwritable.flat nofun
    · rw [Expr.countP_openCapture hlexemes]
      exact hwritable.fewGroups

end PatternGrammar
