import PatternGrammar.Proofs.Reader.Acceptance
import PatternGrammar.Proofs.Reader.Captures

/-!
# Where captures are written

The tokens of an expression have matching brackets, and its captures open in the order in which they
are listed. The body of a capture is therefore written between the opening of its number and the
closing bracket that matches it, and these tokens can be read in no other way. A group is numbered
where it opens and entered in the table where it closes; for whatever nesting, the table, the
expression and the tokens agree.
-/

namespace PatternGrammar

/-- Whether a kind of token opens a bracket. -/
def TokenKind.opens : TokenKind → Bool
  | .openCapture | .openPlain | .openLookahead | .openReference => true
  | .letter | .bar | .star | .close => false

/-- Every bracket that is opened is closed again, and none is closed that was not opened. -/
inductive Balanced : List TokenKind → Prop where
  /-- Nothing. -/
  | nil : Balanced []
  /-- A token that is no bracket. -/
  | other {kind : TokenKind} {rest : List TokenKind} (opensNone : kind.opens = false)
    (closesNone : kind ≠ .close) (balanced : Balanced rest) : Balanced (kind :: rest)
  /-- A bracket with what stands in it. -/
  | bracket {opening : TokenKind} {inside rest : List TokenKind} (opens : opening.opens = true)
    (balancedInside : Balanced inside) (balanced : Balanced rest) :
    Balanced (opening :: (inside ++ .close :: rest))

/-- Balanced brackets after balanced brackets. -/
theorem Balanced.append {front back : List TokenKind} (hfront : Balanced front)
    (hback : Balanced back) : Balanced (front ++ back) := by
  induction hfront with
  | nil => exact hback
  | other hopens hcloses _ ih => exact .other hopens hcloses ih
  | bracket hopens hinside _ _ ih =>
    rw [List.cons_append, List.append_assoc, List.cons_append]
    exact .bracket hopens hinside ih

namespace Expr

/-- The lexemes of several branches: the first, a bar and the others. -/
theorem branchLexemes_cons_cons (first second : Expr) (others : List Expr) :
    branchLexemes (first :: second :: others) =
      first.lexemes ++ ⟨.bar, none⟩ :: branchLexemes (second :: others) := by
  rw [branchLexemes]
  simp

/-- The tokens of an expression have matching brackets. -/
theorem balanced_lexemes (expr : Expr) : Balanced (expr.lexemes.map Lexeme.kind) := by
  induction expr with
  | char c => exact .other rfl (by simp) .nil
  | reference id => exact .bracket rfl .nil .nil
  | concat operands ih =>
    rw [lexemes, rowLexemes_eq]
    induction operands with
    | nil => exact .nil
    | cons operand others ihrest =>
      obtain ⟨hfirst, hothers⟩ := List.forall_mem_cons.mp ih
      rw [List.flatMap_cons, List.map_append]
      exact hfirst.append (ihrest hothers)
  | alternation operands ih =>
    rw [lexemes]
    induction operands with
    | nil => exact .nil
    | cons operand others ihrest =>
      obtain ⟨hfirst, hothers⟩ := List.forall_mem_cons.mp ih
      cases others with
      | nil => exact hfirst
      | cons second others =>
        rw [branchLexemes_cons_cons, List.map_append, List.map_cons]
        exact hfirst.append (.other rfl (by decide) (ihrest hothers))
  | star body ih =>
    rw [lexemes, List.map_append]
    exact ih.append (.other rfl (by decide) .nil)
  | capture id body ih | plain body ih | lookahead body ih =>
    rw [lexemes, List.map_cons, List.map_append]
    exact .bracket rfl ih .nil

end Expr

/-- Number of capture groups that a list of lexemes opens. -/
def Lexeme.countCaptures (lexemes : List Lexeme) : Nat :=
  lexemes.countP (·.kind = .openCapture)

/-- The lexemes open as many captures as are listed, and each is written between its opening, found
by its place in the list, and a closing bracket. -/
structure Locates (lexemes : List Lexeme) (entries : List (Nat × Expr)) : Prop where
  /-- As many captures are opened as are listed. -/
  count : Lexeme.countCaptures lexemes = entries.length
  /-- Each body stands after its opening. -/
  place : ∀ index id body, entries[index]? = some (id, body) → ∃ front back,
    lexemes = front ++ ⟨.openCapture, none⟩ :: (body.lexemes ++ ⟨.close, none⟩ :: back) ∧
      Lexeme.countCaptures front = index

namespace Locates

/-- Lexemes that open no capture. -/
theorem idle {lexemes : List Lexeme} (hidle : Lexeme.countCaptures lexemes = 0) :
    Locates lexemes [] where
  count := hidle
  place := nofun

/-- Two lists of lexemes with their captures one after the other. -/
theorem append {left right : List Lexeme} {first second : List (Nat × Expr)}
    (hleft : Locates left first) (hright : Locates right second) :
    Locates (left ++ right) (first ++ second) where
  count := by
    rw [Lexeme.countCaptures, List.countP_append, List.length_append, ← hleft.count, ← hright.count]
    rfl
  place := by
    intro index id body hentry
    rw [List.getElem?_append] at hentry
    split at hentry
    next hearly =>
      obtain ⟨front, back, rfl, hcount⟩ := hleft.place index id body hentry
      refine ⟨front, back ++ right, ?_, hcount⟩
      simp only [List.append_assoc, List.cons_append]
    next hlate =>
      obtain ⟨front, back, rfl, hcount⟩ := hright.place _ id body hentry
      refine ⟨left ++ front, back, (List.append_assoc ..).symm, ?_⟩
      have hsum : Lexeme.countCaptures (left ++ front) =
          Lexeme.countCaptures left + Lexeme.countCaptures front := List.countP_append
      have hbefore := hleft.count
      omega

/-- A token that opens and closes no capture after lexemes with their captures. -/
theorem snoc {lexemes : List Lexeme} {entries : List (Nat × Expr)}
    (hlexemes : Locates lexemes entries) (last : Lexeme) (hidle : Lexeme.countCaptures [last] = 0) :
    Locates (lexemes ++ [last]) entries := by
  have hlast := hlexemes.append (idle hidle)
  rwa [List.append_nil] at hlast

/-- A capture around lexemes with their captures is listed before them. -/
theorem capture {id : Nat} {body : Expr} {entries : List (Nat × Expr)}
    (hbody : Locates body.lexemes entries) :
    Locates (⟨.openCapture, none⟩ :: (body.lexemes ++ [⟨.close, none⟩]))
      ((id, body) :: entries) := by
  have hinside := hbody.snoc ⟨.close, none⟩ rfl
  refine ⟨?_, fun index other inner hentry => ?_⟩
  · rw [Lexeme.countCaptures, List.countP_cons, List.length_cons, ← hinside.count]
    rfl
  · cases index with
    | zero =>
      cases hentry
      exact ⟨[], [], rfl, rfl⟩
    | succ index =>
      obtain ⟨front, back, heq, hcount⟩ := hinside.place index other inner hentry
      refine ⟨⟨.openCapture, none⟩ :: front, back, ?_, ?_⟩
      · rw [heq, List.cons_append]
      · rw [← hcount, Lexeme.countCaptures, List.countP_cons]
        rfl

end Locates

namespace Expr

/-- The lexemes of an expression open its captures in the order in which they are listed. -/
theorem locates_lexemes (expr : Expr) : Locates expr.lexemes expr.captureEntries := by
  induction expr with
  | char c => exact .idle rfl
  | reference id => exact .idle rfl
  | concat operands ih =>
    rw [lexemes, rowLexemes_eq, captureEntries, listCaptureEntries_eq]
    induction operands with
    | nil => exact .idle rfl
    | cons operand others ihrest =>
      obtain ⟨hfirst, hothers⟩ := List.forall_mem_cons.mp ih
      rw [List.flatMap_cons, List.flatMap_cons]
      exact hfirst.append (ihrest hothers)
  | alternation operands ih =>
    rw [lexemes, captureEntries, listCaptureEntries_eq]
    induction operands with
    | nil => exact .idle rfl
    | cons operand others ihrest =>
      obtain ⟨hfirst, hothers⟩ := List.forall_mem_cons.mp ih
      cases others with
      | nil =>
        rw [List.flatMap_singleton]
        exact hfirst
      | cons second others =>
        have hbar : Locates [⟨.bar, none⟩] [] := .idle rfl
        rw [branchLexemes_cons_cons, List.flatMap_cons]
        exact hfirst.append (hbar.append (ihrest hothers))
  | capture id body ih => exact ih.capture
  | star body ih => exact ih.snoc ⟨.star, none⟩ rfl
  | plain body ih =>
    have hopening : Locates [⟨.openPlain, none⟩] [] := .idle rfl
    exact hopening.append (ih.snoc ⟨.close, none⟩ rfl)
  | lookahead body ih =>
    have hopening : Locates [⟨.openLookahead, none⟩] [] := .idle rfl
    exact hopening.append (ih.snoc ⟨.close, none⟩ rfl)

/-- Tokens that spell an expression open as many captures as the expression has. -/
theorem countP_openCapture {expr : Expr} {tokens : List Token}
    (hlexemes : expr.lexemes = tokens.map Token.lexeme) :
    tokens.countP (·.kind = .openCapture) = expr.captureIds.length := by
  have hcount := expr.locates_lexemes.count
  rw [hlexemes, Lexeme.countCaptures, List.countP_map] at hcount
  rw [← map_fst_captureEntries, List.length_map, ← hcount]
  rfl

/-- The numbers of what an expression shows follow each other in those of the expression. -/
theorem Exposes.captureIds_infix {expr inner : Expr} (hexposes : expr.Exposes inner) :
    inner.captureIds <:+: expr.captureIds := by
  induction hexposes with
  | here => exact List.infix_refl _
  | concat hmem _ ih | alternation hmem _ ih =>
    obtain ⟨front, back, rfl⟩ := List.append_of_mem hmem
    rw [captureIds, listCaptureIds_eq, List.flatMap_append, List.flatMap_cons]
    exact ih.trans ⟨front.flatMap captureIds, back.flatMap captureIds, List.append_assoc ..⟩
  | star _ ih | plain _ ih => exact ih
  | capture _ ih => exact ih.trans (List.suffix_cons ..).isInfix

/-- If captures are numbered by their openings, those inside a capture go on after its number. -/
theorem Exposes.numbered_body {expr body : Expr} {id : Nat}
    (hexposes : expr.Exposes (.capture id body))
    (hnumbered : expr.captureIds = List.range' 1 expr.captureIds.length) :
    body.captureIds = List.range' (id + 1) body.captureIds.length := by
  obtain ⟨before, after, heq⟩ := hexposes.captureIds_infix
  rw [← heq] at hnumbered
  have hinner := (numbered_append (numbered_append hnumbered).1).2
  rw [captureIds, List.length_cons, List.range'_succ] at hinner
  obtain ⟨hid, hbody⟩ := List.cons.inj hinner
  rwa [hid]

/-- What stands outside lookaheads of an expression has flat lookaheads if the expression has. -/
theorem FlatLookaheads.of_exposes {expr inner : Expr} (hflat : expr.FlatLookaheads)
    (hexposes : expr.Exposes inner) : inner.FlatLookaheads := by
  induction hexposes with
  | here => exact hflat
  | concat hmem _ ih =>
    cases hflat with
    | concat hoperands => exact ih (hoperands _ hmem)
  | alternation hmem _ ih =>
    cases hflat with
    | alternation hoperands => exact ih (hoperands _ hmem)
  | star _ ih =>
    cases hflat with
    | star hbody => exact ih hbody
  | capture _ ih =>
    cases hflat with
    | capture hbody => exact ih hbody
  | plain _ ih =>
    cases hflat with
    | plain hbody => exact ih hbody

/-- The tokens spell the expression, whose captures are numbered on after so many groups. -/
structure SpelledBy (opened : Nat) (tokens : List Token) (expr : Expr) : Prop where
  /-- Operations are nested by precedence. -/
  grouped : expr.Grouped
  /-- Nothing is captured or looked ahead for inside a lookahead. -/
  flat : expr.FlatLookaheads
  /-- Captures go on with the next number. -/
  numbered : expr.captureIds = List.range' (opened + 1) expr.captureIds.length
  /-- The lexemes are those of the tokens. -/
  lexemes : expr.lexemes = tokens.map Token.lexeme

/-- A reader that has opened so many groups may go on with an expression whose captures are numbered
after them, within limits that are large enough. -/
theorem SpelledBy.admits {opened : Nat} {tokens : List Token} {expr : Expr}
    (hspelled : expr.SpelledBy opened tokens) {limits : Limits} (hdepth : expr.depth ≤ limits.depth)
    (hgroups : opened + expr.captureIds.length ≤ limits.groups) :
    Reader.Admits limits ⟨.empty, [], opened, .empty, none⟩ [expr] where
  pending := rfl
  shallow := by
    simp only [listDepth, List.length_nil]
    omega
  grouped := List.forall_mem_singleton.mpr hspelled.grouped
  flat := List.forall_mem_singleton.mpr hspelled.flat
  bare := nofun
  numbered := by
    rw [List.flatMap_singleton]
    exact hspelled.numbered
  fewGroups := by
    rw [List.flatMap_singleton]
    exact hgroups

/-- Tokens spell at most one expression. -/
theorem SpelledBy.unique {opened : Nat} {tokens : List Token} {expr other : Expr}
    (hspelled : expr.SpelledBy opened tokens) (hother : other.SpelledBy opened tokens) :
    expr = other := by
  -- A reader with room for both expressions comes to the same end with either of them.
  let limits : Limits :=
    ⟨opened + expr.captureIds.length + other.captureIds.length, expr.depth + other.depth⟩
  have hadmits : Reader.Admits limits ⟨.empty, [], opened, .empty, none⟩ [expr] :=
    hspelled.admits (Nat.le_add_right ..) (Nat.le_add_right ..)
  have hadmitsOther : Reader.Admits limits ⟨.empty, [], opened, .empty, none⟩ [other] := by
    refine hother.admits (Nat.le_add_left ..) ?_
    simp only [limits]
    omega
  obtain ⟨level, offset, captures, hrun, hwhole⟩ :=
    Reader.takesLevel_of_grouped hspelled.grouped _ tokens hadmits rfl hspelled.lexemes.symm
  obtain ⟨levelOther, offsetOther, capturesOther, hrunOther, hwholeOther⟩ :=
    Reader.takesLevel_of_grouped hother.grouped _ tokens hadmitsOther rfl hother.lexemes.symm
  have hsame := congrArg Reader.level (Except.ok.inj (hrun.symm.trans hrunOther))
  have hlevel : level = levelOther := hsame
  have hend := hwhole (.unexpectedEnd .atom)
  rw [hlevel, hwholeOther] at hend
  exact (congrArg Part.expr (Except.ok.inj hend)).symm

end Expr

/-- The tokens strictly between the opening of a capture group, found by its number, and the closing
bracket that matches it. -/
def Token.Encloses (tokens : List Token) (id : Nat) (inside : List Token) : Prop :=
  ∃ front opening closing back, tokens = front ++ opening :: (inside ++ closing :: back) ∧
    opening.kind = .openCapture ∧ front.countP (·.kind = .openCapture) + 1 = id ∧
    closing.kind = .close ∧ Balanced (inside.map Token.kind)

namespace Pattern

/-- What is known of a capture group of a pattern that was read from tokens. -/
structure Holds (pattern : Pattern) (tokens : List Token) (id : Nat) (body : Expr) : Prop where
  /-- The table holds the body. -/
  recorded : pattern.captures.get? id = some body
  /-- No other capture of the expression has the number. -/
  single : pattern.root.captureIds.count id = 1
  /-- The capture stands outside lookaheads. -/
  shown : pattern.root.Exposes (.capture id body)
  /-- The body is what the tokens inside the group spell, and they spell nothing else. -/
  spelled : ∃ inside, Token.Encloses tokens id inside ∧ body.SpelledBy id inside ∧
    ∀ other : Expr, other.SpelledBy id inside → other = body

section OfTokens

variable {tokens : List Token} {pattern : Pattern} (hread : Pattern.ofTokens tokens = .ok pattern)
include hread

/-- As many captures are opened by the tokens as there are in the expression. -/
theorem countP_openCapture_of_ofTokens :
    tokens.countP (·.kind = .openCapture) = pattern.root.captureIds.length :=
  Expr.countP_openCapture (Reader.wellFormed_of_read (by decide) hread).2.1

/-- The body of a capture is what the tokens inside the group of its number spell. -/
theorem spelled_of_mem_captureEntries {id : Nat} {body : Expr}
    (hentry : (id, body) ∈ pattern.root.captureEntries) :
    ∃ inside, Token.Encloses tokens id inside ∧ body.SpelledBy id inside := by
  obtain ⟨hwellFormed, hlexemes, -⟩ := Reader.wellFormed_of_read (by decide) hread
  have hexposes := (hwellFormed.flat.mem_captureEntries id body).mp hentry
  have hinner : pattern.root.Exposes body := hexposes.trans (.capture (.here body))
  obtain ⟨index, hindex⟩ := List.mem_iff_getElem?.mp hentry
  have hid : pattern.root.captureIds[index]? = some id := by
    rw [← Expr.map_fst_captureEntries, List.getElem?_map, hindex]
    rfl
  obtain ⟨front, back, hplace, hcount⟩ := pattern.root.locates_lexemes.place index id body hindex
  -- The tokens fall apart where their lexemes do.
  rw [hlexemes] at hplace
  obtain ⟨before, others, rfl, rfl, hothers⟩ := List.map_eq_append_iff.mp hplace
  obtain ⟨opening, others, rfl, hopening, hothers⟩ := List.map_eq_cons_iff.mp hothers
  obtain ⟨inside, others, rfl, hinside, hothers⟩ := List.map_eq_append_iff.mp hothers
  obtain ⟨closing, after, rfl, hclosing, -⟩ := List.map_eq_cons_iff.mp hothers
  refine ⟨inside, ⟨before, opening, closing, after, rfl, congrArg Lexeme.kind hopening, ?_,
    congrArg Lexeme.kind hclosing, ?_⟩, ?_⟩
  · rw [Lexeme.countCaptures, List.countP_map] at hcount
    rw [hwellFormed.numbered] at hid
    obtain ⟨_, hvalue⟩ := List.getElem?_eq_some_iff.mp hid
    rw [List.getElem_range'] at hvalue
    have hbefore : before.countP (·.kind = .openCapture) = index := hcount
    omega
  · have hbalanced := body.balanced_lexemes
    rw [← hinside, List.map_map] at hbalanced
    exact hbalanced
  · exact ⟨hwellFormed.grouped.of_exposes hinner, hwellFormed.flat.of_exposes hinner,
      hexposes.numbered_body hwellFormed.numbered, hinside.symm⟩

end OfTokens

/-- The captures of a pattern that was read: there are at most nine, numbered from one as the tokens
open them, and for each number the table, the expression and the tokens inside the group agree on
one body. -/
theorem holds_of_ofTokens {tokens : List Token} {pattern : Pattern}
    (hread : Pattern.ofTokens tokens = .ok pattern) :
    tokens.countP (·.kind = .openCapture) ≤ 9 ∧
      pattern.captures.entries.map Prod.fst =
        List.range' 1 (tokens.countP (·.kind = .openCapture)) ∧
      ∀ id, 1 ≤ id → id ≤ tokens.countP (·.kind = .openCapture) →
        ∃ body, pattern.Holds tokens id body := by
  have hwellFormed := wellFormed_of_ofTokens hread
  have hnumbered := hwellFormed.numbered
  rw [countP_openCapture_of_ofTokens hread]
  refine ⟨hwellFormed.fewGroups, ?_, fun id hone hlast => ?_⟩
  · rw [entries_of_ofTokens hread, Expr.map_fst_captureEntries]
    exact hnumbered
  · obtain ⟨body, hholds⟩ :=
      Option.isSome_iff_exists.mp ((isSome_get?_captures hread id).mpr ⟨hone, hlast⟩)
    have hentry : (id, body) ∈ pattern.root.captureEntries := by
      rw [← entries_of_ofTokens hread]
      exact CaptureTable.get?_eq_some.mp hholds
    obtain ⟨inside, hencloses, hspelled⟩ := spelled_of_mem_captureEntries hread hentry
    refine ⟨body, hholds, ?_, (get?_captures hread).mp hholds, inside, hencloses, hspelled, ?_⟩
    · have hnodup : pattern.root.captureIds.Nodup := by
        rw [hnumbered]
        exact List.nodup_range'
      refine List.count_eq_one_of_mem hnodup ?_
      rw [hnumbered, List.mem_range'_1]
      omega
    · exact fun other hother => hother.unique hspelled

/-- Groups within groups and beside each other, which close in another order than they open. -/
theorem holds_of_ofTokens_nested :
    ∃ tokens pattern, Token.scan "((a)|(?=b)(c*(?1)))(d)" = .ok tokens ∧
      Pattern.ofTokens tokens = .ok pattern ∧ tokens.countP (·.kind = .openCapture) = 4 ∧
      ∀ id, 1 ≤ id → id ≤ 4 → ∃ body, pattern.Holds tokens id body := by
  have hconverted : ∃ tokens pattern, Token.scan "((a)|(?=b)(c*(?1)))(d)" = .ok tokens ∧
      Pattern.ofTokens tokens = .ok pattern ∧ tokens.countP (·.kind = .openCapture) = 4 :=
    ⟨_, _, rfl, rfl, rfl⟩
  obtain ⟨tokens, pattern, hscan, hread, hcount⟩ := hconverted
  have hholds := (holds_of_ofTokens hread).2.2
  rw [hcount] at hholds
  exact ⟨tokens, pattern, hscan, hread, hcount, hholds⟩

end Pattern

end PatternGrammar
