import PatternGrammar.Proofs.Lowering.Depth
import PatternGrammar.Proofs.Reader.Captures
import PatternGrammar.Token.Scan

/-!
# Why a lowering fails

Every error of a run has its cause in the expressions that the run meets: in the expression it
started with or in what the table holds for a group. A run that succeeds has given every group that
is referred to its name, and only groups that the table holds have one. For a pattern that was read,
both say the same: the only errors are references to groups that the pattern does not have, and such
a reference always is one.
-/

namespace PatternGrammar

/-- What an error tells about the expressions that were met. -/
def LowerError.Cause (limits : Limits) (table : CaptureTable) (shown : Expr → Prop) :
    LowerError → Prop
  | .undefinedGroup id => table.get? id = none ∧ shown (.reference id)
  | .tooDeep limit => limit = limits.loweringDepth
  | .malformed .emptyConcat => shown (.concat [])
  | .malformed .emptyAlternation => shown (.alternation [])
  | .malformed .groupOutOfRange =>
    ∃ id body, (id = 0 ∨ limits.groups < id) ∧ shown (.capture id body)

namespace Lowering.Job

variable {limits : Limits} {table : CaptureTable} {levels : Nat}

/-- An error has its cause in the job or in what the table holds. -/
theorem Fails.cause {job : Job} {before after : Lowering} {error : LowerError} {shown : Expr → Prop}
    (hfails : Fails limits table levels job before error after)
    (hjob : ∀ inner, job.Exposes inner → shown inner)
    (htable : ∀ id body inner, table.get? id = some body → body.Exposes inner → shown inner) :
    error.Cause limits table shown := by
  induction hfails with
  | tooDeep => rfl
  | emptyConcat | emptyAlternation => exact hjob _ (.here _)
  | outOfRange body _ _ houtside => exact ⟨_, body, houtside, hjob _ (.here _)⟩
  | undefined _ habsent => exact ⟨habsent, hjob _ (.here _)⟩
  | concat _ ih => exact ih fun inner hexposes => hjob inner (exposes_concat hexposes)
  | alternation _ ih => exact ih fun inner hexposes => hjob inner (exposes_alternation hexposes)
  | star _ ih => exact ih fun inner hexposes => hjob inner (.star hexposes)
  | plain _ ih => exact ih fun inner hexposes => hjob inner (.plain hexposes)
  | capture _ _ ih => exact ih fun inner hexposes => hjob inner (.capture hexposes)
  | forward _ hholds _ ih => exact ih fun inner hexposes => htable _ _ inner hholds hexposes
  | rowHead _ _ ih | branchesHead _ _ _ ih =>
    exact ih fun inner hexposes => hjob inner (exposes_head hexposes)
  | rowTail _ _ ih | branchesTail _ _ ih =>
    exact ih fun inner hexposes => hjob inner (exposes_tail hexposes)

/-- After a successful run every group that the job refers to has its name. -/
theorem Succeeds.reference_registered {job : Job} {before after : Lowering} {names : List String}
    {id : Nat} (hrun : Succeeds limits table levels job before names after)
    (hexposes : job.Exposes (.reference id)) : id ∈ after.registered := by
  induction hrun with
  | char | lookahead => cases hexposes
  | concat _ _ ih =>
    cases hexposes with
    | concat hmem hinner => exact ih ⟨_, hmem, hinner⟩
  | alternation _ _ ih =>
    cases hexposes with
    | alternation hmem hinner => exact ih ⟨_, hmem, hinner⟩
  | star _ ih =>
    cases hexposes with
    | star hinner => exact ih hinner
  | plain _ ih =>
    cases hexposes with
    | plain hinner => exact ih hinner
  | capture _ _ ih =>
    cases hexposes with
    | capture hinner => exact ih hinner
  | known hregistered =>
    cases hexposes
    exact hregistered
  | forward _ _ hinside _ =>
    cases hexposes
    exact hinside.registered_mono ((mem_registered_enrolled ..).mpr (.inl rfl))
  | rowNil | branchesNil =>
    obtain ⟨_, hmem, _⟩ := hexposes
    cases hmem
  | rowCons _ htail ihhead ihtail | branchesCons _ htail ihhead ihtail =>
    obtain ⟨operand, hmem, hinner⟩ := hexposes
    rcases List.mem_cons.mp hmem with rfl | hmem
    · exact htail.registered_mono (ihhead hinner)
    · exact ihtail ⟨operand, hmem, hinner⟩

/-- When a group that the table holds receives its name, still only held groups have one. -/
theorem isSome_get?_enrolled {before : Lowering} {id : Nat} {body : Expr}
    (hholds : table.get? id = some body)
    (hbefore : ∀ id ∈ before.registered, (table.get? id).isSome = true) :
    ∀ other ∈ (before.enrolled id).registered, (table.get? other).isSome = true := by
  intro other hmem
  rcases (mem_registered_enrolled ..).mp hmem with rfl | hmem
  · rw [hholds, Option.isSome_some]
  · exact hbefore other hmem

/-- If the table agrees with the job and with itself, a run gives names only to groups that it
holds. -/
theorem Succeeds.isSome_get? {job : Job} {before after : Lowering} {names : List String}
    (hrun : Succeeds limits table levels job before names after) (hcoherent : table.Coherent)
    (hagrees : job.Agrees table)
    (hbefore : ∀ id ∈ before.registered, (table.get? id).isSome = true) :
    ∀ id ∈ after.registered, (table.get? id).isSome = true := by
  induction hrun with
  | char | lookahead => simpa [added] using hbefore
  | concat _ _ ih =>
    exact ih (fun _ hmem => CaptureTable.Agrees.row_operand hagrees hmem) (by simpa using hbefore)
  | alternation _ _ ih =>
    exact ih (fun _ hmem => CaptureTable.Agrees.branch hagrees hmem) (by simpa using hbefore)
  | star _ ih => exact ih (CaptureTable.Agrees.star_body hagrees) (by simpa using hbefore)
  | plain _ ih => exact ih (CaptureTable.Agrees.plain_body hagrees) (by simpa using hbefore)
  | @capture _ id body _ _ _ _ _ _ ih =>
    have hholds := hagrees id body (.here _)
    exact ih (CaptureTable.Agrees.capture_body hagrees) (isSome_get?_enrolled hholds hbefore)
  | @forward _ id body _ _ _ _ _ hholds _ ih =>
    exact ih (hcoherent id body hholds) (isSome_get?_enrolled hholds hbefore)
  | known | rowNil | branchesNil => exact hbefore
  | rowCons _ _ ihhead ihtail | branchesCons _ _ ihhead ihtail =>
    have hboth := List.forall_mem_cons.mp hagrees
    exact ihtail hboth.2 (ihhead hboth.1 hbefore)

end Lowering.Job

namespace Pattern

section OfTokens

variable {tokens : List Token} {pattern : Pattern} (hread : Pattern.ofTokens tokens = .ok pattern)
include hread

/-- Lowering may go as deep as a pattern that was read and all its groups require. -/
theorem shownDepth_add_pendingDepth_le :
    pattern.root.shownDepth + pattern.captures.pendingDepth [] ≤ Limits.standard.loweringDepth := by
  have hwellFormed := wellFormed_of_ofTokens hread
  have hshallow : pattern.root.depth ≤ 50 := hwellFormed.shallow
  have hroot := pattern.root.shownDepth_le_depth
  have hentries : ∀ entry ∈ pattern.captures.entries, entry.2.shownDepth ≤ 50 := by
    intro entry hmem
    have hexposes := (get?_captures hread).mp (CaptureTable.get?_eq_some.mpr hmem)
    have hbody := (hexposes.trans (.capture (.here entry.2))).depth_le
    have hentry := entry.2.shownDepth_le_depth
    omega
  have hcount : pattern.captures.entries.length ≤ 9 := by
    rw [entries_of_ofTokens hread, ← List.length_map Prod.fst, Expr.map_fst_captureEntries]
    exact hwellFormed.fewGroups
  have hpending := CaptureTable.pendingDepth_le [] hentries
  have hlimit : Limits.standard.loweringDepth = 500 := rfl
  omega

/-- The only error of lowering a pattern that was read is a reference to a group it does not
have. -/
theorem undefinedGroup_of_toGrammar {error : LowerError}
    (herror : pattern.toGrammar = .error error) :
    ∃ id, error = .undefinedGroup id ∧ pattern.root.Exposes (.reference id) ∧
      ¬(1 ≤ id ∧ id ≤ pattern.root.captureIds.length) := by
  have hwellFormed := wellFormed_of_ofTokens hread
  obtain ⟨state, hfails⟩ := fails_of_toGrammar herror
  have hlevels := hfails.error_ne_tooDeep (shownDepth_add_pendingDepth_le hread)
  have hcause := hfails.cause (fun _ hexposes => hexposes) fun _ _ _ => exposes_of_get? hread
  cases error with
  | undefinedGroup id =>
    refine ⟨id, rfl, hcause.2, ?_⟩
    rw [← isSome_get?_captures hread, hcause.1]
    exact Bool.false_ne_true
  | tooDeep limit => exact absurd rfl (hlevels limit)
  | malformed fault =>
    -- The rules of writing leave no row or alternation empty and number the groups within the
    -- limit.
    cases fault with
    | emptyConcat =>
      cases hwellFormed.grouped.of_exposes hcause with | concat hseveral => cases hseveral
    | emptyAlternation =>
      cases hwellFormed.grouped.of_exposes hcause with | alternation hseveral => cases hseveral
    | groupOutOfRange =>
      obtain ⟨id, body, houtside, hexposes⟩ := hcause
      have hheld : (pattern.captures.get? id).isSome = true := by
        rw [(get?_captures hread).mpr hexposes, Option.isSome_some]
      have hrange := (isSome_get?_captures hread id).mp hheld
      have hfew : pattern.root.captureIds.length ≤ Limits.standard.groups := hwellFormed.fewGroups
      omega

/-- A pattern that was read and could be lowered has every group that it refers to. -/
theorem reference_in_range_of_toGrammar {grammar : Grammar}
    (hgrammar : pattern.toGrammar = .ok grammar) {id : Nat}
    (hexposes : pattern.root.Exposes (.reference id)) :
    1 ≤ id ∧ id ≤ pattern.root.captureIds.length := by
  obtain ⟨top, state, _, hrun⟩ := succeeds_of_toGrammar hgrammar
  have hregistered := hrun.reference_registered hexposes
  have hheld := hrun.isSome_get? (coherent_captures hread) (agrees_captures hread)
    (fun _ hmem => nomatch hmem) id hregistered
  exact (isSome_get?_captures hread id).mp hheld

end OfTokens

/-- A pattern that was read can be lowered exactly if it has every group that it refers to outside
lookaheads. Otherwise the error names a group that it refers to and does not have. -/
theorem lowers_iff_references_defined {tokens : List Token} {pattern : Pattern}
    (hread : Pattern.ofTokens tokens = .ok pattern) :
    ((∃ grammar, pattern.toGrammar = .ok grammar) ↔
      ∀ id, pattern.root.Exposes (.reference id) → 1 ≤ id ∧ id ≤ pattern.root.captureIds.length) ∧
    ∀ error, pattern.toGrammar = .error error →
      ∃ id, error = .undefinedGroup id ∧ pattern.root.Exposes (.reference id) ∧
        ¬(1 ≤ id ∧ id ≤ pattern.root.captureIds.length) := by
  refine ⟨⟨fun ⟨_, hgrammar⟩ _ hexposes => ?_, fun hdefined => ?_⟩, fun _ herror => ?_⟩
  · exact reference_in_range_of_toGrammar hread hgrammar hexposes
  · cases hresult : pattern.toGrammar with
    | ok grammar => exact ⟨grammar, rfl⟩
    | error error =>
      obtain ⟨id, _, hexposes, hundefined⟩ := undefinedGroup_of_toGrammar hread hresult
      exact absurd (hdefined id hexposes) hundefined
  · exact undefinedGroup_of_toGrammar hread herror

/-- A group is referred to before it stands, and what it holds refers to a group that is not
there. -/
theorem lowers_iff_references_defined_forward :
    ∃ tokens pattern, Token.scan "(?2)(a)((?1)(?3))" = .ok tokens ∧
      Pattern.ofTokens tokens = .ok pattern ∧
      ((∃ grammar, pattern.toGrammar = .ok grammar) ↔
        ∀ id, pattern.root.Exposes (.reference id) → 1 ≤ id ∧ id ≤ pattern.root.captureIds.length) ∧
      ∀ error, pattern.toGrammar = .error error →
        ∃ id, error = .undefinedGroup id ∧ pattern.root.Exposes (.reference id) ∧
          ¬(1 ≤ id ∧ id ≤ pattern.root.captureIds.length) := by
  have hconverted : ∃ tokens pattern, Token.scan "(?2)(a)((?1)(?3))" = .ok tokens ∧
      Pattern.ofTokens tokens = .ok pattern := ⟨_, _, rfl, rfl⟩
  obtain ⟨tokens, pattern, hscan, hread⟩ := hconverted
  exact ⟨tokens, pattern, hscan, hread, lowers_iff_references_defined hread⟩

end Pattern

end PatternGrammar
