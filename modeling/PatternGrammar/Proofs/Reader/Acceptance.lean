import PatternGrammar.Proofs.Reader.Reading
import PatternGrammar.Token.Scan

/-!
# What a reader accepts

The patterns that can be read are exactly those that obey the rules of writing, and each from its
own tokens only. Of the tokens of an expression that obeys all rules but the limit on depth, a
reader says that they are too deep and says nothing else; the offset that it reports is that of a
place which is to blame.
-/

namespace PatternGrammar

/-- No expression is without depth. -/
theorem Expr.depth_pos (expr : Expr) : 0 < expr.depth := by
  cases expr <;> simp only [depth] <;> omega

/-- Tokens start at one offset only. -/
theorem Token.StartsAt.unique {tokens : List Token} {offset other : Nat}
    (hstarts : StartsAt tokens offset) (hother : StartsAt tokens other) : offset = other := by
  obtain ⟨token, rest, rfl, rfl⟩ := hstarts
  obtain ⟨_, _, heq, rfl⟩ := hother
  cases heq
  rfl

/-- There is a value if nothing is to blame. -/
theorem Ends.exists_ok {limits : Limits} {α : Type} {done : α → Prop} {blamed : Nat → Prop}
    {result : Except SyntaxError α} (hends : Ends limits done blamed result)
    (hnone : ∀ offset, ¬blamed offset) : ∃ value, result = .ok value ∧ done value := by
  cases hends with
  | done holds => exact ⟨_, rfl, holds⟩
  | tooDeep blame => exact absurd blame (hnone _)

namespace Reader

variable {limits : Limits}

/-- The tokens of the expression become the level that the reader is at the start of. -/
def TakesLevel (limits : Limits) (expr : Expr) : Prop :=
  ∀ (reader : Reader) (tokens : List Token), reader.Admits limits [expr] →
    reader.level = .empty → tokens.map Token.lexeme = expr.lexemes →
      ∃ level offset captures, tokens.foldlM (step limits) reader =
          .ok (reader.resumed level expr.captureIds.length captures) ∧
        ∀ atStart, level.whole limits atStart = .ok ⟨expr, expr.depth, offset⟩

/-- Every expression is taken where the brackets around it leave enough levels. -/
theorem takesLevel_of_grouped {expr : Expr} (hgrouped : expr.Grouped) : TakesLevel limits expr := by
  intro reader tokens hadmits hempty hlexemes
  have hdepth := expr.depth_pos
  have hshallow := hadmits.shallow
  simp only [Expr.listDepth] at hshallow
  have hnone : ∀ offset, ¬expr.TooDeepAt limits.depth reader.frames.length tokens offset := by
    intro offset hdeep
    have hlimit := hdeep.limit_lt
    omega
  have hpositive : 0 < limits.depth := by omega
  have hends :=
    (reads_of_grouped hpositive hgrouped).2.2 limits.depth reader tokens hadmits (by omega)
      hempty hlexemes
  obtain ⟨_, hrun, level, captures, rfl, hyields⟩ := hends.exists_ok hnone
  obtain ⟨_, _, _, offset, hstarts, _⟩ := (hyields (.unexpectedEnd .atom)).exists_ok hnone
  refine ⟨level, offset, captures, hrun, fun atStart => ?_⟩
  obtain ⟨_, hwhole, _, other, hother, rfl⟩ := (hyields atStart).exists_ok hnone
  rw [hwhole, hstarts.unique hother]

/-- A well-formed expression may be written from the start. -/
theorem admits_start {expr : Expr} (hwellFormed : expr.WellFormed limits) :
    Reader.start.Admits limits [expr] where
  pending := rfl
  shallow := by
    have hshallow := hwellFormed.shallow
    simp only [start, Expr.listDepth, List.length_nil]
    omega
  grouped := List.forall_mem_singleton.mpr hwellFormed.grouped
  flat := List.forall_mem_singleton.mpr hwellFormed.flat
  bare := nofun
  numbered := by
    rw [List.flatMap_singleton]
    exact hwellFormed.numbered
  fewGroups := by
    rw [List.flatMap_singleton]
    simp only [start, Nat.zero_add]
    exact hwellFormed.fewGroups

/-- A well-formed expression is read from its tokens. -/
theorem read_of_wellFormed {expr : Expr} (hwellFormed : expr.WellFormed limits)
    {tokens : List Token} (hlexemes : expr.lexemes = tokens.map Token.lexeme) :
    ∃ captures, Reader.read limits tokens = .ok ⟨expr, captures⟩ := by
  have htakes : TakesLevel limits expr := takesLevel_of_grouped hwellFormed.grouped
  obtain ⟨level, offset, captures, hrun, hwhole⟩ :=
    htakes .start tokens (admits_start hwellFormed) rfl hlexemes.symm
  refine ⟨captures, bind_eq_ok.mpr ⟨_, hrun, ?_⟩⟩
  exact finish_eq_ok.mpr ⟨rfl, rfl, _, hwhole _, rfl⟩

/-- The tokens of an expression that obeys every rule but the limit on depth are read, if the
expression is within the limit, or refused for a place of it that is too deep. -/
theorem ends_read (hpositive : 0 < limits.depth) {expr : Expr} (hwritable : expr.Writable limits)
    {tokens : List Token} (hlexemes : expr.lexemes = tokens.map Token.lexeme) :
    Ends limits (fun pattern => expr.depth ≤ limits.depth ∧ pattern.root = expr)
      (expr.TooDeepAt limits.depth 0 tokens) (Reader.read limits tokens) := by
  -- All but the depth is as it would be under a limit that the expression does not exceed.
  have hwellFormed : expr.WellFormed { limits with depth := expr.depth } :=
    ⟨⟨hwritable.grouped, hwritable.numbered, hwritable.fewGroups, hwritable.flat⟩, Nat.le_refl _⟩
  have hreads := (reads_of_grouped hpositive hwritable.grouped).2.2 expr.depth .start tokens
    (admits_start hwellFormed) (Nat.zero_le _) rfl hlexemes.symm
  refine hreads.bind ?_
  rintro _ ⟨level, captures, rfl, hyields⟩
  refine (hyields _).bind ?_
  rintro _ ⟨hshallow, offset, -, rfl⟩
  exact .done ⟨hshallow, rfl⟩

end Reader

/-- An expression is read from a list of tokens exactly if it obeys every rule of writing and the
tokens spell it. -/
theorem Pattern.ofTokens_eq_ok_iff (tokens : List Token) (root : Expr) :
    (∃ captures, Pattern.ofTokens tokens = .ok ⟨root, captures⟩) ↔
      root.WellFormed .standard ∧ root.lexemes = tokens.map Token.lexeme := by
  constructor
  · rintro ⟨captures, hread⟩
    have hread := Reader.wellFormed_of_read (by decide) hread
    exact ⟨hread.1, hread.2.1⟩
  · rintro ⟨hwellFormed, hlexemes⟩
    exact Reader.read_of_wellFormed hwellFormed hlexemes

/-- The limit on depth is exact. Tokens that spell an expression which obeys all other rules are
read if the expression is at most fifty levels deep, and are refused otherwise, for their depth and
for nothing else. The offset is that of a bracket inside fifty brackets or of a part of the
expression that is fifty-one levels deep: of its star, if it is a repetition, and of its first token
otherwise. -/
theorem Pattern.ofTokens_of_writable {tokens : List Token} {root : Expr}
    (hwritable : root.Writable .standard) (hlexemes : root.lexemes = tokens.map Token.lexeme) :
    (root.depth ≤ 50 → ∃ captures, Pattern.ofTokens tokens = .ok ⟨root, captures⟩) ∧
    (50 < root.depth → ∃ offset, Pattern.ofTokens tokens = .error (.tooDeep offset 50) ∧
      root.TooDeepAt 50 0 tokens offset) := by
  constructor
  · intro hshallow
    exact Reader.read_of_wellFormed ⟨hwritable, hshallow⟩ hlexemes
  · intro hdeep
    have hpositive : 0 < Limits.standard.depth := by decide
    have hlimit : Limits.standard.depth = 50 := rfl
    have hends := Reader.ends_read hpositive hwritable hlexemes
    unfold Pattern.ofTokens
    generalize Reader.read .standard tokens = result at hends
    cases hends with
    | done holds =>
      have hshallow := holds.1
      omega
    | tooDeep blame => exact ⟨_, rfl, blame⟩

/-- A letter repeated forty-eight times over, in a branch, in a bracket, in a row: a tree of
fifty-two levels. -/
theorem Pattern.ofTokens_of_writable_repeated :
    ∃ (tokens : List Token) (root : Expr),
      Token.scan "(?:a************************************************|b)c" = .ok tokens ∧
      root.Writable .standard ∧ root.lexemes = tokens.map Token.lexeme ∧ root.depth = 52 ∧
      ∃ offset, Pattern.ofTokens tokens = .error (.tooDeep offset 50) ∧
        root.TooDeepAt 50 0 tokens offset := by
  have hconverted : ∃ tokens pattern,
      Token.scan "(?:a************************************************|b)c" = .ok tokens ∧
      Reader.read ⟨9, 52⟩ tokens = .ok pattern ∧ pattern.root.depth = 52 := ⟨_, _, rfl, rfl, rfl⟩
  obtain ⟨tokens, pattern, hscan, hread, hdepth⟩ := hconverted
  obtain ⟨hwellFormed, hlexemes, -⟩ := Reader.wellFormed_of_read (by decide) hread
  have hwritable : pattern.root.Writable .standard :=
    ⟨hwellFormed.grouped, hwellFormed.numbered, hwellFormed.fewGroups, hwellFormed.flat⟩
  have hdeep : 50 < pattern.root.depth := by omega
  exact ⟨tokens, pattern.root, hscan, hwritable, hlexemes, hdepth,
    (ofTokens_of_writable hwritable hlexemes).2 hdeep⟩

end PatternGrammar
