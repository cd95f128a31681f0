import PatternGrammar.Conversion
import PatternGrammar.Expr.Matching
import PatternGrammar.Proofs.Lowering.Meaning
import PatternGrammar.Proofs.Reader.Captures

/-!
# The language of a converted text

The grammar of a text has exactly the words of the pattern that the text spells, where a reference
stands for every word of its group. Exact matching, where a reference repeats what its group
consumed, allows no word beyond these: whatever a match remembers of a group is a word of that
group. So the grammar may allow more than the pattern matches, and never less.
-/

namespace PatternGrammar

/-- Everything remembered of a group is a word of what the table holds for the group. -/
def Memory.Faithful (table : CaptureTable) (memory : Memory) : Prop :=
  ∀ id consumed, memory id = some consumed →
    ∃ body, table.get? id = some body ∧ body.HasWord table consumed

/-- The empty memory remembers nothing. -/
theorem Memory.faithful_empty (table : CaptureTable) : Memory.empty.Faithful table :=
  fun _ _ hremembered => nomatch hremembered

/-- A memory stays faithful if a group consumes one of its words. -/
theorem Memory.Faithful.set {table : CaptureTable} {memory : Memory}
    (hfaithful : memory.Faithful table)
    {id : Nat} {body : Expr} {consumed : List Char} (hholds : table.get? id = some body)
    (hword : body.HasWord table consumed) : (memory.set id consumed).Faithful table := by
  intro other text hremembered
  unfold Memory.set at hremembered
  split at hremembered
  next hsame =>
    cases hremembered
    exact ⟨body, by rw [hsame, hholds], hword⟩
  next => exact hfaithful other text hremembered

namespace Expr

variable {table : CaptureTable}

/-- A word of the body may also stand before the words of a repetition. -/
theorem HasWord.starCons {body : Expr} {first others : List Char}
    (hfirst : body.HasWord table first) (hothers : (Expr.star body).HasWord table others) :
    (Expr.star body).HasWord table (first ++ others) := by
  generalize hstar : Expr.star body = expr at hothers
  induction hothers with
  | starNil =>
    cases hstar
    have hone := HasWord.starSnoc (.starNil body) hfirst
    simpa using hone
  | starSnoc _ hlast ihinit =>
    cases hstar
    rw [← List.append_assoc]
    exact .starSnoc (ihinit rfl) hlast
  | _ => cases hstar

/-- What a match consumes is a word of the expression, and what it remembers are words of the
groups. -/
theorem Matches.hasWord {expr : Expr} {before after : Memory} {text rest : List Char}
    (hmatches : expr.Matches before text after rest) (hagrees : table.Agrees expr)
    (hfaithful : before.Faithful table) :
    (∃ word, text = word ++ rest ∧ expr.HasWord table word) ∧ after.Faithful table := by
  -- The memory is threaded through the match, so its faithfulness is part of the induction.
  induction hmatches with
  | char c memory rest => exact ⟨⟨[c], rfl, .char c⟩, hfaithful⟩
  | concatNil memory text => exact ⟨⟨[], rfl, .concatNil⟩, hfaithful⟩
  | concatCons _ _ ihhead ihtail =>
    have hhead := ihhead (hagrees.row_operand List.mem_cons_self) hfaithful
    have htail := ihtail hagrees.row_tail hhead.2
    obtain ⟨⟨first, rfl, hfirst⟩, _⟩ := hhead
    obtain ⟨⟨others, rfl, hothers⟩, hafter⟩ := htail
    exact ⟨⟨first ++ others, (List.append_assoc ..).symm, .concatCons hfirst hothers⟩, hafter⟩
  | alternation hmem _ ih =>
    have hoperand := ih (hagrees.branch hmem) hfaithful
    obtain ⟨⟨word, htext, hword⟩, hafter⟩ := hoperand
    exact ⟨⟨word, htext, .alternation hmem hword⟩, hafter⟩
  | starNil body memory text => exact ⟨⟨[], rfl, .starNil body⟩, hfaithful⟩
  | starCons _ _ ihonce ihagain =>
    have honce := ihonce hagrees.star_body hfaithful
    have hagain := ihagain hagrees honce.2
    obtain ⟨⟨first, rfl, hfirst⟩, _⟩ := honce
    obtain ⟨⟨others, rfl, hothers⟩, hafter⟩ := hagain
    exact ⟨⟨first ++ others, (List.append_assoc ..).symm, .starCons hfirst hothers⟩, hafter⟩
  | @capture id body _ _ consumed rest _ ih =>
    have hbody := ih hagrees.capture_body hfaithful
    obtain ⟨⟨word, htext, hword⟩, hafter⟩ := hbody
    have hconsumed : consumed = word := List.append_cancel_right htext
    rw [← hconsumed] at hword
    have hholds := hagrees id body (.here _)
    exact ⟨⟨consumed, rfl, .capture hword⟩, hafter.set hholds hword⟩
  | plain _ ih =>
    have hbody := ih hagrees.plain_body hfaithful
    obtain ⟨⟨word, htext, hword⟩, hafter⟩ := hbody
    exact ⟨⟨word, htext, .plain hword⟩, hafter⟩
  | @lookahead body _ _ _ _ _ _ => exact ⟨⟨[], rfl, .lookahead body⟩, hfaithful⟩
  | @reference id _ consumed rest hremembered =>
    obtain ⟨body, hholds, hword⟩ := hfaithful id consumed hremembered
    exact ⟨⟨consumed, rfl, .reference hholds hword⟩, hfaithful⟩

end Expr

namespace Grammar

variable {text : String} {tokens : List Token} {pattern : Pattern} {grammar : Grammar}

/-- A text has a grammar exactly if it can be scanned, its tokens can be read and its pattern
lowered. -/
theorem ofText_eq_ok_iff :
    Grammar.ofText text = .ok grammar ↔ ∃ tokens pattern, Token.scan text = .ok tokens ∧
      Pattern.ofTokens tokens = .ok pattern ∧ pattern.toGrammar = .ok grammar := by
  unfold ofText Conversion.ofText
  constructor
  · intro hgrammar
    cases hscan : Token.scan text with
    | error error =>
      rw [hscan] at hgrammar
      cases hgrammar
    | ok tokens =>
      simp only [hscan] at hgrammar
      cases hread : Pattern.ofTokens tokens with
      | error error =>
        rw [hread] at hgrammar
        cases hgrammar
      | ok pattern =>
        simp only [hread] at hgrammar
        cases hlowered : pattern.toGrammar with
        | error error =>
          rw [hlowered] at hgrammar
          cases hgrammar
        | ok lowered =>
          rw [hlowered] at hgrammar
          cases hgrammar
          exact ⟨tokens, pattern, rfl, hread, hlowered⟩
  · rintro ⟨tokens, pattern, hscan, hread, hlowered⟩
    simp only [hscan, hread, hlowered, Conversion.result]

/-- The grammar of a text is the one that its pattern is lowered to. -/
theorem toGrammar_of_ofText (hscan : Token.scan text = .ok tokens)
    (hread : Pattern.ofTokens tokens = .ok pattern) (hgrammar : Grammar.ofText text = .ok grammar) :
    pattern.toGrammar = .ok grammar := by
  obtain ⟨_, _, hscanned, hpattern, hlowered⟩ := ofText_eq_ok_iff.mp hgrammar
  cases hscan.symm.trans hscanned
  cases hread.symm.trans hpattern
  exact hlowered

/-- The grammar of a text has exactly the words of its pattern. -/
theorem hasWord_ofText_iff (hscan : Token.scan text = .ok tokens)
    (hread : Pattern.ofTokens tokens = .ok pattern) (hgrammar : Grammar.ofText text = .ok grammar)
    (word : List Char) : grammar.HasWord word ↔ pattern.root.HasWord pattern.captures word :=
  Pattern.hasWord_toGrammar (toGrammar_of_ofText hscan hread hgrammar)
    (Pattern.coherent_captures hread) (Pattern.agrees_captures hread) word

/-- Two groups that refer to each other, one of them before it stands and under a repetition. -/
theorem hasWord_ofText_mutual :
    ∃ tokens pattern grammar, Token.scan "((?2)*a|b)(c(?1))" = .ok tokens ∧
      Pattern.ofTokens tokens = .ok pattern ∧ Grammar.ofText "((?2)*a|b)(c(?1))" = .ok grammar ∧
      ∀ word, grammar.HasWord word ↔ pattern.root.HasWord pattern.captures word := by
  have hok : (Grammar.ofText "((?2)*a|b)(c(?1))").isOk = true := by decide +kernel
  cases hgrammar : Grammar.ofText "((?2)*a|b)(c(?1))" with
  | error error =>
    rw [hgrammar] at hok
    cases hok
  | ok grammar =>
    obtain ⟨tokens, pattern, hscan, hread, _⟩ := ofText_eq_ok_iff.mp hgrammar
    exact ⟨tokens, pattern, grammar, hscan, hread, rfl, hasWord_ofText_iff hscan hread hgrammar⟩

/-- The grammar of a text has every word that its pattern matches exactly. -/
theorem hasWord_ofText_of_matches (hscan : Token.scan text = .ok tokens)
    (hread : Pattern.ofTokens tokens = .ok pattern) (hgrammar : Grammar.ofText text = .ok grammar)
    {word : List Char} {memory : Memory} (hmatches : pattern.root.Matches .empty word memory []) :
    grammar.HasWord word := by
  have hfaithful := Memory.faithful_empty pattern.captures
  have hagrees := Pattern.agrees_captures hread
  obtain ⟨⟨consumed, hconsumed, hword⟩, _⟩ := hmatches.hasWord hagrees hfaithful
  rw [List.append_nil] at hconsumed
  rw [hconsumed]
  exact (Pattern.hasWord_toGrammar (toGrammar_of_ofText hscan hread hgrammar)
    (Pattern.coherent_captures hread) hagrees consumed).mpr hword

/-- A repetition whose second round replaces what its group consumed in the first. -/
theorem hasWord_ofText_overwritten :
    ∃ tokens pattern grammar memory, Token.scan "(?:(a|b)(?1))*" = .ok tokens ∧
      Pattern.ofTokens tokens = .ok pattern ∧ Grammar.ofText "(?:(a|b)(?1))*" = .ok grammar ∧
      pattern.root.Matches .empty ['a', 'a', 'b', 'b'] memory [] ∧
      grammar.HasWord ['a', 'a', 'b', 'b'] := by
  have hread : ∃ (tokens : List Token) (pattern : Pattern),
      Token.scan "(?:(a|b)(?1))*" = .ok tokens ∧ Pattern.ofTokens tokens = .ok pattern ∧
        pattern.root = .star (.plain (.concat
          [.capture 1 (.alternation [.char 'a', .char 'b']), .reference 1])) :=
    ⟨_, _, rfl, rfl, rfl⟩
  obtain ⟨tokens, pattern, hscan, hread, hroot⟩ := hread
  have hround (c : Char) (hmem : Expr.char c ∈ [Expr.char 'a', .char 'b']) (memory : Memory)
      (rest : List Char) :
      (Expr.plain
        (.concat [.capture 1 (.alternation [.char 'a', .char 'b']), .reference 1])).Matches
        memory (c :: c :: rest) (memory.set 1 [c]) rest := by
    have hgroup : (Expr.alternation [.char 'a', .char 'b']).Matches memory ([c] ++ c :: rest) memory
      (c :: rest) := .alternation hmem (.char c memory (c :: rest))
    have hagain :
        (Expr.reference 1).Matches (memory.set 1 [c]) ([c] ++ rest) (memory.set 1 [c]) rest :=
      .reference rfl
    exact .plain (.concatCons (.capture hgroup) (.concatCons hagain (.concatNil _ rest)))
  have hmatches := Expr.Matches.starCons (hround 'a' (by simp) .empty ['b', 'b'])
    (.starCons (hround 'b' (by simp) _ []) (.starNil _ _ _))
  rw [← hroot] at hmatches
  have hok : (Grammar.ofText "(?:(a|b)(?1))*").isOk = true := by decide +kernel
  cases hgrammar : Grammar.ofText "(?:(a|b)(?1))*" with
  | error error =>
    rw [hgrammar] at hok
    cases hok
  | ok grammar =>
    exact ⟨tokens, pattern, grammar, _, hscan, hread, rfl, hmatches,
      hasWord_ofText_of_matches hscan hread hgrammar hmatches⟩

end Grammar

end PatternGrammar
