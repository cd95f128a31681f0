import Mathlib.Data.List.Basic
import PatternGrammar.Report.Decode

/-!
# Listings that can be read back

Names may hold spaces, arrows or line breaks, so not every grammar can be recovered from its
listing. It can if its terminals are lower-case letters, its names begin with an upper-case letter
and have only letters and digits, and every rule has an alternative. Each step of the reader then
undoes one step of the writer: words, alternatives, left-hand sides, lines, and last the runs of
lines that make up a rule.
-/

namespace PatternGrammar

/-- A name that a listing shows for what it is: an upper-case letter, then letters and digits. -/
def LegibleName (name : String) : Prop :=
  ∃ first rest, name.toList = first :: rest ∧ first.isUpper = true ∧ ∀ c ∈ rest, c.isAlphanum = true

/-- A symbol that a listing shows for what it is. -/
def Symbol.Legible : Symbol → Prop
  | .terminal c => isLetter c = true
  | .nonterminal name => LegibleName name

/-- A grammar that a listing shows for what it is. -/
structure Grammar.Legible (grammar : Grammar) : Prop where
  /-- Every rule is listed. -/
  listed : ∀ rule ∈ grammar.rules, rule.alternatives ≠ []
  /-- Left-hand sides can be told from what follows them. -/
  names : ∀ rule ∈ grammar.rules, LegibleName rule.name
  /-- Words can be told apart, and terminals from nonterminals. -/
  symbols : ∀ symbol ∈ grammar.symbols, symbol.Legible

/-- An upper-case letter is no letter of a pattern. -/
theorem isLetter_of_isUpper {c : Char} (hupper : c.isUpper = true) : isLetter c = false := by
  have hrange : 'A'.val ≤ c.val ∧ c.val ≤ 'Z'.val := of_decide_eq_true hupper
  have hbelow : ¬ 'a' ≤ c := fun hle => absurd (UInt32.le_trans hle hrange.2) (by decide)
  rw [isLetter, decide_eq_false hbelow, Bool.false_and]

/-- Upper-case letters, lower-case letters and digits are the letters and digits. -/
theorem isAlphanum_iff {c : Char} :
    c.isAlphanum = true ↔ c.isUpper = true ∨ isLetter c = true ∨ c.isDigit = true := by
  change (c.isUpper || isLetter c || c.isDigit) = true ↔ _
  rw [Bool.or_eq_true, Bool.or_eq_true, or_assoc]

/-- A legible name has only letters and digits. -/
theorem LegibleName.isAlphanum {name : String} (hlegible : LegibleName name) {c : Char}
    (hmem : c ∈ name.toList) : c.isAlphanum = true := by
  obtain ⟨first, rest, hname, hupper, hrest⟩ := hlegible
  rw [hname] at hmem
  rcases List.mem_cons.mp hmem with rfl | hmem
  · exact isAlphanum_iff.mpr (.inl hupper)
  · exact hrest c hmem

/-- A legible symbol is written with letters and digits. -/
theorem Symbol.Legible.isAlphanum {symbol : Symbol} (hlegible : symbol.Legible) {c : Char}
    (hmem : c ∈ symbol.text.toList) : c.isAlphanum = true := by
  cases symbol with
  | terminal letter =>
    rw [Symbol.text, String.toList_singleton, List.mem_singleton] at hmem
    rw [hmem]
    exact isAlphanum_iff.mpr (.inr (.inl hlegible))
  | nonterminal name => exact LegibleName.isAlphanum hlegible hmem

namespace Report

section Alternatives

/-- A legible symbol is read back from its word. -/
theorem decodeSymbol_text {symbol : Symbol} (hlegible : symbol.Legible) :
    decodeSymbol symbol.text.toList = symbol := by
  cases symbol with
  | terminal c =>
    have hletter : isLetter c = true := hlegible
    rw [Symbol.text, String.toList_singleton, decodeSymbol, if_pos hletter]
  | nonterminal name =>
    obtain ⟨first, rest, hname, hupper, _⟩ := hlegible
    have hword : name = String.ofList (first :: rest) := by rw [← hname, String.ofList_toList]
    rw [Symbol.text, hname, hword]
    cases rest with
    | nil =>
      rw [decodeSymbol, isLetter_of_isUpper hupper, String.singleton_eq_ofList]
      rfl
    | cons second rest => rfl

/-- A legible symbol is not written like the empty alternative. -/
theorem text_ne_eps {symbol : Symbol} (hlegible : symbol.Legible) :
    symbol.text.toList ≠ "eps".toList := by
  intro heq
  cases symbol with
  | terminal c => simp [Symbol.text] at heq
  | nonterminal name =>
    obtain ⟨first, rest, hname, hupper, _⟩ := hlegible
    rw [Symbol.text, hname] at heq
    cases heq
    cases hupper

/-- An alternative with symbols is their words with spaces between them. -/
theorem toList_text {alternative : Alternative} (hnonempty : alternative ≠ []) :
    alternative.text.toList =
      [' '].intercalate (alternative.map fun symbol => symbol.text.toList) := by
  cases alternative with
  | nil => exact absurd rfl hnonempty
  | cons first rest => simp [Alternative.text, String.toList_intercalate, Function.comp_def]

/-- The words of an alternative are found between its spaces. -/
theorem splitOn_text {alternative : Alternative} (hnonempty : alternative ≠ [])
    (hlegible : ∀ symbol ∈ alternative, symbol.Legible) :
    alternative.text.toList.splitOn ' ' = alternative.map fun symbol => symbol.text.toList := by
  rw [toList_text hnonempty]
  refine List.splitOn_intercalate ' ' ?_ (by simpa using hnonempty)
  simp only [List.forall_mem_map]
  intro symbol hmem hspace
  cases (hlegible symbol hmem).isAlphanum hspace

/-- An alternative of legible symbols is read back from its text. -/
theorem decodeAlternative_text {alternative : Alternative}
    (hlegible : ∀ symbol ∈ alternative, symbol.Legible) :
    decodeAlternative alternative.text.toList = alternative := by
  by_cases hempty : alternative = []
  · rw [hempty]
    rfl
  · have hwords := splitOn_text hempty hlegible
    have hother : alternative.text.toList ≠ "eps".toList := by
      -- Otherwise the word of the empty alternative would be the word of one of the symbols.
      intro heq
      rw [heq] at hwords
      have hmem : "eps".toList ∈ alternative.map fun symbol => symbol.text.toList := by
        rw [← hwords]
        decide
      obtain ⟨symbol, hsymbol, htext⟩ := List.mem_map.mp hmem
      exact text_ne_eps (hlegible symbol hsymbol) htext
    rw [decodeAlternative, if_neg hother, hwords, List.map_map]
    refine (List.map_congr_left ?_).trans (List.map_id alternative)
    exact fun symbol hmem => decodeSymbol_text (hlegible symbol hmem)

end Alternatives

section Lines

/-- A text is cut at a separator whose first character does not stand before it. -/
theorem cutAt?_append (head : Char) (tail : List Char) {before : List Char}
    (hbefore : head ∉ before) (after : List Char) :
    cutAt? (head :: tail) (before ++ (head :: tail ++ after)) = some (before, after) := by
  induction before with
  | nil =>
    have hfound : (head :: tail).isPrefixOf? (head :: (tail ++ after)) = some after :=
      List.isPrefixOf?_eq_some_iff_append_eq.mpr rfl
    rw [List.nil_append, List.cons_append, cutAt?, hfound]
  | cons c before ih =>
    obtain ⟨hne, hrest⟩ := List.ne_and_not_mem_of_not_mem_cons hbefore
    have hother : (head :: tail).isPrefixOf? (c :: (before ++ (head :: tail ++ after))) = none := by
      simp [List.isPrefixOf?, hne]
    rw [List.cons_append, cutAt?, hother, ih hrest]
    rfl

/-- A legible name is read back from a left-hand side, coloured or not. -/
theorem uncolored_paint {name : String} (hlegible : LegibleName name) (color : Bool) :
    uncolored (paint color name).toList = name.toList := by
  cases color with
  | false =>
    obtain ⟨first, rest, hname, hupper, _⟩ := hlegible
    have hplain : colorStart.toList.isPrefixOf? name.toList = none := by
      have hfirst : first ≠ '\x1b' := by
        rintro rfl
        cases hupper
      rw [hname]
      simp [colorStart, List.isPrefixOf?, hfirst.symm]
    rw [paint, if_neg nofun, uncolored, hplain]
  | true =>
    have hstart : colorStart.toList.isPrefixOf? (colorStart ++ name ++ colorReset).toList =
        some (name ++ colorReset).toList :=
      List.isPrefixOf?_eq_some_iff_append_eq.mpr (by simp)
    have hreset : colorReset.toList.isSuffixOf? (name ++ colorReset).toList = some name.toList :=
      List.isSuffixOf?_eq_some_iff_append_eq.mpr (by simp)
    simp only [paint, if_true, uncolored, hstart, hreset, Option.getD_some]

/-- A character that is neither a letter nor a digit stands on a left-hand side only for its
colour. -/
theorem notMem_paint {name : String} (hlegible : LegibleName name) (color : Bool) {c : Char}
    (hc : c.isAlphanum = false) (hcolor : c ∉ (colorStart ++ colorReset).toList) :
    c ∉ (paint color name).toList := by
  intro hmem
  have hname : c ∉ name.toList := by
    intro hname
    rw [hlegible.isAlphanum hname] at hc
    cases hc
  cases color with
  | false => exact hname hmem
  | true =>
    simp only [paint, if_true, String.toList_append, List.mem_append] at hmem hcolor
    tauto

/-- The line of an alternative, without the line break. -/
def entryLine (color : Bool) (entry : String × Alternative) : List Char :=
  (paint color entry.1).toList ++ (arrow.toList ++ entry.2.text.toList)

/-- An alternative with its nonterminal is read back from its line. -/
theorem decodeLine?_entryLine {entry : String × Alternative} (hname : LegibleName entry.1)
    (hsymbols : ∀ symbol ∈ entry.2, symbol.Legible) (color : Bool) :
    decodeLine? (entryLine color entry) = some entry := by
  have hspace : ' ' ∉ (paint color entry.1).toList := notMem_paint hname color rfl (by decide)
  have hcut : cutAt? arrow.toList (entryLine color entry) =
      some ((paint color entry.1).toList, entry.2.text.toList) := cutAt?_append ' ' _ hspace _
  simp only [decodeLine?, hcut, Option.map_some, uncolored_paint hname,
    decodeAlternative_text hsymbols, String.ofList_toList]

/-- What stands in none of the words and is not the separator does not stand in the words with
separators. -/
theorem notMem_intercalate {separator c : Char} (hne : c ≠ separator) {words : List (List Char)}
    (hwords : ∀ word ∈ words, c ∉ word) : c ∉ [separator].intercalate words := by
  induction words with
  | nil => exact List.not_mem_nil
  | cons word rest ih =>
    obtain ⟨hword, hrest⟩ := List.forall_mem_cons.mp hwords
    cases rest with
    | nil => rwa [List.intercalate_singleton]
    | cons second rest =>
      rw [List.intercalate_cons_cons]
      simpa only [List.mem_append, List.mem_singleton, not_or] using ⟨⟨hword, hne⟩, ih hrest⟩

/-- An alternative of legible symbols is written without line breaks. -/
theorem lineBreak_notMem_text {alternative : Alternative}
    (hlegible : ∀ symbol ∈ alternative, symbol.Legible) : '\n' ∉ alternative.text.toList := by
  by_cases hempty : alternative = []
  · rw [hempty]
    decide
  · rw [toList_text hempty]
    refine notMem_intercalate (by decide) (List.forall_mem_map.mpr ?_)
    intro symbol hmem hbreak
    cases (hlegible symbol hmem).isAlphanum hbreak

/-- A line has no line break inside. -/
theorem lineBreak_notMem_entryLine {entry : String × Alternative} (hname : LegibleName entry.1)
    (hsymbols : ∀ symbol ∈ entry.2, symbol.Legible) (color : Bool) :
    '\n' ∉ entryLine color entry := by
  have hside : '\n' ∉ (paint color entry.1).toList := notMem_paint hname color rfl (by decide)
  have harrow : '\n' ∉ arrow.toList := by decide
  have htext := lineBreak_notMem_text hsymbols
  simpa only [entryLine, List.mem_append, not_or] using ⟨hside, harrow, htext⟩

/-- Lines are found in the text that puts a line break after each of them. -/
theorem textLines_flatMap {lines : List (List Char)} (hlines : ∀ line ∈ lines, '\n' ∉ line) :
    textLines (lines.flatMap (· ++ ['\n'])) = lines := by
  have htext : lines.flatMap (· ++ ['\n']) = ['\n'].intercalate (lines ++ [[]]) := by
    clear hlines
    induction lines with
    | nil => rfl
    | cons line rest ih =>
      rw [List.flatMap_cons, ih, List.cons_append, List.intercalate_cons_of_ne_nil (by simp)]
  have hparts : ∀ line ∈ lines ++ [[]], '\n' ∉ line := by
    simpa [or_imp, forall_and] using hlines
  rw [textLines, htext, List.splitOn_intercalate '\n' hparts (by simp), List.dropLast_concat]

end Lines

section Rules

/-- The alternatives of rules with their nonterminals, in the order of the listing. -/
def entries (rules : List Rule) : List (String × Alternative) :=
  rules.flatMap fun rule => rule.alternatives.map (rule.name, ·)

/-- The alternatives of a rule are gathered before rules that begin with another nonterminal. -/
theorem foldr_joinFirst {rule : Rule} (hlisted : rule.alternatives ≠ []) {others : List Rule}
    (hother : ∀ other ∈ others, other.name ≠ rule.name) :
    (rule.alternatives.map (rule.name, ·)).foldr joinFirst others = rule :: others := by
  obtain ⟨name, alternatives⟩ := rule
  induction alternatives with
  | nil => exact absurd rfl hlisted
  | cons first rest ih =>
    rw [List.map_cons, List.foldr_cons]
    cases rest with
    | nil =>
      cases others with
      | nil => rfl
      | cons other others =>
        have hne : other.name ≠ name := hother other List.mem_cons_self
        simp [joinFirst, hne]
    | cons second rest =>
      rw [ih (by simp) hother]
      simp [joinFirst]

/-- Rules with different nonterminals are gathered from their alternatives. -/
theorem gather_entries {rules : List Rule} (hlisted : ∀ rule ∈ rules, rule.alternatives ≠ [])
    (hdistinct : (rules.map Rule.name).Nodup) : gather (entries rules) = rules := by
  induction rules with
  | nil => rfl
  | cons rule rest ih =>
    obtain ⟨hrule, hrest⟩ := List.forall_mem_cons.mp hlisted
    obtain ⟨hnew, hothers⟩ := List.nodup_cons.mp hdistinct
    have hgathered : (entries rest).foldr joinFirst [] = rest := ih hrest hothers
    rw [gather, entries, List.flatMap_cons, List.foldr_append]
    change (rule.alternatives.map (rule.name, ·)).foldr joinFirst
      ((entries rest).foldr joinFirst []) = _
    rw [hgathered, foldr_joinFirst hrule]
    rintro other hmem heq
    exact hnew (heq ▸ List.mem_map_of_mem hmem)

end Rules

section Listing

/-- The lines before the first alternative. -/
def headingLines (header : Bool) : List (List Char) :=
  if header then [heading.toList] else []

/-- A listing is its heading and a line for each alternative, with a line break after each of
them. -/
theorem toList_listing (style : Style) (grammar : Grammar) :
    (listing style grammar).toList =
      (headingLines style.header ++ (entries grammar.rules).map (entryLine style.color)).flatMap
        (· ++ ['\n']) := by
  have hheading : (if style.header then heading ++ "\n" else "").toList =
      (headingLines style.header).flatMap (· ++ ['\n']) := by
    cases style.header <;> rfl
  have hrules : (String.join (grammar.rules.map (ruleLines style.color))).toList =
      ((entries grammar.rules).map (entryLine style.color)).flatMap (· ++ ['\n']) := by
    simp [ruleLines, entries, entryLine, arrow, String.toList_join, List.flatMap_map,
      List.flatMap_assoc]
  rw [listing, String.toList_append, hheading, hrules, List.flatMap_append]

/-- Without colours and a heading, a listing is the text of the grammar. -/
theorem listing_plain (grammar : Grammar) : listing ⟨false, false⟩ grammar = grammar.text := by
  rw [← String.toList_inj, toList_listing]
  simp [headingLines, entries, entryLine, paint, arrow, Grammar.text, Rule.line, String.toList_join,
    List.flatMap_map, List.flatMap_assoc]

/-- The heading is dropped from lines of alternatives, and nothing else. -/
theorem withoutHeading_append (header : Bool) {lines : List (List Char)}
    (hlines : heading.toList ∉ lines) : withoutHeading (headingLines header ++ lines) = lines := by
  cases header with
  | true => rfl
  | false =>
    cases lines with
    | nil => rfl
    | cons first rest =>
      have hne : first ≠ heading.toList := fun heq => hlines (heq ▸ List.mem_cons_self)
      exact if_neg hne

/-- Alternatives that are read back from their lines are read back together. -/
theorem mapM_decodeLine? {color : Bool} {entries : List (String × Alternative)}
    (hentries : ∀ entry ∈ entries, decodeLine? (entryLine color entry) = some entry) :
    (entries.map (entryLine color)).mapM decodeLine? = some entries := by
  induction entries with
  | nil => rfl
  | cons entry rest ih =>
    obtain ⟨hentry, hrest⟩ := List.forall_mem_cons.mp hentries
    rw [List.map_cons, List.mapM_cons, hentry, ih hrest]
    rfl

/-- Every alternative of a legible grammar has a legible nonterminal and legible symbols. -/
theorem legible_of_mem_entries {grammar : Grammar} (hlegible : grammar.Legible)
    {entry : String × Alternative} (hmem : entry ∈ entries grammar.rules) :
    LegibleName entry.1 ∧ ∀ symbol ∈ entry.2, symbol.Legible := by
  obtain ⟨rule, hrule, hentry⟩ := List.mem_flatMap.mp hmem
  obtain ⟨alternative, halternative, rfl⟩ := List.mem_map.mp hentry
  refine ⟨hlegible.names rule hrule, fun symbol hsymbol => hlegible.symbols symbol ?_⟩
  exact List.mem_flatten.mpr ⟨alternative, List.mem_flatMap.mpr ⟨rule, hrule, halternative⟩,
    hsymbol⟩

/-- A legible grammar is read back from its listing in every style. -/
theorem decode_listing_of_legible {grammar : Grammar} (hlegible : grammar.Legible) (style : Style) :
    decode (listing style grammar) = some grammar.rules := by
  have hentries : ∀ entry ∈ entries grammar.rules,
      decodeLine? (entryLine style.color entry) = some entry := by
    intro entry hmem
    obtain ⟨hname, hsymbols⟩ := legible_of_mem_entries hlegible hmem
    exact decodeLine?_entryLine hname hsymbols style.color
  have hbreaks :
      ∀ line ∈ headingLines style.header ++ (entries grammar.rules).map (entryLine style.color),
        '\n' ∉ line := by
    refine List.forall_mem_append.mpr ⟨?_, List.forall_mem_map.mpr ?_⟩
    · cases style.header <;> decide
    · intro entry hmem
      obtain ⟨hname, hsymbols⟩ := legible_of_mem_entries hlegible hmem
      exact lineBreak_notMem_entryLine hname hsymbols style.color
  have hheading : heading.toList ∉ (entries grammar.rules).map (entryLine style.color) := by
    -- The heading has no arrow.
    intro hmem
    obtain ⟨entry, hentry, heq⟩ := List.mem_map.mp hmem
    have hnone : decodeLine? heading.toList = none := by decide
    rw [← heq, hentries entry hentry] at hnone
    cases hnone
  rw [decode, toList_listing, textLines_flatMap hbreaks, withoutHeading_append _ hheading,
    mapM_decodeLine? hentries, Option.map_some, gather_entries hlegible.listed grammar.distinct]

-- A nonterminal may be written like the empty alternative; then two grammars have the same listing.
example : listing ⟨false, false⟩ (.ofList [("S", [])]) =
    listing ⟨false, false⟩ (.ofList [("S", [.nonterminal "eps"])]) := rfl

end Listing

end Report

end PatternGrammar
