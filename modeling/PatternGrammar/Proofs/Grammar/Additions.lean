import Mathlib.Data.List.Induction
import Mathlib.Data.List.Sort
import PatternGrammar.Proofs.Grammar.Occurrence

/-!
# Grammars from lists of additions

A grammar that is built by adding alternatives one after another is told by the list of additions:
under each name it holds the alternatives that were added under that name, in the order in which
they were added, and the names come in the order of their first additions. Grammars are compared
name by name. Two lists of additions therefore make the same grammar exactly if they agree under
each name, and additions under different names may be exchanged without any effect but on the order
of the rules.
-/

namespace PatternGrammar.Grammar

/-- The alternatives that are added under a name, in the order of the additions. -/
def addedUnder (additions : List (String × Alternative)) (name : String) : List Alternative :=
  (additions.filter (·.1 = name)).map Prod.snd

/-- What can be seen of a grammar is what a list of additions says. -/
structure Records (additions : List (String × Alternative)) (grammar : Grammar) : Prop where
  /-- The names of the additions, in the order in which they first occur. -/
  nonterminals : grammar.nonterminals = (additions.map Prod.fst).eraseDups
  /-- A name has the alternatives that were added under it, and without any it has no rule. -/
  alternatives : ∀ name, grammar.alternatives? name =
    if addedUnder additions name = [] then none else some (addedUnder additions name)
  /-- The names on right-hand sides are strictly sorted. -/
  sorted : grammar.referenced.Pairwise (· < ·)
  /-- They are the nonterminals of the added alternatives. -/
  referenced : ∀ name, name ∈ grammar.referenced ↔
    ∃ addition ∈ additions, .nonterminal name ∈ addition.2
  /-- Those of them dangle under which nothing was added. -/
  dangling : grammar.dangling = grammar.referenced.filter (· ∉ additions.map Prod.fst)

/-- Grammars that only the order of their rules may tell apart. -/
structure Alike (left right : Grammar) : Prop where
  /-- They have the same rules. -/
  same : left.sameRules right = true
  /-- They have the same rules as the same grammars. -/
  compared : ∀ other, left.sameRules other = right.sameRules other ∧
    other.sameRules left = other.sameRules right
  /-- Each name has the same alternatives in both. -/
  alternatives : ∀ name, left.alternatives? name = right.alternatives? name
  /-- The same names stand on right-hand sides. -/
  referenced : left.referenced = right.referenced
  /-- The same names dangle. -/
  dangling : left.dangling = right.dangling

section Comparison

variable {left right : Grammar}

/-- Grammars with the same alternatives under each name have the same nonterminals. -/
theorem mem_nonterminals_congr (hsame : ∀ name, left.alternatives? name = right.alternatives? name)
    (name : String) : name ∈ left.nonterminals ↔ name ∈ right.nonterminals := by
  rw [← isSome_alternatives?_iff, ← isSome_alternatives?_iff, hsame name]

/-- Grammars with the same alternatives under each name have the same symbols on right-hand
sides. -/
theorem mem_symbols_congr (hsame : ∀ name, left.alternatives? name = right.alternatives? name)
    (symbol : Symbol) : symbol ∈ left.symbols ↔ symbol ∈ right.symbols := by
  simp only [mem_symbols_iff, Produces, hsame]

/-- Two grammars have the same rules exactly if each name has the same alternatives in both. -/
theorem sameRules_iff :
    left.sameRules right = true ↔ ∀ name, left.alternatives? name = right.alternatives? name := by
  unfold sameRules
  rw [Bool.and_eq_true, beq_iff_eq, List.all_eq_true]
  constructor
  · rintro ⟨hsize, hrules⟩ name
    have hfound : ∀ rule ∈ left.rules, right.alternatives? rule.name = some rule.alternatives :=
      fun rule hrule => beq_iff_eq.mp (hrules rule hrule)
    have hsubset : left.nonterminals ⊆ right.nonterminals := by
      intro other hmem
      obtain ⟨rule, hrule, rfl⟩ := List.mem_map.mp hmem
      exact exists_alternatives?_iff.mp ⟨_, hfound rule hrule⟩
    -- The names on the left are as many as those on the right, so there is no room for others
    -- there.
    have hperm : left.nonterminals.Perm right.nonterminals := by
      refine (List.subperm_of_subset left.distinct hsubset).perm_of_length_le (Nat.le_of_eq ?_)
      unfold nonterminals
      rw [List.length_map, List.length_map]
      exact hsize.symm
    by_cases hmem : name ∈ left.nonterminals
    · obtain ⟨rule, hrule, rfl⟩ := List.mem_map.mp hmem
      rw [alternatives?_of_mem hrule, hfound rule hrule]
    · have hleft := mt (isSome_alternatives?_iff left name).mp hmem
      have hright := mt (isSome_alternatives?_iff right name).mp (mt hperm.mem_iff.mpr hmem)
      rw [Option.not_isSome_iff_eq_none.mp hleft, Option.not_isSome_iff_eq_none.mp hright]
  · intro hsame
    constructor
    · have hperm : left.nonterminals.Perm right.nonterminals :=
        (List.perm_ext_iff_of_nodup left.distinct right.distinct).mpr (mem_nonterminals_congr hsame)
      have hlength := hperm.length_eq
      unfold nonterminals at hlength
      rwa [List.length_map, List.length_map] at hlength
    · intro rule hrule
      rw [beq_iff_eq, ← hsame, alternatives?_of_mem hrule]

/-- Grammars with the same alternatives under each name are alike. -/
theorem alike_of_alternatives?
    (hsame : ∀ name, left.alternatives? name = right.alternatives? name) : Alike left right := by
  have hreferenced : left.referenced = right.referenced := by
    refine left.pairwise_referenced.eq_of_mem_iff right.pairwise_referenced fun name => ?_
    rw [mem_referenced, mem_referenced, mem_symbols_congr hsame]
  refine ⟨sameRules_iff.mpr hsame, fun other => ?compared, hsame, hreferenced, ?dangling⟩
  case compared =>
    constructor
    · rw [Bool.eq_iff_iff, sameRules_iff, sameRules_iff]
      simp only [hsame]
    · rw [Bool.eq_iff_iff, sameRules_iff, sameRules_iff]
      simp only [hsame]
  case dangling =>
    rw [dangling, dangling, hreferenced]
    refine List.filter_congr fun name _ => ?_
    rw [Bool.not_inj_iff, Bool.eq_iff_iff, contains_iff_mem, contains_iff_mem]
    exact mem_nonterminals_congr hsame name

end Comparison

section Additions

variable (additions : List (String × Alternative))

/-- One more addition at the end of the list. -/
theorem ofList_concat (name : String) (alternative : Alternative) :
    ofList (additions ++ [(name, alternative)]) = (ofList additions).add name alternative := by
  rw [ofList, List.foldl_append]
  rfl

/-- What is added under a name by a list in two parts. -/
theorem addedUnder_append (front back : List (String × Alternative)) (name : String) :
    addedUnder (front ++ back) name = addedUnder front name ++ addedUnder back name := by
  rw [addedUnder, List.filter_append, List.map_append]
  rfl

/-- The nonterminals are the names of the additions in the order of their first occurrences. -/
theorem nonterminals_ofList :
    (ofList additions).nonterminals = (additions.map Prod.fst).eraseDups := by
  induction additions using List.reverseRecOn with
  | nil => rfl
  | append_singleton additions addition ih =>
    rw [ofList_concat, nonterminals_add, ih, List.map_append, List.eraseDups_append]
    by_cases hmem : addition.1 ∈ additions.map Prod.fst
    · simp [List.removeAll, hmem]
    · simp [List.removeAll, hmem, List.eraseDups_cons]

/-- The alternatives of a name are those that were added under it. -/
theorem alternatives?_ofList (name : String) :
    (ofList additions).alternatives? name =
      if addedUnder additions name = [] then none else some (addedUnder additions name) := by
  induction additions using List.reverseRecOn with
  | nil => rfl
  | append_singleton additions addition ih =>
    obtain ⟨other, alternative⟩ := addition
    rw [ofList_concat, alternatives?_add, addedUnder_append]
    by_cases hsame : name = other
    · subst hsame
      have hearlier : ((ofList additions).alternatives? name).getD [] =
          addedUnder additions name := by
        rw [ih]
        split
        next hnone => exact hnone.symm
        next => rfl
      have hlast : addedUnder [(name, alternative)] name = [alternative] := by simp [addedUnder]
      rw [if_pos rfl, hearlier, hlast, if_neg (by simp)]
    · have hlast : addedUnder [(other, alternative)] name = [] := by
        simp [addedUnder, Ne.symm hsame]
      rw [if_neg hsame, hlast, List.append_nil, ih]

/-- The symbols on right-hand sides are those of the added alternatives. -/
theorem mem_symbols_ofList (symbol : Symbol) :
    symbol ∈ (ofList additions).symbols ↔ ∃ addition ∈ additions, symbol ∈ addition.2 := by
  induction additions using List.reverseRecOn with
  | nil => simp [ofList, symbols, empty]
  | append_singleton additions addition ih =>
    rw [ofList_concat, mem_symbols_add, ih]
    simp only [List.mem_append, List.mem_singleton, or_and_right, exists_or, exists_eq_left]

/-- A grammar built from a list of additions shows what the list says. -/
theorem records_ofList : Records additions (ofList additions) where
  nonterminals := nonterminals_ofList additions
  alternatives := alternatives?_ofList additions
  sorted := pairwise_referenced _
  referenced := by
    intro name
    rw [mem_referenced, mem_symbols_ofList]
  dangling := by
    refine List.filter_congr fun name _ => ?_
    rw [Bool.eq_iff_iff, Bool.not_eq_true', ← Bool.not_eq_true, contains_iff_mem,
      nonterminals_ofList, List.mem_eraseDups, decide_eq_true_iff]

end Additions

section Lists

variable {left right : List (String × Alternative)}

/-- Lists that add the same under each name make grammars with the same alternatives, and no others
do. -/
theorem alternatives?_ofList_congr :
    (∀ name, (ofList left).alternatives? name = (ofList right).alternatives? name) ↔
      ∀ name, addedUnder left name = addedUnder right name := by
  refine forall_congr' fun name => ?_
  rw [alternatives?_ofList, alternatives?_ofList]
  constructor
  · intro hsame
    split at hsame <;> split at hsame <;> simp_all
  · intro hsame
    rw [hsame]

/-- Additions under different names may be exchanged without effect on what is added under each. -/
theorem addedUnder_swap {first second : String × Alternative} (hnames : first.1 ≠ second.1)
    (front back : List (String × Alternative)) (name : String) :
    addedUnder (front ++ first :: second :: back) name =
      addedUnder (front ++ second :: first :: back) name := by
  have hpair : addedUnder [first, second] name = addedUnder [second, first] name := by
    by_cases hfirst : first.1 = name
    · have hsecond : second.1 ≠ name := fun heq => hnames (hfirst.trans heq.symm)
      simp [addedUnder, hfirst, hsecond]
    · by_cases hsecond : second.1 = name <;> simp [addedUnder, hfirst, hsecond]
  have happend (pair : List (String × Alternative)) : addedUnder (front ++ (pair ++ back)) name =
      addedUnder front name ++ (addedUnder pair name ++ addedUnder back name) := by
    rw [addedUnder_append, addedUnder_append]
  have hfirst := happend [first, second]
  rw [hpair, ← happend [second, first]] at hfirst
  exact hfirst

end Lists

/-- A grammar keeps its additions: it shows them as they were made, name by name and in order; it
has the rules of another one exactly if the same was added under each name in the same order; and
two neighbouring additions under different names may be exchanged. -/
theorem ofList_keeps_additions (additions : List (String × Alternative)) :
    Records additions (ofList additions) ∧
    (∀ others, (ofList additions).sameRules (ofList others) = true ↔
      ∀ name, addedUnder additions name = addedUnder others name) ∧
    ∀ front back first second, additions = front ++ first :: second :: back → first.1 ≠ second.1 →
      Alike (ofList additions) (ofList (front ++ second :: first :: back)) := by
  refine ⟨records_ofList additions, fun others => ?same, ?exchanged⟩
  case same => rw [sameRules_iff, alternatives?_ofList_congr]
  case exchanged =>
    rintro front back first second rfl hnames
    exact alike_of_alternatives?
      (alternatives?_ofList_congr.mpr (addedUnder_swap hnames front back))

/-- The first two of three additions exchanged: only the order of the nonterminals is another
one. -/
theorem ofList_keeps_additions_exchanged :
    Alike (ofList [("A", [.nonterminal "B"]), ("B", []), ("A", [.nonterminal "C"])])
        (ofList [("B", []), ("A", [.nonterminal "B"]), ("A", [.nonterminal "C"])]) ∧
      (ofList [("A", [.nonterminal "B"]), ("B", []), ("A", [.nonterminal "C"])]).nonterminals =
        ["A", "B"] ∧
      (ofList [("B", []), ("A", [.nonterminal "B"]), ("A", [.nonterminal "C"])]).nonterminals =
        ["B", "A"] := by
  obtain ⟨-, -, hexchanged⟩ :=
    ofList_keeps_additions [("A", [.nonterminal "B"]), ("B", []), ("A", [.nonterminal "C"])]
  exact ⟨hexchanged [] _ _ _ rfl (by decide), by decide, by decide⟩

end PatternGrammar.Grammar
