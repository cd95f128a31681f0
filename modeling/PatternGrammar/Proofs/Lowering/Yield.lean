import Mathlib.Logic.Relation
import PatternGrammar.Proofs.Language
import PatternGrammar.Proofs.Lowering.Closure

/-!
# Nonterminals that derive something

A nonterminal yields a word as soon as it has an alternative in which everything yields one. Rules
are added when the expressions below them are done, so the only nonterminal that a new alternative
may use before it yields anything is that of a group which is still being lowered. Such a group
leads, through the references in what the groups hold, to every reference that the run can meet in
the meantime. If no group leads to itself, none of these references is to the group, and at the end
every nonterminal yields a word. A group that leads to itself may yield none.
-/

namespace PatternGrammar

namespace Grammar

/-- Some word can be derived from a nonterminal. -/
def Yields (grammar : Grammar) (name : String) : Prop :=
  ∃ word, grammar.Derives [.nonterminal name] word

variable {grammar : Grammar}

/-- More alternatives derive no less. -/
theorem Derives.mono {larger : Grammar} {symbols : List Symbol} {word : List Char}
    (hderives : grammar.Derives symbols word)
    (hgrows : ∀ name alternative, grammar.Produces name alternative →
      larger.Produces name alternative) :
    larger.Derives symbols word := by
  induction hderives with
  | nil => exact .nil
  | terminal _ ih => exact .terminal ih
  | nonterminal hproduces _ _ ihinner ihrest =>
    exact .nonterminal (hgrows _ _ hproduces) ihinner ihrest

/-- An addition takes no derivation away. -/
theorem Derives.add {symbols : List Symbol} {word : List Char}
    (hderives : grammar.Derives symbols word) (name : String) (alternative : Alternative) :
    (grammar.add name alternative).Derives symbols word :=
  hderives.mono fun _ _ hproduces => produces_add.mpr (.inl hproduces)

/-- More alternatives yield no less. -/
theorem Yields.mono {larger : Grammar} {name : String} (hyields : grammar.Yields name)
    (hgrows : ∀ name alternative, grammar.Produces name alternative →
      larger.Produces name alternative) :
    larger.Yields name := by
  obtain ⟨word, hderives⟩ := hyields
  exact ⟨word, hderives.mono hgrows⟩

/-- An addition leaves a word to everything that yields one. -/
theorem Yields.add {name : String} (hyields : grammar.Yields name) (other : String)
    (alternative : Alternative) : (grammar.add other alternative).Yields name := by
  obtain ⟨word, hderives⟩ := hyields
  exact ⟨word, hderives.add other alternative⟩

/-- A row of nonterminals that each yield a word derives a word. -/
theorem exists_derives_row {names : List String} (hnames : ∀ name ∈ names, grammar.Yields name) :
    ∃ word, grammar.Derives (names.map .nonterminal) word := by
  induction names with
  | nil => exact ⟨[], .nil⟩
  | cons name rest ih =>
    obtain ⟨hname, hrest⟩ := List.forall_mem_cons.mp hnames
    obtain ⟨first, hfirst⟩ := hname
    obtain ⟨others, hothers⟩ := ih hrest
    exact ⟨first ++ others, hfirst.append hothers⟩

/-- A nonterminal yields a word once it has an alternative that derives one. -/
theorem yields_add {alternative : Alternative} {word : List Char}
    (hderives : grammar.Derives alternative word) (name : String) :
    (grammar.add name alternative).Yields name := by
  have hproduces : (grammar.add name alternative).Produces name alternative :=
    produces_add.mpr (.inr ⟨rfl, rfl⟩)
  exact ⟨word, derives_nonterminal_iff.mpr ⟨alternative, hproduces, hderives.add name alternative⟩⟩

end Grammar

namespace CaptureTable

/-- `Refers table id other`: what the table holds for the first group refers to the second, outside
lookaheads. -/
def Refers (table : CaptureTable) (id other : Nat) : Prop :=
  ∃ body, table.get? id = some body ∧ body.Exposes (.reference other)

/-- No group leads to itself through references. -/
def Acyclic (table : CaptureTable) : Prop :=
  ∀ id, ¬Relation.TransGen table.Refers id id

/-- No group leads to itself if a rank falls from each group to those that it refers to. -/
theorem acyclic_of_rank {table : CaptureTable} (rank : Nat → Nat)
    (hrank : ∀ id other, table.Refers id other → rank other < rank id) : table.Acyclic := by
  intro id hcircle
  have hfalls (last : Nat) (hpath : Relation.TransGen table.Refers id last) :
      rank last < rank id := by
    induction hpath with
    | single hstep => exact hrank _ _ hstep
    | tail _ hstep ih => exact (hrank _ _ hstep).trans ih
  exact Nat.lt_irrefl _ (hfalls id hcircle)

end CaptureTable

namespace Lowering

/-- Everything that has a rule yields a word, and so does every group that has its name, except for
those that are still being lowered. -/
structure Fruitful (unfinished : Set Nat) (state : Lowering) : Prop where
  /-- Nonterminals with rules yield words. -/
  rules : ∀ name ∈ state.grammar.nonterminals, state.grammar.Yields name
  /-- Groups that are done yield words. -/
  groups : ∀ id ∈ state.registered, id ∉ unfinished → state.grammar.Yields (groupName id)

variable {unfinished : Set Nat} {state : Lowering}

/-- There is nothing to yield a word at the start. -/
theorem fruitful_start : Fruitful ∅ .start := ⟨nofun, nofun⟩

/-- Naming an expression changes nothing. -/
theorem Fruitful.named (hstate : Fruitful unfinished state) (given : Option String)
    (kind : NameKind) : Fruitful unfinished (state.named given kind) := by
  obtain ⟨hrules, hgroups⟩ := hstate
  constructor
  · simpa only [grammar_named] using hrules
  · simpa only [grammar_named, registered_named] using hgroups

/-- A group that receives its name is unfinished. -/
theorem Fruitful.enrolled (hstate : Fruitful unfinished state) (id : Nat) :
    Fruitful (insert id unfinished) (state.enrolled id) where
  rules := by simpa only [grammar_enrolled] using hstate.rules
  groups := by
    intro other hmem hfinished
    rw [Set.mem_insert_iff, not_or] at hfinished
    rw [grammar_enrolled]
    rcases (mem_registered_enrolled ..).mp hmem with hsame | hmem
    · exact absurd hsame hfinished.1
    · exact hstate.groups other hmem hfinished.2

/-- An alternative that derives a word may be added to any rule. -/
theorem Fruitful.added {alternative : Alternative} {word : List Char}
    (hstate : Fruitful unfinished state)
    (hderives : state.grammar.Derives alternative word) (name : String) :
    Fruitful unfinished (state.added name alternative) where
  rules := by
    intro other hmem
    rcases Grammar.mem_nonterminals_add.mp hmem with rfl | hmem
    · exact Grammar.yields_add hderives other
    · exact (hstate.rules other hmem).add name alternative
  groups := fun id hmem hfinished => (hstate.groups id hmem hfinished).add name alternative

/-- A group is done when it has an alternative that derives a word. -/
theorem Fruitful.settled {id : Nat} {alternative : Alternative} {word : List Char}
    (hstate : Fruitful (insert id unfinished) state)
    (hderives : state.grammar.Derives alternative word) :
    Fruitful unfinished (state.added (groupName id) alternative) := by
  obtain ⟨hrules, hgroups⟩ := hstate.added hderives (groupName id)
  refine ⟨hrules, fun other hmem hfinished => ?_⟩
  by_cases hsame : other = id
  · rw [hsame]
    exact Grammar.yields_add hderives (groupName id)
  · refine hgroups other hmem ?_
    rw [Set.mem_insert_iff, not_or]
    exact ⟨hsame, hfinished⟩

/-- What has received an alternative yields a word and may be returned. -/
theorem Fruitful.returns {alternative : Alternative} {name : String}
    (hstate : Fruitful unfinished (state.added name alternative)) :
    Fruitful unfinished (state.added name alternative) ∧
      ∀ other ∈ [name], (state.added name alternative).grammar.Yields other := by
  refine ⟨hstate, List.forall_mem_singleton.mpr (hstate.rules name ?_)⟩
  exact Grammar.mem_nonterminals_add.mpr (.inl rfl)

namespace Job

/-- Every unfinished group leads to whatever the job refers to. -/
def Serves (table : CaptureTable) (unfinished : Set Nat) (job : Job) : Prop :=
  ∀ group ∈ unfinished, ∀ id, job.Exposes (.reference id) → Relation.TransGen table.Refers group id

variable {limits : Limits} {table : CaptureTable} {levels : Nat} {job : Job}
  {before after : Lowering} {names : List String}

/-- What serves a job serves every job inside it. -/
theorem Serves.inside {inner : Job} (hserves : job.Serves table unfinished)
    (hexposes : ∀ id, inner.Exposes (.reference id) → job.Exposes (.reference id)) :
    inner.Serves table unfinished :=
  fun group hgroup id hreference => hserves group hgroup id (hexposes id hreference)

/-- What a group holds also serves the group itself, and each group that leads to what refers to
it. -/
theorem Serves.body {id : Nat} {body : Expr} (hholds : table.get? id = some body)
    (hothers : ∀ group ∈ unfinished, ∀ other, body.Exposes (.reference other) →
      Relation.TransGen table.Refers group other) :
    (Job.one body none).Serves table (insert id unfinished) := by
  intro group hgroup other hreference
  rcases Set.mem_insert_iff.mp hgroup with rfl | hgroup
  · exact .single ⟨body, hholds, hreference⟩
  · exact hothers group hgroup other hreference

/-- If no group leads to itself, a run returns nonterminals that yield words and leaves no others
behind. -/
theorem Succeeds.fruitful (hrun : Succeeds limits table levels job before names after)
    (hacyclic : table.Acyclic) (hcoherent : table.Coherent) (hagrees : job.Agrees table)
    (hserves : job.Serves table unfinished) (hbefore : Fruitful unfinished before) :
    Fruitful unfinished after ∧ ∀ name ∈ names, after.grammar.Yields name := by
  -- The unfinished groups are general: inside a group there is one more of them.
  induction hrun generalizing unfinished with
  | char levels c given before =>
    have hderives : (before.named given .char).grammar.Derives [.terminal c] [c] := .terminal .nil
    exact ((hbefore.named given .char).added hderives _).returns
  | lookahead levels body given before =>
    exact ((hbefore.named given .lookahead).added .nil _).returns
  | @concat levels operands given before after names _ _ ih =>
    obtain ⟨hafter, hnames⟩ := ih (fun _ hmem => CaptureTable.Agrees.row_operand hagrees hmem)
      (hserves.inside fun _ => exposes_concat) (hbefore.named given .concat)
    obtain ⟨word, hderives⟩ := Grammar.exists_derives_row hnames
    exact (hafter.added hderives _).returns
  | @alternation levels operands given before after names hnonempty hbranches ih =>
    obtain ⟨hafter, -⟩ := ih (fun _ hmem => CaptureTable.Agrees.branch hagrees hmem)
      (hserves.inside fun _ => exposes_alternation) (hbefore.named given .alternation)
    have hruled : before.nameFor given .alternation ∈ after.grammar.nonterminals :=
      (hbranches.known_branches hnonempty ∅).resolve_right (Set.notMem_empty _)
    exact ⟨hafter, List.forall_mem_singleton.mpr (hafter.rules _ hruled)⟩
  | @star levels body given before after inner _ ih =>
    obtain ⟨hafter, hinner⟩ := ih (CaptureTable.Agrees.star_body hagrees)
      (hserves.inside fun _ => .star) (hbefore.named given .star)
    obtain ⟨word, hbody⟩ := hinner inner (List.mem_singleton_self inner)
    obtain ⟨hempty, hselves⟩ := (hafter.added .nil (before.nameFor given .star)).returns
    obtain ⟨rounds, hself⟩ := hselves _ (List.mem_singleton_self _)
    exact (hempty.added (hself.append (hbody.add _ _)) _).returns
  | @plain levels body given before after inner _ ih =>
    obtain ⟨hafter, hinner⟩ := ih (CaptureTable.Agrees.plain_body hagrees)
      (hserves.inside fun _ => .plain) (hbefore.named given .plain)
    obtain ⟨word, hderives⟩ := hinner inner (List.mem_singleton_self inner)
    exact (hafter.added hderives _).returns
  | @capture levels id body given before after inner _ _ ih =>
    have hserved : (Job.one body none).Serves table (insert id unfinished) :=
      Serves.body (hagrees id body (.here _)) fun group hgroup other hreference =>
        hserves group hgroup other (.capture hreference)
    obtain ⟨hafter, hinner⟩ :=
      ih (CaptureTable.Agrees.capture_body hagrees) hserved (hbefore.enrolled id)
    obtain ⟨word, hderives⟩ := hinner inner (List.mem_singleton_self inner)
    exact (hafter.settled hderives).returns
  | @known levels id given before hregistered =>
    -- An unfinished group would lead to itself, since it leads to what is referred to here.
    have hfinished : id ∉ unfinished := fun hunfinished =>
      hacyclic id (hserves id hunfinished id (.here _))
    exact ⟨hbefore, List.forall_mem_singleton.mpr (hbefore.groups id hregistered hfinished)⟩
  | @forward levels id body given before after inner _ hholds _ ih =>
    have hserved : (Job.one body none).Serves table (insert id unfinished) :=
      Serves.body hholds fun group hgroup other hreference =>
        (hserves group hgroup id (.here _)).tail ⟨body, hholds, hreference⟩
    obtain ⟨hafter, hinner⟩ := ih (hcoherent id body hholds) hserved (hbefore.enrolled id)
    obtain ⟨word, hderives⟩ := hinner inner (List.mem_singleton_self inner)
    exact (hafter.settled hderives).returns
  | rowNil | branchesNil => exact ⟨hbefore, nofun⟩
  | @rowCons levels operand operands before between after first names _ htail ihhead ihtail =>
    obtain ⟨hhead, hrest⟩ := List.forall_mem_cons.mp hagrees
    obtain ⟨hbetween, hfirst⟩ := ihhead hhead (hserves.inside fun _ => exposes_head) hbefore
    obtain ⟨hafter, hnames⟩ := ihtail hrest (hserves.inside fun _ => exposes_tail) hbetween
    refine ⟨hafter, List.forall_mem_cons.mpr ⟨?_, hnames⟩⟩
    exact (hfirst first (List.mem_singleton_self first)).mono fun _ _ => htail.produces_mono
  | @branchesCons levels name operand operands before between after first names _ _ ihhead ihtail =>
    obtain ⟨hhead, hrest⟩ := List.forall_mem_cons.mp hagrees
    obtain ⟨hbetween, hfirst⟩ := ihhead hhead (hserves.inside fun _ => exposes_head) hbefore
    obtain ⟨word, hderives⟩ := hfirst first (List.mem_singleton_self first)
    exact ihtail hrest (hserves.inside fun _ => exposes_tail) (hbetween.added hderives name)

end Job

end Lowering

/-- If the table agrees with the expression and with itself and no group leads to itself, every
nonterminal of the grammar yields a word. -/
theorem Pattern.yields_toGrammar {pattern : Pattern} {grammar : Grammar}
    (hgrammar : pattern.toGrammar = .ok grammar) (hacyclic : pattern.captures.Acyclic)
    (hcoherent : pattern.captures.Coherent) (hagrees : pattern.captures.Agrees pattern.root)
    {name : String} (hmem : name ∈ grammar.nonterminals) : grammar.Yields name := by
  obtain ⟨top, state, rfl, hrun⟩ := succeeds_of_toGrammar hgrammar
  have hserves : (Lowering.Job.one pattern.root none).Serves pattern.captures ∅ :=
    fun group hgroup => absurd hgroup (Set.notMem_empty group)
  obtain ⟨hstate, htop⟩ := hrun.fruitful hacyclic hcoherent hagrees hserves Lowering.fruitful_start
  obtain ⟨word, hderives⟩ := htop top (List.mem_singleton_self top)
  exact (hstate.added hderives Grammar.startName).rules name hmem

namespace Grammar

/-- If no group of a text leads to itself through references outside lookaheads, every nonterminal
of its grammar derives a word, and so the grammar has a word. -/
theorem yields_ofText {text : String} {tokens : List Token} {pattern : Pattern} {grammar : Grammar}
    (hscan : Token.scan text = .ok tokens) (hread : Pattern.ofTokens tokens = .ok pattern)
    (hgrammar : Grammar.ofText text = .ok grammar) (hacyclic : pattern.captures.Acyclic) :
    (∀ name ∈ grammar.nonterminals, grammar.Yields name) ∧ ∃ word, grammar.HasWord word := by
  have hlowered := toGrammar_of_ofText hscan hread hgrammar
  have hyields {name : String} (hmem : name ∈ grammar.nonterminals) : grammar.Yields name :=
    Pattern.yields_toGrammar hlowered hacyclic (Pattern.coherent_captures hread)
      (Pattern.agrees_captures hread) hmem
  refine ⟨fun name => hyields, hyields ?_⟩
  obtain ⟨top, state, rfl, -⟩ := Pattern.succeeds_of_toGrammar hlowered
  exact mem_nonterminals_add.mpr (.inl rfl)

/-- Groups that refer to each other in both directions and one of which holds another, and a
lookahead through which all of them would be in a circle. -/
theorem yields_ofText_both_ways :
    ∃ tokens pattern grammar, Token.scan "((?3)*a)((?1)|b)((c)(?=(?2)))" = .ok tokens ∧
      Pattern.ofTokens tokens = .ok pattern ∧
      Grammar.ofText "((?3)*a)((?1)|b)((c)(?=(?2)))" = .ok grammar ∧ pattern.captures.Acyclic ∧
      (∀ name ∈ grammar.nonterminals, grammar.Yields name) ∧ ∃ word, grammar.HasWord word := by
  have hread : ∃ (tokens : List Token) (pattern : Pattern),
      Token.scan "((?3)*a)((?1)|b)((c)(?=(?2)))" = .ok tokens ∧
        Pattern.ofTokens tokens = .ok pattern ∧
        pattern.captures.entries = [(1, .concat [.star (.reference 3), .char 'a']),
          (2, .alternation [.reference 1, .char 'b']),
          (3, .concat [.capture 4 (.char 'c'), .lookahead (.reference 2)]), (4, .char 'c')] :=
    ⟨_, _, rfl, rfl, rfl⟩
  obtain ⟨tokens, pattern, hscan, hread, hentries⟩ := hread
  -- Group three comes before the first in this rank, and the lookahead in it does not count.
  have hacyclic : pattern.captures.Acyclic := by
    refine CaptureTable.acyclic_of_rank (fun id => if id = 3 then 0 else id)
      fun id other hrefers => ?_
    obtain ⟨body, hholds, hexposes⟩ := hrefers
    rw [CaptureTable.get?_eq_some, hentries] at hholds
    simp only [List.mem_cons, List.not_mem_nil, or_false, Prod.mk.injEq] at hholds
    rcases hholds with ⟨rfl, rfl⟩ | ⟨rfl, rfl⟩ | ⟨rfl, rfl⟩ | ⟨rfl, rfl⟩
    · cases hexposes with
      | concat hmem hexposes =>
        rcases List.mem_pair.mp hmem with rfl | rfl
        · cases hexposes with
          | star hexposes =>
            cases hexposes
            decide
        · cases hexposes
    · cases hexposes with
      | alternation hmem hexposes =>
        rcases List.mem_pair.mp hmem with rfl | rfl
        · cases hexposes
          decide
        · cases hexposes
    · cases hexposes with
      | concat hmem hexposes =>
        rcases List.mem_pair.mp hmem with rfl | rfl
        · cases hexposes with
          | capture hexposes => cases hexposes
        · cases hexposes
    · cases hexposes
  have hok : (Grammar.ofText "((?3)*a)((?1)|b)((c)(?=(?2)))").isOk = true := by decide +kernel
  cases hgrammar : Grammar.ofText "((?3)*a)((?1)|b)((c)(?=(?2)))" with
  | error error =>
    rw [hgrammar] at hok
    cases hok
  | ok grammar =>
    exact ⟨tokens, pattern, grammar, hscan, hread, rfl, hacyclic,
      yields_ofText hscan hread hgrammar hacyclic⟩

end Grammar

end PatternGrammar
