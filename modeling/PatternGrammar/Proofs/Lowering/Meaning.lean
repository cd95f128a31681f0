import PatternGrammar.Proofs.Lowering.Lexicon
import PatternGrammar.Proofs.Lowering.Names
import PatternGrammar.Proofs.Lowering.Run

/-!
# The meaning of a lowering

While rules are being added, a lexicon keeps account of what every nonterminal stands for. It grows
when an expression receives its name or a group is registered, and never changes what it says of a
name. Nonterminals whose rules are still to come are pending; a run leaves nothing pending that was
not pending before it. Since this is also true of a group that refers to itself while it is being
lowered, the meaning of every name is settled when the whole run is over.
-/

namespace PatternGrammar

namespace Lexicon

/-- The entries of the lexicon are those of the names made so far. -/
structure Tracks (lexicon : Lexicon) (state : Lowering) : Prop where
  /-- Names that are still to be made have no entry. -/
  fresh : ∀ (kind : NameKind) (number : Nat), state.counters.get kind ≤ number →
    lexicon (kind.name number) = none
  /-- The name of a registered group stands for the reference to it. -/
  registered : ∀ id ∈ state.registered, lexicon (groupName id) = some (.reference id)
  /-- The names of other groups have no entry. -/
  unregistered : ∀ id, id ∉ state.registered → lexicon (groupName id) = none

/-- The lexicon accounts for a state of a lowering. -/
structure Describes (table : CaptureTable) (lexicon : Lexicon) (pending : Set String)
    (state : Lowering) :
    Prop extends Explains table lexicon pending state.grammar, Tracks lexicon state

/-- Nothing has a meaning before the first name is made. -/
theorem describes_start (table : CaptureTable) : Describes table (fun _ => none) ∅ .start where
  fits := by
    rintro name alternative ⟨alternatives, hfound, -⟩
    cases hfound
  covers := fun _ _ hname => nomatch hname
  agrees := fun _ _ hname => nomatch hname
  fresh := fun _ _ _ => rfl
  registered := fun _ hmem => nomatch hmem
  unregistered := fun _ _ => rfl

/-- A given name must be unused and not one that lowering makes by itself. -/
def Admits (lexicon : Lexicon) (given : Option String) : Prop :=
  ∀ name, given = some name → lexicon name = none ∧ ¬Generated name

variable {table : CaptureTable} {lexicon : Lexicon} {pending : Set String} {state : Lowering}

/-- Without a given name nothing has to be admitted. -/
theorem admits_none (lexicon : Lexicon) : lexicon.Admits none := fun _ heq => nomatch heq

/-- The name that an expression receives was not used before. -/
theorem Tracks.nameFor_unused (htracks : lexicon.Tracks state) {given : Option String}
    (hadmits : lexicon.Admits given) (kind : NameKind) :
    lexicon (state.nameFor given kind) = none := by
  cases given with
  | none => exact htracks.fresh kind _ (Nat.le_refl _)
  | some name => exact (hadmits name rfl).1

/-- The name that an expression receives is made by lowering or given. -/
theorem generated_nameFor (state : Lowering) (given : Option String) (kind : NameKind) :
    Generated (state.nameFor given kind) ∨ given = some (state.nameFor given kind) := by
  cases given with
  | none => exact .inl (.inl ⟨kind, _, rfl⟩)
  | some name => exact .inr rfl

/-- The name that an expression receives is not the name of a group. -/
theorem Admits.nameFor_ne_groupName {given : Option String} (hadmits : lexicon.Admits given)
    (state : Lowering) (kind : NameKind) (id : Nat) : state.nameFor given kind ≠ groupName id := by
  cases given with
  | none => exact kind.name_ne_groupName _ id
  | some name => exact fun heq => (hadmits name rfl).2 (.inr ⟨id, heq⟩)

/-- A name that is still to be made after an expression was named is not the name of that
expression. -/
theorem Admits.name_ne_nameFor {given : Option String} (hadmits : lexicon.Admits given)
    {kind other : NameKind} {number : Nat}
    (hlater : (state.named given kind).counters.get other ≤ number) :
    other.name number ≠ state.nameFor given kind ∧ state.counters.get other ≤ number := by
  cases given with
  | none =>
    simp only [Lowering.named, Counters.get_bump] at hlater
    constructor
    · intro heq
      obtain ⟨hkind, hnumber⟩ := NameKind.name_inj heq
      rw [if_pos hkind] at hlater
      omega
    · split at hlater
      next hkind => subst hkind; omega
      next => exact hlater
  | some name => exact ⟨fun heq => (hadmits name rfl).2 (.inl ⟨other, number, heq.symm⟩), hlater⟩

/-- An expression receives its name, and its rules are pending. -/
theorem Describes.named (hdescribes : Describes table lexicon pending state) {given : Option String}
    (hadmits : lexicon.Admits given) (kind : NameKind) {expr : Expr} (hagrees : table.Agrees expr) :
    Describes table (Function.update lexicon (state.nameFor given kind) (some expr))
      (insert (state.nameFor given kind) pending) (state.named given kind) where
  toExplains := by
    rw [Lowering.grammar_named]
    exact hdescribes.toExplains.update (hdescribes.nameFor_unused hadmits kind) hagrees
  fresh := by
    intro other number hlater
    obtain ⟨hne, hearlier⟩ := hadmits.name_ne_nameFor hlater
    rw [Function.update_of_ne hne]
    exact hdescribes.fresh other number hearlier
  registered := by
    intro id hmem
    rw [Lowering.registered_named] at hmem
    rw [Function.update_of_ne (hadmits.nameFor_ne_groupName state kind id).symm]
    exact hdescribes.registered id hmem
  unregistered := by
    intro id hmem
    rw [Lowering.registered_named] at hmem
    rw [Function.update_of_ne (hadmits.nameFor_ne_groupName state kind id).symm]
    exact hdescribes.unregistered id hmem

/-- A group is registered, and its rules are pending from here on. -/
theorem Describes.enrolled (hdescribes : Describes table lexicon pending state) (id : Nat) :
    ∃ larger, lexicon.Extends larger ∧
      Describes table larger (insert (groupName id) pending) (state.enrolled id) ∧
      larger (groupName id) = some (.reference id) ∧
      ∀ name, ¬Generated name → larger name = lexicon name := by
  by_cases hmem : id ∈ state.registered
  · refine ⟨lexicon, fun _ _ heq => heq, ?_, hdescribes.registered id hmem, fun _ _ => rfl⟩
    rw [Lowering.enrolled, if_pos hmem]
    exact ⟨hdescribes.toExplains.insert_pending _, hdescribes.toTracks⟩
  · have hunused := hdescribes.unregistered id hmem
    have hagrees : table.Agrees (.reference id) := fun _ _ hexposes => nomatch hexposes
    refine ⟨Function.update lexicon (groupName id) (some (.reference id)), extends_update hunused _,
      ?_, Function.update_self .., fun name hname => Function.update_of_ne ?_ ..⟩
    · rw [Lowering.enrolled, if_neg hmem]
      refine ⟨hdescribes.toExplains.update hunused hagrees, ⟨?_, ?_, ?_⟩⟩
      · intro kind number hlater
        rw [Function.update_of_ne (kind.name_ne_groupName number id)]
        exact hdescribes.fresh kind number hlater
      · intro other hother
        by_cases hsame : other = id
        · rw [hsame, Function.update_self]
        · rw [Function.update_of_ne fun heq => hsame (groupName_inj heq)]
          exact hdescribes.registered other ((List.mem_cons.mp hother).resolve_left hsame)
      · intro other hother
        have hne : other ≠ id := fun heq => hother (List.mem_cons.mpr (.inl heq))
        rw [Function.update_of_ne fun heq => hne (groupName_inj heq)]
        exact hdescribes.unregistered other fun hold => hother (List.mem_cons_of_mem _ hold)
    · rintro rfl
      exact hname (.inr ⟨id, rfl⟩)

/-- One more alternative that fits its nonterminal. -/
theorem Describes.added (hdescribes : Describes table lexicon pending state) {name : String}
    {expr : Expr} {alternative : Alternative} (hname : lexicon name = some expr)
    (hfits : Fits table lexicon expr alternative) :
    Describes table lexicon pending (state.added name alternative) :=
  ⟨hdescribes.toExplains.add hname hfits, ⟨hdescribes.fresh, hdescribes.registered,
    hdescribes.unregistered⟩⟩

end Lexicon

namespace Lowering.Job

/-- What must be known of the names of a job before it is done. -/
def Ready (lexicon : Lexicon) : Job → Prop
  | .one _ given => lexicon.Admits given
  | .row _ => True
  | .branches name operands => ∃ all, lexicon name = some (.alternation all) ∧ operands ⊆ all

/-- What is known of the names of a job after it is done. -/
def Done (lexicon : Lexicon) (grammar : Grammar) (names : List String) : Job → Prop
  | .one expr _ => ∃ name, names = [name] ∧ lexicon.Stands name expr
  | .row operands => List.Forall₂ lexicon.Stands names operands
  | .branches name operands => ∀ operand ∈ operands, ∃ inner,
      grammar.Produces name [.nonterminal inner] ∧ lexicon.Stands inner operand

/-- The larger lexicon accounts for the state after a job as the smaller one did for the state
before it. -/
structure Continues (table : CaptureTable) (lexicon : Lexicon) (pending : Set String) (job : Job)
    (names : List String) (after : Lowering) (larger : Lexicon) : Prop where
  /-- No meaning is changed. -/
  keeps : lexicon.Extends larger
  /-- The larger lexicon accounts for the state, with no more pending than before. -/
  describes : Lexicon.Describes table larger pending after
  /-- The names of the job stand for its expressions. -/
  done : job.Done larger after.grammar names
  /-- Only the given name and names made by lowering receive a meaning. -/
  frame : ∀ name, ¬Generated name → job.given ≠ some name → larger name = lexicon name

variable {limits : Limits} {table : CaptureTable} {levels : Nat} {lexicon : Lexicon}
  {pending : Set String}

/-- A job that was given no name gives a meaning only to names made by lowering. -/
theorem Continues.frame_of_none {job : Job} {names : List String} {after : Lowering}
    {larger : Lexicon} (hcontinues : Continues table lexicon pending job names after larger)
    (hgiven : job.given = none)
    (name : String) (hname : ¬Generated name) : larger name = lexicon name := by
  refine hcontinues.frame name hname ?_
  rw [hgiven]
  exact nofun

/-- The name of an expression is the only one to receive a meaning when the expression is named. -/
theorem frame_named (lexicon : Lexicon) (state : Lowering) (given : Option String) (kind : NameKind)
    (expr : Expr) {name : String} (hname : ¬Generated name) (hgiven : given ≠ some name) :
    Function.update lexicon (state.nameFor given kind) (some expr) name = lexicon name := by
  refine Function.update_of_ne ?_ ..
  rintro rfl
  rcases Lexicon.generated_nameFor state given kind with hgenerated | hsame
  · exact hname hgenerated
  · exact hgiven hsame

/-- An expression with a name of its own: once its alternatives are there, it is settled. -/
theorem continues_named {expr : Expr} {given : Option String} {kind : NameKind}
    {before after : Lowering} {larger : Lexicon} (hlabel : expr.label = expr)
    (hunused : lexicon (before.nameFor given kind) = none)
    (hkeeps : Lexicon.Extends
      (Function.update lexicon (before.nameFor given kind) (some expr)) larger)
    (hdescribes : Lexicon.Describes table larger (insert (before.nameFor given kind) pending) after)
    (hcovers : Lexicon.Covers table larger after.grammar (before.nameFor given kind) expr)
    (hframe : ∀ name, ¬Generated name →
      larger name = Function.update lexicon (before.nameFor given kind) (some expr) name) :
    Continues table lexicon pending (.one expr given) [before.nameFor given kind] after larger where
  keeps := (Lexicon.extends_update hunused expr).trans hkeeps
  describes :=
    ⟨hdescribes.toExplains.settle (hkeeps _ _ (Function.update_self ..)) hcovers,
      hdescribes.toTracks⟩
  done := by
    refine ⟨_, rfl, ?_⟩
    rw [Lexicon.Stands, hlabel]
    exact hkeeps _ _ (Function.update_self ..)
  frame := fun name hname hgiven =>
    (hframe name hname).trans (frame_named lexicon before given kind expr hname hgiven)

/-- A group: once its body is lowered, the one new alternative settles it. -/
theorem continues_group {id : Nat} {body expr : Expr} (given : Option String)
    {before after : Lowering} {inner : String} (hlabel : expr.label = .reference id)
    (hholds : table.get? id = some body)
    (hdescribes : Lexicon.Describes table lexicon pending before)
    (hinside : ∀ lexicon pending, Lexicon.Describes table lexicon pending (before.enrolled id) →
      ∃ larger, Continues table lexicon pending (.one body none) [inner] after larger) :
    ∃ larger, Continues table lexicon pending (.one expr given) [groupName id]
      (after.added (groupName id) [.nonterminal inner]) larger := by
  obtain ⟨entered, hkeeps, hentered, hgroup, hframe⟩ := hdescribes.enrolled id
  obtain ⟨larger, hcontinues⟩ := hinside entered _ hentered
  obtain ⟨name, hname, hstands⟩ := hcontinues.done
  cases hname
  have hself := hcontinues.keeps _ _ hgroup
  have hadded := hcontinues.describes.added hself ⟨inner, body, hholds, rfl, hstands⟩
  have hproduces : (after.grammar.add (groupName id) [.nonterminal inner]).Produces (groupName id)
      [.nonterminal inner] := Grammar.produces_add.mpr (.inr ⟨rfl, rfl⟩)
  refine ⟨larger, hkeeps.trans hcontinues.keeps, ⟨?_, hadded.toTracks⟩, ⟨groupName id, rfl, ?_⟩, ?_⟩
  · exact hadded.toExplains.settle hself ⟨inner, body, hholds, hproduces, hstands⟩
  · rw [Lexicon.Stands, hlabel]
    exact hself
  · intro name hname _
    exact (hcontinues.frame_of_none rfl name hname).trans (hframe name hname)

/-- A successful run carries the account of every name from the state before it to the state after
it. -/
theorem Succeeds.continues {job : Job} {before after : Lowering} {names : List String}
    (hrun : Succeeds limits table levels job before names after) (hcoherent : table.Coherent)
    (hagrees : job.Agrees table) (hdescribes : Lexicon.Describes table lexicon pending before)
    (hready : job.Ready lexicon) :
    ∃ larger, Continues table lexicon pending job names after larger := by
  -- Induction on the run, since forward references leave the tree; what is pending and what the
  -- names stand for are general, because both have grown when the run comes to a part.
  induction hrun generalizing lexicon pending with
  | char levels c given before =>
    have hunused := hdescribes.nameFor_unused hready .char
    have hself : Function.update lexicon (before.nameFor given .char) (some (.char c))
      (before.nameFor given .char) = some (.char c) := Function.update_self ..
    have hadded := (hdescribes.named hready .char hagrees).added hself rfl
    refine ⟨_, continues_named rfl hunused (fun _ _ heq => heq) hadded ?_ fun _ _ => rfl⟩
    exact Grammar.produces_add.mpr (.inr ⟨rfl, rfl⟩)
  | lookahead levels body given before =>
    have hunused := hdescribes.nameFor_unused hready .lookahead
    have hself : Function.update lexicon (before.nameFor given .lookahead) (some (.lookahead body))
      (before.nameFor given .lookahead) = some (.lookahead body) := Function.update_self ..
    have hadded := (hdescribes.named hready .lookahead hagrees).added hself rfl
    refine ⟨_, continues_named rfl hunused (fun _ _ heq => heq) hadded ?_ fun _ _ => rfl⟩
    exact Grammar.produces_add.mpr (.inr ⟨rfl, rfl⟩)
  | @concat levels operands given before after names _ _ ih =>
    have hunused := hdescribes.nameFor_unused hready .concat
    have hnamed := hdescribes.named hready .concat hagrees
    have hoperands : (Job.row operands).Agrees table :=
      fun _ hmem => CaptureTable.Agrees.row_operand hagrees hmem
    obtain ⟨larger, hcontinues⟩ := ih hoperands hnamed trivial
    have hself := hcontinues.keeps _ _ (Function.update_self ..)
    have hadded := hcontinues.describes.added hself ⟨names, rfl, hcontinues.done⟩
    refine ⟨larger, continues_named rfl hunused hcontinues.keeps hadded ?_ ?_⟩
    · exact ⟨names, Grammar.produces_add.mpr (.inr ⟨rfl, rfl⟩), hcontinues.done⟩
    · exact hcontinues.frame_of_none rfl
  | @alternation levels operands given before after names _ _ ih =>
    have hunused := hdescribes.nameFor_unused hready .alternation
    have hnamed := hdescribes.named hready .alternation hagrees
    have hbranches : (Job.branches (before.nameFor given .alternation) operands).Agrees table :=
      fun _ hmem => CaptureTable.Agrees.branch hagrees hmem
    obtain ⟨larger, hcontinues⟩ := ih hbranches hnamed
      ⟨operands, Function.update_self .., List.Subset.refl _⟩
    refine ⟨larger, continues_named rfl hunused hcontinues.keeps hcontinues.describes
      hcontinues.done ?_⟩
    exact hcontinues.frame_of_none rfl
  | @star levels body given before after inner _ ih =>
    have hunused := hdescribes.nameFor_unused hready .star
    have hnamed := hdescribes.named hready .star hagrees
    have hbody : table.Agrees body := CaptureTable.Agrees.star_body hagrees
    obtain ⟨larger, hcontinues⟩ := ih hbody hnamed (Lexicon.admits_none _)
    obtain ⟨name, hname, hstands⟩ := hcontinues.done
    cases hname
    have hself := hcontinues.keeps _ _ (Function.update_self ..)
    have hempty := hcontinues.describes.added hself (.inl rfl)
    have hadded := hempty.added hself (.inr ⟨_, inner, rfl, hself, hstands⟩)
    refine ⟨larger, continues_named rfl hunused hcontinues.keeps hadded ⟨?_, inner, ?_, hstands⟩ ?_⟩
    · exact Grammar.produces_add.mpr (.inl (Grammar.produces_add.mpr (.inr ⟨rfl, rfl⟩)))
    · exact Grammar.produces_add.mpr (.inr ⟨rfl, rfl⟩)
    · exact hcontinues.frame_of_none rfl
  | @plain levels body given before after inner _ ih =>
    have hunused := hdescribes.nameFor_unused hready .plain
    have hnamed := hdescribes.named hready .plain hagrees
    have hbody : table.Agrees body := CaptureTable.Agrees.plain_body hagrees
    obtain ⟨larger, hcontinues⟩ := ih hbody hnamed (Lexicon.admits_none _)
    obtain ⟨name, hname, hstands⟩ := hcontinues.done
    cases hname
    have hself := hcontinues.keeps _ _ (Function.update_self ..)
    have hadded := hcontinues.describes.added hself ⟨inner, rfl, hstands⟩
    refine ⟨larger, continues_named rfl hunused hcontinues.keeps hadded ⟨inner, ?_, hstands⟩ ?_⟩
    · exact Grammar.produces_add.mpr (.inr ⟨rfl, rfl⟩)
    · exact hcontinues.frame_of_none rfl
  | @capture levels id body given before after inner _ _ ih =>
    refine continues_group given rfl (hagrees id body (.here _)) hdescribes
      fun entered among hentered => ?_
    have hbody : table.Agrees body := CaptureTable.Agrees.capture_body hagrees
    exact ih hbody hentered (Lexicon.admits_none _)
  | known hmem =>
    refine ⟨lexicon, fun _ _ heq => heq, hdescribes, ?_, fun _ _ _ => rfl⟩
    exact ⟨_, rfl, hdescribes.registered _ hmem⟩
  | @forward levels id body given before after inner _ hholds _ ih =>
    refine continues_group given rfl hholds hdescribes fun entered among hentered => ?_
    exact ih (hcoherent id body hholds) hentered (Lexicon.admits_none _)
  | rowNil levels before =>
    exact ⟨lexicon, fun _ _ heq => heq, hdescribes, .nil, fun _ _ _ => rfl⟩
  | rowCons _ _ ihhead ihtail =>
    have hboth := List.forall_mem_cons.mp hagrees
    obtain ⟨between, hhead⟩ := ihhead hboth.1 hdescribes (Lexicon.admits_none _)
    obtain ⟨larger, htail⟩ := ihtail hboth.2 hhead.describes trivial
    obtain ⟨name, hname, hstands⟩ := hhead.done
    cases hname
    refine ⟨larger, hhead.keeps.trans htail.keeps, htail.describes,
      .cons (hstands.mono htail.keeps) htail.done, fun name hname hgiven => ?_⟩
    exact (htail.frame name hname hgiven).trans (hhead.frame_of_none rfl name hname)
  | branchesNil levels name before =>
    exact ⟨lexicon, fun _ _ heq => heq, hdescribes, (fun _ hmem => nomatch hmem), fun _ _ _ => rfl⟩
  | @branchesCons levels name operand operands before between after first names _ htailrun ihhead
      ihtail =>
    obtain ⟨all, hall, hsubset⟩ := hready
    have hboth := List.forall_mem_cons.mp hagrees
    obtain ⟨grown, hhead⟩ := ihhead hboth.1 hdescribes (Lexicon.admits_none _)
    obtain ⟨inner, hinner, hstands⟩ := hhead.done
    cases hinner
    have hname := hhead.keeps _ _ hall
    have hadded := hhead.describes.added hname
      ⟨first, operand, hsubset List.mem_cons_self, rfl, hstands⟩
    obtain ⟨larger, htail⟩ := ihtail hboth.2 hadded
      ⟨all, hname, fun other hmem => hsubset (List.mem_cons_of_mem _ hmem)⟩
    refine ⟨larger, hhead.keeps.trans htail.keeps, htail.describes, ?_, ?_⟩
    · intro other hmem
      rcases List.mem_cons.mp hmem with rfl | hmem
      · have hproduces := htailrun.produces_mono (Grammar.produces_add.mpr (.inr ⟨rfl, rfl⟩))
        exact ⟨first, hproduces, hstands.mono htail.keeps⟩
      · exact htail.done other hmem
    · intro other hother _
      exact (htail.frame_of_none rfl other hother).trans (hhead.frame_of_none rfl other hother)

end Lowering.Job

/-- If the table agrees with the expression and with itself, the grammar has the words of the
expression. -/
theorem Pattern.hasWord_toGrammar {pattern : Pattern} {grammar : Grammar}
    (hgrammar : pattern.toGrammar = .ok grammar) (hcoherent : pattern.captures.Coherent)
    (hagrees : pattern.captures.Agrees pattern.root) (word : List Char) :
    grammar.HasWord word ↔ pattern.root.HasWord pattern.captures word := by
  obtain ⟨top, state, rfl, hrun⟩ := succeeds_of_toGrammar hgrammar
  obtain ⟨lexicon, hcontinues⟩ := hrun.continues hcoherent hagrees
    (Lexicon.describes_start pattern.captures) (Lexicon.admits_none _)
  obtain ⟨name, hname, hstands⟩ := hcontinues.done
  cases hname
  -- The start symbol is treated as one more bracket around the whole expression.
  have hunused : lexicon Grammar.startName = none :=
    hcontinues.frame_of_none rfl _ not_generated_startName
  have hbracket : pattern.captures.Agrees (.plain pattern.root) := by
    intro id body hexposes
    cases hexposes with
    | plain hexposes => exact hagrees id body hexposes
  have hstart : Function.update lexicon Grammar.startName (some (.plain pattern.root))
    Grammar.startName = some (.plain pattern.root) := Function.update_self ..
  have hinner := hstands.mono (Lexicon.extends_update hunused (.plain pattern.root))
  have hadded := (hcontinues.describes.toExplains.update hunused hbracket).add hstart
    ⟨top, rfl, hinner⟩
  have hexplains := hadded.settle hstart
    ⟨top, Grammar.produces_add.mpr (.inr ⟨rfl, rfl⟩), hinner⟩
  have hwhole : Lexicon.Stands _ Grammar.startName (.plain pattern.root) := hstart
  refine (hexplains.derives_iff hcoherent hwhole hbracket word).trans ⟨fun hword => ?_, .plain⟩
  cases hword with
  | plain hword => exact hword

end PatternGrammar
