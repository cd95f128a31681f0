import Mathlib.Data.List.Induction
import PatternGrammar.Command.Options

/-!
# What a list of arguments asks for

Arguments are told apart by their texts alone, except that a second pattern is one too many. The
first argument that asks for help, is a foreign option or is a second pattern settles the matter,
and what comes after it has no say. A list without such an argument is quiet. Of a quiet list
everything is collected: its pattern, its last choice of colour and the options that occur in it, so
that its order matters only among the choices of colour.
-/

namespace PatternGrammar.Command

/-- The argument asks for help. -/
def AsksHelp (text : String) : Prop :=
  text = "-h" ∨ text = "--help"

/-- The choice of colour that an argument makes. -/
def coloring? (text : String) : Option Coloring :=
  if text = "--color=always" then some .always
  else if text = "--color=never" then some .never
  else if text = "--color=auto" then some .auto
  else none

/-- The options that set something. -/
def settings : List String :=
  ["--color=always", "--color=never", "--color=auto", "--header", "--tokens", "--ast"]

/-- The argument has the form of an option, a dash and at least one more byte, and is none. -/
def Foreign (text : String) : Prop :=
  ¬AsksHelp text ∧ text ∉ settings ∧ text.toList.head? = some '-' ∧ 1 < text.utf8ByteSize

/-- The argument is no option and does not have the form of one. -/
def Positional (text : String) : Prop :=
  ¬AsksHelp text ∧ text ∉ settings ∧ ¬Foreign text

instance : DecidablePred AsksHelp :=
  fun text => inferInstanceAs (Decidable (text = "-h" ∨ text = "--help"))

instance : DecidablePred Foreign := fun text =>
  inferInstanceAs (Decidable (¬AsksHelp text ∧ text ∉ settings ∧ _ ∧ _))

instance : DecidablePred Positional := fun text =>
  inferInstanceAs (Decidable (¬AsksHelp text ∧ text ∉ settings ∧ ¬Foreign text))

/-- The argument at the index settles the matter: it asks for help, is foreign, or is positional
with another positional argument before it. -/
def Settles (arguments : List String) (index : Nat) : Prop :=
  ∃ text ∈ arguments[index]?, AsksHelp text ∨ Foreign text ∨
    Positional text ∧ ∃ earlier ∈ arguments.take index, Positional earlier

instance : DecidableRel Settles := fun arguments index =>
  inferInstanceAs
    (Decidable (∃ text ∈ arguments[index]?, _ ∨ _ ∨ _ ∧ ∃ earlier ∈ arguments.take index, _))

/-- The answer to an argument that settles the matter. -/
def verdict (text : String) : Except UsageError Request :=
  if AsksHelp text then .ok .help
  else if Foreign text then .error (.unknownOption text)
  else .error (.extraArgument text)

/-- What is said of an argument that settles the matter without asking for help. It is named. -/
def complaint (text : String) : String :=
  if Foreign text then "unknown option '" ++ text ++ "'"
  else "unexpected extra argument '" ++ text ++ "'"

/-- What a list of arguments sets: its first positional argument is the pattern, its last choice of
colour holds, and every option that occurs is set. -/
def collected (arguments : List String) : Options where
  pattern := (arguments.filter Positional).head?
  color := (arguments.filterMap coloring?).getLast?.getD .never
  header := "--header" ∈ arguments
  showTokens := "--tokens" ∈ arguments
  showTree := "--ast" ∈ arguments

/-- Nothing in the list settles the matter. -/
structure Quiet (arguments : List String) : Prop where
  /-- Nobody asks for help. -/
  noHelp : ∀ text ∈ arguments, ¬AsksHelp text
  /-- All options are known. -/
  noForeign : ∀ text ∈ arguments, ¬Foreign text
  /-- There is at most one pattern. -/
  onePattern : (arguments.filter Positional).length ≤ 1

section OneArgument

variable {text : String}

/-- A text that begins with a dash is longer than one byte exactly if something follows the dash. -/
theorem one_lt_utf8ByteSize_iff {rest : List Char} (htext : text.toList = '-' :: rest) :
    1 < text.utf8ByteSize ↔ rest ≠ [] := by
  have hsize : text.utf8ByteSize = 1 + (String.ofList rest).utf8ByteSize := by
    rw [← String.ofList_toList (s := text), htext, String.ofList_cons, String.utf8ByteSize_append]
    rfl
  have hempty : (String.ofList rest).utf8ByteSize = 0 ↔ rest = [] := by
    rw [String.utf8ByteSize_eq_zero_iff, String.ofList_eq_empty_iff]
  rw [hsize, Ne, ← hempty]
  omega

/-- An argument that is no option is foreign if it has the form of one. -/
theorem foreign_iff (hhelp : ¬AsksHelp text) (hsetting : text ∉ settings) :
    Foreign text ↔ ∃ second rest, text.toList = '-' :: second :: rest := by
  constructor
  · rintro ⟨-, -, hdash, hlong⟩
    obtain ⟨rest, htext⟩ := List.head?_eq_some_iff.mp hdash
    cases rest with
    | nil => exact absurd rfl ((one_lt_utf8ByteSize_iff htext).mp hlong)
    | cons second rest => exact ⟨second, rest, htext⟩
  · rintro ⟨second, rest, htext⟩
    refine ⟨hhelp, hsetting, by rw [htext, List.head?_cons], ?_⟩
    exact (one_lt_utf8ByteSize_iff htext).mpr (List.cons_ne_nil second rest)

/-- An argument that is no option is foreign or a pattern. -/
theorem ofText_of_notMem (hhelp : ¬AsksHelp text) (hsetting : text ∉ settings) :
    Argument.ofText text = if Foreign text then .unknown text else .pattern text := by
  unfold Argument.ofText
  split
  case h_1 | h_2 => exact absurd (by simp [AsksHelp]) hhelp
  case h_3 | h_4 | h_5 | h_6 | h_7 | h_8 => exact absurd (by simp [settings]) hsetting
  case h_9 =>
    split
    next second rest htext => rw [if_pos ((foreign_iff hhelp hsetting).mpr ⟨second, rest, htext⟩)]
    next hform =>
      rw [if_neg]
      intro hforeign
      obtain ⟨second, rest, htext⟩ := (foreign_iff hhelp hsetting).mp hforeign
      exact hform second rest htext

/-- An argument that settles the matter is answered at once, whatever comes after it. -/
theorem follow_settled {options : Options}
    (hsettled : AsksHelp text ∨ Foreign text ∨ Positional text ∧ options.pattern.isSome = true)
    (rest : List Argument) :
    Request.follow options (Argument.ofText text :: rest) = verdict text := by
  rcases hsettled with hhelp | hforeign | ⟨⟨hhelp, hsetting, hforeign⟩, hsecond⟩
  · rw [verdict, if_pos hhelp]
    rcases hhelp with rfl | rfl <;> rfl
  · rw [ofText_of_notMem hforeign.1 hforeign.2.1, if_pos hforeign, verdict, if_neg hforeign.1,
      if_pos hforeign]
    rfl
  · rw [ofText_of_notMem hhelp hsetting, if_neg hforeign, verdict, if_neg hhelp, if_neg hforeign]
    rw [Request.follow, if_pos hsecond]

/-- A usage error names the argument that settles the matter. -/
theorem message_of_verdict {error : UsageError} (hverdict : verdict text = .error error) :
    error.message = complaint text := by
  unfold verdict at hverdict
  by_cases hhelp : AsksHelp text
  · rw [if_pos hhelp] at hverdict
    cases hverdict
  · rw [if_neg hhelp] at hverdict
    by_cases hforeign : Foreign text
    · rw [if_pos hforeign] at hverdict
      rw [complaint, if_pos hforeign, ← Except.error.inj hverdict]
      rfl
    · rw [if_neg hforeign] at hverdict
      rw [complaint, if_neg hforeign, ← Except.error.inj hverdict]
      rfl

/-- What is set after one more argument. -/
def Options.updated (options : Options) (text : String) : Options where
  pattern := options.pattern.or (if Positional text then some text else none)
  color := (coloring? text).getD options.color
  header := options.header || text = "--header"
  showTokens := options.showTokens || text = "--tokens"
  showTree := options.showTree || text = "--ast"

/-- An argument that does not settle the matter is followed by the others with what it sets. -/
theorem follow_updated (hhelp : ¬AsksHelp text) (hforeign : ¬Foreign text) {options : Options}
    (hfirst : Positional text → options.pattern = none) (rest : List Argument) :
    Request.follow options (Argument.ofText text :: rest) =
      Request.follow (options.updated text) rest := by
  by_cases hsetting : text ∈ settings
  · have hnamed : ¬Positional text := fun hpositional => hpositional.2.1 hsetting
    simp only [settings, List.mem_cons, List.not_mem_nil, or_false] at hsetting
    rcases hsetting with rfl | rfl | rfl | rfl | rfl | rfl
    all_goals simp [Request.follow, Argument.ofText, Options.updated, coloring?, hnamed]
  · have hpositional : Positional text := ⟨hhelp, hsetting, hforeign⟩
    rw [ofText_of_notMem hhelp hsetting, if_neg hforeign]
    simp only [settings, List.mem_cons, List.not_mem_nil, or_false, not_or] at hsetting
    simp [Request.follow, Options.updated, coloring?, hfirst hpositional, hpositional, hsetting]

end OneArgument

section Lists

variable {arguments : List String} {text : String}

/-- What is collected with one more argument. -/
theorem collected_concat (arguments : List String) (text : String) :
    collected (arguments ++ [text]) = (collected arguments).updated text := by
  have hpattern : ((arguments ++ [text]).filter Positional).head? =
      (arguments.filter Positional).head?.or (if Positional text then some text else none) := by
    rw [List.filter_append, List.head?_append]
    by_cases hpositional : Positional text <;> simp [hpositional]
  have hcolor : ((arguments ++ [text]).filterMap coloring?).getLast?.getD .never =
      (coloring? text).getD ((arguments.filterMap coloring?).getLast?.getD .never) := by
    rw [List.filterMap_append, List.getLast?_append]
    cases hchoice : coloring? text <;> simp [hchoice]
  have hoccurs (option : String) : decide (option ∈ arguments ++ [text]) =
      (decide (option ∈ arguments) || decide (text = option)) := by
    simp only [List.mem_append, List.mem_singleton, Bool.decide_or, @eq_comm _ option text]
  rw [collected, hpattern, hcolor, hoccurs, hoccurs, hoccurs]
  rfl

/-- A quiet list stays quiet with one more argument that does not settle the matter. -/
theorem Quiet.concat (hquiet : Quiet arguments) (hhelp : ¬AsksHelp text) (hforeign : ¬Foreign text)
    (hfirst : Positional text → ∀ earlier ∈ arguments, ¬Positional earlier) :
    Quiet (arguments ++ [text]) where
  noHelp := by
    rw [List.forall_mem_append, List.forall_mem_singleton]
    exact ⟨hquiet.noHelp, hhelp⟩
  noForeign := by
    rw [List.forall_mem_append, List.forall_mem_singleton]
    exact ⟨hquiet.noForeign, hforeign⟩
  onePattern := by
    rw [List.filter_append, List.length_append]
    by_cases hpositional : Positional text
    · have hnone : arguments.filter Positional = [] := by
        simpa [List.filter_eq_nil_iff] using hfirst hpositional
      simp [hnone, hpositional]
    · simpa [hpositional] using hquiet.onePattern

/-- A list with one more argument is quiet only if the others are and the argument does not settle
the matter. -/
theorem Quiet.of_concat (hquiet : Quiet (arguments ++ [text])) :
    Quiet arguments ∧ ¬AsksHelp text ∧ ¬Foreign text ∧
      (Positional text → (collected arguments).pattern = none) := by
  have hpatterns := hquiet.onePattern
  rw [List.filter_append, List.length_append] at hpatterns
  refine ⟨⟨fun other hmem => ?help, fun other hmem => ?foreign, by omega⟩,
    hquiet.noHelp text (by simp), hquiet.noForeign text (by simp), fun hpositional => ?first⟩
  case help => exact hquiet.noHelp other (List.mem_append_left _ hmem)
  case foreign => exact hquiet.noForeign other (List.mem_append_left _ hmem)
  case first =>
    have hnone : arguments.filter Positional = [] := by
      rw [← List.length_eq_zero_iff]
      simp only [hpositional, decide_true, List.filter_cons_of_pos, List.filter_nil,
        List.length_singleton] at hpatterns
      omega
    rw [collected, hnone, List.head?_nil]

/-- A quiet list is followed by whatever comes after it with what it sets. -/
theorem Quiet.follow_append (hquiet : Quiet arguments) (rest : List Argument) :
    Request.follow .default (arguments.map Argument.ofText ++ rest) =
      Request.follow (collected arguments) rest := by
  induction arguments using List.reverseRecOn generalizing rest with
  | nil => rfl
  | append_singleton arguments text ih =>
    obtain ⟨hearlier, hhelp, hforeign, hfirst⟩ := hquiet.of_concat
    rw [List.map_append, List.append_assoc, ih hearlier, collected_concat]
    exact follow_updated hhelp hforeign hfirst rest

/-- The arguments before the first one that settles the matter are quiet. -/
theorem quiet_take {count : Nat} (hearlier : ∀ index < count, ¬Settles arguments index) :
    Quiet (arguments.take count) := by
  induction count with
  | zero => exact ⟨nofun, nofun, Nat.zero_le 1⟩
  | succ count ih =>
    have hquiet := ih fun index hlt => hearlier index (Nat.lt_succ_of_lt hlt)
    rw [List.take_add_one]
    cases hfound : arguments[count]? with
    | none =>
      rw [Option.toList_none, List.append_nil]
      exact hquiet
    | some text =>
      have hsettles := hearlier count (Nat.lt_succ_self count)
      refine hquiet.concat (fun hhelp => hsettles ⟨text, hfound, .inl hhelp⟩)
        (fun hforeign => hsettles ⟨text, hfound, .inr (.inl hforeign)⟩) ?_
      intro hpositional earlier hmem hother
      exact hsettles ⟨text, hfound, .inr (.inr ⟨hpositional, earlier, hmem, hother⟩)⟩

/-- Nothing but what is collected comes of a quiet list. -/
theorem Quiet.ofArguments_eq (hquiet : Quiet arguments) :
    Request.ofArguments arguments = .ok (.convert (collected arguments)) := by
  have hfollow := hquiet.follow_append []
  rwa [List.append_nil] at hfollow

/-- The pattern of a quiet list is its only positional argument. -/
theorem Quiet.filter_positional (hquiet : Quiet arguments) :
    arguments.filter Positional = (collected arguments).pattern.toList := by
  have hone := hquiet.onePattern
  unfold collected
  dsimp only
  cases hpatterns : arguments.filter Positional with
  | nil => rfl
  | cons first others =>
    rw [hpatterns, List.length_cons] at hone
    rw [List.length_eq_zero_iff.mp (by omega : others.length = 0)]
    rfl

/-- A reordered list is as quiet as before. -/
theorem Quiet.perm {reordered : List String} (hquiet : Quiet arguments)
    (hperm : reordered.Perm arguments) : Quiet reordered where
  noHelp := fun text hmem => hquiet.noHelp text (hperm.mem_iff.mp hmem)
  noForeign := fun text hmem => hquiet.noForeign text (hperm.mem_iff.mp hmem)
  onePattern := by
    rw [(hperm.filter Positional).length_eq]
    exact hquiet.onePattern

/-- The choices of colour are those of the arguments that make one. -/
theorem filterMap_coloring? (arguments : List String) :
    arguments.filterMap coloring? =
      (arguments.filter fun text => (coloring? text).isSome).filterMap coloring? := by
  rw [List.filterMap_filter]
  congr 1
  funext text
  cases coloring? text <;> rfl

/-- A quiet list sets the same in any order that keeps the choices of colour in theirs. -/
theorem Quiet.collected_perm {reordered : List String} (hquiet : Quiet arguments)
    (hperm : reordered.Perm arguments)
    (hcolors : (reordered.filter fun text => (coloring? text).isSome) =
      arguments.filter fun text => (coloring? text).isSome) :
    collected reordered = collected arguments := by
  have hpattern : reordered.filter Positional = arguments.filter Positional := by
    have hpatterns := hperm.filter Positional
    rw [hquiet.filter_positional] at hpatterns ⊢
    cases hone : (collected arguments).pattern with
    | none =>
      rw [hone] at hpatterns
      exact hpatterns.eq_nil
    | some pattern =>
      rw [hone] at hpatterns
      exact hpatterns.eq_singleton
  unfold collected
  rw [hpattern, filterMap_coloring? reordered, hcolors, ← filterMap_coloring?]
  simp only [hperm.mem_iff]

/-- The first argument that settles the matter gives the answer, whatever comes after it. -/
theorem ofArguments_of_settles {index : Nat} (hfound : arguments[index]? = some text)
    (hsettles : Settles arguments index) (hearlier : ∀ earlier < index, ¬Settles arguments earlier)
    (rest : List String) :
    Request.ofArguments (arguments.take (index + 1) ++ rest) = verdict text := by
  obtain ⟨settling, hsettling, hcause⟩ := hsettles
  have hsame : settling = text := Option.some.inj (hsettling.symm.trans hfound)
  subst hsame
  have hquiet := quiet_take hearlier
  rw [List.take_add_one, hfound, Option.toList_some, List.append_assoc, List.singleton_append]
  rw [Request.ofArguments, List.map_append, List.map_cons, hquiet.follow_append]
  refine follow_settled (hcause.imp_right fun hcause => hcause.imp_right ?_) _
  rintro ⟨hpositional, earlier, hmem, hother⟩
  refine ⟨hpositional, ?_⟩
  rw [collected, List.isSome_head?]
  simpa [List.filter_eq_nil_iff] using ⟨earlier, hmem, hother⟩

end Lists

/-- Where no argument settles the matter, the arguments ask for what is collected of them: the only
positional argument, the last choice of colour and the options that occur, in every order that keeps
the choices of colour in theirs. Otherwise the first argument that settles it gives the answer, and
those after it may be any; a usage error names that argument. -/
theorem ofArguments_collects_or_settles (arguments : List String) :
    ((∀ index, ¬Settles arguments index) →
      arguments.filter Positional = (collected arguments).pattern.toList ∧
      Request.ofArguments arguments = .ok (.convert (collected arguments)) ∧
      ∀ reordered : List String, reordered.Perm arguments →
        (reordered.filter fun text => (coloring? text).isSome) =
          (arguments.filter fun text => (coloring? text).isSome) →
        Request.ofArguments reordered = Request.ofArguments arguments) ∧
    ∀ index text, arguments[index]? = some text → Settles arguments index →
      (∀ earlier < index, ¬Settles arguments earlier) →
      (∀ rest, Request.ofArguments (arguments.take (index + 1) ++ rest) = verdict text) ∧
        ∀ error, verdict text = .error error → error.message = complaint text := by
  refine ⟨fun hunsettled => ?collects, fun index text hfound hsettles hearlier => ?settles⟩
  case collects =>
    have hquiet : Quiet arguments := by
      rw [← arguments.take_length]
      exact quiet_take fun index _ => hunsettled index
    refine ⟨hquiet.filter_positional, hquiet.ofArguments_eq, fun reordered hperm hcolors => ?_⟩
    rw [hquiet.ofArguments_eq, (hquiet.perm hperm).ofArguments_eq,
      hquiet.collected_perm hperm hcolors]
  case settles =>
    exact ⟨ofArguments_of_settles hfound hsettles hearlier, fun _ => message_of_verdict⟩

/-- A dash as the pattern and two choices of colour in two orders; the empty text as the first of
two patterns, with a call for help after the second. -/
theorem ofArguments_collects_or_settles_dash :
    Request.ofArguments ["--header", "--color=always", "--color=auto", "-"] =
        Request.ofArguments ["--color=always", "-", "--header", "--color=auto"] ∧
      Request.ofArguments ["--color=always", "-", "--header", "--color=auto"] =
        .ok (.convert ⟨some "-", .auto, true, false, false⟩) ∧
      Request.ofArguments ["", "--tokens", "a", "-h"] = .error (.extraArgument "a") ∧
      (UsageError.extraArgument "a").message = "unexpected extra argument 'a'" := by
  have hunsettled :
      ∀ index, ¬Settles ["--color=always", "-", "--header", "--color=auto"] index := by
    intro index
    by_cases hindex : index < 4
    · have hfour :
          ∀ index < 4, ¬Settles ["--color=always", "-", "--header", "--color=auto"] index := by
        decide
      exact hfour index hindex
    · rintro ⟨text, hfound, -⟩
      rw [List.getElem?_eq_none (by simpa using hindex)] at hfound
      cases hfound
  obtain ⟨-, hcollected, hreordered⟩ := (ofArguments_collects_or_settles _).1 hunsettled
  obtain ⟨hanswer, hmessage⟩ :=
    (ofArguments_collects_or_settles ["", "--tokens", "a", "-h"]).2 2 "a" rfl
      (by decide) (by decide)
  refine ⟨hreordered _ (by decide) (by decide), hcollected, hanswer ["-h"], ?_⟩
  exact hmessage (.extraArgument "a") rfl

end PatternGrammar.Command
