import PatternGrammar.Proofs.Command.Line

/-!
# What a run of the command leaves behind

A run writes line after line and may be stopped inside any of them. Since a sink keeps the first
bytes of whatever it is offered, what is kept in the end does not depend on how the text was cut
into writes: it is the beginning of everything that the run had to say. So every run keeps the law,
and the law leaves it no choice.
-/

namespace PatternGrammar.Command

/-- A text is written to the error sink. -/
theorem writeErr_eq (text : String) (streams : Streams) :
    writeErr text streams = .ok (streams.err.write (bytesOf text)).1
      { streams with err := (streams.err.write (bytesOf text)).2 } := rfl

/-- A text is written to the empty output sink. -/
theorem writeOut_empty (text : String) (bound : Option Bound) (err : Sink) :
    writeOut text ⟨.empty bound, err⟩ =
      .ok (Sink.refusal? bound (bytesOf text)) ⟨.offered bound (bytesOf text), err⟩ := rfl

/-- Lines are written to the error sink as if they were one text, wherever the bound falls. -/
theorem writeErrAll_eq (out : Sink) {bound : Option Bound} {bytes : List UInt8}
    (hwithin : Sink.refusal? bound bytes = none) (lines : List String) :
    writeErrAll lines ⟨out, .offered bound bytes⟩ =
      .ok (Sink.refusal? bound (bytes ++ bytesOf (String.join lines)))
        ⟨out, .offered bound (bytes ++ bytesOf (String.join lines))⟩ := by
  induction lines generalizing bytes with
  | nil =>
    rw [String.join_nil, bytesOf_empty, List.append_nil, hwithin]
    rfl
  | cons line rest ih =>
    have hline := writeErr_eq line ⟨out, .offered bound bytes⟩
    rw [Sink.write_offered_of_within hwithin] at hline
    rw [String.join_cons, bytesOf_append, ← List.append_assoc]
    cases hrefusal : Sink.refusal? bound (bytes ++ bytesOf line) with
    | none =>
      rw [hrefusal] at hline
      rw [← ih hrefusal]
      simp only [writeErrAll, bind, EStateM.bind, hline]
    | some refusal =>
      rw [hrefusal] at hline
      rw [Sink.refusal?_append hrefusal, Sink.offered_append_of_refused hrefusal]
      simp only [writeErrAll, bind, EStateM.bind, hline]
      rfl

/-- The lines that a run writes on the way to a grammar are what it shows of the text. -/
theorem join_lines_eq_shown (options : Options) (text : String) :
    String.join (tokenLines options (.ofText text)) ++
      String.join (treeLines options (.ofText text)) = shown options text := by
  have htree (pattern : Pattern) : String.join (Report.patternLines pattern) = shownTree pattern :=
    String.join_cons
  unfold shown Conversion.ofText tokenLines treeLines
  cases Token.scan text with
  | error error => cases options.showTokens <;> cases options.showTree <;> rfl
  | ok tokens =>
    dsimp only
    cases Pattern.ofTokens tokens with
    | error error => cases options.showTokens <;> cases options.showTree <;> rfl
    | ok pattern =>
      dsimp only
      rw [← htree]
      cases pattern.toGrammar <;> cases options.showTokens <;> cases options.showTree <;> rfl

/-- Lines that follow others are written where the others are kept whole. -/
theorem writeErrAll_append (first second : List String) :
    writeErrAll (first ++ second) = do
      match ← writeErrAll first with
      | none => writeErrAll second
      | some refusal => return some refusal := by
  induction first with
  | nil => simp [writeErrAll]
  | cons text rest ih =>
    simp only [List.cons_append, writeErrAll, ih, bind_assoc]
    refine bind_congr fun refused => ?_
    cases refused <;> simp

/-- On an empty error sink a run keeps as much of what it shows as fits, and knows whether all of it
did. -/
theorem dump_eq (options : Options) (text : String) (out : Sink) (bound : Option Bound) :
    dump options (.ofText text) ⟨out, .empty bound⟩ =
      .ok (Sink.refusal? bound (bytesOf (shown options text)))
        ⟨out, .offered bound (bytesOf (shown options text))⟩ := by
  have hempty : Sink.refusal? bound [] = none :=
    Sink.refusal?_eq_none_iff.mpr fun _ _ => Nat.zero_le _
  have hlines : dump options (.ofText text) =
      writeErrAll (tokenLines options (.ofText text) ++ treeLines options (.ofText text)) :=
    (writeErrAll_append ..).symm
  rw [hlines, Sink.empty_eq_offered, writeErrAll_eq out hempty, List.nil_append, String.join_append,
    join_lines_eq_shown]

/-- A listing is printed in the colour that was asked for. -/
theorem bytesOf_listing (options : Options) (terminal : Bool) (grammar : Grammar) :
    bytesOf (Report.listing ⟨options.color.resolve terminal, options.header⟩ grammar) =
      listed options terminal grammar := by
  unfold listed
  cases options.color <;> cases terminal <;> rfl

section Run

variable (options : Options) (terminal : Bool) (input : List UInt8)
  (outBound errBound : Option Bound)

/-- The attempt ends with the failure of highest rank, after everything that comes before it has
been written. -/
theorem attempt_eq :
    attempt options terminal input ⟨.empty outBound, .empty errBound⟩ =
      match patternText options input with
      | .error failure => .error failure ⟨.empty outBound, .empty errBound⟩
      | .ok text =>
        let shown := bytesOf (shown options text)
        match Grammar.ofText text with
        | .error error => .error (.conversion error) ⟨.empty outBound, .offered errBound shown⟩
        | .ok grammar =>
          let listing := listed options terminal grammar
          match Sink.refusal? errBound shown, Sink.refusal? outBound listing with
          | some refusal, _ =>
            .error (.dumpRefused refusal) ⟨.empty outBound, .offered errBound shown⟩
          | none, some refusal =>
            .error (.listingRefused refusal) ⟨.offered outBound listing, .offered errBound shown⟩
          | none, none => .ok () ⟨.offered outBound listing, .offered errBound shown⟩ := by
  unfold attempt
  cases patternText options input with
  | error failure => rfl
  | ok text =>
    have hdump := dump_eq options text (.empty outBound) errBound
    simp only [MonadExcept.ofExcept, bind, pure, EStateM.bind, EStateM.pure, hdump, Grammar.ofText]
    cases (Conversion.ofText text).result with
    | error error => rfl
    | ok grammar =>
      have hout := writeOut_empty
        (Report.listing ⟨options.color.resolve terminal, options.header⟩ grammar) outBound
        (.offered errBound (bytesOf (shown options text)))
      rw [bytesOf_listing] at hout
      cases Sink.refusal? errBound (bytesOf (shown options text)) with
      | some refusal => rfl
      | none =>
        simp only [EStateM.bind, hout]
        cases Sink.refusal? outBound (listed options terminal grammar) <;> rfl

/-- What a run leaves behind, case by case. -/
theorem run_eq :
    run options terminal input outBound errBound =
      match patternText options input with
      | .error failure => ⟨1, [], Sink.cut errBound (bytesOf (errorLine failure.message))⟩
      | .ok text =>
        let shown := bytesOf (shown options text)
        match Grammar.ofText text with
        | .error error => ⟨1, [], Sink.cut errBound (shown ++ bytesOf (errorLine error.message))⟩
        | .ok grammar =>
          let listing := listed options terminal grammar
          match Sink.refusal? errBound shown, Sink.refusal? outBound listing with
          | some refusal, _ =>
            ⟨1, [], Sink.cut errBound
              (shown ++ bytesOf (errorLine (Failure.dumpRefused refusal).message))⟩
          | none, some refusal =>
            ⟨1, Sink.cut outBound listing, Sink.cut errBound
              (shown ++ bytesOf (errorLine (Failure.listingRefused refusal).message))⟩
          | none, none => ⟨0, Sink.cut outBound listing, Sink.cut errBound shown⟩ := by
  unfold run
  rw [EStateM.run, attempt_eq]
  cases patternText options input with
  | error failure => rfl
  | ok text =>
    dsimp only
    cases Grammar.ofText text with
    | error error =>
      dsimp only
      rw [Sink.write_offered]
      rfl
    | ok grammar =>
      dsimp only
      cases Sink.refusal? errBound (bytesOf (shown options text)) with
      | some refusal =>
        dsimp only
        rw [Sink.write_offered]
        rfl
      | none =>
        cases Sink.refusal? outBound (listed options terminal grammar) with
        | some refusal =>
          dsimp only
          rw [Sink.write_offered]
          rfl
        | none => rfl

/-- The failure of highest rank, if a run fails. -/
def failure? : Option Failure :=
  match patternText options input with
  | .error failure => some failure
  | .ok text =>
    match Grammar.ofText text with
    | .error error => some (.conversion error)
    | .ok grammar =>
      match Sink.refusal? errBound (bytesOf (shown options text)) with
      | some refusal => some (.dumpRefused refusal)
      | none => (Sink.refusal? outBound (listed options terminal grammar)).map .listingRefused

end Run

section Lawful

variable {options : Options} {terminal : Bool} {input : List UInt8}
  {outBound errBound : Option Bound} {bytes : List UInt8} {message text : String}
  {grammar : Grammar}

/-- There is only one thing to show. -/
theorem Shows.unique {first second : List UInt8} (hfirst : Shows options input first)
    (hsecond : Shows options input second) : first = second := by
  cases hfirst with
  | nothing hunread =>
    cases hsecond with
    | nothing => rfl
    | pattern hread => exact absurd hread (hunread _)
  | pattern hread =>
    cases hsecond with
    | nothing hunread => exact absurd hread (hunread _)
    | pattern hother => rw [hread.unique hother]

/-- There is at most one listing to print. -/
theorem Lists.unique {first second : List UInt8}
    (hfirst : Lists options terminal input errBound first)
    (hsecond : Lists options terminal input errBound second) : first = second := by
  obtain ⟨hread, hgrammar, -⟩ := hfirst
  obtain ⟨hother, hsame, -⟩ := hsecond
  cases hread.unique hother
  cases hgrammar.symm.trans hsame
  rfl

/-- A text without a grammar is reported with the part of the conversion that failed. -/
theorem reports_of_ofText {text : String} {error : ConversionError}
    (hread : Supplies options input text) (hfailed : Grammar.ofText text = .error error) :
    Reports options terminal input outBound errBound error.message := by
  unfold Grammar.ofText Conversion.ofText at hfailed
  cases hscan : Token.scan text with
  | error scanError =>
    rw [hscan] at hfailed
    cases hfailed
    exact .scan hread hscan
  | ok tokens =>
    cases hpattern : Pattern.ofTokens tokens with
    | error syntaxError =>
      simp only [hscan, hpattern, Conversion.result] at hfailed
      cases hfailed
      exact .reading hread hscan hpattern
    | ok pattern =>
      cases hgrammar : pattern.toGrammar with
      | error lowerError =>
        simp only [hscan, hpattern, hgrammar, Conversion.result] at hfailed
        cases hfailed
        exact .lowering hread hscan hpattern hgrammar
      | ok grammar =>
        simp only [hscan, hpattern, hgrammar, Conversion.result] at hfailed
        cases hfailed

/-- A text without a grammar fails as its conversion does, whatever the bounds are. -/
theorem failure?_of_ofText_error {error : ConversionError} (hread : Supplies options input text)
    (hresult : Grammar.ofText text = .error error) :
    failure? options terminal input outBound errBound = some (.conversion error) := by
  rw [failure?, patternText_eq_ok_iff.mpr hread]
  simp only [hresult]

/-- What is reported is the failure of highest rank. -/
theorem Reports.exists_failure
    (hreports : Reports options terminal input outBound errBound message) :
    ∃ failure, failure? options terminal input outBound errBound = some failure ∧
      failure.message = message := by
  cases hreports with
  | unread hunread =>
    cases hpattern : patternText options input with
    | error failure =>
      obtain ⟨rfl, -⟩ := unread_of_patternText hpattern
      exact ⟨.unreadableInput, by rw [failure?, hpattern], rfl⟩
    | ok text => exact absurd (patternText_eq_ok_iff.mp hpattern) (hunread text)
  | @scan text error hread hscan =>
    have hresult : Grammar.ofText text = .error (.scan error) := by
      rw [Grammar.ofText, Conversion.ofText, hscan, Conversion.result]
    exact ⟨.conversion (.scan error), failure?_of_ofText_error hread hresult, rfl⟩
  | @reading text tokens error hread hscan hpattern =>
    have hresult : Grammar.ofText text = .error (.reading error) := by
      simp only [Grammar.ofText, Conversion.ofText, hscan, hpattern, Conversion.result]
    exact ⟨.conversion (.reading error), failure?_of_ofText_error hread hresult, rfl⟩
  | @lowering text tokens pattern error hread hscan hpattern hgrammar =>
    have hresult : Grammar.ofText text = .error (.lowering error) := by
      simp only [Grammar.ofText, Conversion.ofText, hscan, hpattern, hgrammar, Conversion.result]
    exact ⟨.conversion (.lowering error), failure?_of_ofText_error hread hresult, rfl⟩
  | @dump text grammar bound hread hresult hbounded hbeyond =>
    have hrefused := Sink.refusal?_eq_some_iff.mpr ⟨bound, hbounded, hbeyond, rfl⟩
    refine ⟨.dumpRefused bound.refusal, ?_, rfl⟩
    rw [failure?, patternText_eq_ok_iff.mpr hread]
    simp only [hresult, hrefused]
  | @listing listing bound hlists hbounded hbeyond =>
    have hrefused := Sink.refusal?_eq_some_iff.mpr ⟨bound, hbounded, hbeyond, rfl⟩
    obtain ⟨hread, hresult, hfits⟩ := hlists
    refine ⟨.listingRefused bound.refusal, ?_, rfl⟩
    rw [failure?, patternText_eq_ok_iff.mpr hread]
    simp only [hresult, Sink.refusal?_eq_none_iff.mpr hfits, hrefused, Option.map_some]

/-- There is only one message to report. -/
theorem Reports.unique {first second : String}
    (hfirst : Reports options terminal input outBound errBound first)
    (hsecond : Reports options terminal input outBound errBound second) : first = second := by
  obtain ⟨failure, hfailure, rfl⟩ := hfirst.exists_failure
  obtain ⟨other, hother, rfl⟩ := hsecond.exists_failure
  cases hfailure.symm.trans hother
  rfl

/-- The law leaves no choice. -/
theorem Outcome.Lawful.unique {first second : Outcome}
    (hfirst : first.Lawful options terminal input outBound errBound)
    (hsecond : second.Lawful options terminal input outBound errBound) : first = second := by
  have hcode : first.code = 0 ↔ second.code = 0 := hfirst.success.trans hsecond.success.symm
  have hout : first.out = second.out := by
    by_cases hlists : ∃ listing, Lists options terminal input errBound listing
    · obtain ⟨listing, hlists⟩ := hlists
      rw [hfirst.out listing hlists, hsecond.out listing hlists]
    · rw [hfirst.silent hlists, hsecond.silent hlists]
  obtain ⟨code, out, err⟩ := first
  obtain ⟨otherCode, otherOut, otherErr⟩ := second
  dsimp only at hcode hout
  subst hout
  rcases hfirst.code with rfl | rfl
  · obtain rfl : otherCode = 0 := hcode.mp rfl
    obtain ⟨bytes, hshows, rfl⟩ := hfirst.shown rfl
    obtain ⟨others, hothers, rfl⟩ := hsecond.shown rfl
    rw [hshows.unique hothers]
  · obtain rfl : otherCode = 1 := hsecond.code.resolve_left fun hzero => nomatch hcode.mpr hzero
    obtain ⟨bytes, message, hshows, hreports, rfl⟩ := hfirst.reported rfl
    obtain ⟨others, same, hothers, hsame, rfl⟩ := hsecond.reported rfl
    rw [hshows.unique hothers, hreports.unique hsame]

/-- A run that does not come to print a listing, and reports why. -/
theorem lawful_of_not_lists (hnone : ∀ listing, ¬Lists options terminal input errBound listing)
    (hshows : Shows options input bytes)
    (hreports : Reports options terminal input outBound errBound message) :
    Outcome.Lawful options terminal input outBound errBound
      ⟨1, [], Sink.cut errBound (bytes ++ bytesOf (errorLine message))⟩ where
  success := ⟨nofun, fun ⟨listing, hlists, _⟩ => absurd hlists (hnone listing)⟩
  code := .inr rfl
  out := fun listing hlists => absurd hlists (hnone listing)
  silent := fun _ => rfl
  shown := nofun
  reported := fun _ => ⟨bytes, message, hshows, hreports, rfl⟩

/-- A run without a pattern. -/
theorem lawful_of_unread (hunread : ∀ text, ¬Supplies options input text) :
    Outcome.Lawful options terminal input outBound errBound
      ⟨1, [], Sink.cut errBound (bytesOf (errorLine Failure.unreadableInput.message))⟩ := by
  refine lawful_of_not_lists ?_ (.nothing hunread) (.unread hunread)
  rintro _ ⟨hread, -⟩
  exact hunread _ hread

/-- A run on a pattern without a grammar. -/
theorem lawful_of_ofText_error {error : ConversionError} (hread : Supplies options input text)
    (hfailed : Grammar.ofText text = .error error) :
    Outcome.Lawful options terminal input outBound errBound ⟨1, [], Sink.cut errBound
      (bytesOf (shown options text) ++ bytesOf (errorLine error.message))⟩ := by
  refine lawful_of_not_lists ?_ (.pattern hread) (reports_of_ofText hread hfailed)
  rintro _ ⟨hother, hresult, -⟩
  cases hread.unique hother
  cases hfailed.symm.trans hresult

/-- A run that shows more than fits. -/
theorem lawful_of_dump_beyond {bound : Bound} (hread : Supplies options input text)
    (hresult : Grammar.ofText text = .ok grammar)
    (hbeyond : bound.size < (bytesOf (shown options text)).length) :
    Outcome.Lawful options terminal input outBound (some bound) ⟨1, [], Sink.cut (some bound)
      (bytesOf (shown options text) ++
        bytesOf (errorLine (Failure.dumpRefused bound.refusal).message))⟩ := by
  refine lawful_of_not_lists ?_ (.pattern hread) (.dump hread hresult rfl hbeyond)
  rintro _ ⟨hother, -, hfits⟩
  cases hread.unique hother
  exact absurd (hfits bound rfl) (Nat.not_le.mpr hbeyond)

/-- A run that comes to print a listing which does not fit. -/
theorem lawful_of_listing_beyond {bound : Bound} (hread : Supplies options input text)
    (hresult : Grammar.ofText text = .ok grammar)
    (hwithin : Fits errBound (bytesOf (shown options text)))
    (hbeyond : bound.size < (listed options terminal grammar).length) :
    Outcome.Lawful options terminal input (some bound) errBound
      ⟨1, Sink.cut (some bound) (listed options terminal grammar), Sink.cut errBound
        (bytesOf (shown options text) ++
          bytesOf (errorLine (Failure.listingRefused bound.refusal).message))⟩ := by
  have hlists : Lists options terminal input errBound (listed options terminal grammar) :=
    .listing hread hresult hwithin
  constructor
  case success =>
    refine ⟨nofun, ?_⟩
    rintro ⟨other, hother, hfits⟩
    rw [hother.unique hlists] at hfits
    exact absurd (hfits bound rfl) (Nat.not_le.mpr hbeyond)
  case code => exact .inr rfl
  case out =>
    intro other hother
    rw [hother.unique hlists]
  case silent => exact fun hnone => absurd ⟨_, hlists⟩ hnone
  case shown => exact nofun
  case reported => exact fun _ => ⟨_, _, .pattern hread, .listing hlists rfl hbeyond, rfl⟩

/-- A run that prints the whole listing. -/
theorem lawful_of_fits (hread : Supplies options input text)
    (hresult : Grammar.ofText text = .ok grammar)
    (hwithin : Fits errBound (bytesOf (shown options text)))
    (hfits : Fits outBound (listed options terminal grammar)) :
    Outcome.Lawful options terminal input outBound errBound
      ⟨0, Sink.cut outBound (listed options terminal grammar),
        Sink.cut errBound (bytesOf (shown options text))⟩ := by
  have hlists : Lists options terminal input errBound (listed options terminal grammar) :=
    .listing hread hresult hwithin
  constructor
  case success => exact ⟨fun _ => ⟨_, hlists, hfits⟩, fun _ => rfl⟩
  case code => exact .inl rfl
  case out =>
    intro other hother
    rw [hother.unique hlists]
  case silent => exact fun hnone => absurd ⟨_, hlists⟩ hnone
  case shown => exact fun _ => ⟨_, .pattern hread, rfl⟩
  case reported => exact nofun

end Lawful

/-- Every run keeps the law. -/
theorem lawful_of_run (options : Options) (terminal : Bool) (input : List UInt8)
    (outBound errBound : Option Bound) :
    (run options terminal input outBound errBound).Lawful options terminal input outBound
      errBound := by
  rw [run_eq]
  cases hpattern : patternText options input with
  | error failure =>
    obtain ⟨rfl, hunread⟩ := unread_of_patternText hpattern
    exact lawful_of_unread hunread
  | ok text =>
    have hread := patternText_eq_ok_iff.mp hpattern
    dsimp only
    cases hresult : Grammar.ofText text with
    | error error => exact lawful_of_ofText_error hread hresult
    | ok grammar =>
      dsimp only
      cases hdump : Sink.refusal? errBound (bytesOf (shown options text)) with
      | some refusal =>
        obtain ⟨bound, rfl, hbeyond, rfl⟩ := Sink.refusal?_eq_some_iff.mp hdump
        exact lawful_of_dump_beyond hread hresult hbeyond
      | none =>
        have hwithin := Sink.refusal?_eq_none_iff.mp hdump
        cases hlisting : Sink.refusal? outBound (listed options terminal grammar) with
        | some refusal =>
          obtain ⟨bound, rfl, hbeyond, rfl⟩ := Sink.refusal?_eq_some_iff.mp hlisting
          exact lawful_of_listing_beyond hread hresult hwithin hbeyond
        | none => exact lawful_of_fits hread hresult hwithin (Sink.refusal?_eq_none_iff.mp hlisting)

/-- The law tells all there is to tell of a run, for all options, inputs and bounds: the run keeps
it, and nothing but what the run leaves behind does. -/
theorem lawful_iff_eq_run (options : Options) (terminal : Bool) (input : List UInt8)
    (outBound errBound : Option Bound) (outcome : Outcome) :
    outcome.Lawful options terminal input outBound errBound ↔
      outcome = run options terminal input outBound errBound := by
  have hrun := lawful_of_run options terminal input outBound errBound
  constructor
  · exact fun hlawful => hlawful.unique hrun
  · rintro rfl
    exact hrun

/-- Runs that fail, in the order of rank: an input that is no text; a character that cannot be
scanned; a star without an operand, after the tokens; a reference to no group; a tree with a capture
group of which only the beginning fits; and a listing in colour of which only the beginning fits. -/
theorem lawful_iff_eq_run_failing :
    run ⟨none, .auto, true, true, true⟩ true [97, 0xff, 10, 97] none none = ⟨1, [], bytesOf
      "error: failed to read pattern from stdin: stream did not contain valid UTF-8\n"⟩ ∧
    run ⟨none, .never, false, true, true⟩ false (bytesOf "é\r\na") none none = ⟨1, [], bytesOf
      "error: tokenization failed: unexpected character 'é' at offset 0\n"⟩ ∧
    run ⟨some "*|", .never, false, true, true⟩ false [] none (some ⟨150, "broken pipe"⟩) =
      ⟨1, [], bytesOf ("Token \x7b kind: Star, payload: None, offset: 0 \x7d\n" ++
        "Token \x7b kind: Or, payload: None, offset: 1 \x7d\n" ++
        "error: syntax error: expected an atom, found '*' at offset")⟩ ∧
    run ⟨some "(?1)", .never, false, false, false⟩ false [] (some ⟨0, "no space left"⟩) none =
      ⟨1, [], bytesOf "error: compilation failed: capture group 1 is not defined\n"⟩ ∧
    run ⟨some "(a)", .never, false, false, true⟩ false [] none (some ⟨62, "broken pipe"⟩) =
      ⟨1, [], bytesOf
        "Capture(\n    1,\n    Char(\n        'a',\n    ),\n)\ngroup 1: Char("⟩ ∧
    run ⟨none, .auto, false, false, false⟩ true (bytesOf "(a)\n") (some ⟨9, "no space left"⟩) none =
      ⟨1, bytesOf "\x1b[01;31mC", bytesOf "error: failed to write grammar: no space left\n"⟩ := by
  have hbytes : patternText ⟨none, .auto, true, true, true⟩ [97, 0xff, 10, 97] =
    .error .unreadableInput := rfl
  have haccented : FirstLine (bytesOf "é\r\na") (bytesOf ("é" ++ "\r")) :=
    show FirstLine (bytesOf "é\r" ++ 10 :: [97]) (bytesOf "é\r") from .ended [97] (by decide)
  have hline : FirstLine (bytesOf "(a)\n") (bytesOf "(a)") :=
    show FirstLine (bytesOf "(a)" ++ 10 :: []) (bytesOf "(a)") from .ended [] (by decide)
  have hscan : Grammar.ofText "é" = .error (.scan (.unexpectedChar 'é' 0)) := rfl
  have hreading : Grammar.ofText "*|" = .error (.reading (.unexpectedToken .atom .star 0)) := rfl
  have hlowering : Grammar.ofText "(?1)" = .error (.lowering (.undefinedGroup 1)) := rfl
  have hgrammar : Grammar.ofText "(a)" = .ok (.ofList
    [("CHAR0", [.terminal 'a']), ("Group1", [.nonterminal "CHAR0"]),
      ("S", [.nonterminal "Group1"])]) := rfl
  refine ⟨?unread, ?scan, ?reading, ?lowering, ?dump, ?listing⟩
  case unread =>
    refine Eq.trans (Eq.symm ((lawful_iff_eq_run ..).mp
      (lawful_of_unread (unread_of_patternText hbytes).2))) ?_
    decide +kernel
  case scan =>
    refine Eq.trans (Eq.symm ((lawful_iff_eq_run ..).mp
      (lawful_of_ofText_error (.returned rfl haccented) hscan))) ?_
    decide +kernel
  case reading =>
    refine Eq.trans (Eq.symm ((lawful_iff_eq_run ..).mp
      (lawful_of_ofText_error (.argument rfl) hreading))) ?_
    decide +kernel
  case lowering =>
    refine Eq.trans (Eq.symm ((lawful_iff_eq_run ..).mp
      (lawful_of_ofText_error (.argument rfl) hlowering))) ?_
    decide +kernel
  case dump =>
    refine Eq.trans (Eq.symm ((lawful_iff_eq_run ..).mp
      (lawful_of_dump_beyond (.argument rfl) hgrammar (by decide +kernel)))) ?_
    decide +kernel
  case listing =>
    refine Eq.trans (Eq.symm ((lawful_iff_eq_run ..).mp (lawful_of_listing_beyond
      (.line rfl hline (by decide)) hgrammar nofun (by decide +kernel)))) ?_
    decide +kernel

end PatternGrammar.Command
