import PatternGrammar.Proofs.Command.Outcome

/-!
# A pattern on the input is a pattern in the arguments

The first line of the input ends at its first line feed, and no other character has the byte of a
line feed in its encoding. The line of a text without line feeds is therefore the text as a whole,
in whatever characters it is written, and what comes after the line is not even looked at. A run
that finds a text on the input leaves behind exactly what a run does that was given the text as an
argument, whether it succeeds, fails or is cut off by a sink.
-/

namespace PatternGrammar.Command

/-- The bytes of a text are those of its characters, one after another. -/
theorem bytesOf_eq_flatMap (text : String) :
    bytesOf text = text.toList.flatMap String.utf8EncodeChar := by
  have hbytes : text.toByteArray = text.toList.utf8Encode := by
    rw [← String.toByteArray_ofList, String.ofList_toList]
  rw [bytesOf, String.toUTF8_eq_toByteArray, hbytes, List.utf8Encode, List.data_toByteArray]

/-- A byte beyond the first 128 is no line feed. -/
theorem ofNat_ne_lineFeed {number : Nat} (hlow : 128 ≤ number) (hhigh : number < 256) :
    (10 : UInt8) ≠ UInt8.ofNat number := by
  intro heq
  have hvalue := congrArg UInt8.toNat heq
  rw [UInt8.toNat_ofNat_of_lt' hhigh] at hvalue
  have hten : (10 : UInt8).toNat = 10 := rfl
  omega

/-- Only a line feed has the byte of a line feed in its encoding. -/
theorem eq_lineFeed_of_mem_utf8EncodeChar {c : Char} (hmem : 10 ∈ String.utf8EncodeChar c) :
    c = '\n' := by
  -- A character of one byte is that byte; all bytes of the others are beyond the first 128.
  unfold String.utf8EncodeChar at hmem
  dsimp only at hmem
  split at hmem
  next hone =>
    have hsmall : c.val.toNat < 256 := by omega
    have hvalue := congrArg UInt8.toNat (List.mem_singleton.mp hmem)
    rw [UInt8.toNat_ofNat_of_lt' hsmall] at hvalue
    exact Char.toNat_inj.mp hvalue.symm
  next =>
    split at hmem
    next =>
      simp only [List.mem_cons, List.not_mem_nil, or_false] at hmem
      rcases hmem with heq | heq <;> exact absurd heq (ofNat_ne_lineFeed (by omega) (by omega))
    next =>
      split at hmem
      next =>
        simp only [List.mem_cons, List.not_mem_nil, or_false] at hmem
        rcases hmem with heq | heq | heq <;>
          exact absurd heq (ofNat_ne_lineFeed (by omega) (by omega))
      next =>
        simp only [List.mem_cons, List.not_mem_nil, or_false] at hmem
        rcases hmem with heq | heq | heq | heq <;>
          exact absurd heq (ofNat_ne_lineFeed (by omega) (by omega))

/-- A text without line feeds has no byte of a line feed. -/
theorem lineFeed_notMem_bytesOf {text : String} (hline : '\n' ∉ text.toList) :
    10 ∉ bytesOf text := by
  rw [bytesOf_eq_flatMap]
  intro hmem
  obtain ⟨c, hc, hbyte⟩ := List.mem_flatMap.mp hmem
  rw [eq_lineFeed_of_mem_utf8EncodeChar hbyte] at hc
  exact hline hc

/-- What may follow a pattern on the input. -/
inductive LineEnd : List UInt8 → Prop where
  /-- A line feed and anything after it. -/
  | lineFeed (rest : List UInt8) : LineEnd (10 :: rest)
  /-- A carriage return, a line feed and anything after them. -/
  | returnLineFeed (rest : List UInt8) : LineEnd (13 :: 10 :: rest)
  /-- Nothing: the input is over. -/
  | inputOver : LineEnd []

/-- A text in front of such an end is the pattern on the input. -/
theorem supplies_append {options : Options} {text : String} {ending : List UInt8}
    (hmissing : options.pattern = none) (hline : '\n' ∉ text.toList)
    (hreturn : text.toList.getLast? ≠ some '\r') (hending : LineEnd ending) :
    Supplies options (bytesOf text ++ ending) text := by
  have hbytes := lineFeed_notMem_bytesOf hline
  cases hending with
  | lineFeed rest => exact .line hmissing (.ended rest hbytes) hreturn
  | returnLineFeed rest =>
    have hreturned : bytesOf (text ++ "\r") = bytesOf text ++ [13] := bytesOf_append text "\r"
    have hfirst : 10 ∉ bytesOf (text ++ "\r") := by
      rw [hreturned, List.mem_append]
      exact not_or_intro hbytes (by decide)
    have hended := FirstLine.ended rest hfirst
    rw [hreturned, List.append_assoc] at hended
    refine .returned hmissing ?_
    rwa [hreturned]
  | inputOver =>
    rw [List.append_nil]
    exact .line hmissing (.unended hbytes) hreturn

/-- A run that finds a text on the first line of the input leaves behind what it leaves behind when
it is given the text as an argument, on any input, for all other options and all bounds. -/
theorem run_input_eq_run_argument (options : Options) (terminal : Bool) {text : String}
    {ending : List UInt8} (hline : '\n' ∉ text.toList) (hreturn : text.toList.getLast? ≠ some '\r')
    (hending : LineEnd ending) (input : List UInt8) (outBound errBound : Option Bound) :
    run { options with pattern := none } terminal (bytesOf text ++ ending) outBound errBound =
      run { options with pattern := some text } terminal input outBound errBound := by
  have hfound : patternText { options with pattern := none } (bytesOf text ++ ending) = .ok text :=
    patternText_eq_ok_iff.mpr (supplies_append rfl hline hreturn hending)
  have hgiven : patternText { options with pattern := some text } input = .ok text := rfl
  rw [run_eq, run_eq, hfound, hgiven]
  rfl

/-- A pattern with a letter of two bytes that cannot be scanned, in front of bytes that are no text,
on sinks which cut off the error; and the same pattern as all of the input. -/
theorem run_input_eq_run_argument_accented :
    run ⟨none, .auto, true, true, true⟩ false (bytesOf "(a)|é" ++ [13, 10, 0xff, 0xc3])
        (some ⟨5, "no space left"⟩) (some ⟨30, "broken pipe"⟩) =
      run ⟨some "(a)|é", .auto, true, true, true⟩ false [0xff]
        (some ⟨5, "no space left"⟩) (some ⟨30, "broken pipe"⟩) ∧
    run ⟨none, .auto, true, true, true⟩ false (bytesOf "(a)|é" ++ [])
        (some ⟨5, "no space left"⟩) (some ⟨30, "broken pipe"⟩) =
      run ⟨some "(a)|é", .auto, true, true, true⟩ false [0xff]
        (some ⟨5, "no space left"⟩) (some ⟨30, "broken pipe"⟩) := by
  have hline : '\n' ∉ "(a)|é".toList := by decide
  have hreturn : "(a)|é".toList.getLast? ≠ some '\r' := by decide
  constructor
  · exact run_input_eq_run_argument ⟨none, .auto, true, true, true⟩ false hline hreturn
      (.returnLineFeed _) ..
  · exact run_input_eq_run_argument ⟨none, .auto, true, true, true⟩ false hline hreturn
      .inputOver ..

end PatternGrammar.Command
