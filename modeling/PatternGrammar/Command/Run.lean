import PatternGrammar.Command.Options
import PatternGrammar.Command.Sink
import PatternGrammar.Conversion
import PatternGrammar.Report.Dump
import PatternGrammar.Report.Listing

/-!
# A run of the command

One run takes a pattern from the arguments or from the first line of the input, shows on the error
sink what was asked for on the way, and writes the listing of the grammar to the output sink. A dump
that cannot be written stops further dumps but not the conversion, so an error of the conversion is
reported before one of the dump; the listing is written only if both went well. The error itself is
the last line of the error sink, as far as it fits.
-/

namespace PatternGrammar.Command

/-- Why a run fails. -/
inductive Failure where
  /-- The first line of the input is not UTF-8. -/
  | unreadableInput
  /-- The pattern has no grammar. -/
  | conversion (error : ConversionError)
  /-- Tokens or tree could not be written, for the reason that the sink gave. -/
  | dumpRefused (refusal : String)
  /-- The listing could not be written, for the reason that the sink gave. -/
  | listingRefused (refusal : String)
  deriving DecidableEq

/-- The message of a failure. -/
def Failure.message : Failure → String
  | .unreadableInput =>
    "failed to read pattern from stdin: stream did not contain valid UTF-8"
  | .conversion error => error.message
  | .dumpRefused refusal => "failed to write debug output: " ++ refusal
  | .listingRefused refusal => "failed to write grammar: " ++ refusal

/-- The line that reports an error. -/
def errorLine (message : String) : String :=
  "error: " ++ message ++ "\n"

/-- The text without a carriage return at its end. -/
def dropReturn (text : String) : String :=
  if text.toList.getLast? = some '\r' then String.ofList text.toList.dropLast else text

/-- The pattern on the first line of the input, without the end of the line. Bytes after the first
line feed are not looked at. -/
def firstLine? (input : List UInt8) : Option String :=
  (textOf? (input.takeWhile (· ≠ 10))).map dropReturn

/-- The sinks of a run. -/
structure Streams where
  /-- Where the listing goes. -/
  out : Sink
  /-- Where dumps and the error go. -/
  err : Sink

/-- What a run leaves behind. -/
structure Outcome where
  /-- Exit code. -/
  code : Nat
  /-- What the output sink kept. -/
  out : List UInt8
  /-- What the error sink kept. -/
  err : List UInt8
  deriving DecidableEq

/-- A computation that writes to the sinks of a run. A failure keeps what was written. -/
abbrev RunM := EStateM Failure Streams

/-- Write a text to the output sink. The answer is its refusal if it was not kept whole. -/
def writeOut (text : String) : RunM (Option String) :=
  modifyGet fun streams =>
    let (refusal, out) := streams.out.write (bytesOf text)
    (refusal, { streams with out := out })

/-- Write a text to the error sink. The answer is its refusal if it was not kept whole. -/
def writeErr (text : String) : RunM (Option String) :=
  modifyGet fun streams =>
    let (refusal, err) := streams.err.write (bytesOf text)
    (refusal, { streams with err := err })

/-- Write texts to the error sink one after another, up to the first that is refused. The answer is
the refusal of that one. -/
def writeErrAll : List String → RunM (Option String)
  | [] => return none
  | text :: rest => do
    match ← writeErr text with
    | none => writeErrAll rest
    | some refusal => return some refusal

/-- The lines that show the tokens, none where they are not asked for or not there. -/
def tokenLines (options : Options) (conversion : Conversion) : List String :=
  match options.showTokens, conversion.tokens? with
  | true, some tokens => Report.tokenLines tokens
  | _, _ => []

/-- The lines that show the tree and the capture groups, none where they are not asked for or not
there. -/
def treeLines (options : Options) (conversion : Conversion) : List String :=
  match options.showTree, conversion.pattern? with
  | true, some pattern => Report.patternLines pattern
  | _, _ => []

/-- Show what was asked for. The answer is the refusal of what was not kept whole. -/
def dump (options : Options) (conversion : Conversion) : RunM (Option String) := do
  match ← writeErrAll (tokenLines options conversion) with
  | none => writeErrAll (treeLines options conversion)
  | some refusal => return some refusal

/-- The pattern to convert: the argument, or the first line of the input. -/
def patternText (options : Options) (input : List UInt8) : Except Failure String :=
  match options.pattern with
  | some text => .ok text
  | none =>
    match firstLine? input with
    | some text => .ok text
    | none => .error .unreadableInput

/-- Everything a run does short of reporting its failure. A refused dump is remembered until the
conversion has come to its end. -/
def attempt (options : Options) (terminal : Bool) (input : List UInt8) : RunM Unit := do
  let text ← MonadExcept.ofExcept (patternText options input)
  let conversion := Conversion.ofText text
  let dumped ← dump options conversion
  match conversion.result with
  | .error error => throw (.conversion error)
  | .ok grammar =>
    match dumped with
    | some refusal => throw (.dumpRefused refusal)
    | none =>
      let style : Report.Style := ⟨options.color.resolve terminal, options.header⟩
      match ← writeOut (Report.listing style grammar) with
      | some refusal => throw (.listingRefused refusal)
      | none => return ()

/-- One run, on sinks with the given bounds. -/
def run (options : Options) (terminal : Bool) (input : List UInt8)
    (outBound errBound : Option Bound) : Outcome :=
  match (attempt options terminal input).run ⟨.empty outBound, .empty errBound⟩ with
  | .ok _ streams => ⟨0, streams.out.kept, streams.err.kept⟩
  | .error failure streams =>
    let (_, err) := streams.err.write (bytesOf (errorLine failure.message))
    ⟨1, streams.out.kept, err.kept⟩

/-- The command as a whole, on unbounded sinks: help goes to the output, a usage error and the usage
after it to the error sink with exit code two. -/
def execute (arguments : List String) (terminal : Bool) (input : List UInt8) : Outcome :=
  match Request.ofArguments arguments with
  | .error error => ⟨2, [], bytesOf (errorLine error.message ++ "\n" ++ usage ++ "\n")⟩
  | .ok .help => ⟨0, bytesOf (usage ++ "\n"), []⟩
  | .ok (.convert options) => run options terminal input none none

end PatternGrammar.Command
