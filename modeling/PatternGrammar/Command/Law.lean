import PatternGrammar.Command.Run

/-!
# The law of the command

What a run has to leave behind, told from what is given to it: the options, the bytes of the input
and the bounds of the sinks. The pattern is the argument or stands on the first line of the input.
What was asked for is shown of it as far as it can be scanned and read, and after that comes the
listing of its grammar. What can go wrong goes by rank: a pattern that cannot be read, then one
without a grammar, then something shown that does not fit, then a listing that does not fit. The
error of highest rank is the one that is reported.
-/

namespace PatternGrammar.Command

/-- The bytes stay within the bound, if there is one. -/
def Fits (bound : Option Bound) (bytes : List UInt8) : Prop :=
  ∀ given, bound = some given → bytes.length ≤ given.size

/-- The first line of an input, without the line feed that ends it. -/
inductive FirstLine : List UInt8 → List UInt8 → Prop where
  /-- It ends at the first line feed. -/
  | ended {line : List UInt8} (rest : List UInt8) (first : 10 ∉ line) :
    FirstLine (line ++ 10 :: rest) line
  /-- It is all of an input without line feeds. -/
  | unended {line : List UInt8} (first : 10 ∉ line) : FirstLine line line

/-- The text is the pattern of the run. -/
inductive Supplies (options : Options) (input : List UInt8) : String → Prop where
  /-- It is the argument. -/
  | argument {text : String} (given : options.pattern = some text) : Supplies options input text
  /-- There is no argument, and it is the first line of the input. -/
  | line {text : String} (missing : options.pattern = none)
    (first : FirstLine input (bytesOf text)) (plain : text.toList.getLast? ≠ some '\r') :
    Supplies options input text
  /-- There is no argument, and it is the first line of the input but for a carriage return at its
  end. -/
  | returned {text : String} (missing : options.pattern = none)
    (first : FirstLine input (bytesOf (text ++ "\r"))) : Supplies options input text

/-- What is shown of the tokens: a line for each of them. -/
def shownTokens (tokens : List Token) : String :=
  String.join (tokens.map fun token => Report.tokenText token ++ "\n")

/-- What is shown of a pattern: its tree, and a line for each capture group. -/
def shownTree (pattern : Pattern) : String :=
  (Report.exprDocument pattern.root).block ++ "\n" ++
    String.join (pattern.captures.entries.map fun entry =>
      "group " ++ toString entry.1 ++ ": " ++ (Report.exprDocument entry.2).inline ++ "\n")

/-- What a run shows of a text where it is asked to: the tokens, if the text can be scanned, and the
tree and the capture groups, if its tokens can be read. -/
def shown (options : Options) (text : String) : String :=
  match Token.scan text with
  | .error _ => ""
  | .ok tokens =>
    (if options.showTokens then shownTokens tokens else "") ++
      match Pattern.ofTokens tokens with
      | .error _ => ""
      | .ok pattern => if options.showTree then shownTree pattern else ""

/-- The listing that a run prints of a grammar. It is in colour if that is asked for, also where
that is left to the output and the output is a terminal. -/
def listed (options : Options) (terminal : Bool) (grammar : Grammar) : List UInt8 :=
  bytesOf (Report.listing
    ⟨options.color = .always ∨ options.color = .auto ∧ terminal = true, options.header⟩ grammar)

section Run

variable (options : Options) (terminal : Bool) (input : List UInt8)
  (outBound errBound : Option Bound)

/-- The bytes that a run shows of its pattern, none if there is no pattern. -/
inductive Shows : List UInt8 → Prop where
  /-- There is no pattern. -/
  | nothing (unread : ∀ text, ¬Supplies options input text) : Shows []
  /-- There is a pattern. -/
  | pattern {text : String} (read : Supplies options input text) :
    Shows (bytesOf (shown options text))

/-- The pattern can be read and has a grammar, everything that is shown of it fits, and so the run
comes to print the listing of the grammar. -/
inductive Lists : List UInt8 → Prop where
  /-- The listing is that of the grammar. -/
  | listing {text : String} {grammar : Grammar} (read : Supplies options input text)
    (converted : Grammar.ofText text = .ok grammar)
    (within : Fits errBound (bytesOf (shown options text))) :
    Lists (listed options terminal grammar)

/-- The message that a run reports. -/
inductive Reports : String → Prop where
  /-- The pattern cannot be read. -/
  | unread (unread : ∀ text, ¬Supplies options input text) :
    Reports "failed to read pattern from stdin: stream did not contain valid UTF-8"
  /-- The pattern cannot be cut into tokens. -/
  | scan {text : String} {error : ScanError} (read : Supplies options input text)
    (failed : Token.scan text = .error error) : Reports ("tokenization failed: " ++ error.message)
  /-- The tokens are not a pattern. -/
  | reading {text : String} {tokens : List Token} {error : SyntaxError}
    (read : Supplies options input text) (scanned : Token.scan text = .ok tokens)
    (failed : Pattern.ofTokens tokens = .error error) : Reports ("syntax error: " ++ error.message)
  /-- The pattern cannot be lowered. -/
  | lowering {text : String} {tokens : List Token} {pattern : Pattern} {error : LowerError}
    (read : Supplies options input text) (scanned : Token.scan text = .ok tokens)
    (parsed : Pattern.ofTokens tokens = .ok pattern) (failed : pattern.toGrammar = .error error) :
    Reports ("compilation failed: " ++ error.message)
  /-- What is shown goes beyond the bound of the error sink. -/
  | dump {text : String} {grammar : Grammar} {bound : Bound} (read : Supplies options input text)
    (converted : Grammar.ofText text = .ok grammar) (bounded : errBound = some bound)
    (beyond : bound.size < (bytesOf (shown options text)).length) :
    Reports ("failed to write debug output: " ++ bound.refusal)
  /-- The listing goes beyond the bound of the output sink. -/
  | listing {listing : List UInt8} {bound : Bound}
    (listed : Lists options terminal input errBound listing) (bounded : outBound = some bound)
    (beyond : bound.size < listing.length) :
    Reports ("failed to write grammar: " ++ bound.refusal)

/-- What the sinks and the exit code say about a run. -/
structure Outcome.Lawful (outcome : Outcome) : Prop where
  /-- The exit code is zero exactly if the run came to print a listing and all of it fits. -/
  success : outcome.code = 0 ↔
    ∃ listing, Lists options terminal input errBound listing ∧ Fits outBound listing
  /-- There is no exit code but zero and one. -/
  code : outcome.code = 0 ∨ outcome.code = 1
  /-- A listing that the run came to print is kept as far as it fits. -/
  out : ∀ listing, Lists options terminal input errBound listing →
    outcome.out = Sink.cut outBound listing
  /-- Otherwise nothing is printed. -/
  silent : (¬∃ listing, Lists options terminal input errBound listing) → outcome.out = []
  /-- A run that succeeds leaves only what it showed on the error sink. -/
  shown : outcome.code = 0 → ∃ bytes, Shows options input bytes ∧
    outcome.err = Sink.cut errBound bytes
  /-- A run that fails has something to report and does so after what it showed, as far as it
  fits. -/
  reported : outcome.code = 1 → ∃ bytes message, Shows options input bytes ∧
    Reports options terminal input outBound errBound message ∧
    outcome.err = Sink.cut errBound (bytes ++ bytesOf ("error: " ++ message ++ "\n"))

end Run

end PatternGrammar.Command
