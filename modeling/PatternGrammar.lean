import PatternGrammar.Command.Law
import PatternGrammar.Command.Options
import PatternGrammar.Command.Run
import PatternGrammar.Command.Sink
import PatternGrammar.Conversion
import PatternGrammar.Expr.Basic
import PatternGrammar.Expr.Captures
import PatternGrammar.Expr.Language
import PatternGrammar.Expr.Matching
import PatternGrammar.Expr.Phrase
import PatternGrammar.Expr.Shape
import PatternGrammar.Expr.Spelling
import PatternGrammar.Grammar.Basic
import PatternGrammar.Grammar.Derivation
import PatternGrammar.Grammar.Lemmas
import PatternGrammar.Grammar.Text
import PatternGrammar.Lowering.Basic
import PatternGrammar.Lowering.Counted
import PatternGrammar.Lowering.Name
import PatternGrammar.Main
import PatternGrammar.Pattern.Basic
import PatternGrammar.Procedure
import PatternGrammar.Proofs.Command.Arguments
import PatternGrammar.Proofs.Command.Input
import PatternGrammar.Proofs.Command.Line
import PatternGrammar.Proofs.Command.Outcome
import PatternGrammar.Proofs.Expr.Exposure
import PatternGrammar.Proofs.Grammar.Additions
import PatternGrammar.Proofs.Grammar.Occurrence
import PatternGrammar.Proofs.Language
import PatternGrammar.Proofs.Lowering.Closure
import PatternGrammar.Proofs.Lowering.Counted
import PatternGrammar.Proofs.Lowering.Definitions
import PatternGrammar.Proofs.Lowering.Depth
import PatternGrammar.Proofs.Lowering.Failure
import PatternGrammar.Proofs.Lowering.Forms
import PatternGrammar.Proofs.Lowering.GroupRange
import PatternGrammar.Proofs.Lowering.Growth
import PatternGrammar.Proofs.Lowering.Lexicon
import PatternGrammar.Proofs.Lowering.Lookahead
import PatternGrammar.Proofs.Lowering.Meaning
import PatternGrammar.Proofs.Lowering.Names
import PatternGrammar.Proofs.Lowering.Residue
import PatternGrammar.Proofs.Lowering.Run
import PatternGrammar.Proofs.Lowering.Size
import PatternGrammar.Proofs.Lowering.Yield
import PatternGrammar.Proofs.Reader.Acceptance
import PatternGrammar.Proofs.Reader.Calls
import PatternGrammar.Proofs.Reader.Captures
import PatternGrammar.Proofs.Reader.Descent
import PatternGrammar.Proofs.Reader.Discipline
import PatternGrammar.Proofs.Reader.Numbering
import PatternGrammar.Proofs.Reader.Phrases
import PatternGrammar.Proofs.Reader.Reading
import PatternGrammar.Proofs.Reader.Refusal
import PatternGrammar.Proofs.Reader.Relabelling
import PatternGrammar.Proofs.Reader.Steps
import PatternGrammar.Proofs.Reader.TooDeep
import PatternGrammar.Proofs.Reader.Viability
import PatternGrammar.Proofs.Reader.Written
import PatternGrammar.Proofs.Report.Decode
import PatternGrammar.Proofs.Report.Legible
import PatternGrammar.Proofs.Token.Faults
import PatternGrammar.Proofs.Token.RoundTrip
import PatternGrammar.Reader.Basic
import PatternGrammar.Reader.Descent
import PatternGrammar.Reader.Level
import PatternGrammar.Reader.SyntaxError
import PatternGrammar.Report.Decode
import PatternGrammar.Report.Document
import PatternGrammar.Report.Dump
import PatternGrammar.Report.Listing
import PatternGrammar.Text.CharSet
import PatternGrammar.Text.DefaultIgnorable
import PatternGrammar.Text.ExtendingMark
import PatternGrammar.Text.Invisible
import PatternGrammar.Text.Quote
import PatternGrammar.Token.Basic
import PatternGrammar.Token.Scan
import PatternGrammar.Token.Spelling
