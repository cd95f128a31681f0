import PatternGrammar.Command.Run

/-!
# The command line

Reads the first line of the standard input if the arguments hold no pattern, runs the command and
writes what it leaves behind.
-/

namespace PatternGrammar.Command

/-- The bytes of a stream up to its first line feed or its end. -/
partial def readLine (stream : IO.FS.Stream) (before : ByteArray) : IO ByteArray := do
  let chunk ← stream.read 4096
  if chunk.isEmpty then return before
  else if chunk.data.contains 10 then return before ++ chunk
  else readLine stream (before ++ chunk)

/-- The input that a list of arguments makes the command read. -/
def inputFor (arguments : List String) : IO ByteArray := do
  match Request.ofArguments arguments with
  | .ok (.convert options) =>
    if options.pattern.isNone then readLine (← IO.getStdin) .empty else return .empty
  | _ => return .empty

end PatternGrammar.Command

/-- Run the command on the given arguments. -/
def main (arguments : List String) : IO UInt32 := do
  let input ← PatternGrammar.Command.inputFor arguments
  let stdout ← IO.getStdout
  let terminal ← stdout.isTty
  let outcome := PatternGrammar.Command.execute arguments terminal input.data.toList
  stdout.write outcome.out.toByteArray
  (← IO.getStderr).write outcome.err.toByteArray
  return outcome.code.toUInt32
