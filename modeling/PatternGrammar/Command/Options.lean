/-!
# Arguments of the command

Arguments are taken from left to right. The first one that asks for help, names no option, or is a
second pattern settles the matter and the rest is not looked at. Where none does, every option that
occurs is set, and the last choice of colour holds.
-/

namespace PatternGrammar.Command

/-- How the command is called. -/
def usage : String :=
  "usage: regex-cfg [--color=always|never|auto] [--header] [--tokens] [--ast] [PATTERN]\n\n" ++
    "Reads PATTERN (or one line of stdin) and prints an equivalent context-free grammar."

/-- When the listing is coloured. -/
inductive Coloring where
  /-- Always. -/
  | always
  /-- Never. -/
  | never
  /-- If the output goes to a terminal. -/
  | auto
  deriving DecidableEq

/-- Whether to colour the listing, given whether the output is a terminal. -/
def Coloring.resolve (terminal : Bool) : Coloring → Bool
  | .always => true
  | .never => false
  | .auto => terminal

/-- What the arguments ask for. -/
structure Options where
  /-- The pattern, if it is an argument. -/
  pattern : Option String
  /-- When the listing is coloured. -/
  color : Coloring
  /-- Whether the listing has a heading. -/
  header : Bool
  /-- Whether the tokens are shown. -/
  showTokens : Bool
  /-- Whether the tree and the capture groups are shown. -/
  showTree : Bool
  deriving DecidableEq

/-- What holds without arguments. -/
def Options.default : Options := ⟨none, .never, false, false, false⟩

/-- What one argument means on its own. -/
inductive Argument where
  /-- A call for help. -/
  | help
  /-- A choice of colour. -/
  | color (choice : Coloring)
  /-- A call for the heading. -/
  | header
  /-- A call for the tokens. -/
  | showTokens
  /-- A call for the tree. -/
  | showTree
  /-- Something in the form of an option that is none. -/
  | unknown (text : String)
  /-- A pattern. -/
  | pattern (text : String)
  deriving DecidableEq

/-- The meaning of an argument. A dash with something after it has the form of an option; a dash
alone and the empty text are patterns. -/
def Argument.ofText (text : String) : Argument :=
  match text with
  | "-h" => .help
  | "--help" => .help
  | "--color=always" => .color .always
  | "--color=never" => .color .never
  | "--color=auto" => .color .auto
  | "--header" => .header
  | "--tokens" => .showTokens
  | "--ast" => .showTree
  | _ =>
    match text.toList with
    | '-' :: _ :: _ => .unknown text
    | _ => .pattern text

/-- Why arguments cannot be followed. -/
inductive UsageError where
  /-- Something in the form of an option that is none. -/
  | unknownOption (text : String)
  /-- A second pattern. -/
  | extraArgument (text : String)
  deriving DecidableEq

/-- The message of a usage error. -/
def UsageError.message : UsageError → String
  | .unknownOption text => "unknown option '" ++ text ++ "'"
  | .extraArgument text => "unexpected extra argument '" ++ text ++ "'"

/-- What the command is to do. -/
inductive Request where
  /-- Show how it is called. -/
  | help
  /-- Convert a pattern. -/
  | convert (options : Options)
  deriving DecidableEq

namespace Request

/-- Follow arguments, given what the ones before them have set. -/
def follow (options : Options) : List Argument → Except UsageError Request
  | [] => .ok (.convert options)
  | .help :: _ => .ok .help
  | .color choice :: rest => follow { options with color := choice } rest
  | .header :: rest => follow { options with header := true } rest
  | .showTokens :: rest => follow { options with showTokens := true } rest
  | .showTree :: rest => follow { options with showTree := true } rest
  | .unknown text :: _ => .error (.unknownOption text)
  | .pattern text :: rest =>
    if options.pattern.isSome then .error (.extraArgument text)
    else follow { options with pattern := some text } rest

/-- What a list of arguments asks for. -/
def ofArguments (arguments : List String) : Except UsageError Request :=
  follow .default (arguments.map Argument.ofText)

end Request

end PatternGrammar.Command
