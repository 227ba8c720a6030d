import IRule.Diagnostic.Terminal

/-!
# Command line options

Flags and at most one path. Asking for help or the version wins as soon as it
is seen, whatever follows.
-/

namespace IRule.Cli

/-- Text of the help. -/
def usage : String :=
  "Usage: irule [options] [file]\n\n" ++
  "Validates an F5 iRule. Without a file, starts an interactive session.\n\n" ++
  "Options:\n" ++
  "  -d, --debug          Trace the parse and print tokens and the parsed program\n" ++
  "  -p, --print-errors   Print diagnostics (otherwise only the exit code reports)\n" ++
  "      --color=<when>   Colour diagnostics: auto, always or never\n" ++
  "  -h, --help           Print this help\n" ++
  "  -v, --version        Print the version"

/-- Name and version of the program. -/
def version : String := "irule 0.3.0"

/-- What an invocation asks for. -/
inductive Command where
  | check (path : String)
  | session
  | help
  | version
deriving DecidableEq, Repr, Inhabited

/-- Settings of an invocation. -/
structure Options where
  path : Option String := none
  debug : Bool := false
  printErrors : Bool := false
  color : ColorMode := .auto
deriving DecidableEq, Repr, Inhabited

/-- Invocations that cannot be understood. -/
inductive UsageError where
  | unknownFlag (flag : String)
  | invalidColor (value : String)
  | extraPath (first second : String)
deriving DecidableEq, Repr, Inhabited

/-- Wording of a usage error. -/
def UsageError.message : UsageError → String
  | .unknownFlag flag => "unknown option '" ++ flag ++ "'"
  | .invalidColor value =>
    "invalid --color value '" ++ value ++ "' (expected auto, always or never)"
  | .extraPath first second => "more than one input file: '" ++ first ++ "' and '" ++ second ++ "'"

/-- What the flag `--color=` starts with. -/
def colorFlag : List Char := "--color=".toList

/-- Take over an argument that is neither a plain flag nor a request. -/
def Options.addArgument (options : Options) (argument : String) : Except UsageError Options :=
  let text := argument.toList
  if colorFlag.isPrefixOf text then
    let value := String.ofList (text.drop colorFlag.length)
    match ColorMode.ofText? value with
    | some color => .ok { options with color := color }
    | none => .error (.invalidColor value)
  else if text.head? == some '-' && text.length > 1 then .error (.unknownFlag argument)
  else
    match options.path with
    | some first => .error (.extraPath first argument)
    | none => .ok { options with path := some argument }

/-- Read the arguments that follow those already taken over. -/
def Options.read (options : Options) : List String → Except UsageError (Command × Options)
  | [] =>
    match options.path with
    | some path => .ok (.check path, options)
    | none => .ok (.session, options)
  | argument :: rest =>
    if argument == "-h" || argument == "--help" then .ok (.help, options)
    else if argument == "-v" || argument == "--version" then .ok (.version, options)
    else if argument == "-d" || argument == "--debug" then
      Options.read { options with debug := true } rest
    else if argument == "-p" || argument == "--print-errors" then
      Options.read { options with printErrors := true } rest
    else
      match options.addArgument argument with
      | .ok more => Options.read more rest
      | .error error => .error error

/-- Read the arguments of an invocation. -/
def readArguments (arguments : List String) : Except UsageError (Command × Options) :=
  Options.read {} arguments

end IRule.Cli
