import IRule.Cli.Session

/-!
# Invocations

An invocation of the program as a function of its arguments and of what it can
read. Output is written neither to a terminal nor to a file here: this is what
the program does, without doing it.
-/

namespace IRule.Cli

/-- What an invocation writes, and its exit code. -/
structure Result where
  stdout : String := ""
  stderr : String := ""
  exitCode : Nat := 0
deriving DecidableEq, Repr, Inhabited

/-- Reason why bytes are no text. -/
def invalidText : String := "stream did not contain valid UTF-8"

/-- Reason why a path cannot be read. -/
def missingFile : String := "No such file or directory (os error 2)"

/-- A failure of the program itself. -/
def failure (message : String) : Result :=
  { stderr := "error: " ++ message ++ "\n", exitCode := 1 }

/-- An invocation that cannot be understood. -/
def misuse (error : UsageError) : Result :=
  { stderr := "error: " ++ error.message ++ "\n\n" ++ usage ++ "\n", exitCode := 1 }

/-- Text encoded by bytes. -/
def textOf? (bytes : List UInt8) : Option String :=
  String.fromUTF8? ⟨bytes.toArray⟩

/-- Bytes as a text, or the reason why they are none. -/
def textOf (bytes : List UInt8) : Except String String :=
  match textOf? bytes with
  | some text => .ok text
  | none => .error invalidText

/-- Check what was read from a path. -/
def checkPath (options : Options) (path : String) (content : Except String (List UInt8)) :
    Result :=
  match content.bind textOf with
  | .ok source =>
    let report := check options false source
    { stdout := report.output, exitCode := report.exitCode }
  | .error reason => failure ("cannot read '" ++ path ++ "': " ++ reason)

/-- Run a session over the given input. -/
def runSession (options : Options) (input : List UInt8) : Result :=
  match Session.transcript {} options false ((linesOf 10 input).map textOf?) with
  | (output, true) => { stdout := output }
  | (output, false) => { failure invalidText with stdout := output }

/-- The invocation with the given arguments, where `files` gives the content of a
path, or the reason why it cannot be read, and the path `-` stands for `stdin`. -/
def run (arguments : List String) (stdin : List UInt8)
    (files : String → Except String (List UInt8)) : Result :=
  match readArguments arguments with
  | .error error => misuse error
  | .ok (.help, _) => { stdout := usage ++ "\n" }
  | .ok (.version, _) => { stdout := version ++ "\n" }
  | .ok (.check path, options) =>
    checkPath options path (if path == "-" then .ok stdin else files path)
  | .ok (.session, options) => runSession options stdin

end IRule.Cli
