import IRule.Cli.Run

/-!
# Program

The command line program: reads arguments, files and lines, and writes what
the library decides.
-/

namespace IRule.Cli

/-- Why a file could not be read. -/
def readFailure : IO.Error → String
  | .noFileOrDirectory .. => missingFile
  | error => toString error

/-- Content of a file, or why it could not be read. -/
def readFile (path : String) : IO (Except String (List UInt8)) := do
  try
    let bytes ← IO.FS.readBinFile path
    return .ok bytes.toList
  catch error => return .error (readFailure error)

/-- Everything that is left on standard input. -/
partial def readRest (stdin : IO.FS.Stream) (read : ByteArray) : IO ByteArray := do
  let chunk ← stdin.read 65536
  if chunk.isEmpty then return read
  readRest stdin (read ++ chunk)

/-- Write a result and give its exit code. -/
def deliver (result : Result) : IO UInt32 := do
  IO.print result.stdout
  IO.eprint result.stderr
  return result.exitCode.toUInt32

/-- Bytes up to the end of the line, of which the line feed is the last. -/
partial def readLine (stdin : IO.FS.Stream) (read : ByteArray) : IO ByteArray := do
  let chunk ← stdin.read 1
  if chunk.isEmpty then return read
  let read := read ++ chunk
  if chunk.toList.contains 10 then return read
  readLine stdin read

/-- Hold a session line by line. -/
partial def converse (options : Options) (session : Session) : IO UInt32 := do
  let stdin ← IO.getStdin
  let stdout ← IO.getStdout
  let terminal ← stdout.isTty
  stdout.putStr prompt
  stdout.flush
  let bytes ← readLine stdin .empty
  if bytes.isEmpty then
    stdout.putStr "\n"
    return 0
  match textOf? bytes.toList with
  | none => deliver (failure invalidText)
  | some line =>
    match session.step options terminal line with
    | .leave => return 0
    | .next printed after =>
      stdout.putStr printed
      converse options after

/-- Check a file, or standard input. -/
def checkOn (options : Options) (path : String) : IO UInt32 := do
  let content ←
    if path == "-" then do
      let bytes ← readRest (← IO.getStdin) .empty
      pure (.ok bytes.toList)
    else readFile path
  match content.bind textOf with
  | .ok source =>
    let report := check options (← (← IO.getStdout).isTty) source
    deliver { stdout := report.output, exitCode := report.exitCode }
  | .error _ => deliver (checkPath options path content)

end IRule.Cli

open IRule.Cli in
/-- Run the program. -/
def main (arguments : List String) : IO UInt32 := do
  match readArguments arguments with
  | .ok (.check path, options) => checkOn options path
  | .ok (.session, options) => converse options {}
  | _ => deliver (run arguments [] fun _ => .error missingFile)
