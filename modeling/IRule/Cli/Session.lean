import IRule.Cli.Check
import IRule.Eval.Interpreter

/-!
# Interactive sessions

Each line is validated and, when it has no problem, evaluated. Variables stay
declared and assigned for later lines.
-/

namespace IRule.Cli

/-- What a session remembers. -/
structure Session where
  environment : Environment := {}
  /-- Variables known to the validator. -/
  declared : List String := []
deriving Repr, Inhabited

/-- The prompt in front of each line. -/
def prompt : String := ">> "

namespace Session

/-- Run a trimmed, non-empty line; gives what is printed. -/
def run (session : Session) (options : Options) (terminal : Bool) (line : String) :
    String × Session :=
  let outcome := parseWith session.declared line
  let known := { session with declared := Naming.addAll session.declared outcome.declared }
  let colors := options.color.isOn terminal
  let dump :=
    if options.debug then tokenLines (tokenize line) ++ outcome.script.written ++ "\n" else ""
  if outcome.diagnostics.isEmpty then
    let (result, environment) := outcome.script.run session.environment
    let printed :=
      match result with
      | .ok .empty => ""
      | .ok value => value.written ++ "\n"
      | .error (error, _) => Terminal.renderAll colors [error.diagnostic 0]
    (dump ++ printed, { known with environment := environment })
  else
    (dump ++ Terminal.renderAll colors outcome.diagnostics, known)

/-- How a session goes on after a line. -/
inductive Step where
  /-- The line asked to leave. -/
  | leave
  | next (printed : String) (session : Session)
deriving Repr, Inhabited

/-- Take a line as it was typed. Blank lines do nothing. -/
def step (session : Session) (options : Options) (terminal : Bool) (line : String) : Step :=
  let trimmed := String.ofList (Text.trim line.toList)
  if trimmed == "exit" then .leave
  else if trimmed.isEmpty then .next "" session
  else
    let (printed, after) := session.run options terminal trimmed
    .next printed after

/-- What a session prints for the given lines, and whether it came to its end.
A line that cannot be read, `none`, breaks it off. -/
def transcript (session : Session) (options : Options) (terminal : Bool) :
    List (Option String) → String × Bool
  | [] => (prompt ++ "\n", true)
  | none :: _ => (prompt, false)
  | some line :: rest =>
    match session.step options terminal line with
    | .leave => (prompt, true)
    | .next printed after =>
      let (later, finished) := transcript after options terminal rest
      (prompt ++ printed ++ later, finished)

end Session

/-- Parts of the input between line feeds, of which the last is no line when it
is empty. -/
def linesOf {α : Type} [BEq α] (lineFeed : α) : List α → List (List α)
  | [] => []
  | unit :: rest =>
    if unit == lineFeed then [] :: linesOf lineFeed rest
    else
      match linesOf lineFeed rest with
      | [] => [[unit]]
      | line :: lines => (unit :: line) :: lines

/-- What a session prints for the given input. -/
def sessionOutput (options : Options) (terminal : Bool) (input : String) : String :=
  let lines := (linesOf '\n' input.toList).map fun line => some (String.ofList line)
  (Session.transcript {} options terminal lines).1

end IRule.Cli
