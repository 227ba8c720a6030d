import IRule.Cli.Options
import IRule.Parser.Basic

/-!
# Checking a rule

What is printed about one rule, and how many problems it has.
-/

namespace IRule.Cli

/-- Put a text at the right of a field of the given width. -/
def padLeft (width : Nat) (text : String) : String :=
  String.ofList (List.replicate (width - text.length) ' ') ++ text

/-- One line per token: line, kind and quoted literal. -/
def tokenLines (tokens : List Token) : String :=
  String.join <| tokens.map fun token =>
    padLeft 4 (toString token.line) ++ "  " ++ token.kind.name ++ " " ++
      Text.quoted token.literal ++ "\n"

/-- Result of a check. -/
structure Report where
  output : String
  /-- Number of problems. -/
  problems : Nat
deriving DecidableEq, Repr, Inhabited

namespace Report

/-- Whether no problem was found. -/
def isClean (report : Report) : Bool :=
  report.problems == 0

/-- Exit code: 0 when clean, 1 otherwise. -/
def exitCode (report : Report) : Nat :=
  if report.isClean then 0 else 1

end Report

/-- Check a rule. Problems are printed on request only, and counted either way. -/
def check (options : Options) (terminal : Bool) (source : String) : Report :=
  let outcome := parse source
  let dump :=
    if options.debug then
      "tokens:\n" ++ tokenLines (tokenize source) ++ "program:\n" ++ outcome.script.written ++ "\n"
    else ""
  let problems :=
    if options.printErrors then
      Terminal.renderAll (options.color.isOn terminal) outcome.diagnostics
    else ""
  ⟨dump ++ problems, outcome.diagnostics.length⟩

end IRule.Cli
