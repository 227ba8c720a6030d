import IRule.Diagnostic.Code
import IRule.Text.Span

/-!
# Diagnostics

A problem found in a rule, with its message and, where known, the line and the
span it was found at.
-/

namespace IRule

/-- How grave a problem is. -/
inductive Severity where
  | error
  | warning
deriving DecidableEq, Repr, Inhabited

/-- A reported problem. -/
structure Diagnostic where
  code : Code
  severity : Severity := .error
  message : String := ""
  /-- Source line, counted from 1. -/
  line : Option Nat := none
  span : Option Span := none
  /-- Remarks shown below the message on a terminal. -/
  notes : List String := []
deriving DecidableEq, Repr, Inhabited

namespace Diagnostic

/-- Stamp a line. Line zero stands for no position and is ignored. -/
def atLine (diagnostic : Diagnostic) (line : Nat) : Diagnostic :=
  if line = 0 then diagnostic else { diagnostic with line := some line }

/-- An error with a message, at a line. -/
def error (code : Code) (message : String) (line : Nat) : Diagnostic :=
  ({ code, message : Diagnostic }).atLine line

/-- The diagnostic on one line: an indent, the line stamp if any, the message. -/
def text (diagnostic : Diagnostic) : String :=
  match diagnostic.line with
  | some line => "   line " ++ toString line ++ ": " ++ diagnostic.message
  | none => "   " ++ diagnostic.message

end Diagnostic

end IRule
