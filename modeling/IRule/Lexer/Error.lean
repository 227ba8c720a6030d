import IRule.Diagnostic.Basic
import IRule.Token.Basic

/-!
# Lexical errors

A lexical problem shows twice: as an `illegal` token whose literal is the
message, and as an error that keeps the cause.
-/

namespace IRule

/-- Causes of lexical errors. -/
inductive LexicalFault where
  /-- The closing quote is missing. -/
  | unterminatedString
  /-- No token starts with this character. -/
  | illegalCharacter (char : Char)
  /-- A closing bracket or brace with none open. -/
  | strayCloser (closer : Char)
  /-- Digits and dots that are no dotted quad. -/
  | invalidNumber (text : String)
deriving DecidableEq, Repr, Inhabited

namespace LexicalFault

/-- Message of the fault. -/
def message : LexicalFault → String
  | unterminatedString => "unterminated string"
  | illegalCharacter char => "illegal character '" ++ String.singleton char ++ "'"
  | strayCloser closer => "Closing '" ++ String.singleton closer ++ "' without opening one"
  | invalidNumber text => "invalid number literal '" ++ text ++ "'"

/-- Code of the fault. -/
def code : LexicalFault → Code
  | unterminatedString => .unterminatedString
  | illegalCharacter _ => .illegalCharacter
  | strayCloser _ => .strayCloser
  | invalidNumber _ => .invalidNumber

end LexicalFault

/-- A lexical fault and where it stands. -/
structure LexicalError where
  fault : LexicalFault
  span : Span
  /-- Line on which the offending text starts. -/
  line : Nat
deriving DecidableEq, Repr, Inhabited

namespace LexicalError

/-- The error as a diagnostic. -/
def diagnostic (error : LexicalError) : Diagnostic :=
  { Diagnostic.error error.fault.code error.fault.message error.line with span := some error.span }

end LexicalError

end IRule
