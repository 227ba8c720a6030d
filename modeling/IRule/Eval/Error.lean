import IRule.Diagnostic.Basic
import IRule.Eval.Value

/-!
# Evaluation errors

Why an evaluation fails, the code and the wording of each cause.
-/

namespace IRule

/-- Causes of failure. -/
inductive EvalError where
  /-- Operands of different shapes. -/
  | typeMismatch (left : ValueType) (operator : String) (right : ValueType)
  /-- Operands of a shape the operator does not accept. -/
  | unknownOperator (left : ValueType) (operator : String) (right : ValueType)
  | unknownUnaryOperator (operator : String) (operand : ValueType)
  /-- A dash in front of a word makes the name of a command. -/
  | invalidCommand (name : String)
  | divisionByZero
  | noSuchVariable (name : String)
  | overflow (operation : String)
  | wrongArguments (usage : String)
  | unsupported (construct : String)
deriving DecidableEq, Repr, Inhabited

namespace EvalError

/-- Code of the error. -/
def code : EvalError → Code
  | typeMismatch .. => .typeMismatch
  | unknownOperator .. | unknownUnaryOperator .. => .unknownOperator
  | invalidCommand _ => .invalidCommand
  | divisionByZero => .divisionByZero
  | noSuchVariable _ => .noSuchVariable
  | overflow _ => .overflow
  | wrongArguments _ => .mathArguments
  | unsupported _ => .unsupported

/-- Wording of the error. -/
def message : EvalError → String
  | typeMismatch left operator right =>
    "type mismatch: " ++ left.name ++ " " ++ operator ++ " " ++ right.name
  | unknownOperator left operator right =>
    "unknown operator: " ++ left.name ++ " " ++ operator ++ " " ++ right.name
  | unknownUnaryOperator operator operand => "unknown operator: " ++ operator ++ operand.name
  | invalidCommand name => "invalid command name '" ++ name ++ "'"
  | divisionByZero => "division by zero"
  | noSuchVariable name => "can't read \"" ++ name ++ "\": no such variable"
  | overflow operation => "integer overflow in '" ++ operation ++ "'"
  | wrongArguments usage => "wrong # args: should be \"" ++ usage ++ "\""
  | unsupported construct => "'" ++ construct ++ "' is not supported by the evaluator"

/-- The error as a diagnostic; line zero leaves it without a line. -/
def diagnostic (error : EvalError) (line : Nat) : Diagnostic :=
  .error error.code error.message line

end EvalError

end IRule
