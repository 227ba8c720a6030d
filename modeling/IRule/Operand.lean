import IRule.Operator
import IRule.Script.View

/-!
# Operands

Only literals have a type before evaluation. Variables, commands and the
results of operators fit any operator; literals are checked against the class
of the operator.
-/

namespace IRule

/-- Type of an operand as far as it is known before evaluation. -/
inductive OperandClass where
  | number
  | boolean
  | string
  | dynamic
deriving DecidableEq, Repr, Inhabited

namespace OperandClass

/-- Name of the class in messages. -/
def name : OperandClass → String
  | number => "NUMBER"
  | boolean => "BOOLEAN"
  | string => "STRING"
  | dynamic => "DYNAMIC"

/-- Class of an expression. -/
def ofExpression : Expression → OperandClass
  | .number .. => number
  | .unary _ operator operand => if operator == "-" && operand.isNumber then number else dynamic
  | .boolean .. => boolean
  | .string .. | .interpolated .. | .address .. | .regex .. => string
  | .group _ inner => ofExpression inner
  | _ => dynamic

/-- Whether an operator of a class accepts two operands. -/
def accepts (left right : OperandClass) : OperatorClass → Bool
  | .equality => true
  | .stringMatch =>
    (left == string || left == dynamic) && (right == string || right == dynamic)
  | .ordering =>
    left == dynamic || right == dynamic || (left == right && (left == number || left == string))
  | .arithmetic => left != string && right != string
  | .logical =>
    left == boolean || left == dynamic || right == boolean || right == dynamic

end OperandClass

/-- Whether an operator accepts two expressions. Any text that spells no
operator is accepted. -/
def acceptsOperands (operator : String) (left right : Expression) : Bool :=
  match Operator.ofText? operator with
  | none => true
  | some known =>
    (OperandClass.ofExpression left).accepts (OperandClass.ofExpression right) known.kind

end IRule
