import IRule.Eval.Error
import IRule.Eval.Glob
import IRule.Operator

/-!
# Operations on values

Operators applied to evaluated operands. Operands of different shapes do not
fit together; operands of one shape may still not be what the operator takes.
-/

namespace IRule

/-! ## Integers -/

/-- A result that may not fit into 64 bits. -/
def checked (operation : String) : Option Int64 → Except EvalError Value
  | some value => .ok (.integer value)
  | none => .error (.overflow operation)

/-- An exact result that has to fit into 64 bits. -/
def fitted (operation : String) (result : Int) : Except EvalError Value :=
  checked operation (Text.int64OfInt? result)

/-- The quotient without its fraction; none for a zero divisor and where it does
not fit. -/
def truncatedQuotient? (left right : Int64) : Option Int64 :=
  if right == 0 then none else Text.int64OfInt? (left.toInt.tdiv right.toInt)

/-- What the quotient without its fraction leaves over; none where there is no such
quotient. -/
def truncatedRemainder? (left right : Int64) : Option Int64 :=
  (truncatedQuotient? left right).map fun _ => left % right

/-- The quotient rounded toward negative infinity. -/
def floorQuotient? (left right : Int64) : Option Int64 := do
  let quotient ← truncatedQuotient? left right
  if left % right != 0 && decide (left < 0) != decide (right < 0) then
    Text.int64OfInt? (quotient.toInt - 1)
  else
    some quotient

/-- The remainder with the sign of the divisor. -/
def floorRemainder? (left right : Int64) : Option Int64 := do
  let remainder ← truncatedRemainder? left right
  if remainder != 0 && decide (remainder < 0) != decide (right < 0) then
    Text.int64OfInt? (remainder.toInt + right.toInt)
  else
    some remainder

/-- Operators on integers. Division rounds down, and a remainder has the sign of
the divisor; where the quotient does not fit, neither is defined. -/
def integerOperation (left : Int64) (operator : String) (right : Int64) :
    Except EvalError Value :=
  let first := left.toInt
  let second := right.toInt
  match Operator.ofText? operator with
  | some .add => fitted operator (first + second)
  | some .subtract => fitted operator (first - second)
  | some .multiply => fitted operator (first * second)
  | some .divide =>
    if right == 0 then .error .divisionByZero else checked operator (floorQuotient? left right)
  | some .modulo =>
    if right == 0 then .error .divisionByZero else checked operator (floorRemainder? left right)
  | some .less => .ok (.boolean (decide (first < second)))
  | some .greater => .ok (.boolean (decide (second < first)))
  | some .lessEqual => .ok (.boolean (decide (first ≤ second)))
  | some .greaterEqual => .ok (.boolean (decide (second ≤ first)))
  | some .equal => .ok (.boolean (decide (first = second)))
  | some .notEqual => .ok (.boolean (decide (first ≠ second)))
  | _ => .error (.unknownOperator .number operator .number)

/-! ## Texts and truth values -/

/-- Whether `part` stands somewhere in `text`. -/
def occursIn (part : List Char) : List Char → Bool
  | [] => part.isEmpty
  | char :: rest => part.isPrefixOf (char :: rest) || occursIn part rest

/-- Operators on texts. Order is that of the code points. -/
def textOperation (left operator right : String) : Except EvalError Value :=
  let first := left.toList
  let second := right.toList
  match Operator.ofText? operator with
  | some .equal | some .equals => .ok (.boolean (decide (left = right)))
  | some .notEqual => .ok (.boolean (decide (left ≠ right)))
  | some .less => .ok (.boolean (decide (first < second)))
  | some .greater => .ok (.boolean (decide (second < first)))
  | some .lessEqual => .ok (.boolean (!decide (second < first)))
  | some .greaterEqual => .ok (.boolean (!decide (first < second)))
  | some .contains => .ok (.boolean (occursIn second first))
  | some .startsWith => .ok (.boolean (second.isPrefixOf first))
  | some .endsWith => .ok (.boolean (second.isSuffixOf first))
  | some .matchesGlob => .ok (.boolean (Glob.isMatch right left))
  | some .matching | some .matchesRegex => .error (.unsupported operator)
  | _ => .error (.unknownOperator .string operator .string)

/-- Operators on truth values. -/
def booleanOperation (left : Bool) (operator : String) (right : Bool) : Except EvalError Value :=
  match Operator.ofText? operator with
  | some .equal => .ok (.boolean (left == right))
  | some .notEqual => .ok (.boolean (left != right))
  | _ => .error (.unknownOperator .boolean operator .boolean)

/-! ## Values -/

/-- Operators that depend on the shapes of their operands. -/
def shapedOperation (left : Value) (operator : String) (right : Value) : Except EvalError Value :=
  match left, right with
  | .integer first, .integer second => integerOperation first operator second
  | .text first, .text second => textOperation first operator second
  | .boolean first, .boolean second => booleanOperation first operator second
  | .empty, .empty => .error (.unknownOperator .empty operator .empty)
  | _, _ => .error (.typeMismatch left.type operator right.type)

/-- An operator applied to two values. `eq` and `ne` compare the texts of any two
values, `&&` and `||` take integers and truth values alike. -/
def binaryOperation (left : Value) (operator : String) (right : Value) : Except EvalError Value :=
  match Operator.ofText? operator with
  | some .textEqual => .ok (.boolean (decide (left.written = right.written)))
  | some .textNotEqual => .ok (.boolean (decide (left.written ≠ right.written)))
  | some .both =>
    if left.isLogical && right.isLogical then .ok (.boolean (left.isTruthy && right.isTruthy))
    else shapedOperation left operator right
  | some .either =>
    if left.isLogical && right.isLogical then .ok (.boolean (left.isTruthy || right.isTruthy))
    else shapedOperation left operator right
  | _ => shapedOperation left operator right

/-- An operator in front of its operand. -/
def unaryOperation (operator : String) (operand : Value) : Except EvalError Value :=
  if operator == "-" then
    match operand with
    | .integer value => fitted operator (-value.toInt)
    | other => .error (.invalidCommand ("-" ++ other.written))
  else if operator == "!" then
    match operand with
    | .boolean value => .ok (.boolean (!value))
    | .integer value => .ok (.boolean (value == 0))
    | other => .error (.unknownUnaryOperator operator other.type)
  else .error (.unknownUnaryOperator operator operand.type)

/-- The value of a logical operator when its left operand decides it. -/
def shortCircuit? (operator : String) (left : Value) : Option Value :=
  if !left.isLogical then none
  else
    match Operator.ofText? operator with
    | some .both => if left.isTruthy then none else some (.boolean false)
    | some .either => if left.isTruthy then some (.boolean true) else none
    | _ => none

/-- The math functions `abs`, `min` and `max`. -/
def mathFunction (name : String) (arguments : List Int64) : Except EvalError Value :=
  if name == "abs" then
    match arguments with
    | [value] => fitted name (Int.ofNat value.toInt.natAbs)
    | _ => .error (.wrongArguments "abs(x)")
  else if name == "min" then
    match arguments with
    | [] => .error (.wrongArguments "min(x, ...)")
    | first :: later => .ok (.integer (later.foldl min first))
  else if name == "max" then
    match arguments with
    | [] => .error (.wrongArguments "max(x, ...)")
    | first :: later => .ok (.integer (later.foldl max first))
  else .error (.invalidCommand name)

end IRule
