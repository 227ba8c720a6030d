import IRule.Operand
import IRule.Parser.Command

/-!
# Expressions

Operands joined by operators, each of which takes everything that binds
tighter than itself. Operands are words as in commands, except that operators
never glue onto them.
-/

namespace IRule.Parser

/-- An operator applied to two operands, which have to fit it. -/
def joined (token : Token) (left right : Expression) : Parse Expression := do
  unless acceptsOperands token.literal left right do
    report (.operandTypes token.literal (OperandClass.ofExpression left).name
      (OperandClass.ofExpression right).name) token.line
  return .binary token left token.literal right

/-- Whether the operand of the current operator is missing; if so, report it. -/
def operandMissing (token : Token) : Parse Bool := do
  if ← endsCommand then
    reportHere (.missingOperand token.literal)
    return true
  return false

/-- An operator in front of its operand. -/
def unaryExpression (grammar : Grammar) : Parse (Option Expression) := do
  let token ← current
  if ← operandMissing token then return none
  advance
  let operand ← grammar.expression .unary
  return operand.map fun operand => .unary token token.literal operand

/-- An expression in parentheses. -/
def groupedExpression (grammar : Grammar) : Parse (Option Expression) := do
  let token ← current
  if ← isAhead .closeParen then
    reportHere .emptyGroup
    advance
    return none
  let inner ← within .expression do
    advance
    grammar.expression .lowest
  if ← isAhead .closeParen then advance
  else report (.unclosed .group token.line) token.line
  return inner.map fun inner => .group token inner

/-- A bare word as an operand. The name of a math function is not checked. -/
def operandWord (token : Token) : Parse Expression := do
  if (← get).parenGlued then return bareWord token token.literal
  standaloneWord token

/-- The operand at the current token. -/
def operand (grammar : Grammar) : Parse (Option Expression) := do
  let token ← current
  match token.kind with
  | .number | .address | .reserved .trueWord | .reserved .falseWord => piece grammar
  | .string | .reference | .openBracket => grammar.word .operand
  | .openParen => groupedExpression grammar
  | .openBrace => bracedWord grammar
  | .bang | .minus | .asterisk => unaryExpression grammar
  | .reserved .when => handler grammar
  | .reserved .set | .reserved .switch => command grammar
  | .reserved .defaultWord => return some (.identifier token token.literal false true)
  | .core _ | .reserved .classWord => return some (bareWord token token.literal)
  | .command family _ => return some (.namespaced token family token.literal [])
  | .illegal =>
    reportIllegal
    return none
  | kind =>
    if kind == .word && !token.isPlus then return some (← operandWord token)
    reportHere (.notAnOperand kind.name)
    return none

/-- An expression whose operators bind tighter than `precedence`. -/
def expression (grammar : Grammar) (precedence : Precedence) : Parse (Option Expression) := do
  let some left ← operand grammar | return none
  grammar.operatorChain left precedence

/-! ## Operators -/

/-- Whether a negative number is glued to the operand before it. -/
def gluedNegative (token : Token) : Bool :=
  token.kind == .number && token.spacing.isAdjacent && token.literal.toList.head? == some '-'

/-- The subtraction meant by a negative number glued to its left operand, with
the current token on the number. -/
def splitSubtraction (grammar : Grammar) (left : Expression) : Parse (Option Expression) := do
  let number ← current
  let start := number.span.start
  let sign : Token := ⟨.minus, "-", number.line, ⟨start, start + 1⟩, number.spacing⟩
  let magnitude : Token :=
    ⟨.number, String.ofList (number.literal.toList.drop 1), number.line,
      ⟨start + 1, number.span.stop⟩, .none⟩
  modify fun state => { state with current := magnitude }
  let first ← numberLiteral
  let some right ← grammar.operatorChain first .sum | return none
  return some (← joined sign left right)

/-- Arguments of a call, separated by commas. -/
def callArguments (grammar : Grammar) : Parse (List Expression) := do
  advance
  let argument ← grammar.expression .lowest
  unless ← isAhead .comma do return argument.toList
  advance
  let later ← grammar.callArguments
  return argument.toList ++ later

/-- A call, with the current token on `(`. -/
def callExpression (grammar : Grammar) (function : Expression) : Parse Expression := do
  let token ← current
  let given ← within .expression do
    if ← isAhead .closeParen then
      advance
      return []
    let given ← grammar.callArguments
    if ← isAhead .closeParen then advance
    else report (.unclosed .call token.line) token.line
    return given
  return .call token function given

/-- The operator at the current token applied to `left`. -/
def applied (grammar : Grammar) (left : Expression) : Parse (Option Expression) := do
  let token ← current
  if token.kind == .openParen then return some (← callExpression grammar left)
  if ← operandMissing token then return none
  advance
  let some right ← grammar.expression (.ofToken token) | return none
  return some (← joined token left right)

/-- Apply operators to `left` as long as they bind tighter than `precedence`. -/
def operatorChain (grammar : Grammar) (left : Expression) (precedence : Precedence) :
    Parse (Option Expression) := do
  let state ← get
  if state.endsCommand then return some left
  let negative := gluedNegative state.lookahead
  let strength := if negative then .sum else Precedence.ofToken state.lookahead
  if strength.rank ≤ precedence.rank then return some left
  advance
  let some next ← if negative then splitSubtraction grammar left else applied grammar left
    | return none
  grammar.operatorChain next precedence

/-! ## Commands and expressions -/

/-- Tokens that start a command rather than an expression. -/
def startsCommand (token : Token) : Bool :=
  match token.kind with
  | .word => !token.isPlus
  | .core _ | .command _ _ => true
  | .reserved .classWord | .reserved .when | .reserved .set | .reserved .ifWord
  | .reserved .switch | .reserved .foreach | .reserved .returnWord => true
  | _ => false

/-- A command, or an expression when an operator follows its first word. Words
after an expression make it the name of a command. -/
def commandOrExpression (grammar : Grammar) : Parse (Option Expression) := do
  let state ← get
  if startsCommand state.current &&
      (state.endsCommand || !Precedence.isStatementOperator state.lookahead) then
    command grammar
  else
    let some name ← grammar.expression .lowest | return none
    if ← endsCommand then return some name
    let given ← grammar.arguments
    return some (.invocation name.token name given)

end IRule.Parser
