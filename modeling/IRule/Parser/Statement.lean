import IRule.Parser.Expression
import IRule.Parser.Switch
import IRule.Text.Blank

/-!
# Statements

Control structures and the dispatch between them. A statement ends with its
command; what is left over is reported and dropped.
-/

namespace IRule.Parser

/-- A `set` statement. -/
def setStatement (grammar : Grammar) : Parse (Option Statement) := do
  let token ← current
  let some (name, value) ← setParts grammar | return none
  return some (.set token name value)

/-- A `return` statement. -/
def returnStatement (grammar : Grammar) : Parse (Option Statement) := do
  let token ← current
  if ← endsCommand then return some (.returning token none)
  advance
  let some value ← grammar.word .word | return none
  return some (.returning token (some value))

/-! ## Conditions -/

/-- A condition in braces, with the current token on `{`. -/
def bracedCondition (grammar : Grammar) : Parse (Option Expression) := do
  let opening ← current
  if ← isAhead .closeBrace then
    reportHere .emptyCondition
    advance
    return none
  let condition ← within .expression do
    advance
    let condition ← grammar.expression .lowest
    unless (← isAhead .closeBrace) || (← isAhead .endOfInput) do
      reportAhead .strayInCondition
      grammar.skipToCloseBrace
    return condition
  if ← isAhead .closeBrace then
    advance
    return condition
  report (.unclosed .condition opening.line) opening.line
  return none

/-- The condition of an `if`, in braces or as a single word. -/
def condition (grammar : Grammar) : Parse (Option Expression) := do
  if ← endsCommand then
    reportAhead (.expected .condition)
    return none
  advance
  if (← current).kind == .openBrace then bracedCondition grammar
  else grammar.word .word

/-- What follows the block of an `if`, even on a later line. -/
def alternative (grammar : Grammar) : Parse (Option Statement) := do
  match (← lookahead).kind with
  | .reserved .elseIf =>
    advance
    grammar.conditional
  | .reserved .elseWord =>
    advance
    if ← isAhead (.reserved .ifWord) then
      advance
      grammar.conditional
    else
      let body ← expectBlock grammar .elseWord
      return body.map .block
  | _ => return none

/-- An `if`, with the current token on `if` or `elseif`. -/
def conditional (grammar : Grammar) : Parse (Option Statement) := do
  let token ← current
  let some tested ← condition grammar | return none
  let next ← lookahead
  if next.kind == .word && next.literal == "then" then advance
  let some consequence ← expectBlock grammar .ifCondition | return none
  let otherwise ← alternative grammar
  return some (.conditional token tested consequence otherwise)

/-! ## Loops and rules -/

/-- Loop variables of a braced list, declared one by one. -/
def loopVariables (line : Nat) : List (List Char) → Parse (List Expression)
  | [] => pure []
  | name :: later => do
    let text := String.ofList name
    let target ← declaredTarget ⟨.word, text, line, .nowhere, .none⟩ text
    let targets ← loopVariables line later
    return target :: targets

/-- The variable or variables of a `foreach`. -/
def loopTargets (grammar : Grammar) : Parse (Option Expression) := do
  let token ← current
  match token.kind with
  | .openBrace =>
    let some body ← captureBrace grammar | return none
    return some (.list token (← loopVariables token.line (Text.words body)))
  | .reference | .openBracket => grammar.word .word
  | _ =>
    let text ← rawWordText grammar
    return some (← declaredTarget token text)

/-- A `foreach` statement. -/
def foreachStatement (grammar : Grammar) : Parse (Option Statement) := do
  let token ← current
  if ← endsCommand then
    reportAhead (.expected .loopVariable)
    return none
  advance
  let some targets ← loopTargets grammar | return none
  if ← endsCommand then
    reportAhead (.expected .loopList)
    return none
  advance
  let some items ← grammar.word .word | return none
  let some body ← expectBlock grammar .foreachList | return none
  return some (.foreach token targets items body)

/-- A named rule, with the current token on `ltm`. -/
def ruleStatement (grammar : Grammar) : Parse (Option Statement) := do
  let token ← current
  advance
  if (← endsCommand) || (← isAhead .openBrace) then
    reportAhead (.expected .ruleName)
    return none
  advance
  let nameToken ← current
  let name ← rawWordText grammar
  let some body ← expectBlock grammar .ruleName | return none
  return some (.rule token (bareWord nameToken name) body)

/-! ## Statements -/

/-- A command or expression as a statement. -/
def expressionStatement (grammar : Grammar) : Parse (Option Statement) := do
  let token ← current
  let value ← grammar.commandOrExpression
  return value.map fun value => .expression token value

/-- The statement at the current token, without what may be left over. -/
def statementBody (grammar : Grammar) : Parse (Option Statement) := do
  let token ← current
  match token.kind with
  | .illegal =>
    reportIllegal
    return none
  | .closeBrace | .closeBracket =>
    reportHere (.unexpected token.description)
    return none
  | .reserved .set => setStatement grammar
  | .reserved .returnWord => returnStatement grammar
  | .reserved .ifWord => grammar.conditional
  | .reserved .switch => switchStatement grammar
  | .reserved .foreach => foreachStatement grammar
  | .openBrace => return some (.block (← block grammar))
  | kind =>
    if kind == .reserved .ltm && (← isAhead (.reserved .rule)) then ruleStatement grammar
    else expressionStatement grammar

/-- One command or control structure; nothing for an empty command. -/
def statement (grammar : Grammar) : Parse (Option Statement) := do
  if (← current).kind == .semicolon then return none
  let result ← statementBody grammar
  finishCommand grammar result.isSome
  return result

/-- Statements up to the end of the input. -/
def script (grammar : Grammar) : Parse (List Statement) := do
  if (← current).kind == .endOfInput then return []
  let next ← grammar.statement
  advance
  let later ← grammar.script
  return next.toList ++ later

end IRule.Parser
