import IRule.Parser.Recovery

/-!
# Blocks

Statements between braces. A block is a scope of its own.
-/

namespace IRule.Parser

/-- Statements up to the closing brace of the block opened on `line`. -/
def blockBody (grammar : Grammar) (line : Nat) : Parse (List Statement) := do
  match (← current).kind with
  | .closeBrace => return []
  | .endOfInput =>
    report (.unclosed .block line) line
    return []
  | _ =>
    let statement ← grammar.statement
    advance
    let later ← grammar.blockBody line
    return statement.toList ++ later

/-- A block, with the current token on `{`. -/
def block (grammar : Grammar) : Parse Block := do
  let token ← current
  modify fun state => { state with scopes := state.scopes.enter }
  let statements ← within .script do
    advance
    grammar.blockBody token.line
  modify fun state => { state with scopes := state.scopes.leave }
  return .mk token statements

/-- Step onto the `{` that has to follow, and read the block. -/
def expectBlock (grammar : Grammar) (head : BlockHead) : Parse (Option Block) := do
  if ← isAhead .openBrace then
    advance
    return some (← block grammar)
  reportAhead (.missingBlock head)
  return none

end IRule.Parser
