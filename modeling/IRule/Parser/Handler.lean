import IRule.Parser.Block
import IRule.Parser.Word

/-!
# Event handlers

A block that runs on an event, optionally with a priority.
-/

namespace IRule.Parser

/-- The event of a handler, at the current token. -/
def eventName : Parse Expression := do
  let token ← current
  if Vocabulary.isEvent token.literal then return bareWord token token.literal
  reportHere (.invalidEvent token.literal)
  return .invalid token token.literal

/-- The priority of a handler, if one is given. A number that does not fit
counts as none. -/
def handlerPriority : Parse (Option Int64) := do
  let state ← get
  if state.lookahead.literal != "priority" || state.endsCommand then return none
  advance
  if ← isAhead .number then
    advance
    return Text.int64? (← current).literal.toList
  reportAhead (.expected .priority)
  return none

/-- An event handler, with the current token on `when`. -/
def handler (grammar : Grammar) : Parse (Option Expression) := do
  let token ← current
  if (← endsCommand) || (← isAhead .openBrace) then
    reportAhead (.expected .event)
    return none
  advance
  let event ← eventName
  let priority ← handlerPriority
  let some body ← expectBlock grammar .eventName | return none
  return some (.handler token event priority body)

end IRule.Parser
