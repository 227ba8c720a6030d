import IRule.Parser.Word
import IRule.Script.Printer

/-!
# Assignments

Targets of assignments, and the name and value of a `set`.
-/

namespace IRule.Parser

/-- A literal name in the place of a target, with the variable it declares when
the name is legal. -/
def variableTarget (token : Token) (text : String) : Parse (Expression × Option String) := do
  if Naming.isVariableName text then
    return (bareWord token text, some (String.ofList (Naming.arrayBase text.toList)))
  report (.invalidVariable text) token.line
  return (.invalid token text, none)

/-- A literal name that is declared at once. -/
def declaredTarget (token : Token) (text : String) : Parse Expression := do
  let (target, name) ← variableTarget token text
  declare name
  return target

/-- The target of a `set`, with the variable it declares when it is literal. -/
def setTarget (grammar : Grammar) : Parse (Option (Expression × Option String)) := do
  let token ← current
  match token.kind with
  | .openBracket =>
    let inner ← bracketed grammar
    return some (.computed token inner, none)
  | .reference | .string =>
    let name ← grammar.word .word
    return name.map fun name => (name, none)
  | _ =>
    let text ← rawWordText grammar
    return some (← variableTarget token text)

/-- Target and value of a `set`. The target is declared after the value was
read, so a value cannot refer to the variable it defines. -/
def setParts (grammar : Grammar) : Parse (Option (Expression × Expression)) := do
  if ← endsCommand then
    reportHere .setWithoutName
    return none
  advance
  let some (name, declared) ← setTarget grammar | return none
  if ← endsCommand then
    reportHere (.setWithoutValue name.written)
    return none
  advance
  let some value ← grammar.word .word | return none
  unless ← endsCommand do
    reportAhead fun _ => .setExtraWords name.written value.written
    grammar.skipCommand 0
  declare declared
  return some (name, value)

end IRule.Parser
