import IRule.Eval.Environment
import IRule.Eval.Operation
import IRule.Script.Printer
import IRule.Text.Blank
import IRule.Text.Lowercase

/-!
# Interpreter

Evaluation of scripts. An expression gives a value, a statement either goes on
with a value or returns one. What was assigned before an error stays assigned.
-/

namespace IRule

/-- Computations that read and assign variables and may fail. -/
abbrev Eval := ExceptT EvalError (StateM Environment)

/-- How a statement ends. -/
inductive Flow where
  | next (value : Value)
  | returned (value : Value)
deriving DecidableEq, Repr, Inhabited

namespace Eval

/-- The outcome of an operation. -/
def ofResult {α : Type} (result : Except EvalError α) : Eval α :=
  ExceptT.mk (pure result)

/-- A construct that cannot be evaluated. -/
def unsupported {α : Type} (construct : String) : Eval α :=
  throw (.unsupported construct)

/-- Value of a variable. -/
def read (name : String) : Eval Value := do
  match (← get).lookup name with
  | some value => return value
  | none => throw (.noSuchVariable name)

/-- Assign a variable. -/
def assign (name : String) (value : Value) : Eval Value := do
  modify fun environment => environment.define name value
  return value

/-- Name of a target: a literal name itself, otherwise the text of what the
target evaluates to. -/
def targetName (target : Expression) (evaluated : Eval Value) : Eval String :=
  match target with
  | .identifier _ name false _ => return name
  | _ => return (← evaluated).written

/-- Add to an integer variable, which counts from zero when it is unset. -/
def increment (name : String) (step : Value) : Eval Value := do
  let current := ((← get).lookup name).getD (.integer 0)
  match current.integer?, step.integer? with
  | some first, some second =>
    let sum ← ofResult (fitted "incr" (first.toInt + second.toInt))
    assign name sum
  | _, _ => throw (.typeMismatch current.type "+" step.type)

/-- Words of a braced list, taken literally. -/
def listWords (elements : List Expression) : List String :=
  elements.map fun element => element.wordText?.getD element.written

/-- Words of the text of a value. -/
def wordsOf (value : Value) : List String :=
  (Text.words value.written.toList).map String.ofList

/-- Name of a math function. -/
def functionName (function : Expression) : String :=
  function.wordText?.getD function.written

/-! ## Loops and arms -/

/-- Cut words into groups of `size`, the last of which may be shorter; `group` is
the one being collected, reversed. -/
def groupsOf (size : Nat) (group : List String) : List String → List (List String)
  | [] => if group.isEmpty then [] else [group.reverse]
  | word :: rest =>
    if group.length + 1 == size then (word :: group).reverse :: groupsOf size [] rest
    else groupsOf size (word :: group) rest

/-- Assign the words of a group to the loop variables; missing words are empty. -/
def assignGroup : List String → List String → Eval Unit
  | [], _ => pure ()
  | name :: names, words => do
    let _ ← assign name (.ofWord (words.headD ""))
    assignGroup names words.tail

/-- Run a body once for each group of words, until it returns. -/
def forGroups (names : List String) (body : Eval Flow) : List (List String) → Eval Flow
  | [] => return .next .empty
  | group :: later => do
    assignGroup names group
    match ← body with
    | .returned value => return .returned value
    | .next _ => forGroups names body later

/-- Text as a `switch` compares it. -/
def foldCase (options : SwitchOptions) (text : String) : String :=
  if options.nocase then String.ofList (Text.lower text.toList) else text

/-- Whether a pattern selects the subject. Globs are matched under `-glob` only. -/
def selects (options : SwitchOptions) (subject : String) (pattern : Pattern) : Bool :=
  let text := foldCase options pattern.text
  if options.glob then Glob.isMatch text subject else text == subject

/-- Whether one of the patterns of an arm selects the subject. -/
def selectsCase (options : SwitchOptions) (subject : String) : CasePattern → Bool
  | .one pattern => selects options subject pattern
  | .several _ patterns => patterns.any (selects options subject)

/-! ## Expressions and statements -/

mutual

/-- Evaluate an expression. The right operand of a logical operator is not
evaluated when the left one decides. -/
def expression : Expression → Eval Value
  | .number _ value => return .integer value
  | .boolean _ value => return .boolean value
  | .string _ text => return .text text
  | .address _ text => return .text text
  | .identifier _ name isVariable _ => if isVariable then read name else return .text name
  | .invalid _ text => return .text text
  | .unary _ operator operand => do
    let value ← expression operand
    ofResult (unaryOperation operator value)
  | .binary _ left operator right => do
    let first ← expression left
    match shortCircuit? operator first with
    | some value => return value
    | none =>
      let second ← expression right
      ofResult (binaryOperation first operator second)
  | .group _ inner => expression inner
  | .computed _ inner => expression inner
  | .bracket _ commands => sequence .empty commands
  | .substitution _ commands => sequence .empty commands
  | .element _ array key => do
    let base ←
      match array with
      | .identifier _ name _ _ => pure name
      | other => Value.written <$> expression other
    let index ← expression key
    read (base ++ "(" ++ index.written ++ ")")
  | .list _ elements => return .text (separated " " (listWords elements))
  | .interpolated _ _ parts => return .text (← texts parts)
  | .call _ function arguments => do
    let name := functionName function
    let values ← integers name arguments
    ofResult (mathFunction name values)
  | .invocation token name arguments =>
    let command := Expression.commandText token name
    match arguments with
    | [target] =>
      if command == "set" then do
        read (← targetName target (expression target))
      else if command == "incr" then do
        increment (← targetName target (expression target)) (.integer 1)
      else unsupported command
    | [target, argument] =>
      if command == "set" then do
        let assigned ← targetName target (expression target)
        assign assigned (← expression argument)
      else if command == "incr" then do
        let assigned ← targetName target (expression target)
        increment assigned (← expression argument)
      else unsupported command
    | _ => unsupported command
  | .handler .. => unsupported "when"
  | .namespaced _ _ command _ => unsupported command
  | .stringOperation _ operation _ => unsupported ("string " ++ operation)
  | .classCommand _ subcommand _ _ => unsupported ("class " ++ subcommand)
  | .regsub .. => unsupported "regsub"
  | .target _ kind _ => unsupported kind.keyword
  | .hash .. => unsupported "HashLiteral"
  | .mapping .. => unsupported "MapLiteral"
  | .regex .. => unsupported "RegexPattern"

/-- Evaluate commands in order; the value is that of the last one. -/
def sequence (last : Value) : List Expression → Eval Value
  | [] => return last
  | command :: later => do
    let value ← expression command
    sequence value later

/-- The texts of the parts of a string, joined. -/
def texts : List Expression → Eval String
  | [] => return ""
  | part :: later => do
    let first ← expression part
    let rest ← texts later
    return first.written ++ rest

/-- Evaluate the arguments of a math function, which have to be integers. -/
def integers (function : String) : List Expression → Eval (List Int64)
  | [] => return []
  | argument :: later => do
    let value ← expression argument
    match value.integer? with
    | none => throw (.typeMismatch value.type function .number)
    | some first =>
      let rest ← integers function later
      return first :: rest

end

mutual

/-- Execute a statement. -/
def statement : Statement → Eval Flow
  | .set _ name value => do
    let assigned ← targetName name (expression name)
    return .next (← assign assigned (← expression value))
  | .returning _ none => return .returned .empty
  | .returning _ (some value) => return .returned (← expression value)
  | .expression _ value => return .next (← expression value)
  | .block body => block body
  | .conditional _ condition consequence alternative => do
    if (← expression condition).isTruthy then block consequence
    else
      match alternative with
      | some otherwise => statement otherwise
      | none => return .next .empty
  | .switch _ options value cases => do
    if options.regex then unsupported "switch -regex"
    else
      let subject := foldCase options (← expression value).written
      match ← selected options subject cases with
      | some flow => return flow
      | none => defaultCase cases
  | .foreach _ targets items body => do
    let names ←
      match targets with
      | .list _ elements => pure (listWords elements)
      | target => List.singleton <$> targetName target (expression target)
    let words ←
      match items with
      | .list _ elements => pure (listWords elements)
      | other => wordsOf <$> expression other
    if names.isEmpty then return .next .empty
    else forGroups names (block body) (groupsOf names.length [] words)
  | .rule .. => unsupported "ltm rule"

/-- Execute a block; its value is that of its last statement. -/
def block : Block → Eval Flow
  | .mk _ body => statements .empty body

/-- Execute statements in order, until one returns. -/
def statements (last : Value) : List Statement → Eval Flow
  | [] => return .next last
  | first :: later => do
    match ← statement first with
    | .next value => statements value later
    | .returned value => return .returned value

/-- Execute the first arm whose pattern selects the subject. -/
def selected (options : SwitchOptions) (subject : String) : List Case → Eval (Option Flow)
  | [] => return none
  | .mk _ none _ :: later => selected options subject later
  | .mk _ (some pattern) body :: later =>
    if selectsCase options subject pattern then do
      let flow ← block body
      return some flow
    else selected options subject later

/-- Execute the first default arm. -/
def defaultCase : List Case → Eval Flow
  | [] => return .next .empty
  | .mk _ none body :: _ => block body
  | .mk _ (some _) _ :: later => defaultCase later

end

/-- Execute the statements of a script. A failure comes with the line of the
statement it happened in. -/
def script (last : Value) (environment : Environment) :
    List Statement → Except (EvalError × Nat) Value × Environment
  | [] => (.ok last, environment)
  | first :: later =>
    match (statement first).run.run environment with
    | (.ok (.next value), after) => script value after later
    | (.ok (.returned value), after) => (.ok value, after)
    | (.error error, after) => (.error (error, first.line), after)

end Eval

/-- Run a script. -/
def Script.run (script : Script) (environment : Environment) :
    Except (EvalError × Nat) Value × Environment :=
  Eval.script .empty environment script.statements

end IRule
