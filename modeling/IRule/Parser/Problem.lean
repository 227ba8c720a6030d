import IRule.Diagnostic.Basic
import IRule.Scope

/-!
# Problems of a rule

What the parser can find wrong with a rule, apart from lexical errors. The
wording and the code of each problem stand here and nowhere else.
-/

namespace IRule

/-- Constructs that end with a closing delimiter. -/
inductive Unclosed where
  | block
  | bracedWord
  | condition
  | switchBody
  | group
  | call
  | index
  | bracket
deriving DecidableEq, Repr, Inhabited

namespace Unclosed

/-- Code of a missing closer. -/
def code : Unclosed → Code
  | block | bracedWord | condition | switchBody => .missingBrace
  | group | call | index | bracket => .missingCloser

/-- What is missing and for what. -/
def text : Unclosed → String
  | block => "missing closing brace for block"
  | bracedWord => "missing closing brace for '\x7b'"
  | condition => "missing closing brace for condition"
  | switchBody => "missing closing brace for switch body"
  | group => "missing ')' for '('"
  | call => "missing ')' for call"
  | index => "missing ')' for array index"
  | bracket => "missing close-bracket for '['"

end Unclosed

/-- What should have come next. -/
inductive Expectation where
  | condition
  | ruleName
  | event
  | priority
  | loopVariable
  | loopList
  | switchValue
  | hashColon
  | hashValue
  | hashSeparator
deriving DecidableEq, Repr, Inhabited

namespace Expectation

/-- Code of a missed expectation. -/
def code : Expectation → Code
  | condition | hashValue => .expectedExpression
  | ruleName | hashColon | hashSeparator => .unexpectedToken
  | event => .invalidEvent
  | priority | loopVariable | loopList | switchValue => .argumentCount

/-- Name of what is expected. -/
def text : Expectation → String
  | condition => "a condition"
  | ruleName => "a rule name"
  | event => "an event name"
  | priority => "a priority number"
  | loopVariable => "a loop variable"
  | loopList => "a list to iterate"
  | switchValue => "a value to switch on"
  | hashColon => "':' after hash key"
  | hashValue => "a hash value"
  | hashSeparator => "',' or end of hash"

end Expectation

/-- What a block has to follow. -/
inductive BlockHead where
  | ifCondition
  | elseWord
  | foreachList
  | ruleName
  | switchValue
  | switchPattern
  | eventName
deriving DecidableEq, Repr, Inhabited

/-- Name of what a block has to follow. -/
def BlockHead.text : BlockHead → String
  | .ifCondition => "if condition"
  | .elseWord => "else"
  | .foreachList => "foreach list"
  | .ruleName => "rule name"
  | .switchValue => "switch value"
  | .switchPattern => "switch pattern"
  | .eventName => "event name"

/-- Problems the parser reports. Tokens and nodes appear by their text. -/
inductive Problem where
  | numberRange (literal : String)
  | unexpected (found : String)
  | leftover (found : String)
  | strayInCondition (found : String)
  | strayInSwitch (found : String)
  | expected (what : Expectation) (found : String)
  | emptyCondition
  | emptyGroup
  | emptyIndex
  | missingOperand (operator : String)
  | notAnOperand (kind : String)
  | unclosed (what : Unclosed) (line : Nat)
  | unbalanced (depth : Int)
  | missingBlock (head : BlockHead) (found : String)
  | missingBody
  | invalidIdentifier (name : String)
  | invalidVariable (name : String)
  | invalidHeader (name : String)
  | undeclaredVariable (name : String)
  | invalidEvent (name : String)
  | setWithoutName
  | setWithoutValue (name : String)
  | setExtraWords (name value : String)
  | stringArguments (operation : String) (least given : Nat)
  | classArguments (subcommand : String) (given : Nat)
  | regsubArguments (given : Nat)
  | targetArguments (keyword : String)
  | switchOption (option : String)
  | regsubFlag (flag : String)
  | missingStringOperation
  | stringOperation (operation : String)
  | missingSubcommand
  | classSubcommand (subcommand : String)
  | classOption (option : String)
  | classOperator (subcommand operator : String)
  | operandTypes (operator left right : String)
  | conflict (conflict : Conflict)
deriving DecidableEq, Repr, Inhabited

namespace Problem

/-- Code of the problem. -/
def code : Problem → Code
  | numberRange _ => .invalidNumber
  | unexpected _ | leftover _ | strayInCondition _ | strayInSwitch _ => .unexpectedToken
  | expected what _ => what.code
  | emptyCondition | emptyGroup | emptyIndex | missingOperand _ | notAnOperand _ =>
    .expectedExpression
  | unclosed what _ => what.code
  | unbalanced _ => .unbalancedBraces
  | missingBlock .. | missingBody => .expectedBrace
  | invalidIdentifier _ => .invalidIdentifier
  | invalidVariable _ => .invalidVariable
  | invalidHeader _ => .invalidHeader
  | undeclaredVariable _ => .undeclaredVariable
  | invalidEvent _ => .invalidEvent
  | setWithoutName | setWithoutValue _ | setExtraWords .. | stringArguments ..
  | classArguments .. | regsubArguments _ | targetArguments _ => .argumentCount
  | switchOption _ => .switchOption
  | regsubFlag _ => .regsubFlag
  | missingStringOperation | stringOperation _ => .stringOperation
  | missingSubcommand | classSubcommand _ | classOption _ | classOperator .. => .classCommand
  | operandTypes .. => .operandTypes
  | conflict _ => .scopeConflict

/-- Wording of the problem. -/
def message : Problem → String
  | numberRange literal => "integer literal '" ++ literal ++ "' is out of range"
  | unexpected found => "unexpected " ++ found
  | leftover found => "unexpected " ++ found ++ " after end of command"
  | strayInCondition found => "unexpected " ++ found ++ " in condition"
  | strayInSwitch found => "unexpected " ++ found ++ " in switch body"
  | expected what found => "expected " ++ what.text ++ ", got " ++ found
  | emptyCondition => "empty condition"
  | emptyGroup => "empty parentheses"
  | emptyIndex => "empty array index"
  | missingOperand operator => "expected an operand after '" ++ operator ++ "'"
  | notAnOperand kind => "no prefix parse function for " ++ kind ++ " found"
  | unclosed what line => what.text ++ " opened on line " ++ toString line
  | unbalanced depth => "Unbalanced braces: depth at end of parsing is " ++ toString depth
  | missingBlock head found => "expected '\x7b' after " ++ head.text ++ ", got " ++ found
  | missingBody => "no body after fall-through '-' in last switch case"
  | invalidIdentifier name => "invalid identifier '" ++ name ++ "'"
  | invalidVariable name => "invalid variable name '" ++ name ++ "'"
  | invalidHeader name => "invalid header name '" ++ name ++ "'"
  | undeclaredVariable name => "undeclared variable '$" ++ name ++ "'"
  | invalidEvent name => "invalid event '" ++ name ++ "'"
  | setWithoutName => "wrong # args: should be \"set varName newValue\""
  | setWithoutValue name => "wrong # args: 'set " ++ name ++ "' is missing a value"
  | setExtraWords name value =>
    "wrong # args: extra words after 'set " ++ name ++ " " ++ value ++ "'"
  | stringArguments operation least given =>
    "wrong # args: 'string " ++ operation ++ "' needs at least " ++ toString least ++
      " argument(s), got " ++ toString given
  | classArguments subcommand given =>
    "wrong # args: 'class " ++ subcommand ++ "' takes item, operator and class, got " ++
      toString given ++ " argument(s)"
  | regsubArguments given =>
    "wrong # args: regsub takes pattern, input, replacement and result variable, got " ++
      toString given
  | targetArguments keyword => "wrong # args: '" ++ keyword ++ "' needs a target"
  | switchOption option => "invalid switch option '" ++ option ++ "'"
  | regsubFlag flag => "invalid regsub flag '" ++ flag ++ "'"
  | missingStringOperation => "missing string operation"
  | stringOperation operation => "invalid string operation '" ++ operation ++ "'"
  | missingSubcommand => "missing class subcommand"
  | classSubcommand subcommand => "invalid class subcommand '" ++ subcommand ++ "'"
  | classOption option => "invalid class option '" ++ option ++ "'"
  | classOperator subcommand operator =>
    "invalid class " ++ subcommand ++ " operator '" ++ operator ++ "'"
  | operandTypes operator left right =>
    "invalid operands for '" ++ operator ++ "': " ++ left ++ " and " ++ right
  | conflict refusal => refusal.message

/-- The problem as a diagnostic at a line. -/
def diagnostic (problem : Problem) (line : Nat) : Diagnostic :=
  .error problem.code problem.message line

end Problem

end IRule
