/-!
# Diagnostic codes

Every problem the validator or the evaluator can report belongs to one code,
`E` and four digits, whose first digit is the category of the problem.
-/

namespace IRule

/-- Areas of the language a problem belongs to. -/
inductive Category where
  | lexical
  | structural
  | identifier
  | command
  | operator
  | scope
  | evaluation
deriving DecidableEq, Repr, Inhabited

/-- Kinds of problems. -/
inductive Code where
  | unterminatedString
  | illegalCharacter
  | strayCloser
  | invalidNumber
  | unexpectedToken
  | expectedExpression
  | missingBrace
  | unbalancedBraces
  | expectedBrace
  | missingCloser
  | invalidIdentifier
  | invalidVariable
  | invalidHeader
  | undeclaredVariable
  | invalidEvent
  | argumentCount
  | switchOption
  | regsubFlag
  | stringOperation
  | classCommand
  | operandTypes
  | scopeConflict
  | typeMismatch
  | unknownOperator
  | invalidCommand
  | divisionByZero
  | noSuchVariable
  | overflow
  | mathArguments
  | unsupported
deriving DecidableEq, Repr, Inhabited

namespace Code

/-- Every code, in ascending order. -/
def all : List Code :=
  [unterminatedString, illegalCharacter, strayCloser, invalidNumber, unexpectedToken,
    expectedExpression, missingBrace, unbalancedBraces, expectedBrace, missingCloser,
    invalidIdentifier, invalidVariable, invalidHeader, undeclaredVariable, invalidEvent,
    argumentCount, switchOption, regsubFlag, stringOperation, classCommand, operandTypes,
    scopeConflict, typeMismatch, unknownOperator, invalidCommand, divisionByZero, noSuchVariable,
    overflow, mathArguments, unsupported]

/-- Written form of the code. -/
def text : Code → String
  | unterminatedString => "E0001"
  | illegalCharacter => "E0002"
  | strayCloser => "E0003"
  | invalidNumber => "E0004"
  | unexpectedToken => "E1001"
  | expectedExpression => "E1002"
  | missingBrace => "E1003"
  | unbalancedBraces => "E1004"
  | expectedBrace => "E1005"
  | missingCloser => "E1006"
  | invalidIdentifier => "E2001"
  | invalidVariable => "E2002"
  | invalidHeader => "E2003"
  | undeclaredVariable => "E2004"
  | invalidEvent => "E2005"
  | argumentCount => "E3001"
  | switchOption => "E3002"
  | regsubFlag => "E3003"
  | stringOperation => "E3004"
  | classCommand => "E3005"
  | operandTypes => "E4001"
  | scopeConflict => "E5001"
  | typeMismatch => "E6001"
  | unknownOperator => "E6002"
  | invalidCommand => "E6003"
  | divisionByZero => "E6004"
  | noSuchVariable => "E6005"
  | overflow => "E6006"
  | mathArguments => "E6007"
  | unsupported => "E6008"

/-- One line on the kind of problem. -/
def description : Code → String
  | unterminatedString => "unterminated string literal"
  | illegalCharacter => "illegal character"
  | strayCloser => "closing delimiter without an opening one"
  | invalidNumber => "invalid number literal"
  | unexpectedToken => "unexpected token"
  | expectedExpression => "expected an expression"
  | missingBrace => "missing closing brace"
  | unbalancedBraces => "unbalanced braces"
  | expectedBrace => "expected `\x7b`"
  | missingCloser => "missing closing bracket or parenthesis"
  | invalidIdentifier => "invalid identifier"
  | invalidVariable => "invalid variable name"
  | invalidHeader => "invalid header name"
  | undeclaredVariable => "undeclared variable"
  | invalidEvent => "invalid event name"
  | argumentCount => "wrong number of arguments"
  | switchOption => "invalid switch option"
  | regsubFlag => "invalid regsub flag"
  | stringOperation => "invalid string operation"
  | classCommand => "invalid class subcommand or operator"
  | operandTypes => "operator not valid for operand types"
  | scopeConflict => "mutually exclusive commands in one scope"
  | typeMismatch => "operand type mismatch"
  | unknownOperator => "unknown operator"
  | invalidCommand => "invalid command name"
  | divisionByZero => "division by zero"
  | noSuchVariable => "no such variable"
  | overflow => "integer overflow"
  | mathArguments => "wrong number of arguments to a math function"
  | unsupported => "not supported by the evaluator"

/-- Category of the problem, the first digit of the code. -/
def category : Code → Category
  | unterminatedString | illegalCharacter | strayCloser | invalidNumber => .lexical
  | unexpectedToken | expectedExpression | missingBrace | unbalancedBraces | expectedBrace
  | missingCloser => .structural
  | invalidIdentifier | invalidVariable | invalidHeader | undeclaredVariable
  | invalidEvent => .identifier
  | argumentCount | switchOption | regsubFlag | stringOperation | classCommand => .command
  | operandTypes => .operator
  | scopeConflict => .scope
  | typeMismatch | unknownOperator | invalidCommand | divisionByZero | noSuchVariable | overflow
  | mathArguments | unsupported => .evaluation

/-- The code with the given written form, in capital or small letters. -/
def ofText? (text : String) : Option Code :=
  all.find? fun code => code.text == text.map Char.toUpper

end Code

end IRule
