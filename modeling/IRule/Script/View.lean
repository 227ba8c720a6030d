import IRule.Script.Basic

/-!
# Views of a script

The token, line and kind of a node, and the text of the nodes that are words.
-/

namespace IRule

namespace Pattern

/-- The token of a pattern. -/
def token : Pattern → Token
  | plain token _ | glob token _ | regex token _ => token

/-- The text of a pattern. -/
def text : Pattern → String
  | plain _ text | glob _ text | regex _ text => text

end Pattern

namespace Block

/-- The token of the opening brace. -/
def token : Block → Token
  | mk token _ => token

/-- The statements of the block. -/
def statements : Block → List Statement
  | mk _ statements => statements

end Block

namespace Case

/-- The token an arm starts at. -/
def token : Case → Token
  | mk token _ _ => token

/-- The pattern of an arm, `none` for the default arm. -/
def pattern : Case → Option CasePattern
  | mk _ pattern _ => pattern

/-- The body of an arm. -/
def body : Case → Block
  | mk _ _ body => body

end Case

namespace Expression

/-- The token a node starts at. -/
def token : Expression → Token
  | identifier token .. | invalid token .. | number token .. | string token ..
  | boolean token .. | address token .. | unary token .. | binary token .. | group token ..
  | computed token .. | element token .. | call token .. | invocation token ..
  | bracket token .. | list token .. | hash token .. | mapping token .. | handler token ..
  | namespaced token .. | stringOperation token .. | classCommand token .. | regsub token ..
  | substitution token .. | interpolated token .. | regex token .. | target token .. => token

/-- Line of the node. -/
def line (expression : Expression) : Nat :=
  expression.token.line

/-- Name of the kind of node. -/
def kindName : Expression → String
  | identifier .. => "Identifier"
  | invalid .. => "InvalidIdentifier"
  | number .. => "NumberLiteral"
  | string .. => "StringLiteral"
  | boolean .. => "Boolean"
  | address .. => "IpAddressLiteral"
  | unary .. => "PrefixExpression"
  | binary .. => "InfixExpression"
  | group .. => "ParenthesizedExpression"
  | computed .. => "BracketExpression"
  | element .. => "IndexExpression"
  | call .. => "CallExpression"
  | invocation .. => "CommandInvocation"
  | bracket .. => "ArrayLiteral"
  | list .. => "ListLiteral"
  | hash .. => "HashLiteral"
  | mapping .. => "MapLiteral"
  | handler .. => "WhenExpression"
  | namespaced _ .http .. => "HttpExpression"
  | namespaced _ .ssl .. => "SSLExpression"
  | namespaced _ .lb .. => "LoadBalancerExpression"
  | namespaced _ .ip .. => "IpExpression"
  | stringOperation .. => "StringOperation"
  | classCommand .. => "ClassCommand"
  | regsub .. => "RegsubExpression"
  | substitution .. => "CommandSubstitution"
  | interpolated .. => "InterpolatedString"
  | regex .. => "RegexPattern"
  | target .. => "NodeStatement"

/-- Text of a node that is literal text: bare words and literals. -/
def wordText? : Expression → Option String
  | identifier _ name isVariable _ => if isVariable then none else some name
  | invalid _ text => some text
  | string _ text => some text
  | address _ text => some text
  | number token _ => some token.literal
  | boolean token _ => some token.literal
  | _ => none

/-- Whether the node is literal text. -/
def isLiteral (expression : Expression) : Bool :=
  expression.wordText?.isSome

/-- Whether the node is a reference to a variable. -/
def isVariable : Expression → Bool
  | identifier _ _ isVariable _ => isVariable
  | _ => false

/-- Whether the node is a command of one of the families. -/
def isNamespaced : Expression → Bool
  | namespaced .. => true
  | _ => false

/-- Whether the node is a quoted string without embeddings. -/
def isString : Expression → Bool
  | string .. => true
  | _ => false

/-- Whether the node is a number. -/
def isNumber : Expression → Bool
  | number .. => true
  | _ => false

/-- Text of a command name: its literal text, else that of its token. -/
def commandText (token : Token) (name : Expression) : String :=
  name.wordText?.getD token.literal

end Expression

namespace Statement

/-- The token a statement starts at. -/
def token : Statement → Token
  | set token .. | returning token .. | expression token .. | conditional token ..
  | switch token .. | foreach token .. | rule token .. => token
  | block body => body.token

/-- Line of the statement. -/
def line (statement : Statement) : Nat :=
  statement.token.line

/-- Name of the kind of statement. -/
def kindName : Statement → String
  | set .. => "SetStatement"
  | returning .. => "ReturnStatement"
  | expression .. => "ExpressionStatement"
  | block .. => "BlockStatement"
  | conditional .. => "IfStatement"
  | switch .. => "SwitchStatement"
  | foreach .. => "ForEachStatement"
  | rule .. => "LtmRule"

/-- The expression of a statement that is one. -/
def expression? : Statement → Option Expression
  | expression _ value => some value
  | _ => none

end Statement

namespace Script

/-- Literal of the first token, empty for an empty script. -/
def firstLiteral (script : Script) : String :=
  match script.statements with
  | [] => ""
  | statement :: _ => statement.token.literal

end Script

end IRule
