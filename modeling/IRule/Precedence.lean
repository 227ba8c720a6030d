import IRule.Token.Basic

/-!
# Precedence

How tightly the operators of expressions bind. Logical operators and
`contains` bind tighter than comparison and arithmetic.
-/

namespace IRule

/-- Binding strength, weakest first. -/
inductive Precedence where
  | lowest
  | equality
  | ordering
  | sum
  | product
  | unary
  | call
  | logical
  | containment
deriving DecidableEq, Repr, Inhabited

namespace Precedence

/-- Position in the order, from 1. -/
def rank : Precedence → Nat
  | lowest => 1
  | equality => 2
  | ordering => 3
  | sum => 4
  | product => 5
  | unary => 6
  | call => 7
  | logical => 8
  | containment => 9

/-- Strength of a token between two operands; `lowest` when it is no operator.
An opening parenthesis is a call only when glued to what it is applied to. -/
def ofToken (token : Token) : Precedence :=
  if token.isPlus then sum
  else
    match token.kind with
    | .equal | .notEqual => equality
    | .reserved .eq | .reserved .ne | .reserved .equals | .reserved .startsWith
    | .reserved .endsWith | .reserved .matching | .reserved .matchesGlob
    | .reserved .matchesRegex | .reserved .inWord => equality
    | .less | .greater | .lessEqual | .greaterEqual => ordering
    | .minus => sum
    | .asterisk | .slash | .percent => product
    | .openParen => if token.spacing.isAdjacent then call else lowest
    | .both | .either => logical
    | .reserved .contains => containment
    | _ => lowest

/-- Whether a token after the name of a command turns the command into an
expression. The signs that may start an argument do not. -/
def isStatementOperator (token : Token) : Bool :=
  match token.kind with
  | .minus | .asterisk | .slash | .percent | .openParen => false
  | _ => decide (lowest.rank < (ofToken token).rank)

end Precedence

end IRule
