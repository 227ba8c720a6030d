/-!
# Operators

The operators between two operands and the classes that decide which operands
they accept.
-/

namespace IRule

/-- What an operator works on. -/
inductive OperatorClass where
  | stringMatch
  | equality
  | ordering
  | arithmetic
  | logical
deriving DecidableEq, Repr, Inhabited

/-- Operators between two operands. -/
inductive Operator where
  | add
  | subtract
  | multiply
  | divide
  | modulo
  | less
  | greater
  | lessEqual
  | greaterEqual
  | equal
  | notEqual
  | textEqual
  | textNotEqual
  | within
  | both
  | either
  | contains
  | startsWith
  | endsWith
  | equals
  | matching
  | matchesGlob
  | matchesRegex
deriving DecidableEq, Repr, Inhabited

namespace Operator

/-- Every operator. -/
def all : List Operator :=
  [add, subtract, multiply, divide, modulo, less, greater, lessEqual, greaterEqual, equal,
    notEqual, textEqual, textNotEqual, within, both, either, contains, startsWith, endsWith, equals,
    matching, matchesGlob, matchesRegex]

/-- Spelling of the operator. -/
def text : Operator → String
  | add => "+"
  | subtract => "-"
  | multiply => "*"
  | divide => "/"
  | modulo => "%"
  | less => "<"
  | greater => ">"
  | lessEqual => "<="
  | greaterEqual => ">="
  | equal => "=="
  | notEqual => "!="
  | textEqual => "eq"
  | textNotEqual => "ne"
  | within => "in"
  | both => "&&"
  | either => "||"
  | contains => "contains"
  | startsWith => "starts_with"
  | endsWith => "ends_with"
  | equals => "equals"
  | matching => "matches"
  | matchesGlob => "matches_glob"
  | matchesRegex => "matches_regex"

/-- The operator of a spelling. -/
def ofText? (text : String) : Option Operator :=
  all.find? fun operator => operator.text == text

/-- Class of the operator. -/
def kind : Operator → OperatorClass
  | add | subtract | multiply | divide | modulo => .arithmetic
  | less | greater | lessEqual | greaterEqual => .ordering
  | equal | notEqual | textEqual | textNotEqual | within => .equality
  | both | either => .logical
  | contains | startsWith | endsWith | equals | matching | matchesGlob | matchesRegex =>
    .stringMatch

end Operator

end IRule
